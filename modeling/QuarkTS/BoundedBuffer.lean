import Mathlib.Data.List.Range
import Mathlib.Logic.Function.Basic
import QuarkTS.Lib.Coroutine
import QuarkTS.Lib.Runs

/-!
# Coroutines and semaphores: the bounded buffer

The example of `doc/pages/extensions.dox` for semaphores: a producer and a consumer share a buffer
of `BUFSIZE` items and are coroutines, so that each runs until it yields.  The documented behaviour
of the semaphores is the laws of `CoRoutines`; the buffer comes with `AppLibrary.h`, and the laws of
`AppLibrary` are what the example relies on.  The scheduler activates the two tasks in any order.

* `items_in_order` — on every schedule the consumer gets the items produced, in their order and
  once each, and no counter overflows;
* `blocked_iff` — an activation goes on exactly if there is room for the producer, or an item for
  the consumer, and ends when there is none, or at the end of the coroutine;
* `mutex_unneeded` — without the mutex the program does the same.
-/

set_option autoImplicit false

namespace QuarkTS.BoundedBuffer

open Coroutine Runs

def NUM_ITEMS : Nat := 32
def BUFSIZE : Nat := 8

/-! ## The kernel and the library -/

/-- The coroutine extension.  A wait for a semaphore blocks, which is `none`, while the counter is
    zero; the documentation leaves open whether `qCR_End` yields or starts anew at once. -/
structure CoRoutines where
  Sem : Type
  semInit : Nat → Sem
  semWait : Sem → Option Sem
  semSignal : Sem → Sem
  endYields : Bool
  counter : Sem → Nat
  counter_init {n : Nat} (h : n < UInt32.size) : counter (semInit n) = n
  semWait_eq_none {x : Sem} : semWait x = none ↔ counter x = 0
  counter_wait {x y : Sem} (h : semWait x = some y) : counter x = counter y + 1
  counter_signal {x : Sem} (h : counter x + 1 < UInt32.size) : counter (semSignal x) = counter x + 1

/-- The buffer of the application: first in, first out, while it is used within its bounds. -/
structure AppLibrary (α : Type) where
  Buf : Type
  empty : Buf
  addToBuffer : Buf → α → Buf
  getFromBuffer : Buf → α × Buf
  items : Buf → List α
  items_empty : items empty = []
  items_add {b : Buf} (h : (items b).length < BUFSIZE) (x : α) :
    items (addToBuffer b x) = items b ++ [x]
  get_eq {b : Buf} {x : α} {xs : List α} (h : items b = x :: xs) :
    (getFromBuffer b).1 = x ∧ items (getFromBuffer b).2 = xs

/-- A semaphore is its counter, a `uint32_t`. -/
def CoRoutines.reference : CoRoutines where
  Sem := BitVec 32
  semInit n := BitVec.ofNat 32 n
  semWait x := if x = 0 then none else some (x - 1)
  semSignal x := x + 1
  endYields := true
  counter x := x.toNat
  counter_init {n} h := by
    rw [BitVec.toNat_ofNat]
    exact Nat.mod_eq_of_lt h
  semWait_eq_none := by
    intro x
    by_cases h : x = 0
    · simp [h]
    · simp only [h, if_false, reduceCtorEq, false_iff]
      exact fun hx => h (BitVec.eq_of_toNat_eq hx)
  counter_wait {x y} h := by
    by_cases hx : x = 0
    · rw [if_pos hx] at h
      cases h
    · rw [if_neg hx] at h
      cases h
      bv_omega
  counter_signal {x} h := by
    have hsize : UInt32.size = 4294967296 := rfl
    rw [hsize] at h
    bv_omega

/-- A list, of which an empty one gives the default item. -/
def AppLibrary.reference (α : Type) [Inhabited α] : AppLibrary α where
  Buf := List α
  empty := []
  addToBuffer b x := b ++ [x]
  getFromBuffer b := (b.headI, b.tail)
  items b := b
  items_empty := rfl
  items_add _ _ := rfl
  get_eq := by
    rintro _ x xs rfl
    exact ⟨rfl, rfl⟩

/-! ## The program -/

inductive Task where
  | producer
  | consumer
  deriving DecidableEq, Repr

inductive Semaphore where
  | full
  | empty
  | mutex
  deriving DecidableEq, Repr

/-- Where a coroutine goes on: at its beginning, at its first or at its second wait. -/
inductive Position where
  | start
  | first
  | second
  deriving DecidableEq, Repr

/-- The position and the loop variable, which is static. -/
structure Frame where
  position : Position
  count : Nat
  deriving DecidableEq, Repr

/-- `made` counts the calls of `produce_item`, and `consumed` has what `consume_item` was called
    with. -/
structure System (C : CoRoutines) {α : Type} (L : AppLibrary α) where
  sem : Semaphore → C.Sem
  frame : Task → Frame
  buffer : L.Buf
  made : Nat
  consumed : List α

variable {C : CoRoutines} {α : Type} {L : AppLibrary α}

/-- After `main` has set up the semaphores. -/
def start (C : CoRoutines) {α : Type} (L : AppLibrary α) : System C L where
  sem
    | .empty => C.semInit 0
    | .full => C.semInit BUFSIZE
    | .mutex => C.semInit 1
  frame _ := ⟨.start, 0⟩
  buffer := L.empty
  made := 0
  consumed := []

namespace System

def semWait (x : Semaphore) (s : System C L) : Option (System C L) :=
  (C.semWait (s.sem x)).map fun y => { s with sem := Function.update s.sem x y }

def semSignal (x : Semaphore) (s : System C L) : System C L :=
  { s with sem := Function.update s.sem x (C.semSignal (s.sem x)) }

/-- The coroutine of `t` stands at a position, with a value of its loop variable. -/
def moveTo (t : Task) (p : Position) (n : Nat) (s : System C L) : System C L :=
  { s with frame := Function.update s.frame t ⟨p, n⟩ }

/-- `add_to_buffer( produce_item() )`; the calls of `produce_item` return `item 0`, `item 1`, ... -/
def addItem (item : Nat → α) (s : System C L) : System C L :=
  { s with buffer := L.addToBuffer s.buffer (item s.made), made := s.made + 1 }

/-- `consume_item( get_from_buffer() )`. -/
def consumeItem (s : System C L) : System C L :=
  { s with
    buffer := (L.getFromBuffer s.buffer).2
    consumed := s.consumed ++ [(L.getFromBuffer s.buffer).1] }

end System

/-- The head of the `for` loop, and after the last pass `qCR_End`. -/
def loop (t : Task) (n : Nat) (s : System C L) : Outcome (System C L) :=
  if n < NUM_ITEMS then .go (s.moveTo t .first n)
  else if C.endYields then .yield (s.moveTo t .start n)
  else .go (s.moveTo t .start n)

/-- What the callbacks share: the loop waits for one semaphore and for the mutex, does the body of
    the pass and signals the mutex and another semaphore.  A wait that blocks yields, and is made
    again in the next activation.  The mutex is left out unless `guarded`. -/
def callback (guarded : Bool) (t : Task) (awaited signaled : Semaphore)
    (body : System C L → System C L) (s : System C L) : Outcome (System C L) :=
  match (s.frame t).position with
  | .start => loop t 0 s
  | .first =>
    match s.semWait awaited with
    | none => .yield s
    | some u => .go (u.moveTo t .second (s.frame t).count)
  | .second =>
    match if guarded then s.semWait .mutex else some s with
    | none => .yield s
    | some u =>
      let v := if guarded then (body u).semSignal .mutex else body u
      loop t ((s.frame t).count + 1) (v.semSignal signaled)

/-- `ProducerTask_Callback`. -/
def producerTaskCallback (guarded : Bool) (item : Nat → α) :
    System C L → Outcome (System C L) :=
  callback guarded .producer .full .empty (System.addItem item)

/-- `ConsumerTask_Callback`. -/
def consumerTaskCallback (guarded : Bool) : System C L → Outcome (System C L) :=
  callback guarded .consumer .empty .full System.consumeItem

def taskCallback (guarded : Bool) (item : Nat → α) :
    Task → System C L → Outcome (System C L)
  | .producer => producerTaskCallback guarded item
  | .consumer => consumerTaskCallback guarded

/-- An activation of a task; a pass has three pieces and takes a unit of a semaphore. -/
def step (guarded : Bool) (item : Nat → α) (s : System C L) (t : Task) : Option (System C L) :=
  activate (taskCallback guarded item t) (3 * BUFSIZE + 3) s

/-- The state after the activations of a schedule. -/
def after (C : CoRoutines) {α : Type} (L : AppLibrary α) (guarded : Bool) (item : Nat → α)
    (schedule : List Task) : Option (System C L) :=
  execute (step guarded item) Anything (start C L) schedule

/-! ## What both tasks have in common -/

def Task.other : Task → Task
  | .producer => .consumer
  | .consumer => .producer

/-- The semaphore that a task waits for; it signals the one that the other task waits for. -/
def Task.awaited : Task → Semaphore
  | .producer => .full
  | .consumer => .empty

/-- What a task does in a pass. -/
def pass (item : Nat → α) : Task → System C L → System C L
  | .producer => System.addItem item
  | .consumer => System.consumeItem

theorem taskCallback_eq (guarded : Bool) (item : Nat → α) (t : Task) :
    taskCallback guarded item t =
      callback guarded t t.awaited t.other.awaited (pass (C := C) (L := L) item t) := by
  cases t <;> rfl

namespace System

/-- How many passes a task can make: places for the producer, items for the consumer. -/
def room (s : System C L) : Task → Nat
  | .producer => BUFSIZE - (L.items s.buffer).length
  | .consumer => (L.items s.buffer).length

/-- How many passes a task has made. -/
def passes (s : System C L) : Task → Nat
  | .producer => s.made
  | .consumer => s.consumed.length

/-- The counter of a semaphore. -/
def units (s : System C L) (x : Semaphore) : Nat := C.counter (s.sem x)

end System

/-- Between its two waits a coroutine has taken a unit that it has not yet passed on. -/
def Frame.held (f : Frame) : Nat := if f.position = .second then 1 else 0

theorem Frame.held_second {f : Frame} (h : f.position = .second) : f.held = 1 := if_pos h

theorem Frame.held_other {f : Frame} (h : f.position ≠ .second) : f.held = 0 := if_neg h

theorem Task.other_ne (t : Task) : t.other ≠ t := by
  cases t <;> decide

theorem Task.eq_or_other (t u : Task) : u = t ∨ u = t.other := by
  cases t <;> cases u <;> decide

theorem Task.awaited_ne_mutex (t : Task) : t.awaited ≠ .mutex := by
  cases t <;> decide

theorem Task.awaited_other_ne (t : Task) : t.other.awaited ≠ t.awaited := by
  cases t <;> decide

/-! ## Small steps -/

section Small

variable {s u : System C L} {x y : Semaphore}

theorem semWait_eq_none : s.semWait x = none ↔ s.units x = 0 := by
  rw [System.semWait, Option.map_eq_none_iff, C.semWait_eq_none, System.units]

/-- A wait that does not block takes a unit. -/
theorem semWait_cases (h : s.semWait x = some u) :
    (∃ m, u = { s with sem := m }) ∧ s.units x = u.units x + 1 ∧
      ∀ y, y ≠ x → u.units y = s.units y := by
  obtain ⟨m, hm, rfl⟩ := Option.map_eq_some_iff.1 h
  refine ⟨⟨_, rfl⟩, ?_, fun y hy => ?_⟩
  · simp only [System.units, Function.update_self]
    exact C.counter_wait hm
  · simp only [System.units, Function.update_of_ne hy]

theorem units_semSignal (h : s.units x + 1 < UInt32.size) :
    (s.semSignal x).units x = s.units x + 1 := by
  simp only [System.semSignal, System.units, Function.update_self]
  exact C.counter_signal h

theorem units_semSignal_of_ne (h : y ≠ x) : (s.semSignal x).units y = s.units y := by
  simp only [System.semSignal, System.units, Function.update_of_ne h]

end Small

/-! ## The invariant -/

/-- What has been consumed or is in the buffer are the items made, in their order. -/
structure Stored (item : Nat → α) (s : System C L) : Prop where
  bounded : (L.items s.buffer).length ≤ BUFSIZE
  items : s.consumed ++ L.items s.buffer = (List.range s.made).map item

/-- The mutex is free, and the other semaphores count the room that no coroutine has claimed. -/
structure Inv (item : Nat → α) (s : System C L) : Prop extends Stored item s where
  mutex : s.units .mutex = 1
  counted : ∀ t : Task, s.units t.awaited + (s.frame t).held = s.room t

section Invariant

variable {guarded : Bool} {item : Nat → α} {s : System C L} {t : Task}

theorem inv_start : Inv item (start C L) where
  bounded := by
    rw [start, L.items_empty]
    exact Nat.zero_le _
  items := by simp [start, L.items_empty]
  mutex := C.counter_init (by decide)
  counted := by
    rintro (_ | _)
    · rw [System.room, start, L.items_empty]
      exact C.counter_init (by decide)
    · rw [System.room, start, L.items_empty]
      exact C.counter_init (by decide)

theorem Stored.room_le (h : Stored item s) (t : Task) : s.room t ≤ BUFSIZE := by
  cases t with
  | producer => exact Nat.sub_le _ _
  | consumer => exact h.bounded

/-- With room for it, a pass moves one item: there is less room for the task that has made it and
    more for the other. -/
theorem Stored.pass (h : Stored item s) (hroom : 0 < s.room t) :
    Stored item (pass item t s) ∧ s.room t = (pass item t s).room t + 1 ∧
      (pass item t s).room t.other = s.room t.other + 1 ∧
      (pass item t s).passes t = s.passes t + 1 := by
  have hbounded := h.bounded
  cases t with
  | producer =>
    have hlt : (L.items s.buffer).length < BUFSIZE := by
      rw [System.room] at hroom
      omega
    have hitems := L.items_add hlt (item s.made)
    refine ⟨⟨?_, ?_⟩, ?_, ?_, rfl⟩
    · simp only [BoundedBuffer.pass, System.addItem, hitems, List.length_append,
        List.length_singleton]
      omega
    · simp only [BoundedBuffer.pass, System.addItem, hitems, ← List.append_assoc, h.items,
        List.range_succ, List.map_append, List.map_singleton]
    · simp only [System.room, BoundedBuffer.pass, System.addItem, hitems, List.length_append,
        List.length_singleton]
      omega
    · simp only [Task.other, System.room, BoundedBuffer.pass, System.addItem, hitems,
        List.length_append, List.length_singleton]
  | consumer =>
    obtain ⟨x, xs, hbuffer⟩ := List.exists_cons_of_length_pos hroom
    obtain ⟨hget, hrest⟩ := L.get_eq hbuffer
    have hitems := h.items
    rw [hbuffer] at hitems hbounded
    rw [List.length_cons] at hbounded
    refine ⟨⟨?_, ?_⟩, ?_, ?_, ?_⟩
    · simp only [BoundedBuffer.pass, System.consumeItem, hrest]
      omega
    · simp only [BoundedBuffer.pass, System.consumeItem, hget, hrest, List.append_assoc,
        List.singleton_append, hitems]
    · simp only [System.room, BoundedBuffer.pass, System.consumeItem, hbuffer, hrest,
        List.length_cons]
    · simp only [Task.other, System.room, BoundedBuffer.pass, System.consumeItem, hbuffer, hrest,
        List.length_cons]
      omega
    · simp [System.passes, BoundedBuffer.pass, System.consumeItem]

/-- The loop goes on at its first wait or at the beginning of the coroutine, or yields there. -/
theorem loop_cases (t : Task) (n : Nat) (s : System C L) :
    (∃ p, p ≠ .second ∧ loop t n s = .go (s.moveTo t p n)) ∨
      loop t n s = .yield (s.moveTo t .start n) := by
  unfold loop
  split_ifs
  · exact Or.inl ⟨.first, by decide, rfl⟩
  · exact Or.inr rfl
  · exact Or.inl ⟨.start, by decide, rfl⟩

theorem loop_state (t : Task) (n : Nat) (s : System C L) :
    ∃ p, p ≠ .second ∧ (loop t n s).state = s.moveTo t p n := by
  rcases loop_cases t n s with ⟨p, hpos, hloop⟩ | hloop
  · exact ⟨p, hpos, by rw [hloop]; rfl⟩
  · exact ⟨.start, by decide, by rw [hloop]; rfl⟩

theorem pass_sem (t : Task) (m : Semaphore → C.Sem) :
    pass item t { s with sem := m } = { pass item t s with sem := m } := by
  cases t <;> rfl

theorem frame_pass (t t' : Task) : (pass item t s).frame t' = s.frame t' := by
  cases t <;> rfl

/-- The mutex is taken without blocking and given back. -/
theorem Inv.locked (h : Inv item s) (guarded : Bool) (t : Task) :
    ∃ u v, (if guarded then s.semWait .mutex else some s) = some u ∧
      (if guarded then (pass item t u).semSignal .mutex else pass item t u) = v ∧
      (∃ m, v = { pass item t s with sem := m }) ∧ ∀ y, v.units y = s.units y := by
  cases guarded with
  | false => exact ⟨s, _, rfl, rfl, ⟨s.sem, by cases t <;> rfl⟩, fun y => by cases t <;> rfl⟩
  | true =>
    have hmutex := h.mutex
    have hone : 0 + 1 < UInt32.size := by decide
    cases hwait : s.semWait .mutex with
    | none =>
      rw [semWait_eq_none.1 hwait] at hmutex
      cases hmutex
    | some u =>
      obtain ⟨⟨m, rfl⟩, hunits, hsame⟩ := semWait_cases hwait
      refine ⟨_, _, rfl, rfl, ⟨_, by rw [pass_sem]; rfl⟩, fun y => ?_⟩
      rw [if_pos rfl, pass_sem]
      have hpass : ∀ y, System.units { pass item t s with sem := m } y =
          System.units { s with sem := m } y := fun _ => rfl
      by_cases hy : y = .mutex
      · subst hy
        rw [units_semSignal (by rw [hpass]; omega), hpass, hunits]
      · rw [units_semSignal_of_ne hy, hpass, hsame y hy]

/-- A piece enters the loop, blocks, takes a unit of its semaphore or makes a pass. -/
theorem Inv.callback_cases (h : Inv item s) (guarded : Bool) (t : Task) :
    ((s.frame t).position = .start ∧
      taskCallback guarded item t s = .go (s.moveTo t .first 0)) ∨
    ((s.frame t).position = .first ∧ s.room t = 0 ∧ taskCallback guarded item t s = .yield s) ∨
    ((s.frame t).position = .first ∧ ∃ u, (∃ m, u = { s with sem := m }) ∧
      s.units t.awaited = u.units t.awaited + 1 ∧ (∀ y, y ≠ t.awaited → u.units y = s.units y) ∧
      taskCallback guarded item t s = .go (u.moveTo t .second (s.frame t).count)) ∨
    ((s.frame t).position = .second ∧ ∃ u, (∃ m, u = { pass item t s with sem := m }) ∧
      u.units t.other.awaited = s.units t.other.awaited + 1 ∧
      (∀ y, y ≠ t.other.awaited → u.units y = s.units y) ∧
      taskCallback guarded item t s = loop t ((s.frame t).count + 1) u) := by
  rw [taskCallback_eq]
  cases hp : (s.frame t).position with
  | start => exact Or.inl ⟨rfl, by rw [callback, hp]; rfl⟩
  | first =>
    have hcounted := h.counted t
    rw [Frame.held_other (by rw [hp]; decide)] at hcounted
    cases hwait : s.semWait t.awaited with
    | none =>
      have hzero := semWait_eq_none.1 hwait
      exact Or.inr (Or.inl ⟨rfl, by omega, by rw [callback, hp]; simp only [hwait]⟩)
    | some u =>
      obtain ⟨hsem, hunits, hsame⟩ := semWait_cases hwait
      refine Or.inr (Or.inr (Or.inl ⟨rfl, u, hsem, hunits, hsame, ?_⟩))
      rw [callback, hp]
      simp only [hwait]
  | second =>
    obtain ⟨u, v, hu, hv, ⟨m, hm⟩, hunits⟩ := h.locked guarded t
    have hle := h.room_le t.other
    have hcounted := h.counted t.other
    have hsize : BUFSIZE + 1 < UInt32.size := by decide
    refine Or.inr (Or.inr (Or.inr
      ⟨rfl, v.semSignal t.other.awaited, ⟨_, by rw [hm]; rfl⟩, ?_, ?_, ?_⟩))
    · rw [units_semSignal (by rw [hunits]; omega), hunits]
    · intro y hy
      rw [units_semSignal_of_ne hy, hunits]
    · rw [callback, hp]
      simp only [hu, hv]

/-- A coroutine moves on. -/
theorem inv_moveTo {p : Position} {n : Nat} (hstored : Stored item s)
    (hmutex : s.units .mutex = 1) (ht : s.units t.awaited + (Frame.mk p n).held = s.room t)
    (hother : s.units t.other.awaited + (s.frame t.other).held = s.room t.other) :
    Inv item (s.moveTo t p n) where
  toStored := ⟨hstored.bounded, hstored.items⟩
  mutex := hmutex
  counted := by
    intro t'
    rcases t.eq_or_other t' with rfl | rfl
    · simp only [System.moveTo, Function.update_self]
      exact ht
    · simp only [System.moveTo, Function.update_of_ne t.other_ne]
      exact hother

/-- A piece that is a pass has room for it. -/
theorem Inv.room_pos (h : Inv item s) (hp : (s.frame t).position = .second) : 0 < s.room t := by
  have ht := h.counted t
  rw [Frame.held_second hp] at ht
  omega

/-- **Each piece keeps the invariant.** -/
theorem Inv.piece (h : Inv item s) (guarded : Bool) (t : Task) :
    Inv item (taskCallback guarded item t s).state := by
  have ht := h.counted t
  have hother := h.counted t.other
  have hmutex := t.awaited_ne_mutex.symm
  rcases h.callback_cases guarded t with ⟨hp, heq⟩ | ⟨-, -, heq⟩ |
    ⟨hp, u, ⟨m, rfl⟩, hunits, hsame, heq⟩ | ⟨hp, u, ⟨m, rfl⟩, hunits, hsame, heq⟩
  · rw [Frame.held_other (by rw [hp]; decide)] at ht
    rw [heq]
    exact inv_moveTo h.toStored h.mutex ht hother
  · rw [heq]
    exact h
  · rw [Frame.held_other (by rw [hp]; decide)] at ht
    rw [heq]
    refine inv_moveTo ⟨h.bounded, h.items⟩ ((hsame _ hmutex).trans h.mutex) ?_ ?_
    · rw [Frame.held_second rfl]
      exact hunits.symm.trans ht
    · rw [hsame _ t.awaited_other_ne]
      exact hother
  · rw [Frame.held_second hp] at ht
    obtain ⟨hstored, hroom, hroom', -⟩ := h.toStored.pass (h.room_pos hp)
    obtain ⟨p, hpos, hloop⟩ := loop_state t ((s.frame t).count + 1)
      { BoundedBuffer.pass item t s with sem := m }
    rw [heq, hloop]
    refine inv_moveTo ⟨hstored.bounded, hstored.items⟩
      ((hsame _ t.other.awaited_ne_mutex.symm).trans h.mutex) ?_ ?_
    · rw [hsame _ t.awaited_other_ne.symm, Frame.held_other hpos]
      exact Nat.succ.inj (ht.trans hroom)
    · rw [hunits]
      change _ + ((BoundedBuffer.pass item t s).frame t.other).held = _
      rw [frame_pass]
      exact (Nat.add_right_comm _ _ _).trans ((congrArg (· + 1) hother).trans hroom'.symm)

/-- What the pieces of an activation of `t` leave alone, and that the first pass needs room. -/
structure Progress (t : Task) (s₀ s : System C L) : Prop where
  other : s.frame t.other = s₀.frame t.other
  passed : (s₀.passes t < s.passes t ∧ 0 < s₀.room t) ∨
    (s.passes t = s₀.passes t ∧ s.room t = s₀.room t)

theorem progress_refl (t : Task) (s : System C L) : Progress t s s := ⟨rfl, Or.inr ⟨rfl, rfl⟩⟩

/-- The coroutine of `t` moves on, and the semaphores may change. -/
theorem Progress.moveTo {s₀ : System C L} (h : Progress t s₀ s) (m : Semaphore → C.Sem)
    (p : Position) (n : Nat) : Progress t s₀ (System.moveTo t p n { s with sem := m }) where
  other := by
    simp only [System.moveTo, Function.update_of_ne t.other_ne]
    exact h.other
  passed := by
    cases t with
    | producer => exact h.passed
    | consumer => exact h.passed

theorem Progress.pass {s₀ : System C L} (h : Progress t s₀ s) (hstored : Stored item s)
    (hroom : 0 < s.room t) : Progress t s₀ (BoundedBuffer.pass item t s) where
  other := by
    rw [frame_pass]
    exact h.other
  passed := by
    obtain ⟨-, -, -, hpasses⟩ := hstored.pass hroom
    rcases h.passed with ⟨hlt, hpos⟩ | ⟨heq, hsame⟩
    · exact Or.inl ⟨by omega, hpos⟩
    · exact Or.inl ⟨by omega, by omega⟩

theorem Progress.piece {s₀ : System C L} (h : Progress t s₀ s) (hinv : Inv item s)
    (guarded : Bool) : Progress t s₀ (taskCallback guarded item t s).state := by
  rcases hinv.callback_cases guarded t with ⟨-, heq⟩ | ⟨-, -, heq⟩ |
    ⟨-, u, ⟨m, rfl⟩, -, -, heq⟩ | ⟨hp, u, ⟨m, rfl⟩, -, -, heq⟩
  · rw [heq]
    exact h.moveTo s.sem .first 0
  · rw [heq]
    exact h
  · rw [heq]
    exact h.moveTo m .second _
  · obtain ⟨p, -, hloop⟩ := loop_state t ((s.frame t).count + 1)
      { BoundedBuffer.pass item t s with sem := m }
    rw [heq, hloop]
    exact (h.pass hinv.toStored (hinv.room_pos hp)).moveTo m p _

/-- How many pieces an activation of `t` can still have. -/
def remaining (t : Task) (s : System C L) : Nat :=
  3 * s.units t.awaited +
    match (s.frame t).position with
    | .first => 0
    | .start => 1
    | .second => 2

theorem remaining_moveTo (p : Position) (n : Nat) : remaining t (s.moveTo t p n) =
    3 * s.units t.awaited + match p with
      | .first => 0
      | .start => 1
      | .second => 2 := by
  simp only [remaining, System.moveTo, Function.update_self]
  rfl

/-- A piece that goes on leaves fewer pieces to come. -/
theorem Inv.remaining_lt (h : Inv item s) {s' : System C L}
    (hgo : taskCallback guarded item t s = .go s') : remaining t s' < remaining t s := by
  rcases h.callback_cases guarded t with ⟨hp, heq⟩ | ⟨-, -, heq⟩ |
    ⟨hp, u, -, hunits, -, heq⟩ | ⟨hp, u, -, -, hsame, heq⟩
  · rw [heq] at hgo
    cases hgo
    rw [remaining_moveTo, remaining, hp]
    exact Nat.lt_succ_self _
  · rw [heq] at hgo
    cases hgo
  · rw [heq] at hgo
    cases hgo
    rw [remaining_moveTo, remaining, hp, hunits]
    dsimp only
    omega
  · rw [heq] at hgo
    rcases loop_cases t ((s.frame t).count + 1) u with ⟨p, hpos, hloop⟩ | hloop
    · rw [hloop] at hgo
      cases hgo
      rw [remaining_moveTo, remaining, hp, hsame _ t.awaited_other_ne.symm]
      cases p with
      | second => exact absurd rfl hpos
      | first => exact Nat.lt_add_of_pos_right (by decide)
      | start => exact Nat.lt_succ_self _
    · rw [hloop] at hgo
      cases hgo

/-- A piece that yields has found no room, or has made the last pass of the coroutine. -/
theorem Inv.yielded (h : Inv item s) {s' : System C L}
    (hyield : taskCallback guarded item t s = .yield s') :
    ((s'.frame t).position = .first ∧ s'.room t = 0) ∨
      ((s'.frame t).position = .start ∧ s.passes t < s'.passes t) := by
  rcases h.callback_cases guarded t with ⟨-, heq⟩ | ⟨hp, hroom, heq⟩ | ⟨-, u, -, -, -, heq⟩ |
    ⟨hp, u, ⟨m, rfl⟩, -, -, heq⟩
  · rw [heq] at hyield
    cases hyield
  · rw [heq] at hyield
    cases hyield
    exact Or.inl ⟨hp, hroom⟩
  · rw [heq] at hyield
    cases hyield
  · rw [heq] at hyield
    obtain ⟨-, -, -, hpasses⟩ := h.toStored.pass (h.room_pos hp)
    rcases loop_cases t ((s.frame t).count + 1)
      { BoundedBuffer.pass item t s with sem := m } with ⟨p, -, hloop⟩ | hloop
    · rw [hloop] at hyield
      cases hyield
    · rw [hloop] at hyield
      cases hyield
      refine Or.inr ⟨by simp only [System.moveTo, Function.update_self], ?_⟩
      exact (Nat.lt_succ_self _).trans_eq (hpasses.symm.trans (by cases t <;> rfl))

/-! ## Activations -/

/-- Between activations no coroutine waits for the mutex. -/
structure Rests (item : Nat → α) (s : System C L) : Prop extends Inv item s where
  resting : ∀ t, (s.frame t).position ≠ .second

theorem rests_start : Rests item (start C L) where
  toInv := inv_start
  resting _ := nofun

theorem Inv.remaining_lt_fuel (h : Inv item s) (t : Task) : remaining t s < 3 * BUFSIZE + 3 := by
  have ht := h.counted t
  have hle := h.room_le t
  rw [remaining]
  cases (s.frame t).position <;> dsimp only <;> omega

/-- **An activation comes to an end**; it makes a pass exactly if there is room for one, and ends
    when there is none, or at the end of the coroutine. -/
theorem Rests.step (h : Rests item s) (guarded : Bool) (t : Task) :
    ∃ s', step guarded item s t = some s' ∧ Rests item s' ∧
      (s.passes t < s'.passes t ↔ 0 < s.room t) ∧
      (s'.room t = 0 ∨ (s'.frame t).position = .start) := by
  obtain ⟨u, s', hact, ⟨hinv, hprogress⟩, hyield⟩ :
      ∃ u s', BoundedBuffer.step guarded item s t = some s' ∧ (Inv item u ∧ Progress t s u) ∧
        taskCallback guarded item t u = .yield s' :=
    activate_spec (I := fun u => Inv item u ∧ Progress t s u)
      (fun u hu => ⟨hu.1.piece guarded t, hu.2.piece hu.1 guarded⟩)
      (fun u _ hu hgo => hu.1.remaining_lt hgo) ⟨h.toInv, progress_refl t s⟩
      (h.toInv.remaining_lt_fuel t)
  have hinv' : Inv item s' := by
    simpa only [hyield, Outcome.state] using hinv.piece guarded t
  have hprogress' : Progress t s s' := by
    simpa only [hyield, Outcome.state] using hprogress.piece hinv guarded
  refine ⟨s', hact, ⟨hinv', fun t' => ?_⟩, ?_⟩
  · rcases t.eq_or_other t' with rfl | rfl
    · rcases hinv.yielded hyield with ⟨hp, -⟩ | ⟨hp, -⟩
      · rw [hp]
        decide
      · rw [hp]
        decide
    · rw [hprogress'.other]
      exact h.resting _
  · rcases hinv.yielded hyield with ⟨-, hroom⟩ | ⟨hp, hlt⟩
    · refine ⟨?_, Or.inl hroom⟩
      rcases hprogress'.passed with ⟨hpassed, hpos⟩ | ⟨hsame, hsame'⟩
      · exact iff_of_true hpassed hpos
      · exact iff_of_false (by omega) (by rw [← hsame', hroom]; omega)
    · refine ⟨?_, Or.inr hp⟩
      rcases hprogress'.passed with ⟨hpassed, hpos⟩ | ⟨hsame, -⟩
      · exact iff_of_true hpassed hpos
      · rcases hprogress.passed with ⟨hpassed, -⟩ | ⟨hbefore, -⟩
        · omega
        · omega

theorem rests_after (C : CoRoutines) (L : AppLibrary α) (guarded : Bool) (item : Nat → α)
    (schedule : List Task) : ∃ s, after C L guarded item schedule = some s ∧ Rests item s :=
  exists_execute (fun _ t h =>
    let ⟨s', hs', hrests, _⟩ := h.step guarded t
    ⟨s', hs', hrests⟩) schedule rests_start

end Invariant

/-- **The consumer gets the items in order**, on every schedule: what has been consumed, followed by
    what is in the buffer, are the items made so far, in their order and once each; so no item is
    added to a full buffer, and none is read from an empty one.  The counters never exceed
    `BUFSIZE`. -/
theorem items_in_order (C : CoRoutines) (L : AppLibrary α) (item : Nat → α)
    (schedule : List Task) :
    ∃ s, after C L true item schedule = some s ∧
      s.consumed ++ L.items s.buffer = (List.range s.made).map item ∧
      (L.items s.buffer).length ≤ BUFSIZE ∧ ∀ x, C.counter (s.sem x) ≤ BUFSIZE := by
  obtain ⟨s, hs, hrests⟩ := rests_after C L true item schedule
  refine ⟨s, hs, hrests.items, hrests.bounded, ?_⟩
  have hunits : ∀ t : Task, s.units t.awaited ≤ BUFSIZE := fun t =>
    (Nat.le_add_right _ _).trans ((hrests.counted t).trans_le (hrests.room_le t))
  rintro (_ | _ | _)
  · exact hunits .producer
  · exact hunits .consumer
  · exact hrests.mutex.trans_le (by decide)

/-- The consumer finds nothing, the producer fills the buffer and the consumer empties it. -/
example : (after .reference (.reference Nat) true id [.consumer, .producer, .consumer]).map
    (fun s => (s.made, s.consumed)) = some (8, [0, 1, 2, 3, 4, 5, 6, 7]) := by decide

/-- **The mutex never blocks**: on every schedule no coroutine waits for it, and an activation goes
    on exactly if there is room for the producer, or an item for the consumer, and ends when there
    is none, or at the end of the coroutine. -/
theorem blocked_iff (C : CoRoutines) (L : AppLibrary α) (item : Nat → α) (schedule : List Task) :
    ∃ s, after C L true item schedule = some s ∧ ∀ t, (s.frame t).position ≠ .second ∧
      ∃ s', step true item s t = some s' ∧ (s.passes t < s'.passes t ↔ 0 < s.room t) ∧
        (s'.room t = 0 ∨ (s'.frame t).position = .start) := by
  obtain ⟨s, hs, hrests⟩ := rests_after C L true item schedule
  refine ⟨s, hs, fun t => ⟨hrests.resting t, ?_⟩⟩
  obtain ⟨s', hs', -, hpasses, hend⟩ := hrests.step true t
  exact ⟨s', hs', hpasses, hend⟩

/-! ## Without the mutex -/

/-- The mutex as `main` has set it up. -/
def System.resetMutex (s : System C L) : System C L :=
  { s with sem := Function.update s.sem .mutex (C.semInit 1) }

section Unguarded

variable {item : Nat → α} {s : System C L} {x : Semaphore}

theorem resetMutex_start : (start C L).resetMutex = start C L := by
  have hsem : Function.update (start C L).sem .mutex (C.semInit 1) = (start C L).sem :=
    Function.update_eq_self _ _
  rw [System.resetMutex, hsem]

theorem resetMutex_loop (t : Task) (n : Nat) (s : System C L) :
    loop t n s.resetMutex = (loop t n s).map System.resetMutex := by
  unfold loop
  split_ifs <;> rfl

theorem resetMutex_semSignal (hx : x ≠ .mutex) :
    (s.semSignal x).resetMutex = s.resetMutex.semSignal x := by
  simp only [System.resetMutex, System.semSignal, Function.update_of_ne hx]
  rw [Function.update_comm hx]

theorem resetMutex_semWait (hx : x ≠ .mutex) :
    s.resetMutex.semWait x = (s.semWait x).map System.resetMutex := by
  simp only [System.semWait, System.resetMutex, Function.update_of_ne hx, Option.map_map]
  refine congrArg (Option.map · _) (funext fun y => ?_)
  simp only [Function.comp_apply, System.resetMutex]
  rw [Function.update_comm hx]

/-- What is done to the mutex alone is not seen. -/
theorem resetMutex_signal_mutex : (s.semSignal .mutex).resetMutex = s.resetMutex := by
  simp only [System.resetMutex, System.semSignal, Function.update_idem]

theorem resetMutex_wait_mutex {u : System C L} (h : s.semWait .mutex = some u) :
    u.resetMutex = s.resetMutex := by
  obtain ⟨m, -, rfl⟩ := Option.map_eq_some_iff.1 h
  simp only [System.resetMutex, Function.update_idem]

theorem resetMutex_pass (t : Task) (s : System C L) :
    (pass item t s).resetMutex = pass item t s.resetMutex := by
  cases t <;> rfl

/-- Without the mutex a piece does the same to everything else. -/
theorem Inv.unguarded (h : Inv item s) (t : Task) : taskCallback false item t s.resetMutex =
    (taskCallback true item t s).map System.resetMutex := by
  rw [taskCallback_eq, taskCallback_eq, callback, callback]
  have hframe : s.resetMutex.frame = s.frame := rfl
  rw [hframe]
  cases hp : (s.frame t).position with
  | start => exact resetMutex_loop t 0 s
  | first =>
    rw [resetMutex_semWait t.awaited_ne_mutex]
    cases s.semWait t.awaited with
    | none => rfl
    | some u => rfl
  | second =>
    have hmutex := h.mutex
    cases hwait : s.semWait .mutex with
    | none =>
      rw [semWait_eq_none.1 hwait] at hmutex
      cases hmutex
    | some u =>
      simp only [if_true]
      rw [← resetMutex_loop, resetMutex_semSignal t.other.awaited_ne_mutex,
        resetMutex_signal_mutex, resetMutex_pass, resetMutex_wait_mutex hwait]
      rfl

theorem Rests.unguarded (h : Rests item s) (t : Task) :
    BoundedBuffer.step false item s.resetMutex t =
      (BoundedBuffer.step true item s t).map System.resetMutex :=
  activate_map (I := Inv item) (fun _ hu => hu.piece true t) (fun _ hu => hu.unguarded t) _ h.toInv

/-- The runs of the two programs. -/
theorem after_unguarded (C : CoRoutines) (L : AppLibrary α) (item : Nat → α)
    (schedule : List Task) :
    after C L false item schedule = (after C L true item schedule).map System.resetMutex := by
  have hkept : ∀ (s : System C L) (t : Task) (s' : System C L), Rests item s →
      step true item s t = some s' → Rests item s' := by
    intro s t s' h hstep
    obtain ⟨u, hu, hrests, -⟩ := h.step true t
    rw [hu] at hstep
    cases hstep
    exact hrests
  rw [after, ← resetMutex_start]
  exact execute_map hkept (fun _ t h => h.unguarded t) schedule rests_start

end Unguarded

/-- **There is no need for the mutex**: on every schedule the program without it comes to the same
    state, except that the mutex is as `main` has set it up. -/
theorem mutex_unneeded (C : CoRoutines) (L : AppLibrary α) (item : Nat → α)
    (schedule : List Task) : ∃ s, after C L true item schedule = some s ∧
      after C L false item schedule =
        some { s with sem := Function.update s.sem .mutex (C.semInit 1) } := by
  obtain ⟨s, hs, -⟩ := rests_after C L true item schedule
  refine ⟨s, hs, ?_⟩
  rw [after_unguarded, hs]
  rfl

end QuarkTS.BoundedBuffer
