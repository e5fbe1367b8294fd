import Mathlib.Logic.Function.Basic
import QuarkTS.Lib.Runs
import QuarkTS.Lib.Statechart
import QuarkTS.Lib.Fifo

/-!
# A statechart driven by a signal queue and by timeouts

A reactor is a statechart, a bounded queue of pending events and a family of timers.  An event
that is posted to a full queue is lost.  States arm and disarm timers when they are entered and
left, as their timeout definitions say; a timer that has run out posts its expiry event to the
back of the queue.  Events are consumed from the front, one at a time.

The results are about a timeout `i` that every owner arms on entry and disarms on exit
(`EntryExit`), in every run:

* `armed_as_defined` — an armed timer has the deadline and the mode of some definition;
* `owner_of_armed` — while the timer is armed, a state that owns it is active;
* `armed_or_pending` — while a state that owns it is active, the timer is armed or its expiry
  event is in the queue, provided that no expiry is lost to a full queue.
-/

set_option autoImplicit false

namespace Reactor

open Statechart Runs

/-! ## Timers -/

/-- What a state does with one timer; the deadline is in ticks. -/
structure Timeout where
  deadline : Nat
  index : Nat
  setEntry : Bool := false
  rstEntry : Bool := false
  setExit : Bool := false
  rstExit : Bool := false
  keepIfSet : Bool := false
  periodic : Bool := false
  deriving DecidableEq, Repr

/-- An armed timer and the ticks that have passed since it was armed. -/
structure Timer where
  deadline : Nat
  elapsed : Nat
  periodic : Bool
  deriving DecidableEq, Repr

/-- `none` is a timer that is not armed. -/
abbrev Timers := Nat → Option Timer

/-- `n` ticks pass for every armed timer. -/
def elapse (n : Nat) (tm : Timers) : Timers := fun i =>
  (tm i).map fun t => { t with elapsed := t.elapsed + n }

theorem elapse_zero (tm : Timers) : elapse 0 tm = tm := by
  funext i
  rw [elapse]
  cases tm i <;> rfl

theorem elapse_elapse (m n : Nat) (tm : Timers) : elapse n (elapse m tm) = elapse (m + n) tm := by
  funext i
  simp only [elapse]
  cases tm i with
  | none => rfl
  | some t => simp [Nat.add_assoc]

namespace Timeout

def set (d : Timeout) (tm : Timers) : Timers :=
  if d.keepIfSet && (tm d.index).isSome then tm
  else Function.update tm d.index (some ⟨d.deadline, 0, d.periodic⟩)

def reset (d : Timeout) (tm : Timers) : Timers := Function.update tm d.index none

def onEntry (tm : Timers) (d : Timeout) : Timers :=
  let tm := if d.setEntry then d.set tm else tm
  if d.rstEntry then d.reset tm else tm

def onExit (tm : Timers) (d : Timeout) : Timers :=
  let tm := if d.setExit then d.set tm else tm
  if d.rstExit then d.reset tm else tm

theorem set_other {d : Timeout} {i : Nat} (h : d.index ≠ i) (tm : Timers) : d.set tm i = tm i := by
  unfold set
  split
  · rfl
  · exact Function.update_of_ne (Ne.symm h) _ _

theorem set_own (d : Timeout) (tm : Timers) : (d.set tm d.index).isSome := by
  unfold set
  split
  · rename_i h; simp at h; exact h.2
  · simp

theorem reset_other {d : Timeout} {i : Nat} (h : d.index ≠ i) (tm : Timers) :
    d.reset tm i = tm i :=
  Function.update_of_ne (Ne.symm h) _ _

theorem onEntry_other {d : Timeout} {i : Nat} (h : d.index ≠ i) (tm : Timers) :
    onEntry tm d i = tm i := by
  unfold onEntry
  split <;> split <;> simp [set_other h, reset_other h]

theorem onExit_other {d : Timeout} {i : Nat} (h : d.index ≠ i) (tm : Timers) :
    onExit tm d i = tm i := by
  unfold onExit
  split <;> split <;> simp [set_other h, reset_other h]

/-- The timer is armed as the definition says. -/
def Configures (d : Timeout) (i : Nat) (t : Timer) : Prop :=
  d.index = i ∧ t.deadline = d.deadline ∧ t.periodic = d.periodic

theorem set_eq_some {d : Timeout} {tm : Timers} {i : Nat} {t : Timer} (h : d.set tm i = some t) :
    tm i = some t ∨ d.Configures i t := by
  unfold set at h
  split at h
  · exact Or.inl h
  · by_cases hi : i = d.index
    · subst hi
      rw [Function.update_self, Option.some.injEq] at h
      subst h
      exact Or.inr ⟨rfl, rfl, rfl⟩
    · rw [Function.update_of_ne hi] at h
      exact Or.inl h

theorem reset_eq_some {d : Timeout} {tm : Timers} {i : Nat} {t : Timer}
    (h : d.reset tm i = some t) : tm i = some t := by
  by_cases hi : i = d.index
  · subst hi
    rw [reset, Function.update_self] at h
    cases h
  · rwa [reset, Function.update_of_ne hi] at h

theorem onEntry_eq_some {d : Timeout} {tm : Timers} {i : Nat} {t : Timer}
    (h : onEntry tm d i = some t) : tm i = some t ∨ d.Configures i t := by
  unfold onEntry at h
  split at h <;> split at h
  · exact set_eq_some (reset_eq_some h)
  · exact Or.inl (reset_eq_some h)
  · exact set_eq_some h
  · exact Or.inl h

theorem onExit_eq_some {d : Timeout} {tm : Timers} {i : Nat} {t : Timer}
    (h : onExit tm d i = some t) : tm i = some t ∨ d.Configures i t := by
  unfold onExit at h
  split at h <;> split at h
  · exact set_eq_some (reset_eq_some h)
  · exact Or.inl (reset_eq_some h)
  · exact set_eq_some h
  · exact Or.inl h

/-- What holds of one definition at a time holds of a list of definitions. -/
theorem foldl_eq_some {f : Timers → Timeout → Timers} {i : Nat} {t : Timer}
    (hf : ∀ tm d, f tm d i = some t → tm i = some t ∨ d.Configures i t) {ds : List Timeout}
    {tm : Timers} (h : ds.foldl f tm i = some t) :
    tm i = some t ∨ ∃ d ∈ ds, d.Configures i t := by
  induction ds generalizing tm with
  | nil => exact Or.inl h
  | cons d ds ih =>
    rcases ih h with h' | ⟨e, he, hc⟩
    · exact (hf tm d h').imp_right fun hc => ⟨d, List.mem_cons_self, hc⟩
    · exact Or.inr ⟨e, List.mem_cons_of_mem _ he, hc⟩

/-- Armed on entry and disarmed on exit, and nothing else. -/
structure EntryExit (d : Timeout) : Prop where
  setEntry : d.setEntry = true
  rstEntry : d.rstEntry = false
  setExit : d.setExit = false
  rstExit : d.rstExit = true

theorem EntryExit.onEntry_isSome {d : Timeout} (h : d.EntryExit) (tm : Timers) :
    (onEntry tm d d.index).isSome := by
  simp [onEntry, h.setEntry, h.rstEntry, set_own]

theorem EntryExit.onExit_eq {d : Timeout} (h : d.EntryExit) (tm : Timers) :
    onExit tm d d.index = none := by
  simp [onExit, h.setExit, h.rstExit, reset]

instance (d : Timeout) : Decidable d.EntryExit :=
  decidable_of_iff (d.setEntry = true ∧ d.rstEntry = false ∧ d.setExit = false ∧ d.rstExit = true)
    ⟨fun ⟨a, b, c, e⟩ => ⟨a, b, c, e⟩, fun ⟨a, b, c, e⟩ => ⟨a, b, c, e⟩⟩

/-- Timer `i` after a list of entries: armed if it was, or if some definition concerns it. -/
theorem foldl_onEntry_isSome {i : Nat} {ds : List Timeout}
    (hds : ∀ d ∈ ds, d.index = i → d.EntryExit) (tm : Timers) :
    (ds.foldl onEntry tm i).isSome ↔ (tm i).isSome ∨ ∃ d ∈ ds, d.index = i := by
  induction ds generalizing tm with
  | nil => simp
  | cons d ds ih =>
    rw [List.foldl_cons, ih (fun e he => hds e (List.mem_cons_of_mem _ he))]
    by_cases h : d.index = i
    · have hd := hds d List.mem_cons_self h
      subst h
      simp [hd.onEntry_isSome]
    · simp [onEntry_other h, h]

/-- Timer `i` after a list of exits: disarmed if some definition concerns it. -/
theorem foldl_onExit {i : Nat} {ds : List Timeout}
    (hds : ∀ d ∈ ds, d.index = i → d.EntryExit) (tm : Timers) :
    ds.foldl onExit tm i = if ∃ d ∈ ds, d.index = i then none else tm i := by
  induction ds generalizing tm with
  | nil => simp
  | cons d ds ih =>
    rw [List.foldl_cons, ih (fun e he => hds e (List.mem_cons_of_mem _ he))]
    by_cases h : d.index = i
    · have hd := hds d List.mem_cons_self h
      subst h
      simp [hd.onExit_eq]
    · simp [onExit_other h, h]

end Timeout

/-! ## Reactors -/

/-- The fixed part of a reactor: its chart, its initial state, the capacity of its queue, the
    timeouts of each state and the event that each timer posts. -/
structure Spec (S E : Type) where
  chart : Chart S E
  initial : S
  capacity : Nat
  timeouts : S → List Timeout
  expiry : Nat → E

/-- The changing part of a reactor. -/
structure State (S E : Type) (capacity : Nat) where
  leaf : S
  queue : Fifo E capacity
  timers : Timers

namespace Spec

variable {S E : Type} (P : Spec S E)

/-- The timers after entering states, in order. -/
def enter (ss : List S) (tm : Timers) : Timers := (ss.flatMap P.timeouts).foldl Timeout.onEntry tm

/-- The timers after leaving states, in order. -/
def leave (ss : List S) (tm : Timers) : Timers := (ss.flatMap P.timeouts).foldl Timeout.onExit tm

/-- The initial state is entered from the root, and then its default substates. -/
def start : State S E P.capacity where
  leaf := P.chart.settle P.initial
  queue := Fifo.empty
  timers := P.enter ((P.chart.path P.initial).reverse ++ P.chart.substates P.initial) fun _ => none

/-- Post an event; the result tells whether there was room for it. -/
def post (st : State S E P.capacity) (e : E) : State S E P.capacity × Bool :=
  ({ st with queue := (st.queue.push e).1 }, (st.queue.push e).2)

/-- One tick of the clock. -/
def tick (st : State S E P.capacity) : State S E P.capacity :=
  { st with timers := elapse 1 st.timers }

/-- Timer `i`, if it has run out, posts its event; it is re-armed only if it is periodic. -/
def expire (st : State S E P.capacity) (i : Nat) : Option (State S E P.capacity) :=
  match st.timers i with
  | none => none
  | some t =>
    if t.deadline ≤ t.elapsed then
      some { (P.post st (P.expiry i)).1 with
        timers := Function.update st.timers i
          (if t.periodic then some { t with elapsed := 0 } else none) }
    else none

/-- Take the event at the front of the queue. -/
def receive (st : State S E P.capacity) : Option (E × State S E P.capacity) :=
  st.queue.pop.map fun p => (p.1, { st with queue := p.2 })

/-! ## Owners of a timer -/

/-- The state has a timeout definition for timer `i`. -/
def Owns (s : S) (i : Nat) : Prop := ∃ d ∈ P.timeouts s, d.index = i

instance (s : S) (i : Nat) : Decidable (P.Owns s i) :=
  inferInstanceAs (Decidable (∃ d ∈ P.timeouts s, d.index = i))

/-- Some state that owns timer `i` is active at a leaf. -/
def OwnerActive (leaf : S) (i : Nat) : Prop := ∃ s ∈ P.chart.path leaf, P.Owns s i

instance (leaf : S) (i : Nat) : Decidable (P.OwnerActive leaf i) :=
  inferInstanceAs (Decidable (∃ s ∈ P.chart.path leaf, P.Owns s i))

/-- Every owner of timer `i` arms it on entry and disarms it on exit, and does nothing else. -/
def EntryExit (i : Nat) : Prop := ∀ s, ∀ d ∈ P.timeouts s, d.index = i → d.EntryExit

/-- Two owners of timer `i` are never active together. -/
def Exclusive (i : Nat) : Prop :=
  ∀ leaf, ∀ s ∈ P.chart.path leaf, ∀ s' ∈ P.chart.path leaf, P.Owns s i → P.Owns s' i → s = s'

variable {P} {st st' : State S E P.capacity} {e : E} {i : Nat}

theorem EntryExit.flatMap (h : P.EntryExit i) (ss : List S) :
    ∀ d ∈ ss.flatMap P.timeouts, d.index = i → d.EntryExit := by
  intro d hd
  obtain ⟨s, _, hs⟩ := List.mem_flatMap.1 hd
  exact h s d hs

theorem exists_mem_flatMap (ss : List S) :
    (∃ d ∈ ss.flatMap P.timeouts, d.index = i) ↔ ∃ s ∈ ss, P.Owns s i := by
  simp only [List.mem_flatMap, Owns]
  tauto

/-- Some state defines the timer like this. -/
def AsDefined (P : Spec S E) (i : Nat) (t : Timer) : Prop :=
  ∃ s, ∃ d ∈ P.timeouts s, d.Configures i t

theorem asDefined_of_mem {t : Timer} {ss : List S} {d : Timeout} (hd : d ∈ ss.flatMap P.timeouts)
    (hc : d.Configures i t) : P.AsDefined i t := by
  obtain ⟨s, _, hs⟩ := List.mem_flatMap.1 hd
  exact ⟨s, d, hs, hc⟩

theorem enter_eq_some {t : Timer} {ss : List S} {tm : Timers} (h : P.enter ss tm i = some t) :
    tm i = some t ∨ P.AsDefined i t :=
  (Timeout.foldl_eq_some (fun _ _ => Timeout.onEntry_eq_some) h).imp_right
    fun ⟨_, hd, hc⟩ => asDefined_of_mem hd hc

theorem leave_eq_some {t : Timer} {ss : List S} {tm : Timers} (h : P.leave ss tm i = some t) :
    tm i = some t ∨ P.AsDefined i t :=
  (Timeout.foldl_eq_some (fun _ _ => Timeout.onExit_eq_some) h).imp_right
    fun ⟨_, hd, hc⟩ => asDefined_of_mem hd hc

theorem enter_isSome (h : P.EntryExit i) (ss : List S) (tm : Timers) :
    (P.enter ss tm i).isSome ↔ (tm i).isSome ∨ ∃ s ∈ ss, P.Owns s i := by
  rw [enter, Timeout.foldl_onEntry_isSome (h.flatMap ss), exists_mem_flatMap]

theorem leave_eq (h : P.EntryExit i) (ss : List S) (tm : Timers) :
    P.leave ss tm i = if ∃ s ∈ ss, P.Owns s i then none else tm i := by
  rw [leave, Timeout.foldl_onExit (h.flatMap ss)]
  exact if_congr (exists_mem_flatMap ss) rfl rfl

/-! ## What each operation changes -/

@[simp] theorem start_leaf : P.start.leaf = P.chart.settle P.initial := rfl

@[simp] theorem post_queue : (P.post st e).1.queue = (st.queue.push e).1 := rfl

@[simp] theorem tick_leaf : (P.tick st).leaf = st.leaf := rfl

@[simp] theorem tick_queue : (P.tick st).queue = st.queue := rfl

@[simp] theorem tick_timers : (P.tick st).timers i =
    (st.timers i).map fun t => { t with elapsed := t.elapsed + 1 } := rfl

/-- An expiry needs an armed timer that has reached its deadline. -/
theorem expire_cases (h : P.expire st i = some st') :
    ∃ t, st.timers i = some t ∧ t.deadline ≤ t.elapsed ∧ st'.leaf = st.leaf ∧
      st'.queue = (st.queue.push (P.expiry i)).1 ∧
      st'.timers = Function.update st.timers i
        (if t.periodic then some { t with elapsed := 0 } else none) := by
  unfold expire at h
  split at h
  · cases h
  · rename_i t ht
    split at h
    · rename_i hd
      cases h
      exact ⟨t, ht, hd, rfl, rfl, rfl⟩
    · cases h

theorem receive_eq_some : P.receive st = some (e, st') ↔
    st.queue.items = e :: st'.queue.items ∧ st'.leaf = st.leaf ∧ st'.timers = st.timers := by
  obtain ⟨leaf, q, tm⟩ := st
  obtain ⟨leaf', q', tm'⟩ := st'
  simp only [receive, Option.map_eq_some_iff, Prod.mk.injEq, Prod.exists, State.mk.injEq,
    ← Fifo.pop_eq_some]
  constructor
  · rintro ⟨a, b, hp, rfl, rfl, rfl, rfl⟩
    exact ⟨hp, rfl, rfl⟩
  · rintro ⟨hp, rfl, rfl⟩
    exact ⟨e, q', hp, rfl, rfl, rfl, rfl⟩

/-! ## Reacting to an event -/

section React

variable [DecidableEq S] [DecidableEq E]

/-- Propagate one event: leave, then enter. -/
def react (P : Spec S E) (st : State S E P.capacity) (e : E) : State S E P.capacity :=
  match P.chart.lookup st.leaf e with
  | none => st
  | some t =>
    { st with
      leaf := P.chart.settle t
      timers := P.enter (P.chart.entered st.leaf t) (P.leave (P.chart.exited st.leaf t) st.timers) }

/-- The expiry event of timer `i` leaves every active owner of the timer. -/
def EndedByExpiry (P : Spec S E) (i : Nat) : Prop :=
  ∀ leaf, ∀ s ∈ P.chart.path leaf, P.Owns s i →
    ∃ t, P.chart.lookup leaf (P.expiry i) = some t ∧ s ∈ P.chart.exited leaf t

@[simp] theorem react_queue : (P.react st e).queue = st.queue := by
  unfold react
  split <;> rfl

@[simp] theorem react_leaf : (P.react st e).leaf = P.chart.fire st.leaf e := by
  unfold react Chart.fire
  cases P.chart.lookup st.leaf e <;> rfl

theorem react_of_lookup {t : S} (h : P.chart.lookup st.leaf e = some t) :
    (P.react st e).timers =
      P.enter (P.chart.entered st.leaf t) (P.leave (P.chart.exited st.leaf t) st.timers) := by
  rw [react, h]

theorem react_of_lookup_none (h : P.chart.lookup st.leaf e = none) : P.react st e = st := by
  rw [react, h]

/-- Timer `i` after an event that fires: armed if it was and no owner is left, or if an owner is
    entered. -/
theorem react_isSome (h : P.EntryExit i) {t : S} (ht : P.chart.lookup st.leaf e = some t) :
    ((P.react st e).timers i).isSome ↔
      ((st.timers i).isSome ∧ ∀ s ∈ P.chart.exited st.leaf t, ¬ P.Owns s i) ∨
        ∃ s ∈ P.chart.entered st.leaf t, P.Owns s i := by
  rw [react_of_lookup ht, enter_isSome h, leave_eq h]
  by_cases hx : ∃ s ∈ P.chart.exited st.leaf t, P.Owns s i
  · rw [if_pos hx]
    obtain ⟨s, hs, ho⟩ := hx
    simp only [Option.isSome_none, Bool.false_eq_true, false_or]
    exact ⟨Or.inr, fun hc => hc.resolve_left fun hc => hc.2 s hs ho⟩
  · rw [if_neg hx]
    simp only [not_exists, not_and] at hx
    exact or_congr_left ⟨fun ha => ⟨ha, hx⟩, fun ha => ha.1⟩

/-- What can happen to a reactor. -/
inductive Action (E : Type) where
  | post (e : E)
  | tick
  | expire (i : Nat)
  | consume
  deriving DecidableEq, Repr

def step (P : Spec S E) (st : State S E P.capacity) : Action E → Option (State S E P.capacity)
  | .post e => some (P.post st e).1
  | .tick => some (P.tick st)
  | .expire i => P.expire st i
  | .consume => (P.receive st).map fun p => P.react p.2 p.1

/-- When timer `i` runs out there is room for its event, or the event already waits. -/
def RoomAtExpiry (P : Spec S E) (i : Nat) (st : State S E P.capacity) (a : Action E) : Prop :=
  a = .expire i → st.queue.items.length < P.capacity ∨ P.expiry i ∈ st.queue.items

theorem consume_cases (h : P.step st .consume = some st') :
    ∃ e mid, st.queue.items = e :: mid.queue.items ∧ mid.leaf = st.leaf ∧
      mid.timers = st.timers ∧ st' = P.react mid e := by
  obtain ⟨⟨e, mid⟩, hr, rfl⟩ := Option.map_eq_some_iff.1 h
  obtain ⟨hq, hl, ht⟩ := receive_eq_some.1 hr
  exact ⟨e, mid, hq, hl, ht, rfl⟩

end React

end Spec

/-! ## Runs -/

section Run

variable {S E : Type} [DecidableEq S] [DecidableEq E] {P : Spec S E} {i : Nat}
  {G : State S E P.capacity → Spec.Action E → Prop} {as : List (Spec.Action E)}
  {st : State S E P.capacity}

open Spec

/-- **An armed timer runs as some state has defined it.** -/
theorem armed_as_defined {t : Timer} (hr : Run P.step G P.start as st)
    (ht : st.timers i = some t) : P.AsDefined i t := by
  refine Run.invariant (fun _ st => ∀ t, st.timers i = some t → P.AsDefined i t) ?_ ?_ hr t ht
  · intro t ht
    rcases enter_eq_some ht with h0 | hd
    · cases h0
    · exact hd
  · intro _ st a st' ih _ hstep t ht
    cases a with
    | post e => cases hstep; exact ih t ht
    | tick =>
      cases hstep
      rw [tick_timers, Option.map_eq_some_iff] at ht
      obtain ⟨u, hu, rfl⟩ := ht
      exact ih u hu
    | expire j =>
      obtain ⟨u, hu, _, _, _, htm⟩ := expire_cases hstep
      rw [htm] at ht
      by_cases hj : i = j
      · subst hj
        rw [Function.update_self] at ht
        split at ht
        · cases ht
          exact ih u hu
        · cases ht
      · rw [Function.update_of_ne hj] at ht
        exact ih t ht
    | consume =>
      obtain ⟨e, mid, _, hl, htm, rfl⟩ := consume_cases hstep
      rw [← htm] at ih
      cases hk : P.chart.lookup mid.leaf e with
      | none => rw [react_of_lookup_none hk] at ht; exact ih t ht
      | some target =>
        rw [react_of_lookup hk] at ht
        rcases enter_eq_some ht with ht | hd
        · rcases leave_eq_some ht with ht | hd
          · exact ih t ht
          · exact hd
        · exact hd

/-- **An armed timer has an active owner.** -/
theorem owner_of_armed (h : P.EntryExit i) (hr : Run P.step G P.start as st)
    (ha : (st.timers i).isSome) : P.OwnerActive st.leaf i := by
  refine Run.invariant (fun _ st => (st.timers i).isSome → P.OwnerActive st.leaf i) ?_ ?_ hr ha
  · intro ha
    rcases (enter_isSome h _ _).1 ha with h0 | ⟨s, hs, ho⟩
    · cases h0
    · refine ⟨s, ?_, ho⟩
      rw [start_leaf, P.chart.mem_path_settle]
      simpa [or_comm] using hs
  · intro _ st a st' ih _ hstep ha
    cases a with
    | post e => cases hstep; exact ih ha
    | tick =>
      cases hstep
      exact ih (by simpa using ha)
    | expire j =>
      obtain ⟨t, ht, _, hl, _, htm⟩ := expire_cases hstep
      rw [hl]
      apply ih
      by_cases hj : i = j
      · subst hj; simp [ht]
      · rwa [htm, Function.update_of_ne hj] at ha
    | consume =>
      obtain ⟨e, mid, _, hl, htm, rfl⟩ := consume_cases hstep
      rw [← hl, ← htm] at ih
      cases hk : P.chart.lookup mid.leaf e with
      | none => rw [react_of_lookup_none hk] at ha ⊢; exact ih ha
      | some t =>
        rw [react_leaf, P.chart.fire_of_lookup hk]
        rcases (react_isSome h hk).1 ha with ⟨hold, hkept⟩ | ⟨s, hs, ho⟩
        · obtain ⟨s, hs, ho⟩ := ih hold
          exact ⟨s, P.chart.mem_path_settle_iff.2 (Or.inl ⟨hs, fun hx => hkept s hx ho⟩), ho⟩
        · exact ⟨s, P.chart.mem_path_settle_iff.2 (Or.inr hs), ho⟩

/-- **While an owner is active, its timer is armed or its expiry event is queued**, if no expiry is
    lost to a full queue. -/
theorem armed_or_pending (h : P.EntryExit i) (hx : P.Exclusive i) (hend : P.EndedByExpiry i)
    (hr : Run P.step (P.RoomAtExpiry i) P.start as st) (ha : P.OwnerActive st.leaf i) :
    (st.timers i).isSome ∨ P.expiry i ∈ st.queue.items := by
  refine Run.invariant (fun _ st => P.OwnerActive st.leaf i →
    (st.timers i).isSome ∨ P.expiry i ∈ st.queue.items) ?_ ?_ hr ha
  · rintro ⟨s, hs, ho⟩
    refine Or.inl ((enter_isSome h _ _).2 (Or.inr ⟨s, ?_, ho⟩))
    rw [start_leaf, P.chart.mem_path_settle] at hs
    simpa [or_comm] using hs
  · intro _ st a st' ih hroom hstep ha
    cases a with
    | post e =>
      cases hstep
      exact (ih ha).imp id fun hm => Fifo.mem_push_of_mem hm
    | tick =>
      cases hstep
      simpa using ih ha
    | expire j =>
      obtain ⟨t, ht, _, hl, hq, htm⟩ := expire_cases hstep
      rw [hl] at ha
      by_cases hj : i = j
      · -- the timer that runs out is the one in question: its event finds room or
        -- waits already
        subst hj
        right
        rw [hq]
        rcases hroom rfl with hlt | hm
        · rw [Fifo.push_items_of_lt hlt]
          simp
        · exact Fifo.mem_push_of_mem hm
      · rw [htm, hq, Function.update_of_ne hj]
        exact (ih ha).imp id fun hm => Fifo.mem_push_of_mem hm
    | consume =>
      obtain ⟨e, mid, hq, hl, htm, rfl⟩ := consume_cases hstep
      rw [← hl, ← htm, hq, List.mem_cons] at ih
      rw [react_queue]
      cases hk : P.chart.lookup mid.leaf e with
      | none =>
        rw [react_of_lookup_none hk] at ha ⊢
        rcases ih ha with harm | rfl | hm
        · exact Or.inl harm
        · obtain ⟨s, hs, ho⟩ := ha
          obtain ⟨t, hlk, _⟩ := hend _ s hs ho
          rw [hk] at hlk
          cases hlk
        · exact Or.inr hm
      | some t =>
        rw [react_leaf, P.chart.fire_of_lookup hk] at ha
        obtain ⟨s, hs, ho⟩ := ha
        rcases P.chart.mem_path_settle_iff.1 hs with ⟨hold, hkept⟩ | hent
        · rcases ih ⟨s, hold, ho⟩ with harm | rfl | hm
          · -- an owner that is left would be the one that stays
            left
            refine (react_isSome h hk).2 (Or.inl ⟨harm, fun s' hs' ho' => hkept ?_⟩)
            have hs'' := (P.chart.mem_exited.1 hs').1
            rwa [hx _ s hold s' hs'' ho ho']
          · obtain ⟨t', hlk, hex⟩ := hend _ s hold ho
            rw [hk] at hlk
            cases hlk
            exact absurd hex hkept
          · exact Or.inr hm
        · exact Or.inl ((react_isSome h hk).2 (Or.inr ⟨s, hent, ho⟩))

end Run

end Reactor
