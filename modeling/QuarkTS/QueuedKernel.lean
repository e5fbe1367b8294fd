import QuarkTS.Program

/-!
# An engine seen through its signal queue

Some machines use features of the engine whose effect on a state machine is documented in part
only: history transitions, guards that change data, transitions to ancestors.  What they share with
all others is the signal queue.  A `QueuedKernel` is any implementation of the engine of which a
`core` is seen, which only the propagation of a signal changes, and the queue.

Runs of `step` are, as in `QuarkTS.Program`, all interleavings of calls of a signal handler of the
operating system, ticks, timers that run out and signals that the task takes from the queue;
`record` notes the signals taken.

* `core_invariant` — what every propagated signal keeps, of the core and of the signals taken, holds
  in every run;
* `taken_sublist_issued` — with those that wait, the signals taken are a part of the signals issued.
-/

set_option autoImplicit false

namespace QuarkTS

open Runs Program

/-! ## The engine -/

/-- What is seen of an engine: what a propagated signal may change, and the signal queue. -/
structure QueuedView (V : Type) (capacity : Nat) where
  core : V
  queue : Fifo SigId capacity

namespace QueuedView

variable {V : Type} {capacity : Nat}

/-- Put a signal into the queue. -/
def post (v : QueuedView V capacity) (e : SigId) : QueuedView V capacity × Bool :=
  ({ v with queue := (v.queue.push e).1 }, (v.queue.push e).2)

/-- Take a signal from the queue. -/
def receive (v : QueuedView V capacity) : Option (SigId × QueuedView V capacity) :=
  v.queue.pop.map fun p => (p.1, { v with queue := p.2 })

theorem receive_eq_some {v v' : QueuedView V capacity} {e : SigId}
    (h : v.receive = some (e, v')) : v.queue.items = e :: v'.queue.items ∧ v'.core = v.core := by
  obtain ⟨⟨e', q⟩, hpop, hp⟩ := Option.map_eq_some_iff.1 h
  cases hp
  exact ⟨Fifo.pop_eq_some.1 hpop, rfl⟩

end QueuedView

/-- An implementation of the engine for one machine.  When timers run out is left open. -/
structure QueuedKernel (V : Type) (capacity : Nat) where
  State : Type
  view : State → QueuedView V capacity
  /-- after the set-up calls -/
  start : State
  /-- `qStateMachine_SendSignal` -/
  sendSignal : State → SigId → (isUrgent : Bool) → State × Bool
  /-- `qClock_SysTick` -/
  sysTick : State → State
  /-- timer `i` is found to have run out -/
  expire : State → (i : Nat) → Option State
  /-- the task takes a signal from the queue -/
  receive : State → Option (SigId × State)
  /-- the signal is propagated through the hierarchy -/
  dispatch : State → SigId → State
  queue_start : (view start).queue = Fifo.empty
  view_sendSignal : ∀ k e,
    (view (sendSignal k e false).1, (sendSignal k e false).2) = (view k).post e
  view_sysTick : ∀ k, view (sysTick k) = view k
  view_expire : ∀ k i, ∀ k' ∈ expire k i, view k' = ((view k).post (.timeout i)).1
  view_receive : ∀ k, (receive k).map (fun p => (p.1, view p.2)) = (view k).receive
  queue_dispatch : ∀ k e, (view (dispatch k e)).queue = (view k).queue

namespace QueuedKernel

variable {V I : Type} {capacity : Nat} (K : QueuedKernel V capacity)

def core (k : K.State) : V := (K.view k).core

/-- The signals that wait in the queue, oldest first. -/
def queue (k : K.State) : List SigId := (K.view k).queue.items

/-- Propagate signals one after the other, from the initial configuration. -/
def feed (w : List SigId) : K.State := w.foldl K.dispatch K.start

/-! ## A program around it -/

/-- Send the signal, if there is one; the result of the call is not looked at. -/
def send (k : K.State) : Option SigId → K.State
  | some e => (K.sendSignal k e false).1
  | none => k

def step (handler : I → Option SigId) (k : K.State) : Action I → Option K.State
  | .recv x => some (K.send k (handler x))
  | .tick => some (K.sysTick k)
  | .expire i => K.expire k i
  | .consume => (K.receive k).map fun p => K.dispatch p.2 p.1

/-- The signal that an action takes from the queue. -/
def takenBy (k : K.State) : Action I → List SigId
  | .consume => (K.queue k).head?.toList
  | _ => []

def record (k : K.State) (a : Action I) (_ : K.State) (taken : List SigId) : List SigId :=
  taken ++ K.takenBy k a

/-- The signal that an action tries to put into the queue. -/
def issuedBy (handler : I → Option SigId) : Action I → List SigId
  | .recv x => (handler x).toList
  | .expire i => [.timeout i]
  | _ => []

/-- The signals that a run has tried to put into the queue. -/
def issued (handler : I → Option SigId) (as : List (Action I)) : List SigId :=
  as.flatMap (issuedBy handler)

variable {K} {handler : I → Option SigId} {k k' : K.State} {a : Action I}

/-! ## What each action does -/

/-- Posting a signal keeps the core, and puts the signal into the queue or loses it. -/
theorem post_eq {v : QueuedView V capacity} {e : SigId} (hv : K.view k' = (v.post e).1) :
    K.core k' = v.core ∧
      ∃ kept, List.Sublist kept [e] ∧ K.queue k' = v.queue.items ++ kept := by
  refine ⟨by rw [core, hv]; rfl, ?_⟩
  rw [queue, hv]
  rcases v.queue.push_items e with hpush | hpush
  · exact ⟨[e], List.Sublist.refl _, hpush⟩
  · exact ⟨[], List.nil_sublist _, by rw [List.append_nil]; exact hpush⟩

/-- Only the task moves the machine; everything else posts at most one signal. -/
theorem step_other (h : K.step handler k a = some k') (ha : a ≠ .consume) :
    K.core k' = K.core k ∧
      ∃ kept, List.Sublist kept (issuedBy handler a) ∧ K.queue k' = K.queue k ++ kept := by
  cases a with
  | recv x =>
    cases h
    cases hx : handler x with
    | none => exact ⟨rfl, [], List.nil_sublist _, (List.append_nil _).symm⟩
    | some e =>
      rw [issuedBy, hx]
      exact post_eq (congrArg Prod.fst (K.view_sendSignal k e))
  | tick =>
    cases h
    have hview := K.view_sysTick k
    refine ⟨by rw [core, hview]; rfl, [], List.nil_sublist _, ?_⟩
    rw [List.append_nil, queue, hview]
    rfl
  | expire i => exact post_eq (K.view_expire k i k' h)
  | consume => exact absurd rfl ha

/-- The task takes the oldest signal and propagates it. -/
theorem step_consume (h : K.step handler k .consume = some k') :
    ∃ e mid, K.queue k = e :: K.queue k' ∧ K.core mid = K.core k ∧ k' = K.dispatch mid e := by
  obtain ⟨⟨e, mid⟩, hmid, rfl⟩ := Option.map_eq_some_iff.1 h
  have hreceive := K.view_receive k
  rw [hmid] at hreceive
  obtain ⟨hqueue, hcore⟩ := QueuedView.receive_eq_some hreceive.symm
  refine ⟨e, mid, ?_, hcore, rfl⟩
  rw [queue, queue, K.queue_dispatch]
  exact hqueue

/-- What one action does to the taken and the waiting signals together. -/
theorem step_kept (h : K.step handler k a = some k') :
    ∃ kept, List.Sublist kept (issuedBy handler a) ∧
      K.takenBy k a ++ K.queue k' = K.queue k ++ kept := by
  by_cases ha : a = .consume
  · subst ha
    obtain ⟨e, _, hqueue, _⟩ := step_consume h
    exact ⟨[], List.nil_sublist _, by rw [takenBy, hqueue]; simp⟩
  · obtain ⟨_, kept, hkept, hqueue⟩ := step_other h ha
    refine ⟨kept, hkept, ?_⟩
    cases a <;> first | exact hqueue | exact absurd rfl ha

/-! ## Runs -/

variable {G : K.State → Action I → Prop} {as : List (Action I)} {w : K.State × List SigId}

/-- **Invariant rule**, for a property of the core and of the signals taken. -/
theorem core_invariant {J : V → List SigId → Prop} (hstart : J (K.core K.start) [])
    (hdispatch : ∀ k e taken, J (K.core k) taken → J (K.core (K.dispatch k e)) (taken ++ [e]))
    (h : Run (watch (K.step handler) K.record) (fun w a => G w.1 a) (K.start, []) as w) :
    J (K.core w.1) w.2 := by
  refine h.invariant (fun _ w => J (K.core w.1) w.2) hstart ?_
  intro _ w a w' ih _ hstep
  obtain ⟨hs, hrec⟩ := watch_eq_some.1 hstep
  rw [hrec, record]
  by_cases ha : a = .consume
  · subst ha
    obtain ⟨e, mid, hqueue, hcore, hmid⟩ := step_consume hs
    rw [takenBy, hqueue, hmid]
    exact hdispatch mid e w.2 (hcore ▸ ih)
  · have htaken : K.takenBy w.1 a = [] := by cases a <;> first | rfl | exact absurd rfl ha
    rw [htaken, List.append_nil, (step_other hs ha).1]
    exact ih

/-- **Nothing is invented, doubled or overtaken.** -/
theorem taken_sublist_issued
    (h : Run (watch (K.step handler) K.record) (fun w a => G w.1 a) (K.start, []) as w) :
    List.Sublist (w.2 ++ K.queue w.1) (issued handler as) := by
  have hempty : K.queue K.start = [] := by
    rw [queue, K.queue_start]
    rfl
  refine h.sublist_issued (issued handler) K.queue hempty (fun as a => ?_) fun k a k' hs => ?_
  · exact List.flatMap_append
  · rw [issued, List.flatMap_singleton]
    exact step_kept hs

/-- An engine whose timers never run out gets the signals of the handler only. -/
theorem issued_eq_handled (hnever : ∀ k i, K.expire k i = none)
    (h : Run (K.step handler) G K.start as k) :
    issued handler as = (inputs as).filterMap handler := by
  induction h with
  | nil => rfl
  | @snoc as k k' a _ _ hstep ih =>
    rw [issued, List.flatMap_append, List.flatMap_singleton, inputs_append, List.filterMap_append,
      ← ih]
    congr 1
    cases a with
    | recv x => cases hx : handler x <;> simp [issuedBy, inputs, hx]
    | expire i => cases (hnever k i).symm.trans hstep
    | _ => rfl

end QueuedKernel

end QuarkTS
