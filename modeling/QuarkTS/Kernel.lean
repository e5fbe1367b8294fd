import Mathlib.Data.List.Induction
import Mathlib.Data.Rat.Floor
import Mathlib.Tactic.NormNum
import QuarkTS.Lib.Reactor

/-!
# The state machine API of the kernel

The sources of the kernel are not part of the tree; its API is documented in
`doc/pages/extensions.dox`.  This file has

* the data that the programs pass to the API (`SigId`, `Callback`, `Transition`, `Call`) and what
  a sequence of set-up calls has recorded (`Setup`);
* `TimeBase`, the conversion of seconds into ticks;
* `Machine`, one state machine of a set-up with its nesting checked;
* `Kernel`, any implementation of the engine, with the documented behaviour as fields.  The
  engine's own data stay hidden: `view` shows the active leaf, the queue and the timers, and each
  operation is seen through it as the operation of the same name on a reactor.

`Kernel.reference` shows that the documented behaviour can be implemented, and
`Kernel.feed_leaf` is the statechart meaning of signals that are fed to a machine.
-/

set_option autoImplicit false

namespace QuarkTS

open Statechart Reactor Runs

/-! ## Data passed to the API -/

/-- `qSM_SigId_t`: the signals of the kernel and those of the application. -/
inductive SigId where
  | none
  | entry
  | exit
  | start
  | timeout (index : Nat)
  | user (id : Nat)
  deriving DecidableEq, Repr

/-- `qSM_Status_t`. -/
inductive Status where
  | exitSuccess
  | exitFailure
  | signalHandled
  deriving DecidableEq, Repr

/-- A state callback: the debug message it prints, if any, and the status it returns. -/
abbrev Callback := SigId → Option String × Status

/-- The callbacks of the example programs differ in the name they print and in the status that
    they return for a signal that they have no case for. -/
def stateCallback (name : String) (unknown : Status) : Callback
  | .entry => (some (name ++ "|E"), .exitSuccess)
  | .exit => (some (name ++ "|X"), .exitSuccess)
  | .start => (some (name ++ "|S"), .exitSuccess)
  | _ => (Option.none, unknown)

/-- The callbacks of other programs draw an arrow before the name, behind an indentation; not all of
    them report that their state is started. -/
def indentedCallback (indent name : String) (reportsStart : Bool) : Callback
  | .start => (if reportsStart then some (indent ++ "*" ++ name) else Option.none, .exitSuccess)
  | .entry => (some (indent ++ "->" ++ name), .exitSuccess)
  | .exit => (some (indent ++ "x-" ++ name), .exitSuccess)
  | _ => (Option.none, .exitSuccess)

theorem indentedCallback_ne_handled {indent name : String} {reportsStart : Bool} (e : SigId) :
    (indentedCallback indent name reportsStart e).2 ≠ .signalHandled := by
  unfold indentedCallback
  split <;> nofun

theorem stateCallback_ne_handled {name : String} {unknown : Status}
    (h : unknown ≠ .signalHandled) (e : SigId) :
    (stateCallback name unknown e).2 ≠ .signalHandled := by
  unfold stateCallback
  split <;> simp [h]

/-- `qSM_Transition_t`: signal, signal action or guard (`none` is `NULL`), target, history. -/
structure Transition (S : Type) where
  signal : SigId
  action : Option (SigId → Bool)
  target : S
  history : Nat

/-- The parent of the states of the highest level. -/
abbrev QSM_STATE_TOP {S : Type} : Option S := Option.none

/-- The set-up calls, with their arguments in the order of the API; arguments that are `NULL`
    throughout the programs are left out.  Times are in ticks of a millisecond. -/
inductive Call (M Q S : Type) where
  | stateMachineSetup (m : M) (top : Option Callback) (init : S)
  | queueSetup (q : Q) (length : Nat)
  | installSignalQueue (m : M) (q : Q)
  | installTimeoutSpec (m : M)
  | stateSubscribe (m : M) (s : S) (parent : Option S) (callback : Callback) (init : Option S)
  | setStateTransitions (s : S) (entries : List (Transition S))
  | setStateTimeouts (s : S) (definitions : List Timeout)
  | subscribeToSignal (m : M) (signal : SigId)
  | addStateMachineTask (m : M) (period : Nat)

/-! ## Time -/

/-- The period of the clock in seconds, as the programs give it to `qOS_Setup`. -/
def TIMER_TICK : ℚ := 1 / 1000

/-- How the kernel turns a time in seconds into ticks of its clock, with `Q_SETUP_TIME_CANONICAL`
    and `Q_SETUP_TICK_IN_HERTZ` at 0: a time of `n` periods is `n` ticks. -/
structure TimeBase where
  toTicks : ℚ → Nat
  toTicks_mul : ∀ n : Nat, toTicks (n * TIMER_TICK) = n

namespace TimeBase

/-- Counting the whole periods does this. -/
def reference : TimeBase where
  toTicks t := ⌊t / TIMER_TICK⌋₊
  toTicks_mul n := by rw [mul_div_cancel_right₀ _ (by norm_num [TIMER_TICK]), Nat.floor_natCast]

theorem toTicks_eq (T : TimeBase) {t : ℚ} (n : Nat) (h : n * TIMER_TICK = t) : T.toTicks t = n := by
  rw [← h, T.toTicks_mul]

end TimeBase

/-! ## What the set-up calls have recorded -/

structure Setup (M Q S : Type) where
  initial : M → Option S
  top : M → Option Callback
  sigqueue : M → Option Q
  length : Q → Nat
  timeoutSpec : M → Bool
  machine : S → Option M
  parent : S → Option S
  callback : S → Option Callback
  substate : S → Option S
  transitions : S → List (Transition S)
  timeouts : S → List Timeout
  signals : M → List SigId
  period : M → Option Nat

namespace Setup

variable {M Q S : Type}

def empty : Setup M Q S where
  initial _ := Option.none
  top _ := Option.none
  sigqueue _ := Option.none
  length _ := 0
  timeoutSpec _ := false
  machine _ := Option.none
  parent _ := Option.none
  callback _ := Option.none
  substate _ := Option.none
  transitions _ := []
  timeouts _ := []
  signals _ := []
  period _ := Option.none

variable [DecidableEq M] [DecidableEq Q] [DecidableEq S]

/-- One call records its arguments in the object that it is called on. -/
def call (σ : Setup M Q S) : Call M Q S → Setup M Q S
  | .stateMachineSetup m top init =>
    { σ with
      initial := Function.update σ.initial m (some init)
      top := Function.update σ.top m top }
  | .queueSetup q n => { σ with length := Function.update σ.length q n }
  | .installSignalQueue m q => { σ with sigqueue := Function.update σ.sigqueue m (some q) }
  | .installTimeoutSpec m => { σ with timeoutSpec := Function.update σ.timeoutSpec m true }
  | .stateSubscribe m s parent callback init =>
    { σ with
      machine := Function.update σ.machine s (some m)
      parent := Function.update σ.parent s parent
      callback := Function.update σ.callback s (some callback)
      substate := Function.update σ.substate s init }
  | .setStateTransitions s ts => { σ with transitions := Function.update σ.transitions s ts }
  | .setStateTimeouts s ds => { σ with timeouts := Function.update σ.timeouts s ds }
  | .subscribeToSignal m e =>
    { σ with signals := Function.update σ.signals m (σ.signals m ++ [e]) }
  | .addStateMachineTask m p => { σ with period := Function.update σ.period m (some p) }

def calls (cs : List (Call M Q S)) : Setup M Q S := cs.foldl call empty

end Setup

/-! ## Machines -/

/-- One machine of a set-up: it has an initial state and a queue, and its states are nested as the
    subscription calls say. -/
structure Machine (M Q S : Type) where
  setup : Setup M Q S
  id : M
  initial : S
  queue : Q
  nesting : Nesting setup.parent setup.substate
  initial_eq : setup.initial id = some initial
  queue_eq : setup.sigqueue id = some queue

namespace Machine

variable {M Q S : Type} (A : Machine M Q S)

def chart : Chart S SigId where
  parent := A.setup.parent
  initial := A.setup.substate
  table s := (A.setup.transitions s).map fun t => (t.signal, t.target)
  nesting := A.nesting

/-- The machine as a reactor; its timeouts need an installed timeout specification. -/
def spec : Spec S SigId where
  chart := A.chart
  initial := A.initial
  capacity := A.setup.length A.queue
  timeouts s := if A.setup.timeoutSpec A.id then A.setup.timeouts s else []
  expiry := .timeout

/-- The machine uses no guard, no history and no transition between a state and its ancestor, and
    no callback reports a signal as handled: what it does is fixed by its tables. -/
structure Plain : Prop where
  unguarded : ∀ s, ∀ t ∈ A.setup.transitions s, t.action.isNone
  noHistory : ∀ s, ∀ t ∈ A.setup.transitions s, t.history = 0
  lateral : ∀ s, ∀ t ∈ A.setup.transitions s,
    t.target ∉ A.chart.path s ∧ s ∉ A.chart.path t.target
  unhandled : ∀ s, ∀ f ∈ A.setup.callback s, ∀ e, (f e).2 ≠ .signalHandled

end Machine

/-! ## The engine -/

variable {M Q S : Type} [DecidableEq S]

/-- An implementation of the engine for one machine, as documented. -/
structure Kernel (A : Machine M Q S) where
  State : Type
  view : State → Reactor.State S SigId A.spec.capacity
  /-- after the set-up calls -/
  start : State
  /-- `qStateMachine_SendSignal` -/
  sendSignal : State → SigId → (isUrgent : Bool) → State × Bool
  /-- `qClock_SysTick` -/
  sysTick : State → State
  /-- timer `i` is found to have run out -/
  expire : State → (i : Nat) → Option State
  /-- the task takes a signal from the queue -/
  receive : State → Option (SigId × State)
  /-- the signal is propagated through the hierarchy -/
  dispatch : State → SigId → State
  view_start : view start = A.spec.start
  view_sendSignal : ∀ k e,
    (view (sendSignal k e false).1, (sendSignal k e false).2) = A.spec.post (view k) e
  view_sysTick : ∀ k, view (sysTick k) = A.spec.tick (view k)
  view_expire : ∀ k i, (expire k i).map view = A.spec.expire (view k) i
  view_receive : ∀ k, (receive k).map (fun p => (p.1, view p.2)) = A.spec.receive (view k)
  view_dispatch : A.Plain → ∀ k e, view (dispatch k e) = A.spec.react (view k) e

namespace Kernel

variable {A : Machine M Q S}

/-- The reactor itself implements the documented behaviour. -/
def reference (A : Machine M Q S) : Kernel A where
  State := Reactor.State S SigId A.spec.capacity
  view := id
  start := A.spec.start
  sendSignal k e _ := A.spec.post k e
  sysTick := A.spec.tick
  expire := A.spec.expire
  receive := A.spec.receive
  dispatch := A.spec.react
  view_start := rfl
  view_sendSignal _ _ := rfl
  view_sysTick _ := rfl
  view_expire _ _ := by simp
  view_receive _ := by simp
  view_dispatch _ _ _ := rfl

variable (K : Kernel A)

/-- The active leaf. -/
def leaf (k : K.State) : S := (K.view k).leaf

/-- The configuration: the active leaf and its ancestors. -/
def config (k : K.State) : List S := A.chart.path (K.leaf k)

/-- Propagate signals one after the other, from the initial configuration. -/
def feed (w : List SigId) : K.State := w.foldl K.dispatch K.start

/-- The configurations that a sequence of signals leads through. -/
def configs (w : List SigId) : List (List S) := w.inits.map fun v => K.config (K.feed v)

theorem start_leaf : K.leaf K.start = A.chart.settle A.initial := by
  rw [leaf, K.view_start]
  rfl

theorem dispatch_leaf (hA : A.Plain) (k : K.State) (e : SigId) :
    K.leaf (K.dispatch k e) = A.chart.fire (K.leaf k) e := by
  rw [leaf, K.view_dispatch hA, Spec.react_leaf]
  rfl

/-- **Signals that are fed to a machine drive its statechart.** -/
theorem feed_leaf (hA : A.Plain) (w : List SigId) :
    K.leaf (K.feed w) = A.chart.fires (A.chart.settle A.initial) w := by
  induction w using List.reverseRecOn with
  | nil => exact K.start_leaf
  | append_singleton w e ih =>
    rw [Chart.fires_concat, ← ih, feed, List.foldl_concat, K.dispatch_leaf hA]
    rfl

theorem feed_config (hA : A.Plain) (w : List SigId) :
    K.config (K.feed w) = A.chart.path (A.chart.fires (A.chart.settle A.initial) w) := by
  rw [config, K.feed_leaf hA]

end Kernel

end QuarkTS
