import Mathlib.Data.Fintype.Basic
import QuarkTS.Kernel

/-!
# The microwave: signals, callbacks, tables and set-up calls

`hsms/system_signals.h`, `hsms/src/hsm_microwave_callbacks.c` and
`hsms/src/hsm_microwave_init.c`, followed by the machine that the set-up calls build.

* `microwaveStateMachine` — the machine; its states are nested at most two levels deep;
* `microwaveStateMachine_plain` — its behaviour is fixed by its tables;
* `fire_eq_next` — the statechart as one flat function on its four leaves.
-/

set_option autoImplicit false

namespace QuarkTS.Microwave

open Statechart Reactor

/-! ## system_signals.h -/

@[match_pattern] abbrev SYS_SIG_OPEN : SigId := .user 1
@[match_pattern] abbrev SYS_SIG_CLOSE : SigId := .user 2
@[match_pattern] abbrev SYS_SIG_TOAST : SigId := .user 3
@[match_pattern] abbrev SYS_SIG_BAKE : SigId := .user 4
@[match_pattern] abbrev SYS_SIG_OFFTIMEOUT : SigId := .timeout 1

/-! ## hsm_microwave_callbacks.c -/

def microwaveDoorClosedStateCallback : Callback := stateCallback "DOOR_CLOSED" .exitSuccess
def microwaveHeatingStateCallback : Callback := stateCallback "HEATING" .exitSuccess
def microwaveOffStateCallback : Callback := stateCallback "OFF" .exitSuccess
def microwaveToastingStateCallback : Callback := stateCallback "TOASTING" .exitSuccess
def microwaveBakingStateCallback : Callback := stateCallback "BAKING" .exitSuccess
def microwaveDoorOpenedStateCallback : Callback := stateCallback "DOOR_OPENED" .exitSuccess

/-! ## hsm_microwave_init.c -/

/-- `qSM_t microwave_state_machine`. -/
inductive StateMachine where
  | microwaveStateMachine
  deriving DecidableEq, Repr

/-- `static qQueue_t top_sigqueue`. -/
inductive Queue where
  | topSigqueue
  deriving DecidableEq, Repr

/-- `static qSM_State_t microwave_door_closed_state`, `microwave_off_state`, ... -/
inductive State where
  | doorClosed
  | off
  | heating
  | toasting
  | baking
  | doorOpened
  deriving DecidableEq, Repr

instance : Fintype State where
  elems := {.doorClosed, .off, .heating, .toasting, .baking, .doorOpened}
  complete s := by cases s <;> decide

/-- The size of `top_sigqueue_stack`. -/
def topSigqueueStackSize : Nat := 10

def microwaveDoorClosedStateTransitions : List (Transition State) :=
  [⟨SYS_SIG_OPEN, none, .doorOpened, 0⟩]

def microwaveOffStateTransitions : List (Transition State) :=
  [⟨SYS_SIG_TOAST, none, .toasting, 0⟩,
   ⟨SYS_SIG_BAKE, none, .baking, 0⟩]

def microwaveHeatingStateTransitions : List (Transition State) :=
  [⟨SYS_SIG_OFFTIMEOUT, none, .off, 0⟩]

def microwaveDoorOpenedStateTransitions : List (Transition State) :=
  [⟨SYS_SIG_CLOSE, none, .doorClosed, 0⟩]

/-- `{ 3.0f, QSM_TSOPT_INDEX (1) | QSM_TSOPT_SET_ENTRY | QSM_TSOPT_RST_EXIT }`: 3.0 s are 3000
    ticks of `TIMER_TICK`, 0.001 s. -/
def microwaveHeatingStateTimeouts : List Timeout :=
  [{ deadline := 3000, index := 1, setEntry := true, rstExit := true }]

def hsmMicrowaveInit : List (Call StateMachine Queue State) :=
  [.stateMachineSetup .microwaveStateMachine none .doorClosed,
   .queueSetup .topSigqueue topSigqueueStackSize,
   .installSignalQueue .microwaveStateMachine .topSigqueue,
   .installTimeoutSpec .microwaveStateMachine,
   .stateSubscribe .microwaveStateMachine .doorClosed QSM_STATE_TOP
     microwaveDoorClosedStateCallback (some .off),
   .stateSubscribe .microwaveStateMachine .off (some .doorClosed)
     microwaveOffStateCallback none,
   .stateSubscribe .microwaveStateMachine .heating (some .doorClosed)
     microwaveHeatingStateCallback none,
   .stateSubscribe .microwaveStateMachine .toasting (some .heating)
     microwaveToastingStateCallback none,
   .stateSubscribe .microwaveStateMachine .baking (some .heating)
     microwaveBakingStateCallback none,
   .stateSubscribe .microwaveStateMachine .doorOpened QSM_STATE_TOP
     microwaveDoorOpenedStateCallback none,
   .setStateTransitions .doorClosed microwaveDoorClosedStateTransitions,
   .setStateTransitions .off microwaveOffStateTransitions,
   .setStateTransitions .heating microwaveHeatingStateTransitions,
   .setStateTransitions .doorOpened microwaveDoorOpenedStateTransitions,
   .setStateTimeouts .toasting microwaveHeatingStateTimeouts,
   .setStateTimeouts .baking microwaveHeatingStateTimeouts,
   .addStateMachineTask .microwaveStateMachine 100]

/-! ## The machine -/

def microwaveSetup : Setup StateMachine Queue State := .calls hsmMicrowaveInit

/-- How deep a state is nested. -/
def depth : State → Nat
  | .doorClosed | .doorOpened => 0
  | .off | .heating => 1
  | .toasting | .baking => 2

def microwaveStateMachine : Machine StateMachine Queue State where
  setup := microwaveSetup
  id := .microwaveStateMachine
  initial := .doorClosed
  queue := .topSigqueue
  nesting :=
    { depth := depth
      height := 2
      depth_root := by decide
      depth_parent := by decide
      depth_le := by decide
      initial_parent := by decide }
  initial_eq := by decide
  queue_eq := by decide

theorem microwaveStateMachine_plain : microwaveStateMachine.Plain where
  unguarded := by decide
  noHistory := by decide
  lateral := by decide
  unhandled := by
    intro s f hf e
    cases s <;> cases hf <;> exact stateCallback_ne_handled (by decide) e

/-! ## The flat machine -/

/-- The statechart of the microwave. -/
abbrev chart : Chart State SigId := microwaveStateMachine.chart

/-- The states that can be active leaves. -/
def IsLeaf (s : State) : Prop := s = .off ∨ s = .toasting ∨ s = .baking ∨ s = .doorOpened

instance (s : State) : Decidable (IsLeaf s) :=
  inferInstanceAs (Decidable (s = .off ∨ s = .toasting ∨ s = .baking ∨ s = .doorOpened))

/-- What each leaf does with each signal. -/
def next : State → SigId → State
  | .off, SYS_SIG_TOAST => .toasting
  | .off, SYS_SIG_BAKE => .baking
  | .off, SYS_SIG_OPEN => .doorOpened
  | .toasting, SYS_SIG_OFFTIMEOUT => .off
  | .toasting, SYS_SIG_OPEN => .doorOpened
  | .baking, SYS_SIG_OFFTIMEOUT => .off
  | .baking, SYS_SIG_OPEN => .doorOpened
  | .doorOpened, SYS_SIG_CLOSE => .off
  | s, _ => s

/-- The signals that the tables mention. -/
def signals : List SigId :=
  [SYS_SIG_OPEN, SYS_SIG_CLOSE, SYS_SIG_TOAST, SYS_SIG_BAKE, SYS_SIG_OFFTIMEOUT]

theorem table_signals (s : State) : ∀ t ∈ chart.table s, t.1 ∈ signals := by
  cases s <;> decide

/-- No other signal fires a transition. -/
theorem lookup_of_notMem (s : State) {e : SigId} (h : e ∉ signals) : chart.lookup s e = none :=
  chart.lookup_eq_none (fun u t ht he => h (by rw [← he]; exact table_signals u t ht)) s

theorem next_of_notMem (s : State) {e : SigId} (h : e ∉ signals) : next s e = s := by
  unfold next
  split <;> first | rfl | exact absurd (by decide) h

theorem next_isLeaf {s : State} (hs : IsLeaf s) (e : SigId) : IsLeaf (next s e) := by
  by_cases he : e ∈ signals
  · simp only [signals, List.mem_cons, List.not_mem_nil, or_false] at he
    rcases hs with rfl | rfl | rfl | rfl <;> rcases he with rfl | rfl | rfl | rfl | rfl <;> decide
  · rwa [next_of_notMem s he]

/-- **The statechart, flattened**: lookup from the leaf to the root, exits, entries and default
    substates together take a leaf to `next`. -/
theorem fire_eq_next {s : State} (hs : IsLeaf s) (e : SigId) : chart.fire s e = next s e := by
  -- the signal ids that the tables mention, and every other id, in each leaf
  rcases hs with rfl | rfl | rfl | rfl <;>
    rcases e with _ | _ | _ | _ | (_ | _ | i) | (_ | _ | _ | _ | _ | n) <;> rfl

theorem fire_isLeaf {s : State} (e : SigId) (hs : IsLeaf s) : IsLeaf (chart.fire s e) := by
  rw [fire_eq_next hs]
  exact next_isLeaf hs e

/-- The leaf that is active after `hsm_microwave_init`. -/
theorem initial_leaf : chart.settle microwaveStateMachine.initial = .off := rfl

end QuarkTS.Microwave
