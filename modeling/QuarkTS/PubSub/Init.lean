import Mathlib.Data.Fintype.Basic
import QuarkTS.Kernel
import QuarkTS.Lib.History

/-!
# The publish/subscribe example: signals, callbacks, tables and set-up calls

`hsms/system_signals.h`, `hsms/src/hsm_pse_callbacks.c` and `hsms/src/hsm_pse_init.c`, followed by
the two machines that the set-up calls build.  Each machine is a region of two groups of states;
`SYS_SIG_TYPE_1` takes it from the first group to the second, `SYS_SIG_TYPE_2` back.

* `pseStateMachine` — the two machines;
* `pseStateMachine_plain` — their behaviour is fixed by their tables;
* `fires_eq` — each machine is a switch between two leaves, in the position that the last of
  `SYS_SIG_TYPE_1` and `SYS_SIG_TYPE_2` asks for.
-/

set_option autoImplicit false

namespace QuarkTS.PubSub

open Statechart Reactor

/-! ## system_signals.h -/

@[match_pattern] abbrev SYS_SIG_TYPE_1 : SigId := .user 1
@[match_pattern] abbrev SYS_SIG_TYPE_2 : SigId := .user 2
@[match_pattern] abbrev SYS_SIG_TYPE_3 : SigId := .user 3
@[match_pattern] abbrev SYS_SIG_TYPE_4 : SigId := .user 4

/-! ## hsm_pse_callbacks.c -/

def pseSaStateCallback : Callback := stateCallback "SA" .exitFailure
def pseSa1StateCallback : Callback := stateCallback "SA1" .exitFailure
def pseSa11StateCallback : Callback := stateCallback "SA11" .exitFailure
def pseSa12StateCallback : Callback := stateCallback "SA12" .exitFailure
def pseSa2StateCallback : Callback := stateCallback "SA2" .exitFailure
def pseSa21StateCallback : Callback := stateCallback "SA21" .exitFailure
def pseSa22StateCallback : Callback := stateCallback "SA22" .exitFailure
def pseSbStateCallback : Callback := stateCallback "SB" .exitFailure
def pseSb1StateCallback : Callback := stateCallback "SB1" .exitFailure
def pseSb11StateCallback : Callback := stateCallback "SB11" .exitFailure
def pseSb12StateCallback : Callback := stateCallback "SB12" .exitFailure
def pseSb2StateCallback : Callback := stateCallback "SB2" .exitFailure
def pseSb21StateCallback : Callback := stateCallback "SB21" .exitFailure
def pseSb22StateCallback : Callback := stateCallback "SB22" .exitFailure

/-! ## hsm_pse_init.c -/

/-- `qSM_t pse_sa_state_machine`, `pse_sb_state_machine`. -/
inductive StateMachine where
  | pseSaStateMachine
  | pseSbStateMachine
  deriving DecidableEq, Repr

/-- `static qQueue_t pse_sa_sigqueue`, `pse_sb_sigqueue`. -/
inductive Queue where
  | pseSaSigqueue
  | pseSbSigqueue
  deriving DecidableEq, Repr

/-- `static qSM_State_t pse_sa_state`, `pse_sa1_state`, ... -/
inductive State where
  | sa
  | sa1
  | sa11
  | sa12
  | sa2
  | sa21
  | sa22
  | sb
  | sb1
  | sb11
  | sb12
  | sb2
  | sb21
  | sb22
  deriving DecidableEq, Repr

instance : Fintype State where
  elems := {.sa, .sa1, .sa11, .sa12, .sa2, .sa21, .sa22, .sb, .sb1, .sb11, .sb12, .sb2, .sb21, .sb22}
  complete s := by cases s <;> decide

/-- The sizes of `pse_sa_top_sigqueue_stack` and `pse_sb_top_sigqueue_stack`. -/
def pseSaTopSigqueueStackSize : Nat := 10
def pseSbTopSigqueueStackSize : Nat := 10

def pseSa1StateTransitions : List (Transition State) := [⟨SYS_SIG_TYPE_1, none, .sa2, 0⟩]
def pseSa2StateTransitions : List (Transition State) := [⟨SYS_SIG_TYPE_2, none, .sa1, 0⟩]
def pseSb1StateTransitions : List (Transition State) := [⟨SYS_SIG_TYPE_1, none, .sb2, 0⟩]
def pseSb2StateTransitions : List (Transition State) := [⟨SYS_SIG_TYPE_2, none, .sb1, 0⟩]

def hsmPseInit : List (Call StateMachine Queue State) :=
   -- SA
  [.stateMachineSetup .pseSaStateMachine none .sa,
   .queueSetup .pseSaSigqueue pseSaTopSigqueueStackSize,
   .installSignalQueue .pseSaStateMachine .pseSaSigqueue,
   .stateSubscribe .pseSaStateMachine .sa QSM_STATE_TOP pseSaStateCallback (some .sa1),
   .stateSubscribe .pseSaStateMachine .sa1 (some .sa) pseSa1StateCallback (some .sa11),
   .stateSubscribe .pseSaStateMachine .sa11 (some .sa1) pseSa11StateCallback none,
   .stateSubscribe .pseSaStateMachine .sa12 (some .sa1) pseSa12StateCallback none,
   .stateSubscribe .pseSaStateMachine .sa2 (some .sa) pseSa2StateCallback (some .sa22),
   .stateSubscribe .pseSaStateMachine .sa21 (some .sa2) pseSa21StateCallback none,
   .stateSubscribe .pseSaStateMachine .sa22 (some .sa2) pseSa22StateCallback none,
   .setStateTransitions .sa1 pseSa1StateTransitions,
   .setStateTransitions .sa2 pseSa2StateTransitions,
   .subscribeToSignal .pseSaStateMachine SYS_SIG_TYPE_1,
   .addStateMachineTask .pseSaStateMachine 100,
   -- SB
   .stateMachineSetup .pseSbStateMachine none .sb,
   .queueSetup .pseSbSigqueue pseSbTopSigqueueStackSize,
   .installSignalQueue .pseSbStateMachine .pseSbSigqueue,
   .stateSubscribe .pseSbStateMachine .sb QSM_STATE_TOP pseSbStateCallback (some .sb1),
   .stateSubscribe .pseSbStateMachine .sb1 (some .sb) pseSb1StateCallback (some .sb11),
   .stateSubscribe .pseSbStateMachine .sb11 (some .sb1) pseSb11StateCallback none,
   .stateSubscribe .pseSbStateMachine .sb12 (some .sb1) pseSb12StateCallback none,
   .stateSubscribe .pseSbStateMachine .sb2 (some .sb) pseSb2StateCallback (some .sb22),
   .stateSubscribe .pseSbStateMachine .sb21 (some .sb2) pseSb21StateCallback none,
   .stateSubscribe .pseSbStateMachine .sb22 (some .sb2) pseSb22StateCallback none,
   .setStateTransitions .sb1 pseSb1StateTransitions,
   .setStateTransitions .sb2 pseSb2StateTransitions,
   .addStateMachineTask .pseSbStateMachine 100]

/-! ## The machines -/

def pseSetup : Setup StateMachine Queue State := .calls hsmPseInit

/-- How deep a state is nested. -/
def depth : State → Nat
  | .sa | .sb => 0
  | .sa1 | .sa2 | .sb1 | .sb2 => 1
  | .sa11 | .sa12 | .sa21 | .sa22 | .sb11 | .sb12 | .sb21 | .sb22 => 2

theorem depth_le (s : State) : depth s ≤ 2 := by
  cases s <;> decide

def pseNesting : Nesting pseSetup.parent pseSetup.substate where
  depth := depth
  height := 2
  depth_root := by decide
  depth_parent := by decide
  depth_le := depth_le
  initial_parent := by decide

def pseStateMachine : StateMachine → Machine StateMachine Queue State
  | .pseSaStateMachine =>
    { setup := pseSetup
      id := .pseSaStateMachine
      initial := .sa
      queue := .pseSaSigqueue
      nesting := pseNesting
      initial_eq := by decide
      queue_eq := by decide }
  | .pseSbStateMachine =>
    { setup := pseSetup
      id := .pseSbStateMachine
      initial := .sb
      queue := .pseSbSigqueue
      nesting := pseNesting
      initial_eq := by decide
      queue_eq := by decide }

theorem pseStateMachine_plain (m : StateMachine) : (pseStateMachine m).Plain := by
  cases m <;>
  · refine ⟨by decide, by decide, by decide, ?_⟩
    intro s f hf e
    cases s <;> cases hf <;> exact stateCallback_ne_handled (by decide) e

/-! ## The machines as switches -/

/-- The statechart of a machine. -/
abbrev chart (m : StateMachine) : Chart State SigId := (pseStateMachine m).chart

/-- The leaf of the first group that a machine starts in and comes back to. -/
def firstLeaf : StateMachine → State
  | .pseSaStateMachine => .sa11
  | .pseSbStateMachine => .sb11

/-- The leaf of the second group that `SYS_SIG_TYPE_1` leads to. -/
def secondLeaf : StateMachine → State
  | .pseSaStateMachine => .sa22
  | .pseSbStateMachine => .sb22

/-- `SYS_SIG_TYPE_1` or `SYS_SIG_TYPE_2`. -/
def isMove (e : SigId) : Bool := e == SYS_SIG_TYPE_1 || e == SYS_SIG_TYPE_2

/-- The leaf that is active after `hsm_pse_init`. -/
theorem initial_leaf (m : StateMachine) :
    (chart m).settle (pseStateMachine m).initial = firstLeaf m := by
  cases m <;> rfl

theorem fire_firstLeaf (m : StateMachine) (e : SigId) :
    (chart m).fire (firstLeaf m) e = if e = SYS_SIG_TYPE_1 then secondLeaf m else firstLeaf m := by
  cases m <;> rcases e with _ | _ | _ | _ | i | (_ | _ | _ | n) <;> rfl

theorem fire_secondLeaf (m : StateMachine) (e : SigId) :
    (chart m).fire (secondLeaf m) e = if e = SYS_SIG_TYPE_2 then firstLeaf m else secondLeaf m := by
  cases m <;> rcases e with _ | _ | _ | _ | i | (_ | _ | _ | n) <;> rfl

/-- **The last move decides**, over any sequence of signals. -/
theorem fires_eq (m : StateMachine) (w : List SigId) : (chart m).fires (firstLeaf m) w =
    if History.last isMove w = some SYS_SIG_TYPE_1 then secondLeaf m else firstLeaf m :=
  History.foldl_switch (by decide) (fire_firstLeaf m) (fire_secondLeaf m) w

end QuarkTS.PubSub
