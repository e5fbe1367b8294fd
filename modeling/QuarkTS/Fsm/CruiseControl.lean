import Mathlib.Data.Fintype.Basic
import Mathlib.Tactic.FinCases
import QuarkTS.HistoryProgram

/-!
# The cruise control example

`fsm_ex/cruisecontrol.bak`.  The machine uses signal actions, which always allow their transition.

* `control_requested` — automated control is only active after the engine has been turned on and
  the driver has asked for it since the brake was last pressed;
* `idle_iff` — with the signals that `Sig_Handler` can send, `state_idle` is left once and for all.
-/

set_option autoImplicit false

namespace QuarkTS.CruiseControl

open Statechart Runs History Program HistoryProgram

/-! ## Signals -/

@[match_pattern] abbrev SIGNAL_ENGINE_ON : SigId := .user 1
@[match_pattern] abbrev SIGNAL_ACCEL : SigId := .user 2
@[match_pattern] abbrev SIGNAL_RESUME : SigId := .user 3
@[match_pattern] abbrev SIGNAL_OFF : SigId := .user 4
@[match_pattern] abbrev SIGNAL_BRAKE_PRESSED : SigId := .user 5
@[match_pattern] abbrev SIGNAL_CRUISE : SigId := .user 6
@[match_pattern] abbrev SIGNAL_ENGINE_OFF : SigId := .user 8

/-! ## The tables -/

/-- `qSM_t Top_SM`. -/
inductive StateMachine where
  | topSM
  deriving DecidableEq, Repr

/-- `qQueue_t top_sigqueue`. -/
inductive Queue where
  | topSigqueue
  deriving DecidableEq, Repr

/-- `qSM_State_t state_idle, state_initial, ...` -/
inductive State where
  | idle
  | initial
  | cruisingoff
  | automatedcontrol
  | accelerating
  | cruising
  | resuming
  deriving DecidableEq, Repr

instance : Fintype State where
  elems := {.idle, .initial, .cruisingoff, .automatedcontrol, .accelerating, .cruising, .resuming}
  complete s := by cases s <;> decide

/-- The signal actions print their names and return `qTrue`. -/
def sigActBrakeOff (_ : SigId) : Bool := true
def sigActClearDesiredSpeed (_ : SigId) : Bool := true

def idleTransitions : List (Transition State) :=
  [⟨SIGNAL_ENGINE_ON, some sigActClearDesiredSpeed, .initial, 0⟩]

def initialTransitions : List (Transition State) :=
  [⟨SIGNAL_ACCEL, some sigActBrakeOff, .accelerating, 0⟩]

def accelTransitions : List (Transition State) := [⟨SIGNAL_CRUISE, none, .cruising, 0⟩]

def cruisingTransitions : List (Transition State) :=
  [⟨SIGNAL_OFF, none, .cruisingoff, 0⟩,
   ⟨SIGNAL_ACCEL, none, .accelerating, 0⟩]

def resumingTransitions : List (Transition State) := [⟨SIGNAL_ACCEL, none, .accelerating, 0⟩]

def cruisingoffTransitions : List (Transition State) :=
  [⟨SIGNAL_ACCEL, some sigActBrakeOff, .accelerating, 0⟩,
   ⟨SIGNAL_RESUME, some sigActBrakeOff, .resuming, 0⟩,
   ⟨SIGNAL_ENGINE_OFF, none, .idle, 0⟩]

def automatedTransitions : List (Transition State) :=
  [⟨SIGNAL_BRAKE_PRESSED, none, .cruisingoff, 0⟩]

def stateTopCallback : Callback := indentedCallback "" "top" false
def stateIdleCallback : Callback := indentedCallback "   " "idle" false
def stateInitialCallback : Callback := indentedCallback "   " "initial" false
def stateCruisingoffCallback : Callback := indentedCallback "   " "cruisingoff" false
def stateAutomatedcontrolCallback : Callback := indentedCallback "   " "automatedcontrol" false
def stateAcceleratingCallback : Callback := indentedCallback "       " "accelerating" false
def stateResumingCallback : Callback := indentedCallback "       " "resuming" false
def stateCruisingCallback : Callback := indentedCallback "       " "cruising" false

def sigHandler : OsSignal → Option SigId
  | .SIGUSR1 => some SIGNAL_ENGINE_ON
  | .SIGUSR2 => some SIGNAL_ACCEL
  | .SIGQUIT => some SIGNAL_RESUME
  | .SIGALRM => some SIGNAL_OFF
  | .SIGTRAP => some SIGNAL_BRAKE_PRESSED
  | .SIGSYS => some SIGNAL_CRUISE
  | _ => none

/-- The set-up calls of `main`. -/
def mainCalls : List (Call StateMachine Queue State) :=
  [.stateMachineSetup .topSM (some stateTopCallback) .idle,
   .stateSubscribe .topSM .idle QSM_STATE_TOP stateIdleCallback none,
   .stateSubscribe .topSM .initial QSM_STATE_TOP stateInitialCallback none,
   .stateSubscribe .topSM .cruisingoff QSM_STATE_TOP stateCruisingoffCallback none,
   .stateSubscribe .topSM .automatedcontrol QSM_STATE_TOP stateAutomatedcontrolCallback none,
   .stateSubscribe .topSM .accelerating (some .automatedcontrol) stateAcceleratingCallback none,
   .stateSubscribe .topSM .resuming (some .automatedcontrol) stateResumingCallback none,
   .stateSubscribe .topSM .cruising (some .automatedcontrol) stateCruisingCallback none,
   .queueSetup .topSigqueue 10,
   .installSignalQueue .topSM .topSigqueue,
   .setStateTransitions .idle idleTransitions,
   .setStateTransitions .initial initialTransitions,
   .setStateTransitions .cruisingoff cruisingoffTransitions,
   .setStateTransitions .automatedcontrol automatedTransitions,
   .setStateTransitions .accelerating accelTransitions,
   .setStateTransitions .resuming resumingTransitions,
   .setStateTransitions .cruising cruisingTransitions,
   .addStateMachineTask .topSM 100]

/-! ## The machine -/

def cruiseSetup : Setup StateMachine Queue State := .calls mainCalls

/-- How deep a state is nested. -/
def depth : State → Nat
  | .accelerating | .cruising | .resuming => 1
  | _ => 0

def topSM : Machine StateMachine Queue State where
  setup := cruiseSetup
  id := .topSM
  initial := .idle
  queue := .topSigqueue
  nesting :=
    { depth := depth
      height := 1
      depth_root := by decide
      depth_parent := by decide
      depth_le := by decide
      initial_parent := by decide }
  initial_eq := by decide
  queue_eq := by decide

theorem topSM_permissive : topSM.Permissive where
  allowing := by
    intro s t ht f hf e
    cases s <;> fin_cases ht <;> cases hf <;> rfl
  unhandled := by
    intro s f hf e
    cases s <;> cases hf <;> exact indentedCallback_ne_handled e
  remote := topSM.historyChart.remote_of_table (by decide)

abbrev chart : HistoryChart State SigId := topSM.historyChart

/-- What each state does with each signal. -/
def next : State → SigId → State
  | .idle, SIGNAL_ENGINE_ON => .initial
  | .initial, SIGNAL_ACCEL => .accelerating
  | .accelerating, SIGNAL_CRUISE => .cruising
  | .accelerating, SIGNAL_BRAKE_PRESSED => .cruisingoff
  | .cruising, SIGNAL_OFF => .cruisingoff
  | .cruising, SIGNAL_ACCEL => .accelerating
  | .cruising, SIGNAL_BRAKE_PRESSED => .cruisingoff
  | .resuming, SIGNAL_ACCEL => .accelerating
  | .resuming, SIGNAL_BRAKE_PRESSED => .cruisingoff
  | .cruisingoff, SIGNAL_ACCEL => .accelerating
  | .cruisingoff, SIGNAL_RESUME => .resuming
  | .cruisingoff, SIGNAL_ENGINE_OFF => .idle
  | .automatedcontrol, SIGNAL_BRAKE_PRESSED => .cruisingoff
  | s, _ => s

/-- Lookup, exits and entries together, whatever is recalled. -/
theorem next_eq (past : State → Option State) (s : State) (e : SigId) :
    chart.next past s e = next s e := by
  cases s <;>
    rcases e with _ | _ | _ | _ | i | (_ | _ | _ | _ | _ | _ | _ | _ | _ | n) <;> rfl

theorem leafAfter_concat (M : HistoryChart.Engine chart .idle) (w : List SigId) (e : SigId) :
    M.leafAfter (w ++ [e]) = next (M.leafAfter w) e := by
  rw [M.leafAfter_concat topSM_permissive.remote, next_eq]

/-! ## Automated control -/

/-- `state_automatedcontrol` is active at a leaf. -/
def Automated (s : State) : Prop := State.automatedcontrol ∈ chart.chart.path s

instance (s : State) : Decidable (Automated s) :=
  inferInstanceAs (Decidable (State.automatedcontrol ∈ chart.chart.path s))

/-- `SIGNAL_ACCEL` or `SIGNAL_RESUME`. -/
def isRequest (e : SigId) : Bool := e == SIGNAL_ACCEL || e == SIGNAL_RESUME

/-- Only a request starts automated control, and braking ends it. -/
theorem automated_next {s : State} {e : SigId} (h : Automated (next s e)) :
    isRequest e = true ∨ e ≠ SIGNAL_BRAKE_PRESSED ∧ Automated s := by
  by_cases hbrake : e = SIGNAL_BRAKE_PRESSED
  · subst hbrake
    revert h
    cases s <;> decide
  · unfold next at h
    split at h <;> first | exact Or.inl rfl | exact absurd h (by decide) | skip
    · exact Or.inr ⟨hbrake, by decide⟩
    · exact Or.inr ⟨hbrake, h⟩

/-- `state_idle` is left by `SIGNAL_ENGINE_ON`, and entered by `SIGNAL_ENGINE_OFF` only. -/
theorem next_eq_idle {e : SigId} (he : e ≠ SIGNAL_ENGINE_OFF) (s : State) :
    next s e = .idle ↔ s = .idle ∧ e ≠ SIGNAL_ENGINE_ON := by
  unfold next
  split <;> simp_all

theorem started_next {s : State} {e : SigId} (h : next s e ≠ .idle) :
    s ≠ .idle ∨ e = SIGNAL_ENGINE_ON := by
  by_cases he : e = SIGNAL_ENGINE_OFF
  · subst he
    refine Or.inl ?_
    rintro rfl
    exact h rfl
  · rw [ne_eq, next_eq_idle he, not_and_or, not_not] at h
    exact h

section Engine

variable (M : HistoryChart.Engine chart .idle)

theorem leafAfter_started (w : List SigId) (h : M.leafAfter w ≠ .idle) : SIGNAL_ENGINE_ON ∈ w := by
  induction w using List.reverseRecOn with
  | nil => exact absurd M.leaf_start h
  | append_singleton w e ih =>
    rw [leafAfter_concat] at h
    rcases started_next h with hs | rfl
    · exact List.mem_append_left _ (ih hs)
    · simp

theorem leafAfter_automated (w : List SigId) (h : Automated (M.leafAfter w)) :
    SIGNAL_ENGINE_ON ∈ w ∧
      ∃ e ∈ afterLast (· == SIGNAL_BRAKE_PRESSED) w, isRequest e = true := by
  constructor
  · refine leafAfter_started M w fun hidle => ?_
    rw [hidle] at h
    exact absurd h (by decide)
  · induction w using List.reverseRecOn with
    | nil =>
      rw [show M.leafAfter [] = .idle from M.leaf_start] at h
      exact absurd h (by decide)
    | append_singleton w e ih =>
      rw [leafAfter_concat] at h
      rcases automated_next h with he | ⟨hne, hs⟩
      · have hne : e ≠ SIGNAL_BRAKE_PRESSED := by
          rintro rfl
          cases he
        rw [afterLast_concat_neg (by simpa using hne)]
        exact ⟨e, by simp, he⟩
      · obtain ⟨r, hr, hrq⟩ := ih hs
        rw [afterLast_concat_neg (by simpa using hne)]
        exact ⟨r, List.mem_append_left _ hr, hrq⟩

/-- Without `SIGNAL_ENGINE_OFF`, `state_idle` is left once and for all. -/
theorem leafAfter_idle_iff {w : List SigId} (hoff : SIGNAL_ENGINE_OFF ∉ w) :
    M.leafAfter w = .idle ↔ SIGNAL_ENGINE_ON ∉ w := by
  induction w using List.reverseRecOn with
  | nil => exact iff_of_true M.leaf_start (by simp)
  | append_singleton w e ih =>
    simp only [List.mem_append, List.mem_singleton, not_or] at hoff
    rw [leafAfter_concat, next_eq_idle (Ne.symm hoff.2), ih hoff.1]
    simp [eq_comm]

end Engine

/-! ## Runs -/

/-- The signals that the handler sends. -/
theorem sigHandler_eq {sig : OsSignal} {e : SigId} (h : sigHandler sig = some e) :
    e ≠ SIGNAL_ENGINE_OFF ∧ (e = SIGNAL_ENGINE_ON → sig = .SIGUSR1) := by
  cases sig <;> cases h <;> decide

variable {K : HistoryKernel topSM} {as bs : List (Program.Action OsSignal)}
  {w w' : K.State × List SigId} {G : K.State → Program.Action OsSignal → Prop}

/-- The task only consumes what the handler has sent. -/
theorem exists_of_mem_taken {e : SigId}
    (h : Run (watch (step sigHandler K) (record K)) (fun w a => G w.1 a) (K.start, []) as w)
    (he : e ∈ w.2) : ∃ sig ∈ inputs as, sigHandler sig = some e := by
  have hmem := (taken_sublist_issued h).subset (List.mem_append_left _ he)
  rw [issued, QueuedKernel.issued_eq_handled (K.expire_none rfl) h.of_watch] at hmem
  exact List.mem_filterMap.1 hmem

/-- **The engine is never turned off**: in every run, `state_idle` is active exactly if no
    `SIGNAL_ENGINE_ON` has been consumed, so that it is left once and for all. -/
theorem idle_iff
    (h : Run (watch (step sigHandler K) (record K)) (fun w a => G w.1 a) (K.start, []) as w) :
    K.leaf w.1 = .idle ↔ SIGNAL_ENGINE_ON ∉ w.2 := by
  have hoff : SIGNAL_ENGINE_OFF ∉ w.2 := by
    intro hmem
    obtain ⟨_, _, hsent⟩ := exists_of_mem_taken h hmem
    exact (sigHandler_eq hsent).1 rfl
  rw [leaf_eq_feed topSM_permissive h, K.leaf_feed topSM_permissive]
  exact leafAfter_idle_iff (K.engine topSM_permissive) hoff

/-- The brake and the wish for no cruising do not lead back. -/
theorem idle_iff_braked : ∃ w,
    Run (watch (step sigHandler (.reference topSM)) (record (.reference topSM)))
      (fun _ _ => True) ((HistoryKernel.reference topSM).start, [])
      [.recv .SIGUSR1, .consume, .recv .SIGTRAP, .tick, .recv .SIGALRM, .consume, .consume] w ∧
    w.2 = [SIGNAL_ENGINE_ON, SIGNAL_BRAKE_PRESSED, SIGNAL_OFF] ∧
      ((HistoryKernel.reference topSM).leaf w.1 = .idle ↔ False) := by
  have hexec : (execute
      (watch (step sigHandler (.reference topSM)) (record (.reference topSM)))
      (fun _ _ => True) ((HistoryKernel.reference topSM).start, [])
      [.recv .SIGUSR1, .consume, .recv .SIGTRAP, .tick, .recv .SIGALRM, .consume, .consume]).map
        (fun w => w.2) = some [SIGNAL_ENGINE_ON, SIGNAL_BRAKE_PRESSED, SIGNAL_OFF] := by decide
  obtain ⟨w, hrun, htaken⟩ := Run.of_execute_map hexec
  refine ⟨w, hrun, htaken, (idle_iff (G := fun _ _ => True) hrun).trans ?_⟩
  rw [htaken]
  decide

end QuarkTS.CruiseControl
