import Mathlib.Data.Fintype.Basic
import QuarkTS.HistoryProgram

/-!
# The history example

`fsm_ex/shallowhist_ex.bak`: `state4` is left by `SIGNAL_B` for `state3` and entered again by
`SIGNAL_A` with shallow history, by `SIGNAL_F` with deep history and by `SIGNAL_E` without.

* `reenter` — what each of the three finds, in every run, however far `state4` had got before and
  whatever is consumed in `state3`.
-/

set_option autoImplicit false

namespace QuarkTS.ShallowHist

open Statechart Runs History Program HistoryProgram

/-! ## Signals -/

@[match_pattern] abbrev SIGNAL_A : SigId := .user 1
@[match_pattern] abbrev SIGNAL_B : SigId := .user 2
@[match_pattern] abbrev SIGNAL_C : SigId := .user 3
@[match_pattern] abbrev SIGNAL_D : SigId := .user 4
@[match_pattern] abbrev SIGNAL_E : SigId := .user 5
@[match_pattern] abbrev SIGNAL_F : SigId := .user 6

/-! ## The tables -/

/-- `qSM_t super`. -/
inductive StateMachine where
  | super
  deriving DecidableEq, Repr

inductive Queue where
  | sigqueue
  deriving DecidableEq, Repr

/-- `qSM_State_t state1, state2, state2a, state2b, state3, state4`. -/
inductive State where
  | state1
  | state2
  | state2a
  | state2b
  | state3
  | state4
  deriving DecidableEq, Repr

instance : Fintype State where
  elems := {.state1, .state2, .state2a, .state2b, .state3, .state4}
  complete s := by cases s <;> decide

def state3Transitions : List (Transition State) :=
  [⟨SIGNAL_A, none, .state4, qSM_TRANSITION_SHALLOW_HISTORY⟩,
   ⟨SIGNAL_E, none, .state4, qSM_TRANSITION_NO_HISTORY⟩,
   ⟨SIGNAL_F, none, .state4, qSM_TRANSITION_DEEP_HISTORY⟩]

def state4Transitions : List (Transition State) := [⟨SIGNAL_B, none, .state3, 0⟩]
def state1Transitions : List (Transition State) := [⟨SIGNAL_C, none, .state2, 0⟩]
def state2aTransitions : List (Transition State) := [⟨SIGNAL_D, none, .state2b, 0⟩]

def stateTopCallback : Callback := indentedCallback "" "top" false
def state3Callback : Callback := indentedCallback "   " "state3" true
def state4Callback : Callback := indentedCallback "   " "state4" true
def state1Callback : Callback := indentedCallback "       " "state1" true
def state2Callback : Callback := indentedCallback "       " "state2" true
def state2aCallback : Callback := indentedCallback "           " "state2a" true
def state2bCallback : Callback := indentedCallback "           " "state2b" true

def sigHandler : OsSignal → Option SigId
  | .SIGUSR1 => some SIGNAL_A
  | .SIGUSR2 => some SIGNAL_B
  | .SIGQUIT => some SIGNAL_C
  | .SIGALRM => some SIGNAL_D
  | .SIGTRAP => some SIGNAL_E
  | .SIGSYS => some SIGNAL_F
  | _ => none

/-- The set-up calls of `main`. -/
def mainCalls : List (Call StateMachine Queue State) :=
  [.stateMachineSetup .super (some stateTopCallback) .state3,
   .stateSubscribe .super .state3 QSM_STATE_TOP state3Callback none,
   .stateSubscribe .super .state4 QSM_STATE_TOP state4Callback (some .state1),
   .stateSubscribe .super .state1 (some .state4) state1Callback none,
   .stateSubscribe .super .state2 (some .state4) state2Callback (some .state2a),
   .stateSubscribe .super .state2a (some .state2) state2aCallback none,
   .stateSubscribe .super .state2b (some .state2) state2bCallback none,
   .queueSetup .sigqueue 10,
   .installSignalQueue .super .sigqueue,
   .setStateTransitions .state3 state3Transitions,
   .setStateTransitions .state4 state4Transitions,
   .setStateTransitions .state1 state1Transitions,
   .setStateTransitions .state2a state2aTransitions,
   .addStateMachineTask .super 100]

/-! ## The machine -/

def shallowHistSetup : Setup StateMachine Queue State := .calls mainCalls

/-- How deep a state is nested. -/
def depth : State → Nat
  | .state3 | .state4 => 0
  | .state1 | .state2 => 1
  | .state2a | .state2b => 2

def super : Machine StateMachine Queue State where
  setup := shallowHistSetup
  id := .super
  initial := .state3
  queue := .sigqueue
  nesting :=
    { depth := depth
      height := 2
      depth_root := by decide
      depth_parent := by decide
      depth_le := by decide
      initial_parent := by decide }
  initial_eq := by decide
  queue_eq := by decide

theorem super_permissive : super.Permissive where
  allowing := by
    intro s t ht f hf
    have hnone : ∀ s, ∀ t ∈ shallowHistSetup.transitions s, t.action.isNone := by decide
    rw [Option.isNone_iff_eq_none.1 (hnone s t ht)] at hf
    cases hf
  unhandled := by
    intro s f hf e
    cases s <;> cases hf <;> exact indentedCallback_ne_handled e
  remote := super.historyChart.remote_of_table (by decide)

abbrev chart : HistoryChart State SigId := super.historyChart

/-! ## Leaving and entering state4 -/

/-- The leaves inside `state4`. -/
def Inside (s : State) : Prop := s = .state1 ∨ s = .state2a ∨ s = .state2b

/-- `SIGNAL_A`, `SIGNAL_E` or `SIGNAL_F`. -/
def isEnter (e : SigId) : Bool := e == SIGNAL_A || e == SIGNAL_E || e == SIGNAL_F

theorem state4_mem_path {s : State} (hs : Inside s) : State.state4 ∈ chart.chart.path s := by
  rcases hs with rfl | rfl | rfl <;> decide

theorem find_inside_B {s : State} (hs : Inside s) :
    chart.find s SIGNAL_B = some (.state3, .none) := by
  rcases hs with rfl | rfl | rfl <;> rfl

theorem find_state3 {e : SigId} (he : isEnter e = false) : chart.find .state3 e = none := by
  rcases e with _ | _ | _ | _ | i | (_ | _ | _ | _ | _ | _ | _ | n) <;> first | rfl | cases he

/-- The machine is in `state3` or inside `state4`. -/
theorem leaf_cases (M : HistoryChart.Engine chart .state3) (w : List SigId) :
    M.leafAfter w = .state3 ∨ Inside (M.leafAfter w) := by
  have hleaf : ∀ s : State, chart.initial s = none → s = .state3 ∨ Inside s := by
    intro s hs
    cases s with
    | state1 => exact Or.inr (Or.inl rfl)
    | state2 => exact absurd hs (by decide)
    | state2a => exact Or.inr (Or.inr (Or.inl rfl))
    | state2b => exact Or.inr (Or.inr (Or.inr rfl))
    | state3 => exact Or.inl rfl
    | state4 => exact absurd hs (by decide)
  exact hleaf _ (M.leafAfter_initial super_permissive.remote w)

/-- `state4` stays left until a signal asks for it. -/
theorem leafAfter_left (M : HistoryChart.Engine chart .state3) {v x : List SigId}
    (hin : Inside (M.leafAfter v)) (hx : ∀ e ∈ x, isEnter e = false) :
    M.leafAfter (v ++ SIGNAL_B :: x) = .state3 := by
  induction x using List.reverseRecOn with
  | nil =>
    rw [M.leafAfter_concat super_permissive.remote, chart.next_of_some (find_inside_B hin)]
    rfl
  | append_singleton x e ih =>
    have hsplit : v ++ SIGNAL_B :: (x ++ [e]) = (v ++ SIGNAL_B :: x) ++ [e] := by simp
    rw [hsplit, M.leafAfter_concat super_permissive.remote,
      ih fun e he => hx e (List.mem_append_left _ he),
      chart.next_of_none (find_state3 (hx e (by simp)))]

/-- A signal that asks for `state4` finds it as it was left, as far as its mode remembers. -/
theorem leafAfter_entered (M : HistoryChart.Engine chart .state3) {v x : List SigId} {e : SigId}
    {mode : HistoryMode} (hin : Inside (M.leafAfter v)) (hx : ∀ e ∈ x, isEnter e = false)
    (hfind : chart.find .state3 e = some (.state4, mode)) :
    M.leafAfter (v ++ SIGNAL_B :: x ++ [e]) =
      chart.resume (some (M.leafAfter v)) .state4 mode := by
  refine M.resumes super_permissive.remote (state4_mem_path hin) ?_ ?_
  · intro u hu hne
    cases u with
    | nil => exact absurd rfl hne
    | cons b u =>
      obtain ⟨rfl, hpre⟩ := List.cons_prefix_cons.1 hu
      rw [leafAfter_left M hin fun e he => hx e (hpre.subset he)]
      decide
  · rw [leafAfter_left M hin hx, hfind]

/-- The three ways back. -/
theorem leafAfter_reenter (M : HistoryChart.Engine chart .state3) {v x : List SigId}
    (hin : Inside (M.leafAfter v)) (hx : ∀ e ∈ x, isEnter e = false) :
    M.leafAfter (v ++ SIGNAL_B :: x ++ [SIGNAL_F]) = M.leafAfter v ∧
      M.leafAfter (v ++ SIGNAL_B :: x ++ [SIGNAL_A]) =
        (if M.leafAfter v = .state1 then .state1 else .state2a) ∧
      M.leafAfter (v ++ SIGNAL_B :: x ++ [SIGNAL_E]) = .state1 := by
  refine ⟨?_, ?_, ?_⟩
  · rw [leafAfter_entered M hin hx rfl]
    rfl
  · rw [leafAfter_entered M hin hx rfl]
    rcases hin with h | h | h <;> rw [h] <;> rfl
  · rw [leafAfter_entered M hin hx rfl]
    rfl

/-! ## Runs -/

variable {K : HistoryKernel super} {as bs : List (Program.Action OsSignal)}
  {w w' : K.State × List SigId} {G : K.State → Program.Action OsSignal → Prop}

/-- **What each history finds**: from any state that a run reaches inside `state4`, in any
    continuation in which the task consumes `SIGNAL_B`, then nothing that asks for `state4`, and
    then `e`: deep history leads back to the leaf that was active, shallow history to `state1` or
    to the beginning of `state2`, no history to `state1`, and everything else leaves `state3`
    active. -/
theorem reenter {x : List SigId} {e : SigId}
    (h : Run (watch (step sigHandler K) (record K)) (fun w a => G w.1 a) (K.start, []) as w)
    (h' : Run (watch (step sigHandler K) (record K)) (fun w a => G w.1 a) w bs w')
    (hin : K.leaf w.1 ≠ .state3) (hx : ∀ e ∈ x, isEnter e = false)
    (htaken : w'.2 = w.2 ++ SIGNAL_B :: x ++ [e]) :
    (e = SIGNAL_F → K.leaf w'.1 = K.leaf w.1) ∧
      (e = SIGNAL_A → K.leaf w'.1 = if K.leaf w.1 = .state1 then .state1 else .state2a) ∧
      (e = SIGNAL_E → K.leaf w'.1 = .state1) ∧
      (isEnter e = false → K.leaf w'.1 = .state3) := by
  have hleaf := leaf_eq_feed super_permissive h
  have hleaf' := leaf_eq_feed super_permissive (h.append h')
  rw [K.leaf_feed super_permissive] at hleaf hleaf'
  rw [hleaf] at hin ⊢
  rw [hleaf', htaken]
  have hinside := (leaf_cases (K.engine super_permissive) w.2).resolve_left hin
  obtain ⟨hdeep, hshallow, hnone⟩ := leafAfter_reenter (K.engine super_permissive) hinside hx
  refine ⟨?_, ?_, ?_, fun he => ?_⟩
  · rintro rfl
    exact hdeep
  · rintro rfl
    exact hshallow
  · rintro rfl
    exact hnone
  · have hx' : ∀ u ∈ x ++ [e], isEnter u = false := by
      intro u hu
      rcases List.mem_append.1 hu with hu | hu
      · exact hx u hu
      · rwa [List.mem_singleton.1 hu]
    rw [show w.2 ++ SIGNAL_B :: x ++ [e] = w.2 ++ SIGNAL_B :: (x ++ [e]) by simp]
    exact leafAfter_left (K.engine super_permissive) hinside hx'

/-- Back to `state2b` by deep history, with `SIGNAL_C` consumed in `state3`. -/
theorem reenter_state2b : ∃ w w',
    Run (watch (step sigHandler (.reference super)) (record (.reference super)))
      (fun _ _ => True) w
      [.recv .SIGUSR2, .recv .SIGQUIT, .consume, .consume, .recv .SIGSYS, .tick, .consume] w' ∧
    (HistoryKernel.reference super).leaf w.1 = .state2b ∧
      (HistoryKernel.reference super).leaf w'.1 = .state2b := by
  have hexec : (execute
      (watch (step sigHandler (.reference super)) (record (.reference super)))
      (fun _ _ => True) ((HistoryKernel.reference super).start, [])
      [.recv .SIGTRAP, .consume, .recv .SIGQUIT, .consume, .recv .SIGALRM, .consume]).map
        (fun w => ((HistoryKernel.reference super).leaf w.1, w.2, (execute
          (watch (step sigHandler (.reference super)) (record (.reference super)))
          (fun _ _ => True) w
          [.recv .SIGUSR2, .recv .SIGQUIT, .consume, .consume, .recv .SIGSYS, .tick,
            .consume]).map (fun w => w.2))) =
      some (.state2b, [SIGNAL_E, SIGNAL_C, SIGNAL_D],
        some [SIGNAL_E, SIGNAL_C, SIGNAL_D, SIGNAL_B, SIGNAL_C, SIGNAL_F]) := by decide
  obtain ⟨w, hrun, hview⟩ := Run.of_execute_map hexec
  simp only [Prod.mk.injEq] at hview
  obtain ⟨hleaf, htaken, hexec'⟩ := hview
  obtain ⟨w', hrun', htaken'⟩ := Run.of_execute_map hexec'
  obtain ⟨hdeep, _⟩ := reenter (G := fun _ _ => True) (x := [SIGNAL_C]) (e := SIGNAL_F) hrun hrun'
    (by rw [hleaf]; decide) (by decide) (by rw [htaken, htaken']; rfl)
  exact ⟨w, w', hrun', hleaf, (hdeep rfl).trans hleaf⟩

end QuarkTS.ShallowHist
