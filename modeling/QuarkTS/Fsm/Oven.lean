import Mathlib.Data.Fintype.Basic
import QuarkTS.HistoryProgram

/-!
# The oven example

`fsm_ex/oven.bak`: as in the microwave, the door may be opened at any time, but closing it leads to
the deep history of `state_doorclosed`.

* `leaf_eq_reading` — in every run, the active leaf is given by the door and by the last cooking
  signal that was consumed while the door was closed;
* `door_restores` — opening and closing the door changes nothing, whatever happens in between.
-/

set_option autoImplicit false

namespace QuarkTS.Oven

open Statechart Reactor Runs History Program HistoryProgram

/-! ## Signals -/

@[match_pattern] abbrev SIGNAL_CLOSE : SigId := .user 1
@[match_pattern] abbrev SIGNAL_OPEN : SigId := .user 2
@[match_pattern] abbrev SIGNAL_TOAST : SigId := .user 4
@[match_pattern] abbrev SIGNAL_BAKE : SigId := .user 5
/-- `QSM_SIGNAL_TIMEOUT(0)`. -/
@[match_pattern] abbrev SIGNAL_TIMEOUT : SigId := .timeout 0

/-! ## The tables -/

/-- `qSM_t super`. -/
inductive StateMachine where
  | super
  deriving DecidableEq, Repr

inductive Queue where
  | sigqueue
  deriving DecidableEq, Repr

/-- `qSM_State_t state_dooropen, state_doorclosed, ...` -/
inductive State where
  | dooropen
  | doorclosed
  | off
  | heating
  | toasting
  | baking
  deriving DecidableEq, Repr

instance : Fintype State where
  elems := {.dooropen, .doorclosed, .off, .heating, .toasting, .baking}
  complete s := by cases s <;> decide

def doorclosedTtable : List (Transition State) :=
  [⟨SIGNAL_OPEN, none, .dooropen, 0⟩,
   ⟨SIGNAL_TIMEOUT, none, .off, 0⟩,
   ⟨SIGNAL_TOAST, none, .toasting, 0⟩,
   ⟨SIGNAL_BAKE, none, .baking, 0⟩]

def dooropenTtable : List (Transition State) :=
  [⟨SIGNAL_CLOSE, none, .doorclosed, qSM_TRANSITION_DEEP_HISTORY⟩]

/-- Ten seconds are 10000 ticks of 0.001 s. -/
def ovenTimeouts : List Timeout :=
  [{ deadline := 10000, index := 0, setEntry := true, rstExit := true }]

def stateTopCallback : Callback := indentedCallback "" "top" false
def stateDoorclosedCallback : Callback := indentedCallback "   " "doorclosed" true
def stateDooropenCallback : Callback := indentedCallback "   " "dooropen" true
def stateOffCallback : Callback := indentedCallback "       " "off" true
def stateHeatingCallback : Callback := indentedCallback "       " "heating" true
def stateToastingCallback : Callback := indentedCallback "           " "toasting" true
def stateBakingCallback : Callback := indentedCallback "           " "baking" true

def sigHandler : OsSignal → Option SigId
  | .SIGUSR1 => some SIGNAL_CLOSE
  | .SIGUSR2 => some SIGNAL_OPEN
  | .SIGQUIT => some SIGNAL_TIMEOUT
  | .SIGALRM => some SIGNAL_TOAST
  | .SIGTRAP => some SIGNAL_BAKE
  | _ => none

/-- The set-up calls of `main`. -/
def mainCalls : List (Call StateMachine Queue State) :=
  [.stateMachineSetup .super (some stateTopCallback) .doorclosed,
   .stateSubscribe .super .doorclosed QSM_STATE_TOP stateDoorclosedCallback (some .off),
   .stateSubscribe .super .dooropen QSM_STATE_TOP stateDooropenCallback none,
   .stateSubscribe .super .off (some .doorclosed) stateOffCallback none,
   .stateSubscribe .super .heating (some .doorclosed) stateHeatingCallback none,
   .stateSubscribe .super .toasting (some .heating) stateToastingCallback none,
   .stateSubscribe .super .baking (some .heating) stateBakingCallback none,
   .queueSetup .sigqueue 10,
   .installSignalQueue .super .sigqueue,
   .installTimeoutSpec .super,
   .setStateTimeouts .heating ovenTimeouts,
   .setStateTransitions .doorclosed doorclosedTtable,
   .setStateTransitions .dooropen dooropenTtable,
   .addStateMachineTask .super 100]

/-! ## The machine -/

def ovenSetup : Setup StateMachine Queue State := .calls mainCalls

/-- How deep a state is nested. -/
def depth : State → Nat
  | .dooropen | .doorclosed => 0
  | .off | .heating => 1
  | .toasting | .baking => 2

def super : Machine StateMachine Queue State where
  setup := ovenSetup
  id := .super
  initial := .doorclosed
  queue := .sigqueue
  nesting :=
    { depth := depth
      height := 2
      depth_root := by decide
      depth_parent := by decide
      depth_le := by decide
      initial_parent := by decide }
  initial_eq := by decide
  queue_eq := by decide

theorem super_permissive : super.Permissive where
  allowing := by
    intro s t ht f hf
    have hnone : ∀ s, ∀ t ∈ ovenSetup.transitions s, t.action.isNone := by decide
    rw [Option.isNone_iff_eq_none.1 (hnone s t ht)] at hf
    cases hf
  unhandled := by
    intro s f hf e
    cases s <;> cases hf <;> exact indentedCallback_ne_handled e
  remote := super.historyChart.remote_of_table (by decide)

abbrev chart : HistoryChart State SigId := super.historyChart

/-! ## The state after a history of signals -/

/-- The door after one more signal. -/
def door (opened : Bool) (e : SigId) : Bool :=
  if e = SIGNAL_OPEN then true else if e = SIGNAL_CLOSE then false else opened

/-- The signals that are consumed while the door is closed. -/
def whileClosed (opened : Bool) : List SigId → List SigId
  | [] => []
  | e :: w => (if opened then [] else [e]) ++ whileClosed (door opened e) w

/-- `QSM_SIGNAL_TIMEOUT(0)`, `SIGNAL_TOAST` or `SIGNAL_BAKE`. -/
def isCook (e : SigId) : Bool := e == SIGNAL_TIMEOUT || e == SIGNAL_TOAST || e == SIGNAL_BAKE

/-- The leaf that the last cooking signal asks for. -/
def cooking : Option SigId → State
  | some SIGNAL_TOAST => .toasting
  | some SIGNAL_BAKE => .baking
  | _ => .off

/-- The leaf inside `state_doorclosed` that a history leaves. -/
def cooked (w : List SigId) : State := cooking (last isCook (whileClosed false w))

/-- The leaf that a history determines. -/
def reading (w : List SigId) : State :=
  if w.foldl door false then .dooropen else cooked w

theorem whileClosed_concat (opened : Bool) (w : List SigId) (e : SigId) :
    whileClosed opened (w ++ [e]) =
      whileClosed opened w ++ if w.foldl door opened then [] else [e] := by
  induction w generalizing opened with
  | nil => cases opened <;> rfl
  | cons a w ih =>
    rw [List.cons_append, whileClosed, ih, whileClosed, List.foldl_cons, List.append_assoc]

theorem cooked_open {w : List SigId} (h : w.foldl door false = true) (e : SigId) :
    cooked (w ++ [e]) = cooked w := by
  rw [cooked, whileClosed_concat, h, if_pos rfl, List.append_nil, cooked]

theorem cooked_closed {w : List SigId} (h : w.foldl door false = false) (e : SigId) :
    cooked (w ++ [e]) = if isCook e = true then cooking (some e) else cooked w := by
  rw [cooked, whileClosed_concat, h, if_neg (by decide)]
  by_cases he : isCook e = true
  · rw [last_concat_pos he, if_pos he]
  · rw [last_concat_neg (by simpa using he), if_neg he, cooked]

theorem find_dooropen (e : SigId) : chart.find .dooropen e =
    if e = SIGNAL_CLOSE then some (.doorclosed, .deep) else none := by
  rcases e with _ | _ | _ | _ | i | (_ | _ | n) <;> rfl

/-- Every leaf inside `state_doorclosed` reacts as its parent does. -/
theorem find_inside {s : State} (hs : s = .off ∨ s = .toasting ∨ s = .baking) (e : SigId) :
    chart.find s e = if e = SIGNAL_OPEN then some (.dooropen, .none)
      else if isCook e = true then some (cooking (some e), .none) else none := by
  rcases hs with rfl | rfl | rfl <;>
    rcases e with _ | _ | _ | _ | (_ | i) | (_ | _ | _ | _ | _ | _ | n) <;> rfl

theorem cooking_cases (e : Option SigId) :
    cooking e = .off ∨ cooking e = .toasting ∨ cooking e = .baking := by
  unfold cooking
  split <;> simp

theorem cooked_cases (w : List SigId) :
    cooked w = .off ∨ cooked w = .toasting ∨ cooked w = .baking := cooking_cases _

/-- Only the way back through the door uses the history. -/
theorem target_of_find {s t : State} {e : SigId} {mode : HistoryMode}
    (h : chart.find s e = some (t, mode)) (hmode : mode ≠ .none) : t = .doorclosed := by
  have htable : ∀ s, ∀ u ∈ chart.table s, u.2.2 ≠ .none → u.2.1 = .doorclosed := by decide
  obtain ⟨u, _, hmem⟩ := chart.mem_table_of_find h
  exact htable u _ hmem hmode

theorem doorclosed_mem_path {s : State} (hs : s = .off ∨ s = .toasting ∨ s = .baking) :
    State.doorclosed ∈ chart.chart.path s := by
  rcases hs with rfl | rfl | rfl <;> decide

theorem settle_cooking (e : Option SigId) : chart.chart.settle (cooking e) = cooking e := by
  rcases cooking_cases e with h | h | h <;> rw [h] <;> rfl

/-- A signal that leaves the door open is not remembered. -/
theorem cooked_of_open {w : List SigId} {e : SigId} (h : (w ++ [e]).foldl door false = true) :
    cooked (w ++ [e]) = cooked w := by
  cases hopen : w.foldl door false with
  | true => exact cooked_open hopen e
  | false =>
    rw [List.foldl_concat, hopen] at h
    have he : e = SIGNAL_OPEN := by
      by_contra hne
      rw [door, if_neg hne] at h
      split at h <;> cases h
    subst he
    rw [cooked_closed hopen, if_neg (by decide)]

/-- The next leaf, when leaf and memory are those of the reading. -/
theorem reading_concat (w : List SigId) (e : SigId) : reading (w ++ [e]) =
    chart.next (fun _ => some (cooked w)) (reading w) e := by
  have hdoor : (w ++ [e]).foldl door false = door (w.foldl door false) e := List.foldl_concat ..
  rw [reading, hdoor]
  cases hopen : w.foldl door false with
  | true =>
    rw [show reading w = .dooropen by rw [reading, hopen, if_pos rfl], HistoryChart.next,
      find_dooropen, cooked_open hopen]
    by_cases hclose : e = SIGNAL_CLOSE
    · subst hclose; rfl
    · rw [if_neg hclose, show door true e = true by unfold door; simp [hclose], if_pos rfl]
  | false =>
    rw [show reading w = cooked w by rw [reading, hopen]; rfl, HistoryChart.next,
      find_inside (cooked_cases w), cooked_closed hopen]
    by_cases ho : e = SIGNAL_OPEN
    · subst ho; rfl
    · have hshut : door false e = false := by unfold door; simp [ho]
      rw [if_neg ho, hshut, if_neg (by decide)]
      by_cases hcook : isCook e = true
      · rw [if_pos hcook, if_pos hcook]
        exact (settle_cooking _).symm
      · rw [if_neg hcook, if_neg hcook]

/-- The leaf follows the reading, and the last leaf inside `state_doorclosed` is the one that the
    reading remembers. -/
theorem leafAfter_eq (M : HistoryChart.Engine chart .doorclosed) (w : List SigId) :
    M.leafAfter w = reading w ∧ chart.lastInside (M.leaves w) .doorclosed = some (cooked w) := by
  induction w using List.reverseRecOn with
  | nil =>
    have hstart : M.leafAfter [] = .off := M.leaf_start
    refine ⟨hstart, ?_⟩
    rw [M.lastInside_active (by rw [hstart]; decide), hstart]
    rfl
  | append_singleton w e ih =>
    obtain ⟨hleaf, hinside⟩ := ih
    have hnext : M.leafAfter (w ++ [e]) = reading (w ++ [e]) := by
      rw [M.leafAfter_concat super_permissive.remote, reading_concat, hleaf]
      refine chart.next_congr fun t mode hfind hmode => ?_
      rw [target_of_find hfind hmode, hinside]
    refine ⟨hnext, ?_⟩
    cases hopen : (w ++ [e]).foldl door false with
    | true =>
      have hout : State.doorclosed ∉ chart.chart.path (M.leafAfter (w ++ [e])) := by
        rw [hnext, reading, hopen, if_pos rfl]
        decide
      rw [M.lastInside_concat hout, hinside, cooked_of_open hopen]
    | false =>
      have hin : M.leafAfter (w ++ [e]) = cooked (w ++ [e]) := by
        rw [hnext, reading, hopen]
        rfl
      rw [M.lastInside_active, hin]
      rw [hin]
      exact doorclosed_mem_path (cooked_cases _)

/-- Behind the opened door nothing is cooked. -/
theorem cooked_behind_door (v : List SigId) {x : List SigId} (hv : v.foldl door false = false)
    (hx : SIGNAL_CLOSE ∉ x) : (v ++ SIGNAL_OPEN :: x).foldl door false = true ∧
      cooked (v ++ SIGNAL_OPEN :: x) = cooked v := by
  induction x using List.reverseRecOn with
  | nil =>
    refine ⟨by rw [List.foldl_concat, hv]; rfl, ?_⟩
    rw [cooked_closed hv, if_neg (by decide)]
  | append_singleton x e ih =>
    have hsplit : v ++ SIGNAL_OPEN :: (x ++ [e]) = (v ++ SIGNAL_OPEN :: x) ++ [e] := by simp
    simp only [List.mem_append, List.mem_singleton, not_or] at hx
    obtain ⟨hopen, hcooked⟩ := ih hx.1
    rw [hsplit, List.foldl_concat, hopen, cooked_open hopen]
    refine ⟨?_, hcooked⟩
    unfold door
    simp [Ne.symm hx.2]

theorem leaf_feed (K : HistoryKernel super) (w : List SigId) : K.leaf (K.feed w) = reading w :=
  (leafAfter_eq (K.engine super_permissive) w).1

/-! ## Runs -/

variable {K : HistoryKernel super} {as bs : List (Program.Action OsSignal)}
  {w w' : K.State × List SigId} {G : K.State → Program.Action OsSignal → Prop}

/-- **The door and the last cooking signal** that was consumed while it was closed determine the
    active leaf, in every run; and the signals consumed, with those that wait, are a part of those
    that `Sig_Handler` and the timer have issued, in their order. -/
theorem leaf_eq_reading
    (h : Run (watch (step sigHandler K) (record K)) (fun w a => G w.1 a) (K.start, []) as w) :
    K.leaf w.1 = reading w.2 ∧ List.Sublist (w.2 ++ K.queue w.1) (issued sigHandler as) := by
  refine ⟨?_, taken_sublist_issued h⟩
  rw [leaf_eq_feed super_permissive h, leaf_feed]

/-- The door is opened while the oven bakes, and `SIGNAL_TOAST` is lost on it. -/
theorem leaf_eq_reading_opened : ∃ w,
    Run (watch (step sigHandler (.reference super)) (record (.reference super)))
      (fun _ _ => True) ((HistoryKernel.reference super).start, [])
      [.recv .SIGTRAP, .tick, .consume, .recv .SIGUSR2, .recv .SIGALRM, .recv .SIGQUIT, .consume,
        .consume] w ∧
    w.2 = [SIGNAL_BAKE, SIGNAL_OPEN, SIGNAL_TOAST] ∧
    (HistoryKernel.reference super).leaf w.1 = reading w.2 ∧
      List.Sublist (w.2 ++ (HistoryKernel.reference super).queue w.1)
        [SIGNAL_BAKE, SIGNAL_OPEN, SIGNAL_TOAST, SIGNAL_TIMEOUT] := by
  have hexec : (execute
      (watch (step sigHandler (.reference super)) (record (.reference super)))
      (fun _ _ => True) ((HistoryKernel.reference super).start, [])
      [.recv .SIGTRAP, .tick, .consume, .recv .SIGUSR2, .recv .SIGALRM, .recv .SIGQUIT, .consume,
        .consume]).map (fun w => w.2) = some [SIGNAL_BAKE, SIGNAL_OPEN, SIGNAL_TOAST] := by decide
  obtain ⟨w, hrun, htaken⟩ := Run.of_execute_map hexec
  exact ⟨w, hrun, htaken, leaf_eq_reading (G := fun _ _ => True) hrun⟩

/-- **Opening and closing the door changes nothing**: from any state that a run reaches with the
    door closed, in any continuation in which the task consumes `SIGNAL_OPEN`, then anything but
    `SIGNAL_CLOSE`, and then `SIGNAL_CLOSE`. -/
theorem door_restores {x : List SigId}
    (h : Run (watch (step sigHandler K) (record K)) (fun w a => G w.1 a) (K.start, []) as w)
    (h' : Run (watch (step sigHandler K) (record K)) (fun w a => G w.1 a) w bs w')
    (hclosed : K.leaf w.1 ≠ .dooropen) (hx : SIGNAL_CLOSE ∉ x)
    (htaken : w'.2 = w.2 ++ SIGNAL_OPEN :: x ++ [SIGNAL_CLOSE]) :
    K.leaf w'.1 = K.leaf w.1 := by
  have hv : w.2.foldl door false = false := by
    rw [leaf_eq_feed super_permissive h, leaf_feed, reading] at hclosed
    by_contra hopen
    rw [Bool.not_eq_false] at hopen
    rw [if_pos hopen] at hclosed
    exact hclosed rfl
  obtain ⟨hopen, hcooked⟩ := cooked_behind_door w.2 hv hx
  have hshut : (w.2 ++ SIGNAL_OPEN :: x ++ [SIGNAL_CLOSE]).foldl door false = false := by
    rw [List.foldl_concat, hopen]
    rfl
  rw [leaf_eq_feed super_permissive (h.append h'), leaf_eq_feed super_permissive h, leaf_feed,
    leaf_feed, htaken, reading, hshut, reading, hv, cooked_open hopen, hcooked]

/-- The oven goes on toasting, although `SIGNAL_BAKE` has been consumed in between. -/
theorem door_restores_toasting : ∃ w w',
    Run (watch (step sigHandler (.reference super)) (record (.reference super)))
      (fun _ _ => True) w
      [.recv .SIGUSR2, .consume, .recv .SIGTRAP, .recv .SIGUSR1, .consume, .tick, .consume] w' ∧
    (HistoryKernel.reference super).leaf w.1 = .toasting ∧
      (HistoryKernel.reference super).leaf w'.1 = .toasting := by
  have hexec : (execute
      (watch (step sigHandler (.reference super)) (record (.reference super)))
      (fun _ _ => True) ((HistoryKernel.reference super).start, [])
      [.recv .SIGALRM, .consume]).map (fun w =>
        ((HistoryKernel.reference super).leaf w.1, w.2, (execute
          (watch (step sigHandler (.reference super)) (record (.reference super)))
          (fun _ _ => True) w
          [.recv .SIGUSR2, .consume, .recv .SIGTRAP, .recv .SIGUSR1, .consume, .tick,
            .consume]).map (fun w => w.2))) =
      some (.toasting, [SIGNAL_TOAST],
        some [SIGNAL_TOAST, SIGNAL_OPEN, SIGNAL_BAKE, SIGNAL_CLOSE]) := by decide
  obtain ⟨w, hrun, hview⟩ := Run.of_execute_map hexec
  simp only [Prod.mk.injEq] at hview
  obtain ⟨hleaf, htaken, hexec'⟩ := hview
  obtain ⟨w', hrun', htaken'⟩ := Run.of_execute_map hexec'
  have hback := door_restores (G := fun _ _ => True) (x := [SIGNAL_BAKE]) hrun hrun'
    (by rw [hleaf]; decide) (by decide) (by rw [htaken, htaken']; rfl)
  exact ⟨w, w', hrun', hleaf, hback.trans hleaf⟩

end QuarkTS.Oven
