import Mathlib.Data.Fintype.Basic
import QuarkTS.GuardedKernel
import QuarkTS.Lib.History

/-!
# The hierarchy example

`fsm_ex/hierarchy_ex1.bak`: six nested states with transitions between all levels, also to ancestors
and from states to themselves, and two guards that test and set the variable `foo`.

`leaf_of_toggles` — in every run of the signal handler, the queue and the task, which leaf is active
does not depend on `foo`, on what the engine does with a rejected signal or on which ancestors a
transition leaves: the signals taken from the queue alone decide, and `foo` is always 0 or 1.
-/

set_option autoImplicit false

namespace QuarkTS.Hierarchy

open Statechart History Runs Program

/-! ## Signals -/

@[match_pattern] abbrev SIGNAL_A : SigId := .user 1
@[match_pattern] abbrev SIGNAL_B : SigId := .user 2
@[match_pattern] abbrev SIGNAL_C : SigId := .user 3
@[match_pattern] abbrev SIGNAL_D : SigId := .user 4
@[match_pattern] abbrev SIGNAL_E : SigId := .user 5
@[match_pattern] abbrev SIGNAL_F : SigId := .user 6
@[match_pattern] abbrev SIGNAL_G : SigId := .user 7
@[match_pattern] abbrev SIGNAL_H : SigId := .user 8
@[match_pattern] abbrev SIGNAL_I : SigId := .user 9

/-! ## Guards and tables -/

/-- `qSM_t super`. -/
inductive StateMachine where
  | super
  deriving DecidableEq, Repr

inductive Queue where
  | sigqueue
  deriving DecidableEq, Repr

/-- `qSM_State_t s, s1, s11, s2, s21, s211`. -/
inductive State where
  | s
  | s1
  | s11
  | s2
  | s21
  | s211
  deriving DecidableEq, Repr

instance : Fintype State where
  elems := {.s, .s1, .s11, .s2, .s21, .s211}
  complete u := by cases u <;> decide

/-- The guards, on the value of `foo`. -/
def fsmguard1 (foo : Int) : Bool × Int := if 1 = foo then (true, 0) else (false, foo)
def fsmguard2 (foo : Int) : Bool × Int := if 0 = foo then (true, 1) else (false, foo)

def sTransitions : List (GuardedEntry State SigId Int) :=
  [⟨SIGNAL_E, none, some .s11⟩,
   ⟨SIGNAL_I, some fsmguard1, none⟩]

def s1Transitions : List (GuardedEntry State SigId Int) :=
  [⟨SIGNAL_B, none, some .s11⟩,
   ⟨SIGNAL_A, none, some .s1⟩,
   ⟨SIGNAL_D, some fsmguard2, some .s⟩,
   ⟨SIGNAL_C, none, some .s2⟩,
   ⟨SIGNAL_F, none, some .s211⟩]

def s11Transitions : List (GuardedEntry State SigId Int) :=
  [⟨SIGNAL_D, some fsmguard1, some .s1⟩,
   ⟨SIGNAL_H, none, some .s⟩,
   ⟨SIGNAL_G, none, some .s211⟩]

def s2Transitions : List (GuardedEntry State SigId Int) :=
  [⟨SIGNAL_C, none, some .s1⟩,
   ⟨SIGNAL_F, none, some .s11⟩,
   ⟨SIGNAL_I, some fsmguard2, none⟩]

def s21Transitions : List (GuardedEntry State SigId Int) :=
  [⟨SIGNAL_G, none, some .s1⟩,
   ⟨SIGNAL_B, none, some .s211⟩,
   ⟨SIGNAL_A, none, some .s21⟩]

def s211Transitions : List (GuardedEntry State SigId Int) :=
  [⟨SIGNAL_H, none, some .s⟩,
   ⟨SIGNAL_D, none, some .s21⟩]

/-! ## Callbacks -/

/-- `printf("%*s%s", width, arrow, name)`. -/
def printArrow (width : Nat) (arrow name : String) : String :=
  String.ofList (List.replicate (width - arrow.length) ' ') ++ arrow ++ name

/-- `statex_callback`, with the state data `sdata`: a digit for the level, and the name. -/
def statexCallback (sdata : String) : Callback :=
  let level := (sdata.toList.headD '0').toNat - 48
  let sname := String.ofList sdata.toList.tail
  fun
    | .entry => (some (printArrow (2 * level) "-> " sname), .exitSuccess)
    | .start => (some (printArrow (2 * level) "-* " sname), .exitSuccess)
    | .exit => (some (printArrow (2 * level) "-x " sname), .exitSuccess)
    | _ => (none, .exitSuccess)

/-- What `statex_callback` does with `foo` when a state is left. -/
def statexExit (state : State) (foo : Int) : Int := if state = .s then 0 else foo

/-! ## Sig_Handler and main -/

def sigHandler : OsSignal → Option SigId
  | .SIGUSR1 => some SIGNAL_A
  | .SIGUSR2 => some SIGNAL_B
  | .SIGQUIT => some SIGNAL_C
  | .SIGALRM => some SIGNAL_D
  | .SIGTRAP => some SIGNAL_E
  | .SIGSYS => some SIGNAL_F
  | .SIGTSTP => some SIGNAL_G
  | .SIGCHLD => some SIGNAL_H
  | .SIGSEGV => some SIGNAL_I

/-- The size of `topsm_sig_stack`. -/
def topsmSigStackSize : Nat := 10

/-- The set-up calls of `main`. -/
def mainCalls : List (GuardedCall StateMachine Queue State Int) :=
  [.call (.stateMachineSetup .super (some (statexCallback "0top")) .s2),
   .call (.stateSubscribe .super .s QSM_STATE_TOP (statexCallback "1s") (some .s1)),
   .call (.stateSubscribe .super .s1 (some .s) (statexCallback "2s1") (some .s11)),
   .call (.stateSubscribe .super .s11 (some .s1) (statexCallback "3s11") none),
   .call (.stateSubscribe .super .s2 (some .s) (statexCallback "2s2") (some .s21)),
   .call (.stateSubscribe .super .s21 (some .s2) (statexCallback "3s21") (some .s211)),
   .call (.stateSubscribe .super .s211 (some .s21) (statexCallback "4s211") none),
   .call (.queueSetup .sigqueue topsmSigStackSize),
   .call (.installSignalQueue .super .sigqueue),
   .setStateTransitions .s sTransitions,
   .setStateTransitions .s1 s1Transitions,
   .setStateTransitions .s11 s11Transitions,
   .setStateTransitions .s2 s2Transitions,
   .setStateTransitions .s21 s21Transitions,
   .setStateTransitions .s211 s211Transitions,
   .call (.addStateMachineTask .super 100)]

/-! ## The machine -/

def hierarchySetup : Setup StateMachine Queue State :=
  .calls (mainCalls.filterMap GuardedCall.call?)

/-- How deep a state is nested. -/
def depth : State → Nat
  | .s => 0
  | .s1 | .s2 => 1
  | .s11 | .s21 => 2
  | .s211 => 3

/-- `super`, with `foo` as its data. -/
def super : GuardedMachine StateMachine Queue State Int where
  setup := hierarchySetup
  id := .super
  initial := .s2
  queue := .sigqueue
  nesting :=
    { depth := depth
      height := 3
      depth_root := by decide
      depth_parent := by decide
      depth_le := by decide
      initial_parent := by decide }
  initial_eq := by decide
  queue_eq := by decide
  transitions := GuardedCall.tables mainCalls
  left := statexExit
  data := 0

theorem super_unhandled : super.Unhandled := by
  intro u f hf e
  cases u <;> cases hf <;> cases e <;> nofun

abbrev chart : GuardedChart State SigId Int := super.guardedChart

/-! ## One signal -/

/-- What each leaf does with each signal. -/
def next : State → SigId → State
  | .s11, SIGNAL_C => .s211
  | .s11, SIGNAL_F => .s211
  | .s11, SIGNAL_G => .s211
  | .s211, SIGNAL_C => .s11
  | .s211, SIGNAL_E => .s11
  | .s211, SIGNAL_F => .s11
  | .s211, SIGNAL_G => .s11
  | .s211, SIGNAL_H => .s11
  | leaf, _ => leaf

/-- The machine is in one of its two leaves, and `foo` is 0 or 1. -/
def Sound (leaf : State) (foo : Int) : Prop := (leaf = .s11 ∨ leaf = .s211) ∧ (foo = 0 ∨ foo = 1)

instance (leaf : State) (foo : Int) : Decidable (Sound leaf foo) :=
  inferInstanceAs (Decidable (_ ∧ _))

/-- **All that may happen agrees on the leaf**, and keeps `foo` 0 or 1. -/
theorem reactions_agree : chart.Agree Sound next := by
  intro leaf foo e h
  suffices (chart.reactions leaf foo e).all fun r => r.1 = next leaf e ∧ Sound r.1 r.2 by
    simpa using this
  obtain ⟨rfl | rfl, rfl | rfl⟩ := h <;>
    rcases e with _ | _ | _ | _ | i | (_ | _ | _ | _ | _ | _ | _ | _ | _ | _ | n) <;> rfl

/-! ## The state after a history of signals -/

/-- `SIGNAL_E` or `SIGNAL_H`. -/
def isHome (e : SigId) : Bool := e == SIGNAL_E || e == SIGNAL_H

/-- `SIGNAL_C`, `SIGNAL_F` or `SIGNAL_G`. -/
def isToggle (e : SigId) : Bool := e == SIGNAL_C || e == SIGNAL_F || e == SIGNAL_G

/-- The moves between the two leaves since `s11` was last asked for; the machine starts one move
    away from `s11`. -/
def toggles (w : List SigId) : Nat :=
  (afterLast isHome w).countP isToggle + if w.any isHome then 0 else 1

/-- The leaf that a history determines. -/
def reading (w : List SigId) : State := if toggles w % 2 = 0 then .s11 else .s211

theorem toggles_home {w : List SigId} {e : SigId} (he : isHome e = true) :
    toggles (w ++ [e]) = 0 := by
  simp [toggles, afterLast_concat_pos he, he]

theorem toggles_other {w : List SigId} {e : SigId} (he : isHome e = false) :
    toggles (w ++ [e]) = toggles w + if isToggle e = true then 1 else 0 := by
  simp only [toggles, afterLast_concat_neg he, List.countP_append, List.countP_singleton,
    List.any_append, List.any_cons, List.any_nil, he, Bool.or_false]
  omega

theorem reading_cases (w : List SigId) : reading w = .s11 ∨ reading w = .s211 := by
  unfold reading
  split
  · exact Or.inl rfl
  · exact Or.inr rfl

theorem next_home {leaf : State} {e : SigId} (hleaf : leaf = .s11 ∨ leaf = .s211)
    (he : isHome e = true) : next leaf e = .s11 := by
  simp only [isHome, Bool.or_eq_true, beq_iff_eq] at he
  rcases hleaf with rfl | rfl <;> rcases he with rfl | rfl <;> rfl

theorem next_toggle {e : SigId} (he : isToggle e = true) :
    next .s11 e = .s211 ∧ next .s211 e = .s11 := by
  simp only [isToggle, Bool.or_eq_true, beq_iff_eq] at he
  rcases he with (rfl | rfl) | rfl <;> exact ⟨rfl, rfl⟩

theorem next_other {e : SigId} (hh : isHome e = false) (ht : isToggle e = false) (leaf : State) :
    next leaf e = leaf := by
  unfold next
  split <;> first | rfl | exact absurd hh (by decide) | exact absurd ht (by decide)

/-- **One more signal changes the reading as it changes the machine.** -/
theorem reading_concat (w : List SigId) (e : SigId) : reading (w ++ [e]) = next (reading w) e := by
  cases hh : isHome e with
  | true => rw [next_home (reading_cases w) hh, reading, toggles_home hh, if_pos rfl]
  | false =>
    cases ht : isToggle e with
    | false =>
      have hsame : toggles (w ++ [e]) = toggles w := by simp [toggles_other hh, ht]
      rw [next_other hh ht, reading, reading, hsame]
    | true =>
      obtain ⟨hfirst, hsecond⟩ := next_toggle ht
      have hmore : toggles (w ++ [e]) = toggles w + 1 := by simp [toggles_other hh, ht]
      rw [reading, reading, hmore]
      by_cases heven : toggles w % 2 = 0
      · rw [if_pos heven, if_neg (by omega), hfirst]
      · rw [if_neg heven, if_pos (by omega), hsecond]

theorem foldl_next (w : List SigId) : w.foldl next .s211 = reading w := by
  induction w using List.reverseRecOn with
  | nil => rfl
  | append_singleton w e ih => rw [List.foldl_concat, ih, reading_concat]

/-! ## Runs -/

variable {K : GuardedKernel super} {as : List (Action OsSignal)} {w : K.State × List SigId}
  {G : K.State → Action OsSignal → Prop}

/-- **The signals alone decide on the leaf**: in every run and with every engine, the active leaf is
    `s11` if the number of moves since `SIGNAL_E` or `SIGNAL_H` was taken from the queue is even,
    and `s211` if it is odd; `foo` is 0 or 1; and what was taken and what waits are, in order, a
    part of what the handler has sent. -/
theorem leaf_of_toggles
    (h : Run (watch (K.step sigHandler) K.record) (fun w a => G w.1 a) (K.start, []) as w) :
    K.leaf w.1 = reading w.2 ∧ (K.data w.1 = 0 ∨ K.data w.1 = 1) ∧
      List.Sublist (w.2 ++ K.queue w.1) ((inputs as).filterMap sigHandler) := by
  have hstart : Sound (chart.chart.settle super.initial) super.data := by decide
  obtain ⟨hleaf, hsound⟩ := GuardedKernel.leaf_of_agree super_unhandled reactions_agree hstart h
  have hissued := QueuedKernel.issued_eq_handled (K.expire_none rfl) h.of_watch
  refine ⟨hleaf.trans (foldl_next w.2), hsound.2, ?_⟩
  rw [← hissued]
  exact QueuedKernel.taken_sublist_issued h

/-- `SIGQUIT` leads to `s11`, `SIGALRM` and `SIGSEGV` change at most `foo`, `SIGTSTP` leads back, and
    `SIGCHLD` to `s11` again. -/
theorem leaf_of_toggles_s11 : ∃ w,
    Run (watch ((GuardedKernel.reference super).step sigHandler)
        (GuardedKernel.reference super).record)
      (fun _ _ => True) ((GuardedKernel.reference super).start, [])
      [.recv .SIGQUIT, .recv .SIGALRM, .consume, .recv .SIGSEGV, .tick, .consume, .recv .SIGTSTP,
        .recv .SIGCHLD, .consume, .consume, .consume] w ∧
    (GuardedKernel.reference super).leaf w.1 = .s11 := by
  have hexec : (execute
      (watch ((GuardedKernel.reference super).step sigHandler)
        (GuardedKernel.reference super).record)
      (fun _ _ => True) ((GuardedKernel.reference super).start, [])
      [.recv .SIGQUIT, .recv .SIGALRM, .consume, .recv .SIGSEGV, .tick, .consume, .recv .SIGTSTP,
        .recv .SIGCHLD, .consume, .consume, .consume]).map (fun w => w.2) =
      some [SIGNAL_C, SIGNAL_D, SIGNAL_I, SIGNAL_G, SIGNAL_H] := by decide
  obtain ⟨w, hrun, htaken⟩ := Run.of_execute_map hexec
  obtain ⟨hleaf, _⟩ := leaf_of_toggles (G := fun _ _ => True) hrun
  refine ⟨w, hrun, ?_⟩
  rw [hleaf, htaken]
  decide

end QuarkTS.Hierarchy
