import QuarkTS.Console
import QuarkTS.PubSub.System

/-!
# The debug output of the publish/subscribe example

The tasks of both machines print to one output, each the messages of its own callbacks and when it
happens to run.  A machine enters its initial states in the first run of its task, so that either
machine may be the first to print, and one may react to signals before the other has begun.

`output_tells_configurations` — in every interleaving, whoever picks the messages of one machine out
of this output knows which of its states are active.
-/

set_option autoImplicit false

namespace QuarkTS.PubSub

open Statechart CString Reactor Runs

/-! ## Messages -/

/-- The names that the callbacks print. -/
def stateName : State → String
  | .sa => "SA"
  | .sa1 => "SA1"
  | .sa11 => "SA11"
  | .sa12 => "SA12"
  | .sa2 => "SA2"
  | .sa21 => "SA21"
  | .sa22 => "SA22"
  | .sb => "SB"
  | .sb1 => "SB1"
  | .sb11 => "SB11"
  | .sb12 => "SB12"
  | .sb2 => "SB2"
  | .sb21 => "SB21"
  | .sb22 => "SB22"

/-- The states of a machine. -/
def states : StateMachine → List State
  | .pseSaStateMachine => [.sa, .sa1, .sa11, .sa12, .sa2, .sa21, .sa22]
  | .pseSbStateMachine => [.sb, .sb1, .sb11, .sb12, .sb2, .sb21, .sb22]

theorem states_disjoint {m m' : StateMachine} (h : m' ≠ m) {s : State} (hs : s ∈ states m') :
    s ∉ states m := by
  revert hs h
  cases m <;> cases m' <;> cases s <;> decide

/-- The messages tell the states of both machines apart. -/
theorem pse_legible (m : StateMachine) (ss : List State) : (pseStateMachine m).Legible ss := by
  have hname : Function.Injective stateName := by
    intro s t h
    revert h
    cases s <;> cases t <;> decide
  have hcallback : ∀ s, (pseStateMachine m).setup.callback s =
      some (stateCallback (stateName s) .exitFailure) := by
    intro s
    cases m <;> cases s <;> rfl
  exact .of_names hname hcallback ss

/-- No machine leaves its states. -/
theorem states_closed (m : StateMachine) : (chart m).Closed (· ∈ states m) := by
  constructor <;> cases m <;> decide

theorem initial_mem (m : StateMachine) : (pseStateMachine m).initial ∈ states m := by
  cases m <;> decide

/-- Both machines have been set up by the same calls, so that they print the same messages. -/
theorem readLine_eq (m m' : StateMachine) :
    (pseStateMachine m).readLine = (pseStateMachine m').readLine := by
  cases m <;> cases m' <;> rfl

theorem isReserved_pass {Z : Zmq} {m : StateMachine} {buf : Buffer 32} {r : Received} {e : SigId}
    (h : (pass Z m buf r).2 = some e) : e.isReserved = false := by
  obtain ⟨_, htext⟩ := exists_text_of_pass h
  simp only [typeTexts, List.mem_cons, Prod.mk.injEq, List.not_mem_nil, or_false] at htext
  rcases htext with ⟨rfl, _⟩ | ⟨rfl, _⟩ | ⟨rfl, _⟩ | ⟨rfl, _⟩ <;> rfl

/-! ## The output of both tasks -/

variable {Z : Zmq} {K : ∀ m, ReportingKernel (pseStateMachine m)} {buf : Buffer 32}

/-- An action of the program, or a run of a task that takes no signal. -/
inductive Turn where
  | act (a : Action)
  | run (m : StateMachine)
  deriving DecidableEq, Repr

/-- The machine whose task runs. -/
def Turn.task : Turn → Option StateMachine
  | .act (.consume m) | .run m => some m
  | .act _ => none

/-- The action of the program, if there is one. -/
def Turn.action : Turn → Option Action
  | .act a => some a
  | .run _ => none

def turn (Z : Zmq) (K : ∀ m, Kernel (pseStateMachine m)) (s : System K) : Turn → Option (System K)
  | .act a => step Z K s a
  | .run _ => some s

/-- The messages that a machine has printed so far, counting those of its start. -/
def printed (K : ∀ m, ReportingKernel (pseStateMachine m))
    (s : System fun m => (K m).toKernel) (m : StateMachine) : List String :=
  (pseStateMachine m).messages ((K m).calls (s.kernel m))

/-- The messages for the entries into the initial states. -/
def startMessages (K : ∀ m, ReportingKernel (pseStateMachine m)) (m : StateMachine) : List String :=
  (pseStateMachine m).messages ((K m).calls (K m).start)

/-- The machines whose tasks have run, and the lines printed, oldest first. -/
structure Output where
  begun : StateMachine → Bool
  lines : List String

def Output.empty : Output := ⟨fun _ => false, []⟩

/-- The task that runs adds the messages of its machine: in its first run those of the start, and
    then those of the signal that it has taken. -/
def record (K : ∀ m, ReportingKernel (pseStateMachine m)) (s : System fun m => (K m).toKernel)
    (t : Turn) (s' : System fun m => (K m).toKernel) (out : Output) : Output :=
  match t.task with
  | some m =>
    { begun := Function.update out.begun m true
      lines := out.lines ++ (if out.begun m then [] else startMessages K m) ++
        (printed K s' m).drop (printed K s m).length }
  | none => out

theorem record_none {s s' : System fun m => (K m).toKernel} {t : Turn} (ht : t.task = none)
    (out : Output) : record K s t s' out = out := by
  rw [record, ht]

theorem record_task {s s' : System fun m => (K m).toKernel} {t : Turn} {m : StateMachine}
    {new : List String} (ht : t.task = some m) (hnew : printed K s' m = printed K s m ++ new)
    (out : Output) : record K s t s' out =
      { begun := Function.update out.begun m true
        lines := out.lines ++ (if out.begun m then [] else startMessages K m) ++ new } := by
  rw [record, ht]
  dsimp only
  rw [hnew, List.drop_left]

/-- What is read for machine `m` in messages of machine `m'`. -/
theorem read_messages {m m' : StateMachine} {calls : List (State × SigId)}
    (hcalls : ∀ x ∈ calls.filterMap callMark, x.state ∈ states m') :
    ((pseStateMachine m').messages calls).filterMap ((pseStateMachine m).readLine (states m)) =
      if m' = m then calls.filterMap callMark else [] := by
  rw [readLine_eq m m', Machine.filterMap_readLine (pse_legible m' _)]
  by_cases hm : m' = m
  · rw [if_pos hm, List.filter_eq_self]
    exact fun x hx => decide_eq_true (hm ▸ hcalls x hx)
  · rw [if_neg hm, List.filter_eq_nil_iff]
    exact fun x hx hmem => states_disjoint hm (hcalls x hx) (of_decide_eq_true hmem)

/-! ## Runs -/

section Runs

variable {s s' : System fun m => (K m).toKernel} {ts : List Turn} {t : Turn}
  {G : (System fun m => (K m).toKernel) → Turn → Prop}

/-- Leaving out the runs that take no signal gives a run of the program. -/
theorem run_act (h : Run (turn Z fun m => (K m).toKernel) G (start _ buf) ts s) :
    Run (step Z fun m => (K m).toKernel) Anything (start _ buf) (ts.filterMap Turn.action) s := by
  induction h with
  | nil => exact .nil
  | @snoc ts s s' t _ _ hstep ih =>
    rw [List.filterMap_append]
    cases t with
    | act a => exact ih.snoc trivial hstep
    | run m =>
      cases hstep
      rw [List.filterMap_cons_none rfl, List.filterMap_nil, List.append_nil]
      exact ih

/-- The entries and exits that a machine has reported are about its own states. -/
theorem marks_mem (h : Run (turn Z fun m => (K m).toKernel) G (start _ buf) ts s)
    (m : StateMachine) : ∀ x ∈ (s.part m).marks, x.state ∈ states m :=
  (Program.mem_of_mem_marks (pseStateMachine_plain m) (states_closed m) (initial_mem m)
    (fun _ _ _ => isReserved_pass) (run_part (run_act h) m)).2

theorem startMarks_mem (m : StateMachine) :
    ∀ x ∈ ((K m).calls (K m).start).filterMap callMark, x.state ∈ states m := by
  rw [(K m).calls_start]
  exact fun x hx => (states_closed m).of_mem_startMarks (initial_mem m) hx

/-- The calls that a task makes for one signal, if it takes one. -/
theorem task_calls {m : StateMachine} (ht : t.task = some m)
    (h : Run (turn Z fun m => (K m).toKernel) G (start _ buf) ts s) (hg : G s t)
    (hstep : turn Z (fun m => (K m).toKernel) s t = some s') :
    ∃ made, printed K s' m = printed K s m ++ (pseStateMachine m).messages made ∧
      (s'.part m).marks = (s.part m).marks ++ made.filterMap callMark ∧
      ∀ x ∈ made.filterMap callMark, x.state ∈ states m := by
  have hmem := marks_mem (h.snoc hg hstep) m
  cases t with
  | run m' =>
    cases hstep
    exact ⟨[], (List.append_nil _).symm, (List.append_nil _).symm, nofun⟩
  | act a =>
    cases a with
    | consume m' =>
      cases ht
      have hs : step Z (fun m => (K m).toKernel) s (.consume m) = some s' := hstep
      have hpart := (step_part (m := m) hs).2 .consume (by simp [Action.part])
      have hqueue := Program.queue_unreserved (pseStateMachine_plain m)
        (fun _ _ _ => isReserved_pass) (run_part (run_act h) m)
      obtain ⟨made, hmade, _⟩ := Program.step_calls (pseStateMachine_plain m) hqueue hpart
      have hmarks : (s'.part m).marks = (s.part m).marks ++ made.filterMap callMark := by
        rw [Program.System.marks, hmade, List.filterMap_append]
        rfl
      refine ⟨made, ?_, hmarks, fun x hx => hmem x ?_⟩
      · rw [printed, show (K m).calls (s'.kernel m) = _ from hmade, Machine.messages,
          List.filterMap_append]
        rfl
      · rw [hmarks]
        exact List.mem_append_right _ hx
    | _ => cases ht

/-- Nothing but the task of a machine changes what the machine has reported. -/
theorem marks_other {m : StateMachine} (ht : t.task ≠ some m)
    (h : Run (turn Z fun m => (K m).toKernel) G (start _ buf) ts s)
    (hstep : turn Z (fun m => (K m).toKernel) s t = some s') :
    (s'.part m).marks = (s.part m).marks := by
  cases t with
  | run m' =>
    cases hstep
    rfl
  | act a =>
    have hs : step Z (fun m => (K m).toKernel) s a = some s' := hstep
    obtain ⟨hnone, hsome⟩ := step_part (m := m) hs
    cases hb : a.part m with
    | none => rw [hnone hb]
    | some b =>
      have hmarks := Program.step_marks (pseStateMachine_plain m) (fun _ _ _ => isReserved_pass)
        (run_part (run_act h) m) (hsome b hb)
      cases b with
      | consume =>
        cases a with
        | consume m' =>
          by_cases hm : m' = m
          · exact absurd (congrArg some hm) ht
          · simp [Action.part, hm] at hb
        | expire m' i => by_cases hm : m' = m <;> simp [Action.part, hm] at hb
        | _ => cases hb
      | _ => rw [hmarks]; exact List.append_nil _

/-- What the output says of one machine: nothing before its task has run, and then what the machine
    has reported. -/
structure Tells (m : StateMachine) (s : System fun m => (K m).toKernel) (out : Output) : Prop where
  silent : out.begun m = false →
    out.lines.filterMap ((pseStateMachine m).readLine (states m)) = [] ∧
      (s.part m).marks = ((K m).calls (K m).start).filterMap callMark
  report : out.begun m = true →
    out.lines.filterMap ((pseStateMachine m).readLine (states m)) = (s.part m).marks

/-- The first run of a task is the one that prints the entries of the start. -/
theorem Tells.task {m : StateMachine} {out : Output} (ih : Tells m s out) (ht : t.task = some m)
    (h : Run (turn Z fun m => (K m).toKernel) G (start _ buf) ts s) (hg : G s t)
    (hstep : turn Z (fun m => (K m).toKernel) s t = some s') :
    Tells m s' (record K s t s' out) := by
  obtain ⟨made, hprinted, hmarks, hmem⟩ := task_calls ht h hg hstep
  rw [record_task ht hprinted]
  refine ⟨fun hbegun => ?_, fun _ => ?_⟩
  · dsimp only at hbegun
    rw [Function.update_self] at hbegun
    cases hbegun
  · dsimp only
    rw [List.filterMap_append, List.filterMap_append, read_messages hmem, if_pos rfl, hmarks]
    congr 1
    cases hbegun : out.begun m with
    | true =>
      rw [ih.report hbegun]
      exact List.append_nil _
    | false =>
      obtain ⟨hnil, hstart⟩ := ih.silent hbegun
      rw [hnil, hstart, List.nil_append]
      exact (read_messages (startMarks_mem m)).trans (if_pos rfl)

/-- The other task prints nothing about the machine. -/
theorem Tells.other {m : StateMachine} {out : Output} (ih : Tells m s out) (ht : t.task ≠ some m)
    (h : Run (turn Z fun m => (K m).toKernel) G (start _ buf) ts s) (hg : G s t)
    (hstep : turn Z (fun m => (K m).toKernel) s t = some s') :
    Tells m s' (record K s t s' out) := by
  have hmarks := marks_other ht h hstep
  cases htask : t.task with
  | none =>
    rw [record_none htask]
    exact ⟨fun hb => by rw [hmarks]; exact ih.silent hb,
      fun hb => by rw [hmarks]; exact ih.report hb⟩
  | some m' =>
    have hm : m' ≠ m := fun hm => ht (hm ▸ htask)
    obtain ⟨made, hprinted, _, hmem⟩ := task_calls htask h hg hstep
    have hbegin : (if out.begun m' then [] else startMessages K m').filterMap
        ((pseStateMachine m).readLine (states m)) = [] := by
      split
      · rfl
      · exact (read_messages (startMarks_mem m')).trans (if_neg hm)
    rw [record_task htask hprinted]
    refine ⟨fun hb => ?_, fun hb => ?_⟩
    all_goals
      dsimp only at hb ⊢
      rw [Function.update_of_ne (Ne.symm hm)] at hb
      rw [List.filterMap_append, List.filterMap_append, read_messages hmem, if_neg hm, hbegin,
        List.append_nil, List.append_nil, hmarks]
    · exact ih.silent hb
    · exact ih.report hb

/-- A task has begun when it has run. -/
theorem begun_iff {w : System (fun m => (K m).toKernel) × Output}
    (h : Run (watch (turn Z fun m => (K m).toKernel) (record K)) (fun w t => G w.1 t)
      (start _ buf, Output.empty) ts w) (m : StateMachine) :
    w.2.begun m = true ↔ ∃ t ∈ ts, t.task = some m := by
  induction h with
  | nil => simp [Output.empty]
  | @snoc ts w w' t _ _ hstep ih =>
    obtain ⟨_, hrec⟩ := watch_eq_some.1 hstep
    simp only [List.mem_append, List.mem_singleton, or_and_right, exists_or, exists_eq_left, ← ih]
    rw [hrec]
    cases htask : t.task with
    | none => simp [record_none htask]
    | some m' =>
      rw [record, htask]
      by_cases hm : m' = m
      · subst hm
        simp
      · simp [Function.update_of_ne (Ne.symm hm), hm]

theorem tells {w : System (fun m => (K m).toKernel) × Output}
    (h : Run (watch (turn Z fun m => (K m).toKernel) (record K)) (fun w t => G w.1 t)
      (start _ buf, Output.empty) ts w) (m : StateMachine) : Tells m w.1 w.2 := by
  induction h with
  | nil => exact ⟨fun _ => ⟨rfl, rfl⟩, nofun⟩
  | @snoc ts w w' t hrun hg hstep ih =>
    obtain ⟨hs, hrec⟩ := watch_eq_some.1 hstep
    rw [hrec]
    by_cases ht : t.task = some m
    · exact ih.task ht hrun.of_watch hg hs
    · exact ih.other ht hrun.of_watch hg hs

/-- **The output tells both configurations.**  In every interleaving of the two tasks, nothing is
    printed about a machine before its task has run; from then on, the messages of the machine
    enter only states whose parent is its innermost active state, leave only its innermost active
    state, and end in its configuration. -/
theorem output_tells_configurations {w : System (fun m => (K m).toKernel) × Output}
    (h : Run (watch (turn Z fun m => (K m).toKernel) (record K)) (fun w t => G w.1 t)
      (start _ buf, Output.empty) ts w) (m : StateMachine) :
    ((∀ t ∈ ts, t.task ≠ some m) →
        w.2.lines.filterMap ((pseStateMachine m).readLine (states m)) = []) ∧
      ((∃ t ∈ ts, t.task = some m) →
        (chart m).replay [] (w.2.lines.filterMap ((pseStateMachine m).readLine (states m))) =
          some ((chart m).path (w.1.leaf m))) := by
  have htells := tells h m
  rw [← begun_iff h m]
  refine ⟨fun hnone => ?_, fun hbegun => ?_⟩
  · refine (htells.silent ?_).1
    by_contra hne
    obtain ⟨t, ht, htask⟩ := (begun_iff h m).1 (by simpa using hne)
    exact hnone t ht htask
  · rw [htells.report hbegun]
    exact Program.replay_marks (pseStateMachine_plain m) (fun _ _ _ => isReserved_pass)
      (run_part (run_act h.of_watch) m)

/-- SB's task runs first, SA reacts in its own first run, and then SB's task runs again. -/
def sbFirst : List Turn :=
  [.run .pseSbStateMachine, .act (.recv (.message (bytes "SYS_SIG_TYPE_1"))), .act .tick,
    .act (.consume .pseSaStateMachine), .run .pseSbStateMachine]

/-- The output of such a run, and the configurations read from it. -/
theorem output_tells_configurations_sbFirst : ∃ w,
    Run (watch (turn .reference fun m => (ReportingKernel.reference (pseStateMachine m)).toKernel)
        (record fun m => .reference (pseStateMachine m)))
      (fun _ _ => True) (start _ Buffer.zero, Output.empty) sbFirst w ∧
    w.2.lines = ["SB|E", "SB|S", "SB1|E", "SB1|S", "SB11|E", "SB11|S",
      "SA|E", "SA|S", "SA1|E", "SA1|S", "SA11|E", "SA11|S",
      "SA11|X", "SA1|X", "SA2|E", "SA2|S", "SA22|E", "SA22|S"] ∧
    ∀ m, ((∀ t ∈ sbFirst, t.task ≠ some m) →
        w.2.lines.filterMap ((pseStateMachine m).readLine (states m)) = []) ∧
      ((∃ t ∈ sbFirst, t.task = some m) →
        (chart m).replay [] (w.2.lines.filterMap ((pseStateMachine m).readLine (states m))) =
          some ((chart m).path (w.1.leaf m))) := by
  have hexec : (execute
      (watch (turn .reference fun m => (ReportingKernel.reference (pseStateMachine m)).toKernel)
        (record fun m => .reference (pseStateMachine m)))
      (fun _ _ => True) (start _ Buffer.zero, Output.empty) sbFirst).map (fun w => w.2.lines) =
      some ["SB|E", "SB|S", "SB1|E", "SB1|S", "SB11|E", "SB11|S",
        "SA|E", "SA|S", "SA1|E", "SA1|S", "SA11|E", "SA11|S",
        "SA11|X", "SA1|X", "SA2|E", "SA2|S", "SA22|E", "SA22|S"] := by decide
  obtain ⟨w, hrun, hlines⟩ := Run.of_execute_map hexec
  exact ⟨w, hrun, hlines, output_tells_configurations (G := fun _ _ => True) hrun⟩

end Runs

end QuarkTS.PubSub
