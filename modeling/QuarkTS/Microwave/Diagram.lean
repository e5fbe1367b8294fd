import QuarkTS.Microwave.Delivery

/-!
# The microwave against its diagram

`docs/microwave.puml` as a statechart on the states of the program.  `follows_diagram` — the running
program goes through the configurations of the diagram, one for each signal that it consumes, in
every interleaving of messages, ticks, expiries and task runs.
-/

set_option autoImplicit false

namespace QuarkTS.Microwave

open Statechart CString Reactor Runs Program

/-! ## microwave.puml -/

/-- The state blocks that a state is drawn in. -/
def diagramParent : State → Option State
  | .doorClosed | .doorOpened => none
  | .off | .heating => some .doorClosed
  | .toasting | .baking => some .heating

/-- The arrows from `[*]`. -/
def diagramInitial : State → Option State
  | .doorClosed => some .off
  | _ => none

/-- The arrows with a signal. -/
def diagramTable : State → List (SigId × State)
  | .doorClosed => [(SYS_SIG_OPEN, .doorOpened)]
  | .off => [(SYS_SIG_TOAST, .toasting), (SYS_SIG_BAKE, .baking)]
  | .heating => [(SYS_SIG_OFFTIMEOUT, .off)]
  | .doorOpened => [(SYS_SIG_CLOSE, .doorClosed)]
  | _ => []

def diagram : Chart State SigId where
  parent := diagramParent
  initial := diagramInitial
  table := diagramTable
  nesting :=
    { depth := depth
      height := 2
      depth_root := by intro s; cases s <;> decide
      depth_parent := by intro s; cases s <;> decide
      depth_le := chart.nesting.depth_le
      initial_parent := by intro s; cases s <;> decide }

/-! ## Machine and diagram -/

/-- The set-up calls draw the same state blocks. -/
theorem diagram_path (s : State) : chart.path s = diagram.path s := by
  cases s <;> rfl

/-- The set-up calls draw the same arrows. -/
theorem diagram_fire (s : State) (e : SigId) : chart.fire s e = diagram.fire s e := by
  cases s <;> rcases e with _ | _ | _ | _ | (_ | _ | i) | (_ | _ | _ | _ | _ | n) <;> rfl

/-! ## Runs -/

variable {Z : Zmq} {K : Kernel microwaveStateMachine} {buf : Buffer 10}
  {as : List (Action)}
  {G : System K → Action → Prop}

/-- The signals consumed, and the configurations that the program has gone through. -/
structure Tour where
  taken : List SigId
  configs : List (List State)
  deriving DecidableEq, Repr

/-- Every consumed signal leads to the next configuration. -/
def visit (s : System K) (a : Action)
    (s' : System K) (T : Tour) : Tour :=
  match a with
  | .consume => ⟨T.taken ++ takenBy s a, T.configs ++ [chart.path s'.leaf]⟩
  | _ => T

/-- The task takes one signal and propagates it, and nothing else moves the machine. -/
theorem leaf_visit {s s' : System K} {a : Action} {T : Tour}
    (h : step Z K s a = some s') :
    (s'.leaf = s.leaf ∧ visit s a s' T = T) ∨
      ∃ e, s'.leaf = chart.fire s.leaf e ∧
        visit s a s' T = ⟨T.taken ++ [e], T.configs ++ [chart.path s'.leaf]⟩ := by
  have hleaf := step_leaf microwaveStateMachine_plain h
  cases a with
  | consume =>
    obtain ⟨e, he⟩ := exists_head_of_consume h
    have htaken : takenBy s (.consume : Action) = [e] := by
      rw [takenBy, he]
      rfl
    rw [htaken] at hleaf
    exact Or.inr ⟨e, hleaf, by rw [visit, htaken]⟩
  | _ => exact Or.inl ⟨hleaf, rfl⟩

/-- **The program follows the diagram**: the configurations that it goes through are those that the
    consumed signals lead through in `microwave.puml`. -/
theorem follows_diagram {w : System K × Tour}
    (h : Run (watch (step Z K) visit) (fun w a => G w.1 a)
      (start K buf, ⟨[], [chart.path (start K buf).leaf]⟩) as w) :
    w.2.configs = diagram.configs (diagram.settle .doorClosed) w.2.taken ∧
      w.2.configs.getLast? = some (chart.path w.1.leaf) := by
  have hstart : (start K buf).leaf = diagram.settle .doorClosed :=
    Program.start_leaf
  have hinv : w.2.configs = diagram.configs (diagram.settle .doorClosed) w.2.taken ∧
      w.1.leaf = diagram.fires (diagram.settle .doorClosed) w.2.taken := by
    refine h.invariant (fun _ w => w.2.configs =
        diagram.configs (diagram.settle .doorClosed) w.2.taken ∧
      w.1.leaf = diagram.fires (diagram.settle .doorClosed) w.2.taken) ?_ ?_
    · refine ⟨?_, hstart⟩
      rw [hstart, diagram_path]
      rfl
    · rintro _ w a w' ⟨hconfigs, hleaf⟩ _ hstep
      obtain ⟨hs, hrec⟩ := watch_eq_some.1 hstep
      rcases leaf_visit (T := w.2) hs with ⟨hsame, hvisit⟩ | ⟨e, hfire, hvisit⟩
      · rw [hrec, hvisit, hsame]
        exact ⟨hconfigs, hleaf⟩
      · have hnext : w'.1.leaf = diagram.fires (diagram.settle .doorClosed) (w.2.taken ++ [e]) := by
          rw [hfire, hleaf, Chart.fires_concat, diagram_fire]
        rw [hrec, hvisit]
        refine ⟨?_, hnext⟩
        rw [Chart.configs_concat, ← hconfigs, ← hnext, ← diagram_path]
  obtain ⟨hconfigs, hleaf⟩ := hinv
  refine ⟨hconfigs, ?_⟩
  rw [hconfigs, hleaf, diagram_path, Chart.configs_getLast?]

/-- The door is opened while the oven toasts. -/
theorem follows_diagram_opened : ∃ w,
    Run (watch (step .reference reference) visit) (fun _ _ => True)
      (start reference Buffer.zero,
        ⟨[], [chart.path (start reference (Buffer.zero : Buffer 10)).leaf]⟩)
      [.recv (.message (bytes "toast")), .consume, .tick, .recv (.message (bytes "open")),
        .consume] w ∧
      w.2.configs = [[.off, .doorClosed], [.toasting, .heating, .doorClosed], [.doorOpened]] ∧
      w.2.configs = diagram.configs (diagram.settle .doorClosed) w.2.taken ∧
      w.2.configs.getLast? = some (chart.path w.1.leaf) := by
  have hexec : (execute (watch (step .reference reference) visit) (fun _ _ => True)
      (start reference Buffer.zero,
        ⟨[], [chart.path (start reference (Buffer.zero : Buffer 10)).leaf]⟩)
      [.recv (.message (bytes "toast")), .consume, .tick, .recv (.message (bytes "open")),
        .consume]).map (fun w => w.2.configs) =
      some [[.off, .doorClosed], [.toasting, .heating, .doorClosed], [.doorOpened]] := by decide
  obtain ⟨w, hrun, hconfigs⟩ := Run.of_execute_map hexec
  exact ⟨w, hrun, hconfigs, follows_diagram (G := fun _ _ => True) hrun⟩

end QuarkTS.Microwave
