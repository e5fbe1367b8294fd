import QuarkTS.PubSub.Init

/-!
# The publish/subscribe example against its diagram

`docs/pub_sub_example.puml` as a statechart on the states of the program; its `SYS_SIG_1` and
`SYS_SIG_2` are `SYS_SIG_TYPE_1` and `SYS_SIG_TYPE_2`.  The diagram enters `SA2` and `SB2` at
`SA21` and `SB21`, the set-up calls enter them at `sa22` and `sb22`.

* `diagram_agrees_except` — this is the only difference in the structure;
* `configs_eq_diagram_iff` — a machine goes through the configurations of its region exactly when
  it is never sent to the second group.
-/

set_option autoImplicit false

namespace QuarkTS.PubSub

open Statechart History

/-! ## pub_sub_example.puml -/

/-- The state blocks that a state is drawn in. -/
def diagramParent : State → Option State
  | .sa | .sb => none
  | .sa1 | .sa2 => some .sa
  | .sb1 | .sb2 => some .sb
  | .sa11 | .sa12 => some .sa1
  | .sa21 | .sa22 => some .sa2
  | .sb11 | .sb12 => some .sb1
  | .sb21 | .sb22 => some .sb2

/-- The arrows from `[*]`. -/
def diagramInitial : State → Option State
  | .sa => some .sa1
  | .sa1 => some .sa11
  | .sa2 => some .sa21
  | .sb => some .sb1
  | .sb1 => some .sb11
  | .sb2 => some .sb21
  | _ => none

/-- The arrows with a signal. -/
def diagramTable : State → List (SigId × State)
  | .sa1 => [(SYS_SIG_TYPE_1, .sa2)]
  | .sa2 => [(SYS_SIG_TYPE_2, .sa1)]
  | .sb1 => [(SYS_SIG_TYPE_1, .sb2)]
  | .sb2 => [(SYS_SIG_TYPE_2, .sb1)]
  | _ => []

def diagram : Chart State SigId where
  parent := diagramParent
  initial := diagramInitial
  table := diagramTable
  nesting :=
    { depth := depth
      height := 2
      depth_root := by decide
      depth_parent := by decide
      depth_le := depth_le
      initial_parent := by decide }

/-- The region of the diagram that a machine stands for. -/
def region : StateMachine → State
  | .pseSaStateMachine => .sa
  | .pseSbStateMachine => .sb

/-- The leaf of the second group that the diagram enters. -/
def diagramSecondLeaf : StateMachine → State
  | .pseSaStateMachine => .sa21
  | .pseSbStateMachine => .sb21

/-- The set-up calls build the diagram, except for the default substates of the second groups. -/
theorem diagram_agrees_except (m : StateMachine) (s : State) :
    (chart m).parent s = diagram.parent s ∧ (chart m).table s = diagram.table s ∧
      (s ≠ .sa2 → s ≠ .sb2 → (chart m).initial s = diagram.initial s) := by
  cases m <;> cases s <;> decide

/-! ## The diagram as a switch -/

theorem diagram_settle (m : StateMachine) : diagram.settle (region m) = firstLeaf m := by
  cases m <;> rfl

theorem diagram_fire_firstLeaf (m : StateMachine) (e : SigId) : diagram.fire (firstLeaf m) e =
    if e = SYS_SIG_TYPE_1 then diagramSecondLeaf m else firstLeaf m := by
  cases m <;> rcases e with _ | _ | _ | _ | i | (_ | _ | _ | n) <;> rfl

theorem diagram_fire_secondLeaf (m : StateMachine) (e : SigId) :
    diagram.fire (diagramSecondLeaf m) e =
      if e = SYS_SIG_TYPE_2 then firstLeaf m else diagramSecondLeaf m := by
  cases m <;> rcases e with _ | _ | _ | _ | i | (_ | _ | _ | n) <;> rfl

theorem diagram_fires_eq (m : StateMachine) (w : List SigId) : diagram.fires (firstLeaf m) w =
    if last isMove w = some SYS_SIG_TYPE_1 then diagramSecondLeaf m else firstLeaf m :=
  foldl_switch (by decide) (diagram_fire_firstLeaf m) (diagram_fire_secondLeaf m) w

/-! ## Machine and region -/

/-- After `w`, machine and region agree exactly when the last move is not to the second group. -/
theorem config_eq_diagram_iff {m : StateMachine} (K : Kernel (pseStateMachine m)) (w : List SigId) :
    K.config (K.feed w) = diagram.path (diagram.fires (diagram.settle (region m)) w) ↔
      last isMove w ≠ some SYS_SIG_TYPE_1 := by
  have hfirst : (chart m).path (firstLeaf m) = diagram.path (firstLeaf m) := by
    cases m <;> decide
  have hsecond : (chart m).path (secondLeaf m) ≠ diagram.path (diagramSecondLeaf m) := by
    cases m <;> decide
  rw [K.feed_config (pseStateMachine_plain m), initial_leaf, fires_eq, diagram_settle,
    diagram_fires_eq]
  by_cases h : last isMove w = some SYS_SIG_TYPE_1
  · rw [if_pos h, if_pos h]
    exact iff_of_false hsecond fun hn => hn h
  · rw [if_neg h, if_neg h]
    exact iff_of_true hfirst h

/-- **A machine refines its region exactly on the sequences without `SYS_SIG_TYPE_1`.** -/
theorem configs_eq_diagram_iff {m : StateMachine} (K : Kernel (pseStateMachine m))
    (w : List SigId) :
    K.configs w = diagram.configs (diagram.settle (region m)) w ↔ SYS_SIG_TYPE_1 ∉ w := by
  rw [Kernel.configs, Chart.configs, List.map_inj_left]
  simp only [List.mem_inits, config_eq_diagram_iff]
  constructor
  · intro h hmem
    obtain ⟨v, u, rfl⟩ := List.append_of_mem hmem
    have hpre : v ++ [SYS_SIG_TYPE_1] <+: v ++ SYS_SIG_TYPE_1 :: u := ⟨u, by simp⟩
    exact h _ hpre (last_concat_pos (by decide))
  · intro hmem v hv hlast
    exact hmem (hv.subset (mem_of_last hlast))

/-- After one `SYS_SIG_TYPE_1` SA is in `sa22` and its region in `SA21`. -/
theorem not_configs_eq_diagram :
    ¬ ∀ m w, (Kernel.reference (pseStateMachine m)).configs w =
      diagram.configs (diagram.settle (region m)) w := by
  intro h
  have hsa := h .pseSaStateMachine [SYS_SIG_TYPE_1]
  revert hsa
  decide

end QuarkTS.PubSub
