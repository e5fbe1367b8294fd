import QuarkTS.Lib.History
import QuarkTS.Lib.Statechart

/-!
# Statecharts with history

A transition may ask for the history of its target: instead of the default substates it then
enters the leaf that was active immediately before the most recent exit of the target (`deep`), or
the child of the target that was active then, with its default substates (`shallow`).  A target
that has never been left is entered as usual.

An `Engine` keeps a memory for this, of which only the entries of inactive states are
fixed.  The results replace the memory by the past:

* `recalled_eq_last` — what is recalled of an inactive state is the last leaf inside it;
* `leafAfter_concat` — the next leaf is a function of the leaves so far;
* `leafAfter_initial` — the engine always rests in a state with no default substate;
* `resumes` — a state that was left and is entered again by its history is found as it was left.
-/

set_option autoImplicit false

namespace Statechart

open History

inductive HistoryMode where
  | none
  | shallow
  | deep
  deriving DecidableEq, Repr

/-- A well-nested statechart whose transitions have a history mode. -/
structure HistoryChart (S E : Type) where
  parent : S → Option S
  initial : S → Option S
  table : S → List (E × S × HistoryMode)
  nesting : Nesting parent initial

namespace HistoryChart

variable {S E : Type} (C : HistoryChart S E)

/-- The chart without the modes. -/
def chart : Chart S E where
  parent := C.parent
  initial := C.initial
  table s := (C.table s).map fun t => (t.1, t.2.1)
  nesting := C.nesting

section Find

variable [DecidableEq E]

/-- The target and the mode of the first matching entry, from the leaf to the root. -/
def find (leaf : S) (e : E) : Option (S × HistoryMode) :=
  (C.chart.path leaf).findSome? fun s => ((C.table s).find? fun t => t.1 = e).map (·.2)

/-- A target that is entered by its history is not active. -/
def Remote : Prop := ∀ leaf e t mode, C.find leaf e = some (t, mode) → mode ≠ .none →
  t ∉ C.chart.path leaf

theorem mem_table_of_find {leaf t : S} {e : E} {mode : HistoryMode}
    (h : C.find leaf e = some (t, mode)) :
    ∃ s ∈ C.chart.path leaf, (e, t, mode) ∈ C.table s := by
  obtain ⟨s, hs, hfind⟩ := List.exists_of_findSome?_eq_some h
  obtain ⟨⟨e', tm⟩, hentry, htm⟩ := Option.map_eq_some_iff.1 hfind
  have he : e' = e := by simpa using List.find?_some hentry
  cases htm
  subst he
  exact ⟨s, hs, List.mem_of_find?_eq_some hentry⟩

/-- It is enough to look at the tables. -/
theorem remote_of_table (h : ∀ leaf, ∀ s ∈ C.chart.path leaf, ∀ t ∈ C.table s,
    t.2.2 ≠ .none → t.2.1 ∉ C.chart.path leaf) : C.Remote := by
  intro leaf e t mode hfind hmode
  obtain ⟨s, hs, hmem⟩ := C.mem_table_of_find hfind
  exact h leaf s hs _ hmem hmode

end Find

variable [DecidableEq S]

/-- The child of `s` that is active at a leaf. -/
def childOf (s leaf : S) : Option S := (C.chart.path leaf).find? fun u => C.parent u = some s

/-- The leaf that is entered for a target, when `past` was the leaf before its last exit. -/
def resume (past : Option S) (target : S) : HistoryMode → S
  | .none => C.chart.settle target
  | .deep => past.getD (C.chart.settle target)
  | .shallow => C.chart.settle ((past.bind (C.childOf target)).getD target)

/-- The last leaf inside a state. -/
def lastInside (ls : List S) (s : S) : Option S := last (fun l => s ∈ C.chart.path l) ls

variable [DecidableEq E]

/-- The leaf after one event, when `past` has the recalled leaves. -/
def next (past : S → Option S) (leaf : S) (e : E) : S :=
  match C.find leaf e with
  | none => leaf
  | some (t, mode) => C.resume (past t) t mode

theorem next_of_none {past : S → Option S} {leaf : S} {e : E} (h : C.find leaf e = none) :
    C.next past leaf e = leaf := by
  rw [next, h]

theorem next_of_some {past : S → Option S} {leaf t : S} {e : E} {mode : HistoryMode}
    (h : C.find leaf e = some (t, mode)) :
    C.next past leaf e = C.resume (past t) t mode := by
  rw [next, h]

/-- Only what is recalled of the target of the event counts. -/
theorem next_congr {past past' : S → Option S} {leaf : S} {e : E}
    (h : ∀ t mode, C.find leaf e = some (t, mode) → mode ≠ .none → past t = past' t) :
    C.next past leaf e = C.next past' leaf e := by
  cases hfind : C.find leaf e with
  | none => rw [C.next_of_none hfind, C.next_of_none hfind]
  | some tm =>
    obtain ⟨t, mode⟩ := tm
    rw [C.next_of_some hfind, C.next_of_some hfind]
    by_cases hmode : mode = .none
    · subst hmode; rfl
    · rw [h t mode hfind hmode]

/-- What is documented of an engine: the leaf, and the recalled leaves of inactive states. -/
structure Engine (C : HistoryChart S E) (init : S) where
  State : Type
  start : State
  fire : State → E → State
  leaf : State → S
  recalled : State → S → Option S
  leaf_start : leaf start = C.chart.settle init
  recalled_start : ∀ s, s ∉ C.chart.path (leaf start) → recalled start s = none
  leaf_none : ∀ k e, C.find (leaf k) e = none → leaf (fire k e) = leaf k
  leaf_some : ∀ k e t mode, C.find (leaf k) e = some (t, mode) →
    leaf (fire k e) = C.resume (recalled k t) t mode
  recalled_fire : ∀ k e s, s ∉ C.chart.path (leaf (fire k e)) →
    recalled (fire k e) s = if s ∈ C.chart.path (leaf k) then some (leaf k) else recalled k s

namespace Engine

/-- The documented behaviour can be implemented. -/
def reference (C : HistoryChart S E) (init : S) : Engine C init where
  State := S × (S → Option S)
  start := (C.chart.settle init, fun _ => none)
  fire k e :=
    (match C.find k.1 e with
      | none => k.1
      | some (t, mode) => C.resume (k.2 t) t mode,
     fun s => if s ∈ C.chart.path k.1 then some k.1 else k.2 s)
  leaf := Prod.fst
  recalled := Prod.snd
  leaf_start := rfl
  recalled_start _ _ := rfl
  leaf_none k e h := by simp [h]
  leaf_some k e t mode h := by simp [h]
  recalled_fire _ _ _ _ := rfl

variable {C} {init : S} (M : Engine C init)

/-- The engine after a sequence of events. -/
def after (w : List E) : M.State := w.foldl M.fire M.start

theorem after_concat (w : List E) (e : E) : M.after (w ++ [e]) = M.fire (M.after w) e :=
  List.foldl_concat ..

/-- The leaf after a sequence of events. -/
def leafAfter (w : List E) : S := M.leaf (M.after w)

/-- The leaves so far, the present one included. -/
def leaves (w : List E) : List S := w.inits.map M.leafAfter

theorem leaves_nil : M.leaves [] = [C.chart.settle init] := by
  rw [← M.leaf_start]
  rfl

theorem leaves_concat (w : List E) (e : E) :
    M.leaves (w ++ [e]) = M.leaves w ++ [M.leafAfter (w ++ [e])] := by
  rw [leaves, List.inits_append, List.map_append]
  simp [leaves]

theorem exists_leaves (w : List E) : ∃ ls, M.leaves w = ls ++ [M.leafAfter w] := by
  cases w using List.reverseRecOn with
  | nil => exact ⟨[], rfl⟩
  | append_singleton w e => exact ⟨_, M.leaves_concat w e⟩

/-- While a state is active, the present leaf is the last one inside it. -/
theorem lastInside_active {w : List E} {s : S} (hs : s ∈ C.chart.path (M.leafAfter w)) :
    C.lastInside (M.leaves w) s = some (M.leafAfter w) := by
  obtain ⟨ls, hls⟩ := M.exists_leaves w
  rw [hls]
  exact last_concat_pos (by simpa using hs)

/-- An event after which a state is inactive does not change the last leaf inside it. -/
theorem lastInside_concat {w : List E} {e : E} {s : S}
    (hs : s ∉ C.chart.path (M.leafAfter (w ++ [e]))) :
    C.lastInside (M.leaves (w ++ [e])) s = C.lastInside (M.leaves w) s := by
  rw [leaves_concat]
  exact last_concat_neg (by simpa using hs)

/-- **What is recalled of an inactive state** is the last leaf inside it. -/
theorem recalled_eq_last (w : List E) {s : S} (hs : s ∉ C.chart.path (M.leafAfter w)) :
    M.recalled (M.after w) s = C.lastInside (M.leaves w) s := by
  induction w using List.reverseRecOn with
  | nil =>
    have hnil : C.lastInside (M.leaves []) s = none :=
      last_concat_neg (w := []) (show decide (s ∈ C.chart.path (M.leafAfter [])) = false by
        simpa using hs)
    rw [hnil]
    exact M.recalled_start s hs
  | append_singleton w e ih =>
    have hfire : M.recalled (M.after (w ++ [e])) s =
        if s ∈ C.chart.path (M.leafAfter w) then some (M.leafAfter w)
        else M.recalled (M.after w) s := by
      rw [leafAfter, after_concat] at hs
      rw [after_concat]
      exact M.recalled_fire _ _ _ hs
    rw [hfire, M.lastInside_concat hs]
    by_cases hold : s ∈ C.chart.path (M.leafAfter w)
    · rw [if_pos hold, M.lastInside_active hold]
    · rw [if_neg hold, ih hold]

/-- **The next leaf is a function of the leaves so far.** -/
theorem leafAfter_concat (hC : C.Remote) (w : List E) (e : E) :
    M.leafAfter (w ++ [e]) = C.next (C.lastInside (M.leaves w)) (M.leafAfter w) e := by
  have hfire : M.leafAfter (w ++ [e]) = C.next (M.recalled (M.after w)) (M.leafAfter w) e := by
    rw [leafAfter, after_concat]
    cases h : C.find (M.leafAfter w) e with
    | none => rw [C.next_of_none h]; exact M.leaf_none _ _ h
    | some tm => rw [C.next_of_some h]; exact M.leaf_some _ _ _ _ h
  rw [hfire]
  exact C.next_congr fun t mode h hmode => M.recalled_eq_last w (hC _ _ _ _ h hmode)

/-- A leaf is never left for a state with default substates. -/
theorem leafAfter_initial (hC : C.Remote) (w : List E) : C.initial (M.leafAfter w) = none := by
  suffices ∀ l ∈ M.leaves w, C.initial l = none by
    obtain ⟨ls, hls⟩ := M.exists_leaves w
    exact this _ (by rw [hls]; simp)
  induction w using List.reverseRecOn with
  | nil =>
    intro l hl
    rw [leaves_nil, List.mem_singleton] at hl
    rw [hl]
    exact C.chart.settle_initial init
  | append_singleton w e ih =>
    intro l hl
    rw [leaves_concat, List.mem_append, List.mem_singleton] at hl
    rcases hl with hl | rfl
    · exact ih l hl
    · rw [M.leafAfter_concat hC]
      cases hfind : C.find (M.leafAfter w) e with
      | none =>
        obtain ⟨ls, hls⟩ := M.exists_leaves w
        rw [C.next_of_none hfind]
        exact ih _ (by rw [hls]; simp)
      | some tm =>
        obtain ⟨t, mode⟩ := tm
        rw [C.next_of_some hfind]
        cases mode with
        | none => exact C.chart.settle_initial t
        | shallow => exact C.chart.settle_initial _
        | deep =>
          cases h : C.lastInside (M.leaves w) t with
          | none => exact C.chart.settle_initial t
          | some l => exact ih l (mem_of_last h)

/-- As long as a state stays inactive, the last leaf inside it is the one it was left from. -/
theorem lastInside_of_left {v x : List E} {t : S} (hin : t ∈ C.chart.path (M.leafAfter v))
    (hout : ∀ u, u <+: x → u ≠ [] → t ∉ C.chart.path (M.leafAfter (v ++ u))) :
    C.lastInside (M.leaves (v ++ x)) t = some (M.leafAfter v) := by
  induction x using List.reverseRecOn with
  | nil => rw [List.append_nil, M.lastInside_active hin]
  | append_singleton x e ih =>
    have hlast := hout (x ++ [e]) (List.prefix_refl _) (by simp)
    rw [← List.append_assoc] at hlast ⊢
    rw [M.lastInside_concat hlast]
    exact ih fun u hu hne => hout u (hu.trans (List.prefix_append _ _)) hne

/-- **A state that is entered by its history is found as it was left**: with the leaf that was
    active before (`deep`), or with the child that was active before (`shallow`). -/
theorem resumes (hC : C.Remote) {v x : List E} {e : E} {t : S} {mode : HistoryMode}
    (hin : t ∈ C.chart.path (M.leafAfter v))
    (hout : ∀ u, u <+: x → u ≠ [] → t ∉ C.chart.path (M.leafAfter (v ++ u)))
    (hfind : C.find (M.leafAfter (v ++ x)) e = some (t, mode)) :
    M.leafAfter (v ++ x ++ [e]) = C.resume (some (M.leafAfter v)) t mode := by
  rw [M.leafAfter_concat hC, C.next_of_some hfind, M.lastInside_of_left hin hout]

end Engine

end HistoryChart

end Statechart
