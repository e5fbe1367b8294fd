import QuarkTS.Lib.Statechart

/-!
# Traces of entries and exits

A statechart that runs can report every state that it enters and leaves.  `replay` reads such a
report against the chart, with the active states as a stack: a state may only be entered below its
active parent, and only the innermost active state may be left.

* `path_split` — two states have the same ancestors from some point on, and none before;
* `replay_transition`, `replay_report` — the report of a transition, and of events, is legal and
  leads to the new configuration;
* `replay_start` — so is and does the report of the start;
* `Closed.of_mem_report` — a report stays in the part of the chart that it starts in.
-/

set_option autoImplicit false

namespace Statechart

namespace Chart

variable {S E : Type} (C : Chart S E)

/-! ## Paths -/

/-- Induction along the parents, from the root downwards. -/
theorem path_induction {P : S → Prop} (hroot : ∀ s, C.parent s = none → P s)
    (hchild : ∀ s p, C.parent s = some p → P p → P s) (s : S) : P s := by
  suffices ∀ n s, C.nesting.depth s = n → P s from this _ s rfl
  intro n
  induction n with
  | zero =>
    intro s hn
    cases h : C.parent s with
    | none => exact hroot s h
    | some p =>
      have hd := C.nesting.depth_parent s p h
      omega
  | succ n ih =>
    intro s hn
    cases h : C.parent s with
    | none => exact hroot s h
    | some p =>
      have hd := C.nesting.depth_parent s p h
      exact hchild s p h (ih p (by omega))

theorem depth_le_of_mem_path {s u : S} (h : u ∈ C.path s) :
    C.nesting.depth u ≤ C.nesting.depth s := by
  induction s using C.path_induction with
  | hroot s hp =>
    rw [C.path_root hp, List.mem_singleton] at h
    rw [h]
  | hchild s p hp ih =>
    rw [C.path_child hp, List.mem_cons] at h
    have hd := C.nesting.depth_parent s p hp
    rcases h with rfl | h
    · exact Nat.le_refl _
    · have := ih h
      omega

theorem path_nodup (s : S) : (C.path s).Nodup := by
  induction s using C.path_induction with
  | hroot s hp => rw [C.path_root hp]; exact List.pairwise_singleton _ s
  | hchild s p hp ih =>
    rw [C.path_child hp]
    refine List.nodup_cons.2 ⟨fun hm => ?_, ih⟩
    have hle := C.depth_le_of_mem_path hm
    have hd := C.nesting.depth_parent s p hp
    omega

theorem path_head (s : S) : (C.path s).head? = some s := by
  cases h : C.parent s with
  | none => rw [C.path_root h]; rfl
  | some p => rw [C.path_child h]; rfl

/-- The ancestors of an ancestor are the last ones. -/
theorem path_suffix {s u : S} (h : u ∈ C.path s) : C.path u <:+ C.path s := by
  induction s using C.path_induction with
  | hroot s hp =>
    rw [C.path_root hp, List.mem_singleton] at h
    rw [h]
  | hchild s p hp ih =>
    have hpath := C.path_child hp
    rw [hpath, List.mem_cons] at h
    rcases h with rfl | h
    · exact List.suffix_refl _
    · rw [hpath]
      exact (ih h).trans (List.suffix_cons _ _)

/-! ## Parts of a chart -/

/-- Neither nesting nor transitions lead out of the states in `R`. -/
structure Closed (R : S → Prop) : Prop where
  parent : ∀ s, ∀ p ∈ C.parent s, R s → R p
  initial : ∀ s, ∀ c ∈ C.initial s, R s → R c
  table : ∀ s, ∀ t ∈ C.table s, R s → R t.2

namespace Closed

variable {C} {R : S → Prop}

theorem of_mem_path (hR : C.Closed R) {s u : S} (hs : R s) (hu : u ∈ C.path s) : R u := by
  induction s using C.path_induction with
  | hroot s hp =>
    rw [C.path_root hp, List.mem_singleton] at hu
    exact hu ▸ hs
  | hchild s p hp ih =>
    rw [C.path_child hp, List.mem_cons] at hu
    rcases hu with rfl | hu
    · exact hs
    · exact ih (hR.parent s p hp hs) hu

theorem of_mem_substates (hR : C.Closed R) {s u : S} (hs : R s) (hu : u ∈ C.substates s) :
    R u := by
  induction s using C.settle_induction with
  | hleaf s h => simp [C.substates_leaf h] at hu
  | hchild s c h ih =>
    have hc := hR.initial s c h hs
    rw [C.substates_child h, List.mem_cons] at hu
    rcases hu with rfl | hu
    · exact hc
    · exact ih hc hu

theorem settle (hR : C.Closed R) {s : S} (hs : R s) : R (C.settle s) := by
  induction s using C.settle_induction with
  | hleaf s h => rwa [C.settle_leaf h]
  | hchild s c h ih => rw [C.settle_child h]; exact ih (hR.initial s c h hs)

variable [DecidableEq E]

theorem lookup (hR : C.Closed R) {leaf target : S} {e : E} (hs : R leaf)
    (h : C.lookup leaf e = some target) : R target := by
  obtain ⟨s, hmem, hentry⟩ := List.exists_of_findSome?_eq_some h
  obtain ⟨t, ht, rfl⟩ := Option.map_eq_some_iff.1 hentry
  exact hR.table s t (List.mem_of_find?_eq_some ht) (hR.of_mem_path hs hmem)

theorem fire (hR : C.Closed R) {leaf : S} (hs : R leaf) (e : E) : R (C.fire leaf e) := by
  cases h : C.lookup leaf e with
  | none => rwa [C.fire_of_lookup_none h]
  | some target => rw [C.fire_of_lookup h]; exact hR.settle (hR.lookup hs h)

theorem fires (hR : C.Closed R) {leaf : S} (hs : R leaf) (w : List E) : R (C.fires leaf w) :=
  C.fires_mem (P := R) (fun _ e h => hR.fire h e) hs w

end Closed

/-! ## Transitions -/

section Split

variable [DecidableEq S]

/-- The states of one path that are not on another. -/
def only (s t : S) : List S := (C.path s).filter fun u => u ∉ C.path t

theorem exited_eq_only (leaf target : S) : C.exited leaf target = C.only leaf target := rfl

theorem entered_eq_only (leaf target : S) :
    C.entered leaf target = (C.only target leaf).reverse ++ C.substates target := rfl

/-- A state that is active at `t` shares its whole path. -/
theorem path_eq_only_append {s t : S} (h : s ∈ C.path t) :
    C.only s t = [] ∧ C.path t = C.only t s ++ C.path s := by
  obtain ⟨l, hl⟩ := C.path_suffix h
  constructor
  · rw [only, List.filter_eq_nil_iff]
    intro u hu
    have hmem : u ∈ C.path t := by
      rw [← hl]
      exact List.mem_append_right _ hu
    simpa using hmem
  · have hdisjoint : ∀ u ∈ l, u ∉ C.path s := by
      have hnodup := C.path_nodup t
      rw [← hl, List.nodup_append] at hnodup
      intro u hu hu'
      exact hnodup.2.2 u hu u hu' rfl
    have honly : C.only t s = l := by
      rw [only, ← hl, List.filter_append, List.filter_eq_self.2 (by simpa using hdisjoint),
        List.filter_eq_nil_iff.2 (by simp), List.append_nil]
    rw [honly, hl]

/-- **Two states have the same ancestors from some point on**, and none before. -/
theorem path_split (s t : S) :
    ∃ c, C.path s = C.only s t ++ c ∧ C.path t = C.only t s ++ c := by
  induction s using C.path_induction with
  | hroot s hp =>
    by_cases hm : s ∈ C.path t
    · obtain ⟨hnil, hpath⟩ := C.path_eq_only_append hm
      exact ⟨C.path s, by rw [hnil, List.nil_append], hpath⟩
    · have hs := C.path_root hp
      refine ⟨[], ?_, ?_⟩
      · rw [only, hs]
        simp [hm]
      · rw [only, hs, List.append_nil, eq_comm, List.filter_eq_self]
        intro u hu
        simp only [List.mem_singleton, decide_eq_true_eq]
        rintro rfl
        exact hm hu
  | hchild s p hp ih =>
    by_cases hm : s ∈ C.path t
    · obtain ⟨hnil, hpath⟩ := C.path_eq_only_append hm
      exact ⟨C.path s, by rw [hnil, List.nil_append], hpath⟩
    · -- `s` is not shared, so the shared part is that of its parent
      obtain ⟨c, hpc, htc⟩ := ih
      have hs := C.path_child hp
      have honly : C.only s t = s :: C.only p t := by
        rw [only, hs, List.filter_cons_of_pos (by simpa using hm), only]
      have hsame : C.only t s = C.only t p := by
        rw [only, only, hs]
        refine List.filter_congr fun u hu => ?_
        have hne : u ≠ s := by
          rintro rfl
          exact hm hu
        simp [hne]
      exact ⟨c, by rw [honly, hs, hpc, List.cons_append], by rw [hsame, htc]⟩

end Split

/-! ## Reports -/

/-- A state is entered or left. -/
inductive Mark (S : Type) where
  | entered (s : S)
  | left (s : S)
  deriving DecidableEq, Repr

section Replay

variable [DecidableEq S]

/-- Read one mark, with the active states as a stack, innermost first. -/
def readMark (active : List S) : Mark S → Option (List S)
  | .entered s => if C.parent s = active.head? then some (s :: active) else none
  | .left s => if active.head? = some s then some active.tail else none

/-- Read a report. -/
def replay (active : List S) (marks : List (Mark S)) : Option (List S) :=
  marks.foldlM C.readMark active

theorem replay_append (active : List S) (ms ns : List (Mark S)) :
    C.replay active (ms ++ ns) = (C.replay active ms).bind fun u => C.replay u ns :=
  List.foldlM_append

/-- Leaving the innermost states, one after the other. -/
theorem replay_left (xs c : List S) : C.replay (xs ++ c) (xs.map .left) = some c := by
  induction xs with
  | nil => rfl
  | cons x xs ih =>
    have hone : C.readMark (x :: xs ++ c) (.left x) = some (xs ++ c) := by
      simp [readMark]
    rw [replay, List.map_cons, List.foldlM_cons, hone]
    exact ih

/-- Entering the states down to `s`, from a shared part of its path on. -/
theorem replay_entered {s : S} {ys c : List S} (h : C.path s = ys ++ c) :
    C.replay c (ys.reverse.map .entered) = some (C.path s) := by
  induction s using C.path_induction generalizing ys with
  | hroot s hp =>
    cases ys with
    | nil => rw [h]; rfl
    | cons y ys =>
      rw [C.path_root hp, List.cons_append, List.cons.injEq, List.nil_eq_append_iff] at h
      obtain ⟨rfl, rfl, rfl⟩ := h
      rw [C.path_root hp]
      simp [replay, readMark, hp]
  | hchild s p hp ih =>
    cases ys with
    | nil => rw [h]; rfl
    | cons y ys =>
      rw [C.path_child hp, List.cons_append, List.cons.injEq] at h
      obtain ⟨rfl, h⟩ := h
      have hone : C.readMark (C.path p) (.entered s) = some (s :: C.path p) := by
        rw [readMark, C.path_head, if_pos hp]
      rw [List.reverse_cons, List.map_append, replay_append, ih h, Option.bind_some,
        C.path_child hp]
      simp [replay, hone]

/-- The report of a transition: the states left, innermost first, then the states entered. -/
def transitionMarks (leaf target : S) : List (Mark S) :=
  (C.exited leaf target).map .left ++ (C.entered leaf target).map .entered

/-- **The report of a transition is legal** and leads to the new configuration. -/
theorem replay_transition (leaf target : S) :
    C.replay (C.path leaf) (C.transitionMarks leaf target) =
      some (C.path (C.settle target)) := by
  obtain ⟨c, hleaf, htarget⟩ := C.path_split leaf target
  have hnew : C.path (C.settle target) =
      ((C.substates target).reverse ++ C.only target leaf) ++ c := by
    rw [C.path_settle, htarget, List.append_assoc]
  have hentered : C.entered leaf target =
      ((C.substates target).reverse ++ C.only target leaf).reverse := by
    rw [entered_eq_only]
    simp
  rw [transitionMarks, replay_append, exited_eq_only, hleaf]
  rw [replay_left, Option.bind_some, hentered, C.replay_entered hnew]

section Fire

variable [DecidableEq E]

/-- The report of one event. -/
def marks (leaf : S) (e : E) : List (Mark S) :=
  match C.lookup leaf e with
  | none => []
  | some target => C.transitionMarks leaf target

theorem replay_marks (leaf : S) (e : E) :
    C.replay (C.path leaf) (C.marks leaf e) = some (C.path (C.fire leaf e)) := by
  unfold marks
  cases h : C.lookup leaf e with
  | none => rw [C.fire_of_lookup_none h]; rfl
  | some target => rw [C.fire_of_lookup h]; exact C.replay_transition leaf target

/-- The report of events, one after the other. -/
def report (leaf : S) : List E → List (Mark S)
  | [] => []
  | e :: w => C.marks leaf e ++ report (C.fire leaf e) w

theorem report_singleton (leaf : S) (e : E) : C.report leaf [e] = C.marks leaf e :=
  List.append_nil _

/-- **The report of events is legal** and leads to the configuration that they lead to. -/
theorem replay_report (leaf : S) (w : List E) :
    C.replay (C.path leaf) (C.report leaf w) = some (C.path (C.fires leaf w)) := by
  induction w generalizing leaf with
  | nil => rfl
  | cons e w ih =>
    rw [report, replay_append, replay_marks, Option.bind_some, ih]
    rfl

end Fire

/-- The report of the start: the initial state is entered from the root, then its substates. -/
def startMarks (initial : S) : List (Mark S) :=
  ((C.path initial).reverse ++ C.substates initial).map .entered

theorem replay_start (initial : S) :
    C.replay [] (C.startMarks initial) = some (C.path (C.settle initial)) := by
  have hpath : C.path (C.settle initial) =
      ((C.substates initial).reverse ++ C.path initial) ++ [] := by
    rw [C.path_settle, List.append_nil]
  have hlist : (C.path initial).reverse ++ C.substates initial =
      ((C.substates initial).reverse ++ C.path initial).reverse := by simp
  rw [startMarks, hlist, C.replay_entered hpath]

end Replay

/-- The state that is entered or left. -/
def Mark.state : Mark S → S
  | .entered s => s
  | .left s => s

namespace Closed

variable {C} {R : S → Prop}

theorem of_mem_startMarks (hR : C.Closed R) {initial : S} (hs : R initial) {x : Mark S}
    (hx : x ∈ C.startMarks initial) : R x.state := by
  simp only [startMarks, List.mem_map, List.mem_append, List.mem_reverse] at hx
  obtain ⟨u, hu, rfl⟩ := hx
  rcases hu with hu | hu
  · exact hR.of_mem_path hs hu
  · exact hR.of_mem_substates hs hu

variable [DecidableEq S] [DecidableEq E]

/-- The states left are ancestors of the leaf, the states entered are ancestors or substates of
    the target. -/
theorem of_mem_marks (hR : C.Closed R) {leaf : S} {e : E} (hs : R leaf) {x : Mark S}
    (hx : x ∈ C.marks leaf e) : R x.state := by
  unfold marks at hx
  cases h : C.lookup leaf e with
  | none => simp [h] at hx
  | some target =>
    have ht := hR.lookup hs h
    simp only [h, transitionMarks, List.mem_append, List.mem_map] at hx
    rcases hx with ⟨u, hu, rfl⟩ | ⟨u, hu, rfl⟩
    · exact hR.of_mem_path hs (C.mem_exited.1 hu).1
    · rcases C.mem_entered.1 hu with ⟨hu, _⟩ | hu
      · exact hR.of_mem_path ht hu
      · exact hR.of_mem_substates ht hu

theorem of_mem_report (hR : C.Closed R) {leaf : S} {w : List E} (hs : R leaf) {x : Mark S}
    (hx : x ∈ C.report leaf w) : R x.state := by
  induction w generalizing leaf with
  | nil => cases hx
  | cons e w ih =>
    rcases List.mem_append.1 hx with hx | hx
    · exact hR.of_mem_marks hs hx
    · exact ih (hR.fire hs e) hx

end Closed

end Chart

end Statechart
