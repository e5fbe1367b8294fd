import Mathlib.Data.List.DropRight
import Mathlib.Data.List.Induction

/-!
# Parts of a history

A history is the list of the events so far, oldest first.  `afterLast p w` is the part after the
last event that satisfies `p` (all of `w` when there is none), `afterFirst p w` the part after the
first one (empty when there is none).  The lemmas say how both parts, and the last event of a
kind, change when one more event happens.  `foldl_switch` is a switch between two positions: the
last event that moves it decides.  `throughout R w` says that every event of the history is in
relation `R` to the events before it.
-/

set_option autoImplicit false

namespace History

variable {α : Type} (p : α → Bool) (w : List α) (e : α)

/-- The part after the last event that satisfies `p`. -/
def afterLast : List α := w.rtakeWhile fun x => !p x

/-- The part after the first event that satisfies `p`. -/
def afterFirst : List α := (w.dropWhile fun x => !p x).tail

/-- The last event that satisfies `p`. -/
def last : Option α := (w.filter p).getLast?

variable {p w e}

theorem afterLast_concat_pos (h : p e = true) : afterLast p (w ++ [e]) = [] :=
  List.rtakeWhile_concat_neg _ _ _ (by simp [h])

theorem afterLast_concat_neg (h : p e = false) : afterLast p (w ++ [e]) = afterLast p w ++ [e] :=
  List.rtakeWhile_concat_pos _ _ _ (by simp [h])

theorem afterFirst_concat_of_exists (h : ∃ x ∈ w, p x = true) :
    afterFirst p (w ++ [e]) = afterFirst p w ++ [e] := by
  have hne : w.dropWhile (fun x => !p x) ≠ [] := by
    obtain ⟨x, hx, hpx⟩ := h
    intro hnil
    have := List.dropWhile_eq_nil_iff.1 hnil x hx
    simp [hpx] at this
  unfold afterFirst
  rw [List.dropWhile_append, if_neg (by simpa using hne), List.tail_append_of_ne_nil hne]

theorem afterFirst_concat_of_forall (h : ∀ x ∈ w, p x = false) :
    afterFirst p (w ++ [e]) = [] := by
  have hnil : w.dropWhile (fun x => !p x) = [] :=
    List.dropWhile_eq_nil_iff.2 fun x hx => by simp [h x hx]
  unfold afterFirst
  rw [List.dropWhile_append, hnil]
  cases hp : p e <;> simp [hp]

theorem last_concat_pos (h : p e = true) : last p (w ++ [e]) = some e := by
  simp [last, List.filter_append, h]

theorem last_concat_neg (h : p e = false) : last p (w ++ [e]) = last p w := by
  simp [last, List.filter_append, h]

/-- An earlier event counts only if no later one of its kind does. -/
theorem last_cons : last p (e :: w) = (last p w).or (if p e = true then some e else none) := by
  unfold last
  by_cases h : p e = true
  · rw [List.filter_cons_of_pos h, List.getLast?_cons, if_pos h]
    cases (w.filter p).getLast? <;> rfl
  · rw [List.filter_cons_of_neg h, if_neg h, Option.or_none]

theorem exists_last (h : ∃ x ∈ w, p x = true) : ∃ x, last p w = some x := by
  rw [← Option.isSome_iff_exists, last, List.getLast?_isSome, ← List.length_pos_iff,
    List.length_filter_pos_iff]
  exact h

theorem mem_of_last {x : α} (h : last p w = some x) : x ∈ w :=
  List.mem_of_mem_filter (List.mem_of_getLast? h)

/-- Leaving out events of other kinds does not change the last one of a kind. -/
theorem last_filter {q : α → Bool} (h : ∀ x, p x = true → q x = true) :
    last p (w.filter q) = last p w := by
  unfold last
  rw [List.filter_filter]
  congr 2
  funext x
  cases hp : p x with
  | false => rfl
  | true => rw [h x hp]; rfl

/-- **A switch**: `on` takes it from `a` to `b`, `off` from `b` to `a`, and nothing else moves it. -/
theorem foldl_switch {σ : Type} [DecidableEq α] {f : σ → α → σ} {a b : σ} {on off : α}
    (hne : off ≠ on) (ha : ∀ e, f a e = if e = on then b else a)
    (hb : ∀ e, f b e = if e = off then a else b) (w : List α) :
    w.foldl f a = if last (fun e => e == on || e == off) w = some on then b else a := by
  induction w using List.reverseRecOn with
  | nil => simp [last]
  | append_singleton w e ih =>
    rw [List.foldl_concat, ih]
    by_cases hon : e = on
    · subst hon
      rw [last_concat_pos (by simp), if_pos rfl]
      split
      · rw [hb, if_neg (Ne.symm hne)]
      · rw [ha, if_pos rfl]
    by_cases hoff : e = off
    · subst hoff
      rw [last_concat_pos (by simp), if_neg (show ¬ some e = some on by simpa using hne)]
      split
      · rw [hb, if_pos rfl]
      · rw [ha, if_neg hon]
    · rw [last_concat_neg (by simp [hon, hoff])]
      split
      · rw [hb, if_neg hoff]
      · rw [ha, if_neg hon]

/-! ## Properties of every moment -/

/-- Every event is related to the events before it. -/
def throughout (R : List α → α → Prop) (w : List α) : Prop :=
  ∀ before e, before ++ [e] <+: w → R before e

theorem throughout_nil (R : List α → α → Prop) : throughout R [] := by
  intro before e h
  have hnil := List.eq_nil_of_prefix_nil h
  simp at hnil

theorem throughout_concat {R : List α → α → Prop} :
    throughout R (w ++ [e]) ↔ throughout R w ∧ R w e := by
  constructor
  · intro h
    exact ⟨fun before x hx => h before x (hx.trans (List.prefix_append _ _)), h w e (List.prefix_refl _)⟩
  · rintro ⟨hw, he⟩ before x hx
    rcases List.prefix_concat_iff.1 hx with heq | hx
    · obtain ⟨rfl, hxe⟩ := List.append_inj' heq rfl
      rw [List.singleton_inj.1 hxe]
      exact he
    · exact hw before x hx

/-- Something that happens at all has happened after `k` events if its place is before `k`. -/
theorem exists_mem_take_iff (h : ∃ x ∈ w, p x = true) (k : Nat) :
    (∃ x ∈ w.take k, p x = true) ↔ w.findIdx p < k := by
  induction w generalizing k with
  | nil => simp at h
  | cons a w ih =>
    cases k with
    | zero => simp
    | succ k =>
      cases ha : p a with
      | true => simp [List.findIdx_cons, ha]
      | false =>
        simp only [List.mem_cons, exists_eq_or_imp, ha, Bool.false_eq_true, false_or] at h
        rw [List.findIdx_cons, ha, cond_false, Nat.add_lt_add_iff_right, ← ih h k]
        simp [ha]

end History
