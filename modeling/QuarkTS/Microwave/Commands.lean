import QuarkTS.Lib.History
import QuarkTS.Microwave.Init

/-!
# The microwave as its command history determines it

`reading w` says in terms of the whole history `w` of consumed signals which leaf is active: the
door counts first, then the first heating command since the door was closed and since the last
timeout.  `reading_concat` shows that it changes with each signal as the machine does, and
`leaf_of_history` that every implementation of the engine follows it.
-/

set_option autoImplicit false

namespace QuarkTS.Microwave

open Statechart History

/-! ## The reading of a history -/

/-- `SYS_SIG_OPEN` or `SYS_SIG_CLOSE`. -/
def isDoor (e : SigId) : Bool := e == SYS_SIG_OPEN || e == SYS_SIG_CLOSE

/-- `SYS_SIG_TOAST` or `SYS_SIG_BAKE`. -/
def isHeat (e : SigId) : Bool := e == SYS_SIG_TOAST || e == SYS_SIG_BAKE

/-- The part after the first `CLOSE` that follows the last `OPEN`; all of `w` without an `OPEN`. -/
def afterClosing (w : List SigId) : List SigId :=
  if SYS_SIG_OPEN ∈ w then afterFirst (· == SYS_SIG_CLOSE) (afterLast (· == SYS_SIG_OPEN) w)
  else w

/-- The part after the last `OFFTIMEOUT`; all of `w` without one. -/
def afterTimeout (w : List SigId) : List SigId := afterLast (· == SYS_SIG_OFFTIMEOUT) w

/-- The part after the later of the two: both are final parts of `w`, so it is the shorter one. -/
def sinceReset (w : List SigId) : List SigId :=
  if (afterClosing w).length ≤ (afterTimeout w).length then afterClosing w else afterTimeout w

/-- The leaf that the first heating command of `u` leads to from `off`. -/
def heated (u : List SigId) : State :=
  match u.find? isHeat with
  | some SYS_SIG_TOAST => .toasting
  | some SYS_SIG_BAKE => .baking
  | _ => .off

/-- The leaf that the history `w` determines. -/
def reading (w : List SigId) : State :=
  if last isDoor w = some SYS_SIG_OPEN then .doorOpened else heated (sinceReset w)

/-! ## How the reading changes -/

/-- The door is open when no `CLOSE` follows the last `OPEN`. -/
theorem last_eq_open_iff (w : List SigId) : last isDoor w = some SYS_SIG_OPEN ↔
    SYS_SIG_OPEN ∈ w ∧ ∀ x ∈ afterLast (· == SYS_SIG_OPEN) w, (x == SYS_SIG_CLOSE) = false := by
  induction w using List.reverseRecOn with
  | nil => simp [last]
  | append_singleton w e ih =>
    by_cases ho : e = SYS_SIG_OPEN
    · subst ho
      rw [last_concat_pos (by decide), afterLast_concat_pos (by decide)]
      simp
    · rw [afterLast_concat_neg (by simpa using ho)]
      by_cases hc : e = SYS_SIG_CLOSE
      · subst hc
        rw [last_concat_pos (by decide)]
        simp
      · rw [last_concat_neg (by simp [isDoor, ho, hc]), ih]
        simp only [List.mem_append, List.mem_singleton, or_imp, forall_and, forall_eq]
        simp [Ne.symm ho, hc]

theorem afterClosing_concat {w : List SigId} {e : SigId}
    (hw : last isDoor w ≠ some SYS_SIG_OPEN) (ho : e ≠ SYS_SIG_OPEN) :
    afterClosing (w ++ [e]) = afterClosing w ++ [e] := by
  unfold afterClosing
  by_cases hm : SYS_SIG_OPEN ∈ w
  · have hclosed : ∃ x ∈ afterLast (· == SYS_SIG_OPEN) w, (x == SYS_SIG_CLOSE) = true := by
      rw [ne_eq, last_eq_open_iff] at hw
      by_contra hnone
      exact hw ⟨hm, fun x hx => by
        cases h : x == SYS_SIG_CLOSE with
        | false => rfl
        | true => exact absurd ⟨x, hx, h⟩ hnone⟩
    rw [if_pos hm, if_pos (List.mem_append_left _ hm), afterLast_concat_neg (by simpa using ho),
      afterFirst_concat_of_exists hclosed]
  · rw [if_neg hm, if_neg (by simp [hm, Ne.symm ho])]

theorem sinceReset_concat {w : List SigId} {e : SigId}
    (hw : last isDoor w ≠ some SYS_SIG_OPEN) (ho : e ≠ SYS_SIG_OPEN) (ht : e ≠ SYS_SIG_OFFTIMEOUT) :
    sinceReset (w ++ [e]) = sinceReset w ++ [e] := by
  have htime : afterTimeout (w ++ [e]) = afterTimeout w ++ [e] :=
    afterLast_concat_neg (by simpa using ht)
  unfold sinceReset
  rw [afterClosing_concat hw ho, htime]
  simp only [List.length_append, Nat.add_le_add_iff_right]
  split <;> rfl

/-- Closing the opened door starts afresh. -/
theorem sinceReset_close {w : List SigId} (hw : last isDoor w = some SYS_SIG_OPEN) :
    sinceReset (w ++ [SYS_SIG_CLOSE]) = [] := by
  obtain ⟨hm, hall⟩ := (last_eq_open_iff w).1 hw
  have hnil : afterClosing (w ++ [SYS_SIG_CLOSE]) = [] := by
    rw [afterClosing, if_pos (List.mem_append_left _ hm), afterLast_concat_neg (by decide),
      afterFirst_concat_of_forall hall]
  rw [sinceReset, if_pos (by simp [hnil]), hnil]

/-- A timeout starts afresh. -/
theorem sinceReset_timeout (w : List SigId) : sinceReset (w ++ [SYS_SIG_OFFTIMEOUT]) = [] := by
  have hnil : afterTimeout (w ++ [SYS_SIG_OFFTIMEOUT]) = [] := afterLast_concat_pos (by decide)
  unfold sinceReset
  rw [hnil]
  split
  · rename_i h
    simpa using h
  · rfl

theorem heated_cases (u : List SigId) :
    (u.find? isHeat = none ∧ heated u = .off) ∨
      (u.find? isHeat = some SYS_SIG_TOAST ∧ heated u = .toasting) ∨
      (u.find? isHeat = some SYS_SIG_BAKE ∧ heated u = .baking) := by
  unfold heated
  cases h : u.find? isHeat with
  | none => simp
  | some e =>
    have he : isHeat e = true := List.find?_some h
    simp only [isHeat, Bool.or_eq_true, beq_iff_eq] at he
    rcases he with rfl | rfl <;> simp

theorem heated_concat (u : List SigId) {e : SigId} (ho : e ≠ SYS_SIG_OPEN)
    (ht : e ≠ SYS_SIG_OFFTIMEOUT) : heated (u ++ [e]) = next (heated u) e := by
  rcases heated_cases u with ⟨hf, hu⟩ | ⟨hf, hu⟩ | ⟨hf, hu⟩
  · rw [hu]
    by_cases htoast : e = SYS_SIG_TOAST
    · subst htoast; simp [heated, List.find?_append, hf, isHeat, next]
    · by_cases hbake : e = SYS_SIG_BAKE
      · subst hbake; simp [heated, List.find?_append, hf, isHeat, next]
      · have hnext : next .off e = .off := by unfold next; split <;> simp_all
        simp [heated, List.find?_append, hf, isHeat, htoast, hbake, hnext]
  · have hnext : next .toasting e = .toasting := by unfold next; split <;> simp_all
    rw [hu, hnext, heated, List.find?_append, hf]
    rfl
  · have hnext : next .baking e = .baking := by unfold next; split <;> simp_all
    rw [hu, hnext, heated, List.find?_append, hf]
    rfl

/-- **One more signal changes the reading as it changes the machine.** -/
theorem reading_concat (w : List SigId) (e : SigId) : reading (w ++ [e]) = next (reading w) e := by
  by_cases hw : last isDoor w = some SYS_SIG_OPEN
  · rw [show reading w = .doorOpened from if_pos hw]
    by_cases hc : e = SYS_SIG_CLOSE
    · subst hc
      rw [reading, last_concat_pos (by decide), if_neg (by decide), sinceReset_close hw]
      rfl
    · have hopen : last isDoor (w ++ [e]) = some SYS_SIG_OPEN := by
        by_cases ho : e = SYS_SIG_OPEN
        · subst ho; exact last_concat_pos (by decide)
        · rw [last_concat_neg (by simp [isDoor, ho, hc]), hw]
      have hnext : next .doorOpened e = .doorOpened := by unfold next; split <;> simp_all
      rw [reading, if_pos hopen, hnext]
  · rw [show reading w = heated (sinceReset w) from if_neg hw]
    by_cases ho : e = SYS_SIG_OPEN
    · subst ho
      rw [reading, if_pos (last_concat_pos (by decide))]
      rcases heated_cases (sinceReset w) with ⟨_, h⟩ | ⟨_, h⟩ | ⟨_, h⟩ <;> rw [h] <;> rfl
    · have hclosed : last isDoor (w ++ [e]) ≠ some SYS_SIG_OPEN := by
        by_cases hc : e = SYS_SIG_CLOSE
        · subst hc; rw [last_concat_pos (by decide)]; decide
        · rwa [last_concat_neg (by simp [isDoor, ho, hc])]
      rw [reading, if_neg hclosed]
      by_cases ht : e = SYS_SIG_OFFTIMEOUT
      · subst ht
        rw [sinceReset_timeout]
        rcases heated_cases (sinceReset w) with ⟨_, h⟩ | ⟨_, h⟩ | ⟨_, h⟩ <;> rw [h] <;> rfl
      · rw [sinceReset_concat hw ho ht, heated_concat _ ho ht]

/-! ## The machine follows the reading -/

theorem reading_isLeaf (w : List SigId) : IsLeaf (reading w) := by
  unfold reading
  split
  · decide
  · rcases heated_cases (sinceReset w) with ⟨_, h⟩ | ⟨_, h⟩ | ⟨_, h⟩ <;> rw [h] <;> decide

theorem fires_eq_reading (w : List SigId) : chart.fires .off w = reading w := by
  induction w using List.reverseRecOn with
  | nil => rfl
  | append_singleton w e ih =>
    rw [Chart.fires_concat, ih, fire_eq_next (reading_isLeaf w), reading_concat]

theorem feed_eq_reading (K : Kernel microwaveStateMachine) (w : List SigId) :
    K.leaf (K.feed w) = reading w := by
  rw [K.feed_leaf microwaveStateMachine_plain, initial_leaf]
  exact fires_eq_reading w

/-- The door is open when the last door command is `OPEN`. -/
theorem reading_eq_doorOpened (w : List SigId) :
    reading w = .doorOpened ↔ last isDoor w = some SYS_SIG_OPEN := by
  constructor
  · intro h
    by_contra hlast
    rw [reading, if_neg hlast] at h
    rcases heated_cases (sinceReset w) with ⟨_, h'⟩ | ⟨_, h'⟩ | ⟨_, h'⟩ <;> simp [h'] at h
  · exact fun h => if_pos h

/-- Heating is active in its two substates only. -/
theorem heating_mem_path {s : State} (hs : IsLeaf s) :
    State.heating ∈ chart.path s ↔ s = .toasting ∨ s = .baking := by
  rcases hs with rfl | rfl | rfl | rfl <;> decide

/-- After the door is closed, and until the next heating command, the machine is off or the door
    is open again. -/
theorem reading_after_closing {v x : List SigId} (hv : last isDoor v = some SYS_SIG_OPEN)
    (hx : ∀ e ∈ x, isHeat e = false) :
    reading (v ++ SYS_SIG_CLOSE :: x) = .off ∨ reading (v ++ SYS_SIG_CLOSE :: x) = .doorOpened := by
  induction x using List.reverseRecOn with
  | nil =>
    rw [reading_concat, show reading v = .doorOpened from if_pos hv]
    decide
  | append_singleton x e ih =>
    have he : isHeat e = false := hx e (by simp)
    simp only [isHeat, Bool.or_eq_false_iff, beq_eq_false_iff_ne] at he
    rw [show v ++ SYS_SIG_CLOSE :: (x ++ [e]) = (v ++ SYS_SIG_CLOSE :: x) ++ [e] by simp,
      reading_concat]
    rcases ih fun e he => hx e (by simp [he]) with h | h <;> rw [h] <;>
      unfold next <;> split <;> simp_all

/-- **The command history determines the state**: the active leaf is `off`, `toasting`, `baking`
    or `door_opened`; the last door command decides on `door_opened`, and otherwise the first
    heating command since the last reset decides.  Heating is never active while the door is
    open, and it does not resume by itself after the door is closed. -/
theorem leaf_of_history (K : Kernel microwaveStateMachine) (w : List SigId) :
    IsLeaf (K.leaf (K.feed w)) ∧
      (K.leaf (K.feed w) = .doorOpened ↔ last isDoor w = some SYS_SIG_OPEN) ∧
      (last isDoor w ≠ some SYS_SIG_OPEN → K.leaf (K.feed w) = heated (sinceReset w)) ∧
      (last isDoor w = some SYS_SIG_OPEN → State.heating ∉ K.config (K.feed w)) ∧
      (∀ v x, w = v ++ SYS_SIG_CLOSE :: x → last isDoor v = some SYS_SIG_OPEN →
        (∀ e ∈ x, isHeat e = false) → State.heating ∉ K.config (K.feed w)) := by
  have hleaf := reading_isLeaf w
  have hconfig : State.heating ∈ K.config (K.feed w) ↔ reading w = .toasting ∨ reading w = .baking := by
    rw [Kernel.config, feed_eq_reading]
    exact heating_mem_path hleaf
  rw [feed_eq_reading, hconfig]
  refine ⟨hleaf, reading_eq_doorOpened w, fun h => if_neg h, fun h => ?_, ?_⟩
  · simp [show reading w = .doorOpened from if_pos h]
  · rintro v x rfl hv hx
    rcases reading_after_closing hv hx with h | h <;> simp [h]

end QuarkTS.Microwave
