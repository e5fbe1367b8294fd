import Mathlib.Data.List.Basic

/-!
# Finite runs of a labelled transition system

A system is a partial step function `step : σ → α → Option σ`: `none` means that the action is
not enabled.  `Run step G s₀ as s` says that the actions `as`, taken in order from `s₀`, lead to
`s` and that every step satisfies the guard `G` in the state it is taken from.  `Anything` is the
guard that allows every step, so `Run step Anything` is plain reachability.

* `Run.invariant` — what holds at the start and is kept by each guarded step holds of every run;
* `Run.of_execute` — executing a list of actions yields a run;
* `exists_execute`, `execute_map` — a system that is never stuck can take any actions, and a
  translation that commutes with the steps commutes with runs;
* `Run.of_watch`, `Run.exists_watch` — a component that records the past can be left out of a run
  and added to it;
* `Run.sublist_issued` — the delivery rule of a queue that may lose items.
-/

set_option autoImplicit false

namespace Runs

variable {σ α τ β : Type}

/-- Guarded runs; the actions are listed in the order in which they are taken. -/
inductive Run (step : σ → α → Option σ) (G : σ → α → Prop) (s₀ : σ) : List α → σ → Prop
  | nil : Run step G s₀ [] s₀
  | snoc {as : List α} {s s' : σ} {a : α} :
      Run step G s₀ as s → G s a → step s a = some s' → Run step G s₀ (as ++ [a]) s'

/-- The guard that allows every step. -/
def Anything : σ → α → Prop := fun _ _ => True

variable {step : σ → α → Option σ} {G : σ → α → Prop} {s₀ s s' : σ} {as bs : List α} {a : α}

/-- **Invariant rule**, for a property of the state and of the actions taken so far. -/
theorem Run.invariant (I : List α → σ → Prop) (h₀ : I [] s₀)
    (hstep : ∀ as s a s', I as s → G s a → step s a = some s' → I (as ++ [a]) s')
    (h : Run step G s₀ as s) : I as s := by
  induction h with
  | nil => exact h₀
  | snoc _ hg hs ih => exact hstep _ _ _ _ ih hg hs

/-- A run under a guard is a run under every weaker guard. -/
theorem Run.mono {G' : σ → α → Prop} (hG : ∀ s a, G s a → G' s a) (h : Run step G s₀ as s) :
    Run step G' s₀ as s := by
  induction h with
  | nil => exact .nil
  | snoc _ hg hs ih => exact ih.snoc (hG _ _ hg) hs

theorem Run.single (hg : G s a) (hs : step s a = some s') : Run step G s [a] s' :=
  Run.nil.snoc hg hs

theorem Run.append (h : Run step G s₀ as s) (h' : Run step G s bs s') :
    Run step G s₀ (as ++ bs) s' := by
  induction h' with
  | nil => simpa using h
  | snoc _ hg hs ih => rw [← List.append_assoc]; exact ih.snoc hg hs

/-! ## Executed runs -/

/-- Take the actions in order, as long as the guard holds. -/
def execute (step : σ → α → Option σ) (G : σ → α → Prop) [∀ s a, Decidable (G s a)] (s : σ)
    (as : List α) : Option σ :=
  as.foldlM (fun s a => if G s a then step s a else none) s

theorem execute_append [∀ s a, Decidable (G s a)] (s : σ) (as bs : List α) :
    execute step G s (as ++ bs) = (execute step G s as).bind fun u => execute step G u bs :=
  List.foldlM_append ..

theorem execute_cons [∀ s a, Decidable (G s a)] (hg : G s a) (as : List α) :
    execute step G s (a :: as) = (step s a).bind fun u => execute step G u as := by
  rw [execute, List.foldlM_cons, if_pos hg]
  rfl

/-- One action many times, if `f n` is what `n` of them do. -/
theorem execute_replicate [∀ s a, Decidable (G s a)] {f : Nat → σ → σ} (hzero : ∀ s, f 0 s = s)
    (hone : ∀ s, G s a ∧ step s a = some (f 1 s)) (hadd : ∀ n s, f n (f 1 s) = f (n + 1) s)
    (n : Nat) (s : σ) : execute step G s (List.replicate n a) = some (f n s) := by
  induction n generalizing s with
  | zero => exact congrArg some (hzero s).symm
  | succ n ih =>
    rw [List.replicate_succ, execute_cons (hone s).1, (hone s).2, Option.bind_some, ih, hadd]

/-- Executing a list of actions yields a run. -/
theorem Run.of_execute [∀ s a, Decidable (G s a)] (h : execute step G s₀ as = some s) :
    Run step G s₀ as s := by
  induction as generalizing s₀ with
  | nil =>
    simp only [execute, List.foldlM_nil, Option.pure_def, Option.some.injEq] at h
    exact h ▸ .nil
  | cons a as ih =>
    rw [execute, List.foldlM_cons] at h
    obtain ⟨u, hu, hrest⟩ := Option.bind_eq_some_iff.1 h
    split at hu
    · rename_i hg
      exact (Run.single hg hu).append (ih hrest)
    · cases hu

theorem Run.of_execute_isSome [∀ s a, Decidable (G s a)] (h : (execute step G s₀ as).isSome) :
    ∃ s, Run step G s₀ as s := by
  obtain ⟨s, hs⟩ := Option.isSome_iff_exists.1 h
  exact ⟨s, .of_execute hs⟩

/-- The run, with what is seen of the state that it reaches. -/
theorem Run.of_execute_map [∀ s a, Decidable (G s a)] {f : σ → τ} {v : τ}
    (h : (execute step G s₀ as).map f = some v) : ∃ s, Run step G s₀ as s ∧ f s = v := by
  obtain ⟨s, hs, hv⟩ := Option.map_eq_some_iff.1 h
  exact ⟨s, .of_execute hs, hv⟩

instance (s : σ) (a : α) : Decidable (Anything s a) := inferInstanceAs (Decidable True)

/-- A system that is never stuck while `I` holds can take any actions. -/
theorem exists_execute {I : σ → Prop} (hstep : ∀ s a, I s → ∃ s', step s a = some s' ∧ I s')
    (as : List α) (hs : I s) : ∃ s', execute step Anything s as = some s' ∧ I s' := by
  induction as generalizing s with
  | nil => exact ⟨s, rfl, hs⟩
  | cons a as ih =>
    obtain ⟨u, hu, hIu⟩ := hstep s a hs
    obtain ⟨s', hs', hI'⟩ := ih hIu
    rw [execute_cons trivial, hu]
    exact ⟨s', hs', hI'⟩

/-- A translation of the states that commutes with the steps commutes with runs. -/
theorem execute_map {step' : τ → α → Option τ} {f : σ → τ} {I : σ → Prop}
    (hI : ∀ s a s', I s → step s a = some s' → I s')
    (hf : ∀ s a, I s → step' (f s) a = (step s a).map f) (as : List α) (hs : I s) :
    execute step' Anything (f s) as = (execute step Anything s as).map f := by
  induction as generalizing s with
  | nil => rfl
  | cons a as ih =>
    rw [execute_cons trivial, execute_cons trivial, hf s a hs]
    cases hu : step s a with
    | none => rfl
    | some u => exact ih (hI s a u hs hu)

/-! ## History variables -/

/-- The system with one more component that only records the past. -/
def watch (step : σ → α → Option σ) (record : σ → α → σ → τ → τ) (w : σ × τ) (a : α) :
    Option (σ × τ) :=
  (step w.1 a).map fun s' => (s', record w.1 a s' w.2)

theorem watch_eq_some {record : σ → α → σ → τ → τ} {w w' : σ × τ} :
    watch step record w a = some w' ↔
      step w.1 a = some w'.1 ∧ w'.2 = record w.1 a w'.1 w.2 := by
  simp only [watch, Option.map_eq_some_iff, Prod.ext_iff]
  constructor
  · rintro ⟨s', hs, rfl, hr⟩
    exact ⟨hs, hr.symm⟩
  · rintro ⟨hs, hr⟩
    exact ⟨w'.1, hs, rfl, hr.symm⟩

theorem Run.of_watch {record : σ → α → σ → τ → τ} {w₀ w : σ × τ}
    (h : Run (watch step record) (fun w a => G w.1 a) w₀ as w) : Run step G w₀.1 as w.1 := by
  induction h with
  | nil => exact .nil
  | snoc _ hg hs ih => exact ih.snoc hg (watch_eq_some.1 hs).1

/-- Recording the past does not disturb the system: every run is a recorded one. -/
theorem Run.exists_watch (record : σ → α → σ → τ → τ) (t₀ : τ) (h : Run step G s₀ as s) :
    ∃ t, Run (watch step record) (fun w a => G w.1 a) (s₀, t₀) as (s, t) := by
  induction h with
  | nil => exact ⟨t₀, .nil⟩
  | @snoc _ s s' a _ hg hs ih =>
    obtain ⟨t, ht⟩ := ih
    have hw : watch step record (s, t) a = some (s', record s a s' t) :=
      watch_eq_some.2 ⟨hs, rfl⟩
    exact ⟨_, ht.snoc hg hw⟩

/-- **Nothing is invented, doubled or overtaken** on the way through a queue: if each step takes
    from the front of what waits and appends a part of what it issues, then what was taken and what
    waits are, in order, a part of what was issued. -/
theorem Run.sublist_issued (issued : List α → List τ) (waiting : σ → List τ)
    {takenBy : σ → α → List τ} {G : σ × List τ → α → Prop} {w : σ × List τ}
    (hempty : waiting s₀ = []) (hissued : ∀ as a, issued (as ++ [a]) = issued as ++ issued [a])
    (hstep : ∀ s a s', step s a = some s' → ∃ kept, List.Sublist kept (issued [a]) ∧
      takenBy s a ++ waiting s' = waiting s ++ kept)
    (h : Run (watch step fun s a _ taken => taken ++ takenBy s a) G (s₀, []) as w) :
    List.Sublist (w.2 ++ waiting w.1) (issued as) := by
  refine h.invariant (fun as w => List.Sublist (w.2 ++ waiting w.1) (issued as)) ?_ ?_
  · rw [hempty]
    exact List.nil_sublist _
  · intro as w a w' ih _ hw
    obtain ⟨hs, hrec⟩ := watch_eq_some.1 hw
    obtain ⟨kept, hkept, hwaiting⟩ := hstep _ _ _ hs
    rw [hrec, List.append_assoc, hwaiting, ← List.append_assoc, hissued]
    exact ih.append hkept

end Runs
