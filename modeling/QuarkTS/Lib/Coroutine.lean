import Mathlib.Data.List.Basic

/-!
# Coroutines

A coroutine runs in pieces.  A piece ends in an `Outcome`: the next piece follows at once, or the
coroutine yields and waits for its next activation.  `activate` is one activation, the pieces up to
the first that yields; `none` means that more pieces were needed than the fuel allows.

* `activate_spec` — a measure that falls with every piece that goes on bounds the activation, and
  the state that it ends in is what some piece, run in a state of the invariant, yielded;
* `activate_map` — a translation of the states that commutes with the pieces commutes with the
  activation.
-/

set_option autoImplicit false

namespace Coroutine

variable {σ τ : Type}

/-- How a piece ends. -/
inductive Outcome (σ : Type) where
  | go (s : σ)
  | yield (s : σ)
  deriving DecidableEq, Repr

namespace Outcome

def state : Outcome σ → σ
  | go s => s
  | yield s => s

def map (f : σ → τ) : Outcome σ → Outcome τ
  | go s => go (f s)
  | yield s => yield (f s)

end Outcome

/-- One activation. -/
def activate (piece : σ → Outcome σ) : Nat → σ → Option σ
  | 0, _ => none
  | fuel + 1, s =>
    match piece s with
    | .go s' => activate piece fuel s'
    | .yield s' => some s'

variable {piece : σ → Outcome σ} {I : σ → Prop}

/-- **Activation rule**: the invariant `I` is kept by the pieces, and the measure `μ` falls with
    every piece that goes on. -/
theorem activate_spec {μ : σ → Nat} (hI : ∀ s, I s → I (piece s).state)
    (hμ : ∀ s s', I s → piece s = .go s' → μ s' < μ s) {fuel : Nat} {s : σ} (hs : I s)
    (hfuel : μ s < fuel) :
    ∃ u s', activate piece fuel s = some s' ∧ I u ∧ piece u = .yield s' := by
  induction fuel generalizing s with
  | zero => omega
  | succ fuel ih =>
    rw [activate]
    have hkept := hI s hs
    cases hp : piece s with
    | go s' =>
      rw [hp] at hkept
      have hlt := hμ s s' hs hp
      exact ih hkept (by omega)
    | yield s' => exact ⟨s, s', rfl, hs, hp⟩

/-- A translation that commutes with the pieces. -/
theorem activate_map {piece' : τ → Outcome τ} {f : σ → τ} (hI : ∀ s, I s → I (piece s).state)
    (hf : ∀ s, I s → piece' (f s) = (piece s).map f) (fuel : Nat) {s : σ} (hs : I s) :
    activate piece' fuel (f s) = (activate piece fuel s).map f := by
  induction fuel generalizing s with
  | zero => rfl
  | succ fuel ih =>
    rw [activate, activate, hf s hs]
    have hkept := hI s hs
    cases hp : piece s with
    | go s' =>
      rw [hp] at hkept
      exact ih hkept
    | yield s' => rfl

end Coroutine
