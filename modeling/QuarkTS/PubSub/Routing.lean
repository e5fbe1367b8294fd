import QuarkTS.PubSub.Init

/-!
# Routing of published signals

A signal that is sent with a `NULL` machine reaches the machines that have subscribed to it.
`hsm_pse_init` subscribes SA to `SYS_SIG_TYPE_1` only and SB to nothing, although both machines
have transitions on `SYS_SIG_TYPE_1` and `SYS_SIG_TYPE_2`.

* `config_received_iff` — when a machine that receives only its own signals ends where the whole
  sequence would lead it;
* `routing_lossless_iff` — both machines do, exactly when no `SYS_SIG_TYPE_1` is published.
-/

set_option autoImplicit false

namespace QuarkTS.PubSub

open Statechart History

/-- The published signals that reach a machine, in the order of publication. -/
def received (m : StateMachine) (w : List SigId) : List SigId :=
  w.filter fun e => e ∈ pseSetup.signals m

theorem mem_received_sa {w : List SigId} {e : SigId} :
    e ∈ received .pseSaStateMachine w ↔ e ∈ w ∧ e = SYS_SIG_TYPE_1 := by
  have hsub : pseSetup.signals .pseSaStateMachine = [SYS_SIG_TYPE_1] := by decide
  simp [received, hsub]

theorem received_sb (w : List SigId) : received .pseSbStateMachine w = [] := by
  have hsub : pseSetup.signals .pseSbStateMachine = [] := by decide
  simp [received, hsub]

/-- What SA receives asks for the second group as soon as one `SYS_SIG_TYPE_1` is published. -/
theorem last_received_sa (w : List SigId) :
    last isMove (received .pseSaStateMachine w) = some SYS_SIG_TYPE_1 ↔ SYS_SIG_TYPE_1 ∈ w := by
  constructor
  · intro h
    exact (mem_received_sa.1 (mem_of_last h)).1
  · intro h
    have hall : ∀ e ∈ received .pseSaStateMachine w, e = SYS_SIG_TYPE_1 :=
      fun e he => (mem_received_sa.1 he).2
    have hmem : SYS_SIG_TYPE_1 ∈ received .pseSaStateMachine w := mem_received_sa.2 ⟨h, rfl⟩
    obtain ⟨e, he⟩ := exists_last ⟨_, hmem, (by decide : isMove SYS_SIG_TYPE_1 = true)⟩
    rw [he, hall e (mem_of_last he)]

/-- The two leaves of a machine have different configurations. -/
theorem path_inj (m : StateMachine) (p q : Prop) [Decidable p] [Decidable q] :
    (chart m).path (if p then secondLeaf m else firstLeaf m) =
      (chart m).path (if q then secondLeaf m else firstLeaf m) ↔ (p ↔ q) := by
  have hne : (chart m).path (secondLeaf m) ≠ (chart m).path (firstLeaf m) := by
    cases m <;> decide
  by_cases hp : p <;> by_cases hq : q <;> simp [hp, hq, hne, hne.symm]

/-- A machine ends in the right configuration exactly when the signals that it receives ask for
    the second group if and only if all the published signals do. -/
theorem config_received_iff {m : StateMachine} (K : Kernel (pseStateMachine m)) (w : List SigId) :
    K.config (K.feed (received m w)) = K.config (K.feed w) ↔
      (last isMove (received m w) = some SYS_SIG_TYPE_1 ↔ last isMove w = some SYS_SIG_TYPE_1) := by
  rw [K.feed_config (pseStateMachine_plain m), K.feed_config (pseStateMachine_plain m),
    initial_leaf, fires_eq, fires_eq]
  exact path_inj m _ _

/-- **Routing loses nothing exactly when no `SYS_SIG_TYPE_1` is published.** -/
theorem routing_lossless_iff (K : ∀ m, Kernel (pseStateMachine m)) (w : List SigId) :
    (∀ m, (K m).config ((K m).feed (received m w)) = (K m).config ((K m).feed w)) ↔
      SYS_SIG_TYPE_1 ∉ w := by
  simp only [config_received_iff]
  constructor
  · intro h hmem
    -- SA has been sent to its second group, so the last move is to it, and SB misses it
    have hlast := (h .pseSaStateMachine).1 ((last_received_sa w).2 hmem)
    have hsb := (h .pseSbStateMachine).2 hlast
    rw [received_sb] at hsb
    cases hsb
  · intro hmem m
    have hlast : last isMove w ≠ some SYS_SIG_TYPE_1 := fun h => hmem (mem_of_last h)
    refine iff_of_false (fun h => ?_) hlast
    cases m with
    | pseSaStateMachine => exact hmem ((last_received_sa w).1 h)
    | pseSbStateMachine =>
      rw [received_sb] at h
      cases h

/-- One published `SYS_SIG_TYPE_1` does not reach SB. -/
theorem not_routing_lossless :
    ¬ ∀ w m, (Kernel.reference (pseStateMachine m)).config
        ((Kernel.reference (pseStateMachine m)).feed (received m w)) =
      (Kernel.reference (pseStateMachine m)).config
        ((Kernel.reference (pseStateMachine m)).feed w) := by
  intro h
  have hsb := h [SYS_SIG_TYPE_1] .pseSbStateMachine
  revert hsb
  decide

end QuarkTS.PubSub
