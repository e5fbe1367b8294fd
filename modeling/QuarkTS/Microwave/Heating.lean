import QuarkTS.Microwave.Commands
import QuarkTS.Microwave.System

/-!
# Heating and its timeout

Entering `toasting` or `baking` arms timeout 1, and leaving them disarms it.  When it runs out, its
signal is put at the back of the signal queue, unless the queue is full.

* `shutOff_pending` — while heating is active, timeout 1 is armed or its signal waits, and at no
  other time is it armed, as long as no expiry is lost to a full queue;
* `lost_shutOff` — an expiry that is lost leaves heating without a pending shut-off.
-/

set_option autoImplicit false

namespace QuarkTS.Microwave

open Statechart CString Reactor Runs Program

/-- `microwave_toasting_state` or `microwave_baking_state` is the active leaf. -/
def Heats (leaf : State) : Prop := leaf = .toasting ∨ leaf = .baking

instance (leaf : State) : Decidable (Heats leaf) := inferInstanceAs (Decidable (_ ∨ _))

/-! ## The timeout of the machine -/

theorem ownerActive_iff (leaf : State) : spec.OwnerActive leaf 1 ↔ Heats leaf := by
  cases leaf <;> decide

theorem entryExit : spec.EntryExit 1 := by
  intro s
  cases s <;> decide

theorem exclusive : spec.Exclusive 1 := by
  intro leaf
  cases leaf <;> decide

theorem endedByExpiry : spec.EndedByExpiry 1 := by
  intro leaf
  cases leaf <;> decide

/-- The only timeout is timeout 1, of 3000 ticks and not periodic. -/
theorem asDefined_eq {i : Nat} {t : Timer} (h : spec.AsDefined i t) :
    i = 1 ∧ t.deadline = 3000 ∧ t.periodic = false := by
  obtain ⟨s, d, hd, hi, hdl, hp⟩ := h
  have hall : ∀ d ∈ spec.timeouts s, d.index = 1 ∧ d.deadline = 3000 ∧ d.periodic = false := by
    cases s <;> decide
  obtain ⟨hi', hdl', hp'⟩ := hall d hd
  exact ⟨hi.symm.trans hi', hdl.trans hdl', hp.trans hp'⟩

/-! ## Heating is never left without a pending shut-off -/

section Runs

variable {Z : Zmq} {K : Kernel microwaveStateMachine} {buf : Buffer 10} {as : List Action}
  {s s' : System K}

/-- Timeout 1 is armed or its signal waits whenever heating is active; otherwise it is not
    armed. -/
def ShutOffPending (s : System K) : Prop :=
  (Heats s.leaf → (s.timer 1).isSome ∨ SYS_SIG_OFFTIMEOUT ∈ s.queue) ∧
    (¬ Heats s.leaf → s.timer 1 = none)

/-- When timeout 1 runs out there is room for its signal, or the signal already waits. -/
def RoomAtTimeout (s : System K) (a : Action) : Prop :=
  a = .expire 1 → s.queue.length < topSigqueueStackSize ∨ SYS_SIG_OFFTIMEOUT ∈ s.queue

instance (s : System K) (a : Action) : Decidable (RoomAtTimeout s a) :=
  inferInstanceAs (Decidable (_ → _ ∨ _))

theorem roomAtExpiry {a : Action} (h : RoomAtTimeout s a) :
    Allowed (pass Z) (spec.RoomAtExpiry 1) s a := by
  rintro b hb rfl
  have hroom := h (reactorAction_eq_expire.1 hb)
  rw [← capacity_eq] at hroom
  exact hroom

/-- An armed timeout 1 belongs to an active session, in every run. -/
theorem heats_of_armed {G : System K → Action → Prop} (hr : Run (step Z K) G (start K buf) as s)
    (h : (s.timer 1).isSome) : Heats s.leaf := by
  obtain ⟨bs, hbs, _⟩ := run_reactor (H := Anything) microwaveStateMachine_plain
    (hr.mono fun _ _ _ _ _ => trivial)
  exact (ownerActive_iff _).1 (owner_of_armed entryExit hbs h)

/-- **Heating is never left without a pending shut-off** in a run in which no expiry of timeout 1
    is lost to a full queue. -/
theorem shutOff_pending (hr : Run (step Z K) RoomAtTimeout (start K buf) as s) :
    ShutOffPending s := by
  constructor
  · intro h
    obtain ⟨bs, hbs, _⟩ :=
      run_reactor microwaveStateMachine_plain (hr.mono fun _ _ => roomAtExpiry (Z := Z))
    exact armed_or_pending entryExit exclusive endedByExpiry hbs
      ((ownerActive_iff _).2 h)
  · intro h
    by_contra hne
    exact h (heats_of_armed hr (Option.isSome_iff_ne_none.2 hne))

/-- `toast` is consumed, 3000 ticks pass, `n` commands arrive, and then timeout 1 runs out. -/
def timeoutBehind (n : Nat) : List Action :=
  [.recv (.message (bytes "toast")), .consume] ++ List.replicate 3000 .tick ++
    (List.replicate n (.recv (.message (bytes "toast"))) ++ [.expire 1])

/-- The timeout's signal finds room behind three other signals. -/
theorem shutOff_pending_behind_three : ∃ s,
    Run (step .reference reference) RoomAtTimeout (start reference Buffer.zero)
        (timeoutBehind 3) s ∧ s.leaf = .toasting ∧ s.timer 1 = none ∧ ShutOffPending s := by
  have hexec : (execute (step .reference reference) RoomAtTimeout (start reference Buffer.zero)
      (timeoutBehind 3)).map (fun s => (s.leaf, s.timer 1)) = some (.toasting, none) := by
    rw [timeoutBehind, execute_ticks (fun _ h => by cases h)]
    decide
  obtain ⟨s, hrun, hview⟩ := Run.of_execute_map hexec
  obtain ⟨hl, ht⟩ := Prod.mk.inj hview
  exact ⟨s, hrun, hl, ht, shutOff_pending hrun⟩

/-- Behind ten signals that wait, the expiry is lost while toasting goes on. -/
theorem not_shutOff_pending : ¬ ∀ as s,
    Run (step .reference reference) Anything (start reference Buffer.zero) as s →
      ShutOffPending s := by
  intro h
  have hexec : (execute (step .reference reference) Anything (start reference Buffer.zero)
      (timeoutBehind 10)).map (fun s => (s.leaf, s.timer 1, s.queue)) =
        some (.toasting, none, List.replicate 10 SYS_SIG_TOAST) := by
    rw [timeoutBehind, execute_ticks (fun _ => trivial)]
    decide
  obtain ⟨s, hrun, hview⟩ := Run.of_execute_map hexec
  simp only [Prod.mk.injEq] at hview
  obtain ⟨hl, ht, hq⟩ := hview
  rcases (h _ s hrun).1 (Or.inl hl) with harmed | hm
  · rw [ht] at harmed
    cases harmed
  · rw [hq] at hm
    exact absurd hm (by decide)

/-- An expiry of timeout 1 that is lost leaves heating **without a pending shut-off**. -/
theorem lost_shutOff {G : System K → Action → Prop} (hr : Run (step Z K) G (start K buf) as s)
    (hroom : ¬ RoomAtTimeout s (.expire 1)) (h : step Z K s (.expire 1) = some s') :
    ¬ ShutOffPending s' := by
  obtain ⟨t, ht, _, hl, hq, htm⟩ := expire_cases h
  simp only [RoomAtTimeout, forall_const, not_or] at hroom
  obtain ⟨hfull, hnot⟩ := hroom
  have hheats : Heats s.leaf := heats_of_armed hr (by rw [ht]; rfl)
  obtain ⟨bs, hbs, _⟩ := run_reactor (H := Anything) microwaveStateMachine_plain
    (hr.mono fun _ _ _ _ _ => trivial)
  obtain ⟨_, _, hperiodic⟩ := asDefined_eq (armed_as_defined hbs ht)
  have hdisarmed : s'.timer 1 = none := by
    rw [htm, Function.update_self, hperiodic]
    rfl
  have hqueue : s'.queue = s.queue := by
    rcases hq with ⟨hlt, _⟩ | ⟨_, hq⟩
    · exact absurd (capacity_eq ▸ hlt) hfull
    · exact hq
  intro hpending
  rw [← hl] at hheats
  rcases hpending.1 hheats with harmed | hm
  · rw [hdisarmed] at harmed
    cases harmed
  · rw [hqueue] at hm
    exact hnot hm

end Runs

end QuarkTS.Microwave
