import QuarkTS.Microwave.Heating

/-!
# Heating sessions

A session begins when `off` is left for `toasting` or `baking`.  Leaving it disarms timeout 1, but
does not take back a timeout signal that waits in the queue already, and such a signal ends the
next session.

* `shutOff_ends_own_session` — a session that is shut off has lasted for 3000 ticks, if no session
  begins while a timeout signal waits ahead of the next `SYS_SIG_OPEN`;
* `early_shutOff` — a session that begins so can be shut off without a tick.
-/

set_option autoImplicit false

namespace QuarkTS.Microwave

open Statechart CString Reactor Runs Program

/-! ## What a signal does to a session -/

/-- Beginning a session arms timeout 1 afresh. -/
theorem armed_on_entry {target : State} (hheats : Heats target) (tm : Timers) :
    spec.enter (chart.entered .off target) (spec.leave (chart.exited .off target) tm) 1 =
      some ⟨3000, 0, false⟩ := by
  rcases hheats with rfl | rfl <;> rfl

/-- Heating is active after a signal because the session goes on, without a transition, or because
    it begins. -/
theorem heats_fire {leaf : State} (hl : IsLeaf leaf) {e : SigId} (h : Heats (chart.fire leaf e)) :
    Heats leaf ∧ chart.fire leaf e = leaf ∧ chart.lookup leaf e = none ∧ e ≠ SYS_SIG_OPEN ∧
        e ≠ SYS_SIG_OFFTIMEOUT ∨
      leaf = .off ∧ isHeat e = true ∧ chart.lookup leaf e = some (chart.fire leaf e) := by
  by_cases he : e ∈ signals
  · simp only [signals, List.mem_cons, List.not_mem_nil, or_false] at he
    revert h
    rcases hl with rfl | rfl | rfl | rfl <;> rcases he with rfl | rfl | rfl | rfl | rfl <;> decide
  · have hnone := lookup_of_notMem leaf he
    have hstay := chart.fire_of_lookup_none hnone
    rw [hstay] at h
    have hopen : e ≠ SYS_SIG_OPEN := fun h => he (by rw [h]; decide)
    have hoff : e ≠ SYS_SIG_OFFTIMEOUT := fun h => he (by rw [h]; decide)
    exact Or.inl ⟨h, hstay, hnone, hopen, hoff⟩

/-- Heating goes on with any signal but `SYS_SIG_OPEN` and the timeout. -/
theorem fire_of_heats {leaf : State} (h : Heats leaf) {e : SigId} (ho : e ≠ SYS_SIG_OPEN)
    (ht : e ≠ SYS_SIG_OFFTIMEOUT) : chart.fire leaf e = leaf := by
  have hl : IsLeaf leaf := by
    rcases h with rfl | rfl <;> decide
  rw [fire_eq_next hl]
  rcases h with rfl | rfl <;>
  · unfold next
    split <;> simp_all

section Runs

variable {Z : Zmq} {K : Kernel microwaveStateMachine} {buf : Buffer 10} {as : List Action}
  {s s' : System K}

/-! ## Sessions and their length -/

/-- The ticks since a session has begun. -/
def sessionTicks (s : System K) (a : Action) (s' : System K) (ticks : Nat) : Nat :=
  if Heats s'.leaf ∧ s'.leaf ≠ s.leaf then 0 else if a = .tick then ticks + 1 else ticks

/-- The machine leaves `microwave_heating_state` for `microwave_off_state` on
    `SYS_SIG_OFFTIMEOUT`. -/
def ShutOff (s s' : System K) : Prop :=
  s.queue.head? = some SYS_SIG_OFFTIMEOUT ∧ State.heating ∈ K.config s.kernel ∧ s'.leaf = .off

/-- The signals that are consumed before the door is opened next. -/
def untilOpen (queue : List SigId) : List SigId := queue.takeWhile (· ≠ SYS_SIG_OPEN)

/-- A session does not begin while a timeout signal waits ahead of the next `SYS_SIG_OPEN`. -/
def FreshSession (s : System K) : Action → Prop
  | .consume => s.leaf = .off → s.queue.head?.any isHeat = true →
      SYS_SIG_OFFTIMEOUT ∉ untilOpen s.queue.tail
  | _ => True

instance (s : System K) (a : Action) : Decidable (FreshSession s a) :=
  match a with
  | .consume => inferInstanceAs (Decidable (_ → _ → _))
  | .recv _ => inferInstanceAs (Decidable True)
  | .tick => inferInstanceAs (Decidable True)
  | .expire _ => inferInstanceAs (Decidable True)

theorem mem_untilOpen_append {e : SigId} {queue kept : List SigId} (hk : e ∉ kept)
    (h : e ∈ untilOpen (queue ++ kept)) : e ∈ untilOpen queue := by
  rw [untilOpen, List.takeWhile_append] at h
  split at h
  · rename_i hall
    have hself : untilOpen queue = queue :=
      (List.takeWhile_prefix _).eq_of_length hall
    rcases List.mem_append.1 h with h | h
    · rwa [hself]
    · exact absurd ((List.takeWhile_prefix _).subset h) hk
  · exact h

theorem mem_untilOpen_cons {e x : SigId} {queue : List SigId} (hx : x ≠ SYS_SIG_OPEN)
    (h : e ∈ untilOpen queue) : e ∈ untilOpen (x :: queue) := by
  rw [untilOpen, List.takeWhile_cons_of_pos (by simpa using hx)]
  exact List.mem_cons_of_mem _ h

/-- What holds of a session after so many ticks: timeout 1 has been armed for no longer, and a
    timeout signal that it would meet can only be its own. -/
structure InSession (s : System K) (ticks : Nat) : Prop where
  armed : ∀ t, s.timer 1 = some t → t.deadline = 3000 ∧ t.elapsed ≤ ticks
  pending : SYS_SIG_OFFTIMEOUT ∈ untilOpen s.queue → 3000 ≤ ticks

/-- Unless a session begins, only the clock counts. -/
theorem sessionTicks_of_leaf_eq {a : Action} {ticks : Nat} (h : s'.leaf = s.leaf) :
    sessionTicks s a s' ticks = if a = .tick then ticks + 1 else ticks := by
  rw [sessionTicks, if_neg (fun hn => hn.2 h)]

/-- The count starts when a session begins. -/
theorem sessionTicks_of_begin {a : Action} {ticks : Nat} (hoff : s.leaf = .off)
    (hheats : Heats s'.leaf) : sessionTicks s a s' ticks = 0 := by
  refine if_pos ⟨hheats, fun hl => ?_⟩
  rw [hl, hoff] at hheats
  rcases hheats with h | h <;> cases h

theorem InSession.recv {r : Received} {ticks : Nat} (hi : InSession s ticks)
    (h : step Z K s (.recv r) = some s') : InSession s' ticks := by
  obtain ⟨_, htm, _⟩ := recv_cases h
  obtain ⟨kept, hk, hq⟩ := step_kept microwaveStateMachine_plain h
  constructor
  · rw [htm]
    exact hi.armed
  · rw [show s'.queue = s.queue ++ kept from hq]
    intro hm
    refine hi.pending (mem_untilOpen_append (fun hmem => ?_) hm)
    cases isTimeout_pass (Option.mem_toList.1 (hk.subset hmem))

theorem InSession.tick {ticks : Nat} (hi : InSession s ticks) (h : step Z K s .tick = some s') :
    InSession s' (ticks + 1) := by
  obtain ⟨_, hq, htm⟩ := tick_cases h
  constructor
  · intro t ht
    rw [htm, Option.map_eq_some_iff] at ht
    obtain ⟨u, hu, rfl⟩ := ht
    obtain ⟨hd, he⟩ := hi.armed u hu
    exact ⟨hd, Nat.succ_le_succ he⟩
  · rw [hq]
    intro hm
    have := hi.pending hm
    omega

theorem InSession.expire {i ticks : Nat} (hi : InSession s ticks)
    (h : step Z K s (.expire i) = some s') : InSession s' ticks := by
  obtain ⟨t, ht, hdue, _, hq, htm⟩ := expire_cases h
  constructor
  · intro u hu
    rw [htm] at hu
    by_cases h1 : 1 = i
    · subst h1
      rw [Function.update_self] at hu
      split at hu
      · cases hu
        exact ⟨(hi.armed t ht).1, Nat.zero_le _⟩
      · cases hu
    · rw [Function.update_of_ne h1] at hu
      exact hi.armed u hu
  · intro hm
    by_cases h1 : i = 1
    · -- the session's own timeout has run out
      subst h1
      obtain ⟨hd, he⟩ := hi.armed t ht
      omega
    · rcases hq with ⟨_, hq⟩ | ⟨_, hq⟩
      · rw [hq] at hm
        exact hi.pending (mem_untilOpen_append (by simpa using Ne.symm h1) hm)
      · rw [hq] at hm
        exact hi.pending hm

/-- A signal that leaves heating active goes on with the session or begins a new one. -/
theorem inSession_consume {ticks : Nat} (hl : IsLeaf s.leaf)
    (hi : Heats s.leaf → InSession s ticks) (hfresh : FreshSession s .consume)
    (h : step Z K s .consume = some s') (hheats : Heats s'.leaf) :
    InSession s' (sessionTicks s .consume s' ticks) := by
  obtain ⟨e, hq, hfire, hsame, hnew⟩ := consume_cases microwaveStateMachine_plain h
  rw [hfire] at hheats
  rcases heats_fire hl hheats with ⟨hh, hstay, hnone, ho, _⟩ | ⟨hoff, hheat, hlook⟩
  · rw [sessionTicks_of_leaf_eq (hfire.trans hstay), if_neg (by decide)]
    constructor
    · rw [hsame hnone]
      exact (hi hh).armed
    · intro hm
      apply (hi hh).pending
      rw [hq]
      exact mem_untilOpen_cons ho hm
  · rw [sessionTicks_of_begin hoff (by rwa [hfire])]
    constructor
    · intro t ht
      rw [hnew _ hlook, hoff, armed_on_entry (hoff ▸ hheats)] at ht
      cases ht
      exact ⟨rfl, Nat.le_refl _⟩
    · intro hm
      have hnot := hfresh hoff (by rw [hq]; exact hheat)
      rw [hq] at hnot
      exact absurd hm hnot

/-- In every run without a stale timeout at the beginning of a session, the invariant holds of
    each session. -/
theorem inSession {w : System K × Nat}
    (hr : Run (watch (step Z K) sessionTicks) (fun w a => FreshSession w.1 a) (start K buf, 0) as w) :
    Heats w.1.leaf → InSession w.1 w.2 := by
  induction hr with
  | nil =>
    intro h
    rw [start_off] at h
    rcases h with h | h <;> cases h
  | @snoc as w w' a hr hg hs ih =>
    obtain ⟨hs, hticks⟩ := watch_eq_some.1 hs
    rw [hticks]
    intro h
    cases a with
    | recv r =>
      have hl := (recv_cases hs).1
      rw [sessionTicks_of_leaf_eq hl]
      exact (ih (hl ▸ h)).recv hs
    | tick =>
      have hl := (tick_cases hs).1
      rw [sessionTicks_of_leaf_eq hl]
      exact (ih (hl ▸ h)).tick hs
    | expire i =>
      obtain ⟨_, _, _, hl, _⟩ := expire_cases hs
      rw [sessionTicks_of_leaf_eq hl]
      exact (ih (hl ▸ h)).expire hs
    | consume => exact inSession_consume (run_isLeaf hr.of_watch) ih hg hs h

/-- **A session is not shut off by another session's timeout** in a run in which no session begins
    while a timeout signal waits ahead of the next `SYS_SIG_OPEN`. -/
theorem shutOff_ends_own_session {w : System K × Nat}
    (hr : Run (watch (step Z K) sessionTicks) (fun w a => FreshSession w.1 a) (start K buf, 0) as w)
    (hs : step Z K w.1 .consume = some s') (hoff : ShutOff w.1 s') : 3000 ≤ w.2 := by
  obtain ⟨hhead, hheating, _⟩ := hoff
  have hheats : Heats w.1.leaf := (heating_mem_path (run_isLeaf hr.of_watch)).1 hheating
  apply (inSession hr hheats).pending
  obtain ⟨e, hq, _⟩ := consume_cases microwaveStateMachine_plain hs
  rw [hq, List.head?_cons, Option.some.injEq] at hhead
  rw [hq, hhead, untilOpen, List.takeWhile_cons_of_pos (by decide)]
  exact List.mem_cons_self

/-- A timeout signal at the front of the queue shuts a session off. -/
theorem shutOff_of_front {q : List SigId} (hh : Heats s.leaf)
    (hq : s.queue = SYS_SIG_OFFTIMEOUT :: q)
    (hfire : s'.leaf = chart.fire s.leaf SYS_SIG_OFFTIMEOUT) : ShutOff s s' := by
  refine ⟨by rw [hq]; rfl, ?_, ?_⟩
  · have hpath : State.heating ∈ chart.path s.leaf := by
      rcases hh with h | h <;> rw [h] <;> decide
    exact hpath
  · rw [hfire]
    rcases hh with h | h <;> rw [h] <;> rfl

/-- A session that nothing disturbs is shut off by its own timeout. -/
theorem shutOff_ends_own_session_once : ∃ (w : System reference × Nat) (s' : System reference),
    Run (watch (step .reference reference) sessionTicks) (fun w a => FreshSession w.1 a)
        (start reference Buffer.zero, 0) (timeoutBehind 0) w ∧
      step .reference reference w.1 .consume = some s' ∧ ShutOff w.1 s' ∧ 3000 ≤ w.2 := by
  have hexec : (execute (step .reference reference) FreshSession (start reference Buffer.zero)
      (timeoutBehind 0)).map (fun s => (s.leaf, s.queue)) =
        some (.toasting, [SYS_SIG_OFFTIMEOUT]) := by
    rw [timeoutBehind, execute_ticks (fun _ => trivial)]
    decide
  obtain ⟨s, hrun₀, hview⟩ := Run.of_execute_map hexec
  obtain ⟨hl, hq⟩ := Prod.mk.inj hview
  obtain ⟨ticks, hwatch⟩ := hrun₀.exists_watch sessionTicks 0
  obtain ⟨s', hs', _, hfire⟩ := consume_enabled microwaveStateMachine_plain (pass .reference) hq
  have hoff : ShutOff s s' := shutOff_of_front (Or.inl hl) hq hfire
  exact ⟨(s, ticks), s', hwatch, hs', hoff, shutOff_ends_own_session hwatch hs' hoff⟩

/-! ## A stale timeout -/

/-- A timeout signal ahead of the next `SYS_SIG_OPEN` shuts the session off, and the task can take
    it without a tick. -/
theorem run_to_shutOff (Z : Zmq) (ticks : Nat) (hh : Heats s.leaf)
    (hm : SYS_SIG_OFFTIMEOUT ∈ untilOpen s.queue) :
    ∃ n u u', Run (watch (step Z K) sessionTicks) Anything (s, ticks)
        (List.replicate n .consume) (u, ticks) ∧
      step Z K u .consume = some u' ∧ ShutOff u u' := by
  generalize hq : s.queue = q at hm
  induction q generalizing s with
  | nil => cases hm
  | cons e q ih =>
    obtain ⟨v, hv, hrest, hfire⟩ := consume_enabled microwaveStateMachine_plain (pass Z) hq
    by_cases ht : e = SYS_SIG_OFFTIMEOUT
    · subst ht
      exact ⟨0, s, v, .nil, hv, shutOff_of_front hh hq hfire⟩
    · have ho : e ≠ SYS_SIG_OPEN := by
        rintro rfl
        rw [untilOpen, List.takeWhile_cons_of_neg (by decide)] at hm
        cases hm
      rw [untilOpen, List.takeWhile_cons_of_pos (by simpa using ho), List.mem_cons] at hm
      have hstay : v.leaf = s.leaf := hfire.trans (fire_of_heats hh ho ht)
      obtain ⟨n, u, u', hrun, hu, hoff⟩ :=
        ih (hstay.symm ▸ hh) hrest (hm.resolve_left (Ne.symm ht))
      refine ⟨n + 1, u, u', ?_, hu, hoff⟩
      have hwatch : watch (step Z K) sessionTicks (s, ticks) .consume = some (v, ticks) := by
        refine watch_eq_some.2 ⟨hv, ?_⟩
        rw [sessionTicks_of_leaf_eq hstay, if_neg (by decide)]
      rw [List.replicate_succ]
      exact (Run.single trivial hwatch).append hrun

/-- A session that begins while a timeout signal waits ahead of the next `SYS_SIG_OPEN` **can be
    shut off without a tick**. -/
theorem early_shutOff (Z : Zmq) (ticks : Nat) (hfresh : ¬ FreshSession s .consume)
    (h : step Z K s .consume = some s') :
    ∃ n u u', Run (watch (step Z K) sessionTicks) Anything (s, ticks)
        (List.replicate (n + 1) .consume) (u, 0) ∧
      step Z K u .consume = some u' ∧ ShutOff u u' := by
  obtain ⟨e, hq, hfire, _⟩ := consume_cases microwaveStateMachine_plain h
  simp only [FreshSession, Classical.not_imp, not_not, hq, List.head?_cons, Option.any_some,
    List.tail_cons] at hfresh
  obtain ⟨hoff, hheat, hstale⟩ := hfresh
  have hheats : Heats s'.leaf := by
    rw [hfire, hoff]
    simp only [isHeat, Bool.or_eq_true, beq_iff_eq] at hheat
    rcases hheat with rfl | rfl <;> decide
  obtain ⟨n, u, u', hrun, hu, hshut⟩ := run_to_shutOff Z 0 hheats hstale
  have hbegin : watch (step Z K) sessionTicks (s, ticks) .consume = some (s', 0) :=
    watch_eq_some.2 ⟨h, (sessionTicks_of_begin hoff hheats).symm⟩
  exact ⟨n, u, u', (Run.single trivial hbegin).append hrun, hu, hshut⟩

/-- The timeout of a first session runs out while `open`, `close` and `toast` wait; the door
    signals are consumed. -/
def staleTimeout : List Action :=
  [.recv (.message (bytes "toast")), .consume] ++ List.replicate 3000 .tick ++
    [.recv (.message (bytes "open")), .recv (.message (bytes "close")),
     .recv (.message (bytes "toast")), .expire 1, .consume, .consume]

/-- The door is opened and closed and `toast` is given again while the first timeout waits. -/
theorem not_shutOff_ends_own_session : ¬ ∀ as (w : System reference × Nat) s',
    Run (watch (step .reference reference) sessionTicks) Anything
        (start reference Buffer.zero, 0) as w →
      step .reference reference w.1 .consume = some s' → ShutOff w.1 s' → 3000 ≤ w.2 := by
  intro h
  have hexec : (execute (step .reference reference) Anything (start reference Buffer.zero)
      staleTimeout).map (fun s => (s.leaf, s.queue)) =
        some (.off, [SYS_SIG_TOAST, SYS_SIG_OFFTIMEOUT]) := by
    rw [staleTimeout, execute_ticks (fun _ => trivial)]
    decide
  obtain ⟨s, hrun₀, hview⟩ := Run.of_execute_map hexec
  obtain ⟨hl, hq⟩ := Prod.mk.inj hview
  obtain ⟨ticks, hwatch⟩ := hrun₀.exists_watch sessionTicks 0
  obtain ⟨s', hs', _⟩ := consume_enabled microwaveStateMachine_plain (pass .reference) hq
  have hstale : ¬ FreshSession s .consume := by
    intro hfresh
    have hnot := hfresh hl (by rw [hq]; rfl)
    rw [hq] at hnot
    exact hnot (by decide)
  obtain ⟨n, u, u', hrun, hu, hoff⟩ := early_shutOff .reference ticks hstale hs'
  have hle := h _ _ _ (hwatch.append hrun) hu hoff
  exact Nat.not_succ_le_zero _ hle

end Runs

end QuarkTS.Microwave
