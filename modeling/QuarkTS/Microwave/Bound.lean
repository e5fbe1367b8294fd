import QuarkTS.Microwave.Delivery
import QuarkTS.Microwave.Heating

/-!
# How long the microwave heats

The other side of `QuarkTS.Microwave.Session`: there a session is not too short, here it is not
too long.  The task may be late: a tick is `late` when timeout 1 has run out and its signal is not
yet consumed.

* `heating_bounded` — a session lasts at most 3000 ticks and the late ones, as long as no expiry
  is lost to a full queue;
* `timeouts_bounded` — from the start and from each expiry of timeout 1 on, it runs out at most once
  in three seconds and at most once a session;
* `heating_can_end` — the program can always come to rest in `off` or `door_opened` without any
  further message, in at most 3000 ticks.
-/

set_option autoImplicit false

namespace QuarkTS.Microwave

open Statechart CString Reactor Runs

/-! ## The timeout definitions -/

theorem restarts : spec.Restarts 1 3000 := by
  intro s
  cases s <;> decide

theorem deadline_eq (s : State) : ∀ d ∈ spec.timeouts s, d.index = 1 →
    d.deadline = 3000 ∧ d.periodic = false := by
  cases s <;> decide

/-- The 3.0 seconds of the table. -/
theorem deadline_toTicks (T : TimeBase) (s : State) : ∀ d ∈ spec.timeouts s, d.index = 1 →
    d.deadline = T.toTicks 3 := by
  intro d hd hi
  rw [(deadline_eq s d hd hi).1, T.toTicks_eq 3000 (by norm_num [TIMER_TICK])]

/-- The timeout switches heating off. -/
theorem not_ownerActive_fire (leaf : State) (h : spec.OwnerActive leaf 1) :
    ¬ spec.OwnerActive (chart.fire leaf (spec.expiry 1)) 1 := by
  rw [ownerActive_iff] at h ⊢
  rcases h with rfl | rfl <;> decide

section Runs

variable {Z : Zmq} {K : Kernel microwaveStateMachine} {buf : Buffer 10}
  {as : List (Action)}
  {G : System K → Action → Prop}

/-- The ticks since `toasting` or `baking` was entered, and the late ones among them. -/
abbrev stopwatch (Z : Zmq) (K : Kernel microwaveStateMachine) (s : System K)
    (a : Action) (s' : System K) (c : Stopwatch) : Stopwatch :=
  Program.observe (pass Z) (spec.timed 1) s a s' c

/-- **A session lasts at most 3000 ticks and the late ones**, as long as no expiry is lost to a
    full queue. -/
theorem heating_bounded {w : System K × Stopwatch}
    (h : Run (watch (step Z K) (stopwatch Z K))
      (fun w a => Program.Allowed (pass Z) (spec.RoomAtExpiry 1) w.1 a)
      (start K buf, ⟨0, 0⟩) as w)
    (hh : Heats w.1.leaf) : w.2.ticks ≤ 3000 + w.2.late := by
  obtain ⟨bs, hrun, _⟩ := Program.run_view_start microwaveStateMachine_plain h
  exact ticks_le_deadline entryExit exclusive endedByExpiry restarts hrun
    ((ownerActive_iff w.1.leaf).2 hh)

/-- One tick after `toast` the stopwatch shows one tick. -/
theorem heating_bounded_toast : ∃ w,
    Run (watch (step .reference reference) (stopwatch .reference reference))
        (fun w a => Program.Allowed (pass .reference) (spec.RoomAtExpiry 1) w.1 a)
        (start reference Buffer.zero, ⟨0, 0⟩)
        [.recv (.message (bytes "toast")), .consume, .tick] w ∧
      Heats w.1.leaf ∧ w.2 = ⟨1, 0⟩ ∧ w.2.ticks ≤ 3000 + w.2.late := by
  have hexec : (execute
      (watch (step .reference reference) (stopwatch .reference reference))
      (fun w a => Program.Allowed (pass .reference) (spec.RoomAtExpiry 1) w.1 a)
      (start reference Buffer.zero, ⟨0, 0⟩)
      [.recv (.message (bytes "toast")), .consume, .tick]).map (fun w => (w.1.leaf, w.2)) =
        some (.toasting, ⟨1, 0⟩) := by decide
  obtain ⟨w, hrun, hview⟩ := Run.of_execute_map hexec
  obtain ⟨hl, hc⟩ := Prod.mk.inj hview
  exact ⟨w, hrun, Or.inl hl, hc, heating_bounded hrun (Or.inl hl)⟩

/-- Timeout 1 is not armed at the start, nor when it has just run out. -/
theorem unarmed_of_last {s : System K} (h : Run (step Z K) G (start K buf) as s)
    (hlast : as = [] ∨ as.getLast? = some (.expire 1)) : s.timer 1 = none := by
  cases h with
  | nil =>
    rw [Program.System.timer, Program.start_view]
    rfl
  | @snoc as u s a hr _ hstep =>
    rw [List.getLast?_concat, Option.some.injEq] at hlast
    obtain rfl : a = .expire 1 := hlast.resolve_left (by simp)
    obtain ⟨t, ht, _, _, _, htm⟩ := Program.expire_cases hstep
    obtain ⟨cs, hcs, _⟩ := Program.run_reactor (H := Anything) microwaveStateMachine_plain
      (hr.mono fun _ _ _ _ _ => trivial)
    obtain ⟨_, _, hperiodic⟩ := asDefined_eq (armed_as_defined hcs ht)
    rw [htm, Function.update_self, hperiodic]
    rfl

/-- Counts the entries into `toasting` or `baking`. -/
abbrev sessions (Z : Zmq) (K : Kernel microwaveStateMachine) (s : System K)
    (a : Action) (s' : System K) (n : Nat) : Nat :=
  Program.observe (pass Z) (entries spec 1) s a s' n

/-- **Timeout 1 runs out, or is still armed, at most once a session, and it runs out at most once in
    three seconds**, counted from the start and from each of its expiries on, in every run. -/
theorem timeouts_bounded (T : TimeBase) {w w' : System K × Nat} {bs : List Action}
    (h : Run (watch (step Z K) (sessions Z K)) (fun w a => G w.1 a) (start K buf, 0) as w)
    (h' : Run (watch (step Z K) (sessions Z K)) (fun w a => G w.1 a) w bs w')
    (hlast : as = [] ∨ as.getLast? = some (.expire 1)) :
    T.toTicks 3 * bs.count (.expire 1) ≤ bs.count .tick ∧
      w.2 + bs.count (.expire 1) + (if (w'.1.timer 1).isSome then 1 else 0) ≤ w'.2 := by
  constructor
  · exact Program.expiries_spaced microwaveStateMachine_plain
      (fun s d hd hi => (deadline_toTicks T s d hd hi).ge) h.of_watch h'.of_watch hlast
  · obtain ⟨cs₀, hr₀, _⟩ := Program.run_reactor (H := Anything) microwaveStateMachine_plain
      (h.of_watch.mono fun _ _ _ _ _ => trivial)
    obtain ⟨cs, hr, _, hexpire⟩ := Program.run_view (H := Anything) microwaveStateMachine_plain
      (h'.mono fun _ _ _ _ _ => trivial)
    have hle := expiries_le_entries entryExit (fun s d hd hi => (deadline_eq s d hd hi).2) hr₀
      (unarmed_of_last h.of_watch hlast) hr
    rw [hexpire] at hle
    exact hle

/-- After a first session has run out, a second one does. -/
def secondSession : List Action :=
  [.consume, .recv (.message (bytes "toast")), .consume] ++ List.replicate 3000 .tick ++ [.expire 1]

/-- Two expiries, and 3000 ticks and a session between them. -/
theorem timeouts_bounded_twice : ∃ w w',
    Run (watch (step .reference reference) (sessions .reference reference)) (fun _ _ => True)
        (start reference Buffer.zero, 0) (timeoutBehind 0) w ∧
      Run (watch (step .reference reference) (sessions .reference reference)) (fun _ _ => True)
        w secondSession w' ∧
      secondSession.count (.expire 1) = 1 ∧
      TimeBase.reference.toTicks 3 * secondSession.count (.expire 1) ≤ secondSession.count .tick ∧
        w.2 + secondSession.count (.expire 1) + (if (w'.1.timer 1).isSome then 1 else 0) ≤
          w'.2 := by
  have hexec : (execute (step .reference reference) Anything (start reference Buffer.zero)
      (timeoutBehind 0 ++ secondSession)).isSome := by
    rw [execute_append, timeoutBehind, Program.execute_ticks (fun _ => trivial)]
    simp only [secondSession, Program.execute_ticks (G := Anything) (fun _ => trivial)]
    decide
  rw [execute_append] at hexec
  obtain ⟨s', hs'⟩ := Option.isSome_iff_exists.1 hexec
  obtain ⟨s, hs, hsecond⟩ := Option.bind_eq_some_iff.1 hs'
  obtain ⟨n, hrun⟩ := (Run.of_execute hs).exists_watch (sessions .reference reference) 0
  obtain ⟨n', hrun'⟩ := (Run.of_execute hsecond).exists_watch (sessions .reference reference) n
  refine ⟨_, _, hrun, hrun', ?_, timeouts_bounded (G := fun _ _ => True) .reference hrun hrun' ?_⟩
  · rw [secondSession, List.count_append, List.count_append, List.count_replicate]
    rfl
  · exact Or.inr (by rw [timeoutBehind, ← List.append_assoc, List.getLast?_concat])

/-- **The program can always come to rest**: without any further message, and in at most 3000
    ticks, it can reach a state with an empty queue in which heating is not active. -/
theorem heating_can_end {s : System K}
    (h : Run (step Z K) (Program.Allowed (pass Z) (spec.RoomAtExpiry 1))
      (start K buf) as s) :
    ∃ bs s', Run (step Z K) Program.NoInput s bs s' ∧ bs.count .tick ≤ 3000 ∧
      s'.queue = [] ∧ s'.timer 1 = none ∧ (s'.leaf = .off ∨ s'.leaf = .doorOpened) := by
  obtain ⟨bs, hrun, _⟩ := Program.run_reactor microwaveStateMachine_plain h
  have hdl : ∀ s, ∀ d ∈ spec.timeouts s, d.index = 1 → d.deadline ≤ 3000 :=
    fun s d hd hi => (deadline_eq s d hd hi).1.le
  obtain ⟨cs, v, hrest, hticks, hempty, hout⟩ := exists_rest entryExit exclusive endedByExpiry
    (by decide) hdl not_ownerActive_fire hrun
  obtain ⟨cs', s', hrun', rfl, hcount⟩ :=
    Program.run_of_view microwaveStateMachine_plain (pass Z) hrest
  have hall : Run (step Z K) Anything (start K buf) (as ++ cs') s' :=
    (h.mono fun _ _ _ => trivial).append (hrun'.mono fun _ _ _ => trivial)
  have hreach : Run spec.step Anything spec.start (bs ++ cs) s'.view :=
    (hrun.mono fun _ _ _ => trivial).append (hrest.mono fun _ _ _ => trivial)
  rw [ownerActive_iff] at hout
  refine ⟨cs', s', hrun', hcount.trans_le hticks, hempty, ?_, ?_⟩
  · -- an armed timeout would have an active owner
    rw [← Option.not_isSome_iff_eq_none]
    intro harmed
    exact hout ((ownerActive_iff _).1 (owner_of_armed entryExit hreach harmed))
  · rcases run_isLeaf hall with hl | hl | hl | hl
    · exact Or.inl hl
    · exact absurd (Or.inl hl) hout
    · exact absurd (Or.inr hl) hout
    · exact Or.inr hl

/-- Also from toasting, with a second `toast` waiting. -/
theorem heating_can_end_toast : ∃ s,
    Run (step .reference reference)
        (Program.Allowed (pass .reference) (spec.RoomAtExpiry 1))
        (start reference Buffer.zero)
        [.recv (.message (bytes "toast")), .recv (.message (bytes "toast")), .consume] s ∧
      s.leaf = .toasting ∧
      ∃ bs s', Run (step .reference reference) Program.NoInput s bs s' ∧
        bs.count .tick ≤ 3000 ∧ s'.queue = [] ∧ s'.timer 1 = none ∧
          (s'.leaf = .off ∨ s'.leaf = .doorOpened) := by
  have hexec : (execute (step .reference reference)
      (Program.Allowed (pass .reference) (spec.RoomAtExpiry 1))
      (start reference Buffer.zero)
      [.recv (.message (bytes "toast")), .recv (.message (bytes "toast")), .consume]).map
        Program.System.leaf = some .toasting := by decide
  obtain ⟨s, hrun, hl⟩ := Run.of_execute_map hexec
  exact ⟨s, hrun, hl, heating_can_end hrun⟩

end Runs

end QuarkTS.Microwave
