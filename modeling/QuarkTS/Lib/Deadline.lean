import QuarkTS.Lib.Reactor

/-!
# How long a state with a timeout stays active

The results are about a timer `i` that every owner arms on entry and disarms on exit.  A
`Stopwatch` counts, next to a run, the ticks since an owner was entered and those of them that
passed while the expiry was due or its event was waiting (`late`).

* `ticks_le_deadline` — an owner that the expiry event ends is active for at most its deadline and
  the late ticks, if no expiry is lost to a full queue;
* `expiries_le_ticks` — from every moment on, a timer runs out at most once in `n` ticks, if no
  deadline is below `n`;
* `expiries_le_entries` — from every moment on at which it is not armed, a timer that is not
  periodic runs out at most once for each time that an owner is entered;
* `armed_iff_owner` — a periodic timer is armed exactly while an owner is active;
* `exists_rest` — an owner that the expiry event ends can always be brought to an end without any
  further post, in at most its deadline.
-/

set_option autoImplicit false

namespace Reactor

open Statechart Runs

namespace Timeout

/-- A timer that is set afresh on entry. -/
theorem onEntry_restart {d : Timeout} (h : d.EntryExit) (hk : d.keepIfSet = false) (tm : Timers) :
    onEntry tm d d.index = some ⟨d.deadline, 0, d.periodic⟩ := by
  simp [onEntry, h.setEntry, h.rstEntry, set, hk]

/-- Entries that do not concern a timer leave it alone. -/
theorem foldl_onEntry_other {i : Nat} {ds : List Timeout} (hds : ∀ d ∈ ds, d.index ≠ i)
    (tm : Timers) : ds.foldl onEntry tm i = tm i := by
  induction ds generalizing tm with
  | nil => rfl
  | cons d ds ih =>
    rw [List.foldl_cons, ih fun e he => hds e (List.mem_cons_of_mem _ he)]
    exact onEntry_other (hds d List.mem_cons_self) tm

/-- After a list of entries a timer that is set afresh has the deadline of its definitions. -/
theorem foldl_onEntry_restart {i D : Nat} {ds : List Timeout}
    (hds : ∀ d ∈ ds, d.index = i → d.EntryExit ∧ d.deadline = D ∧ d.keepIfSet = false)
    (hex : ∃ d ∈ ds, d.index = i) (tm : Timers) :
    ∃ p, ds.foldl onEntry tm i = some ⟨D, 0, p⟩ := by
  induction ds generalizing tm with
  | nil => simp at hex
  | cons d ds ih =>
    have htail : ∀ e ∈ ds, e.index = i → e.EntryExit ∧ e.deadline = D ∧ e.keepIfSet = false :=
      fun e he => hds e (List.mem_cons_of_mem _ he)
    rw [List.foldl_cons]
    by_cases hlater : ∃ e ∈ ds, e.index = i
    · exact ih htail hlater _
    · -- `d` is the last definition of the timer
      have hnone : ∀ e ∈ ds, e.index ≠ i := fun e he hi => hlater ⟨e, he, hi⟩
      have hi : d.index = i := by
        obtain ⟨e, he, hi⟩ := hex
        rcases List.mem_cons.1 he with rfl | he
        · exact hi
        · exact absurd hi (hnone e he)
      obtain ⟨hd, hD, hk⟩ := hds d List.mem_cons_self hi
      subst hi
      exact ⟨d.periodic, by rw [foldl_onEntry_other hnone, onEntry_restart hd hk, hD]⟩

end Timeout

namespace Spec

variable {S E : Type} (P : Spec S E) [DecidableEq S] [DecidableEq E]

/-- Every definition of timer `i` has the deadline `D` and sets the timer afresh. -/
def Restarts (i D : Nat) : Prop :=
  ∀ s, ∀ d ∈ P.timeouts s, d.index = i → d.deadline = D ∧ d.keepIfSet = false

/-- The states that an action enters. -/
def enteredBy (st : State S E P.capacity) : Action E → List S
  | .consume =>
    match st.queue.items.head?.bind (P.chart.lookup st.leaf) with
    | some t => P.chart.entered st.leaf t
    | none => []
  | _ => []

/-- An action enters an owner of timer `i`. -/
def OwnerEntered (i : Nat) (st : State S E P.capacity) (a : Action E) : Prop :=
  ∃ s ∈ P.enteredBy st a, P.Owns s i

instance (i : Nat) (st : State S E P.capacity) (a : Action E) : Decidable (P.OwnerEntered i st a) :=
  inferInstanceAs (Decidable (∃ s ∈ P.enteredBy st a, P.Owns s i))

/-- Timer `i` has run out and its event has not been taken yet. -/
def Overdue (i : Nat) (st : State S E P.capacity) : Prop :=
  P.expiry i ∈ st.queue.items ∨ ∃ t ∈ st.timers i, t.deadline ≤ t.elapsed

instance (i : Nat) (st : State S E P.capacity) : Decidable (P.Overdue i st) :=
  inferInstanceAs (Decidable (_ ∨ ∃ t ∈ st.timers i, t.deadline ≤ t.elapsed))

instance (i : Nat) (st : State S E P.capacity) (a : Action E) : Decidable (P.RoomAtExpiry i st a) :=
  inferInstanceAs (Decidable (a = .expire i → _ ∨ _))

end Spec

/-- The ticks since an owner was entered, and the late ones among them. -/
structure Stopwatch where
  ticks : Nat
  late : Nat
  deriving DecidableEq, Repr

namespace Spec

variable {S E : Type} {P : Spec S E} [DecidableEq S] [DecidableEq E]
  {st st' : State S E P.capacity} {a : Action E} {i D : Nat}

/-- The stopwatch starts afresh when an owner is entered. -/
def timed (P : Spec S E) (i : Nat) (st : State S E P.capacity) (a : Action E)
    (_ : State S E P.capacity) (c : Stopwatch) : Stopwatch :=
  if P.OwnerEntered i st a then ⟨0, 0⟩
  else if a = .tick then ⟨c.ticks + 1, if P.Overdue i st then c.late + 1 else c.late⟩
  else c

theorem enteredBy_consume {e : E} {q : List E} {t : S} (hq : st.queue.items = e :: q)
    (hk : P.chart.lookup st.leaf e = some t) :
    P.enteredBy st .consume = P.chart.entered st.leaf t := by
  rw [enteredBy, hq, List.head?_cons, Option.bind_some, hk]

theorem enteredBy_consume_none {e : E} {q : List E} (hq : st.queue.items = e :: q)
    (hk : P.chart.lookup st.leaf e = none) : P.enteredBy st .consume = [] := by
  rw [enteredBy, hq, List.head?_cons, Option.bind_some, hk]

theorem not_ownerEntered (ha : a ≠ .consume) : ¬ P.OwnerEntered i st a := by
  rintro ⟨s, hs, _⟩
  cases a with
  | consume => exact ha rfl
  | post e => cases hs
  | tick => cases hs
  | expire j => cases hs

theorem timed_other (ha : a ≠ .tick) (hent : ¬ P.OwnerEntered i st a) (c : Stopwatch) :
    P.timed i st a st' c = c := by
  rw [timed, if_neg hent, if_neg ha]

omit [DecidableEq S] [DecidableEq E] in
theorem enter_restart (h : P.EntryExit i) (hD : P.Restarts i D) {ss : List S}
    (hex : ∃ s ∈ ss, P.Owns s i) (tm : Timers) : ∃ p, P.enter ss tm i = some ⟨D, 0, p⟩ := by
  refine Timeout.foldl_onEntry_restart (fun d hd hi => ?_) ((exists_mem_flatMap ss).2 hex) tm
  obtain ⟨s, _, hs⟩ := List.mem_flatMap.1 hd
  obtain ⟨hdl, hk⟩ := hD s d hs hi
  exact ⟨h s d hs hi, hdl, hk⟩

/-- An event that enters and leaves no owner does not change the timer. -/
theorem react_timer_same (h : P.EntryExit i) {e : E} {t : S}
    (hk : P.chart.lookup st.leaf e = some t) (hout : ∀ s ∈ P.chart.exited st.leaf t, ¬ P.Owns s i)
    (hin : ∀ s ∈ P.chart.entered st.leaf t, ¬ P.Owns s i) :
    (P.react st e).timers i = st.timers i := by
  have hleave : P.leave (P.chart.exited st.leaf t) st.timers i = st.timers i := by
    rw [leave_eq h, if_neg]
    rintro ⟨s, hs, ho⟩
    exact hout s hs ho
  rw [react_of_lookup hk, enter, Timeout.foldl_onEntry_other, hleave]
  intro d hd hi
  obtain ⟨s, hs, ho⟩ := (exists_mem_flatMap _).1 ⟨d, hd, hi⟩
  exact hin s hs ho

end Spec

/-! ## Runs -/

section Run

variable {S E : Type} [DecidableEq S] [DecidableEq E] {P : Spec S E} {i D : Nat}
  {G : State S E P.capacity → Spec.Action E → Prop} {as : List (Spec.Action E)}
  {st : State S E P.capacity} {w : State S E P.capacity × Stopwatch}

open Spec

/-- While an owner is active it is not overdue by more than the late ticks, and its event waits or
    its timer has counted all the ticks. -/
def OnTime (P : Spec S E) (i D : Nat) (st : State S E P.capacity) (c : Stopwatch) : Prop :=
  c.ticks ≤ D + c.late ∧
    (P.expiry i ∈ st.queue.items ∨
      ∃ t, st.timers i = some t ∧ t.deadline = D ∧ t.elapsed = c.ticks)

/-- The step of `ticks_le_deadline` in which an event is taken from the queue. -/
theorem onTime_consume {st st' : State S E P.capacity} {c : Stopwatch} (h : P.EntryExit i)
    (hx : P.Exclusive i) (hend : P.EndedByExpiry i) (hD : P.Restarts i D)
    (ih : P.OwnerActive st.leaf i → OnTime P i D st c) (hs : P.step st .consume = some st')
    (ha : P.OwnerActive st'.leaf i) : OnTime P i D st' (P.timed i st .consume st' c) := by
  obtain ⟨e, mid, hq, hl, htm, rfl⟩ := consume_cases hs
  cases hk : P.chart.lookup mid.leaf e with
  | none =>
    have hent : ¬ P.OwnerEntered i st .consume := by
      rintro ⟨s, hs, _⟩
      rw [enteredBy_consume_none hq (hl ▸ hk)] at hs
      cases hs
    rw [timed_other (by simp) hent]
    rw [react_of_lookup_none hk] at ha ⊢
    obtain ⟨hle, hwait⟩ := ih (hl ▸ ha)
    refine ⟨hle, ?_⟩
    rw [htm]
    rcases hwait with hm | harm
    · rw [hq] at hm
      rcases List.mem_cons.1 hm with rfl | hm
      · -- the event at the front is the expiry, but it finds no transition
        obtain ⟨s, hs, ho⟩ := ha
        obtain ⟨t, hlk, _⟩ := hend _ s hs ho
        rw [hk] at hlk
        cases hlk
      · exact Or.inl hm
    · exact Or.inr harm
  | some t =>
    by_cases hent : P.OwnerEntered i st .consume
    · rw [timed, if_pos hent]
      have hent' := hent
      obtain ⟨s, hs, ho⟩ := hent'
      rw [enteredBy_consume hq (hl ▸ hk)] at hs
      obtain ⟨p, hp⟩ := enter_restart h hD ⟨s, hl ▸ hs, ho⟩
        (P.leave (P.chart.exited mid.leaf t) mid.timers)
      rw [← react_of_lookup hk] at hp
      exact ⟨Nat.zero_le _, Or.inr ⟨_, hp, rfl, rfl⟩⟩
    · rw [timed_other (by simp) hent]
      have hin : ∀ s ∈ P.chart.entered mid.leaf t, ¬ P.Owns s i := by
        intro s hs ho
        exact hent ⟨s, by rwa [enteredBy_consume hq (hl ▸ hk), ← hl], ho⟩
      rw [react_leaf, P.chart.fire_of_lookup hk] at ha
      obtain ⟨s, hs, ho⟩ := ha
      obtain ⟨hold, hkept⟩ := (P.chart.mem_path_settle_iff.1 hs).resolve_right
        fun hs => hin s hs ho
      -- the owner stays, so no other owner was there to be left
      have hout : ∀ s' ∈ P.chart.exited mid.leaf t, ¬ P.Owns s' i := by
        intro s' hs' ho'
        have hsame := hx _ s hold s' (P.chart.mem_exited.1 hs').1 ho ho'
        exact hkept (hsame ▸ hs')
      obtain ⟨hle, hwait⟩ := ih ⟨s, hl ▸ hold, ho⟩
      refine ⟨hle, ?_⟩
      rw [react_queue, react_timer_same h hk hout hin, htm]
      rcases hwait with hm | harm
      · rw [hq] at hm
        rcases List.mem_cons.1 hm with rfl | hm
        · obtain ⟨t', hlk, hex⟩ := hend _ s hold ho
          rw [hk] at hlk
          cases hlk
          exact absurd hex hkept
        · exact Or.inl hm
      · exact Or.inr harm

/-- **An owner is active for at most its deadline and the late ticks**, if its expiry event ends it
    and no expiry is lost to a full queue. -/
theorem ticks_le_deadline (h : P.EntryExit i) (hx : P.Exclusive i) (hend : P.EndedByExpiry i)
    (hD : P.Restarts i D)
    (hr : Run (watch P.step (P.timed i)) (fun w a => P.RoomAtExpiry i w.1 a) (P.start, ⟨0, 0⟩) as w)
    (ha : P.OwnerActive w.1.leaf i) : w.2.ticks ≤ D + w.2.late := by
  suffices hinv : P.OwnerActive w.1.leaf i → OnTime P i D w.1 w.2 from (hinv ha).1
  refine hr.invariant (fun _ w => P.OwnerActive w.1.leaf i → OnTime P i D w.1 w.2) ?_ ?_
  · rintro ⟨s, hs, ho⟩
    rw [start_leaf, P.chart.mem_path_settle] at hs
    have hmem : s ∈ (P.chart.path P.initial).reverse ++ P.chart.substates P.initial := by
      simpa [or_comm] using hs
    obtain ⟨p, hp⟩ := enter_restart h hD ⟨s, hmem, ho⟩ fun _ => none
    exact ⟨Nat.zero_le _, Or.inr ⟨_, hp, rfl, rfl⟩⟩
  · rintro _ ⟨st, c⟩ a ⟨st', c'⟩ ih hroom hstep ha
    obtain ⟨hs, hrec⟩ := watch_eq_some.1 hstep
    dsimp only at hs hrec ih ha hroom ⊢
    subst hrec
    cases a with
    | post e =>
      cases hs
      obtain ⟨hle, hwait⟩ := ih ha
      rw [timed_other (by simp) (not_ownerEntered (by simp))]
      exact ⟨hle, hwait.imp_left fun hm => Fifo.mem_push_of_mem hm⟩
    | tick =>
      cases hs
      obtain ⟨hle, hwait⟩ := ih ha
      rw [timed, if_neg (not_ownerEntered (by simp)), if_pos rfl]
      refine ⟨?_, hwait.imp_right ?_⟩
      · by_cases hlate : P.Overdue i st
        · rw [if_pos hlate]
          dsimp only
          omega
        · -- the timer still runs and has counted all the ticks, fewer than `D`
          rw [if_neg hlate]
          rcases hwait with hm | ⟨t, ht, hdl, hel⟩
          · exact absurd (Or.inl hm) hlate
          · have hlt : t.elapsed < t.deadline := by
              by_contra hge
              exact hlate (Or.inr ⟨t, ht, by omega⟩)
            dsimp only
            omega
      · rintro ⟨t, ht, hdl, hel⟩
        exact ⟨{ t with elapsed := t.elapsed + 1 }, by rw [tick_timers, ht]; rfl, hdl,
          by simp [hel]⟩
    | expire j =>
      obtain ⟨t, ht, _, hl, hq, htm⟩ := expire_cases hs
      obtain ⟨hle, hwait⟩ := ih (hl ▸ ha)
      rw [timed_other (by simp) (not_ownerEntered (by simp))]
      refine ⟨hle, ?_⟩
      by_cases hj : i = j
      · subst hj
        left
        rw [hq]
        rcases hroom rfl with hlt | hm
        · rw [Fifo.push_items_of_lt hlt]
          simp
        · exact Fifo.mem_push_of_mem hm
      · rw [hq, htm, Function.update_of_ne hj]
        exact hwait.imp_left fun hm => Fifo.mem_push_of_mem hm
    | consume => exact onTime_consume h hx hend hD ih hs ha

/-! ## How often a timer runs out -/

/-- The ticks that timer `i` has counted. -/
def counted (tm : Timers) (i : Nat) : Nat := (tm i).elim 0 fun t => t.elapsed

theorem counted_elapse (tm : Timers) : counted (elapse 1 tm) i ≤ counted tm i + 1 := by
  unfold counted elapse
  cases tm i <;> simp

/-- Setting and resetting a timer never makes it count ahead. -/
theorem counted_set (d : Timeout) (tm : Timers) : counted (d.set tm) i ≤ counted tm i := by
  unfold counted Timeout.set
  split
  · exact Nat.le_refl _
  · by_cases hi : i = d.index
    · subst hi; simp
    · rw [Function.update_of_ne hi]

theorem counted_reset (d : Timeout) (tm : Timers) : counted (d.reset tm) i ≤ counted tm i := by
  unfold counted Timeout.reset
  by_cases hi : i = d.index
  · subst hi; simp
  · rw [Function.update_of_ne hi]

theorem counted_foldl {f : Timers → Timeout → Timers}
    (hf : ∀ tm d, counted (f tm d) i ≤ counted tm i) (ds : List Timeout) (tm : Timers) :
    counted (ds.foldl f tm) i ≤ counted tm i := by
  induction ds generalizing tm with
  | nil => exact Nat.le_refl _
  | cons d ds ih => exact (ih _).trans (hf tm d)

/-- What entering and leaving a state have in common. -/
theorem counted_options (setting resetting : Bool) (tm : Timers) (d : Timeout) :
    counted (if resetting then d.reset (if setting then d.set tm else tm)
      else if setting then d.set tm else tm) i ≤ counted tm i := by
  have hset : counted (if setting then d.set tm else tm) i ≤ counted tm i := by
    split
    · exact counted_set d tm
    · exact Nat.le_refl _
  split
  · exact (counted_reset d _).trans hset
  · exact hset

theorem counted_onEntry (tm : Timers) (d : Timeout) :
    counted (Timeout.onEntry tm d) i ≤ counted tm i :=
  counted_options d.setEntry d.rstEntry tm d

theorem counted_onExit (tm : Timers) (d : Timeout) :
    counted (Timeout.onExit tm d) i ≤ counted tm i :=
  counted_options d.setExit d.rstExit tm d

theorem counted_react (st : State S E P.capacity) (e : E) :
    counted (P.react st e).timers i ≤ counted st.timers i := by
  cases hk : P.chart.lookup st.leaf e with
  | none => rw [react_of_lookup_none hk]
  | some t =>
    rw [react_of_lookup hk]
    exact (counted_foldl counted_onEntry _ _).trans (counted_foldl counted_onExit _ _)

omit [DecidableEq S] [DecidableEq E] in
theorem counted_start : counted P.start.timers i = 0 := by
  have hle : counted P.start.timers i ≤ counted (fun _ => none) i :=
    counted_foldl counted_onEntry _ _
  exact Nat.le_zero.1 hle

omit [DecidableEq S] [DecidableEq E] in
/-- A timer that has just run out starts to count afresh. -/
theorem counted_expire {st' : State S E P.capacity} (h : P.expire st i = some st') :
    counted st'.timers i = 0 := by
  obtain ⟨t, _, _, _, _, htm⟩ := expire_cases h
  rw [htm, counted, Function.update_self]
  split <;> rfl

/-- **A timer runs out at most once in `D` ticks**, from every state of a run on, if no state gives
    it a shorter deadline. -/
theorem expiries_le_ticks (hD : ∀ s, ∀ d ∈ P.timeouts s, d.index = i → D ≤ d.deadline)
    {G₀ : State S E P.capacity → Spec.Action E → Prop} {st₀ : State S E P.capacity}
    {as₀ : List (Spec.Action E)} (hr₀ : Run P.step G₀ P.start as₀ st₀)
    (hr : Run P.step G st₀ as st) :
    D * as.count (.expire i) + counted st.timers i ≤ as.count .tick + counted st₀.timers i := by
  induction hr with
  | nil => simp
  | @snoc as st st' a hr hg hs ih =>
    cases a with
    | post e =>
      cases hs
      have hsame : counted (P.post st e).1.timers i = counted st.timers i := rfl
      simpa [List.count_append, hsame] using ih
    | tick =>
      cases hs
      have hstep : counted (P.tick st).timers i ≤ counted st.timers i + 1 := counted_elapse _
      have htick : (as ++ [Action.tick]).count Action.tick = as.count Action.tick + 1 := by
        simp
      have hexpire :
          (as ++ [Action.tick]).count (Action.expire i) = as.count (Action.expire i) := by
        simp [List.count_append]
      rw [htick, hexpire]
      omega
    | expire j =>
      obtain ⟨t, ht, hdue, _, _, htm⟩ := expire_cases hs
      by_cases hj : i = j
      · subst hj
        have hall : Run P.step Anything P.start (as₀ ++ as) st :=
          (hr₀.mono fun _ _ _ => trivial).append (hr.mono fun _ _ _ => trivial)
        obtain ⟨s, d, hd, hi, hdl, _⟩ := armed_as_defined hall ht
        have hle : D ≤ t.elapsed := by
          have := hD s d hd hi
          omega
        have hzero : counted st'.timers i = 0 := counted_expire hs
        have hold : counted st.timers i = t.elapsed := by rw [counted, ht]; rfl
        have htick : (as ++ [Action.expire i]).count Action.tick = as.count Action.tick := by
          simp [List.count_append]
        have hexpire : (as ++ [Action.expire i]).count (Action.expire i) =
            as.count (Action.expire i) + 1 := by simp
        rw [htick, hexpire, hzero, Nat.mul_succ]
        omega
      · have hsame : counted st'.timers i = counted st.timers i := by
          rw [counted, htm, Function.update_of_ne hj, counted]
        have hne : (Action.expire j : Action E) ≠ .expire i := by
          simpa using Ne.symm hj
        simpa [List.count_append, List.count_singleton, hne, hsame] using ih
    | consume =>
      obtain ⟨e, mid, _, _, htm, rfl⟩ := consume_cases hs
      have hle := counted_react (i := i) mid e
      rw [htm] at hle
      simp [List.count_append]
      omega

/-- Counts the entries into owners of timer `i`. -/
def entries (P : Spec S E) (i : Nat) (st : State S E P.capacity) (a : Spec.Action E)
    (_ : State S E P.capacity) (n : Nat) : Nat :=
  if P.OwnerEntered i st a then n + 1 else n

/-- **A timer that is not periodic runs out at most once for each entry into an owner**, from every
    state of a run on in which it is not armed. -/
theorem expiries_le_entries (h : P.EntryExit i)
    (hp : ∀ s, ∀ d ∈ P.timeouts s, d.index = i → d.periodic = false)
    {G₀ : State S E P.capacity → Spec.Action E → Prop} {as₀ : List (Spec.Action E)}
    {w₀ w : State S E P.capacity × Nat} (hr₀ : Run P.step G₀ P.start as₀ w₀.1)
    (hnone : w₀.1.timers i = none)
    (hr : Run (watch P.step (entries P i)) (fun w a => G w.1 a) w₀ as w) :
    w₀.2 + as.count (.expire i) + (if (w.1.timers i).isSome then 1 else 0) ≤ w.2 := by
  induction hr with
  | nil => simp [hnone]
  | @snoc as w w' a hr hg hstep ih =>
    obtain ⟨hs, hrec⟩ := watch_eq_some.1 hstep
    rw [hrec]
    cases a with
    | post e =>
      have hsame : w'.1.timers = w.1.timers := by rw [← Option.some.inj hs]; rfl
      rw [entries, if_neg (not_ownerEntered (by simp)), hsame]
      simpa [List.count_append] using ih
    | tick =>
      have hsame : (w'.1.timers i).isSome = (w.1.timers i).isSome := by
        rw [← Option.some.inj hs, tick_timers, Option.isSome_map]
      rw [entries, if_neg (not_ownerEntered (by simp)), hsame]
      simpa [List.count_append] using ih
    | expire j =>
      obtain ⟨t, ht, _, _, _, htm⟩ := expire_cases hs
      rw [entries, if_neg (not_ownerEntered (by simp))]
      by_cases hj : i = j
      · -- the timer that runs out was armed and is not armed any more
        subst hj
        have hall : Run P.step Anything P.start (as₀ ++ as) w.1 :=
          (hr₀.mono fun _ _ _ => trivial).append (hr.of_watch.mono fun _ _ _ => trivial)
        obtain ⟨s, d, hd, hi, _, hper⟩ := armed_as_defined hall ht
        have hgone : w'.1.timers i = none := by
          rw [htm, Function.update_self, hper, hp s d hd hi]
          rfl
        have hcount : (as ++ [Action.expire i]).count (Action.expire i) =
            as.count (Action.expire i) + 1 := by simp
        rw [ht, Option.isSome_some, if_pos rfl] at ih
        rw [hgone, hcount]
        simpa [Nat.add_assoc] using ih
      · have hne : (Action.expire j : Action E) ≠ .expire i := by
          simpa using Ne.symm hj
        rw [htm, Function.update_of_ne hj]
        simpa [List.count_append, List.count_singleton, hne] using ih
    | consume =>
      obtain ⟨e, mid, hq, hl, htm, hreact⟩ := consume_cases hs
      have hcount :
          (as ++ [Action.consume]).count (Action.expire i) = as.count (Action.expire i) := by
        simp [List.count_append]
      rw [hcount]
      by_cases hent : P.OwnerEntered i w.1 .consume
      · rw [entries, if_pos hent]
        have hold : w₀.2 + as.count (.expire i) ≤ w.2 := (Nat.le_add_right _ _).trans ih
        split <;> omega
      · rw [entries, if_neg hent]
        refine (Nat.add_le_add_left ?_ _).trans ih
        -- no owner is entered, so the timer is not armed by this event
        have hmono : (w'.1.timers i).isSome → (w.1.timers i).isSome := by
          rw [hreact, ← htm]
          cases hk : P.chart.lookup mid.leaf e with
          | none => rw [react_of_lookup_none hk]; exact id
          | some t =>
            intro ha
            rcases (react_isSome h hk).1 ha with ⟨hold, _⟩ | ⟨s, hs, ho⟩
            · exact hold
            · refine absurd ⟨s, ?_, ho⟩ hent
              rwa [enteredBy_consume hq (hl ▸ hk), ← hl]
        by_cases ha : (w'.1.timers i).isSome
        · rw [if_pos ha, if_pos (hmono ha)]
        · rw [if_neg ha]
          exact Nat.zero_le _

/-- **A periodic timer is armed exactly while an owner is active.** -/
theorem armed_iff_owner (h : P.EntryExit i) (hx : P.Exclusive i)
    (hp : ∀ s, ∀ d ∈ P.timeouts s, d.index = i → d.periodic = true)
    (hr : Run P.step G P.start as st) : (st.timers i).isSome ↔ P.OwnerActive st.leaf i := by
  refine ⟨owner_of_armed h hr, fun ha => ?_⟩
  induction hr with
  | nil =>
    obtain ⟨s, hs, ho⟩ := ha
    rw [start_leaf, P.chart.mem_path_settle] at hs
    exact (enter_isSome h _ _).2 (Or.inr ⟨s, by simpa [or_comm] using hs, ho⟩)
  | @snoc as st st' a hr hg hs ih =>
    cases a with
    | post e => cases hs; exact ih ha
    | tick => cases hs; simpa using ih ha
    | expire j =>
      obtain ⟨t, ht, _, hl, _, htm⟩ := expire_cases hs
      rw [htm]
      by_cases hj : i = j
      · subst hj
        obtain ⟨s, d, hd, hi, _, hper⟩ := armed_as_defined hr ht
        rw [Function.update_self, hper, hp s d hd hi]
        rfl
      · rw [Function.update_of_ne hj]
        exact ih (hl ▸ ha)
    | consume =>
      obtain ⟨e, mid, _, hl, htm, rfl⟩ := consume_cases hs
      rw [← hl, ← htm] at ih
      cases hk : P.chart.lookup mid.leaf e with
      | none =>
        rw [react_of_lookup_none hk] at ha ⊢
        exact ih ha
      | some t =>
        rw [react_leaf, P.chart.fire_of_lookup hk] at ha
        obtain ⟨s, hs, ho⟩ := ha
        refine (react_isSome h hk).2 ?_
        rcases P.chart.mem_path_settle_iff.1 hs with ⟨hold, hkept⟩ | hent
        · refine Or.inl ⟨ih ⟨s, hold, ho⟩, fun s' hs' ho' => hkept ?_⟩
          rwa [hx _ s hold s' (P.chart.mem_exited.1 hs').1 ho ho']
        · exact Or.inr ⟨s, hent, ho⟩

/-! ## Coming to rest -/

/-- Nothing is posted. -/
def Unattended (_ : State S E P.capacity) (a : Spec.Action E) : Prop := ∀ e, a ≠ .post e

theorem exists_consume {e : E} {q : List E} (hq : st.queue.items = e :: q) :
    ∃ st', P.step st .consume = some st' ∧ st'.queue.items = q ∧
      st'.leaf = P.chart.fire st.leaf e := by
  have hle : q.length ≤ P.capacity := by
    have hbound := st.queue.bounded
    rw [hq, List.length_cons] at hbound
    omega
  have hreceive : P.receive st = some (e, { st with queue := ⟨q, hle⟩ }) :=
    receive_eq_some.2 ⟨hq, rfl, rfl⟩
  refine ⟨P.react { st with queue := ⟨q, hle⟩ } e, ?_, by rw [react_queue], react_leaf⟩
  rw [Spec.step, hreceive, Option.map_some]

/-- The queue can be emptied. -/
theorem exists_drain (st : State S E P.capacity) :
    ∃ st', Run P.step (fun _ a => a = .consume) st
        (List.replicate st.queue.items.length .consume) st' ∧ st'.queue.items = [] := by
  generalize hq : st.queue.items = q
  induction q generalizing st with
  | nil => exact ⟨st, .nil, hq⟩
  | cons e q ih =>
    obtain ⟨u, hu, hrest, _⟩ := exists_consume hq
    obtain ⟨st', hrun, hempty⟩ := ih u hrest
    refine ⟨st', ?_, hempty⟩
    have hone : Run P.step (fun _ a => a = .consume) st [.consume] u := .single rfl hu
    rw [List.length_cons, List.replicate_succ]
    exact hone.append hrun

theorem run_ticks (st : State S E P.capacity) (n : Nat) :
    Run P.step Unattended st (List.replicate n .tick) { st with timers := elapse n st.timers } := by
  induction n with
  | zero =>
    rw [elapse_zero]
    exact .nil
  | succ n ih =>
    rw [List.replicate_succ', ← elapse_elapse]
    exact ih.snoc (fun _ => by simp) rfl

/-- A timer that is armed in a state with an empty queue can run out and have its event taken. -/
theorem exists_expiry {t : Timer} (hcap : 0 < P.capacity) (hq : st.queue.items = [])
    (ht : st.timers i = some t) :
    ∃ bs st', Run P.step Unattended st bs st' ∧ bs.count .tick ≤ t.deadline ∧
      st'.queue.items = [] ∧ st'.leaf = P.chart.fire st.leaf (P.expiry i) := by
  obtain ⟨u, hu⟩ : ∃ u, u = { st with timers := elapse (t.deadline - t.elapsed) st.timers } :=
    ⟨_, rfl⟩
  have hticks := run_ticks st (t.deadline - t.elapsed)
  rw [← hu] at hticks
  have htimer : u.timers i = some { t with elapsed := t.elapsed + (t.deadline - t.elapsed) } := by
    rw [hu]
    simp only [elapse, ht, Option.map_some]
  have hdue : t.deadline ≤ t.elapsed + (t.deadline - t.elapsed) := by omega
  obtain ⟨v, hv⟩ : ∃ v, P.expire u i = some v := by
    rw [expire, htimer]
    exact ⟨_, if_pos hdue⟩
  obtain ⟨_, _, _, hleaf, hqueue, _⟩ := expire_cases hv
  have hroom : u.queue.items.length < P.capacity := by
    rw [hu, hq]
    exact hcap
  have hone : v.queue.items = [P.expiry i] := by
    rw [hqueue, Fifo.push_items_of_lt hroom, hu, hq]
    rfl
  obtain ⟨w, hw, hempty, hfire⟩ := exists_consume hone
  have hexpire : Run P.step Unattended u [.expire i] v := .single (fun _ => by simp) hv
  have hconsume : Run P.step Unattended v [.consume] w := .single (fun _ => by simp) hw
  refine ⟨_, w, (hticks.append hexpire).append hconsume, ?_, hempty, ?_⟩
  · simp [List.count_append]
  · rw [hfire, hleaf, hu]

/-- **An owner can be brought to an end without any further post**, in at most its deadline, from
    every state that is reached without a lost expiry. -/
theorem exists_rest (h : P.EntryExit i) (hx : P.Exclusive i) (hend : P.EndedByExpiry i)
    (hcap : 0 < P.capacity) (hD : ∀ s, ∀ d ∈ P.timeouts s, d.index = i → d.deadline ≤ D)
    (hout : ∀ leaf, P.OwnerActive leaf i → ¬ P.OwnerActive (P.chart.fire leaf (P.expiry i)) i)
    (hr : Run P.step (P.RoomAtExpiry i) P.start as st) :
    ∃ bs st', Run P.step Unattended st bs st' ∧ bs.count .tick ≤ D ∧ st'.queue.items = [] ∧
      ¬ P.OwnerActive st'.leaf i := by
  obtain ⟨u, hdrain, hempty⟩ := exists_drain st
  have hru : Run P.step (P.RoomAtExpiry i) P.start
      (as ++ List.replicate st.queue.items.length .consume) u :=
    hr.append (hdrain.mono fun _ _ ha hexp => by rw [ha] at hexp; cases hexp)
  have hdrain' : Run P.step Unattended st (List.replicate st.queue.items.length .consume) u :=
    hdrain.mono fun _ _ ha _ => by rw [ha]; simp
  have hnone :
      (List.replicate st.queue.items.length Action.consume).count (.tick : Action E) = 0 := by
    rw [List.count_replicate]
    rfl
  by_cases ha : P.OwnerActive u.leaf i
  · -- with an empty queue the timer of the active owner is armed
    have harmed := (armed_or_pending h hx hend hru ha).resolve_right (by rw [hempty]; simp)
    obtain ⟨t, ht⟩ := Option.isSome_iff_exists.1 harmed
    obtain ⟨s, d, hd, hi, hdl, _⟩ := armed_as_defined hru ht
    obtain ⟨bs, st', hrun, hcount, hq, hfire⟩ := exists_expiry hcap hempty ht
    refine ⟨_, st', hdrain'.append hrun, ?_, hq, ?_⟩
    · rw [List.count_append, hnone]
      have := hD s d hd hi
      omega
    · rw [hfire]
      exact hout _ ha
  · exact ⟨_, u, hdrain', by rw [hnone]; exact Nat.zero_le _, hempty, ha⟩

end Run

end Reactor
