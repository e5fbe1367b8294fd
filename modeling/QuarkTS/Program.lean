import QuarkTS.Kernel
import QuarkTS.Lib.Delivery
import QuarkTS.Lib.Deadline

/-!
# A program around one state machine

Every example program is a state machine task, a clock and a source of inputs (a message loop or
a signal handler of the operating system).  A `pass` is what the source does with one input: it
changes its buffer and sends at most one signal.  Runs of `step` are all interleavings of passes,
ticks, timers that run out and signals that the task takes from the queue.

* `run_view` — seen through its leaf, queue and timers, every run is a run of the reactor of the
  machine, with any history variable of the reactor next to it;
* `recv_cases`, `tick_cases`, `expire_cases`, `consume_cases` — what each action does to these;
* `run_of_view` — what the reactor can do by itself, the program can do without inputs;
* `run_drain` — the task can always empty the queue;
* `taken_sublist_issued`, `leaf_eq_fires_taken`, `taken_eq_issued` — what becomes of the signals.
-/

set_option autoImplicit false

namespace QuarkTS.Program

open Statechart Reactor Runs

variable {M Q S B I τ : Type} [DecidableEq S] {A : Machine M Q S}

/-- The buffer of the source and the state of the engine. -/
structure System (B : Type) (K : Kernel A) where
  buf : B
  kernel : K.State

inductive Action (I : Type) where
  | recv (x : I)
  | tick
  | expire (i : Nat)
  | consume
  deriving DecidableEq, Repr

/-- Send the signal, if there is one; the result of the call is not looked at. -/
def send (K : Kernel A) (k : K.State) : Option SigId → K.State
  | some e => (K.sendSignal k e false).1
  | none => k

def step (pass : B → I → B × Option SigId) (K : Kernel A) (s : System B K) :
    Action I → Option (System B K)
  | .recv x => some ⟨(pass s.buf x).1, send K s.kernel (pass s.buf x).2⟩
  | .tick => some { s with kernel := K.sysTick s.kernel }
  | .expire i => (K.expire s.kernel i).map fun k => { s with kernel := k }
  | .consume => (K.receive s.kernel).map fun p => { s with kernel := K.dispatch p.2 p.1 }

/-- The program after its set-up. -/
def start (K : Kernel A) (buf : B) : System B K := ⟨buf, K.start⟩

namespace System

variable {K : Kernel A}

def view (s : System B K) : Reactor.State S SigId A.spec.capacity := K.view s.kernel

/-- The active leaf. -/
def leaf (s : System B K) : S := s.view.leaf

/-- The signals that wait in the queue, oldest first. -/
def queue (s : System B K) : List SigId := s.view.queue.items

/-- The timeouts of the machine; `none` is a timeout that is not armed. -/
def timer (s : System B K) : Timers := s.view.timers

end System

/-- What an action does to the reactor, if anything. -/
def reactorAction {K : Kernel A} (pass : B → I → B × Option SigId) (s : System B K) :
    Action I → Option (Spec.Action SigId)
  | .recv x => (pass s.buf x).2.map .post
  | .tick => some .tick
  | .expire i => some (.expire i)
  | .consume => some .consume

/-- A history variable of the reactor, next to a run of the program. -/
def observe {K : Kernel A} (pass : B → I → B × Option SigId)
    (record : Reactor.State S SigId A.spec.capacity → Spec.Action SigId →
      Reactor.State S SigId A.spec.capacity → τ → τ)
    (s : System B K) (a : Action I) (s' : System B K) (t : τ) : τ :=
  match reactorAction pass s a with
  | some b => record s.view b s'.view t
  | none => t

/-- A guard of the reactor, as a guard of the program. -/
def Allowed {K : Kernel A} (pass : B → I → B × Option SigId)
    (H : Reactor.State S SigId A.spec.capacity → Spec.Action SigId → Prop) (s : System B K)
    (a : Action I) : Prop :=
  ∀ b ∈ reactorAction pass s a, H s.view b

instance {K : Kernel A} (pass : B → I → B × Option SigId)
    (H : Reactor.State S SigId A.spec.capacity → Spec.Action SigId → Prop)
    [∀ st b, Decidable (H st b)] (s : System B K) (a : Action I) : Decidable (Allowed pass H s a) :=
  inferInstanceAs (Decidable (∀ b ∈ reactorAction pass s a, H s.view b))

variable {K : Kernel A} {pass : B → I → B × Option SigId} {s s' : System B K} {a : Action I}
  {buf : B}

@[simp] theorem start_view : (start K buf).view = A.spec.start := K.view_start

@[simp] theorem start_leaf : (start K buf).leaf = A.chart.settle A.initial := by
  rw [System.leaf, start_view]
  rfl

@[simp] theorem start_queue : (start K buf).queue = [] := by
  rw [System.queue, start_view]
  rfl

theorem reactorAction_eq_tick : reactorAction pass s a = some .tick ↔ a = .tick := by
  cases a <;> simp [reactorAction]

theorem reactorAction_eq_expire {i : Nat} :
    reactorAction pass s a = some (.expire i) ↔ a = .expire i := by
  cases a <;> simp [reactorAction]

/-! ## What each action does -/

/-- An input that makes the source send nothing leaves the reactor alone. -/
theorem view_of_none (h : step pass K s a = some s') (hn : reactorAction pass s a = none) :
    s'.view = s.view := by
  cases a with
  | recv x =>
    cases h
    have hsent : (pass s.buf x).2 = none := by simpa [reactorAction] using hn
    rw [hsent]
    rfl
  | tick => cases hn
  | expire i => cases hn
  | consume => cases hn

theorem view_recv {x : I} {e : SigId} (h : step pass K s (.recv x) = some s')
    (hsent : (pass s.buf x).2 = some e) : s'.view = (A.spec.post s.view e).1 := by
  cases h
  rw [hsent]
  exact congrArg Prod.fst (K.view_sendSignal s.kernel e)

theorem view_tick (h : step pass K s .tick = some s') : s'.view = A.spec.tick s.view := by
  cases h
  exact K.view_sysTick _

theorem view_expire {i : Nat} (h : step pass K s (.expire i) = some s') :
    A.spec.expire s.view i = some s'.view := by
  obtain ⟨k, hk, rfl⟩ := Option.map_eq_some_iff.1 h
  have hview := K.view_expire s.kernel i
  rw [hk] at hview
  exact hview.symm

theorem view_consume (hA : A.Plain) (h : step pass K s .consume = some s') :
    A.spec.step s.view .consume = some s'.view := by
  obtain ⟨⟨e, k⟩, hk, rfl⟩ := Option.map_eq_some_iff.1 h
  have hreceive := K.view_receive s.kernel
  rw [hk] at hreceive
  rw [Spec.step, System.view, ← hreceive]
  exact congrArg some (K.view_dispatch hA k e).symm

/-- Every other action is one action of the reactor. -/
theorem view_of_some (hA : A.Plain) {b : Spec.Action SigId} (h : step pass K s a = some s')
    (hb : reactorAction pass s a = some b) : A.spec.step s.view b = some s'.view := by
  cases a with
  | recv x =>
    obtain ⟨e, hsent, rfl⟩ := Option.map_eq_some_iff.1 hb
    exact congrArg some (view_recv h hsent).symm
  | tick => cases hb; exact congrArg some (view_tick h).symm
  | expire i => cases hb; exact view_expire h
  | consume => cases hb; exact view_consume hA h

/-- The signal is appended to the queue, or lost because the queue is full. -/
def Queued (s s' : System B K) (e : SigId) : Prop :=
  s.queue.length < A.spec.capacity ∧ s'.queue = s.queue ++ [e] ∨
    ¬ s.queue.length < A.spec.capacity ∧ s'.queue = s.queue

theorem queued_of_push {e : SigId} (h : s'.view.queue = (s.view.queue.push e).1) :
    Queued s s' e := by
  have hq : s'.queue = (s.view.queue.push e).1.items := congrArg Fifo.items h
  by_cases hlt : s.queue.length < A.spec.capacity
  · exact Or.inl ⟨hlt, hq.trans (Fifo.push_items_of_lt hlt e)⟩
  · have hfull : s.view.queue.push e = (s.view.queue, false) := Fifo.push_of_full hlt e
    rw [hfull] at hq
    exact Or.inr ⟨hlt, hq⟩

/-- An input concerns the queue only. -/
theorem recv_cases {x : I} (h : step pass K s (.recv x) = some s') :
    s'.leaf = s.leaf ∧ s'.timer = s.timer ∧ ((pass s.buf x).2 = none → s'.queue = s.queue) ∧
      ∀ e, (pass s.buf x).2 = some e → Queued s s' e := by
  cases hsent : (pass s.buf x).2 with
  | none =>
    have hview : s'.view = s.view := view_of_none h (by rw [reactorAction, hsent]; rfl)
    exact ⟨congrArg State.leaf hview, congrArg State.timers hview,
      fun _ => congrArg (fun v => v.queue.items) hview, nofun⟩
  | some e =>
    have hview := view_recv h hsent
    refine ⟨?_, ?_, nofun, ?_⟩
    · rw [System.leaf, hview]; rfl
    · rw [System.timer, hview]; rfl
    · rintro _ ⟨⟩
      exact queued_of_push (congrArg State.queue hview)

theorem tick_cases (h : step pass K s .tick = some s') :
    s'.leaf = s.leaf ∧ s'.queue = s.queue ∧
      ∀ i, s'.timer i = (s.timer i).map fun t => { t with elapsed := t.elapsed + 1 } := by
  have hview := view_tick h
  refine ⟨?_, ?_, fun i => ?_⟩
  · rw [System.leaf, hview]; rfl
  · rw [System.queue, hview]; rfl
  · rw [System.timer, hview]; rfl

theorem expire_cases {i : Nat} (h : step pass K s (.expire i) = some s') :
    ∃ t, s.timer i = some t ∧ t.deadline ≤ t.elapsed ∧ s'.leaf = s.leaf ∧
      Queued s s' (.timeout i) ∧ s'.timer = Function.update s.timer i
        (if t.periodic then some { t with elapsed := 0 } else none) := by
  obtain ⟨t, ht, hd, hl, hq, htm⟩ := Spec.expire_cases (view_expire h)
  exact ⟨t, ht, hd, hl, queued_of_push hq, htm⟩

/-- The machine reacts to the signal at the front of the queue. -/
theorem consume_cases (hA : A.Plain) (h : step pass K s .consume = some s') :
    ∃ e, s.queue = e :: s'.queue ∧ s'.leaf = A.chart.fire s.leaf e ∧
      (A.chart.lookup s.leaf e = none → s'.timer = s.timer) ∧
      ∀ t, A.chart.lookup s.leaf e = some t → s'.timer = A.spec.enter
        (A.chart.entered s.leaf t) (A.spec.leave (A.chart.exited s.leaf t) s.timer) := by
  obtain ⟨e, mid, hq, hl, htm, hreact⟩ := Spec.consume_cases (view_consume hA h)
  have hleaf : s'.leaf = A.chart.fire mid.leaf e := by
    rw [System.leaf, hreact, Spec.react_leaf]
    rfl
  have hqueue : s'.queue = mid.queue.items := by rw [System.queue, hreact, Spec.react_queue]
  have htimer : s'.timer = (A.spec.react mid e).timers := congrArg State.timers hreact
  rw [show mid.leaf = s.leaf from hl] at hleaf
  rw [← hqueue] at hq
  refine ⟨e, hq, hleaf, fun hk => ?_, fun t hk => ?_⟩
  · rw [show s.leaf = mid.leaf from hl.symm] at hk
    rw [htimer, Spec.react_of_lookup_none hk]
    exact htm
  · rw [show s.leaf = mid.leaf from hl.symm] at hk ⊢
    rw [htimer, Spec.react_of_lookup hk, htm]
    rfl

/-- The signal that an action tries to put into the queue. -/
def issuedBy (pass : B → I → B × Option SigId) (s : System B K) : Action I → List SigId
  | .recv x => (pass s.buf x).2.toList
  | .expire i => [.timeout i]
  | _ => []

/-- The signal that an action takes from the queue. -/
def takenBy (s : System B K) : Action I → List SigId
  | .consume => s.queue.head?.toList
  | _ => []

theorem issuedBy_of_some {b : Spec.Action SigId} (hb : reactorAction pass s a = some b) :
    issuedBy pass s a = A.spec.issuedBy b := by
  cases a with
  | recv x =>
    obtain ⟨e, hsent, rfl⟩ := Option.map_eq_some_iff.1 hb
    rw [issuedBy, hsent]
    rfl
  | tick => cases hb; rfl
  | expire i => cases hb; rfl
  | consume => cases hb; rfl

theorem takenBy_of_some {b : Spec.Action SigId} (hb : reactorAction pass s a = some b) :
    takenBy s a = A.spec.takenBy s.view b := by
  cases a with
  | recv x =>
    obtain ⟨e, _, rfl⟩ := Option.map_eq_some_iff.1 hb
    rfl
  | tick => cases hb; rfl
  | expire i => cases hb; rfl
  | consume => cases hb; rfl

theorem issuedBy_of_none (hb : reactorAction pass s a = none) : issuedBy pass s a = [] := by
  cases a with
  | recv x =>
    have hsent : (pass s.buf x).2 = none := by simpa [reactorAction] using hb
    rw [issuedBy, hsent]
    rfl
  | _ => cases hb

theorem takenBy_of_none (hb : reactorAction pass s a = none) : takenBy s a = [] := by
  cases a <;> first | rfl | cases hb

/-- What one action does to the taken and the waiting signals together. -/
theorem step_kept (hA : A.Plain) (h : step pass K s a = some s') :
    ∃ kept, List.Sublist kept (issuedBy pass s a) ∧ takenBy s a ++ s'.queue = s.queue ++ kept := by
  cases hb : reactorAction pass s a with
  | none =>
    refine ⟨[], List.nil_sublist _, ?_⟩
    rw [System.queue, view_of_none h hb, takenBy_of_none hb, List.append_nil]
    rfl
  | some b =>
    obtain ⟨kept, hk, hq, _⟩ := Spec.step_kept (p := fun _ => true) (view_of_some hA h hb)
    rw [issuedBy_of_some hb, takenBy_of_some hb]
    exact ⟨kept, hk, hq⟩

/-- The action of the program for an action of the reactor; a post is an input of the source. -/
def ofReactor : Spec.Action SigId → Option (Action I)
  | .post _ => none
  | .tick => some .tick
  | .expire i => some (.expire i)
  | .consume => some .consume

/-- What the reactor can do by itself, the program can do. -/
theorem step_of_view (hA : A.Plain) (pass : B → I → B × Option SigId)
    {b : Spec.Action SigId} {v : Reactor.State S SigId A.spec.capacity}
    (ha : ofReactor b = some a) (h : A.spec.step s.view b = some v) :
    ∃ s', step pass K s a = some s' ∧ s'.view = v := by
  have hb : reactorAction pass s a = some b := by
    cases b <;> cases ha <;> rfl
  have hex : ∃ s', step pass K s a = some s' := by
    cases b with
    | post e => cases ha
    | tick => cases ha; exact ⟨_, rfl⟩
    | expire i =>
      cases ha
      have hview := K.view_expire s.kernel i
      rw [show A.spec.expire (K.view s.kernel) i = some v from h] at hview
      obtain ⟨k, hk, _⟩ := Option.map_eq_some_iff.1 hview
      exact ⟨_, by rw [step, hk, Option.map_some]⟩
    | consume =>
      cases ha
      obtain ⟨p, hp, _⟩ := Option.map_eq_some_iff.1 h
      have hreceive := K.view_receive s.kernel
      rw [show A.spec.receive (K.view s.kernel) = some p from hp] at hreceive
      obtain ⟨q, hq, _⟩ := Option.map_eq_some_iff.1 hreceive
      exact ⟨_, by rw [step, hq, Option.map_some]⟩
  obtain ⟨s', hs⟩ := hex
  have hview := view_of_some hA hs hb
  rw [h] at hview
  exact ⟨s', hs, (Option.some.inj hview).symm⟩

/-- The task can take a signal whenever one waits, and fires it. -/
theorem consume_enabled (hA : A.Plain) (pass : B → I → B × Option SigId) {e : SigId}
    {q : List SigId} (h : s.queue = e :: q) :
    ∃ s', step pass K s .consume = some s' ∧ s'.queue = q ∧ s'.leaf = A.chart.fire s.leaf e := by
  obtain ⟨v, hv, hrest, hleaf⟩ := exists_consume (P := A.spec) h
  obtain ⟨s', hs, rfl⟩ := step_of_view hA pass (a := .consume) rfl hv
  exact ⟨s', hs, hrest, hleaf⟩

/-! ## Runs -/

section Runs

variable {as : List (Action I)}
  {H : Reactor.State S SigId A.spec.capacity → Spec.Action SigId → Prop}
  {record : Reactor.State S SigId A.spec.capacity → Spec.Action SigId →
    Reactor.State S SigId A.spec.capacity → τ → τ} {t₀ : τ} {w : System B K × τ}

/-- **The program refines the reactor of its machine**, with a history variable next to it and
    under a guard; ticks and expiries happen equally often in both. -/
theorem run_view [DecidableEq I] (hA : A.Plain)
    (h : Run (watch (step pass K) (observe pass record)) (fun w a => Allowed pass H w.1 a)
      (s, t₀) as w) :
    ∃ bs, Run (watch A.spec.step record) (fun w b => H w.1 b) (s.view, t₀) bs
        (w.1.view, w.2) ∧
      bs.count .tick = as.count .tick ∧
      ∀ i, bs.count (.expire i) = as.count (.expire i) := by
  induction h with
  | nil => exact ⟨[], .nil, rfl, fun _ => rfl⟩
  | @snoc as w w' a _ hg hstep ih =>
    obtain ⟨bs, hrun, htick, hexpire⟩ := ih
    obtain ⟨hs, hrec⟩ := watch_eq_some.1 hstep
    -- the reactor ticks, and has timer `i` run out, when the program does
    have htick' : reactorAction pass w.1 a = some .tick ↔ a = .tick := reactorAction_eq_tick
    have hexpire' : ∀ i, reactorAction pass w.1 a = some (.expire i) ↔ a = .expire i :=
      fun i => reactorAction_eq_expire
    cases hb : reactorAction pass w.1 a with
    | none =>
      simp only [hb, reduceCtorEq, false_iff] at htick' hexpire'
      refine ⟨bs, ?_, ?_, fun i => ?_⟩
      · rw [hrec, observe, hb, view_of_none hs hb]
        exact hrun
      · rw [htick, List.count_append, List.count_singleton, if_neg (by simpa using htick')]
        rfl
      · rw [hexpire, List.count_append, List.count_singleton, if_neg (by simpa using hexpire' i)]
        rfl
    | some b =>
      simp only [hb, Option.some.injEq] at htick' hexpire'
      have hview : watch A.spec.step record (w.1.view, w.2) b = some (w'.1.view, w'.2) := by
        refine watch_eq_some.2 ⟨view_of_some hA hs hb, ?_⟩
        rw [hrec, observe, hb]
      refine ⟨bs ++ [b], hrun.snoc (hg b (by rw [hb]; rfl)) hview, ?_, fun i => ?_⟩
      · simp only [List.count_append, List.count_singleton, htick, beq_iff_eq, htick']
      · simp only [List.count_append, List.count_singleton, hexpire, beq_iff_eq, hexpire']

/-- The same from the start. -/
theorem run_view_start [DecidableEq I] (hA : A.Plain)
    (h : Run (watch (step pass K) (observe pass record)) (fun w a => Allowed pass H w.1 a)
      (start K buf, t₀) as w) :
    ∃ bs, Run (watch A.spec.step record) (fun w b => H w.1 b) (A.spec.start, t₀) bs
        (w.1.view, w.2) ∧
      bs.count .tick = as.count .tick ∧
      ∀ i, bs.count (.expire i) = as.count (.expire i) := by
  have hview : (start K buf).view = A.spec.start := start_view
  rw [← hview]
  exact run_view hA h

/-- A run without a history variable. -/
theorem run_reactor [DecidableEq I] (hA : A.Plain)
    (h : Run (step pass K) (Allowed pass H) (start K buf) as s) :
    ∃ bs, Run A.spec.step H A.spec.start bs s.view ∧ bs.count .tick = as.count .tick ∧
      ∀ i, bs.count (.expire i) = as.count (.expire i) := by
  obtain ⟨_, hwatch⟩ := h.exists_watch (observe pass fun _ _ _ (t : Unit) => t) ()
  obtain ⟨bs, hrun, hcount⟩ := run_view_start hA hwatch
  exact ⟨bs, hrun.of_watch, hcount⟩

/-- The ticks that a timer has counted are none at the start and when it has just run out. -/
theorem counted_timer {G : System B K → Action I → Prop} {i : Nat}
    (h : Run (step pass K) G (start K buf) as s)
    (hlast : as = [] ∨ as.getLast? = some (.expire i)) : counted s.timer i = 0 := by
  cases h with
  | nil =>
    rw [System.timer, start_view]
    exact counted_start
  | @snoc as u s a _ _ hstep =>
    rw [List.getLast?_concat, Option.some.injEq] at hlast
    obtain rfl : a = .expire i := hlast.resolve_left (by simp)
    exact counted_expire (view_expire hstep)

/-- **A timer runs out at most once in `D` ticks**, from the start and from each of its expiries on,
    if no state gives it a shorter deadline. -/
theorem expiries_spaced [DecidableEq I] (hA : A.Plain) {G G' : System B K → Action I → Prop}
    {i D : Nat} (hD : ∀ s, ∀ d ∈ A.spec.timeouts s, d.index = i → D ≤ d.deadline)
    {bs : List (Action I)} (h : Run (step pass K) G (start K buf) as s)
    (h' : Run (step pass K) G' s bs s') (hlast : as = [] ∨ as.getLast? = some (.expire i)) :
    D * bs.count (.expire i) ≤ bs.count .tick := by
  obtain ⟨cs₀, hr₀, _⟩ := run_reactor (H := Anything) hA (h.mono fun _ _ _ _ _ => trivial)
  obtain ⟨_, hwatch⟩ := h'.exists_watch (observe pass fun _ _ _ (t : Unit) => t) ()
  obtain ⟨cs, hr, htick, hexpire⟩ :=
    run_view (H := Anything) hA (hwatch.mono fun _ _ _ _ _ => trivial)
  have hle := Reactor.expiries_le_ticks hD hr₀ hr.of_watch
  rw [htick, hexpire, show counted s.view.timers i = 0 from counted_timer h hlast] at hle
  omega

/-- No input arrives. -/
def NoInput (_ : System B K) (a : Action I) : Prop := ∀ x, a ≠ .recv x

/-- A run of the reactor in which nothing is posted is one of the program without inputs. -/
theorem run_of_view [DecidableEq I] (hA : A.Plain) (pass : B → I → B × Option SigId)
    {bs : List (Spec.Action SigId)} {v : Reactor.State S SigId A.spec.capacity}
    (h : Run A.spec.step Unattended s.view bs v) :
    ∃ as s', Run (step pass K) NoInput s as s' ∧ s'.view = v ∧
      as.count .tick = bs.count .tick := by
  induction h with
  | nil => exact ⟨[], s, .nil, rfl, rfl⟩
  | @snoc bs u v b _ hb hstep ih =>
    obtain ⟨as, t, hrun, rfl, hcount⟩ := ih
    obtain ⟨a, ha⟩ : ∃ a : Action I, ofReactor b = some a := by
      cases b with
      | post e => exact absurd rfl (hb e)
      | tick => exact ⟨_, rfl⟩
      | expire i => exact ⟨_, rfl⟩
      | consume => exact ⟨_, rfl⟩
    obtain ⟨t', ht', hview⟩ := step_of_view hA pass ha hstep
    refine ⟨as ++ [a], t', hrun.snoc ?_ ht', hview, ?_⟩
    · intro x hx
      cases b <;> cases ha <;> cases hx
    · rw [List.count_append, List.count_append, hcount]
      cases b <;> cases ha <;> simp

end Runs

/-- The task can empty the queue; what it does is to fire the queued signals in order. -/
theorem run_drain (hA : A.Plain) (pass : B → I → B × Option SigId) (s : System B K) :
    ∃ s', Run (step pass K) Anything s (List.replicate s.queue.length .consume) s' ∧
      s'.queue = [] ∧ s'.leaf = A.chart.fires s.leaf s.queue := by
  generalize hq : s.queue = q
  induction q generalizing s with
  | nil => exact ⟨s, .nil, hq, rfl⟩
  | cons e q ih =>
    obtain ⟨u, hu, hrest, hl⟩ := consume_enabled hA pass hq
    obtain ⟨s', hrun, hempty, hleaf⟩ := ih u hrest
    refine ⟨s', ?_, hempty, ?_⟩
    · rw [List.length_cons, List.replicate_succ]
      exact (Run.single trivial hu).append hrun
    · rw [hleaf, hl, Chart.fires_cons]

/-! ## What becomes of the signals -/

section Delivery

variable {G : System B K → Action I → Prop} {as : List (Action I)}
  {w : System B K × Ledger SigId} {p : SigId → Bool}

/-- The ledger of the reactor, kept next to the program. -/
abbrev ledger (pass : B → I → B × Option SigId) (K : Kernel A) (s : System B K) (a : Action I)
    (s' : System B K) (L : Ledger SigId) : Ledger SigId :=
  observe pass A.spec.record s a s' L

theorem ledger_eq (L : Ledger SigId) : ledger pass K s a s' L =
    ⟨L.issued ++ issuedBy pass s a, L.taken ++ takenBy s a⟩ := by
  rw [ledger, observe]
  cases hb : reactorAction pass s a with
  | none => simp [issuedBy_of_none hb, takenBy_of_none hb]
  | some b => rw [issuedBy_of_some hb, takenBy_of_some hb]; rfl

/-- The inputs that a run has met. -/
def inputs (as : List (Action I)) : List I :=
  as.filterMap fun
    | .recv x => some x
    | _ => none

/-- The signals that the source sends for inputs, from a buffer on. -/
def sent (pass : B → I → B × Option SigId) : B → List I → List SigId
  | _, [] => []
  | b, x :: xs => (pass b x).2.toList ++ sent pass (pass b x).1 xs

/-- The buffer that inputs leave. -/
def bufAfter (pass : B → I → B × Option SigId) (b : B) (xs : List I) : B :=
  xs.foldl (fun b x => (pass b x).1) b

theorem sent_append (b : B) (xs ys : List I) :
    sent pass b (xs ++ ys) = sent pass b xs ++ sent pass (bufAfter pass b xs) ys := by
  induction xs generalizing b with
  | nil => rfl
  | cons x xs ih => rw [List.cons_append, sent, ih, sent, List.append_assoc]; rfl

theorem inputs_append (as bs : List (Action I)) : inputs (as ++ bs) = inputs as ++ inputs bs :=
  List.filterMap_append

/-- `QSM_SIGNAL_TIMEOUT(i)`. -/
def isTimeout : SigId → Bool
  | .timeout _ => true
  | _ => false

theorem run_anything
    (h : Run (watch (step pass K) (ledger pass K)) (fun w a => G w.1 a) (start K buf, Ledger.empty)
      as w) :
    Run (watch (step pass K) (observe pass A.spec.record)) (fun w a => Allowed pass Anything w.1 a)
      (start K buf, Ledger.empty) as w :=
  h.mono fun _ _ _ _ _ => trivial

/-- **No signal is invented, doubled or overtaken**, whatever is lost. -/
theorem taken_sublist_issued (hA : A.Plain)
    (h : Run (watch (step pass K) (ledger pass K)) (fun w a => G w.1 a) (start K buf, Ledger.empty)
      as w) : List.Sublist (w.2.taken ++ w.1.queue) w.2.issued := by
  classical
  obtain ⟨bs, hrun, _⟩ := run_view_start hA (run_anything h)
  exact Reactor.taken_sublist_issued hrun

/-- **The active leaf is the one that the consumed signals lead to.** -/
theorem leaf_eq_fires_taken (hA : A.Plain)
    (h : Run (watch (step pass K) (ledger pass K)) (fun w a => G w.1 a) (start K buf, Ledger.empty)
      as w) : w.1.leaf = A.chart.fires (A.chart.settle A.initial) w.2.taken := by
  classical
  obtain ⟨bs, hrun, _⟩ := run_view_start hA (run_anything h)
  exact Reactor.leaf_eq_fires_taken hrun

/-- **Of the signals of a kind none is lost**, if each of them meets room in the queue. -/
theorem taken_eq_issued (hA : A.Plain)
    (h : Run (watch (step pass K) (ledger pass K))
      (fun w a => Allowed pass (A.spec.RoomFor p) w.1 a) (start K buf, Ledger.empty) as w) :
    (w.2.taken ++ w.1.queue).filter p = w.2.issued.filter p := by
  classical
  obtain ⟨bs, hrun, _⟩ := run_view_start hA h
  exact Reactor.taken_eq_issued hrun

/-- **The first signal is never lost.** -/
theorem head?_taken (hA : A.Plain) (hcap : 0 < A.spec.capacity)
    (h : Run (watch (step pass K) (ledger pass K)) (fun w a => G w.1 a) (start K buf, Ledger.empty)
      as w) : (w.2.taken ++ w.1.queue).head? = w.2.issued.head? := by
  classical
  obtain ⟨bs, hrun, _⟩ := run_view_start hA (run_anything h)
  exact Reactor.head?_taken hcap hrun

/-- Nothing but an input touches the buffer. -/
theorem step_buf (h : step pass K s a = some s') : s'.buf = bufAfter pass s.buf (inputs [a]) := by
  cases a with
  | recv x => cases h; rfl
  | tick => cases h; rfl
  | expire i => obtain ⟨k, _, rfl⟩ := Option.map_eq_some_iff.1 h; rfl
  | consume => obtain ⟨p, _, rfl⟩ := Option.map_eq_some_iff.1 h; rfl

/-- Apart from timeouts, an action issues what the source sends for its input. -/
theorem filter_issuedBy (hpass : ∀ b x e, (pass b x).2 = some e → isTimeout e = false)
    (s : System B K) (a : Action I) :
    (issuedBy pass s a).filter (fun e => !isTimeout e) = sent pass s.buf (inputs [a]) := by
  cases a with
  | recv x =>
    change (pass s.buf x).2.toList.filter _ = (pass s.buf x).2.toList ++ []
    rw [List.append_nil, List.filter_eq_self]
    intro e he
    rw [hpass _ _ _ (Option.mem_toList.1 he)]
    rfl
  | _ => rfl

/-- The source has used its buffer on the inputs alone, and has issued what it sends for them. -/
theorem issued_eq_sent (hpass : ∀ b x e, (pass b x).2 = some e → isTimeout e = false)
    (h : Run (watch (step pass K) (ledger pass K)) (fun w a => G w.1 a) (start K buf, Ledger.empty)
      as w) :
    w.1.buf = bufAfter pass buf (inputs as) ∧
      w.2.issued.filter (fun e => !isTimeout e) = sent pass buf (inputs as) := by
  induction h with
  | nil => exact ⟨rfl, rfl⟩
  | @snoc as w w' a _ _ hstep ih =>
    obtain ⟨hbuf, hissued⟩ := ih
    obtain ⟨hs, hrec⟩ := watch_eq_some.1 hstep
    constructor
    · rw [step_buf hs, hbuf, inputs_append, bufAfter, bufAfter, bufAfter, List.foldl_append]
    · rw [hrec, ledger_eq, List.filter_append, hissued, filter_issuedBy hpass, hbuf, inputs_append,
        sent_append]

/-- A timeout signal is issued exactly when its timer runs out. -/
theorem issued_count_timeout [DecidableEq I]
    (hpass : ∀ b x e, (pass b x).2 = some e → isTimeout e = false)
    (h : Run (watch (step pass K) (ledger pass K)) (fun w a => G w.1 a) (start K buf, Ledger.empty)
      as w) (i : Nat) : w.2.issued.count (.timeout i) = as.count (.expire i) := by
  induction h with
  | nil => rfl
  | @snoc as w w' a _ _ hstep ih =>
    obtain ⟨_, hrec⟩ := watch_eq_some.1 hstep
    rw [hrec, ledger_eq, List.count_append, List.count_append, ih]
    congr 1
    cases a with
    | recv x =>
      rw [issuedBy, List.count_eq_zero.2, List.count_eq_zero.2 (by simp)]
      intro hmem
      cases hpass _ _ _ (by simpa using hmem)
    | tick => simp [issuedBy]
    | expire j => by_cases hj : j = i <;> simp [issuedBy, hj]
    | consume => simp [issuedBy]

/-- A machine without timeouts is sent no timeout signal. -/
theorem issued_of_no_timeouts (hA : A.Plain) (hnone : ∀ s, A.spec.timeouts s = [])
    (hpass : ∀ b x e, (pass b x).2 = some e → isTimeout e = false)
    (h : Run (watch (step pass K) (ledger pass K)) (fun w a => G w.1 a) (start K buf, Ledger.empty)
      as w) : ∀ e ∈ w.2.issued, isTimeout e = false := by
  classical
  intro e hissued
  cases e with
  | timeout i =>
    have hpos : 0 < as.count (.expire i) := by
      rw [← issued_count_timeout hpass h i]
      exact List.count_pos_iff.2 hissued
    -- a timer that no state defines cannot run out even once
    obtain ⟨bs, hrun, htick, hexpire⟩ := run_view_start hA (run_anything h)
    have hle := expiries_le_ticks (D := as.count .tick + 1) (i := i)
      (fun s d hd => absurd hd (by rw [hnone s]; simp)) (.nil : Run A.spec.step Anything _ _ _)
      hrun.of_watch
    rw [htick, hexpire, counted_start] at hle
    have hmul : (as.count .tick + 1) * 1 ≤ (as.count .tick + 1) * as.count (.expire i) :=
      Nat.mul_le_mul_left _ hpos
    omega
  | _ => rfl

/-- So it is issued what the source sends, and nothing else. -/
theorem issued_eq_sent_of_no_timeouts (hA : A.Plain) (hnone : ∀ s, A.spec.timeouts s = [])
    (hpass : ∀ b x e, (pass b x).2 = some e → isTimeout e = false)
    (h : Run (watch (step pass K) (ledger pass K)) (fun w a => G w.1 a) (start K buf, Ledger.empty)
      as w) : w.2.issued = sent pass buf (inputs as) := by
  rw [← (issued_eq_sent hpass h).2, eq_comm, List.filter_eq_self]
  intro e he
  rw [issued_of_no_timeouts hA hnone hpass h e he]
  rfl

/-- The task finds a signal when it takes one. -/
theorem exists_head_of_consume (h : step pass K s .consume = some s') :
    ∃ e, s.queue.head? = some e := by
  obtain ⟨⟨e, k⟩, hk, _⟩ := Option.map_eq_some_iff.1 h
  have hreceive := K.view_receive s.kernel
  rw [hk] at hreceive
  refine ⟨e, ?_⟩
  rw [System.queue, System.view, (Spec.receive_eq_some.1 hreceive.symm).1]
  rfl

/-- What one action does to the leaf. -/
theorem step_leaf (hA : A.Plain) (h : step pass K s a = some s') :
    s'.leaf = A.chart.fires s.leaf (takenBy s a) := by
  cases hb : reactorAction pass s a with
  | none =>
    rw [System.leaf, view_of_none h hb, takenBy_of_none hb]
    rfl
  | some b =>
    rw [takenBy_of_some hb]
    exact Spec.step_leaf (view_of_some hA h hb)

end Delivery

/-! ## Executing a program on the reference engine -/

section Reference

/-- The effect of `n` ticks. -/
def ticked (n : Nat) (s : System B (.reference A)) : System B (.reference A) where
  buf := s.buf
  kernel := { s.view with timers := elapse n s.view.timers }

theorem ticked_zero (s : System B (.reference A)) : ticked 0 s = s := by
  rw [ticked, elapse_zero]
  rfl

theorem ticked_ticked (n : Nat) (s : System B (.reference A)) :
    ticked n (ticked 1 s) = ticked (n + 1) s := by
  rw [ticked, show (ticked 1 s).view.timers = elapse 1 s.view.timers from rfl, elapse_elapse,
    Nat.add_comm]
  rfl

/-- Executing a list of actions with `n` ticks in the middle. -/
theorem execute_ticks {pass : B → I → B × Option SigId}
    {G : System B (.reference A) → Action I → Prop} [∀ s a, Decidable (G s a)]
    (hG : ∀ s, G s .tick) (as bs : List (Action I)) (n : Nat) (s : System B (.reference A)) :
    execute (step pass (.reference A)) G s (as ++ List.replicate n .tick ++ bs) =
      (execute (step pass (.reference A)) G s as).bind fun u =>
        execute (step pass (.reference A)) G (ticked n u) bs := by
  have hticks : ∀ u, execute (step pass (.reference A)) G u (List.replicate n .tick) =
      some (ticked n u) :=
    execute_replicate ticked_zero (fun s => ⟨hG s, rfl⟩) ticked_ticked n
  rw [execute_append, execute_append, Option.bind_assoc]
  simp only [hticks, Option.bind_some]

/-- The same next to a history variable that ticks leave alone. -/
theorem execute_watch_ticks {pass : B → I → B × Option SigId}
    {record : System B (.reference A) → Action I → System B (.reference A) → τ → τ}
    (hrecord : ∀ s s' t, record s .tick s' t = t) (as bs : List (Action I)) (n : Nat)
    (w : System B (.reference A) × τ) :
    execute (watch (step pass (.reference A)) record) Anything w
        (as ++ List.replicate n .tick ++ bs) =
      (execute (watch (step pass (.reference A)) record) Anything w as).bind fun u =>
        execute (watch (step pass (.reference A)) record) Anything (ticked n u.1, u.2) bs := by
  have hticks : ∀ u, execute (watch (step pass (.reference A)) record) Anything u
      (List.replicate n .tick) = some (ticked n u.1, u.2) :=
    execute_replicate (f := fun n u => (ticked n u.1, u.2))
      (fun u => Prod.ext (ticked_zero u.1) rfl)
      (fun u => ⟨trivial, watch_eq_some.2 ⟨rfl, (hrecord u.1 _ u.2).symm⟩⟩)
      (fun n u => Prod.ext (ticked_ticked n u.1) rfl) n
  rw [execute_append, execute_append, Option.bind_assoc]
  simp only [hticks, Option.bind_some]

end Reference

/-! ## Signal handlers -/

/-- The signals of the operating system that the programs handle. -/
inductive OsSignal where
  | SIGUSR1
  | SIGUSR2
  | SIGQUIT
  | SIGALRM
  | SIGTRAP
  | SIGSYS
  | SIGTSTP
  | SIGCHLD
  | SIGSEGV
  deriving DecidableEq, Repr

/-- A signal handler as a source: it has no buffer. -/
def handlerPass (handler : OsSignal → Option SigId) (buf : Unit) (sig : OsSignal) :
    Unit × Option SigId :=
  (buf, handler sig)

theorem sent_handlerPass (handler : OsSignal → Option SigId) (sigs : List OsSignal) :
    sent (handlerPass handler) () sigs = sigs.filterMap handler := by
  induction sigs with
  | nil => rfl
  | cons sig sigs ih =>
    rw [sent, handlerPass, ih, List.filterMap_cons]
    cases handler sig <;> rfl

end QuarkTS.Program
