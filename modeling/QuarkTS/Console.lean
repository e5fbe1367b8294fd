import QuarkTS.Lib.Trace
import QuarkTS.Program

/-!
# The debug output of the programs

The state callbacks print a debug message when their state is entered and when it is left.  A
`ReportingKernel` is an implementation of the engine that also shows in which order it calls the
callbacks: on a transition for the states left, innermost first, and then for the states entered,
outermost first.  Calls with other signals may come in between.

* `Legible` — each message for an entry or an exit names its state, and no other message looks
  like one;
* `filterMap_readLine` — reading the messages back gives the entries and exits that were reported;
* `replay_marks`, `replay_messages` — in every run, the reports and the messages are legal and lead
  to the active configuration.
-/

set_option autoImplicit false

namespace QuarkTS

open Statechart Chart Reactor Runs

variable {M Q S B I : Type} [DecidableEq S]

/-! ## Calls of the state callbacks -/

/-- The signals that the engine generates for the callbacks itself. -/
def SigId.isReserved : SigId → Bool
  | .entry | .exit | .start => true
  | _ => false

/-- What a call of a callback says about its state. -/
def callMark : S × SigId → Option (Mark S)
  | (s, .entry) => some (.entered s)
  | (s, .exit) => some (.left s)
  | _ => none

omit [DecidableEq S] in
theorem callMark_eq_some {c : S × SigId} {x : Mark S} (h : callMark c = some x) :
    x.state = c.1 ∧ (c.2 = .entry ∨ c.2 = .exit) := by
  obtain ⟨s, e⟩ := c
  cases e <;> cases h <;> simp [Mark.state]

/-- The calls for an entry or an exit: a state that has been entered is started. -/
def markCalls : Mark S → List (S × SigId)
  | .entered s => [(s, .entry), (s, .start)]
  | .left s => [(s, .exit)]

omit [DecidableEq S] in
theorem filterMap_markCalls (ms : List (Mark S)) :
    (ms.flatMap markCalls).filterMap callMark = ms := by
  induction ms with
  | nil => rfl
  | cons x ms ih =>
    rw [List.flatMap_cons, List.filterMap_append, ih]
    cases x <;> rfl

/-- An implementation of the engine that shows its calls of state callbacks, oldest first. -/
structure ReportingKernel (A : Machine M Q S) extends Kernel A where
  calls : State → List (S × SigId)
  calls_start : (calls start).filterMap callMark = A.chart.startMarks A.initial
  calls_sendSignal : ∀ k e isUrgent, calls (sendSignal k e isUrgent).1 = calls k
  calls_sysTick : ∀ k, calls (sysTick k) = calls k
  calls_expire : ∀ k i, ∀ k' ∈ expire k i, calls k' = calls k
  calls_receive : ∀ k, ∀ p ∈ receive k, calls p.2 = calls k
  calls_dispatch : A.Plain → ∀ k e, e.isReserved = false →
    ∃ made, calls (dispatch k e) = calls k ++ made ∧
      made.filterMap callMark = A.chart.marks (view k).leaf e

/-- The reactor with a record of the calls implements the documented behaviour. -/
def ReportingKernel.reference (A : Machine M Q S) : ReportingKernel A where
  State := Reactor.State S SigId A.spec.capacity × List (S × SigId)
  view := Prod.fst
  start := (A.spec.start, (A.chart.startMarks A.initial).flatMap markCalls)
  sendSignal k e _ := (((A.spec.post k.1 e).1, k.2), (A.spec.post k.1 e).2)
  sysTick k := (A.spec.tick k.1, k.2)
  expire k i := (A.spec.expire k.1 i).map fun v => (v, k.2)
  receive k := (A.spec.receive k.1).map fun p => (p.1, (p.2, k.2))
  dispatch k e := (A.spec.react k.1 e, k.2 ++ (A.chart.marks k.1.leaf e).flatMap markCalls)
  view_start := rfl
  view_sendSignal _ _ := rfl
  view_sysTick _ := rfl
  view_expire _ _ := by simp [Function.comp_def]
  view_receive _ := by simp [Function.comp_def]
  view_dispatch _ _ _ := rfl
  calls := Prod.snd
  calls_start := filterMap_markCalls _
  calls_sendSignal _ _ _ := rfl
  calls_sysTick _ := rfl
  calls_expire _ _ k' h := by
    obtain ⟨_, _, rfl⟩ := Option.map_eq_some_iff.1 h
    rfl
  calls_receive _ p h := by
    obtain ⟨_, _, rfl⟩ := Option.map_eq_some_iff.1 h
    rfl
  calls_dispatch _ _ _ _ := ⟨_, rfl, filterMap_markCalls _⟩

/-! ## Messages -/

namespace Machine

variable (A : Machine M Q S)

/-- The message that a call prints, if any. -/
def message (c : S × SigId) : Option String := (A.setup.callback c.1).bind fun f => (f c.2).1

/-- The messages that calls print, in order. -/
def messages (calls : List (S × SigId)) : List String := calls.filterMap A.message

/-- What a message says about one of some states. -/
def readLine (states : List S) (line : String) : Option (Mark S) :=
  states.findSome? fun s =>
    if A.message (s, .entry) = some line then some (.entered s)
    else if A.message (s, .exit) = some line then some (.left s)
    else none

/-- The messages of some states tell their entries and exits apart from everything else. -/
structure Legible (states : List S) : Prop where
  entry : ∀ s ∈ states, (A.message (s, .entry)).isSome
  exit : ∀ s ∈ states, (A.message (s, .exit)).isSome
  read : ∀ c, ∀ line ∈ A.message c,
    A.readLine states line = if c.1 ∈ states then callMark c else none

variable {A} {states : List S}

/-- A call that prints nothing is no entry and no exit of these states. -/
theorem Legible.mute (h : A.Legible states) {c : S × SigId} (hc : A.message c = none) :
    (callMark c).toList.filter (fun x => x.state ∈ states) = [] := by
  rw [List.filter_eq_nil_iff]
  intro x hx hmem
  obtain ⟨hstate, hsignal⟩ := callMark_eq_some (Option.mem_toList.1 hx)
  rw [hstate, decide_eq_true_eq] at hmem
  have hsome : (A.message c).isSome := by
    obtain ⟨s, e⟩ := c
    rcases hsignal with rfl | rfl
    · exact h.entry s hmem
    · exact h.exit s hmem
  rw [hc] at hsome
  cases hsome

/-- A message is read as what its call reports. -/
theorem Legible.spoken (h : A.Legible states) {c : S × SigId} {line : String}
    (hc : A.message c = some line) : (A.readLine states line).toList =
      (callMark c).toList.filter fun x => x.state ∈ states := by
  rw [h.read c line hc]
  cases hmark : callMark c with
  | none => simp
  | some x =>
    rw [← (callMark_eq_some hmark).1]
    by_cases hmem : x.state ∈ states <;> simp [hmem]

/-- **Reading the messages back** gives the reported entries and exits of these states. -/
theorem filterMap_readLine (h : A.Legible states) (calls : List (S × SigId)) :
    (A.messages calls).filterMap (A.readLine states) =
      (calls.filterMap callMark).filter fun x => x.state ∈ states := by
  induction calls with
  | nil => rfl
  | cons c calls ih =>
    have hcons : ∀ {α β : Type} (f : α → Option β) (a : α) (as : List α),
        (a :: as).filterMap f = (f a).toList ++ as.filterMap f := by
      intro α β f a as
      cases hf : f a <;> simp [hf]
    rw [hcons callMark, List.filter_append, ← ih, messages, hcons A.message, List.filterMap_append]
    congr 1
    cases hc : A.message c with
    | none => rw [h.mute hc]; rfl
    | some line =>
      rw [← h.spoken hc, Option.toList_some, hcons, List.filterMap_nil, List.append_nil]

/-! ## Callbacks that print the name of their state -/

/-- Names with different last letters are different. -/
theorem append_ne (a b : String) {t u : String} (h : t.toList.getLast? ≠ u.toList.getLast?)
    (ht : t.toList.getLast?.isSome) (hu : u.toList.getLast?.isSome) : a ++ t ≠ b ++ u := by
  intro heq
  have hlast := congrArg (fun s => s.toList.getLast?) heq
  simp only [String.toList_append, List.getLast?_append, Option.or_of_isSome ht,
    Option.or_of_isSome hu] at hlast
  exact h hlast

variable {name : S → String} {unknown : Status}

/-- The only state that a message with a name can stand for is the state of this name. -/
theorem findSome?_name (s : S) (x : S → Mark S) (states : List S) :
    (states.findSome? fun u => if u = s then some (x u) else none) =
      if s ∈ states then some (x s) else none := by
  induction states with
  | nil => rfl
  | cons u states ih =>
    by_cases hu : u = s
    · simp [hu]
    · simp [hu, Ne.symm hu, ih]

/-- Different names make the messages legible. -/
theorem Legible.of_names (hname : Function.Injective name)
    (hcallback : ∀ s, A.setup.callback s = some (stateCallback (name s) unknown))
    (states : List S) : A.Legible states := by
  have hentry : ∀ s, A.message (s, .entry) = some (name s ++ "|E") := fun s => by
    rw [message, hcallback]; rfl
  have hexit : ∀ s, A.message (s, .exit) = some (name s ++ "|X") := fun s => by
    rw [message, hcallback]; rfl
  have hEX : ∀ u s, name u ++ "|E" ≠ name s ++ "|X" :=
    fun u s => append_ne _ _ (by decide) (by decide) (by decide)
  have hES : ∀ u s, name u ++ "|E" ≠ name s ++ "|S" :=
    fun u s => append_ne _ _ (by decide) (by decide) (by decide)
  have hXS : ∀ u s, name u ++ "|X" ≠ name s ++ "|S" :=
    fun u s => append_ne _ _ (by decide) (by decide) (by decide)
  refine ⟨fun s _ => by rw [hentry]; rfl, fun s _ => by rw [hexit]; rfl, ?_⟩
  rintro ⟨s, e⟩ line hline
  simp only [readLine, hentry, hexit, Option.some.injEq]
  rw [message, hcallback] at hline
  cases e with
  | entry =>
    cases hline
    simpa [hname.eq_iff, (hEX _ _).symm, callMark] using findSome?_name s .entered states
  | exit =>
    cases hline
    simpa [hname.eq_iff, hEX, callMark] using findSome?_name s .left states
  | start =>
    cases hline
    simp [hES, hXS, callMark]
  | _ => cases hline

end Machine

/-! ## Runs -/

namespace Program

variable {A : Machine M Q S} {K : ReportingKernel A} {pass : B → I → B × Option SigId} {buf : B}
  {s s' : System B K.toKernel} {a : Action I} {as : List (Action I)}
  {G : System B K.toKernel → Action I → Prop}

/-- The entries and exits reported so far. -/
def System.marks (s : System B K.toKernel) : List (Mark S) :=
  (K.calls s.kernel).filterMap callMark

/-- No reserved signal ever waits in the queue. -/
theorem queue_unreserved (hA : A.Plain)
    (hpass : ∀ b x e, (pass b x).2 = some e → e.isReserved = false)
    (h : Run (step pass K.toKernel) G (start K.toKernel buf) as s) :
    ∀ e ∈ s.queue, e.isReserved = false := by
  induction h with
  | nil => intro e he; rw [start_queue] at he; cases he
  | @snoc as s s' a _ _ hstep ih =>
    intro e he
    obtain ⟨kept, hkept, hq⟩ := step_kept hA hstep
    have hmem : e ∈ s.queue ++ kept := hq ▸ List.mem_append_right _ he
    rcases List.mem_append.1 hmem with he | he
    · exact ih e he
    · have hissued := hkept.subset he
      cases a with
      | recv x => exact hpass _ _ _ (by simpa [issuedBy] using hissued)
      | expire i => rw [List.mem_singleton.1 hissued]; rfl
      | tick => cases hissued
      | consume => cases hissued

/-- The calls that one action makes. -/
theorem step_calls (hA : A.Plain) (hq : ∀ e ∈ s.queue, e.isReserved = false)
    (h : step pass K.toKernel s a = some s') :
    ∃ made, K.calls s'.kernel = K.calls s.kernel ++ made ∧
      made.filterMap callMark = A.chart.report s.leaf (takenBy s a) := by
  cases a with
  | recv x =>
    cases h
    refine ⟨[], ?_, rfl⟩
    rw [List.append_nil]
    cases (pass s.buf x).2 with
    | none => rfl
    | some e => exact K.calls_sendSignal _ _ _
  | tick =>
    cases h
    exact ⟨[], by rw [List.append_nil]; exact K.calls_sysTick _, rfl⟩
  | expire i =>
    obtain ⟨k, hk, rfl⟩ := Option.map_eq_some_iff.1 h
    exact ⟨[], by rw [List.append_nil]; exact K.calls_expire _ _ _ hk, rfl⟩
  | consume =>
    obtain ⟨⟨e, k⟩, hk, rfl⟩ := Option.map_eq_some_iff.1 h
    have hreceive := K.view_receive s.kernel
    rw [hk] at hreceive
    obtain ⟨hitems, hleaf, _⟩ := Spec.receive_eq_some.1 hreceive.symm
    have hhead : s.queue.head? = some e := by
      rw [System.queue, System.view, hitems]
      rfl
    have he : e.isReserved = false := hq e (List.mem_of_mem_head? hhead)
    obtain ⟨made, hmade, hmarks⟩ := K.calls_dispatch hA k e he
    refine ⟨made, ?_, ?_⟩
    · rw [← K.calls_receive _ _ hk]
      exact hmade
    · rw [hmarks, takenBy, hhead, Option.toList_some, Chart.report_singleton, hleaf]
      rfl

/-- What one action adds to the report. -/
theorem step_marks (hA : A.Plain)
    (hpass : ∀ b x e, (pass b x).2 = some e → e.isReserved = false)
    (h : Run (step pass K.toKernel) G (start K.toKernel buf) as s)
    (hstep : step pass K.toKernel s a = some s') :
    s'.marks = s.marks ++ A.chart.report s.leaf (takenBy s a) := by
  obtain ⟨made, hmade, hmarks⟩ := step_calls hA (queue_unreserved hA hpass h) hstep
  rw [System.marks, hmade, List.filterMap_append, hmarks]
  rfl

theorem start_marks : (start K.toKernel buf).marks = A.chart.startMarks A.initial := K.calls_start

/-- **The reported entries and exits are legal and lead to the active configuration.** -/
theorem replay_marks (hA : A.Plain)
    (hpass : ∀ b x e, (pass b x).2 = some e → e.isReserved = false)
    (h : Run (step pass K.toKernel) G (start K.toKernel buf) as s) :
    A.chart.replay [] s.marks = some (A.chart.path s.leaf) := by
  induction h with
  | nil => rw [start_marks, start_leaf, Chart.replay_start]
  | @snoc as s s' a hrun _ hstep ih =>
    rw [step_marks hA hpass hrun hstep, Chart.replay_append, ih, Option.bind_some,
      Chart.replay_report, step_leaf hA hstep]

/-- In a part of the chart that holds the initial state, all reports are about this part. -/
theorem mem_of_mem_marks (hA : A.Plain) {R : S → Prop} (hR : A.chart.Closed R)
    (hinitial : R A.initial)
    (hpass : ∀ b x e, (pass b x).2 = some e → e.isReserved = false)
    (h : Run (step pass K.toKernel) G (start K.toKernel buf) as s) :
    R s.leaf ∧ ∀ x ∈ s.marks, R x.state := by
  induction h with
  | nil =>
    rw [start_marks, start_leaf]
    exact ⟨hR.settle hinitial, fun x hx => hR.of_mem_startMarks hinitial hx⟩
  | @snoc as s s' a hrun _ hstep ih =>
    obtain ⟨hleaf, hmarks⟩ := ih
    rw [step_marks hA hpass hrun hstep, step_leaf hA hstep]
    refine ⟨hR.fires hleaf _, fun x hx => ?_⟩
    rcases List.mem_append.1 hx with hx | hx
    · exact hmarks x hx
    · exact hR.of_mem_report hleaf hx

/-- **The messages tell the configuration**: read back, they are legal and lead to it. -/
theorem replay_messages (hA : A.Plain) {states : List S} (hlegible : A.Legible states)
    (hR : A.chart.Closed (· ∈ states)) (hinitial : A.initial ∈ states)
    (hpass : ∀ b x e, (pass b x).2 = some e → e.isReserved = false)
    (h : Run (step pass K.toKernel) G (start K.toKernel buf) as s) :
    A.chart.replay [] ((A.messages (K.calls s.kernel)).filterMap (A.readLine states)) =
      some (A.chart.path s.leaf) := by
  have hall := (mem_of_mem_marks hA hR hinitial hpass h).2
  have hread : (A.messages (K.calls s.kernel)).filterMap (A.readLine states) =
      s.marks.filter fun x => x.state ∈ states := Machine.filterMap_readLine hlegible _
  rw [hread, List.filter_eq_self.2 fun x hx => decide_eq_true (hall x hx)]
  exact replay_marks hA hpass h

end Program

end QuarkTS
