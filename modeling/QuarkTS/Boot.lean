import QuarkTS.Lib.History
import QuarkTS.Microwave.Handler
import QuarkTS.PubSub.Handler

/-!
# Starting up

Both example programs have the same `main`: it creates the tick thread and the message thread, and
only then calls `qOS_Setup`, the calls of `hsms_init` and `qOS_Run`.  A `World` is what is left of
`main`, the threads that exist and the calls made so far; the scheduler chooses whose turn it is.

* `ordered_iff` — a schedule keeps the documented order exactly when it gives `main` enough turns
  before the turns of the other threads;
* `kernel_ready_iff` — for the microwave these are 4 turns before the first tick and 7 before the
  first send, for the publish/subscribe example 4 and 21.
-/

set_option autoImplicit false

namespace QuarkTS.Boot

open CString Runs History

/-! ## The threads -/

/-- The steps of `main`, up to `qOS_Run`. -/
inductive MainStep (M Q S : Type) where
  | traceSetOutputFcn
  | createTickThread
  | createMsgThread
  | osSetup
  | init (call : Call M Q S)
  | osRun

/-- What the example programs differ in: the calls of `hsms_init`, the machines that the sends of
    `msg_handler` concern, and one pass of `msg_handler`. -/
structure Program (M Q S : Type) (n : Nat) where
  hsmsInit : List (Call M Q S)
  machines : List M
  msgHandlerPass : Buffer n → Received → Buffer n × List SigId

/-- Whose turn it is; a pass of `msg_handler` is a receive and then its sends. -/
inductive Turn where
  | main
  | tick
  | receive (r : Received)
  | send
  deriving DecidableEq, Repr

/-- What has happened in a turn. -/
inductive Event (M Q S : Type) where
  | main (s : MainStep M Q S)
  | sysTick
  | receive (r : Received)
  | sendSignal (e : SigId)

variable {M Q S : Type} {n : Nat}

def Event.turn : Event M Q S → Turn
  | .main _ => .main
  | .sysTick => .tick
  | .receive r => .receive r
  | .sendSignal _ => .send

structure World (M Q S : Type) (n : Nat) where
  rest : List (MainStep M Q S)
  tickThread : Bool
  msgThread : Bool
  buf : Buffer n
  pending : List SigId
  log : List (Event M Q S)

def Program.main (P : Program M Q S n) : List (MainStep M Q S) :=
  [.traceSetOutputFcn, .createTickThread, .createMsgThread, .osSetup] ++ P.hsmsInit.map .init ++
    [.osRun]

def start (P : Program M Q S n) (buf : Buffer n) : World M Q S n where
  rest := P.main
  tickThread := false
  msgThread := false
  buf := buf
  pending := []
  log := []

def step (P : Program M Q S n) (w : World M Q S n) : Turn → Option (World M Q S n)
  | .main =>
    match w.rest with
    | [] => none
    | s :: rest =>
      some { w with
        rest := rest
        tickThread := w.tickThread || s matches .createTickThread
        msgThread := w.msgThread || s matches .createMsgThread
        log := w.log ++ [.main s] }
  | .tick => if w.tickThread then some { w with log := w.log ++ [.sysTick] } else none
  | .receive r =>
    if w.msgThread && w.pending.isEmpty then
      let (buf, sent) := P.msgHandlerPass w.buf r
      some { w with buf := buf, pending := sent, log := w.log ++ [.receive r] }
    else none
  | .send =>
    match w.pending with
    | [] => none
    | e :: es => some { w with pending := es, log := w.log ++ [.sendSignal e] }

section Steps

variable {P : Program M Q S n} {w w' : World M Q S n} {t : Turn} {ts : List Turn} {buf : Buffer n}

/-- The steps of `main` that have been taken. -/
def mainSteps (log : List (Event M Q S)) : List (MainStep M Q S) :=
  log.filterMap fun
    | .main s => some s
    | _ => none

theorem mem_mainSteps {log : List (Event M Q S)} {s : MainStep M Q S} :
    s ∈ mainSteps log ↔ .main s ∈ log := by
  rw [mainSteps, List.mem_filterMap]
  constructor
  · rintro ⟨e, he, hs⟩
    cases e with
    | main s' => cases hs; exact he
    | _ => cases hs
  · exact fun h => ⟨_, h, rfl⟩

/-- A turn logs one event, and `main` moves on in its own turns. -/
theorem step_cases (h : step P w t = some w') :
    ∃ e, e.turn = t ∧ w'.log = w.log ++ [e] ∧
      mainSteps w'.log ++ w'.rest = mainSteps w.log ++ w.rest ∧
      (mainSteps w'.log).length = (mainSteps w.log).length + [t].count .main := by
  cases t with
  | main =>
    simp only [step] at h
    split at h
    · cases h
    · rename_i s rest hrest
      cases h
      refine ⟨.main s, rfl, rfl, ?_, ?_⟩
      · simp [mainSteps, hrest]
      · simp [mainSteps]
  | tick =>
    simp only [step] at h
    split at h
    · cases h
      exact ⟨.sysTick, rfl, rfl, by simp [mainSteps], by simp [mainSteps]⟩
    · cases h
  | receive r =>
    simp only [step] at h
    split at h
    · cases h
      exact ⟨.receive r, rfl, rfl, by simp [mainSteps], by simp [mainSteps]⟩
    · cases h
  | send =>
    simp only [step] at h
    split at h
    · cases h
    · rename_i e es _
      cases h
      exact ⟨.sendSignal e, rfl, rfl, by simp [mainSteps], by simp [mainSteps]⟩

/-- What `main` has done and what is left of it. -/
theorem main_run (h : Run (step P) Anything (start P buf) ts w) :
    mainSteps w.log ++ w.rest = P.main ∧ (mainSteps w.log).length = ts.count .main := by
  refine h.invariant
    (fun ts w => mainSteps w.log ++ w.rest = P.main ∧ (mainSteps w.log).length = ts.count .main)
    ⟨rfl, rfl⟩ ?_
  rintro ts w t w' ⟨hrest, hlen⟩ _ hs
  obtain ⟨e, _, _, hrest', hlen'⟩ := step_cases hs
  rw [List.count_append]
  exact ⟨hrest'.trans hrest, by omega⟩

/-- After `k` turns `main` has taken its first `k` steps. -/
theorem mainSteps_run (h : Run (step P) Anything (start P buf) ts w) :
    mainSteps w.log = P.main.take (ts.count .main) := by
  obtain ⟨hsplit, hlen⟩ := main_run h
  rw [← hsplit, ← hlen, List.take_left]

theorem rest_run (h : Run (step P) Anything (start P buf) ts w) :
    w.rest = P.main.drop (ts.count .main) := by
  obtain ⟨hsplit, hlen⟩ := main_run h
  rw [← hsplit, ← hlen, List.drop_left]

end Steps

/-! ## The documented order -/

def MainStep.isOsSetup : MainStep M Q S → Bool
  | .osSetup => true
  | _ => false

variable [DecidableEq M]

/-- `qStateMachine_Setup` of the machine. -/
def MainStep.setsUp (m : M) : MainStep M Q S → Bool
  | .init (.stateMachineSetup m' _ _) => m' = m
  | _ => false

/-- `qStateMachine_InstallSignalQueue` of the machine. -/
def MainStep.installsQueue (m : M) : MainStep M Q S → Bool
  | .init (.installSignalQueue m' _) => m' = m
  | _ => false

/-- The steps of `main` that a turn of another thread has to come after. -/
def Program.awaits (P : Program M Q S n) : Turn → List (MainStep M Q S → Bool)
  | .tick => [MainStep.isOsSetup]
  | .send =>
    MainStep.isOsSetup :: P.machines.flatMap fun m => [MainStep.setsUp m, MainStep.installsQueue m]
  | _ => []

/-- Every call comes after the steps of `main` that it has to come after. -/
def Program.Ordered (P : Program M Q S n) (log : List (Event M Q S)) : Prop :=
  throughout (fun before e => ∀ p ∈ P.awaits e.turn, ∃ s, .main s ∈ before ∧ p s = true) log

/-- `main` has had `setup` turns before every tick and `install` turns before every send. -/
def Timely (setup install : Nat) (ts : List Turn) : Prop :=
  throughout (fun before t => (t = .tick → setup ≤ before.count .main) ∧
    (t = .send → install ≤ before.count .main)) ts

theorem ordered_concat {P : Program M Q S n} {log : List (Event M Q S)} {e : Event M Q S} :
    P.Ordered (log ++ [e]) ↔
      P.Ordered log ∧ ∀ p ∈ P.awaits e.turn, ∃ s, .main s ∈ log ∧ p s = true :=
  throughout_concat

theorem timely_concat {setup install : Nat} {ts : List Turn} {t : Turn} :
    Timely setup install (ts ++ [t]) ↔ Timely setup install ts ∧
      (t = .tick → setup ≤ ts.count .main) ∧ (t = .send → install ≤ ts.count .main) :=
  throughout_concat

/-- The number of steps of `main` that a turn has to come after. -/
def Program.deadline (P : Program M Q S n) (t : Turn) : Nat :=
  (P.awaits t).foldr (fun p k => max (P.main.findIdx p + 1) k) 0

theorem deadline_le_iff {P : Program M Q S n} {t : Turn} {k : Nat} :
    P.deadline t ≤ k ↔ ∀ p ∈ P.awaits t, P.main.findIdx p < k := by
  unfold Program.deadline
  induction P.awaits t with
  | nil => simp
  | cons p ps ih =>
    rw [List.foldr_cons, List.forall_mem_cons, ← ih]
    omega

/-- **A schedule keeps the documented order exactly when it is timely**, if `main` takes all the
    steps that the other threads have to wait for. -/
theorem ordered_iff {P : Program M Q S n} (htick : P.deadline .tick ≤ P.main.length)
    (hsend : P.deadline .send ≤ P.main.length) {buf : Buffer n} {ts : List Turn} {w : World M Q S n}
    (hr : Run (step P) Anything (start P buf) ts w) :
    P.Ordered w.log ↔ Timely (P.deadline .tick) (P.deadline .send) ts := by
  have hmain : ∀ t, P.deadline t ≤ P.main.length := by
    intro t
    cases t with
    | tick => exact htick
    | send => exact hsend
    | main => exact Nat.zero_le _
    | receive r => exact Nat.zero_le _
  induction hr with
  | nil => exact iff_of_true (throughout_nil _) (throughout_nil _)
  | @snoc ts w w' t hr _ hs ih =>
    obtain ⟨e, rfl, hlog, _⟩ := step_cases hs
    rw [hlog, ordered_concat, timely_concat]
    refine and_congr ih ?_
    have hawaited : (∀ p ∈ P.awaits e.turn, ∃ s, .main s ∈ w.log ∧ p s = true) ↔
        P.deadline e.turn ≤ ts.count .main := by
      rw [deadline_le_iff]
      refine forall₂_congr fun p hp => ?_
      have hp' := List.findIdx_lt_length.1 (deadline_le_iff.1 (hmain _) p hp)
      rw [← exists_mem_take_iff hp', ← mainSteps_run hr]
      simp only [mem_mainSteps]
    rw [hawaited]
    cases e.turn with
    | tick => simp
    | send => simp
    | main => simp [Program.deadline, Program.awaits]
    | receive r => simp [Program.deadline, Program.awaits]

/-! ## The example programs -/

/-- `examples/microwave`. -/
def microwave (Z : Zmq) : Program Microwave.StateMachine Microwave.Queue Microwave.State 10 where
  hsmsInit := Microwave.hsmMicrowaveInit
  machines := [.microwaveStateMachine]
  msgHandlerPass := Microwave.msgHandlerPass Z

/-- `examples/pub_sub_example`; a send with a `NULL` machine concerns both machines. -/
def pubSub (Z : Zmq) : Program PubSub.StateMachine PubSub.Queue PubSub.State 32 where
  hsmsInit := PubSub.hsmPseInit
  machines := [.pseSaStateMachine, .pseSbStateMachine]
  msgHandlerPass := PubSub.msgHandlerPass Z

/-- `qOS_Setup` is step 4 of `main`, and the installation of the signal queue is step 7. -/
theorem microwave_deadline (Z : Zmq) :
    (microwave Z).deadline .tick = 4 ∧ (microwave Z).deadline .send = 7 := ⟨rfl, rfl⟩

/-- `qOS_Setup` is step 4 of `main`, and the installation of SB's signal queue is step 21. -/
theorem pubSub_deadline (Z : Zmq) :
    (pubSub Z).deadline .tick = 4 ∧ (pubSub Z).deadline .send = 21 := ⟨rfl, rfl⟩

/-- **When the kernel is ready before it is called**: exactly in the schedules that give `main`
    its steps up to `qOS_Setup` before the first tick, and its steps up to the last installation
    of a signal queue before the first send. -/
theorem kernel_ready_iff (Z : Zmq) :
    (∀ buf ts w, Run (step (microwave Z)) Anything (start (microwave Z) buf) ts w →
      ((microwave Z).Ordered w.log ↔ Timely 4 7 ts)) ∧
    ∀ buf ts w, Run (step (pubSub Z)) Anything (start (pubSub Z) buf) ts w →
      ((pubSub Z).Ordered w.log ↔ Timely 4 21 ts) := by
  constructor
  · intro buf ts w hr
    obtain ⟨htick, hsend⟩ := microwave_deadline Z
    have hlen : (microwave Z).main.length = 22 := rfl
    rw [ordered_iff (by omega) (by omega) hr, htick, hsend]
  · intro buf ts w hr
    obtain ⟨htick, hsend⟩ := pubSub_deadline Z
    have hlen : (pubSub Z).main.length = 32 := rfl
    rw [ordered_iff (by omega) (by omega) hr, htick, hsend]

/-- Turns of `main` alone are timely. -/
theorem timely_main (setup install k : Nat) : Timely setup install (List.replicate k .main) := by
  intro before t h
  have hmain : t = .main := List.eq_of_mem_replicate (h.subset (by simp))
  subst hmain
  exact ⟨nofun, nofun⟩

/-- A message that is received after enough turns of `main` can be sent on at once. -/
theorem timely_send (setup : Nat) {install k : Nat} (h : install ≤ k) (r : Received) :
    Timely setup install (List.replicate k .main ++ [.receive r] ++ [.send]) := by
  rw [timely_concat, timely_concat]
  refine ⟨⟨timely_main setup install k, nofun, nofun⟩, nofun, fun _ => ?_⟩
  rw [List.count_append, List.count_replicate_self]
  exact h.trans (Nat.le_add_right _ _)

/-- Both programs send in order when `main` has had all the turns that a send waits for. -/
theorem kernel_ready_on_time :
    (∃ w, Run (step (microwave .reference)) Anything (start (microwave .reference) Buffer.zero)
      (List.replicate 7 .main ++ [.receive (.message (bytes "open"))] ++ [.send]) w ∧
      (microwave .reference).Ordered w.log) ∧
    ∃ w, Run (step (pubSub .reference)) Anything (start (pubSub .reference) Buffer.zero)
      (List.replicate 21 .main ++ [.receive (.message (bytes "SYS_SIG_TYPE_1"))] ++ [.send]) w ∧
      (pubSub .reference).Ordered w.log := by
  constructor
  · obtain ⟨w, hr⟩ : ∃ w, Run (step (microwave .reference)) Anything
        (start (microwave .reference) Buffer.zero)
        (List.replicate 7 .main ++ [.receive (.message (bytes "open"))] ++ [.send]) w :=
      Run.of_execute_isSome (by decide)
    exact ⟨w, hr, ((kernel_ready_iff _).1 _ _ w hr).2 (timely_send 4 (Nat.le_refl 7) _)⟩
  · obtain ⟨w, hr⟩ : ∃ w, Run (step (pubSub .reference)) Anything
        (start (pubSub .reference) Buffer.zero)
        (List.replicate 21 .main ++ [.receive (.message (bytes "SYS_SIG_TYPE_1"))] ++ [.send]) w :=
      Run.of_execute_isSome (by decide)
    exact ⟨w, hr, ((kernel_ready_iff _).2 _ _ w hr).2 (timely_send 4 (Nat.le_refl 21) _)⟩

/-- The tick thread exists after two steps of `main`, and nothing keeps it from running then. -/
theorem not_kernel_ready :
    ¬ ∀ ts w, Run (step (microwave .reference)) Anything (start (microwave .reference) Buffer.zero)
      ts w → (microwave .reference).Ordered w.log := by
  intro h
  obtain ⟨w, hr⟩ : ∃ w, Run (step (microwave .reference)) Anything
      (start (microwave .reference) Buffer.zero) [.main, .main, .tick] w :=
    Run.of_execute_isSome (by decide)
  obtain ⟨htick, hsend⟩ := microwave_deadline .reference
  have hlen : (microwave .reference).main.length = 22 := rfl
  have htimely := (ordered_iff (by omega) (by omega) hr).1 (h _ w hr)
  have hcount := (htimely [.main, .main] .tick (List.prefix_refl _)).1 rfl
  rw [htick] at hcount
  exact absurd hcount (by decide)

end QuarkTS.Boot
