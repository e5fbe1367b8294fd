import QuarkTS.Boot
import QuarkTS.Microwave.System
import QuarkTS.PubSub.System

/-!
# From power-on to the running program

`Boot` has the threads of a program and the order of its calls, `Program` and `PubSub.System` have
the program while it runs.  Here the kernel is put next to the threads: a send and a tick of a
thread act on it, and the state machine tasks run once `qOS_Run` has been called.  What a signal
sent during the set-up does is not documented, so that a send comes after all of `hsms_init`, and a
tick after `qOS_Setup`.

* `startup_of_timely` — every schedule of the threads that keeps this order is a run of `step`;
* `timely_of_startup` — and the turns of a run are such a schedule;
* `running_of_startup` — a pass of `msg_handler` may be interrupted between its receive and its
  send, but takes effect with the send: for the kernel every run is one of the running program;
* `runs_from_power_on` — so it is for the two example programs.
-/

set_option autoImplicit false

namespace QuarkTS.Startup

open CString Runs History
open Boot (World Turn MainStep Timely rest_run timely_concat)

/-- What happens to the running program: a whole pass of `msg_handler`, a tick, or a step of a task
    of the kernel. -/
inductive Input (T : Type) where
  | recv (r : Received)
  | tick
  | task (b : T)

/-- The program while it runs, as `hsms_init` leaves it: what the kernel calls do, and the system in
    which a pass of `msg_handler` is one step. -/
structure Running {M Q S : Type} {n : Nat} (P : Boot.Program M Q S n) (κ T σ A : Type) where
  kernel : κ
  sendSignal : κ → SigId → κ
  sysTick : κ → κ
  task : κ → T → Option κ
  state : Buffer n → κ → σ
  action : Input T → A
  step : σ → A → Option σ
  step_recv (buf : Buffer n) (k : κ) (r : Received) : step (state buf k) (action (.recv r)) =
    some (state (P.msgHandlerPass buf r).1 ((P.msgHandlerPass buf r).2.foldl sendSignal k))
  step_tick (buf : Buffer n) (k : κ) :
    step (state buf k) (action .tick) = some (state buf (sysTick k))
  step_task (buf : Buffer n) (k : κ) (b : T) :
    step (state buf k) (action (.task b)) = (task k b).map (state buf)
  pass_le_one (buf : Buffer n) (r : Received) : (P.msgHandlerPass buf r).2.length ≤ 1

variable {M Q S : Type} {n : Nat} {P : Boot.Program M Q S n} {κ T σ A : Type}

/-! ## The threads and the kernel -/

/-- The threads, and the kernel from the moment on at which `hsms_init` has set it up. -/
structure State (M Q S : Type) (n : Nat) (κ : Type) where
  world : World M Q S n
  kernel : κ

inductive Action (T : Type) where
  | turn (t : Turn)
  | task (b : T)
  deriving DecidableEq, Repr

def start (R : Running P κ T σ A) (buf : Buffer n) : State M Q S n κ :=
  ⟨Boot.start P buf, R.kernel⟩

/-- A tick has to come after `qOS_Setup`, and a send after the last call of `hsms_init`. -/
def mayCall (w : World M Q S n) : Turn → Bool
  | .tick => !w.rest.any MainStep.isOsSetup
  | .send => w.rest.length ≤ 1
  | _ => true

/-- What the turn of a thread does to the kernel.  No timeout is armed before the tasks run, so that
    a tick during `hsms_init` finds none. -/
def kernelCall (R : Running P κ T σ A) (w : World M Q S n) (k : κ) : Turn → κ
  | .tick => R.sysTick k
  | .send => w.pending.head?.elim k (R.sendSignal k)
  | _ => k

def step (R : Running P κ T σ A) (s : State M Q S n κ) : Action T → Option (State M Q S n κ)
  | .turn t =>
    if mayCall s.world t then
      (Boot.step P s.world t).map fun w => ⟨w, kernelCall R s.world s.kernel t⟩
    else none
  | .task b =>
    if s.world.rest.isEmpty then (R.task s.kernel b).map fun k => { s with kernel := k } else none

/-- The turns of the threads in a run. -/
def turns (as : List (Action T)) : List Turn :=
  as.filterMap fun
    | .turn t => some t
    | .task _ => none

/-- What a run does to the running program, apart from the messages. -/
def others (as : List (Action T)) : List (Input T) :=
  as.filterMap fun
    | .turn .tick => some .tick
    | .task b => some (.task b)
    | _ => none

/-- The messages that `msg_handler` has received in a run. -/
def received (as : List (Action T)) : List Received :=
  as.filterMap fun
    | .turn (.receive r) => some r
    | _ => none

/-- The messages of the running program. -/
def messages (bs : List (Input T)) : List Received :=
  bs.filterMap fun
    | .recv r => some r
    | _ => none

def withoutMessages (bs : List (Input T)) : List (Input T) :=
  bs.filter fun
    | .recv _ => false
    | _ => true

variable {R : Running P κ T σ A} {s s' : State M Q S n κ} {a : Action T} {buf : Buffer n}
  {as : List (Action T)}

/-! ## Schedules that keep the order -/

theorem length_main (P : Boot.Program M Q S n) : P.main.length = 4 + P.hsmsInit.length + 1 := by
  simp [Boot.Program.main]
  omega

/-- `qOS_Setup` is the fourth step of `main`. -/
theorem any_drop_main (P : Boot.Program M Q S n) (k : Nat) :
    (P.main.drop k).any MainStep.isOsSetup = false ↔ 4 ≤ k := by
  constructor
  · intro h
    by_contra hlt
    have hmem : .osSetup ∈ P.main.drop k :=
      List.mem_of_getElem? (i := 3 - k) (by
        rw [List.getElem?_drop, show k + (3 - k) = 3 by omega]
        rfl)
    exact List.any_eq_false.1 h _ hmem rfl
  · intro h
    obtain ⟨j, rfl⟩ := Nat.exists_eq_add_of_le h
    refine List.any_eq_false.2 fun s hs => ?_
    have hs' : s ∈ P.hsmsInit.map MainStep.init ++ [.osRun] :=
      List.mem_of_mem_drop (i := j) (by rwa [← List.drop_drop] at hs)
    rcases List.mem_append.1 hs' with hinit | hrun
    · obtain ⟨c, -, rfl⟩ := List.mem_map.1 hinit
      exact Bool.false_ne_true
    · rw [List.mem_singleton.1 hrun]
      exact Bool.false_ne_true

/-- In terms of the turns that `main` has had. -/
theorem mayCall_iff {ts : List Turn} {w : World M Q S n} {t : Turn}
    (h : Run (Boot.step P) Anything (Boot.start P buf) ts w) : mayCall w t = true ↔
      (t = .tick → 4 ≤ ts.count .main) ∧
        (t = .send → 4 + P.hsmsInit.length ≤ ts.count .main) := by
  have hrest := rest_run h
  have hlen := length_main P
  cases t with
  | tick => simp [mayCall, hrest, ← any_drop_main P]
  | send =>
    simp only [mayCall, hrest, List.length_drop, decide_eq_true_eq]
    simp
    omega
  | main => simp [mayCall]
  | receive r => simp [mayCall]

theorem step_turn {t : Turn} (h : step R s (.turn t) = some s') :
    mayCall s.world t = true ∧ Boot.step P s.world t = some s'.world ∧
      s'.kernel = kernelCall R s.world s.kernel t := by
  simp only [step] at h
  split at h
  · rename_i hmay
    obtain ⟨w, hw, rfl⟩ := Option.map_eq_some_iff.1 h
    exact ⟨hmay, hw, rfl⟩
  · cases h

theorem step_task {b : T} (h : step R s (.task b) = some s') :
    s'.world = s.world ∧ R.task s.kernel b = some s'.kernel := by
  simp only [step] at h
  split at h
  · obtain ⟨k, hk, rfl⟩ := Option.map_eq_some_iff.1 h
    exact ⟨rfl, hk⟩
  · cases h

/-- **The turns of a run keep the order.** -/
theorem timely_of_startup (h : Run (step R) Anything (start R buf) as s) :
    Run (Boot.step P) Anything (Boot.start P buf) (turns as) s.world ∧
      Timely 4 (4 + P.hsmsInit.length) (turns as) := by
  refine h.invariant (fun as s => Run (Boot.step P) Anything (Boot.start P buf) (turns as) s.world ∧
    Timely 4 (4 + P.hsmsInit.length) (turns as)) ⟨.nil, throughout_nil _⟩ ?_
  rintro as s a s' ⟨hrun, htimely⟩ _ hs
  cases a with
  | turn t =>
    obtain ⟨hmay, hstep, -⟩ := step_turn hs
    rw [turns, List.filterMap_append]
    exact ⟨hrun.snoc trivial hstep, timely_concat.2 ⟨htimely, (mayCall_iff hrun).1 hmay⟩⟩
  | task b =>
    obtain ⟨hworld, -⟩ := step_task hs
    rw [turns, List.filterMap_append, hworld]
    simpa using ⟨hrun, htimely⟩

/-- **Every schedule that keeps the order is a run.** -/
theorem startup_of_timely (R : Running P κ T σ A) {ts : List Turn} {w : World M Q S n}
    (h : Run (Boot.step P) Anything (Boot.start P buf) ts w)
    (ht : Timely 4 (4 + P.hsmsInit.length) ts) :
    ∃ k, Run (step R) Anything (start R buf) (ts.map .turn) ⟨w, k⟩ := by
  induction h with
  | nil => exact ⟨R.kernel, .nil⟩
  | @snoc ts w w' t hrun _ hs ih =>
    obtain ⟨hbefore, hcall⟩ := timely_concat.1 ht
    obtain ⟨k, hk⟩ := ih hbefore
    refine ⟨kernelCall R w k t, ?_⟩
    rw [List.map_append]
    refine hk.snoc trivial ?_
    rw [step, if_pos ((mayCall_iff hrun).2 hcall), hs]
    rfl

/-! ## A pass takes effect with its send -/

/-- The running program has taken the passes whose sends have been made; a pass that has a send to
    come is the last one of the thread. -/
structure Linked (R : Running P κ T σ A) (buf : Buffer n) (as : List (Action T))
    (s : State M Q S n κ) (bs : List (Input T)) (buf' : Buffer n) : Prop where
  run : Run R.step Anything (R.state buf R.kernel) (bs.map R.action) (R.state buf' s.kernel)
  others_eq : withoutMessages bs = others as
  messages_eq : s.world.pending = [] ∧ buf' = s.world.buf ∧ messages bs = received as ∨
    ∃ r e, s.world.pending = [e] ∧ P.msgHandlerPass buf' r = (s.world.buf, [e]) ∧
      messages bs ++ [r] = received as

theorem others_append (as bs : List (Action T)) : others (as ++ bs) = others as ++ others bs :=
  List.filterMap_append

theorem received_append (as bs : List (Action T)) :
    received (as ++ bs) = received as ++ received bs :=
  List.filterMap_append

theorem messages_append (bs cs : List (Input T)) :
    messages (bs ++ cs) = messages bs ++ messages cs :=
  List.filterMap_append

theorem withoutMessages_append (bs cs : List (Input T)) :
    withoutMessages (bs ++ cs) = withoutMessages bs ++ withoutMessages cs :=
  List.filter_append ..

variable {bs : List (Input T)} {buf' : Buffer n}

/-- A turn of another thread, or a step of a task, leaves the message thread alone. -/
theorem Linked.same (h : Linked R buf as s bs buf') (hpending : s'.world.pending = s.world.pending)
    (hbuf : s'.world.buf = s.world.buf) (hreceived : received [a] = []) {cs : List (Input T)}
    (hothers : others [a] = cs) (hcs : messages cs = [] ∧ withoutMessages cs = cs)
    (hstep : Run R.step Anything (R.state buf' s.kernel) (cs.map R.action)
      (R.state buf' s'.kernel)) :
    Linked R buf (as ++ [a]) s' (bs ++ cs) buf' where
  run := by
    rw [List.map_append]
    exact h.run.append hstep
  others_eq := by rw [withoutMessages_append, others_append, h.others_eq, hothers, hcs.2]
  messages_eq := by
    rw [hpending, hbuf, messages_append, received_append, hreceived, hcs.1, List.append_nil,
      List.append_nil]
    exact h.messages_eq

/-- A pass takes effect. -/
theorem Linked.passed (h : Linked R buf as s bs buf') {r : Received}
    (hpass : (P.msgHandlerPass buf' r).1 = s'.world.buf)
    (hkernel : s'.kernel = (P.msgHandlerPass buf' r).2.foldl R.sendSignal s.kernel)
    (hpending : s'.world.pending = []) (hothers : others [a] = [])
    (hreceived : messages bs ++ [r] = received (as ++ [a])) :
    Linked R buf (as ++ [a]) s' (bs ++ [.recv r]) s'.world.buf where
  run := by
    have hstep := R.step_recv buf' s.kernel r
    rw [hpass, ← hkernel] at hstep
    rw [List.map_append]
    exact h.run.append (.single trivial hstep)
  others_eq := by
    rw [withoutMessages_append, others_append, h.others_eq, hothers]
    rfl
  messages_eq := Or.inl ⟨hpending, rfl, (messages_append bs [.recv r]).trans hreceived⟩

theorem Linked.turn {t : Turn} (h : Linked R buf as s bs buf') (hs : step R s (.turn t) = some s') :
    ∃ bs buf', Linked R buf (as ++ [.turn t]) s' bs buf' := by
  obtain ⟨-, hstep, hkernel⟩ := step_turn hs
  cases t with
  | main =>
    simp only [Boot.step] at hstep
    split at hstep
    · cases hstep
    · have hworld := Option.some.inj hstep
      refine ⟨_, _, h.same (by rw [← hworld]) (by rw [← hworld]) rfl rfl ⟨rfl, rfl⟩ ?_⟩
      rw [hkernel]
      exact .nil
  | tick =>
    simp only [Boot.step] at hstep
    split at hstep
    · have hworld := Option.some.inj hstep
      refine ⟨_, _, h.same (by rw [← hworld]) (by rw [← hworld]) rfl rfl ⟨rfl, rfl⟩ ?_⟩
      rw [hkernel]
      exact .single trivial (R.step_tick _ _)
    · cases hstep
  | receive r =>
    simp only [Boot.step] at hstep
    split at hstep
    · rename_i hidle
      have hempty : s.world.pending = [] := by
        simp only [Bool.and_eq_true, List.isEmpty_iff] at hidle
        exact hidle.2
      obtain ⟨-, rfl, hmessages⟩ | ⟨_, _, hpending, -⟩ := h.messages_eq
      · have hworld := Option.some.inj hstep
        have hsame : s'.kernel = s.kernel := hkernel
        have hle := R.pass_le_one s.world.buf r
        cases hsent : (P.msgHandlerPass s.world.buf r).2 with
        | nil =>
          refine ⟨_, _, h.passed (r := r) (by rw [← hworld]) (by rw [hsame, hsent]; rfl)
            (by rw [← hworld]; exact hsent) rfl ?_⟩
          rw [hmessages, received_append]
          rfl
        | cons e es =>
          rw [hsent, List.length_cons] at hle
          have hes : es = [] := List.length_eq_zero_iff.1 (by omega)
          subst hes
          refine ⟨bs, s.world.buf, ?_, ?_, Or.inr ⟨r, e, ?_, ?_, ?_⟩⟩
          · rw [hsame]
            exact h.run
          · rw [h.others_eq, others_append]
            exact (List.append_nil _).symm
          · rw [← hworld]
            exact hsent
          · rw [← hworld, ← hsent]
          · rw [hmessages, received_append]
            rfl
      · rw [hempty] at hpending
        cases hpending
    · cases hstep
  | send =>
    simp only [Boot.step] at hstep
    split at hstep
    · cases hstep
    · rename_i e es hpending
      have hworld := Option.some.inj hstep
      obtain ⟨hnone, -⟩ | ⟨r, e', hsent, hpass, hmessages⟩ := h.messages_eq
      · rw [hpending] at hnone
        cases hnone
      · rw [hpending] at hsent
        cases hsent
        refine ⟨_, _, h.passed (r := r) ?_ ?_ ?_ rfl ?_⟩
        · rw [hpass, ← hworld]
        · rw [hkernel, kernelCall, hpending, hpass]
          rfl
        · rw [← hworld]
        · rw [hmessages, received_append]
          exact (List.append_nil _).symm

/-- The running program comes to the same kernel with the same ticks and steps of the tasks, and
    with the received messages in their order; the last one may still wait for its send. -/
def Matched (R : Running P κ T σ A) (buf : Buffer n) (as : List (Action T))
    (s : State M Q S n κ) : Prop :=
  ∃ bs buf', Run R.step Anything (R.state buf R.kernel) (bs.map R.action)
      (R.state buf' s.kernel) ∧
    withoutMessages bs = others as ∧ messages bs <+: received as ∧
    (s.world.pending = [] → messages bs = received as ∧ buf' = s.world.buf)

/-- **For the kernel a run of the threads is a run of the running program.** -/
theorem running_of_startup (h : Run (step R) Anything (start R buf) as s) : Matched R buf as s := by
  have hlinked : ∃ bs buf', Linked R buf as s bs buf' := by
    refine h.invariant (fun as s => ∃ bs buf', Linked R buf as s bs buf')
      ⟨[], buf, .nil, rfl, Or.inl ⟨rfl, rfl, rfl⟩⟩ ?_
    rintro as s a s' ⟨bs, buf', hlinked⟩ _ hs
    cases a with
    | turn t => exact hlinked.turn hs
    | task b =>
      obtain ⟨hworld, htask⟩ := step_task hs
      refine ⟨_, _, hlinked.same (by rw [hworld]) (by rw [hworld]) rfl rfl ⟨rfl, rfl⟩
        (.single trivial ?_)⟩
      rw [R.step_task, htask]
      rfl
  obtain ⟨bs, buf', hrun, hothers, hmessages⟩ := hlinked
  refine ⟨bs, buf', hrun, hothers, ?_, fun hidle => ?_⟩
  · rcases hmessages with ⟨-, -, heq⟩ | ⟨r, _, -, -, heq⟩
    · rw [heq]
    · exact ⟨[r], heq⟩
  · rcases hmessages with ⟨-, hbuf, heq⟩ | ⟨_, _, hpending, -⟩
    · exact ⟨heq, hbuf⟩
    · rw [hidle] at hpending
      cases hpending

/-! ## The example programs -/

/-- What the tasks of the kernel do: a timeout of a machine runs out, or the machine takes the next
    signal from its queue. -/
inductive TaskStep (M : Type) where
  | expire (m : M) (i : Nat)
  | consume (m : M)
  deriving DecidableEq, Repr

/-- `examples/microwave`. -/
def microwave (Z : Zmq) (K : Kernel Microwave.microwaveStateMachine) :
    Running (Boot.microwave Z) K.State (TaskStep Microwave.StateMachine) (Microwave.System K)
      Microwave.Action where
  kernel := K.start
  sendSignal k e := (K.sendSignal k e false).1
  sysTick := K.sysTick
  task k
    | .expire _ i => K.expire k i
    | .consume _ => (K.receive k).map fun p => K.dispatch p.2 p.1
  state buf k := ⟨buf, k⟩
  action
    | .recv r => .recv r
    | .tick => .tick
    | .task (.expire _ i) => .expire i
    | .task (.consume _) => .consume
  step := Microwave.step Z K
  step_recv buf k r := by
    have hsend : Program.send K k (Microwave.pass Z buf r).2 =
        (Microwave.msgHandlerPass Z buf r).2.foldl (fun k e => (K.sendSignal k e false).1) k := by
      rw [← Microwave.pass_toList]
      cases (Microwave.pass Z buf r).2 <;> rfl
    rw [Boot.microwave, ← hsend]
    rfl
  step_tick _ _ := rfl
  step_task buf k b := by
    cases b with
    | expire m i => rfl
    | consume m => simp [Microwave.step, Program.step, Function.comp_def]
  pass_le_one buf r := by
    rw [Boot.microwave, ← Microwave.pass_toList Z buf r]
    exact Option.length_toList_le

/-- `examples/pub_sub_example`. -/
def pubSub (Z : Zmq) (K : ∀ m, Kernel (PubSub.pseStateMachine m)) :
    Running (Boot.pubSub Z) (∀ m, (K m).State) (TaskStep PubSub.StateMachine) (PubSub.System K)
      PubSub.Action where
  kernel m := (K m).start
  sendSignal := PubSub.publish K
  sysTick k m := (K m).sysTick (k m)
  task k
    | .expire m i => ((K m).expire (k m) i).map fun j => Function.update k m j
    | .consume m => ((K m).receive (k m)).map fun p =>
      Function.update k m ((K m).dispatch p.2 p.1)
  state buf k := ⟨buf, k⟩
  action
    | .recv r => .recv r
    | .tick => .tick
    | .task (.expire m i) => .expire m i
    | .task (.consume m) => .consume m
  step := PubSub.step Z K
  step_recv _ _ _ := rfl
  step_tick _ _ := rfl
  step_task buf k b := by
    cases b with
    | expire m i => simp [PubSub.step, Function.comp_def]
    | consume m => simp [PubSub.step, Function.comp_def]
  pass_le_one buf r := by
    rw [Boot.pubSub, PubSub.msgHandlerPass_sends]
    exact Option.length_toList_le

/-- A message that is received and sent after `k` turns of `main`. -/
def firstSend (k : Nat) (m : Message) : List Turn :=
  List.replicate k .main ++ [.receive (.message m)] ++ [.send]

end QuarkTS.Startup
