import QuarkTS.Microwave.Commands
import QuarkTS.Microwave.System

/-!
# Door commands

A run of the program receives the four command words.  `OpenAhead` is the door position that the
machine heads for: the last door signal in its queue, or its leaf when the queue has none.  As long
as no command that asks for the other position meets a full queue, this is the position that the
last received door command asked for, so that an emptied queue leaves the machine in it.

* `door_follows_last_command` — no door command is lost in such a run;
* `lost_door_command` — a command that asks for the other position and meets a full queue is lost:
  the task can empty the queue and leave the machine in the wrong position.
-/

set_option autoImplicit false

namespace QuarkTS.Microwave

open Statechart CString Reactor Runs History Program

/-! ## Received commands -/

/-- The message is one of the four command words. -/
def IsCommand (m : Message) : Prop :=
  m = bytes "open" ∨ m = bytes "close" ∨ m = bytes "toast" ∨ m = bytes "bake"

instance (m : Message) : Decidable (IsCommand m) :=
  inferInstanceAs (Decidable (_ ∨ _ ∨ _ ∨ _))

/-- `open` or `close`. -/
def isDoorWord (m : Message) : Bool := m == bytes "open" || m == bytes "close"

/-- The messages that a run has received. -/
def messages (as : List Action) : List Message :=
  as.filterMap fun
    | .recv r => r.message?
    | _ => none

theorem messages_concat_message (as : List Action) (m : Message) :
    messages (as ++ [.recv (.message m)]) = messages as ++ [m] := by
  simp [messages, Received.message?]

theorem messages_concat_other {as : List Action} {a : Action}
    (h : ∀ m, a ≠ .recv (.message m)) : messages (as ++ [a]) = messages as := by
  have hnone : messages [a] = [] := by
    cases a with
    | recv r =>
      cases r with
      | message m => exact absurd rfl (h m)
      | error => rfl
    | tick => rfl
    | expire i => rfl
    | consume => rfl
  rw [messages, List.filterMap_append]
  change messages as ++ messages [a] = messages as
  rw [hnone, List.append_nil]

/-- A command word makes the handler send its signal. -/
theorem sent_of_command (Z : Zmq) (buf : Buffer 10) {m : Message} (hm : IsCommand m) :
    ∃ e, (pass Z buf (.message m)).2 = some e ∧ isDoor e = isDoorWord m ∧
      (e = SYS_SIG_OPEN ↔ m = bytes "open") := by
  have hmatch : (pass Z buf (.message m)).2 =
      (matchCommand (m ++ buf.contents.drop m.length)).head? := by
    have hpos : 0 < m.length := by rcases hm with rfl | rfl | rfl | rfl <;> decide
    have hfit : m.length ≤ 10 := by rcases hm with rfl | rfl | rfl | rfl <;> decide
    rw [pass, msgHandlerPass_message, if_pos hpos, Buffer.overwrite_contents,
      List.take_of_length_le hfit]
  obtain ⟨hopen, hclose, htoast, hbake⟩ := matchCommand_word (buf.contents.drop m.length)
  rw [hmatch]
  rcases hm with rfl | rfl | rfl | rfl
  · exact ⟨_, congrArg List.head? hopen, by decide, by decide⟩
  · exact ⟨_, congrArg List.head? hclose, by decide, by decide⟩
  · exact ⟨_, congrArg List.head? htoast, by decide, by decide⟩
  · exact ⟨_, congrArg List.head? hbake, by decide, by decide⟩

/-! ## The door position ahead -/

/-- The machine will be in `microwave_door_opened_state` once the queue is consumed. -/
def OpenAhead (leaf : State) (queue : List SigId) : Prop :=
  last isDoor queue = some SYS_SIG_OPEN ∨ last isDoor queue = none ∧ leaf = .doorOpened

instance (leaf : State) (queue : List SigId) : Decidable (OpenAhead leaf queue) :=
  inferInstanceAs (Decidable (_ ∨ _ ∧ _))

theorem openAhead_nil (leaf : State) : OpenAhead leaf [] ↔ leaf = .doorOpened := by
  simp [OpenAhead, last]

theorem openAhead_concat_pos {leaf : State} {queue : List SigId} {e : SigId}
    (h : isDoor e = true) : OpenAhead leaf (queue ++ [e]) ↔ e = SYS_SIG_OPEN := by
  simp [OpenAhead, last_concat_pos h]

theorem openAhead_concat_neg {leaf : State} {queue : List SigId} {e : SigId}
    (h : isDoor e = false) : OpenAhead leaf (queue ++ [e]) ↔ OpenAhead leaf queue := by
  rw [OpenAhead, last_concat_neg h, OpenAhead]

/-- A door signal decides on the door, and no other signal does. -/
theorem next_doorOpened_iff {s : State} (hs : IsLeaf s) (e : SigId) :
    next s e = .doorOpened ↔ if isDoor e = true then e = SYS_SIG_OPEN else s = .doorOpened := by
  by_cases he : e ∈ signals
  · simp only [signals, List.mem_cons, List.not_mem_nil, or_false] at he
    rcases hs with rfl | rfl | rfl | rfl <;> rcases he with rfl | rfl | rfl | rfl | rfl <;> decide
  · have hdoor : ¬ isDoor e = true := by
      intro h
      simp only [isDoor, Bool.or_eq_true, beq_iff_eq] at h
      rcases h with rfl | rfl <;> exact he (by decide)
    rw [next_of_notMem s he, if_neg hdoor]

/-- Consuming a signal does not change the position ahead. -/
theorem openAhead_fire {leaf : State} (hl : IsLeaf leaf) (e : SigId) (queue : List SigId) :
    OpenAhead (chart.fire leaf e) queue ↔ OpenAhead leaf (e :: queue) := by
  rw [OpenAhead, OpenAhead, last_cons, fire_eq_next hl, next_doorOpened_iff hl]
  cases last isDoor queue with
  | some x => simp
  | none => by_cases he : isDoor e = true <;> simp [he]

/-- Consuming the whole queue leads to the position ahead. -/
theorem openAhead_fires {leaf : State} (hl : IsLeaf leaf) (queue : List SigId) :
    chart.fires leaf queue = .doorOpened ↔ OpenAhead leaf queue := by
  induction queue generalizing leaf with
  | nil => exact (openAhead_nil leaf).symm
  | cons e queue ih => rw [Chart.fires_cons, ih (fire_isLeaf e hl), openAhead_fire hl]

/-! ## Runs -/

section Runs

variable {Z : Zmq} {K : Kernel microwaveStateMachine} {buf : Buffer 10} {as : List Action}
  {s s' : System K}

/-- A door command that meets a full queue asks for the position that the machine heads for. -/
def DoorFits (s : System K) : Action → Prop
  | .recv (.message m) => isDoorWord m = true → s.queue.length < topSigqueueStackSize ∨
      (OpenAhead s.leaf s.queue ↔ m = bytes "open")
  | _ => True

instance (s : System K) (a : Action) : Decidable (DoorFits s a) :=
  match a with
  | .recv (.message _) => inferInstanceAs (Decidable (_ → _ ∨ (_ ↔ _)))
  | .recv .error => inferInstanceAs (Decidable True)
  | .tick => inferInstanceAs (Decidable True)
  | .expire _ => inferInstanceAs (Decidable True)
  | .consume => inferInstanceAs (Decidable True)

/-- The position ahead after a command word. -/
theorem openAhead_recv {m : Message} (hm : IsCommand m)
    (h : step Z K s (.recv (.message m)) = some s') (hfits : DoorFits s (.recv (.message m))) :
    OpenAhead s'.leaf s'.queue ↔
      if isDoorWord m = true then m = bytes "open" else OpenAhead s.leaf s.queue := by
  obtain ⟨e, hsent, hdoor, hopen⟩ := sent_of_command Z s.buf hm
  obtain ⟨hl, _, _, hqueued⟩ := recv_cases h
  rw [hl]
  by_cases hd : isDoorWord m = true
  · rw [if_pos hd]
    rcases hqueued e hsent with ⟨_, hq⟩ | ⟨hfull, hq⟩
    · rw [hq, openAhead_concat_pos (hdoor.trans hd), hopen]
    · rw [hq]
      exact (hfits hd).resolve_left (capacity_eq ▸ hfull)
  · rw [if_neg hd]
    rcases hqueued e hsent with ⟨_, hq⟩ | ⟨_, hq⟩
    · rw [hq, openAhead_concat_neg (hdoor.trans (by simpa using hd))]
    · rw [hq]

/-- No other action changes the position ahead. -/
theorem openAhead_other {a : Action} (hs : IsLeaf s.leaf) (ha : ∀ m, a ≠ .recv (.message m))
    (h : step Z K s a = some s') :
    OpenAhead s'.leaf s'.queue ↔ OpenAhead s.leaf s.queue := by
  cases a with
  | recv r =>
    cases r with
    | message m => exact absurd rfl (ha m)
    | error =>
      obtain ⟨hl, _, hq, _⟩ := recv_cases h
      have hnone : (pass Z s.buf .error).2 = none := by
        simp [pass, msgHandlerPass, Z.recv_error]
      rw [hl, hq hnone]
  | tick =>
    obtain ⟨hl, hq, _⟩ := tick_cases h
    rw [hl, hq]
  | expire i =>
    obtain ⟨_, _, _, hl, hq, _⟩ := expire_cases h
    rcases hq with ⟨_, hq⟩ | ⟨_, hq⟩
    · rw [hl, hq, openAhead_concat_neg rfl]
    · rw [hl, hq]
  | consume =>
    obtain ⟨e, hq, hl, _⟩ := consume_cases microwaveStateMachine_plain h
    rw [hl, hq, openAhead_fire hs]

/-- The machine heads for the position that the last received door command asked for. -/
theorem openAhead_iff (h : Run (step Z K) DoorFits (start K buf) as s)
    (hm : ∀ m ∈ messages as, IsCommand m) :
    OpenAhead s.leaf s.queue ↔ last isDoorWord (messages as) = some (bytes "open") := by
  induction h with
  | nil =>
    rw [start_queue, openAhead_nil, start_off]
    decide
  | @snoc as s s' a hr hfits hs ih =>
    by_cases ha : ∀ m, a ≠ .recv (.message m)
    · rw [messages_concat_other ha] at hm ⊢
      rw [openAhead_other (run_isLeaf hr) ha hs, ih hm]
    · simp only [ne_eq, not_forall, not_not] at ha
      obtain ⟨m, rfl⟩ := ha
      rw [messages_concat_message] at hm ⊢
      rw [openAhead_recv (hm m (by simp)) hs hfits]
      by_cases hd : isDoorWord m = true
      · rw [if_pos hd, last_concat_pos hd, Option.some.injEq]
      · rw [if_neg hd, last_concat_neg (by simpa using hd)]
        exact ih fun m' hm' => hm m' (List.mem_append_left _ hm')

/-- **No door command is lost** in a run in which no command that asks for the other door position
    meets a full queue. -/
theorem door_follows_last_command (h : Run (step Z K) DoorFits (start K buf) as s)
    (hm : ∀ m ∈ messages as, IsCommand m) (hq : s.queue = []) :
    s.leaf = .doorOpened ↔ last isDoorWord (messages as) = some (bytes "open") := by
  rw [← openAhead_iff h hm, hq, openAhead_nil]

/-- The door is opened, in a run that loses nothing. -/
theorem door_follows_last_command_opened : ∃ s,
    Run (step .reference reference) DoorFits (start reference Buffer.zero)
        [.recv (.message (bytes "open")), .consume] s ∧
      s.queue = [] ∧ (s.leaf = .doorOpened ↔
        last isDoorWord (messages [.recv (.message (bytes "open")), .consume]) =
          some (bytes "open")) := by
  have hexec : (execute (step .reference reference) DoorFits (start reference Buffer.zero)
      [.recv (.message (bytes "open")), .consume]).map System.queue = some [] := by decide
  obtain ⟨s, hrun, hq⟩ := Run.of_execute_map hexec
  exact ⟨s, hrun, hq, door_follows_last_command hrun (by decide) hq⟩

/-- Ten heating commands arrive, then `open`; then ten signals are consumed. -/
def crowdedOpen : List Action :=
  List.replicate 10 (.recv (.message (bytes "toast"))) ++ [.recv (.message (bytes "open"))] ++
    List.replicate 10 .consume

/-- The machine never sees the `open` that comes after ten heating commands. -/
theorem not_door_follows_last_command : ¬ ∀ as s,
    Run (step .reference reference) Anything (start reference Buffer.zero) as s →
      (∀ m ∈ messages as, IsCommand m) → s.queue = [] →
      (s.leaf = .doorOpened ↔ last isDoorWord (messages as) = some (bytes "open")) := by
  intro h
  have hexec : (execute (step .reference reference) Anything (start reference Buffer.zero)
      crowdedOpen).map (fun s => (s.queue, s.leaf)) = some ([], .toasting) := by decide
  obtain ⟨s, hrun, hview⟩ := Run.of_execute_map hexec
  obtain ⟨hq, hl⟩ := Prod.mk.inj hview
  have hiff := h crowdedOpen s hrun (by decide) hq
  rw [hl] at hiff
  revert hiff
  decide

/-- A command that asks for the other door position and meets a full queue **is lost**: once the
    task has emptied the queue, the machine is in the wrong position. -/
theorem lost_door_command {m : Message} (hr : Run (step Z K) Anything (start K buf) as s)
    (hm : IsCommand m) (hfits : ¬ DoorFits s (.recv (.message m)))
    (h : step Z K s (.recv (.message m)) = some s') :
    ∃ s'', Run (step Z K) Anything s' (List.replicate s'.queue.length .consume) s'' ∧
      s''.queue = [] ∧ ¬ (s''.leaf = .doorOpened ↔ m = bytes "open") := by
  obtain ⟨s'', hrun, hempty, hleaf⟩ := run_drain microwaveStateMachine_plain (pass Z) s'
  refine ⟨s'', hrun, hempty, fun hiff => hfits fun _ => ?_⟩
  obtain ⟨e, hsent, _⟩ := sent_of_command Z s.buf hm
  obtain ⟨hl, _, _, hqueued⟩ := recv_cases h
  rcases hqueued e hsent with ⟨hlt, _⟩ | ⟨_, hq⟩
  · exact Or.inl (capacity_eq ▸ hlt)
  · right
    have hfires : s''.leaf = .doorOpened ↔ OpenAhead s'.leaf s'.queue := by
      rw [hleaf]
      exact openAhead_fires (hl ▸ run_isLeaf hr) s'.queue
    rw [← hiff, hfires, hl, hq]

end Runs

end QuarkTS.Microwave
