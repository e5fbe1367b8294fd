import QuarkTS.Microwave.Commands
import QuarkTS.Microwave.System
import QuarkTS.Program

/-!
# What becomes of the commands of the microwave

* `signals_accounted` — in every run, whatever the queue loses, the consumed and the waiting
  signals are a part of the signals sent, in their order, and the consumed ones alone determine
  the state;
* `typed_commands_consumed` — from the keyboard of the sender to the state: if no command meets a
  full queue, the consumed commands are the typed ones.
-/

set_option autoImplicit false

namespace QuarkTS.Microwave

open Statechart CString Reactor Runs History Program

/-! ## Commands sent -/

/-- The signals sent for a sequence of inputs are those of the message handler. -/
theorem sent_eq_msgHandler (Z : Zmq) (buf : Buffer 10) (rs : List Received) :
    sent (pass Z) buf rs = msgHandler Z buf rs := by
  induction rs generalizing buf with
  | nil => rfl
  | cons r rs ih => rw [sent, pass_toList, ih]; rfl

/-- A receive error changes nothing. -/
theorem msgHandler_error (Z : Zmq) (buf : Buffer 10) (rs : List Received) :
    msgHandler Z buf (.error :: rs) = msgHandler Z buf rs := by
  simp [msgHandler, receiveLoop, msgHandlerPass, Z.recv_error]

theorem msgHandler_messages (Z : Zmq) (buf : Buffer 10) (rs : List Received) :
    msgHandler Z buf rs = msgHandler Z buf ((rs.filterMap Received.message?).map .message) := by
  induction rs generalizing buf with
  | nil => rfl
  | cons r rs ih =>
    cases r with
    | error => rw [msgHandler_error, ih]; rfl
    | message m =>
      change (msgHandlerPass Z buf (.message m)).2 ++ msgHandler Z _ rs = _ ++ msgHandler Z _ _
      rw [ih]

/-! ## Typed door keys -/

/-- The keys of the sender for `open` and `close`. -/
def isDoorKey (line : String) : Bool := line == "1" || line == "2"

theorem lineSignal_isDoor (line : String) : ∀ e ∈ lineSignal line,
    isDoor e = isDoorKey line ∧ (e = SYS_SIG_OPEN ↔ line = "1") := by
  unfold lineSignal
  intro e he
  split at he
  · rename_i h; cases he; subst h; decide
  split at he
  · rename_i h; cases he; subst h; decide
  split at he
  · rename_i h; cases he; subst h; decide
  split at he
  · rename_i h; cases he; subst h; decide
  · cases he

/-- The last door command is the one of the last door key. -/
theorem last_isDoor_typed (lines : List String) :
    last isDoor (lines.filterMap lineSignal) = some SYS_SIG_OPEN ↔
      last isDoorKey lines = some "1" := by
  induction lines using List.reverseRecOn with
  | nil => simp [last]
  | append_singleton lines line ih =>
    rw [List.filterMap_append]
    cases hline : lineSignal line with
    | none =>
      have hkey : isDoorKey line = false := by
        by_contra hkey
        simp only [isDoorKey, Bool.not_eq_false, Bool.or_eq_true, beq_iff_eq] at hkey
        rcases hkey with rfl | rfl <;> simp [lineSignal] at hline
      rw [last_concat_neg hkey, ← ih]
      simp [hline]
    | some e =>
      obtain ⟨hdoor, hopen⟩ := lineSignal_isDoor line e hline
      rw [show [line].filterMap lineSignal = [e] by simp [hline]]
      cases hkey : isDoorKey line with
      | false => rw [last_concat_neg (hdoor.trans hkey), last_concat_neg hkey, ih]
      | true => rw [last_concat_pos (hdoor.trans hkey), last_concat_pos hkey]; simpa using hopen

theorem isDoor_not_timeout (e : SigId) (h : isDoor e = true) : (!isTimeout e) = true := by
  simp only [isDoor, Bool.or_eq_true, beq_iff_eq] at h
  rcases h with rfl | rfl <;> rfl

/-! ## Runs -/

section Runs

variable {Z : Zmq} {K : Kernel microwaveStateMachine} {buf : Buffer 10}
  {as : List (Action)} {w : System K × Ledger SigId}
  {G : System K → Action → Prop}

theorem program_leaf
    (h : Run (watch (step Z K) (ledger (pass Z) K)) (fun w a => G w.1 a)
      (start K buf, Ledger.empty) as w) : w.1.leaf = reading w.2.taken := by
  rw [leaf_eq_fires_taken microwaveStateMachine_plain h, ← fires_eq_reading, ← initial_leaf]

/-- **Every signal is accounted for**, in every run: what is consumed or waits is a part of what
    was sent, in its order; the commands sent are those that `msg_handler` finds in the received
    messages; and the consumed signals alone determine the active leaf. -/
theorem signals_accounted
    (h : Run (watch (step Z K) (ledger (pass Z) K)) (fun w a => G w.1 a)
      (start K buf, Ledger.empty) as w) :
    List.Sublist (w.2.taken ++ w.1.queue) w.2.issued ∧
      w.2.issued.filter (fun e => !isTimeout e) = msgHandler Z buf (inputs as) ∧
      w.1.leaf = reading w.2.taken := by
  refine ⟨taken_sublist_issued microwaveStateMachine_plain h, ?_, program_leaf h⟩
  rw [(issued_eq_sent (fun _ _ _ => isTimeout_pass) h).2, sent_eq_msgHandler]

/-- The eleventh of eleven `toast` is lost, and the rest is accounted for. -/
theorem signals_accounted_full : ∃ w,
    Run (watch (step .reference reference) (ledger (pass .reference) reference))
      (fun _ _ => True) (start reference Buffer.zero, Ledger.empty)
      (List.replicate 11 (.recv (.message (bytes "toast"))) ++ [.consume]) w ∧
    w.2.issued.length = 11 ∧
    List.Sublist (w.2.taken ++ w.1.queue) w.2.issued ∧
      w.2.issued.filter (fun e => !isTimeout e) = msgHandler .reference Buffer.zero
        (inputs (List.replicate 11 (.recv (.message (bytes "toast"))) ++ [.consume])) ∧
      w.1.leaf = reading w.2.taken := by
  have hexec : (execute
      (watch (step .reference reference) (ledger (pass .reference) reference))
      (fun _ _ => True) (start reference Buffer.zero, Ledger.empty)
      (List.replicate 11 (.recv (.message (bytes "toast"))) ++ [.consume])).map
        (fun w => w.2.issued.length) = some 11 := by decide
  obtain ⟨w, hrun, hlen⟩ := Run.of_execute_map hexec
  exact ⟨w, hrun, hlen, signals_accounted (G := fun _ _ => True) hrun⟩

/-- **From the keyboard to the state**: when all messages of the sender have been received and the
    queue is empty, the commands consumed are the typed ones, in order and once each, provided
    that no command has met a full queue; and the door is open exactly if the last door key
    typed before `q` is `1`. -/
theorem typed_commands_consumed (lines : List String)
    (h : Run (watch (step Z K) (ledger (pass Z) K))
      (fun w a => Allowed (pass Z) (spec.RoomFor fun e => !isTimeout e) w.1 a)
      (start K buf, Ledger.empty) as w)
    (hin : (inputs as).filterMap Received.message? = Z.pushPull (sender lines))
    (hq : w.1.queue = []) :
    w.2.taken.filter (fun e => !isTimeout e) = (lines.takeWhile (· ≠ "q")).filterMap lineSignal ∧
      w.1.leaf = reading w.2.taken ∧
      (w.1.leaf = .doorOpened ↔ last isDoorKey (lines.takeWhile (· ≠ "q")) = some "1") := by
  have htaken : w.2.taken.filter (fun e => !isTimeout e) =
      (lines.takeWhile (· ≠ "q")).filterMap lineSignal := by
    have hkept := taken_eq_issued microwaveStateMachine_plain h
    rw [hq, List.append_nil] at hkept
    rw [hkept, (issued_eq_sent (fun _ _ _ => isTimeout_pass) h).2, sent_eq_msgHandler,
      msgHandler_messages, hin, Z.pushPull_eq, msgHandler_sender]
  have hleaf := program_leaf h
  refine ⟨htaken, hleaf, ?_⟩
  rw [hleaf, reading_eq_doorOpened, ← last_isDoor_typed, ← htaken, last_filter isDoor_not_timeout]

/-- The typed lines `3`, `x`, `1`, `q`, `2`, with a receive error on the way. -/
theorem typed_commands_consumed_opened : ∃ w,
    Run (watch (step .reference reference) (ledger (pass .reference) reference))
      (fun w a => Allowed (pass .reference) (spec.RoomFor fun e => !isTimeout e) w.1 a)
      (start reference Buffer.zero, Ledger.empty)
      [.recv (.message (bytes "toast")), .consume, .recv .error, .tick,
        .recv (.message (bytes "open")), .consume] w ∧
    w.2.taken.filter (fun e => !isTimeout e) = [SYS_SIG_TOAST, SYS_SIG_OPEN] ∧
      w.1.leaf = reading w.2.taken ∧ (w.1.leaf = .doorOpened ↔ True) := by
  have hexec : (execute
      (watch (step .reference reference) (ledger (pass .reference) reference))
      (fun w a => Allowed (pass .reference) (spec.RoomFor fun e => !isTimeout e) w.1 a)
      (start reference Buffer.zero, Ledger.empty)
      [.recv (.message (bytes "toast")), .consume, .recv .error, .tick,
        .recv (.message (bytes "open")), .consume]).map (fun w => w.1.queue) = some [] := by decide
  obtain ⟨w, hrun, hq⟩ := Run.of_execute_map hexec
  obtain ⟨htaken, hleaf, hdoor⟩ :=
    typed_commands_consumed ["3", "x", "1", "q", "2"] hrun (by decide) hq
  exact ⟨w, hrun, htaken, hleaf, hdoor.trans (by decide)⟩

end Runs

end QuarkTS.Microwave
