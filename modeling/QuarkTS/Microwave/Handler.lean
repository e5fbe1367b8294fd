import QuarkTS.Zmq
import QuarkTS.Microwave.Init

/-!
# The microwave's message handler and its sender

`msg_handler` of `platform/linux/main.c` receives into a 10-byte buffer that it never clears and
compares its first bytes with the four command words; `sender.py` sends these words.

* `sender_handler_agree` — whatever is typed, the handler sends exactly the signals of the typed
  commands, in order;
* `decidedByOwnBytes_iff` — the handler's choice for a message is independent of what came before
  exactly when the message is empty or is not a proper prefix of a compared text.
-/

set_option autoImplicit false

namespace QuarkTS.Microwave

open CString

/-! ## msg_handler -/

/-- The comparisons of `msg_handler`, on the bytes of `buf`. -/
def matchCommand (buf : List UInt8) : List SigId :=
  if strncmp buf (literal "open") 4 = some 0 then [SYS_SIG_OPEN]
  else if strncmp buf (literal "close") 5 = some 0 then [SYS_SIG_CLOSE]
  else if strncmp buf (literal "toast") 4 = some 0 then [SYS_SIG_TOAST]
  else if strncmp buf (literal "bake") 4 = some 0 then [SYS_SIG_BAKE]
  else []

/-- No comparison reads past the end of the buffer or of a command word. -/
theorem comparisons_inBounds (buf : Buffer 10) :
    (strncmp buf.contents (literal "open") 4).isSome ∧
      (strncmp buf.contents (literal "close") 5).isSome ∧
      (strncmp buf.contents (literal "toast") 4).isSome ∧
      (strncmp buf.contents (literal "bake") 4).isSome := by
  have hlen := buf.length_eq
  refine ⟨?_, ?_, ?_, ?_⟩
  · exact strncmp_isSome (by omega) (by decide)
  · exact strncmp_isSome (by omega) (by decide)
  · exact strncmp_isSome (by omega) (by decide)
  · exact strncmp_isSome (by omega) (by decide)

/-- One pass of the loop: the buffer it leaves and the signals it sends. -/
def msgHandlerPass (Z : Zmq) (buf : Buffer 10) (r : Received) : Buffer 10 × List SigId :=
  let (buf, n) := Z.recv 10 buf r
  (buf, if n > 0 then matchCommand buf.contents else [])

/-- The signals sent for a sequence of received messages and errors. -/
def msgHandler (Z : Zmq) : Buffer 10 → List Received → List SigId := receiveLoop (msgHandlerPass Z)

/-- What the buffer holds after a sequence of messages. -/
def bufferAfter (Z : Zmq) (buf : Buffer 10) (ms : List Message) : Buffer 10 :=
  ms.foldl (fun b m => (msgHandlerPass Z b (.message m)).1) buf

/-- The handler's choice for `m` after earlier messages: the signals it sends. -/
def choice (Z : Zmq) (buf : Buffer 10) (earlier : List Message) (m : Message) : List SigId :=
  (msgHandlerPass Z (bufferAfter Z buf earlier) (.message m)).2

theorem msgHandlerPass_message (Z : Zmq) (buf : Buffer 10) (m : Message) :
    msgHandlerPass Z buf (.message m) =
      (buf.overwrite m, if 0 < m.length then matchCommand (buf.overwrite m).contents else []) := by
  simp [msgHandlerPass, Z.recv_message]

/-- The comparisons find at most one signal, and never a timeout. -/
theorem matchCommand_cases (buf : List UInt8) : matchCommand buf = [] ∨
    ∃ e ∈ [SYS_SIG_OPEN, SYS_SIG_CLOSE, SYS_SIG_TOAST, SYS_SIG_BAKE], matchCommand buf = [e] := by
  unfold matchCommand
  split
  · exact Or.inr ⟨_, by simp, rfl⟩
  split
  · exact Or.inr ⟨_, by simp, rfl⟩
  split
  · exact Or.inr ⟨_, by simp, rfl⟩
  split
  · exact Or.inr ⟨_, by simp, rfl⟩
  · exact Or.inl rfl

theorem timeout_notMem_sent (Z : Zmq) (buf : Buffer 10) (r : Received) (i : Nat) :
    SigId.timeout i ∉ (msgHandlerPass Z buf r).2 := by
  unfold msgHandlerPass
  dsimp only
  split
  · rcases matchCommand_cases (Z.recv 10 buf r).1.contents with h | ⟨e, he, h⟩
    · simp [h]
    · rw [h]
      intro hm
      rw [List.mem_singleton] at hm
      subst hm
      simp at he
  · simp

/-! ## sender.py -/

/-- The `match` statement: what is sent for a key. -/
def senderKey (key : String) : List Message :=
  if key = "1" then [bytes "open"]
  else if key = "2" then [bytes "close"]
  else if key = "3" then [bytes "toast"]
  else if key = "4" then [bytes "bake"]
  else []

/-- The loop, on the lines that are typed. -/
def sender : List String → List Message
  | [] => []
  | key :: keys => senderKey key ++ if key = "q" then [] else sender keys

/-- The signal that a typed line stands for. -/
def lineSignal (line : String) : Option SigId :=
  if line = "1" then some SYS_SIG_OPEN
  else if line = "2" then some SYS_SIG_CLOSE
  else if line = "3" then some SYS_SIG_TOAST
  else if line = "4" then some SYS_SIG_BAKE
  else none

/-! ## Sender and handler together -/

/-- A command word is recognised whatever the buffer held. -/
theorem matchCommand_word (tail : List UInt8) :
    matchCommand (bytes "open" ++ tail) = [SYS_SIG_OPEN] ∧
      matchCommand (bytes "close" ++ tail) = [SYS_SIG_CLOSE] ∧
      matchCommand (bytes "toast" ++ tail) = [SYS_SIG_TOAST] ∧
      matchCommand (bytes "bake" ++ tail) = [SYS_SIG_BAKE] :=
  ⟨rfl, rfl, rfl, rfl⟩

theorem msgHandler_cons_message (Z : Zmq) (buf : Buffer 10) {m : Message} (rs : List Received)
    (hpos : 0 < m.length) (hfit : m.length ≤ 10) :
    msgHandler Z buf (.message m :: rs) =
      matchCommand (m ++ buf.contents.drop m.length) ++ msgHandler Z (buf.overwrite m) rs := by
  rw [msgHandler, receiveLoop, msgHandlerPass_message, if_pos hpos, Buffer.overwrite_contents,
    List.take_of_length_le hfit]

theorem msgHandler_word (Z : Zmq) (buf : Buffer 10) {m : Message} {e : SigId} (rs : List Received)
    (hpos : 0 < m.length) (hfit : m.length ≤ 10) (hm : ∀ tail, matchCommand (m ++ tail) = [e]) :
    msgHandler Z buf (.message m :: rs) = e :: msgHandler Z (buf.overwrite m) rs := by
  rw [msgHandler_cons_message Z buf rs hpos hfit, hm]
  rfl

/-- One line: the handler sends the signal that the line stands for. -/
theorem msgHandler_senderKey (Z : Zmq) (buf : Buffer 10) (key : String) (rs : List Received) :
    ∃ buf' : Buffer 10, msgHandler Z buf ((senderKey key).map .message ++ rs) =
      (lineSignal key).toList ++ msgHandler Z buf' rs := by
  unfold senderKey lineSignal
  split
  · exact ⟨_, msgHandler_word Z buf rs (by decide) (by decide) fun t => (matchCommand_word t).1⟩
  split
  · exact ⟨_, msgHandler_word Z buf rs (by decide) (by decide) fun t => (matchCommand_word t).2.1⟩
  split
  · exact ⟨_, msgHandler_word Z buf rs (by decide) (by decide) fun t => (matchCommand_word t).2.2.1⟩
  split
  · exact ⟨_, msgHandler_word Z buf rs (by decide) (by decide) fun t => (matchCommand_word t).2.2.2⟩
  · exact ⟨buf, rfl⟩

/-- What the handler sends for the messages of `sender.py`. -/
theorem msgHandler_sender (Z : Zmq) (buf : Buffer 10) (lines : List String) :
    msgHandler Z buf ((sender lines).map .message) =
      (lines.takeWhile (· ≠ "q")).filterMap lineSignal := by
  induction lines generalizing buf with
  | nil => rfl
  | cons key keys ih =>
    obtain ⟨buf', hkey⟩ := msgHandler_senderKey Z buf key
      ((if key = "q" then [] else sender keys).map .message)
    rw [sender, List.map_append, hkey]
    by_cases hq : key = "q"
    · subst hq; rfl
    · rw [if_neg hq, ih, List.takeWhile_cons_of_pos (by simpa using hq), List.filterMap_cons]
      cases lineSignal key <;> rfl

/-- **Sender and handler agree**: the handler sends the signals of the typed commands, up to the
    first `q`, in order and once each, whatever its buffer held. -/
theorem sender_handler_agree (Z : Zmq) (buf : Buffer 10) (lines : List String) :
    msgHandler Z buf ((Z.pushPull (sender lines)).map .message) =
      (lines.takeWhile (· ≠ "q")).filterMap lineSignal := by
  rw [Z.pushPull_eq]
  exact msgHandler_sender Z buf lines

/-! ## Messages that are decided on their own bytes -/

/-- The texts that the buffer is compared with: the first `n` bytes of each word. -/
def comparedTexts : List (List UInt8) := [bytes "open", bytes "close", bytes "toas", bytes "bake"]

/-- The choice for `m` is the same after any two histories. -/
def DecidedByOwnBytes (Z : Zmq) (m : Message) : Prop :=
  ∀ buf₁ buf₂ earlier₁ earlier₂, choice Z buf₁ earlier₁ m = choice Z buf₂ earlier₂ m

/-- The message is a proper prefix of a compared text, and not empty. -/
def IsCutShort (m : Message) : Prop := m ≠ [] ∧ ∃ t ∈ comparedTexts, m <+: t ∧ m ≠ t

theorem matchCommand_eq {buf : List UInt8} (h : buf.length = 10) : matchCommand buf =
    if bytes "open" <+: buf then [SYS_SIG_OPEN]
    else if bytes "close" <+: buf then [SYS_SIG_CLOSE]
    else if bytes "toas" <+: buf then [SYS_SIG_TOAST]
    else if bytes "bake" <+: buf then [SYS_SIG_BAKE]
    else [] := by
  unfold matchCommand
  refine if_congr ?_ rfl (if_congr ?_ rfl (if_congr ?_ rfl (if_congr ?_ rfl rfl)))
  · exact strncmp_eq_zero (by omega) (by decide) (by decide)
  · exact strncmp_eq_zero (by omega) (by decide) (by decide)
  · exact strncmp_eq_zero (by omega) (by decide) (by decide)
  · exact strncmp_eq_zero (by omega) (by decide) (by decide)

/-- A text of at most ten bytes is seen in the buffer exactly when the message starts with it,
    unless the message is a proper prefix of the text. -/
theorem prefix_overwrite_iff {t : List UInt8} (buf : Buffer 10) {m : Message} (ht : t.length ≤ 10)
    (hm : ¬ (m <+: t ∧ m ≠ t)) : t <+: (buf.overwrite m).contents ↔ t <+: m := by
  rw [Buffer.overwrite_contents]
  by_cases hlen : t.length ≤ m.length
  · have htake : t.length ≤ (m.take 10).length := by
      rw [List.length_take]
      omega
    constructor
    · intro h
      exact (List.prefix_of_prefix_length_le h (List.prefix_append _ _) htake).trans
        (List.take_prefix _ _)
    · intro h
      exact (List.prefix_of_prefix_length_le h (List.take_prefix _ _) htake).trans
        (List.prefix_append _ _)
  · refine iff_of_false ?_ fun h => hlen h.length_le
    rw [List.take_of_length_le (by omega)]
    intro h
    refine hm ⟨List.prefix_of_prefix_length_le (List.prefix_append _ _) h (by omega), ?_⟩
    rintro rfl
    exact hlen (Nat.le_refl _)

theorem choice_eq (Z : Zmq) (buf : Buffer 10) (earlier : List Message) (m : Message) :
    choice Z buf earlier m =
      if 0 < m.length then matchCommand ((bufferAfter Z buf earlier).overwrite m).contents else [] := by
  rw [choice, msgHandlerPass_message]

theorem decided_of_not_cutShort (Z : Zmq) {m : Message} (h : ¬ IsCutShort m) :
    DecidedByOwnBytes Z m := by
  intro buf₁ buf₂ earlier₁ earlier₂
  rw [choice_eq, choice_eq]
  by_cases hpos : 0 < m.length
  · have hcut : ∀ t ∈ comparedTexts, ¬ (m <+: t ∧ m ≠ t) := fun t ht hc =>
      h ⟨List.ne_nil_of_length_pos hpos, t, ht, hc.1, hc.2⟩
    simp only [comparedTexts, List.forall_mem_cons] at hcut
    obtain ⟨hopen, hclose, htoast, hbake, -⟩ := hcut
    simp only [if_pos hpos, matchCommand_eq (Buffer.length_eq _),
      prefix_overwrite_iff _ (by decide) hopen, prefix_overwrite_iff _ (by decide) hclose,
      prefix_overwrite_iff _ (by decide) htoast, prefix_overwrite_iff _ (by decide) hbake]
  · simp only [if_neg hpos]

/-- A buffer that still holds the rest of a text completes it, a buffer of zeros does not. -/
theorem matchCommand_cut : ∀ t ∈ comparedTexts, ∀ k < t.length, 0 < k →
    matchCommand ((Buffer.zero.overwrite t).overwrite (t.take k) : Buffer 10).contents ≠
      matchCommand (Buffer.zero.overwrite (t.take k) : Buffer 10).contents := by
  decide

theorem not_decided_of_cutShort (Z : Zmq) {m : Message} (h : IsCutShort m) :
    ¬ DecidedByOwnBytes Z m := by
  obtain ⟨hne, t, ht, hpre, hneq⟩ := h
  intro hd
  have hpos : 0 < m.length := List.length_pos_of_ne_nil hne
  have hlt : m.length < t.length :=
    lt_of_le_of_ne hpre.length_le fun he => hneq (hpre.eq_of_length he)
  have hcut := matchCommand_cut t ht m.length hlt hpos
  rw [← List.prefix_iff_eq_take.1 hpre] at hcut
  apply hcut
  have hsame := hd (Buffer.zero.overwrite t) Buffer.zero [] []
  rwa [choice_eq, choice_eq, if_pos hpos, if_pos hpos] at hsame

/-- **When a message is decided on its own bytes**: exactly when it is empty or no proper prefix
    of a compared text.  A proper prefix is completed by what the buffer still holds. -/
theorem decidedByOwnBytes_iff (Z : Zmq) (m : Message) : DecidedByOwnBytes Z m ↔ ¬ IsCutShort m :=
  ⟨fun hd hc => not_decided_of_cutShort Z hc hd, decided_of_not_cutShort Z⟩

/-- After `open`, the one-byte message `o` opens the door again; in a cleared buffer it does
    nothing. -/
theorem not_all_decidedByOwnBytes : ¬ ∀ m, DecidedByOwnBytes .reference m := by
  intro h
  have hsame := h (bytes "o") Buffer.zero Buffer.zero [bytes "open"] []
  revert hsame
  decide

end QuarkTS.Microwave
