import QuarkTS.Zmq
import QuarkTS.PubSub.Init

/-!
# The publish/subscribe example's message handler

`msg_handler` of `platform/linux/main.c` clears its 32-byte buffer before every receive and
compares it with four texts, each together with its NUL byte.

* `msgHandler_accepts_exactly` — the published signals are the messages decoded one by one: a
  message stands for a signal exactly when its bytes, up to the first NUL byte or its end, are the
  text of the signal.
-/

set_option autoImplicit false

namespace QuarkTS.PubSub

open CString

/-! ## msg_handler -/

/-- The comparisons of `msg_handler`, on the bytes of `buf`; each bound is the `sizeof` of the
    literal, its NUL byte included. -/
def matchType (buf : List UInt8) : List SigId :=
  if strncmp buf (literal "SYS_SIG_TYPE_1") (literal "SYS_SIG_TYPE_1").length = some 0 then
    [SYS_SIG_TYPE_1]
  else if strncmp buf (literal "SYS_SIG_TYPE_2") (literal "SYS_SIG_TYPE_2").length = some 0 then
    [SYS_SIG_TYPE_2]
  else if strncmp buf (literal "SYS_SIG_TYPE_3") (literal "SYS_SIG_TYPE_3").length = some 0 then
    [SYS_SIG_TYPE_3]
  else if strncmp buf (literal "SYS_SIG_TYPE_4") (literal "SYS_SIG_TYPE_4").length = some 0 then
    [SYS_SIG_TYPE_4]
  else []

/-- No comparison reads past the end of the buffer or of a literal. -/
theorem comparisons_inBounds (buf : Buffer 32) {text : String} (h : (bytes text).length < 32) :
    (strncmp buf.contents (literal text) (literal text).length).isSome := by
  have hlen := buf.length_eq
  have hlit : (literal text).length = (bytes text).length + 1 := by
    rw [literal, List.length_append, List.length_singleton]
  exact strncmp_isSome (by omega) (Nat.le_refl _)

/-- One pass of the loop: the buffer it leaves and the signals it publishes. -/
def msgHandlerPass (Z : Zmq) (_buf : Buffer 32) (r : Received) : Buffer 32 × List SigId :=
  let buf := Buffer.zero
  let (buf, n) := Z.recv 32 buf r
  (buf, if n > 0 then matchType buf.contents else [])

/-- The signals published for a sequence of received messages and errors. -/
def msgHandler (Z : Zmq) : Buffer 32 → List Received → List SigId := receiveLoop (msgHandlerPass Z)

/-! ## The language of the messages -/

/-- The texts of the signals. -/
def typeTexts : List (SigId × String) :=
  [(SYS_SIG_TYPE_1, "SYS_SIG_TYPE_1"), (SYS_SIG_TYPE_2, "SYS_SIG_TYPE_2"),
   (SYS_SIG_TYPE_3, "SYS_SIG_TYPE_3"), (SYS_SIG_TYPE_4, "SYS_SIG_TYPE_4")]

/-- The signal that a message stands for, on its own bytes. -/
def decode (m : Message) : Option SigId :=
  if upToNul m = bytes "SYS_SIG_TYPE_1" then some SYS_SIG_TYPE_1
  else if upToNul m = bytes "SYS_SIG_TYPE_2" then some SYS_SIG_TYPE_2
  else if upToNul m = bytes "SYS_SIG_TYPE_3" then some SYS_SIG_TYPE_3
  else if upToNul m = bytes "SYS_SIG_TYPE_4" then some SYS_SIG_TYPE_4
  else none

/-- A message stands for a signal exactly when it spells the text of the signal. -/
theorem decode_eq_some {m : Message} {e : SigId} :
    decode m = some e ↔ ∃ text, (e, text) ∈ typeTexts ∧ upToNul m = bytes text := by
  constructor
  · intro h
    unfold decode at h
    split at h
    · rename_i hm; cases h; exact ⟨_, by simp [typeTexts], hm⟩
    split at h
    · rename_i hm; cases h; exact ⟨_, by simp [typeTexts], hm⟩
    split at h
    · rename_i hm; cases h; exact ⟨_, by simp [typeTexts], hm⟩
    split at h
    · rename_i hm; cases h; exact ⟨_, by simp [typeTexts], hm⟩
    · cases h
  · rintro ⟨text, hmem, hm⟩
    rw [decode, hm]
    simp only [typeTexts, List.mem_cons, Prod.mk.injEq, List.not_mem_nil, or_false] at hmem
    rcases hmem with ⟨rfl, rfl⟩ | ⟨rfl, rfl⟩ | ⟨rfl, rfl⟩ | ⟨rfl, rfl⟩ <;> decide

/-- The empty message stands for nothing. -/
theorem decode_nil : decode [] = none := by decide

/-! ## The handler accepts this language -/

/-- Comparing with a literal and its NUL byte tells whether the message is the text. -/
theorem strncmp_literal_iff (text : String) (hnul : 0 ∉ bytes text) (hlen : (bytes text).length < 32)
    (m : Message) :
    strncmp ((Buffer.zero : Buffer 32).overwrite m).contents (literal text) (literal text).length =
      some 0 ↔ upToNul m = bytes text := by
  have hfit : (literal text).length ≤ 32 := by
    rw [literal, List.length_append, List.length_singleton]
    omega
  have hbody : 0 ∉ (literal text).take ((literal text).length - 1) := by
    simpa [literal] using hnul
  rw [strncmp_eq_zero (by rwa [Buffer.length_eq]) (Nat.le_refl _) hbody, List.take_length, literal,
    Buffer.terminated_prefix_iff hnul hlen]

theorem matchType_eq_decode (m : Message) :
    matchType ((Buffer.zero : Buffer 32).overwrite m).contents = (decode m).toList := by
  simp only [matchType, decode, strncmp_literal_iff "SYS_SIG_TYPE_1" (by decide) (by decide),
    strncmp_literal_iff "SYS_SIG_TYPE_2" (by decide) (by decide),
    strncmp_literal_iff "SYS_SIG_TYPE_3" (by decide) (by decide),
    strncmp_literal_iff "SYS_SIG_TYPE_4" (by decide) (by decide)]
  split
  · rfl
  split
  · rfl
  split
  · rfl
  split <;> rfl

/-- One pass publishes what the received message stands for. -/
theorem msgHandlerPass_sends (Z : Zmq) (buf : Buffer 32) (r : Received) :
    (msgHandlerPass Z buf r).2 = (r.message?.bind decode).toList := by
  cases r with
  | error => simp [msgHandlerPass, Z.recv_error, Received.message?]
  | message m =>
    simp only [msgHandlerPass, Z.recv_message, Received.message?, Option.bind_some]
    cases m with
    | nil => rw [decode_nil]; rfl
    | cons b m => rw [if_pos (by simp), matchType_eq_decode]

/-- **The handler accepts exactly its message language**: it publishes what the messages stand
    for, one by one and in order, whatever its buffer held, and at most one signal for each. -/
theorem msgHandler_accepts_exactly (Z : Zmq) (buf : Buffer 32) (rs : List Received) :
    msgHandler Z buf rs = (rs.filterMap Received.message?).filterMap decode ∧
      (∀ m e, decode m = some e ↔ ∃ text, (e, text) ∈ typeTexts ∧ upToNul m = bytes text) ∧
      ∀ buf r, (msgHandlerPass Z buf r).2.length ≤ 1 := by
  refine ⟨?_, fun m e => decode_eq_some, fun buf r => ?_⟩
  · rw [msgHandler, receiveLoop_eq_flatMap (msgHandlerPass_sends Z), List.filterMap_filterMap]
    induction rs with
    | nil => rfl
    | cons r rs ih =>
      rw [List.flatMap_cons, ih, List.filterMap_cons]
      cases r.message?.bind decode <;> rfl
  · rw [msgHandlerPass_sends]
    cases r.message?.bind decode <;> simp

end QuarkTS.PubSub
