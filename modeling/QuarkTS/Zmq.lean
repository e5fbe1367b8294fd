import QuarkTS.Lib.CString

/-!
# What the programs rely on of ZeroMQ

The library is not part of the sources.  A `Zmq` is any implementation of the two services that
the programs use, with their documented behaviour as fields: the messages of one PUSH/PULL pair
arrive in order and once each, and `zmq_recv` copies into the buffer what fits of one message,
leaves the rest of the buffer unchanged and returns the length of the message, or returns `-1`.
-/

set_option autoImplicit false

namespace QuarkTS

open CString

abbrev Message := List UInt8

/-- What one call of `zmq_recv` meets. -/
inductive Received where
  | message (m : Message)
  | error
  deriving DecidableEq, Repr

/-- The message, if one was received. -/
def Received.message? : Received → Option Message
  | .message m => some m
  | .error => none

structure Zmq where
  pushPull : List Message → List Message
  recv : (size : Nat) → Buffer size → Received → Buffer size × Int
  pushPull_eq : ∀ ms, pushPull ms = ms
  recv_message : ∀ size b m, recv size b (.message m) = (b.overwrite m, (m.length : Int))
  recv_error : ∀ size b, recv size b .error = (b, -1)

/-- The outputs of a receive loop: every pass keeps the buffer for the next one. -/
def receiveLoop {ε : Type} {n : Nat} (pass : Buffer n → Received → Buffer n × List ε) :
    Buffer n → List Received → List ε
  | _, [] => []
  | buf, r :: rs => (pass buf r).2 ++ receiveLoop pass (pass buf r).1 rs

/-- When the outputs of a pass do not depend on what the buffer held, each message is handled on
    its own. -/
theorem receiveLoop_eq_flatMap {ε : Type} {n : Nat} {pass : Buffer n → Received → Buffer n × List ε}
    {out : Received → List ε} (h : ∀ buf r, (pass buf r).2 = out r) (buf : Buffer n)
    (rs : List Received) : receiveLoop pass buf rs = rs.flatMap out := by
  induction rs generalizing buf with
  | nil => rfl
  | cons r rs ih => rw [receiveLoop, h, ih, List.flatMap_cons]

/-- An implementation that does what is documented. -/
def Zmq.reference : Zmq where
  pushPull := id
  recv _ b
    | .message m => (b.overwrite m, m.length)
    | .error => (b, -1)
  pushPull_eq _ := rfl
  recv_message _ _ _ := rfl
  recv_error _ _ := rfl

end QuarkTS
