import QuarkTS.Microwave.Handler
import QuarkTS.Program

/-!
# The microwave program while it runs

After `hsm_microwave_init` the message handler, the clock and the state machine task run side by
side.  This is a `Program` whose passes are those of `msg_handler`: a `System` is the handler's
buffer and the state of the engine, and runs of `step` are all interleavings of messages, ticks,
timers that run out and signals that the task takes from the queue.

* `pass_toList` — a pass of `msg_handler` sends at most one signal;
* `run_isLeaf` — the active leaf is always one of the four leaves of the flat machine.
-/

set_option autoImplicit false

namespace QuarkTS.Microwave

open CString Reactor Runs Program

/-- The state machine of the microwave as a reactor. -/
abbrev spec : Spec State SigId := microwaveStateMachine.spec

/-! ## msg_handler as a source -/

/-- One pass of `msg_handler`. -/
def pass (Z : Zmq) (buf : Buffer 10) (r : Received) : Buffer 10 × Option SigId :=
  ((msgHandlerPass Z buf r).1, (msgHandlerPass Z buf r).2.head?)

/-- A pass sends at most one signal, so that nothing is left out. -/
theorem pass_toList (Z : Zmq) (buf : Buffer 10) (r : Received) :
    (pass Z buf r).2.toList = (msgHandlerPass Z buf r).2 := by
  unfold pass msgHandlerPass
  dsimp only
  split
  · rcases matchCommand_cases (Z.recv 10 buf r).1.contents with h | ⟨e, _, h⟩ <;> rw [h] <;> rfl
  · rfl

theorem isTimeout_pass {Z : Zmq} {buf : Buffer 10} {r : Received} {e : SigId}
    (h : (pass Z buf r).2 = some e) : isTimeout e = false := by
  have hmem : e ∈ (msgHandlerPass Z buf r).2 := by rw [← pass_toList, h]; simp
  cases e with
  | timeout i => exact absurd hmem (timeout_notMem_sent Z buf r i)
  | _ => rfl

/-! ## The program -/

abbrev System (K : Kernel microwaveStateMachine) := Program.System (Buffer 10) K

abbrev Action := Program.Action Received

/-- The program after `hsm_microwave_init`. -/
abbrev start (K : Kernel microwaveStateMachine) (buf : Buffer 10) : System K := Program.start K buf

abbrev step (Z : Zmq) (K : Kernel microwaveStateMachine) : System K → Action → Option (System K) :=
  Program.step (pass Z) K

/-- The engine of the documentation, for this machine. -/
abbrev reference : Kernel microwaveStateMachine := .reference microwaveStateMachine

/-- The signal queue holds ten signals. -/
theorem capacity_eq : spec.capacity = topSigqueueStackSize := by decide

variable {Z : Zmq} {K : Kernel microwaveStateMachine} {buf : Buffer 10} {as : List Action}
  {s : System K} {G : System K → Action → Prop}

theorem start_off : (start K buf).leaf = .off := Program.start_leaf.trans initial_leaf

/-- The active leaf is always one of the four leaves. -/
theorem run_isLeaf (h : Run (step Z K) G (start K buf) as s) : IsLeaf s.leaf := by
  refine h.invariant (fun _ s => IsLeaf s.leaf) ?_ ?_
  · rw [start_off]
    exact Or.inl rfl
  · intro _ s a s' ih _ hs
    rw [step_leaf microwaveStateMachine_plain hs]
    exact chart.fires_mem (P := IsLeaf) (fun _ e hl => fire_isLeaf e hl) ih _

end QuarkTS.Microwave
