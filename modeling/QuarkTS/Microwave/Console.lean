import QuarkTS.Console
import QuarkTS.Microwave.Delivery

/-!
# The debug output of the microwave

`messages_tell_configuration` — whoever reads the debug messages of `hsm_microwave_callbacks.c`
knows at every moment of every run which states are active.
-/

set_option autoImplicit false

namespace QuarkTS.Microwave

open Statechart CString Reactor Runs Program

/-- The names that the callbacks print. -/
def stateName : State → String
  | .doorClosed => "DOOR_CLOSED"
  | .off => "OFF"
  | .heating => "HEATING"
  | .toasting => "TOASTING"
  | .baking => "BAKING"
  | .doorOpened => "DOOR_OPENED"

def states : List State := [.doorClosed, .off, .heating, .toasting, .baking, .doorOpened]

theorem microwave_legible : microwaveStateMachine.Legible states := by
  have hname : Function.Injective stateName := by
    intro s t h
    revert h
    cases s <;> cases t <;> decide
  have hcallback : ∀ s, microwaveSetup.callback s =
      some (stateCallback (stateName s) .exitSuccess) := by
    intro s
    cases s <;> rfl
  exact .of_names hname hcallback states

theorem isReserved_pass {Z : Zmq} {buf : Buffer 10} {r : Received} {e : SigId}
    (h : (pass Z buf r).2 = some e) : e.isReserved = false := by
  have hmem : e ∈ (msgHandlerPass Z buf r).2 := by rw [← pass_toList, h]; simp
  unfold msgHandlerPass at hmem
  dsimp only at hmem
  split at hmem
  · rcases matchCommand_cases (Z.recv 10 buf r).1.contents with hnil | ⟨x, hx, hone⟩
    · simp [hnil] at hmem
    · rw [hone, List.mem_singleton] at hmem
      subst hmem
      simp only [List.mem_cons, List.not_mem_nil, or_false] at hx
      rcases hx with rfl | rfl | rfl | rfl <;> rfl
  · simp at hmem

variable {Z : Zmq} {K : ReportingKernel microwaveStateMachine} {buf : Buffer 10}
  {as : List (Action)} {s : System K.toKernel}
  {G : System K.toKernel → Action → Prop}

/-- **The debug output tells the configuration.**  Read back line by line, the messages of the
    state callbacks enter only states whose parent is the innermost active state, leave only the
    innermost active state, and end in the active leaf and its ancestors. -/
theorem messages_tell_configuration
    (h : Run (step Z K.toKernel) G (start K.toKernel buf) as s) :
    chart.replay [] ((microwaveStateMachine.messages (K.calls s.kernel)).filterMap
      (microwaveStateMachine.readLine states)) = some (chart.path s.leaf) := by
  have hclosed : chart.Closed (· ∈ states) := by
    have hall : ∀ s, s ∈ states := by decide
    exact ⟨fun _ p _ _ => hall p, fun _ c _ _ => hall c, fun _ t _ _ => hall t.2⟩
  exact replay_messages microwaveStateMachine_plain microwave_legible hclosed (by decide)
    (fun _ _ _ => isReserved_pass) h

/-- `toast` and then `open`: the messages printed, and the configuration read from them. -/
theorem messages_tell_configuration_opened : ∃ s,
    Run (step .reference (ReportingKernel.reference microwaveStateMachine).toKernel)
      Anything (start _ Buffer.zero)
      [.recv (.message (bytes "toast")), .consume, .recv (.message (bytes "open")), .consume] s ∧
    microwaveStateMachine.messages
        ((ReportingKernel.reference microwaveStateMachine).calls s.kernel) =
      ["DOOR_CLOSED|E", "DOOR_CLOSED|S", "OFF|E", "OFF|S", "OFF|X", "HEATING|E", "HEATING|S",
        "TOASTING|E", "TOASTING|S", "TOASTING|X", "HEATING|X", "DOOR_CLOSED|X", "DOOR_OPENED|E",
        "DOOR_OPENED|S"] ∧
    chart.replay [] ((microwaveStateMachine.messages
        ((ReportingKernel.reference microwaveStateMachine).calls s.kernel)).filterMap
      (microwaveStateMachine.readLine states)) = some (chart.path s.leaf) := by
  have hexec : (execute (step .reference
      (ReportingKernel.reference microwaveStateMachine).toKernel) Anything
      (start _ Buffer.zero)
      [.recv (.message (bytes "toast")), .consume, .recv (.message (bytes "open")), .consume]).map
        (fun s => microwaveStateMachine.messages
          ((ReportingKernel.reference microwaveStateMachine).calls s.kernel)) =
      some ["DOOR_CLOSED|E", "DOOR_CLOSED|S", "OFF|E", "OFF|S", "OFF|X", "HEATING|E", "HEATING|S",
        "TOASTING|E", "TOASTING|S", "TOASTING|X", "HEATING|X", "DOOR_CLOSED|X", "DOOR_OPENED|E",
        "DOOR_OPENED|S"] := by decide
  obtain ⟨s, hrun, hmessages⟩ := Run.of_execute_map hexec
  exact ⟨s, hrun, hmessages, messages_tell_configuration hrun⟩

end QuarkTS.Microwave
