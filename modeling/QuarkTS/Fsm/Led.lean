import Mathlib.Data.Fintype.Basic
import QuarkTS.Lib.History
import QuarkTS.Program

/-!
# The LED example

`fsm_ex/led_simple.bak`: a button takes an LED from off to on, to blinking and to off again; on
and blinking end after ten seconds, and blinking toggles the LED every half second.

* `leaf_eq_phase` — the active state is given by the consumed presses since the last timeout,
  modulo 3;
* `lit_bounded` — after the last consumed press the LED is lit for at most ten seconds and the late
  ticks, as long as no expiry of timeout 0 is lost to a full queue, and timeout 1 is armed exactly
  while it blinks;
* `toggles_le` — the LED toggles at most once for each expiry of timeout 1, and this timeout runs
  out at most once in half a second.
-/

set_option autoImplicit false

namespace QuarkTS.Led

open Statechart Reactor Runs History Program

/-! ## Signals -/

@[match_pattern] abbrev SIGNAL_BUTTON_PRESSED : SigId := .user 1
@[match_pattern] abbrev SIGNAL_TIMEOUT : SigId := .timeout 0
@[match_pattern] abbrev SIGNAL_BLINK : SigId := .timeout 1

/-! ## The tables -/

/-- `qSM_t LED_FSM`. -/
inductive StateMachine where
  | ledFSM
  deriving DecidableEq, Repr

/-- `qQueue_t LEDsigqueue`. -/
inductive Queue where
  | ledsigqueue
  deriving DecidableEq, Repr

/-- `qSM_State_t State_LEDOff, State_LEDOn, State_LEDBlink`. -/
inductive State where
  | ledOff
  | ledOn
  | ledBlink
  deriving DecidableEq, Repr

instance : Fintype State where
  elems := {.ledOff, .ledOn, .ledBlink}
  complete s := by cases s <;> decide

/-- The size of `led_sig_stack`. -/
def ledSigStackSize : Nat := 5

def ledOffTransitions : List (Transition State) := [⟨SIGNAL_BUTTON_PRESSED, none, .ledOn, 0⟩]

def ledOnTransitions : List (Transition State) :=
  [⟨SIGNAL_TIMEOUT, none, .ledOff, 0⟩,
   ⟨SIGNAL_BUTTON_PRESSED, none, .ledBlink, 0⟩]

def ledBlinkTransitions : List (Transition State) :=
  [⟨SIGNAL_TIMEOUT, none, .ledOff, 0⟩,
   ⟨SIGNAL_BUTTON_PRESSED, none, .ledOff, 0⟩]

/-- `10.0f` seconds are 10000 ticks of 0.001 s, and `0.5f` are 500. -/
def ledOnTimeouts : List Timeout :=
  [{ deadline := 10000, index := 0, setEntry := true, rstExit := true }]

def ledBlinkTimeouts : List Timeout :=
  [{ deadline := 10000, index := 0, setEntry := true, rstExit := true },
   { deadline := 500, index := 1, setEntry := true, rstExit := true, periodic := true }]

/-! ## Callbacks -/

def stateLEDOffCallback : Callback
  | .entry => (some "->ledoff", .exitSuccess)
  | .exit => (some "x-ledoff", .exitSuccess)
  | _ => (none, .exitSuccess)

def stateLEDOnCallback : Callback
  | .entry => (some "->ledon", .exitSuccess)
  | .exit => (some "x-ledon", .exitSuccess)
  | _ => (none, .exitSuccess)

def stateLEDBlinkCallback : Callback
  | .entry => (some "->ledblink", .exitSuccess)
  | .exit => (some "x-ledblink", .exitSuccess)
  | SIGNAL_BLINK => (some "LED TOGGLE", .exitSuccess)
  | _ => (none, .exitSuccess)

/-! ## Sig_Handler and main -/

def sigHandler : OsSignal → Option SigId
  | .SIGUSR1 => some SIGNAL_BUTTON_PRESSED
  | _ => none

/-- The set-up calls of `main`. -/
def mainCalls : List (Call StateMachine Queue State) :=
  [.stateMachineSetup .ledFSM none .ledOff,
   .stateSubscribe .ledFSM .ledOff QSM_STATE_TOP stateLEDOffCallback none,
   .stateSubscribe .ledFSM .ledOn QSM_STATE_TOP stateLEDOnCallback none,
   .stateSubscribe .ledFSM .ledBlink QSM_STATE_TOP stateLEDBlinkCallback none,
   .queueSetup .ledsigqueue ledSigStackSize,
   .installSignalQueue .ledFSM .ledsigqueue,
   .installTimeoutSpec .ledFSM,
   .setStateTimeouts .ledOn ledOnTimeouts,
   .setStateTimeouts .ledBlink ledBlinkTimeouts,
   .setStateTransitions .ledOff ledOffTransitions,
   .setStateTransitions .ledOn ledOnTransitions,
   .setStateTransitions .ledBlink ledBlinkTransitions,
   .addStateMachineTask .ledFSM 100]

/-! ## The machine -/

def ledSetup : Setup StateMachine Queue State := .calls mainCalls

def ledFSM : Machine StateMachine Queue State where
  setup := ledSetup
  id := .ledFSM
  initial := .ledOff
  queue := .ledsigqueue
  nesting :=
    { depth := fun _ => 0
      height := 0
      depth_root := by decide
      depth_parent := by decide
      depth_le := by decide
      initial_parent := by decide }
  initial_eq := by decide
  queue_eq := by decide

theorem ledFSM_plain : ledFSM.Plain where
  unguarded := by decide
  noHistory := by decide
  lateral := by decide
  unhandled := by
    intro s f hf e
    cases s <;> cases hf <;> rcases e with _ | _ | _ | _ | (_ | _ | i) | n <;> nofun

abbrev chart : Chart State SigId := ledFSM.chart
abbrev spec : Spec State SigId := ledFSM.spec

/-- What each state does with each signal. -/
def next : State → SigId → State
  | .ledOff, SIGNAL_BUTTON_PRESSED => .ledOn
  | .ledOn, SIGNAL_BUTTON_PRESSED => .ledBlink
  | .ledBlink, SIGNAL_BUTTON_PRESSED => .ledOff
  | _, SIGNAL_TIMEOUT => .ledOff
  | s, _ => s

theorem fire_eq_next (s : State) (e : SigId) : chart.fire s e = next s e := by
  cases s <;> rcases e with _ | _ | _ | _ | (_ | i) | (_ | _ | n) <;> rfl

/-! ## The state after a history of signals -/

/-- The state after `n` presses from `ledOff`. -/
def phase (n : Nat) : State :=
  if n % 3 = 0 then .ledOff else if n % 3 = 1 then .ledOn else .ledBlink

/-- The presses since the last timeout. -/
def presses (w : List SigId) : Nat :=
  (afterLast (· == SIGNAL_TIMEOUT) w).count SIGNAL_BUTTON_PRESSED

theorem phase_succ (n : Nat) : phase (n + 1) = next (phase n) SIGNAL_BUTTON_PRESSED := by
  unfold phase
  have hcases : n % 3 = 0 ∧ (n + 1) % 3 = 1 ∨ n % 3 = 1 ∧ (n + 1) % 3 = 2 ∨
      n % 3 = 2 ∧ (n + 1) % 3 = 0 := by omega
  rcases hcases with ⟨h, h'⟩ | ⟨h, h'⟩ | ⟨h, h'⟩ <;> simp [h, h', next]

/-- **The active state is given by the presses since the last timeout**, modulo 3. -/
theorem fires_eq_phase (w : List SigId) : chart.fires .ledOff w = phase (presses w) := by
  induction w using List.reverseRecOn with
  | nil => rfl
  | append_singleton w e ih =>
    rw [Chart.fires_concat, ih, fire_eq_next, presses, presses]
    by_cases ht : e = SIGNAL_TIMEOUT
    · subst ht
      rw [afterLast_concat_pos (by decide)]
      cases phase (List.count SIGNAL_BUTTON_PRESSED (afterLast (· == SIGNAL_TIMEOUT) w)) <;> rfl
    · rw [afterLast_concat_neg (by simpa using ht), List.count_append]
      by_cases hb : e = SIGNAL_BUTTON_PRESSED
      · subst hb
        rw [List.count_singleton_self, phase_succ]
      · have hsame : ∀ s, next s e = s := by
          intro s
          cases s <;> unfold next <;> split <;> simp_all
        simp [hsame, hb]

/-! ## The timeouts -/

theorem ownerActive_zero (s : State) : spec.OwnerActive s 0 ↔ s ≠ .ledOff := by
  cases s <;> decide

theorem ownerActive_one (s : State) : spec.OwnerActive s 1 ↔ s = .ledBlink := by
  cases s <;> decide

theorem entryExit_zero : spec.EntryExit 0 := by
  intro s
  cases s <;> decide

theorem entryExit_one : spec.EntryExit 1 := by
  intro s
  cases s <;> decide

theorem exclusive_zero : spec.Exclusive 0 := by
  intro s
  cases s <;> decide

theorem exclusive_one : spec.Exclusive 1 := by
  intro s
  cases s <;> decide

theorem endedByExpiry_zero : spec.EndedByExpiry 0 := by
  intro s
  cases s <;> decide

/-- Timeout 0 is ten seconds, and entering a state sets it afresh. -/
theorem restarts_zero (T : TimeBase) : spec.Restarts 0 (T.toTicks 10) := by
  rw [T.toTicks_eq 10000 (by norm_num [TIMER_TICK])]
  intro s
  cases s <;> decide

/-- Timeout 1 is half a second and periodic. -/
theorem defined_one (T : TimeBase) (s : State) : ∀ d ∈ spec.timeouts s, d.index = 1 →
    d.deadline = T.toTicks (1 / 2) ∧ d.periodic = true := by
  rw [T.toTicks_eq 500 (by norm_num [TIMER_TICK])]
  cases s <;> decide

/-! ## Runs -/

variable {K : Kernel ledFSM} {as : List (Program.Action OsSignal)}
  {G : System Unit K → Program.Action OsSignal → Prop}

theorem isTimeout_sent (b : Unit) (sig : OsSignal) (e : SigId)
    (h : (handlerPass sigHandler b sig).2 = some e) : isTimeout e = false := by
  cases sig <;> cases h
  rfl

/-- One press is sent for each `SIGUSR1`. -/
theorem count_sent (sigs : List OsSignal) :
    (sent (handlerPass sigHandler) () sigs).count SIGNAL_BUTTON_PRESSED = sigs.count .SIGUSR1 := by
  rw [sent_handlerPass]
  induction sigs with
  | nil => rfl
  | cons sig sigs ih => cases sig <;> simp [sigHandler, List.filterMap_cons, ih]

/-- **After the last press that the machine has consumed, the LED is lit for at most ten seconds and
    the late ticks**, as long as no expiry of timeout 0 is lost to a full queue; and timeout 1 is
    armed exactly while it blinks. -/
theorem lit_bounded (T : TimeBase) {w : System Unit K × Stopwatch}
    (h : Run (watch (step (handlerPass sigHandler) K)
        (observe (handlerPass sigHandler) (spec.timed 0)))
      (fun w a => Allowed (handlerPass sigHandler) (spec.RoomAtExpiry 0) w.1 a)
      (start K (), ⟨0, 0⟩) as w) :
    (w.1.leaf ≠ .ledOff → w.2.ticks ≤ T.toTicks 10 + w.2.late) ∧
      ((w.1.timer 1).isSome ↔ w.1.leaf = .ledBlink) := by
  obtain ⟨bs, hrun, _⟩ := run_view_start ledFSM_plain h
  constructor
  · intro hlit
    exact ticks_le_deadline entryExit_zero exclusive_zero endedByExpiry_zero (restarts_zero T)
      hrun ((ownerActive_zero _).2 hlit)
  · rw [← ownerActive_one]
    exact armed_iff_owner entryExit_one exclusive_one
      (fun s d hd hi => (defined_one T s d hd hi).2) hrun.of_watch

/-- One tick after the second press. -/
theorem lit_bounded_blink : ∃ w,
    Run (watch (step (handlerPass sigHandler) (.reference ledFSM))
        (observe (handlerPass sigHandler) (spec.timed 0)))
      (fun w a => Allowed (handlerPass sigHandler) (spec.RoomAtExpiry 0) w.1 a)
      (start (.reference ledFSM) (), ⟨0, 0⟩)
      [.recv .SIGUSR1, .consume, .tick, .recv .SIGUSR1, .consume, .tick] w ∧
      w.2 = ⟨1, 0⟩ ∧ (w.1.leaf ≠ .ledOff → w.2.ticks ≤ TimeBase.reference.toTicks 10 + w.2.late) ∧
      ((w.1.timer 1).isSome ↔ w.1.leaf = .ledBlink) := by
  have hexec : (execute (watch (step (handlerPass sigHandler) (.reference ledFSM))
        (observe (handlerPass sigHandler) (spec.timed 0)))
      (fun w a => Allowed (handlerPass sigHandler) (spec.RoomAtExpiry 0) w.1 a)
      (start (.reference ledFSM) (), ⟨0, 0⟩)
      [.recv .SIGUSR1, .consume, .tick, .recv .SIGUSR1, .consume, .tick]).map
        (fun w => w.2) = some ⟨1, 0⟩ := by decide
  obtain ⟨w, hrun, hc⟩ := Run.of_execute_map hexec
  exact ⟨w, hrun, hc, lit_bounded .reference hrun⟩

/-- What the callback of the active state prints for the signal that is consumed. -/
def printed (s : System Unit K) : Program.Action OsSignal → Option String
  | .consume => s.queue.head?.bind fun e => (ledSetup.callback s.leaf).bind fun f => (f e).1
  | _ => none

/-- Counts the lines `LED TOGGLE`. -/
def toggles (s : System Unit K) (a : Program.Action OsSignal) (_ : System Unit K) (n : Nat) : Nat :=
  if printed s a = some "LED TOGGLE" then n + 1 else n

/-- Only the blink signal toggles the LED. -/
theorem eq_blink_of_toggle {s : State} {e : SigId}
    (h : ((ledSetup.callback s).bind fun f => (f e).1) = some "LED TOGGLE") : e = SIGNAL_BLINK := by
  cases s <;> rcases e with _ | _ | _ | _ | (_ | _ | i) | n <;>
    first | rfl | cases h | (revert h; decide)

/-- What one action adds to the toggles and to the blink signals that wait. -/
theorem step_toggles {s s' : System Unit K} {a : Program.Action OsSignal} (n : Nat)
    (h : step (handlerPass sigHandler) K s a = some s') :
    toggles s a s' n + s'.queue.count SIGNAL_BLINK ≤
      n + s.queue.count SIGNAL_BLINK + [a].count (.expire 1) := by
  obtain ⟨kept, hk, hq⟩ := step_kept ledFSM_plain h
  have hkept := hk.count_le SIGNAL_BLINK
  have hbalance := congrArg (List.count SIGNAL_BLINK) hq
  rw [List.count_append, List.count_append] at hbalance
  have hissued : (issuedBy (handlerPass sigHandler) s a).count SIGNAL_BLINK ≤
      [a].count (.expire 1) := by
    cases a with
    | recv sig => cases sig <;> simp [issuedBy, handlerPass, sigHandler]
    | tick => simp [issuedBy]
    | expire i => by_cases hi : i = 1 <;> simp [issuedBy, hi]
    | consume => simp [issuedBy]
  have htoggle : toggles s a s' n ≤ n + (takenBy s a).count SIGNAL_BLINK := by
    rw [toggles]
    split
    · rename_i hprint
      cases a with
      | consume =>
        obtain ⟨e, he, hline⟩ := Option.bind_eq_some_iff.1 hprint
        simp [takenBy, he, eq_blink_of_toggle hline]
      | _ => cases hprint
    · exact Nat.le_add_right _ _
  omega

/-- **The LED toggles at most once for each expiry of timeout 1**, apart from blink signals that
    wait already, from every moment of a run on; and from the start and from each expiry on,
    timeout 1 runs out at most once in half a second. -/
theorem toggles_le (T : TimeBase) {w w' : System Unit K × Nat}
    {bs : List (Program.Action OsSignal)}
    (h : Run (watch (step (handlerPass sigHandler) K) toggles) (fun w a => G w.1 a)
      (start K (), 0) as w)
    (h' : Run (watch (step (handlerPass sigHandler) K) toggles) (fun w a => G w.1 a) w bs w') :
    w'.2 + w'.1.queue.count SIGNAL_BLINK ≤
        w.2 + w.1.queue.count SIGNAL_BLINK + bs.count (.expire 1) ∧
      (as = [] ∨ as.getLast? = some (.expire 1) →
        T.toTicks (1 / 2) * bs.count (.expire 1) ≤ bs.count .tick) := by
  constructor
  · induction h' with
    | nil => simp
    | @snoc bs u u' a _ _ hstep ih =>
      obtain ⟨hs, hrec⟩ := watch_eq_some.1 hstep
      have hone := step_toggles u.2 hs
      rw [hrec, List.count_append]
      omega
  · intro hlast
    exact expiries_spaced ledFSM_plain (fun s d hd hi => (defined_one T s d hd hi).1.ge)
      h.of_watch h'.of_watch hlast

/-- Two presses, and the LED blinks until timeout 1 runs out. -/
def firstExpiry : List (Program.Action OsSignal) :=
  [.recv .SIGUSR1, .recv .SIGUSR1, .consume, .consume] ++ List.replicate 500 .tick ++ [.expire 1]

/-- The LED toggles, and after half a second it toggles again. -/
def secondExpiry : List (Program.Action OsSignal) :=
  [.consume] ++ List.replicate 500 .tick ++ [.expire 1, .consume]

/-- Two toggles, and half a second between the expiries. -/
theorem toggles_le_twice : ∃ w w',
    Run (watch (step (handlerPass sigHandler) (.reference ledFSM)) toggles) (fun _ _ => True)
        (start (.reference ledFSM) (), 0) firstExpiry w ∧
      Run (watch (step (handlerPass sigHandler) (.reference ledFSM)) toggles) (fun _ _ => True)
        w secondExpiry w' ∧
      w'.2 = 2 ∧
      w'.2 + w'.1.queue.count SIGNAL_BLINK ≤
        w.2 + w.1.queue.count SIGNAL_BLINK + secondExpiry.count (.expire 1) ∧
      TimeBase.reference.toTicks (1 / 2) * secondExpiry.count (.expire 1) ≤
        secondExpiry.count .tick := by
  have hquiet : ∀ s s' n, toggles (K := .reference ledFSM) s .tick s' n = n := fun _ _ _ => rfl
  have hexec : (execute (watch (step (handlerPass sigHandler) (.reference ledFSM)) toggles)
      Anything (start (.reference ledFSM) (), 0) (firstExpiry ++ secondExpiry)).map
        (fun w => w.2) = some 2 := by
    rw [execute_append, firstExpiry, execute_watch_ticks hquiet]
    simp only [secondExpiry, execute_watch_ticks hquiet]
    decide
  rw [execute_append] at hexec
  obtain ⟨w', hw', htwo⟩ := Option.map_eq_some_iff.1 hexec
  obtain ⟨w, hw, hsecond⟩ := Option.bind_eq_some_iff.1 hw'
  have hrun := Run.of_execute hw
  have hrun' := Run.of_execute hsecond
  obtain ⟨htoggles, hspaced⟩ := toggles_le (G := fun _ _ => True) .reference hrun hrun'
  refine ⟨w, w', hrun, hrun', htwo, htoggles, hspaced (Or.inr ?_)⟩
  rw [firstExpiry, List.getLast?_concat]

end QuarkTS.Led
