import QuarkTS.PubSub.Handler
import QuarkTS.PubSub.Routing
import QuarkTS.Program

/-!
# The publish/subscribe program while it runs

After `hsm_pse_init` the message handler, the clock and the tasks of the two machines run side by
side.  A pass of the handler publishes at most one signal, and the machines that have subscribed
to it get it in their queues.  Seen from one machine, the program is a `Program` around this
machine (`run_part`), whatever the other one does in between.

* `leaves_of_messages` — which leaves are active, in every run: SB never moves, and SA is in its
  second group, or about to go there, exactly if a `SYS_SIG_TYPE_1` message has been received;
* `second_group_final` — SA never comes back from its second group;
* `typed_keys_decide` — from the keyboard of `sender.py` to the leaves.
-/

set_option autoImplicit false

namespace QuarkTS.PubSub

open Statechart CString Reactor Runs History

/-! ## The running program -/

/-- The buffer of the handler and the state of the engine, machine by machine. -/
structure System (K : ∀ m, Kernel (pseStateMachine m)) where
  buf : Buffer 32
  kernel : ∀ m, (K m).State

inductive Action where
  | recv (r : Received)
  | tick
  | expire (m : StateMachine) (i : Nat)
  | consume (m : StateMachine)
  deriving DecidableEq, Repr

variable {Z : Zmq} {K : ∀ m, Kernel (pseStateMachine m)}

/-- `qStateMachine_SendSignal` with `NULL` for the machine: the signal is sent to every machine
    that has subscribed to it. -/
def publish (K : ∀ m, Kernel (pseStateMachine m)) (k : ∀ m, (K m).State) (e : SigId) :
    ∀ m, (K m).State :=
  fun m => if e ∈ pseSetup.signals m then ((K m).sendSignal (k m) e false).1 else k m

def step (Z : Zmq) (K : ∀ m, Kernel (pseStateMachine m)) (s : System K) :
    Action → Option (System K)
  | .recv r =>
    let (buf, published) := msgHandlerPass Z s.buf r
    some ⟨buf, published.foldl (publish K) s.kernel⟩
  | .tick => some { s with kernel := fun m => (K m).sysTick (s.kernel m) }
  | .expire m i => ((K m).expire (s.kernel m) i).map fun k =>
    { s with kernel := Function.update s.kernel m k }
  | .consume m => ((K m).receive (s.kernel m)).map fun p =>
    { s with kernel := Function.update s.kernel m ((K m).dispatch p.2 p.1) }

/-- The program after `hsm_pse_init`. -/
def start (K : ∀ m, Kernel (pseStateMachine m)) (buf : Buffer 32) : System K :=
  ⟨buf, fun m => (K m).start⟩

/-! ## The program seen from one machine -/

/-- What a machine sees of the program. -/
def System.part (s : System K) (m : StateMachine) : Program.System (Buffer 32) (K m) :=
  ⟨s.buf, s.kernel m⟩

/-- What a machine sees of an action, if anything. -/
def Action.part (m : StateMachine) : Action → Option (Program.Action Received)
  | .recv r => some (.recv r)
  | .tick => some .tick
  | .expire m' i => if m' = m then some (.expire i) else none
  | .consume m' => if m' = m then some .consume else none

/-- What a machine gets of one pass of the handler. -/
def pass (Z : Zmq) (m : StateMachine) (buf : Buffer 32) (r : Received) : Buffer 32 × Option SigId :=
  ((msgHandlerPass Z buf r).1, (received m (msgHandlerPass Z buf r).2).head?)

/-- What a message stands for, if the machine has subscribed to it. -/
theorem pass_eq (m : StateMachine) (buf : Buffer 32) (r : Received) :
    (pass Z m buf r).2.toList = received m (r.message?.bind decode).toList := by
  rw [pass, msgHandlerPass_sends]
  cases r.message?.bind decode with
  | none => rfl
  | some e => by_cases he : e ∈ pseSetup.signals m <;> simp [received, he]

/-- A pass publishes one of the four signals. -/
theorem exists_text_of_pass {m : StateMachine} {buf : Buffer 32} {r : Received} {e : SigId}
    (h : (pass Z m buf r).2 = some e) : ∃ text, (e, text) ∈ typeTexts := by
  have hmem : e ∈ received m (r.message?.bind decode).toList := by
    rw [← pass_eq (Z := Z) m buf, h]
    simp
  obtain ⟨x, _, hx⟩ := Option.bind_eq_some_iff.1 (Option.mem_toList.1 (List.mem_of_mem_filter hmem))
  obtain ⟨text, htext, _⟩ := decode_eq_some.1 hx
  exact ⟨text, htext⟩

theorem isTimeout_of_text {e : SigId} {text : String} (h : (e, text) ∈ typeTexts) :
    Program.isTimeout e = false := by
  simp only [typeTexts, List.mem_cons, Prod.mk.injEq, List.not_mem_nil, or_false] at h
  rcases h with ⟨rfl, _⟩ | ⟨rfl, _⟩ | ⟨rfl, _⟩ | ⟨rfl, _⟩ <;> rfl

theorem isTimeout_pass {m : StateMachine} {buf : Buffer 32} {r : Received} {e : SigId}
    (h : (pass Z m buf r).2 = some e) : Program.isTimeout e = false := by
  obtain ⟨_, htext⟩ := exists_text_of_pass h
  exact isTimeout_of_text htext

variable {s s' : System K} {a : Action} {m : StateMachine} {buf : Buffer 32}

/-- Publishing the signals of one pass gives a machine what it gets of the pass. -/
theorem publish_pass (k : ∀ m, (K m).State) (r : Received) :
    (msgHandlerPass Z buf r).2.foldl (publish K) k m =
      Program.send (K m) (k m) (pass Z m buf r).2 := by
  rw [pass, msgHandlerPass_sends]
  cases r.message?.bind decode with
  | none => rfl
  | some e => by_cases he : e ∈ pseSetup.signals m <;> simp [received, publish, Program.send, he]

/-- **An action is, for each machine, one of its program or nothing at all.** -/
theorem step_part (h : step Z K s a = some s') :
    (a.part m = none → s'.part m = s.part m) ∧
      ∀ b ∈ a.part m, Program.step (pass Z m) (K m) (s.part m) b = some (s'.part m) := by
  cases a with
  | recv r =>
    cases h
    refine ⟨fun hn => absurd hn (by simp [Action.part]), fun b hb => ?_⟩
    cases hb
    rw [Program.step, System.part, System.part, ← publish_pass]
    rfl
  | tick =>
    cases h
    refine ⟨fun hn => absurd hn (by simp [Action.part]), fun b hb => ?_⟩
    cases hb
    rfl
  | expire m' i =>
    obtain ⟨k, hk, rfl⟩ := Option.map_eq_some_iff.1 h
    by_cases hm : m' = m
    · subst hm
      simp [Action.part, Program.step, System.part, hk]
    · simp [Action.part, System.part, hm, Function.update_of_ne (Ne.symm hm)]
  | consume m' =>
    obtain ⟨p, hp, rfl⟩ := Option.map_eq_some_iff.1 h
    by_cases hm : m' = m
    · subst hm
      simp [Action.part, Program.step, System.part, hp]
    · simp [Action.part, System.part, hm, Function.update_of_ne (Ne.symm hm)]

/-- The inputs that a run has met. -/
def inputs (as : List Action) : List Received :=
  as.filterMap fun
    | .recv r => some r
    | _ => none

/-- The messages that a run has received. -/
def messages (as : List Action) : List Message := (inputs as).filterMap Received.message?

/-- All machines meet the inputs of the run. -/
theorem inputs_part (as : List Action) (m : StateMachine) :
    Program.inputs (as.filterMap (Action.part m)) = inputs as := by
  rw [Program.inputs, List.filterMap_filterMap, inputs]
  refine List.filterMap_congr fun a _ => ?_
  cases a with
  | recv r => rfl
  | tick => rfl
  | expire m' i => by_cases hm : m' = m <;> simp [Action.part, hm]
  | consume m' => by_cases hm : m' = m <;> simp [Action.part, hm]

/-- The signals sent to a machine are those it has subscribed to among the ones that the received
    messages stand for. -/
theorem sent_pass (m : StateMachine) (buf : Buffer 32) (rs : List Received) :
    Program.sent (pass Z m) buf rs =
      received m ((rs.filterMap Received.message?).filterMap decode) := by
  rw [List.filterMap_filterMap]
  induction rs generalizing buf with
  | nil => rfl
  | cons r rs ih =>
    rw [Program.sent, pass_eq, ih, received, received, ← List.filter_append, List.filterMap_cons]
    cases r.message?.bind decode <;> rfl

variable {G : System K → Action → Prop} {as bs : List Action}

/-- **A run of the program is, for each machine, a run of its program.** -/
theorem run_part (h : Run (step Z K) G (start K buf) as s) (m : StateMachine) :
    Run (Program.step (pass Z m) (K m)) Anything (Program.start (K m) buf)
      (as.filterMap (Action.part m)) (s.part m) := by
  induction h with
  | nil => exact .nil
  | @snoc as s s' a _ _ hstep ih =>
    obtain ⟨hnone, hsome⟩ := step_part (m := m) hstep
    rw [List.filterMap_append]
    cases ha : a.part m with
    | none =>
      rw [List.filterMap_cons_none ha, List.filterMap_nil, List.append_nil, hnone ha]
      exact ih
    | some b =>
      rw [List.filterMap_cons_some ha]
      exact ih.snoc trivial (hsome b ha)

namespace System

/-- The active leaf of a machine. -/
def leaf (s : System K) (m : StateMachine) : State := (s.part m).leaf

/-- The signals that wait for a machine, oldest first. -/
def queue (s : System K) (m : StateMachine) : List SigId := (s.part m).queue

end System

/-! ## Which leaves are active -/

/-- What a machine has taken from its queue, in any run: with what waits there, it is a part of
    what was sent to the machine, it begins with the first signal sent, and the leaf follows it. -/
theorem exists_taken (h : Run (step Z K) G (start K buf) as s) (m : StateMachine) :
    ∃ taken, List.Sublist (taken ++ s.queue m) (received m ((messages as).filterMap decode)) ∧
      (taken ++ s.queue m).head? = (received m ((messages as).filterMap decode)).head? ∧
      s.leaf m = (chart m).fires (firstLeaf m) taken := by
  have hplain := pseStateMachine_plain m
  have hnone : ∀ s, (pseStateMachine m).spec.timeouts s = [] := by
    intro s
    cases m <;> rfl
  have hcap : 0 < (pseStateMachine m).spec.capacity := by
    cases m <;> decide
  obtain ⟨L, hwatch⟩ := (run_part h m).exists_watch
    (Program.ledger (pass Z m) (K m)) Ledger.empty
  have hissued := Program.issued_eq_sent_of_no_timeouts hplain hnone
    (fun _ _ _ => isTimeout_pass) hwatch
  rw [inputs_part, sent_pass] at hissued
  have hsub := Program.taken_sublist_issued hplain hwatch
  have hhead := Program.head?_taken hplain hcap hwatch
  have hleaf := Program.leaf_eq_fires_taken hplain hwatch
  rw [hissued] at hsub hhead
  rw [initial_leaf] at hleaf
  exact ⟨L.taken, hsub, hhead, hleaf⟩

/-- Only `SYS_SIG_TYPE_1` ever waits for SA. -/
theorem queue_sa (h : Run (step Z K) G (start K buf) as s) :
    ∀ e ∈ s.queue .pseSaStateMachine, e = SYS_SIG_TYPE_1 := by
  obtain ⟨taken, hsub, _⟩ := exists_taken h .pseSaStateMachine
  exact fun e he => (mem_received_sa.1 (hsub.subset (List.mem_append_right _ he))).2

/-- In its second group SA stays where it is. -/
theorem fires_sa22 {taken : List SigId} (hall : ∀ e ∈ taken, e = SYS_SIG_TYPE_1) :
    (chart .pseSaStateMachine).fires .sa22 taken = .sa22 := by
  induction taken with
  | nil => rfl
  | cons e es ih =>
    rw [hall e List.mem_cons_self]
    exact ih fun x hx => hall x (List.mem_cons_of_mem _ hx)

/-- SA follows the signals that it has taken: one is enough for the second group. -/
theorem fires_sa11 {taken : List SigId} (hall : ∀ e ∈ taken, e = SYS_SIG_TYPE_1) :
    (chart .pseSaStateMachine).fires .sa11 taken = if taken = [] then .sa11 else .sa22 := by
  cases taken with
  | nil => rfl
  | cons e es =>
    rw [hall e List.mem_cons_self, if_neg (List.cons_ne_nil _ _)]
    exact fires_sa22 fun x hx => hall x (List.mem_cons_of_mem _ hx)

/-- The messages that SA is sent a signal for. -/
theorem decode_eq_type1 {m : Message} :
    decode m = some SYS_SIG_TYPE_1 ↔ upToNul m = bytes "SYS_SIG_TYPE_1" := by
  rw [decode_eq_some]
  constructor
  · rintro ⟨text, htext, hm⟩
    simp only [typeTexts, List.mem_cons, Prod.mk.injEq, List.not_mem_nil, or_false] at htext
    rcases htext with ⟨_, rfl⟩ | ⟨he, _⟩ | ⟨he, _⟩ | ⟨he, _⟩
    · exact hm
    all_goals cases he
  · exact fun hm => ⟨_, by simp [typeTexts], hm⟩

/-- SB stays where it is and gets nothing. -/
theorem sb_still (h : Run (step Z K) G (start K buf) as s) :
    s.leaf .pseSbStateMachine = .sb11 ∧ s.queue .pseSbStateMachine = [] := by
  obtain ⟨taken, hsub, _, hleaf⟩ := exists_taken h .pseSbStateMachine
  rw [received_sb, List.sublist_nil, List.append_eq_nil_iff] at hsub
  rw [hsub.1] at hleaf
  exact ⟨hleaf, hsub.2⟩

/-- SA is in one of two leaves; it has moved, or is about to, exactly if it has been sent for. -/
theorem sa_moved_iff (h : Run (step Z K) G (start K buf) as s) :
    (s.leaf .pseSaStateMachine = .sa11 ∨ s.leaf .pseSaStateMachine = .sa22) ∧
      (s.leaf .pseSaStateMachine = .sa22 ∨ SYS_SIG_TYPE_1 ∈ s.queue .pseSaStateMachine ↔
        ∃ m ∈ messages as, upToNul m = bytes "SYS_SIG_TYPE_1") := by
  obtain ⟨taken, hsub, hhead, hleaf⟩ := exists_taken h .pseSaStateMachine
  have hall : ∀ e ∈ taken ++ s.queue .pseSaStateMachine, e = SYS_SIG_TYPE_1 :=
    fun e he => (mem_received_sa.1 (hsub.subset he)).2
  rw [firstLeaf, fires_sa11 fun e he => hall e (List.mem_append_left _ he)] at hleaf
  -- something has been sent to SA exactly if something has been taken or waits
  have hsent : taken ++ s.queue .pseSaStateMachine ≠ [] ↔
      SYS_SIG_TYPE_1 ∈ (messages as).filterMap decode := by
    rw [ne_eq, ← List.head?_eq_none_iff, hhead, List.head?_eq_none_iff]
    constructor
    · intro hne
      obtain ⟨e, he⟩ := List.exists_mem_of_ne_nil _ hne
      obtain ⟨hmem, rfl⟩ := mem_received_sa.1 he
      exact hmem
    · exact fun hmem => List.ne_nil_of_mem (mem_received_sa.2 ⟨hmem, rfl⟩)
  have hqueue : SYS_SIG_TYPE_1 ∈ s.queue .pseSaStateMachine ↔
      s.queue .pseSaStateMachine ≠ [] := by
    constructor
    · exact List.ne_nil_of_mem
    · intro hne
      obtain ⟨e, he⟩ := List.exists_mem_of_ne_nil _ hne
      exact hall e (List.mem_append_right _ he) ▸ he
  simp only [← decode_eq_type1, ← List.mem_filterMap, ← hsent, hqueue, hleaf]
  by_cases ht : taken = [] <;> simp [ht]

/-- **SA never comes back** from its second group, whatever is published and whatever the order of
    passes, ticks and task runs. -/
theorem second_group_final (h : Run (step Z K) G (start K buf) as s)
    (h' : Run (step Z K) G s bs s') (hs : s.leaf .pseSaStateMachine = .sa22) :
    s'.leaf .pseSaStateMachine = .sa22 := by
  induction h' with
  | nil => exact hs
  | @snoc bs u u' a hrun _ hstep ih =>
    obtain ⟨hnone, hsome⟩ := step_part (m := .pseSaStateMachine) hstep
    cases ha : a.part .pseSaStateMachine with
    | none => rw [System.leaf, hnone ha]; exact ih
    | some b =>
      have hleaf := Program.step_leaf (pseStateMachine_plain _) (hsome b ha)
      have htaken : ∀ e ∈ Program.takenBy (u.part .pseSaStateMachine) b, e = SYS_SIG_TYPE_1 := by
        intro e he
        refine queue_sa (h.append hrun) e ?_
        cases b with
        | consume => exact List.mem_of_mem_head? (Option.mem_toList.1 he)
        | _ => cases he
      rw [System.leaf, hleaf, show (u.part .pseSaStateMachine).leaf = .sa22 from ih]
      exact fires_sa22 htaken

/-- `SYS_SIG_TYPE_2` does not bring SA back. -/
theorem second_group_final_type2 : ∃ s s' : System fun m => .reference (pseStateMachine m),
    Run (step .reference fun m => .reference (pseStateMachine m)) Anything s
      [.recv (.message (bytes "SYS_SIG_TYPE_2")), .recv (.message (bytes "SYS_SIG_TYPE_1")), .tick,
        .consume .pseSaStateMachine] s' ∧
      s.leaf .pseSaStateMachine = .sa22 ∧ s'.leaf .pseSaStateMachine = .sa22 := by
  have hexec : (execute (step .reference fun m => .reference (pseStateMachine m)) Anything
      (start _ Buffer.zero)
      [.recv (.message (bytes "SYS_SIG_TYPE_1")), .consume .pseSaStateMachine]).map
        (fun s => (s.leaf .pseSaStateMachine, (execute
          (step .reference fun m => .reference (pseStateMachine m)) Anything s
          [.recv (.message (bytes "SYS_SIG_TYPE_2")), .recv (.message (bytes "SYS_SIG_TYPE_1")),
            .tick, .consume .pseSaStateMachine]).isSome)) = some (.sa22, true) := by decide
  obtain ⟨s, hrun, hs⟩ := Run.of_execute_map hexec
  obtain ⟨hleaf, hsome⟩ := Prod.mk.inj hs
  obtain ⟨s', hrun'⟩ := Run.of_execute_isSome hsome
  exact ⟨s, s', hrun', hleaf, second_group_final hrun hrun' hleaf⟩

/-! ## sender.py -/

/-- What one pass of the loop sends for a line. -/
def senderKey (key : String) : List Message :=
  if key = "1" then [bytes "SYS_SIG_TYPE_1"]
  else if key = "2" then [bytes "SYS_SIG_TYPE_2"]
  else if key = "3" then [bytes "SYS_SIG_TYPE_3"]
  else if key = "4" then [bytes "SYS_SIG_TYPE_4"]
  else []

/-- The messages that `sender.py` sends for the lines typed at it; it stops after `q`. -/
def sender : List String → List Message
  | [] => []
  | key :: keys => senderKey key ++ if key = "q" then [] else sender keys

/-- The messages for one line. -/
theorem type1_senderKey (key : String) :
    (∃ m ∈ senderKey key, upToNul m = bytes "SYS_SIG_TYPE_1") ↔ key = "1" := by
  unfold senderKey
  split
  · rename_i hkey
    simpa [hkey] using (by decide : upToNul (bytes "SYS_SIG_TYPE_1") = bytes "SYS_SIG_TYPE_1")
  · rename_i hkey
    simp only [hkey, iff_false]
    split
    · decide
    split
    · decide
    split
    · decide
    · simp

/-- The messages for all lines. -/
theorem type1_sender (lines : List String) :
    (∃ m ∈ sender lines, upToNul m = bytes "SYS_SIG_TYPE_1") ↔
      "1" ∈ lines.takeWhile (· ≠ "q") := by
  induction lines with
  | nil => simp [sender]
  | cons key keys ih =>
    simp only [sender, List.mem_append, or_and_right, exists_or, type1_senderKey]
    by_cases hq : key = "q"
    · subst hq
      simp
    · rw [if_neg hq, ih, List.takeWhile_cons_of_pos (by simpa using hq), List.mem_cons]
      exact or_congr_left eq_comm

/-- **From the keyboard to the leaves**: when all messages of the sender have been received and
    the queue of SA is empty, SA is in its second group exactly if `1` has been typed before `q`,
    and SB has not moved; the other keys have no effect, and how many signals the queue has lost
    does not matter. -/
theorem typed_keys_decide (lines : List String) (h : Run (step Z K) G (start K buf) as s)
    (hin : messages as = Z.pushPull (sender lines)) (hq : s.queue .pseSaStateMachine = []) :
    s.leaf .pseSaStateMachine = (if "1" ∈ lines.takeWhile (· ≠ "q") then .sa22 else .sa11) ∧
      s.leaf .pseSbStateMachine = .sb11 := by
  refine ⟨?_, (sb_still h).1⟩
  obtain ⟨hleaf, hmoved⟩ := sa_moved_iff h
  rw [hin, Z.pushPull_eq, type1_sender, hq] at hmoved
  simp only [List.not_mem_nil, or_false] at hmoved
  split
  · rename_i htyped
    exact hmoved.2 htyped
  · rename_i htyped
    exact hleaf.resolve_right fun hs => htyped (hmoved.1 hs)

/-- The typed lines `1`, `2`, `x`, `q`, `1`. -/
theorem typed_keys_decide_once : ∃ s : System fun m => .reference (pseStateMachine m),
    Run (step .reference fun m => .reference (pseStateMachine m)) Anything (start _ Buffer.zero)
      [.recv (.message (bytes "SYS_SIG_TYPE_1")), .tick, .recv .error,
        .recv (.message (bytes "SYS_SIG_TYPE_2")), .consume .pseSaStateMachine] s ∧
      s.leaf .pseSaStateMachine = .sa22 ∧ s.leaf .pseSbStateMachine = .sb11 := by
  have hexec : (execute (step .reference fun m => .reference (pseStateMachine m)) Anything
      (start _ Buffer.zero)
      [.recv (.message (bytes "SYS_SIG_TYPE_1")), .tick, .recv .error,
        .recv (.message (bytes "SYS_SIG_TYPE_2")), .consume .pseSaStateMachine]).map
        (fun s => s.queue .pseSaStateMachine) = some [] := by decide
  obtain ⟨s, hrun, hq⟩ := Run.of_execute_map hexec
  obtain ⟨hsa, hsb⟩ := typed_keys_decide ["1", "2", "x", "q", "1"] hrun (by decide) hq
  exact ⟨s, hrun, hsa.trans (by decide), hsb⟩

end QuarkTS.PubSub
