import QuarkTS.Lib.Reactor

/-!
# What becomes of the events that are posted to a reactor

A `Ledger` records, next to a run, the events that were posted or that a timer tried to post
(`issued`) and the events that were taken from the queue (`taken`), both in order.

* `taken_sublist_issued` — the taken and the waiting events together are a part of the issued ones,
  in their order: nothing is invented, doubled or overtaken;
* `leaf_eq_fires_taken` — the active leaf is the one that the taken events lead to;
* `head?_taken` — the first event issued is never lost;
* `taken_eq_issued` — of the events of one kind none is lost, if each of them meets room.
-/

set_option autoImplicit false

namespace Reactor

open Statechart Runs

/-- The events issued and taken so far, oldest first. -/
structure Ledger (E : Type) where
  issued : List E
  taken : List E
  deriving DecidableEq, Repr

namespace Ledger

variable {E : Type}

def empty : Ledger E := ⟨[], []⟩

end Ledger

namespace Spec

variable {S E : Type} (P : Spec S E)

/-- The event that an action tries to put into the queue. -/
def issuedBy : Action E → List E
  | .post e => [e]
  | .expire i => [P.expiry i]
  | .tick => []
  | .consume => []

/-- The event that an action takes from the queue. -/
def takenBy (st : State S E P.capacity) : Action E → List E
  | .consume => st.queue.items.head?.toList
  | _ => []

def record (st : State S E P.capacity) (a : Action E) (_ : State S E P.capacity) (L : Ledger E) :
    Ledger E where
  issued := L.issued ++ P.issuedBy a
  taken := L.taken ++ P.takenBy st a

/-- An issued event that satisfies `p` meets room in the queue. -/
def RoomFor (p : E → Bool) (st : State S E P.capacity) (a : Action E) : Prop :=
  ∀ e ∈ P.issuedBy a, p e = true → st.queue.items.length < P.capacity

instance (p : E → Bool) (st : State S E P.capacity) (a : Action E) :
    Decidable (P.RoomFor p st a) :=
  inferInstanceAs (Decidable (∀ e ∈ P.issuedBy a, p e = true → _))

variable {P} {st st' : State S E P.capacity} {a : Action E} {p : E → Bool}

/-- A push keeps a part of the event, and all of it if there is room. -/
theorem push_kept (q : Fifo E P.capacity) (e : E) :
    ∃ kept, List.Sublist kept [e] ∧ (q.push e).1.items = q.items ++ kept ∧
      ((p e = true → q.items.length < P.capacity) → kept.filter p = [e].filter p) := by
  by_cases hlt : q.items.length < P.capacity
  · exact ⟨[e], List.Sublist.refl _, Fifo.push_items_of_lt hlt e, fun _ => rfl⟩
  · refine ⟨[], List.nil_sublist _, by rw [Fifo.push_of_full hlt, List.append_nil], fun hroom => ?_⟩
    have hp : p e = false := by
      cases hp : p e with
      | false => rfl
      | true => exact absurd (hroom hp) hlt
    simp [hp]

variable [DecidableEq S] [DecidableEq E]

/-- What one action does to the taken and the waiting events together. -/
theorem step_kept (h : P.step st a = some st') :
    ∃ kept, List.Sublist kept (P.issuedBy a) ∧
      P.takenBy st a ++ st'.queue.items = st.queue.items ++ kept ∧
      (P.RoomFor p st a → kept.filter p = (P.issuedBy a).filter p) := by
  cases a with
  | post e =>
    cases h
    obtain ⟨kept, hk, hq, hroom⟩ := push_kept (p := p) st.queue e
    exact ⟨kept, hk, hq, fun hr => hroom fun hp => hr e (by simp [issuedBy]) hp⟩
  | tick =>
    cases h
    exact ⟨[], List.Sublist.refl _, by simp [takenBy], fun _ => rfl⟩
  | expire i =>
    obtain ⟨_, _, _, _, hq, _⟩ := expire_cases h
    obtain ⟨kept, hk, hitems, hroom⟩ := push_kept (p := p) st.queue (P.expiry i)
    refine ⟨kept, hk, ?_, fun hr => hroom fun hp => hr _ (by simp [issuedBy]) hp⟩
    rw [hq, hitems]
    rfl
  | consume =>
    obtain ⟨e, mid, hq, _, _, rfl⟩ := consume_cases h
    exact ⟨[], List.Sublist.refl _, by simp [takenBy, hq], fun _ => rfl⟩

/-- What one action does to the leaf. -/
theorem step_leaf (h : P.step st a = some st') :
    st'.leaf = P.chart.fires st.leaf (P.takenBy st a) := by
  cases a with
  | post e => cases h; rfl
  | tick => cases h; rfl
  | expire i =>
    obtain ⟨_, _, _, hl, _⟩ := expire_cases h
    exact hl
  | consume =>
    obtain ⟨e, mid, hq, hl, _, rfl⟩ := consume_cases h
    rw [react_leaf, takenBy, hq, hl]
    rfl

end Spec

section Run

variable {S E : Type} [DecidableEq S] [DecidableEq E] {P : Spec S E} {p : E → Bool}
  {G : State S E P.capacity → Spec.Action E → Prop} {as : List (Spec.Action E)}
  {w : State S E P.capacity × Ledger E}

open Spec

/-- **Nothing is invented, doubled or overtaken.** -/
theorem taken_sublist_issued
    (hr : Run (watch P.step P.record) (fun w a => G w.1 a) (P.start, Ledger.empty) as w) :
    List.Sublist (w.2.taken ++ w.1.queue.items) w.2.issued := by
  refine hr.invariant (fun _ w => List.Sublist (w.2.taken ++ w.1.queue.items) w.2.issued) ?_ ?_
  · exact List.Sublist.refl _
  · intro _ w a w' ih _ hstep
    obtain ⟨hs, hrec⟩ := watch_eq_some.1 hstep
    obtain ⟨kept, hk, hq, _⟩ := step_kept (p := fun _ => true) hs
    rw [hrec, record, List.append_assoc, hq, ← List.append_assoc]
    exact ih.append hk

/-- **The active leaf is the one that the taken events lead to.** -/
theorem leaf_eq_fires_taken
    (hr : Run (watch P.step P.record) (fun w a => G w.1 a) (P.start, Ledger.empty) as w) :
    w.1.leaf = P.chart.fires (P.chart.settle P.initial) w.2.taken := by
  refine hr.invariant
    (fun _ w => w.1.leaf = P.chart.fires (P.chart.settle P.initial) w.2.taken) ?_ ?_
  · rfl
  · intro _ w a w' ih _ hstep
    obtain ⟨hs, hrec⟩ := watch_eq_some.1 hstep
    rw [hrec, record, step_leaf hs, ih, Chart.fires, Chart.fires, Chart.fires, List.foldl_append]

/-- **Of the events of a kind none is lost**, if each of them meets room in the queue. -/
theorem taken_eq_issued
    (hr : Run (watch P.step P.record) (fun w a => P.RoomFor p w.1 a) (P.start, Ledger.empty) as w) :
    (w.2.taken ++ w.1.queue.items).filter p = w.2.issued.filter p := by
  refine hr.invariant
    (fun _ w => (w.2.taken ++ w.1.queue.items).filter p = w.2.issued.filter p) ?_ ?_
  · rfl
  · intro _ w a w' ih hroom hstep
    obtain ⟨hs, hrec⟩ := watch_eq_some.1 hstep
    obtain ⟨kept, _, hq, hkept⟩ := step_kept (p := p) hs
    rw [hrec, record, List.append_assoc, hq, ← List.append_assoc, List.filter_append, ih,
      hkept hroom, ← List.filter_append]

/-- **The first event is never lost**: it meets an empty queue. -/
theorem head?_taken (hcap : 0 < P.capacity)
    (hr : Run (watch P.step P.record) (fun w a => G w.1 a) (P.start, Ledger.empty) as w) :
    (w.2.taken ++ w.1.queue.items).head? = w.2.issued.head? := by
  refine hr.invariant
    (fun _ w => (w.2.taken ++ w.1.queue.items).head? = w.2.issued.head?) ?_ ?_
  · rfl
  · intro _ w a w' ih _ hstep
    obtain ⟨hs, hrec⟩ := watch_eq_some.1 hstep
    obtain ⟨kept, _, hq, hkept⟩ := step_kept (p := fun _ => true) hs
    rw [hrec, record, List.append_assoc, hq, ← List.append_assoc]
    cases hissued : w.2.issued with
    | cons e es =>
      rw [hissued] at ih
      rw [List.head?_append, ih]
      rfl
    | nil =>
      -- nothing has been issued before, so the queue is empty and keeps what comes
      have hnil : w.2.taken ++ w.1.queue.items = [] := by
        rw [hissued, List.head?_nil, List.head?_eq_none_iff] at ih
        exact ih
      have hempty := (List.append_eq_nil_iff.1 hnil).2
      have hall := hkept fun _ _ _ => by rw [hempty]; exact hcap
      rw [List.filter_true, List.filter_true] at hall
      rw [hnil, hall]

end Run

end Reactor
