import QuarkTS.QueuedKernel
import QuarkTS.Lib.Recall

/-!
# The kernel's history transitions and signal actions

`doc/pages/extensions.dox` describes the history mode of a transition and the signal action that
is evaluated before it.  A `HistoryKernel` is any implementation of the engine for a machine that
uses them, with the documented behaviour as fields: it is fixed when every signal action allows its
transition and every transition with history leads to a state that is not active (`Permissive`).
-/

set_option autoImplicit false

namespace QuarkTS

open Statechart Reactor

/-! ## History modes -/

def qSM_TRANSITION_NO_HISTORY : Nat := 0
def qSM_TRANSITION_SHALLOW_HISTORY : Nat := 1
def qSM_TRANSITION_DEEP_HISTORY : Nat := 2

def historyMode (history : Nat) : HistoryMode :=
  if history = qSM_TRANSITION_SHALLOW_HISTORY then .shallow
  else if history = qSM_TRANSITION_DEEP_HISTORY then .deep
  else .none

namespace Machine

variable {M Q S : Type} (A : Machine M Q S)

def historyChart : HistoryChart S SigId where
  parent := A.setup.parent
  initial := A.setup.substate
  table s := (A.setup.transitions s).map fun t => (t.signal, t.target, historyMode t.history)
  nesting := A.nesting

/-- Every signal action allows its transition, no callback reports a signal as handled, and a
    transition with history leads to a state that is not active. -/
structure Permissive : Prop where
  allowing : ∀ s, ∀ t ∈ A.setup.transitions s, ∀ f ∈ t.action, ∀ e, f e = true
  unhandled : ∀ s, ∀ f ∈ A.setup.callback s, ∀ e, (f e).2 ≠ .signalHandled
  remote : A.historyChart.Remote

end Machine

/-! ## The engine -/

/-- The leaf, and the leaf that was active immediately before the most recent exit of a state. -/
structure HistoryCore (S : Type) where
  leaf : S
  recalled : S → Option S

variable {M Q S : Type} [DecidableEq S]

/-- An implementation of the engine for one machine.  When timers run out is left open; without a
    timeout specification none ever does. -/
structure HistoryKernel (A : Machine M Q S) extends
    QueuedKernel (HistoryCore S) (A.setup.length A.queue) where
  leaf_start : (view start).core.leaf = A.historyChart.chart.settle A.initial
  recalled_start : ∀ s, s ∉ A.historyChart.chart.path (view start).core.leaf →
    (view start).core.recalled s = none
  expire_none : A.setup.timeoutSpec A.id = false → ∀ k i, expire k i = none
  leaf_none : A.Permissive → ∀ k e, A.historyChart.find (view k).core.leaf e = none →
    (view (dispatch k e)).core.leaf = (view k).core.leaf
  leaf_some : A.Permissive → ∀ k e t mode,
    A.historyChart.find (view k).core.leaf e = some (t, mode) →
      (view (dispatch k e)).core.leaf =
        A.historyChart.resume ((view k).core.recalled t) t mode
  recalled_dispatch : A.Permissive → ∀ k e s,
    s ∉ A.historyChart.chart.path (view (dispatch k e)).core.leaf →
      (view (dispatch k e)).core.recalled s =
        if s ∈ A.historyChart.chart.path (view k).core.leaf then some (view k).core.leaf
        else (view k).core.recalled s

namespace HistoryKernel

variable {A : Machine M Q S}

/-- The timers after a change of the leaf: states that are left and entered disarm and arm them. -/
def retime (A : Machine M Q S) (old new : S) (tm : Timers) : Timers :=
  let left := (A.chart.path old).filter fun s => s ∉ A.chart.path new
  let entered := ((A.chart.path new).filter fun s => s ∉ A.chart.path old).reverse
  A.spec.enter entered (A.spec.leave left tm)

/-- The documented behaviour can be implemented, with timers that run as in a reactor. -/
def reference (A : Machine M Q S) : HistoryKernel A :=
  let R := HistoryChart.Engine.reference A.historyChart A.initial
  { State := R.State × Fifo SigId A.spec.capacity × Timers
    view := fun k => ⟨⟨R.leaf k.1, R.recalled k.1⟩, k.2.1⟩
    start := (R.start, A.spec.start.queue, A.spec.start.timers)
    sendSignal := fun k e _ => ((k.1, (k.2.1.push e).1, k.2.2), (k.2.1.push e).2)
    sysTick := fun k => (k.1, k.2.1, elapse 1 k.2.2)
    expire := fun k i =>
      if A.setup.timeoutSpec A.id then
        (A.spec.expire ⟨R.leaf k.1, k.2.1, k.2.2⟩ i).map fun st => (k.1, st.queue, st.timers)
      else none
    receive := fun k => k.2.1.pop.map fun p => (p.1, (k.1, p.2, k.2.2))
    dispatch := fun k e =>
      (R.fire k.1 e, k.2.1, retime A (R.leaf k.1) (R.leaf (R.fire k.1 e)) k.2.2)
    queue_start := rfl
    view_sendSignal := fun _ _ => rfl
    view_sysTick := fun _ => rfl
    view_expire := fun k i k' h => by
      simp only [Option.mem_def, Option.ite_none_right_eq_some, Option.map_eq_some_iff] at h
      obtain ⟨_, st, hst, rfl⟩ := h
      obtain ⟨_, _, _, _, hqueue, _⟩ := Spec.expire_cases hst
      simp only [QueuedView.post, hqueue]
      rfl
    view_receive := fun _ => Option.map_map ..
    queue_dispatch := fun _ _ => rfl
    leaf_start := R.leaf_start
    recalled_start := R.recalled_start
    expire_none := fun h _ _ => by simp [h]
    leaf_none := fun _ k => R.leaf_none k.1
    leaf_some := fun _ k => R.leaf_some k.1
    recalled_dispatch := fun _ k => R.recalled_fire k.1 }

variable (K : HistoryKernel A)

/-- The active leaf. -/
def leaf (k : K.State) : S := (K.core k).leaf

/-- The leaf that was active immediately before the most recent exit of a state. -/
def recalled (k : K.State) : S → Option S := (K.core k).recalled

/-- The configuration: the active leaf and its ancestors. -/
def config (k : K.State) : List S := A.historyChart.chart.path (K.leaf k)

/-- The engine, as one of a statechart with history. -/
def engine (hA : A.Permissive) : HistoryChart.Engine A.historyChart A.initial where
  State := K.State
  start := K.start
  fire := K.dispatch
  leaf := K.leaf
  recalled := K.recalled
  leaf_start := K.leaf_start
  recalled_start := K.recalled_start
  leaf_none := K.leaf_none hA
  leaf_some := K.leaf_some hA
  recalled_fire := K.recalled_dispatch hA

theorem dispatch_leaf (hA : A.Permissive) (k : K.State) (e : SigId) :
    K.leaf (K.dispatch k e) = A.historyChart.next (K.recalled k) (K.leaf k) e := by
  cases hfind : A.historyChart.find (K.leaf k) e with
  | none => rw [HistoryChart.next_of_none _ hfind]; exact K.leaf_none hA k e hfind
  | some tm => rw [HistoryChart.next_of_some _ hfind]; exact K.leaf_some hA k e _ _ hfind

theorem dispatch_recalled (hA : A.Permissive) {k : K.State} {e : SigId} {s : S}
    (hs : s ∉ A.historyChart.chart.path (K.leaf (K.dispatch k e))) :
    K.recalled (K.dispatch k e) s =
      if s ∈ A.historyChart.chart.path (K.leaf k) then some (K.leaf k) else K.recalled k s :=
  K.recalled_dispatch hA k e s hs

/-- What signals that are fed to the engine lead to. -/
theorem leaf_feed (hA : A.Permissive) (w : List SigId) :
    K.leaf (K.feed w) = (K.engine hA).leafAfter w := rfl

end HistoryKernel

end QuarkTS
