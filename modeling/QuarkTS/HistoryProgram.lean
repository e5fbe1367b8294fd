import QuarkTS.HistoryKernel

/-!
# A program around a machine with history

The runs of a `QueuedKernel`, for a machine that uses history transitions.  `leaf_eq_feed` — in
every run, the active leaf is the one that the taken signals lead to.
-/

set_option autoImplicit false

namespace QuarkTS.HistoryProgram

open Statechart Runs Program

variable {M Q S I : Type} [DecidableEq S] {A : Machine M Q S}

abbrev step (handler : I → Option SigId) (K : HistoryKernel A) :
    K.State → Action I → Option K.State :=
  K.toQueuedKernel.step handler

/-- The signals that a run has tried to put into the queue. -/
abbrev issued (handler : I → Option SigId) (as : List (Action I)) : List SigId :=
  QueuedKernel.issued handler as

abbrev record (K : HistoryKernel A) :
    K.State → Action I → K.State → List SigId → List SigId :=
  K.toQueuedKernel.record

variable {handler : I → Option SigId} {K : HistoryKernel A} {k k' : K.State} {a : Action I}

/-- The engine is where a sequence of signals leads to, as far as can be told from its leaf and from
    what it recalls of inactive states. -/
structure Follows (K : HistoryKernel A) (v : HistoryCore S) (w : List SigId) : Prop where
  leaf : v.leaf = K.leaf (K.feed w)
  recalled : ∀ s, s ∉ A.historyChart.chart.path v.leaf → v.recalled s = K.recalled (K.feed w) s

/-- One more signal. -/
theorem Follows.dispatch (hA : A.Permissive) {w : List SigId} (h : Follows K (K.core k) w)
    (e : SigId) : Follows K (K.core (K.dispatch k e)) (w ++ [e]) := by
  have hold : K.leaf k = K.leaf (K.feed w) := h.leaf
  have hrecalled : ∀ s, s ∉ A.historyChart.chart.path (K.leaf k) →
    K.recalled k s = K.recalled (K.feed w) s := h.recalled
  have hfeed : K.feed (w ++ [e]) = K.dispatch (K.feed w) e := List.foldl_concat ..
  have hleaf : K.leaf (K.dispatch k e) = K.leaf (K.feed (w ++ [e])) := by
    rw [hfeed, K.dispatch_leaf hA, K.dispatch_leaf hA, ← hold]
    -- a target that is entered by its history is inactive, so both recall the same of it
    exact A.historyChart.next_congr fun t mode hfind hmode =>
      hrecalled t (hA.remote _ _ _ _ hfind hmode)
  refine ⟨hleaf, fun s hs => ?_⟩
  have hs' : s ∉ A.historyChart.chart.path (K.leaf (K.dispatch (K.feed w) e)) := by
    rw [← hfeed, ← hleaf]
    exact hs
  rw [hfeed, K.dispatch_recalled hA hs', ← hold]
  refine (K.dispatch_recalled hA hs).trans ?_
  split
  · rfl
  · rename_i hactive
    exact hrecalled s hactive

/-! ## Runs -/

variable {G : K.State → Action I → Prop} {as : List (Action I)} {w : K.State × List SigId}

/-- **The active leaf is the one that the taken signals lead to**, in every run. -/
theorem leaf_eq_feed (hA : A.Permissive)
    (h : Run (watch (step handler K) (record K)) (fun w a => G w.1 a) (K.start, []) as w) :
    K.leaf w.1 = K.leaf (K.feed w.2) := by
  have hstart : Follows K (K.core K.start) [] := ⟨rfl, fun _ _ => rfl⟩
  exact (QueuedKernel.core_invariant hstart (fun _ e _ hw => hw.dispatch hA e) h).leaf

/-- **Nothing is invented, doubled or overtaken.** -/
theorem taken_sublist_issued
    (h : Run (watch (step handler K) (record K)) (fun w a => G w.1 a) (K.start, []) as w) :
    List.Sublist (w.2 ++ K.queue w.1) (issued handler as) :=
  QueuedKernel.taken_sublist_issued h

end QuarkTS.HistoryProgram
