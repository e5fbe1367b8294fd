import QuarkTS.Lib.Guarded
import QuarkTS.QueuedKernel

/-!
# The kernel's signal actions as guards

`doc/pages/extensions.dox` describes signal actions that decide whether a transition is taken.  They
may read and set data of the program.  A `GuardedKernel` is any implementation of the engine for a
machine with such actions; what it does with a signal that no transition has been taken for, and
which ancestors a transition leaves and enters again, is left open.

`leaf_of_agree` — if all that is left open agrees on the leaf, then in every run the signals taken
from the queue decide on it.
-/

set_option autoImplicit false

namespace QuarkTS

open Statechart Runs Program

/-! ## Set-up -/

/-- A set-up call of a program whose signal actions act on data `D`. -/
inductive GuardedCall (M Q S D : Type) where
  | call (c : Call M Q S)
  | setStateTransitions (s : S) (entries : List (GuardedEntry S SigId D))

namespace GuardedCall

variable {M Q S D : Type}

def call? : GuardedCall M Q S D → Option (Call M Q S)
  | .call c => some c
  | .setStateTransitions _ _ => none

variable [DecidableEq S]

/-- One call records its table. -/
def record (table : S → List (GuardedEntry S SigId D)) :
    GuardedCall M Q S D → S → List (GuardedEntry S SigId D)
  | .call _ => table
  | .setStateTransitions s entries => Function.update table s entries

/-- The tables that set-up calls have recorded. -/
def tables (cs : List (GuardedCall M Q S D)) : S → List (GuardedEntry S SigId D) :=
  cs.foldl record fun _ => []

end GuardedCall

/-- A machine whose signal actions act on data. -/
structure GuardedMachine (M Q S D : Type) extends Machine M Q S where
  transitions : S → List (GuardedEntry S SigId D)
  /-- what the callback of a state does to the data when the state is left -/
  left : S → D → D
  /-- the data before the start -/
  data : D

namespace GuardedMachine

variable {M Q S D : Type} (A : GuardedMachine M Q S D)

def guardedChart : GuardedChart S SigId D where
  parent := A.setup.parent
  initial := A.setup.substate
  table := A.transitions
  left := A.left
  nesting := A.nesting

/-- No callback reports a signal as handled. -/
def Unhandled : Prop := ∀ s, ∀ f ∈ A.setup.callback s, ∀ e, (f e).2 ≠ .signalHandled

end GuardedMachine

/-! ## The engine -/

variable {M Q S D : Type} [DecidableEq S]

/-- An implementation of the engine for one machine: a signal that is propagated does one of the
    things that may happen. -/
structure GuardedKernel (A : GuardedMachine M Q S D) extends
    QueuedKernel (S × D) (A.setup.length A.queue) where
  core_start : (view start).core = (A.guardedChart.chart.settle A.initial, A.data)
  expire_none : A.setup.timeoutSpec A.id = false → ∀ k i, expire k i = none
  dispatch_mem : A.Unhandled → ∀ k e, (view (dispatch k e)).core ∈
    A.guardedChart.reactions (view k).core.1 (view k).core.2 e

namespace GuardedKernel

variable {A : GuardedMachine M Q S D}

/-- An engine that always does the first thing on the list; its timers never run out. -/
def reference (A : GuardedMachine M Q S D) : GuardedKernel A where
  State := (S × D) × Fifo SigId (A.setup.length A.queue)
  view k := ⟨k.1, k.2⟩
  start := ((A.guardedChart.chart.settle A.initial, A.data), Fifo.empty)
  sendSignal k e _ := ((k.1, (k.2.push e).1), (k.2.push e).2)
  sysTick := id
  expire _ _ := none
  receive k := k.2.pop.map fun p => (p.1, (k.1, p.2))
  dispatch k e := ((A.guardedChart.reactions k.1.1 k.1.2 e).head
    (A.guardedChart.reactions_ne_nil k.1.1 k.1.2 e), k.2)
  queue_start := rfl
  view_sendSignal _ _ := rfl
  view_sysTick _ := rfl
  view_expire _ _ _ h := nomatch h
  view_receive _ := Option.map_map ..
  queue_dispatch _ _ := rfl
  core_start := rfl
  expire_none _ _ _ := rfl
  dispatch_mem _ _ _ := List.head_mem _

variable (K : GuardedKernel A)

/-- The active leaf. -/
def leaf (k : K.State) : S := (K.core k).1

def data (k : K.State) : D := (K.core k).2

/-! ## A program around it -/

variable {K} {I : Type} {handler : I → Option SigId} {as : List (Action I)}
  {G : K.State → Action I → Prop} {w : K.State × List SigId}

/-- **The leaf does not depend on the engine** if all that may happen agrees on it: in every run,
    the signals taken from the queue decide. -/
theorem leaf_of_agree {J : S → D → Prop} {next : S → SigId → S} (hA : A.Unhandled)
    (hagree : A.guardedChart.Agree J next)
    (hstart : J (A.guardedChart.chart.settle A.initial) A.data)
    (h : Run (watch (K.step handler) K.record) (fun w a => G w.1 a) (K.start, []) as w) :
    K.leaf w.1 = w.2.foldl next (A.guardedChart.chart.settle A.initial) ∧
      J (K.leaf w.1) (K.data w.1) := by
  refine QueuedKernel.core_invariant (J := fun v taken =>
    v.1 = taken.foldl next (A.guardedChart.chart.settle A.initial) ∧ J v.1 v.2) ?_ ?_ h
  · rw [show K.core K.start = _ from K.core_start]
    exact ⟨rfl, hstart⟩
  · rintro k e taken ⟨hleaf, hJ⟩
    exact hagree.concat hleaf hJ _ (K.dispatch_mem hA k e)

end GuardedKernel

end QuarkTS
