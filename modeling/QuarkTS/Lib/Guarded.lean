import Mathlib.Data.List.Induction
import QuarkTS.Lib.Statechart

/-!
# Statecharts with guards over data

A table entry may have a guard, which acts on the data of the program and says whether the
transition is taken, and it may have no target, so that only its guard is evaluated.  Leaving a
state may change the data too.  Engines differ in what they do with an event that no transition has
been taken for (they drop it or pass it on to the parent), and in which states above the common
ancestor a transition leaves and enters again; `reactions` lists what may happen.

* `reactions_ne_nil` — something does happen;
* `Agree` — all that may happen leads to the same leaf; `Agree.concat` takes this from one event to
  a sequence of events.
-/

set_option autoImplicit false

namespace Statechart

/-- Event, guard (`none` always allows) and target. -/
structure GuardedEntry (S E D : Type) where
  event : E
  guard : Option (D → Bool × D)
  target : Option S

namespace GuardedEntry

variable {S E D : Type}

def evaluate (t : GuardedEntry S E D) (d : D) : Bool × D :=
  match t.guard with
  | none => (true, d)
  | some g => g d

end GuardedEntry

structure GuardedChart (S E D : Type) where
  parent : S → Option S
  initial : S → Option S
  table : S → List (GuardedEntry S E D)
  /-- what leaving a state does to the data -/
  left : S → D → D
  nesting : Nesting parent initial

namespace GuardedChart

variable {S E D : Type} [DecidableEq S] [DecidableEq E] (C : GuardedChart S E D)

/-- The nesting of the states. -/
def chart : Chart S E where
  parent := C.parent
  initial := C.initial
  table _ := []
  nesting := C.nesting

/-- What the search along a path may come to: the data, and the target of the transition. -/
def search (e : E) : List S → D → List (D × Option S)
  | [], d => [(d, none)]
  | s :: ss, d =>
    match (C.table s).find? fun t => t.event = e with
    | none => search e ss d
    | some t =>
      match t.evaluate d, t.target with
      | (true, d'), some target => [(d', some target)]
      | (_, d'), _ => (d', none) :: search e ss d'

/-- The states that a transition may leave, innermost first: those below the common ancestor, and
    perhaps ancestors above them. -/
def mayLeave (leaf target : S) : List (List S) :=
  ((C.chart.path leaf).filter (fun s => s ∈ C.chart.path target)).inits.map fun above =>
    C.chart.exited leaf target ++ above

/-- What may happen on an event. -/
def reactions (leaf : S) (d : D) (e : E) : List (S × D) :=
  (C.search e (C.chart.path leaf) d).flatMap fun
    | (d', none) => [(leaf, d')]
    | (d', some target) => (C.mayLeave leaf target).map fun ss =>
      (C.chart.settle target, ss.foldl (fun d s => C.left s d) d')

omit [DecidableEq S] in
/-- Something does happen. -/
theorem search_ne_nil (e : E) (ss : List S) (d : D) : C.search e ss d ≠ [] := by
  induction ss with
  | nil => exact List.cons_ne_nil _ _
  | cons s ss ih =>
    unfold search
    split
    · exact ih
    · split <;> exact List.cons_ne_nil _ _

omit [DecidableEq E] in
theorem mayLeave_ne_nil (leaf target : S) : C.mayLeave leaf target ≠ [] := by
  rw [mayLeave, ne_eq, List.map_eq_nil_iff]
  exact List.ne_nil_of_mem ((List.mem_inits _ _).2 List.nil_prefix)

theorem reactions_ne_nil (leaf : S) (d : D) (e : E) : C.reactions leaf d e ≠ [] := by
  rw [reactions, ne_eq, List.flatMap_eq_nil_iff]
  intro h
  obtain ⟨⟨d', target⟩, hmem⟩ := List.exists_mem_of_ne_nil _ (C.search_ne_nil e _ d)
  have hnil := h _ hmem
  cases target with
  | none => cases hnil
  | some target => exact C.mayLeave_ne_nil leaf target (List.map_eq_nil_iff.1 hnil)

/-- All that may happen leads to the same leaf, as long as `I` holds of leaf and data, and keeps
    `I`. -/
def Agree (I : S → D → Prop) (next : S → E → S) : Prop :=
  ∀ leaf d e, I leaf d → ∀ r ∈ C.reactions leaf d e, r.1 = next leaf e ∧ I r.1 r.2

variable {C} in
/-- **One more event**, when the leaf so far is that of the events so far. -/
theorem Agree.concat {I : S → D → Prop} {next : S → E → S} (h : C.Agree I next) {leaf init : S}
    {d : D} {w : List E} {e : E} (hleaf : leaf = w.foldl next init) (hI : I leaf d) :
    ∀ r ∈ C.reactions leaf d e, r.1 = (w ++ [e]).foldl next init ∧ I r.1 r.2 := by
  intro r hr
  obtain ⟨hnext, hkept⟩ := h leaf d e hI r hr
  exact ⟨by rw [List.foldl_concat, ← hleaf, hnext], hkept⟩

end GuardedChart

end Statechart
