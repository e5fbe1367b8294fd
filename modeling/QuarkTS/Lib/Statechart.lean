import Mathlib.Data.List.Infix

/-!
# Hierarchical state machines

A `Chart` is a finite forest of nested states: every state has an optional parent, an optional
default substate and a table of outgoing transitions.  A configuration is the active leaf
together with its ancestors (`path leaf`).  One event is handled as in a Harel statechart: the
leaf and then its ancestors are searched, the first matching table entry fires, the states below
the common ancestor are left (`exited`) and the target and its default substates are entered
(`entered`).

* `mem_path_settle` — the states active after a transition are the target, its ancestors and its
  default substates;
* `mem_path_settle_iff` — they are the states that were active and are not left, and the states
  that are entered;
* `settle_initial` — a transition always ends in a state with no default substate;
* `fire_of_lookup`, `fire_of_lookup_none` — the two cases of one event.
-/

set_option autoImplicit false

namespace Statechart

/-- Evidence that states are nested properly: `depth` and `height` witness that the nesting is
    finite, and a default substate is a child of its state. -/
structure Nesting {S : Type} (parent initial : S → Option S) where
  depth : S → Nat
  height : Nat
  depth_root : ∀ s, parent s = none → depth s = 0
  depth_parent : ∀ s p, parent s = some p → depth s = depth p + 1
  depth_le : ∀ s, depth s ≤ height
  initial_parent : ∀ s c, initial s = some c → parent c = some s

/-- A well-nested statechart. -/
structure Chart (S E : Type) where
  parent : S → Option S
  initial : S → Option S
  table : S → List (E × S)
  nesting : Nesting parent initial

namespace Chart

variable {S E : Type} (C : Chart S E)

/-! ## Ancestors -/

/-- A state and at most `n` of its ancestors, innermost first. -/
def climb : Nat → S → List S
  | 0, s => [s]
  | n + 1, s =>
    match C.parent s with
    | none => [s]
    | some p => s :: climb n p

/-- A state and all its ancestors, innermost first. -/
def path (s : S) : List S := C.climb (C.nesting.depth s) s

theorem path_root {s : S} (h : C.parent s = none) : C.path s = [s] := by
  rw [path, C.nesting.depth_root s h, climb]

theorem path_child {s p : S} (h : C.parent s = some p) : C.path s = s :: C.path p := by
  rw [path, C.nesting.depth_parent s p h, climb, h]
  rfl

/-! ## Default substates -/

/-- At most `n` default substates below a state, outermost first. -/
def drill : Nat → S → List S
  | 0, _ => []
  | n + 1, s =>
    match C.initial s with
    | none => []
    | some c => c :: drill n c

/-- The chain of default substates below a state, outermost first. -/
def substates (s : S) : List S := C.drill (C.nesting.height - C.nesting.depth s) s

theorem substates_leaf {s : S} (h : C.initial s = none) : C.substates s = [] := by
  unfold substates
  cases C.nesting.height - C.nesting.depth s with
  | zero => rfl
  | succ n => rw [drill, h]

theorem substates_child {s c : S} (h : C.initial s = some c) :
    C.substates s = c :: C.substates c := by
  have hd := C.nesting.depth_parent c s (C.nesting.initial_parent s c h)
  have hle := C.nesting.depth_le c
  have hfuel : C.nesting.height - C.nesting.depth s = (C.nesting.height - C.nesting.depth c) + 1 := by omega
  rw [substates, hfuel, drill, h]
  rfl

/-- The leaf reached by following default substates. -/
def settle (s : S) : S := (C.substates s).getLastD s

theorem settle_leaf {s : S} (h : C.initial s = none) : C.settle s = s := by
  simp [settle, C.substates_leaf h]

theorem settle_child {s c : S} (h : C.initial s = some c) : C.settle s = C.settle c := by
  rw [settle, settle, C.substates_child h]
  cases C.substates c <;> rfl

/-- Induction along the chain of default substates, from the leaf upwards. -/
theorem settle_induction {P : S → Prop} (hleaf : ∀ s, C.initial s = none → P s)
    (hchild : ∀ s c, C.initial s = some c → P c → P s) (s : S) : P s := by
  suffices ∀ n s, C.nesting.height - C.nesting.depth s = n → P s from this _ s rfl
  intro n
  induction n with
  | zero =>
    intro s hn
    cases h : C.initial s with
    | none => exact hleaf s h
    | some c =>
      have hd := C.nesting.depth_parent c s (C.nesting.initial_parent s c h)
      have hle := C.nesting.depth_le c
      omega
  | succ n ih =>
    intro s hn
    cases h : C.initial s with
    | none => exact hleaf s h
    | some c =>
      have hd := C.nesting.depth_parent c s (C.nesting.initial_parent s c h)
      exact hchild s c h (ih c (by omega))

/-- **A transition ends in a leaf.** -/
theorem settle_initial (s : S) : C.initial (C.settle s) = none := by
  induction s using C.settle_induction with
  | hleaf s h => rw [C.settle_leaf h, h]
  | hchild s c h ih => rw [C.settle_child h, ih]

theorem path_settle (s : S) : C.path (C.settle s) = (C.substates s).reverse ++ C.path s := by
  induction s using C.settle_induction with
  | hleaf s h => rw [C.settle_leaf h, C.substates_leaf h]; rfl
  | hchild s c h ih =>
    rw [C.settle_child h, ih, C.substates_child h, C.path_child (C.nesting.initial_parent s c h)]
    simp

theorem mem_path_settle {s u : S} : u ∈ C.path (C.settle s) ↔ u ∈ C.substates s ∨ u ∈ C.path s := by
  rw [C.path_settle, List.mem_append, List.mem_reverse]

/-! ## Exits and entries -/

section Exits

variable [DecidableEq S]

/-- The states left by a transition, innermost first. -/
def exited (leaf target : S) : List S := (C.path leaf).filter (fun s => s ∉ C.path target)

/-- The states entered by a transition, outermost first. -/
def entered (leaf target : S) : List S :=
  ((C.path target).filter (fun s => s ∉ C.path leaf)).reverse ++ C.substates target

theorem mem_exited {leaf target s : S} :
    s ∈ C.exited leaf target ↔ s ∈ C.path leaf ∧ s ∉ C.path target := by
  simp [exited]

theorem mem_entered {leaf target s : S} :
    s ∈ C.entered leaf target ↔
      (s ∈ C.path target ∧ s ∉ C.path leaf) ∨ s ∈ C.substates target := by
  simp [entered]

/-- **Exits and entries account for the change of configuration**: what is active after a
    transition was active and is not left, or is entered. -/
theorem mem_path_settle_iff {leaf target s : S} :
    s ∈ C.path (C.settle target) ↔
      (s ∈ C.path leaf ∧ s ∉ C.exited leaf target) ∨ s ∈ C.entered leaf target := by
  rw [C.mem_path_settle, mem_exited, mem_entered]
  tauto

end Exits

/-! ## Handling events -/

section Fire

variable [DecidableEq E]

/-- The first entry of a state's table for an event. -/
def entry (s : S) (e : E) : Option S := ((C.table s).find? (fun t => t.1 = e)).map (·.2)

/-- The target of the first matching entry, from the leaf to the root. -/
def lookup (leaf : S) (e : E) : Option S := (C.path leaf).findSome? (fun s => C.entry s e)

/-- An event that no table mentions finds no entry. -/
theorem lookup_eq_none {e : E} (h : ∀ s, ∀ t ∈ C.table s, t.1 ≠ e) (leaf : S) :
    C.lookup leaf e = none := by
  rw [lookup, List.findSome?_eq_none_iff]
  intro s _
  rw [entry, Option.map_eq_none_iff, List.find?_eq_none]
  intro t ht
  simpa using h s t ht

/-- The leaf that is active after an event. -/
def fire (leaf : S) (e : E) : S :=
  match C.lookup leaf e with
  | none => leaf
  | some target => C.settle target

theorem fire_of_lookup {leaf target : S} {e : E} (h : C.lookup leaf e = some target) :
    C.fire leaf e = C.settle target := by
  rw [fire, h]

theorem fire_of_lookup_none {leaf : S} {e : E} (h : C.lookup leaf e = none) :
    C.fire leaf e = leaf := by
  rw [fire, h]

/-- The leaf reached from `leaf` by a sequence of events. -/
def fires (leaf : S) (w : List E) : S := w.foldl C.fire leaf

@[simp] theorem fires_cons (leaf : S) (e : E) (w : List E) :
    C.fires leaf (e :: w) = C.fires (C.fire leaf e) w := rfl

@[simp] theorem fires_concat (leaf : S) (w : List E) (e : E) :
    C.fires leaf (w ++ [e]) = C.fire (C.fires leaf w) e := List.foldl_concat ..

/-- The configurations that a sequence of events leads through, from `leaf` on. -/
def configs (leaf : S) (w : List E) : List (List S) := w.inits.map fun v => C.path (C.fires leaf v)

theorem configs_concat (leaf : S) (w : List E) (e : E) :
    C.configs leaf (w ++ [e]) = C.configs leaf w ++ [C.path (C.fires leaf (w ++ [e]))] := by
  rw [configs, List.inits_append, List.map_append]
  rfl

theorem configs_getLast? (leaf : S) (w : List E) :
    (C.configs leaf w).getLast? = some (C.path (C.fires leaf w)) := by
  rcases List.eq_nil_or_concat w with rfl | ⟨v, e, rfl⟩
  · rfl
  · rw [List.concat_eq_append, configs_concat, List.getLast?_concat]

/-- A set of leaves that no event leads out of holds every leaf reached from it. -/
theorem fires_mem {P : S → Prop} (hP : ∀ s e, P s → P (C.fire s e)) {leaf : S} (h : P leaf)
    (w : List E) : P (C.fires leaf w) := by
  induction w generalizing leaf with
  | nil => exact h
  | cons e w ih => exact ih (hP leaf e h)

end Fire

end Chart

end Statechart
