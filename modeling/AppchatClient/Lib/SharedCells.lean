import Mathlib.Logic.Function.Basic
import Mathlib.Data.Nat.Notation

/-!
# Maps of shared pointers

A map from keys to cells that are made one after the other. Whoever takes a
cell's number out of the map keeps sharing the cell: what is written through
the number is what the map holds from then on. Every key has a cell of its own,
so seen from outside a write through a number is a write to one key.
-/

namespace AppchatClient.Lib.SharedCells

set_option autoImplicit false

/-- `cells` are the cells by number, `made` how many there are. -/
structure SharedMap (Key Value : Type*) where
  pointers : Key → Option Nat
  cells : Nat → Value
  made : Nat
  below : ∀ key number, pointers key = some number → number < made
  apart : ∀ key other number, pointers key = some number → pointers other = some number →
    key = other

variable {Key Value : Type*}

namespace SharedMap

def empty (value : Value) : SharedMap Key Value where
  pointers _ := none
  cells _ := value
  made := 0
  below := by simp
  apart := by simp

def view (map : SharedMap Key Value) (key : Key) : Option Value :=
  (map.pointers key).map map.cells

/-- Every number handed out earlier is still that of its key. -/
def Extends (map next : SharedMap Key Value) : Prop :=
  ∀ key number, map.pointers key = some number → next.pointers key = some number

def modify (map : SharedMap Key Value) (number : Nat) (change : Value → Value) :
    SharedMap Key Value :=
  { map with cells := Function.update map.cells number (change (map.cells number)) }

def make (map : SharedMap Key Value) (value : Value) : SharedMap Key Value where
  pointers := map.pointers
  cells := Function.update map.cells map.made value
  made := map.made + 1
  below key number held := Nat.lt_succ_of_lt (map.below key number held)
  apart := map.apart

variable [DecidableEq Key]

def insertNew (map : SharedMap Key Value) (key : Key) (value : Value) : SharedMap Key Value where
  pointers := Function.update map.pointers key (some map.made)
  cells := Function.update map.cells map.made value
  made := map.made + 1
  below other number held := by
    by_cases same : other = key
    · subst same
      simp only [Function.update_self, Option.some.injEq] at held
      omega
    · rw [Function.update_of_ne same] at held
      exact Nat.lt_succ_of_lt (map.below other number held)
  apart first second number held also := by
    by_cases left : first = key
    · by_cases right : second = key
      · rw [left, right]
      · subst left
        simp only [Function.update_self, Option.some.injEq] at held
        rw [Function.update_of_ne right] at also
        have earlier := map.below second number also
        omega
    · rw [Function.update_of_ne left] at held
      by_cases right : second = key
      · subst right
        simp only [Function.update_self, Option.some.injEq] at also
        have earlier := map.below first number held
        omega
      · rw [Function.update_of_ne right] at also
        exact map.apart first second number held also

def findOrMake (map : SharedMap Key Value) (key : Key) (value : Value) :
    Nat × SharedMap Key Value :=
  match map.pointers key with
  | some number => (number, map)
  | none => (map.made, map.insertNew key value)

/-- The new cell is made in any case; a key that has one keeps it. -/
def tryEmplace (map : SharedMap Key Value) (key : Key) (value : Value) : SharedMap Key Value :=
  match map.pointers key with
  | some _ => map.make value
  | none => map.insertNew key value

omit [DecidableEq Key] in
theorem view_of_pointer {map : SharedMap Key Value} {key : Key} {number : Nat}
    (held : map.pointers key = some number) : map.view key = some (map.cells number) := by
  rw [view, held, Option.map_some]

omit [DecidableEq Key] in
theorem view_make (map : SharedMap Key Value) (value : Value) :
    (map.make value).view = map.view := by
  funext key
  cases held : map.pointers key with
  | none => simp [view, make, held]
  | some number =>
      have earlier := map.below key number held
      have other : number ≠ map.made := by omega
      simp [view, make, held, Function.update_of_ne other]

theorem view_modify {map : SharedMap Key Value} {key : Key} {number : Nat}
    (held : map.pointers key = some number) (change : Value → Value) :
    (map.modify number change).view =
      Function.update map.view key (some (change (map.cells number))) := by
  funext other
  by_cases same : other = key
  · subst same
    simp [view, modify, held]
  · rw [Function.update_of_ne same]
    cases pointed : map.pointers other with
    | none => simp [view, modify, pointed]
    | some target =>
        have different : target ≠ number := by
          intro equal
          subst equal
          exact same (map.apart other key target pointed held)
        simp [view, modify, pointed, Function.update_of_ne different]

theorem view_insert_new (map : SharedMap Key Value) (key : Key) (value : Value) :
    (map.insertNew key value).view = Function.update map.view key (some value) := by
  funext other
  by_cases same : other = key
  · subst same
    simp [view, insertNew]
  · rw [Function.update_of_ne same, ← view_make map value]
    simp [view, insertNew, make, Function.update_of_ne same]

omit [DecidableEq Key] in
theorem extends_refl (map : SharedMap Key Value) : Extends map map := by
  intro key number held
  exact held

omit [DecidableEq Key] in
theorem Extends.trans {first second third : SharedMap Key Value} (left : Extends first second)
    (right : Extends second third) : Extends first third := by
  intro key number held
  exact right key number (left key number held)

theorem extends_insert_new {map : SharedMap Key Value} {key : Key}
    (missing : map.pointers key = none) (value : Value) :
    Extends map (map.insertNew key value) := by
  intro other number held
  have different : other ≠ key := by
    intro same
    subst same
    exact absurd (missing.symm.trans held) (by simp)
  simp only [insertNew, Function.update_of_ne different]
  exact held

theorem find_or_make_pointer (map : SharedMap Key Value) (key : Key) (value : Value) :
    (map.findOrMake key value).2.pointers key = some (map.findOrMake key value).1 := by
  unfold findOrMake
  cases held : map.pointers key with
  | some number => exact held
  | none => simp [insertNew]

theorem extends_find_or_make (map : SharedMap Key Value) (key : Key) (value : Value) :
    Extends map (map.findOrMake key value).2 := by
  unfold findOrMake
  cases held : map.pointers key with
  | some number => exact extends_refl map
  | none => exact extends_insert_new held value

theorem view_find_or_make (map : SharedMap Key Value) (key : Key) (value : Value) :
    (map.findOrMake key value).2.view =
      if (map.view key).isSome then map.view else Function.update map.view key (some value) := by
  unfold findOrMake
  cases held : map.pointers key with
  | some number => simp [view_of_pointer held]
  | none => simp [view, held, view_insert_new]

theorem extends_try_emplace (map : SharedMap Key Value) (key : Key) (value : Value) :
    Extends map (map.tryEmplace key value) := by
  unfold tryEmplace
  cases held : map.pointers key with
  | some number => exact extends_refl map
  | none => exact extends_insert_new held value

theorem try_emplace_pointer (map : SharedMap Key Value) (key : Key) (value : Value) :
    ((map.tryEmplace key value).pointers key).isSome := by
  unfold tryEmplace
  cases held : map.pointers key with
  | some number => simp [make, held]
  | none => simp [insertNew]

theorem view_try_emplace (map : SharedMap Key Value) (key : Key) (value : Value) :
    (map.tryEmplace key value).view =
      if (map.view key).isSome then map.view else Function.update map.view key (some value) := by
  unfold tryEmplace
  cases held : map.pointers key with
  | some number => simp [view_of_pointer held, view_make]
  | none => simp [view, held, view_insert_new]

end SharedMap

end AppchatClient.Lib.SharedCells
