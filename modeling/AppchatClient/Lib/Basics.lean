import Mathlib.Data.List.Dedup
import Mathlib.Data.List.Lex
import Mathlib.Data.Prod.Lex

/-!
# Small notions

Append-only multimaps: the values saved under each key, in the order of the
saves. Texts with a length limit: of what is inserted only the units that there
is room for are taken. Pairs whose parts are read one after the other while the
value grows, so that the pair read may never have been there. Procedures that
test the state and make one change, which calls them again before it returns;
together the nested calls are a loop, and `depth` bounds how deep they nest.
-/

set_option autoImplicit false

namespace AppchatClient.Lib.AppendMap

variable {Key Value : Type*} [DecidableEq Key]

structure Multimap (Key Value : Type*) where
  entries : List (Key × Value)

namespace Multimap

def empty : Multimap Key Value := ⟨[]⟩

def save (map : Multimap Key Value) (key : Key) (value : Value) : Multimap Key Value :=
  ⟨map.entries ++ [(key, value)]⟩

def load (map : Multimap Key Value) (key : Key) : List Value :=
  (map.entries.filter fun entry => entry.1 = key).map Prod.snd

def keys (map : Multimap Key Value) : List Key := (map.entries.map Prod.fst).dedup

@[simp] theorem load_save_same (map : Multimap Key Value) (key : Key) (value : Value) :
    (map.save key value).load key = map.load key ++ [value] := by
  simp [load, save]

theorem load_save_other {map : Multimap Key Value} {key other : Key} {value : Value}
    (different : other ≠ key) : (map.save key value).load other = map.load other := by
  simp [load, save, different.symm]

theorem load_save (map : Multimap Key Value) (key other : Key) (value : Value) :
    (map.save key value).load other =
      if other = key then map.load other ++ [value] else map.load other := by
  split_ifs with same
  · subst same
    exact load_save_same map other value
  · exact load_save_other same

theorem mem_keys {map : Multimap Key Value} {key : Key} :
    key ∈ map.keys ↔ map.load key ≠ [] := by
  simp [keys, load, List.filter_eq_nil_iff]

theorem keys_nodup (map : Multimap Key Value) : map.keys.Nodup := List.nodup_dedup _

end Multimap

end AppchatClient.Lib.AppendMap

namespace AppchatClient.Lib.LimitedText

structure Limited (α : Type*) (limit : Nat) where
  units : List α
  fits : units.length ≤ limit

namespace Limited

variable {α : Type*} {limit : Nat}

def room (text : Limited α limit) : Nat := limit - text.units.length

def insert (text : Limited α limit) (position : Nat) (inserted : List α) :
    Limited α limit where
  units := text.units.take position ++ inserted.take text.room ++ text.units.drop position
  fits := by
    have parts := congrArg List.length (List.take_append_drop position text.units)
    have within := text.fits
    simp only [List.length_append] at parts
    have taken := List.length_take_le text.room inserted
    simp only [List.length_append, room] at taken ⊢
    omega

def erase (text : Limited α limit) (position count : Nat) : Limited α limit where
  units := text.units.take position ++ text.units.drop (position + count)
  fits := by
    have within := text.fits
    simp only [List.length_append, List.length_take, List.length_drop]
    omega

end Limited

end AppchatClient.Lib.LimitedText

namespace AppchatClient.Lib.TornRead

variable {α β : Type*} [LinearOrder α] [LinearOrder β]

def torn (first second : α ×ₗ β) : α ×ₗ β := toLex ((ofLex first).1, (ofLex second).2)

theorem torn_le {first second : α ×ₗ β} (grown : first ≤ second) :
    torn first second ≤ second := by
  rw [Prod.Lex.le_iff]
  rcases Prod.Lex.le_iff.mp grown with less | ⟨same, -⟩
  · exact Or.inl less
  · exact Or.inr ⟨same, le_refl _⟩

theorem le_torn_iff {start first : α ×ₗ β} (earlier : start ≤ first) (second : α ×ₗ β) :
    start ≤ torn first second ↔
      (ofLex start).1 < (ofLex first).1 ∨ (ofLex start).2 ≤ (ofLex second).2 := by
  have parts : start ≤ torn first second ↔ (ofLex start).1 < (ofLex first).1 ∨
      (ofLex start).1 = (ofLex first).1 ∧ (ofLex start).2 ≤ (ofLex second).2 := Prod.Lex.le_iff
  rw [parts]
  rcases Prod.Lex.le_iff.mp earlier with less | ⟨same, -⟩
  · simp [less]
  · simp [same]

theorem append_le_append_iff {first second : List α} (size : first.length = second.length)
    (left right : List α) :
    first ++ left ≤ second ++ right ↔ first < second ∨ first = second ∧ left ≤ right := by
  induction first generalizing second with
  | nil =>
      obtain rfl := List.length_eq_zero_iff.mp size.symm
      simp
  | cons head rest ih =>
      cases second with
      | nil => cases size
      | cons other behind =>
          have tails := ih (Nat.succ.inj size)
          simp only [le_iff_lt_or_eq, List.cons_append, List.cons_lt_cons_iff,
            List.cons.injEq] at tails ⊢
          by_cases same : head = other
          · simp [same, tails]
          · simp [same]

end AppchatClient.Lib.TornRead

namespace AppchatClient.Lib.Reentry

variable {State : Type*} (again : State → Prop) [DecidablePred again]
  (change : State → Option State)

/-- `change` is `none` where it leaves the state as it is, and nothing is
called then. `settle` is `none` where the calls nest deeper than `depth`. -/
def settle : Nat → State → Option State
  | 0, _ => none
  | depth + 1, state =>
      if again state then
        match change state with
        | some next => settle depth next
        | none => some state
      else some state

variable {again change}

theorem settle_quiet {state : State} (quiet : ¬ again state) (depth : Nat) :
    settle again change (depth + 1) state = some state := by
  simp [settle, quiet]

theorem settle_again {state next : State} (more : again state) (changed : change state = some next)
    (depth : Nat) : settle again change (depth + 1) state = settle again change depth next := by
  simp [settle, more, changed]

/-- The rule for total correctness: where each change keeps the invariant and
makes the measure smaller, the calls end, not deeper than the measure. -/
theorem settle_total {invariant : State → Prop} {measure : State → Nat}
    (changes : ∀ state, invariant state → again state →
      ∃ next, change state = some next ∧ invariant next ∧ measure next < measure state)
    {state : State} (initial : invariant state) :
    ∃ last, invariant last ∧ ¬ again last ∧
      ∀ depth, measure state < depth → settle again change depth state = some last := by
  induction bound : measure state using Nat.strongRecOn generalizing state with
  | ind size ih =>
      by_cases more : again state
      · rcases changes state initial more with ⟨next, changed, kept, smaller⟩
        rcases ih (measure next) (bound ▸ smaller) kept rfl with ⟨last, final, quiet, ends⟩
        refine ⟨last, final, quiet, ?_⟩
        intro depth deep
        cases depth with
        | zero => exact absurd deep (Nat.not_lt_zero size)
        | succ depth =>
            rw [settle_again more changed]
            apply ends
            omega
      · refine ⟨state, initial, more, ?_⟩
        intro depth deep
        cases depth with
        | zero => exact absurd deep (Nat.not_lt_zero size)
        | succ depth => exact settle_quiet more depth

end AppchatClient.Lib.Reentry
