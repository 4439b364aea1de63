import Mathlib.Data.List.Basic
import Mathlib.Data.List.Infix

/-!
# Writes on a line of bytes

A write hands a buffer to a line, which takes its bytes in portions, and it
has succeeded when the whole buffer is taken. The portions of writes that are
outstanding at the same time may mix. While one write at most is outstanding,
the line carries the buffers one after the other.
-/

namespace AppchatClient.Lib.Writes

set_option autoImplicit false

variable {Owner Byte : Type*}

/-- The outstanding writes, the oldest first, each with its owner and with what
is not taken of its buffer; and all the bytes taken so far. -/
structure ByteLine (Owner Byte : Type*) where
  rests : List (Owner × List Byte)
  taken : List Byte

namespace ByteLine

def empty (Owner Byte : Type*) : ByteLine Owner Byte where
  rests := []
  taken := []

def beginWrite (owner : Owner) (line : ByteLine Owner Byte) (buffer : List Byte) :
    ByteLine Owner Byte :=
  { line with rests := line.rests ++ [(owner, buffer)] }

def take (line : ByteLine Owner Byte) (index count : Nat) : Option (ByteLine Owner Byte) :=
  (line.rests[index]?).map fun write =>
    { rests := line.rests.set index (write.1, write.2.drop count)
      taken := line.taken ++ write.2.take count }

/-- The oldest write of an owner ends: with the whole buffer taken, or in an error. -/
def endWrite [DecidableEq Owner] (line : ByteLine Owner Byte) (owner : Owner) (error : Bool) :
    Option (ByteLine Owner Byte) :=
  match line.rests.find? fun write => write.1 = owner with
  | some (_, rest) =>
      if error = true ∨ rest.isEmpty = true then
        some { line with rests := line.rests.eraseP fun write => write.1 = owner }
      else none
  | none => none

/-- The memory under the rest of a write gets another content. -/
def overwrite (line : ByteLine Owner Byte) (index : Nat) (content : List Byte) :
    Option (ByteLine Owner Byte) :=
  (line.rests[index]?).bind fun write =>
    if content.length = write.2.length then
      some { line with rests := line.rests.set index (write.1, content) }
    else none

/-- What is taken, and behind it what the outstanding writes still hold. -/
def carried (line : ByteLine Owner Byte) : List Byte :=
  line.taken ++ (line.rests.map Prod.snd).flatten

theorem taken_carried (line : ByteLine Owner Byte) : line.taken <+: line.carried :=
  List.prefix_append _ _

theorem begin_carried (owner : Owner) (line : ByteLine Owner Byte) (buffer : List Byte) :
    (line.beginWrite owner buffer).carried = line.carried ++ buffer := by
  simp [carried, beginWrite]

theorem begin_all (owner : Owner) (buffers : List (List Byte)) (line : ByteLine Owner Byte) :
    (buffers.foldl (beginWrite owner) line).rests =
        line.rests ++ buffers.map (fun buffer => (owner, buffer)) ∧
      (buffers.foldl (beginWrite owner) line).taken = line.taken ∧
      (buffers.foldl (beginWrite owner) line).carried = line.carried ++ buffers.flatten := by
  induction buffers generalizing line with
  | nil => simp
  | cons buffer others ih =>
      have later := ih (line.beginWrite owner buffer)
      rw [begin_carried] at later
      rw [List.foldl_cons]
      refine ⟨?_, later.2.1, ?_⟩
      · rw [later.1]
        simp [beginWrite]
      · rw [later.2.2]
        simp

variable {line after : ByteLine Owner Byte}

theorem one_write {owner : Owner} (owned : line.rests.map Prod.fst = [owner]) :
    ∃ rest, line.rests = [(owner, rest)] := by
  cases writes : line.rests with
  | nil => simp [writes] at owned
  | cons write others =>
      simp only [writes, List.map_cons, List.cons.injEq, List.map_eq_nil_iff] at owned
      refine ⟨write.2, ?_⟩
      rw [owned.2, ← owned.1]

theorem take_alone {index count : Nat} (alone : line.rests.length ≤ 1)
    (took : line.take index count = some after) :
    after.carried = line.carried ∧ line.taken <+: after.taken ∧
      after.rests.map Prod.fst = line.rests.map Prod.fst := by
  rcases Option.map_eq_some_iff.mp took with ⟨write, found, rfl⟩
  have inside : index < line.rests.length := (List.getElem?_eq_some_iff.mp found).1
  have first : index = 0 := by omega
  subst first
  cases writes : line.rests with
  | nil => simp [writes] at inside
  | cons oldest others =>
      have none : others = [] := by
        apply List.eq_nil_of_length_eq_zero
        rw [writes, List.length_cons] at alone
        omega
      subst none
      obtain rfl : oldest = write := by simpa [writes] using found
      refine ⟨?_, List.prefix_append _ _, ?_⟩
      · simp [carried, writes]
      · simp

theorem take_nothing {index count : Nat} (took : line.take index count = some after)
    (nothing : after.taken = line.taken) : after = line := by
  rcases Option.map_eq_some_iff.mp took with ⟨write, found, rfl⟩
  rcases List.getElem?_eq_some_iff.mp found with ⟨inside, rfl⟩
  have none : (line.rests[index]).2.take count = [] := List.append_right_eq_self.mp nothing
  have whole : (line.rests[index]).2.drop count = (line.rests[index]).2 := by
    have parts := List.take_append_drop count (line.rests[index]).2
    rw [none] at parts
    exact parts
  rw [whole, none, List.append_nil]
  exact congrArg (fun rests => ByteLine.mk rests line.taken)
    (List.set_getElem_self inside)

theorem overwrite_alone {owner : Owner} {index : Nat} {rest content : List Byte}
    (alone : line.rests = [(owner, rest)]) (changed : line.overwrite index content = some after) :
    after.rests = [(owner, content)] ∧ after.taken = line.taken ∧
      content.length = rest.length := by
  rcases Option.bind_eq_some_iff.mp changed with ⟨write, found, written⟩
  rcases List.getElem?_eq_some_iff.mp found with ⟨inside, rfl⟩
  have first : index = 0 := by
    rw [alone, List.length_singleton] at inside
    omega
  subst first
  simp only [alone, List.getElem_cons_zero] at written
  split_ifs at written with same
  obtain rfl := Option.some.inj written
  exact ⟨rfl, rfl, same⟩

theorem end_alone [DecidableEq Owner] {owner : Owner} {error : Bool} {rest : List Byte}
    (alone : line.rests = [(owner, rest)]) (ended : line.endWrite owner error = some after) :
    after.rests = [] ∧ after.taken = line.taken ∧
      (error = false → rest = [] ∧ after.taken = line.carried) := by
  unfold endWrite at ended
  simp only [alone, List.find?_cons, decide_true] at ended
  split_ifs at ended with complete
  obtain rfl := Option.some.inj ended
  refine ⟨by simp, rfl, fun succeeded => ?_⟩
  rcases complete with failed | whole
  · rw [succeeded] at failed
    cases failed
  · have none := List.isEmpty_iff.mp whole
    exact ⟨none, by simp [carried, alone, none]⟩

end ByteLine

end AppchatClient.Lib.Writes
