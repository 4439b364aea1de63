import Mathlib.Algebra.Group.Int.Defs
import Mathlib.Algebra.Group.Nat.Defs
import Mathlib.Data.Nat.Basic
import Mathlib.Data.Int.Basic
import Mathlib.Data.List.Induction
import Mathlib.Data.List.TakeWhile

/-!
# Decimal fields of a minimum width

Integers printed with a minimum width and a fill of zeros, and the reading of
the longest decimal at the beginning of a text, as C++ streams and `std::stoi`
do them.
-/

namespace AppchatClient.Lib.Decimal

set_option autoImplicit false

def decimal : Int → List Char
  | .ofNat n => Nat.toDigits 10 n
  | .negSucc n => '-' :: Nat.toDigits 10 (n + 1)

/-- `setw(width) << setfill('0')`: the fill goes before everything, a sign included. -/
def padded (width : Nat) (value : Int) : List Char :=
  List.replicate (width - (decimal value).length) '0' ++ decimal value

def isSpace (c : Char) : Bool := c == ' ' || (9 ≤ c.toNat && c.toNat ≤ 13)

def leadingNat (text : List Char) : Option Nat :=
  if text.takeWhile Char.isDigit = [] then none
  else some (Nat.ofDigitChars 10 (text.takeWhile Char.isDigit) 0)

def leadingInt : List Char → Option Int
  | '-' :: rest => (leadingNat rest).map fun n => -(n : Int)
  | '+' :: rest => (leadingNat rest).map fun n => (n : Int)
  | text => (leadingNat text).map fun n => (n : Int)

/-- `std::stoi`: `none` where it throws, with no digits or out of the range of `int`. -/
def stoi (text : List Char) : Option Int :=
  (leadingInt (text.dropWhile isSpace)).filter fun n => -(2 ^ 31) ≤ n && n < 2 ^ 31

/-- `std::string::substr`: `none` where it throws, past the end. -/
def substr (text : List Char) (position count : Nat) : Option (List Char) :=
  if position ≤ text.length then some ((text.drop position).take count) else none

theorem decimal_nat_digits (n : Nat) : ∀ c ∈ decimal n, c.isDigit = true := by
  intro c member
  exact Nat.isDigit_of_mem_toDigits (by decide) (by decide) member

theorem padded_nat_digits (width n : Nat) : ∀ c ∈ padded width n, c.isDigit = true := by
  intro c member
  rcases List.mem_append.mp member with fill | digit
  · rw [List.eq_of_mem_replicate fill]
    decide
  · exact decimal_nat_digits n c digit

theorem padded_nat_length {width n : Nat} (positive : 0 < width) (fits : n < 10 ^ width) :
    (padded width n).length = width := by
  have short : (decimal n).length ≤ width :=
    (Nat.length_toDigits_le_iff (by decide) positive).mpr fits
  simp only [padded, List.length_append, List.length_replicate]
  omega

theorem padded_nat_value (width n : Nat) : Nat.ofDigitChars 10 (padded width n) 0 = n := by
  rw [padded, Nat.ofDigitChars_append, Nat.ofDigitChars_replicate_zero, Nat.mul_zero]
  exact Nat.ofDigitChars_ten_toDigits

theorem digit_range {c : Char} (digit : c.isDigit = true) : 48 ≤ c.toNat ∧ c.toNat ≤ 57 := by
  simp only [Char.isDigit, ge_iff_le, UInt32.le_iff_toNat_le, Bool.and_eq_true,
    decide_eq_true_eq] at digit
  exact digit

theorem digit_ne {c other : Char} (digit : c.isDigit = true)
    (outside : other.toNat < 48 ∨ 57 < other.toNat) : c ≠ other := by
  intro same
  have range := digit_range digit
  rw [same] at range
  omega

theorem drop_while_space_of_digit {first : Char} (digit : first.isDigit = true)
    (rest : List Char) : (first :: rest).dropWhile isSpace = first :: rest := by
  have range := digit_range digit
  have notSpace : isSpace first = false := by
    simp [isSpace, digit_ne digit (Or.inl (by decide : ' '.toNat < 48))]
    omega
  exact List.dropWhile_cons_of_neg (by simp [notSpace])

theorem stoi_digit_first {first : Char} {rest : List Char} (digit : first.isDigit = true)
    (small : Nat.ofDigitChars 10 ((first :: rest).takeWhile Char.isDigit) 0 < 2 ^ 31) :
    stoi (first :: rest) =
      some (Nat.ofDigitChars 10 ((first :: rest).takeWhile Char.isDigit) 0 : Int) := by
  have someDigit : (first :: rest).takeWhile Char.isDigit ≠ [] := by
    simp [List.takeWhile_cons_of_pos, digit]
  have read : leadingInt (first :: rest) =
      some (Nat.ofDigitChars 10 ((first :: rest).takeWhile Char.isDigit) 0 : Int) := by
    unfold leadingInt
    split
    · rename_i same
      exact absurd (List.cons.inj same).1 (digit_ne digit (Or.inl (by decide)))
    · rename_i same
      exact absurd (List.cons.inj same).1 (digit_ne digit (Or.inl (by decide)))
    · rw [leadingNat, if_neg someDigit]
      rfl
  rw [stoi, drop_while_space_of_digit digit, read]
  simp only [Option.filter_some, Bool.and_eq_true, decide_eq_true_eq, ite_eq_left_iff,
    reduceCtorEq, imp_false, not_not]
  omega

theorem stoi_minus_first {first : Char} {rest : List Char} (digit : first.isDigit = true)
    (small : Nat.ofDigitChars 10 ((first :: rest).takeWhile Char.isDigit) 0 < 2 ^ 31) :
    stoi ('-' :: first :: rest) =
      some (-(Nat.ofDigitChars 10 ((first :: rest).takeWhile Char.isDigit) 0 : Int)) := by
  have someDigit : (first :: rest).takeWhile Char.isDigit ≠ [] := by
    simp [List.takeWhile_cons_of_pos, digit]
  have sign : ('-' :: first :: rest).dropWhile isSpace = '-' :: first :: rest :=
    List.dropWhile_cons_of_neg (by decide)
  have read : leadingInt ('-' :: first :: rest) =
      some (-(Nat.ofDigitChars 10 ((first :: rest).takeWhile Char.isDigit) 0 : Int)) := by
    rw [leadingInt, leadingNat, if_neg someDigit]
    rfl
  rw [stoi, sign, read]
  simp only [Option.filter_some, Bool.and_eq_true, decide_eq_true_eq, ite_eq_left_iff,
    reduceCtorEq, imp_false, not_not]
  omega

theorem stoi_digits {text : List Char} (digits : ∀ c ∈ text, c.isDigit = true)
    (someDigit : text ≠ []) (small : Nat.ofDigitChars 10 text 0 < 2 ^ 31) :
    stoi text = some (Nat.ofDigitChars 10 text 0 : Int) := by
  have whole : text.takeWhile Char.isDigit = text := List.takeWhile_eq_self_iff.mpr digits
  cases text with
  | nil => exact absurd rfl someDigit
  | cons first rest =>
      have read := stoi_digit_first (digits first (by simp)) (whole.symm ▸ small)
      rwa [whole] at read

theorem stoi_padded {width n : Nat} (positive : 0 < width) (narrow : width ≤ 9)
    (fits : n < 10 ^ width) : stoi (padded width n) = some (n : Int) := by
  have someDigit : padded width n ≠ [] := by
    intro empty
    have length := padded_nat_length positive fits
    rw [empty] at length
    exact absurd length (Nat.ne_of_lt positive)
  have small : n < 2 ^ 31 := by
    have bound : (10 : Nat) ^ width ≤ 10 ^ 9 := Nat.pow_le_pow_right (by decide) narrow
    omega
  have read := stoi_digits (padded_nat_digits width n) someDigit
    (by rw [padded_nat_value]; exact small)
  rwa [padded_nat_value] at read

theorem of_digit_chars_lt {digits : List Char} (all : ∀ c ∈ digits, c.isDigit = true) :
    Nat.ofDigitChars 10 digits 0 < 10 ^ digits.length := by
  induction digits using List.reverseRecOn with
  | nil => decide
  | append_singleton rest c ih =>
      rw [List.forall_mem_append, List.forall_mem_singleton] at all
      have range := digit_range all.2
      have zero : '0'.toNat = 48 := rfl
      have bound := ih all.1
      rw [Nat.ofDigitChars_append, Nat.ofDigitChars_cons, Nat.ofDigitChars_nil, zero,
        List.length_append, List.length_singleton, Nat.pow_succ]
      omega

theorem take_while_digits_small {text : List Char} (short : text.length ≤ 9) :
    Nat.ofDigitChars 10 (text.takeWhile Char.isDigit) 0 < 2 ^ 31 := by
  have digits : ∀ c ∈ text.takeWhile Char.isDigit, c.isDigit = true :=
    fun c member => List.mem_takeWhile_imp member
  have bound := of_digit_chars_lt digits
  have length := (List.takeWhile_prefix Char.isDigit (l := text)).length_le
  have power : 10 ^ (text.takeWhile Char.isDigit).length ≤ 10 ^ 9 :=
    Nat.pow_le_pow_right (by decide) (length.trans short)
  omega

/-- The values that fill the width from its first character on: a sign takes
the place of a digit, and no zero may stand before it. -/
def Fits (width : Nat) (value : Int) : Prop :=
  (0 ≤ value ∧ value < 10 ^ width) ∨
    (-(10 ^ (width - 1)) < value ∧ value ≤ -(10 ^ (width - 2)))

theorem digits_length_le_iff {n : Nat} (positive : 0 < n) (width : Nat) :
    (Nat.toDigits 10 n).length ≤ width ↔ n < 10 ^ width := by
  cases width with
  | zero =>
      have someDigit : 0 < (Nat.toDigits 10 n).length := Nat.length_toDigits_pos
      rw [Nat.pow_zero]
      omega
  | succ width => exact Nat.length_toDigits_le_iff (by decide) (Nat.succ_pos width)

theorem to_digits_cons (n : Nat) : ∃ first rest, Nat.toDigits 10 n = first :: rest ∧
    first.isDigit = true := by
  cases digits : Nat.toDigits 10 n with
  | nil =>
      have someDigit : 0 < (Nat.toDigits 10 n).length := Nat.length_toDigits_pos
      rw [digits] at someDigit
      exact absurd someDigit (by decide)
  | cons first rest =>
      refine ⟨first, rest, rfl, ?_⟩
      apply decimal_nat_digits n first
      simp [decimal, digits]

theorem width_le_padded (width : Nat) (value : Int) : width ≤ (padded width value).length := by
  simp only [padded, List.length_append, List.length_replicate]
  omega

/-- A natural number is read from its own field if it fits, and else its first
digits are read. -/
theorem stoi_take_nat_iff {width : Nat} (positive : 0 < width) (narrow : width ≤ 9) (n : Nat) :
    stoi ((padded width n).take width) = some (n : Int) ↔ n < 10 ^ width := by
  constructor
  · intro read
    have digits : ∀ c ∈ (padded width n).take width, c.isDigit = true :=
      fun c member => padded_nat_digits width n c (List.mem_of_mem_take member)
    have size : ((padded width n).take width).length = width := by
      simp [width_le_padded width n]
    have bound := of_digit_chars_lt digits
    rw [size] at bound
    have power : 10 ^ width ≤ 10 ^ 9 := Nat.pow_le_pow_right (by decide) narrow
    have someDigit : (padded width n).take width ≠ [] := by
      intro empty
      rw [empty] at size
      exact absurd size (Nat.ne_of_lt positive)
    rw [stoi_digits digits someDigit (by omega), Option.some.injEq, Int.natCast_inj] at read
    omega
  · intro fits
    have size := padded_nat_length positive fits
    rw [List.take_of_length_le (Nat.le_of_eq size)]
    exact stoi_padded positive narrow fits

theorem stoi_filled_negative {fill : Nat} {rest : List Char} :
    stoi (List.replicate (fill + 1) '0' ++ '-' :: rest) = some 0 := by
  have digits : (List.replicate (fill + 1) '0' ++ '-' :: rest).takeWhile Char.isDigit =
      List.replicate (fill + 1) '0' := by
    rw [List.takeWhile_append_of_pos]
    · rw [List.takeWhile_cons_of_neg (by decide), List.append_nil]
    · intro c member
      rw [List.eq_of_mem_replicate member]
      decide
  have zero : Nat.ofDigitChars 10 (List.replicate (fill + 1) '0') 0 = 0 := by
    rw [Nat.ofDigitChars_replicate_zero, Nat.mul_zero]
  rw [List.replicate_succ, List.cons_append] at digits ⊢
  rw [stoi_digit_first (by decide) (by rw [digits, ← List.replicate_succ, zero]; decide), digits,
    ← List.replicate_succ, zero]
  rfl

theorem stoi_take_negative_iff {width : Nat} (two : 2 ≤ width) (narrow : width ≤ 9) (n : Nat) :
    stoi ((padded width (Int.negSucc n)).take width) = some (Int.negSucc n) ↔
      10 ^ (width - 2) ≤ n + 1 ∧ n + 1 < 10 ^ (width - 1) := by
  have positive : 0 < n + 1 := Nat.succ_pos n
  have below := digits_length_le_iff positive (width - 2)
  have upto := digits_length_le_iff positive (width - 1)
  rcases to_digits_cons (n + 1) with ⟨first, rest, digits, digit⟩
  have form : decimal (Int.negSucc n) = '-' :: first :: rest := by rw [decimal, digits]
  rw [digits, List.length_cons] at below upto
  by_cases filled : rest.length + 1 ≤ width - 2
  · -- There is a zero before the sign.
    have fill : width - (decimal (Int.negSucc n)).length = width - (rest.length + 2) - 1 + 1 := by
      rw [form]
      simp only [List.length_cons]
      omega
    have size : (padded width (Int.negSucc n)).length = width := by
      simp only [padded, form, List.length_append, List.length_replicate, List.length_cons]
      omega
    rw [List.take_of_length_le (Nat.le_of_eq size), padded, fill, form, stoi_filled_negative]
    simp only [Option.some.injEq]
    constructor
    · intro same
      cases same
    · rintro ⟨large, -⟩
      have small := below.mp filled
      omega
  · -- The sign comes first, and behind it all digits or the first ones.
    have unfilled : padded width (Int.negSucc n) = '-' :: first :: rest := by
      rw [padded, form, List.length_cons, List.length_cons]
      have noneMissing : width - (rest.length + 1 + 1) = 0 := by omega
      rw [noneMissing]
      rfl
    have cut : (padded width (Int.negSucc n)).take width =
        '-' :: first :: rest.take (width - 2) := by
      obtain ⟨more, rfl⟩ := Nat.exists_eq_add_of_le two
      rw [unfilled, Nat.add_comm 2 more]
      simp
    have all : ∀ c ∈ first :: rest.take (width - 2), c.isDigit = true := by
      intro c member
      have inside : c ∈ Nat.toDigits 10 (n + 1) := by
        rw [digits]
        rcases List.mem_cons.mp member with rfl | later
        · exact List.mem_cons_self ..
        · exact List.mem_cons_of_mem _ (List.mem_of_mem_take later)
      exact decimal_nat_digits (n + 1) c inside
    have whole : (first :: rest.take (width - 2)).takeWhile Char.isDigit =
        first :: rest.take (width - 2) :=
      List.takeWhile_eq_self_iff.mpr all
    have short : (first :: rest.take (width - 2)).length ≤ 9 := by
      simp only [List.length_cons, List.length_take]
      omega
    have small := take_while_digits_small short
    rw [cut, stoi_minus_first digit small, whole]
    simp only [Option.some.injEq]
    have large : 10 ^ (width - 2) ≤ n + 1 := by
      by_contra less
      exact filled (below.mpr (by omega))
    by_cases exact : rest.length + 1 ≤ width - 1
    · have kept : rest.take (width - 2) = rest := List.take_of_length_le (by omega)
      have value : Nat.ofDigitChars 10 (first :: rest) 0 = n + 1 := by
        rw [← digits]
        exact Nat.ofDigitChars_ten_toDigits
      rw [kept, value]
      exact iff_of_true rfl ⟨large, upto.mp exact⟩
    · have bound := of_digit_chars_lt all
      have size : (first :: rest.take (width - 2)).length = width - 1 := by
        simp only [List.length_cons, List.length_take]
        omega
      rw [size] at bound
      have tooLarge : 10 ^ (width - 1) ≤ n + 1 := by
        by_contra less
        exact exact (upto.mpr (by omega))
      apply iff_of_false
      · intro same
        omega
      · rintro ⟨-, fits⟩
        omega

theorem stoi_take_padded_iff {width : Nat} (two : 2 ≤ width) (narrow : width ≤ 9) (value : Int) :
    stoi ((padded width value).take width) = some value ↔ Fits width value := by
  have one : (0 : Int) < 10 ^ (width - 2) := Int.pow_pos (by decide)
  cases value with
  | ofNat n =>
      rw [Int.ofNat_eq_natCast, stoi_take_nat_iff (by omega) narrow n, Fits]
      have cast : (n : Int) < 10 ^ width ↔ n < 10 ^ width := by exact_mod_cast Iff.rfl
      rw [cast]
      omega
  | negSucc n =>
      rw [stoi_take_negative_iff two narrow n, Fits, Int.negSucc_eq]
      have lower : 10 ^ (width - 2) ≤ n + 1 ↔ (10 : Int) ^ (width - 2) ≤ (n : Int) + 1 := by
        exact_mod_cast Iff.rfl
      have upper : n + 1 < 10 ^ (width - 1) ↔ (n : Int) + 1 < (10 : Int) ^ (width - 1) := by
        exact_mod_cast Iff.rfl
      rw [lower, upper]
      omega

theorem padded_length_of_fits {width : Nat} {value : Int} (two : 2 ≤ width)
    (fits : Fits width value) : (padded width value).length = width := by
  cases value with
  | ofNat n =>
      apply padded_nat_length (by omega)
      have one : (0 : Int) < 10 ^ (width - 2) := Int.pow_pos (by decide)
      rcases fits with ⟨-, upper⟩ | ⟨-, negative⟩
      · rw [Int.ofNat_eq_natCast] at upper
        exact_mod_cast upper
      · rw [Int.ofNat_eq_natCast] at negative
        omega
  | negSucc n =>
      have range : 10 ^ (width - 2) ≤ n + 1 ∧ n + 1 < 10 ^ (width - 1) := by
        rcases fits with ⟨negative, -⟩ | ⟨lower, upper⟩
        · exact absurd negative (by simp)
        · rw [Int.negSucc_eq] at lower upper
          constructor
          · have large : (10 : Int) ^ (width - 2) ≤ (n : Int) + 1 := by omega
            exact_mod_cast large
          · have small : (n : Int) + 1 < (10 : Int) ^ (width - 1) := by omega
            exact_mod_cast small
      have upto : (Nat.toDigits 10 (n + 1)).length ≤ width - 1 :=
        (digits_length_le_iff (Nat.succ_pos n) (width - 1)).mpr range.2
      have above : ¬ (Nat.toDigits 10 (n + 1)).length ≤ width - 2 := by
        rw [digits_length_le_iff (Nat.succ_pos n)]
        omega
      simp only [padded, decimal, List.length_append, List.length_replicate, List.length_cons]
      omega

theorem substr_padded {first last : List Char} {position width : Nat} (value : Int)
    (before : first.length = position) :
    substr (first ++ (padded width value ++ last)) position width =
      some ((padded width value).take width) := by
  subst before
  simp [substr, List.take_append_of_le_length (width_le_padded width value)]

/-- Digits, and signs that have a digit right behind them. -/
inductive Numerals : List Char → Prop where
  | nil : Numerals []
  | digit {c : Char} {rest : List Char} : c.isDigit = true → Numerals rest → Numerals (c :: rest)
  | minus {c : Char} {rest : List Char} : c.isDigit = true → Numerals rest →
      Numerals ('-' :: c :: rest)

theorem numerals_digits {text : List Char} (digits : ∀ c ∈ text, c.isDigit = true) :
    Numerals text := by
  induction text with
  | nil => exact Numerals.nil
  | cons c rest ih =>
      rw [List.forall_mem_cons] at digits
      exact Numerals.digit digits.1 (ih digits.2)

theorem numerals_append {first second : List Char} (before : Numerals first)
    (after : Numerals second) : Numerals (first ++ second) := by
  induction before with
  | nil => exact after
  | digit digit _ ih => exact Numerals.digit digit ih
  | minus digit _ ih => exact Numerals.minus digit ih

theorem numerals_drop {text : List Char} (numerals : Numerals text) (count : Nat) :
    Numerals (text.drop count) := by
  induction numerals generalizing count with
  | nil =>
      rw [List.drop_nil]
      exact Numerals.nil
  | digit digit rest ih =>
      cases count with
      | zero => exact Numerals.digit digit rest
      | succ count => exact ih count
  | minus digit rest ih =>
      cases count with
      | zero => exact Numerals.minus digit rest
      | succ count =>
          cases count with
          | zero => exact Numerals.digit digit rest
          | succ count => exact ih count

theorem padded_numerals (width : Nat) (value : Int) : Numerals (padded width value) := by
  cases value with
  | ofNat n => exact numerals_digits (padded_nat_digits width n)
  | negSucc n =>
      apply numerals_append
      · apply numerals_digits
        intro c member
        rw [List.eq_of_mem_replicate member]
        decide
      · rcases to_digits_cons (n + 1) with ⟨first, rest, digits, digit⟩
        rw [decimal, digits]
        apply Numerals.minus digit
        apply numerals_digits
        intro c member
        have inside : c ∈ Nat.toDigits 10 (n + 1) := by
          rw [digits]
          exact List.mem_cons_of_mem first member
        exact decimal_nat_digits (n + 1) c inside

theorem stoi_substr_total {text : List Char} (numerals : Numerals text) {position count : Nat}
    (two : 2 ≤ count) (narrow : count ≤ 9) (inside : position + count ≤ text.length) :
    ∃ value, (substr text position count).bind stoi = some value := by
  have size : ((text.drop position).take count).length = count := by
    simp only [List.length_take, List.length_drop]
    omega
  rw [substr, if_pos (by omega), Option.bind_some]
  have rest := numerals_drop numerals position
  have small := take_while_digits_small (size.trans_le narrow)
  obtain ⟨more, rfl⟩ := Nat.exists_eq_add_of_le' two
  cases cut : text.drop position with
  | nil =>
      rw [cut] at size
      simp at size
  | cons first later =>
      rw [cut] at rest small
      rw [List.take_succ_cons] at small ⊢
      cases rest with
      | digit digit _ => exact ⟨_, stoi_digit_first digit small⟩
      | @minus first later digit _ =>
          rw [List.take_succ_cons]
          have length : (first :: later.take more).length ≤ 9 := by
            simp only [List.length_cons, List.length_take]
            omega
          exact ⟨_, stoi_minus_first digit (take_while_digits_small length)⟩

end AppchatClient.Lib.Decimal
