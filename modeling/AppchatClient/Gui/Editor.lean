import Mathlib.Algebra.Group.Int.Defs
import AppchatClient.Lib.Basics
import AppchatClient.Lib.Runs

/-!
# The message editor

`text_changed` deletes one code unit before the cursor when the text is too
long. The deletion is a change of the text, so it calls `text_changed` again.
Qt is taken as it is documented: the signal of a change calls the slot before
the change returns, and an insertion leaves the cursor behind what it inserted.
-/

namespace AppchatClient.Gui.Editor

open AppchatClient.Lib.LimitedText AppchatClient.Lib.Reentry AppchatClient.Lib.Runs

set_option autoImplicit false

/-- `QString`: its UTF-16 code units. -/
abbrev QString := List UInt16

/-- The document on both sides of the cursor. -/
structure CustomTextEdit where
  before : QString
  after : QString
  maxLength : Int
deriving DecidableEq, Repr

namespace CustomTextEdit

def new : CustomTextEdit where
  before := []
  after := []
  maxLength := 2 ^ 31 - 1

def setMaxLength (edit : CustomTextEdit) (length : Int) : CustomTextEdit :=
  { edit with maxLength := length }

def toPlainText (edit : CustomTextEdit) : QString := edit.before ++ edit.after

/-- `textCursor().deletePreviousChar()`. There is nothing to delete at the
beginning of the text, and the text does not change. -/
def deletePreviousChar (edit : CustomTextEdit) : Option CustomTextEdit :=
  if edit.before = [] then none else some { edit with before := edit.before.dropLast }

def TooLong (edit : CustomTextEdit) : Prop := edit.maxLength < edit.toPlainText.length

instance : DecidablePred TooLong :=
  fun edit => inferInstanceAs (Decidable (edit.maxLength < edit.toPlainText.length))

/-- `text_changed`, with the calls that nest in it. -/
def textChanged (depth : Nat) (edit : CustomTextEdit) : Option CustomTextEdit :=
  settle TooLong deletePreviousChar depth edit

end CustomTextEdit

inductive Edit where
  | insert (position : Nat) (inserted : QString)
  | erase (position count : Nat)
deriving DecidableEq, Repr

def Edit.inserted : Edit → QString
  | .insert _ inserted => inserted
  | .erase _ _ => []

/-- The text and the cursor after an edit, before any signal. -/
def edited (edit : CustomTextEdit) : Edit → CustomTextEdit
  | .insert position inserted =>
      { edit with
        before := edit.toPlainText.take position ++ inserted
        after := edit.toPlainText.drop position }
  | .erase position count =>
      { edit with
        before := edit.toPlainText.take position
        after := edit.toPlainText.drop (position + count) }

def step (depth : Nat) (edit : CustomTextEdit) (action : Edit) : Option CustomTextEdit :=
  let next := edited edit action
  if next.toPlainText = edit.toPlainText then some next else next.textChanged depth

def remaining (kept inserted after : QString) (maxLength : Int) (left : Nat) : CustomTextEdit :=
  ⟨kept ++ inserted.take left, after, maxLength⟩

variable {kept inserted after : QString} {maxLength : Int}

theorem too_long_iff (fits : ((kept ++ after).length : Int) ≤ maxLength) {left : Nat}
    (someLeft : left ≤ inserted.length) :
    (remaining kept inserted after maxLength left).TooLong ↔
      maxLength.toNat - (kept ++ after).length < left := by
  simp only [CustomTextEdit.TooLong, CustomTextEdit.toPlainText, remaining, List.length_append,
    List.length_take] at fits ⊢
  omega

theorem delete_previous_char_remaining {left : Nat} (someLeft : left + 1 ≤ inserted.length) :
    (remaining kept inserted after maxLength (left + 1)).deletePreviousChar =
      some (remaining kept inserted after maxLength left) := by
  have taken : inserted.take (left + 1) ≠ [] := by
    intro empty
    have size := congrArg List.length empty
    simp only [List.length_take, List.length_nil] at size
    omega
  have shorter : (kept ++ inserted.take (left + 1)).dropLast = kept ++ inserted.take left := by
    rw [List.dropLast_append_of_ne_nil taken, List.dropLast_eq_take, List.take_take,
      List.length_take_of_le someLeft, Nat.add_sub_cancel, min_eq_left (Nat.le_succ left)]
  simp [CustomTextEdit.deletePreviousChar, remaining, shorter, taken]

/-- The calls end, and they delete what was inserted last and nothing else. -/
theorem text_changed_truncates (fits : ((kept ++ after).length : Int) ≤ maxLength)
    (inserted : QString) {depth : Nat} (deep : inserted.length < depth) :
    (remaining kept inserted after maxLength inserted.length).textChanged depth =
      some (remaining kept inserted after maxLength
        (min inserted.length (maxLength.toNat - (kept ++ after).length))) := by
  let room := maxLength.toNat - (kept ++ after).length
  let invariant (reached : CustomTextEdit) : Prop :=
    ∃ left, min inserted.length room ≤ left ∧ left ≤ inserted.length ∧
      reached = remaining kept inserted after maxLength left
  let measure (reached : CustomTextEdit) : Nat := reached.before.length - kept.length
  have size {left : Nat} (inside : left ≤ inserted.length) :
      measure (remaining kept inserted after maxLength left) = left := by
    simp [measure, remaining, inside]
  have changes (reached : CustomTextEdit) (holds : invariant reached) (long : reached.TooLong) :
      ∃ next, reached.deletePreviousChar = some next ∧ invariant next ∧
        measure next < measure reached := by
    rcases holds with ⟨left, enough, inside, rfl⟩
    have exceeds : room < left := (too_long_iff fits inside).mp long
    cases left with
    | zero => exact absurd exceeds (Nat.not_lt_zero room)
    | succ left =>
        refine ⟨_, delete_previous_char_remaining inside, ⟨left, ?_, by omega, rfl⟩, ?_⟩
        · omega
        · rw [size inside, size (by omega)]
          exact Nat.lt_succ_self left
  have initial : invariant (remaining kept inserted after maxLength inserted.length) :=
    ⟨inserted.length, min_le_left _ _, le_refl _, rfl⟩
  rcases settle_total changes initial with ⟨last, ⟨left, enough, inside, rfl⟩, short, ends⟩
  have within : ¬ room < left := fun exceeds => short ((too_long_iff fits inside).mpr exceeds)
  have exactLeft : left = min inserted.length room := by omega
  rw [CustomTextEdit.textChanged, ends depth (by rw [size (le_refl _)]; exact deep), exactLeft]

/-- One edit of a text within the limit. When it does not change the text, no
signal is emitted, and what it inserts has room. -/
theorem step_edited {edit : CustomTextEdit} {action : Edit} {kept after : QString}
    (fits : (edit.toPlainText.length : Int) ≤ edit.maxLength)
    (around : (kept ++ after).length ≤ edit.toPlainText.length)
    (place : edited edit action =
      remaining kept action.inserted after edit.maxLength action.inserted.length)
    {depth : Nat} (deep : action.inserted.length < depth) :
    step depth edit action =
      some (remaining kept action.inserted after edit.maxLength
        (min action.inserted.length (edit.maxLength.toNat - (kept ++ after).length))) := by
  have inside : ((kept ++ after).length : Int) ≤ edit.maxLength := by omega
  simp only [step, place]
  split_ifs with same
  · have size := congrArg List.length same
    simp only [remaining, CustomTextEdit.toPlainText, List.take_length, List.length_append]
      at size fits ⊢
    have room : action.inserted.length ≤
        edit.maxLength.toNat - (kept.length + after.length) := by omega
    rw [min_eq_left room, List.take_length]
  · exact text_changed_truncates inside action.inserted deep

/-- The editor shows the text, and its limit is that of the text. -/
def Shows {limit : Nat} (edit : CustomTextEdit) (text : Limited UInt16 limit) : Prop :=
  edit.toPlainText = text.units ∧ edit.maxLength = limit

/-- The edit of a text with a limit. -/
def spec {limit : Nat} (text : Limited UInt16 limit) : Edit → Limited UInt16 limit
  | .insert position inserted => text.insert position inserted
  | .erase position count => text.erase position count

theorem shows_fits {limit : Nat} {edit : CustomTextEdit} {text : Limited UInt16 limit}
    (shows : Shows edit text) : (edit.toPlainText.length : Int) ≤ edit.maxLength := by
  rw [shows.1, shows.2]
  exact Int.ofNat_le.mpr text.fits

theorem step_shows {limit : Nat} {edit : CustomTextEdit} {text : Limited UInt16 limit}
    {action : Edit} {depth : Nat} (shows : Shows edit text)
    (deep : action.inserted.length < depth) :
    ∃ next, step depth edit action = some next ∧ Shows next (spec text action) := by
  have fits := shows_fits shows
  have limited : edit.maxLength.toNat = limit := by simp [shows.2]
  cases action with
  | insert position inserted =>
      have whole := List.take_append_drop position edit.toPlainText
      have place : edited edit (.insert position inserted) =
          remaining (edit.toPlainText.take position) inserted (edit.toPlainText.drop position)
            edit.maxLength inserted.length := by
        simp [edited, remaining]
      refine ⟨_, step_edited fits (by rw [whole]) place deep, ?_, shows.2⟩
      rw [whole, shows.1, limited, min_comm, Edit.inserted]
      simp [remaining, CustomTextEdit.toPlainText, spec, Limited.insert, Limited.room,
        ← List.take_eq_take_min]
  | erase position count =>
      have shorter : (edit.toPlainText.take position ++
          edit.toPlainText.drop (position + count)).length ≤ edit.toPlainText.length := by
        simp only [List.length_append, List.length_take, List.length_drop]
        omega
      have place : edited edit (.erase position count) =
          remaining (edit.toPlainText.take position) []
            (edit.toPlainText.drop (position + count)) edit.maxLength 0 := by
        simp [edited, remaining]
      refine ⟨_, step_edited fits shorter place deep, ?_, shows.2⟩
      rw [shows.1]
      simp [remaining, CustomTextEdit.toPlainText, spec, Limited.erase, Edit.inserted]

/-- The editor refines the text with a limit, and no run of it gets stuck. -/
theorem run_shows {limit : Nat} {edit : CustomTextEdit} {text : Limited UInt16 limit}
    {actions : List Edit} {depth : Nat} (shows : Shows edit text)
    (deep : ∀ action ∈ actions, action.inserted.length < depth) :
    ∃ last, run (step depth) edit actions = some last ∧ Shows last (actions.foldl spec text) :=
  run_refines (step depth) (fun _ _ _ shows deep => step_shows shows deep) shows deep

theorem every_state_fits {limit : Nat} {edit : CustomTextEdit} {text : Limited UInt16 limit}
    {actions : List Edit} {depth : Nat} (shows : Shows edit text)
    (deep : ∀ action ∈ actions, action.inserted.length < depth) :
    EveryState (step depth) (fun reached => reached.toPlainText.length ≤ limit) edit actions := by
  intro done reached inside ran
  rcases run_shows shows (fun action member => deep action (inside.subset member)) with
    ⟨last, same, final⟩
  obtain rfl := Option.some.inj (ran.symm.trans same)
  rw [final.1]
  exact (done.foldl spec text).fits

theorem insertion_truncated {edit : CustomTextEdit}
    (fits : (edit.toPlainText.length : Int) ≤ edit.maxLength) :
    (∀ position inserted depth, inserted.length < depth →
      (step depth edit (.insert position inserted)).map CustomTextEdit.toPlainText =
        some (edit.toPlainText.take position ++
          inserted.take
            (min inserted.length (edit.maxLength - edit.toPlainText.length).toNat) ++
          edit.toPlainText.drop position)) ∧
    ∀ actions depth, (∀ action ∈ actions, action.inserted.length < depth) →
      (run (step depth) edit actions).isSome ∧
        EveryState (step depth)
          (fun reached => (reached.toPlainText.length : Int) ≤ edit.maxLength) edit actions := by
  have positive : (edit.maxLength.toNat : Int) = edit.maxLength := by omega
  let text : Limited UInt16 edit.maxLength.toNat := ⟨edit.toPlainText, by omega⟩
  have shows : Shows edit text := ⟨rfl, positive.symm⟩
  constructor
  · intro position inserted depth deep
    have room : (edit.maxLength - edit.toPlainText.length).toNat = text.room := by
      simp only [Limited.room, text]
      omega
    have enough : (Edit.insert position inserted).inserted.length < depth := deep
    rcases step_shows shows enough with ⟨next, taken, shown⟩
    rw [taken, Option.map_some, shown.1, room, min_comm, ← List.take_eq_take_min]
    rfl
  · intro actions depth deep
    constructor
    · rcases run_shows shows deep with ⟨last, ran, -⟩
      rw [ran]
      rfl
    · intro done reached inside ran
      have within := every_state_fits shows deep done reached inside ran
      omega

def twoOfThree : CustomTextEdit := ⟨[1], [2], 3⟩

theorem insertion_truncated_sample :
    (∀ position inserted depth, inserted.length < depth →
      (step depth twoOfThree (.insert position inserted)).map CustomTextEdit.toPlainText =
        some (twoOfThree.toPlainText.take position ++
          inserted.take (min inserted.length 1) ++ twoOfThree.toPlainText.drop position)) ∧
    ∀ actions depth, (∀ action ∈ actions, action.inserted.length < depth) →
      (run (step depth) twoOfThree actions).isSome ∧
        EveryState (step depth) (fun reached => (reached.toPlainText.length : Int) ≤ 3)
          twoOfThree actions := by
  have fits : (twoOfThree.toPlainText.length : Int) ≤ twoOfThree.maxLength := by decide
  exact insertion_truncated fits

example : (step 5 twoOfThree (.insert 1 [7, 8, 9, 10])).map CustomTextEdit.toPlainText =
    some [1, 7, 2] := by
  decide

/-- The editor of `MainWindow`; `textMessage` is `Block::TextMessage`. -/
def teMessage (textMessage : Nat) : CustomTextEdit := CustomTextEdit.new.setMaxLength textMessage

theorem message_fits (textMessage : Nat) {actions : List Edit} {depth : Nat}
    (deep : ∀ action ∈ actions, action.inserted.length < depth) :
    EveryState (step depth) (fun reached => reached.toPlainText.length ≤ textMessage)
      (teMessage textMessage) actions := by
  have shows : Shows (teMessage textMessage) (⟨[], Nat.zero_le textMessage⟩ : Limited UInt16 _) :=
    ⟨rfl, rfl⟩
  exact every_state_fits shows deep

end AppchatClient.Gui.Editor
