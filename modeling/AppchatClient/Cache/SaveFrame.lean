import AppchatClient.Cache.Statements

/-!
# What `save` does to the table

`sqlite3_exec` stops at the first error but does not undo the statements before
it. So `save` appends one row or leaves the table alone when its text is one
insertion of one tuple, or begins with an insertion that is refused. Behind a
first insertion a second one, or a statement that is refused, breaks this on
every database; about other statements there the documented behaviour of
insertions says too little.
-/

namespace AppchatClient.Cache.SaveFrame

open AppchatClient.Protocol AppchatClient.Lib.SqlText
open AppchatClient.Cache.SqliteCache AppchatClient.Cache.Statements

set_option autoImplicit false

/-- No row of the table is changed or removed, at most one is added, and a
failed call leaves the table as it was. -/
def PureAppend (rows : List Row) (outcome : List Row × Bool) : Prop :=
  (∃ added, outcome.1 = rows ++ added ∧ added.length ≤ 1) ∧
    (outcome.2 = false → outcome.1 = rows)

/-- The text of the statement is one insertion of one tuple, whatever expressions
the strings have made of its values, or is refused at its first statement. -/
def ReadsAsOneInsert (key : StdString) (value : MsgText) : Prop :=
  match statements (cStr (insertQuery key value)) with
  | [] => False
  | first :: rest => refused first = true ∨ (oneTuple first = true ∧ rest = [])

instance (key : StdString) (value : MsgText) : Decidable (ReadsAsOneInsert key value) := by
  unfold ReadsAsOneInsert
  split <;> infer_instance

theorem one_insert_of_plain {key : StdString} {value : MsgText} (author : Plain value.author)
    (name : Plain key) (text : Plain value.text) : ReadsAsOneInsert key value := by
  unfold ReadsAsOneInsert
  rw [statements_insert_query author name text]
  exact Or.inr ⟨one_tuple_of_insertion (strip_insert_statement _), rfl⟩

/-- An expression in the place of a string is stored or refused as a whole. -/
example : ReadsAsOneInsert "r".toList
    { author := "bob".toList, text := "a' || 'b".toList, channelName := "r".toList,
      dt := ⟨⟨2024, 1, 2⟩, ⟨3, 4, 5⟩⟩ } := by decide

theorem save_in_turn {db : Sqlite} (documented : db.Documented) (executed : InTurn db)
    {key : StdString} {value : MsgText} {first rest : StdString} {statement : List Token}
    {literals : Literals} (split : cStr (insertQuery key value) = first ++ rest)
    (read : scan .start first = (statement ++ [.semicolon], .start))
    (whole : .semicolon ∉ statement) (insertion : strip statement = insertTokens literals)
    (noTab : rest.head? ≠ some verticalTab) (rows : List Row) :
    cStr rest = rest ∧ save db rows key value = db.exec (rows ++ [literals.row]) rest := by
  have absent : nul ∉ first ++ rest := split ▸ nul_not_in_c_str _
  rw [List.mem_append, not_or] at absent
  have alone : statements first = [statement] := by
    have ends := @statements_append first [] statement read whole (not_blank_of_insertion insertion)
    rw [List.append_nil] at ends
    exact ends
  have inserted : db.exec rows first = (rows ++ [literals.row], true) := by
    have added := documented.insertRow first statement literals rows
    rw [c_str_of_no_nul absent.1] at added
    exact added alone insertion
  refine ⟨c_str_of_no_nul absent.2, ?_⟩
  rw [save, executed.inTurn _ first rest statement rows split read whole
    (value_tokens_of_insertion insertion).1 noTab, inserted, if_pos rfl]

/-- Two insertions in the text add two rows. -/
theorem two_insertions_not_pure {db : Sqlite} (documented : db.Documented) (executed : InTurn db)
    {key : StdString} {value : MsgText} {first rest : StdString} {statement second : List Token}
    {literals others : Literals} (split : cStr (insertQuery key value) = first ++ rest)
    (read : scan .start first = (statement ++ [.semicolon], .start))
    (whole : .semicolon ∉ statement) (insertion : strip statement = insertTokens literals)
    (behind : statements rest = [second]) (again : strip second = insertTokens others)
    (noTab : rest.head? ≠ some verticalTab) (rows : List Row) :
    ¬ PureAppend rows (save db rows key value) := by
  rcases save_in_turn documented executed split read whole insertion noTab rows with ⟨same, saved⟩
  have added := documented.insertRow rest second others (rows ++ [literals.row])
  rw [same] at added
  rw [saved, added behind again]
  rintro ⟨⟨few, reached, atMostOne⟩, -⟩
  have lengths := congrArg List.length reached
  simp only [List.length_append, List.length_singleton] at lengths
  omega

end AppchatClient.Cache.SaveFrame
