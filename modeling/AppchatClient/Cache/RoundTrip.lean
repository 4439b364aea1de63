import AppchatClient.Cache.Refinement

/-!
# The domain of the cache

Which messages `save` files as they are, and which `load` gives back. The
strings are pasted into the statement; one that holds an apostrophe or a NUL is
never read back from there as itself, whatever else it holds.
-/

namespace AppchatClient.Cache.RoundTrip

open AppchatClient.Protocol AppchatClient.Lib.SqlText
open AppchatClient.Cache.SqliteCache AppchatClient.Cache.Statements
open AppchatClient.Cache.Refinement AppchatClient.Cache.DateTimeDomain

set_option autoImplicit false

theorem strict_execute {rows next : List Row} {statement : List Token}
    (done : execute none (fun _ => none) rows statement = some next) :
    ∃ literals : Literals, next = rows ++ [literals.row] ∧
      strip statement = insertTokens literals := by
  cases broken : refused statement with
  | true => simp [execute, broken] at done
  | false =>
      cases insertion : readInsert (strip statement) with
      | none => simp [execute, broken, insertion] at done
      | some literals =>
          simp only [execute, broken, insertion, Bool.false_eq_true, if_false] at done
          exact ⟨literals, (Option.some.inj done).symm, read_insert_eq_some.mp insertion⟩

theorem strict_exec_all {rows reached : List Row} {given : List (List Token)}
    (done : execAll (execute none fun _ => none) rows given = (reached, true)) :
    ∃ added : List Literals, reached = rows ++ added.map Literals.row ∧
      given.flatMap strip = added.flatMap insertTokens := by
  induction given generalizing rows with
  | nil =>
      refine ⟨[], ?_, rfl⟩
      rw [List.map_nil, List.append_nil]
      exact (congrArg Prod.fst done).symm
  | cons statement rest ih =>
      cases here : execute none (fun _ => none) rows statement with
      | none =>
          rw [exec_all_failed here] at done
          exact absurd (congrArg Prod.snd done) (by simp)
      | some next =>
          rw [exec_all_done here] at done
          rcases ih done with ⟨later, grown, read⟩
          rcases strict_execute here with ⟨literals, rfl, insertion⟩
          refine ⟨literals :: later, ?_, ?_⟩
          · rw [grown, List.append_assoc]
            rfl
          · rw [List.flatMap_cons, List.flatMap_cons, read, insertion]

/-- A part of the statement's text: the beginning of `whole`, up to a NUL at most. -/
structure Part (given whole : StdString) : Prop where
  begins : given <+: whole
  noNul : nul ∉ given

theorem c_str_part (text : StdString) : Part (cStr text) text where
  begins := List.takeWhile_prefix _
  noNul := nul_not_in_c_str text

theorem plain_of_read {d : Char} (other : d ≠ quote) {text rest given : StdString}
    (part : Part given (text ++ quote :: d :: rest)) {tokens : List Token}
    (read : significant (lexFrom (.literal []) given) = .literal text :: tokens) :
    Plain text ∧ ∃ behind, Part behind (d :: rest) ∧
      significant (lexFrom .start behind) = tokens := by
  rcases pasted_literal other part.begins read with ⟨plain, behind, split, begins, lexed⟩
  have absent := part.noNul
  rw [split] at absent
  simp only [List.mem_append, List.mem_cons, not_or] at absent
  exact ⟨⟨plain, absent.1⟩, behind, ⟨begins, absent.2.2⟩, lexed⟩

theorem lex_from_separator (given : StdString) :
    lexFrom .start (',' :: ' ' :: quote :: given) =
      .symbol ',' :: .space :: lexFrom (.literal []) given :=
  rfl

theorem read_behind_separator {rest behind : StdString}
    (part : Part behind (',' :: ' ' :: quote :: rest)) {text : StdString} {tokens : List Token}
    (read : significant (lexFrom .start behind) = .symbol ',' :: .literal text :: tokens) :
    ∃ given, Part given rest ∧
      significant (lexFrom (.literal []) given) = .literal text :: tokens := by
  rcases part with ⟨begins, absent⟩
  have nothing : significant (lexFrom .start []) = [] := by decide
  have comma : significant (lexFrom .start [',']) = [.symbol ','] := by decide
  have space : significant (lexFrom .start [',', ' ']) = [.symbol ','] := by decide
  rcases List.prefix_cons_iff.mp begins with rfl | ⟨first, rfl, secondBegins⟩
  · exact absurd (nothing.symm.trans read) (by simp)
  rcases List.prefix_cons_iff.mp secondBegins with rfl | ⟨second, rfl, thirdBegins⟩
  · exact absurd (comma.symm.trans read) (by simp)
  rcases List.prefix_cons_iff.mp thirdBegins with rfl | ⟨given, rfl, part⟩
  · exact absurd (space.symm.trans read) (by simp)
  · refine ⟨given, ⟨part, ?_⟩, ?_⟩
    · intro member
      exact absent (by simp [member])
    · rw [lex_from_separator] at read
      exact (List.cons.inj read).2

/-- The text of `save` is read as the insertion of the message only when its
strings stay in their literals. -/
theorem plain_of_insertion {key : StdString} {value : MsgText}
    (read : (statements (cStr (insertQuery key value))).flatMap strip =
      insertTokens (literalsOf key value)) :
    Plain value.author ∧ Plain key ∧ Plain value.text := by
  let fields := value.author ++ (quote :: ',' :: ' ' :: quote :: (key ++
    (quote :: ',' :: ' ' :: quote :: (encodeDateTime value.dt ++
      (quote :: ',' :: ' ' :: quote :: (value.text ++ (quote :: ')' :: [';'])))))))
  have query : insertQuery key value = "INSERT INTO history VALUES ('".toList ++ fields := rfl
  rw [strip_statements, query, c_str_append (by decide), lex_append scan_insert_begin] at read
  have first : significant (lexFrom (.literal []) (cStr fields)) =
      .literal value.author :: .symbol ',' :: .literal key :: .symbol ',' ::
        .literal (encodeDateTime value.dt) :: .symbol ',' :: .literal value.text ::
          [.symbol ')'] := by
    have cut := (List.append_right_inj insertHead).mp read
    exact cut
  have comma : ',' ≠ quote := by decide
  have bracket : ')' ≠ quote := by decide
  rcases plain_of_read comma (c_str_part fields) first with ⟨author, behind, part, next⟩
  rcases read_behind_separator part next with ⟨given, part, second⟩
  rcases plain_of_read comma part second with ⟨name, behind, part, next⟩
  rcases read_behind_separator part next with ⟨given, part, third⟩
  rcases plain_of_read comma part third with ⟨-, behind, part, next⟩
  rcases read_behind_separator part next with ⟨given, part, fourth⟩
  rcases plain_of_read bracket part fourth with ⟨text, -⟩
  exact ⟨author, name, text⟩

theorem row_injective : Function.Injective Literals.row := by
  intro left right same
  obtain ⟨_, _, _, _⟩ := left
  obtain ⟨_, _, _, _⟩ := right
  simpa [Literals.row] using same

theorem plain_of_strict_save {key : StdString} {value : MsgText}
    (saved : save strict [] key value = ([rowOf key value], true)) :
    Plain value.author ∧ Plain key ∧ Plain value.text := by
  rcases strict_exec_all saved with ⟨added, rows, read⟩
  have one : added = [literalsOf key value] := by
    apply List.map_injective_iff.mpr row_injective
    exact rows.symm
  subst one
  apply plain_of_insertion
  rw [read, List.flatMap_singleton]

/-- On any documented database `save` adds the row of the message and returns
true exactly for strings without an apostrophe and without a NUL. -/
theorem save_files_message_iff (key : StdString) (value : MsgText) :
    (∀ db : Sqlite, db.Documented → ∀ rows,
        save db rows key value = (rows ++ [rowOf key value], true)) ↔
      Plain value.author ∧ Plain key ∧ Plain value.text := by
  constructor
  · intro files
    exact plain_of_strict_save (files strict strict_documented [])
  · rintro ⟨author, name, text⟩ db documented rows
    exact save_plain documented author name text rows

end AppchatClient.Cache.RoundTrip
