import AppchatClient.Cache.SqliteCache
import Mathlib.Data.List.Dedup

/-!
# The statements of the cache

How the texts that `save`, `load` and `keys` build are read when the strings in
them hold no apostrophe, what SQLite makes of an insertion with other text in
it, and an executable `Sqlite` that knows these statements only.
-/

namespace AppchatClient.Cache.Statements

open AppchatClient.Protocol AppchatClient.Lib.Decimal AppchatClient.Lib.SqlText
open AppchatClient.Cache.SqliteCache

set_option autoImplicit false

/-- No character with which a text leaves its literal or ends early. -/
def Plain (text : StdString) : Prop := quote ∉ text ∧ nul ∉ text

instance (text : StdString) : Decidable (Plain text) :=
  inferInstanceAs (Decidable (quote ∉ text ∧ nul ∉ text))

def literalsOf (key : StdString) (value : MsgText) : Literals where
  author := value.author
  channelName := key
  datetime := encodeDateTime value.dt
  message := value.text

def rowOf (key : StdString) (value : MsgText) : Row := (literalsOf key value).row

theorem columns_row_of (key : StdString) (value : MsgText) :
    (rowOf key value).columns = [.text value.author, .text key,
      .text (encodeDateTime value.dt), .text value.text] := rfl

theorem row_of_channel_name (key : StdString) (value : MsgText) :
    (rowOf key value).channelName = .text key := rfl

theorem plain_append {first second : StdString} (left : Plain first) (right : Plain second) :
    Plain (first ++ second) := by
  constructor
  · intro member
    rcases List.mem_append.mp member with before | after
    · exact left.1 before
    · exact right.1 after
  · intro member
    rcases List.mem_append.mp member with before | after
    · exact left.2 before
    · exact right.2 after

theorem plain_decimal (value : Int) : Plain (decimal value) := by
  have digits (n : Nat) : Plain (decimal n) := by
    constructor <;>
    · intro member
      exact absurd (decimal_nat_digits n _ member) (by decide)
  cases value with
  | ofNat n => exact digits n
  | negSucc n =>
      have sign : Plain ['-'] := by decide
      exact plain_append sign (digits (n + 1))

theorem plain_padded (width : Nat) (value : Int) : Plain (padded width value) := by
  apply plain_append
  · constructor <;>
    · intro member
      exact absurd (List.eq_of_mem_replicate member) (by decide)
  · exact plain_decimal value

theorem plain_encode_date_time (dt : DateTime) : Plain (encodeDateTime dt) := by
  exact plain_append (plain_padded _ _) (plain_append (plain_padded _ _)
    (plain_append (plain_padded _ _) (plain_append (plain_padded _ _)
      (plain_append (plain_padded _ _) (plain_padded _ _)))))

theorem c_str_of_no_nul {text : StdString} (absent : nul ∉ text) : cStr text = text := by
  apply List.takeWhile_eq_self_iff.mpr
  intro c member
  have other : c ≠ nul := by
    intro same
    exact absent (same ▸ member)
  simpa using other

theorem nul_not_in_c_str (text : StdString) : nul ∉ cStr text := by
  intro member
  have kept := List.mem_takeWhile_imp member
  simp at kept

theorem c_str_append {first rest : StdString} (absent : nul ∉ first) :
    cStr (first ++ rest) = first ++ cStr rest := by
  apply List.takeWhile_append_of_pos
  intro c member
  have other : c ≠ nul := by
    intro same
    exact absent (same ▸ member)
  simpa using other

theorem scan_separator (read : List Char) :
    scan (.literal read) "', '".toList = ([.literal read, .symbol ',', .space], .literal []) :=
  rfl

theorem scan_insert_begin :
    scan .start "INSERT INTO history VALUES ('".toList =
      ([.word "INSERT".toList, .space, .word "INTO".toList, .space, .word "history".toList,
        .space, .word "VALUES".toList, .space, .symbol '('], .literal []) := by
  decide

theorem scan_insert_end (read : List Char) :
    scan (.literal read) "');".toList = ([.literal read, .symbol ')', .semicolon], .start) :=
  rfl

theorem scan_select_begin :
    scan .start "SELECT * FROM history WHERE channel_name='".toList =
      ([.word "SELECT".toList, .space, .symbol '*', .space, .word "FROM".toList, .space,
        .word "history".toList, .space, .word "WHERE".toList, .space,
        .word "channel_name".toList, .symbol '='], .literal []) := by
  decide

theorem scan_select_end (read : List Char) :
    scan (.literal read) "';".toList = ([.literal read, .semicolon], .start) :=
  rfl

theorem scan_field {text rest : StdString} {tokens : List Token} {mode : Mode}
    (plain : Plain text) (behind : scan (.literal []) rest = (tokens, mode)) :
    scan (.literal []) (text ++ ("', '".toList ++ rest)) =
      (.literal text :: .symbol ',' :: .space :: tokens, mode) :=
  scan_after (scan_literal [] text plain.1) (scan_after (scan_separator text) behind)

def insertStatement (literals : Literals) : List Token :=
  [.word "INSERT".toList, .space, .word "INTO".toList, .space, .word "history".toList, .space,
    .word "VALUES".toList, .space, .symbol '(', .literal literals.author, .symbol ',', .space,
    .literal literals.channelName, .symbol ',', .space, .literal literals.datetime, .symbol ',',
    .space, .literal literals.message, .symbol ')']

theorem strip_insert_statement (literals : Literals) :
    strip (insertStatement literals) = insertTokens literals := rfl

theorem lex_insert_query {key : StdString} {value : MsgText} (author : Plain value.author)
    (name : Plain key) (text : Plain value.text) :
    lex (insertQuery key value) = insertStatement (literalsOf key value) ++ [.semicolon] := by
  have last : scan (.literal []) (value.text ++ "');".toList) =
      ([.literal value.text, .symbol ')', .semicolon], .start) :=
    scan_after (scan_literal [] value.text text.1) (scan_insert_end value.text)
  have fields := scan_field author (scan_field name
    (scan_field (plain_encode_date_time value.dt) last))
  have whole := scan_after scan_insert_begin fields
  exact lex_of_scan whole

theorem nul_insert_query {key : StdString} {value : MsgText} (author : Plain value.author)
    (name : Plain key) (text : Plain value.text) : nul ∉ insertQuery key value := by
  have date := plain_encode_date_time value.dt
  unfold insertQuery
  simp only [List.mem_append, not_or]
  exact ⟨by decide, author.2, by decide, name.2, by decide, date.2, by decide, text.2, by decide⟩

theorem statements_insert_query {key : StdString} {value : MsgText} (author : Plain value.author)
    (name : Plain key) (text : Plain value.text) :
    statements (cStr (insertQuery key value)) = [insertStatement (literalsOf key value)] := by
  have whole : Token.semicolon ∉ insertStatement (literalsOf key value) := by
    simp [insertStatement]
  rw [c_str_of_no_nul (nul_insert_query author name text), statements,
    lex_insert_query author name text, pieces_append _ [] whole]
  rfl

def selectStatement (key : StdString) : List Token :=
  [.word "SELECT".toList, .space, .symbol '*', .space, .word "FROM".toList, .space,
    .word "history".toList, .space, .word "WHERE".toList, .space, .word "channel_name".toList,
    .symbol '=', .literal key]

theorem strip_select_statement (key : StdString) :
    strip (selectStatement key) = selectTokens key := rfl

theorem statements_select_query {key : StdString} (name : Plain key) :
    statements (cStr (selectQuery key)) = [selectStatement key] := by
  have absent : nul ∉ selectQuery key := by
    unfold selectQuery
    simp only [List.mem_append, not_or]
    exact ⟨by decide, name.2, by decide⟩
  have last : scan (.literal []) (key ++ "';".toList) =
      ([.literal key, .semicolon], .start) :=
    scan_after (scan_literal [] key name.1) (scan_select_end key)
  have read := scan_after scan_select_begin last
  have lexed : lex (selectQuery key) = selectStatement key ++ [.semicolon] := lex_of_scan read
  have whole : Token.semicolon ∉ selectStatement key := by
    simp [selectStatement]
  rw [c_str_of_no_nul absent, statements, lexed, pieces_append _ [] whole]
  rfl

theorem statements_keys_query : ∃ statement,
    statements (cStr keysQuery) = [statement] ∧ strip statement = keysTokens := by
  refine ⟨[.word "SELECT".toList, .space, .word "DISTINCT".toList, .space,
    .word "channel_name".toList, .space, .word "FROM".toList, .space, .word "history".toList],
    ?_, ?_⟩ <;> decide

/-- Behind the bracket that opens a tuple: how many values it has and what
comes behind it; `none` when it is not closed. -/
def tuple (depth values : Nat) : List Token → Option (Nat × List Token)
  | [] => none
  | token :: rest =>
      if token = .symbol '(' then tuple (depth + 1) values rest
      else if token = .symbol ')' then
        match depth with
        | 0 => some (values, rest)
        | outer + 1 => tuple outer values rest
      else if token = .symbol ',' ∧ depth = 0 then tuple 0 (values + 1) rest
      else tuple depth values rest

/-- SQL does not tell upper and lower case of its words apart. -/
def isWordOf (words : List String) : Token → Bool
  | .word text => text.map Char.toLower ∈ words.map String.toList
  | _ => false

def isOperand : Token → Bool
  | .literal _ | .blob _ | .quoted _ | .variable _ => true
  -- All words but those with which SQL goes on after an operand.
  | .word text =>
      !isWordOf ["and", "or", "not", "is", "isnull", "notnull", "in", "like", "glob", "match",
        "regexp", "between", "collate"] (.word text)
  | _ => false

/-- One of the literals that begin the tuple has another operand right behind it. -/
def brokenTuple : List Token → Bool
  | .literal _ :: .symbol ',' :: rest => brokenTuple rest
  | .literal _ :: next :: _ => isOperand next
  | _ => false

/-- What an insertion may have behind its only tuple. -/
def endsTuple : List Token → Bool
  | [] => true
  | token :: _ => isWordOf ["on", "returning"] token

def moreTuples : List Token → Bool
  | [] => false
  | token :: _ => token = .symbol ',' || isWordOf ["union", "except", "intersect"] token

def isInsertion (statement : List Token) : Bool := insertHead <+: strip statement

def valueTokens (statement : List Token) : List Token :=
  (strip statement).drop insertHead.length

/-- An insertion of one row, of whatever expressions. -/
def oneTuple (statement : List Token) : Bool :=
  isInsertion statement &&
    match tuple 0 1 (valueTokens statement) with
    | some (_, behind) => endsTuple behind
    | none => false

/-- Not SQL for this table: a token that cannot be read, or an insertion whose
tuple is not closed, does not have four values, is broken off by an operand or
has something else behind it. -/
def refused (statement : List Token) : Bool :=
  .illegal ∈ statement ||
    (isInsertion statement && (brokenTuple (valueTokens statement) ||
      match tuple 0 1 (valueTokens statement) with
      | some (values, behind) => values ≠ 4 || !(endsTuple behind || moreTuples behind)
      | none => true))

/-- What SQLite documents about texts that begin with an insertion, where the
evaluation of its expressions ends. -/
structure InTurn (db : Sqlite) : Prop where
  refusedFirst : ∀ text first rest (rows : List Row),
    statements (cStr text) = first :: rest → refused first = true →
      db.exec rows (cStr text) = (rows, false)
  oneRow : ∀ text statement (rows : List Row),
    statements (cStr text) = [statement] → oneTuple statement = true →
      db.exec rows (cStr text) = (rows, false) ∨
        ∃ row, db.exec rows (cStr text) = (rows ++ [row], true)
  -- Behind a statement `sqlite3_exec` also skips vertical tabs, which begin no token.
  inTurn : ∀ text first rest statement (rows : List Row),
    cStr text = first ++ rest → scan .start first = (statement ++ [.semicolon], .start) →
      .semicolon ∉ statement → isInsertion statement = true → rest.head? ≠ some verticalTab →
        db.exec rows (cStr text) =
          if (db.exec rows first).2 then db.exec (db.exec rows first).1 rest
          else db.exec rows first

def readInsert (statement : List Token) : Option Literals :=
  match statement with
  | [_, _, _, _, _, .literal author, _, .literal channelName, _, .literal datetime, _,
      .literal message, _] =>
      if statement = insertTokens ⟨author, channelName, datetime, message⟩ then
        some ⟨author, channelName, datetime, message⟩
      else none
  | _ => none

def readSelect (statement : List Token) : Option StdString :=
  match statement with
  | [_, _, _, _, _, _, _, .literal key] =>
      if statement = selectTokens key then some key else none
  | _ => none

theorem read_insert_eq_some {statement : List Token} {literals : Literals} :
    readInsert statement = some literals ↔ statement = insertTokens literals := by
  constructor
  · intro read
    unfold readInsert at read
    split at read
    · split_ifs at read with same
      rw [← Option.some.inj read]
      exact same
    · exact absurd read (by simp)
  · intro same
    rw [same]
    simp [readInsert, insertTokens, insertHead]

theorem read_select_eq_some {statement : List Token} {key : StdString} :
    readSelect statement = some key ↔ statement = selectTokens key := by
  constructor
  · intro read
    unfold readSelect at read
    split at read
    · split_ifs at read with same
      rw [← Option.some.inj read]
      exact same
    · exact absurd read (by simp)
  · intro same
    rw [same]
    simp [readSelect, selectTokens]

variable {statement : List Token} {literals : Literals}

theorem value_tokens_of_insertion (same : strip statement = insertTokens literals) :
    isInsertion statement = true ∧ valueTokens statement =
      [.literal literals.author, .symbol ',', .literal literals.channelName, .symbol ',',
        .literal literals.datetime, .symbol ',', .literal literals.message, .symbol ')'] := by
  rw [isInsertion, valueTokens, same]
  exact ⟨decide_eq_true (List.prefix_append _ _), List.drop_left⟩

theorem not_blank_of_insertion (same : strip statement = insertTokens literals) :
    isBlank statement = false := by
  cases blank : isBlank statement with
  | false => rfl
  | true =>
      rw [strip_blank blank] at same
      exact absurd same (by simp [insertTokens, insertHead])

theorem one_tuple_of_insertion (same : strip statement = insertTokens literals) :
    oneTuple statement = true := by
  rcases value_tokens_of_insertion same with ⟨insertion, values⟩
  simp [oneTuple, insertion, values, tuple, endsTuple]

theorem insert_not_refused (same : strip statement = insertTokens literals) :
    refused statement = false := by
  have legal : .illegal ∉ statement := by
    intro member
    have kept : Token.illegal ∈ strip statement := List.mem_filter.mpr ⟨member, by decide⟩
    rw [same] at kept
    simp [insertTokens, insertHead] at kept
  rcases value_tokens_of_insertion same with ⟨insertion, values⟩
  simp [refused, legal, insertion, values, brokenTuple, isOperand, tuple, endsTuple]

/-- One statement: an insertion of four literals adds its row, another insertion
of one tuple adds `expression`, and `other` is what any other statement does. -/
def execute (expression : Option Row) (other : List Row → Option (List Row)) (rows : List Row)
    (statement : List Token) : Option (List Row) :=
  if refused statement then none
  else
    match readInsert (strip statement) with
    | some literals => some (rows ++ [literals.row])
    | none =>
        if oneTuple statement then expression.map fun row => rows ++ [row]
        else other rows

def execAll (execute : List Row → List Token → Option (List Row)) (rows : List Row) :
    List (List Token) → List Row × Bool
  | [] => (rows, true)
  | statement :: rest =>
      match execute rows statement with
      | some next => execAll execute next rest
      | none => (rows, false)

theorem exec_all_done {step : List Row → List Token → Option (List Row)} {rows next : List Row}
    {statement : List Token} (done : step rows statement = some next)
    (rest : List (List Token)) :
    execAll step rows (statement :: rest) = execAll step next rest := by
  rw [execAll, done]

theorem exec_all_failed {step : List Row → List Token → Option (List Row)} {rows : List Row}
    {statement : List Token} (failed : step rows statement = none) (rest : List (List Token)) :
    execAll step rows (statement :: rest) = (rows, false) := by
  rw [execAll, failed]

def fragment (expression : Option Row) (other : List Row → Option (List Row)) : Sqlite where
  exec rows text := execAll (execute expression other) rows (statements text)
  query rows text :=
    match statements text with
    | [statement] =>
        if strip statement = keysTokens then
          some ((rows.map Row.channelName).dedup.map fun name => [name])
        else
          (readSelect (strip statement)).map fun key =>
            (rows.filter fun row => row.channelName = .text key).map Row.columns
    | _ => none

variable {expression : Option Row} {other : List Row → Option (List Row)}

theorem execute_insertion (same : strip statement = insertTokens literals) (rows : List Row) :
    execute expression other rows statement = some (rows ++ [literals.row]) := by
  simp [execute, insert_not_refused same, read_insert_eq_some.mpr same]

theorem fragment_documented : (fragment expression other).Documented where
  insertRow text statement literals rows split same := by
    simp [fragment, split, execAll, execute_insertion same]
  selectWhere text statement key rows split same := by
    have different : selectTokens key ≠ keysTokens := by
      simp [selectTokens, keysTokens]
    have read : readSelect (selectTokens key) = some key := read_select_eq_some.mpr rfl
    simp [fragment, split, same, different, read]
  selectDistinct text statement rows split same := by
    refine ⟨(rows.map Row.channelName).dedup, ?_, List.nodup_dedup _, ?_⟩
    · simp [fragment, split, same]
    · simp

/-- A database without other statements. -/
def strict : Sqlite := fragment none fun _ => none

theorem strict_documented : strict.Documented := fragment_documented

end AppchatClient.Cache.Statements
