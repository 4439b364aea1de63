import AppchatClient.Protocol
import AppchatClient.Lib.Decimal
import AppchatClient.Lib.SqlText

/-!
# `SqliteCache`

`save`, `load` and `keys` build statement texts and hand them to SQLite, which
is not in the repository: what `sqlite3_exec` and a prepared statement do with
a text is a parameter. `Sqlite.Documented` is what is taken from SQLite's
documentation about texts that are one statement of the cache, read by the
lexical rules of SQL.
-/

namespace AppchatClient.Cache.SqliteCache

open AppchatClient.Protocol AppchatClient.Lib.Decimal AppchatClient.Lib.SqlText

set_option autoImplicit false

/-- A value of a column. All columns have text affinity: a number is stored as text. -/
inductive Value where
  | null
  | text (bytes : StdString)
  | blob (bytes : StdString)
deriving DecidableEq, Repr

structure Row where
  author : Value
  channelName : Value
  datetime : Value
  message : Value
deriving DecidableEq, Repr

def Row.columns (row : Row) : List Value :=
  [row.author, row.channelName, row.datetime, row.message]

structure Literals where
  author : StdString
  channelName : StdString
  datetime : StdString
  message : StdString
deriving DecidableEq, Repr

def Literals.row (literals : Literals) : Row where
  author := .text literals.author
  channelName := .text literals.channelName
  datetime := .text literals.datetime
  message := .text literals.message

/-- `exec` is `sqlite3_exec` on a text: the table afterwards, and whether the
result is `SQLITE_OK`. `query` is `sqlite3_prepare_v2` with the rows that
`sqlite3_step` returns, or `none` when no statement is prepared. -/
structure Sqlite where
  exec : List Row → StdString → List Row × Bool
  query : List Row → StdString → Option (List (List Value))

def insertHead : List Token :=
  [.word "INSERT".toList, .word "INTO".toList, .word "history".toList, .word "VALUES".toList,
    .symbol '(']

def insertTokens (literals : Literals) : List Token :=
  insertHead ++ [.literal literals.author, .symbol ',', .literal literals.channelName,
    .symbol ',', .literal literals.datetime, .symbol ',', .literal literals.message, .symbol ')']

def selectTokens (key : StdString) : List Token :=
  [.word "SELECT".toList, .symbol '*', .word "FROM".toList, .word "history".toList,
    .word "WHERE".toList, .word "channel_name".toList, .symbol '=', .literal key]

def keysTokens : List Token :=
  [.word "SELECT".toList, .word "DISTINCT".toList, .word "channel_name".toList,
    .word "FROM".toList, .word "history".toList]

def nul : Char := Char.ofNat 0

/-- The characters up to the first NUL, as a C string has them. -/
def cStr (text : StdString) : StdString := text.takeWhile fun c => c != nul

/-- What SQLite documents about the statements of the cache. -/
structure Sqlite.Documented (db : Sqlite) : Prop where
  insertRow : ∀ text statement (literals : Literals) (rows : List Row),
    statements (cStr text) = [statement] → strip statement = insertTokens literals →
      db.exec rows (cStr text) = (rows ++ [literals.row], true)
  selectWhere : ∀ text statement key (rows : List Row),
    statements (cStr text) = [statement] → strip statement = selectTokens key →
      db.query rows (cStr text) =
        some ((rows.filter fun row => row.channelName = .text key).map Row.columns)
  selectDistinct : ∀ text statement (rows : List Row),
    statements (cStr text) = [statement] → strip statement = keysTokens →
      ∃ names : List Value, db.query rows (cStr text) = some (names.map fun name => [name]) ∧
        names.Nodup ∧ ∀ name, name ∈ names ↔ ∃ row ∈ rows, row.channelName = name

def encodeDateTime (dt : DateTime) : StdString :=
  padded 4 dt.date.year ++ (padded 2 dt.date.month ++ (padded 2 dt.date.day ++
    (padded 2 dt.time.hours ++ (padded 2 dt.time.minutes ++ padded 2 dt.time.seconds))))

/-- `std::stoi(dt.substr(position, count))`; `none` where one of them throws. -/
def field (dt : StdString) (position count : Nat) : Option Int :=
  (substr dt position count).bind stoi

def decodeDateTime (dt : StdString) : Option DateTime := do
  let year ← field dt 0 4
  let month ← field dt 4 2
  let day ← field dt 6 2
  let hours ← field dt 8 2
  let minutes ← field dt 10 2
  let seconds ← field dt 12 2
  some { date := { year := year, month := month, day := day }
         time := { hours := hours, minutes := minutes, seconds := seconds } }

def insertQuery (key : StdString) (value : MsgText) : StdString :=
  "INSERT INTO history VALUES ('".toList ++ (value.author ++ ("', '".toList ++ (key ++
    ("', '".toList ++ (encodeDateTime value.dt ++ ("', '".toList ++ (value.text ++
      "');".toList)))))))

def save (db : Sqlite) (rows : List Row) (key : StdString) (value : MsgText) : List Row × Bool :=
  db.exec rows (cStr (insertQuery key value))

def selectQuery (key : StdString) : StdString :=
  "SELECT * FROM history WHERE channel_name='".toList ++ (key ++ "';".toList)

/-- A `std::string` made from `sqlite3_column_blob`, which is null for `NULL` and
for a value of length zero; there is no result then, and none for a blob
without a NUL, which has no end. -/
def columnBlob : Value → Option StdString
  | .null => none
  | .text bytes => if bytes = [] then none else some (cStr bytes)
  | .blob bytes => if nul ∈ bytes then some (cStr bytes) else none

def readRow (key : StdString) : List Value → Option MsgText
  | [author, _, datetime, message] => do
      let author ← columnBlob author
      let datetime ← columnBlob datetime
      let text ← columnBlob message
      let dt ← decodeDateTime datetime
      some { author := author, text := text, channelName := key, dt := dt }
  | _ => none

/-- A query that is not prepared gives a null statement, which `sqlite3_step`
refuses, so the list is empty. `none` where reading a row has no result. -/
def load (db : Sqlite) (rows : List Row) (key : StdString) : Option (List MsgText) :=
  match db.query rows (cStr (selectQuery key)) with
  | some results => results.mapM (readRow key)
  | none => some []

def keysQuery : StdString := "SELECT DISTINCT channel_name FROM history".toList

def readKey : List Value → Option StdString
  | [name] => columnBlob name
  | _ => none

def keys (db : Sqlite) (rows : List Row) : Option (List StdString) :=
  match db.query rows (cStr keysQuery) with
  | some results => results.mapM readKey
  | none => some []

end AppchatClient.Cache.SqliteCache
