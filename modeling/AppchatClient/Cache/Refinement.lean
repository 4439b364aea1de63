import AppchatClient.Cache.Statements
import AppchatClient.Cache.DateTimeDomain
import AppchatClient.Lib.Basics
import AppchatClient.Lib.Runs
import Mathlib.Data.Set.List

/-!
# The cache as an append-only multimap

For strings that stay inside their literals and are not empty, the table
represents the multimap of the messages saved: `save` is its `save`, `load` and
`keys` read it back. An apostrophe breaks the statement of `save`, and an empty
string is read back as a null pointer.
-/

namespace AppchatClient.Cache.Refinement

open AppchatClient.Protocol AppchatClient.Lib.Decimal AppchatClient.Lib.AppendMap
open AppchatClient.Lib.Runs AppchatClient.Cache.SqliteCache AppchatClient.Cache.Statements
open AppchatClient.Cache.DateTimeDomain

set_option autoImplicit false

abbrev History := Multimap StdString MsgText

/-- The purpose of `save`: the message is filed under the key, which names its channel. -/
def record (history : History) (entry : StdString × MsgText) : History :=
  history.save entry.1 { entry.2 with channelName := entry.1 }

def saveStep (db : Sqlite) (rows : List Row) (entry : StdString × MsgText) : Option (List Row) :=
  if (save db rows entry.1 entry.2).2 then some (save db rows entry.1 entry.2).1 else none

structure InRange (dt : DateTime) : Prop where
  year : 0 ≤ dt.date.year ∧ dt.date.year ≤ 9999
  month : 0 ≤ dt.date.month ∧ dt.date.month ≤ 99
  day : 0 ≤ dt.date.day ∧ dt.date.day ≤ 99
  hours : 0 ≤ dt.time.hours ∧ dt.time.hours ≤ 99
  minutes : 0 ≤ dt.time.minutes ∧ dt.time.minutes ≤ 99
  seconds : 0 ≤ dt.time.seconds ∧ dt.time.seconds ≤ 99

/-- Not empty, and without an apostrophe or a NUL. -/
def Sound (text : StdString) : Prop := text ≠ [] ∧ Plain text

instance (text : StdString) : Decidable (Sound text) :=
  inferInstanceAs (Decidable (text ≠ [] ∧ Plain text))

structure Storable (entry : StdString × MsgText) : Prop where
  key : Sound entry.1
  author : Sound entry.2.author
  text : Sound entry.2.text
  dt : InRange entry.2.dt

theorem decode_encode_date_time {dt : DateTime} (range : InRange dt) :
    decodeDateTime (encodeDateTime dt) = some dt := by
  apply (decode_encode_iff dt).mpr
  have two {value : Int} (small : 0 ≤ value ∧ value ≤ 99) : TwoDigits value :=
    ⟨by omega, small.2⟩
  exact ⟨Or.inl range.year, two range.month, two range.day, two range.hours, two range.minutes,
    two range.seconds⟩

theorem column_blob_sound {text : StdString} (sound : Sound text) :
    columnBlob (.text text) = some text := by
  rw [columnBlob, if_neg sound.1, c_str_of_no_nul sound.2.2]

theorem sound_encode_date_time (dt : DateTime) : Sound (encodeDateTime dt) := by
  refine ⟨?_, plain_encode_date_time dt⟩
  intro empty
  have lengths := congrArg List.length empty
  have digits : 0 < (decimal dt.date.year).length := by
    cases dt.date.year with
    | ofNat n => exact Nat.length_toDigits_pos
    | negSucc n => exact Nat.succ_pos _
  simp only [encodeDateTime, padded, List.length_append, List.length_nil] at lengths
  omega

theorem read_row {entry : StdString × MsgText} (storable : Storable entry) :
    readRow entry.1 (rowOf entry.1 entry.2).columns =
      some { entry.2 with channelName := entry.1 } := by
  simp [readRow, columns_row_of, column_blob_sound storable.author,
    column_blob_sound storable.text, column_blob_sound (sound_encode_date_time entry.2.dt),
    decode_encode_date_time storable.dt]

structure Represents (rows : List Row) (history : History) : Prop where
  rowsEq : rows = history.entries.map fun entry => rowOf entry.1 entry.2
  storable : ∀ entry ∈ history.entries, Storable entry
  named : ∀ entry ∈ history.entries, entry.2.channelName = entry.1

theorem represents_empty : Represents [] (Multimap.empty : History) where
  rowsEq := rfl
  storable := by simp [Multimap.empty]
  named := by simp [Multimap.empty]

variable {db : Sqlite} {rows : List Row} {history : History}

theorem save_plain (documented : db.Documented) {key : StdString} {value : MsgText}
    (author : Plain value.author) (name : Plain key) (text : Plain value.text) (rows : List Row) :
    save db rows key value = (rows ++ [rowOf key value], true) := by
  have split := statements_insert_query author name text
  exact documented.insertRow _ _ (literalsOf key value) rows split (strip_insert_statement _)

theorem save_storable (documented : db.Documented) {entry : StdString × MsgText}
    (storable : Storable entry) (rows : List Row) :
    save db rows entry.1 entry.2 = (rows ++ [rowOf entry.1 entry.2], true) :=
  save_plain documented storable.author.2 storable.key.2 storable.text.2 rows

theorem save_step_represents (documented : db.Documented) {entry : StdString × MsgText}
    (represents : Represents rows history) (storable : Storable entry) :
    ∃ next, saveStep db rows entry = some next ∧ Represents next (record history entry) := by
  refine ⟨rows ++ [rowOf entry.1 entry.2], ?_, ?_, ?_, ?_⟩
  · simp [saveStep, save_storable documented storable]
  · simp [record, Multimap.save, represents.rowsEq, rowOf, literalsOf]
  · intro other member
    rcases List.mem_append.mp member with earlier | new
    · exact represents.storable other earlier
    · rw [List.mem_singleton.mp new]
      exact ⟨storable.key, storable.author, storable.text, storable.dt⟩
  · intro other member
    rcases List.mem_append.mp member with earlier | new
    · exact represents.named other earlier
    · rw [List.mem_singleton.mp new]

theorem map_m_some {α β γ : Type} {source : α → β} {read : β → Option γ} {result : α → γ}
    {items : List α} (each : ∀ item ∈ items, read (source item) = some (result item)) :
    (items.map source).mapM read = some (items.map result) := by
  induction items with
  | nil => rfl
  | cons item rest ih =>
      have first := each item (List.mem_cons_self ..)
      have others := ih fun other member => each other (List.mem_cons_of_mem _ member)
      rw [List.map_cons, List.mapM_cons, first, others]
      rfl

theorem query_select (documented : db.Documented) {key : StdString} (name : Plain key)
    (rows : List Row) :
    db.query rows (cStr (selectQuery key)) =
      some ((rows.filter fun row => row.channelName = .text key).map Row.columns) :=
  documented.selectWhere _ _ key rows (statements_select_query name) (strip_select_statement key)

theorem load_represents (documented : db.Documented) (represents : Represents rows history)
    {key : StdString} (plain : Plain key) : load db rows key = some (history.load key) := by
  have selected : (rows.filter fun row => row.channelName = .text key).map Row.columns =
      (history.entries.filter fun entry => entry.1 = key).map
        fun entry => (rowOf entry.1 entry.2).columns := by
    rw [represents.rowsEq, List.filter_map, List.map_map]
    congr 1
    apply List.filter_congr
    intro entry _
    simp [row_of_channel_name]
  unfold load
  rw [query_select documented plain, selected]
  apply map_m_some
  intro entry member
  rcases List.mem_filter.mp member with ⟨stored, same⟩
  have keyEq : entry.1 = key := of_decide_eq_true same
  subst keyEq
  rw [read_row (represents.storable entry stored), ← represents.named entry stored]

theorem names_are_texts {rows : List Row} {history : History}
    (represents : Represents rows history) {names : List Value}
    (exactNames : ∀ name, name ∈ names ↔ ∃ row ∈ rows, row.channelName = name) :
    ∃ texts : List StdString, names = texts.map Value.text ∧
      ∀ name, name ∈ texts ↔ ∃ entry ∈ history.entries, entry.1 = name := by
  have saved (name : Value) : name ∈ names ↔
      ∃ entry ∈ history.entries, Value.text entry.1 = name := by
    rw [exactNames, represents.rowsEq]
    simp [row_of_channel_name]
  have mapped : names ∈ Set.range (List.map Value.text) := by
    rw [Set.range_list_map]
    intro name member
    rcases (saved name).mp member with ⟨entry, -, same⟩
    exact ⟨entry.1, same⟩
  obtain ⟨texts, rfl⟩ := mapped
  refine ⟨texts, rfl, ?_⟩
  intro name
  have here := saved (.text name)
  simpa using here

theorem keys_represents (documented : db.Documented) (represents : Represents rows history) :
    ∃ names, keys db rows = some names ∧ names.Nodup ∧
      ∀ name, name ∈ names ↔ name ∈ history.keys := by
  rcases statements_keys_query with ⟨statement, split, stripped⟩
  rcases documented.selectDistinct keysQuery statement rows split stripped with
    ⟨names, query, once, exactNames⟩
  rcases names_are_texts represents exactNames with ⟨texts, rfl, saved⟩
  refine ⟨texts, ?_, List.Nodup.of_map _ once, ?_⟩
  · unfold keys
    rw [query, List.map_map]
    have each : ∀ name ∈ texts, readKey [Value.text name] = some (id name) := by
      intro name member
      rcases (saved name).mp member with ⟨entry, stored, rfl⟩
      exact column_blob_sound (represents.storable entry stored).key
    have listed := map_m_some each
    rw [List.map_id] at listed
    exact listed
  · intro name
    rw [saved, Multimap.keys, List.mem_dedup, List.mem_map]

theorem entries_record (saves : List (StdString × MsgText)) (history : History) :
    (saves.foldl record history).entries =
      history.entries ++ saves.map fun entry =>
        (entry.1, { entry.2 with channelName := entry.1 }) := by
  induction saves generalizing history with
  | nil => simp
  | cons entry rest ih => simp [ih, record, Multimap.save]

theorem load_recorded (saves : List (StdString × MsgText)) (key : StdString) :
    (saves.foldl record Multimap.empty).load key =
      (saves.filter fun entry => entry.1 = key).map fun entry =>
        { entry.2 with channelName := key } := by
  rw [Multimap.load, entries_record, Multimap.empty, List.nil_append, List.filter_map, List.map_map]
  apply List.map_congr_left
  intro entry member
  have same : entry.1 = key := of_decide_eq_true (List.mem_filter.mp member).2
  rw [← same]
  rfl

/-- On a fresh cache every save of the run returns true, `load` of the key gives
the messages saved under it, and `keys` the keys of the run, each once. -/
def CacheLaw (db : Sqlite) (saves : List (StdString × MsgText)) (key : StdString) : Prop :=
  ∃ rows, run (saveStep db) [] saves = some rows ∧
    load db rows key =
      some ((saves.filter fun entry => entry.1 = key).map fun entry =>
        { entry.2 with channelName := key }) ∧
    ∃ names, keys db rows = some names ∧ names.Nodup ∧
      ∀ name, name ∈ names ↔ ∃ entry ∈ saves, entry.1 = name

theorem cache_refines_multimap (documented : db.Documented)
    {saves : List (StdString × MsgText)} (storable : ∀ entry ∈ saves, Storable entry)
    {key : StdString} (plain : Plain key) : CacheLaw db saves key := by
  have step (rows : List Row) (history : History) (entry : StdString × MsgText)
      (represents : Represents rows history) (storable : Storable entry) :=
    save_step_represents documented represents storable
  rcases run_refines (saveStep db) step represents_empty storable with ⟨rows, ran, represents⟩
  refine ⟨rows, ran, ?_, ?_⟩
  · rw [load_represents documented represents plain, load_recorded]
  · rcases keys_represents documented represents with ⟨names, read, once, exactNames⟩
    refine ⟨names, read, once, ?_⟩
    intro name
    rw [exactNames, Multimap.keys, List.mem_dedup, entries_record]
    simp [Multimap.empty]

def noon : DateTime where
  date := { year := 2024, month := 1, day := 2 }
  time := { hours := 12, minutes := 0, seconds := 0 }

def messageBy (author : StdString) : MsgText where
  author := author
  text := "hello".toList
  channelName := "room".toList
  dt := noon

theorem cache_refines_multimap_two_rooms :
    CacheLaw strict [("room".toList, messageBy "ann".toList),
      ("hall".toList, messageBy "bob".toList), ("room".toList, messageBy "bob".toList)]
      "room".toList := by
  apply cache_refines_multimap strict_documented
  · intro entry member
    have range : InRange noon := by
      constructor <;> decide
    rcases List.mem_cons.mp member with rfl | member
    · exact ⟨by decide, by decide, by decide, range⟩
    rcases List.mem_cons.mp member with rfl | member
    · exact ⟨by decide, by decide, by decide, range⟩
    rw [List.mem_singleton.mp member]
    exact ⟨by decide, by decide, by decide, range⟩
  · decide

/-- The apostrophe makes `save` fail; the empty author is a null pointer for `load`. -/
theorem cache_law_broken : strict.Documented ∧
    ¬ CacheLaw strict [("room".toList, messageBy "O'Brien".toList)] "room".toList ∧
    ¬ CacheLaw strict [("room".toList, messageBy [])] "room".toList := by
  refine ⟨strict_documented, ?_, ?_⟩
  · rintro ⟨rows, ran, -⟩
    have stuck : run (saveStep strict) [] [("room".toList, messageBy "O'Brien".toList)] = none := by
      decide
    rw [stuck] at ran
    exact absurd ran (by simp)
  · rintro ⟨rows, ran, loaded, -⟩
    have saved : run (saveStep strict) [] [("room".toList, messageBy [])] =
        some [rowOf "room".toList (messageBy [])] := by
      decide
    rw [saved] at ran
    obtain rfl := Option.some.inj ran
    have unread : load strict [rowOf "room".toList (messageBy [])] "room".toList = none := by
      decide
    rw [unread] at loaded
    exact absurd loaded (by simp)

end AppchatClient.Cache.Refinement
