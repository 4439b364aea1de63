import AppchatClient.Cache.SqliteCache

/-!
# The domain of the date-time codec

`setw` is a minimum width, so a wide field moves the ones behind it, and the
reads of `load` stay at their places. The reads never throw; they return the
fields that were saved when each field has just its width.
-/

namespace AppchatClient.Cache.DateTimeDomain

open AppchatClient.Protocol AppchatClient.Lib.Decimal AppchatClient.Cache.SqliteCache

set_option autoImplicit false

def TwoDigits (value : Int) : Prop := -9 ≤ value ∧ value ≤ 99

/-- Four digits or a sign and three of them; two digits or a sign and one. -/
structure InDomain (dt : DateTime) : Prop where
  year : 0 ≤ dt.date.year ∧ dt.date.year ≤ 9999 ∨
    -999 ≤ dt.date.year ∧ dt.date.year ≤ -100
  month : TwoDigits dt.date.month
  day : TwoDigits dt.date.day
  hours : TwoDigits dt.time.hours
  minutes : TwoDigits dt.time.minutes
  seconds : TwoDigits dt.time.seconds

theorem fits_four_iff (value : Int) :
    Fits 4 value ↔ 0 ≤ value ∧ value ≤ 9999 ∨ -999 ≤ value ∧ value ≤ -100 := by
  simp only [Fits]
  omega

theorem fits_two_iff (value : Int) : Fits 2 value ↔ TwoDigits value := by
  simp only [Fits, TwoDigits]
  omega

theorem numerals_encode (dt : DateTime) : Numerals (encodeDateTime dt) := by
  unfold encodeDateTime
  apply numerals_append (padded_numerals 4 dt.date.year)
  apply numerals_append (padded_numerals 2 dt.date.month)
  apply numerals_append (padded_numerals 2 dt.date.day)
  apply numerals_append (padded_numerals 2 dt.time.hours)
  exact numerals_append (padded_numerals 2 dt.time.minutes) (padded_numerals 2 dt.time.seconds)

theorem encode_length (dt : DateTime) : 14 ≤ (encodeDateTime dt).length := by
  have year := width_le_padded 4 dt.date.year
  have month := width_le_padded 2 dt.date.month
  have day := width_le_padded 2 dt.date.day
  have hours := width_le_padded 2 dt.time.hours
  have minutes := width_le_padded 2 dt.time.minutes
  have seconds := width_le_padded 2 dt.time.seconds
  simp only [encodeDateTime, List.length_append]
  omega

theorem field_total (dt : DateTime) (position : Nat) {count : Nat} (two : 2 ≤ count)
    (narrow : count ≤ 9) (inside : position + count ≤ 14) :
    ∃ value, field (encodeDateTime dt) position count = some value :=
  stoi_substr_total (numerals_encode dt) two narrow (inside.trans (encode_length dt))

/-- `load` never throws on what `save` has built. -/
theorem decode_encode_total (dt : DateTime) :
    ∃ read, decodeDateTime (encodeDateTime dt) = some read := by
  have two (position : Nat) (inside : position + 2 ≤ 14) :=
    field_total dt position (by decide : 2 ≤ 2) (by decide) inside
  rcases field_total dt 0 (by decide : 2 ≤ 4) (by decide) (by decide) with ⟨year, readYear⟩
  rcases two 4 (by decide) with ⟨month, readMonth⟩
  rcases two 6 (by decide) with ⟨day, readDay⟩
  rcases two 8 (by decide) with ⟨hours, readHours⟩
  rcases two 10 (by decide) with ⟨minutes, readMinutes⟩
  rcases two 12 (by decide) with ⟨seconds, readSeconds⟩
  exact ⟨⟨⟨year, month, day⟩, ⟨hours, minutes, seconds⟩⟩, by
    simp [decodeDateTime, readYear, readMonth, readDay, readHours, readMinutes, readSeconds]⟩

theorem decode_some_iff (text : StdString) (dt : DateTime) :
    decodeDateTime text = some dt ↔
      field text 0 4 = some dt.date.year ∧ field text 4 2 = some dt.date.month ∧
        field text 6 2 = some dt.date.day ∧ field text 8 2 = some dt.time.hours ∧
        field text 10 2 = some dt.time.minutes ∧ field text 12 2 = some dt.time.seconds := by
  rcases dt with ⟨⟨year, month, day⟩, ⟨hours, minutes, seconds⟩⟩
  simp only [decodeDateTime, Option.bind_eq_bind, Option.bind_eq_some_iff, Option.some.injEq,
    DateTime.mk.injEq, Date.mk.injEq, Time.mk.injEq]
  constructor
  · rintro ⟨_, readYear, _, readMonth, _, readDay, _, readHours, _, readMinutes, _, readSeconds,
      ⟨rfl, rfl, rfl⟩, rfl, rfl, rfl⟩
    exact ⟨readYear, readMonth, readDay, readHours, readMinutes, readSeconds⟩
  · rintro ⟨readYear, readMonth, readDay, readHours, readMinutes, readSeconds⟩
    exact ⟨_, readYear, _, readMonth, _, readDay, _, readHours, _, readMinutes, _, readSeconds,
      ⟨rfl, rfl, rfl⟩, rfl, rfl, rfl⟩

theorem field_block_iff {first last : StdString} {position count : Nat} (two : 2 ≤ count)
    (narrow : count ≤ 9) (value : Int) (before : first.length = position) :
    field (first ++ (padded count value ++ last)) position count = some value ↔
      Fits count value := by
  rw [field, substr_padded value before, Option.bind_some]
  exact stoi_take_padded_iff two narrow value

theorem decode_encode_iff (dt : DateTime) :
    decodeDateTime (encodeDateTime dt) = some dt ↔ InDomain dt := by
  have four {value : Int} (fits : Fits 4 value) := padded_length_of_fits (by decide) fits
  have two {value : Int} (fits : Fits 2 value) := padded_length_of_fits (by decide) fits
  have block {first last : StdString} {position : Nat} (value : Int)
      (before : first.length = position) :=
    @field_block_iff first last position 2 (by decide) (by decide) value before
  -- A field stands at its place when the ones before it have their widths.
  have year : field (encodeDateTime dt) 0 4 = some dt.date.year ↔ Fits 4 dt.date.year := by
    rw [encodeDateTime, ← List.nil_append (_ ++ _)]
    exact field_block_iff (by decide) (by decide) dt.date.year rfl
  have month (fitsYear : Fits 4 dt.date.year) :
      field (encodeDateTime dt) 4 2 = some dt.date.month ↔ Fits 2 dt.date.month :=
    block dt.date.month (four fitsYear)
  have day (fitsYear : Fits 4 dt.date.year) (fitsMonth : Fits 2 dt.date.month) :
      field (encodeDateTime dt) 6 2 = some dt.date.day ↔ Fits 2 dt.date.day := by
    rw [encodeDateTime, ← List.append_assoc]
    apply block dt.date.day
    simp [four fitsYear, two fitsMonth]
  have hours (fitsYear : Fits 4 dt.date.year) (fitsMonth : Fits 2 dt.date.month)
      (fitsDay : Fits 2 dt.date.day) :
      field (encodeDateTime dt) 8 2 = some dt.time.hours ↔ Fits 2 dt.time.hours := by
    rw [encodeDateTime, ← List.append_assoc, ← List.append_assoc]
    apply block dt.time.hours
    simp [four fitsYear, two fitsMonth, two fitsDay]
  have minutes (fitsYear : Fits 4 dt.date.year) (fitsMonth : Fits 2 dt.date.month)
      (fitsDay : Fits 2 dt.date.day) (fitsHours : Fits 2 dt.time.hours) :
      field (encodeDateTime dt) 10 2 = some dt.time.minutes ↔ Fits 2 dt.time.minutes := by
    rw [encodeDateTime, ← List.append_assoc, ← List.append_assoc, ← List.append_assoc]
    apply block dt.time.minutes
    simp [four fitsYear, two fitsMonth, two fitsDay, two fitsHours]
  have seconds (fitsYear : Fits 4 dt.date.year) (fitsMonth : Fits 2 dt.date.month)
      (fitsDay : Fits 2 dt.date.day) (fitsHours : Fits 2 dt.time.hours)
      (fitsMinutes : Fits 2 dt.time.minutes) :
      field (encodeDateTime dt) 12 2 = some dt.time.seconds ↔ Fits 2 dt.time.seconds := by
    rw [encodeDateTime, ← List.append_assoc, ← List.append_assoc, ← List.append_assoc,
      ← List.append_assoc, ← List.append_nil (padded 2 dt.time.seconds)]
    apply block dt.time.seconds
    simp [four fitsYear, two fitsMonth, two fitsDay, two fitsHours, two fitsMinutes]
  rw [decode_some_iff]
  constructor
  · rintro ⟨readYear, readMonth, readDay, readHours, readMinutes, readSeconds⟩
    have fitsYear := year.mp readYear
    have fitsMonth := (month fitsYear).mp readMonth
    have fitsDay := (day fitsYear fitsMonth).mp readDay
    have fitsHours := (hours fitsYear fitsMonth fitsDay).mp readHours
    have fitsMinutes := (minutes fitsYear fitsMonth fitsDay fitsHours).mp readMinutes
    have fitsSeconds := (seconds fitsYear fitsMonth fitsDay fitsHours fitsMinutes).mp readSeconds
    exact ⟨(fits_four_iff _).mp fitsYear, (fits_two_iff _).mp fitsMonth,
      (fits_two_iff _).mp fitsDay, (fits_two_iff _).mp fitsHours, (fits_two_iff _).mp fitsMinutes,
      (fits_two_iff _).mp fitsSeconds⟩
  · intro domain
    have fitsYear := (fits_four_iff _).mpr domain.year
    have fitsMonth := (fits_two_iff _).mpr domain.month
    have fitsDay := (fits_two_iff _).mpr domain.day
    have fitsHours := (fits_two_iff _).mpr domain.hours
    have fitsMinutes := (fits_two_iff _).mpr domain.minutes
    have fitsSeconds := (fits_two_iff _).mpr domain.seconds
    exact ⟨year.mpr fitsYear, (month fitsYear).mpr fitsMonth,
      (day fitsYear fitsMonth).mpr fitsDay, (hours fitsYear fitsMonth fitsDay).mpr fitsHours,
      (minutes fitsYear fitsMonth fitsDay fitsHours).mpr fitsMinutes,
      (seconds fitsYear fitsMonth fitsDay fitsHours fitsMinutes).mpr fitsSeconds⟩

/-- The six reads of `load`, for every `DateTime`. -/
theorem date_time_codec_domain (dt : DateTime) :
    (∃ read, decodeDateTime (encodeDateTime dt) = some read) ∧
      (decodeDateTime (encodeDateTime dt) = some dt ↔ InDomain dt) :=
  ⟨decode_encode_total dt, decode_encode_iff dt⟩

end AppchatClient.Cache.DateTimeDomain
