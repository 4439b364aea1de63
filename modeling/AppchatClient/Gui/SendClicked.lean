import AppchatClient.Lib.Runs
import AppchatClient.Lib.Basics
import AppchatClient.Protocol

/-!
# The time of a message

`get_current_DateTime` reads the date and then the time of day. The clock can
pass midnight between the two readings, and the message then gets the time of
the new day with the date of the old one.
-/

namespace AppchatClient.Gui.SendClicked

open AppchatClient.Protocol AppchatClient.Lib.Runs AppchatClient.Lib.TornRead

set_option autoImplicit false

def dateFields (date : Date) : List Int := [date.year, date.month, date.day]

def timeFields (time : Time) : List Int := [time.hours, time.minutes, time.seconds]

theorem date_fields_injective : Function.Injective dateFields := by
  rintro ⟨_, _, _⟩ ⟨_, _, _⟩ same
  simpa [dateFields] using same

theorem time_fields_injective : Function.Injective timeFields := by
  rintro ⟨_, _, _⟩ ⟨_, _, _⟩ same
  simpa [timeFields] using same

instance : LinearOrder Date := LinearOrder.lift' dateFields date_fields_injective

instance : LinearOrder Time := LinearOrder.lift' timeFields time_fields_injective

def parts (dt : DateTime) : Date ×ₗ Time := toLex (dt.date, dt.time)

theorem le_iff_parts_le (first second : DateTime) :
    first ≤ second ↔ parts first ≤ parts second := by
  have dates : first.date < second.date ↔
      dateFields first.date < dateFields second.date := Iff.rfl
  have times : first.time ≤ second.time ↔
      timeFields first.time ≤ timeFields second.time := Iff.rfl
  have fields : first ≤ second ↔
      dateFields first.date ++ timeFields first.time ≤
        dateFields second.date ++ timeFields second.time := Iff.rfl
  have same : first.date = second.date ↔ dateFields first.date = dateFields second.date :=
    date_fields_injective.eq_iff.symm
  have size : (dateFields first.date).length = (dateFields second.date).length := rfl
  rw [parts, parts, Prod.Lex.toLex_le_toLex, fields, dates, times, same]
  exact append_le_append_iff size (timeFields first.time) (timeFields second.time)

def isLeapYear (year : Int) : Bool := year % 4 = 0 ∧ (year % 100 = 0 → year % 400 = 0)

def daysInMonth (year month : Int) : Int :=
  if month = 2 then if isLeapYear year then 29 else 28
  else if month ∈ [4, 6, 9, 11] then 30
  else 31

structure OnCalendar (dt : DateTime) : Prop where
  month : 1 ≤ dt.date.month ∧ dt.date.month ≤ 12
  day : 1 ≤ dt.date.day ∧ dt.date.day ≤ daysInMonth dt.date.year dt.date.month
  hours : 0 ≤ dt.time.hours ∧ dt.time.hours < 24
  minutes : 0 ≤ dt.time.minutes ∧ dt.time.minutes < 60
  seconds : 0 ≤ dt.time.seconds ∧ dt.time.seconds < 60

/-- What the local clock shows. -/
abbrev Instant := { dt : DateTime // OnCalendar dt }

def currentDate (now : Instant) : Date := now.val.date

def currentTime (now : Instant) : Time := now.val.time

/-- `get_current_DateTime`, with the instants of its two readings. -/
def getCurrentDateTime (dateRead timeRead : Instant) : DateTime :=
  let cd := currentDate dateRead
  let ct := currentTime timeRead
  { date := { day := cd.day, month := cd.month, year := cd.year }
    time := { seconds := ct.seconds, minutes := ct.minutes, hours := ct.hours } }

/-- The instants of one call: its start, the two readings and its end. The
clock advances between them as it likes. -/
structure Call where
  start : Instant
  dateRead : Instant
  timeRead : Instant
  stop : Instant
  dateAfterStart : start ≤ dateRead
  timeAfterDate : dateRead ≤ timeRead
  stopAfterTime : timeRead ≤ stop

structure Sent where
  msg : MsgText
  start : Instant
  stop : Instant

/-- What `send_clicked` uses of `MainWindow`, the clock, and the messages sent. -/
structure Composer where
  login : StdString
  teMessage : StdString
  lChannelName : StdString
  now : Instant
  sent : List Sent

def Composer.start (now : Instant) : Composer where
  login := []
  teMessage := []
  lChannelName := []
  now := now
  sent := []

def sendClicked (composer : Composer) (call : Call) : Composer :=
  if composer.teMessage = [] then { composer with now := call.stop }
  else
    let msg : MsgText :=
      { author := composer.login
        text := composer.teMessage
        channelName := composer.lChannelName
        dt := getCurrentDateTime call.dateRead call.timeRead }
    { composer with
      sent := composer.sent ++ [⟨msg, call.start, call.stop⟩]
      teMessage := []
      now := call.stop }

/-- Between the calls the user writes a text or selects a channel. -/
inductive ComposerAction where
  | setLogin (login : StdString)
  | write (text : StdString)
  | select (channel : StdString)
  | sendClicked (call : Call)

/-- A call starts when the clock has reached the end of the one before. -/
def step (composer : Composer) : ComposerAction → Option Composer
  | .setLogin login => some { composer with login := login }
  | .write text => some { composer with teMessage := text }
  | .select channel => some { composer with lChannelName := channel }
  | .sendClicked call =>
      if composer.now ≤ call.start then some (sendClicked composer call) else none

/-- Each time stamp lies within its call, and none is before the one before it. -/
structure StampsSound (sent : List Sent) : Prop where
  within : ∀ entry ∈ sent, entry.start.val ≤ entry.msg.dt ∧ entry.msg.dt ≤ entry.stop.val
  ordered : sent.Pairwise fun earlier later => earlier.msg.dt ≤ later.msg.dt

/-- In a call that sends, the date has advanced before it was read, or the time
of day that was read is not before that of the start. -/
def ReadTogether (composer : Composer) : ComposerAction → Prop
  | .sendClicked call => composer.teMessage = [] ∨
      call.start.val.date < call.dateRead.val.date ∨ call.start.val.time ≤ call.timeRead.val.time
  | _ => True

def Past (composer : Composer) : Prop := ∀ entry ∈ composer.sent, entry.msg.dt ≤ composer.now.val

theorem parts_get_current (dateRead timeRead : Instant) :
    parts (getCurrentDateTime dateRead timeRead) = torn (parts dateRead.val) (parts timeRead.val) :=
  rfl

theorem stamp_le_time_read (call : Call) :
    getCurrentDateTime call.dateRead call.timeRead ≤ call.timeRead.val := by
  rw [le_iff_parts_le, parts_get_current]
  apply torn_le
  exact (le_iff_parts_le _ _).mp call.timeAfterDate

theorem stamp_le_stop (call : Call) :
    getCurrentDateTime call.dateRead call.timeRead ≤ call.stop.val :=
  le_trans (stamp_le_time_read call) call.stopAfterTime

theorem start_le_stamp_iff (call : Call) :
    call.start.val ≤ getCurrentDateTime call.dateRead call.timeRead ↔
      call.start.val.date < call.dateRead.val.date ∨
        call.start.val.time ≤ call.timeRead.val.time := by
  rw [le_iff_parts_le, parts_get_current]
  exact le_torn_iff ((le_iff_parts_le _ _).mp call.dateAfterStart) _

theorem sound_append_iff {sent : List Sent} {entry : Sent}
    (after : ∀ earlier ∈ sent, earlier.msg.dt ≤ entry.start.val)
    (ended : entry.msg.dt ≤ entry.stop.val) :
    StampsSound (sent ++ [entry]) ↔ StampsSound sent ∧ entry.start.val ≤ entry.msg.dt := by
  constructor
  · intro sound
    have last := sound.within entry (List.mem_append_right _ (List.mem_singleton_self entry))
    refine ⟨⟨?_, ?_⟩, last.1⟩
    · intro earlier member
      exact sound.within earlier (List.mem_append_left _ member)
    · exact (List.pairwise_append.mp sound.ordered).1
  · rintro ⟨sound, started⟩
    constructor
    · intro other member
      rcases List.mem_append.mp member with earlier | new
      · exact sound.within other earlier
      · obtain rfl := List.mem_singleton.mp new
        exact ⟨started, ended⟩
    · apply List.pairwise_append.mpr
      refine ⟨sound.ordered, List.pairwise_singleton _ entry, ?_⟩
      intro earlier member later new
      obtain rfl := List.mem_singleton.mp new
      exact le_trans (after earlier member) started

variable {before after : Composer} {action : ComposerAction}

theorem step_past (past : Past before) (taken : step before action = some after) :
    Past after := by
  cases action with
  | sendClicked call =>
      simp only [step] at taken
      split_ifs at taken with begun
      obtain rfl := Option.some.inj taken
      have later : before.now ≤ call.stop :=
        begun.trans (call.dateAfterStart.trans (call.timeAfterDate.trans call.stopAfterTime))
      intro entry member
      by_cases empty : before.teMessage = []
      · simp only [sendClicked, empty, if_true] at member ⊢
        exact le_trans (past entry member) later
      · simp only [sendClicked, empty, if_false] at member ⊢
        rcases List.mem_append.mp member with earlier | new
        · exact le_trans (past entry earlier) later
        · rw [List.mem_singleton.mp new]
          exact stamp_le_stop call
  | _ =>
      obtain rfl := Option.some.inj taken
      exact past

theorem step_sound_iff (past : Past before) (taken : step before action = some after) :
    StampsSound after.sent ↔ StampsSound before.sent ∧ ReadTogether before action := by
  cases action with
  | sendClicked call =>
      simp only [step] at taken
      split_ifs at taken with begun
      obtain rfl := Option.some.inj taken
      by_cases empty : before.teMessage = []
      · simp [sendClicked, ReadTogether, empty]
      · have earlier (entry : Sent) (member : entry ∈ before.sent) :
            entry.msg.dt ≤ call.start.val := le_trans (past entry member) begun
        simp only [sendClicked, ReadTogether, empty, if_false, false_or]
        rw [sound_append_iff earlier (stamp_le_stop call), start_le_stamp_iff]
  | _ =>
      obtain rfl := Option.some.inj taken
      simp [ReadTogether]

/-- For every clock and every sequence of calls, whatever the user does between them. -/
theorem stamps_sound_iff_read_together (now : Instant) (actions : List ComposerAction) :
    EveryState step (fun composer => StampsSound composer.sent) (Composer.start now) actions ↔
      EveryStep step ReadTogether (Composer.start now) actions := by
  have initial : Past (Composer.start now) := by simp [Past, Composer.start]
  have sound : StampsSound (Composer.start now).sent :=
    ⟨by simp [Composer.start], List.Pairwise.nil⟩
  have kept (before : Composer) (action : ComposerAction) (after : Composer)
      (past : Past before) (taken : step before action = some after) := step_past past taken
  have changes (before : Composer) (action : ComposerAction) (after : Composer)
      (past : Past before) (taken : step before action = some after) := step_sound_iff past taken
  exact every_state_iff_every_step step initial kept sound changes actions

def lastSecond : Instant :=
  ⟨⟨⟨2023, 12, 31⟩, ⟨23, 59, 59⟩⟩, by constructor <;> decide⟩

def newYear : Instant :=
  ⟨⟨⟨2024, 1, 1⟩, ⟨0, 0, 0⟩⟩, by constructor <;> decide⟩

def beforeMidnight : Call where
  start := lastSecond
  dateRead := lastSecond
  timeRead := lastSecond
  stop := lastSecond
  dateAfterStart := by decide
  timeAfterDate := by decide
  stopAfterTime := by decide

def acrossMidnight : Call where
  start := lastSecond
  dateRead := lastSecond
  timeRead := newYear
  stop := newYear
  dateAfterStart := by decide
  timeAfterDate := by decide
  stopAfterTime := by decide

def twoMessages : List ComposerAction :=
  [.write "one".toList, .sendClicked beforeMidnight, .write "two".toList,
    .sendClicked acrossMidnight]

/-- The second message gets the midnight at which its day began. -/
theorem midnight_between_readings :
    ¬ EveryState step (fun composer => StampsSound composer.sent) (Composer.start lastSecond)
      twoMessages := by
  intro sound
  have fields : (run step (Composer.start lastSecond) twoMessages).map (fun composer =>
      composer.sent.map fun entry => entry.msg.dt) =
      some [⟨⟨2023, 12, 31⟩, ⟨23, 59, 59⟩⟩, ⟨⟨2023, 12, 31⟩, ⟨0, 0, 0⟩⟩] := by
    decide
  rcases last_state step sound fields with ⟨reached, stamps, last⟩
  have ordered := List.pairwise_map.mpr last.ordered
  rw [stamps] at ordered
  revert ordered
  decide

end AppchatClient.Gui.SendClicked
