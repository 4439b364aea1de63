import AppchatClient.Session.Window
import AppchatClient.Session.Exchange

/-!
# The channels of the window

`channels_` is filled by `Control`'s slots of a join answer and of a channel
list, and never loses a name. A slot that looks a channel up finds it if such a
slot for the channel was ahead of it: always for a history answer, since the
request was built behind one, but not for a live message, since the deque can
come from the cache.
-/

namespace AppchatClient.Session.ChannelMap

open AppchatClient.Protocol AppchatClient.Io.Handlers AppchatClient.Lib.Runs
open AppchatClient.Cache.Refinement AppchatClient.Session.Receivers AppchatClient.Session.Effects
open AppchatClient.Session.Deque (echoChannel joinedRoom echoHello hello)
open AppchatClient.Session.Server (cutOffs inputAnswer)
open AppchatClient.Session.Exchange (historyOf historyChannel askedFor)
open AppchatClient.Session.Window

set_option autoImplicit false

variable {lib : ProtocolLib} {before after : Screen}

def adds : Slot → StdString → Prop
  | .controlJoined name, channel => channel = name
  | .controlChannelsReceived channels, channel => channel ∈ channels
  | _, _ => False

theorem adds_iff_added (slot : Slot) (channel : StdString) :
    adds slot channel ↔ channel ∈ addedBy slot := by
  cases slot with
  | controlJoined name => exact List.mem_singleton.symm
  | controlChannelsReceived channels => rfl
  | _ => simp [adds, addedBy]

theorem control_channels {window next : MainWindow} {slot : Slot}
    (taken : window.control slot = some next) (channel : StdString) :
    (next.channels channel).isSome ↔ adds slot channel ∨ (window.channels channel).isSome := by
  rw [(control_some taken).channels, channels_add_channel_all, adds_iff_added]

def Found (screen : Screen) (channel : StdString) : Prop :=
  (screen.window.channels channel).isSome

def Adds (channel : StdString) (screen : Screen) : ScreenAction → Prop
  | .slot => ∃ slot rest, screen.link.core.queue = slot :: rest ∧ adds slot channel
  | _ => False

theorem step_found {action : ScreenAction} (channel : StdString)
    (taken : step lib before action = some after) :
    Found after channel ↔ Adds channel before action ∨ Found before channel := by
  cases action with
  | send arrival =>
      obtain rfl := Option.some.inj taken
      simp [Found, Adds]
  | io =>
      rcases io_some taken with ⟨arrival, rest, core, -, -, rfl⟩
      simp [Found, Adds]
  | slot =>
      rcases slot_some taken with ⟨slot, rest, window, waiting, controlled, rfl⟩
      have next : Adds channel before .slot ↔ adds slot channel := by simp [Adds, waiting]
      rw [next]
      exact control_channels controlled channel
  | select index =>
      rcases select_some taken with ⟨widget, rfl, -⟩
      simp [Found, Adds]

/-- `message_received` does not dereference `end()`. -/
def MessageFindsChannel (screen : Screen) : Prop :=
  ∀ msg rest, screen.link.core.queue = .textFromClient msg :: rest →
    Found screen msg.channelName

/-- Whenever `message_received` is about to run, a slot before it has added
the channel of its message. -/
def AddedInTime (lib : ProtocolLib) (first : Screen) (actions : List ScreenAction) : Prop :=
  ∀ done reached msg rest, done <+: actions → run (step lib) first done = some reached →
    reached.link.core.queue = .textFromClient msg :: rest →
      Happened (step lib) (Adds msg.channelName) first done

theorem found_iff_added (cache : History) (channel : StdString) {actions : List ScreenAction}
    {reached : Screen} (ran : run (step lib) (Screen.start cache) actions = some reached) :
    Found reached channel ↔
      Happened (step lib) (Adds channel) (Screen.start cache) actions := by
  have initial : ¬ Found (Screen.start cache) channel := by simp [Found, Screen.start]
  have changes (before : Screen) (action : ScreenAction) (after : Screen)
      (taken : step lib before action = some after) :=
    step_found channel taken
  exact raised_iff_happened (step lib) initial changes ran

/-- In every run of the connection, whatever the server sends. -/
theorem message_finds_channel_iff_added (lib : ProtocolLib) (cache : History)
    (actions : List ScreenAction) :
    EveryState (step lib) MessageFindsChannel (Screen.start cache) actions ↔
      AddedInTime lib (Screen.start cache) actions := by
  constructor
  · intro finds done reached msg rest inside ran front
    exact (found_iff_added cache msg.channelName ran).mp
      (finds done reached inside ran msg rest front)
  · intro added done reached inside ran msg rest front
    exact (found_iff_added cache msg.channelName ran).mpr
      (added done reached msg rest inside ran front)

def joinedChannel (arrival : Arrival) : Option StdString :=
  if arrival.read = .joinRoomResponse then
    arrival.response.joinRoomResponse.bind fun answer =>
      if answer.status = .ok then some answer.channelName else none
  else none

def listOf (arrival : Arrival) : Option (List StdString) :=
  if arrival.read = .channelsResponse then arrival.response.channelsResponse else none

/-- A live message is for a channel of the user, and a channel list has them all. -/
def Promised (lib : ProtocolLib) (members : List StdString) (screen : Screen) :
    ScreenAction → Prop
  | .send arrival =>
      let joined := members ++ screen.link.sent.filterMap joinedChannel
      (∀ channel ∈ echoChannel lib arrival, channel ∈ joined) ∧
        ∀ channels ∈ listOf arrival, ∀ channel ∈ joined, channel ∈ channels
  | _ => True

instance (members : List StdString) (screen : Screen) (action : ScreenAction) :
    Decidable (Promised lib members screen action) :=
  match action with
  | .send _ => inferInstanceAs (Decidable (_ ∧ _))
  | .io => isTrue trivial
  | .slot => isTrue trivial
  | .select _ => isTrue trivial

/-- `history_received` does not dereference a null widget. -/
def HistoryFindsChannel (screen : Screen) : Prop :=
  ∀ channel rest, screen.link.core.queue = .controlHistoryReceived channel :: rest →
    Found screen channel

/-- A history answer is for a channel whose history was requested. -/
def Answers (screen : Screen) : ScreenAction → Prop
  | .send arrival =>
      ∀ channel ∈ historyChannel arrival, askedFor screen.link.core.toServer channel = true
  | _ => True

instance (screen : Screen) (action : ScreenAction) : Decidable (Answers screen action) :=
  match action with
  | .send arrival =>
      inferInstanceAs (Decidable (∀ channel ∈ historyChannel arrival,
        askedFor screen.link.core.toServer channel = true))
  | .io => isTrue trivial
  | .slot => isTrue trivial
  | .select _ => isTrue trivial

/-- The channels that have to be in `channels_` when the slot runs: what it
looks up, and what it requests the history of. -/
def needs : Slot → List StdString
  | .controlHistoryReceived channel => [channel]
  | slot => cutOffs slot

/-- Each slot of the queue finds its channels, given those that are found now
and those that the slots ahead of it add. -/
def Covered (found : StdString → Prop) : List Slot → Prop
  | [] => True
  | slot :: rest =>
      (∀ channel ∈ needs slot, found channel) ∧
        Covered (fun channel => adds slot channel ∨ found channel) rest

theorem covered_mono {weaker stronger : StdString → Prop}
    (implies : ∀ channel, weaker channel → stronger channel) {queue : List Slot}
    (covered : Covered weaker queue) : Covered stronger queue := by
  induction queue generalizing weaker stronger with
  | nil => trivial
  | cons slot rest ih =>
      constructor
      · intro channel member
        exact implies channel (covered.1 channel member)
      · apply ih _ covered.2
        intro channel known
        exact known.imp_right (implies channel)

theorem covered_append {found : StdString → Prop} {first second : List Slot}
    (covered : Covered found first) (later : Covered found second) :
    Covered found (first ++ second) := by
  induction first generalizing found with
  | nil => exact later
  | cons slot rest ih =>
      constructor
      · exact covered.1
      · exact ih covered.2 (covered_mono (fun _ known => Or.inr known) later)

/-- `Control`'s slot of a signal adds the channels that `HistoryCacher`'s needs. -/
theorem posted_covered {found : StdString → Prop} {arrival : Arrival}
    (answered : ∀ channel ∈ historyChannel arrival, found channel) :
    Covered found ((signals lib arrival).flatMap connected) := by
  rcases arrival with ⟨read, response⟩
  cases read with
  | pbHeader => trivial
  | inputResponse =>
      cases answer : response.inputResponse <;>
        simp [signals, answer, connected, Covered, needs, cutOffs]
  | regResponse =>
      cases answer : response.regResponse <;>
        simp [signals, answer, connected, Covered, needs, cutOffs]
  | joinRoomResponse =>
      cases answer : response.joinRoomResponse with
      | none => simp [signals, answer, Covered]
      | some join =>
          by_cases ok : join.status = .ok <;>
            simp [signals, answer, ok, connected, Covered, needs, cutOffs, adds]
  | echoResponse => simp [signals, connected, Covered, needs, cutOffs]
  | historyResponse =>
      cases answer : response.historyResponse with
      | none => simp [signals, answer, Covered]
      | some history =>
          have known : found history.channelName :=
            answered history.channelName (by simp [historyChannel, historyOf, answer])
          simp [signals, answer, connected, Covered, needs, cutOffs, known]
  | channelsResponse =>
      cases answer : response.channelsResponse with
      | none => simp [signals, answer, Covered]
      | some channels =>
          simp only [signals, answer, connected, List.flatMap_cons, List.flatMap_nil,
            List.append_nil, Covered, needs, cutOffs, adds]
          refine ⟨by simp, ?_, trivial⟩
          intro channel member
          exact Or.inl member

/-- Every channel in a request, in an answer or in an event is in `channels_`
or about to be added. -/
structure Known (screen : Screen) : Prop where
  requested : ∀ channel, askedFor screen.link.core.toServer channel = true → Found screen channel
  wire : ∀ arrival ∈ screen.link.wire, ∀ channel ∈ historyChannel arrival, Found screen channel
  queue : Covered (Found screen) screen.link.core.queue

theorem start_known (cache : History) : Known (Screen.start cache) where
  requested := by simp [Screen.start, Deque.Link.start, freshCore, askedFor]
  wire := by simp [Screen.start, Deque.Link.start]
  queue := trivial

theorem asked_for_append (first second : List Request) (channel : StdString) :
    askedFor (first ++ second) channel = (askedFor first channel || askedFor second channel) :=
  List.any_append

theorem requested_needs {core : Core} {slot : Slot} {channel : StdString}
    (asked : askedFor (requested lib core slot) channel = true) : channel ∈ needs slot := by
  cases slot with
  | onAuthorized code =>
      by_cases authorised : code = .autorOK <;> simp [requested, authorised, askedFor] at asked
  | onJoined name =>
      simp only [requested, askedFor, List.any_cons, List.any_nil, Bool.or_false,
        decide_eq_true_eq] at asked
      simp [needs, cutOffs, asked]
  | onChannelsReceived names =>
      simp only [requested, askedFor, List.any_map, List.any_eq_true, Function.comp_apply,
        decide_eq_true_eq] at asked
      rcases asked with ⟨name, member, rfl⟩
      exact member
  | _ => simp [requested, askedFor] at asked

theorem io_known (known : Known before) (taken : step lib before .io = some after) :
    Known after := by
  rcases io_some taken with ⟨arrival, rest, core, frames, moved, rfl⟩
  have effect := receive_received moved
  have wire := known.wire
  rw [frames] at wire
  constructor
  · intro channel asked
    apply known.requested channel
    rw [← effect.toServer]
    exact asked
  · exact fun frame member => wire frame (List.mem_cons_of_mem _ member)
  · simp only [effect.queue]
    exact covered_append known.queue (posted_covered (wire arrival (List.mem_cons_self ..)))

theorem slot_known (known : Known before) (taken : step lib before .slot = some after) :
    Known after := by
  have found (channel : StdString) (held : Found before channel) : Found after channel :=
    (step_found channel taken).mpr (Or.inr held)
  rcases slot_some taken with ⟨slot, rest, window, waiting, controlled, rfl⟩
  have covered := known.queue
  rw [waiting] at covered
  constructor
  · intro channel asked
    apply found channel
    simp only [run_slot_to_server, asked_for_append, Bool.or_eq_true] at asked
    rcases asked with earlier | new
    · exact known.requested channel earlier
    · exact covered.1 channel (requested_needs new)
  · intro frame member channel history
    exact found channel (known.wire frame member channel history)
  · simp only [run_slot_queue]
    apply covered_mono _ covered.2
    intro channel
    exact (control_channels controlled channel).mpr

theorem step_known {action : ScreenAction} (known : Known before)
    (answers : Answers before action) (taken : step lib before action = some after) :
    Known after := by
  cases action with
  | send arrival =>
      obtain rfl := Option.some.inj taken
      refine ⟨known.requested, ?_, known.queue⟩
      intro frame member channel history
      rcases List.mem_append.mp member with earlier | new
      · exact known.wire frame earlier channel history
      · rw [List.mem_singleton.mp new] at history
        exact known.requested channel (answers channel history)
  | io => exact io_known known taken
  | slot => exact slot_known known taken
  | select index =>
      rcases select_some taken with ⟨widget, rfl, -⟩
      exact ⟨known.requested, known.wire, known.queue⟩

theorem history_finds_channel (lib : ProtocolLib) (cache : History) {actions : List ScreenAction}
    (answers : EveryStep (step lib) Answers (Screen.start cache) actions) :
    EveryState (step lib) HistoryFindsChannel (Screen.start cache) actions := by
  have invariant := guarded_invariant (step lib) (start_known cache)
    (fun _ _ _ known answers taken => step_known known answers taken) answers
  intro done reached inside ran channel rest front
  have covered := (invariant done reached inside ran).queue
  rw [front] at covered
  exact covered.1 channel (List.mem_singleton_self channel)

theorem history_finds_channel_sample :
    EveryState (step chatLib) HistoryFindsChannel (Screen.start Lib.AppendMap.Multimap.empty)
      [.send joinedRoom, .io, .slot, .slot, .send (Server.historyAnswer room [hello]), .io] :=
  history_finds_channel chatLib Lib.AppendMap.Multimap.empty
    (every_step_of_steps_meet (step chatLib) (by decide))

open AppchatClient.Session.Exchange (oneRow)

/-- The deque of a room comes from the cache, and a message of the room arrives
before the channel list. -/
def echoBeforeList : List ScreenAction :=
  [.send (inputAnswer 7), .io, .slot, .slot, .send echoHello, .io]

theorem echo_before_channel_list :
    EveryStep (step chatLib) (Promised chatLib [room]) (Screen.start oneRow) echoBeforeList ∧
      ¬ EveryState (step chatLib) MessageFindsChannel (Screen.start oneRow) echoBeforeList := by
  constructor
  · exact every_step_of_steps_meet (step chatLib) (by decide)
  · intro finds
    have fields : (run (step chatLib) (Screen.start oneRow) echoBeforeList).map (fun screen =>
        (screen.link.core.queue, screen.window.channels room)) =
        some ([.textFromClient hello, .onMessageReceived hello], none) := by
      decide
    rcases last_state (step chatLib) finds fields with ⟨reached, values, findsChannel⟩
    simp only [Prod.mk.injEq] at values
    rcases values with ⟨front, missing⟩
    have found := findsChannel hello _ front
    have same : hello.channelName = room := rfl
    rw [Found, same, missing] at found
    cases found

end AppchatClient.Session.ChannelMap
