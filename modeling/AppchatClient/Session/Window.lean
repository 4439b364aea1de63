import AppchatClient.Session.Deque

/-!
# The message view

`lwMessages` has rows without content: row `r` is painted with element `r` of
the deque of the current channel. The rows are counted when a channel is
selected and when the event of a live message of the current channel runs. The
deque grows on the io thread, before that event is posted.
-/

namespace AppchatClient.Session.Window

open AppchatClient.Protocol AppchatClient.Io.Handlers AppchatClient.Lib.Runs
open AppchatClient.Cache.Refinement AppchatClient.Session.Receivers AppchatClient.Session.Effects
open AppchatClient.Session.Deque (Link LinkAction)

set_option autoImplicit false

/-- The widget of a channel. Its history pointer is the deque of the name it
was made with. `number` tells widgets of one name apart. -/
structure ChannelWidget where
  number : Nat
  channelName : StdString
deriving DecidableEq, Repr

/-- `channels` is `channels_`; `lwChannels` holds the widget attached to each
item, if there is one; `lwMessages` is the number of rows. -/
structure MainWindow where
  channels : StdString → Option ChannelWidget
  made : Nat
  lwChannels : List (Option ChannelWidget)
  lChannelName : StdString
  lwMessages : Nat

namespace MainWindow

/-- `add_channel`: the assignment to `channels_[name]` destroys the widget that
was there, which Qt takes off its item. -/
def addChannel (window : MainWindow) (name : StdString) : MainWindow :=
  let widget : ChannelWidget := ⟨window.made, name⟩
  { window with
    channels := Function.update window.channels name (some widget)
    made := window.made + 1
    lwChannels :=
      (window.lwChannels.map fun item => if item = window.channels name then none else item) ++
        [some widget] }

def addMessage (window : MainWindow) : MainWindow :=
  { window with lwMessages := window.lwMessages + 1 }

/-- No result where the iterator is `end()`. -/
def messageReceived (window : MainWindow) (msg : MsgText) : Option MainWindow :=
  match window.channels msg.channelName with
  | some _ => some (if window.lChannelName = msg.channelName then window.addMessage else window)
  | none => none

/-- No result where `operator[]` makes a null pointer. -/
def historyReceived (window : MainWindow) (channel : StdString) : Option MainWindow :=
  (window.channels channel).map fun _ => window

def channelSelected (window : MainWindow) (client : Client) (index : Nat) : Option MainWindow :=
  match window.lwChannels[index]? with
  | some (some widget) =>
      some { window with
        lChannelName := widget.channelName
        lwMessages := (deque client widget.channelName).length }
  | _ => none

def history (window : MainWindow) (client : Client) (channel : StdString) :
    Option (List MsgText) :=
  (window.channels channel).map fun widget => deque client widget.channelName

def control (window : MainWindow) : Slot → Option MainWindow
  | .textFromClient msg => window.messageReceived msg
  | .controlJoined channel => some (window.addChannel channel)
  | .controlHistoryReceived channel => window.historyReceived channel
  | .controlChannelsReceived channels => some (channels.foldl addChannel window)
  | _ => some window

end MainWindow

/-- The connection, on which the server may send any frame at any time, and the window. -/
structure Screen where
  link : Link
  window : MainWindow

inductive ScreenAction where
  | send (arrival : Arrival)
  | io
  | slot
  | select (index : Nat)
deriving DecidableEq, Repr

def step (lib : ProtocolLib) (screen : Screen) : ScreenAction → Option Screen
  | .send arrival =>
      some { screen with
        link := { screen.link with
          wire := screen.link.wire ++ [arrival]
          sent := screen.link.sent ++ [arrival] } }
  | .io => (Deque.step lib screen.link .io).map fun link => { screen with link := link }
  | .slot =>
      match screen.link.core.queue with
      | slot :: _ => do
          let link ← Deque.step lib screen.link .slot
          let window ← screen.window.control slot
          some { link := link, window := window }
      | [] => none
  | .select index =>
      (screen.window.channelSelected screen.link.core.client index).map fun window =>
        { screen with window := window }

theorem io_some {lib : ProtocolLib} {before after : Screen}
    (taken : step lib before .io = some after) :
    ∃ arrival rest core, before.link.wire = arrival :: rest ∧
      before.link.core.receive lib arrival = some core ∧
      after = { before with link := { before.link with core := core, wire := rest } } := by
  rcases Option.map_eq_some_iff.mp taken with ⟨link, handled, rfl⟩
  rcases Deque.io_some handled with ⟨arrival, rest, core, frames, received, rfl⟩
  exact ⟨arrival, rest, core, frames, received, rfl⟩

theorem slot_some {lib : ProtocolLib} {before after : Screen}
    (taken : step lib before .slot = some after) :
    ∃ slot rest window, before.link.core.queue = slot :: rest ∧
      before.window.control slot = some window ∧
      after =
        { link := { before.link with
            core := runSlot lib { before.link.core with queue := rest } slot }
          window := window } := by
  simp only [step] at taken
  cases waiting : before.link.core.queue with
  | nil => simp [waiting] at taken
  | cons slot rest =>
      simp only [waiting, Option.bind_eq_bind, Option.bind_eq_some_iff, Option.some.injEq] at taken
      rcases taken with ⟨link, delivered, window, controlled, rfl⟩
      rcases Deque.slot_some delivered with ⟨front, behind, same, rfl⟩
      rw [waiting] at same
      obtain ⟨rfl, rfl⟩ := List.cons.inj same
      exact ⟨slot, rest, window, rfl, controlled, rfl⟩

theorem select_some {lib : ProtocolLib} {before after : Screen} {index : Nat}
    (taken : step lib before (.select index) = some after) :
    ∃ widget, after = { before with window := { before.window with
      lChannelName := widget.channelName
      lwMessages := (deque before.link.core.client widget.channelName).length } } ∧
      before.window.lwChannels[index]? = some (some widget) := by
  rcases Option.map_eq_some_iff.mp taken with ⟨window, selected, rfl⟩
  unfold MainWindow.channelSelected at selected
  split at selected
  · rename_i widget item
    obtain rfl := Option.some.inj selected
    exact ⟨widget, rfl, item⟩
  · cases selected

def Screen.start (cache : History) : Screen where
  link := Link.start cache
  window :=
    { channels := fun _ => none, made := 0, lwChannels := [], lChannelName := [], lwMessages := 0 }

/-- `get_message` finds every row in the history of the current channel. -/
def RowsInHistory (screen : Screen) : Prop :=
  ∀ row < screen.window.lwMessages, ∃ messages,
    screen.window.history screen.link.core.client screen.window.lChannelName = some messages ∧
      row < messages.length

def shows (channel : StdString) : Slot → Bool
  | .textFromClient msg => msg.channelName = channel
  | _ => false

/-- The live messages of a channel that are posted and not yet shown. -/
def unshown (queue : List Slot) (channel : StdString) : Nat := queue.countP (shows channel)

theorem unshown_append (first second : List Slot) (channel : StdString) :
    unshown (first ++ second) channel = unshown first channel + unshown second channel :=
  List.countP_append

theorem unshown_cons (slot : Slot) (rest : List Slot) (channel : StdString) :
    unshown (slot :: rest) channel =
      unshown rest channel + if shows channel slot then 1 else 0 :=
  List.countP_cons

/-- A channel is selected only when all its live messages have been shown. -/
def CalmSelection (screen : Screen) : ScreenAction → Prop
  | .select index => ∀ widget, screen.window.lwChannels[index]? = some (some widget) →
      unshown screen.link.core.queue widget.channelName = 0
  | _ => True

instance (screen : Screen) (action : ScreenAction) : Decidable (CalmSelection screen action) :=
  match action with
  | .select index =>
      match item : screen.window.lwChannels[index]? with
      | some (some widget) =>
          decidable_of_iff (unshown screen.link.core.queue widget.channelName = 0) (by
            simp [CalmSelection, item])
      | some none => isTrue (by simp [CalmSelection, item])
      | none => isTrue (by simp [CalmSelection, item])
  | .send _ => isTrue trivial
  | .io => isTrue trivial
  | .slot => isTrue trivial

structure Listed (window : MainWindow) : Prop where
  named : ∀ name widget, window.channels name = some widget → widget.channelName = name
  attached : ∀ widget, some widget ∈ window.lwChannels →
    window.channels widget.channelName = some widget

structure Counted (screen : Screen) : Prop where
  listed : Listed screen.window
  current : 0 < screen.window.lwMessages →
    (screen.window.channels screen.window.lChannelName).isSome
  rows : screen.window.lwMessages +
      unshown screen.link.core.queue screen.window.lChannelName ≤
    (deque screen.link.core.client screen.window.lChannelName).length

theorem counted_rows_in_history {screen : Screen} (counted : Counted screen) :
    RowsInHistory screen := by
  intro row inside
  have bound := counted.rows
  rcases Option.isSome_iff_exists.mp (counted.current (Nat.zero_lt_of_lt inside)) with
    ⟨widget, found⟩
  refine ⟨deque screen.link.core.client screen.window.lChannelName, ?_, by omega⟩
  rw [MainWindow.history, found, Option.map_some, counted.listed.named _ _ found]

structure Kept (slot : Slot) (window next : MainWindow) : Prop where
  listed : Listed window → Listed next
  found : ∀ name, (window.channels name).isSome → (next.channels name).isSome
  current : next.lChannelName = window.lChannelName
  rows : next.lwMessages =
    window.lwMessages + if shows window.lChannelName slot then 1 else 0
  shown : shows window.lChannelName slot = true → (window.channels window.lChannelName).isSome

theorem add_channel_listed {window : MainWindow} (listed : Listed window) (name : StdString) :
    Listed (window.addChannel name) := by
  constructor
  · intro other widget found
    by_cases same : other = name
    · simp only [MainWindow.addChannel, same, Function.update_self, Option.some.injEq] at found
      rw [← found, same]
    · simp only [MainWindow.addChannel, Function.update_of_ne same] at found
      exact listed.named other widget found
  · intro widget item
    rcases List.mem_append.mp item with earlier | new
    · rcases List.mem_map.mp earlier with ⟨before, member, kept⟩
      split_ifs at kept with detached
      subst kept
      have stored := listed.attached widget member
      have other : widget.channelName ≠ name := by
        intro same
        rw [same] at stored
        exact detached stored.symm
      simp only [MainWindow.addChannel, Function.update_of_ne other]
      exact stored
    · rw [Option.some.inj (List.mem_singleton.mp new)]
      simp [MainWindow.addChannel]

theorem channels_add_channel (window : MainWindow) (name channel : StdString) :
    ((window.addChannel name).channels channel).isSome ↔
      channel = name ∨ (window.channels channel).isSome := by
  by_cases same : channel = name
  · simp [MainWindow.addChannel, same]
  · simp [MainWindow.addChannel, same]

theorem channels_add_channel_all (names : List StdString) (window : MainWindow)
    (channel : StdString) :
    ((names.foldl MainWindow.addChannel window).channels channel).isSome ↔
      channel ∈ names ∨ (window.channels channel).isSome := by
  induction names generalizing window with
  | nil => simp
  | cons name rest ih =>
      rw [List.foldl_cons, ih, channels_add_channel, List.mem_cons]
      tauto

theorem add_channel_all_listed (names : List StdString) {window : MainWindow}
    (listed : Listed window) : Listed (names.foldl MainWindow.addChannel window) := by
  induction names generalizing window with
  | nil => exact listed
  | cons name rest ih => exact ih (add_channel_listed listed name)

theorem add_channel_all_view (names : List StdString) (window : MainWindow) :
    (names.foldl MainWindow.addChannel window).lChannelName = window.lChannelName ∧
      (names.foldl MainWindow.addChannel window).lwMessages = window.lwMessages := by
  induction names generalizing window with
  | nil => exact ⟨rfl, rfl⟩
  | cons name rest ih => exact ih (window.addChannel name)

def addedBy : Slot → List StdString
  | .controlJoined name => [name]
  | .controlChannelsReceived channels => channels
  | _ => []

structure Controlled (slot : Slot) (window next : MainWindow) : Prop where
  channels : next.channels = ((addedBy slot).foldl MainWindow.addChannel window).channels
  items : next.lwChannels = ((addedBy slot).foldl MainWindow.addChannel window).lwChannels
  current : next.lChannelName = window.lChannelName
  rows : next.lwMessages =
    window.lwMessages + if shows window.lChannelName slot then 1 else 0
  shown : shows window.lChannelName slot = true → (window.channels window.lChannelName).isSome

theorem control_some {window next : MainWindow} {slot : Slot}
    (taken : window.control slot = some next) : Controlled slot window next := by
  have adds (names : List StdString) (named : addedBy slot = names)
      (quiet : shows window.lChannelName slot = false) :
      Controlled slot window (names.foldl MainWindow.addChannel window) := by
    have view := add_channel_all_view names window
    exact ⟨by rw [named], by rw [named], view.1, by simp [quiet, view.2], by simp [quiet]⟩
  cases slot with
  | textFromClient msg =>
      simp only [MainWindow.control, MainWindow.messageReceived] at taken
      cases found : window.channels msg.channelName with
      | none => simp [found] at taken
      | some widget =>
          simp only [found, Option.some.injEq] at taken
          subst taken
          by_cases current : window.lChannelName = msg.channelName
          · rw [if_pos current]
            refine ⟨rfl, rfl, rfl, ?_, ?_⟩
            · simp [MainWindow.addMessage, shows, current]
            · simp [current, found]
          · rw [if_neg current]
            exact adds [] rfl (by simp [shows, Ne.symm current])
  | controlJoined name =>
      obtain rfl := Option.some.inj taken
      exact adds [name] rfl rfl
  | controlHistoryReceived name =>
      rcases Option.map_eq_some_iff.mp taken with ⟨widget, -, rfl⟩
      exact adds [] rfl rfl
  | controlChannelsReceived channels =>
      obtain rfl := Option.some.inj taken
      exact adds channels rfl rfl
  | _ =>
      obtain rfl := Option.some.inj taken
      exact adds [] rfl rfl

theorem control_kept {window next : MainWindow} {slot : Slot}
    (taken : window.control slot = some next) : Kept slot window next := by
  have controlled := control_some taken
  refine ⟨?_, ?_, controlled.current, controlled.rows, controlled.shown⟩
  · intro listed
    have kept := add_channel_all_listed (addedBy slot) listed
    constructor
    · rw [controlled.channels]
      exact kept.named
    · rw [controlled.channels, controlled.items]
      exact kept.attached
  · intro name found
    rw [controlled.channels, channels_add_channel_all]
    exact Or.inr found

theorem posted_le_pushed (lib : ProtocolLib) (arrival : Arrival) (channel : StdString) :
    unshown ((signals lib arrival).flatMap connected) channel ≤
      (pushed lib arrival channel).length := by
  rcases arrival with ⟨read, response⟩
  cases read with
  | echoResponse =>
      by_cases same : (lib.parseTextRes response).channelName = channel <;>
        simp [signals, connected, unshown, shows, pushed, same]
  | pbHeader => simp [signals, unshown]
  | inputResponse =>
      cases answer : response.inputResponse <;> simp [signals, answer, connected, unshown, shows]
  | regResponse =>
      cases answer : response.regResponse <;> simp [signals, answer, connected, unshown, shows]
  | joinRoomResponse =>
      cases answer : response.joinRoomResponse with
      | none => simp [signals, answer, unshown]
      | some room =>
          by_cases ok : room.status = .ok <;>
            simp [signals, answer, ok, connected, unshown, shows]
  | historyResponse =>
      cases answer : response.historyResponse <;> simp [signals, answer, connected, unshown, shows]
  | channelsResponse =>
      cases answer : response.channelsResponse <;> simp [signals, answer, connected, unshown, shows]

theorem start_counted (cache : History) : Counted (Screen.start cache) where
  listed := ⟨by simp [Screen.start], by simp [Screen.start]⟩
  current := by simp [Screen.start]
  rows := by simp [Screen.start, Link.start, freshCore, unshown]

theorem send_counted {lib : ProtocolLib} {before after : Screen} {arrival : Arrival}
    (counted : Counted before) (taken : step lib before (.send arrival) = some after) :
    Counted after := by
  obtain rfl := Option.some.inj taken
  exact ⟨counted.listed, counted.current, counted.rows⟩

theorem io_counted {lib : ProtocolLib} {before after : Screen}
    (counted : Counted before) (taken : step lib before .io = some after) : Counted after := by
  rcases io_some taken with ⟨arrival, rest, core, frames, moved, rfl⟩
  have received := receive_received moved
  refine ⟨counted.listed, counted.current, ?_⟩
  have bound := counted.rows
  have posted := posted_le_pushed lib arrival before.window.lChannelName
  simp only [received.queue, unshown_append, received.deque, List.length_append]
  omega

theorem slot_counted {lib : ProtocolLib} {before after : Screen}
    (counted : Counted before) (taken : step lib before .slot = some after) : Counted after := by
  rcases slot_some taken with ⟨slot, rest, window, waiting, controlled, rfl⟩
  have kept := control_kept controlled
  refine ⟨kept.listed counted.listed, ?_, ?_⟩
  · intro someRow
    simp only [kept.current]
    apply kept.found
    by_cases shown : shows before.window.lChannelName slot = true
    · exact kept.shown shown
    · apply counted.current
      have rows := kept.rows
      rw [if_neg shown] at rows
      simp only at someRow
      omega
  · -- The row added and the event removed are the same message.
    have bound := counted.rows
    rw [waiting, unshown_cons] at bound
    simp only [kept.current, kept.rows, run_slot_queue, run_slot_deque, List.length_append]
    omega

theorem select_counted {lib : ProtocolLib} {before after : Screen} {index : Nat}
    (counted : Counted before) (calm : CalmSelection before (.select index))
    (taken : step lib before (.select index) = some after) : Counted after := by
  rcases select_some taken with ⟨widget, rfl, item⟩
  have stored := counted.listed.attached widget (List.mem_of_getElem? item)
  refine ⟨⟨counted.listed.named, counted.listed.attached⟩, ?_, ?_⟩
  · intro _
    simp [stored]
  · simp [calm widget item]

theorem step_counted {lib : ProtocolLib} {before after : Screen} {action : ScreenAction}
    (counted : Counted before) (calm : CalmSelection before action)
    (taken : step lib before action = some after) : Counted after := by
  cases action with
  | send arrival => exact send_counted counted taken
  | io => exact io_counted counted taken
  | slot => exact slot_counted counted taken
  | select index => exact select_counted counted calm taken

/-- In every run in which channels are selected only while none of their live
messages is waiting to be shown. -/
theorem rows_in_history_when_calm (lib : ProtocolLib) (cache : History)
    {actions : List ScreenAction}
    (calm : EveryStep (step lib) CalmSelection (Screen.start cache) actions) :
    EveryState (step lib) RowsInHistory (Screen.start cache) actions := by
  have counted := guarded_invariant (step lib) (start_counted cache)
    (fun _ _ _ held calm taken => step_counted held calm taken) calm
  exact every_state_mono (step lib) (fun _ => counted_rows_in_history) counted

open AppchatClient.Session.Deque (joinedRoom echoHello)

def messageArrives : List ScreenAction :=
  [.send joinedRoom, .io, .slot, .slot, .send echoHello, .io]

theorem rows_in_history_when_calm_sample :
    EveryState (step chatLib) RowsInHistory (Screen.start Lib.AppendMap.Multimap.empty)
      (messageArrives ++ [.slot, .slot, .select 0]) :=
  rows_in_history_when_calm chatLib Lib.AppendMap.Multimap.empty
    (every_step_of_steps_meet (step chatLib) (by decide))

/-- Selected between the push to the deque and the event: the message has two rows. -/
theorem row_past_history :
    ¬ EveryState (step chatLib) RowsInHistory (Screen.start Lib.AppendMap.Multimap.empty)
      (messageArrives ++ [.select 0, .slot]) := by
  intro inside
  have fields : (run (step chatLib) (Screen.start Lib.AppendMap.Multimap.empty)
      (messageArrives ++ [.select 0, .slot])).map (fun screen =>
        (screen.window.lwMessages,
          (screen.window.history screen.link.core.client screen.window.lChannelName).map
            List.length)) =
      some (2, some 1) := by
    decide
  rcases last_state (step chatLib) inside fields with ⟨reached, values, rowsInside⟩
  simp only [Prod.mk.injEq] at values
  rcases values with ⟨rows, size⟩
  rcases rowsInside 1 (by omega) with ⟨messages, found, bound⟩
  rw [found] at size
  simp only [Option.map_some, Option.some.injEq] at size
  omega

end AppchatClient.Session.Window
