import AppchatClient.Lib.SharedCells
import AppchatClient.Session.Entries

/-!
# The deques behind the pointers

`m_channels_history` maps a channel to a shared pointer. `get_ptr_history`
hands the pointer out, and the entry of the channel keeps it: from then on the
io thread appends through the map while the window reads through the copy. The
models of the session look the deque up by the name of the channel instead.
Here every deque has an address, and each place of the source goes through the
pointer that it really has.
-/

namespace AppchatClient.Session.Pointers

open AppchatClient.Protocol AppchatClient.Io.Handlers AppchatClient.Lib.Runs
open AppchatClient.Lib.SharedCells AppchatClient.Cache.Refinement
open AppchatClient.Session.Receivers AppchatClient.Session.Effects
open AppchatClient.Session.Window (ScreenAction ChannelWidget MainWindow)
open AppchatClient.Session.Entries (Labels updateDisplayedMsg)

set_option autoImplicit false

/-- `Client` with the pointers of `m_channels_history`. -/
structure PtrClient where
  sockOpen : Bool
  reads : List Read
  readBuffer : Bytes
  binBuffer : Bytes
  clientId : Option Identifier
  mChannelsHistory : SharedMap StdString (List MsgText)
  emitted : List Signal

namespace PtrClient

/-- The client with the deques in place of the pointers. -/
def view (client : PtrClient) : Client where
  sockOpen := client.sockOpen
  reads := client.reads
  readBuffer := client.readBuffer
  binBuffer := client.binBuffer
  clientId := client.clientId
  mChannelsHistory := client.mChannelsHistory.view
  emitted := client.emitted

def take (client : PtrClient) (changed : Client) : PtrClient where
  sockOpen := changed.sockOpen
  reads := changed.reads
  readBuffer := changed.readBuffer
  binBuffer := changed.binBuffer
  clientId := changed.clientId
  mChannelsHistory := client.mChannelsHistory
  emitted := changed.emitted

def deref (client : PtrClient) (pointer : Nat) : List MsgText :=
  client.mChannelsHistory.cells pointer

def getPtrHistory (client : PtrClient) (channel : StdString) : Nat × PtrClient :=
  let found := client.mChannelsHistory.findOrMake channel []
  (found.1, { client with mChannelsHistory := found.2 })

def insertAtEnd (client : PtrClient) (pointer : Nat) (messages : List MsgText) : PtrClient :=
  { client with
    mChannelsHistory := client.mChannelsHistory.modify pointer fun deque => deque ++ messages }

def tryEmplace (client : PtrClient) (channel : StdString) : PtrClient :=
  { client with mChannelsHistory := client.mChannelsHistory.tryEmplace channel [] }

/-- `m_channels_history[channel]->push_back(msg)`, without a result on a null pointer. -/
def pushBack (client : PtrClient) (channel : StdString) (msg : MsgText) : Option PtrClient :=
  (client.mChannelsHistory.pointers channel).map fun pointer => client.insertAtEnd pointer [msg]

end PtrClient

def onEchoResponse (lib : ProtocolLib) (client : PtrClient) (response : Response) :
    Option PtrClient :=
  let msg := lib.parseTextRes response
  (client.pushBack msg.channelName msg).map fun pushed =>
    pushed.take (pushed.view.emit (.sendText msg)).asyncReadPbHeader

def onHistoryResponse (client : PtrClient) (response : Response) : Option PtrClient :=
  match response.historyResponse with
  | some answer => do
      let stored ← answer.messages.foldlM
        (fun current msg => (current.tryEmplace answer.channelName).pushBack answer.channelName msg)
        client
      some (stored.take
        ((stored.view.emit (.historyReceived answer.channelName answer.messages)).emit
          .sigUpdateChannels).asyncReadPbHeader)
  | none => some (client.take client.view.closeConnection)

/-- The other four handlers do not name the map. -/
def onBody (lib : ProtocolLib) (client : PtrClient) (arrival : Arrival) : Option PtrClient :=
  match arrival.read with
  | .echoResponse => onEchoResponse lib client arrival.response
  | .historyResponse => onHistoryResponse client arrival.response
  | _ => (Receivers.onBody lib client.view arrival).map client.take

/-- A `ChannelWidget` with its `history_`. -/
structure PtrWidget where
  number : Nat
  channelName : StdString
  history : Nat
deriving DecidableEq, Repr

structure PtrWindow where
  channels : StdString → Option PtrWidget
  made : Nat
  lwChannels : List (Option PtrWidget)
  lChannelName : StdString
  lwMessages : Nat

/-- The whole program behind the login: both threads, the window and the labels
of its entries. -/
structure Program where
  client : PtrClient
  cache : History
  queue : List Slot
  toServer : List Request
  wire : List Arrival
  sent : List Arrival
  window : PtrWindow
  labels : Nat → Labels

namespace Program

def addChannel (program : Program) (name : StdString) (history : Nat) : Program :=
  let window := program.window
  let widget : PtrWidget := ⟨window.made, name, history⟩
  { program with
    window := { window with
      channels := Function.update window.channels name (some widget)
      made := window.made + 1
      lwChannels :=
        (window.lwChannels.map fun item => if item = window.channels name then none else item) ++
          [some widget] }
    labels := Function.update program.labels window.made
      (updateDisplayedMsg (program.client.deref history) Labels.initial) }

/-- `Control::joined`, and the body of the loop in `Control::channels_received`. -/
def listChannel (program : Program) (channel : StdString) : Program :=
  let found := program.client.getPtrHistory channel
  { program with client := found.2 }.addChannel channel found.1

def update (program : Program) (widget : PtrWidget) : Program :=
  { program with
    labels := Function.update program.labels widget.number
      (updateDisplayedMsg (program.client.deref widget.history) (program.labels widget.number)) }

def messageReceived (program : Program) (msg : MsgText) : Option Program :=
  (program.window.channels msg.channelName).map fun widget =>
    let updated := program.update widget
    if updated.window.lChannelName = msg.channelName then
      { updated with
        window := { updated.window with lwMessages := updated.window.lwMessages + 1 } }
    else updated

def historyReceived (program : Program) (channel : StdString) : Option Program :=
  (program.window.channels channel).map program.update

def channelSelected (program : Program) (index : Nat) : Option Program :=
  match program.window.lwChannels[index]? with
  | some (some widget) =>
      some { program with
        window := { program.window with
          lChannelName := widget.channelName
          lwMessages := (program.client.deref widget.history).length } }
  | _ => none

/-- `history(channel)` of the window, from which `get_message` paints a row. -/
def history (program : Program) (channel : StdString) : Option (List MsgText) :=
  (program.window.channels channel).map fun widget => program.client.deref widget.history

def insertCached (cache : History) (client : PtrClient) (channel : StdString) : PtrClient :=
  let found := client.getPtrHistory channel
  found.2.insertAtEnd found.1 (cache.load channel)

def onAuthorized (program : Program) (code : StatusCode) : Program :=
  if code = .autorOK then
    { program with
      client := program.cache.keys.foldl (insertCached program.cache) program.client
      toServer := program.toServer ++ [.channels program.client.clientId] }
  else program

def onJoined (lib : ProtocolLib) (program : Program) (channel : StdString) : Program :=
  let found := program.client.getPtrHistory channel
  { program with
    client := found.2
    toServer := program.toServer ++
      [.history found.2.clientId channel (latest lib (found.2.deref found.1))] }

def runSlot (lib : ProtocolLib) (program : Program) : Slot → Option Program
  | .textFromClient msg => program.messageReceived msg
  | .onMessageReceived msg =>
      some { program with cache := record program.cache (msg.channelName, msg) }
  | .changeWindow _ => some program
  | .onAuthorized code => some (program.onAuthorized code)
  | .controlJoined channel => some (program.listChannel channel)
  | .onJoined channel => some (program.onJoined lib channel)
  | .controlHistoryReceived channel => program.historyReceived channel
  | .onHistoryReceived channel hist =>
      some { program with
        cache := hist.foldl (fun cache msg => record cache (channel, msg)) program.cache }
  | .controlChannelsReceived channels => some (channels.foldl listChannel program)
  | .onChannelsReceived channels =>
      some { program with
        toServer := program.toServer ++ channels.map fun channel =>
          .history program.client.clientId channel (lastTime lib (program.cache.load channel)) }

def receive (lib : ProtocolLib) (program : Program) (arrival : Arrival) : Option Program :=
  if program.client.sockOpen = true ∧ program.client.reads = [.pbHeader] then
    (onBody lib { program.client with reads := [], emitted := [] } arrival).map fun client =>
      { program with
        client := { client with emitted := [] }
        queue := program.queue ++ client.emitted.flatMap connected }
  else none

def start (cache : History) : Program where
  client :=
    { sockOpen := true, reads := [.pbHeader], readBuffer := [], binBuffer := [],
      clientId := none, mChannelsHistory := SharedMap.empty [], emitted := [] }
  cache := cache
  queue := []
  toServer := []
  wire := []
  sent := []
  window :=
    { channels := fun _ => none, made := 0, lwChannels := [], lChannelName := [], lwMessages := 0 }
  labels _ := Labels.initial

end Program

def step (lib : ProtocolLib) (program : Program) : ScreenAction → Option Program
  | .send arrival =>
      some { program with
        wire := program.wire ++ [arrival]
        sent := program.sent ++ [arrival] }
  | .io =>
      match program.wire with
      | arrival :: rest => { program with wire := rest }.receive lib arrival
      | [] => none
  | .slot =>
      match program.queue with
      | slot :: rest => { program with queue := rest }.runSlot lib slot
      | [] => none
  | .select index => program.channelSelected index

def PtrWidget.view (widget : PtrWidget) : ChannelWidget where
  number := widget.number
  channelName := widget.channelName

def PtrWindow.view (window : PtrWindow) : MainWindow where
  channels name := (window.channels name).map PtrWidget.view
  made := window.made
  lwChannels := window.lwChannels.map (Option.map PtrWidget.view)
  lChannelName := window.lChannelName
  lwMessages := window.lwMessages

def Program.core (program : Program) : Core where
  client := program.client.view
  cache := program.cache
  queue := program.queue
  toServer := program.toServer

def Program.view (program : Program) : Entries.View where
  screen :=
    { link := { core := program.core, wire := program.wire, sent := program.sent }
      window := program.window.view }
  labels := program.labels

/-- The pointer of the widget is that of its channel in the map. -/
def Points (client : PtrClient) (widget : PtrWidget) : Prop :=
  client.mChannelsHistory.pointers widget.channelName = some widget.history

/-- Every widget in use points to the deque of its channel. -/
structure Held (client : PtrClient) (window : PtrWindow) : Prop where
  stored : ∀ name widget, window.channels name = some widget → Points client widget
  items : ∀ widget, some widget ∈ window.lwChannels → Points client widget

/-- The pointers of the program, and the program without them. -/
structure Mirrors (program : Program) (view : Entries.View) : Prop where
  same : program.view = view
  held : Held program.client program.window

/-- A step of the client as the plain client takes it. Pointers that were
handed out before stay those of their channels. -/
structure Follows (before after : PtrClient) (plain : Client) : Prop where
  view : after.view = plain
  kept : before.mChannelsHistory.Extends after.mChannelsHistory

variable {client : PtrClient}

theorem get_ptr_history_follows (client : PtrClient) (channel : StdString) :
    Follows client (client.getPtrHistory channel).2 (client.view.getPtrHistory channel) := by
  refine ⟨?_, SharedMap.extends_find_or_make _ _ _⟩
  have found := SharedMap.view_find_or_make client.mChannelsHistory channel []
  simp only [PtrClient.view, PtrClient.getPtrHistory, found, Client.getPtrHistory]
  cases client.mChannelsHistory.view channel with
  | none => rfl
  | some deque => rfl

theorem get_ptr_history_pointer (client : PtrClient) (channel : StdString) :
    (client.getPtrHistory channel).2.mChannelsHistory.pointers channel =
      some (client.getPtrHistory channel).1 :=
  SharedMap.find_or_make_pointer _ _ _

theorem deref_pointer {channel : StdString} {pointer : Nat}
    (held : client.mChannelsHistory.pointers channel = some pointer) :
    deque client.view channel = client.deref pointer := by
  simp only [deque, PtrClient.view, SharedMap.view_of_pointer held, Option.getD_some]
  rfl

theorem insert_at_end_follows {channel : StdString} {pointer : Nat}
    (held : client.mChannelsHistory.pointers channel = some pointer) (messages : List MsgText) :
    Follows client (client.insertAtEnd pointer messages)
      (Receivers.insertAtEnd client.view channel messages) := by
  constructor
  · have written := SharedMap.view_modify held fun deque => deque ++ messages
    simp only [PtrClient.view, PtrClient.insertAtEnd, written, Receivers.insertAtEnd,
      Client.setHistory, SharedMap.view_of_pointer held, Option.getD_some]
  · exact SharedMap.extends_refl _

theorem Follows.trans {first second third : PtrClient} {plain : Client}
    (left : first.mChannelsHistory.Extends second.mChannelsHistory)
    (right : Follows second third plain) : Follows first third plain :=
  ⟨right.view, left.trans right.kept⟩

theorem insert_cached_follows (cache : History) (client : PtrClient) (channel : StdString) :
    Follows client (Program.insertCached cache client channel)
      (Receivers.insertAtEnd client.view channel (cache.load channel)) := by
  have found := get_ptr_history_follows client channel
  have written := insert_at_end_follows (get_ptr_history_pointer client channel)
    (cache.load channel)
  refine ⟨?_, found.kept.trans written.kept⟩
  rw [found.view] at written
  apply written.view.trans
  unfold Client.getPtrHistory
  cases entry : client.view.mChannelsHistory channel with
  | some deque => rfl
  | none => simp [Receivers.insertAtEnd, Client.setHistory, entry]

theorem insert_cached_all_follows (cache : History) (channels : List StdString)
    (client : PtrClient) :
    Follows client (channels.foldl (Program.insertCached cache) client)
      (channels.foldl (fun plain channel =>
        Receivers.insertAtEnd plain channel (cache.load channel)) client.view) := by
  induction channels generalizing client with
  | nil => exact ⟨rfl, SharedMap.extends_refl _⟩
  | cons channel rest ih =>
      have first := insert_cached_follows cache client channel
      rw [List.foldl_cons, List.foldl_cons, ← first.view]
      exact Follows.trans first.kept (ih _)

theorem emplace_push_back (client : PtrClient) (channel : StdString) (msg : MsgText) :
    ∃ next, (client.tryEmplace channel).pushBack channel msg = some next ∧
      Follows client next (client.view.emplacePushBack channel msg) := by
  have emplaced := SharedMap.try_emplace_pointer client.mChannelsHistory channel []
  rcases Option.isSome_iff_exists.mp emplaced with ⟨pointer, held⟩
  have written := @insert_at_end_follows (client.tryEmplace channel) channel pointer held [msg]
  refine ⟨(client.tryEmplace channel).insertAtEnd pointer [msg], ?_, ?_⟩
  · rw [PtrClient.pushBack]
    exact (congrArg _ held).trans rfl
  · refine ⟨written.view.trans ?_,
      (SharedMap.extends_try_emplace _ _ _).trans written.kept⟩
    have found := SharedMap.view_try_emplace client.mChannelsHistory channel []
    simp only [PtrClient.view, PtrClient.tryEmplace, found, Receivers.insertAtEnd,
      Client.emplacePushBack, Client.setHistory]
    cases entry : client.mChannelsHistory.view channel with
    | none => simp
    | some deque => simp [entry]

theorem emplace_push_back_all (channel : StdString) (messages : List MsgText)
    (client : PtrClient) :
    ∃ next, messages.foldlM
        (fun current msg => (current.tryEmplace channel).pushBack channel msg) client = some next ∧
      Follows client next (messages.foldl
        (fun plain msg => plain.emplacePushBack channel msg) client.view) := by
  induction messages generalizing client with
  | nil => exact ⟨client, rfl, rfl, SharedMap.extends_refl _⟩
  | cons msg rest ih =>
      rcases emplace_push_back client channel msg with ⟨middle, pushed, first⟩
      rcases ih middle with ⟨next, later, others⟩
      refine ⟨next, ?_, ?_⟩
      · rw [List.foldlM_cons, pushed]
        exact later
      · rw [List.foldl_cons, ← first.view]
        exact Follows.trans first.kept others

theorem take_follows {before : PtrClient} {changed : Client}
    (kept : before.mChannelsHistory.Extends client.mChannelsHistory)
    (same : changed.mChannelsHistory = client.mChannelsHistory.view) :
    Follows before (client.take changed) changed := by
  refine ⟨?_, kept⟩
  simp only [PtrClient.view, PtrClient.take, ← same]

theorem on_body_other_map {lib : ProtocolLib} {plain next : Client} {arrival : Arrival}
    (echo : arrival.read ≠ .echoResponse) (history : arrival.read ≠ .historyResponse)
    (handled : Receivers.onBody lib plain arrival = some next) :
    next.mChannelsHistory = plain.mChannelsHistory := by
  rcases arrival with ⟨read, response⟩
  cases read with
  | pbHeader => cases handled
  | echoResponse => exact absurd rfl echo
  | historyResponse => exact absurd rfl history
  | inputResponse =>
      obtain rfl := Option.some.inj handled
      cases answer : response.inputResponse with
      | none => simp [onInputResponse, onLoginResponse, answer]
      | some login =>
          by_cases ok : login.status = .ok <;>
            simp [onInputResponse, onLoginResponse, answer, ok, Client.emit, Client.setLoginId,
              Client.asyncReadPbHeader, Client.asyncRead, Client.closeConnection]
  | regResponse =>
      obtain rfl := Option.some.inj handled
      cases answer : response.regResponse with
      | none => simp [onRegResponse, onLoginResponse, answer]
      | some login =>
          by_cases ok : login.status = .ok <;>
            simp [onRegResponse, onLoginResponse, answer, ok, Client.emit, Client.setLoginId,
              Client.asyncReadPbHeader, Client.asyncRead, Client.closeConnection]
  | joinRoomResponse =>
      obtain rfl := Option.some.inj handled
      cases answer : response.joinRoomResponse with
      | none => simp [onJoinRoomResponse, answer]
      | some room =>
          by_cases ok : room.status = .ok <;>
            simp [onJoinRoomResponse, answer, ok, Client.emit, Client.asyncReadPbHeader,
              Client.asyncRead, Client.closeConnection]
  | channelsResponse =>
      obtain rfl := Option.some.inj handled
      cases answer : response.channelsResponse with
      | none => simp [onChannelsResponse, answer, Client.closeConnection]
      | some channels =>
          simp [onChannelsResponse, answer, Client.emit, Client.asyncReadPbHeader,
            Client.asyncRead]

theorem echo_follows (lib : ProtocolLib) (client : PtrClient) (response : Response) :
    Option.Rel (Follows client) (onEchoResponse lib client response)
      (Io.Handlers.onEchoResponse lib client.view response) := by
  simp only [onEchoResponse, Io.Handlers.onEchoResponse, PtrClient.pushBack]
  generalize lib.parseTextRes response = msg
  cases held : client.mChannelsHistory.pointers msg.channelName with
  | none =>
      have missing : client.view.mChannelsHistory msg.channelName = none := by
        simp [PtrClient.view, SharedMap.view, held]
      rw [missing]
      exact Option.Rel.none
  | some pointer =>
      have written := insert_at_end_follows held [msg]
      have found : client.view.mChannelsHistory msg.channelName = some (client.deref pointer) :=
        SharedMap.view_of_pointer held
      have plain : Receivers.insertAtEnd client.view msg.channelName [msg] =
          client.view.setHistory msg.channelName (client.deref pointer ++ [msg]) := by
        rw [Receivers.insertAtEnd, found, Option.getD_some]
      rw [plain] at written
      rw [found]
      apply Option.Rel.some
      rw [← written.view]
      exact take_follows written.kept rfl

theorem history_follows (client : PtrClient) (response : Response) :
    Option.Rel (Follows client) (onHistoryResponse client response)
      (some (Io.Handlers.onHistoryResponse client.view response)) := by
  unfold onHistoryResponse Io.Handlers.onHistoryResponse
  cases response.historyResponse with
  | none => exact Option.Rel.some (take_follows (SharedMap.extends_refl _) rfl)
  | some answer =>
      rcases emplace_push_back_all answer.channelName answer.messages client with
        ⟨next, stored, follows⟩
      simp only [stored, ← follows.view]
      exact Option.Rel.some (take_follows follows.kept rfl)

theorem on_body_follows (lib : ProtocolLib) (client : PtrClient) (arrival : Arrival) :
    Option.Rel (Follows client) (onBody lib client arrival)
      (Receivers.onBody lib client.view arrival) := by
  by_cases echo : arrival.read = .echoResponse
  · have follows := echo_follows lib client arrival.response
    simpa only [onBody, Receivers.onBody, echo] using follows
  · by_cases history : arrival.read = .historyResponse
    · have follows := history_follows client arrival.response
      simpa only [onBody, Receivers.onBody, history] using follows
    · have other : onBody lib client arrival =
          (Receivers.onBody lib client.view arrival).map client.take := by
        unfold onBody
        split
        · exact absurd ‹_› echo
        · exact absurd ‹_› history
        · rfl
      rw [other]
      cases handled : Receivers.onBody lib client.view arrival with
      | none => exact Option.Rel.none
      | some next =>
          have same := on_body_other_map echo history handled
          exact Option.Rel.some (take_follows (SharedMap.extends_refl _) same)

variable {program : Program}

theorem held_kept {before after : PtrClient} {window : PtrWindow} (held : Held before window)
    (kept : before.mChannelsHistory.Extends after.mChannelsHistory) : Held after window where
  stored name widget found := kept _ _ (held.stored name widget found)
  items widget member := kept _ _ (held.items widget member)

theorem view_injective {first second : PtrWidget} (left : Points client first)
    (right : Points client second) (same : first.view = second.view) : first = second := by
  rcases first with ⟨number, channelName, history⟩
  rcases second with ⟨other, otherName, otherHistory⟩
  simp only [PtrWidget.view, ChannelWidget.mk.injEq] at same
  rcases same with ⟨rfl, rfl⟩
  have historySame := Option.some.inj (left.symm.trans right)
  simp only at historySame
  rw [historySame]

theorem view_detached {items : List (Option PtrWidget)} {stored : Option PtrWidget}
    (held : ∀ widget, some widget ∈ items → Points client widget)
    (own : ∀ widget, stored = some widget → Points client widget) :
    (items.map fun item => if item = stored then none else item).map (Option.map PtrWidget.view) =
      (items.map (Option.map PtrWidget.view)).map fun item =>
        if item = stored.map PtrWidget.view then none else item := by
  rw [List.map_map, List.map_map]
  apply List.map_congr_left
  intro item member
  rw [Function.comp_apply, Function.comp_apply]
  by_cases same : item = stored
  · rw [if_pos same, if_pos (congrArg _ same)]
    rfl
  · rw [if_neg same]
    cases item with
    | none => simp
    | some widget =>
        have different : (some widget).map PtrWidget.view ≠ stored.map PtrWidget.view := by
          intro alike
          cases kept : stored with
          | none => simp [kept] at alike
          | some other =>
              rw [kept, Option.map_some, Option.map_some, Option.some.injEq] at alike
              have equal := view_injective (held widget member) (own other kept) alike
              exact same (by rw [kept, equal])
        rw [if_neg different]

theorem add_channel_mirrors (held : Held program.client program.window) {name : StdString}
    {pointer : Nat}
    (pointed : program.client.mChannelsHistory.pointers name = some pointer) :
    Mirrors (program.addChannel name pointer)
      { program.view with
        screen := { program.view.screen with window := program.window.view.addChannel name }
        labels := (program.view.listing.addChannel program.client.view name).labels } := by
  constructor
  · have items := view_detached held.items (held.stored name)
    have channels : (fun other => (Function.update program.window.channels name
        (some ⟨program.window.made, name, pointer⟩) other).map PtrWidget.view) =
        Function.update program.window.view.channels name
          (some ⟨program.window.made, name⟩) := by
      funext other
      by_cases same : other = name
      · subst same
        simp [PtrWidget.view]
      · simp [PtrWindow.view, Function.update_of_ne same]
    simp only [Program.view, Program.core, Program.addChannel, PtrWindow.view, channels,
      List.map_append, items, MainWindow.addChannel, Entries.Listing.addChannel,
      Entries.View.listing, deref_pointer pointed]
    rfl
  · constructor
    · intro other widget found
      by_cases same : other = name
      · simp only [Program.addChannel, same, Function.update_self, Option.some.injEq] at found
        subst found
        exact pointed
      · simp only [Program.addChannel, Function.update_of_ne same] at found
        exact held.stored other widget found
    · intro widget member
      rcases List.mem_append.mp member with earlier | new
      · rcases List.mem_map.mp earlier with ⟨item, inside, equal⟩
        split_ifs at equal
        subst equal
        exact held.items widget inside
      · obtain rfl := Option.some.inj (List.mem_singleton.mp new)
        exact pointed

variable {lib : ProtocolLib}

def afterSlot (lib : ProtocolLib) (view : Entries.View) (slot : Slot) : Option Entries.View :=
  let core := Receivers.runSlot lib view.screen.link.core slot
  (view.screen.window.control slot).map fun window =>
    { screen := { link := { view.screen.link with core := core }, window := window }
      labels := view.listing.control core.client slot }

def listed (view : Entries.View) (names : List StdString) : Entries.View :=
  let core := view.screen.link.core
  { screen :=
      { link := { view.screen.link with
          core := { core with client := names.foldl Client.getPtrHistory core.client } }
        window := names.foldl MainWindow.addChannel view.screen.window }
    labels := (names.foldl (Entries.Listing.addChannel core.client) view.listing).labels }

theorem add_channel_same_deques {first second : Client}
    (same : ∀ channel, deque first channel = deque second channel) :
    Entries.Listing.addChannel first = Entries.Listing.addChannel second := by
  funext listing name
  rw [Entries.Listing.addChannel, Entries.Listing.addChannel, same name]

theorem listed_cons (view : Entries.View) (name : StdString) (rest : List StdString) :
    listed view (name :: rest) = listed (listed view [name]) rest := by
  have deques (channel : StdString) :=
    deque_get_ptr_history view.screen.link.core.client name channel
  simp only [listed, List.foldl_cons, List.foldl_nil, Entries.View.listing,
    add_channel_same_deques deques]
  rfl

theorem list_channel_mirrors (held : Held program.client program.window) (name : StdString) :
    Mirrors (program.listChannel name) (listed program.view [name]) := by
  have found := get_ptr_history_follows program.client name
  have pointed := get_ptr_history_pointer program.client name
  have deques (channel : StdString) := deque_get_ptr_history program.client.view name channel
  have added := @add_channel_mirrors
    { program with client := (program.client.getPtrHistory name).2 }
    (held_kept held found.kept) name _ pointed
  refine ⟨added.same.trans ?_, added.held⟩
  simp only [Program.view, Program.core, found.view, add_channel_same_deques deques]
  rfl

theorem list_channel_all_mirrors (names : List StdString)
    (held : Held program.client program.window) :
    Mirrors (names.foldl Program.listChannel program) (listed program.view names) := by
  induction names generalizing program with
  | nil => exact ⟨rfl, held⟩
  | cons name rest ih =>
      have first := list_channel_mirrors held name
      rw [List.foldl_cons, listed_cons, ← first.same]
      exact ih first.held

theorem widget_view {name : StdString} {widget : PtrWidget}
    (stored : program.window.channels name = some widget) :
    program.window.view.channels name = some widget.view := by
  simp [PtrWindow.view, stored]

theorem update_view (held : Held program.client program.window) {name : StdString}
    {widget : PtrWidget} (stored : program.window.channels name = some widget) :
    (program.update widget).labels = program.view.listing.update program.client.view name := by
  have pointed := deref_pointer (held.stored name widget stored)
  have found : program.view.listing.window.channels name = some widget.view := widget_view stored
  rw [Entries.Listing.update, found]
  simp only [PtrWidget.view, pointed]
  rfl

theorem message_received_mirrors (held : Held program.client program.window) (msg : MsgText) :
    Option.Rel Mirrors (program.messageReceived msg)
      (afterSlot lib program.view (.textFromClient msg)) := by
  unfold Program.messageReceived afterSlot
  cases stored : program.window.channels msg.channelName with
  | none =>
      have missing : program.window.view.channels msg.channelName = none := by
        simp [PtrWindow.view, stored]
      have stuck : program.window.view.control (.textFromClient msg) = none := by
        rw [MainWindow.control, MainWindow.messageReceived, missing]
      exact stuck ▸ Option.Rel.none
  | some widget =>
      have labels := update_view held stored
      have shown : program.window.view.control (.textFromClient msg) =
          some (if program.window.lChannelName = msg.channelName then
            program.window.view.addMessage else program.window.view) := by
        rw [MainWindow.control, MainWindow.messageReceived, widget_view stored]
        rfl
      have found : program.view.screen.window = program.window.view := rfl
      rw [found, shown, Option.map_some, Option.map_some]
      apply Option.Rel.some
      by_cases current : program.window.lChannelName = msg.channelName
      · have here : (program.update widget).window.lChannelName = msg.channelName := current
        rw [if_pos here, if_pos current]
        refine ⟨?_, held.stored, held.items⟩
        simp only [Program.view, labels]
        rfl
      · have elsewhere : (program.update widget).window.lChannelName ≠ msg.channelName := current
        rw [if_neg elsewhere, if_neg current]
        refine ⟨?_, held.stored, held.items⟩
        simp only [Program.view, labels]
        rfl

theorem history_received_mirrors (held : Held program.client program.window)
    (channel : StdString) :
    Option.Rel Mirrors (program.historyReceived channel)
      (afterSlot lib program.view (.controlHistoryReceived channel)) := by
  unfold Program.historyReceived afterSlot
  cases stored : program.window.channels channel with
  | none =>
      have missing : program.window.view.channels channel = none := by
        simp [PtrWindow.view, stored]
      have stuck : program.window.view.control (.controlHistoryReceived channel) = none := by
        rw [MainWindow.control, MainWindow.historyReceived, missing, Option.map_none]
      exact stuck ▸ Option.Rel.none
  | some widget =>
      have labels := update_view held stored
      have shown : program.window.view.control (.controlHistoryReceived channel) =
          some program.window.view := by
        rw [MainWindow.control, MainWindow.historyReceived, widget_view stored, Option.map_some]
      have found : program.view.screen.window = program.window.view := rfl
      rw [found, shown, Option.map_some, Option.map_some]
      apply Option.Rel.some
      refine ⟨?_, held.stored, held.items⟩
      simp only [Program.view, labels]
      rfl

theorem on_authorized_mirrors (held : Held program.client program.window) (code : StatusCode) :
    Option.Rel Mirrors (some (program.onAuthorized code))
      (afterSlot lib program.view (.onAuthorized code)) := by
  apply Option.Rel.some
  unfold Program.onAuthorized
  by_cases accepted : code = .autorOK
  · have loaded := insert_cached_all_follows program.cache program.cache.keys program.client
    rw [if_pos accepted]
    refine ⟨?_, held_kept held loaded.kept⟩
    simp only [Program.view, Program.core, loaded.view, Receivers.runSlot, Receivers.onAuthorized,
      accepted, if_true]
    rfl
  · rw [if_neg accepted]
    refine ⟨?_, held⟩
    simp only [Receivers.runSlot, Receivers.onAuthorized, accepted, if_false]
    rfl

theorem on_joined_mirrors (held : Held program.client program.window) (channel : StdString) :
    Option.Rel Mirrors (some (program.onJoined lib channel))
      (afterSlot lib program.view (.onJoined channel)) := by
  have found := get_ptr_history_follows program.client channel
  have pointed := deref_pointer (get_ptr_history_pointer program.client channel)
  have identity : (program.client.getPtrHistory channel).2.view.clientId =
      (program.client.getPtrHistory channel).2.clientId := rfl
  apply Option.Rel.some
  refine ⟨?_, held_kept held found.kept⟩
  rw [found.view] at pointed identity
  simp only [Program.view, Program.core, Program.onJoined, found.view, ← pointed, ← identity]
  rfl

theorem after_channels_received (view : Entries.View) (names : List StdString) :
    afterSlot lib view (.controlChannelsReceived names) = some (listed view names) := by
  have deques (channel : StdString) :=
    @deque_get_ptr_history_all view.screen.link.core.client names channel
  simp only [afterSlot, listed, Receivers.runSlot, MainWindow.control, Option.map_some,
    Entries.Listing.control, add_channel_same_deques deques]

theorem after_joined (view : Entries.View) (name : StdString) :
    afterSlot lib view (.controlJoined name) = some (listed view [name]) := by
  have deques (channel : StdString) :=
    deque_get_ptr_history view.screen.link.core.client name channel
  simp only [afterSlot, listed, Receivers.runSlot, MainWindow.control, Option.map_some,
    Entries.Listing.control, add_channel_same_deques deques, List.foldl_cons, List.foldl_nil]

theorem run_slot_mirrors (held : Held program.client program.window) (slot : Slot) :
    Option.Rel Mirrors (program.runSlot lib slot) (afterSlot lib program.view slot) := by
  cases slot with
  | textFromClient msg => exact message_received_mirrors held msg
  | controlHistoryReceived channel => exact history_received_mirrors held channel
  | onAuthorized code => exact on_authorized_mirrors held code
  | onJoined channel => exact on_joined_mirrors held channel
  | controlJoined channel =>
      rw [after_joined]
      exact Option.Rel.some (list_channel_mirrors held channel)
  | controlChannelsReceived channels =>
      rw [after_channels_received]
      exact Option.Rel.some (list_channel_all_mirrors channels held)
  | onMessageReceived msg => exact Option.Rel.some ⟨rfl, held⟩
  | changeWindow code => exact Option.Rel.some ⟨rfl, held⟩
  | onHistoryReceived channel hist => exact Option.Rel.some ⟨rfl, held⟩
  | onChannelsReceived channels => exact Option.Rel.some ⟨rfl, held⟩

theorem entries_slot {view : Entries.View} {slot : Slot} {rest : List Slot}
    (waiting : view.screen.link.core.queue = slot :: rest) :
    Entries.step lib view .slot =
      afterSlot lib
        { view with
          screen := { view.screen with
            link := { view.screen.link with
              core := { view.screen.link.core with queue := rest } } } } slot := by
  simp only [Entries.step, Window.step, Deque.step, Core.deliver, waiting, afterSlot,
    Option.map_some]
  cases view.screen.window.control slot with
  | none => rfl
  | some window => rfl

theorem slot_mirrors (held : Held program.client program.window) :
    Option.Rel Mirrors (step lib program .slot) (Entries.step lib program.view .slot) := by
  cases waiting : program.queue with
  | nil =>
      have empty : program.view.screen.link.core.queue = [] := waiting
      simp only [step, waiting, Entries.step, Window.step, empty]
      exact Option.Rel.none
  | cons slot rest =>
      have front : program.view.screen.link.core.queue = slot :: rest := waiting
      rw [entries_slot front]
      simp only [step, waiting]
      exact @run_slot_mirrors { program with queue := rest } lib held slot

theorem receive_mirrors (held : Held program.client program.window) (arrival : Arrival) :
    Option.Rel
      (fun next core => next.core = core ∧ next = { program with
          client := next.client, queue := next.queue } ∧ Held next.client program.window)
      (program.receive lib arrival) (program.core.receive lib arrival) := by
  have handled := on_body_follows lib { program.client with reads := [], emitted := [] } arrival
  unfold Program.receive Core.receive
  by_cases ready : program.client.sockOpen = true ∧ program.client.reads = [.pbHeader]
  · have plainReady : program.core.client.sockOpen = true ∧
        program.core.client.reads = [.pbHeader] := ready
    rw [if_pos ready, if_pos plainReady]
    have plain : ({ program.client with reads := [], emitted := [] } : PtrClient).view =
        { program.core.client with reads := [], emitted := [] } := rfl
    rw [plain] at handled
    generalize onBody lib { program.client with reads := [], emitted := [] } arrival = here at *
    generalize Receivers.onBody lib { program.core.client with reads := [], emitted := [] }
      arrival = there at *
    cases handled with
    | none => exact Option.Rel.none
    | @some client next follows =>
        apply Option.Rel.some
        refine ⟨?_, rfl, held_kept held follows.kept⟩
        rw [← follows.view]
        rfl
  · have plainReady : ¬ (program.core.client.sockOpen = true ∧
        program.core.client.reads = [.pbHeader]) := ready
    rw [if_neg ready, if_neg plainReady]
    exact Option.Rel.none

theorem io_mirrors (held : Held program.client program.window) :
    Option.Rel Mirrors (step lib program .io) (Entries.step lib program.view .io) := by
  cases frames : program.wire with
  | nil =>
      have empty : program.view.screen.link.wire = [] := frames
      simp only [step, frames, Entries.step, Window.step, Deque.step, empty, Option.map_none]
      exact Option.Rel.none
  | cons arrival rest =>
      have front : program.view.screen.link.wire = arrival :: rest := frames
      have received := @receive_mirrors { program with wire := rest } lib held arrival
      simp only [step, frames, Entries.step, Window.step, Deque.step, front, Option.map_map]
      have core : ({ program with wire := rest } : Program).core =
          program.view.screen.link.core := rfl
      rw [core] at received
      generalize Program.receive lib { program with wire := rest } arrival = here at *
      generalize program.view.screen.link.core.receive lib arrival = there at *
      cases received with
      | none => exact Option.Rel.none
      | @some next after same =>
          rcases same with ⟨rfl, only, kept⟩
          apply Option.Rel.some
          rw [only]
          exact ⟨rfl, kept⟩

theorem select_mirrors (held : Held program.client program.window) (index : Nat) :
    Option.Rel Mirrors (step lib program (.select index))
      (Entries.step lib program.view (.select index)) := by
  have items : program.view.screen.window.lwChannels[index]? =
      (program.window.lwChannels[index]?).map (Option.map PtrWidget.view) :=
    List.getElem?_map
  simp only [step, Program.channelSelected, Entries.step, Window.step, MainWindow.channelSelected,
    items]
  cases item : program.window.lwChannels[index]? with
  | none => exact Option.Rel.none
  | some attached =>
      cases attached with
      | none => exact Option.Rel.none
      | some widget =>
          have pointed := held.items widget (List.mem_of_getElem? item)
          have rows := deref_pointer pointed
          apply Option.Rel.some
          refine ⟨?_, held.stored, held.items⟩
          simp only [Program.view, PtrWindow.view, PtrWidget.view, Program.core, ← rows]

theorem step_mirrors {view : Entries.View} (mirrors : Mirrors program view)
    (action : ScreenAction) :
    Option.Rel Mirrors (step lib program action) (Entries.step lib view action) := by
  rcases mirrors with ⟨rfl, held⟩
  cases action with
  | send arrival => exact Option.Rel.some ⟨rfl, held⟩
  | io => exact io_mirrors held
  | slot => exact slot_mirrors held
  | select index => exact select_mirrors held index

theorem start_mirrors (cache : History) :
    Mirrors (Program.start cache) (Entries.View.start cache) where
  same := rfl
  held := by
    constructor
    · intro name widget found
      cases found
    · intro widget member
      cases member

/-- What the program shows through its pointers is what the session shows that
looks every deque up by name: the states, and the history behind each row. No
widget points to another deque than its channel's. -/
structure SameSession (program : Program) (view : Entries.View) : Prop where
  states : program.view = view
  pointers : Held program.client program.window
  histories : ∀ channel, program.history channel =
    view.screen.window.history view.screen.link.core.client channel

theorem same_session_of_mirrors {view : Entries.View} (mirrors : Mirrors program view) :
    SameSession program view := by
  rcases mirrors with ⟨rfl, held⟩
  refine ⟨rfl, held, ?_⟩
  intro channel
  cases stored : program.window.channels channel with
  | none => simp [Program.history, MainWindow.history, Program.view, PtrWindow.view, stored]
  | some widget =>
      have pointed := deref_pointer (held.stored channel widget stored)
      simp only [Program.history, MainWindow.history, Program.view, PtrWindow.view, stored,
        Option.map_some]
      rw [← pointed]
      rfl

/-- Every run, whatever the server sends and however the threads take turns:
the program with its pointers can go on exactly where the session can, and
shows the same. -/
theorem pointers_refine_deques (lib : ProtocolLib) (cache : History)
    (actions : List ScreenAction) :
    Option.Rel SameSession (run (step lib) (Program.start cache) actions)
      (run (Entries.step lib) (Entries.View.start cache) actions) := by
  have related := run_lockstep (step lib)
    (fun _ _ action mirrors _ => step_mirrors mirrors action) (start_mirrors cache)
    (fun action (_ : action ∈ actions) => trivial)
  generalize run (step lib) (Program.start cache) actions = here at *
  generalize run (Entries.step lib) (Entries.View.start cache) actions = there at *
  cases related with
  | none => exact Option.Rel.none
  | some mirrors => exact Option.Rel.some (same_session_of_mirrors mirrors)

end AppchatClient.Session.Pointers
