import AppchatClient.Io.Handlers
import AppchatClient.Cache.Refinement

/-!
# `Client` with its receivers

A signal of `Client` is emitted on the io thread; its connections to `Control`
and to `HistoryCacher` are queued, so each becomes an event of the GUI thread,
which runs one event after the other. `Control` connects first, so its event
of a signal comes first. The cache is the history that `SqliteCache` is meant
to keep.
-/

namespace AppchatClient.Session.Receivers

open AppchatClient.Protocol AppchatClient.Io.Handlers AppchatClient.Lib.AppendMap
open AppchatClient.Cache.Refinement

set_option autoImplicit false

/-- The events of the GUI thread, by the slot that they call. -/
inductive Slot where
  | textFromClient (msg : MsgText)
  | onMessageReceived (msg : MsgText)
  | changeWindow (code : StatusCode)
  | onAuthorized (code : StatusCode)
  | controlJoined (channelName : StdString)
  | onJoined (channelName : StdString)
  | controlHistoryReceived (channelName : StdString)
  | onHistoryReceived (channelName : StdString) (hist : List MsgText)
  | controlChannelsReceived (channels : List StdString)
  | onChannelsReceived (channels : List StdString)
deriving DecidableEq, Repr

/-- Nothing is connected to `sig_update_channels`. -/
def connected : Signal → List Slot
  | .sendText msg => [.textFromClient msg, .onMessageReceived msg]
  | .sendInputCode code => [.changeWindow code, .onAuthorized code]
  | .sigUpdateChannels => []
  | .joined channel => [.controlJoined channel, .onJoined channel]
  | .historyReceived channel hist =>
      [.controlHistoryReceived channel, .onHistoryReceived channel hist]
  | .channelsReceived channels =>
      [.controlChannelsReceived channels, .onChannelsReceived channels]

/-- `toServer` is what was handed to `add_msg_to_send` and not yet taken by the
server, in order. -/
structure Core where
  client : Client
  cache : History
  queue : List Slot
  toServer : List Request

/-- A frame whose body parsed: the handler of its command, and the response. -/
structure Arrival where
  read : Read
  response : Response
deriving DecidableEq, Repr

/-- The part of a body handler behind the parse. -/
def onBody (lib : ProtocolLib) (client : Client) (arrival : Arrival) : Option Client :=
  match arrival.read with
  | .pbHeader => none
  | .inputResponse => some (onInputResponse client arrival.response)
  | .regResponse => some (onRegResponse client arrival.response)
  | .joinRoomResponse => some (onJoinRoomResponse client arrival.response)
  | .echoResponse => onEchoResponse lib client arrival.response
  | .historyResponse => some (onHistoryResponse client arrival.response)
  | .channelsResponse => some (onChannelsResponse client arrival.response)

theorem handler_of_parsed {lib : ProtocolLib} {client : Client} {read : Read} {response : Response}
    (body : read ≠ .pbHeader) (parsed : parseReadBuffer lib client = (true, response)) :
    handler lib client false read = onBody lib client ⟨read, response⟩ := by
  cases read <;> first
    | exact absurd rfl body
    | simp [handler, onBody, doReadInputResponse, doReadRegResponse, doReadJoinRoomResponse,
        doReadEchoResponse, doReadHistoryResponse, doReadChannelsResponse, readResponse, parsed]

def Core.post (core : Core) (client : Client) : Core :=
  { core with
    client := { client with emitted := [] }
    queue := core.queue ++ client.emitted.flatMap connected }

/-- The io thread takes one frame: the header read is outstanding, and the body
handler runs. There is no result when the handler dereferences a null pointer. -/
def Core.receive (lib : ProtocolLib) (core : Core) (arrival : Arrival) : Option Core :=
  if core.client.sockOpen = true ∧ core.client.reads = [.pbHeader] then
    (onBody lib { core.client with reads := [], emitted := [] } arrival).map core.post
  else none

/-- `ptr->insert(ptr->end(), ..)` on the deque that `get_ptr_history` gives. -/
def insertAtEnd (client : Client) (channel : StdString) (messages : List MsgText) : Client :=
  client.setHistory channel ((client.mChannelsHistory channel).getD [] ++ messages)

def Core.request (core : Core) (requests : List Request) : Core :=
  { core with toServer := core.toServer ++ requests }

def onAuthorized (core : Core) (code : StatusCode) : Core :=
  if code = .autorOK then
    { core with
      client := core.cache.keys.foldl
        (fun client channel => insertAtEnd client channel (core.cache.load channel))
        core.client }.request [.channels core.client.clientId]
  else core

/-- The time of `std::max_element`, the default one when there is no element. -/
def latest (lib : ProtocolLib) (messages : List MsgText) : DateTime :=
  (messages.map MsgText.dt).max?.getD lib.defaultDateTime

/-- The time of `messages.back()`, the default one when there is none. -/
def lastTime (lib : ProtocolLib) (messages : List MsgText) : DateTime :=
  (messages.getLast?.map MsgText.dt).getD lib.defaultDateTime

def onJoined (lib : ProtocolLib) (core : Core) (channel : StdString) : Core :=
  let opened := core.client.getPtrHistory channel
  { core with client := opened }.request
    [.history opened.clientId channel (latest lib ((opened.mChannelsHistory channel).getD []))]

def onChannelsReceived (lib : ProtocolLib) (core : Core) (channels : List StdString) : Core :=
  core.request (channels.map fun channel =>
    .history core.client.clientId channel (lastTime lib (core.cache.load channel)))

def runSlot (lib : ProtocolLib) (core : Core) : Slot → Core
  | .textFromClient _ => core
  | .onMessageReceived msg => { core with cache := record core.cache (msg.channelName, msg) }
  | .changeWindow _ => core
  | .onAuthorized code => onAuthorized core code
  | .controlJoined channel => { core with client := core.client.getPtrHistory channel }
  | .onJoined channel => onJoined lib core channel
  | .controlHistoryReceived _ => core
  | .onHistoryReceived channel hist =>
      { core with cache := hist.foldl (fun cache msg => record cache (channel, msg)) core.cache }
  | .controlChannelsReceived channels =>
      { core with client := channels.foldl Client.getPtrHistory core.client }
  | .onChannelsReceived channels => onChannelsReceived lib core channels

/-- The GUI thread runs the event at the front of its queue. -/
def Core.deliver (lib : ProtocolLib) (core : Core) : Option Core :=
  match core.queue with
  | slot :: rest => some (runSlot lib { core with queue := rest } slot)
  | [] => none

def freshClient : Client := (Client.fresh []).asyncReadPbHeader

@[simp] theorem fresh_client_no_channel (channel : StdString) :
    freshClient.mChannelsHistory channel = none := rfl

@[simp] theorem fresh_client_no_id : freshClient.clientId = none := rfl

def freshCore (cache : History) : Core where
  client := freshClient
  cache := cache
  queue := []
  toServer := []

def chatLib : ProtocolLib where
  sizeHeader := 0
  parseHeader _ := (false, { length := 0, command := .unknown 0 })
  parseResponse _ _ := (false, {})
  defaultDateTime := ⟨⟨0, 0, 0⟩, ⟨0, 0, 0⟩⟩

def room : StdString := "room".toList

end AppchatClient.Session.Receivers
