import AppchatClient.Protocol

/-!
# The read side of `Client`

The handlers of `client.cpp` that run on the io thread, statement for
statement: each takes the client at the moment its `async_read` completed and
returns the client it leaves behind. The signals it emits are appended to
`emitted` in the order of the `emit` statements. A handler that dereferences a
null pointer has no result.
-/

namespace AppchatClient.Io.Handlers

open AppchatClient.Protocol

set_option autoImplicit false

inductive Signal where
  | sendText (msg : MsgText)
  | sendInputCode (code : StatusCode)
  | sigUpdateChannels
  | joined (channelName : StdString)
  | historyReceived (channelName : StdString) (hist : List MsgText)
  | channelsReceived (channels : List StdString)
deriving DecidableEq, Repr

/-- An outstanding `async_read`, named by its completion handler. -/
inductive Read where
  | pbHeader
  | inputResponse
  | regResponse
  | joinRoomResponse
  | echoResponse
  | historyResponse
  | channelsResponse
deriving DecidableEq, Repr

/-- The members that the io handlers use. `mChannelsHistory` is the map of
shared deques; a missing entry is `none`, and no entry is ever null, since the
only code that could make one dereferences it at once. `clientId` has no
initial value. -/
structure Client where
  sockOpen : Bool
  reads : List Read
  readBuffer : Bytes
  binBuffer : Bytes
  clientId : Option Identifier
  mChannelsHistory : StdString → Option (List MsgText)
  emitted : List Signal

namespace Client

/-- A new client with its socket open; nothing initialises `bin_buffer`. -/
def fresh (binBuffer : Bytes) : Client where
  sockOpen := true
  reads := []
  readBuffer := []
  binBuffer := binBuffer
  clientId := none
  mChannelsHistory := fun _ => none
  emitted := []

def closeConnection (client : Client) : Client := { client with sockOpen := false }

def emit (client : Client) (signal : Signal) : Client :=
  { client with emitted := client.emitted ++ [signal] }

def setLoginId (client : Client) (id : Identifier) : Client := { client with clientId := some id }

def asyncRead (client : Client) (read : Read) : Client :=
  { client with reads := client.reads ++ [read] }

def setHistory (client : Client) (channel : StdString) (deque : List MsgText) : Client :=
  { client with
    mChannelsHistory := Function.update client.mChannelsHistory channel (some deque) }

/-- `get_ptr_history`, as a change of the map: a missing channel gets an empty deque. -/
def getPtrHistory (client : Client) (channel : StdString) : Client :=
  match client.mChannelsHistory channel with
  | some _ => client
  | none => client.setHistory channel []

/-- `try_emplace` of an empty deque, then `push_back`. -/
def emplacePushBack (client : Client) (channel : StdString) (msg : MsgText) : Client :=
  client.setHistory channel ((client.mChannelsHistory channel).getD [] ++ [msg])

def asyncReadPbHeader (client : Client) : Client := client.asyncRead .pbHeader

end Client

def resize (buffer : Bytes) (size : Nat) : Bytes :=
  buffer.take size ++ List.replicate (size - buffer.length) 0

/-- The `switch` of `async_read_pb_msg`: the handler of a command's body, if it starts a read. -/
def bodyRead : TypeCommand → Option Read
  | .authorisationResponse => some .inputResponse
  | .registrationResponse => some .regResponse
  | .sendTextRequest => none
  | .echoResponse => some .echoResponse
  | .joinRoomResponse => some .joinRoomResponse
  | .historyResponse => some .historyResponse
  | .channelsResponse => some .channelsResponse
  | _ => none

def asyncReadPbMsg (client : Client) (newHeader : Header) : Client :=
  let resized := { client with readBuffer := resize client.readBuffer newHeader.length }
  match bodyRead newHeader.command with
  | some read => resized.asyncRead read
  | none => resized

/-- A header that does not parse is only logged: no read is started, nothing is closed. -/
def doReadPbHeader (lib : ProtocolLib) (client : Client) (error : Bool) : Client :=
  if error then client.closeConnection
  else
    let parsed := lib.parseHeader client.binBuffer
    if parsed.1 then asyncReadPbMsg client parsed.2 else client

/-- `ParseFromArray(__read_buffer.data(), static_cast<int>(__read_buffer.size()))`. -/
def parseReadBuffer (lib : ProtocolLib) (client : Client) : Bool × Response :=
  lib.parseResponse client.readBuffer (toInt32 client.readBuffer.length)

/-- The beginning that five of the six body handlers share: an error or a body
that does not parse closes the connection. -/
def readResponse (lib : ProtocolLib) (client : Client) (error : Bool)
    (onResponse : Client → Response → Client) : Client :=
  if error then client.closeConnection
  else
    let parsed := parseReadBuffer lib client
    if parsed.1 then onResponse client parsed.2 else client.closeConnection

/-- The two login answers. The result is published before the identifier is
set, and an answer without the sub-message is only logged. -/
def onLoginResponse (accepted refused : StatusCode) (client : Client) :
    Option LoginResponse → Client
  | some answer =>
      if answer.status = .ok then
        ((client.emit (.sendInputCode accepted)).setLoginId answer.clientId).asyncReadPbHeader
      else (client.emit (.sendInputCode refused)).closeConnection
  | none => client

def onInputResponse (client : Client) (response : Response) : Client :=
  onLoginResponse .autorOK .incorrectAutor client response.inputResponse

def onRegResponse (client : Client) (response : Response) : Client :=
  onLoginResponse .registrOK .busyRegistr client response.regResponse

def onJoinRoomResponse (client : Client) (response : Response) : Client :=
  match response.joinRoomResponse with
  | some answer =>
      if answer.status = .ok then (client.emit (.joined answer.channelName)).asyncReadPbHeader
      else client.closeConnection
  | none => client

/-- `m_channels_history[v_msg.channel_name]->push_back(v_msg)` has no result
when the channel has no deque: `operator[]` then makes a null pointer. -/
def onEchoResponse (lib : ProtocolLib) (client : Client) (response : Response) : Option Client :=
  let msg := lib.parseTextRes response
  match client.mChannelsHistory msg.channelName with
  | some deque =>
      some (((client.setHistory msg.channelName (deque ++ [msg])).emit
        (.sendText msg)).asyncReadPbHeader)
  | none => none

def onHistoryResponse (client : Client) (response : Response) : Client :=
  match response.historyResponse with
  | some answer =>
      let stored := answer.messages.foldl
        (fun current msg => current.emplacePushBack answer.channelName msg) client
      ((stored.emit (.historyReceived answer.channelName answer.messages)).emit
        .sigUpdateChannels).asyncReadPbHeader
  | none => client.closeConnection

def onChannelsResponse (client : Client) (response : Response) : Client :=
  match response.channelsResponse with
  | some channels => (client.emit (.channelsReceived channels)).asyncReadPbHeader
  | none => client.closeConnection

def doReadInputResponse (lib : ProtocolLib) (client : Client) (error : Bool) : Client :=
  readResponse lib client error onInputResponse

def doReadRegResponse (lib : ProtocolLib) (client : Client) (error : Bool) : Client :=
  readResponse lib client error onRegResponse

def doReadJoinRoomResponse (lib : ProtocolLib) (client : Client) (error : Bool) : Client :=
  readResponse lib client error onJoinRoomResponse

/-- The sixth handler goes on after a failed parse, with the partial message. -/
def doReadEchoResponse (lib : ProtocolLib) (client : Client) (error : Bool) : Option Client :=
  if error then some client.closeConnection
  else onEchoResponse lib client (parseReadBuffer lib client).2

def doReadHistoryResponse (lib : ProtocolLib) (client : Client) (error : Bool) : Client :=
  readResponse lib client error onHistoryResponse

def doReadChannelsResponse (lib : ProtocolLib) (client : Client) (error : Bool) : Client :=
  readResponse lib client error onChannelsResponse

def handler (lib : ProtocolLib) (client : Client) (error : Bool) : Read → Option Client
  | .pbHeader => some (doReadPbHeader lib client error)
  | .inputResponse => some (doReadInputResponse lib client error)
  | .regResponse => some (doReadRegResponse lib client error)
  | .joinRoomResponse => some (doReadJoinRoomResponse lib client error)
  | .echoResponse => doReadEchoResponse lib client error
  | .historyResponse => some (doReadHistoryResponse lib client error)
  | .channelsResponse => some (doReadChannelsResponse lib client error)

def loginRequestSent (client : Client) (error : Bool) : Client :=
  if error then client.closeConnection else client.asyncReadPbHeader

end AppchatClient.Io.Handlers
