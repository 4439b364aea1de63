import AppchatClient.Session.Exchange
import Mathlib.Data.List.Perm.Lattice

/-!
# The session over SQLite

`HistoryCacher` keeps its cache in a `SqliteCache`; the other session modules
put the intended history in its place. Here the slots call `save`, `load` and
`keys` on the table, and the two sessions are run side by side on the same
frames. A slot has no result where reading a column of the table has none.
-/

namespace AppchatClient.Session.SqlBacked

open AppchatClient.Protocol AppchatClient.Io.Handlers AppchatClient.Lib.AppendMap
open AppchatClient.Lib.Runs AppchatClient.Cache.SqliteCache AppchatClient.Cache.Statements
open AppchatClient.Cache.Refinement AppchatClient.Session.Receivers
open AppchatClient.Session.Effects
open AppchatClient.Session.Deque (Link LinkAction)

set_option autoImplicit false

/-- The client with `cache_` as it is: the rows of the table `history`. -/
structure SqlCore where
  client : Client
  rows : List Row
  queue : List Slot
  toServer : List Request

namespace SqlCore

def post (core : SqlCore) (client : Client) : SqlCore :=
  { core with
    client := { client with emitted := [] }
    queue := core.queue ++ client.emitted.flatMap connected }

def receive (lib : ProtocolLib) (core : SqlCore) (arrival : Arrival) : Option SqlCore :=
  if core.client.sockOpen = true ∧ core.client.reads = [.pbHeader] then
    (onBody lib { core.client with reads := [], emitted := [] } arrival).map core.post
  else none

def request (core : SqlCore) (requests : List Request) : SqlCore :=
  { core with toServer := core.toServer ++ requests }

/-- One round of the loop in `on_authorized`. -/
def insertLoaded (db : Sqlite) (rows : List Row) (client : Client) (channel : StdString) :
    Option Client :=
  (load db rows channel).map (insertAtEnd client channel)

def onAuthorized (db : Sqlite) (core : SqlCore) (code : StatusCode) : Option SqlCore :=
  if code = .autorOK then do
    let channels ← keys db core.rows
    let client ← channels.foldlM (insertLoaded db core.rows) core.client
    some (request { core with client := client } [.channels client.clientId])
  else some core

/-- `HistoryCacher::on_joined`, which asks the deque and not the table. -/
def onJoined (lib : ProtocolLib) (core : SqlCore) (channel : StdString) : SqlCore :=
  let opened := core.client.getPtrHistory channel
  request { core with client := opened }
    [.history opened.clientId channel (latest lib ((opened.mChannelsHistory channel).getD []))]

def historyRequest (db : Sqlite) (lib : ProtocolLib) (core : SqlCore) (channel : StdString) :
    Option Request :=
  (load db core.rows channel).map fun messages =>
    .history core.client.clientId channel (lastTime lib messages)

def onChannelsReceived (db : Sqlite) (lib : ProtocolLib) (core : SqlCore)
    (channels : List StdString) : Option SqlCore :=
  (channels.mapM (historyRequest db lib core)).map core.request

/-- The value that `save` returns is not looked at. -/
def saveUnder (db : Sqlite) (channel : StdString) (rows : List Row) (msg : MsgText) : List Row :=
  (save db rows channel msg).1

def runSlot (db : Sqlite) (lib : ProtocolLib) (core : SqlCore) : Slot → Option SqlCore
  | .textFromClient _ => some core
  | .onMessageReceived msg =>
      some { core with rows := saveUnder db msg.channelName core.rows msg }
  | .changeWindow _ => some core
  | .onAuthorized code => onAuthorized db core code
  | .controlJoined channel => some { core with client := core.client.getPtrHistory channel }
  | .onJoined channel => some (onJoined lib core channel)
  | .controlHistoryReceived _ => some core
  | .onHistoryReceived channel hist =>
      some { core with rows := hist.foldl (saveUnder db channel) core.rows }
  | .controlChannelsReceived channels =>
      some { core with client := channels.foldl Client.getPtrHistory core.client }
  | .onChannelsReceived channels => onChannelsReceived db lib core channels

def deliver (db : Sqlite) (lib : ProtocolLib) (core : SqlCore) : Option SqlCore :=
  match core.queue with
  | slot :: rest => runSlot db lib { core with queue := rest } slot
  | [] => none

end SqlCore

structure SqlLink where
  core : SqlCore
  wire : List Arrival
  sent : List Arrival

namespace SqlLink

/-- A new client over the table that earlier sessions left. -/
def start (rows : List Row) : SqlLink where
  core := { client := freshClient, rows := rows, queue := [], toServer := [] }
  wire := []
  sent := []

end SqlLink

def step (db : Sqlite) (lib : ProtocolLib) (link : SqlLink) : LinkAction → Option SqlLink
  | .send arrival =>
      some { link with wire := link.wire ++ [arrival], sent := link.sent ++ [arrival] }
  | .io =>
      match link.wire with
      | arrival :: rest =>
          (link.core.receive lib arrival).map fun core => { link with core := core, wire := rest }
      | [] => none
  | .slot => (link.core.deliver db lib).map fun core => { link with core := core }

variable {db : Sqlite} {lib : ProtocolLib} {core : SqlCore} {cache : History}

def insertCached (cache : History) (client : Client) (channel : StdString) : Client :=
  insertAtEnd client channel (cache.load channel)

end AppchatClient.Session.SqlBacked
