import AppchatClient.Session.Effects
import AppchatClient.Lib.Runs

/-!
# Sessions with the server

The server keeps an append-only log for each channel and answers the requests
of a connection in their order. A session is one connection, from the login
request to the loss of the connection; the cache outlives it. `sent` and
`asked` only record what has happened in the session.
-/

namespace AppchatClient.Session.Server

open AppchatClient.Protocol AppchatClient.Io.Handlers AppchatClient.Lib.Runs
open AppchatClient.Cache.Refinement AppchatClient.Session.Receivers AppchatClient.Session.Effects

set_option autoImplicit false

/-- The channels of the server, each with strictly increasing times. -/
structure ChatLog where
  messages : StdString → List MsgText
  named : ∀ channel, ∀ msg ∈ messages channel, msg.channelName = channel
  increasing : ∀ channel, (messages channel).Pairwise fun earlier later => earlier.dt < later.dt

namespace ChatLog

def Newest (log : ChatLog) (msg : MsgText) : Prop :=
  ∀ earlier ∈ log.messages msg.channelName, earlier.dt < msg.dt

instance (log : ChatLog) (msg : MsgText) : Decidable (log.Newest msg) :=
  inferInstanceAs (Decidable (∀ earlier ∈ log.messages msg.channelName, earlier.dt < msg.dt))

def post (log : ChatLog) (msg : MsgText) (newest : log.Newest msg) : ChatLog where
  messages :=
    Function.update log.messages msg.channelName (log.messages msg.channelName ++ [msg])
  named channel other member := by
    by_cases same : channel = msg.channelName
    · subst same
      rw [Function.update_self] at member
      rcases List.mem_append.mp member with earlier | new
      · exact log.named _ other earlier
      · rw [List.mem_singleton.mp new]
    · rw [Function.update_of_ne same] at member
      exact log.named channel other member
  increasing channel := by
    by_cases same : channel = msg.channelName
    · subst same
      rw [Function.update_self]
      apply List.pairwise_append.mpr
      refine ⟨log.increasing _, List.pairwise_singleton _ _, ?_⟩
      intro earlier member other new
      rw [List.mem_singleton.mp new]
      exact newest earlier member
    · rw [Function.update_of_ne same]
      exact log.increasing channel

def later (log : ChatLog) (channel : StdString) (since : DateTime) : List MsgText :=
  (log.messages channel).filter fun msg => since < msg.dt

end ChatLog

inductive Login where
  | authorisation (login password : StdString)
  | registration (login password : StdString)
deriving DecidableEq, Repr

def Login.request : Login → Request
  | .authorisation login password => .authorisation login password
  | .registration login password => .registration login password

/-- The code that an accepted login publishes. -/
def Login.code : Login → StatusCode
  | .authorisation _ _ => .autorOK
  | .registration _ _ => .registrOK

/-- `core.toServer` is what the server has not taken yet, and `s2c` what the
client has not. `asked` lists the channels for which the session has computed
a cut-off. -/
structure World where
  core : Core
  log : ChatLog
  members : List StdString
  userId : Identifier
  authorised : Bool
  connected : Bool
  s2c : List Arrival
  sent : List Arrival
  asked : List StdString

inductive SessionAction where
  | post (msg : MsgText)
  | serve
  | io
  | slot
  | join (channel : StdString)
  | say (msg : MsgText)
  | drop
deriving DecidableEq, Repr

def inputAnswer (id : Identifier) : Arrival :=
  ⟨.inputResponse, { inputResponse := some ⟨.ok, id⟩ }⟩

def regAnswer (id : Identifier) : Arrival := ⟨.regResponse, { regResponse := some ⟨.ok, id⟩ }⟩

def joinAnswer (channel : StdString) : Arrival :=
  ⟨.joinRoomResponse, { joinRoomResponse := some ⟨.ok, channel⟩ }⟩

def echo (msg : MsgText) : Arrival := ⟨.echoResponse, { textResponse := some msg }⟩

def historyAnswer (channel : StdString) (messages : List MsgText) : Arrival :=
  ⟨.historyResponse, { historyResponse := some ⟨channel, messages⟩ }⟩

def channelsAnswer (channels : List StdString) : Arrival :=
  ⟨.channelsResponse, { channelsResponse := some channels }⟩

def Login.answer (login : Login) (id : Identifier) : Arrival :=
  match login with
  | .authorisation _ _ => inputAnswer id
  | .registration _ _ => regAnswer id

def World.push (world : World) (frames : List Arrival) : World :=
  { world with s2c := world.s2c ++ frames, sent := world.sent ++ frames }

def isLogin : Request → Bool
  | .authorisation _ _ => true
  | .registration _ _ => true
  | _ => false

/-- The frames that answer a request; a request before the login is ignored. -/
def World.reply (world : World) : Request → List Arrival
  | .authorisation _ _ => [inputAnswer world.userId]
  | .registration _ _ => [regAnswer world.userId]
  | .sendText _ => []
  | .joinRoom _ channel => if world.authorised then [joinAnswer channel] else []
  | .history _ channel since =>
      if world.authorised then [historyAnswer channel (world.log.later channel since)] else []
  | .channels _ => if world.authorised then [channelsAnswer world.members.dedup] else []

def World.membersAfter (world : World) : Request → List StdString
  | .joinRoom _ channel => if world.authorised then channel :: world.members else world.members
  | _ => world.members

def World.answer (world : World) (request : Request) : World :=
  { world with
    authorised := world.authorised || isLogin request
    members := world.membersAfter request }.push (world.reply request)

/-- The frames of a new message: it is pushed if its channel is the user's. -/
def World.live (world : World) (msg : MsgText) : List Arrival :=
  if world.authorised = true ∧ world.members.contains msg.channelName = true then [echo msg]
  else []

def cutOffs : Slot → List StdString
  | .onJoined channel => [channel]
  | .onChannelsReceived channels => channels
  | _ => []

def step (lib : ProtocolLib) (world : World) : SessionAction → Option World
  | .post msg =>
      if newest : world.log.Newest msg then
        some ({ world with log := world.log.post msg newest }.push (world.live msg))
      else none
  | .serve =>
      match world.connected, world.core.toServer with
      | true, request :: rest =>
          some { world.answer request with core := { world.core with toServer := rest } }
      | _, _ => none
  | .io =>
      match world.s2c with
      | arrival :: rest =>
          (world.core.receive lib arrival).map fun core => { world with core := core, s2c := rest }
      | [] => none
  | .slot =>
      match world.core.queue with
      | slot :: rest =>
          some { world with
            core := runSlot lib { world.core with queue := rest } slot
            asked := world.asked ++ cutOffs slot }
      | [] => none
  | .join channel =>
      some { world with
        core := world.core.request [.joinRoom world.core.client.clientId channel] }
  | .say msg => some { world with core := world.core.request [.sendText msg] }
  | .drop =>
      if world.connected then
        some { world with
          core := { world.core with client := world.core.client.closeConnection, toServer := [] }
          authorised := false
          connected := false
          s2c := [] }
      else none

def World.offline (log : ChatLog) (members : List StdString) (userId : Identifier)
    (cache : History) : World where
  core := freshCore cache
  log := log
  members := members
  userId := userId
  authorised := false
  connected := false
  s2c := []
  sent := []
  asked := []

/-- A new session: a new client over the same cache, with the login request on its way. -/
def World.connect (world : World) (login : Login) : World :=
  { world with
    core := (freshCore world.core.cache).request [login.request]
    authorised := false
    connected := true
    s2c := []
    sent := []
    asked := [] }

variable {lib : ProtocolLib} {before after : World} {action : SessionAction}

theorem pushed_echo (msg : MsgText) (channel : StdString) :
    pushed lib (echo msg) channel = if msg.channelName = channel then [msg] else [] := rfl

theorem pushed_history_answer (name channel : StdString) (messages : List MsgText) :
    pushed lib (historyAnswer name messages) channel = if name = channel then messages else [] :=
  rfl

def carried (lib : ProtocolLib) (frames : List Arrival) (channel : StdString) : List MsgText :=
  frames.flatMap fun arrival => pushed lib arrival channel

theorem carried_append (first second : List Arrival) (channel : StdString) :
    carried lib (first ++ second) channel =
      carried lib first channel ++ carried lib second channel :=
  List.flatMap_append

theorem carried_reply (world : World) (request : Request) (channel : StdString) :
    carried lib (world.reply request) channel =
      match request with
      | .history _ name since =>
          if world.authorised = true ∧ name = channel then world.log.later channel since else []
      | _ => [] := by
  cases request with
  | authorisation login password => rfl
  | registration login password => rfl
  | sendText msg => rfl
  | joinRoom id name =>
      by_cases authorised : world.authorised = true <;>
        simp [World.reply, authorised, carried, pushed, joinAnswer]
  | history id name since =>
      by_cases authorised : world.authorised = true
      · by_cases same : name = channel
        · subst same
          simp [World.reply, authorised, carried, pushed_history_answer]
        · simp [World.reply, authorised, carried, pushed_history_answer, same]
      · simp [World.reply, authorised, carried]
  | channels id =>
      by_cases authorised : world.authorised = true <;>
        simp [World.reply, authorised, carried, pushed, channelsAnswer]

theorem live_mem (world : World) (msg : MsgText) :
    world.live msg =
      if world.authorised = true ∧ msg.channelName ∈ world.members then [echo msg] else [] := by
  simp only [World.live, List.contains_iff_mem]

theorem carried_live (world : World) (msg : MsgText) (channel : StdString) :
    carried lib (world.live msg) channel =
      if (world.authorised = true ∧ msg.channelName ∈ world.members) ∧ msg.channelName = channel
      then [msg] else [] := by
  by_cases heard : world.authorised = true ∧ msg.channelName ∈ world.members
  · rw [live_mem, if_pos heard]
    by_cases same : msg.channelName = channel
    · rw [if_pos ⟨heard, same⟩]
      simp [carried, pushed_echo, same]
    · rw [if_neg fun both => same both.2]
      simp [carried, pushed_echo, same]
  · rw [live_mem, if_neg heard, if_neg fun both => heard both.1]
    rfl

theorem messages_post (log : ChatLog) {msg : MsgText} (newest : log.Newest msg)
    (channel : StdString) : (log.post msg newest).messages channel =
      if msg.channelName = channel then log.messages channel ++ [msg]
      else log.messages channel := by
  by_cases same : msg.channelName = channel
  · subst same
    simp [ChatLog.post]
  · simp [ChatLog.post, same, Function.update_of_ne (Ne.symm same)]

theorem mem_post (log : ChatLog) {msg : MsgText} (newest : log.Newest msg) {channel : StdString}
    {other : MsgText} (member : other ∈ log.messages channel) :
    other ∈ (log.post msg newest).messages channel := by
  rw [messages_post]
  split_ifs
  · exact List.mem_append_left _ member
  · exact member

/-- Everything sent is in the log, and what is on the wire was sent last. -/
structure Faithful (lib : ProtocolLib) (world : World) : Prop where
  sent : ∀ channel, ∀ msg ∈ carried lib world.sent channel, msg ∈ world.log.messages channel
  wire : world.s2c <:+ world.sent

theorem Faithful.on_wire {world : World} (faithful : Faithful lib world) {channel : StdString}
    {msg : MsgText} (member : msg ∈ carried lib world.s2c channel) :
    msg ∈ world.log.messages channel := by
  rcases faithful.wire with ⟨handled, split⟩
  apply faithful.sent channel msg
  rw [← split, carried_append]
  exact List.mem_append_right _ member

def saving (queue : List Slot) (channel : StdString) : List MsgText :=
  queue.flatMap fun slot => saved slot channel

theorem saving_posted {world : World} (faithful : Faithful lib world) {arrival : Arrival}
    {rest : List Arrival} (front : world.s2c = arrival :: rest) (channel : StdString) :
    saving ((signals lib arrival).flatMap connected) channel = pushed lib arrival channel := by
  have named : ∀ msg ∈ pushed lib arrival channel, { msg with channelName := channel } = msg := by
    intro msg member
    have logged : msg ∈ world.log.messages channel := by
      apply faithful.on_wire
      rw [front]
      exact List.mem_append_left _ member
    rw [← world.log.named channel msg logged]
  rw [saving, saved_posted]
  exact (List.map_congr_left named).trans (List.map_id _)

theorem suffix_push {wire sent : List Arrival} (part : wire <:+ sent) (frames : List Arrival) :
    wire ++ frames <:+ sent ++ frames := by
  rcases part with ⟨handled, rfl⟩
  exact ⟨handled, by simp⟩

theorem serve_some (taken : step lib before .serve = some after) :
    before.connected = true ∧ ∃ request rest, before.core.toServer = request :: rest ∧
      after = { before.answer request with core := { before.core with toServer := rest } } := by
  simp only [step] at taken
  split at taken
  · rename_i request rest online waiting
    exact ⟨online, request, rest, waiting, (Option.some.inj taken).symm⟩
  · cases taken

theorem io_some (taken : step lib before .io = some after) :
    ∃ arrival rest core, before.s2c = arrival :: rest ∧
      before.core.receive lib arrival = some core ∧
      after = { before with core := core, s2c := rest } :=
  received_front taken

theorem slot_some (taken : step lib before .slot = some after) :
    ∃ slot rest, before.core.queue = slot :: rest ∧
      after = { before with
        core := runSlot lib { before.core with queue := rest } slot
        asked := before.asked ++ cutOffs slot } :=
  @delivered_front lib before.core World
    (fun core slot => { before with core := core, asked := before.asked ++ cutOffs slot }) after
    taken

theorem post_some {msg : MsgText} (taken : step lib before (.post msg) = some after) :
    ∃ newest : before.log.Newest msg,
      after = ({ before with log := before.log.post msg newest }).push (before.live msg) := by
  simp only [step] at taken
  split_ifs at taken with newest
  exact ⟨newest, (Option.some.inj taken).symm⟩

theorem drop_some (taken : step lib before .drop = some after) :
    after = { before with
      core :=
        { before.core with client := before.core.client.closeConnection, toServer := [] }
      authorised := false
      connected := false
      s2c := [] } := by
  simp only [step] at taken
  split_ifs at taken
  exact (Option.some.inj taken).symm

theorem step_faithful (faithful : Faithful lib before)
    (taken : step lib before action = some after) : Faithful lib after := by
  cases action with
  | post msg =>
      rcases post_some taken with ⟨newest, rfl⟩
      refine ⟨?_, suffix_push faithful.wire _⟩
      intro channel other member
      simp only [World.push, carried_append, carried_live, List.mem_append] at member
      rcases member with earlier | new
      · exact mem_post _ newest (faithful.sent channel other earlier)
      · split_ifs at new with heard
        · rw [List.mem_singleton.mp new]
          simp only [World.push, messages_post, if_pos heard.2]
          exact List.mem_append_right _ (List.mem_singleton_self msg)
        · cases new
  | serve =>
      rcases serve_some taken with ⟨-, request, rest, -, rfl⟩
      refine ⟨?_, suffix_push faithful.wire _⟩
      intro channel msg member
      simp only [World.answer, World.push, carried_append, carried_reply, List.mem_append] at member
      rcases member with earlier | new
      · exact faithful.sent channel msg earlier
      · split at new
        · split_ifs at new
          · exact List.mem_of_mem_filter new
          · cases new
        · cases new
  | io =>
      rcases io_some taken with ⟨arrival, rest, core, frames, -, rfl⟩
      refine ⟨faithful.sent, ?_⟩
      have wire := faithful.wire
      rw [frames] at wire
      exact (List.suffix_cons arrival rest).trans wire
  | slot =>
      rcases slot_some taken with ⟨slot, rest, -, rfl⟩
      exact ⟨faithful.sent, faithful.wire⟩
  | join channel =>
      obtain rfl := Option.some.inj taken
      exact ⟨faithful.sent, faithful.wire⟩
  | say msg =>
      obtain rfl := Option.some.inj taken
      exact ⟨faithful.sent, faithful.wire⟩
  | drop =>
      obtain rfl := drop_some taken
      exact ⟨faithful.sent, List.nil_suffix⟩

def emptyLog : ChatLog where
  messages _ := []
  named := by simp
  increasing := by simp

def messageAt (second : Int) : MsgText where
  author := "ann".toList
  text := "hello".toList
  channelName := room
  dt := ⟨⟨2024, 1, 2⟩, ⟨3, 4, second⟩⟩

end AppchatClient.Session.Server
