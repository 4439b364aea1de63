import AppchatClient.Session.Exchange
import AppchatClient.Io.Reassembly

/-!
# The session over TCP

The other session modules let the io thread take a frame in one step. Here the
bytes of a frame arrive in segments, are read in portions, and its header and
its body complete apart, while the GUI thread runs its events at any time in
between. Each such run does what a run with whole frames does.
-/

namespace AppchatClient.Session.OverTcp

open AppchatClient.Protocol AppchatClient.Io.Handlers AppchatClient.Lib.Runs
open AppchatClient.Io.ReadLoop (bufferSize)
open AppchatClient.Io.Reassembly
open AppchatClient.Cache.Refinement AppchatClient.Session.Receivers
open AppchatClient.Session.Deque (Link LinkAction)

set_option autoImplicit false

/-- The connection, whose client is that of the session, and the rest of the session. -/
structure TcpLink where
  conn : Connection
  cache : History
  queue : List Slot
  toServer : List Request

/-- The server's bytes of one frame are cut into segments anyhow. -/
inductive TcpAction where
  | send (frame : Frame) (segments : List Bytes)
  | net (action : NetAction)
  | slot

namespace TcpLink

def core (link : TcpLink) : Core where
  client := link.conn.client
  cache := link.cache
  queue := link.queue
  toServer := link.toServer

def withCore (link : TcpLink) (core : Core) : TcpLink where
  conn := { link.conn with client := core.client }
  cache := core.cache
  queue := core.queue
  toServer := core.toServer

def post (link : TcpLink) (conn : Connection) : TcpLink :=
  { link with
    conn := { conn with client := { conn.client with emitted := [] } }
    queue := link.queue ++ conn.client.emitted.flatMap connected }

/-- A new client behind its login write; `bin_buffer` is not initialised. -/
def start (bin : Bytes) (cache : History) : TcpLink where
  conn := Io.Reassembly.start { freshClient with binBuffer := bin } []
  cache := cache
  queue := []
  toServer := []

end TcpLink

def step (lib : ProtocolLib) (link : TcpLink) : TcpAction → Option TcpLink
  | .send frame segments =>
      if segments.flatten = frame.bytes then
        some { link with
          conn := { link.conn with segments := link.conn.segments ++ segments } }
      else none
  | .net action => (Io.Reassembly.step lib link.conn action).map link.post
  | .slot => (link.core.deliver lib).map link.withCore

def arrival (frame : Frame) : Arrival :=
  ⟨(bodyRead frame.command).getD .pbHeader, frame.response⟩

/-- A header that parses to a response command and to the size of the body, and
a body that parses. The answer may refuse, or lack its sub-message. -/
structure Framed (lib : ProtocolLib) (frame : Frame) : Prop where
  headerSize : frame.header.length = lib.sizeHeader
  headerParses : lib.parseHeader frame.header =
    (true, { length := frame.body.length, command := frame.command })
  answers : ∃ read, bodyRead frame.command = some read ∧ read ≠ .pbHeader
  bodyParses : lib.parseResponse frame.body (toInt32 frame.body.length) = (true, frame.response)

def Answers : TcpAction → List LinkAction → Prop
  | .send frame _, moves => moves = [.send (arrival frame)]
  | .net _, moves => moves = [] ∨ moves = [.io]
  | .slot, moves => moves = [.slot]

def bare (client : Client) : Client := { client with readBuffer := [], binBuffer := [] }

def waiting (reads : List Read) (client : Client) : Client :=
  { bare client with reads := reads }

theorem push_back_all_bare (channel : StdString) (messages : List MsgText) (client : Client) :
    messages.foldl (fun current msg => current.emplacePushBack channel msg) (bare client) =
      bare (messages.foldl (fun current msg => current.emplacePushBack channel msg) client) := by
  apply List.foldl_hom
  intro current msg
  rfl

theorem on_body_bare (lib : ProtocolLib) (client : Client) (frame : Arrival) :
    onBody lib (bare client) frame = (onBody lib client frame).map bare := by
  have login (accepted refused : StatusCode) (answer : Option LoginResponse) :
      onLoginResponse accepted refused (bare client) answer =
        bare (onLoginResponse accepted refused client answer) := by
    cases answer with
    | none => rfl
    | some answer =>
        simp only [onLoginResponse]
        split_ifs <;> rfl
  rcases frame with ⟨read, response⟩
  cases read with
  | pbHeader => rfl
  | inputResponse => exact congrArg some (login _ _ response.inputResponse)
  | regResponse => exact congrArg some (login _ _ response.regResponse)
  | joinRoomResponse =>
      simp only [onBody, onJoinRoomResponse, Option.map_some, Option.some.injEq]
      cases response.joinRoomResponse with
      | none => rfl
      | some answer =>
          dsimp only
          split_ifs <;> rfl
  | echoResponse =>
      have same : (bare client).mChannelsHistory = client.mChannelsHistory := rfl
      simp only [onBody, onEchoResponse, same]
      cases client.mChannelsHistory (lib.parseTextRes response).channelName <;> rfl
  | historyResponse =>
      simp only [onBody, onHistoryResponse, Option.map_some, Option.some.injEq]
      cases response.historyResponse with
      | none => rfl
      | some answer =>
          dsimp only
          rw [push_back_all_bare]
          rfl
  | channelsResponse =>
      simp only [onBody, onChannelsResponse, Option.map_some, Option.some.injEq]
      cases response.channelsResponse <;> rfl

theorem on_body_reads {lib : ProtocolLib} {client after : Client} {frame : Arrival}
    (idle : client.reads = []) (openSocket : client.sockOpen = true)
    (returned : onBody lib client frame = some after) :
    after.binBuffer = client.binBuffer ∧
      ((after.reads = [.pbHeader] ∧ after.sockOpen = true) ∨ after.reads = []) := by
  have login (accepted refused : StatusCode) (answer : Option LoginResponse) :
      (onLoginResponse accepted refused client answer).binBuffer = client.binBuffer ∧
        (((onLoginResponse accepted refused client answer).reads = [.pbHeader] ∧
          (onLoginResponse accepted refused client answer).sockOpen = true) ∨
          (onLoginResponse accepted refused client answer).reads = []) := by
    cases answer with
    | none => exact ⟨rfl, Or.inr idle⟩
    | some answer =>
        by_cases ok : answer.status = .ok <;>
          simp [onLoginResponse, ok, idle, openSocket, Client.emit, Client.setLoginId,
            Client.asyncReadPbHeader, Client.asyncRead, Client.closeConnection]
  rcases frame with ⟨read, response⟩
  cases read with
  | pbHeader => cases returned
  | inputResponse =>
      obtain rfl := Option.some.inj returned
      exact login _ _ response.inputResponse
  | regResponse =>
      obtain rfl := Option.some.inj returned
      exact login _ _ response.regResponse
  | joinRoomResponse =>
      obtain rfl := Option.some.inj returned
      unfold onJoinRoomResponse
      cases response.joinRoomResponse with
      | none => exact ⟨rfl, Or.inr idle⟩
      | some answer =>
          by_cases ok : answer.status = .ok <;>
            simp [ok, idle, openSocket, Client.emit, Client.asyncReadPbHeader, Client.asyncRead,
              Client.closeConnection]
  | echoResponse =>
      simp only [onBody, onEchoResponse] at returned
      split at returned
      · obtain rfl := Option.some.inj returned
        simp [idle, openSocket, Client.setHistory, Client.emit, Client.asyncReadPbHeader,
          Client.asyncRead]
      · cases returned
  | historyResponse =>
      obtain rfl := Option.some.inj returned
      unfold onHistoryResponse
      cases response.historyResponse with
      | none => exact ⟨rfl, Or.inr idle⟩
      | some answer =>
          rcases Io.ReadLoop.push_back_keeps_connection answer.channelName answer.messages client
            with ⟨buffer, socket, reads⟩
          simp [buffer, socket, reads, idle, openSocket, Client.emit, Client.asyncReadPbHeader,
            Client.asyncRead]
  | channelsResponse =>
      obtain rfl := Option.some.inj returned
      unfold onChannelsResponse
      cases response.channelsResponse with
      | none => exact ⟨rfl, Or.inr idle⟩
      | some channels =>
          simp [idle, openSocket, Client.emit, Client.asyncReadPbHeader, Client.asyncRead]

def OnlyHistory (before after : Client) : Prop :=
  after = { before with mChannelsHistory := after.mChannelsHistory }

theorem get_ptr_history_only (client : Client) (channel : StdString) :
    OnlyHistory client (client.getPtrHistory channel) := by
  unfold OnlyHistory Client.getPtrHistory
  cases client.mChannelsHistory channel <;> rfl

theorem OnlyHistory.trans {first second third : Client} (left : OnlyHistory first second)
    (right : OnlyHistory second third) : OnlyHistory first third := by
  unfold OnlyHistory at *
  rw [right, left]

theorem foldl_only {change : Client → StdString → Client}
    (each : ∀ client name, OnlyHistory client (change client name)) (names : List StdString)
    (client : Client) : OnlyHistory client (names.foldl change client) := by
  induction names generalizing client with
  | nil => rfl
  | cons name rest ih => exact (each client name).trans (ih (change client name))

theorem run_slot_only (lib : ProtocolLib) (core : Core) (slot : Slot) :
    OnlyHistory core.client (runSlot lib core slot).client := by
  have inserted (client : Client) (name : StdString) :
      OnlyHistory client (insertAtEnd client name (core.cache.load name)) := rfl
  cases slot with
  | onAuthorized code =>
      by_cases accepted : code = .autorOK
      · rw [runSlot, onAuthorized, if_pos accepted]
        exact foldl_only inserted core.cache.keys core.client
      · rw [runSlot, onAuthorized, if_neg accepted]
        rfl
  | controlJoined name => exact get_ptr_history_only core.client name
  | onJoined name => exact get_ptr_history_only core.client name
  | controlChannelsReceived channels => exact foldl_only get_ptr_history_only channels core.client
  | _ => rfl

theorem get_ptr_history_waiting (reads : List Read) (client : Client) (channel : StdString) :
    (waiting reads client).getPtrHistory channel =
      waiting reads (client.getPtrHistory channel) := by
  have same : (waiting reads client).mChannelsHistory = client.mChannelsHistory := rfl
  unfold Client.getPtrHistory
  rw [same]
  cases client.mChannelsHistory channel <;> rfl

theorem run_slot_waiting (lib : ProtocolLib) (reads : List Read) (core : Core) (slot : Slot) :
    runSlot lib { core with client := waiting reads core.client } slot =
      { runSlot lib core slot with client := waiting reads (runSlot lib core slot).client } := by
  have inserted (client : Client) (name : StdString) :
      insertAtEnd (waiting reads client) name (core.cache.load name) =
        waiting reads (insertAtEnd client name (core.cache.load name)) := rfl
  cases slot with
  | onAuthorized code =>
      by_cases accepted : code = .autorOK
      · simp only [runSlot, onAuthorized, if_pos accepted, Core.request]
        rw [List.foldl_hom (waiting reads) inserted]
        rfl
      · simp only [runSlot, onAuthorized, if_neg accepted]
  | controlJoined name => simp only [runSlot, get_ptr_history_waiting]
  | onJoined name =>
      simp only [runSlot, onJoined, Core.request, get_ptr_history_waiting]
      rfl
  | controlChannelsReceived channels =>
      simp only [runSlot]
      rw [List.foldl_hom (waiting reads) (get_ptr_history_waiting reads)]
  | _ => rfl

/-- The rest of the two sessions is the same, and what is emitted is posted. -/
structure Alike (reads : List Read) (link : TcpLink) (whole : Link) : Prop where
  core : whole.core = { link.core with client := waiting reads link.conn.client }
  quiet : link.conn.client.emitted = []

/-- The io thread waits for the header of the first frame, or for the body of a
frame that the other session has not taken yet; or it reads no further. -/
inductive Follows (lib : ProtocolLib) (link : TcpLink) (whole : Link) : Prop
  | atHeader (frames : List Frame) (alike : Alike [.pbHeader] link whole)
      (socket : link.conn.client.sockOpen = true)
      (filling : Filling lib link.conn .pbHeader (stream frames))
      (wire : whole.wire = frames.map arrival) (framed : ∀ frame ∈ frames, Framed lib frame)
  | atBody (frame : Frame) (frames : List Frame) (read : Read)
      (alike : Alike [.pbHeader] link whole) (socket : link.conn.client.sockOpen = true)
      (kind : bodyRead frame.command = some read) (body : read ≠ .pbHeader)
      (size : link.conn.client.readBuffer.length = frame.body.length)
      (filling : Filling lib link.conn read (frame.body ++ stream frames))
      (wire : whole.wire = (frame :: frames).map arrival)
      (framed : ∀ other ∈ frame :: frames, Framed lib other)
  | stopped (alike : Alike [] link whole) (reads : link.conn.client.reads = [])

variable {lib : ProtocolLib} {link next : TcpLink} {whole : Link}

theorem filling_send {conn : Connection} {read : Read} {remaining : Bytes}
    (filling : Filling lib conn read remaining) (segments : List Bytes) :
    Filling lib { conn with segments := conn.segments ++ segments } read
      (remaining ++ segments.flatten) := by
  refine ⟨filling.reads, filling.sized, filling.within, ?_⟩
  rw [← filling.pending, List.flatten_append]
  simp only [List.append_assoc]

theorem filling_history {conn : Connection} {read : Read} {remaining : Bytes}
    (filling : Filling lib conn read remaining) {client : Client}
    (only : OnlyHistory conn.client client) :
    Filling lib { conn with client := client } read remaining := by
  rw [only]
  refine ⟨filling.reads, filling.sized, ?_, ?_⟩
  · have within := filling.within
    cases read <;> exact within
  · have pending := filling.pending
    cases read <;> exact pending

theorem stream_append (frames : List Frame) (frame : Frame) :
    stream (frames ++ [frame]) = stream frames ++ frame.bytes := by
  simp [stream]

theorem framed_append {frames : List Frame} {frame : Frame}
    (framed : ∀ other ∈ frames, Framed lib other) (new : Framed lib frame) :
    ∀ other ∈ frames ++ [frame], Framed lib other := by
  intro other member
  rcases List.mem_append.mp member with earlier | last
  · exact framed other earlier
  · rw [List.mem_singleton.mp last]
    exact new

theorem send_follows (follows : Follows lib link whole) {frame : Frame} {segments : List Bytes}
    (new : Framed lib frame) (taken : step lib link (.send frame segments) = some next) :
    ∃ later, run (Exchange.step lib) whole [.send (arrival frame)] = some later ∧
      Follows lib next later := by
  simp only [step] at taken
  split_ifs at taken with cut
  obtain rfl := Option.some.inj taken
  refine ⟨_, rfl, ?_⟩
  cases follows with
  | atHeader frames alike socket filling wire framed =>
      have longer := filling_send filling segments
      rw [cut, ← stream_append] at longer
      refine .atHeader (frames ++ [frame]) ⟨alike.core, alike.quiet⟩ socket longer ?_
        (framed_append framed new)
      rw [wire, List.map_append]
      rfl
  | atBody current frames read alike socket kind body size filling wire framed =>
      have longer := filling_send filling segments
      rw [cut, List.append_assoc, ← stream_append] at longer
      refine .atBody current (frames ++ [frame]) read ⟨alike.core, alike.quiet⟩ socket kind body
        size longer ?_ (framed_append framed new)
      rw [wire, ← List.cons_append, List.map_append]
      rfl
  | stopped alike reads => exact .stopped ⟨alike.core, alike.quiet⟩ reads

theorem slot_follows (follows : Follows lib link whole)
    (taken : step lib link .slot = some next) :
    ∃ later, run (Exchange.step lib) whole [.slot] = some later ∧ Follows lib next later := by
  rcases Option.map_eq_some_iff.mp taken with ⟨core, delivered, rfl⟩
  rcases Effects.deliver_some delivered with ⟨slot, rest, queued, rfl⟩
  have only := run_slot_only lib { link.core with queue := rest } slot
  have moves {reads : List Read} (alike : Alike reads link whole) :
      ∃ later, run (Exchange.step lib) whole [.slot] = some later ∧ later.wire = whole.wire ∧
        Alike reads (link.withCore (runSlot lib { link.core with queue := rest } slot)) later := by
    have same := run_slot_waiting lib reads { link.core with queue := rest } slot
    have waits : whole.core.queue = slot :: rest := by
      rw [alike.core]
      exact queued
    refine ⟨{ whole with core := runSlot lib { whole.core with queue := rest } slot }, ?_, rfl,
      ?_, ?_⟩
    · simp only [run_cons, run_nil, Exchange.step, Deque.step, Core.deliver, waits]
      rfl
    · simp only [alike.core]
      exact same
    · rw [TcpLink.withCore, only]
      exact alike.quiet
  cases follows with
  | atHeader frames alike socket filling wire framed =>
      rcases moves alike with ⟨later, moved, same, kept⟩
      refine ⟨later, moved, .atHeader frames kept ?_ (filling_history filling only)
        (same.trans wire) framed⟩
      rw [TcpLink.withCore, only]
      exact socket
  | atBody frame frames read alike socket kind body size filling wire framed =>
      rcases moves alike with ⟨later, moved, same, kept⟩
      refine ⟨later, moved, .atBody frame frames read kept ?_ kind body ?_
        (filling_history filling only) (same.trans wire) framed⟩
      · rw [TcpLink.withCore, only]
        exact socket
      · rw [TcpLink.withCore, only]
        exact size
  | stopped alike reads =>
      rcases moves alike with ⟨later, moved, same, kept⟩
      refine ⟨later, moved, .stopped kept ?_⟩
      rw [TcpLink.withCore, only]
      exact reads

theorem post_quiet (link : TcpLink) {conn : Connection} (quiet : conn.client.emitted = []) :
    link.post conn = { link with conn := conn } := by
  rcases conn with ⟨⟨sockOpen, reads, readBuffer, binBuffer, clientId, histories, emitted⟩, filled,
    received, segments, handled⟩
  dsimp only at quiet
  subst quiet
  simp [TcpLink.post]

theorem quiet_of_follows (follows : Follows lib link whole) : link.conn.client.emitted = [] := by
  cases follows with
  | atHeader _ alike => exact alike.quiet
  | atBody _ _ _ alike => exact alike.quiet
  | stopped alike => exact alike.quiet

theorem arrive_follows (follows : Follows lib link whole)
    (taken : step lib link (.net .arrive) = some next) : Follows lib next whole := by
  simp only [step, Io.Reassembly.step] at taken
  cases segments : link.conn.segments with
  | nil => simp [segments] at taken
  | cons segment rest =>
      have quiet : ({ link.conn with
          received := link.conn.received ++ segment
          segments := rest } : Connection).client.emitted = [] := quiet_of_follows follows
      simp only [segments, Option.map_some, Option.some.injEq] at taken
      rw [post_quiet link quiet] at taken
      subst taken
      cases follows with
      | atHeader frames alike socket filling wire framed =>
          exact .atHeader frames ⟨alike.core, alike.quiet⟩ socket
            (filling_arrive filling segments) wire framed
      | atBody frame frames read alike socket kind body size filling wire framed =>
          exact .atBody frame frames read ⟨alike.core, alike.quiet⟩ socket kind body size
            (filling_arrive filling segments) wire framed
      | stopped alike reads => exact .stopped ⟨alike.core, alike.quiet⟩ reads

theorem store_emitted (client : Client) (offset : Nat) (bytes : Bytes) (read : Read) :
    (store client offset bytes read).emitted = client.emitted := by
  cases read <;> rfl

theorem store_socket (client : Client) (offset : Nat) (bytes : Bytes) (read : Read) :
    (store client offset bytes read).sockOpen = client.sockOpen := by
  cases read <;> rfl

theorem alike_store {reads : List Read} (alike : Alike reads link whole) (filled offset : Nat)
    (received bytes : Bytes) (read : Read) :
    Alike reads
      { link with
        conn := { link.conn with
          client := store link.conn.client offset bytes read
          filled := filled
          received := received } } whole := by
  constructor
  · rw [alike.core]
    cases read <;> rfl
  · exact (store_emitted link.conn.client offset bytes read).trans alike.quiet

theorem read_some_follows (follows : Follows lib link whole) {count : Nat}
    (taken : step lib link (.net (.readSome count)) = some next) : Follows lib next whole := by
  simp only [step, Io.Reassembly.step] at taken
  cases follows with
  | atHeader frames alike socket filling wire framed =>
      simp only [filling.reads] at taken
      split_ifs at taken with possible
      · rcases possible with ⟨-, available, room⟩
        have stored := alike_store alike (link.conn.filled + count) link.conn.filled
          (link.conn.received.drop count) (link.conn.received.take count) .pbHeader
        rw [Option.map_some, Option.some.injEq, post_quiet link stored.quiet] at taken
        subst taken
        exact .atHeader frames stored ((store_socket ..).trans socket)
          (filling_read_some filling available room) wire framed
      · cases taken
  | atBody frame frames read alike socket kind body size filling wire framed =>
      simp only [filling.reads] at taken
      split_ifs at taken with possible
      · rcases possible with ⟨-, available, room⟩
        have stored := alike_store alike (link.conn.filled + count) link.conn.filled
          (link.conn.received.drop count) (link.conn.received.take count) read
        rw [Option.map_some, Option.some.injEq, post_quiet link stored.quiet] at taken
        subst taken
        have kept : (store link.conn.client link.conn.filled (link.conn.received.take count)
            read).readBuffer.length = link.conn.client.readBuffer.length := by
          have same := @store_buffer_size lib link.conn.client link.conn.filled
            (link.conn.received.take count) read
          rw [buffer_size_body body, buffer_size_body body] at same
          apply same
          rw [contents_length filling.sized, List.length_take, Nat.min_eq_left available]
          exact room
        exact .atBody frame frames read stored ((store_socket ..).trans socket) kind body
          (kept.trans size) (filling_read_some filling available room) wire framed
      · cases taken
  | stopped alike reads => simp [reads] at taken

theorem header_follows (positive : 0 < lib.sizeHeader) {frames : List Frame}
    (alike : Alike [.pbHeader] link whole) (socket : link.conn.client.sockOpen = true)
    (filling : Filling lib link.conn .pbHeader (stream frames))
    (wire : whole.wire = frames.map arrival) (framed : ∀ frame ∈ frames, Framed lib frame)
    (taken : step lib link (.net .complete) = some next) : Follows lib next whole := by
  have full : link.conn.filled = lib.sizeHeader := by
    by_contra short
    simp [step, Io.Reassembly.step, filling.reads, bufferSize, short] at taken
  cases frames with
  | nil =>
      -- the buffer would hold bytes of an empty stream
      have pending := congrArg List.length filling.pending
      simp only [List.length_append, List.length_take, contents_length filling.sized, stream,
        List.map_nil, List.flatten_nil, List.length_nil, bufferSize] at pending
      omega
  | cons frame frames =>
      have thisFramed := framed frame (List.mem_cons_self ..)
      rcases thisFramed.answers with ⟨read, kind, body⟩
      rw [stream_cons] at filling
      rcases filling_full filling full thisFramed.headerSize with ⟨header, pending⟩
      have parsed : lib.parseHeader link.conn.client.binBuffer =
          (true, { length := frame.body.length, command := frame.command }) := by
        rw [show link.conn.client.binBuffer = frame.header from header,
          thisFramed.headerParses]
      have resized : (resize link.conn.client.readBuffer frame.body.length).length =
          frame.body.length := by
        simp only [resize, List.length_append, List.length_take, List.length_replicate]
        omega
      let after : Connection := { link.conn with
        client := { link.conn.client with
          reads := [read]
          readBuffer := resize link.conn.client.readBuffer frame.body.length }
        filled := 0 }
      have quiet : after.client.emitted = [] := alike.quiet
      have moved : step lib link (.net .complete) = some { link with conn := after } := by
        rw [← post_quiet link quiet]
        simp only [step, Io.Reassembly.step, filling.reads, bufferSize, full, if_true, handler,
          doReadPbHeader, Bool.false_eq_true, if_false, parsed, asyncReadPbMsg, kind,
          Option.map_some]
        rfl
      obtain rfl := Option.some.inj (moved.symm.trans taken)
      exact .atBody frame frames read ⟨alike.core, quiet⟩ socket kind body resized
        ⟨rfl, filling.sized, Nat.zero_le _, by simpa [after] using pending⟩ wire framed

theorem body_follows {frame : Frame} {frames : List Frame} {read : Read}
    (alike : Alike [.pbHeader] link whole) (socket : link.conn.client.sockOpen = true)
    (kind : bodyRead frame.command = some read) (body : read ≠ .pbHeader)
    (size : link.conn.client.readBuffer.length = frame.body.length)
    (filling : Filling lib link.conn read (frame.body ++ stream frames))
    (wire : whole.wire = (frame :: frames).map arrival)
    (framed : ∀ other ∈ frame :: frames, Framed lib other)
    (taken : step lib link (.net .complete) = some next) :
    ∃ later, run (Exchange.step lib) whole [.io] = some later ∧ Follows lib next later := by
  simp only [step, Io.Reassembly.step, filling.reads] at taken
  split_ifs at taken with full
  · have exactSize : frame.body.length = bufferSize lib link.conn.client read := by
      rw [buffer_size_body body, size]
    rcases filling_full filling full exactSize with ⟨content, pending⟩
    rw [contents_body body] at content
    let idle : Client := { link.conn.client with reads := [] }
    have parsed : parseReadBuffer lib idle = (true, frame.response) := by
      have bodyParses := (framed frame (List.mem_cons_self ..)).bodyParses
      rw [← content] at bodyParses
      exact bodyParses
    have handled := handler_of_parsed body parsed
    rw [Option.map_map, Option.map_eq_some_iff] at taken
    rcases taken with ⟨after, returned, rfl⟩
    rw [handled] at returned
    have takenAs : arrival frame = ⟨read, frame.response⟩ := by
      simp [arrival, kind]
    have others : ∀ other ∈ frames, Framed lib other :=
      fun other member => framed other (List.mem_cons_of_mem _ member)
    -- the other session runs the same handler on the client without buffers
    have client : whole.core.client = waiting [.pbHeader] link.conn.client := by
      rw [alike.core]
    have received : whole.core.receive lib (arrival frame) =
        some (whole.core.post (bare after)) := by
      have start : ({ whole.core.client with reads := [], emitted := [] } : Client) =
          bare idle := by
        rw [client]
        simp [waiting, bare, idle, alike.quiet]
      rw [Core.receive, client, if_pos ⟨socket, rfl⟩, ← client, start, takenAs, on_body_bare,
        returned, Option.map_some, Option.map_some]
    refine ⟨{ whole with core := whole.core.post (bare after), wire := frames.map arrival }, ?_, ?_⟩
    · rw [List.map_cons] at wire
      simp only [run_cons, run_nil, Exchange.step, Deque.step, wire, received, Option.map_some,
        Option.bind_some]
    · have idleOpen : idle.sockOpen = true := socket
      rcases on_body_reads rfl idleOpen returned with ⟨buffer, ⟨reads, opened⟩ | reads⟩
      · refine .atHeader frames ⟨?_, rfl⟩ opened
          ⟨reads, buffer ▸ filling.sized, Nat.zero_le _, by simpa [TcpLink.post] using pending⟩ rfl
          others
        rw [alike.core]
        simp [Core.post, TcpLink.post, TcpLink.core, waiting, bare, reads]
      · refine .stopped ⟨?_, rfl⟩ reads
        rw [alike.core]
        simp [Core.post, TcpLink.post, TcpLink.core, waiting, bare, reads]
  · cases taken

theorem step_follows (positive : 0 < lib.sizeHeader) {action : TcpAction}
    (follows : Follows lib link whole)
    (new : ∀ frame segments, action = .send frame segments → Framed lib frame)
    (taken : step lib link action = some next) :
    ∃ moves later, Answers action moves ∧ run (Exchange.step lib) whole moves = some later ∧
      Follows lib next later := by
  cases action with
  | send frame segments =>
      rcases send_follows follows (new frame segments rfl) taken with ⟨later, moved, kept⟩
      exact ⟨_, later, rfl, moved, kept⟩
  | slot =>
      rcases slot_follows follows taken with ⟨later, moved, kept⟩
      exact ⟨_, later, rfl, moved, kept⟩
  | net action =>
      cases action with
      | arrive => exact ⟨[], whole, Or.inl rfl, rfl, arrive_follows follows taken⟩
      | readSome count => exact ⟨[], whole, Or.inl rfl, rfl, read_some_follows follows taken⟩
      | complete =>
          cases follows with
          | atHeader frames alike socket filling wire framed =>
              exact ⟨[], whole, Or.inl rfl, rfl,
                header_follows positive alike socket filling wire framed taken⟩
          | atBody frame frames read alike socket kind body size filling wire framed =>
              rcases body_follows alike socket kind body size filling wire framed taken with
                ⟨later, moved, kept⟩
              exact ⟨_, later, Or.inr rfl, moved, kept⟩
          | stopped alike reads => simp [step, Io.Reassembly.step, reads] at taken

/-- What the rest of the client sees of a session is the same. -/
structure SameSession (link : TcpLink) (whole : Link) : Prop where
  histories : whole.core.client.mChannelsHistory = link.conn.client.mChannelsHistory
  clientId : whole.core.client.clientId = link.conn.client.clientId
  socket : whole.core.client.sockOpen = link.conn.client.sockOpen
  cache : whole.core.cache = link.cache
  queue : whole.core.queue = link.queue
  toServer : whole.core.toServer = link.toServer

theorem same_of_alike {reads : List Read} (alike : Alike reads link whole) :
    SameSession link whole := by
  constructor <;> rw [alike.core] <;> rfl

theorem same_of_follows (follows : Follows lib link whole) : SameSession link whole := by
  cases follows with
  | atHeader _ alike => exact same_of_alike alike
  | atBody _ _ _ alike => exact same_of_alike alike
  | stopped alike => exact same_of_alike alike

theorem start_follows {bin : Bytes} (sized : bin.length = lib.sizeHeader) (cache : History) :
    Follows lib (TcpLink.start bin cache) (Link.start cache) :=
  .atHeader [] ⟨rfl, rfl⟩ rfl ⟨rfl, sized, Nat.zero_le _, rfl⟩ rfl (by simp)

/-- For every cutting into segments and every order of arrivals, portions,
completions and events: the session with whole frames has a run that takes the
same frames and the same events in the same order and ends in the same session. -/
theorem tcp_session_refines_frames (positive : 0 < lib.sizeHeader) {bin : Bytes}
    (sized : bin.length = lib.sizeHeader) (cache : History) {actions : List TcpAction}
    (framed : ∀ frame segments, .send frame segments ∈ actions → Framed lib frame)
    {reached : TcpLink} (ran : run (step lib) (TcpLink.start bin cache) actions = some reached) :
    ∃ moves last, List.Forall₂ Answers actions moves ∧
      run (Exchange.step lib) (Link.start cache) moves.flatten = some last ∧
      SameSession reached last := by
  have each (link : TcpLink) (whole : Link) (action : TcpAction) (next : TcpLink)
      (follows : Follows lib link whole)
      (new : ∀ frame segments, action = .send frame segments → Framed lib frame)
      (taken : step lib link action = some next) :=
    step_follows positive follows new taken
  have sent : ∀ action ∈ actions, ∀ frame segments, action = .send frame segments →
      Framed lib frame := by
    intro action member frame segments same
    exact framed frame segments (same ▸ member)
  rcases run_answered (step lib) each (start_follows sized cache) sent ran with
    ⟨moves, last, answered, ended, follows⟩
  exact ⟨moves, last, answered, ended, same_of_follows follows⟩

def historyFrame : Frame where
  header := [2, 5]
  body := [7, 7]
  command := .historyResponse
  response := { historyResponse := some ⟨['r'], [sampleMsg ['x']]⟩ }

def echoFrame : Frame where
  header := [1, 3]
  body := [8]
  command := .echoResponse
  response := { textResponse := some (sampleMsg ['y']) }

def tcpActions : List TcpAction :=
  [.send historyFrame [[2], [5, 7], [7]], .net .arrive, .net (.readSome 1), .net .arrive,
    .net (.readSome 1), .net .complete, .net (.readSome 1), .net .arrive, .net (.readSome 1),
    .net .complete, .send echoFrame [[1, 3, 8]], .net .arrive, .net (.readSome 2), .net .complete,
    .slot, .slot, .net (.readSome 1), .net .complete, .slot, .slot]

theorem tcp_session_refines_frames_sample :
    ∃ reached moves last,
      run (step frameLib) (TcpLink.start [0, 0] Lib.AppendMap.Multimap.empty) tcpActions =
        some reached ∧
      List.Forall₂ Answers tcpActions moves ∧
      run (Exchange.step frameLib) (Link.start Lib.AppendMap.Multimap.empty) moves.flatten =
        some last ∧
      SameSession reached last := by
  have goesOn : (run (step frameLib)
      (TcpLink.start [0, 0] Lib.AppendMap.Multimap.empty) tcpActions).isSome = true := by
    decide
  rcases Option.isSome_iff_exists.mp goesOn with ⟨reached, ran⟩
  have framed : ∀ frame segments, .send frame segments ∈ tcpActions → Framed frameLib frame := by
    intro frame segments member
    simp only [tcpActions, List.mem_cons, TcpAction.send.injEq, reduceCtorEq, List.not_mem_nil,
      false_or, or_false] at member
    rcases member with ⟨rfl, -⟩ | ⟨rfl, -⟩
    · exact ⟨rfl, rfl, ⟨.historyResponse, rfl, by decide⟩, rfl⟩
    · exact ⟨rfl, rfl, ⟨.echoResponse, rfl, by decide⟩, rfl⟩
  rcases tcp_session_refines_frames (by decide) rfl Lib.AppendMap.Multimap.empty framed ran with
    ⟨moves, last, answered, ended, same⟩
  exact ⟨reached, moves, last, ran, answered, ended, same⟩

end AppchatClient.Session.OverTcp
