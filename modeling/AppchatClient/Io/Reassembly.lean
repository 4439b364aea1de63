import AppchatClient.Io.ReadLoop
import Mathlib.Data.List.TakeDrop

/-!
# Reassembly of frames from TCP segments

The connection under the read loop: segments arrive one by one, an outstanding
`async_read` takes received bytes in portions of any size into its buffer, and
completes when the buffer is full. `reference` says, frame by frame, what the
client should do; the loop is compared with the fold of it.
-/

namespace AppchatClient.Io.Reassembly

open AppchatClient.Protocol AppchatClient.Lib.Runs
open AppchatClient.Io.Handlers AppchatClient.Io.ReadLoop

set_option autoImplicit false

/-- `filled` bytes of the outstanding read's buffer are there, `received` bytes
have arrived and are not yet read, `segments` are still to arrive. `handled`
records the body handlers that ran and the bytes each one parsed. -/
structure Connection where
  client : Client
  filled : Nat
  received : Bytes
  segments : List Bytes
  handled : List (Read × Bytes)

inductive NetAction where
  | arrive
  | readSome (count : Nat)
  | complete

def writeAt (buffer : Bytes) (offset : Nat) (bytes : Bytes) : Bytes :=
  buffer.take offset ++ bytes ++ buffer.drop (offset + bytes.length)

def store (client : Client) (offset : Nat) (bytes : Bytes) : Read → Client
  | .pbHeader => { client with binBuffer := writeAt client.binBuffer offset bytes }
  | _ => { client with readBuffer := writeAt client.readBuffer offset bytes }

def logged (conn : Connection) : Read → List (Read × Bytes)
  | .pbHeader => conn.handled
  | read => conn.handled ++ [(read, conn.client.readBuffer)]

def step (lib : ProtocolLib) (conn : Connection) : NetAction → Option Connection
  | .arrive =>
      match conn.segments with
      | segment :: rest =>
          some { conn with received := conn.received ++ segment, segments := rest }
      | [] => none
  | .readSome count =>
      match conn.client.reads with
      | [read] =>
          if 0 < count ∧ count ≤ conn.received.length ∧
              conn.filled + count ≤ bufferSize lib conn.client read then
            some { conn with
              client := store conn.client conn.filled (conn.received.take count) read
              filled := conn.filled + count
              received := conn.received.drop count }
          else none
      | _ => none
  | .complete =>
      match conn.client.reads with
      | [read] =>
          if conn.filled = bufferSize lib conn.client read then
            (handler lib { conn.client with reads := [] } false read).map fun client =>
              { conn with client := client, filled := 0, handled := logged conn read }
          else none
      | _ => none

/-- What the reference is about: the identifier, the histories and the signals. -/
structure Effects where
  clientId : Option Identifier
  histories : StdString → Option (List MsgText)
  signals : List Signal

def effects (client : Client) : Effects :=
  { clientId := client.clientId, histories := client.mChannelsHistory, signals := client.emitted }

structure Frame where
  header : Bytes
  body : Bytes
  command : TypeCommand
  response : Response

def Frame.bytes (frame : Frame) : Bytes := frame.header ++ frame.body

def appendHistory (histories : StdString → Option (List MsgText)) (channel : StdString)
    (messages : List MsgText) : StdString → Option (List MsgText) :=
  if messages = [] then histories
  else Function.update histories channel (some ((histories channel).getD [] ++ messages))

/-- The effect of one accepted frame, by its command and its sub-message. -/
def reference (before : Effects) (frame : Frame) : Effects :=
  match frame.command with
  | .authorisationResponse =>
      { before with
        clientId := frame.response.inputResponse.map LoginResponse.clientId
        signals := before.signals ++ [.sendInputCode .autorOK] }
  | .registrationResponse =>
      { before with
        clientId := frame.response.regResponse.map LoginResponse.clientId
        signals := before.signals ++ [.sendInputCode .registrOK] }
  | .joinRoomResponse =>
      { before with
        signals := before.signals ++
          (frame.response.joinRoomResponse.toList.map fun answer => .joined answer.channelName) }
  | .echoResponse =>
      match frame.response.textResponse with
      | some msg =>
          { before with
            histories := appendHistory before.histories msg.channelName [msg]
            signals := before.signals ++ [.sendText msg] }
      | none => before
  | .historyResponse =>
      match frame.response.historyResponse with
      | some answer =>
          { before with
            histories := appendHistory before.histories answer.channelName answer.messages
            signals := before.signals ++
              [.historyReceived answer.channelName answer.messages, .sigUpdateChannels] }
      | none => before
  | .channelsResponse =>
      { before with
        signals := before.signals ++
          (frame.response.channelsResponse.toList.map fun channels => .channelsReceived channels) }
  | _ => before

/-- The sub-message that matches the command is there, with an OK status where it has one. -/
def carriesAccepted (frame : Frame) : Prop :=
  match frame.command with
  | .authorisationResponse => ∃ id, frame.response.inputResponse = some ⟨.ok, id⟩
  | .registrationResponse => ∃ id, frame.response.regResponse = some ⟨.ok, id⟩
  | .joinRoomResponse => ∃ channel, frame.response.joinRoomResponse = some ⟨.ok, channel⟩
  | .echoResponse => ∃ msg, frame.response.textResponse = some msg
  | .historyResponse => ∃ answer, frame.response.historyResponse = some answer
  | .channelsResponse => ∃ channels, frame.response.channelsResponse = some channels
  | _ => False

/-- A header of `SIZE_HEADER` bytes that parses to the command and to the size
of the body, and a body that parses to the response. -/
structure Frame.WellFormed (lib : ProtocolLib) (frame : Frame) : Prop where
  headerSize : frame.header.length = lib.sizeHeader
  headerParses : lib.parseHeader frame.header =
    (true, { length := frame.body.length, command := frame.command })
  bodyParses : lib.parseResponse frame.body (toInt32 frame.body.length) = (true, frame.response)
  accepted : carriesAccepted frame

/-- An echo is only for a channel that has a history. -/
def echoReady (before : Effects) (frame : Frame) : Prop :=
  frame.command = .echoResponse → ∀ msg, frame.response.textResponse = some msg →
    (before.histories msg.channelName).isSome = true

def EchoesReady (before : Effects) : List Frame → Prop
  | [] => True
  | frame :: rest => echoReady before frame ∧ EchoesReady (reference before frame) rest

def stream (frames : List Frame) : Bytes := (frames.map Frame.bytes).flatten

theorem append_history_cons (histories : StdString → Option (List MsgText))
    (channel : StdString) (msg : MsgText) (rest : List MsgText) :
    appendHistory (appendHistory histories channel [msg]) channel rest =
      appendHistory histories channel (msg :: rest) := by
  by_cases last : rest = []
  · simp [appendHistory, last]
  · simp [appendHistory, last, Function.update_idem]

theorem push_back_effects (channel : StdString) (messages : List MsgText) (client : Client) :
    effects (messages.foldl (fun current msg => current.emplacePushBack channel msg) client) =
      { effects client with
        histories := appendHistory client.mChannelsHistory channel messages } := by
  induction messages generalizing client with
  | nil => simp [appendHistory, effects]
  | cons msg rest ih =>
      rw [List.foldl_cons, ih (client.emplacePushBack channel msg)]
      have one : (client.emplacePushBack channel msg).mChannelsHistory =
          appendHistory client.mChannelsHistory channel [msg] := by
        simp [appendHistory, Client.emplacePushBack, Client.setHistory]
      rw [one, append_history_cons]
      rfl

/-- The handler of a well-formed frame does what the reference says and starts
the next header read. -/
theorem handler_refines_reference {lib : ProtocolLib} {client : Client} {frame : Frame}
    {read : Read} (wellFormed : frame.WellFormed lib) (ready : echoReady (effects client) frame)
    (kind : bodyRead frame.command = some read) (buffer : client.readBuffer = frame.body)
    (idle : client.reads = []) :
    ∃ after, handler lib client false read = some after ∧
      effects after = reference (effects client) frame ∧
      after.reads = [.pbHeader] ∧ after.binBuffer = client.binBuffer := by
  have parsed : parseReadBuffer lib client = (true, frame.response) := by
    rw [parseReadBuffer, buffer, wellFormed.bodyParses]
  have answered (onResponse : Client → Response → Client) :
      readResponse lib client false onResponse = onResponse client frame.response := by
    simp [readResponse, parsed]
  have accepted := wellFormed.accepted
  unfold carriesAccepted at accepted
  cases command : frame.command with
  | authorisationResponse =>
      rw [command] at kind accepted
      obtain rfl := Option.some.inj kind
      obtain ⟨id, answer⟩ := accepted
      refine ⟨_, congrArg some (answered onInputResponse), ?_⟩
      simp [onInputResponse, onLoginResponse, answer, reference, command, effects, idle,
        Client.emit, Client.setLoginId, Client.asyncReadPbHeader, Client.asyncRead]
  | registrationResponse =>
      rw [command] at kind accepted
      obtain rfl := Option.some.inj kind
      obtain ⟨id, answer⟩ := accepted
      refine ⟨_, congrArg some (answered onRegResponse), ?_⟩
      simp [onRegResponse, onLoginResponse, answer, reference, command, effects, idle,
        Client.emit, Client.setLoginId, Client.asyncReadPbHeader, Client.asyncRead]
  | joinRoomResponse =>
      rw [command] at kind accepted
      obtain rfl := Option.some.inj kind
      obtain ⟨channel, answer⟩ := accepted
      refine ⟨_, congrArg some (answered onJoinRoomResponse), ?_⟩
      simp [onJoinRoomResponse, answer, reference, command, effects, idle,
        Client.emit, Client.asyncReadPbHeader, Client.asyncRead]
  | echoResponse =>
      rw [command] at kind accepted
      obtain rfl := Option.some.inj kind
      obtain ⟨msg, text⟩ := accepted
      obtain ⟨deque, present⟩ := Option.isSome_iff_exists.mp (ready command msg text)
      have found : client.mChannelsHistory msg.channelName = some deque := present
      have readMsg : lib.parseTextRes frame.response = msg := by
        simp [ProtocolLib.parseTextRes, text]
      simp [handler, doReadEchoResponse, parsed, onEchoResponse, readMsg, found, reference,
        command, text, effects, idle, appendHistory, Client.setHistory, Client.emit,
        Client.asyncReadPbHeader, Client.asyncRead]
  | historyResponse =>
      rw [command] at kind accepted
      obtain rfl := Option.some.inj kind
      obtain ⟨answer, history⟩ := accepted
      refine ⟨_, congrArg some (answered onHistoryResponse), ?_⟩
      have stored := push_back_effects answer.channelName answer.messages client
      obtain ⟨buffers, _, reads⟩ :=
        push_back_keeps_connection answer.channelName answer.messages client
      simp only [effects, Effects.mk.injEq] at stored
      simp [onHistoryResponse, history, reference, command, effects, stored, buffers, reads, idle,
        Client.emit, Client.asyncReadPbHeader, Client.asyncRead]
  | channelsResponse =>
      rw [command] at kind accepted
      obtain rfl := Option.some.inj kind
      obtain ⟨channels, answer⟩ := accepted
      refine ⟨_, congrArg some (answered onChannelsResponse), ?_⟩
      simp [onChannelsResponse, answer, reference, command, effects, idle,
        Client.emit, Client.asyncReadPbHeader, Client.asyncRead]
  | _ =>
      rw [command] at accepted
      exact accepted.elim

theorem well_formed_body_read {lib : ProtocolLib} {frame : Frame}
    (wellFormed : frame.WellFormed lib) : ∃ read, bodyRead frame.command = some read ∧
      read ≠ .pbHeader := by
  have accepted := wellFormed.accepted
  unfold carriesAccepted at accepted
  cases command : frame.command <;> rw [command] at accepted <;>
    first
      | exact accepted.elim
      | exact ⟨_, rfl, by decide⟩

def contents (client : Client) : Read → Bytes
  | .pbHeader => client.binBuffer
  | _ => client.readBuffer

theorem write_at_length {buffer bytes : Bytes} {offset : Nat}
    (fits : offset + bytes.length ≤ buffer.length) :
    (writeAt buffer offset bytes).length = buffer.length := by
  simp only [writeAt, List.length_append, List.length_take, List.length_drop]
  omega

theorem write_at_take {buffer bytes : Bytes} {offset : Nat}
    (fits : offset + bytes.length ≤ buffer.length) :
    (writeAt buffer offset bytes).take (offset + bytes.length) =
      buffer.take offset ++ bytes := by
  have size : (buffer.take offset ++ bytes).length = offset + bytes.length := by
    simp only [List.length_append, List.length_take]
    omega
  rw [writeAt, ← size]
  exact List.take_left

/-- The outstanding read, its buffer and everything on the way to it: the
bytes already read, received or still to arrive are `remaining`. -/
structure Filling (lib : ProtocolLib) (conn : Connection) (read : Read)
    (remaining : Bytes) : Prop where
  reads : conn.client.reads = [read]
  sized : conn.client.binBuffer.length = lib.sizeHeader
  within : conn.filled ≤ bufferSize lib conn.client read
  pending : (contents conn.client read).take conn.filled ++ conn.received ++
    conn.segments.flatten = remaining

theorem contents_length {lib : ProtocolLib} {client : Client} {read : Read}
    (sized : client.binBuffer.length = lib.sizeHeader) :
    (contents client read).length = bufferSize lib client read := by
  cases read <;> first | exact sized | rfl

/-- A completion here is the read loop's event with the buffer's own content. -/
theorem completion_is_read_loop_event {lib : ProtocolLib} {conn next : Connection} {read : Read}
    (reads : conn.client.reads = [read]) (sized : conn.client.binBuffer.length = lib.sizeHeader)
    (taken : step lib conn .complete = some next) :
    complete lib conn.client
      { read := read, error := false, bytes := contents conn.client read } =
        some next.client := by
  have full := @contents_length lib conn.client read sized
  have received : receive conn.client
      { read := read, error := false, bytes := contents conn.client read } =
        { conn.client with reads := [] } := by
    cases read <;> simp [receive, reads, contents, overwrite]
  simp only [step, reads] at taken
  split_ifs at taken
  obtain ⟨client, returned, rfl⟩ := Option.map_eq_some_iff.mp taken
  simp only [complete, reads, List.mem_singleton, full, true_or, and_self, if_true, received]
  exact returned

theorem filling_arrive {lib : ProtocolLib} {conn : Connection} {read : Read}
    {remaining segment : Bytes} {rest : List Bytes} (filling : Filling lib conn read remaining)
    (segments : conn.segments = segment :: rest) :
    Filling lib { conn with received := conn.received ++ segment, segments := rest } read
      remaining := by
  refine ⟨filling.reads, filling.sized, filling.within, ?_⟩
  rw [← filling.pending, segments]
  simp [List.append_assoc]

theorem store_contents (client : Client) (offset : Nat) (bytes : Bytes) (read : Read) :
    contents (store client offset bytes read) read =
      writeAt (contents client read) offset bytes := by
  cases read <;> rfl

theorem store_buffer_size {lib : ProtocolLib} {client : Client} {offset : Nat} {bytes : Bytes}
    {read : Read} (fits : offset + bytes.length ≤ (contents client read).length) :
    bufferSize lib (store client offset bytes read) read = bufferSize lib client read := by
  cases read <;> first | rfl | exact write_at_length fits

theorem store_bin_buffer {client : Client} {offset : Nat} {bytes : Bytes} {read : Read}
    (fits : offset + bytes.length ≤ (contents client read).length) :
    (store client offset bytes read).binBuffer.length = client.binBuffer.length := by
  cases read <;> first | exact write_at_length fits | rfl

theorem filling_read_some {lib : ProtocolLib} {conn : Connection} {read : Read}
    {remaining : Bytes} {count : Nat} (filling : Filling lib conn read remaining)
    (available : count ≤ conn.received.length)
    (room : conn.filled + count ≤ bufferSize lib conn.client read) :
    Filling lib
      { conn with
        client := store conn.client conn.filled (conn.received.take count) read
        filled := conn.filled + count
        received := conn.received.drop count } read remaining := by
  have taken : (conn.received.take count).length = count := by simp [available]
  have fits : conn.filled + (conn.received.take count).length ≤
      (contents conn.client read).length := by
    rw [taken, contents_length filling.sized]
    exact room
  refine ⟨?_, ?_, ?_, ?_⟩
  · rw [← filling.reads]
    cases read <;> rfl
  · exact (store_bin_buffer fits).trans filling.sized
  · exact room.trans_eq (store_buffer_size fits).symm
  · have front := write_at_take fits
    rw [taken] at front
    rw [store_contents, front, ← filling.pending]
    simp only [List.append_assoc]
    rw [← List.append_assoc (conn.received.take count), List.take_append_drop]

theorem filling_full {lib : ProtocolLib} {conn : Connection} {read : Read} {first rest : Bytes}
    (filling : Filling lib conn read (first ++ rest))
    (full : conn.filled = bufferSize lib conn.client read)
    (size : first.length = bufferSize lib conn.client read) :
    contents conn.client read = first ∧ conn.received ++ conn.segments.flatten = rest := by
  have whole : (contents conn.client read).take conn.filled = contents conn.client read := by
    rw [full, ← contents_length filling.sized, List.take_length]
  have pending := filling.pending
  rw [whole, List.append_assoc] at pending
  exact List.append_inj pending ((contents_length filling.sized).trans size.symm)

theorem filling_blocked {lib : ProtocolLib} {conn : Connection} {read : Read}
    {remaining : Bytes} (filling : Filling lib conn read remaining)
    (blocked : ∀ action, step lib conn action = none) :
    conn.filled = bufferSize lib conn.client read ∨
      remaining.length = conn.filled ∧ conn.filled < bufferSize lib conn.client read := by
  by_cases full : conn.filled = bufferSize lib conn.client read
  · exact .inl full
  · have room : conn.filled < bufferSize lib conn.client read :=
      lt_of_le_of_ne filling.within full
    have noSegment : conn.segments = [] := by
      have noArrival := blocked .arrive
      cases segments : conn.segments with
      | nil => rfl
      | cons segment rest => simp [step, segments] at noArrival
    have nothing : conn.received.length = 0 := by
      have noRead := blocked (.readSome 1)
      simp only [step, filling.reads] at noRead
      split_ifs at noRead with possible
      omega
    refine .inr ⟨?_, room⟩
    rw [← filling.pending, noSegment]
    simp only [List.length_append, List.length_take, nothing, contents_length filling.sized,
      List.flatten_nil, List.length_nil]
    omega

def handling (frame : Frame) : Read × Bytes :=
  ((bodyRead frame.command).getD .pbHeader, frame.body)

/-- What has been done after the frames `finished`: their reference effects and
their handlers, while `rest` is still to come and its echoes are ready. -/
structure Done (before : Effects) (conn : Connection) (finished rest : List Frame) : Prop where
  effects : effects conn.client = finished.foldl reference before
  handled : conn.handled = finished.map handling
  ready : EchoesReady (Reassembly.effects conn.client) rest

/-- The connection waits for the header of the first frame of the rest, or for
the body of the frame before the rest. The number counts the completions to come. -/
inductive Position (lib : ProtocolLib) (before : Effects) (frames : List Frame) :
    Connection → Nat → Prop
  | atHeader {conn : Connection} {finished rest : List Frame}
      (split : frames = finished ++ rest) (filling : Filling lib conn .pbHeader (stream rest))
      (progress : Done before conn finished rest) :
      Position lib before frames conn (2 * rest.length)
  | atBody {conn : Connection} {finished rest : List Frame} {frame : Frame} {read : Read}
      (split : frames = finished ++ frame :: rest) (kind : bodyRead frame.command = some read)
      (body : read ≠ .pbHeader) (size : conn.client.readBuffer.length = frame.body.length)
      (filling : Filling lib conn read (frame.body ++ stream rest))
      (progress : Done before conn finished (frame :: rest)) :
      Position lib before frames conn (2 * rest.length + 1)

def work (conn : Connection) (completions : Nat) : Nat :=
  conn.segments.length + conn.segments.flatten.length + conn.received.length + completions

theorem stream_cons (frame : Frame) (rest : List Frame) :
    stream (frame :: rest) = frame.header ++ (frame.body ++ stream rest) := by
  simp [stream, Frame.bytes]

theorem buffer_size_body {lib : ProtocolLib} {client : Client} {read : Read}
    (body : read ≠ .pbHeader) : bufferSize lib client read = client.readBuffer.length := by
  cases read <;> first | exact absurd rfl body | rfl

theorem contents_body {client : Client} {read : Read} (body : read ≠ .pbHeader) :
    contents client read = client.readBuffer := by
  cases read <;> first | exact absurd rfl body | rfl

/-- A header read completes only while frames are left, and the body read of
the first of them starts with a buffer of its size. -/
theorem header_completes {lib : ProtocolLib} {before : Effects} {frames finished rest : List Frame}
    {conn next : Connection} (positive : 0 < lib.sizeHeader)
    (valid : ∀ frame ∈ frames, frame.WellFormed lib) (split : frames = finished ++ rest)
    (filling : Filling lib conn .pbHeader (stream rest))
    (progress : Done before conn finished rest)
    (full : conn.filled = lib.sizeHeader) (taken : step lib conn .complete = some next) :
    ∃ completions, Position lib before frames next completions ∧
      completions < 2 * rest.length ∧ next.received = conn.received ∧
      next.segments = conn.segments := by
  cases rest with
  | nil =>
      -- the buffer would hold bytes of an empty stream
      have pending := congrArg List.length filling.pending
      simp only [List.length_append, List.length_take, contents_length filling.sized, stream,
        List.map_nil, List.flatten_nil, List.length_nil, bufferSize] at pending
      omega
  | cons frame rest =>
      have wellFormed := valid frame (by simp [split])
      obtain ⟨read, kind, body⟩ := well_formed_body_read wellFormed
      rw [stream_cons] at filling
      obtain ⟨header, pending⟩ := filling_full filling full wellFormed.headerSize
      have parsed : lib.parseHeader conn.client.binBuffer =
          (true, { length := frame.body.length, command := frame.command }) := by
        rw [show conn.client.binBuffer = frame.header from header, wellFormed.headerParses]
      have result : next = { conn with
          client := { conn.client with
            reads := [read]
            readBuffer := resize conn.client.readBuffer frame.body.length }
          filled := 0 } := by
        simp only [step, filling.reads, bufferSize, full, if_true, handler, doReadPbHeader,
          Bool.false_eq_true, if_false, parsed, asyncReadPbMsg, kind, Option.map_some,
          Option.some.injEq] at taken
        exact taken.symm
      have resized : (resize conn.client.readBuffer frame.body.length).length =
          frame.body.length := by
        simp only [resize, List.length_append, List.length_take, List.length_replicate]
        omega
      subst result
      refine ⟨2 * rest.length + 1, ?_, by simp; omega, rfl, rfl⟩
      exact .atBody split kind body resized
        ⟨rfl, filling.sized, Nat.zero_le _, by simpa using pending⟩
        ⟨progress.effects, progress.handled, progress.ready⟩

theorem body_completes {lib : ProtocolLib} {before : Effects} {frames finished rest : List Frame}
    {frame : Frame} {read : Read} {conn : Connection}
    (valid : ∀ frame ∈ frames, frame.WellFormed lib)
    (split : frames = finished ++ frame :: rest) (kind : bodyRead frame.command = some read)
    (body : read ≠ .pbHeader) (size : conn.client.readBuffer.length = frame.body.length)
    (filling : Filling lib conn read (frame.body ++ stream rest))
    (progress : Done before conn finished (frame :: rest))
    (full : conn.filled = bufferSize lib conn.client read) :
    ∃ next, step lib conn .complete = some next ∧
      Position lib before frames next (2 * rest.length) ∧ next.received = conn.received ∧
      next.segments = conn.segments := by
  have wellFormed := valid frame (by simp [split])
  have exactSize : frame.body.length = bufferSize lib conn.client read := by
    rw [buffer_size_body body, size]
  obtain ⟨content, pending⟩ := filling_full filling full exactSize
  rw [contents_body body] at content
  let idle : Client := { conn.client with reads := [] }
  have idleBuffer : idle.readBuffer = frame.body := content
  have idleReady : echoReady (effects idle) frame := progress.ready.1
  obtain ⟨after, returned, did, reads, buffer⟩ :=
    handler_refines_reference wellFormed idleReady kind idleBuffer rfl
  refine ⟨{ conn with client := after, filled := 0, handled := logged conn read }, ?_, ?_, rfl, rfl⟩
  · simp only [step, filling.reads, full, if_true]
    exact congrArg (Option.map _) returned
  · have splitNow : frames = (finished ++ [frame]) ++ rest := by simp [split]
    have effectsNow : effects after = (finished ++ [frame]).foldl reference before := by
      rw [did, List.foldl_append, ← progress.effects]
      rfl
    refine .atHeader splitNow
      ⟨reads, buffer ▸ filling.sized, Nat.zero_le _, by simpa using pending⟩
      ⟨effectsNow, ?_, did ▸ progress.ready.2⟩
    have recorded : logged conn read = conn.handled ++ [(read, frame.body)] := by
      rw [← content]
      cases read <;> first | exact absurd rfl body | rfl
    simp [recorded, progress.handled, handling, kind]

theorem position_step {lib : ProtocolLib} {before : Effects} {frames : List Frame}
    {conn next : Connection} {completions : Nat} {action : NetAction}
    (positive : 0 < lib.sizeHeader) (valid : ∀ frame ∈ frames, frame.WellFormed lib)
    (position : Position lib before frames conn completions)
    (taken : step lib conn action = some next) :
    ∃ later, Position lib before frames next later ∧ work next later < work conn completions := by
  cases action with
  | arrive =>
      cases segments : conn.segments with
      | nil => simp [step, segments] at taken
      | cons segment rest =>
          simp only [step, segments, Option.some.injEq] at taken
          subst taken
          refine ⟨completions, ?_, by simp [work, segments]; omega⟩
          cases position with
          | atHeader split filling progress =>
              exact .atHeader split (filling_arrive filling segments)
                ⟨progress.effects, progress.handled, progress.ready⟩
          | atBody split kind body size filling progress =>
              exact .atBody split kind body size (filling_arrive filling segments)
                ⟨progress.effects, progress.handled, progress.ready⟩
  | readSome count =>
      cases position with
      | atHeader split filling progress =>
          simp only [step, filling.reads] at taken
          split_ifs at taken with possible
          obtain ⟨someByte, available, room⟩ := possible
          obtain rfl := Option.some.inj taken
          refine ⟨_, .atHeader split (filling_read_some filling available room)
            ⟨progress.effects, progress.handled, progress.ready⟩, ?_⟩
          simp only [work, List.length_drop]
          omega
      | @atBody _ _ _ read split kind body size filling progress =>
          simp only [step, filling.reads] at taken
          split_ifs at taken with possible
          obtain ⟨someByte, available, room⟩ := possible
          obtain rfl := Option.some.inj taken
          have kept : (store conn.client conn.filled (conn.received.take count)
              read).readBuffer.length = conn.client.readBuffer.length := by
            have sameSize := @store_buffer_size lib conn.client conn.filled
              (conn.received.take count) read
            rw [buffer_size_body body, buffer_size_body body] at sameSize
            apply sameSize
            rw [contents_length filling.sized, List.length_take, Nat.min_eq_left available]
            exact room
          have unread : effects (store conn.client conn.filled (conn.received.take count) read) =
              effects conn.client := by cases read <;> rfl
          refine ⟨_, .atBody split kind body (kept.trans size)
            (filling_read_some filling available room)
            ⟨unread.trans progress.effects, progress.handled, unread ▸ progress.ready⟩, ?_⟩
          simp only [work, List.length_drop]
          omega
  | complete =>
      cases position with
      | atHeader split filling progress =>
          have full : conn.filled = lib.sizeHeader := by
            simp only [step, filling.reads] at taken
            split_ifs at taken with possible
            exact possible
          obtain ⟨later, position, fewer, received, segments⟩ :=
            header_completes positive valid split filling progress full taken
          exact ⟨later, position, by simp only [work, received, segments]; omega⟩
      | @atBody _ _ _ read split kind body size filling progress =>
          have full : conn.filled = bufferSize lib conn.client read := by
            simp only [step, filling.reads] at taken
            split_ifs at taken with possible
            exact possible
          obtain ⟨other, same, position, received, segments⟩ :=
            body_completes valid split kind body size filling progress full
          obtain rfl := Option.some.inj (same.symm.trans taken)
          exact ⟨_, position, by simp only [work, received, segments]; omega⟩

theorem position_run {lib : ProtocolLib} {before : Effects} {frames : List Frame}
    (positive : 0 < lib.sizeHeader) (valid : ∀ frame ∈ frames, frame.WellFormed lib)
    {actions : List NetAction} {conn last : Connection} {completions : Nat}
    (position : Position lib before frames conn completions)
    (ran : run (step lib) conn actions = some last) :
    ∃ later, Position lib before frames last later ∧
      actions.length + work last later ≤ work conn completions := by
  induction actions generalizing conn completions with
  | nil =>
      obtain rfl := Option.some.inj ran
      exact ⟨completions, position, by simp⟩
  | cons action rest ih =>
      obtain ⟨next, taken, ran⟩ := Option.bind_eq_some_iff.mp ran
      obtain ⟨middle, position, less⟩ := position_step positive valid position taken
      obtain ⟨later, position, bound⟩ := ih position ran
      exact ⟨later, position, by simp only [List.length_cons]; omega⟩

theorem blocked_at_end {lib : ProtocolLib} {before : Effects} {frames : List Frame}
    {conn : Connection} {completions : Nat} (valid : ∀ frame ∈ frames, frame.WellFormed lib)
    (position : Position lib before frames conn completions)
    (blocked : ∀ action, step lib conn action = none) :
    Done before conn frames [] ∧ conn.client.reads = [.pbHeader] := by
  cases position with
  | @atHeader finished rest split filling progress =>
      cases rest with
      | nil =>
          rw [List.append_nil] at split
          exact ⟨split ▸ progress, filling.reads⟩
      | cons frame rest =>
          exfalso
          have wellFormed := valid frame (by simp [split])
          rcases filling_blocked filling blocked with full | ⟨left, room⟩
          · obtain ⟨read, kind, _⟩ := well_formed_body_read wellFormed
            have noCompletion := blocked .complete
            simp only [step, filling.reads, full, if_true, handler, Option.map_some,
              reduceCtorEq] at noCompletion
          · rw [stream_cons, List.length_append, wellFormed.headerSize] at left
            simp only [bufferSize] at room
            omega
  | @atBody finished rest frame read split kind body size filling progress =>
      exfalso
      rcases filling_blocked filling blocked with full | ⟨left, room⟩
      · obtain ⟨next, taken, _⟩ := body_completes valid split kind body size filling progress full
        rw [blocked .complete] at taken
        cases taken
      · rw [List.length_append] at left
        rw [buffer_size_body body, size] at room
        omega

def start (client : Client) (segments : List Bytes) : Connection :=
  { client := client, filled := 0, received := [], segments := segments, handled := [] }

/-- For every cutting of the frames into segments and every order of arrivals
and portions: a run ends after boundedly many actions, and where it can do
nothing more the body handlers have run once per frame, in order, each on that
frame's body, and the client is the reference's. -/
theorem frames_reassembled (lib : ProtocolLib) (client : Client) (frames : List Frame)
    (segments : List Bytes) (actions : List NetAction) (last : Connection)
    (positive : 0 < lib.sizeHeader) (buffer : client.binBuffer.length = lib.sizeHeader)
    (armed : client.reads = [.pbHeader]) (valid : ∀ frame ∈ frames, frame.WellFormed lib)
    (ready : EchoesReady (effects client) frames) (cut : segments.flatten = stream frames)
    (ran : run (step lib) (start client segments) actions = some last) :
    actions.length ≤ segments.length + (stream frames).length + 2 * frames.length ∧
      ((∀ action, step lib last action = none) →
        last.handled = frames.map handling ∧
          effects last.client = frames.foldl reference (effects client) ∧
          last.client.reads = [.pbHeader]) := by
  have initial : Position lib (effects client) frames (start client segments)
      (2 * frames.length) :=
    .atHeader (List.nil_append frames).symm
      ⟨armed, buffer, Nat.zero_le _, by simpa [start] using cut⟩ ⟨rfl, rfl, ready⟩
  obtain ⟨later, position, bound⟩ := position_run positive valid initial ran
  constructor
  · simp only [work, start, cut, List.length_nil] at bound
    omega
  · intro blocked
    obtain ⟨done, reads⟩ := blocked_at_end valid position blocked
    exact ⟨done.handled, done.effects, reads⟩

def sampleMsg (text : StdString) : MsgText :=
  { author := ['a'], text := text, channelName := ['r'], dt := ⟨⟨2021, 1, 1⟩, ⟨0, 0, 0⟩⟩ }

def sampleFrames : List Frame :=
  [{ header := [2, 5], body := [7, 7], command := .historyResponse
     response := { historyResponse := some ⟨['r'], [sampleMsg ['x']]⟩ } },
    { header := [1, 3], body := [8], command := .echoResponse
      response := { textResponse := some (sampleMsg ['y']) } }]

def frameLib : ProtocolLib where
  sizeHeader := 2
  parseHeader
    | [length, command] =>
        (true, { length := length.toNat
                 command := if command = 5 then .historyResponse else .echoResponse })
    | _ => (false, { length := 0, command := .unknown 0 })
  parseResponse
    | [7, 7], _ => (true, { historyResponse := some ⟨['r'], [sampleMsg ['x']]⟩ })
    | [8], _ => (true, { textResponse := some (sampleMsg ['y']) })
    | _, _ => (false, {})
  defaultDateTime := ⟨⟨0, 0, 0⟩, ⟨0, 0, 0⟩⟩

def sampleActions : List NetAction :=
  [.arrive, .readSome 1, .arrive, .readSome 1, .complete, .readSome 1, .arrive, .readSome 1,
    .complete, .readSome 2, .complete, .readSome 1, .complete]

theorem frames_reassembled_sample :
    ∃ last, run (step frameLib)
        (start (loginRequestSent (Client.fresh [0, 0]) false) [[2], [5, 7], [7, 1, 3, 8]])
        sampleActions = some last ∧
      last.handled = [(.historyResponse, [7, 7]), (.echoResponse, [8])] ∧
      last.client.mChannelsHistory ['r'] = some [sampleMsg ['x'], sampleMsg ['y']] := by
  have facts : (run (step frameLib)
      (start (loginRequestSent (Client.fresh [0, 0]) false) [[2], [5, 7], [7, 1, 3, 8]])
      sampleActions).map (fun last => (last.segments, last.received, last.filled,
        last.client.reads)) = some ([], [], 0, [.pbHeader]) := by decide
  obtain ⟨last, ran, fields⟩ := Option.map_eq_some_iff.mp facts
  simp only [Prod.mk.injEq] at fields
  obtain ⟨segments, received, filled, reads⟩ := fields
  have valid : ∀ frame ∈ sampleFrames, frame.WellFormed frameLib := by
    intro frame member
    simp only [sampleFrames, List.mem_cons, List.not_mem_nil, or_false] at member
    rcases member with rfl | rfl
    · exact ⟨rfl, rfl, rfl, _, rfl⟩
    · exact ⟨rfl, rfl, rfl, _, rfl⟩
  have ready : EchoesReady (effects (loginRequestSent (Client.fresh [0, 0]) false))
      sampleFrames := by
    refine ⟨fun echo => (by cases echo), fun _ msg text => ?_, trivial⟩
    obtain rfl := Option.some.inj text
    rfl
  have blocked : ∀ action, step frameLib last action = none := by
    intro action
    cases action with
    | arrive => simp [step, segments]
    | readSome count => simp [step, reads, received]; omega
    | complete => simp [step, reads, filled, bufferSize, frameLib]
  have whole := frames_reassembled frameLib (loginRequestSent (Client.fresh [0, 0]) false)
    sampleFrames
    [[2], [5, 7], [7, 1, 3, 8]] sampleActions last (by decide) rfl rfl valid ready rfl ran
  obtain ⟨handled, did, _⟩ := whole.2 blocked
  exact ⟨last, ran, handled, congrArg (fun outcome => outcome.histories ['r']) did⟩

end AppchatClient.Io.Reassembly
