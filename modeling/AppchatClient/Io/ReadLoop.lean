import AppchatClient.Io.Handlers
import AppchatClient.Lib.Runs

/-!
# The read loop

Completion events of `async_read` drive the handlers. The loop is alive when
the socket is closed or exactly one read is outstanding on it. Three branches
of the source leave an open socket with no read: a header that does not parse,
a header whose command has no read handler, and a login or join answer without
its sub-message. `Answerable` names the events that take none of them.
-/

namespace AppchatClient.Io.ReadLoop

open AppchatClient.Protocol AppchatClient.Lib.Runs AppchatClient.Io.Handlers

set_option autoImplicit false

structure Completion where
  read : Read
  error : Bool
  bytes : Bytes

def bufferSize (lib : ProtocolLib) (client : Client) : Read → Nat
  | .pbHeader => lib.sizeHeader
  | _ => client.readBuffer.length

def overwrite (buffer bytes : Bytes) : Bytes := bytes ++ buffer.drop bytes.length

def receive (client : Client) (event : Completion) : Client :=
  match event.read with
  | .pbHeader =>
      { client with
        reads := client.reads.erase event.read
        binBuffer := overwrite client.binBuffer event.bytes }
  | _ =>
      { client with
        reads := client.reads.erase event.read
        readBuffer := overwrite client.readBuffer event.bytes }

/-- An outstanding read completes, without an error only when its whole buffer
is filled, and its handler runs. -/
def complete (lib : ProtocolLib) (client : Client) (event : Completion) : Option Client :=
  if event.read ∈ client.reads ∧
      (event.bytes.length = bufferSize lib client event.read ∨
        event.error = true ∧ event.bytes.length < bufferSize lib client event.read) then
    handler lib (receive client event) event.error event.read
  else none

/-- The socket is closed or exactly one read is outstanding. -/
def Live (client : Client) : Prop := client.sockOpen = false ∨ client.reads.length = 1

instance (client : Client) : Decidable (Live client) := inferInstanceAs (Decidable (_ ∨ _))

/-- The sub-message that a login or join handler needs; the other handlers need none here. -/
def carriesOwnMessage (response : Response) : Read → Bool
  | .inputResponse => response.inputResponse.isSome
  | .regResponse => response.regResponse.isSome
  | .joinRoomResponse => response.joinRoomResponse.isSome
  | _ => true

/-- The event fails, or it is a header that parses and names one of the six
response commands, or a body that does not parse or carries its sub-message. -/
def Answerable (lib : ProtocolLib) (event : Completion) : Prop :=
  event.error = true ∨
    if event.read = .pbHeader then
      (lib.parseHeader event.bytes).1 = true ∧
        (bodyRead (lib.parseHeader event.bytes).2.command).isSome = true
    else
      (lib.parseResponse event.bytes (toInt32 event.bytes.length)).1 = true →
        carriesOwnMessage (lib.parseResponse event.bytes (toInt32 event.bytes.length)).2
          event.read = true

theorem overwrite_full {buffer bytes : Bytes} (full : bytes.length = buffer.length) :
    overwrite buffer bytes = bytes := by
  simp [overwrite, full]

theorem overwrite_length {buffer bytes : Bytes} (fits : bytes.length ≤ buffer.length) :
    (overwrite buffer bytes).length = buffer.length := by
  simp [overwrite]
  omega

/-- `Settled before after` is what a handler that neither stalls nor doubles does:
it starts one read, or it closes the socket. -/
def Settled (before after : Client) : Prop :=
  after.binBuffer = before.binBuffer ∧
    ((after.sockOpen = before.sockOpen ∧ ∃ read, after.reads = before.reads ++ [read]) ∨
      (after.sockOpen = false ∧ after.reads = before.reads))

def Stalled (before after : Client) : Prop :=
  after.binBuffer = before.binBuffer ∧ after.sockOpen = before.sockOpen ∧
    after.reads = before.reads

theorem close_settled (client : Client) : Settled client client.closeConnection :=
  ⟨rfl, .inr ⟨rfl, rfl⟩⟩

theorem login_response_outcome (accepted refused : StatusCode) (client : Client)
    (answer : Option LoginResponse) :
    (answer.isSome = true → Settled client (onLoginResponse accepted refused client answer)) ∧
      (answer.isSome = false →
        Stalled client (onLoginResponse accepted refused client answer)) := by
  cases answer with
  | none => exact ⟨by simp, fun _ => ⟨rfl, rfl, rfl⟩⟩
  | some login =>
      refine ⟨fun _ => ?_, by simp⟩
      simp only [onLoginResponse]
      split_ifs
      · exact ⟨rfl, .inl ⟨rfl, _, rfl⟩⟩
      · exact ⟨rfl, .inr ⟨rfl, rfl⟩⟩

theorem join_room_response_outcome (client : Client) (response : Response) :
    (response.joinRoomResponse.isSome = true →
        Settled client (onJoinRoomResponse client response)) ∧
      (response.joinRoomResponse.isSome = false →
        Stalled client (onJoinRoomResponse client response)) := by
  simp only [onJoinRoomResponse]
  cases response.joinRoomResponse with
  | none => exact ⟨by simp, fun _ => ⟨rfl, rfl, rfl⟩⟩
  | some answer =>
      refine ⟨fun _ => ?_, by simp⟩
      dsimp only
      split_ifs
      · exact ⟨rfl, .inl ⟨rfl, _, rfl⟩⟩
      · exact ⟨rfl, .inr ⟨rfl, rfl⟩⟩

theorem echo_response_settled {lib : ProtocolLib} {client after : Client} {response : Response}
    (returned : onEchoResponse lib client response = some after) : Settled client after := by
  simp only [onEchoResponse] at returned
  split at returned
  · obtain rfl := Option.some.inj returned
    exact ⟨rfl, .inl ⟨rfl, _, rfl⟩⟩
  · cases returned

theorem push_back_keeps_connection (channel : StdString) (messages : List MsgText)
    (client : Client) :
    Stalled client (messages.foldl
      (fun current msg => current.emplacePushBack channel msg) client) := by
  induction messages generalizing client with
  | nil => exact ⟨rfl, rfl, rfl⟩
  | cons msg rest ih => exact ih (client.emplacePushBack channel msg)

theorem history_response_settled (client : Client) (response : Response) :
    Settled client (onHistoryResponse client response) := by
  simp only [onHistoryResponse]
  cases response.historyResponse with
  | none => exact close_settled client
  | some answer =>
      obtain ⟨buffer, sock, reads⟩ :=
        push_back_keeps_connection answer.channelName answer.messages client
      exact ⟨buffer, .inl ⟨sock, .pbHeader, congrArg (· ++ [Read.pbHeader]) reads⟩⟩

theorem channels_response_settled (client : Client) (response : Response) :
    Settled client (onChannelsResponse client response) := by
  simp only [onChannelsResponse]
  cases response.channelsResponse with
  | none => exact close_settled client
  | some channels => exact ⟨rfl, .inl ⟨rfl, _, rfl⟩⟩

theorem pb_header_outcome (client : Client) (parsed : Header) :
    ((bodyRead parsed.command).isSome = true → Settled client (asyncReadPbMsg client parsed)) ∧
      ((bodyRead parsed.command).isSome = false →
        Stalled client (asyncReadPbMsg client parsed)) := by
  simp only [asyncReadPbMsg]
  cases bodyRead parsed.command with
  | none => exact ⟨by simp, fun _ => ⟨rfl, rfl, rfl⟩⟩
  | some read => exact ⟨fun _ => ⟨rfl, .inl ⟨rfl, read, rfl⟩⟩, by simp⟩

theorem body_handler_outcome (lib : ProtocolLib) {client after : Client} {read : Read}
    (body : read ≠ .pbHeader) (returned : handler lib client false read = some after) :
    (((parseReadBuffer lib client).1 = true →
        carriesOwnMessage (parseReadBuffer lib client).2 read = true) →
      Settled client after) ∧
      (((parseReadBuffer lib client).1 = true ∧
        carriesOwnMessage (parseReadBuffer lib client).2 read = false) →
      Stalled client after) := by
  have parsedOrClosed (onResponse : Client → Response → Client)
      (outcome : (carriesOwnMessage (parseReadBuffer lib client).2 read = true →
          Settled client (onResponse client (parseReadBuffer lib client).2)) ∧
        (carriesOwnMessage (parseReadBuffer lib client).2 read = false →
          Stalled client (onResponse client (parseReadBuffer lib client).2)))
      (same : readResponse lib client false onResponse = after) :
      (((parseReadBuffer lib client).1 = true →
          carriesOwnMessage (parseReadBuffer lib client).2 read = true) →
        Settled client after) ∧
        (((parseReadBuffer lib client).1 = true ∧
          carriesOwnMessage (parseReadBuffer lib client).2 read = false) →
        Stalled client after) := by
    subst same
    simp only [readResponse, Bool.false_eq_true, if_false]
    split_ifs with flag
    · exact ⟨fun carries => outcome.1 (carries flag), fun missing => outcome.2 missing.2⟩
    · exact ⟨fun _ => close_settled client, fun missing => absurd missing.1 flag⟩
  cases read with
  | pbHeader => exact absurd rfl body
  | inputResponse =>
      exact parsedOrClosed onInputResponse (login_response_outcome _ _ client _)
        (Option.some.inj returned)
  | regResponse =>
      exact parsedOrClosed onRegResponse (login_response_outcome _ _ client _)
        (Option.some.inj returned)
  | joinRoomResponse =>
      exact parsedOrClosed onJoinRoomResponse (join_room_response_outcome client _)
        (Option.some.inj returned)
  | echoResponse =>
      exact ⟨fun _ => echo_response_settled returned, by simp [carriesOwnMessage]⟩
  | historyResponse =>
      exact parsedOrClosed onHistoryResponse
        ⟨fun _ => history_response_settled client _, by simp [carriesOwnMessage]⟩
        (Option.some.inj returned)
  | channelsResponse =>
      exact parsedOrClosed onChannelsResponse
        ⟨fun _ => channels_response_settled client _, by simp [carriesOwnMessage]⟩
        (Option.some.inj returned)

theorem failed_read_closes (lib : ProtocolLib) {client after : Client} {read : Read}
    (returned : handler lib client true read = some after) : Settled client after := by
  have closed : after = client.closeConnection := by
    cases read <;> exact (Option.some.inj returned).symm
  exact closed ▸ close_settled client

/-- Before an event the loop is armed: one read on an open socket, or a closed
socket with none left. The header buffer is an array of `SIZE_HEADER` bytes. -/
structure Armed (lib : ProtocolLib) (client : Client) : Prop where
  headerBuffer : client.binBuffer.length = lib.sizeHeader
  reads : (client.sockOpen = true ∧ client.reads.length = 1) ∨
    (client.sockOpen = false ∧ client.reads = [])

theorem armed_live {lib : ProtocolLib} {client : Client} (armed : Armed lib client) :
    Live client :=
  armed.reads.elim (fun opened => .inr opened.2) (fun closed => .inl closed.1)

theorem receive_fields {lib : ProtocolLib} {client : Client} {event : Completion}
    (armed : Armed lib client) (outstanding : event.read ∈ client.reads)
    (fits : event.bytes.length ≤ bufferSize lib client event.read) :
    (receive client event).sockOpen = true ∧ (receive client event).reads = [] ∧
      (receive client event).binBuffer.length = lib.sizeHeader := by
  obtain ⟨sock, single⟩ : client.sockOpen = true ∧ client.reads.length = 1 := by
    refine armed.reads.resolve_right fun closed => ?_
    simp [closed.2] at outstanding
  obtain ⟨read, only⟩ := List.length_eq_one_iff.mp single
  have same : event.read = read := by simpa [only] using outstanding
  have gone : client.reads.erase event.read = [] := by simp [only, same]
  unfold receive
  cases kind : event.read with
  | pbHeader =>
      rw [kind] at gone fits
      refine ⟨sock, gone, ?_⟩
      rw [overwrite_length (by rw [armed.headerBuffer]; exact fits)]
      exact armed.headerBuffer
  | _ =>
      rw [kind] at gone
      exact ⟨sock, gone, armed.headerBuffer⟩

theorem settled_arms {lib : ProtocolLib} {before after : Client}
    (buffer : before.binBuffer.length = lib.sizeHeader) (sock : before.sockOpen = true)
    (reads : before.reads = []) (settled : Settled before after) : Armed lib after := by
  obtain ⟨sameBuffer, next⟩ := settled
  refine ⟨sameBuffer ▸ buffer, ?_⟩
  rcases next with ⟨sameSock, read, more⟩ | ⟨closed, none⟩
  · exact .inl ⟨sameSock.trans sock, by simp [more, reads]⟩
  · exact .inr ⟨closed, none.trans reads⟩

theorem stalled_not_live {before after : Client} (sock : before.sockOpen = true)
    (reads : before.reads = []) (stalled : Stalled before after) : ¬Live after := by
  obtain ⟨_, sameSock, sameReads⟩ := stalled
  intro live
  rcases live with closed | single
  · simp [sameSock, sock] at closed
  · simp [sameReads, reads] at single

/-- One event: an answerable one re-arms the loop or closes the socket, any
other leaves it open with nothing outstanding. -/
theorem complete_outcome {lib : ProtocolLib} {client after : Client} {event : Completion}
    (armed : Armed lib client) (taken : complete lib client event = some after) :
    (Answerable lib event → Armed lib after) ∧ (¬Answerable lib event → ¬Live after) := by
  unfold complete at taken
  split_ifs at taken with possible
  obtain ⟨outstanding, filled⟩ := possible
  have fits : event.bytes.length ≤ bufferSize lib client event.read :=
    filled.elim le_of_eq fun short => short.2.le
  obtain ⟨sock, reads, buffer⟩ := receive_fields armed outstanding fits
  cases failed : event.error with
  | true =>
      rw [failed] at taken
      have settled := failed_read_closes lib taken
      exact ⟨fun _ => settled_arms buffer sock reads settled,
        fun refused => absurd (.inl failed) refused⟩
  | false =>
      have full : event.bytes.length = bufferSize lib client event.read := by
        simpa [failed] using filled
      rw [failed] at taken
      cases kind : event.read with
      | pbHeader =>
          have content : (receive client event).binBuffer = event.bytes := by
            rw [kind] at full
            have sized : event.bytes.length = client.binBuffer.length :=
              full.trans armed.headerBuffer.symm
            simp [receive, kind, overwrite_full sized]
          rw [kind] at taken
          obtain rfl := Option.some.inj taken
          simp only [doReadPbHeader, content, Bool.false_eq_true, if_false, Answerable, failed,
            kind, if_true, false_or]
          obtain ⟨arms, stalls⟩ := pb_header_outcome (receive client event)
            (lib.parseHeader event.bytes).2
          split_ifs with flag
          · exact ⟨fun known => settled_arms buffer sock reads (arms known.2),
              fun unknown => stalled_not_live sock reads
                (stalls (by simpa [flag] using unknown))⟩
          · exact ⟨fun known => absurd known.1 flag,
              fun _ => stalled_not_live sock reads ⟨rfl, rfl, rfl⟩⟩
      | _ =>
          have content : (receive client event).readBuffer = event.bytes := by
            rw [kind] at full
            simp [receive, kind, overwrite_full full]
          rw [kind] at taken
          obtain ⟨arms, stalls⟩ := body_handler_outcome lib (by simp) taken
          simp only [parseReadBuffer, content] at arms stalls
          simp only [Answerable, failed, kind, Bool.false_eq_true, reduceCtorEq, if_false,
            false_or]
          exact ⟨fun carries => settled_arms buffer sock reads (arms carries),
            fun missing => stalled_not_live sock reads (stalls (by simpa using missing))⟩

theorem login_sent_armed {lib : ProtocolLib} {client : Client}
    (buffer : client.binBuffer.length = lib.sizeHeader) (sock : client.sockOpen = true)
    (idle : client.reads = []) : Armed lib (loginRequestSent client false) :=
  settled_arms buffer sock idle ⟨rfl, .inl ⟨rfl, .pbHeader, rfl⟩⟩

theorem answerable_run_armed {lib : ProtocolLib} {client : Client} {events : List Completion}
    (armed : Armed lib client)
    (answerable : EveryStep (complete lib) (fun _ event => Answerable lib event) client events) :
    EveryState (complete lib) (Armed lib) client events :=
  guarded_invariant (complete lib) armed
    (fun _ _ _ before met taken => (complete_outcome before taken).1 met) answerable

/-- From the completed login write on, the loop is alive after every handler of
a run exactly when the run has only answerable events. -/
theorem read_loop_live_iff_answerable (lib : ProtocolLib) (client : Client)
    (buffer : client.binBuffer.length = lib.sizeHeader) (sock : client.sockOpen = true)
    (idle : client.reads = []) (events : List Completion) :
    EveryState (complete lib) Live (loginRequestSent client false) events ↔
      EveryStep (complete lib) (fun _ event => Answerable lib event)
        (loginRequestSent client false) events := by
  have armed := login_sent_armed buffer sock idle
  constructor
  · intro live
    -- a step that ends alive is answerable, so the loop stays armed up to every event
    have aliveStep : EveryStep (complete lib)
        (fun before event => ∀ after, complete lib before event = some after → Live after)
        (loginRequestSent client false) events := by
      intro done event before _ inside reached _ after taken
      exact live _ after inside (run_snoc (complete lib) reached taken)
    have stays : EveryState (complete lib) (Armed lib) (loginRequestSent client false) events :=
      guarded_invariant (complete lib) armed (fun before event after held alive taken => by
        by_contra lost
        have outcome := complete_outcome held taken
        exact outcome.2 (fun met => lost (outcome.1 met)) (alive after taken)) aliveStep
    intro done event before after inside reached taken
    have held := stays done before ((List.prefix_append done [event]).trans inside) reached
    by_contra refused
    exact (complete_outcome held taken).2 refused
      (live _ after inside (run_snoc (complete lib) reached taken))
  · intro answerable
    exact every_state_mono (complete lib) (fun _ => armed_live)
      (answerable_run_armed armed answerable)

/-- A two-byte header format: the length of the body, then the command. As with
the real parser, an empty body is a response without any sub-message. -/
def sampleLib : ProtocolLib where
  sizeHeader := 2
  parseHeader
    | [length, command] =>
        (true, { length := length.toNat
                 command := if command = 6 then .joinRoomResponse else .unknown command.toNat })
    | _ => (false, { length := 0, command := .unknown 0 })
  parseResponse body _ := (body.isEmpty, {})
  defaultDateTime := ⟨⟨0, 0, 0⟩, ⟨0, 0, 0⟩⟩

def emptyJoinAnswer : List Completion :=
  [{ read := .pbHeader, error := false, bytes := [0, 6] },
    { read := .joinRoomResponse, error := false, bytes := [] }]

theorem read_loop_live_iff_answerable_sample :
    EveryState (complete sampleLib) Live (loginRequestSent (Client.fresh [0, 0]) false)
        emptyJoinAnswer ↔
      EveryStep (complete sampleLib) (fun _ event => Answerable sampleLib event)
        (loginRequestSent (Client.fresh [0, 0]) false) emptyJoinAnswer :=
  read_loop_live_iff_answerable sampleLib (Client.fresh [0, 0]) rfl rfl rfl emptyJoinAnswer

theorem empty_join_answer_stalls :
    ¬EveryState (complete sampleLib) Live (loginRequestSent (Client.fresh [0, 0]) false)
      emptyJoinAnswer := by
  intro live
  have stalled := live emptyJoinAnswer _ (List.prefix_refl _) rfl
  revert stalled
  decide

end AppchatClient.Io.ReadLoop
