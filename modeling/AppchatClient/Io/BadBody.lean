import AppchatClient.Io.ReadLoop

/-!
# Bodies that are not answers

A body may fail to parse, or parse without the sub-message that its handler is
for. Five handlers then stop before they change or publish anything;
`do_read_echo_response` goes on in both cases.
-/

namespace AppchatClient.Io.BadBody

open AppchatClient.Protocol AppchatClient.Io.Handlers

set_option autoImplicit false

variable {lib : ProtocolLib} {client : Client}

def hasSubMessage (response : Response) : Read → Bool
  | .pbHeader => true
  | .inputResponse => response.inputResponse.isSome
  | .regResponse => response.regResponse.isSome
  | .joinRoomResponse => response.joinRoomResponse.isSome
  | .echoResponse => response.textResponse.isSome
  | .historyResponse => response.historyResponse.isSome
  | .channelsResponse => response.channelsResponse.isSome

def NotAnswer (lib : ProtocolLib) (client : Client) (read : Read) : Prop :=
  (parseReadBuffer lib client).1 = false ∨
    (parseReadBuffer lib client).1 = true ∧
      hasSubMessage (parseReadBuffer lib client).2 read = false

structure Unaffected (before after : Client) : Prop where
  mChannelsHistory : after.mChannelsHistory = before.mChannelsHistory
  clientId : after.clientId = before.clientId
  emitted : after.emitted = before.emitted

theorem unaffected_refl (client : Client) : Unaffected client client := ⟨rfl, rfl, rfl⟩

theorem close_unaffected (client : Client) : Unaffected client client.closeConnection :=
  ⟨rfl, rfl, rfl⟩

theorem read_response_unaffected {read : Read} {onResponse : Client → Response → Client}
    (bad : NotAnswer lib client read)
    (stops : ∀ response, hasSubMessage response read = false →
      Unaffected client (onResponse client response)) :
    Unaffected client (readResponse lib client false onResponse) := by
  simp only [readResponse, Bool.false_eq_true, if_false]
  rcases bad with failed | ⟨parsed, lacks⟩
  · rw [if_neg (by simp [failed])]
    exact close_unaffected client
  · rw [if_pos parsed]
    exact stops _ lacks

theorem login_unaffected (accepted refused : StatusCode) {answer : Option LoginResponse}
    (lacks : answer.isSome = false) :
    Unaffected client (onLoginResponse accepted refused client answer) := by
  cases answer with
  | none => exact unaffected_refl client
  | some login => cases lacks

theorem join_room_unaffected {response : Response}
    (lacks : hasSubMessage response .joinRoomResponse = false) :
    Unaffected client (onJoinRoomResponse client response) := by
  cases answer : response.joinRoomResponse with
  | none =>
      rw [onJoinRoomResponse, answer]
      exact unaffected_refl client
  | some join => simp [hasSubMessage, answer] at lacks

theorem history_unaffected {response : Response}
    (lacks : hasSubMessage response .historyResponse = false) :
    Unaffected client (onHistoryResponse client response) := by
  cases answer : response.historyResponse with
  | none =>
      rw [onHistoryResponse, answer]
      exact close_unaffected client
  | some history => simp [hasSubMessage, answer] at lacks

theorem channels_unaffected {response : Response}
    (lacks : hasSubMessage response .channelsResponse = false) :
    Unaffected client (onChannelsResponse client response) := by
  cases answer : response.channelsResponse with
  | none =>
      rw [onChannelsResponse, answer]
      exact close_unaffected client
  | some channels => simp [hasSubMessage, answer] at lacks

/-- The handler of a live message emits `send_text` whenever it returns. -/
theorem echo_affects {after : Client}
    (returned : doReadEchoResponse lib client false = some after) : ¬ Unaffected client after := by
  intro unaffected
  have emitted := unaffected.emitted
  simp only [doReadEchoResponse, Bool.false_eq_true, if_false, onEchoResponse] at returned
  split at returned
  · obtain rfl := Option.some.inj returned
    simp [Client.emit, Client.setHistory, Client.asyncReadPbHeader, Client.asyncRead] at emitted
  · cases returned

theorem bad_body_unaffected_iff {read : Read} (body : read ≠ .pbHeader)
    (bad : NotAnswer lib client read) :
    (∃ after, handler lib client false read = some after ∧ Unaffected client after) ↔
      read ≠ .echoResponse := by
  constructor
  · rintro ⟨after, returned, unaffected⟩ rfl
    exact echo_affects returned unaffected
  · intro other
    cases read with
    | pbHeader => exact absurd rfl body
    | echoResponse => exact absurd rfl other
    | inputResponse =>
        exact ⟨_, rfl, read_response_unaffected bad fun response lacks =>
          login_unaffected .autorOK .incorrectAutor lacks⟩
    | regResponse =>
        exact ⟨_, rfl, read_response_unaffected bad fun response lacks =>
          login_unaffected .registrOK .busyRegistr lacks⟩
    | joinRoomResponse =>
        exact ⟨_, rfl, read_response_unaffected bad fun _ => join_room_unaffected⟩
    | historyResponse =>
        exact ⟨_, rfl, read_response_unaffected bad fun _ => history_unaffected⟩
    | channelsResponse =>
        exact ⟨_, rfl, read_response_unaffected bad fun _ => channels_unaffected⟩

/-- A body that is cut off within a text message: the parse fails and leaves
the fields read so far. An empty body parses and holds no text message. -/
def partialText : MsgText where
  author := "ann".toList
  text := []
  channelName := "room".toList
  dt := ⟨⟨0, 0, 0⟩, ⟨0, 0, 0⟩⟩

def textLib : ProtocolLib where
  sizeHeader := 2
  parseHeader _ := (false, { length := 0, command := .unknown 0 })
  parseResponse body _ :=
    if body.isEmpty then (true, {}) else (false, { textResponse := some partialText })
  defaultDateTime := ⟨⟨0, 0, 0⟩, ⟨0, 0, 0⟩⟩

theorem bad_body_unaffected_iff_sample :
    (∃ after, handler textLib (Client.fresh [0, 0]) false .historyResponse = some after ∧
        Unaffected (Client.fresh [0, 0]) after) ↔ Read.historyResponse ≠ .echoResponse :=
  bad_body_unaffected_iff (by decide) (Or.inr ⟨rfl, rfl⟩)

theorem echo_goes_on :
    (NotAnswer textLib
        { ((Client.fresh [0, 0]).setHistory "room".toList []) with readBuffer := [10] }
        .echoResponse ∧
      ∃ after, handler textLib
          { ((Client.fresh [0, 0]).setHistory "room".toList []) with readBuffer := [10] } false
          .echoResponse = some after ∧
        after.mChannelsHistory "room".toList = some [partialText] ∧
        after.emitted = [.sendText partialText]) ∧
      NotAnswer textLib (Client.fresh [0, 0]) .echoResponse ∧
        handler textLib (Client.fresh [0, 0]) false .echoResponse = none := by
  refine ⟨⟨Or.inl rfl, _, rfl, by decide, by decide⟩, Or.inr ⟨rfl, rfl⟩, rfl⟩

end AppchatClient.Io.BadBody
