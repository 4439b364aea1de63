import AppchatClient.Session.Receivers

/-!
# What a frame and a slot change

The deques and the cache only grow at the end. For each frame and each slot
this module names what it appends, which deques it creates, which events a
frame posts and which requests a slot hands over.
-/

namespace AppchatClient.Session.Effects

open AppchatClient.Protocol AppchatClient.Io.Handlers AppchatClient.Lib.AppendMap
open AppchatClient.Cache.Refinement AppchatClient.Session.Receivers

set_option autoImplicit false

variable {lib : ProtocolLib} {core next : Core} {client : Client} {arrival : Arrival}

/-- The messages in a channel's deque, none when there is no deque. -/
def deque (client : Client) (channel : StdString) : List MsgText :=
  (client.mChannelsHistory channel).getD []

def present (client : Client) (channel : StdString) : Prop :=
  client.mChannelsHistory channel ≠ none

instance (client : Client) (channel : StdString) : Decidable (present client channel) :=
  inferInstanceAs (Decidable (client.mChannelsHistory channel ≠ none))

@[simp] theorem deque_emit (signal : Signal) (channel : StdString) :
    deque (client.emit signal) channel = deque client channel := rfl

@[simp] theorem deque_async_read_pb_header (channel : StdString) :
    deque client.asyncReadPbHeader channel = deque client channel := rfl

theorem deque_set_history (client : Client) (channel other : StdString) (messages : List MsgText) :
    deque (client.setHistory channel messages) other =
      if other = channel then messages else deque client other := by
  by_cases same : other = channel
  · simp [deque, Client.setHistory, same]
  · simp [deque, Client.setHistory, same]

theorem present_set_history (client : Client) (channel other : StdString)
    (messages : List MsgText) :
    present (client.setHistory channel messages) other ↔
      other = channel ∨ present client other := by
  by_cases same : other = channel
  · simp [present, Client.setHistory, same]
  · simp [present, Client.setHistory, same]

theorem deque_get_ptr_history (client : Client) (channel other : StdString) :
    deque (client.getPtrHistory channel) other = deque client other := by
  unfold Client.getPtrHistory
  cases entry : client.mChannelsHistory channel with
  | some messages => rfl
  | none =>
      rw [deque_set_history]
      by_cases same : other = channel
      · simp [deque, same, entry]
      · simp [same]

theorem present_get_ptr_history (channel other : StdString) :
    present (client.getPtrHistory channel) other ↔ other = channel ∨ present client other := by
  unfold Client.getPtrHistory
  cases entry : client.mChannelsHistory channel with
  | some messages =>
      constructor
      · exact Or.inr
      · rintro (rfl | held)
        · simp [present, entry]
        · exact held
  | none => exact present_set_history client channel other []

theorem client_id_get_ptr_history (client : Client) (channel : StdString) :
    (client.getPtrHistory channel).clientId = client.clientId := by
  unfold Client.getPtrHistory
  split <;> rfl

theorem deque_get_ptr_history_all (channels : List StdString) (other : StdString) :
    deque (channels.foldl Client.getPtrHistory client) other = deque client other := by
  induction channels generalizing client with
  | nil => rfl
  | cons channel rest ih =>
      rw [List.foldl_cons, ih]
      exact deque_get_ptr_history client channel other

theorem present_get_ptr_history_all (channels : List StdString) (other : StdString) :
    present (channels.foldl Client.getPtrHistory client) other ↔
      other ∈ channels ∨ present client other := by
  induction channels generalizing client with
  | nil => simp
  | cons channel rest ih =>
      rw [List.foldl_cons, ih, present_get_ptr_history, List.mem_cons]
      tauto

theorem deque_insert_at_end (channel other : StdString) (messages : List MsgText) :
    deque (insertAtEnd client channel messages) other =
      if other = channel then deque client other ++ messages else deque client other := by
  rw [insertAtEnd, deque_set_history]
  by_cases same : other = channel
  · subst same
    simp [deque]
  · simp [same]

theorem deque_insert_cached (cache : History) {channels : List StdString}
    (once : channels.Nodup) (other : StdString) :
    deque (channels.foldl
        (fun client channel => insertAtEnd client channel (cache.load channel)) client) other =
      if other ∈ channels then deque client other ++ cache.load other else deque client other := by
  induction channels generalizing client with
  | nil => simp
  | cons channel rest ih =>
      rw [List.nodup_cons] at once
      rw [List.foldl_cons, ih once.2, deque_insert_at_end]
      by_cases same : other = channel
      · subst same
        simp [once.1]
      · simp [same]

theorem present_insert_cached (cache : History) (channels : List StdString) (other : StdString) :
    present (channels.foldl
        (fun client channel => insertAtEnd client channel (cache.load channel)) client) other ↔
      other ∈ channels ∨ present client other := by
  induction channels generalizing client with
  | nil => simp
  | cons channel rest ih =>
      rw [List.foldl_cons, ih, insertAtEnd, present_set_history, List.mem_cons]
      tauto

theorem deque_push_back_all (client : Client) (messages : List MsgText)
    (channel other : StdString) :
    deque (messages.foldl (fun current msg => current.emplacePushBack channel msg) client) other =
      if other = channel then deque client other ++ messages else deque client other := by
  induction messages generalizing client with
  | nil => simp
  | cons msg rest ih =>
      rw [List.foldl_cons, ih, Client.emplacePushBack, deque_set_history]
      by_cases same : other = channel
      · subst same
        simp [deque]
      · simp [same]

theorem present_push_back_all (client : Client) (messages : List MsgText)
    (channel other : StdString) :
    present (messages.foldl (fun current msg => current.emplacePushBack channel msg) client) other ↔
      (other = channel ∧ messages ≠ []) ∨ present client other := by
  induction messages generalizing client with
  | nil => simp
  | cons msg rest ih =>
      rw [List.foldl_cons, ih, Client.emplacePushBack, present_set_history]
      simp only [ne_eq, reduceCtorEq, not_false_eq_true, and_true]
      tauto

theorem emitted_push_back_all (client : Client) (messages : List MsgText) (channel : StdString) :
    (messages.foldl (fun current msg => current.emplacePushBack channel msg) client).emitted =
      client.emitted := by
  induction messages generalizing client with
  | nil => rfl
  | cons msg rest ih =>
      rw [List.foldl_cons, ih]
      rfl

/-- The signals that a frame makes its handler emit. -/
def signals (lib : ProtocolLib) (arrival : Arrival) : List Signal :=
  match arrival.read with
  | .pbHeader => []
  | .inputResponse =>
      match arrival.response.inputResponse with
      | some answer => [.sendInputCode (if answer.status = .ok then .autorOK else .incorrectAutor)]
      | none => []
  | .regResponse =>
      match arrival.response.regResponse with
      | some answer => [.sendInputCode (if answer.status = .ok then .registrOK else .busyRegistr)]
      | none => []
  | .joinRoomResponse =>
      match arrival.response.joinRoomResponse with
      | some answer => if answer.status = .ok then [.joined answer.channelName] else []
      | none => []
  | .echoResponse => [.sendText (lib.parseTextRes arrival.response)]
  | .historyResponse =>
      match arrival.response.historyResponse with
      | some answer => [.historyReceived answer.channelName answer.messages, .sigUpdateChannels]
      | none => []
  | .channelsResponse =>
      match arrival.response.channelsResponse with
      | some channels => [.channelsReceived channels]
      | none => []

/-- The messages that a frame appends to a channel's deque. -/
def pushed (lib : ProtocolLib) (arrival : Arrival) (channel : StdString) : List MsgText :=
  match arrival.read with
  | .echoResponse =>
      if (lib.parseTextRes arrival.response).channelName = channel then
        [lib.parseTextRes arrival.response]
      else []
  | .historyResponse =>
      match arrival.response.historyResponse with
      | some answer => if answer.channelName = channel then answer.messages else []
      | none => []
  | _ => []

def emplaces (arrival : Arrival) (channel : StdString) : Prop :=
  arrival.read = .historyResponse ∧
    ∃ answer, arrival.response.historyResponse = some answer ∧ answer.channelName = channel ∧
      answer.messages ≠ []

structure Handled (lib : ProtocolLib) (before : Client) (arrival : Arrival) (after : Client) :
    Prop where
  emitted : after.emitted = before.emitted ++ signals lib arrival
  deque : ∀ channel, deque after channel = deque before channel ++ pushed lib arrival channel
  present : ∀ channel,
    present after channel ↔ emplaces arrival channel ∨ present before channel

theorem on_login_response_handled (client : Client) (accepted refused : StatusCode)
    (answer : Option LoginResponse) :
    (onLoginResponse accepted refused client answer).emitted = client.emitted ++
        (match answer with
          | some login => [.sendInputCode (if login.status = .ok then accepted else refused)]
          | none => []) ∧
      (onLoginResponse accepted refused client answer).mChannelsHistory =
        client.mChannelsHistory := by
  cases answer with
  | none => simp [onLoginResponse]
  | some login =>
      by_cases ok : login.status = .ok <;>
        simp [onLoginResponse, ok, Client.emit, Client.setLoginId, Client.asyncReadPbHeader,
          Client.asyncRead, Client.closeConnection]

theorem on_join_room_response_handled (lib : ProtocolLib) (client : Client) (response : Response) :
    (onJoinRoomResponse client response).emitted =
        client.emitted ++ signals lib ⟨.joinRoomResponse, response⟩ ∧
      (onJoinRoomResponse client response).mChannelsHistory = client.mChannelsHistory := by
  cases answer : response.joinRoomResponse with
  | none => simp [onJoinRoomResponse, signals, answer]
  | some room =>
      by_cases ok : room.status = .ok <;>
        simp [onJoinRoomResponse, signals, answer, ok, Client.emit, Client.asyncReadPbHeader,
          Client.asyncRead, Client.closeConnection]

theorem on_channels_response_handled (lib : ProtocolLib) (client : Client) (response : Response) :
    (onChannelsResponse client response).emitted =
        client.emitted ++ signals lib ⟨.channelsResponse, response⟩ ∧
      (onChannelsResponse client response).mChannelsHistory = client.mChannelsHistory := by
  cases answer : response.channelsResponse with
  | none => simp [onChannelsResponse, signals, answer, Client.closeConnection]
  | some channels =>
      simp [onChannelsResponse, signals, answer, Client.emit, Client.asyncReadPbHeader,
        Client.asyncRead]

theorem handled_of_map {after : Client}
    (emitted : after.emitted = client.emitted ++ signals lib arrival)
    (map : after.mChannelsHistory = client.mChannelsHistory)
    (other : arrival.read ≠ .echoResponse ∧ arrival.read ≠ .historyResponse) :
    Handled lib client arrival after where
  emitted := emitted
  deque channel := by
    have nonePushed : pushed lib arrival channel = [] := by
      unfold pushed
      split <;> simp_all
    rw [nonePushed, List.append_nil, deque, map]
    rfl
  present channel := by
    rw [present, map]
    constructor
    · exact Or.inr
    · rintro (⟨history, -⟩ | held)
      · exact absurd history other.2
      · exact held

theorem echo_handled {after : Client} {response : Response}
    (returned : onEchoResponse lib client response = some after) :
    Handled lib client ⟨.echoResponse, response⟩ after := by
  unfold onEchoResponse at returned
  cases entry : client.mChannelsHistory (lib.parseTextRes response).channelName with
  | none => simp [entry] at returned
  | some messages =>
      simp only [entry, Option.some.injEq] at returned
      subst returned
      constructor
      · rfl
      · intro channel
        have step := deque_set_history client (lib.parseTextRes response).channelName
          channel (messages ++ [lib.parseTextRes response])
        by_cases same : channel = (lib.parseTextRes response).channelName
        · subst same
          have before : deque client (lib.parseTextRes response).channelName = messages := by
            simp [deque, entry]
          rw [if_pos rfl] at step
          simpa [pushed, before] using step
        · rw [if_neg same] at step
          simpa [pushed, Ne.symm same] using step
      · intro channel
        have step := present_set_history client (lib.parseTextRes response).channelName
          channel (messages ++ [lib.parseTextRes response])
        refine step.trans ?_
        constructor
        · rintro (rfl | held)
          · simp [present, entry]
          · exact Or.inr held
        · rintro (⟨other, -⟩ | held)
          · cases other
          · exact Or.inr held

theorem history_handled (response : Response) :
    Handled lib client ⟨.historyResponse, response⟩ (onHistoryResponse client response) := by
  unfold onHistoryResponse
  cases answer : response.historyResponse with
  | none =>
      constructor
      · simp [signals, answer, Client.closeConnection]
      · intro channel
        simp [pushed, answer, deque, Client.closeConnection]
      · intro channel
        simp [emplaces, answer, present, Client.closeConnection]
  | some history =>
      constructor
      · have kept := emitted_push_back_all client history.messages history.channelName
        simp [signals, answer, Client.emit, Client.asyncReadPbHeader, Client.asyncRead, kept]
      · intro channel
        have step := deque_push_back_all client history.messages history.channelName channel
        by_cases same : channel = history.channelName
        · rw [if_pos same] at step
          simpa [pushed, answer, same.symm] using step
        · rw [if_neg same] at step
          simpa [pushed, answer, Ne.symm same] using step
      · intro channel
        have step := present_push_back_all client history.messages history.channelName channel
        refine step.trans ?_
        simp only [emplaces, answer, Option.some.injEq, exists_eq_left', true_and]
        constructor
        · rintro (⟨rfl, someMessage⟩ | held)
          · exact Or.inl ⟨rfl, someMessage⟩
          · exact Or.inr held
        · rintro (⟨rfl, someMessage⟩ | held)
          · exact Or.inl ⟨rfl, someMessage⟩
          · exact Or.inr held

theorem on_body_handled {after : Client} (returned : onBody lib client arrival = some after) :
    Handled lib client arrival after := by
  rcases arrival with ⟨read, response⟩
  cases read with
  | pbHeader => cases returned
  | inputResponse =>
      obtain rfl := Option.some.inj returned
      have login := on_login_response_handled client .autorOK .incorrectAutor
        response.inputResponse
      exact handled_of_map login.1 login.2 ⟨by simp, by simp⟩
  | regResponse =>
      obtain rfl := Option.some.inj returned
      have login := on_login_response_handled client .registrOK .busyRegistr
        response.regResponse
      exact handled_of_map login.1 login.2 ⟨by simp, by simp⟩
  | joinRoomResponse =>
      obtain rfl := Option.some.inj returned
      have room := on_join_room_response_handled lib client response
      exact handled_of_map room.1 room.2 ⟨by simp, by simp⟩
  | echoResponse => exact echo_handled returned
  | historyResponse =>
      obtain rfl := Option.some.inj returned
      exact history_handled response
  | channelsResponse =>
      obtain rfl := Option.some.inj returned
      have list := on_channels_response_handled lib client response
      exact handled_of_map list.1 list.2 ⟨by simp, by simp⟩

/-- What `receive` leaves behind. -/
structure Received (lib : ProtocolLib) (core : Core) (arrival : Arrival) (next : Core) : Prop where
  cache : next.cache = core.cache
  toServer : next.toServer = core.toServer
  queue : next.queue = core.queue ++ (signals lib arrival).flatMap connected
  deque : ∀ channel,
    deque next.client channel = deque core.client channel ++ pushed lib arrival channel
  present : ∀ channel,
    present next.client channel ↔ emplaces arrival channel ∨ present core.client channel

theorem receive_received (taken : core.receive lib arrival = some next) :
    Received lib core arrival next := by
  unfold Core.receive at taken
  split_ifs at taken
  rcases Option.map_eq_some_iff.mp taken with ⟨client, returned, rfl⟩
  have handled := on_body_handled returned
  constructor
  · rfl
  · rfl
  · simp [Core.post, handled.emitted]
  · exact handled.deque
  · exact handled.present

/-- A live message is handled only when its channel has a deque. -/
theorem echo_present {response : Response}
    (taken : core.receive lib ⟨.echoResponse, response⟩ = some next) :
    present core.client (lib.parseTextRes response).channelName := by
  unfold Core.receive at taken
  split_ifs at taken
  rcases Option.map_eq_some_iff.mp taken with ⟨client, returned, -⟩
  intro missing
  simp only [onBody, onEchoResponse, missing] at returned
  cases returned

def creates (core : Core) : Slot → StdString → Prop
  | .onAuthorized code, channel => code = .autorOK ∧ channel ∈ core.cache.keys
  | .controlJoined name, channel => channel = name
  | .onJoined name, channel => channel = name
  | .controlChannelsReceived channels, channel => channel ∈ channels
  | _, _ => False

/-- The cached messages that a slot appends to a channel's deque. -/
def loaded (core : Core) : Slot → StdString → List MsgText
  | .onAuthorized code, channel => if code = .autorOK then core.cache.load channel else []
  | _, _ => []

/-- The messages that a slot saves under a channel. -/
def saved : Slot → StdString → List MsgText
  | .onMessageReceived msg, channel => if msg.channelName = channel then [msg] else []
  | .onHistoryReceived name hist, channel =>
      if name = channel then hist.map fun msg => { msg with channelName := channel } else []
  | _, _ => []

def requested (lib : ProtocolLib) (core : Core) : Slot → List Request
  | .onAuthorized code => if code = .autorOK then [.channels core.client.clientId] else []
  | .onJoined name => [.history core.client.clientId name (latest lib (deque core.client name))]
  | .onChannelsReceived channels =>
      channels.map fun channel =>
        .history core.client.clientId channel (lastTime lib (core.cache.load channel))
  | _ => []

/-- What the events of a frame save is what the frame appends to the deques. -/
theorem saved_posted (lib : ProtocolLib) (arrival : Arrival) (channel : StdString) :
    ((signals lib arrival).flatMap connected).flatMap (fun slot => saved slot channel) =
      (pushed lib arrival channel).map fun msg => { msg with channelName := channel } := by
  rcases arrival with ⟨read, response⟩
  cases read with
  | echoResponse =>
      by_cases same : (lib.parseTextRes response).channelName = channel
      · subst same
        simp [signals, connected, saved, pushed]
      · simp [signals, connected, saved, pushed, same]
  | historyResponse =>
      cases answer : response.historyResponse with
      | none => simp [signals, pushed, answer]
      | some history =>
          by_cases same : history.channelName = channel <;>
            simp [signals, connected, saved, pushed, answer, same]
  | pbHeader => rfl
  | inputResponse =>
      cases answer : response.inputResponse <;> simp [signals, connected, saved, pushed, answer]
  | regResponse =>
      cases answer : response.regResponse <;> simp [signals, connected, saved, pushed, answer]
  | joinRoomResponse =>
      cases answer : response.joinRoomResponse with
      | none => simp [signals, pushed, answer]
      | some room =>
          by_cases ok : room.status = .ok <;>
            simp [signals, connected, saved, pushed, answer, ok]
  | channelsResponse =>
      cases answer : response.channelsResponse <;> simp [signals, connected, saved, pushed, answer]

theorem run_slot_present (slot : Slot) (channel : StdString) :
    present (runSlot lib core slot).client channel ↔
      creates core slot channel ∨ present core.client channel := by
  cases slot with
  | onAuthorized code =>
      by_cases accepted : code = .autorOK
      · simp only [runSlot, onAuthorized, accepted, if_true, Core.request, creates, true_and]
        exact present_insert_cached core.cache core.cache.keys channel
      · simp [runSlot, onAuthorized, accepted, creates]
  | controlJoined name => exact present_get_ptr_history name channel
  | onJoined name => exact present_get_ptr_history name channel
  | controlChannelsReceived channels => exact present_get_ptr_history_all channels channel
  | onChannelsReceived channels => simp [runSlot, creates, onChannelsReceived, Core.request]
  | _ => simp [runSlot, creates]

theorem run_slot_deque (slot : Slot) (channel : StdString) :
    deque (runSlot lib core slot).client channel =
      deque core.client channel ++ loaded core slot channel := by
  cases slot with
  | onAuthorized code =>
      by_cases accepted : code = .autorOK
      · simp only [runSlot, onAuthorized, accepted, if_true, Core.request, loaded]
        rw [deque_insert_cached core.cache core.cache.keys_nodup]
        by_cases cached : channel ∈ core.cache.keys
        · rw [if_pos cached]
        · have empty : core.cache.load channel = [] := by
            by_contra filled
            exact cached (Multimap.mem_keys.mpr filled)
          simp [cached, empty]
      · simp [runSlot, onAuthorized, accepted, loaded]
  | controlJoined name => simp [runSlot, loaded, deque_get_ptr_history]
  | onJoined name => simp [runSlot, loaded, onJoined, Core.request, deque_get_ptr_history]
  | controlChannelsReceived channels => simp [runSlot, loaded, deque_get_ptr_history_all]
  | onChannelsReceived channels => simp [runSlot, loaded, onChannelsReceived, Core.request]
  | _ => simp [runSlot, loaded]

theorem load_record (cache : History) (name : StdString) (msg : MsgText) (channel : StdString) :
    (record cache (name, msg)).load channel =
      cache.load channel ++
        if name = channel then [{ msg with channelName := channel }] else [] := by
  rw [record, Multimap.load_save]
  by_cases same : name = channel
  · simp [same]
  · simp [same, Ne.symm same]

theorem load_record_all (hist : List MsgText) (cache : History) (name channel : StdString) :
    (hist.foldl (fun cache msg => record cache (name, msg)) cache).load channel =
      cache.load channel ++
        if name = channel then hist.map fun msg => { msg with channelName := channel } else [] := by
  induction hist generalizing cache with
  | nil => simp
  | cons msg rest ih =>
      rw [List.foldl_cons, ih, load_record]
      by_cases same : name = channel <;> simp [same]

theorem run_slot_load (slot : Slot) (channel : StdString) :
    (runSlot lib core slot).cache.load channel = core.cache.load channel ++ saved slot channel := by
  cases slot with
  | onMessageReceived msg =>
      simp only [runSlot, load_record, saved]
      by_cases same : msg.channelName = channel
      · subst same
        rfl
      · simp [same]
  | onHistoryReceived name hist => exact load_record_all hist core.cache name channel
  | onAuthorized code =>
      by_cases accepted : code = .autorOK <;>
        simp [runSlot, onAuthorized, accepted, saved, Core.request]
  | onJoined name => simp [runSlot, saved, onJoined, Core.request]
  | onChannelsReceived channels => simp [runSlot, saved, onChannelsReceived, Core.request]
  | _ => simp [runSlot, saved]

theorem on_authorized_cache (core : Core) (code : StatusCode) :
    (onAuthorized core code).cache = core.cache := by
  by_cases accepted : code = .autorOK <;> simp [onAuthorized, accepted, Core.request]

theorem run_slot_queue (slot : Slot) : (runSlot lib core slot).queue = core.queue := by
  cases slot with
  | onAuthorized code =>
      by_cases accepted : code = .autorOK <;>
        simp [runSlot, onAuthorized, accepted, Core.request]
  | _ => rfl

theorem run_slot_to_server (slot : Slot) :
    (runSlot lib core slot).toServer = core.toServer ++ requested lib core slot := by
  cases slot with
  | onAuthorized code =>
      by_cases accepted : code = .autorOK <;>
        simp [runSlot, onAuthorized, accepted, Core.request, requested]
  | onJoined name =>
      have same := client_id_get_ptr_history core.client name
      have kept := deque_get_ptr_history core.client name name
      rw [deque] at kept
      simp [runSlot, onJoined, Core.request, requested, same, kept]
  | onChannelsReceived channels => rfl
  | _ => exact (List.append_nil _).symm

theorem received_front {State : Type} {wire : List Arrival} {put : Core → List Arrival → State}
    {after : State}
    (taken : (match wire with
      | arrival :: rest => (core.receive lib arrival).map fun received => put received rest
      | [] => none) = some after) :
    ∃ arrival rest received, wire = arrival :: rest ∧
      core.receive lib arrival = some received ∧ after = put received rest := by
  cases wire with
  | nil => cases taken
  | cons arrival rest =>
      rcases Option.map_eq_some_iff.mp taken with ⟨received, handled, same⟩
      exact ⟨arrival, rest, received, rfl, handled, same.symm⟩

theorem delivered_front {State : Type} {put : Core → Slot → State} {after : State}
    (taken : (match core.queue with
      | slot :: rest => some (put (runSlot lib { core with queue := rest } slot) slot)
      | [] => none) = some after) :
    ∃ slot rest, core.queue = slot :: rest ∧
      after = put (runSlot lib { core with queue := rest } slot) slot := by
  cases waiting : core.queue with
  | nil => simp [waiting] at taken
  | cons slot rest =>
      simp only [waiting, Option.some.injEq] at taken
      exact ⟨slot, rest, rfl, taken.symm⟩

theorem deliver_some (taken : core.deliver lib = some next) :
    ∃ slot rest, core.queue = slot :: rest ∧
      next = runSlot lib { core with queue := rest } slot :=
  @delivered_front lib core Core (fun next _ => next) next taken

end AppchatClient.Session.Effects
