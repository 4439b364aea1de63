import AppchatClient.Session.Deque
import AppchatClient.Session.Server

/-!
# A connection with any server

The connection of `Session.Deque` without its promise: the server may send any
frame at any time. What a result needs of the server is a guard on the sends of
a run. The login is followed from the frame that accepts it to the event that
handles it.
-/

namespace AppchatClient.Session.Exchange

open AppchatClient.Protocol AppchatClient.Io.Handlers AppchatClient.Lib.Runs
open AppchatClient.Cache.Refinement AppchatClient.Session.Receivers AppchatClient.Session.Effects
open AppchatClient.Session.Deque (Link LinkAction echoChannel)
open AppchatClient.Session.Server (saving carried carried_append)

set_option autoImplicit false

def step (lib : ProtocolLib) (link : Link) : LinkAction → Option Link
  | .send arrival =>
      some { link with wire := link.wire ++ [arrival], sent := link.sent ++ [arrival] }
  | .io => Deque.step lib link .io
  | .slot => Deque.step lib link .slot

variable {lib : ProtocolLib}

def historyOf (arrival : Arrival) : Option HistoryResponse :=
  if arrival.read = .historyResponse then arrival.response.historyResponse else none

def historyChannel (arrival : Arrival) : Option StdString :=
  (historyOf arrival).map HistoryResponse.channelName

theorem pushed_cases {arrival : Arrival} {channel : StdString}
    (someMessage : pushed lib arrival channel ≠ []) :
    echoChannel lib arrival = some channel ∨ historyChannel arrival = some channel := by
  rcases arrival with ⟨read, response⟩
  cases read with
  | echoResponse =>
      left
      by_cases same : (lib.parseTextRes response).channelName = channel
      · simp [echoChannel, same]
      · simp [pushed, same] at someMessage
  | historyResponse =>
      right
      cases answer : response.historyResponse with
      | none => simp [pushed, answer] at someMessage
      | some history =>
          by_cases same : history.channelName = channel
          · simp [historyChannel, historyOf, answer, same]
          · simp [pushed, answer, same] at someMessage
  | _ => exact absurd rfl someMessage

def askedFor (requests : List Request) (channel : StdString) : Bool :=
  requests.any fun
    | .history _ name _ => name = channel
    | _ => false

def acceptance : Slot → Option StatusCode
  | .onAuthorized code => if code = .autorOK ∨ code = .registrOK then some code else none
  | _ => none

def acceptances (lib : ProtocolLib) (arrival : Arrival) : List StatusCode :=
  ((signals lib arrival).flatMap connected).filterMap acceptance

def loginsSent (lib : ProtocolLib) (link : Link) : List StatusCode :=
  link.sent.flatMap (acceptances lib)

def loginsWaiting (lib : ProtocolLib) (link : Link) : List StatusCode :=
  link.core.queue.filterMap acceptance ++ link.wire.flatMap (acceptances lib)

/-- Only `send_input_code` is a login signal. -/
theorem acceptance_connected (signal : Signal) :
    (connected signal).filterMap acceptance =
      match signal with
      | .sendInputCode code => (acceptance (.onAuthorized code)).toList
      | _ => [] := by
  cases signal with
  | sendInputCode code =>
      by_cases accepted : code = .autorOK ∨ code = .registrOK <;>
        simp [connected, acceptance, accepted, List.filterMap_cons]
  | _ => rfl

theorem acceptances_eq (arrival : Arrival) :
    acceptances lib arrival =
      (signals lib arrival).flatMap fun signal => (connected signal).filterMap acceptance := by
  rw [acceptances, List.filterMap_flatMap]

theorem acceptances_single (arrival : Arrival) : (acceptances lib arrival).length ≤ 1 := by
  have posted (code : StatusCode) : (acceptance (.onAuthorized code)).toList.length ≤ 1 :=
    Option.length_toList_le
  rcases arrival with ⟨read, response⟩
  rw [acceptances_eq]
  simp only [acceptance_connected, signals]
  cases read with
  | inputResponse => cases response.inputResponse <;> simp [posted]
  | regResponse => cases response.regResponse <;> simp [posted]
  | joinRoomResponse =>
      cases response.joinRoomResponse with
      | none => simp
      | some room => by_cases ok : room.status = .ok <;> simp [ok]
  | historyResponse => cases response.historyResponse <;> simp
  | channelsResponse => cases response.channelsResponse <;> simp
  | _ => simp

def LoggedIn (lib : ProtocolLib) (link : Link) : Prop :=
  loginsSent lib link ≠ [] ∧ loginsWaiting lib link = []

instance (link : Link) : Decidable (LoggedIn lib link) :=
  inferInstanceAs (Decidable (_ ∧ _))

/-- The rows come into memory with the event of an accepted authorisation. -/
theorem loaded_cases (core : Core) (slot : Slot) (channel : StdString) :
    (slot = .onAuthorized .autorOK ∧ loaded core slot channel = core.cache.load channel) ∨
      (.autorOK ∉ (acceptance slot).toList ∧ loaded core slot channel = []) := by
  cases slot with
  | onAuthorized code =>
      by_cases authorised : code = .autorOK
      · subst authorised
        exact Or.inl ⟨rfl, rfl⟩
      · right
        constructor
        · simp only [acceptance]
          split_ifs
          · simpa using Ne.symm authorised
          · simp
        · simp [loaded, authorised]
  | _ => exact Or.inr ⟨by simp [acceptance], rfl⟩

theorem saving_append (first second : List Slot) (channel : StdString) :
    saving (first ++ second) channel = saving first channel ++ saving second channel :=
  List.flatMap_append

def content (msg : MsgText) : StdString × StdString × DateTime := (msg.author, msg.text, msg.dt)

theorem content_saving_posted (lib : ProtocolLib) (arrival : Arrival) (channel : StdString) :
    (saving ((signals lib arrival).flatMap connected) channel).map content =
      (pushed lib arrival channel).map content := by
  rw [saving, saved_posted, List.map_map]
  rfl

def oneRow : History := record Lib.AppendMap.Multimap.empty (room, Deque.hello)

end AppchatClient.Session.Exchange
