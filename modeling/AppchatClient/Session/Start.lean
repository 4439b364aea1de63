import AppchatClient.Session.Server

/-!
# The beginning of a session

Until `on_authorized` has run there is no deque, so no live message can be
handled, and no slot runs before it that asks for messages. Its turn comes
first because every queue on the way is FIFO.
-/

namespace AppchatClient.Session.Start

open AppchatClient.Protocol AppchatClient.Io.Handlers AppchatClient.Cache.Refinement
open AppchatClient.Session.Receivers AppchatClient.Session.Effects AppchatClient.Session.Server

set_option autoImplicit false

variable {lib : ProtocolLib} {before after : World} {action : SessionAction}
variable {login : Login} {cache : History}

def userRequest : Request → Bool
  | .joinRoom _ _ => true
  | .sendText _ => true
  | _ => false

def userFrame (arrival : Arrival) : Bool :=
  arrival.read = .joinRoomResponse ∨ arrival.read = .echoResponse

def joinSlot : Slot → Bool
  | .controlJoined _ => true
  | .onJoined _ => true
  | _ => false

/-- Where the login is: with the server, on its way back, at the front of the
events, or lost with the connection. -/
inductive Turn (login : Login) (world : World) : Prop where
  | unserved (rest : List Request) (requests : world.core.toServer = login.request :: rest)
      (users : rest.all userRequest) (authorised : world.authorised = false)
      (wire : world.s2c = []) (queue : world.core.queue = [])
  | answered (frames : List Arrival) (users : world.core.toServer.all userRequest)
      (authorised : world.authorised = world.connected)
      (wire : world.s2c = login.answer world.userId :: frames) (others : frames.all userFrame)
      (queue : world.core.queue = [])
  | posted (shown slots : List Slot) (users : world.core.toServer.all userRequest)
      (authorised : world.authorised = world.connected) (wire : world.s2c.all userFrame)
      (queue : world.core.queue = shown ++ .onAuthorized login.code :: slots)
      (window : shown = [.changeWindow login.code] ∨ shown = []) (joins : slots.all joinSlot)
  | lost (offline : world.connected = false) (authorised : world.authorised = false)
      (wire : world.s2c = []) (queue : world.core.queue = [])

structure Opening (login : Login) (cache : History) (world : World) : Prop where
  noDeque : ∀ channel, ¬ present world.core.client channel
  cache : world.core.cache = cache
  asked : world.asked = []
  turn : Turn login world

/-- What `on_authorized` leaves. -/
structure Opened (login : Login) (cache : History) (world : World) : Prop where
  deques : ∀ channel, deque world.core.client channel =
    if login.code = .autorOK then cache.load channel else []
  cache : world.core.cache = cache
  asked : world.asked = []
  queue : world.core.queue.all joinSlot
  wire : world.s2c.all userFrame
  requests : ∀ request ∈ world.core.toServer, isLogin request = false
  authorised : world.authorised = world.connected

theorem opening_connect (world : World) (login : Login) :
    Opening login world.core.cache (world.connect login) where
  noDeque channel := by simp [World.connect, Core.request, freshCore, present]
  cache := rfl
  asked := rfl
  turn := .unserved [] rfl rfl rfl rfl rfl

theorem opening_offline (log : ChatLog) (members : List StdString) (userId : Identifier)
    (login : Login) : Opening login cache (World.offline log members userId cache) where
  noDeque channel := by simp [World.offline, freshCore, present]
  cache := rfl
  asked := rfl
  turn := .lost rfl rfl rfl rfl

theorem live_user (world : World) (msg : MsgText) : (world.live msg).all userFrame = true := by
  unfold World.live
  split_ifs <;> rfl

theorem reply_user (world : World) {request : Request} (user : userRequest request = true) :
    (world.reply request).all userFrame = true ∧ isLogin request = false := by
  cases request with
  | joinRoom id channel =>
      refine ⟨?_, rfl⟩
      simp only [World.reply]
      split_ifs <;> rfl
  | sendText msg => exact ⟨rfl, rfl⟩
  | authorisation _ _ => cases user
  | registration _ _ => cases user
  | history _ _ _ => cases user
  | channels _ => cases user

theorem received_user {core next : Core} {arrival : Arrival} (user : userFrame arrival = true)
    (noDeque : ∀ channel, ¬ present core.client channel)
    (taken : core.receive lib arrival = some next) :
    ((signals lib arrival).flatMap connected).all joinSlot = true ∧
      ∀ channel, ¬ present next.client channel := by
  rcases arrival with ⟨read, response⟩
  have joining : read = .joinRoomResponse := by
    rcases of_decide_eq_true user with join | live
    · exact join
    · have same : read = .echoResponse := live
      subst same
      exact absurd (echo_present taken) (noDeque _)
  subst joining
  constructor
  · cases answer : response.joinRoomResponse with
    | none => simp [signals, answer]
    | some room =>
        by_cases ok : room.status = .ok <;> simp [signals, answer, ok, connected, joinSlot]
  · intro channel found
    rcases ((receive_received taken).present channel).mp found with ⟨history, -⟩ | held
    · cases history
    · exact noDeque channel held

theorem signals_answer (login : Login) (id : Identifier) :
    (signals lib (login.answer id)).flatMap connected =
      [.changeWindow login.code, .onAuthorized login.code] := by
  cases login <;> rfl

theorem received_answer {core next : Core} {id : Identifier}
    (noDeque : ∀ channel, ¬ present core.client channel)
    (taken : core.receive lib (login.answer id) = some next) :
    ∀ channel, ¬ present next.client channel := by
  intro channel found
  rcases ((receive_received taken).present channel).mp found with ⟨history, -⟩ | held
  · cases login <;> cases history
  · exact noDeque channel held

theorem post_opening {msg : MsgText} (opening : Opening login cache before)
    (taken : step lib before (.post msg) = some after) : Opening login cache after := by
  rcases post_some taken with ⟨newest, rfl⟩
  refine ⟨opening.noDeque, opening.cache, opening.asked, ?_⟩
  have users := live_user before msg
  have unheard (authorised : before.authorised = false) : before.live msg = [] := by
    simp [World.live, authorised]
  cases opening.turn with
  | unserved rest requests others authorised wire queue =>
      refine .unserved rest requests others authorised ?_ queue
      simp [World.push, wire, unheard authorised]
  | answered frames requests authorised wire others queue =>
      refine .answered (frames ++ before.live msg) requests authorised ?_ ?_ queue
      · simp [World.push, wire]
      · simp [others, users]
  | posted shown slots requests authorised wire queue window joins =>
      refine .posted shown slots requests authorised ?_ queue window joins
      simp [World.push, wire, users]
  | lost offline authorised wire queue =>
      exact .lost offline authorised (by simp [World.push, wire, unheard authorised]) queue

theorem serve_opening (opening : Opening login cache before)
    (taken : step lib before .serve = some after) : Opening login cache after := by
  rcases serve_some taken with ⟨online, request, rest, waiting, rfl⟩
  refine ⟨opening.noDeque, opening.cache, opening.asked, ?_⟩
  have served (users : before.core.toServer.all userRequest = true) :
      userRequest request = true ∧ rest.all userRequest = true := by
    simpa [waiting] using users
  cases opening.turn with
  | unserved others requests users authorised wire queue =>
      rw [waiting] at requests
      obtain ⟨rfl, rfl⟩ := List.cons.inj requests
      refine .answered [] users ?_ ?_ rfl queue
      · cases login <;> simp [World.answer, World.push, isLogin, Login.request, online]
      · cases login <;>
          simp [World.answer, World.push, World.reply, wire, Login.request, Login.answer]
  | answered frames users authorised wire others queue =>
      have user := reply_user before (served users).1
      refine .answered (frames ++ before.reply request) (served users).2 ?_ ?_ ?_ queue
      · simp [World.answer, World.push, user.2, authorised]
      · simp [World.answer, World.push, wire]
      · simp [others, user.1]
  | posted shown slots users authorised wire queue window joins =>
      have user := reply_user before (served users).1
      refine .posted shown slots (served users).2 ?_ ?_ queue window joins
      · simp [World.answer, World.push, user.2, authorised]
      · simp [World.answer, World.push, wire, user.1]
  | lost offline authorised wire queue =>
      rw [offline] at online
      cases online

theorem io_opening (opening : Opening login cache before)
    (taken : step lib before .io = some after) : Opening login cache after := by
  rcases io_some taken with ⟨arrival, rest, core, frames, moved, rfl⟩
  have received := receive_received moved
  cases opening.turn with
  | unserved others requests users authorised wire queue =>
      rw [frames] at wire
      cases wire
  | answered others users authorised wire user queue =>
      -- The login answer posts the two login events into the empty queue.
      rw [frames] at wire
      obtain ⟨rfl, rfl⟩ := List.cons.inj wire
      refine ⟨received_answer opening.noDeque moved, received.cache.trans opening.cache,
        opening.asked, ?_⟩
      refine .posted [.changeWindow login.code] []
        (by simpa [received.toServer] using users) authorised user ?_ (Or.inl rfl) rfl
      simp [received.queue, queue, signals_answer]
  | posted shown slots users authorised wire queue window joins =>
      rw [frames] at wire
      simp only [List.all_cons, Bool.and_eq_true] at wire
      -- A join answer posts its events behind those of the login.
      have user := received_user wire.1 opening.noDeque moved
      refine ⟨user.2, received.cache.trans opening.cache, opening.asked, ?_⟩
      refine .posted shown (slots ++ (signals lib arrival).flatMap connected)
        (by simpa [received.toServer] using users) authorised wire.2 ?_ window ?_
      · simp [received.queue, queue]
      · rw [List.all_append, joins, user.1]
        rfl
  | lost offline authorised wire queue =>
      rw [frames] at wire
      cases wire

theorem on_authorized_opened {slots : List Slot} (opening : Opening login cache before)
    (users : before.core.toServer.all userRequest = true)
    (authorised : before.authorised = before.connected)
    (wire : before.s2c.all userFrame = true) (joins : slots.all joinSlot = true) :
    Opened login cache { before with
      core := runSlot lib { before.core with queue := slots } (.onAuthorized login.code)
      asked := before.asked ++ cutOffs (.onAuthorized login.code) } := by
  constructor
  · intro channel
    have missing : before.core.client.mChannelsHistory channel = none :=
      of_not_not (opening.noDeque channel)
    simp only [run_slot_deque, loaded, opening.cache]
    simp [deque, missing]
  · rw [← opening.cache]
    exact on_authorized_cache _ login.code
  · simp [opening.asked, cutOffs]
  · simp only [run_slot_queue]
    exact joins
  · exact wire
  · intro request member
    simp only [run_slot_to_server, List.mem_append] at member
    rcases member with earlier | new
    · exact (reply_user before (List.all_eq_true.mp users request earlier)).2
    · simp only [requested] at new
      split_ifs at new
      · rw [List.mem_singleton.mp new]
        rfl
      · cases new
  · exact authorised

theorem slot_opening (opening : Opening login cache before)
    (taken : step lib before .slot = some after) :
    Opening login cache after ∨ Opened login cache after := by
  rcases slot_some taken with ⟨slot, rest, waiting, rfl⟩
  cases opening.turn with
  | unserved others requests users authorised wire queue =>
      rw [waiting] at queue
      cases queue
  | answered frames users authorised wire others queue =>
      rw [waiting] at queue
      cases queue
  | posted shown slots users authorised wire queue window joins =>
      rw [waiting] at queue
      rcases window with rfl | rfl
      · obtain ⟨rfl, rfl⟩ := List.cons.inj queue
        left
        refine ⟨opening.noDeque, opening.cache, ?_, ?_⟩
        · simp [opening.asked, cutOffs]
        · exact .posted [] slots users authorised wire rfl (Or.inr rfl) joins
      · obtain ⟨rfl, rfl⟩ := List.cons.inj queue
        right
        exact on_authorized_opened opening users authorised wire joins
  | lost offline authorised wire queue =>
      rw [waiting] at queue
      cases queue

theorem request_opening {request : Request} (user : userRequest request = true)
    (opening : Opening login cache before) :
    Opening login cache { before with core := before.core.request [request] } := by
  refine ⟨opening.noDeque, opening.cache, opening.asked, ?_⟩
  have more {requests : List Request} (users : requests.all userRequest = true) :
      (requests ++ [request]).all userRequest = true := by
    simp [List.all_append, users, user]
  cases opening.turn with
  | unserved rest requests users authorised wire queue =>
      refine .unserved (rest ++ [request]) ?_ (more users) authorised wire queue
      simp [Core.request, requests]
  | answered frames users authorised wire others queue =>
      exact .answered frames (more users) authorised wire others queue
  | posted shown slots users authorised wire queue window joins =>
      exact .posted shown slots (more users) authorised wire queue window joins
  | lost offline authorised wire queue => exact .lost offline authorised wire queue

theorem drop_opening (opening : Opening login cache before)
    (taken : step lib before .drop = some after) : Opening login cache after := by
  obtain rfl := drop_some taken
  refine ⟨opening.noDeque, opening.cache, opening.asked, ?_⟩
  cases opening.turn with
  | unserved rest requests others authorised wire queue => exact .lost rfl rfl rfl queue
  | answered frames requests authorised wire others queue => exact .lost rfl rfl rfl queue
  | posted shown slots requests authorised wire queue window joins =>
      exact .posted shown slots rfl rfl rfl queue window joins
  | lost offline authorised wire queue => exact .lost rfl rfl rfl queue

theorem step_opening (opening : Opening login cache before)
    (taken : step lib before action = some after) :
    Opening login cache after ∨ Opened login cache after := by
  cases action with
  | post msg => exact Or.inl (post_opening opening taken)
  | serve => exact Or.inl (serve_opening opening taken)
  | io => exact Or.inl (io_opening opening taken)
  | slot => exact slot_opening opening taken
  | join channel =>
      obtain rfl := Option.some.inj taken
      exact Or.inl (request_opening rfl opening)
  | say msg =>
      obtain rfl := Option.some.inj taken
      exact Or.inl (request_opening rfl opening)
  | drop => exact Or.inl (drop_opening opening taken)

theorem saving_joins {queue : List Slot} (joins : queue.all joinSlot = true)
    (channel : StdString) : saving queue channel = [] := by
  rw [saving, List.flatMap_eq_nil_iff]
  intro slot member
  have join := List.all_eq_true.mp joins slot member
  cases slot <;> first | rfl | cases join

end AppchatClient.Session.Start
