import AppchatClient.Session.Start

/-!
# Messages stored once

What the client stores comes from the cache it started with and from the
frames of the connection, each message of a frame once. Nothing is compared
with what is there, so a message is stored as often as the server sends it: a
live message and the answer to a request with an earlier cut-off both hold it.
-/

namespace AppchatClient.Session.NoRepeat

open AppchatClient.Protocol AppchatClient.Io.Handlers AppchatClient.Lib.Runs
open AppchatClient.Lib.AppendMap AppchatClient.Cache.Refinement AppchatClient.Session.Receivers
open AppchatClient.Session.Effects AppchatClient.Session.Server AppchatClient.Session.Start

set_option autoImplicit false

variable {lib : ProtocolLib} {cache : History} {before after world : World}
variable {action : SessionAction} {login : Login}

def StoredOnce (world : World) : Prop :=
  ∀ channel, ∀ msg ∈ world.log.messages channel,
    (world.core.cache.load channel).count msg ≤ 1 ∧
      (deque world.core.client channel).count msg ≤ 1

def delivers (world : World) : SessionAction → List (StdString × MsgText)
  | .post msg =>
      if world.authorised = true ∧ world.members.contains msg.channelName = true then
        [(msg.channelName, msg)]
      else []
  | .serve =>
      match world.core.toServer with
      | .history _ name since :: _ =>
          if world.authorised = true then (world.log.later name since).map fun msg => (name, msg)
          else []
      | _ => []
  | _ => []

/-- A message that the server sends is not in the cache that the session
started from, and it was not sent before on the connection. -/
def SentOnce (lib : ProtocolLib) (cache : History) (world : World) (action : SessionAction) :
    Prop :=
  ∀ delivery ∈ delivers world action,
    delivery.2 ∉ cache.load delivery.1 ∧ delivery.2 ∉ carried lib world.sent delivery.1

instance (cache : History) (world : World) (action : SessionAction) :
    Decidable (SentOnce lib cache world action) :=
  inferInstanceAs (Decidable (∀ delivery ∈ delivers world action, _ ∧ _))

/-- The starting cache and the messages sent have no message twice. -/
def Unique (lib : ProtocolLib) (cache : History) (world : World) : Prop :=
  ∀ channel, (cache.load channel ++ carried lib world.sent channel).Nodup

theorem later_nodup (log : ChatLog) (channel : StdString) (since : DateTime) :
    (log.later channel since).Nodup := by
  apply List.Nodup.filter
  refine (log.increasing channel).imp ?_
  intro earlier later before same
  rw [same] at before
  exact lt_irrefl _ before

theorem unique_append {sent frames : List Arrival} {channel : StdString}
    (unique : (cache.load channel ++ carried lib sent channel).Nodup)
    (once : (carried lib frames channel).Nodup)
    (new : ∀ msg ∈ carried lib frames channel,
      msg ∉ cache.load channel ∧ msg ∉ carried lib sent channel) :
    (cache.load channel ++ carried lib (sent ++ frames) channel).Nodup := by
  rw [carried_append, ← List.append_assoc]
  apply List.nodup_append'.mpr
  refine ⟨unique, once, ?_⟩
  intro msg held member
  rcases List.mem_append.mp held with cached | sent
  · exact (new msg member).1 cached
  · exact (new msg member).2 sent

theorem step_unique (unique : Unique lib cache before) (sentOnce : SentOnce lib cache before action)
    (taken : step lib before action = some after) : Unique lib cache after := by
  intro channel
  cases action with
  | post msg =>
      rcases post_some taken with ⟨newest, rfl⟩
      apply unique_append (unique channel)
      · rw [carried_live]
        split_ifs <;> simp
      · intro other member
        rw [carried_live] at member
        split_ifs at member with heard
        · have new := sentOnce (msg.channelName, msg) (by simp [delivers, heard.1])
          rw [List.mem_singleton.mp member, ← heard.2]
          exact new
        · cases member
  | serve =>
      rcases serve_some taken with ⟨-, request, rest, waiting, rfl⟩
      apply unique_append (unique channel)
      · rw [carried_reply]
        split
        · split_ifs
          · exact later_nodup before.log channel _
          · exact List.nodup_nil
        · exact List.nodup_nil
      · intro msg member
        rw [carried_reply] at member
        split at member
        · rename_i id name since
          split_ifs at member with heard
          · have new := sentOnce (name, msg) (by
              simp only [delivers, waiting, if_pos heard.1]
              rw [heard.2]
              exact List.mem_map_of_mem member)
            rw [← heard.2]
            exact new
          · cases member
        · cases member
  | io =>
      rcases io_some taken with ⟨arrival, rest, core, -, -, rfl⟩
      exact unique channel
  | slot =>
      rcases slot_some taken with ⟨slot, rest, -, rfl⟩
      exact unique channel
  | join name =>
      obtain rfl := Option.some.inj taken
      exact unique channel
  | say msg =>
      obtain rfl := Option.some.inj taken
      exact unique channel
  | drop =>
      obtain rfl := drop_some taken
      exact unique channel

/-- No login is on its way, so `on_authorized` does not run again. -/
structure LoggedIn (world : World) : Prop where
  requests : ∀ request ∈ world.core.toServer, isLogin request = false
  wire : ∀ arrival ∈ world.s2c, arrival.read ≠ .inputResponse ∧ arrival.read ≠ .regResponse
  queue : ∀ slot ∈ world.core.queue, ∀ code, slot ≠ .onAuthorized code

/-- The copies of a message in memory, or in the cache and its posted events,
with those on the wire, are no more than the cached and the sent ones. -/
structure Stored (lib : ProtocolLib) (cache : History) (world : World) : Prop where
  memory : ∀ channel msg, (deque world.core.client channel).count msg +
      (carried lib world.s2c channel).count msg ≤
    (cache.load channel).count msg + (carried lib world.sent channel).count msg
  rows : ∀ channel msg, (world.core.cache.load channel).count msg +
      (saving world.core.queue channel).count msg + (carried lib world.s2c channel).count msg ≤
    (cache.load channel).count msg + (carried lib world.sent channel).count msg

structure Consistent (lib : ProtocolLib) (cache : History) (login : Login) (world : World) :
    Prop where
  faithful : Faithful lib world
  unique : Unique lib cache world
  phase : Opening login cache world ∨ (LoggedIn world ∧ Stored lib cache world)

theorem wire_count (faithful : Faithful lib world) (channel : StdString) (msg : MsgText) :
    (carried lib world.s2c channel).count msg ≤ (carried lib world.sent channel).count msg := by
  rcases faithful.wire with ⟨handled, split⟩
  rw [← split, carried_append, List.count_append]
  omega

theorem opened_logged_in (opened : Opened login cache world) : LoggedIn world where
  requests := opened.requests
  wire arrival member := by
    rcases of_decide_eq_true (List.all_eq_true.mp opened.wire arrival member) with join | live
    · simp [join]
    · simp [show arrival.read = .echoResponse from live]
  queue slot member code same := by
    have join := List.all_eq_true.mp opened.queue slot member
    rw [same] at join
    cases join

theorem opened_stored (faithful : Faithful lib world) (opened : Opened login cache world) :
    Stored lib cache world where
  memory channel msg := by
    have wire := wire_count faithful channel msg
    rw [opened.deques]
    split_ifs
    · omega
    · rw [List.count_nil]
      omega
  rows channel msg := by
    have wire := wire_count faithful channel msg
    rw [opened.cache, saving_joins opened.queue, List.count_nil]
    omega

theorem reply_no_login (world : World) {request : Request} (other : isLogin request = false) :
    ∀ arrival ∈ world.reply request,
      arrival.read ≠ .inputResponse ∧ arrival.read ≠ .regResponse := by
  intro arrival member
  cases request with
  | authorisation login password => cases other
  | registration login password => cases other
  | sendText msg => cases member
  | joinRoom id channel =>
      simp only [World.reply] at member
      split_ifs at member
      · simp [List.mem_singleton.mp member, joinAnswer]
      · cases member
  | history id channel since =>
      simp only [World.reply] at member
      split_ifs at member
      · simp [List.mem_singleton.mp member, historyAnswer]
      · cases member
  | channels id =>
      simp only [World.reply] at member
      split_ifs at member
      · simp [List.mem_singleton.mp member, channelsAnswer]
      · cases member

theorem posted_no_login {arrival : Arrival}
    (other : arrival.read ≠ .inputResponse ∧ arrival.read ≠ .regResponse) :
    ∀ slot ∈ (signals lib arrival).flatMap connected, ∀ code, slot ≠ .onAuthorized code := by
  intro slot member code same
  subst same
  rcases List.mem_flatMap.mp member with ⟨signal, emitted, posted⟩
  have published : signal = .sendInputCode code := by
    cases signal <;> simp [connected] at posted
    rw [posted]
  subst published
  rcases arrival with ⟨read, response⟩
  cases read with
  | inputResponse => exact other.1 rfl
  | regResponse => exact other.2 rfl
  | pbHeader => simp [signals] at emitted
  | echoResponse => simp [signals] at emitted
  | joinRoomResponse =>
      simp only [signals] at emitted
      split at emitted
      · split_ifs at emitted <;> simp at emitted
      · cases emitted
  | historyResponse =>
      simp only [signals] at emitted
      split at emitted <;> simp at emitted
  | channelsResponse =>
      simp only [signals] at emitted
      split at emitted <;> simp at emitted

theorem requested_no_login (core : Core) (slot : Slot) :
    ∀ request ∈ requested lib core slot, isLogin request = false := by
  intro request member
  cases slot with
  | onAuthorized code =>
      simp only [requested] at member
      split_ifs at member
      · rw [List.mem_singleton.mp member]
        rfl
      · cases member
  | onJoined name =>
      rw [List.mem_singleton.mp member]
      rfl
  | onChannelsReceived channels =>
      rcases List.mem_map.mp member with ⟨channel, -, rfl⟩
      rfl
  | _ => cases member

theorem step_logged_in (loggedIn : LoggedIn before)
    (taken : step lib before action = some after) : LoggedIn after := by
  have asking {request : Request} (other : isLogin request = false) :
      LoggedIn { before with core := before.core.request [request] } := by
    refine ⟨?_, loggedIn.wire, loggedIn.queue⟩
    intro earlier member
    rcases List.mem_append.mp member with old | new
    · exact loggedIn.requests earlier old
    · rw [List.mem_singleton.mp new]
      exact other
  cases action with
  | post msg =>
      rcases post_some taken with ⟨newest, rfl⟩
      refine ⟨loggedIn.requests, ?_, loggedIn.queue⟩
      intro arrival member
      rcases List.mem_append.mp member with old | new
      · exact loggedIn.wire arrival old
      · unfold World.live at new
        split_ifs at new
        · simp [List.mem_singleton.mp new, echo]
        · cases new
  | serve =>
      rcases serve_some taken with ⟨-, request, rest, waiting, rfl⟩
      have requests := loggedIn.requests
      rw [waiting] at requests
      refine ⟨fun other member => requests other (List.mem_cons_of_mem _ member), ?_,
        loggedIn.queue⟩
      intro arrival member
      rcases List.mem_append.mp member with old | new
      · exact loggedIn.wire arrival old
      · exact reply_no_login before (requests request (List.mem_cons_self ..)) arrival new
  | io =>
      rcases io_some taken with ⟨arrival, rest, core, frames, moved, rfl⟩
      have received := receive_received moved
      have wire := loggedIn.wire
      rw [frames] at wire
      refine ⟨?_, fun other member => wire other (List.mem_cons_of_mem _ member), ?_⟩
      · simpa only [received.toServer] using loggedIn.requests
      · intro slot member
        rw [received.queue] at member
        rcases List.mem_append.mp member with old | new
        · exact loggedIn.queue slot old
        · exact posted_no_login (wire arrival (List.mem_cons_self ..)) slot new
  | slot =>
      rcases slot_some taken with ⟨slot, rest, waiting, rfl⟩
      refine ⟨?_, loggedIn.wire, ?_⟩
      · intro request member
        simp only [run_slot_to_server] at member
        rcases List.mem_append.mp member with old | new
        · exact loggedIn.requests request old
        · exact requested_no_login _ slot request new
      · intro other member
        simp only [run_slot_queue] at member
        apply loggedIn.queue other
        rw [waiting]
        exact List.mem_cons_of_mem _ member
  | join name =>
      obtain rfl := Option.some.inj taken
      exact asking rfl
  | say msg =>
      obtain rfl := Option.some.inj taken
      exact asking rfl
  | drop =>
      obtain rfl := drop_some taken
      exact ⟨by simp, by simp, loggedIn.queue⟩

theorem step_stored (faithful : Faithful lib before) (loggedIn : LoggedIn before)
    (stored : Stored lib cache before) (taken : step lib before action = some after) :
    Stored lib cache after := by
  cases action with
  | post msg =>
      rcases post_some taken with ⟨newest, rfl⟩
      constructor
      · intro channel other
        have bound := stored.memory channel other
        simp only [World.push, carried_append, List.count_append]
        omega
      · intro channel other
        have bound := stored.rows channel other
        simp only [World.push, carried_append, List.count_append]
        omega
  | serve =>
      rcases serve_some taken with ⟨-, request, rest, -, rfl⟩
      constructor
      · intro channel msg
        have bound := stored.memory channel msg
        simp only [World.answer, World.push, carried_append, List.count_append]
        omega
      · intro channel msg
        have bound := stored.rows channel msg
        simp only [World.answer, World.push, carried_append, List.count_append]
        omega
  | io =>
      rcases io_some taken with ⟨arrival, rest, core, frames, moved, rfl⟩
      have received := receive_received moved
      -- The messages of the frame move from the wire to the deque and to the posted events.
      have split (channel : StdString) (msg : MsgText) :
          (carried lib before.s2c channel).count msg =
            (pushed lib arrival channel).count msg + (carried lib rest channel).count msg := by
        rw [frames, carried, List.flatMap_cons, List.count_append]
        rfl
      constructor
      · intro channel msg
        have bound := stored.memory channel msg
        rw [split] at bound
        simp only [received.deque, List.count_append]
        omega
      · intro channel msg
        have bound := stored.rows channel msg
        have posted := saving_posted faithful frames channel
        rw [split] at bound
        rw [saving] at posted bound
        simp only [received.cache, received.queue, saving, List.flatMap_append, posted,
          List.count_append]
        omega
  | slot =>
      rcases slot_some taken with ⟨slot, rest, waiting, rfl⟩
      -- Nothing is loaded again, and what the event saves leaves the queue.
      have notLogin := loggedIn.queue slot (by simp [waiting])
      have nothing (channel : StdString) :
          loaded { before.core with queue := rest } slot channel = [] := by
        cases slot <;> first | rfl | exact absurd rfl (notLogin _)
      constructor
      · intro channel msg
        have bound := stored.memory channel msg
        simp only [run_slot_deque, nothing, List.append_nil]
        exact bound
      · intro channel msg
        have bound := stored.rows channel msg
        rw [waiting, saving, List.flatMap_cons, List.count_append] at bound
        simp only [run_slot_load, run_slot_queue, List.count_append, saving]
        omega
  | join name =>
      obtain rfl := Option.some.inj taken
      exact ⟨stored.memory, stored.rows⟩
  | say msg =>
      obtain rfl := Option.some.inj taken
      exact ⟨stored.memory, stored.rows⟩
  | drop =>
      obtain rfl := drop_some taken
      constructor
      · intro channel msg
        have bound := stored.memory channel msg
        have same : deque before.core.client.closeConnection channel =
            deque before.core.client channel := rfl
        simp only [same, carried, List.flatMap_nil, List.count_nil]
        simp only [carried] at bound
        omega
      · intro channel msg
        have bound := stored.rows channel msg
        simp only [carried, List.flatMap_nil, List.count_nil]
        simp only [carried] at bound
        omega

theorem step_consistent (consistent : Consistent lib cache login before)
    (sentOnce : SentOnce lib cache before action)
    (taken : step lib before action = some after) : Consistent lib cache login after := by
  have faithful := step_faithful consistent.faithful taken
  refine ⟨faithful, step_unique consistent.unique sentOnce taken, ?_⟩
  rcases consistent.phase with opening | ⟨loggedIn, stored⟩
  · rcases step_opening opening taken with goesOn | opened
    · exact Or.inl goesOn
    · exact Or.inr ⟨opened_logged_in opened, opened_stored faithful opened⟩
  · exact Or.inr ⟨step_logged_in loggedIn taken,
      step_stored consistent.faithful loggedIn stored taken⟩

theorem consistent_stored_once (consistent : Consistent lib cache login world) :
    StoredOnce world := by
  intro channel msg _
  have once := List.nodup_iff_count_le_one.mp (consistent.unique channel) msg
  rw [List.count_append] at once
  rcases consistent.phase with opening | ⟨-, stored⟩
  · have missing : world.core.client.mChannelsHistory channel = none :=
      of_not_not (opening.noDeque channel)
    rw [opening.cache, deque, missing]
    constructor
    · omega
    · simp
  · have memory := stored.memory channel msg
    have rows := stored.rows channel msg
    constructor <;> omega

theorem connect_consistent (lib : ProtocolLib) (world : World)
    (rows : ∀ channel, (world.core.cache.load channel).Nodup) (login : Login) :
    Consistent lib world.core.cache login (world.connect login) where
  faithful := ⟨by simp [World.connect, carried], List.suffix_refl _⟩
  unique channel := by
    simpa [World.connect, carried] using rows channel
  phase := Or.inl (opening_connect world login)

/-- A session from a cache without repeated rows, with either login, in which
the server sends no message that was cached or sent before. -/
theorem no_message_repeated (lib : ProtocolLib) (log : ChatLog) (members : List StdString)
    (userId : Identifier) {cache : History} (rows : ∀ channel, (cache.load channel).Nodup)
    (login : Login) {actions : List SessionAction}
    (sentOnce : EveryStep (step lib) (SentOnce lib cache)
      ((World.offline log members userId cache).connect login) actions) :
    EveryState (step lib) StoredOnce ((World.offline log members userId cache).connect login)
      actions := by
  have start :
      Consistent lib cache login ((World.offline log members userId cache).connect login) :=
    connect_consistent lib (World.offline log members userId cache) rows login
  have consistent := guarded_invariant (step lib) start
    (fun _ _ _ held sentOnce taken => step_consistent held sentOnce taken) sentOnce
  exact every_state_mono (step lib) (fun _ => consistent_stored_once) consistent

def joinRoom : List SessionAction :=
  [.serve, .io, .slot, .slot, .serve, .io, .slot, .slot, .join room, .serve, .io, .slot, .slot]

def newSession : World :=
  (World.offline emptyLog [] 1 Multimap.empty).connect (.authorisation [] [])

theorem no_message_repeated_sample :
    EveryState (step chatLib) StoredOnce newSession
      (joinRoom ++ [.serve, .io, .post (messageAt 1), .io, .slot, .slot, .slot, .slot]) := by
  have rows : ∀ channel, ((Multimap.empty : History).load channel).Nodup :=
    fun _ => List.nodup_nil
  exact no_message_repeated chatLib emptyLog [] 1 rows (.authorisation [] [])
    (every_step_of_steps_meet (step chatLib) (by decide))

/-- The message is pushed, and then the server answers the request. -/
theorem message_stored_twice :
    ¬ EveryState (step chatLib) StoredOnce newSession
      (joinRoom ++ [.post (messageAt 1), .serve, .io, .io, .slot, .slot, .slot, .slot]) := by
  intro once
  have fields : (run (step chatLib) newSession
      (joinRoom ++ [.post (messageAt 1), .serve, .io, .io, .slot, .slot, .slot, .slot])).map
        (fun world => (world.log.messages room, world.core.cache.load room)) =
      some ([messageAt 1], [messageAt 1, messageAt 1]) := by
    decide
  rcases last_state (step chatLib) once fields with ⟨world, values, storedOnce⟩
  simp only [Prod.mk.injEq] at values
  have logged : messageAt 1 ∈ world.log.messages room := by
    rw [values.1]
    exact List.mem_singleton_self _
  have count := (storedOnce room (messageAt 1) logged).1
  rw [values.2] at count
  exact absurd count (by decide)

end AppchatClient.Session.NoRepeat
