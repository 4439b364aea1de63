import AppchatClient.Session.Start

/-!
# History synchronisation

A session asks for what is later than a cut-off: the last cached row, or the
latest message of the deque. Nothing is lost as long as the messages up to the
cut-off are there or on their way. A live message that is stored before the
answer to an earlier request moves the cut-off past messages that are not.
-/

namespace AppchatClient.Session.NoLoss

open AppchatClient.Protocol AppchatClient.Io.Handlers AppchatClient.Lib.Runs
open AppchatClient.Lib.AppendMap AppchatClient.Cache.Refinement AppchatClient.Session.Receivers
open AppchatClient.Session.Effects AppchatClient.Session.Server AppchatClient.Session.Start

set_option autoImplicit false

variable {lib : ProtocolLib}

inductive LifeAction where
  | session (action : SessionAction)
  | connect (login password : StdString)
deriving DecidableEq, Repr

/-- Successive sessions over one cache. The events of an old session do not survive it. -/
def lifeStep (lib : ProtocolLib) (world : World) : LifeAction → Option World
  | .session action => step lib world action
  | .connect login password =>
      if world.connected then none else some (world.connect (.authorisation login password))

/-- Nothing is on its way in either direction, and no event waits. -/
def Idle (world : World) : Prop :=
  world.core.toServer = [] ∧ world.s2c = [] ∧ world.core.queue = []

instance (world : World) : Decidable (Idle world) := inferInstanceAs (Decidable (_ ∧ _ ∧ _))

/-- An idle session has, in the cache and in memory, every message of the
channels that it has asked for. -/
def NothingLost (world : World) : Prop :=
  world.connected = true → Idle world → ∀ channel ∈ world.asked,
    ∀ msg ∈ world.log.messages channel,
      msg ∈ world.core.cache.load channel ∧ msg ∈ deque world.core.client channel

def Received (world : World) (channel : StdString) (msg : MsgText) : Prop :=
  msg ∈ deque world.core.client channel ∨ msg ∈ world.core.cache.load channel ∨
    msg ∈ saving world.core.queue channel

instance (world : World) (channel : StdString) (msg : MsgText) :
    Decidable (Received world channel msg) :=
  inferInstanceAs (Decidable (_ ∨ _ ∨ _))

def asksFor (request : Request) (channel : StdString) (msg : MsgText) : Bool :=
  match request with
  | .history _ name since => name = channel ∧ since < msg.dt
  | _ => false

def Coming (lib : ProtocolLib) (world : World) (channel : StdString) (msg : MsgText) : Prop :=
  msg ∈ carried lib world.s2c channel ∨
    ∃ request ∈ world.core.toServer, asksFor request channel msg = true

instance (world : World) (channel : StdString) (msg : MsgText) :
    Decidable (Coming lib world channel msg) :=
  inferInstanceAs (Decidable (_ ∨ _))

def cutOff (lib : ProtocolLib) (core : Core) (slot : Slot) (channel : StdString) : DateTime :=
  match slot with
  | .onJoined _ => latest lib (deque core.client channel)
  | _ => lastTime lib (core.cache.load channel)

/-- When a slot computes a cut-off, every message of the channel up to it has
been received or is on its way. -/
def GapFree (lib : ProtocolLib) (world : World) : LifeAction → Prop
  | .session .slot =>
      match world.core.queue with
      | slot :: _ => world.connected = true → ∀ channel ∈ cutOffs slot,
          ∀ msg ∈ world.log.messages channel, msg.dt ≤ cutOff lib world.core slot channel →
            Received world channel msg ∨ Coming lib world channel msg
      | [] => True
  | _ => True

instance (world : World) (action : LifeAction) : Decidable (GapFree lib world action) := by
  unfold GapFree
  split
  · split <;> infer_instance
  · infer_instance

/-- The channels for which a cut-off is computed, was computed, or will be
when the frames and events under way are handled. -/
def due (lib : ProtocolLib) (world : World) : List StdString :=
  world.asked ++ world.core.queue.flatMap cutOffs ++
    world.s2c.flatMap fun arrival => ((signals lib arrival).flatMap connected).flatMap cutOffs

theorem mem_due {world : World} {channel : StdString} : channel ∈ due lib world ↔
    channel ∈ world.asked ∨ channel ∈ world.core.queue.flatMap cutOffs ∨
      channel ∈ world.s2c.flatMap
        fun arrival => ((signals lib arrival).flatMap connected).flatMap cutOffs := by
  simp only [due, List.mem_append, or_assoc]

theorem cut_offs_live (world : World) (msg : MsgText) :
    (world.live msg).flatMap
      (fun arrival => ((signals lib arrival).flatMap connected).flatMap cutOffs) = [] := by
  unfold World.live
  split_ifs <;> rfl

theorem cut_offs_reply (world : World) (request : Request) (channel : StdString)
    (member : channel ∈ (world.reply request).flatMap
      fun arrival => ((signals lib arrival).flatMap connected).flatMap cutOffs) :
    channel ∈ world.membersAfter request := by
  cases request with
  | joinRoom id name =>
      simp only [World.reply, World.membersAfter] at member ⊢
      split_ifs at member ⊢
      · have same : channel = name := by
          simpa [joinAnswer, signals, connected, cutOffs] using member
        rw [same]
        exact List.mem_cons_self ..
      · cases member
  | channels id =>
      simp only [World.reply, World.membersAfter] at member ⊢
      split_ifs at member
      · simpa [channelsAnswer, signals, connected, cutOffs] using member
      · cases member
  | history id name since =>
      simp only [World.reply] at member
      split_ifs at member <;> simp [historyAnswer, signals, connected, cutOffs] at member
  | authorisation login password => cases member
  | registration login password => cases member
  | sendText msg => cases member

theorem members_grow (world : World) (request : Request) {channel : StdString}
    (member : channel ∈ world.members) : channel ∈ world.membersAfter request := by
  cases request with
  | joinRoom id name =>
      simp only [World.membersAfter]
      split_ifs
      · exact List.mem_cons_of_mem _ member
      · exact member
  | _ => exact member

theorem step_due {before after : World} {action : SessionAction}
    (known : ∀ channel ∈ due lib before, channel ∈ before.members)
    (taken : step lib before action = some after) :
    ∀ channel ∈ due lib after, channel ∈ after.members := by
  intro channel member
  cases action with
  | post msg =>
      rcases post_some taken with ⟨newest, rfl⟩
      apply known
      simpa only [due, World.push, List.flatMap_append, cut_offs_live, List.append_nil] using member
  | serve =>
      rcases serve_some taken with ⟨-, request, rest, -, rfl⟩
      rw [mem_due] at member
      simp only [World.answer, World.push, List.flatMap_append, List.mem_append] at member
      rcases member with asked | queued | wired | new
      · exact members_grow before request (known channel (mem_due.mpr (Or.inl asked)))
      · exact members_grow before request (known channel (mem_due.mpr (Or.inr (Or.inl queued))))
      · exact members_grow before request (known channel (mem_due.mpr (Or.inr (Or.inr wired))))
      · exact cut_offs_reply before request channel new
  | io =>
      rcases io_some taken with ⟨arrival, rest, core, frames, moved, rfl⟩
      apply known
      rw [mem_due] at member ⊢
      simp only [frames, (receive_received moved).queue, List.flatMap_append, List.flatMap_cons,
        List.mem_append] at member ⊢
      tauto
  | slot =>
      rcases slot_some taken with ⟨slot, rest, waiting, rfl⟩
      apply known
      rw [mem_due] at member ⊢
      simp only [waiting, run_slot_queue, List.flatMap_cons, List.mem_append] at member ⊢
      tauto
  | join name =>
      obtain rfl := Option.some.inj taken
      exact known channel member
  | say msg =>
      obtain rfl := Option.some.inj taken
      exact known channel member
  | drop =>
      obtain rfl := drop_some taken
      apply known
      rw [mem_due] at member ⊢
      simp only [List.flatMap_nil, List.not_mem_nil, or_false] at member
      tauto

structure Synced (lib : ProtocolLib) (world : World) : Prop where
  agree : ∀ channel msg, msg ∈ deque world.core.client channel ↔
    msg ∈ world.core.cache.load channel ∨ msg ∈ saving world.core.queue channel
  authorised : world.authorised = world.connected
  covered : world.connected = true → ∀ channel ∈ world.asked,
    ∀ msg ∈ world.log.messages channel,
      msg ∈ deque world.core.client channel ∨ Coming lib world channel msg

structure Consistent (lib : ProtocolLib) (world : World) : Prop where
  faithful : Faithful lib world
  known : ∀ channel ∈ due lib world, channel ∈ world.members
  phase : (∃ login password, Opening (.authorisation login password) world.core.cache world) ∨
    Synced lib world

theorem cut_off_requested (core : Core) {slot : Slot} {channel : StdString}
    (asked : channel ∈ cutOffs slot) :
    ∃ request ∈ requested lib core slot, ∀ msg,
      cutOff lib core slot channel < msg.dt → asksFor request channel msg = true := by
  cases slot with
  | onJoined name =>
      rw [List.mem_singleton.mp asked]
      exact ⟨_, List.mem_singleton_self _, by simp [asksFor, cutOff]⟩
  | onChannelsReceived channels =>
      refine ⟨_, List.mem_map_of_mem asked, ?_⟩
      simp [asksFor, cutOff]
  | _ => cases asked

theorem opened_synced {world : World} {login password : StdString} {cache : History}
    (opened : Opened (.authorisation login password) cache world) : Synced lib world where
  agree channel msg := by
    rw [opened.deques, opened.cache, saving_joins opened.queue]
    simp [Login.code]
  authorised := opened.authorised
  covered := by simp [opened.asked]

theorem coming_grows {before after : World} {channel : StdString} {msg : MsgText}
    (wire : ∀ other ∈ carried lib before.s2c channel, other ∈ carried lib after.s2c channel)
    (requests : ∀ request ∈ before.core.toServer, request ∈ after.core.toServer)
    (coming : Coming lib before channel msg) : Coming lib after channel msg := by
  rcases coming with carried | ⟨request, member, asks⟩
  · exact Or.inl (wire msg carried)
  · exact Or.inr ⟨request, requests request member, asks⟩

theorem post_synced {before after : World} {msg : MsgText}
    (known : ∀ channel ∈ due lib before, channel ∈ before.members)
    (synced : Synced lib before) (taken : step lib before (.post msg) = some after) :
    Synced lib after := by
  rcases post_some taken with ⟨newest, rfl⟩
  refine ⟨synced.agree, synced.authorised, ?_⟩
  intro online channel asked other logged
  simp only [World.push, messages_post] at logged
  have earlier (member : other ∈ before.log.messages channel) :
      other ∈ deque before.core.client channel ∨
        Coming lib (({ before with log := before.log.post msg newest }).push (before.live msg))
          channel other := by
    refine (synced.covered online channel asked other member).imp_right ?_
    apply coming_grows
    · intro wired carried
      rw [World.push, carried_append]
      exact List.mem_append_left _ carried
    · exact fun _ => id
  split_ifs at logged with same
  · rcases List.mem_append.mp logged with old | new
    · exact earlier old
    · -- The user is a member of a channel that was asked for, so the message is pushed.
      right
      left
      have member : msg.channelName ∈ before.members := by
        rw [same]
        exact known channel (mem_due.mpr (Or.inl asked))
      have heard : (before.authorised = true ∧ msg.channelName ∈ before.members) ∧
          msg.channelName = channel :=
        ⟨⟨synced.authorised.trans online, member⟩, same⟩
      rw [World.push, carried_append, carried_live, if_pos heard]
      exact List.mem_append_right _ new
  · exact earlier logged

theorem serve_synced {before after : World} (synced : Synced lib before)
    (taken : step lib before .serve = some after) : Synced lib after := by
  rcases serve_some taken with ⟨online, request, rest, waiting, rfl⟩
  refine ⟨synced.agree, ?_, ?_⟩
  · simp [World.answer, World.push, synced.authorised, online]
  · intro _ channel asked msg logged
    refine (synced.covered online channel asked msg logged).imp_right ?_
    rintro (wired | ⟨other, member, asks⟩)
    · left
      simp only [World.answer, World.push, carried_append]
      exact List.mem_append_left _ wired
    · rw [waiting] at member
      rcases List.mem_cons.mp member with rfl | behind
      · -- This request is answered now, with the message.
        left
        simp only [World.answer, World.push, carried_append, carried_reply]
        cases other with
        | history id name since =>
            simp only [asksFor, decide_eq_true_eq] at asks
            have heard : before.authorised = true ∧ name = channel :=
              ⟨synced.authorised.trans online, asks.1⟩
            simp only [if_pos heard]
            apply List.mem_append_right
            exact List.mem_filter.mpr ⟨logged, decide_eq_true asks.2⟩
        | _ => cases asks
      · exact Or.inr ⟨other, behind, asks⟩

theorem io_synced {before after : World} (faithful : Faithful lib before)
    (synced : Synced lib before) (taken : step lib before .io = some after) :
    Synced lib after := by
  rcases io_some taken with ⟨arrival, rest, core, frames, moved, rfl⟩
  have received := receive_received moved
  refine ⟨?_, synced.authorised, ?_⟩
  · intro channel msg
    have posted := saving_posted faithful frames channel
    rw [saving] at posted
    simp only [received.deque, received.cache, received.queue, saving, List.flatMap_append,
      List.mem_append, posted]
    have agree := synced.agree channel msg
    rw [saving] at agree
    tauto
  · intro online channel asked msg logged
    simp only [received.deque, List.mem_append]
    rcases synced.covered online channel asked msg logged with held | wired | pending
    · exact Or.inl (Or.inl held)
    · rw [frames] at wired
      rcases List.mem_append.mp wired with here | behind
      · exact Or.inl (Or.inr here)
      · exact Or.inr (Or.inl behind)
    · refine Or.inr (Or.inr ?_)
      simpa only [received.toServer] using pending

theorem loaded_cached {core : Core} {slot : Slot} {channel : StdString} {msg : MsgText}
    (member : msg ∈ loaded core slot channel) : msg ∈ core.cache.load channel := by
  cases slot with
  | onAuthorized code =>
      simp only [loaded] at member
      split_ifs at member
      · exact member
      · cases member
  | _ => cases member

theorem received_held {world : World} (synced : Synced lib world) {channel : StdString}
    {msg : MsgText} (received : Received world channel msg) :
    msg ∈ deque world.core.client channel := by
  rcases received with held | cached | queued
  · exact held
  · exact (synced.agree channel msg).mpr (Or.inl cached)
  · exact (synced.agree channel msg).mpr (Or.inr queued)

theorem slot_synced {before after : World} (synced : Synced lib before)
    (gapFree : GapFree lib before (.session .slot))
    (taken : step lib before .slot = some after) : Synced lib after := by
  rcases slot_some taken with ⟨slot, rest, waiting, rfl⟩
  have agree := synced.agree
  refine ⟨?_, synced.authorised, ?_⟩
  · intro channel msg
    have earlier := agree channel msg
    rw [waiting, saving, List.flatMap_cons, List.mem_append] at earlier
    have cached : msg ∈ loaded { before.core with queue := rest } slot channel →
        msg ∈ before.core.cache.load channel := loaded_cached
    simp only [run_slot_deque, run_slot_load, run_slot_queue, List.mem_append, saving]
    tauto
  · intro online channel asked msg logged
    have grows (coming : Coming lib before channel msg) :
        Coming lib { before with
          core := runSlot lib { before.core with queue := rest } slot
          asked := before.asked ++ cutOffs slot } channel msg := by
      apply coming_grows _ _ coming
      · exact fun _ => id
      · intro request member
        simp only [run_slot_to_server]
        exact List.mem_append_left _ member
    have kept (held : msg ∈ deque before.core.client channel) :
        msg ∈ deque (runSlot lib { before.core with queue := rest } slot).client channel := by
      rw [run_slot_deque]
      exact List.mem_append_left _ held
    rcases List.mem_append.mp asked with old | new
    · exact (synced.covered online channel old msg logged).imp kept grows
    · by_cases later : cutOff lib before.core slot channel < msg.dt
      · -- The new request asks for it.
        right
        right
        rcases cut_off_requested { before.core with queue := rest } new with ⟨request, member, asks⟩
        refine ⟨request, ?_, asks msg later⟩
        simp only [run_slot_to_server]
        exact List.mem_append_right _ member
      · -- A message up to the cut-off: the guard says where it is.
        unfold GapFree at gapFree
        rw [waiting] at gapFree
        rcases gapFree online channel new msg logged (not_lt.mp later) with received | coming
        · exact Or.inl (kept (received_held synced received))
        · exact Or.inr (grows coming)

theorem step_synced {before after : World} {action : SessionAction}
    (faithful : Faithful lib before)
    (known : ∀ channel ∈ due lib before, channel ∈ before.members) (synced : Synced lib before)
    (gapFree : GapFree lib before (.session action))
    (taken : step lib before action = some after) : Synced lib after := by
  cases action with
  | post msg => exact post_synced known synced taken
  | serve => exact serve_synced synced taken
  | io => exact io_synced faithful synced taken
  | slot => exact slot_synced synced gapFree taken
  | join name =>
      obtain rfl := Option.some.inj taken
      refine ⟨synced.agree, synced.authorised, ?_⟩
      intro online channel asked msg logged
      refine (synced.covered online channel asked msg logged).imp_right ?_
      exact coming_grows (fun _ => id) fun _ => List.mem_append_left _
  | say other =>
      obtain rfl := Option.some.inj taken
      refine ⟨synced.agree, synced.authorised, ?_⟩
      intro online channel asked msg logged
      refine (synced.covered online channel asked msg logged).imp_right ?_
      exact coming_grows (fun _ => id) fun _ => List.mem_append_left _
  | drop =>
      obtain rfl := drop_some taken
      refine ⟨synced.agree, rfl, ?_⟩
      intro online
      cases online

theorem connect_consistent (world : World) (login password : StdString) :
    Consistent lib (world.connect (.authorisation login password)) where
  faithful := ⟨by simp [World.connect, carried], List.suffix_refl _⟩
  known := by simp [due, World.connect, Core.request, freshCore]
  phase := Or.inl ⟨login, password, opening_connect world _⟩

theorem offline_consistent (lib : ProtocolLib) (log : ChatLog) (members : List StdString)
    (userId : Identifier) :
    Consistent lib (World.offline log members userId Multimap.empty) where
  faithful := ⟨by simp [World.offline, carried], List.suffix_refl _⟩
  known := by simp [due, World.offline, freshCore]
  phase := Or.inl ⟨[], [], opening_offline log members userId _⟩

theorem life_step_consistent {before after : World} {action : LifeAction}
    (consistent : Consistent lib before) (gapFree : GapFree lib before action)
    (taken : lifeStep lib before action = some after) : Consistent lib after := by
  cases action with
  | connect login password =>
      simp only [lifeStep] at taken
      split_ifs at taken
      obtain rfl := Option.some.inj taken
      exact connect_consistent before login password
  | session action =>
      have faithful := step_faithful consistent.faithful taken
      have known := step_due consistent.known taken
      refine ⟨faithful, known, ?_⟩
      rcases consistent.phase with ⟨login, password, opening⟩ | synced
      · rcases step_opening opening taken with goesOn | opened
        · left
          refine ⟨login, password, ?_⟩
          rw [goesOn.cache]
          exact goesOn
        · exact Or.inr (opened_synced opened)
      · exact Or.inr (step_synced consistent.faithful consistent.known synced gapFree taken)

theorem consistent_nothing_lost {world : World} (consistent : Consistent lib world) :
    NothingLost world := by
  intro online idle channel asked msg logged
  rcases idle with ⟨requests, wire, events⟩
  rcases consistent.phase with ⟨login, password, opening⟩ | synced
  · rw [opening.asked] at asked
    cases asked
  · have held : msg ∈ deque world.core.client channel := by
      rcases synced.covered online channel asked msg logged with held | carried | pending
      · exact held
      · rw [wire] at carried
        cases carried
      · rcases pending with ⟨request, member, -⟩
        rw [requests] at member
        cases member
    refine ⟨?_, held⟩
    have agree := (synced.agree channel msg).mp held
    rw [events] at agree
    rcases agree with cached | queued
    · exact cached
    · cases queued

/-- From an empty cache, whatever the server holds: in every run of sessions
whose cut-offs are free of gaps. -/
theorem no_message_lost (lib : ProtocolLib) (log : ChatLog) (members : List StdString)
    (userId : Identifier) {actions : List LifeAction}
    (gapFree : EveryStep (lifeStep lib) (GapFree lib)
      (World.offline log members userId Multimap.empty) actions) :
    EveryState (lifeStep lib) NothingLost (World.offline log members userId Multimap.empty)
      actions := by
  have consistent := guarded_invariant (lifeStep lib)
    (offline_consistent lib log members userId)
    (fun _ _ _ held gapFree taken => life_step_consistent held gapFree taken) gapFree
  exact every_state_mono (lifeStep lib) (fun _ => consistent_nothing_lost) consistent

def newcomer : World := World.offline emptyLog [] 1 Multimap.empty

/-- A new session up to its two login events and the answer to its channel list. -/
def logIn : List LifeAction :=
  .connect [] [] :: ([.serve, .io, .slot, .slot, .serve, .io, .slot, .slot].map .session)

def joinRoom : List LifeAction :=
  [.post (messageAt 1), .join room, .serve, .io, .slot, .slot].map .session

def answered : List LifeAction := [.serve, .io, .slot, .slot].map .session

def liveMessage : List LifeAction :=
  [.post (messageAt 2), .io, .slot, .slot].map .session

theorem no_message_lost_sample :
    EveryState (lifeStep chatLib) NothingLost newcomer
      (logIn ++ joinRoom ++ answered ++ liveMessage ++ [.session .drop] ++ logIn ++ answered) :=
  no_message_lost chatLib emptyLog [] 1 (every_step_of_steps_meet (lifeStep chatLib) (by decide))

/-- The live message is saved before the answer, and the connection is lost:
the next session asks only for what is later than the live message. -/
theorem first_message_lost :
    ¬ EveryState (lifeStep chatLib) NothingLost newcomer
      (logIn ++ joinRoom ++ liveMessage ++ [.session .drop] ++ logIn ++ answered) := by
  intro kept
  have fields : (run (lifeStep chatLib) newcomer
      (logIn ++ joinRoom ++ liveMessage ++ [.session .drop] ++ logIn ++ answered)).map (fun world =>
        (decide (world.connected = true ∧ Idle world ∧ room ∈ world.asked),
          world.log.messages room, world.core.cache.load room)) =
      some (true, [messageAt 1, messageAt 2], [messageAt 2]) := by
    decide
  rcases last_state (lifeStep chatLib) kept fields with ⟨world, values, nothingLost⟩
  simp only [Prod.mk.injEq] at values
  rcases values with ⟨resting, logged, cached⟩
  rcases of_decide_eq_true resting with ⟨online, idle, asked⟩
  have first : messageAt 1 ∈ world.log.messages room := by
    rw [logged]
    exact List.mem_cons_self ..
  have stored := nothingLost online idle room asked (messageAt 1) first
  rw [cached] at stored
  exact absurd stored.1 (by decide)

end AppchatClient.Session.NoLoss
