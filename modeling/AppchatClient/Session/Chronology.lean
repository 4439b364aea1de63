import AppchatClient.Session.Exchange

/-!
# The order of a deque

A deque is the cached rows of its channel and then what the server has sent,
in the order of the wire. The answer to a history request can come after live
messages that are later than what it holds.
-/

namespace AppchatClient.Session.Chronology

open AppchatClient.Protocol AppchatClient.Io.Handlers AppchatClient.Lib.Runs
open AppchatClient.Cache.Refinement AppchatClient.Session.Receivers AppchatClient.Session.Effects
open AppchatClient.Session.Deque (Link LinkAction echoChannel)
open AppchatClient.Session.Server (carried carried_append)
open AppchatClient.Session.Exchange

set_option autoImplicit false

variable {lib : ProtocolLib}

def Chronological (messages : List MsgText) : Prop :=
  messages.Pairwise fun earlier later => earlier.dt ≤ later.dt

instance (messages : List MsgText) : Decidable (Chronological messages) :=
  inferInstanceAs (Decidable (messages.Pairwise fun earlier later => earlier.dt ≤ later.dt))

/-- Every deque is non-decreasing, and its `back()` is a newest message. -/
def InTimeOrder (link : Link) : Prop :=
  ∀ channel messages, link.core.client.mChannelsHistory channel = some messages →
    Chronological messages ∧ ∀ last ∈ messages.getLast?, ∀ msg ∈ messages, msg.dt ≤ last.dt

theorem chronological_back {messages : List MsgText} (sorted : Chronological messages)
    {last : MsgText} (back : last ∈ messages.getLast?) {msg : MsgText} (member : msg ∈ messages) :
    msg.dt ≤ last.dt := by
  rcases List.getLast?_eq_some_iff.mp back with ⟨earlier, rfl⟩
  rcases List.mem_append.mp member with before | same
  · exact (List.pairwise_append.mp sorted).2.2 msg before last (List.mem_singleton_self last)
  · rw [List.mem_singleton.mp same]

def authorisedLink (id : Identifier) (cache : History) : Link where
  core :=
    { freshCore cache with
      client := { freshClient with clientId := some id }
      queue := connected (.sendInputCode .autorOK) }
  wire := []
  sent := []

theorem login_authorises (lib : ProtocolLib) (id : Identifier) (cache : History) :
    (run (step lib) (Link.start cache) [.send (Server.inputAnswer id), .io]).map Link.core =
      some (authorisedLink id cache).core :=
  rfl

def liveMessage (lib : ProtocolLib) (arrival : Arrival) : Option MsgText :=
  if arrival.read = .echoResponse then some (lib.parseTextRes arrival.response) else none

def since (channel : StdString) : Request → Option DateTime
  | .history _ name since => if name = channel then some since else none
  | _ => none

/-- The login is over; a history answer is sorted and later than the cut-off
that was asked for; live messages of a channel do not go back in time. -/
def Honest (lib : ProtocolLib) (link : Link) : LinkAction → Prop
  | .send arrival =>
      acceptances lib arrival = [] ∧
        (∀ answer ∈ historyOf arrival, Chronological answer.messages ∧
          ∃ request ∈ link.core.toServer, ∃ cutOff ∈ since answer.channelName request,
            ∀ msg ∈ answer.messages, cutOff < msg.dt) ∧
        ∀ msg ∈ liveMessage lib arrival, ∀ frame ∈ link.sent,
          ∀ earlier ∈ liveMessage lib frame, earlier.channelName = msg.channelName →
            earlier.dt ≤ msg.dt
  | _ => True

instance (link : Link) (action : LinkAction) : Decidable (Honest lib link action) :=
  match action with
  | .send _ => inferInstanceAs (Decidable (_ ∧ _ ∧ _))
  | .io => isTrue trivial
  | .slot => isTrue trivial

/-- Nothing is sent that is earlier than a cached message of its channel, or
than one that was sent before. -/
def InOrder (lib : ProtocolLib) (cache : History) (link : Link) : LinkAction → Prop
  | .send arrival =>
      ∀ channel ∈ (echoChannel lib arrival).or (historyChannel arrival),
        ∀ msg ∈ pushed lib arrival channel,
          ∀ earlier ∈ cache.load channel ++ carried lib link.sent channel, earlier.dt ≤ msg.dt
  | _ => True

instance (cache : History) (link : Link) (action : LinkAction) :
    Decidable (InOrder lib cache link action) :=
  match action with
  | .send arrival =>
      inferInstanceAs (Decidable (∀ channel ∈ (echoChannel lib arrival).or (historyChannel arrival),
        ∀ msg ∈ pushed lib arrival channel,
          ∀ earlier ∈ cache.load channel ++ carried lib link.sent channel, earlier.dt ≤ msg.dt))
  | .io => isTrue trivial
  | .slot => isTrue trivial

theorem in_order_pushed {cache : History} {link : Link} {arrival : Arrival}
    (ordered : InOrder lib cache link (.send arrival)) {channel : StdString} {msg : MsgText}
    (member : msg ∈ pushed lib arrival channel) {earlier : MsgText}
    (known : earlier ∈ cache.load channel ++ carried lib link.sent channel) :
    earlier.dt ≤ msg.dt := by
  have one : channel ∈ (echoChannel lib arrival).or (historyChannel arrival) := by
    rcases pushed_cases (List.ne_nil_of_mem member) with live | history
    · simp [live]
    · have notLive : echoChannel lib arrival = none := by
        unfold historyChannel historyOf at history
        unfold echoChannel
        split_ifs at history with read
        · simp [read]
        · cases history
      simp [notLive, history]
  exact ordered channel one msg member earlier known

theorem pushed_chronological {link : Link} {arrival : Arrival}
    (honest : Honest lib link (.send arrival)) (channel : StdString) :
    Chronological (pushed lib arrival channel) := by
  rcases arrival with ⟨read, response⟩
  cases read with
  | echoResponse =>
      by_cases same : (lib.parseTextRes response).channelName = channel <;>
        simp [pushed, same, Chronological]
  | historyResponse =>
      cases answer : response.historyResponse with
      | none => simp [pushed, answer, Chronological]
      | some history =>
          by_cases same : history.channelName = channel
          · have sorted := (honest.2.1 history (by simp [historyOf, answer])).1
            simpa [pushed, answer, same] using sorted
          · simp [pushed, answer, same, Chronological]
  | _ => exact List.Pairwise.nil

/-- The login event has not run: nothing is in memory, nothing was asked for. -/
structure Unloaded (cache : History) (link : Link) : Prop where
  queue : ∃ rest, link.core.queue = .onAuthorized .autorOK :: rest ∨
    link.core.queue = .changeWindow .autorOK :: .onAuthorized .autorOK :: rest
  single : link.core.queue.filterMap acceptance = [.autorOK]
  absent : ∀ channel, ¬ present link.core.client channel
  cached : link.core.cache = cache
  unasked : link.core.toServer = []
  noHistory : ∀ arrival ∈ link.wire, historyOf arrival = none

/-- The rows are in memory: deque and wire are in the order of cache and sends. -/
structure Loaded (lib : ProtocolLib) (cache : History) (link : Link) : Prop where
  single : link.core.queue.filterMap acceptance = []
  order : ∀ channel, (deque link.core.client channel ++ carried lib link.wire channel).Sublist
    (cache.load channel ++ carried lib link.sent channel)

structure Ordered (lib : ProtocolLib) (cache : History) (link : Link) : Prop where
  sorted : ∀ channel, Chronological (cache.load channel ++ carried lib link.sent channel)
  wire : link.wire <:+ link.sent
  noLogin : ∀ arrival ∈ link.wire, acceptances lib arrival = []
  phase : Unloaded cache link ∨ Loaded lib cache link

theorem ordered_in_time_order {cache : History} {link : Link} (ordered : Ordered lib cache link) :
    InTimeOrder link := by
  have sorted (channel : StdString) : Chronological (deque link.core.client channel) := by
    rcases ordered.phase with unloaded | loaded
    · have missing := unloaded.absent channel
      simp only [present, ne_eq, not_not] at missing
      rw [deque, missing]
      exact List.Pairwise.nil
    · have part := (List.sublist_append_left _ _).trans (loaded.order channel)
      exact (ordered.sorted channel).sublist part
  intro channel messages entry
  have known := sorted channel
  rw [deque, entry] at known
  exact ⟨known, fun last back msg member => chronological_back known back member⟩

theorem start_ordered (id : Identifier) {cache : History}
    (sorted : ∀ channel, Chronological (cache.load channel)) :
    Ordered lib cache (authorisedLink id cache) where
  sorted channel := by simpa [authorisedLink, carried] using sorted channel
  wire := List.suffix_refl _
  noLogin := by simp [authorisedLink]
  phase := by
    left
    constructor
    · exact ⟨[], Or.inr rfl⟩
    · rfl
    · intro channel held
      exact held rfl
    · rfl
    · rfl
    · simp [authorisedLink]

theorem send_ordered {cache : History} {before after : Link} {arrival : Arrival}
    (ordered : Ordered lib cache before) (honest : Honest lib before (.send arrival))
    (inOrder : InOrder lib cache before (.send arrival))
    (taken : step lib before (.send arrival) = some after) : Ordered lib cache after := by
  obtain rfl := Option.some.inj taken
  have alone (channel : StdString) :
      carried lib [arrival] channel = pushed lib arrival channel := by
    simp [carried]
  constructor
  · intro channel
    simp only [carried_append, alone, ← List.append_assoc]
    apply List.pairwise_append.mpr
    refine ⟨ordered.sorted channel, pushed_chronological honest channel, ?_⟩
    intro earlier known msg member
    exact in_order_pushed inOrder member known
  · exact Server.suffix_push ordered.wire [arrival]
  · intro frame member
    rcases List.mem_append.mp member with earlier | new
    · exact ordered.noLogin frame earlier
    · rw [List.mem_singleton.mp new]
      exact honest.1
  · rcases ordered.phase with unloaded | loaded
    · left
      refine ⟨unloaded.queue, unloaded.single, unloaded.absent, unloaded.cached,
        unloaded.unasked, ?_⟩
      intro frame member
      rcases List.mem_append.mp member with earlier | new
      · exact unloaded.noHistory frame earlier
      · rw [List.mem_singleton.mp new]
        -- An answer would need a request.
        by_contra someAnswer
        rcases Option.ne_none_iff_exists'.mp someAnswer with ⟨answer, found⟩
        rcases (honest.2.1 answer found).2 with ⟨request, asked, -⟩
        rw [unloaded.unasked] at asked
        cases asked
    · right
      refine ⟨loaded.single, ?_⟩
      intro channel
      simp only [carried_append, ← List.append_assoc]
      exact (loaded.order channel).append (List.Sublist.refl _)

theorem io_ordered {cache : History} {before after : Link}
    (ordered : Ordered lib cache before) (taken : step lib before .io = some after) :
    Ordered lib cache after := by
  rcases Deque.io_some taken with ⟨arrival, rest, core, frames, moved, rfl⟩
  have effect := receive_received moved
  have noLogin := ordered.noLogin
  rw [frames] at noLogin
  have posted : core.queue.filterMap acceptance = before.core.queue.filterMap acceptance := by
    have nonePosted := noLogin arrival (List.mem_cons_self ..)
    rw [acceptances] at nonePosted
    rw [effect.queue, List.filterMap_append, nonePosted, List.append_nil]
  constructor
  · exact ordered.sorted
  · have wire := ordered.wire
    rw [frames] at wire
    exact (List.suffix_cons arrival rest).trans wire
  · exact fun frame member => noLogin frame (List.mem_cons_of_mem _ member)
  · rcases ordered.phase with unloaded | loaded
    · left
      have noHistory := unloaded.noHistory
      rw [frames] at noHistory
      have unanswered := noHistory arrival (List.mem_cons_self ..)
      constructor
      · rcases unloaded.queue with ⟨later, front | front⟩
        · exact ⟨later ++ (signals lib arrival).flatMap connected, by simp [effect.queue, front]⟩
        · exact ⟨later ++ (signals lib arrival).flatMap connected, by simp [effect.queue, front]⟩
      · exact posted.trans unloaded.single
      · intro channel held
        rcases (effect.present channel).mp held with ⟨history, answer, found, -⟩ | earlier
        · rw [historyOf, if_pos history, found] at unanswered
          cases unanswered
        · exact unloaded.absent channel earlier
      · exact effect.cache.trans unloaded.cached
      · exact effect.toServer.trans unloaded.unasked
      · exact fun frame member => noHistory frame (List.mem_cons_of_mem _ member)
    · right
      refine ⟨posted.trans loaded.single, ?_⟩
      intro channel
      have order := loaded.order channel
      simp only [frames, carried, List.flatMap_cons] at order
      simpa only [effect.deque, List.append_assoc, carried] using order

theorem slot_ordered {cache : History} {before after : Link}
    (ordered : Ordered lib cache before) (taken : step lib before .slot = some after) :
    Ordered lib cache after := by
  rcases Deque.slot_some taken with ⟨slot, rest, waiting, rfl⟩
  refine ⟨ordered.sorted, ordered.wire, ordered.noLogin, ?_⟩
  rcases ordered.phase with unloaded | loaded
  · have single := unloaded.single
    rw [waiting] at single
    rcases unloaded.queue with ⟨later, front | front⟩
    · right
      rw [waiting] at front
      obtain ⟨rfl, rfl⟩ := List.cons.inj front
      constructor
      · rw [run_slot_queue]
        simpa [acceptance, List.filterMap_cons] using single
      · intro channel
        have missing := unloaded.absent channel
        simp only [present, ne_eq, not_not] at missing
        have rows : deque before.core.client channel = [] := by rw [deque, missing]; rfl
        simp only [run_slot_deque, loaded, rows, if_true, List.nil_append, unloaded.cached]
        apply List.Sublist.append (List.Sublist.refl _)
        rcases ordered.wire with ⟨handled, split⟩
        rw [← split, carried_append]
        exact List.sublist_append_right _ _
    · left
      rw [waiting] at front
      obtain ⟨rfl, rfl⟩ := List.cons.inj front
      constructor
      · exact ⟨later, Or.inl rfl⟩
      · exact single
      · exact unloaded.absent
      · exact unloaded.cached
      · exact unloaded.unasked
      · exact unloaded.noHistory
  · right
    have single := loaded.single
    rw [waiting, List.filterMap_cons] at single
    cases handled : acceptance slot with
    | some code => simp [handled] at single
    | none =>
        rw [handled] at single
        constructor
        · rw [run_slot_queue]
          exact single
        · intro channel
          have kept : Effects.loaded { before.core with queue := rest } slot channel = [] := by
            rcases loaded_cases { before.core with queue := rest } slot channel with
              ⟨rfl, -⟩ | ⟨-, rows⟩
            · simp [acceptance] at handled
            · exact rows
          simp only [run_slot_deque, kept, List.append_nil]
          exact loaded.order channel

theorem step_ordered {cache : History} {before after : Link} {action : LinkAction}
    (ordered : Ordered lib cache before)
    (met : Honest lib before action ∧ InOrder lib cache before action)
    (taken : step lib before action = some after) : Ordered lib cache after := by
  cases action with
  | send arrival => exact send_ordered ordered met.1 met.2 taken
  | io => exact io_ordered ordered taken
  | slot => exact slot_ordered ordered taken

/-- In every run in which the server sends a channel's messages in their order. -/
theorem histories_in_time_order (lib : ProtocolLib) (id : Identifier) (cache : History)
    (sorted : ∀ channel, Chronological (cache.load channel)) {actions : List LinkAction}
    (honest : EveryStep (step lib) (Honest lib) (authorisedLink id cache) actions)
    (inOrder : EveryStep (step lib) (InOrder lib cache) (authorisedLink id cache) actions) :
    EveryState (step lib) InTimeOrder (authorisedLink id cache) actions := by
  have both := every_step_and (step lib) honest inOrder
  have invariant := guarded_invariant (step lib) (start_ordered id sorted)
    (fun _ _ _ ordered met taken => step_ordered ordered met taken) both
  exact every_state_mono (step lib) (fun _ => ordered_in_time_order) invariant

open AppchatClient.Lib.AppendMap (Multimap)
open AppchatClient.Session.Server (channelsAnswer historyAnswer echo messageAt)

def historyAsked : List LinkAction :=
  [.slot, .slot, .send (channelsAnswer [room]), .io, .slot, .slot]

theorem histories_in_time_order_sample :
    EveryState (step chatLib) InTimeOrder (authorisedLink 7 Multimap.empty)
      (historyAsked ++ [.send (historyAnswer room [messageAt 1, messageAt 2]),
        .send (echo (messageAt 3)), .io, .io]) :=
  histories_in_time_order chatLib 7 Multimap.empty (fun _ => List.Pairwise.nil)
    (every_step_of_steps_meet (step chatLib) (by decide))
    (every_step_of_steps_meet (step chatLib) (by decide))

/-- The second message is pushed before the answer that holds both. -/
def pushedBeforeAnswer : List LinkAction :=
  historyAsked ++ [.send (echo (messageAt 2)),
    .send (historyAnswer room [messageAt 1, messageAt 2]), .io, .io]

theorem answer_after_push :
    EveryStep (step chatLib) (Honest chatLib) (authorisedLink 7 Multimap.empty)
        pushedBeforeAnswer ∧
      ¬ EveryState (step chatLib) InTimeOrder (authorisedLink 7 Multimap.empty)
        pushedBeforeAnswer := by
  constructor
  · exact every_step_of_steps_meet (step chatLib) (by decide)
  · intro ordered
    have fields : (run (step chatLib) (authorisedLink 7 Multimap.empty) pushedBeforeAnswer).map
        (fun link => link.core.client.mChannelsHistory room) =
        some (some [messageAt 2, messageAt 1, messageAt 2]) := by
      decide
    rcases last_state (step chatLib) ordered fields with ⟨reached, entry, inOrder⟩
    have sorted := (inOrder room _ entry).1
    exact absurd sorted (by decide)

end AppchatClient.Session.Chronology
