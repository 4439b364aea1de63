import AppchatClient.Session.Effects
import AppchatClient.Lib.Runs

/-!
# The deque of an echo

`do_read_echo_response` uses the deque of its channel on the io thread. The
deque is made by slots of the GUI thread, which run later than the signal of
the join answer or of the channel list. A live message of the channel can
therefore be the next frame while the deque is still missing.
-/

namespace AppchatClient.Session.Deque

open AppchatClient.Protocol AppchatClient.Io.Handlers AppchatClient.Lib.Runs
open AppchatClient.Cache.Refinement AppchatClient.Session.Receivers AppchatClient.Session.Effects

set_option autoImplicit false

/-- One connection: `wire` holds the frames on their way, `sent` all frames
that the server has sent. -/
structure Link where
  core : Core
  wire : List Arrival
  sent : List Arrival

inductive LinkAction where
  | send (arrival : Arrival)
  | io
  | slot
deriving DecidableEq, Repr

def announces (arrival : Arrival) (channel : StdString) : Bool :=
  match arrival.read with
  | .joinRoomResponse => arrival.response.joinRoomResponse = some ⟨.ok, channel⟩
  | .channelsResponse =>
      match arrival.response.channelsResponse with
      | some channels => channels.contains channel
      | none => false
  | _ => false

def echoChannel (lib : ProtocolLib) (arrival : Arrival) : Option StdString :=
  if arrival.read = .echoResponse then some (lib.parseTextRes arrival.response).channelName
  else none

/-- What is promised of the server. -/
def maySend (lib : ProtocolLib) (sent : List Arrival) (arrival : Arrival) : Bool :=
  match echoChannel lib arrival with
  | some channel => sent.any fun earlier => announces earlier channel
  | none => true

def step (lib : ProtocolLib) (link : Link) : LinkAction → Option Link
  | .send arrival =>
      if maySend lib link.sent arrival then
        some { link with wire := link.wire ++ [arrival], sent := link.sent ++ [arrival] }
      else none
  | .io =>
      match link.wire with
      | arrival :: rest =>
          (link.core.receive lib arrival).map fun core => { link with core := core, wire := rest }
      | [] => none
  | .slot => (link.core.deliver lib).map fun core => { link with core := core }

theorem io_some {lib : ProtocolLib} {before after : Link}
    (taken : step lib before .io = some after) :
    ∃ arrival rest core, before.wire = arrival :: rest ∧
      before.core.receive lib arrival = some core ∧
      after = { before with core := core, wire := rest } :=
  received_front taken

theorem slot_some {lib : ProtocolLib} {before after : Link}
    (taken : step lib before .slot = some after) :
    ∃ slot rest, before.core.queue = slot :: rest ∧
      after = { before with core := runSlot lib { before.core with queue := rest } slot } := by
  rcases Option.map_eq_some_iff.mp taken with ⟨core, delivered, rfl⟩
  rcases deliver_some delivered with ⟨slot, rest, waiting, rfl⟩
  exact ⟨slot, rest, waiting, rfl⟩

def Link.start (cache : History) : Link where
  core := freshCore cache
  wire := []
  sent := []

/-- The next thing the io thread does is `m_channels_history[channel]->push_back`. -/
def Pushes (lib : ProtocolLib) (link : Link) (channel : StdString) : Prop :=
  link.core.client.sockOpen = true ∧ link.core.client.reads = [.pbHeader] ∧
    ∃ arrival rest, link.wire = arrival :: rest ∧ echoChannel lib arrival = some channel

def EchoSafe (lib : ProtocolLib) (link : Link) : Prop :=
  ∀ channel, Pushes lib link channel → present link.core.client channel

/-- A step that creates the deque of the channel if it is missing: a slot that
calls `get_ptr_history` for it, or a history answer with a message. -/
def Opens (channel : StdString) (link : Link) : LinkAction → Prop
  | .send _ => False
  | .io => ∃ arrival rest, link.wire = arrival :: rest ∧ emplaces arrival channel
  | .slot => ∃ slot rest, link.core.queue = slot :: rest ∧ creates link.core slot channel

/-- Whenever a live message is about to be handled, a step before it has
created the deque of its channel. -/
def OpenedInTime (lib : ProtocolLib) (first : Link) (actions : List LinkAction) : Prop :=
  ∀ done reached channel, done <+: actions → run (step lib) first done = some reached →
    Pushes lib reached channel → Happened (step lib) (Opens channel) first done

theorem step_present {lib : ProtocolLib} (channel : StdString) {before after : Link}
    {action : LinkAction} (taken : step lib before action = some after) :
    present after.core.client channel ↔
      Opens channel before action ∨ present before.core.client channel := by
  cases action with
  | send arrival =>
      simp only [step] at taken
      split_ifs at taken
      obtain rfl := Option.some.inj taken
      simp [Opens]
  | io =>
      rcases io_some taken with ⟨arrival, rest, core, frames, received, rfl⟩
      rw [(receive_received received).present channel]
      simp [Opens, frames]
  | slot =>
      rcases slot_some taken with ⟨slot, rest, waiting, rfl⟩
      rw [run_slot_present slot channel]
      constructor
      · rintro (created | held)
        · exact Or.inl ⟨slot, rest, waiting, created⟩
        · exact Or.inr held
      · rintro (⟨other, behind, front, created⟩ | held)
        · rw [waiting] at front
          obtain ⟨rfl, rfl⟩ := List.cons.inj front
          exact Or.inl created
        · exact Or.inr held

theorem present_iff_opened {lib : ProtocolLib} (cache : History) (channel : StdString)
    {actions : List LinkAction} {reached : Link}
    (ran : run (step lib) (Link.start cache) actions = some reached) :
    present reached.core.client channel ↔
      Happened (step lib) (Opens channel) (Link.start cache) actions := by
  have initial : ¬ present (Link.start cache).core.client channel := by
    simp [present, Link.start, freshCore]
  have changes (before : Link) (action : LinkAction) (after : Link)
      (taken : step lib before action = some after) :=
    step_present channel taken
  exact raised_iff_happened (step lib) initial changes ran

theorem echo_safe_iff_opened_in_time (lib : ProtocolLib) (cache : History)
    (actions : List LinkAction) :
    EveryState (step lib) (EchoSafe lib) (Link.start cache) actions ↔
      OpenedInTime lib (Link.start cache) actions := by
  constructor
  · intro safe done reached channel inside ran pushes
    exact (present_iff_opened cache channel ran).mp (safe done reached inside ran channel pushes)
  · intro opened done reached inside ran channel pushes
    exact (present_iff_opened cache channel ran).mpr (opened done reached channel inside ran pushes)

/-- The server answers a join and at once forwards a message of the room. -/
def hello : MsgText where
  author := "ann".toList
  text := "hello".toList
  channelName := room
  dt := ⟨⟨2024, 1, 2⟩, ⟨3, 4, 5⟩⟩

def joinedRoom : Arrival := ⟨.joinRoomResponse, { joinRoomResponse := some ⟨.ok, room⟩ }⟩

def echoHello : Arrival := ⟨.echoResponse, { textResponse := some hello }⟩

theorem echo_before_slots : ¬ EveryState (step chatLib) (EchoSafe chatLib)
    (Link.start Lib.AppendMap.Multimap.empty) [.send joinedRoom, .send echoHello, .io] := by
  intro safe
  have fields : (run (step chatLib) (Link.start Lib.AppendMap.Multimap.empty)
      [.send joinedRoom, .send echoHello, .io]).map (fun link =>
        (link.core.client.sockOpen, link.core.client.reads, link.wire,
          link.core.client.mChannelsHistory room)) =
      some (true, [.pbHeader], [echoHello], none) := by
    decide
  rcases last_state (step chatLib) safe fields with ⟨reached, values, echoSafe⟩
  simp only [Prod.mk.injEq] at values
  rcases values with ⟨sock, reads, wire, missing⟩
  have pushes : Pushes chatLib reached room := ⟨sock, reads, echoHello, [], wire, rfl⟩
  exact echoSafe room pushes missing

end AppchatClient.Session.Deque
