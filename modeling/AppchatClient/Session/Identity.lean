import AppchatClient.Session.Server

/-!
# The identity in a request

`client_id` is set by the io thread, in the login handlers, after the signal of
the accepted login is posted. The GUI thread puts it in the requests that its
slots and the user cause, and it may do so between the two statements.
-/

namespace AppchatClient.Session.Identity

open AppchatClient.Protocol AppchatClient.Io.Handlers AppchatClient.Lib.Runs
open AppchatClient.Cache.Refinement AppchatClient.Session.Receivers AppchatClient.Session.Effects

set_option autoImplicit false

inductive IoStatement where
  | emit (signal : Signal)
  | setLoginId (id : Identifier)
  | asyncReadPbHeader
  | closeConnection
deriving DecidableEq, Repr

def execute (client : Client) : IoStatement → Client
  | .emit signal => client.emit signal
  | .setLoginId id => client.setLoginId id
  | .asyncReadPbHeader => client.asyncReadPbHeader
  | .closeConnection => client.closeConnection

def answerStatements (accepted refused : StatusCode) : Option LoginResponse → List IoStatement
  | some answer =>
      if answer.status = .ok then
        [.emit (.sendInputCode accepted), .setLoginId answer.clientId, .asyncReadPbHeader]
      else [.emit (.sendInputCode refused), .closeConnection]
  | none => []

theorem answer_statements_run (accepted refused : StatusCode) (client : Client)
    (answer : Option LoginResponse) :
    (answerStatements accepted refused answer).foldl execute client =
      onLoginResponse accepted refused client answer := by
  cases answer with
  | none => rfl
  | some login =>
      by_cases ok : login.status = .ok <;> simp [answerStatements, onLoginResponse, ok, execute]

/-- `do_read_input_response` and `do_read_reg_response` behind the parse. -/
def loginStatements (arrival : Arrival) : Option (List IoStatement) :=
  match arrival.read with
  | .inputResponse =>
      some (answerStatements .autorOK .incorrectAutor arrival.response.inputResponse)
  | .regResponse => some (answerStatements .registrOK .busyRegistr arrival.response.regResponse)
  | _ => none

/-- The frame is taken: no read is outstanding until the handler starts one. -/
def begun (core : Core) : Core :=
  { core with client := { core.client with reads := [], emitted := [] } }

def executeCore (core : Core) (statement : IoStatement) : Core :=
  core.post (execute { core.client with emitted := [] } statement)

theorem execute_emitted (client : Client) (statement : IoStatement) :
    (execute client statement).emitted =
      client.emitted ++ (execute { client with emitted := [] } statement).emitted := by
  cases statement <;>
    simp [execute, Client.emit, Client.setLoginId, Client.asyncReadPbHeader, Client.asyncRead,
      Client.closeConnection]

theorem execute_silenced (client : Client) (statement : IoStatement) :
    { execute { client with emitted := [] } statement with emitted := [] } =
      { execute client statement with emitted := [] } := by
  cases statement <;> rfl

theorem statements_post (statements : List IoStatement) (core : Core) (client : Client) :
    statements.foldl executeCore (core.post client) =
      core.post (statements.foldl execute client) := by
  induction statements generalizing client with
  | nil => rfl
  | cons statement rest ih =>
      have first :
          executeCore (core.post client) statement = core.post (execute client statement) := by
        have emitted := execute_emitted client statement
        have silenced := execute_silenced client statement
        simp only [executeCore, Core.post]
        rw [emitted, ← silenced]
        simp only [List.flatMap_append, List.append_assoc]
      rw [List.foldl_cons, first, ih, List.foldl_cons]

/-- Run without a pause, the statements are the handler. -/
theorem login_statements_receive {lib : ProtocolLib} {core next : Core} {arrival : Arrival}
    {statements : List IoStatement} (login : loginStatements arrival = some statements)
    (received : core.receive lib arrival = some next) :
    statements.foldl executeCore (begun core) = next := by
  have taken : begun core = core.post { core.client with reads := [], emitted := [] } := by
    simp [begun, Core.post]
  unfold Core.receive at received
  split_ifs at received
  rcases Option.map_eq_some_iff.mp received with ⟨client, returned, rfl⟩
  rw [taken, statements_post]
  congr 1
  rcases arrival with ⟨read, response⟩
  cases read with
  | inputResponse =>
      obtain rfl := Option.some.inj login
      obtain rfl := Option.some.inj returned
      exact answer_statements_run .autorOK .incorrectAutor _ response.inputResponse
  | regResponse =>
      obtain rfl := Option.some.inj login
      obtain rfl := Option.some.inj returned
      exact answer_statements_run .registrOK .busyRegistr _ response.regResponse
  | _ => cases login

/-- `program` is the rest of a login handler on the io thread; `shown` is
whether the main window is open. -/
structure Threads where
  core : Core
  wire : List Arrival
  program : List IoStatement
  shown : Bool

inductive ThreadAction where
  | send (arrival : Arrival)
  | io
  | slot
  | join (channel : StdString)
  | say (msg : MsgText)
deriving DecidableEq, Repr

def assignedId (arrival : Arrival) : Option Identifier :=
  let accepted (answer : Option LoginResponse) : Option Identifier :=
    answer.bind fun login => if login.status = .ok then some login.clientId else none
  match arrival.read with
  | .inputResponse => accepted arrival.response.inputResponse
  | .regResponse => accepted arrival.response.regResponse
  | _ => none

/-- `change_window` opens the main window unless the login was refused. -/
def opensMain : Slot → Bool
  | .changeWindow code => !(code = .busyRegistr || code = .incorrectAutor)
  | _ => false

/-- The io thread executes one statement of a login handler, or takes the next
frame; the handlers of the other frames run as one step. The accepted login of
the session assigns `id`. -/
def step (lib : ProtocolLib) (id : Identifier) (threads : Threads) :
    ThreadAction → Option Threads
  | .send arrival =>
      if ∀ given ∈ assignedId arrival, given = id then
        some { threads with wire := threads.wire ++ [arrival] }
      else none
  | .io =>
      match threads.program with
      | statement :: rest =>
          some { threads with core := executeCore threads.core statement, program := rest }
      | [] =>
          match threads.wire with
          | arrival :: rest =>
              match loginStatements arrival with
              | some statements =>
                  if threads.core.client.sockOpen = true ∧
                      threads.core.client.reads = [.pbHeader] then
                    some { threads with
                      core := begun threads.core
                      wire := rest
                      program := statements }
                  else none
              | none =>
                  (threads.core.receive lib arrival).map fun core =>
                    { threads with core := core, wire := rest }
          | [] => none
  | .slot =>
      match threads.core.queue with
      | slot :: rest =>
          some { threads with
            core := runSlot lib { threads.core with queue := rest } slot
            shown := threads.shown || opensMain slot }
      | [] => none
  | .join channel =>
      if threads.shown then
        some { threads with
          core := threads.core.request [.joinRoom threads.core.client.clientId channel] }
      else none
  | .say msg =>
      if threads.shown then some { threads with core := threads.core.request [.sendText msg] }
      else none

def Threads.start (cache : History) : Threads where
  core := freshCore cache
  wire := []
  program := []
  shown := false

def identity : Request → Option (Option Identifier)
  | .joinRoom id _ => some id
  | .history id _ _ => some id
  | .channels id => some id
  | _ => none

def Identified (id : Identifier) (threads : Threads) : Prop :=
  ∀ request ∈ threads.core.toServer, ∀ carried ∈ identity request, carried = some id

def buildsRequest : Slot → Bool
  | .onAuthorized code => code = .autorOK
  | .onJoined _ => true
  | .onChannelsReceived channels => !channels.isEmpty
  | _ => false

def Builds (threads : Threads) : ThreadAction → Prop
  | .slot => ∃ slot rest, threads.core.queue = slot :: rest ∧ buildsRequest slot = true
  | .join _ => True
  | _ => False

/-- The io thread executes `set_login_id`. -/
def SetsId (threads : Threads) : ThreadAction → Prop
  | .io => ∃ id rest, threads.program = .setLoginId id :: rest
  | _ => False

/-- Every step that builds a request comes after `set_login_id`. -/
def SetInTime (lib : ProtocolLib) (id : Identifier) (first : Threads)
    (actions : List ThreadAction) : Prop :=
  ∀ done action before after, done ++ [action] <+: actions →
    run (step lib id) first done = some before → step lib id before action = some after →
      Builds before action → Happened (step lib id) SetsId first done

variable {lib : ProtocolLib} {id : Identifier} {before after : Threads}

theorem client_id_foldl {Item : Type} (change : Client → Item → Client)
    (keeps : ∀ client item, (change client item).clientId = client.clientId)
    (items : List Item) (client : Client) :
    (items.foldl change client).clientId = client.clientId := by
  induction items generalizing client with
  | nil => rfl
  | cons item rest ih => rw [List.foldl_cons, ih, keeps]

theorem run_slot_client_id (core : Core) (slot : Slot) :
    (runSlot lib core slot).client.clientId = core.client.clientId := by
  cases slot with
  | onAuthorized code =>
      simp only [runSlot, onAuthorized]
      split_ifs
      · exact client_id_foldl
          (fun client channel => insertAtEnd client channel (core.cache.load channel))
          (fun _ _ => rfl) core.cache.keys core.client
      · rfl
  | controlJoined channel => exact client_id_get_ptr_history _ channel
  | onJoined channel => exact client_id_get_ptr_history _ channel
  | controlChannelsReceived channels => exact client_id_foldl _ client_id_get_ptr_history channels _
  | _ => rfl

theorem receive_client_id {core next : Core} {arrival : Arrival}
    (other : loginStatements arrival = none) (received : core.receive lib arrival = some next) :
    next.client.clientId = core.client.clientId := by
  unfold Core.receive at received
  split_ifs at received
  rcases Option.map_eq_some_iff.mp received with ⟨client, returned, rfl⟩
  rcases arrival with ⟨read, response⟩
  cases read with
  | pbHeader => cases returned
  | inputResponse => cases other
  | regResponse => cases other
  | joinRoomResponse =>
      obtain rfl := Option.some.inj returned
      simp only [Core.post, onJoinRoomResponse]
      split
      · split_ifs <;> rfl
      · rfl
  | echoResponse =>
      simp only [onBody, onEchoResponse] at returned
      split at returned
      · obtain rfl := Option.some.inj returned
        rfl
      · cases returned
  | historyResponse =>
      obtain rfl := Option.some.inj returned
      simp only [Core.post, onHistoryResponse]
      split
      · rename_i answer _
        exact client_id_foldl (fun current msg => current.emplacePushBack answer.channelName msg)
          (fun _ _ => rfl) answer.messages _
      · rfl
  | channelsResponse =>
      obtain rfl := Option.some.inj returned
      simp only [Core.post, onChannelsResponse]
      split <;> rfl

theorem io_some (taken : step lib id before .io = some after) :
    (∃ statement rest, before.program = statement :: rest ∧
        after = { before with core := executeCore before.core statement, program := rest }) ∨
      ∃ arrival rest, before.program = [] ∧ before.wire = arrival :: rest ∧
        ((∃ statements, loginStatements arrival = some statements ∧
            after = { before with
              core := begun before.core
              wire := rest
              program := statements }) ∨
          (loginStatements arrival = none ∧ ∃ core, before.core.receive lib arrival = some core ∧
            after = { before with core := core, wire := rest })) := by
  simp only [step] at taken
  cases program : before.program with
  | cons statement rest =>
      simp only [program, Option.some.injEq] at taken
      exact Or.inl ⟨statement, rest, rfl, taken.symm⟩
  | nil =>
      cases frames : before.wire with
      | nil => simp [program, frames] at taken
      | cons arrival rest =>
          simp only [program, frames] at taken
          refine Or.inr ⟨arrival, rest, rfl, rfl, ?_⟩
          cases login : loginStatements arrival with
          | some statements =>
              simp only [login] at taken
              split_ifs at taken
              exact Or.inl ⟨statements, rfl, (Option.some.inj taken).symm⟩
          | none =>
              simp only [login] at taken
              rcases Option.map_eq_some_iff.mp taken with ⟨core, received, same⟩
              exact Or.inr ⟨rfl, core, received, same.symm⟩

theorem slot_some (taken : step lib id before .slot = some after) :
    ∃ slot rest, before.core.queue = slot :: rest ∧
      after = { before with
        core := runSlot lib { before.core with queue := rest } slot
        shown := before.shown || opensMain slot } :=
  @delivered_front lib before.core Threads
    (fun core slot => { before with core := core, shown := before.shown || opensMain slot }) after
    taken

theorem send_some {arrival : Arrival} (taken : step lib id before (.send arrival) = some after) :
    (∀ given ∈ assignedId arrival, given = id) ∧
      after = { before with wire := before.wire ++ [arrival] } := by
  simp only [step] at taken
  split_ifs at taken with promised
  exact ⟨promised, (Option.some.inj taken).symm⟩

theorem join_some {channel : StdString} (taken : step lib id before (.join channel) = some after) :
    after = { before with
      core := before.core.request [.joinRoom before.core.client.clientId channel] } := by
  simp only [step] at taken
  split_ifs at taken
  exact (Option.some.inj taken).symm

theorem say_some {msg : MsgText} (taken : step lib id before (.say msg) = some after) :
    after = { before with core := before.core.request [.sendText msg] } := by
  simp only [step] at taken
  split_ifs at taken
  exact (Option.some.inj taken).symm

theorem step_client_id {action : ThreadAction} (taken : step lib id before action = some after) :
    (∃ given rest, action = .io ∧ before.program = .setLoginId given :: rest ∧
        after.core.client.clientId = some given) ∨
      (¬ SetsId before action ∧ after.core.client.clientId = before.core.client.clientId) := by
  cases action with
  | send arrival =>
      rcases send_some taken with ⟨-, rfl⟩
      exact Or.inr ⟨not_false, rfl⟩
  | io =>
      rcases io_some taken with ⟨statement, rest, program, rfl⟩ | ⟨arrival, rest, program, -, rest'⟩
      · cases statement with
        | setLoginId given => exact Or.inl ⟨given, rest, rfl, program, rfl⟩
        | _ => exact Or.inr ⟨by simp [SetsId, program], rfl⟩
      · right
        constructor
        · simp [SetsId, program]
        · rcases rest' with ⟨statements, -, rfl⟩ | ⟨other, core, received, rfl⟩
          · rfl
          · exact receive_client_id other received
  | slot =>
      rcases slot_some taken with ⟨slot, rest, -, rfl⟩
      exact Or.inr ⟨not_false, run_slot_client_id _ slot⟩
  | join channel =>
      obtain rfl := join_some taken
      exact Or.inr ⟨not_false, rfl⟩
  | say msg =>
      obtain rfl := say_some taken
      exact Or.inr ⟨not_false, rfl⟩

theorem has_id_iff_set {cache : History} {actions : List ThreadAction} {reached : Threads}
    (ran : run (step lib id) (Threads.start cache) actions = some reached) :
    reached.core.client.clientId ≠ none ↔
      Happened (step lib id) SetsId (Threads.start cache) actions := by
  have initial : ¬ (Threads.start cache).core.client.clientId ≠ none := by
    simp [Threads.start, freshCore]
  have changes (before : Threads) (action : ThreadAction) (after : Threads)
      (taken : step lib id before action = some after) :
      after.core.client.clientId ≠ none ↔
        SetsId before action ∨ before.core.client.clientId ≠ none := by
    rcases step_client_id taken with ⟨given, rest, rfl, program, set⟩ | ⟨unset, kept⟩
    · simp [set, SetsId, program]
    · simp [kept, unset]
  exact raised_iff_happened (step lib id) initial changes ran

structure Known (id : Identifier) (threads : Threads) : Prop where
  held : ∀ given ∈ threads.core.client.clientId, given = id
  program : ∀ given, .setLoginId given ∈ threads.program → given = id
  wire : ∀ arrival ∈ threads.wire, ∀ given ∈ assignedId arrival, given = id

theorem start_known (cache : History) : Known id (Threads.start cache) where
  held := by simp [Threads.start, freshCore]
  program := by simp [Threads.start]
  wire := by simp [Threads.start]

theorem set_login_id_assigned {arrival : Arrival} {statements : List IoStatement}
    (login : loginStatements arrival = some statements) {given : Identifier}
    (member : .setLoginId given ∈ statements) : assignedId arrival = some given := by
  have accepted (first second : StatusCode) (answer : Option LoginResponse)
      (inside : .setLoginId given ∈ answerStatements first second answer) :
      (answer.bind fun login => if login.status = .ok then some login.clientId else none) =
        some given := by
    cases answer with
    | none => cases inside
    | some login =>
        by_cases ok : login.status = .ok
        · simp [answerStatements, ok] at inside
          simp [ok, inside]
        · simp [answerStatements, ok] at inside
  rcases arrival with ⟨read, response⟩
  cases read with
  | inputResponse =>
      obtain rfl := Option.some.inj login
      exact accepted .autorOK .incorrectAutor response.inputResponse member
  | regResponse =>
      obtain rfl := Option.some.inj login
      exact accepted .registrOK .busyRegistr response.regResponse member
  | _ => cases login

theorem io_known (known : Known id before) (taken : step lib id before .io = some after) :
    Known id after := by
  have held : ∀ given ∈ after.core.client.clientId, given = id := by
    intro given member
    rcases step_client_id taken with ⟨other, rest, -, program, set⟩ | ⟨-, kept⟩
    · rw [set] at member
      obtain rfl := Option.some.inj member
      exact known.program other (by simp [program])
    · rw [kept] at member
      exact known.held given member
  rcases io_some taken with ⟨statement, rest, program, rfl⟩ | ⟨arrival, rest, -, frames, handled⟩
  · refine ⟨held, ?_, known.wire⟩
    intro given member
    apply known.program given
    rw [program]
    exact List.mem_cons_of_mem _ member
  · have wire := known.wire
    rw [frames] at wire
    have later : ∀ frame ∈ rest, ∀ given ∈ assignedId frame, given = id :=
      fun frame member => wire frame (List.mem_cons_of_mem _ member)
    rcases handled with ⟨statements, login, rfl⟩ | ⟨-, core, -, rfl⟩
    · refine ⟨held, ?_, later⟩
      intro given member
      exact wire arrival (List.mem_cons_self ..) given (set_login_id_assigned login member)
    · exact ⟨held, known.program, later⟩

theorem step_known {action : ThreadAction} (known : Known id before)
    (taken : step lib id before action = some after) : Known id after := by
  cases action with
  | send arrival =>
      rcases send_some taken with ⟨promised, rfl⟩
      refine ⟨known.held, known.program, ?_⟩
      intro frame member
      rcases List.mem_append.mp member with earlier | new
      · exact known.wire frame earlier
      · rw [List.mem_singleton.mp new]
        exact promised
  | io => exact io_known known taken
  | slot =>
      rcases slot_some taken with ⟨slot, rest, -, rfl⟩
      refine ⟨?_, known.program, known.wire⟩
      simp only [run_slot_client_id]
      exact known.held
  | join channel =>
      obtain rfl := join_some taken
      exact ⟨known.held, known.program, known.wire⟩
  | say msg =>
      obtain rfl := say_some taken
      exact ⟨known.held, known.program, known.wire⟩

theorem requested_identity (lib : ProtocolLib) (core : Core) (slot : Slot) :
    (∀ request ∈ requested lib core slot, identity request = some core.client.clientId) ∧
      (requested lib core slot ≠ [] ↔ buildsRequest slot = true) := by
  cases slot with
  | onAuthorized code =>
      by_cases authorised : code = .autorOK <;>
        simp [requested, buildsRequest, identity, authorised]
  | onJoined channel => simp [requested, buildsRequest, identity]
  | onChannelsReceived channels => simp [requested, buildsRequest, identity]
  | _ => simp [requested, buildsRequest]

theorem identified_append (threads : Threads) {requests : List Request}
    (carries : ∀ request ∈ requests, identity request = some threads.core.client.clientId)
    (same : after.core.toServer = threads.core.toServer ++ requests) :
    Identified id after ↔ Identified id threads ∧
      (requests ≠ [] → threads.core.client.clientId = some id) := by
  unfold Identified
  rw [same, List.forall_mem_append]
  apply and_congr_right'
  constructor
  · intro all someRequest
    rcases List.exists_mem_of_ne_nil _ someRequest with ⟨request, member⟩
    exact all request member _ (carries request member)
  · intro set request member given holds
    rw [carries request member] at holds
    obtain rfl := Option.some.inj holds
    exact set (List.ne_nil_of_mem member)

theorem step_identified {action : ThreadAction} (known : Known id before)
    (taken : step lib id before action = some after) :
    Identified id after ↔ Identified id before ∧
      (Builds before action → before.core.client.clientId ≠ none) := by
  have setIff : before.core.client.clientId = some id ↔
      before.core.client.clientId ≠ none := by
    constructor
    · intro set
      simp [set]
    · intro set
      rcases Option.ne_none_iff_exists'.mp set with ⟨given, found⟩
      rw [found, known.held given found]
  rw [← setIff]
  have unchanged (same : after.core.toServer = before.core.toServer)
      (idle : ¬ Builds before action) :
      Identified id after ↔ Identified id before ∧
        (Builds before action → before.core.client.clientId = some id) := by
    simp [Identified, same, idle]
  cases action with
  | send arrival =>
      rcases send_some taken with ⟨-, rfl⟩
      exact unchanged rfl not_false
  | io =>
      rcases io_some taken with ⟨statement, rest, -, rfl⟩ | ⟨arrival, rest, -, -, handled⟩
      · exact unchanged rfl not_false
      · rcases handled with ⟨statements, -, rfl⟩ | ⟨-, core, received, rfl⟩
        · exact unchanged rfl not_false
        · exact unchanged (receive_received received).toServer not_false
  | slot =>
      rcases slot_some taken with ⟨slot, rest, waiting, rfl⟩
      have requests := requested_identity lib { before.core with queue := rest } slot
      have builds : Builds before .slot ↔ buildsRequest slot = true := by
        simp [Builds, waiting]
      rw [builds, ← requests.2]
      exact identified_append before requests.1 (run_slot_to_server slot)
  | join channel =>
      have sent : after.core.toServer =
          before.core.toServer ++ [.joinRoom before.core.client.clientId channel] := by
        rw [join_some taken]
        rfl
      rw [identified_append before (by simp [identity]) sent]
      simp [Builds]
  | say msg =>
      obtain rfl := say_some taken
      simp [Identified, Core.request, identity, Builds, or_imp, forall_and]

/-- In every run with either kind of login, over any cache. -/
theorem identified_iff_set_in_time (lib : ProtocolLib) (id : Identifier) (cache : History)
    (actions : List ThreadAction) :
    EveryState (step lib id) (Identified id) (Threads.start cache) actions ↔
      SetInTime lib id (Threads.start cache) actions := by
  have nothing : Identified id (Threads.start cache) := by
    simp [Identified, Threads.start, freshCore]
  rw [every_state_iff_every_step (step lib id) (start_known cache)
    (fun _ _ _ known taken => step_known known taken) nothing
    (fun _ _ _ known taken => step_identified known taken) actions]
  constructor
  · intro set done action before after inside ran taken builds
    exact (has_id_iff_set ran).mp (set done action before after inside ran taken builds)
  · intro set done action before after inside ran taken builds
    exact (has_id_iff_set ran).mpr (set done action before after inside ran taken builds)

open AppchatClient.Session.Server (inputAnswer regAnswer)

def answeredWith (arrival : Arrival) : List ThreadAction :=
  [.send arrival, .io, .io, .slot, .slot]

theorem request_before_id :
    ¬ EveryState (step chatLib 7) (Identified 7) (Threads.start Lib.AppendMap.Multimap.empty)
        (answeredWith (inputAnswer 7)) ∧
      ¬ EveryState (step chatLib 7) (Identified 7) (Threads.start Lib.AppendMap.Multimap.empty)
        (answeredWith (regAnswer 7) ++ [.join room]) := by
  have refute (actions : List ThreadAction) (requests : List Request)
      (fields : (run (step chatLib 7) (Threads.start Lib.AppendMap.Multimap.empty) actions).map
        (fun threads => threads.core.toServer) = some requests)
      (unset : ∃ request ∈ requests, identity request = some none) :
      ¬ EveryState (step chatLib 7) (Identified 7) (Threads.start Lib.AppendMap.Multimap.empty)
        actions := by
    intro identified
    rcases last_state (step chatLib 7) identified fields with ⟨reached, rfl, all⟩
    rcases unset with ⟨request, member, carries⟩
    exact absurd (all request member none carries) (by simp)
  constructor
  · exact refute _ [.channels none] (by decide) (by decide)
  · exact refute _ [.joinRoom none room] (by decide) (by decide)

end AppchatClient.Session.Identity
