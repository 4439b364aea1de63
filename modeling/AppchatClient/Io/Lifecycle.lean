import AppchatClient.Io.ReadLoop
import AppchatClient.Io.SendQueue

/-!
# The life of a connection

`do_connect` starts the only operation of a new io service, which is taken as
one: that it closes and reopens the socket between two endpoints is left out.
Its handler writes the login request, whose handler starts the read loop, and
`add_msg_to_send` puts writes beside it. `io_service.run()` returns when no
operation is outstanding, and `connect_to_server` then closes the socket and
returns. The socket may also be closed, and messages may be added, at any time
by another thread. Adding a message and each handler are one atomic step.
-/

namespace AppchatClient.Io.Lifecycle

open AppchatClient.Protocol AppchatClient.Lib.Runs
open AppchatClient.Io.Handlers AppchatClient.Io.ReadLoop AppchatClient.Io.SendQueue

set_option autoImplicit false

inductive Op where
  | connect
  | login
  | read
  | write
deriving DecidableEq, Repr

variable {Msg : Type*}

/-- `succeeded` are the operations that have completed without an error and
whose handler has not run yet. Every other outstanding operation fails when the
socket is closed. -/
structure Conn (Msg : Type*) where
  client : Client
  sender : Sender Msg
  connecting : Bool
  loginWrite : Bool
  succeeded : Op → Bool
  ended : Bool

namespace Conn

/-- After `do_connect`, which has opened the socket. -/
def start (Msg : Type*) : Conn Msg where
  client := Client.fresh []
  sender := Sender.fresh Msg true
  connecting := true
  loginWrite := false
  succeeded _ := false
  ended := false

def outstanding (conn : Conn Msg) : Op → Nat
  | .connect => conn.connecting.toNat
  | .login => conn.loginWrite.toNat
  | .read => conn.client.reads.length
  | .write => conn.sender.outstanding.length

def idle (conn : Conn Msg) : Bool :=
  conn.outstanding .connect = 0 && conn.outstanding .login = 0 && conn.outstanding .read = 0 &&
    conn.outstanding .write = 0

def withClient (conn : Conn Msg) (client : Client) : Conn Msg :=
  { conn with client := client, sender := { conn.sender with sockOpen := client.sockOpen } }

def withSender (conn : Conn Msg) (sender : Sender Msg) : Conn Msg :=
  { conn with sender := sender, client := { conn.client with sockOpen := sender.sockOpen } }

def done (conn : Conn Msg) (op : Op) : Conn Msg :=
  { conn with succeeded := Function.update conn.succeeded op false }

end Conn

inductive ConnAction (Msg : Type*) where
  | succeed (op : Op)
  | connected
  | loginSent
  | readDone (read : Read) (bytes : Bytes)
  | written
  | addMsgToSend (msg : Msg)
  | closeConnection
  | runReturns

def isHandler : ConnAction Msg → Bool
  | .connected => true
  | .loginSent => true
  | .readDone _ _ => true
  | .written => true
  | _ => false

def act (lib : ProtocolLib) (conn : Conn Msg) : ConnAction Msg → Option (Conn Msg)
  | .succeed op =>
      if conn.client.sockOpen = true ∧ 0 < conn.outstanding op then
        some { conn with succeeded := Function.update conn.succeeded op true }
      else none
  | .connected =>
      if conn.connecting then
        some { conn.done .connect with
          connecting := false
          loginWrite := conn.loginWrite || conn.succeeded .connect }
      else none
  | .loginSent =>
      if conn.loginWrite then
        some ({ conn.done .login with loginWrite := false }.withClient
          (loginRequestSent conn.client !conn.succeeded .login))
      else none
  | .readDone read bytes =>
      (complete lib conn.client ⟨read, !conn.succeeded .read, bytes⟩).map fun client =>
        (conn.done .read).withClient client
  | .written =>
      (writeCompleted conn.sender !conn.succeeded .write).map fun sender =>
        (conn.done .write).withSender sender
  | .addMsgToSend msg => (addMsgToSend conn.sender msg).map conn.withSender
  | .closeConnection => some (conn.withClient conn.client.closeConnection)
  | .runReturns =>
      if conn.ended = false ∧ conn.idle = true then
        some { conn.withClient conn.client.closeConnection with ended := true }
      else none

/-- Handlers run inside `io_service.run()`: once it has returned, a write may
still be started but its handler never runs. -/
def step (lib : ProtocolLib) (conn : Conn Msg) (action : ConnAction Msg) : Option (Conn Msg) :=
  if conn.ended = true ∧ isHandler action = true then none else act lib conn action

variable {lib : ProtocolLib} {conn after : Conn Msg}

/-- A read was taken off, at most one other was started, and the socket was not opened. -/
structure Moved (before after : Client) (error : Bool) : Prop where
  taken : 0 < before.reads.length
  closed : before.sockOpen = false → after.sockOpen = false
  reads : after.reads.length ≤ before.reads.length - 1 + (if error then 0 else 1)
  failed : error = true → after.sockOpen = false

theorem settled_or_stalled {client next : Client} {read : Read}
    (handled : handler lib client false read = some next) :
    Settled client next ∨ Stalled client next := by
  by_cases header : read = .pbHeader
  · subst header
    obtain rfl := Option.some.inj handled
    simp only [doReadPbHeader, Bool.false_eq_true, if_false]
    by_cases parsed : (lib.parseHeader client.binBuffer).1 = true
    · rw [if_pos parsed]
      have outcome := pb_header_outcome client (lib.parseHeader client.binBuffer).2
      by_cases known : (bodyRead (lib.parseHeader client.binBuffer).2.command).isSome = true
      · exact Or.inl (outcome.1 known)
      · exact Or.inr (outcome.2 (Bool.eq_false_iff.mpr known))
    · rw [if_neg parsed]
      exact Or.inr ⟨rfl, rfl, rfl⟩
  · have outcome := body_handler_outcome lib header handled
    by_cases missing : (parseReadBuffer lib client).1 = true ∧
        carriesOwnMessage (parseReadBuffer lib client).2 read = false
    · exact Or.inr (outcome.2 missing)
    · apply Or.inl
      apply outcome.1
      intro parsed
      by_contra absent
      exact missing ⟨parsed, Bool.eq_false_iff.mpr absent⟩

theorem complete_moved {client next : Client} {event : Completion}
    (handled : complete lib client event = some next) : Moved client next event.error := by
  unfold complete at handled
  split_ifs at handled with possible
  have sock : (receive client event).sockOpen = client.sockOpen := by
    unfold receive
    split <;> rfl
  have someRead : 0 < client.reads.length := List.length_pos_of_mem possible.1
  have reads : (receive client event).reads.length = client.reads.length - 1 := by
    have erased : (receive client event).reads = client.reads.erase event.read := by
      unfold receive
      split <;> rfl
    rw [erased, List.length_erase_of_mem possible.1]
  cases error : event.error with
  | true =>
      rw [error] at handled
      have closed : next = (receive client event).closeConnection := by
        cases read : event.read <;> rw [read] at handled <;> exact (Option.some.inj handled).symm
      subst closed
      exact ⟨someRead, fun _ => rfl, Nat.le_of_eq reads, fun _ => rfl⟩
  | false =>
      rw [error] at handled
      rcases settled_or_stalled handled with ⟨-, ⟨same, read, added⟩ | ⟨closed, same⟩⟩ | stalled
      · refine ⟨someRead, fun shut => same.trans (sock.trans shut), ?_, by simp⟩
        rw [added, List.length_append, reads]
        exact Nat.le_refl _
      · refine ⟨someRead, fun _ => closed, ?_, by simp⟩
        rw [same, reads]
        exact Nat.le_add_right _ _
      · refine ⟨someRead, fun shut => stalled.2.1.trans (sock.trans shut), ?_, by simp⟩
        rw [stalled.2.2, reads]
        exact Nat.le_add_right _ _

/-- Connecting, the login write and the reads follow each other, and beside them
at most one write is outstanding. -/
structure Tidy (conn : Conn Msg) : Prop where
  oneByOne : conn.outstanding .connect + conn.outstanding .login + conn.outstanding .read ≤ 1
  inOrder : InOrder conn.sender
  oneSocket : conn.sender.sockOpen = conn.client.sockOpen
  waiting : ∀ op, conn.succeeded op = true → 0 < conn.outstanding op
  ending : conn.ended = true → conn.client.sockOpen = false ∧
    ∀ op, op ≠ .write → conn.outstanding op = 0

/-- An upper bound for the handlers that a closed socket has still to run. A
handler of an operation that has succeeded may start one more operation. -/
def weight (conn : Conn Msg) (op : Op) : Nat :=
  conn.outstanding op * (if conn.succeeded op then 2 else 1)

def writeWeight (conn : Conn Msg) : Nat :=
  if conn.sender.failed then 0 else if conn.succeeded .write then 2 else 1

def remaining (conn : Conn Msg) : Nat :=
  weight conn .connect + weight conn .login + weight conn .read + writeWeight conn

/-- One action keeps the order of the operations, and on a closed socket every
handler uses up some of what remains. -/
structure Stepped (conn after : Conn Msg) (action : ConnAction Msg) : Prop where
  tidy : Tidy after
  closed : conn.client.sockOpen = false → after.client.sockOpen = false
  used : conn.client.sockOpen = false →
    remaining after + (if isHandler action then 1 else 0) ≤ remaining conn

theorem start_tidy : Tidy (Conn.start Msg) where
  oneByOne := Nat.le_refl _
  inOrder := fresh_in_order true
  oneSocket := rfl
  waiting op happened := by cases happened
  ending ended := by cases ended

theorem not_succeeded (tidy : Tidy conn) {op : Op} (none : conn.outstanding op = 0) :
    conn.succeeded op = false := by
  by_contra happened
  have someOp := tidy.waiting op (by simpa using happened)
  omega

theorem in_order_sock {sender : Sender Msg} (inOrder : InOrder sender) {sockOpen : Bool}
    (kept : sender.sockOpen = false → sockOpen = false) :
    InOrder { sender with sockOpen := sockOpen } where
  accounted := inOrder.accounted
  handedOver := inOrder.handedOver
  writing := inOrder.writing
  stopped failed :=
    have stopped := inOrder.stopped failed
    ⟨stopped.1, kept stopped.2.1, stopped.2.2⟩

theorem succeed_stepped {op : Op} (tidy : Tidy conn)
    (taken : act lib conn (.succeed op) = some after) : Stepped conn after (.succeed op) := by
  simp only [act] at taken
  split_ifs at taken with possible
  obtain rfl := Option.some.inj taken
  have notClosed : conn.client.sockOpen ≠ false := by simp [possible.1]
  refine ⟨⟨tidy.oneByOne, tidy.inOrder, tidy.oneSocket, ?_, tidy.ending⟩,
    fun closed => absurd closed notClosed, fun closed => absurd closed notClosed⟩
  intro other happened
  by_cases same : other = op
  · subst same
    exact possible.2
  · simp only [Function.update_of_ne same] at happened
    exact tidy.waiting other happened

theorem connected_stepped (tidy : Tidy conn) (running : conn.ended = false)
    (taken : act lib conn .connected = some after) : Stepped conn after .connected := by
  simp only [act] at taken
  split_ifs at taken with connecting
  obtain rfl := Option.some.inj taken
  have connect : conn.outstanding .connect = 1 := by simp [Conn.outstanding, connecting]
  have order := tidy.oneByOne
  have noLogin : conn.outstanding .login = 0 := by omega
  have noRead : conn.outstanding .read = 0 := by omega
  have login : conn.loginWrite = false := by simpa [Conn.outstanding] using noLogin
  have reads : conn.client.reads.length = 0 := noRead
  have loginQuiet := not_succeeded tidy noLogin
  have readQuiet := not_succeeded tidy noRead
  refine ⟨⟨?_, tidy.inOrder, tidy.oneSocket, ?_, ?_⟩, fun closed => closed, ?_⟩
  · cases conn.succeeded .connect <;> simp [Conn.outstanding, Conn.done, login, reads]
  · intro op happened
    cases op with
    | connect => simp [Conn.done] at happened
    | login => simp [Conn.done, loginQuiet] at happened
    | read => simp [Conn.done, readQuiet] at happened
    | write => exact tidy.waiting .write (by simpa [Conn.done] using happened)
  · intro ended
    exact absurd (running.symm.trans ended) (by decide)
  · intro _
    cases happened : conn.succeeded .connect <;>
      simp only [remaining, weight, writeWeight, Conn.outstanding, Conn.done, connecting, login,
        reads, loginQuiet, happened, isHandler, Function.update_apply, reduceCtorEq, ↓reduceIte,
        Bool.false_eq_true, Bool.toNat_true, Bool.toNat_false, Bool.or_true, Bool.or_false] <;>
      omega

theorem login_sent_stepped (tidy : Tidy conn) (running : conn.ended = false)
    (taken : act lib conn .loginSent = some after) : Stepped conn after .loginSent := by
  simp only [act] at taken
  split_ifs at taken with writing
  obtain rfl := Option.some.inj taken
  have login : conn.outstanding .login = 1 := by simp [Conn.outstanding, writing]
  have order := tidy.oneByOne
  have noConnect : conn.outstanding .connect = 0 := by omega
  have noRead : conn.outstanding .read = 0 := by omega
  have connecting : conn.connecting = false := by simpa [Conn.outstanding] using noConnect
  have reads : conn.client.reads = [] := List.length_eq_zero_iff.mp noRead
  have readQuiet := not_succeeded tidy noRead
  have moved : (loginRequestSent conn.client !conn.succeeded .login).reads.length =
      if conn.succeeded .login then 1 else 0 := by
    cases conn.succeeded .login <;>
      simp [loginRequestSent, Client.closeConnection, Client.asyncReadPbHeader, Client.asyncRead,
        reads]
  have sock (closed : conn.client.sockOpen = false) :
      (loginRequestSent conn.client !conn.succeeded .login).sockOpen = false := by
    cases conn.succeeded .login
    · rfl
    · exact closed
  generalize loginRequestSent conn.client (!conn.succeeded .login) = next at moved sock ⊢
  refine ⟨⟨?_, ?_, rfl, ?_, ?_⟩, sock, ?_⟩
  · simp only [Conn.outstanding, Conn.withClient, Conn.done, connecting, moved]
    split_ifs <;> decide
  · exact in_order_sock tidy.inOrder fun closed => sock (tidy.oneSocket.symm.trans closed)
  · intro op happened
    cases op with
    | connect =>
        have quiet := not_succeeded tidy noConnect
        simp [Conn.withClient, Conn.done, quiet] at happened
    | login => simp [Conn.withClient, Conn.done] at happened
    | read => simp [Conn.withClient, Conn.done, readQuiet] at happened
    | write => exact tidy.waiting .write (by simpa [Conn.withClient, Conn.done] using happened)
  · intro ended
    exact absurd (running.symm.trans ended) (by decide)
  · intro _
    cases happened : conn.succeeded .login <;>
      simp only [happened, Bool.false_eq_true, if_true, if_false] at moved <;>
      simp only [remaining, weight, writeWeight, Conn.outstanding, Conn.withClient, Conn.done,
        connecting, writing, reads, moved, readQuiet, happened, isHandler, Function.update_apply,
        reduceCtorEq, ↓reduceIte, Bool.false_eq_true, Bool.toNat_true, Bool.toNat_false,
        List.length_nil] <;>
      omega

theorem read_done_stepped {read : Read} {bytes : Bytes} (tidy : Tidy conn)
    (running : conn.ended = false) (taken : act lib conn (.readDone read bytes) = some after) :
    Stepped conn after (.readDone read bytes) := by
  rcases Option.map_eq_some_iff.mp taken with ⟨client, handled, rfl⟩
  have moved := complete_moved handled
  have reading : 0 < conn.outstanding .read := moved.taken
  have order := tidy.oneByOne
  have noConnect : conn.outstanding .connect = 0 := by omega
  have noLogin : conn.outstanding .login = 0 := by omega
  have connecting : conn.connecting = false := by simpa [Conn.outstanding] using noConnect
  have login : conn.loginWrite = false := by simpa [Conn.outstanding] using noLogin
  have one : conn.client.reads.length = 1 := by
    have bound : conn.outstanding .read ≤ 1 := by omega
    exact Nat.le_antisymm bound reading
  have few := moved.reads
  rw [one] at few
  refine ⟨⟨?_, ?_, rfl, ?_, ?_⟩, moved.closed, ?_⟩
  · simp only [Conn.outstanding, Conn.withClient, Conn.done, connecting, login, Bool.toNat_false]
    split_ifs at few <;> omega
  · exact in_order_sock tidy.inOrder fun closed => moved.closed (tidy.oneSocket.symm.trans closed)
  · intro op happened
    cases op with
    | connect =>
        have quiet := not_succeeded tidy noConnect
        simp [Conn.withClient, Conn.done, quiet] at happened
    | login =>
        have quiet := not_succeeded tidy noLogin
        simp [Conn.withClient, Conn.done, quiet] at happened
    | read => simp [Conn.withClient, Conn.done] at happened
    | write => exact tidy.waiting .write (by simpa [Conn.withClient, Conn.done] using happened)
  · intro ended
    exact absurd (running.symm.trans ended) (by decide)
  · intro _
    cases happened : conn.succeeded .read <;>
      simp only [happened, Bool.not_true, Bool.not_false, Bool.false_eq_true, if_true,
        if_false] at few <;>
      simp only [remaining, weight, writeWeight, Conn.outstanding, Conn.withClient, Conn.done,
        connecting, login, one, happened, isHandler, Function.update_apply, reduceCtorEq,
        ↓reduceIte, Bool.false_eq_true, Bool.toNat_false] <;>
      omega

theorem write_completed_sock {sender next : Sender Msg} {error : Bool}
    (completed : writeCompleted sender error = some next) :
    sender.outstanding ≠ [] ∧ (sender.sockOpen = false → next.sockOpen = false) := by
  unfold writeCompleted at completed
  cases outstanding : sender.outstanding with
  | nil => simp [outstanding] at completed
  | cons msg others =>
      refine ⟨by simp, ?_⟩
      intro closed
      simp only [outstanding] at completed
      split_ifs at completed
      · obtain rfl := Option.some.inj completed
        rfl
      · obtain rfl := Option.some.inj completed
        exact closed
      · unfold startSendMsgs at completed
        split at completed
        · obtain rfl := Option.some.inj completed
          exact closed
        · cases completed

theorem written_stepped (tidy : Tidy conn) (running : conn.ended = false)
    (taken : act lib conn .written = some after) : Stepped conn after .written := by
  rcases Option.map_eq_some_iff.mp taken with ⟨sender, completed, rfl⟩
  have order := completed_in_order tidy.inOrder completed
  have sock := write_completed_sock completed
  have writing : 0 < conn.outstanding .write := List.length_pos_iff.mpr sock.1
  refine ⟨⟨tidy.oneByOne, order.1, rfl, ?_, ?_⟩, ?_, ?_⟩
  · intro op happened
    cases op with
    | write => simp [Conn.withSender, Conn.done] at happened
    | connect => exact tidy.waiting .connect (by simpa [Conn.withSender, Conn.done] using happened)
    | login => exact tidy.waiting .login (by simpa [Conn.withSender, Conn.done] using happened)
    | read => exact tidy.waiting .read (by simpa [Conn.withSender, Conn.done] using happened)
  · intro ended
    exact absurd (running.symm.trans ended) (by decide)
  · intro closed
    exact sock.2 (tidy.oneSocket.trans closed)
  · intro _
    have failed := order.2.1
    have nextFailed := order.2.2
    cases happened : conn.succeeded .write <;> rw [happened] at nextFailed <;>
      simp [remaining, weight, writeWeight, Conn.outstanding, Conn.withSender, Conn.done, failed,
        nextFailed, happened, isHandler]

theorem add_msg_sock {sender next : Sender Msg} {msg : Msg}
    (added : addMsgToSend sender msg = some next) :
    next.sockOpen = sender.sockOpen ∧ sender.outstanding.length ≤ next.outstanding.length := by
  unfold addMsgToSend startSendMsgs at added
  cases queue : sender.msgToServer with
  | nil =>
      simp only [queue, List.isEmpty_nil, Bool.not_true, Bool.false_eq_true, if_false,
        List.nil_append, Option.some.injEq] at added
      subst added
      exact ⟨rfl, by simp⟩
  | cons front rest =>
      simp only [queue, List.isEmpty_cons, Bool.not_false, if_true, Option.some.injEq] at added
      subst added
      exact ⟨rfl, Nat.le_refl _⟩

theorem add_msg_stepped {msg : Msg} (tidy : Tidy conn)
    (taken : act lib conn (.addMsgToSend msg) = some after) :
    Stepped conn after (.addMsgToSend msg) := by
  rcases Option.map_eq_some_iff.mp taken with ⟨sender, added, rfl⟩
  have order := enqueue_in_order tidy.inOrder added
  have sock := add_msg_sock added
  refine ⟨⟨tidy.oneByOne, order.1, rfl, ?_, ?_⟩, ?_, ?_⟩
  · intro op happened
    cases op with
    | write => exact Nat.lt_of_lt_of_le (tidy.waiting .write happened) sock.2
    | connect => exact tidy.waiting .connect happened
    | login => exact tidy.waiting .login happened
    | read => exact tidy.waiting .read happened
  · intro ended
    have ending := tidy.ending ended
    refine ⟨sock.1.trans (tidy.oneSocket.trans ending.1), ?_⟩
    intro op other
    have none := ending.2 op other
    cases op with
    | write => exact absurd rfl other
    | connect => exact none
    | login => exact none
    | read => exact none
  · intro closed
    exact sock.1.trans (tidy.oneSocket.trans closed)
  · intro _
    have failed : (conn.withSender sender).sender.failed = conn.sender.failed := order.2
    have same : writeWeight (conn.withSender sender) = writeWeight conn := by
      rw [writeWeight, failed]
      rfl
    have others : remaining (conn.withSender sender) = remaining conn := by
      rw [remaining, same]
      rfl
    rw [others]
    exact Nat.le_refl _

theorem close_tidy (tidy : Tidy conn) : Tidy (conn.withClient conn.client.closeConnection) where
  oneByOne := tidy.oneByOne
  inOrder := in_order_sock tidy.inOrder fun _ => rfl
  oneSocket := rfl
  waiting := tidy.waiting
  ending ended := ⟨rfl, (tidy.ending ended).2⟩

theorem run_returns_stepped (tidy : Tidy conn) (taken : act lib conn .runReturns = some after) :
    Stepped conn after .runReturns := by
  simp only [act] at taken
  split_ifs at taken with idle
  obtain rfl := Option.some.inj taken
  have closed := close_tidy tidy
  have none : ∀ op, conn.outstanding op = 0 := by
    have all := idle.2
    simp only [Conn.idle, Bool.and_eq_true, decide_eq_true_eq] at all
    intro op
    cases op <;> omega
  exact ⟨⟨closed.oneByOne, closed.inOrder, closed.oneSocket, closed.waiting,
    fun _ => ⟨rfl, fun op _ => none op⟩⟩, fun _ => rfl, fun _ => Nat.le_refl _⟩

theorem step_stepped {action : ConnAction Msg} (tidy : Tidy conn)
    (taken : step lib conn action = some after) : Stepped conn after action := by
  unfold step at taken
  split_ifs at taken with afterEnd
  have running (handler : isHandler action = true) : conn.ended = false := by
    by_contra ended
    exact afterEnd ⟨by simpa using ended, handler⟩
  cases action with
  | succeed op => exact succeed_stepped tidy taken
  | connected => exact connected_stepped tidy (running rfl) taken
  | loginSent => exact login_sent_stepped tidy (running rfl) taken
  | readDone read bytes => exact read_done_stepped tidy (running rfl) taken
  | written => exact written_stepped tidy (running rfl) taken
  | addMsgToSend msg => exact add_msg_stepped tidy taken
  | closeConnection =>
      obtain rfl := Option.some.inj taken
      exact ⟨close_tidy tidy, fun _ => rfl, fun _ => Nat.le_refl _⟩
  | runReturns => exact run_returns_stepped tidy taken

theorem remaining_le (tidy : Tidy conn) : remaining conn ≤ 4 := by
  have order := tidy.oneByOne
  have each (op : Op) : weight conn op ≤ 2 * conn.outstanding op := by
    unfold weight
    split_ifs <;> omega
  have connect := each .connect
  have login := each .login
  have read := each .read
  have write : writeWeight conn ≤ 2 := by
    unfold writeWeight
    split_ifs <;> omega
  unfold remaining
  omega

theorem write_completed_some {sender : Sender Msg} {msg : Msg} {others : List Msg}
    (writes : sender.outstanding = msg :: others) (error : Bool) :
    (writeCompleted sender error).isSome = true := by
  unfold writeCompleted
  rw [writes]
  cases error with
  | true => rfl
  | false =>
      cases sender.msgToServer.tail with
      | nil => simp
      | cons next rest => simp [startSendMsgs]

def ReadWaits (conn : Conn Msg) : Prop := conn.succeeded .read = true

theorem handler_or_idle (lib : ProtocolLib) (conn : Conn Msg) :
    conn.idle = true ∨ ReadWaits conn ∨
      ∃ action, isHandler action = true ∧ (act lib conn action).isSome = true := by
  by_cases connecting : conn.connecting = true
  · exact Or.inr (Or.inr ⟨.connected, rfl, by simp [act, connecting]⟩)
  by_cases login : conn.loginWrite = true
  · exact Or.inr (Or.inr ⟨.loginSent, rfl, by simp [act, login]⟩)
  cases reads : conn.client.reads with
  | cons read rest =>
      by_cases waits : conn.succeeded .read = true
      · exact Or.inr (Or.inl waits)
      · refine Or.inr (Or.inr ⟨.readDone read [], rfl, ?_⟩)
        have failed : conn.succeeded .read = false := Bool.eq_false_iff.mpr waits
        have possible : 0 = bufferSize lib conn.client read ∨ 0 < bufferSize lib conn.client read :=
          Nat.eq_zero_or_pos _ |>.imp Eq.symm id
        cases read <;>
          simp [act, complete, reads, failed, possible, handler, doReadEchoResponse]
  | nil =>
      cases writes : conn.sender.outstanding with
      | nil =>
          left
          simp [Conn.idle, Conn.outstanding, connecting, login, reads, writes]
      | cons msg others =>
          refine Or.inr (Or.inr ⟨.written, rfl, ?_⟩)
          simp [act, write_completed_some writes]

/-- A closed connection comes to its end: whatever is added to the queue and
however often it is closed, at most four more handlers run, one is next while an
operation is outstanding, and else `run()` returns. Behind that nothing but the
write of a message added since is outstanding, and no handler runs. -/
structure ComesToEnd (lib : ProtocolLib) (actions : List (ConnAction Msg)) (later : Conn Msg) :
    Prop where
  few : actions.countP isHandler ≤ 4
  closed : later.client.sockOpen = false
  goesOn : ReadWaits later ∨
    (∃ action, isHandler action = true ∧ (step lib later action).isSome = true) ∨
    (step lib later .runReturns).isSome = true ∨ later.ended = true
  final : later.ended = true →
    (∀ op, op ≠ .write → later.outstanding op = 0) ∧
      ∀ action, isHandler action = true → step lib later action = none

theorem closed_connection_ends {lib : ProtocolLib} {before actions : List (ConnAction Msg)}
    {reached later : Conn Msg} (ran : run (step lib) (Conn.start Msg) before = some reached)
    (closed : reached.client.sockOpen = false)
    (further : run (step lib) reached actions = some later) : ComesToEnd lib actions later := by
  have tidy := run_invariant (step lib) start_tidy
    (fun _ _ _ held taken => (step_stepped held taken).tidy) ran
  have uses (conn : Conn Msg) (action : ConnAction Msg) (after : Conn Msg)
      (held : Tidy conn ∧ conn.client.sockOpen = false)
      (taken : step lib conn action = some after) :
      (Tidy after ∧ after.client.sockOpen = false) ∧
        remaining after + (if isHandler action then 1 else 0) ≤ remaining conn := by
    have stepped := step_stepped held.1 taken
    exact ⟨⟨stepped.tidy, stepped.closed held.2⟩, stepped.used held.2⟩
  rcases counted_steps_bounded (step lib) uses ⟨tidy, closed⟩ further with ⟨⟨still, shut⟩, bound⟩
  have four := remaining_le tidy
  refine ⟨by omega, shut, ?_, ?_⟩
  · cases ended : later.ended with
    | true => exact Or.inr (Or.inr (Or.inr rfl))
    | false =>
        have same (action : ConnAction Msg) : step lib later action = act lib later action := by
          simp [step, ended]
        rcases handler_or_idle lib later with idle | waits | ⟨action, handler, taken⟩
        · exact Or.inr (Or.inr (Or.inl (by simp [same, act, idle, ended])))
        · exact Or.inl waits
        · exact Or.inr (Or.inl ⟨action, handler, by rw [same]; exact taken⟩)
  · intro ended
    refine ⟨(still.ending ended).2, ?_⟩
    intro action handler
    exact if_pos ⟨ended, handler⟩

def loggedInAndClosed : List (ConnAction Nat) :=
  [.succeed .connect, .connected, .succeed .login, .loginSent, .closeConnection]

def afterClosing : List (ConnAction Nat) :=
  [.addMsgToSend 1, .readDone .pbHeader [], .written, .runReturns, .addMsgToSend 2]

theorem closed_connection_ends_sample : ∃ later,
    run (step sampleLib) (Conn.start Nat) (loggedInAndClosed ++ afterClosing) = some later ∧
      ComesToEnd sampleLib afterClosing later := by
  have closes : (run (step sampleLib) (Conn.start Nat) loggedInAndClosed).map
      (fun conn => conn.client.sockOpen) = some false := by
    decide
  have finishes : (run (step sampleLib) (Conn.start Nat)
      (loggedInAndClosed ++ afterClosing)).isSome = true := by
    decide
  rcases Option.map_eq_some_iff.mp closes with ⟨reached, ran, closed⟩
  rcases Option.isSome_iff_exists.mp finishes with ⟨later, whole⟩
  have further : run (step sampleLib) reached afterClosing = some later := by
    rw [run_append, ran] at whole
    exact whole
  exact ⟨later, whole, closed_connection_ends ran closed further⟩

end AppchatClient.Io.Lifecycle
