import AppchatClient.Gui.SendClicked
import AppchatClient.Io.SendQueue
import AppchatClient.Lib.Writes
import AppchatClient.Session.Exchange
import AppchatClient.Session.Identity

/-!
# What a session writes

The login request is written by `send_login_request`, every other request by
way of `msg_to_server`; the two do not know of each other. A slot or a click
builds its requests and hands them over one by one, and the completion handlers
run in between; each handing over and each handler is one atomic step. The
socket takes the bytes of a write in portions. The buffer of the login request
belongs to the handler of `async_connect` and is freed when that returns, while
the write may go on. The connection is that of one attempt, and the main window
sends by its client.
-/

namespace AppchatClient.Session.Outgoing

open AppchatClient.Protocol AppchatClient.Lib.Runs AppchatClient.Lib.Writes
open AppchatClient.Io.Handlers AppchatClient.Io.SendQueue
open AppchatClient.Gui.SendClicked (Instant Call Sent Composer ComposerAction sendClicked)
open AppchatClient.Cache.Refinement AppchatClient.Session.Receivers AppchatClient.Session.Effects
open AppchatClient.Session.Deque (Link)
open AppchatClient.Session.Identity (opensMain)

set_option autoImplicit false

/-- The two places that start an `async_write`. -/
inductive Writer where
  | login
  | queue
deriving DecidableEq, Repr

/-- How far the login request is. Up to `writing` the connect handler is running
and its buffer is there. `failed` is a connection or a login write with an
error, behind which nothing is started. -/
inductive Stage where
  | connecting
  | connected
  | writing
  | sent
  | failed
deriving DecidableEq, Repr

/-- `due` are the requests that the slot under way, or the click, has built and
not handed over yet; `link.core.toServer` are all that have been built. Whether
the socket is open is kept in the client. `composer` and `leSearch` are the
inputs of the main window. -/
structure Uplink where
  link : Link
  shown : Bool
  composer : Composer
  leSearch : StdString
  due : List Bytes
  stage : Stage
  sender : Sender Bytes
  line : ByteLine Writer UInt8

namespace Uplink

def start (cache : History) (user : StdString) (now : Instant) : Uplink where
  link :=
    { core := { freshCore cache with client := { freshClient with reads := [] } }
      wire := []
      sent := [] }
  shown := false
  composer := { Composer.start now with login := user }
  leSearch := []
  due := []
  stage := .connecting
  sender := Sender.fresh Bytes true
  line := ByteLine.empty Writer UInt8

def requests (up : Uplink) : List Request := up.link.core.toServer

def withCore (up : Uplink) (core : Core) : Uplink :=
  { up with link := { up.link with core := core } }

def withClient (up : Uplink) (client : Client) : Uplink :=
  up.withCore { up.link.core with client := client }

/-- The GUI thread has run a slot or a click, which may have built requests. -/
def built (serialize : Request → Bytes) (up : Uplink) (core : Core) : Uplink :=
  { up.withCore core with due := (core.toServer.drop up.requests.length).map serialize }

def began (up : Uplink) (sender : Sender Bytes) : Uplink :=
  { up with
    sender := sender
    line := (sender.handed.drop up.sender.handed.length).foldl (ByteLine.beginWrite Writer.queue)
      up.line }

def joinClicked (serialize : Request → Bytes) (up : Uplink) : Uplink :=
  if up.leSearch = [] then up
  else
    let request := Request.joinRoom up.link.core.client.clientId up.leSearch
    { up.built serialize (up.link.core.request [request]) with leSearch := [] }

/-- What the composer has sent goes to `send_msg_to_server`. -/
def composed (serialize : Request → Bytes) (up : Uplink) (composer : Composer) : Uplink :=
  let new := composer.sent.drop up.composer.sent.length
  { up.built serialize (up.link.core.request (new.map fun entry => .sendText entry.msg)) with
    composer := composer }

end Uplink

inductive UplinkAction where
  | connected (error : Bool)
  | connectReturned (freed : Bytes)
  | take (index count : Nat)
  | loginSent (error : Bool)
  | send (arrival : Arrival)
  | io
  | slot
  | search (text : StdString)
  | joinClicked
  | compose (action : ComposerAction)
  | push
  | written (error : Bool)
  | closeConnection

def step (lib : ProtocolLib) (serialize : Request → Bytes) (login : Bytes) (up : Uplink) :
    UplinkAction → Option Uplink
  | .connected error =>
      if up.stage = .connecting then
        some (if error then { up with stage := .failed }
          else { up with stage := .connected, line := up.line.beginWrite .login login })
      else none
  -- What is left of the login request is read from freed memory, whatever is there.
  | .connectReturned freed =>
      if up.stage = .connected then
        (up.line.overwrite 0 freed).map fun line => { up with stage := .writing, line := line }
      else none
  | .take index count =>
      if up.link.core.client.sockOpen then
        (up.line.take index count).map fun line => { up with line := line }
      else none
  | .loginSent error =>
      if up.stage = .writing then
        (up.line.endWrite .login error).map fun line =>
          { up.withClient (loginRequestSent up.link.core.client error) with
            stage := if error then .failed else .sent
            line := line }
      else none
  | .send arrival =>
      (Exchange.step lib up.link (.send arrival)).map fun link => { up with link := link }
  | .io => (Exchange.step lib up.link .io).map fun link => { up with link := link }
  | .slot =>
      match up.link.core.queue with
      | slot :: rest =>
          if up.due = [] then
            some { up.built serialize (runSlot lib { up.link.core with queue := rest } slot) with
              shown := up.shown || opensMain slot }
          else none
      | [] => none
  | .search text =>
      if up.shown = true ∧ up.due = [] then some { up with leSearch := text } else none
  | .joinClicked =>
      if up.shown = true ∧ up.due = [] then some (up.joinClicked serialize) else none
  | .compose action =>
      if up.shown = true ∧ up.due = [] then
        (Gui.SendClicked.step up.composer action).map fun composer =>
          up.composed serialize composer
      else none
  | .push =>
      match up.due with
      | request :: rest =>
          (addMsgToSend up.sender request).map fun sender => { up.began sender with due := rest }
      | [] => none
  | .written error =>
      (up.line.endWrite .queue error).bind fun line =>
        (writeCompleted up.sender error).map fun sender =>
          let handled := { up with line := line }.began sender
          if error then handled.withClient handled.link.core.client.closeConnection else handled
  | .closeConnection => some (up.withClient up.link.core.client.closeConnection)

/-- No byte of the login request is taken once the connect handler has returned. -/
def TakenInTime (up : Uplink) : UplinkAction → Prop
  | .take index count =>
      up.stage = .writing → ∀ line ∈ up.line.take index count, line.taken = up.line.taken
  | _ => True

instance (up : Uplink) (action : UplinkAction) : Decidable (TakenInTime up action) := by
  cases action <;> unfold TakenInTime <;> infer_instance

/-- The session has not begun: no read is outstanding, so that no frame is
taken, no event is posted and no request is built. -/
structure Silent (up : Uplink) : Prop where
  reads : up.link.core.client.reads = []
  queue : up.link.core.queue = []
  requests : up.requests = []
  due : up.due = []
  hidden : up.shown = false
  sender : up.sender = Sender.fresh Bytes true

/-- The login request is written, and the send queue goes on behind it. -/
structure Sending (serialize : Request → Bytes) (login : Bytes) (up : Uplink) : Prop where
  inOrder : InOrder up.sender
  accounted : up.sender.enqueued ++ up.due = up.requests.map serialize
  writers : up.line.rests.map Prod.fst = up.sender.outstanding.map fun _ => Writer.queue
  loginFirst : login <+: up.line.taken
  carried : up.line.taken <+: login ++ up.sender.handed.flatten
  flowing : up.sender.failed = false → up.line.carried = login ++ up.sender.handed.flatten

def AtStage (serialize : Request → Bytes) (login : Bytes) (up : Uplink) : Prop :=
  match up.stage with
  | .connecting => Silent up ∧ up.line = ByteLine.empty Writer UInt8
  | .connected => Silent up ∧ up.line.carried = login ∧ ∃ rest, up.line.rests = [(.login, rest)]
  | .writing => Silent up ∧ up.line.taken <+: login ∧
      ∃ rest, up.line.rests = [(.login, rest)] ∧ (rest = [] → up.line.taken = login)
  | .failed => Silent up ∧ up.line.taken <+: login ∧ up.line.rests = []
  | .sent => Sending serialize login up

variable {lib : ProtocolLib} {serialize : Request → Bytes} {login : Bytes} {up after : Uplink}

theorem start_at_stage (cache : History) (user : StdString) (now : Instant) :
    AtStage serialize login (Uplink.start cache user now) := by
  refine ⟨?_, rfl⟩
  constructor <;> rfl

theorem silent_before (held : AtStage serialize login up) (other : up.stage ≠ .sent) :
    Silent up := by
  unfold AtStage at held
  cases stage : up.stage with
  | sent => exact absurd stage other
  | _ =>
      rw [stage] at held
      exact held.1

theorem sending_at (held : AtStage serialize login up) (sent : up.stage = .sent) :
    Sending serialize login up := by
  unfold AtStage at held
  rw [sent] at held
  exact held

theorem at_sent (sent : after.stage = .sent) (held : Sending serialize login after) :
    AtStage serialize login after := by
  unfold AtStage
  rw [sent]
  exact held

theorem only_sending (held : AtStage serialize login up) (loud : ¬ Silent up) :
    up.stage = .sent ∧ Sending serialize login up := by
  have sent : up.stage = .sent := by
    by_contra other
    exact loud (silent_before held other)
  exact ⟨sent, sending_at held sent⟩

theorem at_stage_link {link : Link} (held : AtStage serialize login up)
    (reads : link.core.client.reads = up.link.core.client.reads)
    (queue : link.core.queue = up.link.core.queue)
    (toServer : link.core.toServer = up.link.core.toServer) :
    AtStage serialize login { up with link := link } := by
  have still (silent : Silent up) : Silent { up with link := link } :=
    { silent with
      reads := reads.trans silent.reads
      queue := queue.trans silent.queue
      requests := toServer.trans silent.requests }
  unfold AtStage at held ⊢
  dsimp only
  cases stage : up.stage with
  | sent =>
      rw [stage] at held
      dsimp only at held ⊢
      refine { held with accounted := ?_ }
      rw [held.accounted]
      exact congrArg (List.map serialize) toServer.symm
  | _ =>
      rw [stage] at held still
      exact ⟨still held.1, held.2⟩

theorem start_handed {sender next : Sender Bytes} (started : startSendMsgs sender = some next) :
    ∃ more, next.handed = sender.handed ++ more ∧
      next.outstanding = sender.outstanding ++ more ∧ next.enqueued = sender.enqueued := by
  unfold startSendMsgs at started
  cases queue : sender.msgToServer with
  | nil => simp [queue] at started
  | cons front rest =>
      simp only [queue, Option.some.injEq] at started
      exact ⟨[front], started ▸ rfl, started ▸ rfl, started ▸ rfl⟩

theorem push_handed {sender next : Sender Bytes} {msg : Bytes}
    (pushed : addMsgToSend sender msg = some next) :
    ∃ more, next.handed = sender.handed ++ more ∧
      next.outstanding = sender.outstanding ++ more ∧
      next.enqueued = sender.enqueued ++ [msg] := by
  simp only [addMsgToSend] at pushed
  split_ifs at pushed with processWrite
  · obtain rfl := Option.some.inj pushed
    exact ⟨[], by simp, by simp, rfl⟩
  · exact start_handed pushed

theorem written_handed {sender next : Sender Bytes} {error : Bool}
    (completed : writeCompleted sender error = some next) :
    ∃ msg others more, sender.outstanding = msg :: others ∧
      next.handed = sender.handed ++ more ∧ next.outstanding = others ++ more ∧
      next.enqueued = sender.enqueued := by
  unfold writeCompleted at completed
  cases outstanding : sender.outstanding with
  | nil => simp [outstanding] at completed
  | cons msg others =>
      simp only [outstanding] at completed
      split_ifs at completed with failed emptied
      · obtain rfl := Option.some.inj completed
        exact ⟨msg, others, [], rfl, by simp, by simp, rfl⟩
      · obtain rfl := Option.some.inj completed
        exact ⟨msg, others, [], rfl, by simp, by simp, rfl⟩
      · rcases start_handed completed with ⟨more, handed, going, enqueued⟩
        exact ⟨msg, others, more, rfl, handed, going, enqueued⟩

theorem began_line {sender : Sender Bytes} {more : List Bytes}
    (handed : sender.handed = up.sender.handed ++ more) :
    (up.began sender).line.rests = up.line.rests ++ more.map (fun buffer => (.queue, buffer)) ∧
      (up.began sender).line.taken = up.line.taken ∧
      (up.began sender).line.carried = up.line.carried ++ more.flatten := by
  have fresh : sender.handed.drop up.sender.handed.length = more := by
    rw [handed, List.drop_left]
  unfold Uplink.began
  rw [fresh]
  exact ByteLine.begin_all Writer.queue more up.line

theorem sending_alone (held : Sending serialize login up) : up.line.rests.length ≤ 1 := by
  have same := congrArg List.length held.writers
  rw [List.length_map, List.length_map] at same
  rw [same]
  by_cases failed : up.sender.failed = true
  · rw [(held.inOrder.stopped failed).1]
    exact Nat.zero_le 1
  · rw [held.inOrder.writing (Bool.eq_false_iff.mpr failed)]
    exact List.length_take_le 1 _

theorem push_sending {request : Bytes} {rest : List Bytes} {sender : Sender Bytes}
    (held : Sending serialize login up) (due : up.due = request :: rest)
    (pushed : addMsgToSend up.sender request = some sender) :
    Sending serialize login { up.began sender with due := rest } := by
  have ordered := enqueue_in_order held.inOrder pushed
  rcases push_handed pushed with ⟨more, handed, outstanding, enqueued⟩
  have line := began_line handed
  have longer : (up.sender.handed ++ more).flatten = up.sender.handed.flatten ++ more.flatten :=
    List.flatten_append
  constructor
  · exact ordered.1
  · change sender.enqueued ++ rest = _
    rw [enqueued, List.append_assoc, List.singleton_append, ← due]
    exact held.accounted
  · change (up.began sender).line.rests.map Prod.fst = sender.outstanding.map _
    rw [line.1, outstanding, List.map_append, List.map_append, held.writers, List.map_map]
    rfl
  · change login <+: (up.began sender).line.taken
    rw [line.2.1]
    exact held.loginFirst
  · change (up.began sender).line.taken <+: login ++ sender.handed.flatten
    rw [line.2.1, handed, longer, ← List.append_assoc]
    exact held.carried.trans (List.prefix_append _ _)
  · intro running
    change (up.began sender).line.carried = login ++ sender.handed.flatten
    rw [line.2.2, handed, longer, ← List.append_assoc,
      held.flowing (ordered.2.symm.trans running)]

theorem written_sending {error : Bool} {line : ByteLine Writer UInt8} {sender : Sender Bytes}
    (held : Sending serialize login up) (ended : up.line.endWrite .queue error = some line)
    (completed : writeCompleted up.sender error = some sender) :
    Sending serialize login ({ up with line := line }.began sender) := by
  have ordered := completed_in_order held.inOrder completed
  rcases written_handed completed with ⟨msg, others, more, oldest, handed, outstanding, enqueued⟩
  have only : others = [] := by
    have front := held.inOrder.writing ordered.2.1
    have short := List.length_take_le 1 up.sender.msgToServer
    rw [← front, oldest, List.length_cons] at short
    apply List.eq_nil_of_length_eq_zero
    omega
  subst only
  have writers := held.writers
  rw [oldest] at writers
  rcases ByteLine.one_write writers with ⟨rest, alone⟩
  have idle := ByteLine.end_alone alone ended
  have began := @began_line { up with line := line } sender more handed
  have longer : (up.sender.handed ++ more).flatten = up.sender.handed.flatten ++ more.flatten :=
    List.flatten_append
  constructor
  · exact ordered.1
  · change sender.enqueued ++ up.due = _
    rw [enqueued]
    exact held.accounted
  · change (Uplink.began _ sender).line.rests.map Prod.fst = sender.outstanding.map _
    rw [began.1, idle.1, outstanding, List.nil_append, List.nil_append, List.map_map]
    rfl
  · rw [began.2.1, idle.2.1]
    exact held.loginFirst
  · change (Uplink.began _ sender).line.taken <+: login ++ sender.handed.flatten
    rw [began.2.1, idle.2.1, handed, longer, ← List.append_assoc]
    exact held.carried.trans (List.prefix_append _ _)
  · intro running
    have whole : line.carried = login ++ up.sender.handed.flatten := by
      rw [← held.flowing ordered.2.1, ← (idle.2.2 (ordered.2.2.symm.trans running)).2]
      simp [ByteLine.carried, idle.1]
    change (Uplink.began _ sender).line.carried = login ++ sender.handed.flatten
    rw [began.2.2, handed, longer, ← List.append_assoc, whole]

theorem built_sending {core : Core} {more : List Request}
    (held : Sending serialize login up) (idle : up.due = [])
    (added : core.toServer = up.requests ++ more) :
    Sending serialize login (up.built serialize core) := by
  refine { held with accounted := ?_ }
  have built : (up.built serialize core).due = more.map serialize := by
    simp [Uplink.built, added]
  change up.sender.enqueued ++ (up.built serialize core).due = core.toServer.map serialize
  rw [built, added, List.map_append, ← held.accounted, idle, List.append_nil]

theorem connected_at_stage {error : Bool} (held : AtStage serialize login up)
    (taken : step lib serialize login up (.connected error) = some after) :
    AtStage serialize login after := by
  simp only [step] at taken
  split_ifs at taken with connecting failed
  · obtain rfl := Option.some.inj taken
    unfold AtStage at held
    rw [connecting] at held
    refine ⟨{ held.1 with }, ?_, ?_⟩
    · rw [held.2]
      exact List.nil_prefix
    · rw [held.2]
      rfl
  · obtain rfl := Option.some.inj taken
    unfold AtStage at held
    rw [connecting] at held
    refine ⟨{ held.1 with }, ?_, login, ?_⟩
    · rw [ByteLine.begin_carried, held.2]
      rfl
    · rw [held.2]
      rfl

theorem connect_returned_at_stage {freed : Bytes} (held : AtStage serialize login up)
    (taken : step lib serialize login up (.connectReturned freed) = some after) :
    AtStage serialize login after := by
  simp only [step] at taken
  split_ifs at taken with connected
  rcases Option.map_eq_some_iff.mp taken with ⟨line, changed, rfl⟩
  unfold AtStage at held
  rw [connected] at held
  rcases held with ⟨silent, carried, rest, alone⟩
  have kept := ByteLine.overwrite_alone alone changed
  refine ⟨{ silent with }, ?_, freed, kept.1, ?_⟩
  · rw [kept.2.1, ← carried]
    exact up.line.taken_carried
  · intro none
    have whole : rest = [] := by
      apply List.eq_nil_of_length_eq_zero
      rw [← kept.2.2, none]
      rfl
    rw [kept.2.1, ← carried, ByteLine.carried, alone, whole]
    exact (List.append_nil _).symm

theorem take_at_stage {index count : Nat} (held : AtStage serialize login up)
    (inTime : TakenInTime up (.take index count))
    (taken : step lib serialize login up (.take index count) = some after) :
    AtStage serialize login after := by
  simp only [step] at taken
  split_ifs at taken
  rcases Option.map_eq_some_iff.mp taken with ⟨line, took, rfl⟩
  have busy : up.line.rests ≠ [] := by
    intro none
    simp [ByteLine.take, none] at took
  unfold AtStage at held ⊢
  dsimp only
  cases stage : up.stage with
  | connecting =>
      rw [stage] at held
      exact absurd (congrArg ByteLine.rests held.2) busy
  | writing =>
      rw [stage] at held
      rcases held with ⟨silent, others⟩
      obtain rfl := ByteLine.take_nothing took (inTime stage line took)
      exact ⟨{ silent with }, others⟩
  | connected =>
      rw [stage] at held
      rcases held with ⟨silent, carried, rest, alone⟩
      have kept := ByteLine.take_alone (by simp [alone]) took
      have writers := kept.2.2
      rw [alone] at writers
      exact ⟨{ silent with }, kept.1.trans carried, ByteLine.one_write writers⟩
  | failed =>
      rw [stage] at held
      exact absurd held.2.2 busy
  | sent =>
      rw [stage] at held
      have kept := ByteLine.take_alone (sending_alone held) took
      have running : up.sender.failed = false := by
        by_contra failed
        have quiet := (held.inOrder.stopped (by simpa using failed)).1
        have writers := held.writers
        rw [quiet, List.map_nil, List.map_eq_nil_iff] at writers
        exact busy writers
      have carried := kept.1.trans (held.flowing running)
      refine { held with
        writers := kept.2.2.trans held.writers
        loginFirst := held.loginFirst.trans kept.2.1
        carried := ?_
        flowing := fun _ => carried }
      rw [← carried]
      exact line.taken_carried

theorem login_sent_at_stage {error : Bool} (held : AtStage serialize login up)
    (taken : step lib serialize login up (.loginSent error) = some after) :
    AtStage serialize login after := by
  have writing : up.stage = .writing := by
    by_contra other
    simp [step, other] at taken
  simp only [step, writing, if_true] at taken
  rcases Option.map_eq_some_iff.mp taken with ⟨line, ended, rfl⟩
  unfold AtStage at held
  rw [writing] at held
  rcases held with ⟨silent, begun, rest, alone, complete⟩
  have idle := ByteLine.end_alone alone ended
  rw [← idle.2.1] at begun complete
  cases error with
  | true => exact ⟨{ silent with }, begun, idle.1⟩
  | false =>
      have whole : line.taken = login := complete (idle.2.2 rfl).1
      have nothing : up.sender = Sender.fresh Bytes true := silent.sender
      have empty : login ++ up.sender.handed.flatten = login := by
        rw [nothing]
        exact List.append_nil login
      apply at_sent rfl
      constructor
      · change InOrder up.sender
        rw [nothing]
        exact fresh_in_order true
      · change up.sender.enqueued ++ up.due = up.requests.map serialize
        rw [nothing, silent.due, silent.requests]
        rfl
      · change line.rests.map Prod.fst = up.sender.outstanding.map _
        rw [idle.1, nothing]
        rfl
      · change login <+: line.taken
        rw [whole]
      · change line.taken <+: login ++ up.sender.handed.flatten
        rw [whole, empty]
      · intro running
        change line.carried = login ++ up.sender.handed.flatten
        rw [empty, ByteLine.carried, idle.1, whole]
        exact List.append_nil login

theorem io_at_stage (held : AtStage serialize login up)
    (taken : step lib serialize login up .io = some after) : AtStage serialize login after := by
  rcases Option.map_eq_some_iff.mp taken with ⟨link, moved, rfl⟩
  rcases Deque.io_some moved with ⟨arrival, rest, core, -, received, rfl⟩
  have reading : ¬ Silent up := by
    intro silent
    unfold Core.receive at received
    rw [silent.reads] at received
    simp at received
  have sending := only_sending held reading
  refine at_sent sending.1 { sending.2 with accounted := ?_ }
  have same : core.toServer = up.requests := (receive_received received).toServer
  rw [sending.2.accounted]
  exact congrArg (List.map serialize) same.symm

theorem slot_at_stage (held : AtStage serialize login up)
    (taken : step lib serialize login up .slot = some after) : AtStage serialize login after := by
  simp only [step] at taken
  cases queue : up.link.core.queue with
  | nil => simp [queue] at taken
  | cons slot rest =>
      simp only [queue] at taken
      split_ifs at taken with idle
      obtain rfl := Option.some.inj taken
      have posted : ¬ Silent up := by
        intro silent
        rw [silent.queue] at queue
        cases queue
      have sending := only_sending held posted
      have added : (runSlot lib { up.link.core with queue := rest } slot).toServer =
          up.requests ++ requested lib { up.link.core with queue := rest } slot :=
        run_slot_to_server slot
      have built := built_sending sending.2 idle added
      exact at_sent sending.1 { built with }

theorem clicked_sending (held : AtStage serialize login up)
    (clicked : up.shown = true ∧ up.due = []) (requests : List Request) :
    up.stage = .sent ∧
      Sending serialize login (up.built serialize (up.link.core.request requests)) := by
  have visible : ¬ Silent up := by
    intro silent
    rw [silent.hidden] at clicked
    cases clicked.1
  have sending := only_sending held visible
  exact ⟨sending.1, built_sending sending.2 clicked.2 rfl⟩

theorem join_clicked_at_stage (held : AtStage serialize login up)
    (clicked : up.shown = true ∧ up.due = []) :
    AtStage serialize login (up.joinClicked serialize) := by
  unfold Uplink.joinClicked
  split_ifs
  · exact held
  · have sending := clicked_sending held clicked
      [.joinRoom up.link.core.client.clientId up.leSearch]
    exact at_sent sending.1 { sending.2 with }

theorem composed_at_stage (held : AtStage serialize login up)
    (clicked : up.shown = true ∧ up.due = []) (composer : Composer) :
    AtStage serialize login (up.composed serialize composer) := by
  have sending := clicked_sending held clicked
    ((composer.sent.drop up.composer.sent.length).map fun entry => .sendText entry.msg)
  exact at_sent sending.1 { sending.2 with }

theorem push_at_stage (held : AtStage serialize login up)
    (taken : step lib serialize login up .push = some after) : AtStage serialize login after := by
  simp only [step] at taken
  cases due : up.due with
  | nil => simp [due] at taken
  | cons request rest =>
      simp only [due] at taken
      rcases Option.map_eq_some_iff.mp taken with ⟨sender, pushed, rfl⟩
      have built : ¬ Silent up := by
        intro silent
        rw [silent.due] at due
        cases due
      have sending := only_sending held built
      exact at_sent sending.1 (push_sending sending.2 due pushed)

theorem written_at_stage {error : Bool} (held : AtStage serialize login up)
    (taken : step lib serialize login up (.written error) = some after) :
    AtStage serialize login after := by
  simp only [step] at taken
  rcases Option.bind_eq_some_iff.mp taken with ⟨line, ended, completed⟩
  rcases Option.map_eq_some_iff.mp completed with ⟨sender, popped, rfl⟩
  have writing : ¬ Silent up := by
    intro silent
    rw [silent.sender] at popped
    cases popped
  have sending := only_sending held writing
  have kept := written_sending sending.2 ended popped
  have handled : AtStage serialize login (Uplink.began { up with line := line } sender) :=
    at_sent sending.1 kept
  split_ifs
  · exact at_stage_link handled rfl rfl rfl
  · exact handled

theorem step_at_stage {action : UplinkAction} (held : AtStage serialize login up)
    (inTime : TakenInTime up action)
    (taken : step lib serialize login up action = some after) :
    AtStage serialize login after := by
  cases action with
  | connected error => exact connected_at_stage held taken
  | connectReturned freed => exact connect_returned_at_stage held taken
  | take index count => exact take_at_stage held inTime taken
  | loginSent error => exact login_sent_at_stage held taken
  | send arrival =>
      obtain rfl := Option.some.inj taken
      exact at_stage_link held rfl rfl rfl
  | io => exact io_at_stage held taken
  | slot => exact slot_at_stage held taken
  | search text =>
      simp only [step] at taken
      split_ifs at taken with clicked
      obtain rfl := Option.some.inj taken
      have sending := clicked_sending held clicked []
      have same : Sending serialize login up := sending_at held sending.1
      exact at_sent sending.1 { same with }
  | joinClicked =>
      simp only [step] at taken
      split_ifs at taken with clicked
      obtain rfl := Option.some.inj taken
      exact join_clicked_at_stage held clicked
  | compose action =>
      simp only [step] at taken
      split_ifs at taken with clicked
      rcases Option.map_eq_some_iff.mp taken with ⟨composer, -, rfl⟩
      exact composed_at_stage held clicked composer
  | push => exact push_at_stage held taken
  | written error => exact written_at_stage held taken
  | closeConnection =>
      obtain rfl := Option.some.inj taken
      exact at_stage_link held rfl rfl rfl

def spoken : Request → Option MsgText
  | .sendText msg => some msg
  | _ => none

def joined : Request → Option StdString
  | .joinRoom _ channel => some channel
  | _ => none

/-- The text requests are the messages sent, each once and in their order;
neither a message nor the name of a channel to join is empty. -/
structure Clicked (up : Uplink) : Prop where
  messages : up.requests.filterMap spoken = up.composer.sent.map Sent.msg
  texts : ∀ entry ∈ up.composer.sent, entry.msg.text ≠ []
  names : [] ∉ up.requests.filterMap joined

theorem requested_unclicked (core : Core) (slot : Slot) :
    (requested lib core slot).filterMap spoken = [] ∧
      (requested lib core slot).filterMap joined = [] := by
  cases slot with
  | onAuthorized code =>
      simp only [requested]
      split_ifs <;> exact ⟨rfl, rfl⟩
  | onChannelsReceived channels =>
      simp only [requested, List.filterMap_map, List.filterMap_eq_nil_iff]
      exact ⟨fun _ _ => rfl, fun _ _ => rfl⟩
  | _ => exact ⟨rfl, rfl⟩

theorem composer_step {composer next : Composer} {action : ComposerAction}
    (taken : Gui.SendClicked.step composer action = some next) :
    ∃ new, next.sent = composer.sent ++ new ∧ ∀ entry ∈ new, entry.msg.text ≠ [] := by
  cases action with
  | sendClicked call =>
      simp only [Gui.SendClicked.step] at taken
      split_ifs at taken
      obtain rfl := Option.some.inj taken
      by_cases empty : composer.teMessage = []
      · refine ⟨[], ?_, by simp⟩
        simp [sendClicked, empty]
      · refine ⟨_, by rw [sendClicked, if_neg empty], ?_⟩
        intro entry member
        obtain rfl := List.mem_singleton.mp member
        exact empty
  | _ =>
      obtain rfl := Option.some.inj taken
      exact ⟨[], by simp, by simp⟩

theorem clicked_append {more : List Request} {new : List Sent} (held : Clicked up)
    (requests : after.requests = up.requests ++ more)
    (sent : after.composer.sent = up.composer.sent ++ new)
    (messages : more.filterMap spoken = new.map Sent.msg)
    (texts : ∀ entry ∈ new, entry.msg.text ≠ []) (names : [] ∉ more.filterMap joined) :
    Clicked after := by
  constructor
  · rw [requests, sent, List.filterMap_append, held.messages, List.map_append, messages]
  · intro entry member
    rw [sent] at member
    rcases List.mem_append.mp member with before | here
    · exact held.texts entry before
    · exact texts entry here
  · rw [requests, List.filterMap_append]
    intro member
    rcases List.mem_append.mp member with before | here
    · exact held.names before
    · exact names here

theorem clicked_of_same (held : Clicked up) (requests : after.requests = up.requests)
    (sent : after.composer.sent = up.composer.sent) : Clicked after := by
  have noRequest : after.requests = up.requests ++ [] := by rw [requests, List.append_nil]
  have nothing : after.composer.sent = up.composer.sent ++ [] := by rw [sent, List.append_nil]
  exact clicked_append held noRequest nothing rfl (by simp) List.not_mem_nil

theorem slot_clicked (held : Clicked up)
    (taken : step lib serialize login up .slot = some after) : Clicked after := by
  simp only [step] at taken
  cases queue : up.link.core.queue with
  | nil => simp [queue] at taken
  | cons slot rest =>
      simp only [queue] at taken
      split_ifs at taken
      obtain rfl := Option.some.inj taken
      have added : (runSlot lib { up.link.core with queue := rest } slot).toServer =
          up.requests ++ requested lib { up.link.core with queue := rest } slot :=
        run_slot_to_server slot
      have quiet := @requested_unclicked lib { up.link.core with queue := rest } slot
      have unnamed : [] ∉ (requested lib { up.link.core with queue := rest } slot).filterMap
          joined := by
        rw [quiet.2]
        exact List.not_mem_nil
      exact clicked_append held added (List.append_nil _).symm quiet.1 (by simp) unnamed

theorem join_clicked (held : Clicked up) : Clicked (up.joinClicked serialize) := by
  unfold Uplink.joinClicked
  split_ifs with empty
  · exact held
  · have named : [] ∉ [up.leSearch] := by
      intro member
      exact empty (List.mem_singleton.mp member).symm
    exact clicked_append held rfl (List.append_nil _).symm rfl (by simp) named

theorem composed_clicked {composer : Composer} {action : ComposerAction} (held : Clicked up)
    (composed : Gui.SendClicked.step up.composer action = some composer) :
    Clicked (up.composed serialize composer) := by
  rcases composer_step composed with ⟨new, sent, texts⟩
  have fresh : composer.sent.drop up.composer.sent.length = new := by
    rw [sent, List.drop_left]
  have requests : (up.composed serialize composer).requests =
      up.requests ++ new.map fun entry => .sendText entry.msg := by
    unfold Uplink.composed
    rw [fresh]
    rfl
  have said : spoken ∘ (fun entry : Sent => Request.sendText entry.msg) = some ∘ Sent.msg := rfl
  refine clicked_append held requests sent ?_ texts ?_
  · rw [List.filterMap_map, said, List.filterMap_eq_map]
  · simp [joined, List.mem_filterMap]

theorem step_clicked {action : UplinkAction} (held : Clicked up)
    (taken : step lib serialize login up action = some after) : Clicked after := by
  cases action with
  | slot => exact slot_clicked held taken
  | joinClicked =>
      simp only [step] at taken
      split_ifs at taken
      exact Option.some.inj taken ▸ join_clicked held
  | compose action =>
      simp only [step] at taken
      split_ifs at taken
      rcases Option.map_eq_some_iff.mp taken with ⟨composer, composed, rfl⟩
      exact composed_clicked held composed
  -- the other actions build no request
  | connected error =>
      simp only [step] at taken
      split_ifs at taken <;> exact Option.some.inj taken ▸ clicked_of_same held rfl rfl
  | connectReturned freed =>
      simp only [step] at taken
      split_ifs at taken
      rcases Option.map_eq_some_iff.mp taken with ⟨line, -, rfl⟩
      exact clicked_of_same held rfl rfl
  | take index count =>
      simp only [step] at taken
      split_ifs at taken
      rcases Option.map_eq_some_iff.mp taken with ⟨line, -, rfl⟩
      exact clicked_of_same held rfl rfl
  | loginSent error =>
      simp only [step] at taken
      split at taken
      · rcases Option.map_eq_some_iff.mp taken with ⟨line, -, rfl⟩
        exact clicked_of_same held rfl rfl
      · cases taken
  | send arrival =>
      obtain rfl := Option.some.inj taken
      exact clicked_of_same held rfl rfl
  | io =>
      rcases Option.map_eq_some_iff.mp taken with ⟨link, moved, rfl⟩
      rcases Deque.io_some moved with ⟨arrival, rest, core, -, received, rfl⟩
      exact clicked_of_same held (receive_received received).toServer rfl
  | search text =>
      simp only [step] at taken
      split_ifs at taken
      exact Option.some.inj taken ▸ clicked_of_same held rfl rfl
  | push =>
      simp only [step] at taken
      split at taken
      · rcases Option.map_eq_some_iff.mp taken with ⟨sender, -, rfl⟩
        exact clicked_of_same held rfl rfl
      · cases taken
  | written error =>
      simp only [step] at taken
      rcases Option.bind_eq_some_iff.mp taken with ⟨line, -, completed⟩
      rcases Option.map_eq_some_iff.mp completed with ⟨sender, -, rfl⟩
      split_ifs <;> exact clicked_of_same held rfl rfl
  | closeConnection =>
      obtain rfl := Option.some.inj taken
      exact clicked_of_same held rfl rfl

theorem run_at_stage {cache : History} {user : StdString} {now : Instant}
    {actions : List UplinkAction}
    (inTime : EveryStep (step lib serialize login) TakenInTime (Uplink.start cache user now)
      actions)
    (ran : run (step lib serialize login) (Uplink.start cache user now) actions = some up) :
    AtStage serialize login up :=
  guarded_run_invariant (step lib serialize login) (start_at_stage cache user now)
    (fun _ _ _ => step_at_stage) inTime ran

theorem run_clicked {cache : History} {user : StdString} {now : Instant}
    {actions : List UplinkAction}
    (ran : run (step lib serialize login) (Uplink.start cache user now) actions = some up) :
    Clicked up := by
  have initial : Clicked (Uplink.start cache user now) := by
    refine ⟨rfl, ?_, List.not_mem_nil⟩
    intro entry member
    cases member
  exact run_invariant (step lib serialize login) initial (fun _ _ _ => step_clicked) ran

theorem handed_built (held : Sending serialize login up) :
    up.sender.handed.flatten <+: (up.requests.map serialize).flatten := by
  have handed : up.sender.handed <+: up.requests.map serialize := by
    rw [held.inOrder.handedOver, ← held.accounted, ← held.inOrder.accounted, List.append_assoc]
    apply (List.prefix_append_right_inj _).mpr
    exact (List.take_prefix 1 _).trans (List.prefix_append _ _)
  rcases handed with ⟨others, same⟩
  exact ⟨others.flatten, by rw [← List.flatten_append, same]⟩

theorem sending_complete (held : Sending serialize login up) (idle : up.due = [])
    (empty : up.sender.msgToServer = []) :
    up.line.taken = login ++ (up.requests.map serialize).flatten := by
  have running : up.sender.failed = false := by
    by_contra failed
    exact (held.inOrder.stopped (by simpa using failed)).2.2 empty
  have quiet : up.line.rests = [] := by
    have writers := held.writers
    rw [held.inOrder.writing running, empty] at writers
    exact List.map_eq_nil_iff.mp writers
  have all : up.sender.handed = up.requests.map serialize := by
    rw [held.inOrder.handedOver, ← held.accounted, ← held.inOrder.accounted, empty, idle]
    simp
  have carried := held.flowing running
  rw [ByteLine.carried, quiet, all] at carried
  simpa using carried

theorem login_begun (held : AtStage serialize login up) (other : up.stage ≠ .sent) :
    up.line.taken <+: login ∧ up.line.rests.length ≤ 1 := by
  unfold AtStage at held
  cases stage : up.stage with
  | connecting =>
      rw [stage] at held
      rw [held.2]
      exact ⟨List.nil_prefix, Nat.zero_le 1⟩
  | connected =>
      rw [stage] at held
      rcases held with ⟨-, carried, rest, alone⟩
      rw [← carried, alone]
      exact ⟨up.line.taken_carried, Nat.le_refl 1⟩
  | writing =>
      rw [stage] at held
      rcases held with ⟨-, begun, rest, alone, -⟩
      rw [alone]
      exact ⟨begun, Nat.le_refl 1⟩
  | failed =>
      rw [stage] at held
      rw [held.2.2]
      exact ⟨held.2.1, Nat.zero_le 1⟩
  | sent => exact absurd stage other

/-- Every run of a session in which the socket takes the login request while the
connect handler is running, whatever the server sends, whenever the user clicks
and the socket fails: the bytes that the socket has taken are a beginning of the
login request followed by the requests in the order in which they were built,
with never two writes outstanding whose bytes could mix; no request is built
before the socket has taken the whole login request; whenever nothing waits to
be sent, the socket has taken all of them; and among the requests are the
messages that the user has sent, each once and in their order. -/
theorem session_bytes_in_order (lib : ProtocolLib) (serialize : Request → Bytes) (login : Bytes)
    (cache : History) (user : StdString) (now : Instant) (actions : List UplinkAction)
    (inTime : EveryStep (step lib serialize login) TakenInTime (Uplink.start cache user now)
      actions)
    (up : Uplink)
    (ran : run (step lib serialize login) (Uplink.start cache user now) actions = some up) :
    up.line.taken <+: login ++ (up.requests.map serialize).flatten ∧
      up.line.rests.length ≤ 1 ∧
      (up.requests ≠ [] → login <+: up.line.taken) ∧
      (up.stage = .sent → up.due = [] → up.sender.msgToServer = [] →
        up.line.taken = login ++ (up.requests.map serialize).flatten) ∧
      Clicked up := by
  have held := run_at_stage inTime ran
  have clicked := run_clicked ran
  by_cases sent : up.stage = .sent
  · have sending := sending_at held sent
    refine ⟨?_, sending_alone sending, fun _ => sending.loginFirst,
      fun _ idle empty => sending_complete sending idle empty, clicked⟩
    exact sending.carried.trans ((List.prefix_append_right_inj login).mpr (handed_built sending))
  · have silent := silent_before held sent
    have begun := login_begun held sent
    refine ⟨?_, begun.2, fun built => absurd silent.requests built,
      fun stage => absurd stage sent, clicked⟩
    exact begun.1.trans (List.prefix_append _ _)

/-- A login in two portions; a join is clicked while the request for the channels is written. -/
def sampleBytes : Request → Bytes
  | .channels _ => [2, 3]
  | _ => [4]

def sampleActions : List UplinkAction :=
  [.connected false, .take 0 1, .take 0 1, .connectReturned [], .loginSent false,
    .send (Server.inputAnswer 7), .io, .slot, .slot, .push, .take 0 1, .search room, .joinClicked,
    .push, .take 0 1, .written false, .take 0 1]

def sampleStart : Uplink :=
  Uplink.start Lib.AppendMap.Multimap.empty room Gui.SendClicked.newYear

theorem session_bytes_in_order_sample :
    EveryStep (step chatLib sampleBytes [0, 1]) TakenInTime sampleStart sampleActions ∧
      ∃ up, run (step chatLib sampleBytes [0, 1]) sampleStart sampleActions = some up ∧
        up.line.taken = [0, 1, 2, 3, 4] ∧
        up.line.taken <+: [0, 1] ++ (up.requests.map sampleBytes).flatten := by
  have inTime : EveryStep (step chatLib sampleBytes [0, 1]) TakenInTime sampleStart
      sampleActions := every_step_of_steps_meet _ (by decide)
  refine ⟨inTime, _, rfl, rfl, ?_⟩
  exact (session_bytes_in_order chatLib sampleBytes [0, 1] Lib.AppendMap.Multimap.empty room
    Gui.SendClicked.newYear sampleActions inTime _ rfl).1

/-- A portion behind the return of the handler is read from freed memory. -/
example : (run (step chatLib sampleBytes [0, 1]) sampleStart
    [.connected false, .take 0 1, .connectReturned [9], .take 0 1]).map
      (fun up => up.line.taken) = some [0, 9] := by decide

end AppchatClient.Session.Outgoing
