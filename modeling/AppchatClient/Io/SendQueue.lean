import AppchatClient.Lib.Runs

/-!
# The send queue

`add_msg_to_send` and the completion handler of `start_send_msgs`, each one
atomic step. The emptiness of `msg_to_server` is the only record of whether a
write is in progress, and a failed write leaves its message in the queue, so
the invariant ties the queue, the outstanding write and the failure together.
-/

namespace AppchatClient.Io.SendQueue

open AppchatClient.Lib.Runs

set_option autoImplicit false

variable {Msg : Type*}

/-- The queue, the socket and the writes that are outstanding on it, with three
records: the messages enqueued, those handed to `async_write` and those whose
write has succeeded, each in the order of the calls. `failed` is whether some
write has failed. -/
structure Sender (Msg : Type*) where
  msgToServer : List Msg
  sockOpen : Bool
  outstanding : List Msg
  enqueued : List Msg
  handed : List Msg
  written : List Msg
  failed : Bool

def Sender.fresh (Msg : Type*) (sockOpen : Bool) : Sender Msg where
  msgToServer := []
  sockOpen := sockOpen
  outstanding := []
  enqueued := []
  handed := []
  written := []
  failed := false

/-- `front()` of an empty queue has no result. -/
def startSendMsgs (sender : Sender Msg) : Option (Sender Msg) :=
  match sender.msgToServer with
  | front :: _ =>
      some { sender with
        outstanding := sender.outstanding ++ [front]
        handed := sender.handed ++ [front] }
  | [] => none

def addMsgToSend (sender : Sender Msg) (msg : Msg) : Option (Sender Msg) :=
  let processWrite := !sender.msgToServer.isEmpty
  let pushed := { sender with
    msgToServer := sender.msgToServer ++ [msg]
    enqueued := sender.enqueued ++ [msg] }
  if processWrite then some pushed else startSendMsgs pushed

def writeCompleted (sender : Sender Msg) (error : Bool) : Option (Sender Msg) :=
  match sender.outstanding with
  | msg :: others =>
      if error then
        some { sender with outstanding := others, sockOpen := false, failed := true }
      else
        let popped := { sender with
          outstanding := others
          msgToServer := sender.msgToServer.tail
          written := sender.written ++ [msg] }
        if popped.msgToServer.isEmpty then some popped else startSendMsgs popped
  | [] => none

inductive SendAction (Msg : Type*) where
  | enqueue (msg : Msg)
  | completed (error : Bool)

def step (sender : Sender Msg) : SendAction Msg → Option (Sender Msg)
  | .enqueue msg => addMsgToSend sender msg
  | .completed error => writeCompleted sender error

/-- What holds between two steps. Before the first failure the front of the
queue, and only it, is being written; afterwards nothing is. -/
structure InOrder (sender : Sender Msg) : Prop where
  accounted : sender.written ++ sender.msgToServer = sender.enqueued
  handedOver : sender.handed = sender.written ++ sender.msgToServer.take 1
  writing : sender.failed = false → sender.outstanding = sender.msgToServer.take 1
  stopped : sender.failed = true →
    sender.outstanding = [] ∧ sender.sockOpen = false ∧ sender.msgToServer ≠ []

theorem fresh_in_order (sockOpen : Bool) : InOrder (Sender.fresh Msg sockOpen) :=
  ⟨rfl, rfl, fun _ => rfl, fun failed => by cases failed⟩

theorem enqueue_in_order {sender next : Sender Msg} {msg : Msg} (held : InOrder sender)
    (taken : addMsgToSend sender msg = some next) :
    InOrder next ∧ next.failed = sender.failed := by
  obtain ⟨accounted, handedOver, writing, stopped⟩ := held
  unfold addMsgToSend at taken
  cases queue : sender.msgToServer with
  | nil =>
      -- an empty queue means no failure so far, and the new message is written at once
      have running : sender.failed = false := by
        by_contra failed
        exact (stopped (by simpa using failed)).2.2 queue
      simp only [queue, List.isEmpty_nil, Bool.not_true, Bool.false_eq_true, if_false,
        List.nil_append, startSendMsgs, Option.some.injEq] at taken
      subst taken
      have idle := writing running
      simp only [queue, List.take_nil] at idle handedOver accounted
      refine ⟨⟨?_, ?_, ?_, ?_⟩, rfl⟩
      · simpa using accounted
      · simpa using handedOver
      · simp [idle]
      · simp [running]
  | cons front rest =>
      simp only [queue, List.isEmpty_cons, Bool.not_false, if_true, Option.some.injEq] at taken
      subst taken
      rw [queue] at accounted handedOver writing
      refine ⟨⟨?_, ?_, ?_, ?_⟩, rfl⟩
      · simp [← accounted]
      · simpa using handedOver
      · simpa using writing
      · intro failed
        obtain ⟨idle, closed, _⟩ := stopped failed
        exact ⟨idle, closed, by simp⟩

theorem completed_in_order {sender next : Sender Msg} {error : Bool} (held : InOrder sender)
    (taken : writeCompleted sender error = some next) :
    InOrder next ∧ sender.failed = false ∧ next.failed = error := by
  obtain ⟨accounted, handedOver, writing, stopped⟩ := held
  unfold writeCompleted at taken
  cases outstanding : sender.outstanding with
  | nil => simp [outstanding] at taken
  | cons msg others =>
      have running : sender.failed = false := by
        by_contra failed
        have idle := (stopped (by simpa using failed)).1
        simp [outstanding] at idle
      have front := writing running
      rw [outstanding] at front taken
      cases queue : sender.msgToServer with
      | nil => simp [queue] at front
      | cons first rest =>
          simp only [queue, List.take_succ_cons, List.take_zero, List.cons.injEq] at front
          obtain ⟨rfl, rfl⟩ := front
          rw [queue] at accounted handedOver
          cases error with
          | true =>
              simp only [if_true, Option.some.injEq] at taken
              subst taken
              refine ⟨⟨?_, ?_, ?_, ?_⟩, running, rfl⟩
              · rw [queue]
                exact accounted
              · rw [queue]
                exact handedOver
              · simp
              · simp [queue]
          | false =>
              simp only [Bool.false_eq_true, if_false, queue, List.tail_cons] at taken
              cases rest with
              | nil =>
                  simp only [List.isEmpty_nil, if_true, Option.some.injEq] at taken
                  subst taken
                  refine ⟨⟨?_, ?_, ?_, ?_⟩, running, running⟩
                  · simpa using accounted
                  · simpa using handedOver
                  · simp
                  · simp [running]
              | cons second rest =>
                  simp only [List.isEmpty_cons, Bool.false_eq_true, if_false, startSendMsgs,
                    Option.some.injEq] at taken
                  subst taken
                  refine ⟨⟨?_, ?_, ?_, ?_⟩, running, running⟩
                  · simpa using accounted
                  · simp [handedOver]
                  · simp
                  · simp [running]

theorem step_in_order {sender next : Sender Msg} {action : SendAction Msg}
    (held : InOrder sender) (taken : step sender action = some next) : InOrder next := by
  cases action with
  | enqueue msg => exact (enqueue_in_order held taken).1
  | completed error => exact (completed_in_order held taken).1

theorem run_in_order {sockOpen : Bool} {actions : List (SendAction Msg)} {sender : Sender Msg}
    (ran : run step (Sender.fresh Msg sockOpen) actions = some sender) : InOrder sender :=
  run_invariant step (fresh_in_order sockOpen) (fun _ _ _ => step_in_order) ran

theorem failed_step_quiet {sender next : Sender Msg} {action : SendAction Msg}
    (held : InOrder sender) (failed : sender.failed = true)
    (taken : step sender action = some next) :
    next.failed = true ∧ next.handed = sender.handed := by
  cases action with
  | enqueue msg =>
      have kept := (enqueue_in_order held taken).2
      refine ⟨kept.trans failed, ?_⟩
      obtain ⟨_, _, blocked⟩ := held.stopped failed
      simp only [step, addMsgToSend, Bool.not_eq_true'] at taken
      split_ifs at taken with processWrite
      · exact Option.some.inj taken ▸ rfl
      · exact absurd (by simpa using processWrite) blocked
  | completed error =>
      have running := (completed_in_order held taken).2.1
      rw [failed] at running
      cases running

/-- The state of a sender that has failed and has handed over `handed` for good. -/
def Halted (handed : List Msg) (sender : Sender Msg) : Prop :=
  InOrder sender ∧ sender.failed = true ∧ sender.handed = handed

theorem failed_run_quiet {actions : List (SendAction Msg)} {sender last : Sender Msg}
    (held : InOrder sender) (failed : sender.failed = true)
    (ran : run step sender actions = some last) : Halted sender.handed last := by
  have initial : Halted sender.handed sender := ⟨held, failed, rfl⟩
  refine run_invariant step initial ?_ ran
  intro before action after kept taken
  obtain ⟨order, stopped, same⟩ := kept
  obtain ⟨still, quiet⟩ := failed_step_quiet order stopped taken
  exact ⟨step_in_order order taken, still, quiet.trans same⟩

/-- Every run of enqueued messages and completions, failed or not: the messages
handed over are a prefix of those enqueued; those written, followed by the
queue, are exactly those enqueued; until a write fails the front of the queue
is the one outstanding write; and once one has failed the socket is closed and
no continuation starts another. -/
theorem messages_sent_in_order (sockOpen : Bool) (actions : List (SendAction Msg))
    (sender : Sender Msg) (ran : run step (Sender.fresh Msg sockOpen) actions = some sender) :
    sender.handed <+: sender.enqueued ∧
      sender.written ++ sender.msgToServer = sender.enqueued ∧
      (sender.failed = false → sender.outstanding = sender.msgToServer.take 1) ∧
      (sender.failed = true → sender.sockOpen = false ∧ sender.outstanding = [] ∧
        ∀ later last, run step sender later = some last →
          last.handed = sender.handed ∧ last.sockOpen = false) := by
  have held := run_in_order ran
  refine ⟨?_, held.accounted, held.writing, fun failed => ?_⟩
  · rw [held.handedOver, ← held.accounted]
    exact List.prefix_append_right_inj _ |>.mpr (List.take_prefix 1 sender.msgToServer)
  · obtain ⟨idle, closed, _⟩ := held.stopped failed
    refine ⟨closed, idle, fun later last continued => ?_⟩
    obtain ⟨keptOrder, stillFailed, quiet⟩ := failed_run_quiet held failed continued
    exact ⟨quiet, (keptOrder.stopped stillFailed).2.1⟩

theorem messages_sent_in_order_sample :
    ∃ sender, run step (Sender.fresh Nat true)
        [.enqueue 1, .enqueue 2, .completed false, .completed true, .enqueue 3] = some sender ∧
      sender.handed <+: sender.enqueued ∧ sender.written ++ sender.msgToServer = [1, 2, 3] := by
  refine ⟨_, rfl, ?_⟩
  have sent := messages_sent_in_order true
    [.enqueue 1, .enqueue 2, .completed false, .completed true, .enqueue 3] _ rfl
  exact ⟨sent.1, sent.2.1⟩

end AppchatClient.Io.SendQueue
