import AppchatClient.Io.SendQueue

/-!
# The send queue across two threads

`add_msg_to_send` on the GUI thread and the completion handler on the io
thread, each queue operation one atomic step. The decision to write is taken
from an emptiness test before the push, the decision to stop from one after
the pop, and nothing orders the two. `TestAlone` is the condition on the
handler's test under which no order of the steps goes wrong.
-/

namespace AppchatClient.Io.SendRace

open AppchatClient.Lib.Runs AppchatClient.Io.SendQueue

set_option autoImplicit false

variable {Msg : Type*}

/-- Where the GUI thread is in `add_msg_to_send`: outside, after the test with
its result and the message, or before its `start_send_msgs`. -/
inductive GuiPoint (Msg : Type*) where
  | outside
  | tested (processWrite : Bool) (msg : Msg)
  | starting
deriving DecidableEq

/-- A call that found the queue non-empty has not pushed yet. -/
def GuiPoint.foundFilled : GuiPoint Msg → Bool
  | .tested true _ => true
  | _ => false

/-- A call that found the queue empty has pushed and not begun its write. -/
def GuiPoint.starts : GuiPoint Msg → Bool
  | .starting => true
  | _ => false

/-- Where the io thread is in the completion handler: outside, after the pop,
or before its `start_send_msgs`. -/
inductive IoPoint where
  | outside
  | popped
  | starting
deriving DecidableEq

structure Race (Msg : Type*) where
  msgToServer : List Msg
  outstanding : List Msg
  gui : GuiPoint Msg
  io : IoPoint
deriving DecidableEq

def Race.fresh (Msg : Type*) : Race Msg where
  msgToServer := []
  outstanding := []
  gui := .outside
  io := .outside

inductive RaceAction (Msg : Type*) where
  | guiTest (msg : Msg)
  | guiPush
  | guiStart
  | ioPop
  | ioTest
  | ioStart
deriving DecidableEq

def beginWrite (race : Race Msg) : Option (Race Msg) :=
  match race.msgToServer with
  | front :: _ => some { race with outstanding := race.outstanding ++ [front] }
  | [] => none

/-- A write completes, without an error, when the io thread is outside the handler. -/
def step (race : Race Msg) : RaceAction Msg → Option (Race Msg)
  | .guiTest msg =>
      match race.gui with
      | .outside => some { race with gui := .tested (!race.msgToServer.isEmpty) msg }
      | _ => none
  | .guiPush =>
      match race.gui with
      | .tested processWrite msg =>
          some { race with
            msgToServer := race.msgToServer ++ [msg]
            gui := if processWrite then .outside else .starting }
      | _ => none
  | .guiStart =>
      match race.gui with
      | .starting => (beginWrite race).map fun next => { next with gui := .outside }
      | _ => none
  | .ioPop =>
      match race.io, race.outstanding, race.msgToServer with
      | .outside, _ :: others, _ :: rest =>
          some { race with msgToServer := rest, outstanding := others, io := .popped }
      | _, _, _ => none
  | .ioTest =>
      match race.io with
      | .popped =>
          some { race with io := if race.msgToServer.isEmpty then .outside else .starting }
      | _ => none
  | .ioStart =>
      match race.io with
      | .starting => (beginWrite race).map fun next => { next with io := .outside }
      | _ => none

/-- At most one write is outstanding, and with both threads outside a
non-empty queue is being written. -/
def Safe (race : Race Msg) : Prop :=
  race.outstanding.length ≤ 1 ∧
    (race.gui = .outside → race.io = .outside → race.msgToServer ≠ [] → race.outstanding ≠ [])

/-- When the handler makes its emptiness test: if the queue is empty, no call
that found it non-empty has still to push; if it is not, no call that found it
empty has pushed since the pop. -/
def TestAlone (race : Race Msg) : RaceAction Msg → Prop
  | .ioTest =>
      if race.msgToServer.isEmpty then race.gui.foundFilled = false
      else race.gui.starts = false ∧ race.outstanding.isEmpty = true
  | _ => True

instance (race : Race Msg) : DecidablePred (TestAlone race) := fun action => by
  unfold TestAlone
  split <;> infer_instance

/-- The invariant, by the points of the two threads. A handler after its pop
may find a write that a call started meanwhile; `TestAlone` keeps its test away
from that. -/
def Coherent (race : Race Msg) : Prop :=
  match race.io, race.gui with
  | .outside, .outside => race.outstanding.length = min race.msgToServer.length 1
  | .outside, .tested true _ => race.msgToServer ≠ [] ∧ race.outstanding.length = 1
  | .popped, .outside | .popped, .tested true _ =>
      race.outstanding = [] ∨ race.msgToServer ≠ [] ∧ race.outstanding.length = 1
  | .outside, .tested false _ | .popped, .tested false _ =>
      race.msgToServer = [] ∧ race.outstanding = []
  | .outside, .starting | .popped, .starting => race.msgToServer ≠ [] ∧ race.outstanding = []
  | .starting, .outside | .starting, .tested true _ =>
      race.msgToServer ≠ [] ∧ race.outstanding = []
  | .starting, .tested false _ | .starting, .starting => False

theorem fresh_coherent : Coherent (Race.fresh Msg) := rfl

theorem coherent_safe {race : Race Msg} (held : Coherent race) : Safe race := by
  obtain ⟨queue, outstanding, gui, io⟩ := race
  cases io <;> rcases gui with _ | ⟨_ | _, msg⟩ | _ <;> simp [Coherent, Safe] at held ⊢
  all_goals cases queue <;> cases outstanding <;> simp_all

theorem begin_write_some {race next : Race Msg} (taken : beginWrite race = some next) :
    race.msgToServer ≠ [] ∧ next.msgToServer = race.msgToServer ∧ next.gui = race.gui ∧
      next.io = race.io ∧ next.outstanding.length = race.outstanding.length + 1 := by
  unfold beginWrite at taken
  cases queue : race.msgToServer with
  | nil => simp [queue] at taken
  | cons front rest =>
      simp only [queue, Option.some.injEq] at taken
      subst taken
      simp

theorem gui_step_coherent {race next : Race Msg} {action : RaceAction Msg}
    (held : Coherent race) (isGui : action = .guiPush ∨ action = .guiStart ∨
      ∃ msg, action = .guiTest msg) (taken : step race action = some next) : Coherent next := by
  obtain ⟨queue, outstanding, gui, io⟩ := race
  rcases isGui with rfl | rfl | ⟨msg, rfl⟩
  · -- the push: from here on the queue is not empty
    cases gui with
    | tested processWrite msg =>
        simp only [step, Option.some.injEq] at taken
        subst taken
        cases processWrite <;> cases io <;> simp_all [Coherent]
        exact held.imp_right And.right
    | _ => simp [step] at taken
  · cases gui with
    | starting =>
        simp only [step, Option.map_eq_some_iff] at taken
        obtain ⟨started, began, rfl⟩ := taken
        obtain ⟨filled, sameQueue, _, sameIo, more⟩ := begin_write_some began
        simp only at filled sameQueue sameIo more
        cases io <;> simp_all [Coherent]
        have someMessage := List.length_pos_iff.mpr filled
        omega
    | _ => simp [step] at taken
  · cases gui with
    | outside =>
        simp only [step, Option.some.injEq] at taken
        subst taken
        cases queue <;> cases io <;> simp_all [Coherent]
    | _ => simp [step] at taken

theorem io_step_coherent {race next : Race Msg} {action : RaceAction Msg}
    (held : Coherent race) (isIo : action = .ioPop ∨ action = .ioTest ∨ action = .ioStart)
    (alone : TestAlone race action) (taken : step race action = some next) : Coherent next := by
  obtain ⟨queue, outstanding, gui, io⟩ := race
  rcases isIo with rfl | rfl | rfl
  · -- the pop: the completed write was the only one
    cases io <;> cases outstanding <;> cases queue <;> simp only [step, reduceCtorEq,
      Option.some.injEq] at taken
    subst taken
    rcases gui with _ | ⟨_ | _, msg⟩ | _ <;> simp_all [Coherent]
  · cases io with
    | popped =>
        simp only [step, Option.some.injEq] at taken
        subst taken
        cases queue <;> rcases gui with _ | ⟨_ | _, msg⟩ | _ <;>
          simp_all [Coherent, TestAlone, GuiPoint.foundFilled, GuiPoint.starts]
    | _ => simp [step] at taken
  · cases io with
    | starting =>
        simp only [step, Option.map_eq_some_iff] at taken
        obtain ⟨started, began, rfl⟩ := taken
        obtain ⟨filled, sameQueue, sameGui, _, more⟩ := begin_write_some began
        simp only at filled sameQueue sameGui more
        have someMessage := List.length_pos_iff.mpr filled
        rcases gui with _ | ⟨_ | _, msg⟩ | _ <;> simp_all [Coherent]
        omega
    | _ => simp [step] at taken

theorem step_coherent {race next : Race Msg} {action : RaceAction Msg} (held : Coherent race)
    (alone : TestAlone race action) (taken : step race action = some next) : Coherent next := by
  cases action with
  | guiTest msg => exact gui_step_coherent held (.inr (.inr ⟨msg, rfl⟩)) taken
  | guiPush => exact gui_step_coherent held (.inl rfl) taken
  | guiStart => exact gui_step_coherent held (.inr (.inl rfl)) taken
  | ioPop => exact io_step_coherent held (.inl rfl) alone taken
  | ioTest => exact io_step_coherent held (.inr (.inl rfl)) alone taken
  | ioStart => exact io_step_coherent held (.inr (.inr rfl)) alone taken

/-- A test that is not alone is one step, or a few, from a violation: the queue
stalls with the late push, or a second write begins. -/
theorem bad_test_violates {race : Race Msg} (held : Coherent race) (popped : race.io = .popped)
    (together : ¬TestAlone race .ioTest) :
    ∃ later last, run step race (.ioTest :: later) = some last ∧ ¬Safe last := by
  obtain ⟨queue, outstanding, gui, io⟩ := race
  obtain rfl : io = .popped := popped
  cases queue with
  | nil =>
      obtain ⟨msg, rfl⟩ : ∃ msg, gui = .tested true msg := by
        rcases gui with _ | ⟨_ | _, msg⟩ | _ <;> simp [TestAlone, GuiPoint.foundFilled] at together
        exact ⟨msg, rfl⟩
      refine ⟨[.guiPush], _, rfl, ?_⟩
      have none : outstanding = [] := by simpa [Coherent] using held
      simp [Safe, none]
  | cons front rest =>
      by_cases starting : gui = .starting
      · obtain rfl := starting
        refine ⟨[.ioStart, .guiStart], _, rfl, ?_⟩
        simp [Safe]
      · have begun : outstanding ≠ [] := by
          rcases gui with _ | ⟨_ | _, msg⟩ | _ <;>
            simp_all [TestAlone, GuiPoint.starts]
        obtain ⟨write, others, rfl⟩ := List.exists_cons_of_ne_nil begun
        refine ⟨[.ioStart], _, rfl, ?_⟩
        simp [Safe]

theorem tests_alone_coherent {actions : List (RaceAction Msg)} {race : Race Msg}
    (alone : EveryStep step TestAlone (Race.fresh Msg) actions)
    (ran : run step (Race.fresh Msg) actions = some race) : Coherent race :=
  guarded_run_invariant step fresh_coherent
    (fun _ _ _ held met taken => step_coherent held met taken) alone ran

/-- Any number of calls and successful completions in any order: if every
emptiness test of a completion handler is alone, there is never a second
outstanding write and never a stalled queue. The first test of a run that is
not alone can be followed to a violation. -/
theorem exclusive_writer_when_tests_alone (actions : List (RaceAction Msg)) :
    (EveryStep step TestAlone (Race.fresh Msg) actions →
      EveryState step Safe (Race.fresh Msg) actions) ∧
    (∀ race, EveryStep step TestAlone (Race.fresh Msg) actions →
      run step (Race.fresh Msg) actions = some race → race.io = .popped →
      ¬TestAlone race .ioTest →
      ∃ later last, run step race (.ioTest :: later) = some last ∧ ¬Safe last) := by
  constructor
  · intro alone done race inside ran
    exact coherent_safe (tests_alone_coherent (every_step_shorter step inside alone) ran)
  · intro race alone ran popped together
    exact bad_test_violates (tests_alone_coherent alone ran) popped together

def oneByOne : List (RaceAction Nat) :=
  [.guiTest 1, .guiPush, .guiStart, .ioPop, .ioTest, .guiTest 2, .guiPush, .guiStart]

/-- The second message is tested for while the first is being written, and
pushed after the handler has popped the first and found nothing. -/
def latePush : List (RaceAction Nat) :=
  [.guiTest 1, .guiPush, .guiStart, .guiTest 2, .ioPop, .ioTest, .guiPush]

theorem exclusive_writer_when_tests_alone_sample :
    EveryState step Safe (Race.fresh Nat) oneByOne ∧
      ∃ later last, run step
        { msgToServer := [], outstanding := [], gui := .tested true 2, io := .popped }
        (.ioTest :: later) = some last ∧ ¬Safe last :=
  ⟨(exclusive_writer_when_tests_alone oneByOne).1 (every_step_of_steps_meet step (by decide)),
    (exclusive_writer_when_tests_alone (latePush.take 5)).2 _
      (every_step_of_steps_meet step (by decide)) (by decide) rfl (by decide)⟩

theorem late_push_stalls : ¬EveryState step Safe (Race.fresh Nat) latePush := by
  intro safe
  have atEnd := safe latePush
    { msgToServer := [2], outstanding := [], gui := .outside, io := .outside }
    (List.prefix_refl _) (by decide)
  exact atEnd.2 rfl rfl (by decide) rfl

/-- A call that no completion interrupts is `addMsgToSend`, and a completion that
no call interrupts is `writeCompleted`. -/
def Represents (race : Race Msg) (sender : Sender Msg) : Prop :=
  race.gui = .outside ∧ race.io = .outside ∧ race.msgToServer = sender.msgToServer ∧
    race.outstanding = sender.outstanding

def callSteps (queue : List Msg) (msg : Msg) : List (RaceAction Msg) :=
  if queue.isEmpty then [.guiTest msg, .guiPush, .guiStart] else [.guiTest msg, .guiPush]

def completionSteps (queue : List Msg) : List (RaceAction Msg) :=
  if queue.tail.isEmpty then [.ioPop, .ioTest] else [.ioPop, .ioTest, .ioStart]

theorem uninterrupted_call {race : Race Msg} {sender next : Sender Msg} {msg : Msg}
    (represents : Represents race sender) (taken : addMsgToSend sender msg = some next) :
    ∃ after, run step race (callSteps race.msgToServer msg) = some after ∧
      Represents after next := by
  obtain ⟨queue, outstanding, gui, io⟩ := race
  obtain ⟨rfl, rfl, rfl, rfl⟩ := represents
  cases queue : sender.msgToServer with
  | nil =>
      simp only [addMsgToSend, queue, startSendMsgs, List.isEmpty_nil, Bool.not_true,
        Bool.false_eq_true, if_false, List.nil_append, Option.some.injEq] at taken
      subst taken
      exact ⟨_, rfl, rfl, rfl, rfl, rfl⟩
  | cons front rest =>
      simp only [addMsgToSend, queue, List.isEmpty_cons, Bool.not_false, if_true,
        Option.some.injEq] at taken
      subst taken
      exact ⟨_, rfl, rfl, rfl, rfl, rfl⟩

theorem uninterrupted_completion {race : Race Msg} {sender next : Sender Msg}
    (represents : Represents race sender) (queued : sender.msgToServer ≠ [])
    (taken : writeCompleted sender false = some next) :
    ∃ after, run step race (completionSteps race.msgToServer) = some after ∧
      Represents after next := by
  obtain ⟨queue, outstanding, gui, io⟩ := race
  obtain ⟨rfl, rfl, rfl, rfl⟩ := represents
  obtain ⟨front, rest, queue⟩ := List.exists_cons_of_ne_nil queued
  cases writes : sender.outstanding with
  | nil => simp [writeCompleted, writes] at taken
  | cons write others =>
      simp only [writeCompleted, writes, queue, Bool.false_eq_true, if_false,
        List.tail_cons] at taken
      cases rest with
      | nil =>
          simp only [List.isEmpty_nil, if_true, Option.some.injEq] at taken
          subst taken
          exact ⟨_, by rw [queue]; rfl, rfl, rfl, rfl, rfl⟩
      | cons second rest =>
          simp only [List.isEmpty_cons, Bool.false_eq_true, if_false, startSendMsgs,
            Option.some.injEq] at taken
          subst taken
          exact ⟨_, by rw [queue]; rfl, rfl, rfl, rfl, rfl⟩

end AppchatClient.Io.SendRace
