import AppchatClient.Lib.Wiring
import AppchatClient.Control.Attempts
import AppchatClient.Session.Receivers

/-!
# Who hears a client

`connect_to_server` connects `Control` to the signals of the client it has made,
and `set_client` moves `HistoryCacher` from its old client to the new one.
`Control` is never disconnected from an old client. All attempts share the
members `client` and `client_`, and their threads execute these statements one
by one.
-/

namespace AppchatClient.Control.Connections

open AppchatClient.Protocol AppchatClient.Io.Handlers AppchatClient.Lib.Runs
open AppchatClient.Lib.Wiring AppchatClient.Session.Receivers
open AppchatClient.Control.Attempts (ConnectedSignal)

set_option autoImplicit false

inductive Receiver where
  | control
  | cacher
deriving DecidableEq, Repr

/-- `callSetClient` copies `client` to the parameter, and `testOld` and
`testNew` are the two null tests in `set_client`. -/
inductive Statement where
  | makeClient
  | connectControl (signal : ConnectedSignal)
  | callSetClient
  | testOld
  | disconnectOld
  | assign
  | testNew
  | connectCacher (signal : ConnectedSignal)
deriving DecidableEq, Repr

def controlSignals : List ConnectedSignal :=
  [.sendText, .sendInputCode, .channelsReceived, .historyReceived, .joined]

def cacherSignals : List ConnectedSignal :=
  [.sendInputCode, .joined, .sendText, .historyReceived, .channelsReceived]

def setClient : List Statement :=
  [.testOld, .disconnectOld, .assign, .testNew] ++ cacherSignals.map .connectCacher

/-- `connect_to_server` from the assignment to `client` to the end of `set_client`. -/
def setUp : List Statement :=
  .makeClient :: controlSignals.map .connectControl ++ .callSetClient :: setClient

/-- A client is named by the attempt that has made it. `clientOfCacher` is
`client_`, `given` the parameter of each call of `set_client`, and `rest` what
an attempt has still to execute. -/
structure Members where
  client : Option Nat
  clientOfCacher : Option Nat
  wiring : List (Connection Nat ConnectedSignal Receiver)
  given : Nat → Option Nat
  rest : Nat → List Statement

namespace Members

def start : Members where
  client := none
  clientOfCacher := none
  wiring := []
  given _ := none
  rest _ := setUp

/-- `connect` with a null sender does nothing. -/
def connectTo (members : Members) (sender : Option Nat) (signal : ConnectedSignal)
    (receiver : Receiver) : Members :=
  match sender with
  | some client => { members with wiring := connect members.wiring client signal receiver }
  | none => members

def setRest (members : Members) (number : Nat) (rest : List Statement) : Members :=
  { members with rest := Function.update members.rest number rest }

def execute (members : Members) (number : Nat) (more : List Statement) : Statement → Members
  | .makeClient => { members with client := some number }.setRest number more
  | .connectControl signal =>
      (members.connectTo members.client signal .control).setRest number more
  | .callSetClient =>
      { members with given := Function.update members.given number members.client }.setRest
        number more
  | .testOld =>
      members.setRest number (if members.clientOfCacher.isSome then more else more.tail)
  | .disconnectOld =>
      match members.clientOfCacher with
      | some old =>
          { members with wiring := disconnect members.wiring old .cacher }.setRest number more
      | none => members.setRest number more
  | .assign => { members with clientOfCacher := members.given number }.setRest number more
  | .testNew => members.setRest number (if members.clientOfCacher.isSome then more else [])
  | .connectCacher signal =>
      (members.connectTo members.clientOfCacher signal .cacher).setRest number more

end Members

def step (members : Members) (number : Nat) : Option Members :=
  match members.rest number with
  | statement :: more => some (members.execute number more statement)
  | [] => none

def slotOf : Signal → Receiver → Option Slot
  | .sendText msg, .control => some (.textFromClient msg)
  | .sendText msg, .cacher => some (.onMessageReceived msg)
  | .sendInputCode code, .control => some (.changeWindow code)
  | .sendInputCode code, .cacher => some (.onAuthorized code)
  | .joined channel, .control => some (.controlJoined channel)
  | .joined channel, .cacher => some (.onJoined channel)
  | .historyReceived channel _, .control => some (.controlHistoryReceived channel)
  | .historyReceived channel hist, .cacher => some (.onHistoryReceived channel hist)
  | .channelsReceived channels, .control => some (.controlChannelsReceived channels)
  | .channelsReceived channels, .cacher => some (.onChannelsReceived channels)
  | .sigUpdateChannels, _ => none

/-- Nothing is ever connected to `sig_update_channels`. -/
def signalName : Signal → Option ConnectedSignal
  | .sendText _ => some .sendText
  | .sendInputCode _ => some .sendInputCode
  | .joined _ => some .joined
  | .historyReceived _ _ => some .historyReceived
  | .channelsReceived _ => some .channelsReceived
  | .sigUpdateChannels => none

def posted (members : Members) (number : Nat) (signal : Signal) : List Slot :=
  match signalName signal with
  | some name => (receivers members.wiring number name).filterMap (slotOf signal)
  | none => []

def ofControl : Slot → Bool
  | .textFromClient _ => true
  | .changeWindow _ => true
  | .controlJoined _ => true
  | .controlHistoryReceived _ => true
  | .controlChannelsReceived _ => true
  | _ => false

/-- No attempt is between the two ends of its set-up. -/
def Quiet (members : Members) : Prop :=
  ∀ number, members.rest number = [] ∨ members.rest number = setUp

/-- A signal of the cacher's client calls both receivers, as the session has
it, and a signal of any other client only `Control`. -/
def Heard (members : Members) : Prop :=
  Quiet members → ∀ number, members.rest number = [] → ∀ signal,
    posted members number signal =
      if members.clientOfCacher = some number then connected signal
      else (connected signal).filter ofControl

/-- A set-up, whose first statement is the assignment to `client`, begins only
while no other one is under way. -/
def Apart (members : Members) (number : Nat) : Prop :=
  members.rest number = setUp → Quiet members

variable {members after base : Members} {number : Nat}

/-- The cacher listens to its client only, `Control` to every client so far. -/
structure Wired (members : Members) : Prop where
  quiet : Quiet members
  owner : ∀ number, members.clientOfCacher = some number → members.rest number = []
  heard : ∀ number signal, receivers members.wiring number signal =
    if members.rest number = setUp then []
    else if members.clientOfCacher = some number then [.control, .cacher]
    else [.control]

theorem start_wired : Wired Members.start where
  quiet _ := Or.inr rfl
  owner number stored := by cases stored
  heard number signal := by
    rw [Members.start, if_pos rfl]
    rfl

theorem set_up_ne_nil : setUp ≠ [] := by decide

theorem wired_heard (wired : Wired members) : Heard members := by
  intro _ number atEnd signal
  have begun : members.rest number ≠ setUp := by
    rw [atEnd]
    exact set_up_ne_nil.symm
  by_cases owner : members.clientOfCacher = some number
  · rw [if_pos owner]
    cases signal <;>
      simp [posted, signalName, wired.heard, begun, owner, slotOf, connected]
  · rw [if_neg owner]
    cases signal <;>
      simp [posted, signalName, wired.heard, begun, owner, slotOf, connected, ofControl,
        List.filter_cons]

def ownClient (members : Members) : Receiver → Option Nat
  | .control => members.client
  | .cacher => members.clientOfCacher

def connectStatement : Receiver → ConnectedSignal → Statement
  | .control => .connectControl
  | .cacher => .connectCacher

def connectAll (members : Members) (sender : Nat) (signals : List ConnectedSignal)
    (receiver : Receiver) : Members :=
  { members with
    wiring := signals.foldl (fun wired signal => connect wired sender signal receiver)
      members.wiring }

theorem step_ahead {statement : Statement} {more : List Statement}
    (ahead : members.rest number = statement :: more) :
    step members number = some (members.execute number more statement) := by
  rw [step, ahead]

theorem rest_set_rest (members : Members) (number : Nat) (rest : List Statement) :
    (members.setRest number rest).rest number = rest :=
  Function.update_self _ _ _

theorem rest_set_rest_other (members : Members) {number other : Nat} (different : other ≠ number)
    (rest : List Statement) : (members.setRest number rest).rest other = members.rest other :=
  Function.update_of_ne different _ _

theorem set_rest_again (members : Members) (number : Nat) (first second : List Statement) :
    (members.setRest number first).setRest number second = members.setRest number second := by
  simp [Members.setRest]

theorem execute_connect (members : Members) (number : Nat) (more : List Statement)
    (receiver : Receiver) (signal : ConnectedSignal) :
    members.execute number more (connectStatement receiver signal) =
      (match ownClient members receiver with
        | some sender => connectAll members sender [signal] receiver
        | none => members).setRest number more := by
  cases receiver with
  | control => cases stored : members.client <;>
      simp [connectStatement, Members.execute, Members.connectTo, ownClient, stored, connectAll]
  | cacher => cases stored : members.clientOfCacher <;>
      simp [connectStatement, Members.execute, Members.connectTo, ownClient, stored, connectAll]

theorem connects_run (receiver : Receiver) {sender : Nat} (signals : List ConnectedSignal)
    (more : List Statement) (members : Members)
    (stored : ownClient members receiver = some sender)
    (ahead : members.rest number = signals.map (connectStatement receiver) ++ more) :
    run step members (List.replicate signals.length number) =
      some ((connectAll members sender signals receiver).setRest number more) := by
  induction signals generalizing members with
  | nil =>
      have same : Function.update members.rest number more = members.rest :=
        Function.update_eq_self_iff.mpr ahead.symm
      simp [Members.setRest, connectAll, same]
  | cons signal rest ih =>
      have front : members.rest number =
          connectStatement receiver signal :: (rest.map (connectStatement receiver) ++ more) :=
        ahead
      have executed := execute_connect members number
        (rest.map (connectStatement receiver) ++ more) receiver signal
      rw [stored] at executed
      have kept : ownClient ((connectAll members sender [signal] receiver).setRest number
          (rest.map (connectStatement receiver) ++ more)) receiver = some sender := by
        cases receiver <;> exact stored
      have later := ih _ kept (rest_set_rest _ _ _)
      rw [List.length_cons, List.replicate_succ, run_cons, step_ahead front, Option.bind_some,
        executed, later]
      simp [connectAll, Members.setRest]

/-- `set_client` between the call and the second null test. -/
def takeOver (members : Members) (number : Nat) : Members :=
  { members with
    given := Function.update members.given number members.client
    clientOfCacher := members.client
    wiring :=
      match members.clientOfCacher with
      | some old => disconnect members.wiring old .cacher
      | none => members.wiring }

/-- What a whole set-up leaves, begun where no other one is under way. -/
def finished (base : Members) (number : Nat) : Members :=
  (connectAll
    (takeOver (connectAll { base with client := some number } number controlSignals .control)
      number) number cacherSignals .cacher).setRest number []

theorem take_over_run {client : Nat} (stored : members.client = some client)
    (ahead : members.rest number = .callSetClient :: setClient) :
    ∃ count, run step members (List.replicate count number) =
      some ((takeOver members number).setRest number (cacherSignals.map .connectCacher)) := by
  cases old : members.clientOfCacher with
  | none =>
      refine ⟨4, ?_⟩
      simp [List.replicate, run, step, ahead, setClient, Members.execute, Members.setRest, old,
        stored, takeOver]
  | some other =>
      refine ⟨5, ?_⟩
      simp [List.replicate, run, step, ahead, setClient, Members.execute, Members.setRest, old,
        stored, takeOver]

theorem run_replicate_append {first second : Members} {left right : Nat}
    (earlier : run step base (List.replicate left number) = some first)
    (later : run step first (List.replicate right number) = some second) :
    run step base (List.replicate (left + right) number) = some second := by
  rw [List.replicate_add, run_append, earlier, Option.bind_some, later]

theorem whole_set_up (fresh : base.rest number = setUp) :
    ∃ count, run step base (List.replicate count number) = some (finished base number) := by
  let first : Members := { base with client := some number }
  let second := connectAll first number controlSignals .control
  let third := takeOver second number
  let afterMake := controlSignals.map Statement.connectControl ++ .callSetClient :: setClient
  have made : run step base (List.replicate 1 number) = some (first.setRest number afterMake) := by
    rw [List.replicate_one, run_cons, step_ahead fresh]
    rfl
  have heard : run step (first.setRest number afterMake)
      (List.replicate controlSignals.length number) =
      some ((second.setRest number afterMake).setRest number (.callSetClient :: setClient)) :=
    connects_run .control controlSignals _ _ rfl (rest_set_rest first number afterMake)
  rw [set_rest_again] at heard
  have stored : (second.setRest number (.callSetClient :: setClient)).client = some number := rfl
  rcases take_over_run stored (rest_set_rest second number _) with ⟨count, taken⟩
  have takenOver : run step (second.setRest number (.callSetClient :: setClient))
      (List.replicate count number) =
      some ((third.setRest number (.callSetClient :: setClient)).setRest number
        (cacherSignals.map Statement.connectCacher)) := taken
  rw [set_rest_again] at takenOver
  have moved : run step (third.setRest number (cacherSignals.map Statement.connectCacher))
      (List.replicate cacherSignals.length number) =
      some (((connectAll third number cacherSignals .cacher).setRest number
        (cacherSignals.map Statement.connectCacher)).setRest number []) :=
    connects_run .cacher cacherSignals [] _ rfl (by rw [rest_set_rest, List.append_nil]; rfl)
  rw [set_rest_again] at moved
  exact ⟨_, run_replicate_append (run_replicate_append (run_replicate_append made heard)
    takenOver) moved⟩

theorem take_over_receivers (members : Members) (number other : Nat) (signal : ConnectedSignal) :
    receivers (takeOver members number).wiring other signal =
      if members.clientOfCacher = some other then
        (receivers members.wiring other signal).filter fun receiver => receiver ≠ .cacher
      else receivers members.wiring other signal := by
  cases stored : members.clientOfCacher with
  | none => simp [takeOver, stored]
  | some old =>
      by_cases same : other = old
      · subst same
        simp only [takeOver, stored, if_true]
        exact receivers_disconnect_same _ _ _ _
      · have different : ¬ some old = some other := by simpa using Ne.symm same
        simp only [takeOver, stored, if_neg different]
        exact receivers_disconnect_other _ same _ _

theorem finished_wired (wired : Wired base) (fresh : base.rest number = setUp) :
    Wired (finished base number) := by
  have rest (other : Nat) : (finished base number).rest other =
      if other = number then [] else base.rest other := by
    rw [finished, Members.setRest]
    exact Function.update_apply _ _ _ _
  have owner : (finished base number).clientOfCacher = some number := rfl
  constructor
  · intro other
    rw [rest other]
    split_ifs
    · exact Or.inl rfl
    · exact wired.quiet other
  · intro other stored
    rw [owner, Option.some.injEq] at stored
    rw [rest other, if_pos stored.symm]
  · intro other signal
    have joined := receivers_connect_all Receiver.control number other
      (by decide : controlSignals.Nodup) signal base.wiring
    have left := take_over_receivers
      (connectAll { base with client := some number } number controlSignals .control) number other
      signal
    have moved := receivers_connect_all Receiver.cacher number other
      (by decide : cacherSignals.Nodup) signal
      (takeOver (connectAll { base with client := some number } number controlSignals .control)
        number).wiring
    have every : signal ∈ controlSignals ∧ signal ∈ cacherSignals := by cases signal <;> decide
    have before := wired.heard other signal
    have whole : receivers (finished base number).wiring other signal = _ := moved
    rw [whole, owner, rest other]
    simp only [every, and_true] at joined ⊢
    rw [left]
    have stored : (connectAll { base with client := some number } number controlSignals
      .control).clientOfCacher = base.clientOfCacher := rfl
    have wiring : (connectAll { base with client := some number } number controlSignals
      .control).wiring = controlSignals.foldl
        (fun wired signal => connect wired number signal .control) base.wiring := rfl
    rw [stored, wiring, joined, before]
    by_cases new : number = other
    · subst new
      have stranger : base.clientOfCacher ≠ some number := by
        intro old
        exact set_up_ne_nil (fresh.symm.trans (wired.owner number old))
      simp [fresh, stranger, set_up_ne_nil.symm]
    · have others : ¬ other = number := Ne.symm new
      have owned : ¬ some number = some other := by simpa using new
      simp only [if_neg new, if_neg others, if_neg owned]
      by_cases old : base.clientOfCacher = some other
      · have atEnd := wired.owner other old
        simp [old, atEnd, set_up_ne_nil.symm]
      · simp [old]

theorem step_rest (taken : step members number = some after) :
    (after.rest number).length < (members.rest number).length ∧
      ∀ other, other ≠ number → after.rest other = members.rest other := by
  cases ahead : members.rest number with
  | nil => simp [step, ahead] at taken
  | cons statement more =>
      rw [step_ahead ahead, Option.some.injEq] at taken
      have written (changed : Members) (left : List Statement) (same : changed.rest = members.rest)
          (fits : left.length ≤ more.length) (result : after = changed.setRest number left) :
          (after.rest number).length < (statement :: more).length ∧
            ∀ other, other ≠ number → after.rest other = members.rest other := by
        subst result
        refine ⟨?_, ?_⟩
        · rw [rest_set_rest, List.length_cons]
          omega
        · intro other different
          rw [rest_set_rest_other changed different, same]
      have connected (sender : Option Nat) (signal : ConnectedSignal) (receiver : Receiver) :
          (members.connectTo sender signal receiver).rest = members.rest := by
        cases sender <;> rfl
      cases statement with
      | makeClient =>
          exact written { members with client := some number } more rfl (Nat.le_refl _) taken.symm
      | connectControl signal => exact written _ more (connected _ _ _) (Nat.le_refl _) taken.symm
      | callSetClient =>
          exact written
            { members with given := Function.update members.given number members.client } more rfl
            (Nat.le_refl _) taken.symm
      | testOld =>
          refine written members _ rfl ?_ taken.symm
          split_ifs
          · exact Nat.le_refl _
          · exact List.length_tail ▸ Nat.sub_le _ _
      | disconnectOld =>
          cases old : members.clientOfCacher with
          | none =>
              simp only [Members.execute, old] at taken
              exact written members more rfl (Nat.le_refl _) taken.symm
          | some client =>
              simp only [Members.execute, old] at taken
              rw [← old] at taken
              exact written { members with wiring := disconnect members.wiring client .cacher }
                more rfl (Nat.le_refl _) taken.symm
      | assign =>
          exact written { members with clientOfCacher := members.given number } more rfl
            (Nat.le_refl _) taken.symm
      | testNew =>
          refine written members _ rfl ?_ taken.symm
          split_ifs
          · exact Nat.le_refl _
          · exact Nat.zero_le _
      | connectCacher signal => exact written _ more (connected _ _ _) (Nat.le_refl _) taken.symm

theorem run_rest_other {count : Nat}
    (ran : run step base (List.replicate count number) = some members) {other : Nat}
    (different : other ≠ number) : members.rest other = base.rest other := by
  induction count generalizing base with
  | zero =>
      obtain rfl := Option.some.inj ran
      rfl
  | succ count ih =>
      rw [List.replicate_succ] at ran
      rcases Option.bind_eq_some_iff.mp ran with ⟨next, taken, later⟩
      rw [ih later, (step_rest taken).2 other different]

theorem end_unique {left right : Nat} {first second : Members} (order : left ≤ right)
    (earlier : run step base (List.replicate left number) = some first)
    (atEnd : first.rest number = [])
    (later : run step base (List.replicate right number) = some second) : second = first := by
  rcases Nat.exists_eq_add_of_le order with ⟨more, rfl⟩
  rw [List.replicate_add, run_append, earlier, Option.bind_some] at later
  cases more with
  | zero => exact (Option.some.inj later).symm
  | succ more =>
      rw [List.replicate_succ, run_cons, step, atEnd] at later
      cases later

/-- One attempt is in the middle of its set-up, begun in a state between two set-ups. -/
def UnderWay (members : Members) : Prop :=
  ∃ base number count, Wired base ∧ base.rest number = setUp ∧
    run step base (List.replicate count number) = some members ∧
    members.rest number ≠ [] ∧ (members.rest number).length < setUp.length

theorem underway_not_quiet (underway : UnderWay members) : ¬ Quiet members := by
  rcases underway with ⟨base, number, count, -, -, -, running, begun⟩
  intro quiet
  rcases quiet number with atEnd | whole
  · exact running atEnd
  · rw [whole] at begun
    exact Nat.lt_irrefl _ begun

theorem continued (wired : Wired base) (fresh : base.rest number = setUp) {count : Nat}
    (ran : run step base (List.replicate count number) = some after)
    (begun : (after.rest number).length < setUp.length) : Wired after ∨ UnderWay after := by
  by_cases atEnd : after.rest number = []
  · left
    rcases whole_set_up fresh with ⟨whole, all⟩
    have ended : (finished base number).rest number = [] := rest_set_rest _ _ _
    have same : finished base number = after := by
      rcases Nat.le_total count whole with order | order
      · exact end_unique order ran atEnd all
      · exact (end_unique order all ended ran).symm
    rw [← same]
    exact finished_wired wired fresh
  · exact Or.inr ⟨base, number, count, wired, fresh, ran, atEnd, begun⟩

theorem step_apart (held : Wired members ∨ UnderWay members) (apart : Apart members number)
    (taken : step members number = some after) : Wired after ∨ UnderWay after := by
  have shorter := (step_rest taken).1
  have running : members.rest number ≠ [] := by
    intro atEnd
    rw [step, atEnd] at taken
    cases taken
  rcases held with wired | underway
  · have fresh := (wired.quiet number).resolve_left running
    have once : run step members (List.replicate 1 number) = some after := by
      rw [List.replicate_one, run_cons, taken]
      rfl
    exact continued wired fresh once (fresh ▸ shorter)
  · have loud := underway_not_quiet underway
    rcases underway with ⟨base, current, count, wired, fresh, ran, -, begun⟩
    by_cases same : number = current
    · subst same
      have further : run step base (List.replicate (count + 1) number) = some after := by
        rw [List.replicate_succ']
        exact run_snoc step ran taken
      exact continued wired fresh further (Nat.lt_trans shorter begun)
    · have other := run_rest_other ran same
      have whole : members.rest number = setUp :=
        other.trans ((wired.quiet number).resolve_left (other ▸ running))
      exact absurd (apart whole) loud

/-- In every run in which no set-up begins while another one is under way:
between two set-ups, the signals of the cacher's client reach both receivers,
`Control` first, and those of older clients `Control` alone. -/
theorem signals_heard_when_apart {numbers : List Nat}
    (apart : EveryStep step Apart Members.start numbers) :
    EveryState step Heard Members.start numbers := by
  have held := guarded_invariant step (Or.inl start_wired)
    (fun _ _ _ held guarded taken => step_apart held guarded taken) apart
  have heard (reached : Members) (either : Wired reached ∨ UnderWay reached) : Heard reached := by
    rcases either with wired | underway
    · exact wired_heard wired
    · intro quiet
      exact absurd quiet (underway_not_quiet underway)
  exact every_state_mono step heard held

theorem not_begun {numbers : List Nat} (ran : run step Members.start numbers = some members)
    {other : Nat} (absent : other ∉ numbers) : members.rest other = setUp := by
  induction numbers using List.reverseRecOn generalizing members with
  | nil =>
      obtain rfl := Option.some.inj ran
      rfl
  | append_singleton done number ih =>
      rcases run_snoc_some step ran with ⟨before, earlier, taken⟩
      rw [List.mem_append, List.mem_singleton, not_or] at absent
      rw [(step_rest taken).2 other absent.2]
      exact ih earlier absent.1

def QuietBelow (bound : Nat) (members : Members) : Prop :=
  ∀ number < bound, members.rest number = [] ∨ members.rest number = setUp

instance (bound : Nat) (members : Members) : Decidable (QuietBelow bound members) :=
  inferInstanceAs (Decidable (∀ number < bound, _))

theorem quiet_of_below {bound : Nat} {numbers : List Nat}
    (first : ∀ number ∈ numbers, number < bound)
    (ran : run step Members.start numbers = some members) (below : QuietBelow bound members) :
    Quiet members := by
  intro number
  by_cases inside : number < bound
  · exact below number inside
  · exact Or.inr (not_begun ran fun member => inside (first number member))

theorem apart_of_below {bound : Nat} {numbers : List Nat}
    (first : ∀ number ∈ numbers, number < bound)
    (below : EveryStep step
      (fun members number => members.rest number = setUp → QuietBelow bound members)
      Members.start numbers) : EveryStep step Apart Members.start numbers := by
  intro done number before after part ran taken fresh
  have shorter : ∀ earlier ∈ done, earlier < bound := fun earlier member =>
    first earlier (part.subset (List.mem_append_left _ member))
  exact quiet_of_below shorter ran (below done number before after part ran taken fresh)

theorem signals_heard_when_apart_sample :
    EveryState step Heard Members.start (List.replicate 15 0 ++ List.replicate 16 1) :=
  signals_heard_when_apart (@apart_of_below 2 _ (by decide)
    (every_step_of_steps_meet step (by decide)))

def overlapping : List Nat :=
  List.replicate 9 0 ++ List.replicate 10 1 ++ List.replicate 6 0 ++ List.replicate 6 1

/-- Each message of the second client is then saved twice. -/
theorem overlapping_listens_twice : ¬ EveryState step Heard Members.start overlapping := by
  intro heard
  have fields : (run step Members.start overlapping).map (fun members =>
      (members.rest 0, members.rest 1, members.clientOfCacher,
        receivers members.wiring 1 .sendText)) =
      some ([], [], some 1, [.control, .cacher, .cacher]) := by
    decide
  rcases Option.map_eq_some_iff.mp fields with ⟨reached, ran, values⟩
  simp only [Prod.mk.injEq] at values
  rcases values with ⟨first, second, owner, called⟩
  have below : QuietBelow 2 reached := by
    intro number inside
    have either : number = 0 ∨ number = 1 := by omega
    rcases either with rfl | rfl
    · exact Or.inl first
    · exact Or.inl second
  have quiet := quiet_of_below (by decide) ran below
  have message := heard overlapping reached (List.prefix_refl _) ran quiet 1 second
    (.sendText (chatLib.parseTextRes {}))
  simp [posted, signalName, called, owner, slotOf, connected] at message

end AppchatClient.Control.Connections
