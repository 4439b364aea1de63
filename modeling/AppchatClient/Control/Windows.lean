import AppchatClient.Control.Attempts

/-!
# The two windows

`Control` shows the login form first and the main window after an acceptance.
The form starts attempts, each on a thread of its own, and the answer to an
attempt comes back as an event for `change_window`. The slots of the main window
use the member `client`, whichever attempt has stored it last.
-/

namespace AppchatClient.Control.Windows

open AppchatClient.Protocol AppchatClient.Lib.Runs AppchatClient.Control.Attempts

set_option autoImplicit false

/-- The two pages of the stacked `LoginWidget`, `m_log` and `m_reg`. -/
inductive Page where
  | log
  | reg
deriving DecidableEq, Repr

inductive LineEdit where
  | logon
  | password
  | regLogon
  | regPsw
  | regPswRetry
deriving DecidableEq, Repr

def LineEdit.page : LineEdit → Page
  | .logon => .log
  | .password => .log
  | _ => .reg

/-- `boxes` are the message boxes shown so far, with their titles. -/
structure LoginWidget where
  page : Page
  text : LineEdit → StdString
  boxes : List (StdString × StdString)

namespace LoginWidget

def setText (widget : LoginWidget) (edit : LineEdit) (text : StdString) : LoginWidget :=
  { widget with text := Function.update widget.text edit text }

def clear (widget : LoginWidget) (edit : LineEdit) : LoginWidget := widget.setText edit []

def information (widget : LoginWidget) (title text : StdString) : LoginWidget :=
  { widget with boxes := widget.boxes ++ [(title, text)] }

def onPushRegistrationClicked (widget : LoginWidget) : LoginWidget := { widget with page := .reg }

def onPushAutorisationClicked (widget : LoginWidget) : LoginWidget × Option AttemptAction :=
  let login := widget.text .logon
  let password := widget.text .password
  if login = [] ∨ password = [] then
    (widget.information "error".toList "enter correct information".toList, none)
  else ((widget.clear .logon).clear .password, some (.autorisation login password))

def onPushRegMainClicked (widget : LoginWidget) : LoginWidget × Option AttemptAction :=
  let login := widget.text .regLogon
  let password := widget.text .regPsw
  let retry := widget.text .regPswRetry
  if login = [] ∨ password = [] ∨ password ≠ retry then
    (widget.information "error".toList "enter correct information".toList, none)
  else
    (((widget.clear .regLogon).clear .regPsw).clear .regPswRetry,
      some (.registration login password))

def handlerInputCode (widget : LoginWidget) (code : StatusCode) : LoginWidget :=
  let cleared := (widget.clear .logon).clear .password
  match code with
  | .registrOK =>
      cleared.information "registration".toList "You successfully registered.".toList
  | .busyRegistr =>
      cleared.information "error from server".toList "this login is already registered.".toList
  | .autorOK => cleared
  | .incorrectAutor =>
      cleared.information "error from server".toList "check login/password".toList

end LoginWidget

/-- A `send_input_code` of the client that an attempt has made. -/
structure Code where
  attempt : Nat
  code : StatusCode
deriving DecidableEq, Repr

inductive WindowCall where
  | sendMsgToServer (msg : MsgText)
  | joinChannel (channelName : StdString)
deriving DecidableEq, Repr

/-- `posted` are the waiting events for `change_window`, `accepted` the attempts
whose client has had an acceptance, and `used` the calls of the main window's
slots with the client that each one went to. -/
structure Gui where
  shared : Shared
  loginWidget : LoginWidget
  loginVisible : Bool
  mainVisible : Bool
  posted : List Code
  accepted : List Nat
  used : List (Nat × WindowCall)

def accepts : StatusCode → Bool
  | .autorOK => true
  | .registrOK => true
  | .incorrectAutor => false
  | .busyRegistr => false

namespace Gui

def start : Gui where
  shared := Shared.start
  loginWidget := { page := .log, text := fun _ => [], boxes := [] }
  loginVisible := true
  mainVisible := false
  posted := []
  accepted := []
  used := []

def changeWindow (gui : Gui) (code : StatusCode) : Gui :=
  if code = .busyRegistr ∨ code = .incorrectAutor then
    { gui with loginWidget := gui.loginWidget.handlerInputCode code }
  else { gui with loginVisible := false, mainVisible := true }

/-- `get_text_from_gui` and `join_to_channel`: no result on a null pointer. -/
def useClient (gui : Gui) (call : WindowCall) : Option Gui :=
  gui.shared.client.map fun target => { gui with used := gui.used ++ [(target, call)] }

def connections (gui : Gui) (number : Nat) : Nat :=
  gui.shared.calls.countP fun made =>
    made.target = number ∧ made.call = .connectSignal .sendInputCode

def serving (gui : Gui) (number : Nat) : Prop :=
  ∃ attempt, gui.shared.attempts[number]? = some attempt ∧
    attempt.rest.head? = some .runIoService

instance (gui : Gui) (number : Nat) : Decidable (gui.serving number) :=
  match found : gui.shared.attempts[number]? with
  | some attempt =>
      decidable_of_iff (attempt.rest.head? = some .runIoService) (by simp [serving, found])
  | none => isFalse (by simp [serving, found])

def answer (gui : Gui) (number : Nat) (code : StatusCode) : Gui :=
  { gui with
    posted := gui.posted ++ List.replicate (gui.connections number) ⟨number, code⟩
    accepted := if accepts code then gui.accepted ++ [number] else gui.accepted }

/-- `resolve` throws: the thread of the attempt ends before it makes a client. -/
def resolveFails (gui : Gui) (number : Nat) : Option Gui :=
  match gui.shared.attempts[number]? with
  | some attempt =>
      if attempt.rest = connectToServer then
        some { gui with shared := gui.shared.advance number attempt [] }
      else none
  | none => none

end Gui

/-- A hidden window takes no input, and of the stacked pages only the current one does. -/
inductive GuiAction where
  | type (edit : LineEdit) (text : StdString)
  | pushAutorisation
  | pushRegistration
  | pushRegMain
  | next (number : Nat)
  | resolveFails (number : Nat)
  | answer (number : Nat) (code : StatusCode)
  | changeWindow
  | window (call : WindowCall)
deriving DecidableEq

def push (gui : Gui) (page : Page) (slot : LoginWidget × Option AttemptAction) : Option Gui :=
  if gui.loginVisible = true ∧ gui.loginWidget.page = page then
    match slot.2 with
    | some attempt =>
        (Attempts.step gui.shared attempt).map fun shared =>
          { gui with shared := shared, loginWidget := slot.1 }
    | none => some { gui with loginWidget := slot.1 }
  else none

def step (gui : Gui) : GuiAction → Option Gui
  | .type edit text =>
      if gui.loginVisible = true ∧ gui.loginWidget.page = edit.page then
        some { gui with loginWidget := gui.loginWidget.setText edit text }
      else none
  | .pushAutorisation => push gui .log gui.loginWidget.onPushAutorisationClicked
  | .pushRegistration => push gui .log (gui.loginWidget.onPushRegistrationClicked, none)
  | .pushRegMain => push gui .reg gui.loginWidget.onPushRegMainClicked
  | .next number =>
      (Attempts.step gui.shared (.next number)).map fun shared => { gui with shared := shared }
  | .resolveFails number => gui.resolveFails number
  | .answer number code => if gui.serving number then some (gui.answer number code) else none
  | .changeWindow =>
      match gui.posted with
      | front :: rest => some ({ gui with posted := rest }.changeWindow front.code)
      | [] => none
  | .window call => if gui.mainVisible then gui.useClient call else none

variable {gui after : Gui} {action : GuiAction}

/-- One statement of an attempt. `left` is what the attempt has still to execute. -/
structure Moved (before after : Shared) (number : Nat) (attempt : Attempt)
    (statement : Statement) (rest left : List Statement) : Prop where
  found : before.attempts[number]? = some attempt
  front : attempt.rest = statement :: rest
  shorter : left = rest ∨ left = []
  attempts : after.attempts = before.attempts.set number { attempt with rest := left }
  client : after.client = if statement = .makeClient then some number else before.client
  calls : after.calls = before.calls ∨ ∃ target, before.client = some target

theorem next_moved {before after : Shared} {number : Nat}
    (taken : Attempts.step before (.next number) = some after) :
    ∃ attempt statement rest left, Moved before after number attempt statement rest left := by
  rcases next_some taken with ⟨attempt, statement, rest, found, front, executed⟩
  have called {call : ClientCall} (other : statement ≠ .makeClient)
      (made : (before.advance number attempt rest).callClient number call = some after) :
      Moved before after number attempt statement rest rest := by
    rcases call_client_some made with ⟨target, stored, rfl⟩
    have client : before.client = some target := stored
    refine ⟨found, front, Or.inl rfl, rfl, ?_, Or.inr ⟨target, client⟩⟩
    rw [if_neg other]
    rfl
  refine ⟨attempt, statement, rest, ?_⟩
  cases statement with
  | makeClient =>
      obtain rfl := Option.some.inj executed
      exact ⟨rest, found, front, Or.inl rfl, rfl, rfl, Or.inl rfl⟩
  | setWindowLogin =>
      obtain rfl := Option.some.inj executed
      exact ⟨rest, found, front, Or.inl rfl, rfl, rfl, Or.inl rfl⟩
  | runIoService =>
      obtain rfl := Option.some.inj executed
      exact ⟨rest, found, front, Or.inl rfl, rfl, rfl, Or.inl rfl⟩
  | testClient =>
      simp only [Shared.execute, Option.some.injEq] at executed
      split_ifs at executed
      · subst executed
        exact ⟨rest, found, front, Or.inl rfl, rfl, rfl, Or.inl rfl⟩
      · subst executed
        refine ⟨[], found, front, Or.inr rfl, ?_, rfl, Or.inl rfl⟩
        simp [Shared.advance]
  | connectSignal signal => exact ⟨rest, called (by simp) executed⟩
  | setClient => exact ⟨rest, called (by simp) executed⟩
  | doConnect => exact ⟨rest, called (by simp) executed⟩
  | setLogin => exact ⟨rest, called (by simp) executed⟩
  | closeConnection => exact ⟨rest, called (by simp) executed⟩

def starts (gui : Gui) : GuiAction → Bool
  | .pushAutorisation => gui.loginWidget.onPushAutorisationClicked.2.isSome
  | .pushRegMain => gui.loginWidget.onPushRegMainClicked.2.isSome
  | _ => false

structure Begun (gui : Gui) (widget : LoginWidget) (attempt : Attempt) : Prop where
  whole : attempt.rest = connectToServer
  filled : attempt.login ≠ [] ∧ attempt.password ≠ []
  page : widget.page = gui.loginWidget.page
  command : attempt.command = .registrationRequest ↔ gui.loginWidget.page = .reg

inductive Change (gui : Gui) (action : GuiAction) (after : Gui) : Prop where
  | form (widget : LoginWidget) (visible : gui.loginVisible = true)
      (page : gui.loginWidget.page = .reg → widget.page = .reg)
      (same : after = { gui with loginWidget := widget })
  | begins (widget : LoginWidget) (attempt : Attempt) (started : starts gui action = true)
      (visible : gui.loginVisible = true) (begun : Begun gui widget attempt)
      (same : after = { gui with
        shared := { gui.shared with attempts := gui.shared.attempts ++ [attempt] }
        loginWidget := widget })
  | moves (number : Nat) (shared : Shared) (attempt : Attempt) (statement : Statement)
      (rest left : List Statement)
      (moved : Moved gui.shared shared number attempt statement rest left)
      (same : after = { gui with shared := shared })
  | fails (number : Nat) (attempt : Attempt)
      (found : gui.shared.attempts[number]? = some attempt)
      (whole : attempt.rest = connectToServer)
      (same : after = { gui with shared := gui.shared.advance number attempt [] })
  | answers (number : Nat) (code : StatusCode) (serving : gui.serving number)
      (same : after = gui.answer number code)
  | refused (front : Code) (rest : List Code) (handled : action = .changeWindow)
      (waiting : gui.posted = front :: rest) (refusal : accepts front.code = false)
      (same : after = { gui with
        posted := rest, loginWidget := gui.loginWidget.handlerInputCode front.code })
  | accepted (front : Code) (rest : List Code) (handled : action = .changeWindow)
      (waiting : gui.posted = front :: rest) (acceptance : accepts front.code = true)
      (same : after = { gui with posted := rest, loginVisible := false, mainVisible := true })
  | uses (target : Nat) (call : WindowCall) (visible : gui.mainVisible = true)
      (stored : gui.shared.client = some target)
      (same : after = { gui with used := gui.used ++ [(target, call)] })

theorem handler_input_code_page (widget : LoginWidget) (code : StatusCode) :
    (widget.handlerInputCode code).page = widget.page := by
  cases code <;> rfl

theorem push_autorisation_change (taken : step gui .pushAutorisation = some after) :
    Change gui .pushAutorisation after := by
  simp only [step, push] at taken
  split_ifs at taken with shown
  rcases shown with ⟨visible, page⟩
  by_cases empty : gui.loginWidget.text .logon = [] ∨ gui.loginWidget.text .password = []
  · have slot : gui.loginWidget.onPushAutorisationClicked =
        (gui.loginWidget.information "error".toList "enter correct information".toList, none) := by
      simp only [LoginWidget.onPushAutorisationClicked, if_pos empty]
    rw [slot] at taken
    exact .form (gui.loginWidget.information _ _) visible (fun same => same)
      (Option.some.inj taken).symm
  · have slot : gui.loginWidget.onPushAutorisationClicked =
        ((gui.loginWidget.clear .logon).clear .password,
          some (.autorisation (gui.loginWidget.text .logon) (gui.loginWidget.text .password))) := by
      simp only [LoginWidget.onPushAutorisationClicked, if_neg empty]
    rw [slot] at taken
    have started : starts gui .pushAutorisation = true := by rw [starts, slot]; rfl
    have begun : Begun gui ((gui.loginWidget.clear .logon).clear .password)
        ⟨gui.loginWidget.text .logon, gui.loginWidget.text .password, .authorisationRequest,
          connectToServer⟩ := by
      refine ⟨rfl, not_or.mp empty, rfl, ?_⟩
      simp [page]
    exact .begins _ _ started visible begun (Option.some.inj taken).symm

theorem push_reg_main_change (taken : step gui .pushRegMain = some after) :
    Change gui .pushRegMain after := by
  simp only [step, push] at taken
  split_ifs at taken with shown
  rcases shown with ⟨visible, page⟩
  by_cases wrong : gui.loginWidget.text .regLogon = [] ∨ gui.loginWidget.text .regPsw = [] ∨
      gui.loginWidget.text .regPsw ≠ gui.loginWidget.text .regPswRetry
  · have slot : gui.loginWidget.onPushRegMainClicked =
        (gui.loginWidget.information "error".toList "enter correct information".toList, none) := by
      simp only [LoginWidget.onPushRegMainClicked, if_pos wrong]
    rw [slot] at taken
    exact .form (gui.loginWidget.information _ _) visible (fun same => same)
      (Option.some.inj taken).symm
  · have slot : gui.loginWidget.onPushRegMainClicked =
        (((gui.loginWidget.clear .regLogon).clear .regPsw).clear .regPswRetry,
          some (.registration (gui.loginWidget.text .regLogon)
            (gui.loginWidget.text .regPsw))) := by
      simp only [LoginWidget.onPushRegMainClicked, if_neg wrong]
    rw [slot] at taken
    have started : starts gui .pushRegMain = true := by rw [starts, slot]; rfl
    have begun : Begun gui (((gui.loginWidget.clear .regLogon).clear .regPsw).clear .regPswRetry)
        ⟨gui.loginWidget.text .regLogon, gui.loginWidget.text .regPsw, .registrationRequest,
          connectToServer⟩ := by
      simp only [not_or] at wrong
      refine ⟨rfl, ⟨wrong.1, wrong.2.1⟩, rfl, ?_⟩
      simp [page]
    exact .begins _ _ started visible begun (Option.some.inj taken).symm

theorem step_change (taken : step gui action = some after) : Change gui action after := by
  cases action with
  | type edit text =>
      simp only [step] at taken
      split_ifs at taken with shown
      exact .form (gui.loginWidget.setText edit text) shown.1 (fun same => same)
        (Option.some.inj taken).symm
  | pushAutorisation => exact push_autorisation_change taken
  | pushRegistration =>
      simp only [step, push] at taken
      split_ifs at taken with shown
      exact .form _ shown.1 (fun _ => rfl) (Option.some.inj taken).symm
  | pushRegMain => exact push_reg_main_change taken
  | next number =>
      rcases Option.map_eq_some_iff.mp taken with ⟨shared, moved, same⟩
      rcases next_moved moved with ⟨attempt, statement, rest, left, change⟩
      exact .moves number shared attempt statement rest left change same.symm
  | resolveFails number =>
      simp only [step, Gui.resolveFails] at taken
      cases found : gui.shared.attempts[number]? with
      | none => simp [found] at taken
      | some attempt =>
          simp only [found] at taken
          split_ifs at taken with whole
          exact .fails number attempt found whole (Option.some.inj taken).symm
  | answer number code =>
      simp only [step] at taken
      split_ifs at taken with serving
      exact .answers number code serving (Option.some.inj taken).symm
  | changeWindow =>
      simp only [step] at taken
      cases waiting : gui.posted with
      | nil => simp [waiting] at taken
      | cons front rest =>
          simp only [waiting, Option.some.injEq] at taken
          subst taken
          rcases front with ⟨attempt, code⟩
          cases code with
          | busyRegistr => exact .refused _ rest rfl waiting rfl rfl
          | incorrectAutor => exact .refused _ rest rfl waiting rfl rfl
          | autorOK => exact .accepted _ rest rfl waiting rfl rfl
          | registrOK => exact .accepted _ rest rfl waiting rfl rfl
  | window call =>
      simp only [step] at taken
      split_ifs at taken with visible
      rcases Option.map_eq_some_iff.mp taken with ⟨target, stored, same⟩
      exact .uses target call visible stored same.symm

/-- `client` is not null while the main window is shown, both fields of every
attempt are filled, and no sign-in follows a registration: nothing leads back
from the page of the registration. -/
structure WellKept (gui : Gui) : Prop where
  oneWindow : gui.mainVisible = !gui.loginVisible
  client : gui.mainVisible = true → ∃ target, gui.shared.client = some target
  filled : ∀ attempt ∈ gui.shared.attempts, attempt.login ≠ [] ∧ attempt.password ≠ []
  noWayBack : (gui.shared.attempts.map Attempt.command).Pairwise fun earlier later =>
    earlier = .registrationRequest → later = .registrationRequest

def entered (attempt : Attempt) : StdString × StdString × TypeCommand :=
  (attempt.login, attempt.password, attempt.command)

theorem set_entered {attempts : List Attempt} {number : Nat} {attempt : Attempt}
    (found : attempts[number]? = some attempt) (left : List Statement) :
    (attempts.set number { attempt with rest := left }).map entered =
      attempts.map entered := by
  apply List.ext_getElem?
  intro other
  rw [List.getElem?_map, List.getElem?_map]
  by_cases same : number = other
  · subst same
    have inside : number < attempts.length := (List.getElem?_eq_some_iff.mp found).1
    rw [List.getElem?_set_self inside, found]
    rfl
  · rw [List.getElem?_set_ne same]

structure Kept (gui : Gui) : Prop extends WellKept gui where
  called : gui.shared.calls ≠ [] → ∃ target, gui.shared.client = some target
  waiting : gui.posted ≠ [] → ∃ target, gui.shared.client = some target
  registered : ∀ attempt ∈ gui.shared.attempts, attempt.command = .registrationRequest →
    gui.loginWidget.page = .reg

theorem start_kept : Kept Gui.start where
  oneWindow := rfl
  client visible := absurd visible (by decide)
  filled attempt member := absurd member (by simp [Gui.start, Shared.start])
  noWayBack := List.Pairwise.nil
  called made := absurd rfl made
  waiting posted := absurd rfl posted
  registered attempt member := absurd member (by simp [Gui.start, Shared.start])

theorem kept_of_same_entered {shared : Shared} (kept : Kept gui)
    (form : shared.attempts.map entered = gui.shared.attempts.map entered)
    (client : (∃ target, gui.shared.client = some target) → ∃ target, shared.client = some target)
    (called : shared.calls ≠ [] → ∃ target, shared.client = some target) :
    Kept { gui with shared := shared } := by
  have found : ∀ attempt ∈ shared.attempts, ∃ earlier ∈ gui.shared.attempts,
      entered earlier = entered attempt := by
    intro attempt member
    have mapped : entered attempt ∈ shared.attempts.map entered := List.mem_map_of_mem member
    rw [form] at mapped
    exact List.mem_map.mp mapped
  have commands := congrArg (List.map fun form => form.2.2) form
  rw [List.map_map, List.map_map] at commands
  have allFilled : ∀ attempt ∈ shared.attempts, attempt.login ≠ [] ∧ attempt.password ≠ [] := by
    intro attempt member
    rcases found attempt member with ⟨earlier, held, same⟩
    rcases Prod.mk.inj same with ⟨login, others⟩
    rw [← login, ← (Prod.mk.inj others).1]
    exact kept.filled earlier held
  refine ⟨⟨kept.oneWindow, fun visible => client (kept.client visible), allFilled, ?_⟩, called,
    fun posted => client (kept.waiting posted), ?_⟩
  · have order := kept.noWayBack
    exact commands ▸ order
  · intro attempt member registration
    rcases found attempt member with ⟨earlier, held, same⟩
    have command := (Prod.mk.inj (Prod.mk.inj same).2).2
    exact kept.registered earlier held (command.trans registration)

theorem begins_kept {widget : LoginWidget} {attempt : Attempt} (kept : Kept gui)
    (begun : Begun gui widget attempt) :
    Kept { gui with
      shared := { gui.shared with attempts := gui.shared.attempts ++ [attempt] }
      loginWidget := widget } := by
  refine ⟨⟨kept.oneWindow, kept.client, ?_, ?_⟩, kept.called, kept.waiting, ?_⟩
  · intro other member
    rcases List.mem_append.mp member with earlier | new
    · exact kept.filled other earlier
    · rw [List.mem_singleton.mp new]
      exact begun.filled
  · rw [List.map_append]
    apply List.pairwise_append.mpr
    refine ⟨kept.noWayBack, List.pairwise_singleton _ _, ?_⟩
    intro earlier member later new registration
    rcases List.mem_map.mp member with ⟨other, held, rfl⟩
    rw [List.mem_singleton.mp new]
    exact begun.command.mpr (kept.registered other held registration)
  · intro other member registration
    apply begun.page.trans
    rcases List.mem_append.mp member with earlier | new
    · exact kept.registered other earlier registration
    · rw [List.mem_singleton.mp new] at registration
      exact begun.command.mp registration

theorem step_kept (kept : Kept gui) (taken : step gui action = some after) : Kept after := by
  cases step_change taken with
  | form widget visible page same =>
      subst same
      exact ⟨⟨kept.oneWindow, kept.client, kept.filled, kept.noWayBack⟩, kept.called, kept.waiting,
        fun attempt member registration => page (kept.registered attempt member registration)⟩
  | begins widget attempt started visible begun same =>
      subst same
      exact begins_kept kept begun
  | moves number shared attempt statement rest left moved same =>
      subst same
      have form := set_entered moved.found left
      rw [← moved.attempts] at form
      have client : (∃ target, gui.shared.client = some target) →
          ∃ target, shared.client = some target := by
        intro stored
        rw [moved.client]
        split_ifs
        · exact ⟨number, rfl⟩
        · exact stored
      apply kept_of_same_entered kept form client
      intro made
      rcases moved.calls with unchanged | stored
      · exact client (kept.called (unchanged ▸ made))
      · exact client stored
  | fails number attempt found whole same =>
      subst same
      exact kept_of_same_entered kept (set_entered found []) (fun stored => stored) kept.called
  | answers number code serving same =>
      subst same
      refine ⟨⟨kept.oneWindow, kept.client, kept.filled, kept.noWayBack⟩, kept.called, ?_,
        kept.registered⟩
      intro posted
      by_cases connected : gui.connections number = 0
      · apply kept.waiting
        simpa [Gui.answer, connected] using posted
      · apply kept.called
        intro nothing
        exact connected (by simp [Gui.connections, nothing])
  | refused front rest handled waiting refusal same =>
      subst same
      have stored := kept.waiting (by simp [waiting])
      exact ⟨⟨kept.oneWindow, kept.client, kept.filled, kept.noWayBack⟩, kept.called,
        fun _ => stored, fun attempt member registration =>
          (handler_input_code_page _ _).trans (kept.registered attempt member registration)⟩
  | accepted front rest handled waiting acceptance same =>
      subst same
      have stored := kept.waiting (by simp [waiting])
      exact ⟨⟨rfl, fun _ => stored, kept.filled, kept.noWayBack⟩, kept.called,
        fun _ => stored, kept.registered⟩
  | uses target call visible stored same =>
      subst same
      exact ⟨⟨kept.oneWindow, kept.client, kept.filled, kept.noWayBack⟩, kept.called,
        kept.waiting, kept.registered⟩

def Accepting (gui : Gui) (action : GuiAction) : Prop :=
  action = .changeWindow ∧ ∃ front ∈ gui.posted.head?, accepts front.code = true

theorem shown_by_acceptance (taken : step gui action = some after) :
    after.mainVisible = true ↔ Accepting gui action ∨ gui.mainVisible = true := by
  by_cases handled : action = .changeWindow
  · subst handled
    cases waiting : gui.posted with
    | nil => simp [step, waiting] at taken
    | cons front rest =>
        simp only [step, waiting, Option.some.injEq] at taken
        subst taken
        rcases front with ⟨attempt, code⟩
        cases code <;> simp [Gui.changeWindow, Accepting, accepts, waiting]
  · have other : ¬ Accepting gui action := fun accepting => handled accepting.1
    have same : after.mainVisible = gui.mainVisible := by
      cases step_change taken with
      | form widget visible page same => rw [same]
      | begins widget attempt started visible begun same => rw [same]
      | moves number shared attempt statement rest left moved same => rw [same]
      | fails number attempt found whole same => rw [same]
      | answers number code serving same => rw [same, Gui.answer]
      | refused front rest changes => exact absurd changes handled
      | accepted front rest changes => exact absurd changes handled
      | uses target call visible stored same => rw [same]
    simp [same, other]

/-- Whatever the user does, however many attempts run and in whatever order
their threads take turns: one window is shown at a time, the main window from
the first acceptance on, and its slots never meet a null client. -/
theorem windows_well_kept {actions : List GuiAction} {reached : Gui}
    (ran : run step Gui.start actions = some reached) :
    WellKept reached ∧
      (reached.mainVisible = true ↔ Happened step Accepting Gui.start actions) := by
  constructor
  · have kept := run_invariant step start_kept (fun _ _ _ held taken => step_kept held taken) ran
    exact kept.toWellKept
  · have hidden : ¬ Gui.start.mainVisible = true := by decide
    have changes (before : Gui) (action : GuiAction) (after : Gui)
        (taken : step before action = some after) := shown_by_acceptance taken
    exact @raised_iff_happened _ _ step Accepting (fun gui => gui.mainVisible = true) _ hidden
      changes _ _ ran

def statements (number count : Nat) : List GuiAction := List.replicate count (.next number)

def signIn (login password : StdString) : List GuiAction :=
  [.type .logon login, .type .password password, .pushAutorisation]

def registerAs (login password : StdString) : List GuiAction :=
  [.pushRegistration, .type .regLogon login, .type .regPsw password,
    .type .regPswRetry password, .pushRegMain]

def refusedThenRegistered : List GuiAction :=
  signIn "ann".toList "x".toList ++ statements 0 10 ++ [.answer 0 .incorrectAutor] ++
    statements 0 3 ++ [.changeWindow] ++ registerAs "ann".toList "y".toList ++ statements 1 10 ++
    [.answer 1 .registrOK, .changeWindow, .window (.joinChannel "room".toList)]

theorem windows_well_kept_sample : ∃ reached,
    run step Gui.start refusedThenRegistered = some reached ∧ WellKept reached ∧
      (reached.mainVisible = true ↔ Happened step Accepting Gui.start refusedThenRegistered) := by
  have finishes : (run step Gui.start refusedThenRegistered).isSome = true := by decide
  rcases Option.isSome_iff_exists.mp finishes with ⟨reached, ran⟩
  exact ⟨reached, ran, windows_well_kept ran⟩

/-- What the main window sends goes to clients that the server has accepted. -/
def Served (gui : Gui) : Prop := ∀ use ∈ gui.used, use.1 ∈ gui.accepted

/-- The threads of all attempts have ended and their answers have been handled. -/
def Idle (gui : Gui) : Prop :=
  (∀ attempt ∈ gui.shared.attempts, attempt.rest = []) ∧ gui.posted = []

def OneAtATime (gui : Gui) (action : GuiAction) : Prop := starts gui action = true → Idle gui

instance (gui : Gui) (action : GuiAction) : Decidable (OneAtATime gui action) :=
  inferInstanceAs (Decidable (starts gui action = true →
    (∀ attempt ∈ gui.shared.attempts, attempt.rest = []) ∧ gui.posted = []))

structure Current (shared : Shared) (number : Nat) : Prop where
  last : number + 1 = shared.attempts.length
  client : shared.client = some number
  past : ∀ attempt : Attempt, shared.attempts[number]? = some attempt →
    attempt.rest ≠ connectToServer

/-- Only the last attempt may still be running. -/
structure Single (shared : Shared) : Prop where
  part : ∀ (number : Nat) (attempt : Attempt), shared.attempts[number]? = some attempt →
    attempt.rest <:+ connectToServer
  older : ∀ (number : Nat) (attempt : Attempt), shared.attempts[number]? = some attempt →
    attempt.rest ≠ [] → number + 1 = shared.attempts.length
  stored : ∀ (number : Nat) (attempt : Attempt), shared.attempts[number]? = some attempt →
    attempt.rest ≠ [] → attempt.rest ≠ connectToServer → shared.client = some number

structure Alone (gui : Gui) : Prop where
  oneWindow : gui.mainVisible = !gui.loginVisible
  single : Single gui.shared
  posted : ∀ code ∈ gui.posted, Current gui.shared code.attempt ∧
    (accepts code.code = true → code.attempt ∈ gui.accepted)
  shown : gui.mainVisible = true → ∃ number ∈ gui.accepted, Current gui.shared number
  served : Served gui

theorem make_client_first {statement : Statement} {rest : List Statement}
    (part : statement :: rest <:+ connectToServer) (make : statement = .makeClient) :
    statement :: rest = connectToServer := by
  have all : ∀ part ∈ connectToServer.tails, part.head? = some .makeClient →
      part = connectToServer := by
    decide
  apply all _ ((List.mem_tails _ _).mpr part)
  rw [List.head?_cons, make]

theorem start_alone : Alone Gui.start where
  oneWindow := rfl
  single := by
    constructor <;> simp [Gui.start, Shared.start]
  posted code member := absurd member (by simp [Gui.start])
  shown visible := absurd visible (by decide)
  served use member := absurd member (by simp [Gui.start])

theorem begin_single {shared : Shared} {attempt : Attempt}
    (idle : ∀ earlier ∈ shared.attempts, earlier.rest = [])
    (whole : attempt.rest = connectToServer) :
    Single { shared with attempts := shared.attempts ++ [attempt] } := by
  have found {number : Nat} {other : Attempt}
      (held : (shared.attempts ++ [attempt])[number]? = some other) (running : other.rest ≠ []) :
      number = shared.attempts.length ∧ other = attempt := by
    rw [List.getElem?_append] at held
    split_ifs at held with inside
    · exact absurd (idle other (List.mem_of_getElem? held)) running
    · rw [List.getElem?_singleton] at held
      split_ifs at held with first
      exact ⟨by omega, (Option.some.inj held).symm⟩
  constructor
  · intro number other held
    by_cases running : other.rest = []
    · rw [running]
      exact List.nil_suffix
    · rw [(found held running).2, whole]
  · intro number other held running
    rw [(found held running).1, List.length_append]
    rfl
  · intro number other held running past
    rw [(found held running).2] at past
    exact absurd whole past

section Moves

variable {before after : Shared} {number : Nat} {attempt : Attempt} {statement : Statement}
  {rest left : List Statement}

theorem moved_shorter (moved : Moved before after number attempt statement rest left) :
    left <:+ rest := by
  rcases moved.shorter with same | ended
  · rw [same]
  · rw [ended]
    exact List.nil_suffix

theorem moved_found (moved : Moved before after number attempt statement rest left) {other : Nat}
    {later : Attempt} (held : after.attempts[other]? = some later) :
    (other = number ∧ later.rest = left) ∨
      (other ≠ number ∧ before.attempts[other]? = some later) := by
  rw [moved.attempts] at held
  by_cases same : number = other
  · subst same
    have inside := (List.getElem?_eq_some_iff.mp moved.found).1
    rw [List.getElem?_set_self inside, Option.some.injEq] at held
    rw [← held]
    exact Or.inl ⟨rfl, rfl⟩
  · rw [List.getElem?_set_ne same] at held
    exact Or.inr ⟨Ne.symm same, held⟩

theorem moved_length (moved : Moved before after number attempt statement rest left) :
    after.attempts.length = before.attempts.length := by
  rw [moved.attempts, List.length_set]

theorem moved_last (single : Single before)
    (moved : Moved before after number attempt statement rest left) :
    number + 1 = before.attempts.length :=
  single.older number attempt moved.found (by simp [moved.front])

theorem moved_client (single : Single before)
    (moved : Moved before after number attempt statement rest left)
    (past : attempt.rest ≠ connectToServer) : after.client = before.client := by
  have other : statement ≠ .makeClient := by
    intro make
    have part := single.part number attempt moved.found
    rw [moved.front] at part past
    exact past (make_client_first part make)
  rw [moved.client, if_neg other]

theorem moved_single (single : Single before)
    (moved : Moved before after number attempt statement rest left) : Single after := by
  have part := single.part number attempt moved.found
  have shorter := moved_shorter moved
  have last := moved_last single moved
  rw [moved.front] at part
  constructor
  · intro other later held
    rcases moved_found moved held with ⟨-, now⟩ | ⟨-, earlier⟩
    · rw [now]
      exact shorter.trans ((List.suffix_cons _ _).trans part)
    · exact single.part other later earlier
  · intro other later held running
    rw [moved_length moved]
    rcases moved_found moved held with ⟨rfl, -⟩ | ⟨-, earlier⟩
    · exact last
    · exact single.older other later earlier running
  · intro other later held running past
    rcases moved_found moved held with ⟨rfl, -⟩ | ⟨different, earlier⟩
    · by_cases first : attempt.rest = connectToServer
      · have make : statement = .makeClient := by
          have heads := congrArg List.head? (moved.front.symm.trans first)
          exact Option.some.inj heads
        rw [moved.client, if_pos make]
      · rw [moved_client single moved first]
        exact single.stored other attempt moved.found (by simp [moved.front]) first
    · have alsoLast := single.older other later earlier running
      omega

theorem moved_current (single : Single before)
    (moved : Moved before after number attempt statement rest left) {current : Nat}
    (holds : Current before current) : Current after current := by
  have last := moved_last single moved
  have same : current = number := by
    have alsoLast := holds.last
    omega
  subst same
  have past := holds.past attempt moved.found
  refine ⟨(moved_length moved).symm ▸ holds.last, ?_, ?_⟩
  · rw [moved_client single moved past]
    exact holds.client
  · intro later held whole
    rcases moved_found moved held with ⟨-, now⟩ | ⟨different, -⟩
    · have part := single.part current attempt moved.found
      rw [moved.front] at part
      have long := part.length_le
      have short := (moved_shorter moved).length_le
      rw [← now, whole] at short
      simp only [List.length_cons] at long
      omega
    · exact absurd rfl different

end Moves

theorem failed_not_current {shared : Shared} {number current : Nat} {attempt : Attempt}
    (single : Single shared) (found : shared.attempts[number]? = some attempt)
    (whole : attempt.rest = connectToServer) : ¬ Current shared current := by
  intro holds
  have last := single.older number attempt found (by rw [whole]; decide)
  have alsoLast := holds.last
  obtain rfl : current = number := by omega
  exact holds.past attempt found whole

theorem failed_single {shared : Shared} {number : Nat} {attempt : Attempt}
    (single : Single shared) (found : shared.attempts[number]? = some attempt) :
    Single (shared.advance number attempt []) := by
  have kept {other : Nat} {later : Attempt}
      (held : (shared.advance number attempt []).attempts[other]? = some later)
      (running : later.rest ≠ []) : shared.attempts[other]? = some later := by
    by_cases same : number = other
    · subst same
      have inside := (List.getElem?_eq_some_iff.mp found).1
      rw [Shared.advance, List.getElem?_set_self inside, Option.some.injEq] at held
      rw [← held] at running
      exact absurd rfl running
    · rwa [Shared.advance, List.getElem?_set_ne same] at held
  have length : (shared.advance number attempt []).attempts.length = shared.attempts.length :=
    List.length_set
  constructor
  · intro other later held
    by_cases running : later.rest = []
    · rw [running]
      exact List.nil_suffix
    · exact single.part other later (kept held running)
  · intro other later held running
    rw [length]
    exact single.older other later (kept held running) running
  · intro other later held running past
    exact single.stored other later (kept held running) running past

theorem serving_current {number : Nat} (single : Single gui.shared)
    (serving : gui.serving number) : Current gui.shared number := by
  rcases serving with ⟨attempt, found, head⟩
  have running : attempt.rest ≠ [] := by
    intro ended
    simp [ended] at head
  have past : attempt.rest ≠ connectToServer := by
    intro whole
    rw [whole] at head
    exact absurd head (by decide)
  refine ⟨single.older number attempt found running,
    single.stored number attempt found running past, ?_⟩
  intro other held
  rw [found, Option.some.injEq] at held
  exact held ▸ past

theorem answer_alone {number : Nat} {code : StatusCode} (alone : Alone gui)
    (serving : gui.serving number) : Alone (gui.answer number code) := by
  have grown : gui.accepted ⊆ (gui.answer number code).accepted := by
    intro accepted member
    simp only [Gui.answer]
    split_ifs
    · exact List.mem_append_left _ member
    · exact member
  refine ⟨alone.oneWindow, alone.single, ?_, ?_, fun use member => grown (alone.served use member)⟩
  · intro waiting member
    rcases List.mem_append.mp member with earlier | new
    · have posted := alone.posted waiting earlier
      exact ⟨posted.1, fun acceptance => grown (posted.2 acceptance)⟩
    · rw [List.eq_of_mem_replicate new]
      refine ⟨serving_current alone.single serving, ?_⟩
      intro acceptance
      simp only at acceptance
      simp [Gui.answer, acceptance]
  · intro shown
    rcases alone.shown shown with ⟨current, accepted, holds⟩
    exact ⟨current, grown accepted, holds⟩

theorem step_alone (alone : Alone gui) (guarded : OneAtATime gui action)
    (taken : step gui action = some after) : Alone after := by
  cases step_change taken with
  | form widget visible page same =>
      subst same
      exact ⟨alone.oneWindow, alone.single, alone.posted, alone.shown, alone.served⟩
  | begins widget attempt started visible begun same =>
      subst same
      have idle := guarded started
      have hidden : gui.mainVisible = false := by rw [alone.oneWindow, visible]; rfl
      refine ⟨alone.oneWindow, begin_single idle.1 begun.whole, ?_, ?_, alone.served⟩
      · intro code member
        rw [show gui.posted = [] from idle.2] at member
        cases member
      · intro shown
        exact absurd (shown.symm.trans hidden) (by decide)
  | moves number shared attempt statement rest left moved same =>
      subst same
      have single := alone.single
      refine ⟨alone.oneWindow, moved_single single moved, ?_, ?_, alone.served⟩
      · intro code member
        have posted := alone.posted code member
        exact ⟨moved_current single moved posted.1, posted.2⟩
      · intro shown
        rcases alone.shown shown with ⟨current, accepted, holds⟩
        exact ⟨current, accepted, moved_current single moved holds⟩
  | fails number attempt found whole same =>
      subst same
      have single := alone.single
      refine ⟨alone.oneWindow, failed_single single found, ?_, ?_, alone.served⟩
      · intro code member
        exact absurd (alone.posted code member).1 (failed_not_current single found whole)
      · intro shown
        rcases alone.shown shown with ⟨current, -, holds⟩
        exact absurd holds (failed_not_current single found whole)
  | answers number code serving same =>
      subst same
      exact answer_alone alone serving
  | refused front rest handled waiting refusal same =>
      subst same
      refine ⟨alone.oneWindow, alone.single, ?_, alone.shown, alone.served⟩
      intro code member
      exact alone.posted code (waiting ▸ List.mem_cons_of_mem _ member)
  | accepted front rest handled waiting acceptance same =>
      subst same
      have posted := alone.posted front (by simp [waiting])
      refine ⟨rfl, alone.single, ?_, fun _ => ⟨front.attempt, posted.2 acceptance, posted.1⟩,
        alone.served⟩
      intro code member
      exact alone.posted code (waiting ▸ List.mem_cons_of_mem _ member)
  | uses target call visible stored same =>
      subst same
      refine ⟨alone.oneWindow, alone.single, alone.posted, alone.shown, ?_⟩
      intro use member
      rcases List.mem_append.mp member with earlier | new
      · exact alone.served use earlier
      · rcases alone.shown visible with ⟨current, accepted, holds⟩
        have same := Option.some.inj (stored.symm.trans holds.client)
        rw [List.mem_singleton.mp new, same]
        exact accepted

/-- In every run in which no attempt is started while another one is running or
its answer is waiting, what the main window sends goes to an accepted client. -/
theorem served_when_one_at_a_time {actions : List GuiAction}
    (one : EveryStep step OneAtATime Gui.start actions) :
    EveryState step Served Gui.start actions := by
  have alone := guarded_invariant step start_alone
    (fun _ _ _ held guarded taken => step_alone held guarded taken) one
  exact every_state_mono step (fun _ held => held.served) alone

theorem served_when_one_at_a_time_sample :
    EveryState step Served Gui.start refusedThenRegistered :=
  served_when_one_at_a_time (every_step_of_steps_meet step (by decide))

/-- The second sign-in is clicked while the first one waits for its answer. -/
def twoSignIns : List GuiAction :=
  signIn "ann".toList "x".toList ++ statements 0 10 ++ signIn "bob".toList "y".toList ++
    [.answer 0 .autorOK, .changeWindow] ++ statements 1 1 ++
    [.window (.joinChannel "room".toList)]

theorem two_sign_ins_misroute : ¬ EveryState step Served Gui.start twoSignIns := by
  intro served
  have fields : (run step Gui.start twoSignIns).map (fun gui => (gui.used, gui.accepted)) =
      some ([(1, .joinChannel "room".toList)], [0]) := by
    decide
  rcases last_state step served fields with ⟨reached, values, all⟩
  rcases Prod.mk.inj values with ⟨used, accepted⟩
  have target := all (1, .joinChannel "room".toList) (by rw [used]; exact List.mem_singleton_self _)
  rw [accepted] at target
  exact absurd target (by decide)

end AppchatClient.Control.Windows
