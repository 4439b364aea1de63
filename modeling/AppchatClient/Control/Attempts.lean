import AppchatClient.Protocol
import AppchatClient.Lib.Runs

/-!
# Login attempts

`Control::autorisation` and `Control::registration` start a thread each, and
every such thread runs `connect_to_server`. The new `Client` is kept in the
member `client` only, which all attempts share and read again for each call.
-/

namespace AppchatClient.Control.Attempts

open AppchatClient.Protocol AppchatClient.Lib.Runs

set_option autoImplicit false

/-- The signals of `Client` that `connect_to_server` connects. -/
inductive ConnectedSignal where
  | sendText
  | sendInputCode
  | channelsReceived
  | historyReceived
  | joined
deriving DecidableEq, Repr

inductive Statement where
  | makeClient
  | connectSignal (signal : ConnectedSignal)
  | setClient
  | doConnect
  | setLogin
  | setWindowLogin
  | runIoService
  | testClient
  | closeConnection
deriving DecidableEq, Repr

/-- `connect_to_server` from the assignment to `client` on. -/
def connectToServer : List Statement :=
  [.makeClient,
    .connectSignal .sendText, .connectSignal .sendInputCode, .connectSignal .channelsReceived,
    .connectSignal .historyReceived, .connectSignal .joined,
    .setClient, .doConnect, .setLogin, .setWindowLogin,
    .runIoService, .testClient, .closeConnection]

/-- One run of `connect_to_server`; `rest` is what it has still to execute. -/
structure Attempt where
  login : StdString
  password : StdString
  command : TypeCommand
  rest : List Statement
deriving DecidableEq

def Attempt.binBuffer (attempt : Attempt) : Option Request :=
  match attempt.command with
  | .registrationRequest => some (.registration attempt.login attempt.password)
  | .authorisationRequest => some (.authorisation attempt.login attempt.password)
  | _ => none

inductive ClientCall where
  | connectSignal (signal : ConnectedSignal)
  | setClient
  | doConnect (binBuffer : Option Request)
  | setLogin (login : StdString)
  | closeConnection
deriving DecidableEq

structure Call where
  attempt : Nat
  target : Nat
  call : ClientCall
deriving DecidableEq

/-- `client` names the attempt that made the stored `Client`. `assigned` lists
the attempts in the order of their assignments, and `calls` the uses. -/
structure Shared where
  client : Option Nat
  windowLogin : StdString
  attempts : List Attempt
  assigned : List Nat
  calls : List Call
deriving DecidableEq

namespace Shared

def callClient (shared : Shared) (attempt : Nat) (call : ClientCall) : Option Shared :=
  shared.client.map fun target =>
    { shared with calls := shared.calls ++ [⟨attempt, target, call⟩] }

def advance (shared : Shared) (number : Nat) (attempt : Attempt) (rest : List Statement) :
    Shared :=
  { shared with attempts := shared.attempts.set number { attempt with rest := rest } }

/-- `runIoService` returns when the attempt's own io service has no work left,
which may be at any time after the statements before it. -/
def execute (shared : Shared) (number : Nat) (attempt : Attempt) : Statement → Option Shared
  | .makeClient =>
      some { shared with client := some number, assigned := shared.assigned ++ [number] }
  | .connectSignal signal => shared.callClient number (.connectSignal signal)
  | .setClient => shared.callClient number .setClient
  | .doConnect => shared.callClient number (.doConnect attempt.binBuffer)
  | .setLogin => shared.callClient number (.setLogin attempt.login)
  | .setWindowLogin => some { shared with windowLogin := attempt.login }
  | .runIoService => some shared
  | .testClient => some (if shared.client.isSome then shared else shared.advance number attempt [])
  | .closeConnection => shared.callClient number .closeConnection

def start : Shared where
  client := none
  windowLogin := []
  attempts := []
  assigned := []
  calls := []

end Shared

inductive AttemptAction where
  | autorisation (login password : StdString)
  | registration (login password : StdString)
  | next (number : Nat)
deriving DecidableEq

def step (shared : Shared) : AttemptAction → Option Shared
  | .autorisation login password =>
      some { shared with
        attempts := shared.attempts ++ [⟨login, password, .authorisationRequest, connectToServer⟩] }
  | .registration login password =>
      some { shared with
        attempts := shared.attempts ++ [⟨login, password, .registrationRequest, connectToServer⟩] }
  | .next number =>
      match shared.attempts[number]? with
      | some attempt =>
          match attempt.rest with
          | statement :: rest =>
              (shared.advance number attempt rest).execute number attempt statement
          | [] => none
      | none => none

/-- The login request, the login and the closing reach the attempt's own client. -/
def OwnCall (shared : Shared) (call : Call) : Prop :=
  match call.call with
  | .doConnect binBuffer => call.target = call.attempt ∧
      (shared.attempts[call.attempt]?).map Attempt.binBuffer = some binBuffer
  | .setLogin login => call.target = call.attempt ∧
      (shared.attempts[call.attempt]?).map Attempt.login = some login
  | .closeConnection => call.target = call.attempt
  | _ => True

def Undisturbed (shared : Shared) : Prop := ∀ call ∈ shared.calls, OwnCall shared call

def isOwnCall : Statement → Bool
  | .doConnect => true
  | .setLogin => true
  | .closeConnection => true
  | _ => false

/-- An attempt makes these calls while the last assignment to `client` is its own. -/
def NotOvertaken (shared : Shared) : AttemptAction → Prop
  | .next number => ∀ attempt ∈ shared.attempts[number]?, ∀ statement ∈ attempt.rest.head?,
      isOwnCall statement = true → shared.assigned.getLast? = some number
  | _ => True

instance (shared : Shared) (action : AttemptAction) : Decidable (NotOvertaken shared action) :=
  match action with
  | .next number =>
      inferInstanceAs (Decidable (∀ attempt ∈ shared.attempts[number]?,
        ∀ statement ∈ attempt.rest.head?,
          isOwnCall statement = true → shared.assigned.getLast? = some number))
  | .autorisation _ _ => isTrue trivial
  | .registration _ _ => isTrue trivial

variable {before after : Shared} {number : Nat} {attempt : Attempt}

theorem next_some (taken : step before (.next number) = some after) :
    ∃ attempt statement rest, before.attempts[number]? = some attempt ∧
      attempt.rest = statement :: rest ∧
      (before.advance number attempt rest).execute number attempt statement = some after := by
  simp only [step] at taken
  split at taken
  · rename_i attempt found
    split at taken
    · rename_i statement rest waiting
      exact ⟨attempt, statement, rest, found, waiting, taken⟩
    · cases taken
  · cases taken

theorem call_client_some {shared : Shared} {call : ClientCall}
    (called : shared.callClient number call = some after) :
    ∃ target, shared.client = some target ∧
      after = { shared with calls := shared.calls ++ [⟨number, target, call⟩] } := by
  rcases Option.map_eq_some_iff.mp called with ⟨target, found, same⟩
  exact ⟨target, found, same.symm⟩

def Attempt.credentials (attempt : Attempt) : StdString × Option Request :=
  (attempt.login, attempt.binBuffer)

def SameAttempts (before after : Shared) : Prop :=
  after.attempts.length = before.attempts.length ∧
    ∀ other : Nat, (after.attempts[other]?).map Attempt.credentials =
      (before.attempts[other]?).map Attempt.credentials

theorem advance_attempts (found : before.attempts[number]? = some attempt)
    (rest : List Statement) : SameAttempts before (before.advance number attempt rest) := by
  constructor
  · exact List.length_set
  · intro other
    by_cases same : number = other
    · subst same
      have inside : number < before.attempts.length := (List.getElem?_eq_some_iff.mp found).1
      rw [Shared.advance, List.getElem?_set_self inside, found]
      rfl
    · simp [Shared.advance, List.getElem?_set_ne same]

theorem own_call_same {call : Call}
    (same : (after.attempts[call.attempt]?).map Attempt.credentials =
      (before.attempts[call.attempt]?).map Attempt.credentials) :
    OwnCall after call ↔ OwnCall before call := by
  have login := congrArg (Option.map Prod.fst) same
  have buffer := congrArg (Option.map Prod.snd) same
  simp only [Option.map_map, Function.comp_def, Attempt.credentials] at login buffer
  unfold OwnCall
  cases call.call with
  | doConnect binBuffer => simp only [buffer]
  | setLogin login' => simp only [login]
  | _ => exact Iff.rfl

structure Coherent (shared : Shared) : Prop where
  last : shared.client = shared.assigned.getLast?
  callers : ∀ call ∈ shared.calls, call.attempt < shared.attempts.length

theorem start_coherent : Coherent Shared.start where
  last := rfl
  callers := by simp [Shared.start]

theorem begin_coherent (coherent : Coherent before) (attempt : Attempt) :
    Coherent { before with attempts := before.attempts ++ [attempt] } where
  last := coherent.last
  callers call member := by
    rw [List.length_append]
    exact Nat.lt_add_right _ (coherent.callers call member)

inductive Effect (before : Shared) (number : Nat) (attempt : Attempt) (statement : Statement)
    (after : Shared) : Prop where
  | assigns : isOwnCall statement = false → SameAttempts before after →
      after.calls = before.calls → after.client = some number →
      after.assigned = before.assigned ++ [number] → Effect before number attempt statement after
  | calls (target : Nat) (call : ClientCall) : before.client = some target →
      SameAttempts before after → after.calls = before.calls ++ [⟨number, target, call⟩] →
      after.client = before.client → after.assigned = before.assigned →
      (OwnCall before ⟨number, target, call⟩ ↔ (isOwnCall statement = true → target = number)) →
      Effect before number attempt statement after
  | silent : isOwnCall statement = false → SameAttempts before after →
      after.calls = before.calls → after.client = before.client →
      after.assigned = before.assigned → Effect before number attempt statement after

theorem execute_effect {statement : Statement} {rest : List Statement}
    (found : before.attempts[number]? = some attempt)
    (taken : (before.advance number attempt rest).execute number attempt statement = some after) :
    Effect before number attempt statement after := by
  have same := advance_attempts found rest
  have called {call : ClientCall}
      (own : ∀ target, OwnCall before ⟨number, target, call⟩ ↔
        (isOwnCall statement = true → target = number))
      (made : (before.advance number attempt rest).callClient number call = some after) :
      Effect before number attempt statement after := by
    rcases call_client_some made with ⟨target, stored, rfl⟩
    exact Effect.calls target call stored same rfl rfl rfl (own target)
  cases statement with
  | makeClient =>
      obtain rfl := Option.some.inj taken
      exact Effect.assigns rfl same rfl rfl rfl
  | connectSignal signal => exact called (fun target => by simp [OwnCall, isOwnCall]) taken
  | setClient => exact called (fun target => by simp [OwnCall, isOwnCall]) taken
  | doConnect => exact called (fun target => by simp [OwnCall, isOwnCall, found]) taken
  | setLogin => exact called (fun target => by simp [OwnCall, isOwnCall, found]) taken
  | setWindowLogin =>
      obtain rfl := Option.some.inj taken
      exact Effect.silent rfl same rfl rfl rfl
  | runIoService =>
      obtain rfl := Option.some.inj taken
      exact Effect.silent rfl same rfl rfl rfl
  | testClient =>
      simp only [Shared.execute, Option.some.injEq] at taken
      split_ifs at taken
      · subst taken
        exact Effect.silent rfl same rfl rfl rfl
      · subst taken
        refine Effect.silent rfl ?_ rfl rfl rfl
        simpa [Shared.advance] using advance_attempts found []
  | closeConnection => exact called (fun target => by simp [OwnCall, isOwnCall]) taken

theorem step_coherent {action : AttemptAction} (coherent : Coherent before)
    (taken : step before action = some after) : Coherent after := by
  cases action with
  | autorisation login password =>
      obtain rfl := Option.some.inj taken
      exact begin_coherent coherent _
  | registration login password =>
      obtain rfl := Option.some.inj taken
      exact begin_coherent coherent _
  | next number =>
      rcases next_some taken with ⟨attempt, statement, rest, found, -, executed⟩
      have inside : number < before.attempts.length := (List.getElem?_eq_some_iff.mp found).1
      rcases execute_effect found executed with
        ⟨-, same, calls, client, assigned⟩ | ⟨target, call, -, same, calls, client, assigned, -⟩ |
          ⟨-, same, calls, client, assigned⟩
      · constructor
        · rw [client, assigned, List.getLast?_concat]
        · rw [calls, same.1]
          exact coherent.callers
      · constructor
        · rw [client, assigned]
          exact coherent.last
        · intro made member
          rw [calls] at member
          rw [same.1]
          rcases List.mem_append.mp member with earlier | new
          · exact coherent.callers made earlier
          · rw [List.mem_singleton.mp new]
            exact inside
      · constructor
        · rw [client, assigned]
          exact coherent.last
        · rw [calls, same.1]
          exact coherent.callers

theorem begin_undisturbed (coherent : Coherent before) (attempt : Attempt) :
    Undisturbed { before with attempts := before.attempts ++ [attempt] } ↔ Undisturbed before := by
  apply forall₂_congr
  intro call member
  apply own_call_same
  rw [List.getElem?_append_left (coherent.callers call member)]

theorem undisturbed_same (same : SameAttempts before after) (calls : after.calls = before.calls) :
    Undisturbed after ↔ Undisturbed before := by
  unfold Undisturbed
  rw [calls]
  exact forall₂_congr fun call _ => own_call_same (same.2 call.attempt)

theorem step_undisturbed {action : AttemptAction} (coherent : Coherent before)
    (taken : step before action = some after) :
    Undisturbed after ↔ Undisturbed before ∧ NotOvertaken before action := by
  cases action with
  | autorisation login password =>
      obtain rfl := Option.some.inj taken
      exact (begin_undisturbed coherent _).trans (and_iff_left trivial).symm
  | registration login password =>
      obtain rfl := Option.some.inj taken
      exact (begin_undisturbed coherent _).trans (and_iff_left trivial).symm
  | next number =>
      rcases next_some taken with ⟨attempt, statement, rest, found, waiting, executed⟩
      have guard : NotOvertaken before (.next number) ↔
          (isOwnCall statement = true → before.client = some number) := by
        simp [NotOvertaken, found, waiting, coherent.last]
      rw [guard]
      rcases execute_effect found executed with
        ⟨quiet, same, calls, -, -⟩ | ⟨target, call, stored, same, calls, -, -, own⟩ |
          ⟨quiet, same, calls, -, -⟩
      · rw [undisturbed_same same calls]
        simp [quiet]
      · rw [stored, Option.some.injEq, ← own]
        unfold Undisturbed
        rw [calls, List.forall_mem_append, List.forall_mem_singleton]
        apply and_congr
        · exact forall₂_congr fun call _ => own_call_same (same.2 call.attempt)
        · exact own_call_same (same.2 number)
      · rw [undisturbed_same same calls]
        simp [quiet]

/-- For every number of attempts and every interleaving. -/
theorem undisturbed_iff_not_overtaken (actions : List AttemptAction) :
    EveryState step Undisturbed Shared.start actions ↔
      EveryStep step NotOvertaken Shared.start actions := by
  have nothing : Undisturbed Shared.start := by
    intro call member
    cases member
  exact every_state_iff_every_step step start_coherent
    (fun _ _ _ coherent taken => step_coherent coherent taken) nothing
    (fun _ _ _ coherent taken => step_undisturbed coherent taken) actions

/-- The first attempt fails after the second one has stored its client. -/
def fullRun (number count : Nat) : List AttemptAction := List.replicate count (.next number)

def lateFailure : List AttemptAction :=
  [.autorisation "ann".toList "x".toList] ++ fullRun 0 10 ++
    [.autorisation "bob".toList "y".toList] ++ fullRun 1 10 ++ fullRun 0 3

theorem late_failure_closes_other :
    ¬ EveryState step Undisturbed Shared.start lateFailure := by
  intro undisturbed
  have fields : (run step Shared.start lateFailure).map (fun shared => shared.calls.getLast?) =
      some (some ⟨0, 1, .closeConnection⟩) := by
    decide
  rcases last_state step undisturbed fields with ⟨reached, last, ownCalls⟩
  have own := ownCalls _ (List.mem_of_getLast? last)
  exact absurd own (by simp [OwnCall])

end AppchatClient.Control.Attempts
