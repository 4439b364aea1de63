import AppchatClient.Io.Handlers
import AppchatClient.Lib.Runs

/-!
# Closing from several threads

`close_connection` runs on the io thread, on the thread of a login attempt and
in destructors, at any time and any number of times. Its test and its two calls
on the socket stand under `mtx_sock`; the connection itself opens the socket
without it. That `async_connect` closes and reopens it between two endpoints is
left out. The other models take the whole call for one step.
-/

namespace AppchatClient.Io.CloseRace

open AppchatClient.Io.Handlers AppchatClient.Lib.Runs

set_option autoImplicit false

/-- Where a thread is in `close_connection`: before `lock`, before the test,
before `shutdown`, before `close`, before `unlock`. -/
inductive Point where
  | outside
  | testing
  | shutting
  | closing
  | leaving
deriving DecidableEq, Repr

/-- `opens`, `shutdowns` and `closes` count the calls on the socket, and
`returned` are the threads by the order in which they unlocked. -/
structure Race where
  client : Client
  mtxSock : Option Nat
  point : Nat → Point
  opens : Nat
  shutdowns : Nat
  closes : Nat
  returned : List Nat

inductive RaceAction where
  | connect
  | advance (thread : Nat)
deriving DecidableEq, Repr

namespace Race

def start (client : Client) : Race where
  client := client
  mtxSock := none
  point _ := .outside
  opens := 0
  shutdowns := 0
  closes := 0
  returned := []

def goTo (race : Race) (thread : Nat) (point : Point) : Race :=
  { race with point := Function.update race.point thread point }

/-- The next statement of a thread; `lock` waits while another thread holds the mutex. -/
def advance (race : Race) (thread : Nat) : Option Race :=
  match race.point thread with
  | .outside =>
      if race.mtxSock = none then some ({ race with mtxSock := some thread }.goTo thread .testing)
      else none
  | .testing => some (race.goTo thread (if race.client.sockOpen then .shutting else .leaving))
  | .shutting => some ({ race with shutdowns := race.shutdowns + 1 }.goTo thread .closing)
  | .closing =>
      some ({ race with
        client := { race.client with sockOpen := false }
        closes := race.closes + 1 }.goTo thread .leaving)
  | .leaving =>
      some ({ race with mtxSock := none, returned := race.returned ++ [thread] }.goTo thread
        .outside)

end Race

def step (race : Race) : RaceAction → Option Race
  | .connect =>
      if race.client.sockOpen then none
      else
        some { race with
          client := { race.client with sockOpen := true }
          opens := race.opens + 1 }
  | .advance thread => race.advance thread

/-- The socket with whole calls; `effects` are the threads by the order of their calls. -/
structure Atomic where
  client : Client
  effects : List Nat

inductive AtomicAction where
  | connect
  | close (thread : Nat)
deriving DecidableEq, Repr

def atomicStep (atomic : Atomic) : AtomicAction → Option Atomic
  | .connect =>
      if atomic.client.sockOpen then none
      else some { atomic with client := { atomic.client with sockOpen := true } }
  | .close thread =>
      some { client := atomic.client.closeConnection, effects := atomic.effects ++ [thread] }

inductive Answers : RaceAction → List AtomicAction → Prop where
  | connect : Answers .connect [.connect]
  | call (thread : Nat) : Answers (.advance thread) [.close thread]
  | nothing (thread : Nat) : Answers (.advance thread) []

def passed (race : Race) : List Nat :=
  match race.mtxSock with
  | some thread => if race.point thread = .leaving then [thread] else []
  | none => []

/-- Only the holder of the mutex is inside, and the socket is open from its
test to its `close`. -/
structure Guarded (race : Race) : Prop where
  holder : ∀ thread, race.point thread ≠ .outside ↔ race.mtxSock = some thread
  found : ∀ thread, race.point thread = .shutting ∨ race.point thread = .closing →
    race.client.sockOpen = true

def betweenCalls (race : Race) : Nat :=
  match race.mtxSock with
  | some thread => if race.point thread = .closing then 1 else 0
  | none => 0

/-- Each opening is followed by one `shutdown` and one `close`, and there are no others. -/
structure Balanced (race : Race) (first : Bool) : Prop where
  closes : race.closes + (if race.client.sockOpen then 1 else 0) =
    race.opens + (if first then 1 else 0)
  shutdowns : race.shutdowns = race.closes + betweenCalls race

structure Simulates (first : Bool) (race : Race) (atomic : Atomic) : Prop where
  guarded : Guarded race
  balanced : Balanced race first
  same : race.client = atomic.client
  effects : atomic.effects = race.returned ++ passed race

variable {race next : Race} {atomic : Atomic} {thread : Nat} {first : Bool}

theorem point_go_to (race : Race) (thread : Nat) (point : Point) :
    (race.goTo thread point).point thread = point :=
  Function.update_self _ _ _

theorem point_go_to_other (race : Race) {thread other : Nat} (different : other ≠ thread)
    (point : Point) : (race.goTo thread point).point other = race.point other :=
  Function.update_of_ne different _ _

theorem passed_holder (held : race.mtxSock = some thread) :
    passed race = if race.point thread = .leaving then [thread] else [] := by
  rw [passed, held]

theorem between_holder (held : race.mtxSock = some thread) :
    betweenCalls race = if race.point thread = .closing then 1 else 0 := by
  rw [betweenCalls, held]

theorem passed_go_to (race : Race) (held : race.mtxSock = some thread) (point : Point) :
    passed (race.goTo thread point) = if point = .leaving then [thread] else [] := by
  have still : (race.goTo thread point).mtxSock = some thread := held
  rw [passed_holder still, point_go_to]

theorem between_go_to (race : Race) (held : race.mtxSock = some thread) (point : Point) :
    betweenCalls (race.goTo thread point) = if point = .closing then 1 else 0 := by
  have still : (race.goTo thread point).mtxSock = some thread := held
  rw [between_holder still, point_go_to]

theorem others_outside (guarded : Guarded race) (held : race.mtxSock = some thread) {other : Nat}
    (different : other ≠ thread) : race.point other = .outside := by
  by_contra busy
  have alsoHeld := (guarded.holder other).mp busy
  rw [held, Option.some.injEq] at alsoHeld
  exact different alsoHeld.symm

theorem inside_guarded (guarded : Guarded race) (held : race.mtxSock = some thread)
    (same : next.mtxSock = race.mtxSock) {point : Point}
    (moved : next.point = Function.update race.point thread point) (inside : point ≠ .outside)
    (found : point = .shutting ∨ point = .closing → next.client.sockOpen = true) :
    Guarded next := by
  have now : next.point thread = point := by rw [moved, Function.update_self]
  have others (other : Nat) (different : other ≠ thread) : next.point other = .outside := by
    rw [moved, Function.update_of_ne different]
    exact others_outside guarded held different
  constructor
  · intro other
    by_cases equal : other = thread
    · subst equal
      rw [now, same, held]
      exact iff_of_true inside rfl
    · rw [others other equal, same, held, Option.some.injEq]
      exact iff_of_false (fun busy => busy rfl) (Ne.symm equal)
  · intro other working
    by_cases equal : other = thread
    · subst equal
      rw [now] at working
      exact found working
    · rw [others other equal] at working
      simp at working

theorem connect_simulates (simulates : Simulates first race atomic)
    (taken : step race .connect = some next) :
    ∃ moves later, Answers .connect moves ∧ run atomicStep atomic moves = some later ∧
      Simulates first next later := by
  simp only [step] at taken
  split_ifs at taken with opened
  obtain rfl := Option.some.inj taken
  have closed : ¬ atomic.client.sockOpen = true := simulates.same ▸ opened
  refine ⟨[.connect], { atomic with client := { atomic.client with sockOpen := true } },
    Answers.connect, ?_, ?_⟩
  · simp [run, atomicStep, closed]
  · have balance := simulates.balanced.closes
    refine ⟨⟨simulates.guarded.holder, fun _ _ => rfl⟩, ⟨?_, simulates.balanced.shutdowns⟩, ?_,
      simulates.effects⟩
    · simp only [opened, if_true] at balance ⊢
      simp only [Bool.false_eq_true, if_false] at balance
      omega
    · rw [← simulates.same]

theorem lock_simulates (simulates : Simulates first race atomic)
    (outside : race.point thread = .outside) (free : race.mtxSock = none) :
    Simulates first ({ race with mtxSock := some thread }.goTo thread .testing) atomic := by
  have idle (other : Nat) : race.point other = .outside := by
    by_contra busy
    have held := (simulates.guarded.holder other).mp busy
    rw [free] at held
    cases held
  have now := point_go_to { race with mtxSock := some thread } thread .testing
  have between : betweenCalls ({ race with mtxSock := some thread }.goTo thread .testing) =
      betweenCalls race := by
    rw [between_go_to _ rfl, betweenCalls, free]
    rfl
  have behind : passed ({ race with mtxSock := some thread }.goTo thread .testing) =
      passed race := by
    rw [passed_go_to _ rfl, passed, free]
    rfl
  refine ⟨?_, ⟨simulates.balanced.closes, ?_⟩, simulates.same, ?_⟩
  · constructor
    · intro other
      by_cases equal : other = thread
      · subst equal
        rw [now]
        exact iff_of_true (by decide) rfl
      · rw [point_go_to_other _ equal]
        have different : some thread ≠ some other := by simpa using Ne.symm equal
        exact iff_of_false (fun busy => busy (idle other)) different
    · intro other working
      by_cases equal : other = thread
      · subst equal
        rw [now] at working
        simp at working
      · rw [point_go_to_other _ equal] at working
        rw [show ({ race with mtxSock := some thread } : Race).point other = .outside from
          idle other] at working
        simp at working
  · exact between ▸ simulates.balanced.shutdowns
  · exact behind ▸ simulates.effects

/-- A thread that finds the socket closed has done what a whole call does: nothing. -/
theorem test_simulates (simulates : Simulates first race atomic)
    (here : race.point thread = .testing) (held : race.mtxSock = some thread) :
    ∃ moves later, Answers (.advance thread) moves ∧ run atomicStep atomic moves = some later ∧
      Simulates first (race.goTo thread (if race.client.sockOpen then .shutting else .leaving))
        later := by
  have balance := simulates.balanced.closes
  have shut := simulates.balanced.shutdowns
  have effects := simulates.effects
  rw [between_holder held, here] at shut
  rw [passed_holder held, here] at effects
  cases opened : race.client.sockOpen with
  | true =>
      refine ⟨[], atomic, Answers.nothing thread, rfl, ?_, ⟨balance, ?_⟩, simulates.same, ?_⟩
      · exact inside_guarded simulates.guarded held rfl rfl (by decide) (fun _ => opened)
      · rw [between_go_to _ held]
        exact shut
      · rw [passed_go_to _ held]
        exact effects
  | false =>
      have unchanged : atomic.client.closeConnection = atomic.client := by
        rw [← simulates.same, Client.closeConnection, ← opened]
      refine ⟨[.close thread], ⟨atomic.client.closeConnection, atomic.effects ++ [thread]⟩,
        Answers.call thread, rfl, ?_, ⟨balance, ?_⟩, ?_, ?_⟩
      · exact inside_guarded simulates.guarded held rfl rfl (by decide) (by simp)
      · rw [between_go_to _ held]
        exact shut
      · exact simulates.same.trans unchanged.symm
      · rw [passed_go_to _ held, effects]
        simp [Race.goTo]

theorem unlock_guarded (guarded : Guarded race) (held : race.mtxSock = some thread)
    (returned : List Nat) :
    Guarded ({ race with mtxSock := none, returned := returned }.goTo thread .outside) := by
  have allOutside (other : Nat) :
      ({ race with mtxSock := none, returned := returned }.goTo thread .outside).point other =
        .outside := by
    by_cases equal : other = thread
    · rw [equal, point_go_to]
    · rw [point_go_to_other _ equal]
      exact others_outside guarded held equal
  constructor
  · intro other
    exact iff_of_false (fun busy => busy (allOutside other)) (by simp [Race.goTo])
  · intro other working
    rw [allOutside other] at working
    simp at working

theorem advance_simulates (simulates : Simulates first race atomic)
    (taken : race.advance thread = some next) :
    ∃ moves later, Answers (.advance thread) moves ∧ run atomicStep atomic moves = some later ∧
      Simulates first next later := by
  have holding (busy : race.point thread ≠ .outside) := (simulates.guarded.holder thread).mp busy
  have balance := simulates.balanced.closes
  have shut := simulates.balanced.shutdowns
  have effects := simulates.effects
  unfold Race.advance at taken
  cases here : race.point thread with
  | outside =>
      simp only [here] at taken
      split_ifs at taken with free
      obtain rfl := Option.some.inj taken
      exact ⟨[], atomic, Answers.nothing thread, rfl, lock_simulates simulates here free⟩
  | testing =>
      have held := holding (by rw [here]; decide)
      simp only [here, Option.some.injEq] at taken
      subst taken
      exact test_simulates simulates here held
  | shutting =>
      have held := holding (by rw [here]; decide)
      simp only [here, Option.some.injEq] at taken
      subst taken
      rw [between_holder held, here] at shut
      rw [passed_holder held, here] at effects
      have opened := simulates.guarded.found thread (Or.inl here)
      refine ⟨[], atomic, Answers.nothing thread, rfl, ?_, ⟨balance, ?_⟩, simulates.same, ?_⟩
      · exact inside_guarded simulates.guarded held rfl rfl (by decide) (fun _ => opened)
      · rw [between_go_to]
        · exact congrArg (· + 1) shut
        · exact held
      · rw [passed_go_to]
        · exact effects
        · exact held
  | closing =>
      have held := holding (by rw [here]; decide)
      simp only [here, Option.some.injEq] at taken
      subst taken
      rw [between_holder held, here] at shut
      rw [passed_holder held, here] at effects
      have opened := simulates.guarded.found thread (Or.inr here)
      refine ⟨[.close thread], ⟨atomic.client.closeConnection, atomic.effects ++ [thread]⟩,
        Answers.call thread, rfl, ?_, ⟨?_, ?_⟩, ?_, ?_⟩
      · exact inside_guarded simulates.guarded held rfl rfl (by decide) (by simp)
      · rw [opened] at balance
        exact balance
      · rw [between_go_to]
        · exact shut
        · exact held
      · rw [← simulates.same]
        rfl
      · rw [passed_go_to, effects]
        · simp [Race.goTo]
        · exact held
  | leaving =>
      have held := holding (by rw [here]; decide)
      simp only [here, Option.some.injEq] at taken
      subst taken
      rw [between_holder held, here] at shut
      rw [passed_holder held, here] at effects
      refine ⟨[], atomic, Answers.nothing thread, rfl, ?_, ⟨balance, shut⟩, simulates.same, ?_⟩
      · exact unlock_guarded simulates.guarded held _
      · simpa [passed, Race.goTo] using effects

theorem step_simulates {action : RaceAction} (simulates : Simulates first race atomic)
    (taken : step race action = some next) :
    ∃ moves later, Answers action moves ∧ run atomicStep atomic moves = some later ∧
      Simulates first next later := by
  cases action with
  | connect => exact connect_simulates simulates taken
  | advance thread => exact advance_simulates simulates taken

theorem start_simulates (client : Client) :
    Simulates client.sockOpen (Race.start client) ⟨client, []⟩ where
  guarded := by
    constructor
    · intro thread
      exact iff_of_false (fun busy => busy rfl) (by simp [Race.start])
    · intro thread working
      simp [Race.start] at working
  balanced := ⟨rfl, rfl⟩
  same := rfl
  effects := rfl

theorem advance_or_holder (guarded : Guarded race) (thread : Nat) :
    (race.advance thread).isSome ∨
      ∃ holder, race.mtxSock = some holder ∧ (race.advance holder).isSome := by
  have inside {other : Nat} (busy : race.point other ≠ .outside) : (race.advance other).isSome := by
    unfold Race.advance
    cases here : race.point other with
    | outside => exact absurd here busy
    | _ => rfl
  cases held : race.mtxSock with
  | none =>
      left
      by_cases waits : race.point thread = .outside
      · simp [Race.advance, waits, held]
      · exact inside waits
  | some holder =>
      right
      exact ⟨holder, rfl, inside ((guarded.holder holder).mpr held)⟩

/-- What any number of concurrent calls come to. -/
structure CallsAtomic (client : Client) (actions : List RaceAction) (reached : Race) : Prop where
  /-- One whole call for each, between its `lock` and its `unlock`. -/
  calls : ∃ moves last, List.Forall₂ Answers actions moves ∧
    run atomicStep ⟨client, []⟩ moves.flatten = some last ∧ reached.client = last.client ∧
    last.effects = reached.returned ++ passed reached
  alone : ∀ first second, reached.point first ≠ .outside → reached.point second ≠ .outside →
    first = second
  balanced : Balanced reached client.sockOpen
  noDeadlock : ∀ thread, (reached.advance thread).isSome ∨
    ∃ holder, reached.mtxSock = some holder ∧ (reached.advance holder).isSome

theorem close_calls_atomic {client : Client} {actions : List RaceAction} {reached : Race}
    (ran : run step (Race.start client) actions = some reached) :
    CallsAtomic client actions reached := by
  have each (left : Race) (right : Atomic) (action : RaceAction) (next : Race)
      (simulates : Simulates client.sockOpen left right) (_ : True)
      (taken : step left action = some next) := step_simulates simulates taken
  rcases run_answered step each (start_simulates client) (fun _ _ => trivial) ran with
    ⟨moves, last, answered, moved, simulates⟩
  have guarded := simulates.guarded
  refine ⟨⟨moves, last, answered, moved, simulates.same, simulates.effects⟩, ?_,
    simulates.balanced, fun thread => advance_or_holder guarded thread⟩
  intro first second busy alsoBusy
  have held := (guarded.holder first).mp busy
  have alsoHeld := (guarded.holder second).mp alsoBusy
  exact Option.some.inj (held.symm.trans alsoHeld)

def closedTwice : List RaceAction :=
  List.replicate 4 (.advance 0) ++ [.connect, .advance 0] ++ List.replicate 3 (.advance 1)

theorem close_calls_atomic_sample : ∃ reached,
    run step (Race.start (Client.fresh [])) closedTwice = some reached ∧
      CallsAtomic (Client.fresh []) closedTwice reached := by
  have finishes : (run step (Race.start (Client.fresh [])) closedTwice).isSome = true := by
    decide
  rcases Option.isSome_iff_exists.mp finishes with ⟨reached, ran⟩
  exact ⟨reached, ran, close_calls_atomic ran⟩

end AppchatClient.Io.CloseRace
