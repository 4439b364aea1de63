import Mathlib.Data.List.Infix
import Mathlib.Data.List.Basic

/-!
# Runs of a partial step function

A component is a step function that answers `none` where an action is not
possible. A run is a list of actions, and what is said of a run is said of the
states reached by its prefixes. A guard restricts the steps of a run
by what holds in the state before each of them, so that "in every run whose
steps all meet the guard" is `EveryStep guard` and "in every state reached" is
`EveryState property`.
-/

namespace AppchatClient.Lib.Runs

set_option autoImplicit false

variable {State Action : Type*} (step : State → Action → Option State)

def run (state : State) : List Action → Option State
  | [] => some state
  | action :: rest => (step state action).bind fun next => run next rest

@[simp] theorem run_nil (state : State) : run step state [] = some state := rfl

@[simp] theorem run_cons (state : State) (action : Action) (rest : List Action) :
    run step state (action :: rest) =
      (step state action).bind fun next => run step next rest := rfl

theorem run_append (state : State) (first second : List Action) :
    run step state (first ++ second) =
      (run step state first).bind fun middle => run step middle second := by
  induction first generalizing state with
  | nil => rfl
  | cons action rest ih =>
      simp only [List.cons_append, run_cons]
      cases step state action with
      | none => rfl
      | some next => simpa using ih next

/-- The last step of a run, split off: the shape every induction over runs uses. -/
theorem run_snoc_some {state last : State} {actions : List Action} {action : Action}
    (reached : run step state (actions ++ [action]) = some last) :
    ∃ before, run step state actions = some before ∧ step before action = some last := by
  rw [run_append] at reached
  cases middle : run step state actions with
  | none => simp [middle] at reached
  | some before =>
      refine ⟨before, rfl, ?_⟩
      simpa [middle] using reached

theorem run_snoc {state before last : State} {actions : List Action} {action : Action}
    (reached : run step state actions = some before) (taken : step before action = some last) :
    run step state (actions ++ [action]) = some last := by
  simp [run_append, reached, taken]

/-- `property` holds in every state that a prefix of the run reaches. -/
def EveryState (property : State → Prop) (state : State) (actions : List Action) : Prop :=
  ∀ done reached, done <+: actions → run step state done = some reached → property reached

/-- Every step that the run takes meets `guard` in the state before it. -/
def EveryStep (guard : State → Action → Prop) (state : State) (actions : List Action) : Prop :=
  ∀ done action before after, done ++ [action] <+: actions →
    run step state done = some before → step before action = some after → guard before action

/-- `EveryStep` as a computation along the run. -/
def stepsMeet (guard : State → Action → Prop) [∀ state action, Decidable (guard state action)]
    (state : State) : List Action → Bool
  | [] => true
  | action :: rest =>
      match step state action with
      | some next => guard state action && stepsMeet guard next rest
      | none => true

theorem every_step_of_steps_meet {guard : State → Action → Prop}
    [∀ state action, Decidable (guard state action)] {state : State} {actions : List Action}
    (all : stepsMeet step guard state actions = true) : EveryStep step guard state actions := by
  intro done
  induction done generalizing state actions with
  | nil =>
      intro action before after inside reached taken
      obtain ⟨rest, rfl⟩ := inside
      obtain rfl := Option.some.inj reached
      simp only [List.nil_append, List.singleton_append, stepsMeet, taken, Bool.and_eq_true,
        decide_eq_true_eq] at all
      exact all.1
  | cons first done ih =>
      intro action before after inside reached taken
      obtain ⟨rest, rfl⟩ := inside
      obtain ⟨next, moved, reached⟩ := Option.bind_eq_some_iff.mp reached
      simp only [List.cons_append, stepsMeet, moved, Bool.and_eq_true, decide_eq_true_eq] at all
      exact ih all.2 action before after (List.prefix_append _ rest) reached taken

theorem every_step_and {first second : State → Action → Prop} {state : State}
    {actions : List Action} (left : EveryStep step first state actions)
    (right : EveryStep step second state actions) :
    EveryStep step (fun before action => first before action ∧ second before action) state
      actions := by
  intro done action before after inside reached taken
  constructor
  · exact left done action before after inside reached taken
  · exact right done action before after inside reached taken

theorem every_step_shorter {guard : State → Action → Prop} {state : State}
    {shorter longer : List Action} (part : shorter <+: longer)
    (all : EveryStep step guard state longer) : EveryStep step guard state shorter :=
  fun done action before after inside => all done action before after (inside.trans part)

theorem every_state_mono {weaker stronger : State → Prop} {state : State} {actions : List Action}
    (implies : ∀ reached, stronger reached → weaker reached)
    (all : EveryState step stronger state actions) : EveryState step weaker state actions :=
  fun done reached inside ran => implies reached (all done reached inside ran)

theorem last_state {View : Type*} {property : State → Prop} {state : State}
    {actions : List Action} {view : State → View} {value : View}
    (all : EveryState step property state actions)
    (fields : (run step state actions).map view = some value) :
    ∃ reached, view reached = value ∧ property reached := by
  rcases Option.map_eq_some_iff.mp fields with ⟨reached, ran, same⟩
  exact ⟨reached, same, all actions reached (List.prefix_refl _) ran⟩

/-- The rule for one run: an invariant of the guarded steps holds at its end. -/
theorem guarded_run_invariant {guard : State → Action → Prop} {invariant : State → Prop}
    {state : State} (initial : invariant state)
    (preserved : ∀ before action after, invariant before → guard before action →
      step before action = some after → invariant after)
    {actions : List Action} {reached : State} (all : EveryStep step guard state actions)
    (ran : run step state actions = some reached) : invariant reached := by
  induction actions using List.reverseRecOn generalizing reached with
  | nil =>
      simp only [run_nil, Option.some.injEq] at ran
      exact ran ▸ initial
  | append_singleton done action ih =>
      obtain ⟨before, earlier, taken⟩ := run_snoc_some step ran
      have kept : invariant before :=
        ih (every_step_shorter step (List.prefix_append done [action]) all) earlier
      exact preserved before action reached kept
        (all done action before reached (List.prefix_refl _) earlier taken) taken

theorem guarded_invariant {guard : State → Action → Prop} {invariant : State → Prop}
    {state : State} (initial : invariant state)
    (preserved : ∀ before action after, invariant before → guard before action →
      step before action = some after → invariant after)
    {actions : List Action} (all : EveryStep step guard state actions) :
    EveryState step invariant state actions :=
  fun _ _ inside ran => guarded_run_invariant step initial preserved
    (every_step_shorter step inside all) ran

theorem run_invariant {invariant : State → Prop} {state : State} (initial : invariant state)
    (preserved : ∀ before action after, invariant before →
      step before action = some after → invariant after)
    {actions : List Action} {reached : State}
    (ran : run step state actions = some reached) : invariant reached :=
  have unguarded : EveryStep step (fun _ _ => True) state actions :=
    fun _ _ _ _ _ _ _ => trivial
  guarded_run_invariant step initial
    (fun before action after kept _ => preserved before action after kept) unguarded ran

/-- Where a step keeps the property exactly when it meets the guard, the runs
that keep it are those whose steps all meet the guard. -/
theorem every_state_iff_every_step {property invariant : State → Prop}
    {guard : State → Action → Prop} {state : State} (initial : invariant state)
    (preserved : ∀ before action after, invariant before →
      step before action = some after → invariant after)
    (holds : property state)
    (changes : ∀ before action after, invariant before → step before action = some after →
      (property after ↔ property before ∧ guard before action)) (actions : List Action) :
    EveryState step property state actions ↔ EveryStep step guard state actions := by
  constructor
  · intro all done action before after inside reached taken
    have kept := run_invariant step initial preserved reached
    have last := all (done ++ [action]) after inside (run_snoc step reached taken)
    exact ((changes before action after kept taken).mp last).2
  · intro all
    have both := guarded_invariant step (And.intro initial holds)
      (fun before action after met guarded taken =>
        And.intro (preserved before action after met.1 taken)
          ((changes before action after met.1 taken).mpr ⟨met.2, guarded⟩)) all
    exact every_state_mono step (fun _ met => met.2) both

def Happened (event : State → Action → Prop) (state : State) (actions : List Action) : Prop :=
  ∃ done action before, done ++ [action] <+: actions ∧ run step state done = some before ∧
    event before action

theorem happened_snoc {event : State → Action → Prop} {state before : State}
    {actions : List Action} {action : Action} (ran : run step state actions = some before) :
    Happened step event state (actions ++ [action]) ↔
      event before action ∨ Happened step event state actions := by
  constructor
  · rintro ⟨done, last, earlier, inside, reached, met⟩
    rcases List.prefix_concat_iff.mp inside with whole | shorter
    · obtain ⟨rfl, same⟩ := List.append_inj' whole rfl
      obtain rfl := List.singleton_inj.mp same
      rw [ran] at reached
      obtain rfl := Option.some.inj reached
      exact Or.inl met
    · exact Or.inr ⟨done, last, earlier, shorter, reached, met⟩
  · rintro (met | ⟨done, last, earlier, inside, reached, met⟩)
    · exact ⟨actions, action, before, List.prefix_refl _, ran, met⟩
    · exact ⟨done, last, earlier, inside.trans (List.prefix_append _ _), reached, met⟩

/-- A flag that exactly the steps of one kind raise, and none takes down. -/
theorem raised_iff_happened {event : State → Action → Prop} {flag : State → Prop} {state : State}
    (initial : ¬ flag state)
    (changes : ∀ before action after, step before action = some after →
      (flag after ↔ event before action ∨ flag before))
    {actions : List Action} {reached : State} (ran : run step state actions = some reached) :
    flag reached ↔ Happened step event state actions := by
  induction actions using List.reverseRecOn generalizing reached with
  | nil =>
      obtain rfl := Option.some.inj ran
      constructor
      · intro raised
        exact absurd raised initial
      · rintro ⟨done, action, before, inside, -⟩
        exact absurd inside (by simp)
  | append_singleton done action ih =>
      rcases run_snoc_some step ran with ⟨before, earlier, taken⟩
      rw [changes before action reached taken, happened_snoc step earlier, ih earlier]

/-- A run whose steps are matched by a total specification does not get stuck and
ends where the specification does. -/
theorem run_refines {Abstract : Type*} {spec : Abstract → Action → Abstract}
    {relation : State → Abstract → Prop} {allowed : Action → Prop}
    (forward : ∀ state abstract action, relation state abstract → allowed action →
      ∃ next, step state action = some next ∧ relation next (spec abstract action))
    {actions : List Action} {state : State} {abstract : Abstract}
    (initial : relation state abstract) (all : ∀ action ∈ actions, allowed action) :
    ∃ last, run step state actions = some last ∧ relation last (actions.foldl spec abstract) := by
  induction actions generalizing state abstract with
  | nil => exact ⟨state, rfl, initial⟩
  | cons action rest ih =>
      rcases forward state abstract action initial (all action (List.mem_cons_self ..)) with
        ⟨next, taken, related⟩
      rcases ih related fun later member => all later (List.mem_cons_of_mem _ member) with
        ⟨last, reached, final⟩
      refine ⟨last, ?_, final⟩
      rw [run_cons, taken]
      exact reached

/-- Two components whose steps answer alike: neither can go on where the other
cannot, and the states reached are related. -/
theorem run_lockstep {Other : Type*} {other : Other → Action → Option Other}
    {relation : State → Other → Prop} {allowed : Action → Prop}
    (alike : ∀ left right action, relation left right → allowed action →
      Option.Rel relation (step left action) (other right action))
    {actions : List Action} {left : State} {right : Other}
    (initial : relation left right) (all : ∀ action ∈ actions, allowed action) :
    Option.Rel relation (run step left actions) (run other right actions) := by
  induction actions generalizing left right with
  | nil => exact Option.Rel.some initial
  | cons action rest ih =>
      have first := alike left right action initial (all action (List.mem_cons_self ..))
      have later : ∀ action ∈ rest, allowed action :=
        fun next member => all next (List.mem_cons_of_mem _ member)
      rw [run_cons, run_cons]
      generalize step left action = here at first ⊢
      generalize other right action = there at first ⊢
      cases first with
      | some related => exact ih related later
      | none => exact Option.Rel.none

/-- Each step is answered by a few moves of the other component, or by none. -/
theorem run_answered {Other Move : Type*} {other : Other → Move → Option Other}
    {relation : State → Other → Prop} {answers : Action → List Move → Prop}
    {allowed : Action → Prop}
    (each : ∀ left right action next, relation left right → allowed action →
      step left action = some next → ∃ moves later, answers action moves ∧
        run other right moves = some later ∧ relation next later)
    {actions : List Action} {left reached : State} {right : Other}
    (initial : relation left right) (all : ∀ action ∈ actions, allowed action)
    (ran : run step left actions = some reached) :
    ∃ moves last, List.Forall₂ answers actions moves ∧
      run other right moves.flatten = some last ∧ relation reached last := by
  induction actions generalizing left right with
  | nil =>
      obtain rfl := Option.some.inj ran
      exact ⟨[], right, List.Forall₂.nil, rfl, initial⟩
  | cons action rest ih =>
      rcases Option.bind_eq_some_iff.mp ran with ⟨next, taken, further⟩
      rcases each left right action next initial (all action (List.mem_cons_self ..)) taken with
        ⟨here, later, answered, moved, related⟩
      rcases ih related (fun other member => all other (List.mem_cons_of_mem _ member)) further with
        ⟨moves, last, others, ended, final⟩
      refine ⟨here :: moves, last, List.Forall₂.cons answered others, ?_, final⟩
      rw [List.flatten_cons, run_append, moved]
      exact ended

/-- A run has no more steps of a kind than the amount that each of them uses up
and that no step restores. -/
theorem counted_steps_bounded {counts : Action → Bool} {amount : State → Nat}
    {invariant : State → Prop}
    (uses : ∀ before action after, invariant before → step before action = some after →
      invariant after ∧ amount after + (if counts action then 1 else 0) ≤ amount before)
    {actions : List Action} {state last : State} (initial : invariant state)
    (ran : run step state actions = some last) :
    invariant last ∧ amount last + actions.countP counts ≤ amount state := by
  induction actions generalizing state with
  | nil =>
      obtain rfl := Option.some.inj ran
      exact ⟨initial, Nat.le_refl _⟩
  | cons action rest ih =>
      rcases Option.bind_eq_some_iff.mp ran with ⟨next, taken, later⟩
      have here := uses state action next initial taken
      have further := ih here.1 later
      refine ⟨further.1, ?_⟩
      rw [List.countP_cons]
      have used := here.2
      have bound := further.2
      omega

end AppchatClient.Lib.Runs
