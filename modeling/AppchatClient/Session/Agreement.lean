import AppchatClient.Session.Exchange

/-!
# Memory and cache

The io thread appends a message to its deque and posts the event that saves
it, so the deque runs ahead of the cache by what is still posted. The rows
that earlier sessions left come into memory with an authorisation only.
-/

namespace AppchatClient.Session.Agreement

open AppchatClient.Protocol AppchatClient.Io.Handlers AppchatClient.Lib.Runs
open AppchatClient.Cache.Refinement AppchatClient.Session.Receivers AppchatClient.Session.Effects
open AppchatClient.Session.Deque (Link LinkAction echoChannel)
open AppchatClient.Session.Server (saving carried carried_append)
open AppchatClient.Session.Exchange

set_option autoImplicit false

variable {lib : ProtocolLib}

/-- The login is handled, and no signal is left undelivered. -/
def Settled (lib : ProtocolLib) (link : Link) : Prop :=
  link.core.queue = [] ∧ LoggedIn lib link

def Agrees (link : Link) (channel : StdString) : Prop :=
  ∀ messages, link.core.client.mChannelsHistory channel = some messages →
    messages.map content = (link.core.cache.load channel).map content

/-- One login is accepted, a history answer follows a request for its channel,
and a live message is for a deque of a session that is logged in. -/
def Promised (lib : ProtocolLib) (link : Link) : LinkAction → Prop
  | .send arrival =>
      (acceptances lib arrival ≠ [] → loginsSent lib link = []) ∧
        (∀ channel ∈ historyChannel arrival, askedFor link.core.toServer channel = true) ∧
        ∀ channel ∈ echoChannel lib arrival,
          LoggedIn lib link ∧ present link.core.client channel
  | _ => True

instance (link : Link) : Decidable (Settled lib link) := inferInstanceAs (Decidable (_ ∧ _))

instance (link : Link) (action : LinkAction) : Decidable (Promised lib link action) :=
  match action with
  | .send _ => inferInstanceAs (Decidable (_ ∧ _ ∧ _))
  | .io => isTrue trivial
  | .slot => isTrue trivial

def AfterLogin (lib : ProtocolLib) (link : Link) : LinkAction → Prop
  | .send arrival => (historyChannel arrival).isSome = true → LoggedIn lib link
  | _ => True

instance (link : Link) (action : LinkAction) : Decidable (AfterLogin lib link action) :=
  match action with
  | .send arrival =>
      inferInstanceAs (Decidable ((historyChannel arrival).isSome = true → LoggedIn lib link))
  | .io => isTrue trivial
  | .slot => isTrue trivial

/-- `handled` are the accepted logins whose event has run, and `received` what
the io thread has appended to the deques. -/
structure Tracked (lib : ProtocolLib) (cache : History) (link : Link) (handled : List StatusCode)
    (received : StdString → List (StdString × StdString × DateTime)) : Prop where
  logins : loginsSent lib link = handled ++ loginsWaiting lib link
  once : (loginsSent lib link).length ≤ 1
  memory : ∀ channel, (deque link.core.client channel).map content =
    (if .autorOK ∈ handled then (cache.load channel).map content else []) ++ received channel
  stored : ∀ channel,
    (link.core.cache.load channel ++ saving link.core.queue channel).map content =
      (cache.load channel).map content ++ received channel
  quiet : handled = [] → ∀ channel, received channel = [] ∧
    saving link.core.queue channel = [] ∧ carried lib link.wire channel = []

theorem start_tracked (cache : History) :
    Tracked lib cache (Link.start cache) [] fun _ => [] where
  logins := rfl
  once := Nat.zero_le 1
  memory channel := by simp [Link.start, freshCore, deque]
  stored channel := by simp [Link.start, freshCore, saving]
  quiet _ channel := ⟨rfl, rfl, rfl⟩

theorem handled_of_logged_in {cache : History} {link : Link} {handled : List StatusCode}
    {received : StdString → List (StdString × StdString × DateTime)}
    (tracked : Tracked lib cache link handled received) (loggedIn : LoggedIn lib link) :
    handled = loginsSent lib link := by
  rw [tracked.logins, loggedIn.2, List.append_nil]

theorem send_tracked {cache : History} {before after : Link} {arrival : Arrival}
    {handled : List StatusCode} {received : StdString → List (StdString × StdString × DateTime)}
    (tracked : Tracked lib cache before handled received)
    (promised : Promised lib before (.send arrival))
    (late : AfterLogin lib before (.send arrival))
    (taken : step lib before (.send arrival) = some after) :
    Tracked lib cache after handled received := by
  obtain rfl := Option.some.inj taken
  constructor
  · have logins := tracked.logins
    simp only [loginsSent, loginsWaiting, List.flatMap_append] at logins ⊢
    rw [logins]
    simp only [List.append_assoc]
  · have once := tracked.once
    have first := promised.1
    simp only [loginsSent, List.flatMap_append, List.length_append, List.flatMap_cons,
      List.flatMap_nil, List.append_nil] at once first ⊢
    by_cases accepts : acceptances lib arrival = []
    · simpa [accepts] using once
    · have alone := first accepts
      have single : (acceptances lib arrival).length ≤ 1 := acceptances_single arrival
      simp [alone, single]
  · exact tracked.memory
  · exact tracked.stored
  · intro unhandled channel
    rcases tracked.quiet unhandled channel with ⟨nothing, unsaved, wire⟩
    refine ⟨nothing, unsaved, ?_⟩
    have notYet : ¬ LoggedIn lib before := by
      intro loggedIn
      have same := handled_of_logged_in tracked loggedIn
      exact loggedIn.1 (same.symm.trans unhandled)
    have empty : pushed lib arrival channel = [] := by
      by_contra someMessage
      rcases pushed_cases someMessage with live | history
      · exact notYet (promised.2.2 channel live).1
      · exact notYet (late (by rw [history]; rfl))
    rw [carried_append, wire]
    simpa [carried] using empty

theorem io_tracked {cache : History} {before after : Link} {handled : List StatusCode}
    {received : StdString → List (StdString × StdString × DateTime)}
    (tracked : Tracked lib cache before handled received)
    (taken : step lib before .io = some after) :
    ∃ more, Tracked lib cache after handled more := by
  rcases Deque.io_some taken with ⟨arrival, rest, core, frames, moved, rfl⟩
  have effect := receive_received moved
  apply Exists.intro
    fun channel => received channel ++ (pushed lib arrival channel).map content
  constructor
  · have logins := tracked.logins
    simp only [loginsSent, loginsWaiting, frames, List.flatMap_cons] at logins ⊢
    rw [logins, effect.queue, List.filterMap_append, acceptances]
    simp only [List.append_assoc]
  · exact tracked.once
  · intro channel
    rw [effect.deque, List.map_append, tracked.memory, List.append_assoc]
  · intro channel
    have stored := tracked.stored channel
    simp only [effect.cache, effect.queue, saving_append, List.map_append,
      content_saving_posted] at stored ⊢
    rw [← List.append_assoc, stored, List.append_assoc]
  · intro unhandled channel
    rcases tracked.quiet unhandled channel with ⟨nothing, unsaved, wire⟩
    simp only [frames, carried, List.flatMap_cons, List.append_eq_nil_iff] at wire
    rcases wire with ⟨empty, later⟩
    have posted : saving ((signals lib arrival).flatMap connected) channel = [] := by
      rw [saving, saved_posted, empty]
      rfl
    refine ⟨?_, ?_, later⟩
    · rw [nothing, empty]
      rfl
    · rw [effect.queue, saving_append, unsaved, posted]
      rfl

theorem slot_tracked {cache : History} {before after : Link} {handled : List StatusCode}
    {received : StdString → List (StdString × StdString × DateTime)}
    (tracked : Tracked lib cache before handled received)
    (taken : step lib before .slot = some after) :
    ∃ more, Tracked lib cache after more received := by
  rcases Deque.slot_some taken with ⟨slot, rest, waiting, rfl⟩
  apply Exists.intro (handled ++ (acceptance slot).toList)
  have logins := tracked.logins
  have queue : before.core.queue.filterMap acceptance =
      (acceptance slot).toList ++ rest.filterMap acceptance := by
    rw [waiting, List.filterMap_cons]
    cases acceptance slot <;> rfl
  constructor
  · simp only [loginsSent, loginsWaiting, queue, run_slot_queue] at logins ⊢
    rw [logins]
    simp only [List.append_assoc]
  · exact tracked.once
  · intro channel
    have memory := tracked.memory channel
    simp only [run_slot_deque, List.map_append]
    rcases loaded_cases { before.core with queue := rest } slot channel with
      ⟨rfl, rows⟩ | ⟨other, rows⟩
    · -- It is the only login, so nothing has been received or saved before it.
      have unhandled : handled = [] := by
        have once := tracked.once
        rw [logins, loginsWaiting, queue] at once
        simp only [acceptance, true_or, if_true, Option.toList_some, List.length_append,
          List.length_singleton] at once
        exact List.length_eq_zero_iff.mp (by omega)
      subst unhandled
      rcases tracked.quiet rfl channel with ⟨nothing, unsaved, -⟩
      have stored := tracked.stored channel
      rw [unsaved, nothing, List.append_nil, List.append_nil] at stored
      rw [nothing, List.append_nil] at memory
      rw [rows, memory, nothing]
      simpa [acceptance] using stored
    · rw [rows, memory]
      simp [other]
  · intro channel
    have stored := tracked.stored channel
    simp only [waiting, saving, List.flatMap_cons] at stored
    simp only [run_slot_load, run_slot_queue, saving, List.append_assoc]
    exact stored
  · intro unhandled channel
    rcases tracked.quiet (List.append_eq_nil_iff.mp unhandled).1 channel with
      ⟨nothing, unsaved, wire⟩
    simp only [waiting, saving, List.flatMap_cons, List.append_eq_nil_iff] at unsaved
    refine ⟨nothing, ?_, wire⟩
    simp only [run_slot_queue, saving]
    exact unsaved.2

theorem step_tracked {cache : History} {before after : Link} {action : LinkAction}
    (tracked : ∃ handled received, Tracked lib cache before handled received)
    (promised : Promised lib before action ∧ AfterLogin lib before action)
    (taken : step lib before action = some after) :
    ∃ handled received, Tracked lib cache after handled received := by
  rcases tracked with ⟨handled, received, tracked⟩
  cases action with
  | send arrival =>
      exact ⟨handled, received, send_tracked tracked promised.1 promised.2 taken⟩
  | io =>
      rcases io_tracked tracked taken with ⟨more, kept⟩
      exact ⟨handled, more, kept⟩
  | slot =>
      rcases slot_tracked tracked taken with ⟨more, kept⟩
      exact ⟨more, received, kept⟩

/-- What memory lacks are the rows that were there before a registration. -/
theorem tracked_agrees {cache : History} {link : Link} {handled : List StatusCode}
    {received : StdString → List (StdString × StdString × DateTime)}
    (tracked : Tracked lib cache link handled received) (settled : Settled lib link)
    {channel : StdString}
    (known : .autorOK ∈ loginsSent lib link ∨ cache.load channel = []) :
    Agrees link channel := by
  intro messages entry
  have memory := tracked.memory channel
  have stored := tracked.stored channel
  have inMemory : deque link.core.client channel = messages := by simp [deque, entry]
  rw [inMemory] at memory
  rw [settled.1] at stored
  simp only [saving, List.flatMap_nil, List.append_nil] at stored
  rw [memory, stored]
  rcases known with authorised | noRows
  · rw [← handled_of_logged_in tracked settled.2] at authorised
    rw [if_pos authorised]
  · simp [noRows]

/-- After an authorisation every deque agrees with the cache, and after a
registration every deque of a channel without earlier rows. -/
theorem histories_agree (lib : ProtocolLib) (cache : History) (actions : List LinkAction)
    (promised : EveryStep (step lib) (Promised lib) (Link.start cache) actions)
    (late : EveryStep (step lib) (AfterLogin lib) (Link.start cache) actions) :
    EveryState (step lib)
      (fun link => Settled lib link → ∀ channel,
        .autorOK ∈ loginsSent lib link ∨ cache.load channel = [] → Agrees link channel)
      (Link.start cache) actions := by
  have both := every_step_and (step lib) promised late
  have initial : ∃ handled received, Tracked lib cache (Link.start cache) handled received :=
    ⟨[], fun _ => [], start_tracked cache⟩
  have invariant := guarded_invariant (step lib) initial
    (fun _ _ _ tracked met taken => step_tracked tracked met taken) both
  intro done reached inside ran settled channel known
  rcases invariant done reached inside ran with ⟨handled, received, tracked⟩
  exact tracked_agrees tracked settled known

open AppchatClient.Lib.AppendMap (Multimap)
open AppchatClient.Session.Deque (hello joinedRoom echoHello)
open AppchatClient.Session.Server (inputAnswer regAnswer historyAnswer)

/-- A registration over a cache with a row, and an answer that comes before the login. -/
def frameAndSlots (arrival : Arrival) : List LinkAction := [.send arrival, .io, .slot, .slot]

theorem histories_agree_sample :
    EveryState (step chatLib)
      (fun link => Settled chatLib link → ∀ channel,
        .autorOK ∈ loginsSent chatLib link ∨ oneRow.load channel = [] → Agrees link channel)
      (Link.start oneRow)
      (frameAndSlots (inputAnswer 7) ++ frameAndSlots joinedRoom ++ frameAndSlots echoHello) :=
  histories_agree chatLib oneRow _
    (every_step_of_steps_meet (step chatLib) (by decide))
    (every_step_of_steps_meet (step chatLib) (by decide))

def registered : List LinkAction := frameAndSlots (regAnswer 7) ++ frameAndSlots joinedRoom

def answeredEarly : List LinkAction :=
  frameAndSlots joinedRoom ++ frameAndSlots (historyAnswer room [hello]) ++
    frameAndSlots (inputAnswer 7)

/-- In the first run the deque lacks the row, in the second it holds the message twice. -/
theorem histories_differ :
    (EveryStep (step chatLib) (Promised chatLib) (Link.start oneRow) registered ∧
      ¬ EveryState (step chatLib)
        (fun link => Settled chatLib link → ∀ channel, Agrees link channel)
        (Link.start oneRow) registered) ∧
    EveryStep (step chatLib) (Promised chatLib) (Link.start Multimap.empty) answeredEarly ∧
      ¬ EveryState (step chatLib)
        (fun link => Settled chatLib link → ∀ channel, Agrees link channel)
        (Link.start Multimap.empty) answeredEarly := by
  have refute (cache : History) (actions : List LinkAction) (memory rows : List MsgText)
      (fields : (run (step chatLib) (Link.start cache) actions).map (fun link =>
        (decide (Settled chatLib link), link.core.client.mChannelsHistory room,
          link.core.cache.load room)) = some (true, some memory, rows))
      (different : memory.map content ≠ rows.map content) :
      ¬ EveryState (step chatLib)
        (fun link => Settled chatLib link → ∀ channel, Agrees link channel)
        (Link.start cache) actions := by
    intro agree
    rcases last_state (step chatLib) agree fields with ⟨reached, values, agrees⟩
    simp only [Prod.mk.injEq, decide_eq_true_eq] at values
    rcases values with ⟨settled, entry, load⟩
    have same := agrees settled room memory entry
    rw [load] at same
    exact different same
  constructor
  · constructor
    · exact every_step_of_steps_meet (step chatLib) (by decide)
    · exact refute oneRow registered [] [hello] (by decide) (by decide)
  · constructor
    · exact every_step_of_steps_meet (step chatLib) (by decide)
    · exact refute Multimap.empty answeredEarly [hello, hello] [hello] (by decide) (by decide)

end AppchatClient.Session.Agreement
