import AppchatClient.Session.Window
import AppchatClient.Session.Exchange

/-!
# The message view at rest

When no event waits, the selected channel should have one row for each message
of its deque. A selection counts the deque, and the event of a live message
adds its row; nothing adds rows for the messages of a history answer.
-/

namespace AppchatClient.Session.ViewComplete

open AppchatClient.Protocol AppchatClient.Io.Handlers AppchatClient.Lib.Runs
open AppchatClient.Cache.Refinement AppchatClient.Session.Receivers AppchatClient.Session.Effects
open AppchatClient.Session.Exchange (historyOf loaded_cases)
open AppchatClient.Session.Window

set_option autoImplicit false

/-- `currentItem` is that of `lwChannels`: there is none before a channel is selected. -/
structure View where
  screen : Screen
  currentItem : Option Nat

def step (lib : ProtocolLib) (view : View) (action : ScreenAction) : Option View :=
  (Window.step lib view.screen action).map fun screen =>
    { screen := screen
      currentItem :=
        match action with
        | .select index => some index
        | _ => view.currentItem }

def View.start (cache : History) : View where
  screen := Screen.start cache
  currentItem := none

/-- With a channel selected and no event waiting, there is one row for each
message in the history of the current channel. -/
def RowsComplete (view : View) : Prop :=
  view.currentItem.isSome → view.screen.link.core.queue = [] →
    (view.screen.window.history view.screen.link.core.client
      view.screen.window.lChannelName).map List.length = some view.screen.window.lwMessages

/-- A channel is selected when none of its live messages waits to be shown.
While it is selected, no history answer brings messages of it, and no cached
rows of it are loaded. -/
def OnlyLive (view : View) : ScreenAction → Prop
  | .send _ => True
  | .io => view.currentItem.isSome → ∀ arrival ∈ view.screen.link.wire.head?,
      ∀ answer ∈ historyOf arrival,
        answer.channelName = view.screen.window.lChannelName → answer.messages = []
  | .slot => view.currentItem.isSome →
      .onAuthorized .autorOK ∈ view.screen.link.core.queue.head? →
        view.screen.link.core.cache.load view.screen.window.lChannelName = []
  | .select index => CalmSelection view.screen (.select index)

instance (view : View) (action : ScreenAction) : Decidable (OnlyLive view action) := by
  unfold OnlyLive
  split <;> infer_instance

variable {lib : ProtocolLib} {before after : View}

/-- The rows and the events that will add one are as many as the messages. -/
structure Exact (view : View) : Prop where
  listed : Listed view.screen.window
  found : view.currentItem.isSome →
    (view.screen.window.channels view.screen.window.lChannelName).isSome
  rows : view.currentItem.isSome →
    view.screen.window.lwMessages +
        unshown view.screen.link.core.queue view.screen.window.lChannelName =
      (deque view.screen.link.core.client view.screen.window.lChannelName).length

theorem start_exact (cache : History) : Exact (View.start cache) where
  listed := (start_counted cache).listed
  found := by simp [View.start]
  rows := by simp [View.start]

theorem exact_rows_complete {view : View} (exact : Exact view) : RowsComplete view := by
  intro selected idle
  have rows := exact.rows selected
  rw [idle] at rows
  rcases Option.isSome_iff_exists.mp (exact.found selected) with ⟨widget, stored⟩
  rw [MainWindow.history, stored, Option.map_some, exact.listed.named _ _ stored]
  simpa [unshown] using rows.symm

theorem posted_eq_pushed (lib : ProtocolLib) {arrival : Arrival} {channel : StdString}
    (live : ∀ answer ∈ historyOf arrival, answer.channelName = channel → answer.messages = []) :
    unshown ((signals lib arrival).flatMap connected) channel =
      (pushed lib arrival channel).length := by
  have bound := posted_le_pushed lib arrival channel
  rcases arrival with ⟨read, response⟩
  cases read with
  | echoResponse =>
      by_cases same : (lib.parseTextRes response).channelName = channel <;>
        simp [signals, connected, unshown, shows, pushed, same]
  | historyResponse =>
      have empty : pushed lib ⟨.historyResponse, response⟩ channel = [] := by
        cases answer : response.historyResponse with
        | none => simp [pushed, answer]
        | some history =>
            by_cases same : history.channelName = channel
            · simpa [pushed, answer, same] using live history (by simp [historyOf, answer]) same
            · simp [pushed, answer, same]
      rw [empty] at bound ⊢
      simpa using bound
  | _ =>
      simp only [pushed, List.length_nil, Nat.le_zero] at bound ⊢
      exact bound

theorem io_exact (exact : Exact before) (live : OnlyLive before .io)
    (taken : step lib before .io = some after) : Exact after := by
  rcases Option.map_eq_some_iff.mp taken with ⟨screen, moved, rfl⟩
  rcases io_some moved with ⟨arrival, rest, core, frames, received, rfl⟩
  have effect := receive_received received
  refine ⟨exact.listed, exact.found, ?_⟩
  intro selected
  have rows := exact.rows selected
  have posted := posted_eq_pushed lib (live selected arrival (by simp [frames]))
  simp only [effect.queue, unshown_append, effect.deque, List.length_append]
  omega

theorem slot_exact (exact : Exact before) (live : OnlyLive before .slot)
    (taken : step lib before .slot = some after) : Exact after := by
  rcases Option.map_eq_some_iff.mp taken with ⟨screen, moved, rfl⟩
  rcases slot_some moved with ⟨slot, rest, window, waiting, controlled, rfl⟩
  have kept := control_kept controlled
  refine ⟨kept.listed exact.listed, ?_, ?_⟩
  · intro selected
    simp only [kept.current]
    exact kept.found _ (exact.found selected)
  · intro selected
    have rows := exact.rows selected
    rw [waiting, unshown_cons] at rows
    have unloaded : loaded { before.screen.link.core with queue := rest } slot
        before.screen.window.lChannelName = [] := by
      rcases loaded_cases { before.screen.link.core with queue := rest } slot
        before.screen.window.lChannelName with ⟨rfl, load⟩ | ⟨-, empty⟩
      · rw [load]
        exact live selected (by simp [waiting])
      · exact empty
    simp only [kept.current, kept.rows, run_slot_queue, run_slot_deque, unloaded, List.append_nil]
    omega

theorem select_exact {index : Nat} (exact : Exact before)
    (calm : OnlyLive before (.select index))
    (taken : step lib before (.select index) = some after) : Exact after := by
  rcases Option.map_eq_some_iff.mp taken with ⟨screen, moved, rfl⟩
  rcases select_some moved with ⟨widget, rfl, item⟩
  have stored := exact.listed.attached widget (List.mem_of_getElem? item)
  refine ⟨⟨exact.listed.named, exact.listed.attached⟩, ?_, ?_⟩
  · intro _
    simp [stored]
  · intro _
    simp [calm widget item]

theorem step_exact {action : ScreenAction} (exact : Exact before) (live : OnlyLive before action)
    (taken : step lib before action = some after) : Exact after := by
  cases action with
  | send arrival =>
      obtain rfl := Option.some.inj taken
      exact ⟨exact.listed, exact.found, exact.rows⟩
  | io => exact io_exact exact live taken
  | slot => exact slot_exact exact live taken
  | select index => exact select_exact exact live taken

/-- In every run in which the selected channel grows by live messages only. -/
theorem rows_complete_when_live (lib : ProtocolLib) (cache : History)
    {actions : List ScreenAction}
    (live : EveryStep (step lib) OnlyLive (View.start cache) actions) :
    EveryState (step lib) RowsComplete (View.start cache) actions := by
  have exact := guarded_invariant (step lib) (start_exact cache)
    (fun _ _ _ held live taken => step_exact held live taken) live
  exact every_state_mono (step lib) (fun _ => exact_rows_complete) exact

open AppchatClient.Session.Deque (hello joinedRoom echoHello)

def roomSelected : List ScreenAction := [.send joinedRoom, .io, .slot, .slot, .select 0]

theorem rows_complete_when_live_sample :
    EveryState (step chatLib) RowsComplete (View.start Lib.AppendMap.Multimap.empty)
      (roomSelected ++ [.send echoHello, .io, .slot, .slot]) :=
  rows_complete_when_live chatLib Lib.AppendMap.Multimap.empty
    (every_step_of_steps_meet (step chatLib) (by decide))

theorem history_without_rows :
    ¬ EveryState (step chatLib) RowsComplete (View.start Lib.AppendMap.Multimap.empty)
      (roomSelected ++ [.send (Server.historyAnswer room [hello]), .io, .slot, .slot]) := by
  intro complete
  have fields : (run (step chatLib) (View.start Lib.AppendMap.Multimap.empty)
      (roomSelected ++ [.send (Server.historyAnswer room [hello]), .io, .slot, .slot])).map
        (fun view => (decide (view.currentItem.isSome ∧ view.screen.link.core.queue = []),
          (view.screen.window.history view.screen.link.core.client
            view.screen.window.lChannelName).map List.length, view.screen.window.lwMessages)) =
      some (true, some 1, 0) := by
    decide
  rcases last_state (step chatLib) complete fields with ⟨reached, values, rowsComplete⟩
  simp only [Prod.mk.injEq, decide_eq_true_eq] at values
  rcases values with ⟨⟨selected, idle⟩, size, rows⟩
  have same := rowsComplete selected idle
  rw [size, rows] at same
  cases same

end AppchatClient.Session.ViewComplete
