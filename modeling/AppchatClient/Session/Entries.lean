import AppchatClient.Session.Window
import AppchatClient.Session.Exchange

/-!
# The entries of the channel list

An entry shows the last message of its channel in two labels. They are set when
the entry is made and again when `update_displayed_msg` runs, for the event of
a live message or of a history answer. The deque of the channel grows before,
on the io thread, and once more when cached rows are loaded, which no event
tells the entry.
-/

namespace AppchatClient.Session.Entries

open AppchatClient.Protocol AppchatClient.Io.Handlers AppchatClient.Lib.Runs
open AppchatClient.Lib.Decimal AppchatClient.Cache.Refinement
open AppchatClient.Session.Receivers AppchatClient.Session.Effects
open AppchatClient.Session.Exchange (oneRow)
open AppchatClient.Session.Server (inputAnswer channelsAnswer)
open AppchatClient.Session.Window

set_option autoImplicit false

structure Labels where
  lLastMessage : StdString
  lTimestamp : StdString
deriving DecidableEq, Repr

def Labels.initial : Labels where
  lLastMessage := "Last message".toList
  lTimestamp := "00.00.0000\n00:00:00".toList

def timestamp (dt : DateTime) : StdString :=
  padded 2 dt.date.day ++ ('.' :: (padded 2 dt.date.month ++ ('.' :: (padded 4 dt.date.year ++
    ('\n' :: (padded 2 dt.time.hours ++ (':' :: (padded 2 dt.time.minutes ++
      (':' :: padded 2 dt.time.seconds)))))))))

def Labels.of (msg : MsgText) : Labels where
  lLastMessage := msg.author ++ (": ".toList ++ msg.text)
  lTimestamp := timestamp msg.dt

/-- `update_displayed_msg`: an empty history leaves the labels alone. -/
def updateDisplayedMsg (history : List MsgText) (labels : Labels) : Labels :=
  match history.getLast? with
  | some msg => Labels.of msg
  | none => labels

/-- The window with the labels of its widgets, by their numbers. -/
structure Listing where
  window : MainWindow
  labels : Nat → Labels

namespace Listing

def addChannel (client : Client) (listing : Listing) (name : StdString) : Listing where
  window := listing.window.addChannel name
  labels := Function.update listing.labels listing.window.made
    (updateDisplayedMsg (deque client name) Labels.initial)

/-- `channels_[channel]->update_displayed_msg()`; without a widget the event
has no result, as `MainWindow.control` says. -/
def update (client : Client) (listing : Listing) (channel : StdString) : Nat → Labels :=
  match listing.window.channels channel with
  | some widget =>
      Function.update listing.labels widget.number
        (updateDisplayedMsg (deque client widget.channelName) (listing.labels widget.number))
  | none => listing.labels

def control (client : Client) (listing : Listing) : Slot → Nat → Labels
  | .textFromClient msg => listing.update client msg.channelName
  | .controlHistoryReceived channel => listing.update client channel
  | .controlJoined name => (listing.addChannel client name).labels
  | .controlChannelsReceived names => (names.foldl (addChannel client) listing).labels
  | _ => listing.labels

end Listing

structure View where
  screen : Screen
  labels : Nat → Labels

def View.listing (view : View) : Listing := ⟨view.screen.window, view.labels⟩

def View.start (cache : History) : View where
  screen := Screen.start cache
  labels _ := Labels.initial

def step (lib : ProtocolLib) (view : View) (action : ScreenAction) : Option View :=
  (Window.step lib view.screen action).map fun screen =>
    { screen := screen
      labels :=
        match action, view.screen.link.core.queue with
        | .slot, slot :: _ => view.listing.control screen.link.core.client slot
        | _, _ => view.labels }

def shown (messages : List MsgText) : Labels := updateDisplayedMsg messages Labels.initial

/-- The events after which the entry of a channel has looked at the deque. -/
def updates (channel : StdString) : Slot → Bool
  | .textFromClient msg => msg.channelName = channel
  | .controlHistoryReceived name => name = channel
  | .controlJoined name => name = channel
  | .controlChannelsReceived names => names.contains channel
  | _ => false

/-- The entry of every listed channel shows the last message that the channel's
deque has in one of the views `seen`, or the texts of the form for none. -/
def FromOwnHistory (seen : View → Prop) (view : View) : Prop :=
  ∀ name widget, view.screen.window.channels name = some widget →
    ∃ earlier, seen earlier ∧
      deque earlier.screen.link.core.client name <+: deque view.screen.link.core.client name ∧
      view.labels widget.number = shown (deque earlier.screen.link.core.client name)

/-- The views of a run, from its start to its end. -/
def Passed (lib : ProtocolLib) (cache : History) (actions : List ScreenAction) (view : View) :
    Prop :=
  ∃ done, done <+: actions ∧ run (step lib) (View.start cache) done = some view

/-- The entry of every listed channel that no waiting event will update shows
the last message of the channel's deque. -/
def UpToDate (view : View) : Prop :=
  ∀ name widget, view.screen.window.channels name = some widget →
    view.screen.link.core.queue.any (updates name) = false →
      view.labels widget.number = shown (deque view.screen.link.core.client name)

/-- Cached rows are loaded only for channels that are not listed yet. -/
def LoadsFirst (view : View) : ScreenAction → Prop
  | .slot => .onAuthorized .autorOK ∈ view.screen.link.core.queue.head? →
      ∀ name ∈ view.screen.link.core.cache.keys, view.screen.window.channels name = none
  | _ => True

instance (view : View) (action : ScreenAction) : Decidable (LoadsFirst view action) := by
  unfold LoadsFirst
  split <;> infer_instance

/-- No two widgets in use have one number, and the next number is not in use. -/
structure Numbered (window : MainWindow) : Prop where
  below : ∀ name widget, window.channels name = some widget → widget.number < window.made
  apart : ∀ name widget other second, window.channels name = some widget →
    window.channels other = some second → widget.number = second.number → name = other
  named : ∀ name widget, window.channels name = some widget → widget.channelName = name

theorem add_channel_numbered {window : MainWindow} (numbered : Numbered window)
    (name : StdString) : Numbered (window.addChannel name) := by
  have found {other : StdString} {widget : ChannelWidget}
      (stored : (window.addChannel name).channels other = some widget) :
      (other = name ∧ widget = ⟨window.made, name⟩) ∨
        (other ≠ name ∧ window.channels other = some widget) := by
    by_cases same : other = name
    · subst same
      left
      simpa [MainWindow.addChannel, eq_comm] using stored
    · right
      simp only [MainWindow.addChannel, Function.update_of_ne same] at stored
      exact ⟨same, stored⟩
  constructor
  · intro other widget stored
    rcases found stored with ⟨-, rfl⟩ | ⟨-, earlier⟩
    · exact Nat.lt_succ_self _
    · exact Nat.lt_succ_of_lt (numbered.below other widget earlier)
  · intro first widget second other stored also equal
    rcases found stored with ⟨rfl, rfl⟩ | ⟨-, earlier⟩
    · rcases found also with ⟨same, -⟩ | ⟨-, before⟩
      · exact same.symm
      · have below := numbered.below second other before
        simp only at equal
        omega
    · rcases found also with ⟨-, rfl⟩ | ⟨-, before⟩
      · have below := numbered.below first widget earlier
        simp only at equal
        omega
      · exact numbered.apart first widget second other earlier before equal
  · intro other widget stored
    rcases found stored with ⟨rfl, rfl⟩ | ⟨-, earlier⟩
    · rfl
    · exact numbered.named other widget earlier

theorem add_channel_all_numbered (names : List StdString) {window : MainWindow}
    (numbered : Numbered window) : Numbered (names.foldl MainWindow.addChannel window) := by
  induction names generalizing window with
  | nil => exact numbered
  | cons name rest ih => exact ih (add_channel_numbered numbered name)

theorem control_widgets {window next : MainWindow} {slot : Slot}
    (taken : window.control slot = some next) :
    next.channels = ((addedBy slot).foldl MainWindow.addChannel window).channels ∧
      next.made = ((addedBy slot).foldl MainWindow.addChannel window).made := by
  refine ⟨(control_some taken).channels, ?_⟩
  cases slot with
  | textFromClient msg =>
      simp only [MainWindow.control, MainWindow.messageReceived] at taken
      split at taken
      · obtain rfl := Option.some.inj taken
        split_ifs <;> rfl
      · cases taken
  | controlHistoryReceived channel =>
      rcases Option.map_eq_some_iff.mp taken with ⟨widget, -, rfl⟩
      rfl
  | _ =>
      obtain rfl := Option.some.inj taken
      rfl

theorem control_numbered {window next : MainWindow} {slot : Slot} (numbered : Numbered window)
    (taken : window.control slot = some next) : Numbered next := by
  rcases control_widgets taken with ⟨channels, made⟩
  have kept := add_channel_all_numbered (addedBy slot) numbered
  constructor
  · rw [channels, made]
    exact kept.below
  · rw [channels]
    exact kept.apart
  · rw [channels]
    exact kept.named

/-- A history only grows, so an entry that has shown a part of it is set anew. -/
theorem update_shown {seen messages : List MsgText} (part : seen <+: messages) :
    updateDisplayedMsg messages (shown seen) = shown messages := by
  cases last : messages.getLast? with
  | some msg => simp [shown, updateDisplayedMsg, last]
  | none =>
      rw [List.getLast?_eq_none_iff.mp last] at part ⊢
      rw [List.prefix_nil.mp part]
      rfl

def Showing (client : Client) (listing : Listing) : Prop :=
  ∀ name widget, listing.window.channels name = some widget →
    ∃ seen, seen <+: deque client name ∧ listing.labels widget.number = shown seen

/-- One entry is as it was, or it shows the last message of its deque now. -/
def Renewed (client : Client) (listing : Listing) (renewed : Bool) (name : StdString)
    (widget : ChannelWidget) (labels : Nat → Labels) : Prop :=
  (renewed = true → labels widget.number = shown (deque client name)) ∧
    (renewed = false → listing.window.channels name = some widget ∧
      labels widget.number = listing.labels widget.number)

variable {client : Client} {listing : Listing}

theorem update_renews (numbered : Numbered listing.window) (showing : Showing client listing)
    {channel : StdString} (found : (listing.window.channels channel).isSome) {name : StdString}
    {widget : ChannelWidget} (stored : listing.window.channels name = some widget) :
    Renewed client listing (channel = name) name widget (listing.update client channel) := by
  rcases Option.isSome_iff_exists.mp found with ⟨target, held⟩
  have label : listing.update client channel =
      Function.update listing.labels target.number
        (updateDisplayedMsg (deque client target.channelName) (listing.labels target.number)) := by
    rw [Listing.update, held]
  rw [label, numbered.named channel target held]
  constructor
  · intro renewed
    obtain rfl := of_decide_eq_true renewed
    obtain rfl := Option.some.inj (held.symm.trans stored)
    rcases showing channel target held with ⟨seen, part, before⟩
    rw [Function.update_self, before, update_shown part]
  · intro leftAlone
    have other : channel ≠ name := of_decide_eq_false leftAlone
    have different : widget.number ≠ target.number := by
      intro same
      exact other (numbered.apart name widget channel target stored held same).symm
    exact ⟨stored, Function.update_of_ne different _ _⟩

theorem add_channel_renews (client : Client) (numbered : Numbered listing.window)
    (added name : StdString) {widget : ChannelWidget}
    (stored : (listing.window.addChannel added).channels name = some widget) :
    Renewed client listing (name = added) name widget
      (listing.addChannel client added).labels := by
  constructor
  · intro renewed
    obtain rfl := of_decide_eq_true renewed
    simp only [MainWindow.addChannel, Function.update_self, Option.some.injEq] at stored
    subst stored
    simp [Listing.addChannel, shown]
  · intro leftAlone
    have other : name ≠ added := of_decide_eq_false leftAlone
    simp only [MainWindow.addChannel, Function.update_of_ne other] at stored
    have below := numbered.below name widget stored
    refine ⟨stored, ?_⟩
    simp only [Listing.addChannel]
    exact Function.update_of_ne (by omega) _ _

theorem add_channel_all_renews (names : List StdString) (numbered : Numbered listing.window)
    {name : StdString} {widget : ChannelWidget}
    (stored : (names.foldl MainWindow.addChannel listing.window).channels name = some widget) :
    Renewed client listing (names.contains name) name widget
      (names.foldl (Listing.addChannel client) listing).labels := by
  induction names generalizing listing with
  | nil =>
      refine ⟨?_, fun _ => ⟨stored, rfl⟩⟩
      simp
  | cons added rest ih =>
      have next : Numbered (listing.addChannel client added).window :=
        add_channel_numbered numbered added
      have later := ih next stored
      rw [List.foldl_cons]
      by_cases again : name ∈ rest
      · refine ⟨fun _ => later.1 (List.contains_iff_mem.mpr again), ?_⟩
        simp [again]
      · rcases later.2 (by simpa using again) with ⟨held, kept⟩
        have first := add_channel_renews client numbered added name held
        constructor
        · intro renewed
          rw [kept]
          apply first.1
          simpa [again] using renewed
        · intro leftAlone
          rw [kept]
          apply first.2
          simp only [List.contains_eq_mem, List.mem_cons, decide_eq_false_iff_not,
            not_or] at leftAlone ⊢
          exact leftAlone.1

theorem control_renews (numbered : Numbered listing.window) (showing : Showing client listing)
    {slot : Slot} {next : MainWindow} (taken : listing.window.control slot = some next)
    {name : StdString} {widget : ChannelWidget} (stored : next.channels name = some widget) :
    Renewed client listing (updates name slot) name widget (listing.control client slot) := by
  rw [(control_widgets taken).1] at stored
  cases slot with
  | textFromClient msg =>
      have found : (listing.window.channels msg.channelName).isSome := by
        simp only [MainWindow.control, MainWindow.messageReceived] at taken
        split at taken
        · rename_i held
          simp [held]
        · cases taken
      exact update_renews numbered showing found stored
  | controlHistoryReceived channel =>
      have found : (listing.window.channels channel).isSome := by
        rcases Option.map_eq_some_iff.mp taken with ⟨held, same, -⟩
        simp [same]
      exact update_renews numbered showing found stored
  | controlJoined added =>
      have new := add_channel_renews client numbered added name stored
      simpa [Renewed, updates, Listing.control, eq_comm] using new
  | controlChannelsReceived names => exact add_channel_all_renews names numbered stored
  | _ => exact ⟨by simp [updates], fun _ => ⟨stored, rfl⟩⟩

variable {lib : ProtocolLib}

theorem posted_updates (lib : ProtocolLib) {arrival : Arrival} {channel : StdString}
    (someMessage : pushed lib arrival channel ≠ []) :
    ((signals lib arrival).flatMap connected).any (updates channel) = true := by
  rcases arrival with ⟨read, response⟩
  cases read with
  | echoResponse =>
      by_cases same : (lib.parseTextRes response).channelName = channel
      · simp [signals, connected, updates, same]
      · simp [pushed, same] at someMessage
  | historyResponse =>
      cases answer : response.historyResponse with
      | none => simp [pushed, answer] at someMessage
      | some history =>
          by_cases same : history.channelName = channel
          · simp [signals, answer, connected, updates, same]
          · simp [pushed, answer, same] at someMessage
  | _ => exact absurd rfl someMessage

structure Tracked (seen : View → Prop) (view : View) : Prop where
  numbered : Numbered view.screen.window
  own : FromOwnHistory seen view

variable {before after : View} {seen : View → Prop}

theorem start_tracked (cache : History) : Tracked seen (View.start cache) where
  numbered := by constructor <;> simp [View.start, Screen.start]
  own := by simp [FromOwnHistory, View.start, Screen.start]

theorem tracked_mono {more : View → Prop} (wider : ∀ view, seen view → more view)
    (tracked : Tracked seen before) : Tracked more before where
  numbered := tracked.numbered
  own name widget stored := by
    rcases tracked.own name widget stored with ⟨earlier, passed, part, same⟩
    exact ⟨earlier, wider earlier passed, part, same⟩

inductive Stepped (lib : ProtocolLib) (before after : View) : ScreenAction → Prop
  | send (arrival : Arrival)
      (link : after.screen.link.core = before.screen.link.core)
      (window : after.screen.window = before.screen.window)
      (labels : after.labels = before.labels) :
      Stepped lib before after (.send arrival)
  | io (arrival : Arrival)
      (received : Received lib before.screen.link.core arrival after.screen.link.core)
      (window : after.screen.window = before.screen.window)
      (labels : after.labels = before.labels) :
      Stepped lib before after .io
  | slot (slot : Slot) (rest : List Slot)
      (waiting : before.screen.link.core.queue = slot :: rest)
      (core : after.screen.link.core =
        runSlot lib { before.screen.link.core with queue := rest } slot)
      (window : before.screen.window.control slot = some after.screen.window)
      (labels : after.labels = before.listing.control after.screen.link.core.client slot) :
      Stepped lib before after .slot
  | select (index : Nat)
      (link : after.screen.link.core = before.screen.link.core)
      (widgets : after.screen.window.channels = before.screen.window.channels ∧
        after.screen.window.made = before.screen.window.made)
      (labels : after.labels = before.labels) :
      Stepped lib before after (.select index)

theorem step_stepped {action : ScreenAction} (taken : step lib before action = some after) :
    Stepped lib before after action := by
  rcases Option.map_eq_some_iff.mp taken with ⟨screen, moved, rfl⟩
  cases action with
  | send arrival =>
      obtain rfl := Option.some.inj moved
      exact .send arrival rfl rfl rfl
  | io =>
      rcases Window.io_some moved with ⟨arrival, rest, core, frames, received, rfl⟩
      exact .io arrival (receive_received received) rfl rfl
  | slot =>
      rcases Window.slot_some moved with ⟨slot, rest, window, waiting, controlled, rfl⟩
      refine .slot slot rest waiting rfl controlled ?_
      simp only [waiting]
  | select index =>
      rcases Window.select_some moved with ⟨widget, rfl, item⟩
      exact .select index rfl ⟨rfl, rfl⟩ rfl

theorem showing_at_slot {slot : Slot} {rest : List Slot} (own : FromOwnHistory seen before)
    (core : after.screen.link.core =
      runSlot lib { before.screen.link.core with queue := rest } slot) :
    Showing after.screen.link.core.client before.listing := by
  intro name widget stored
  rcases own name widget stored with ⟨earlier, -, part, same⟩
  refine ⟨_, part.trans ?_, same⟩
  rw [core, run_slot_deque]
  exact List.prefix_append _ _

theorem step_tracked {action : ScreenAction} (tracked : Tracked seen before)
    (taken : step lib before action = some after) (reached : seen after) : Tracked seen after := by
  cases step_stepped taken with
  | send arrival link window labels =>
      refine ⟨window ▸ tracked.numbered, ?_⟩
      intro name widget stored
      rw [window] at stored
      rw [link, labels]
      exact tracked.own name widget stored
  | io arrival received window labels =>
      refine ⟨window ▸ tracked.numbered, ?_⟩
      intro name widget stored
      rw [window] at stored
      rcases tracked.own name widget stored with ⟨earlier, passed, part, same⟩
      refine ⟨earlier, passed, ?_, by rw [labels, same]⟩
      rw [received.deque]
      exact part.trans (List.prefix_append _ _)
  | slot slot rest waiting core window labels =>
      have showing := showing_at_slot tracked.own core
      refine ⟨control_numbered tracked.numbered window, ?_⟩
      intro name widget stored
      have renews := control_renews tracked.numbered showing window stored
      rw [labels]
      by_cases renewed : updates name slot = true
      · exact ⟨after, reached, List.prefix_refl _, renews.1 renewed⟩
      · rcases renews.2 (Bool.eq_false_iff.mpr renewed) with ⟨held, kept⟩
        rcases tracked.own name widget held with ⟨earlier, passed, part, same⟩
        refine ⟨earlier, passed, part.trans ?_, kept.trans same⟩
        rw [core, run_slot_deque]
        exact List.prefix_append _ _
  | select index link widgets labels =>
      constructor
      · constructor
        · rw [widgets.1, widgets.2]
          exact tracked.numbered.below
        · rw [widgets.1]
          exact tracked.numbered.apart
        · rw [widgets.1]
          exact tracked.numbered.named
      · intro name widget stored
        rw [widgets.1] at stored
        rw [link, labels]
        exact tracked.own name widget stored

theorem step_up_to_date {action : ScreenAction} (tracked : Tracked seen before)
    (current : UpToDate before) (first : LoadsFirst before action)
    (taken : step lib before action = some after) : UpToDate after := by
  cases step_stepped taken with
  | send arrival link window labels =>
      intro name widget stored quiet
      rw [window] at stored
      rw [link] at quiet ⊢
      rw [labels]
      exact current name widget stored quiet
  | io arrival received window labels =>
      intro name widget stored quiet
      rw [window] at stored
      rw [received.queue, List.any_append, Bool.or_eq_false_iff] at quiet
      have nothing : pushed lib arrival name = [] := by
        by_contra someMessage
        rw [posted_updates lib someMessage] at quiet
        exact absurd quiet.2 (by simp)
      rw [labels, received.deque, nothing, List.append_nil]
      exact current name widget stored quiet.1
  | slot slot rest waiting core window labels =>
      intro name widget stored quiet
      have showing := showing_at_slot tracked.own core
      have renews := control_renews tracked.numbered showing window stored
      rw [labels]
      by_cases renewed : updates name slot = true
      · exact renews.1 renewed
      · have leftAlone := Bool.eq_false_iff.mpr renewed
        rcases renews.2 leftAlone with ⟨held, kept⟩
        rw [core, run_slot_queue] at quiet
        have beforeQuiet : before.screen.link.core.queue.any (updates name) = false := by
          rw [waiting, List.any_cons, leftAlone]
          exact quiet
        have nothing : loaded before.screen.link.core slot name = [] := by
          cases slot with
          | onAuthorized code =>
              by_cases accepted : code = .autorOK
              · subst accepted
                have unlisted := first (by rw [waiting]; rfl)
                have uncached : name ∉ before.screen.link.core.cache.keys := by
                  intro cached
                  exact absurd ((unlisted name cached).symm.trans held) (by simp)
                rw [Lib.AppendMap.Multimap.mem_keys, not_not] at uncached
                simp [loaded, uncached]
              · simp [loaded, accepted]
          | _ => rfl
        have same : deque after.screen.link.core.client name =
            deque before.screen.link.core.client name := by
          rw [core, run_slot_deque]
          exact (congrArg _ nothing).trans (List.append_nil _)
        rw [kept, same]
        exact current name widget held beforeQuiet
  | select index link widgets labels =>
      intro name widget stored quiet
      rw [widgets.1] at stored
      rw [link] at quiet ⊢
      rw [labels]
      exact current name widget stored quiet

theorem run_tracked {cache : History} {actions : List ScreenAction} {reached : View}
    (ran : run (step lib) (View.start cache) actions = some reached) :
    Tracked (Passed lib cache actions) reached := by
  induction actions using List.reverseRecOn generalizing reached with
  | nil =>
      obtain rfl := Option.some.inj ran
      exact start_tracked cache
  | append_singleton done action ih =>
      rcases run_snoc_some (step lib) ran with ⟨before, earlier, taken⟩
      have longer (view : View) (passed : Passed lib cache done view) :
          Passed lib cache (done ++ [action]) view := by
        rcases passed with ⟨moment, part, there⟩
        exact ⟨moment, part.trans (List.prefix_append _ _), there⟩
      exact step_tracked (tracked_mono longer (ih earlier)) taken ⟨_, List.prefix_refl _, ran⟩

/-- Whatever the server sends and whatever the user selects: an entry shows the
last message that its own channel has, or had in an earlier state of the run. -/
theorem entries_from_own_history {lib : ProtocolLib} {cache : History}
    {actions : List ScreenAction} {reached : View}
    (ran : run (step lib) (View.start cache) actions = some reached) :
    FromOwnHistory (Passed lib cache actions) reached :=
  (run_tracked ran).own

/-- In every run in which the cached rows are loaded before their channels are
listed, an entry shows the last message of its channel whenever no event that
will update it is waiting. -/
theorem entries_up_to_date (lib : ProtocolLib) (cache : History) {actions : List ScreenAction}
    (first : EveryStep (step lib) LoadsFirst (View.start cache) actions) :
    EveryState (step lib) UpToDate (View.start cache) actions := by
  have initial : Tracked (fun _ => True) (View.start cache) ∧ UpToDate (View.start cache) := by
    refine ⟨start_tracked cache, ?_⟩
    intro name widget stored
    simp [View.start, Screen.start] at stored
  have both := guarded_invariant (step lib) initial
    (fun _ _ _ held guarded taken => And.intro (step_tracked held.1 taken trivial)
      (step_up_to_date held.1 held.2 guarded taken)) first
  exact every_state_mono (step lib) (fun _ held => held.2) both

def loginAndMessage : List ScreenAction :=
  [.send (inputAnswer 7), .io, .slot, .slot, .send (channelsAnswer [room]), .io, .slot, .slot,
    .send Deque.echoHello, .io, .slot, .slot, .select 0]

theorem entries_from_own_history_sample : ∃ reached,
    run (step chatLib) (View.start oneRow) loginAndMessage = some reached ∧
      FromOwnHistory (Passed chatLib oneRow loginAndMessage) reached := by
  have finishes : (run (step chatLib) (View.start oneRow) loginAndMessage).isSome = true := by
    decide
  rcases Option.isSome_iff_exists.mp finishes with ⟨reached, ran⟩
  exact ⟨reached, ran, entries_from_own_history ran⟩

theorem entries_up_to_date_sample :
    EveryState (step chatLib) UpToDate (View.start oneRow) loginAndMessage :=
  entries_up_to_date chatLib oneRow (every_step_of_steps_meet (step chatLib) (by decide))

end AppchatClient.Session.Entries
