import AppchatClient.Session.Window

/-!
# The items of the channel list

`add_channel` appends an item whatever `channels_` holds, and its assignment
destroys the widget that an earlier item of the same name shows. The item
stays in the list without a widget.
-/

namespace AppchatClient.Session.ChannelList

open AppchatClient.Protocol AppchatClient.Lib.Runs
open AppchatClient.Cache.Refinement AppchatClient.Session.Receivers AppchatClient.Session.Effects
open AppchatClient.Session.Window

set_option autoImplicit false

/-- A call of one of the two slots that add a channel. The history argument is
the deque of the name, which is the history of every widget. -/
inductive Call where
  | channelReceived (channel : StdString)
  | joined (channelName : StdString)
deriving DecidableEq, Repr

def Call.name : Call → StdString
  | .channelReceived channel => channel
  | .joined channelName => channelName

def channelReceived (window : MainWindow) (channel : StdString) : MainWindow :=
  window.addChannel channel

def joined (window : MainWindow) (channelName : StdString) : MainWindow :=
  window.addChannel channelName

def called (window : MainWindow) : Call → MainWindow
  | .channelReceived channel => channelReceived window channel
  | .joined channelName => joined window channelName

theorem called_eq (window : MainWindow) (call : Call) :
    called window call = window.addChannel call.name := by
  cases call with
  | channelReceived channel => rfl
  | joined channelName => rfl

def opened : MainWindow where
  channels := fun _ => none
  made := 0
  lwChannels := []
  lChannelName := []
  lwMessages := 0

def afterCalls (calls : List Call) : MainWindow := calls.foldl called opened

def itemName (window : MainWindow) (index : Nat) : Option StdString :=
  (window.lwChannels[index]?).join.map ChannelWidget.channelName

/-- Each name that was added has one item, and each item the widget that
`channels_` holds for a name that was added. -/
structure ShowsOnce (window : MainWindow) (added : List StdString) : Prop where
  one : ∀ name ∈ added, ∃! index, itemName window index = some name
  live : ∀ item ∈ window.lwChannels, ∃ widget, item = some widget ∧
    widget.channelName ∈ added ∧ window.channels widget.channelName = some widget
  selects : ∀ client, ∀ index < window.lwChannels.length,
    (window.channelSelected client index).isSome

structure Tracked (window : MainWindow) (added : List StdString) : Prop where
  listed : Listed window
  stored : ∀ name, (window.channels name).isSome ↔ name ∈ added
  shown : ∀ name widget, window.channels name = some widget → some widget ∈ window.lwChannels
  dead : ¬ added.Nodup → none ∈ window.lwChannels
  items : added.Nodup → window.lwChannels = added.map window.channels

theorem opened_tracked : Tracked opened [] where
  listed := (start_counted Lib.AppendMap.Multimap.empty).listed
  stored := by simp [opened]
  shown := by simp [opened]
  dead := by simp
  items := by simp [opened]

theorem nodup_snoc {added : List StdString} {name : StdString} :
    (added ++ [name]).Nodup ↔ name ∉ added ∧ added.Nodup := by
  rw [← List.concat_eq_append]
  exact List.nodup_concat added name

theorem add_channel_keeps_item {window : MainWindow} {name : StdString}
    {item : Option ChannelWidget} (inside : item ∈ window.lwChannels)
    (other : item ≠ window.channels name) : item ∈ (window.addChannel name).lwChannels := by
  apply List.mem_append_left
  apply List.mem_map.mpr
  exact ⟨item, inside, if_neg other⟩

theorem add_channel_detaches {window : MainWindow} {name : StdString}
    (inside : window.channels name ∈ window.lwChannels) :
    none ∈ (window.addChannel name).lwChannels := by
  apply List.mem_append_left
  apply List.mem_map.mpr
  exact ⟨window.channels name, inside, if_pos rfl⟩

theorem add_channel_tracked {window : MainWindow} {added : List StdString}
    (tracked : Tracked window added) (name : StdString) :
    Tracked (window.addChannel name) (added ++ [name]) := by
  constructor
  · exact add_channel_listed tracked.listed name
  · intro other
    rw [channels_add_channel, tracked.stored, List.mem_append, List.mem_singleton]
    exact or_comm
  · intro other widget found
    by_cases same : other = name
    · apply List.mem_append_right
      simpa [MainWindow.addChannel, same] using found.symm
    · have kept : window.channels other = some widget := by
        simpa [MainWindow.addChannel, same] using found
      apply add_channel_keeps_item (tracked.shown other widget kept)
      intro detached
      have named := tracked.listed.named other widget kept
      exact same (named.symm.trans (tracked.listed.named name widget detached.symm))
  · intro repeated
    by_cases before : added.Nodup
    · have again : name ∈ added := by
        by_contra new
        exact repeated (nodup_snoc.mpr ⟨new, before⟩)
      rcases Option.isSome_iff_exists.mp ((tracked.stored name).mpr again) with ⟨widget, found⟩
      apply add_channel_detaches
      rw [found]
      exact tracked.shown name widget found
    · have earlier := tracked.dead before
      by_cases missing : none = window.channels name
      · apply add_channel_detaches
        rwa [← missing]
      · exact add_channel_keeps_item earlier missing
  · intro distinct
    rcases nodup_snoc.mp distinct with ⟨new, before⟩
    have missing : window.channels name = none := by
      rw [← Option.not_isSome_iff_eq_none, tracked.stored]
      exact new
    have attached : window.lwChannels.map (fun item =>
        if item = window.channels name then none else item) = window.lwChannels := by
      apply List.map_id''
      intro item
      rw [missing]
      split_ifs with empty
      · exact empty.symm
      · rfl
    have others : added.map (window.addChannel name).channels = added.map window.channels := by
      apply List.map_congr_left
      intro other member
      have different : other ≠ name := fun same => new (same ▸ member)
      simp [MainWindow.addChannel, different]
    rw [List.map_append, others, ← tracked.items before]
    simp only [MainWindow.addChannel, attached, List.map_cons, List.map_nil, Function.update_self]

theorem add_channel_all_tracked (names : List StdString) {window : MainWindow}
    {added : List StdString} (tracked : Tracked window added) :
    Tracked (names.foldl MainWindow.addChannel window) (added ++ names) := by
  induction names generalizing window added with
  | nil => simpa using tracked
  | cons name rest ih => simpa using ih (add_channel_tracked tracked name)

theorem after_calls_tracked (calls : List Call) :
    Tracked (afterCalls calls) (calls.map Call.name) := by
  have names : afterCalls calls = (calls.map Call.name).foldl MainWindow.addChannel opened := by
    rw [afterCalls, List.foldl_map]
    congr 1
    funext window call
    exact called_eq window call
  rw [names]
  exact add_channel_all_tracked (calls.map Call.name) opened_tracked

theorem item_name_of_nodup {window : MainWindow} {added : List StdString}
    (tracked : Tracked window added) (distinct : added.Nodup) (index : Nat) :
    itemName window index = added[index]? := by
  rw [itemName, tracked.items distinct, List.getElem?_map]
  cases place : added[index]? with
  | none => rfl
  | some name =>
      have member := List.mem_of_getElem? place
      rcases Option.isSome_iff_exists.mp ((tracked.stored name).mpr member) with ⟨widget, found⟩
      simp [found, tracked.listed.named name widget found]

theorem shows_once_iff_nodup {window : MainWindow} {added : List StdString}
    (tracked : Tracked window added) : ShowsOnce window added ↔ added.Nodup := by
  constructor
  · intro shows
    by_contra repeated
    rcases shows.live none (tracked.dead repeated) with ⟨widget, same, -⟩
    cases same
  · intro distinct
    have live (item : Option ChannelWidget) (inside : item ∈ window.lwChannels) :
        ∃ widget, item = some widget ∧ widget.channelName ∈ added ∧
          window.channels widget.channelName = some widget := by
      rw [tracked.items distinct] at inside
      rcases List.mem_map.mp inside with ⟨name, member, rfl⟩
      rcases Option.isSome_iff_exists.mp ((tracked.stored name).mpr member) with ⟨widget, found⟩
      obtain rfl := tracked.listed.named name widget found
      exact ⟨widget, found, member, found⟩
    constructor
    · intro name member
      rcases List.getElem?_of_mem member with ⟨index, place⟩
      refine ⟨index, (item_name_of_nodup tracked distinct index).trans place, ?_⟩
      intro other named
      rw [item_name_of_nodup tracked distinct] at named
      rcases List.getElem?_eq_some_iff.mp named with ⟨inside, -⟩
      exact (List.getElem?_inj inside distinct).mp (named.trans place.symm)
    · exact live
    · intro client index inside
      rcases live _ (List.getElem_mem inside) with ⟨widget, found, -⟩
      simp [MainWindow.channelSelected, found, inside]

theorem shows_once_iff_added_once (calls : List Call) :
    ShowsOnce (afterCalls calls) (calls.map Call.name) ↔ (calls.map Call.name).Nodup :=
  shows_once_iff_nodup (after_calls_tracked calls)

def listedAndJoined : List Call := [.channelReceived room, .joined room]

theorem listed_channel_joined :
    ¬ ShowsOnce (afterCalls listedAndJoined) (listedAndJoined.map Call.name) ∧
      ∀ client, (afterCalls listedAndJoined).channelSelected client 0 = none := by
  constructor
  · intro shows
    have dead : none ∈ (afterCalls listedAndJoined).lwChannels := by decide
    rcases shows.live none dead with ⟨widget, same, -⟩
    cases same
  · intro client
    rfl

/-- The next slot adds names that are not in the list, each of them once. -/
def AddsNew (screen : Screen) : ScreenAction → Prop
  | .slot => ∀ slot ∈ screen.link.core.queue.head?, (addedBy slot).Nodup ∧
      ∀ name ∈ addedBy slot, screen.window.channels name = none
  | _ => True

/-- The list is that of the names in `channels_`. -/
def ChannelsShownOnce (screen : Screen) : Prop :=
  ∀ names : List StdString,
    (∀ name, name ∈ names ↔ (screen.window.channels name).isSome) →
      ShowsOnce screen.window names

theorem shows_once_of_same_names {window : MainWindow} {first second : List StdString}
    (same : ∀ name, name ∈ first ↔ name ∈ second) (shows : ShowsOnce window first) :
    ShowsOnce window second := by
  constructor
  · intro name member
    exact shows.one name ((same name).mpr member)
  · intro item inside
    rcases shows.live item inside with ⟨widget, attached, member, stored⟩
    exact ⟨widget, attached, (same _).mp member, stored⟩
  · exact shows.selects

theorem shown_once_iff_nodup {screen : Screen} {added : List StdString}
    (tracked : Tracked screen.window added) : ChannelsShownOnce screen ↔ added.Nodup := by
  rw [← shows_once_iff_nodup tracked]
  constructor
  · intro shown
    exact shown added fun name => (tracked.stored name).symm
  · intro shows names stored
    apply shows_once_of_same_names _ shows
    intro name
    rw [stored, tracked.stored]

theorem tracked_of_same_list {window next : MainWindow} {added : List StdString}
    (tracked : Tracked window added) (channels : next.channels = window.channels)
    (items : next.lwChannels = window.lwChannels) : Tracked next added := by
  constructor
  · constructor
    · rw [channels]
      exact tracked.listed.named
    · rw [channels, items]
      exact tracked.listed.attached
  · rw [channels]
    exact tracked.stored
  · rw [channels, items]
    exact tracked.shown
  · rw [items]
    exact tracked.dead
  · rw [channels, items]
    exact tracked.items

theorem control_tracked {window next : MainWindow} {slot : Slot} {added : List StdString}
    (tracked : Tracked window added) (taken : window.control slot = some next) :
    Tracked next (added ++ addedBy slot) := by
  have controlled := control_some taken
  exact tracked_of_same_list (add_channel_all_tracked (addedBy slot) tracked)
    controlled.channels controlled.items

variable {lib : ProtocolLib} {before after : Screen}

def stepAdds (screen : Screen) : ScreenAction → List StdString
  | .slot => (screen.link.core.queue.head?.map addedBy).getD []
  | _ => []

theorem step_tracked {action : ScreenAction} {added : List StdString}
    (tracked : Tracked before.window added) (taken : step lib before action = some after) :
    Tracked after.window (added ++ stepAdds before action) := by
  cases action with
  | send arrival =>
      obtain rfl := Option.some.inj taken
      simpa [stepAdds] using tracked
  | io =>
      rcases io_some taken with ⟨arrival, rest, core, -, -, rfl⟩
      simpa [stepAdds] using tracked
  | slot =>
      rcases slot_some taken with ⟨slot, rest, window, waiting, controlled, rfl⟩
      simpa [stepAdds, waiting] using control_tracked tracked controlled
  | select index =>
      rcases select_some taken with ⟨widget, rfl, -⟩
      simp only [stepAdds, List.append_nil]
      exact tracked_of_same_list tracked rfl rfl

theorem adds_new_iff {action : ScreenAction} {added : List StdString}
    (tracked : Tracked before.window added) :
    AddsNew before action ↔
      (stepAdds before action).Nodup ∧ added.Disjoint (stepAdds before action) := by
  have absent (name : StdString) : before.window.channels name = none ↔ name ∉ added := by
    rw [← tracked.stored, Option.not_isSome_iff_eq_none]
  cases action with
  | slot =>
      cases waiting : before.link.core.queue with
      | nil => simp [AddsNew, stepAdds, waiting]
      | cons slot rest =>
          simp [AddsNew, stepAdds, waiting, absent, List.disjoint_right]
  | _ => simp [AddsNew, stepAdds]

def Recorded (screen : Screen) : Prop := ∃ added, Tracked screen.window added

/-- In every run of the connection, whatever the server sends. -/
theorem channels_shown_once_iff_adds_new (lib : ProtocolLib) (cache : History)
    (actions : List ScreenAction) :
    EveryState (step lib) ChannelsShownOnce (Screen.start cache) actions ↔
      EveryStep (step lib) AddsNew (Screen.start cache) actions := by
  have initial : Recorded (Screen.start cache) := ⟨[], opened_tracked⟩
  apply every_state_iff_every_step (step lib) initial
  · rintro before action after ⟨added, tracked⟩ taken
    exact ⟨added ++ stepAdds before action, step_tracked tracked taken⟩
  · exact (shown_once_iff_nodup opened_tracked).mpr List.nodup_nil
  · rintro before action after ⟨added, tracked⟩ taken
    rw [shown_once_iff_nodup (step_tracked tracked taken), shown_once_iff_nodup tracked,
      adds_new_iff tracked, List.nodup_append']

end AppchatClient.Session.ChannelList
