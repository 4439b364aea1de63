import AppchatClient.Session.Exchange
import Mathlib.Order.MinMax

/-!
# The two cut-offs

`on_joined` asks for what is later than the maximum over the deque,
`on_channels_received` for what is later than the last row of the cache. Rows
are in the order in which they were saved, and a history answer can be saved
after a live message that is later.
-/

namespace AppchatClient.Session.CutOff

open AppchatClient.Protocol AppchatClient.Io.Handlers AppchatClient.Lib.AppendMap
open AppchatClient.Cache.Refinement AppchatClient.Session.Receivers AppchatClient.Session.Effects
open AppchatClient.Session.Server (saving messageAt)
open AppchatClient.Session.Exchange (content)

set_option autoImplicit false

variable {lib : ProtocolLib}

def isSave : Slot → Bool
  | .onMessageReceived _ => true
  | .onHistoryReceived _ _ => true
  | _ => false

def saveAll (lib : ProtocolLib) (client : Client) (saves : List Slot) : Core :=
  saves.foldl (runSlot lib) { freshCore Multimap.empty with client := client }

/-- The latest time of the messages, the default one when there is no message. -/
def IsCutOff (lib : ProtocolLib) (messages : List MsgText) (since : DateTime) : Prop :=
  (messages = [] ∧ since = lib.defaultDateTime) ∨
    (∃ msg ∈ messages, msg.dt = since) ∧ ∀ msg ∈ messages, msg.dt ≤ since

/-- Both slots request the history of the channel since its latest message,
wherever the channel stands in the list. -/
def CutOffsAgree (lib : ProtocolLib) (core : Core) (channel : StdString) : Prop :=
  ∃ since, IsCutOff lib (core.cache.load channel) since ∧
    requested lib core (.onJoined channel) = [.history core.client.clientId channel since] ∧
    ∀ before after, requested lib core (.onChannelsReceived (before ++ channel :: after)) =
      requested lib core (.onChannelsReceived before) ++
        .history core.client.clientId channel since ::
          requested lib core (.onChannelsReceived after)

/-- No message is later than the last one. -/
def LastIsLatest (messages : List MsgText) : Prop :=
  ∀ last ∈ messages.getLast?, ∀ msg ∈ messages, msg.dt ≤ last.dt

instance (messages : List MsgText) : Decidable (LastIsLatest messages) :=
  inferInstanceAs (Decidable (∀ last ∈ messages.getLast?, ∀ msg ∈ messages, msg.dt ≤ last.dt))

theorem latest_is_cut_off (lib : ProtocolLib) (messages : List MsgText) :
    IsCutOff lib messages (latest lib messages) := by
  cases largest : (messages.map MsgText.dt).max? with
  | none =>
      left
      rw [latest, largest]
      simpa using largest
  | some time =>
      right
      rw [latest, largest, Option.getD_some]
      rcases List.max?_eq_some_iff.mp largest with ⟨member, bound⟩
      constructor
      · exact List.mem_map.mp member
      · intro msg inside
        exact bound msg.dt (List.mem_map_of_mem inside)

theorem cut_off_unique {messages : List MsgText} {first second : DateTime}
    (one : IsCutOff lib messages first) (other : IsCutOff lib messages second) :
    first = second := by
  rcases one with ⟨rfl, default⟩ | ⟨⟨msg, member, rfl⟩, bound⟩
  · rcases other with ⟨-, same⟩ | ⟨⟨msg, member, -⟩, -⟩
    · exact default.trans same.symm
    · cases member
  · rcases other with ⟨rfl, -⟩ | ⟨⟨another, inside, rfl⟩, above⟩
    · cases member
    · exact le_antisymm (above msg member) (bound another inside)

theorem last_time_is_cut_off_iff (lib : ProtocolLib) (messages : List MsgText) :
    IsCutOff lib messages (lastTime lib messages) ↔ LastIsLatest messages := by
  cases back : messages.getLast? with
  | none =>
      obtain rfl := List.getLast?_eq_none_iff.mp back
      simp [IsCutOff, lastTime, LastIsLatest]
  | some last =>
      have member := List.mem_of_getLast? back
      have someMessage : messages ≠ [] := List.ne_nil_of_mem member
      have attained : ∃ msg ∈ messages, msg.dt = last.dt := ⟨last, member, rfl⟩
      simp [IsCutOff, lastTime, LastIsLatest, back, someMessage, attained]

theorem save_all_load (lib : ProtocolLib) (client : Client) (saves : List Slot)
    (channel : StdString) :
    (saveAll lib client saves).cache.load channel = saving saves channel := by
  induction saves using List.reverseRecOn with
  | nil => rfl
  | append_singleton saves slot ih =>
      rw [saveAll, List.foldl_append, List.foldl_cons, List.foldl_nil, run_slot_load, ← saveAll, ih,
        saving, saving, List.flatMap_append]
      simp

theorem save_all_client (lib : ProtocolLib) (client : Client) {saves : List Slot}
    (only : ∀ slot ∈ saves, isSave slot = true) : (saveAll lib client saves).client = client := by
  induction saves using List.reverseRecOn with
  | nil => rfl
  | append_singleton saves slot ih =>
      rw [List.forall_mem_append, List.forall_mem_singleton] at only
      rw [saveAll, List.foldl_append, List.foldl_cons, List.foldl_nil, ← saveAll]
      have kept := ih only.1
      cases slot with
      | onMessageReceived msg => exact kept
      | onHistoryReceived name hist => exact kept
      | _ => cases only.2

theorem latest_of_content {first second : List MsgText}
    (same : first.map content = second.map content) : latest lib first = latest lib second := by
  have times := congrArg (List.map fun fields => fields.2.2) same
  simp only [List.map_map, Function.comp_def, content] at times
  simp only [latest, times]

/-- For every run of saves, whatever was saved. -/
theorem cut_offs_agree_iff (lib : ProtocolLib) {client : Client} {saves : List Slot}
    {channel : StdString} (only : ∀ slot ∈ saves, isSave slot = true)
    (same : (deque client channel).map content = (saving saves channel).map content) :
    CutOffsAgree lib (saveAll lib client saves) channel ↔
      LastIsLatest (saving saves channel) := by
  have rows := save_all_load lib client saves channel
  have kept := save_all_client lib client only
  rw [← last_time_is_cut_off_iff lib]
  have joined : latest lib (deque client channel) = latest lib (saving saves channel) :=
    latest_of_content same
  simp only [CutOffsAgree, requested, rows, kept, joined, List.map_append, List.map_cons,
    List.append_cancel_left_eq, List.cons.injEq, Request.history.injEq, and_true, true_and,
    forall_const]
  constructor
  · rintro ⟨since, cutOff, -, rfl⟩
    exact cutOff
  · intro cutOff
    have latestCutOff := latest_is_cut_off lib (saving saves channel)
    exact ⟨_, cutOff, cut_off_unique latestCutOff cutOff, rfl⟩

/-- Two messages saved in their order, and the other way round: the second one
arrives live, then a history answer brings the first one. -/
def holding (messages : List MsgText) : Client := freshClient.setHistory room messages

def savedInOrder : List Slot :=
  [.onMessageReceived (messageAt 1), .onHistoryReceived room [messageAt 2]]

def savedLate : List Slot :=
  [.onMessageReceived (messageAt 2), .onHistoryReceived room [messageAt 1]]

theorem cut_offs_agree_iff_sample :
    CutOffsAgree chatLib (saveAll chatLib (holding [messageAt 1, messageAt 2]) savedInOrder) room ↔
      LastIsLatest (saving savedInOrder room) :=
  cut_offs_agree_iff chatLib (by decide) (by decide)

theorem cut_offs_differ :
    (deque (holding [messageAt 2, messageAt 1]) room).map content =
        ((saveAll chatLib (holding [messageAt 2, messageAt 1]) savedLate).cache.load room).map
          content ∧
      ¬ CutOffsAgree chatLib (saveAll chatLib (holding [messageAt 2, messageAt 1]) savedLate)
        room := by
  constructor
  · decide
  · rintro ⟨since, -, joined, listed⟩
    have different :
        requested chatLib (saveAll chatLib (holding [messageAt 2, messageAt 1]) savedLate)
          (.onJoined room) ≠
        requested chatLib (saveAll chatLib (holding [messageAt 2, messageAt 1]) savedLate)
          (.onChannelsReceived [room]) := by
      decide
    exact different (joined.trans (listed [] []).symm)

end AppchatClient.Session.CutOff
