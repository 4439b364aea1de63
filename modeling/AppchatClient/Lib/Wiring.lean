import Mathlib.Data.List.Basic

/-!
# Signals and their receivers

A signal of a sender calls the receivers connected to it, in the order in which
they were connected, and once for each connection.
-/

namespace AppchatClient.Lib.Wiring

set_option autoImplicit false

structure Connection (Sender Signal Receiver : Type*) where
  sender : Sender
  signal : Signal
  receiver : Receiver
deriving DecidableEq

variable {Sender Signal Receiver : Type*} [DecidableEq Sender] [DecidableEq Signal]

def connect (wiring : List (Connection Sender Signal Receiver)) (sender : Sender)
    (signal : Signal) (receiver : Receiver) : List (Connection Sender Signal Receiver) :=
  wiring ++ [⟨sender, signal, receiver⟩]

def disconnect [DecidableEq Receiver] (wiring : List (Connection Sender Signal Receiver))
    (sender : Sender) (receiver : Receiver) : List (Connection Sender Signal Receiver) :=
  wiring.filter fun connection =>
    ¬ (connection.sender = sender ∧ connection.receiver = receiver)

def receivers (wiring : List (Connection Sender Signal Receiver)) (sender : Sender)
    (signal : Signal) : List Receiver :=
  (wiring.filter fun connection =>
    connection.sender = sender ∧ connection.signal = signal).map Connection.receiver

theorem receivers_connect_same (wiring : List (Connection Sender Signal Receiver))
    (sender : Sender) (signal : Signal) (receiver : Receiver) :
    receivers (connect wiring sender signal receiver) sender signal =
      receivers wiring sender signal ++ [receiver] := by
  simp [receivers, connect]

theorem receivers_connect_sender (wiring : List (Connection Sender Signal Receiver))
    {sender other : Sender} (different : sender ≠ other) (signal called : Signal)
    (receiver : Receiver) :
    receivers (connect wiring sender signal receiver) other called =
      receivers wiring other called := by
  simp [receivers, connect, different]

theorem receivers_connect_signal (wiring : List (Connection Sender Signal Receiver))
    (sender other : Sender) {signal called : Signal} (different : signal ≠ called)
    (receiver : Receiver) :
    receivers (connect wiring sender signal receiver) other called =
      receivers wiring other called := by
  simp [receivers, connect, different]

theorem receivers_connect_all (receiver : Receiver) (sender other : Sender)
    {signals : List Signal} (once : signals.Nodup) (called : Signal)
    (wiring : List (Connection Sender Signal Receiver)) :
    receivers (signals.foldl (fun wired signal => connect wired sender signal receiver) wiring)
        other called =
      if sender = other ∧ called ∈ signals then receivers wiring other called ++ [receiver]
      else receivers wiring other called := by
  induction signals generalizing wiring with
  | nil => simp
  | cons signal rest ih =>
      rw [List.nodup_cons] at once
      rw [List.foldl_cons, ih once.2]
      by_cases same : sender = other
      · subst same
        by_cases here : signal = called
        · subst here
          simp [once.1, receivers_connect_same]
        · rw [receivers_connect_signal wiring sender sender here]
          simp [Ne.symm here]
      · rw [receivers_connect_sender wiring same]
        simp [same]

variable [DecidableEq Receiver]

theorem receivers_disconnect_same (wiring : List (Connection Sender Signal Receiver))
    (sender : Sender) (receiver : Receiver) (called : Signal) :
    receivers (disconnect wiring sender receiver) sender called =
      (receivers wiring sender called).filter fun other => other ≠ receiver := by
  induction wiring with
  | nil => rfl
  | cons connection rest ih =>
      simp only [receivers, disconnect] at ih ⊢
      by_cases same : connection.sender = sender
      · by_cases named : connection.signal = called
        · by_cases gone : connection.receiver = receiver
          · simpa [List.filter_cons, same, named, gone] using ih
          · simpa [List.filter_cons, same, named, gone] using ih
        · by_cases gone : connection.receiver = receiver
          · simpa [List.filter_cons, same, named, gone] using ih
          · simpa [List.filter_cons, same, named, gone] using ih
      · simpa [List.filter_cons, same] using ih

theorem receivers_disconnect_other (wiring : List (Connection Sender Signal Receiver))
    {sender other : Sender} (different : other ≠ sender) (receiver : Receiver)
    (called : Signal) :
    receivers (disconnect wiring sender receiver) other called =
      receivers wiring other called := by
  simp only [receivers, disconnect, List.filter_filter]
  apply congrArg
  apply List.filter_congr
  intro connection _
  by_cases same : connection.sender = other
  · simp [same, different]
  · simp [same]

end AppchatClient.Lib.Wiring
