import Mathlib.Algebra.Group.Nat.Defs
import Mathlib.Order.Lattice
import Mathlib.Data.List.Lex
import Mathlib.Data.Int.Order.Basic

/-!
# The protocol library as the client sees it

`goodok::` and `Serialize::` are not in the repository. Their data types are
written here with the fields that the client reads, and what the client calls
in them is a parameter, `ProtocolLib`: the header size, the two parsers and the
value of a default-constructed `DateTime`.
-/

namespace AppchatClient.Protocol

set_option autoImplicit false

/-- `std::string`: its code units, one `Char` each. -/
abbrev StdString := List Char

abbrev Bytes := List UInt8

abbrev Identifier := Nat

structure Date where
  year : Int
  month : Int
  day : Int
deriving DecidableEq, Repr

structure Time where
  hours : Int
  minutes : Int
  seconds : Int
deriving DecidableEq, Repr

structure DateTime where
  date : Date
  time : Time
deriving DecidableEq, Repr

def DateTime.fields (dt : DateTime) : List Int :=
  [dt.date.year, dt.date.month, dt.date.day, dt.time.hours, dt.time.minutes, dt.time.seconds]

theorem fields_injective : Function.Injective DateTime.fields := by
  intro left right same
  obtain ⟨⟨_, _, _⟩, ⟨_, _, _⟩⟩ := left
  obtain ⟨⟨_, _, _⟩, ⟨_, _, _⟩⟩ := right
  simpa [DateTime.fields, and_assoc] using same

/-- `operator<` of `DateTime` is chronological. -/
instance : LinearOrder DateTime := LinearOrder.lift' DateTime.fields fields_injective

structure MsgText where
  author : StdString
  text : StdString
  channelName : StdString
  dt : DateTime
deriving DecidableEq, Repr

/-- `goodok::command::TypeCommand`. The number in a header that is none of the
enumeration's is `unknown`. -/
inductive TypeCommand where
  | registrationRequest
  | registrationResponse
  | authorisationRequest
  | authorisationResponse
  | sendTextRequest
  | echoResponse
  | joinRoomRequest
  | joinRoomResponse
  | historyRequest
  | historyResponse
  | channelsRequest
  | channelsResponse
  | unknown (number : Nat)
deriving DecidableEq, Repr

inductive StatusCode where
  | autorOK
  | incorrectAutor
  | registrOK
  | busyRegistr
deriving DecidableEq, Repr

/-- `Serialize::STATUS`; the client only compares it with `OK`. -/
inductive Status where
  | ok
  | other (number : Nat)
deriving DecidableEq, Repr

structure Header where
  length : Nat
  command : TypeCommand
deriving DecidableEq, Repr

/-- `InputResponse` and `RegistrationResponse` carry the same two fields. -/
structure LoginResponse where
  status : Status
  clientId : Identifier
deriving DecidableEq, Repr

structure JoinRoomResponse where
  status : Status
  channelName : StdString
deriving DecidableEq, Repr

/-- `messages` holds each entry as `MsgFactory::parse_text_res` reads it. -/
structure HistoryResponse where
  channelName : StdString
  messages : List MsgText
deriving DecidableEq, Repr

/-- `Serialize::Response`: each sub-message is there (`has_..()`) or not. -/
structure Response where
  inputResponse : Option LoginResponse := none
  regResponse : Option LoginResponse := none
  joinRoomResponse : Option JoinRoomResponse := none
  textResponse : Option MsgText := none
  historyResponse : Option HistoryResponse := none
  channelsResponse : Option (List StdString) := none
deriving DecidableEq, Repr

structure ProtocolLib where
  /-- `goodok::SIZE_HEADER`. -/
  sizeHeader : Nat
  /-- `Header::ParseFromArray`: the flag, and the header even when the flag is false. -/
  parseHeader : Bytes → Bool × Header
  /-- `Response::ParseFromArray` on the first `size` bytes of the array. A
  failed parse leaves a possibly partial message. -/
  parseResponse : Bytes → Int → Bool × Response
  /-- `goodok::DateTime{}`. -/
  defaultDateTime : DateTime

/-- `static_cast<int>` of a `std::size_t`. -/
def toInt32 (size : Nat) : Int := Int.bmod size (2 ^ 32)

/-- `MsgFactory::parse_text_res`: the fields of the text sub-message, the
default ones when it is missing. -/
def ProtocolLib.parseTextRes (lib : ProtocolLib) (response : Response) : MsgText :=
  response.textResponse.getD
    { author := [], text := [], channelName := [], dt := lib.defaultDateTime }

/-- The requests that the client serialises, with the fields it puts in them.
`clientId` is `none` while the member has no value yet. -/
inductive Request where
  | registration (login password : StdString)
  | authorisation (login password : StdString)
  | sendText (msg : MsgText)
  | joinRoom (clientId : Option Identifier) (channelName : StdString)
  | history (clientId : Option Identifier) (channelName : StdString) (since : DateTime)
  | channels (clientId : Option Identifier)
deriving DecidableEq, Repr

end AppchatClient.Protocol
