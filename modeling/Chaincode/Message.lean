import Chaincode.Wire

/-!
# Messages

What travels between a chaincode and its peer: one envelope for every kind of message, and within the
first one the identifier of the chaincode.
-/

/-!
## Names and limits of the protocol

The two services between chaincode and peer. A chaincode that dials calls Register on the peer; a
chaincode that listens serves Connect to it.
-/

namespace Chaincode.Protocol

/-- The service of a peer that waits to be dialed. -/
def registerService : String := "protos.ChaincodeSupport"

/-- The service of a chaincode that waits to be dialed. -/
def connectService : String := "protos.Chaincode"

def methodPath (service method : String) : String := "/" ++ service ++ "/" ++ method

def registerPath : String := methodPath registerService "Register"

def connectPath : String := methodPath connectService "Connect"

/-- The size up to which messages are sent and received unless configured otherwise: 100 MiB. -/
def defaultLimit : Nat := 100 * 1024 * 1024

def defaultListenAddress : String := "127.0.0.1:7070"

end Chaincode.Protocol

/-!
## Message kinds

The kinds of message of the chaincode protocol and the numbers that stand for them. The numbering
has gaps, and a peer may use numbers that name no kind here.
-/

namespace Chaincode

inductive Kind where
  | undefined
  | register
  | registered
  | init
  | ready
  | transaction
  | completed
  | error
  | getState
  | putState
  | delState
  | invokeChaincode
  | response
  | getStateByRange
  | getQueryResult
  | queryStateNext
  | queryStateClose
  | keepalive
  | getHistoryForKey
  | getStateMetadata
  | putStateMetadata
  | getPrivateDataHash
  deriving DecidableEq, Repr

namespace Kind

def all : List Kind :=
  [undefined, register, registered, init, ready, transaction, completed, error, getState, putState,
   delState, invokeChaincode, response, getStateByRange, getQueryResult, queryStateNext,
   queryStateClose, keepalive, getHistoryForKey, getStateMetadata, putStateMetadata,
   getPrivateDataHash]

def number : Kind → Int32
  | undefined => 0
  | register => 1
  | registered => 2
  | init => 3
  | ready => 4
  | transaction => 5
  | completed => 6
  | error => 7
  | getState => 8
  | putState => 9
  | delState => 10
  | invokeChaincode => 11
  | response => 13
  | getStateByRange => 14
  | getQueryResult => 15
  | queryStateNext => 16
  | queryStateClose => 17
  | keepalive => 18
  | getHistoryForKey => 19
  | getStateMetadata => 20
  | putStateMetadata => 21
  | getPrivateDataHash => 22

/-- The kind that `n` stands for; `none` for a number without a kind. -/
def ofNumber? (n : Int32) : Option Kind := all.find? (·.number = n)

/-- The kind that `n` stands for; numbers without a kind are undefined. -/
def ofNumber (n : Int32) : Kind := (ofNumber? n).getD undefined

def name : Kind → String
  | undefined => "Undefined"
  | register => "Register"
  | registered => "Registered"
  | init => "Init"
  | ready => "Ready"
  | transaction => "Transaction"
  | completed => "Completed"
  | error => "Error"
  | getState => "GetState"
  | putState => "PutState"
  | delState => "DelState"
  | invokeChaincode => "InvokeChaincode"
  | response => "Response"
  | getStateByRange => "GetStateByRange"
  | getQueryResult => "GetQueryResult"
  | queryStateNext => "QueryStateNext"
  | queryStateClose => "QueryStateClose"
  | keepalive => "Keepalive"
  | getHistoryForKey => "GetHistoryForKey"
  | getStateMetadata => "GetStateMetadata"
  | putStateMetadata => "PutStateMetadata"
  | getPrivateDataHash => "GetPrivateDataHash"

/-- What is said of a number without a kind. -/
def unknownNumber (n : Int32) : String := "unknown enumeration value " ++ toString n.toInt

@[simp] theorem ofNumber?_number (k : Kind) : ofNumber? k.number = some k := by cases k <;> decide

theorem number_of_ofNumber? {n : Int32} {k : Kind} (h : ofNumber? n = some k) : k.number = n := by
  simpa using List.find?_some h

end Kind

/-!
## Envelopes

The one message type that travels between a chaincode and its peer, and its wire form. The peer's
own schema has more fields; they are skipped on reading. The kind travels as its number, so that a
number without a kind is kept.
-/

/-- A message between chaincode and peer. -/
structure Envelope where
  number : Int32 := 0
  payload : Bytes := []
  txid : String := ""
  channel : String := ""
  deriving DecidableEq

namespace Envelope

open Wire

def kind (m : Envelope) : Kind := Kind.ofNumber m.number

/-- A message of a kind, with a payload and no correlation. -/
def ofKind (kind : Kind) (payload : Bytes) : Envelope := { number := kind.number, payload }

/-- Does every field hold its default? Peers send such a message by mistake only. -/
def isEmpty (m : Envelope) : Bool := m = {}

def schema : Schema where
  record := "ChaincodeMessage"
  field?
    | 1 => some ("msg_type", .int32)
    | 3 => some ("payload", .bytes)
    | 4 => some ("txid", .text)
    | 7 => some ("channel_id", .text)
    | _ => none

def fields (m : Envelope) : List Field :=
  [⟨1, .int32 m.number⟩, ⟨3, .bytes m.payload⟩, ⟨4, .text m.txid⟩, ⟨7, .text m.channel⟩]

/-- `m` with the content of one field. -/
def assign (m : Envelope) (f : Field) : Envelope :=
  match f.tag, f.value with
  | 1, .int32 n => { m with number := n }
  | 3, .bytes b => { m with payload := b }
  | 4, .text s => { m with txid := s }
  | 7, .text s => { m with channel := s }
  | _, _ => m

def encode (m : Envelope) : Bytes := encodeFields m.fields

/-- The length of the wire form, found without writing it. -/
def size (m : Envelope) : Nat := sizeFields m.fields

/-- Reads the wire form. Of several occurrences of a field the last one counts. -/
def decode (bs : Bytes) : Except DecodeError Envelope :=
  (schema.read bs).map (·.foldl assign {})

end Envelope

/-!
## Chaincode identifiers

The identity that a chaincode registers under, its wire form, and the REGISTER message around it.
-/

structure Identifier where
  path : String := ""
  name : String := ""
  version : String := ""
  deriving DecidableEq

namespace Identifier

open Wire

/-- The identifier of a chaincode known by name only. -/
def named (name : String) : Identifier := { name }

def schema : Schema where
  record := "ChaincodeId"
  field?
    | 1 => some ("path", .text)
    | 2 => some ("name", .text)
    | 3 => some ("version", .text)
    | _ => none

def fields (id : Identifier) : List Field :=
  [⟨1, .text id.path⟩, ⟨2, .text id.name⟩, ⟨3, .text id.version⟩]

/-- `id` with the content of one field. -/
def assign (id : Identifier) (f : Field) : Identifier :=
  match f.tag, f.value with
  | 1, .text s => { id with path := s }
  | 2, .text s => { id with name := s }
  | 3, .text s => { id with version := s }
  | _, _ => id

def encode (id : Identifier) : Bytes := encodeFields id.fields

/-- The length of the wire form, found without writing it. -/
def size (id : Identifier) : Nat := sizeFields id.fields

/-- Reads the wire form. Of several occurrences of a field the last one counts. -/
def decode (bs : Bytes) : Except DecodeError Identifier :=
  (schema.read bs).map (·.foldl assign {})

end Identifier

/-- A buffer too small for what was to be written into it. -/
structure Overrun where
  required : Nat
  remaining : Nat
  deriving DecidableEq, Repr

def Overrun.message (e : Overrun) : String :=
  "failed to encode Protobuf message; insufficient buffer capacity (required: " ++
    toString e.required ++ ", remaining: " ++ toString e.remaining ++ ")"

/-- Writes an identifier into a buffer of `capacity` bytes. -/
def Identifier.encodeWithin (capacity : Nat) (id : Identifier) : Except Overrun Bytes :=
  if capacity < id.size then .error ⟨id.size, capacity⟩ else .ok id.encode

/-- The message with which a chaincode announces itself: REGISTER, with its identifier as payload.
The buffer has exactly the size of the identifier. -/
def registration (name : String) : Except Overrun Envelope :=
  let id := Identifier.named name
  (id.encodeWithin id.size).map (Envelope.ofKind .register)

end Chaincode
