import Chaincode.Stream

/-!
# Faults

What can be wrong with a configuration, and why a session ends.
-/

/-!
## Configuration faults

What can be wrong with a configuration or with the files that it names.
-/

namespace Chaincode

inductive ConfigFault where
  | missingIdentity
  | missingPeerAddress
  | readFailed (path : String) (fault : SystemFault)
  /-- The file is no well-formed configuration. -/
  | parseFailed (path : String)
  | invalidAddress (address reason : String)
  | tls (detail : String)
  deriving DecidableEq, Repr

def ConfigFault.message : ConfigFault → String
  | missingIdentity => "'CORE_CHAINCODE_ID_NAME' must be set"
  | missingPeerAddress => "peer address must be set to dial the peer"
  | readFailed path fault => "failed to read " ++ path ++ ": " ++ fault.text
  | parseFailed path => "failed to parse " ++ path
  | invalidAddress address reason =>
    "invalid address " ++ Text.quote address ++ ": " ++ reason
  | tls detail => "tls: " ++ detail

/-!
## How a session ends

A session ends with a cause, never without one. A peer that hangs up is a cause of its own.
-/

/-- What was being done when a stream or an endpoint failed. -/
inductive Phase where
  | listen
  | dial
  | accept
  | register
  | receive
  | send
  deriving DecidableEq, Repr

def Phase.name : Phase → String
  | listen => "listen"
  | dial => "dial"
  | accept => "accept"
  | register => "register"
  | receive => "receive"
  | send => "send"

/-- The innermost reason for which a handler refuses a message. -/
inductive Refusal.Root where
  | text (message : String)
  | stream (fault : StreamFault)
  deriving DecidableEq, Repr

/-- Why a handler refuses a message: a reason and the remarks made on it, outermost first. -/
structure Refusal where
  remarks : List String := []
  root : Refusal.Root
  deriving DecidableEq, Repr

namespace Refusal

def ofText (message : String) : Refusal := { root := .text message }

/-- Adds a remark on the outside. -/
def remark (r : Refusal) (text : String) : Refusal := { r with remarks := text :: r.remarks }

/-- Every level of the refusal, outermost first. -/
def levels (r : Refusal) : List String :=
  r.remarks ++ match r.root with
    | .text message => [message]
    | .stream fault => fault.message :: fault.sources

/-- The outermost level. -/
def message (r : Refusal) : String := r.levels.headD ""

end Refusal

/-- Why a session ended. -/
inductive SessionEnd where
  | config (fault : ConfigFault)
  | transport (phase : Phase) (fault : StreamFault)
  /-- A message with nothing in it. -/
  | emptyMessage
  | rejected (refusal : Refusal)
  | serialization (overrun : Overrun)
  /-- The peer hung up. -/
  | streamEnded
  deriving DecidableEq, Repr

/-- The classes of cause that operators tell apart. -/
inductive SessionEnd.Category where
  | configuration
  | transport
  | protocol
  | serialization
  | streamEnded
  deriving DecidableEq, Repr

namespace SessionEnd

def message : SessionEnd → String
  | config fault => "configuration error: " ++ fault.message
  | transport phase fault => phase.name ++ " failed: " ++ fault.message
  | emptyMessage => "received empty message, ending chaincode stream"
  | rejected refusal => "error handling message: " ++ refusal.message
  | serialization overrun =>
    "error encoding chaincode id during registration: " ++ overrun.message
  | streamEnded => "received EOF, ending chaincode stream"

/-- The causes under an end, outermost first. -/
def sources : SessionEnd → List String
  | config fault => [fault.message]
  | transport _ fault => fault.message :: fault.sources
  | rejected refusal => refusal.levels
  | serialization overrun => [overrun.message]
  | emptyMessage | streamEnded => []

def category : SessionEnd → Category
  | config _ => .configuration
  | transport _ _ => .transport
  | emptyMessage => .protocol
  | rejected _ => .protocol
  | serialization _ => .serialization
  | streamEnded => .streamEnded

def phase? : SessionEnd → Option Phase
  | transport phase _ => some phase
  | config _ | emptyMessage | rejected _ | serialization _ | streamEnded => none

end SessionEnd

end Chaincode
