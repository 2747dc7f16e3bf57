import Chaincode.Address
import Chaincode.Message
import Chaincode.System

/-!
# Streams of messages

The way between a chaincode and its peer, and how it can fail.
-/

/-!
## Call status

How a remote call ended: one of seventeen codes and a message.
-/

namespace Chaincode

inductive StatusCode where
  | ok
  | cancelled
  | unknown
  | invalidArgument
  | deadlineExceeded
  | notFound
  | alreadyExists
  | permissionDenied
  | resourceExhausted
  | failedPrecondition
  | aborted
  | outOfRange
  | unimplemented
  | internal
  | unavailable
  | dataLoss
  | unauthenticated
  deriving DecidableEq, Repr

namespace StatusCode

/-- The codes in the order of their numbers. -/
def all : List StatusCode :=
  [ok, cancelled, unknown, invalidArgument, deadlineExceeded, notFound, alreadyExists,
   permissionDenied, resourceExhausted, failedPrecondition, aborted, outOfRange, unimplemented,
   internal, unavailable, dataLoss, unauthenticated]

def number (code : StatusCode) : Nat := all.idxOf code

/-- The code with number `n`; numbers without a code are unknown errors. -/
def ofNumber (n : Int) : StatusCode :=
  if 0 ≤ n then all.getD n.toNat unknown else unknown

def description : StatusCode → String
  | ok => "The operation completed successfully"
  | cancelled => "The operation was cancelled"
  | unknown => "Unknown error"
  | invalidArgument => "Client specified an invalid argument"
  | deadlineExceeded => "Deadline expired before operation could complete"
  | notFound => "Some requested entity was not found"
  | alreadyExists => "Some entity that we attempted to create already exists"
  | permissionDenied =>
    "The caller does not have permission to execute the specified operation"
  | resourceExhausted => "Some resource has been exhausted"
  | failedPrecondition =>
    "The system is not in a state required for the operation's execution"
  | aborted => "The operation was aborted"
  | outOfRange => "Operation was attempted past the valid range"
  | unimplemented => "Operation is not implemented or not supported"
  | internal => "Internal error"
  | unavailable => "The service is currently unavailable"
  | dataLoss => "Unrecoverable data loss or corruption"
  | unauthenticated =>
    "The request does not have valid authentication credentials"

@[simp] theorem ofNumber_number (code : StatusCode) : ofNumber code.number = code := by
  cases code <;> decide

end StatusCode

/-- How a remote call ended. -/
structure Status where
  code : StatusCode
  message : String := ""
  deriving DecidableEq, Repr

/-- The code's description and, if there is one, the quoted message. -/
def Status.text (s : Status) : String :=
  let detail := if s.message = "" then "" else ", message: " ++ Text.quote s.message
  "code: '" ++ s.code.description ++ "'" ++ detail

/-!
## Stream faults

How a message stream can fail. Every fault has a message of one line and the chain of causes under
it, outermost first.
-/

/-- Why no connection came about. -/
inductive ConnectFault where
  | uri (fault : Uri.Fault)
  | tcp (fault : SystemFault)
  deriving DecidableEq, Repr

namespace ConnectFault

def message : ConnectFault → String
  | uri _ => "invalid URI"
  | tcp _ => "transport error"

def sources : ConnectFault → List String
  | uri fault => [fault.message]
  | tcp fault => ["tcp connect error", "tcp connect error", fault.text]

end ConnectFault

/-- How a message stream can fail. -/
inductive StreamFault where
  /-- The other side has ended its direction, or the call is gone. -/
  | closed
  /-- This side has ended its direction. -/
  | sendClosed
  | io (fault : SystemFault)
  | tooLarge (size limit : Nat)
  | status (status : Status)
  | connect (fault : ConnectFault)
  /-- The task that receives is gone without a result. -/
  | readerGone
  deriving DecidableEq, Repr

namespace StreamFault

def message : StreamFault → String
  | closed => "stream closed by remote"
  | sendClosed => "send side already closed"
  | io fault => "i/o error: " ++ fault.text
  | tooLarge size limit =>
    "message of " ++ toString size ++ " bytes exceeds limit of " ++ toString limit
  | status s => "stream failed: " ++ s.code.description ++ ": " ++ s.message
  | connect fault => "connection failed: " ++ fault.message
  | readerGone => "receive task exited"

/-- The causes under a fault, outermost first. -/
def sources : StreamFault → List String
  | io fault => [fault.text]
  | status s => [s.text]
  | connect fault => fault.message :: fault.sources
  | closed | sendClosed | tooLarge _ _ | readerGone => []

end StreamFault

/-- The result of one send. -/
abbrev Sent := Except StreamFault Unit

/-!
## Message streams

All that a session knows of the way to its peer. A stream receives and sends one message at a time
and can end its sending direction. Receiving and sending may have to wait; what a stream does while
nobody calls it is no concern of its users.
-/

/-- What one receive yields. -/
abbrev Received := Except StreamFault Envelope

/-- A two-way stream of messages with states `S`. At most one receive is under way at any time. -/
class MessageStream (S : Type) where
  /-- Starts a receive. -/
  begin : S → S
  /-- What the receive under way comes to, unless it has to wait: a result, or none if the task that
  receives dies of it. The receive is over then. -/
  receive : S → Option (Option Received × S)
  /-- Drops the receive under way. -/
  abandon : S → S
  /-- Sends a message, unless it has to wait. -/
  send : Envelope → S → Option (Sent × S)
  /-- Ends the sending direction. -/
  close : S → Sent × S

end Chaincode
