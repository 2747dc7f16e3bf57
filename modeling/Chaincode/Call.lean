import Chaincode.Stream

/-!
# Calls

One remote call carries one stream of messages. Its two directions have little to do with each other: what
is received has been cut into frames by the other side, and what is sent waits in a queue.
-/

/-!
## Messages on a call

Each message travels in a frame of its own. Both ends of a call refuse frames above their limit.
-/

namespace Chaincode

namespace Codec

/-- The frame of a message, at an end that sends up to `limit` bytes. -/
def write (limit : Nat) (m : Envelope) : Except Status Bytes :=
  let frame := m.encode
  if limit < frame.length then
    .error { code := .outOfRange
             message := "Error, encoded message length too large: found " ++
               toString frame.length ++ " bytes, the limit is: " ++ toString limit ++ " bytes" }
  else .ok frame

/-- The message in a frame, at an end that receives up to `limit` bytes. -/
def read (limit : Nat) (frame : Bytes) : Except Status Envelope :=
  if limit < frame.length then
    .error { code := .outOfRange
             message := "Error, decoded message length too large: found " ++
               toString frame.length ++ " bytes, the limit is: " ++ toString limit ++ " bytes" }
  else
    match Envelope.decode frame with
    | .ok m => .ok m
    | .error e => .error { code := .internal, message := e.message }

end Codec

/-!
## Receiving on a call

A call that the other side opened is open from the start. A call of our own is open once the other
side has answered it, and that may be as late as after our first message, so the first receive waits
for the answer. The end of a call is reported once, with its reason; after that the call is closed.
-/

/-- What the other side does on an open call. -/
inductive Arrival where
  | frame (bytes : Bytes)
  /-- It ends the call in good order. -/
  | ended
  | failed (status : Status)
  deriving DecidableEq

/-- How a call of our own came out. -/
inductive Opening where
  | accepted
  | refused (status : Status)
  /-- The task that opens the call did not live to tell. -/
  | lost (reason : String)
  deriving DecidableEq

namespace Opening

/-- The status with which a call ends that was never open. -/
def fault? : Opening → Option Status
  | accepted => none
  | refused status => some status
  | lost reason => some { code := .aborted, message := "call task failed: " ++ reason }

end Opening

inductive Inbound.Phase where
  /-- Our call is out and not answered. -/
  | opening
  | open
  | finished
  deriving DecidableEq, Repr

/-- The receiving direction of a call. -/
structure Inbound where
  phase : Inbound.Phase
  limit : Nat
  /-- The answer to our call, once it is there. -/
  opening : Option Opening := none
  /-- What has arrived and was not received, oldest first. -/
  arrivals : List Arrival := []
  deriving DecidableEq

namespace Inbound

/-- A call of our own. -/
def dialed (limit : Nat) : Inbound := { phase := .opening, limit }

/-- A call that the other side opened. -/
def accepted (limit : Nat) : Inbound := { phase := .open, limit }

/-- The end of a call with its reason. -/
def finish (i : Inbound) (fault : StreamFault) : Received × Inbound :=
  (.error fault, { i with phase := .finished })

/-- Receives on an open call. -/
def next (i : Inbound) : Option (Received × Inbound) :=
  match i.arrivals with
  | [] => none
  | .frame bytes :: rest =>
    match Codec.read i.limit bytes with
    | .ok m => some (.ok m, { i with arrivals := rest })
    | .error status => some (i.finish (.status status))
  | .ended :: _ => some (i.finish .closed)
  | .failed status :: _ => some (i.finish (.status status))

/-- The result of a receive, unless it has to wait. -/
def receive (i : Inbound) : Option (Received × Inbound) :=
  match i.phase with
  | .finished => some (.error .closed, i)
  | .open => i.next
  | .opening =>
    match i.opening with
    | none => none
    | some answer =>
      match answer.fault? with
      | some status => some (i.finish (.status status))
      | none => { i with phase := .open }.next

end Inbound

/-!
## Sending on a call

Messages wait in a short queue until the call takes them out. A send first gets hold of the queue,
then waits for a place in it. Ending the sending direction lets go of the queue: sends that have got
hold of it still finish, later ones are refused. The call sees the end of the queue when it is empty
and nobody has hold of it.
-/

/-- The number of messages that can wait on one call. -/
def Outbound.capacity : Nat := 16

/-- The sending direction of a call. -/
structure Outbound where
  /-- Can sends still get hold of the queue? -/
  isOpen : Bool := true
  /-- The sends that have got hold of the queue and wait for a place in it. -/
  waiting : List (Nat × Envelope) := []
  queue : List Envelope := []
  /-- What the call has taken out, oldest first. -/
  drained : List Envelope := []
  /-- Has the call seen the end of the queue? -/
  atEnd : Bool := false
  /-- Is the call gone, with nobody left to take anything out? -/
  gone : Bool := false
  deriving DecidableEq

namespace Outbound

/-- Gets hold of the queue for the send `id`. -/
def claim (o : Outbound) (id : Nat) (m : Envelope) : Except StreamFault Outbound :=
  if o.isOpen then .ok { o with waiting := o.waiting ++ [(id, m)] } else .error .sendClosed

/-- The send `id` finds a place in the queue, or finds the call gone. -/
def settle (o : Outbound) (id : Nat) : Option (Sent × Outbound) :=
  match o.waiting.find? (·.1 = id) with
  | none => none
  | some (_, m) =>
    let o' := { o with waiting := o.waiting.filter (·.1 ≠ id) }
    if o.gone then some (.error .closed, o')
    else if o.queue.length < capacity then some (.ok (), { o' with queue := o.queue ++ [m] })
    else none

/-- Ends the sending direction. Doing so again changes nothing. -/
def close (o : Outbound) : Outbound := { o with isOpen := false }

/-- The call takes out a message. -/
def drain (o : Outbound) : Option Outbound :=
  match o.gone, o.queue with
  | false, m :: rest => some { o with queue := rest, drained := o.drained ++ [m] }
  | _, _ => none

/-- The call sees the end of the queue. -/
def finish (o : Outbound) : Option Outbound :=
  if !o.gone && !o.isOpen && o.waiting.isEmpty && o.queue.isEmpty && !o.atEnd then
    some { o with atEnd := true }
  else none

/-- The call goes away, and with it what waits. -/
def drop (o : Outbound) : Outbound := { o with gone := true, queue := [] }

/-- One step of a send, of the chaincode or of the call. -/
inductive Action where
  | claim (id : Nat) (m : Envelope)
  | settle (id : Nat)
  | close
  | drain
  | finish
  | drop

/-- The sending direction after an action, if the action is possible, and the outcome of the send
that the action brought to its end. -/
def step (o : Outbound) : Action → Option (Option Sent × Outbound)
  | .claim id m =>
    match o.claim id m with
    | .ok o => some (none, o)
    | .error fault => some (some (.error fault), o)
  | .settle id => (o.settle id).map fun (outcome, o) => (some outcome, o)
  | .close => some (none, o.close)
  | .drain => o.drain.map (none, ·)
  | .finish => o.finish.map (none, ·)
  | .drop => some (none, o.drop)

/-- The sending direction after a list of actions, if each is possible in its turn, and the outcomes
that they brought about. -/
def run (o : Outbound) : List Action → Option (List (Option Sent) × Outbound)
  | [] => some ([], o)
  | a :: rest => do
    let (outcome, o) ← o.step a
    let (more, o) ← o.run rest
    return (outcome :: more, o)

end Outbound

/-!
## Calls as message streams

One call carries one stream, whichever side opened it. A message above the limit is refused before
anything else is looked at.
-/

/-- How a call came to be. -/
inductive Role where
  /-- We dialed the peer. -/
  | client
  /-- The peer dialed us. -/
  | server
  deriving DecidableEq, Repr

/-- A call between chaincode and peer. -/
structure Call where
  role : Role
  peer : String
  limit : Nat
  inbound : Inbound
  outbound : Outbound := {}
  deriving DecidableEq

namespace Call

/-- A call of ours to a peer. -/
def dialed (peer : String) (limit : Nat) : Call :=
  { role := .client, peer, limit, inbound := .dialed limit }

/-- A call that a peer opened. -/
def accepted (peer : String) (limit : Nat) : Call :=
  { role := .server, peer, limit, inbound := .accepted limit }

/-- The first number that no send under way has. -/
def freshId (c : Call) : Nat := (c.outbound.waiting.map (·.1 + 1)).foldl max 0

/-- Refuses a message above the limit; the call is as before then. -/
def checkSize (c : Call) (m : Envelope) : Sent :=
  if c.limit < m.size then .error (.tooLarge m.size c.limit) else .ok ()

/-- Sends a message, unless the queue is full. -/
def send (m : Envelope) (c : Call) : Option (Sent × Call) :=
  match c.checkSize m with
  | .error fault => some (.error fault, c)
  | .ok () =>
    let id := c.freshId
    match c.outbound.claim id m with
    | .error fault => some (.error fault, c)
    | .ok claimed =>
      (claimed.settle id).map fun (outcome, outbound) => (outcome, { c with outbound })

def receive (c : Call) : Option (Received × Call) :=
  c.inbound.receive.map fun (result, inbound) => (result, { c with inbound })

/-- Ends the sending direction. -/
def close (c : Call) : Call := { c with outbound := c.outbound.close }

/-- What the call puts on the wire for a message it took out of its queue. -/
def frame (c : Call) (m : Envelope) : Except Status Bytes := Codec.write c.limit m

/-- Something arrives on the call. -/
def arrive (c : Call) (a : Arrival) : Call :=
  { c with inbound.arrivals := c.inbound.arrivals ++ [a] }

/-- Our call is answered. -/
def answer (c : Call) (o : Opening) : Call := { c with inbound.opening := some o }

instance : MessageStream Call where
  begin c := c
  receive c := c.receive.map fun (result, c) => (some result, c)
  abandon c := c
  send := send
  close c := (.ok (), c.close)

end Call

end Chaincode
