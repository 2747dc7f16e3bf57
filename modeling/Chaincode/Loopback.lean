import Chaincode.Conversation

/-!
# Loopbacks

A message stream in memory. One end is a chaincode's stream; at the other end stands a peer that
queues messages and faults for it, reads what it sent, and sees how it was used: how many receives
were started, how many were under way at once, how often the sending direction was ended.

Receives may overlap. A receive counts itself, enters, records how many are in at that moment, and
joins the line for the inbound queue; the head of the line takes the first item. A receive can be
dropped while it waits, in line or to join it. Each of these is a step of its own, and any steps of
other receives and of the peer can fall between two of them.
-/

namespace Chaincode

namespace Loopback

/-- How far a receive has come. -/
inductive Progress where
  | counted
  /-- In, together with the receives that make up `now`. -/
  | entered (now : Nat)
  | recorded
  | inLine
  /-- About to go, with its result or, if it was dropped, without. -/
  | leaving (result : Option Received)

/-- A receive that has not gone yet, known by the number of receives before it. -/
structure Call where
  id : Nat
  progress : Progress := .counted

/-- How a stream has been used. -/
structure Tally where
  receives : Nat := 0
  underWay : Nat := 0
  mostUnderWay : Nat := 0
  closes : Nat := 0
  deriving DecidableEq

end Loopback

/-- A message stream in memory, seen from both ends. -/
structure Loopback where
  /-- What the peer has queued and no receive has taken. -/
  inbound : List Received := []
  hungUp : Bool := false
  /-- What has been sent and the peer has not read. -/
  outbound : List Envelope := []
  /-- Has the peer asked for sends to fail? -/
  failing : Bool := false
  peerGone : Bool := false
  streamGone : Bool := false
  tally : Loopback.Tally := {}
  /-- The receives that have not gone, the latest first. -/
  calls : List Loopback.Call := []
  /-- The receives that wait for an item. The head of the line stands last: the list grows at its
  front, where those join. -/
  line : List Nat := []

namespace Loopback

/-! ## Receives, step by step -/

/-- The progress of a receive that has not gone. -/
def progress? (l : Loopback) (id : Nat) : Option Progress :=
  (l.calls.find? (·.id = id)).map (·.progress)

/-- Calls with the one of a number moved on. No two calls share a number. -/
def moveOn (id : Nat) (p : Progress) : List Call → List Call
  | [] => []
  | c :: rest => if c.id = id then ⟨id, p⟩ :: rest else c :: moveOn id p rest

/-- `l` with one receive moved on. -/
def advance (l : Loopback) (id : Nat) (p : Progress) : Loopback :=
  { l with calls := moveOn id p l.calls }

/-- Starts a receive: it counts itself. Its number is the count before. -/
def start (l : Loopback) : Loopback :=
  { l with
    tally.receives := l.tally.receives + 1
    calls := ⟨l.tally.receives, .counted⟩ :: l.calls }

def enter (l : Loopback) (id : Nat) : Option Loopback :=
  match l.progress? id with
  | some .counted =>
    let now := l.tally.underWay + 1
    some { l.advance id (.entered now) with tally.underWay := now }
  | _ => none

def record (l : Loopback) (id : Nat) : Option Loopback :=
  match l.progress? id with
  | some (.entered now) =>
    some { l.advance id .recorded with tally.mostUnderWay := max l.tally.mostUnderWay now }
  | _ => none

def lineUp (l : Loopback) (id : Nat) : Option Loopback :=
  match l.progress? id with
  | some .recorded => some { l.advance id .inLine with line := id :: l.line }
  | _ => none

/-- The first queued item; the end of the stream once nothing more can come. -/
def next? (l : Loopback) : Option (Received × List Received) :=
  match l.inbound with
  | item :: rest => some (item, rest)
  | [] => if l.hungUp || l.peerGone then some (.error .closed, []) else none

/-- The head of the line takes an item and makes way for the next in line. -/
def take (l : Loopback) (id : Nat) : Option Loopback :=
  match l.next? with
  | some (item, rest) =>
    if l.line.getLast? = some id then
      some { l.advance id (.leaving (some item)) with inbound := rest, line := l.line.dropLast }
    else none
  | none => none

/-- Drops a receive that waits, in line or to join it. -/
def drop (l : Loopback) (id : Nat) : Option Loopback :=
  match l.progress? id with
  | some .recorded | some .inLine => some { l.advance id (.leaving none) with line := l.line.erase id }
  | _ => none

/-- A receive goes, with its result if it has one. -/
def leave (l : Loopback) (id : Nat) : Option (Option Received × Loopback) :=
  match l.progress? id with
  | some (.leaving result) =>
    some (result,
      { l with
        tally.underWay := l.tally.underWay - 1
        calls := l.calls.eraseP (·.id = id) })
  | _ => none

/-! ## Whole calls -/

/-- Starts a receive and brings it into the line. -/
def beginReceive (l : Loopback) : Nat × Loopback :=
  let id := l.tally.receives
  (id, ((l.start.enter id).bind (·.record id)).bind (·.lineUp id) |>.getD l)

/-- The result of a receive in line, unless it has to wait. -/
def poll (l : Loopback) (id : Nat) : Option (Received × Loopback) := do
  let (result, l) ← (← l.take id).leave id
  return (← result, l)

/-- Drops a receive in line. -/
def abandon (l : Loopback) (id : Nat) : Loopback :=
  (((l.drop id).bind (·.leave id)).map (·.2)).getD l

/-- A receive of its own that is given a single chance: its result, or none and the receive that
waits now. -/
def receiveOnce (l : Loopback) : Except Nat Received × Loopback :=
  let (id, l) := l.beginReceive
  match l.poll id with
  | some (r, l) => (.ok r, l)
  | none => (.error id, l)

/-- Starts receives one after the other and gives each a single chance. Theirs come before `found`,
the latest first. -/
def receiveEach : Nat → Loopback → List (Except Nat Received) →
    List (Except Nat Received) × Loopback
  | 0, l, found => (found, l)
  | n + 1, l, found =>
    let (r, l) := l.receiveOnce
    receiveEach n l (r :: found)

/-- Starts receives one after the other and gives each a single chance; in the end those that have
to wait are dropped. -/
def receiveMany (n : Nat) (l : Loopback) : List (Option Received) × Loopback :=
  let (found, l) := receiveEach n l []
  let leaveLine (l : Loopback) : Except Nat Received → Loopback
    | .error id => l.abandon id
    | .ok _ => l
  (found.reverse.map (·.toOption), found.foldl leaveLine l)

/-- Sends a message: refused while the peer wants it so, after the end of the sending direction, and
once the peer is gone. -/
def send (m : Envelope) (l : Loopback) : Sent × Loopback :=
  let refuse (text : String) : Sent × Loopback := (.error (.io (.message text)), l)
  if l.failing then refuse "mock send failure"
  else if 0 < l.tally.closes then refuse "send side closed"
  else if l.peerGone then refuse "mock peer dropped"
  else (.ok (), { l with outbound := l.outbound ++ [m] })

/-- Ends the sending direction. -/
def closeSend (l : Loopback) : Loopback := { l with tally.closes := l.tally.closes + 1 }

/-- The chaincode's end goes away. -/
def dropStream (l : Loopback) : Loopback := { l with streamGone := true }

/-! ## The peer's end -/

/-- Queues an item, unless the peer has hung up. -/
def push (l : Loopback) (item : Received) : Loopback :=
  if l.hungUp || l.peerGone then l else { l with inbound := l.inbound ++ [item] }

def deliver (l : Loopback) (m : Envelope) : Loopback := l.push (.ok m)

def fail (l : Loopback) (fault : StreamFault) : Loopback := l.push (.error fault)

def hangUp (l : Loopback) : Loopback := { l with hungUp := true }

/-- Makes the following sends fail, or succeed again. -/
def failSends (l : Loopback) (on : Bool) : Loopback := { l with failing := on }

/-- Everything that was sent and not read yet. -/
def drain (l : Loopback) : List Envelope × Loopback := (l.outbound, { l with outbound := [] })

/-- The next message that was sent; `some none` once there will be none. -/
def nextSent (l : Loopback) : Option (Option Envelope) × Loopback :=
  match l.outbound with
  | m :: rest => (some (some m), { l with outbound := rest })
  | [] => (if l.streamGone then some none else none, l)

/-- The peer goes away, and with it all it has not read. -/
def dropPeer (l : Loopback) : Loopback := { l with peerGone := true, outbound := [] }

end Loopback

end Chaincode

/-!
## Loopbacks step by step

Everything that can happen to a loopback, from either end and from any number of receives at once,
as one list of actions. An action of an end that has gone away is not possible.
-/

namespace Chaincode.Loopback

/-- One step at either end of a loopback. -/
inductive Action where
  | start
  | enter (id : Nat)
  | record (id : Nat)
  | lineUp (id : Nat)
  | take (id : Nat)
  | drop (id : Nat)
  | leave (id : Nat)
  | send (m : Envelope)
  | closeSend
  | dropStream
  | push (item : Received)
  | hangUp
  | failSends (on : Bool)
  | drain
  /-- The peer takes the next message that was sent, or learns that there will be none. -/
  | nextSent
  | dropPeer

/-- Is it the peer that acts? -/
def Action.isPeers : Action → Bool
  | push _ | hangUp | failSends _ | drain | nextSent | dropPeer => true
  | start | enter _ | record _ | lineUp _ | take _ | drop _ | leave _ | send _ | closeSend
  | dropStream => false

/-- What an action shows to whoever took it. -/
inductive Shown where
  | nothing
  /-- A receive has gone, without a result if it was dropped. -/
  | received (id : Nat) (result : Option Received)
  | sent (outcome : Sent)
  | drained (messages : List Envelope)
  | read (message : Option Envelope)

/-- The loopback after an action, if the action is possible, and what the action shows. -/
def step (l : Loopback) (a : Action) : Option (Shown × Loopback) :=
  if (if a.isPeers then l.peerGone else l.streamGone) then none
  else
    match a with
    | .start => some (.nothing, l.start)
    | .enter id => (l.enter id).map (.nothing, ·)
    | .record id => (l.record id).map (.nothing, ·)
    | .lineUp id => (l.lineUp id).map (.nothing, ·)
    | .take id => (l.take id).map (.nothing, ·)
    | .drop id => (l.drop id).map (.nothing, ·)
    | .leave id => (l.leave id).map fun (result, l) => (.received id result, l)
    | .send m =>
      let (outcome, l) := l.send m
      some (.sent outcome, l)
    | .closeSend => some (.sent (.ok ()), l.closeSend)
    | .dropStream => if l.calls.isEmpty then some (.nothing, l.dropStream) else none
    | .push item => some (.nothing, l.push item)
    | .hangUp => some (.nothing, l.hangUp)
    | .failSends on => some (.nothing, l.failSends on)
    | .drain =>
      let (messages, l) := l.drain
      some (.drained messages, l)
    | .nextSent =>
      let (message?, l) := l.nextSent
      message?.map fun message => (.read message, l)
    | .dropPeer => some (.nothing, l.dropPeer)

/-- The loopback after a list of actions, if each is possible in its turn, and what they show. -/
def run (l : Loopback) : List Action → Option (List Shown × Loopback)
  | [] => some ([], l)
  | a :: rest => do
    let (shown, l) ← l.step a
    let (more, l) ← l.run rest
    return (shown :: more, l)

end Chaincode.Loopback

/-!
## Loopbacks as streams of a session

A loopback with at most one receive under way, and with faults arranged beforehand: one receive can
take its task down, and the end of the sending direction can report a fault although it happens.
-/

namespace Chaincode

namespace Loopback

/-- A receive under way. -/
inductive Pending where
  | call (id : Nat)
  /-- It never reaches the loopback. -/
  | doomed

/-- A loopback as the stream of one session. -/
structure Rigged where
  loopback : Loopback := {}
  pending : Option Pending := none
  begun : Nat := 0
  /-- The receive that takes its task down, counted from zero. -/
  fatal : Option Nat := none
  closeFault : Option StreamFault := none

namespace Rigged

def begin (r : Rigged) : Rigged :=
  let r := { r with begun := r.begun + 1 }
  if r.fatal = some (r.begun - 1) then { r with pending := some .doomed }
  else
    let (id, loopback) := r.loopback.beginReceive
    { r with loopback, pending := some (.call id) }

def receive (r : Rigged) : Option (Option Received × Rigged) :=
  match r.pending with
  | none => none
  | some .doomed => some (none, { r with pending := none })
  | some (.call id) =>
    (r.loopback.poll id).map fun (result, loopback) =>
      (some result, { r with loopback, pending := none })

def abandon (r : Rigged) : Rigged :=
  match r.pending with
  | some (.call id) => { r with loopback := r.loopback.abandon id, pending := none }
  | _ => { r with pending := none }

def send (m : Envelope) (r : Rigged) : Sent × Rigged :=
  let (outcome, loopback) := r.loopback.send m
  (outcome, { r with loopback })

def close (r : Rigged) : Sent × Rigged :=
  let r := { r with loopback := r.loopback.closeSend }
  match r.closeFault with
  | some fault => (.error fault, r)
  | none => (.ok (), r)

instance : MessageStream Rigged where
  begin := begin
  receive := receive
  abandon := abandon
  send m r := some (r.send m)
  close := close

end Rigged

end Loopback

/-- Runs a conversation over a loopback until nothing can proceed: a round for each queued item, and
the rounds in which the session notices the end of the stream or a fault. -/
def Conversation.settle {σ : Type} (c : Conversation σ Loopback.Rigged) :
    Conversation σ Loopback.Rigged :=
  rounds (c.stream.loopback.inbound.length + 3) c

end Chaincode
