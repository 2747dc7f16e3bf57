import Chaincode.Conversation

/-!
# Servers

A chaincode that waits for calls, and the channel over which it is asked to stop.
-/

/-!
## Shutdown requests

The channel over which a server is asked to stop, as its one receiver sees it. Senders can be copied
and dropped. The channel keeps a limited number of requests; a receiver that has fallen behind
learns that it missed some. Only when nothing is left to read does it learn that no sender is left.
-/

namespace Chaincode

/-- The channel, from the receiver's subscription on. -/
structure Shutdown where
  /-- How many requests are kept. -/
  capacity : Nat
  senders : Nat := 1
  /-- How many requests were sent, and how many of them the receiver is past. -/
  sent : Nat := 0
  read : Nat := 0
  deriving DecidableEq, Repr

namespace Shutdown

/-- What the receiver learns. -/
inductive Heard where
  | request
  | missed (count : Nat)
  | noSender
  deriving DecidableEq, Repr

/-- Sends a request, if a sender is left. -/
def send (s : Shutdown) : Option Shutdown :=
  if s.senders = 0 then none else some { s with sent := s.sent + 1 }

def copySender (s : Shutdown) : Option Shutdown :=
  if s.senders = 0 then none else some { s with senders := s.senders + 1 }

def dropSender (s : Shutdown) : Option Shutdown :=
  if s.senders = 0 then none else some { s with senders := s.senders - 1 }

/-- The next that the receiver learns, unless it has to wait. -/
def receive (s : Shutdown) : Option (Heard × Shutdown) :=
  if s.read + s.capacity < s.sent then
    let oldest := s.sent - s.capacity
    some (.missed (oldest - s.read), { s with read := oldest })
  else if s.read < s.sent then some (.request, { s with read := s.read + 1 })
  else if s.senders = 0 then some (.noSender, s)
  else none

end Shutdown

/-!
## Servers

A chaincode that waits for its peer serves one method. Every call of it is a session of its own,
with a number, an entry in the table of live sessions and a handler built for it. A call is opened in
steps, and those of other calls may fall between them: it gets its number, its entry is made, its
session is launched. Once a shutdown has been requested, or accepting has failed, the server accepts
no more connections, and it returns when those it has are finished.
-/

namespace Server

/-- The answer to a call by its path. Only the one method is served. -/
def route (path : String) : Except Status Unit :=
  let service := Protocol.methodPath Protocol.connectService ""
  if path = Protocol.connectPath then .ok ()
  else if service.toList.isPrefixOf path.toList && path != service then
    .error { code := .unimplemented
             message := Protocol.connectService ++ " serves only " ++ Protocol.connectPath }
  else .error { code := .unimplemented }

/-- How far a call is on its way to a session. -/
inductive Opening.Stage where
  | arrived
  /-- It has got the number of its session. -/
  | numbered (id : Nat)
  /-- The entry of its session has been made. -/
  | entered (id : Nat)

/-- A call whose session has not been launched. -/
structure Opening (S : Type) where
  connection : Nat
  peer : Option String
  stream : S
  stage : Opening.Stage := .arrived

/-- A call that is served. -/
structure Served (σ S : Type) where
  id : Nat
  connection : Nat
  conversation : Conversation σ S
  /-- Has everything been sent to the caller, the end included, or has the caller given up? -/
  answered : Bool := false
  /-- Has the task of the session ended, its entry taken out of the table? -/
  gone : Bool := false

/-- An entry of the table of live sessions. -/
structure Entry where
  id : Nat
  peer : Option String
  deriving DecidableEq, Repr

/-- Sessions are counted in words of 64 bits. This is what the table knows the session `id` by. -/
def key (id : Nat) : Nat := id.toUInt64.toNat

/-- How far a server is. -/
inductive Stage where
  | serving
  /-- The shutdown channel has no sender left, so nobody can stop the server any more. -/
  | forever
  /-- Accepts nothing and waits for its connections to finish. -/
  | stopping
  | stopped
  deriving DecidableEq, Repr

/-- Does a server at this stage accept connections? -/
def Stage.accepts : Stage → Bool
  | serving | forever => true
  | stopping | stopped => false

end Server

/-- A server whose sessions run over streams `S` with handlers whose states are `σ`. -/
structure Server (σ S : Type) where
  name : String
  /-- What each session's handler starts as. -/
  handler : Handler σ
  stage : Server.Stage := .serving
  shutdown : Shutdown
  /-- The number of the next session. -/
  next : Nat := 1
  table : List Server.Entry := []
  opening : List (Server.Opening S) := []
  served : List (Server.Served σ S) := []
  /-- The connections that are not finished. -/
  connections : List Nat := []
  /-- The fault on which the server has stopped accepting connections. -/
  acceptFault : Option SystemFault := none

namespace Server

/-- One step of the server, of a session, or of a peer. -/
inductive Move (S : Type) where
  /-- A peer connects. The number is the connection's own. -/
  | connect (connection : Nat)
  /-- A peer calls a method on a connection; `stream` is the call as a stream. -/
  | call (connection : Nat) (path : String) (peer : Option String) (stream : S)
  /-- The call at a place among those being opened gets the next number. -/
  | number (place : Nat)
  /-- Its entry is made. -/
  | enter (place : Nat)
  /-- Its session is launched. -/
  | launch (place : Nat)
  /-- A step of the session with a number. -/
  | within (id : Nat) (move : Chaincode.Move)
  /-- The stream of a session changes under it. -/
  | shift (id : Nat) (stream : S)
  /-- The task of a session that has returned takes its entry out of the table. -/
  | remove (id : Nat)
  /-- The last of a session's messages is on its way to the caller. -/
  | complete (id : Nat)
  /-- The caller gives a call up. -/
  | giveUp (id : Nat)
  /-- A connection whose calls are all completed is finished. -/
  | finish (connection : Nat)
  /-- A peer drops its connection. -/
  | disconnect (connection : Nat)
  /-- Accepting a connection fails. -/
  | failAccept (fault : SystemFault)
  | requestShutdown
  | copySender
  | dropSender
  /-- The server looks for a request to stop. -/
  | listen
  /-- The server returns. -/
  | stop

variable {σ S : Type} [MessageStream S]

/-- The call with a number. -/
def find? (s : Server σ S) (id : Nat) : Option (Served σ S) := s.served.find? (·.id = id)

/-- `s` with one of its calls changed. -/
def update (s : Server σ S) (id : Nat) (f : Served σ S → Served σ S) : Server σ S :=
  { s with served := s.served.map fun c => if c.id = id then f c else c }

/-- The number of live sessions. -/
def activeSessions (s : Server σ S) : Nat := s.table.length

/-- `s` with an entry in its table, in place of any other for the same key. -/
def enter (s : Server σ S) (id : Nat) (peer : Option String) : Server σ S :=
  { s with table := s.table.filter (·.id ≠ key id) ++ [⟨key id, peer⟩] }

/-- The server after a move, if the move is possible. -/
def step (s : Server σ S) : Move S → Option (Server σ S)
  | .connect connection =>
    if s.stage.accepts && !s.connections.contains connection then
      some { s with connections := s.connections ++ [connection] }
    else none
  | .call connection path peer stream =>
    if s.connections.contains connection then
      match route path with
      | .ok () => some { s with opening := s.opening ++ [{ connection, peer, stream }] }
      | .error _ => some s
    else none
  | .number place =>
    match s.opening[place]? with
    | some ⟨connection, peer, stream, .arrived⟩ =>
      some { s with
        next := s.next + 1
        opening := s.opening.set place ⟨connection, peer, stream, .numbered s.next⟩ }
    | _ => none
  | .enter place =>
    match s.opening[place]? with
    | some ⟨connection, peer, stream, .numbered id⟩ =>
      some { s.enter id peer with
        opening := s.opening.set place ⟨connection, peer, stream, .entered id⟩ }
    | _ => none
  | .launch place =>
    match s.opening[place]? with
    | some ⟨connection, _, stream, .entered id⟩ =>
      some { s with
        opening := s.opening.eraseIdx place
        served := s.served ++ [{ id, connection, conversation := .start s.name stream s.handler }] }
    | _ => none
  | .within id move => do
    let c ← s.find? id
    let conversation ← c.conversation.step move
    return s.update id fun c => { c with conversation }
  | .shift id stream => do
    let _ ← s.find? id
    return s.update id fun c => { c with conversation.stream := stream }
  | .remove id => do
    let c ← s.find? id
    if c.conversation.session.result?.isSome && !c.gone then
      some { s.update id fun c => { c with gone := true } with
        table := s.table.filter (·.id ≠ key id) }
    else none
  | .complete id => do
    let c ← s.find? id
    if c.conversation.session.result?.isSome then
      return s.update id fun c => { c with answered := true }
    else none
  | .giveUp id => do
    let _ ← s.find? id
    return s.update id fun c => { c with answered := true }
  | .finish connection =>
    if s.connections.contains connection && s.opening.all (·.connection != connection) &&
        s.served.all fun c => c.connection != connection || c.answered then
      some { s with connections := s.connections.erase connection }
    else none
  | .disconnect connection =>
    if s.connections.contains connection then
      some { s with connections := s.connections.erase connection }
    else none
  | .failAccept fault =>
    if s.stage.accepts then some { s with stage := .stopping, acceptFault := some fault } else none
  | .requestShutdown => s.shutdown.send.map fun shutdown => { s with shutdown }
  | .copySender => s.shutdown.copySender.map fun shutdown => { s with shutdown }
  | .dropSender => s.shutdown.dropSender.map fun shutdown => { s with shutdown }
  | .listen =>
    match s.stage, s.shutdown.receive with
    | .serving, some (.noSender, shutdown) => some { s with stage := .forever, shutdown }
    | .serving, some (_, shutdown) => some { s with stage := .stopping, shutdown }
    | _, _ => none
  | .stop =>
    match s.stage, s.connections with
    | .stopping, [] => some { s with stage := .stopped }
    | _, _ => none

/-- What the server returns, once it has. -/
def result? (s : Server σ S) : Option (Except SessionEnd Unit) :=
  match s.stage, s.acceptFault with
  | .stopped, none => some (.ok ())
  | .stopped, some fault => some (.error (.transport .accept (.io fault)))
  | _, _ => none

/-- The server after a list of moves, if each is possible in its turn. -/
def run (s : Server σ S) : List (Move S) → Option (Server σ S)
  | [] => some s
  | move :: rest => (s.step move).bind (·.run rest)

/-- The server after those of the moves that are possible in their turn. -/
def attempt (s : Server σ S) (moves : List (Move S)) : Server σ S :=
  moves.foldl (fun s move => (s.step move).getD s) s

/-- Looks for a request to stop and returns if nothing is left to wait for. -/
def settle (s : Server σ S) : Server σ S := s.attempt [.listen, .stop]

end Server

end Chaincode
