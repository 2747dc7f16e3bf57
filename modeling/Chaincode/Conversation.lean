import Chaincode.Handler

/-!
# Conversations

A session together with its stream, its handler and the tasks that the handler has started. Each
`Move` is one step of one of them. What a move does to the session is an action of the session, so
every conversation follows its session's rules; what the conversation adds is where the results of
receives, the outcomes of sends and the verdicts come from.
-/

namespace Chaincode

/-- A task that sends one message and reports the outcome. -/
inductive Task where
  | unsent (m : Envelope)
  | unreported (outcome : Sent)

/-- A session over a stream `S` with a handler whose states are `σ`. -/
structure Conversation (σ S : Type) where
  session : Session
  stream : S
  handler : Handler σ
  /-- What is left of the handler's work on the message it has. -/
  work : Work := {}
  /-- The tasks under way, oldest first. -/
  tasks : List Task := []
  /-- The replies that the handler has put aside, in order; taken ones leave a gap. -/
  held : List (Option Envelope) := []
  /-- Has the handler been resumed without having waited for it? -/
  resumed : Bool := false

/-- One step of a conversation, or of somebody to whom its handler has passed on what it was
given. -/
inductive Move where
  | register
  | beginReceive
  | receive
  | handOver
  | takePermit
  | abort
  | takeResult
  | takeOutcome
  /-- The handler's next effect, or its verdict if there is none. -/
  | work
  | drain
  | grant
  | close
  /-- The next step of the task at a place in the list. -/
  | advance (place : Nat)
  /-- Somebody who can send on the session's stream does so. -/
  | send (m : Envelope)
  /-- Somebody who can report to the session does so. -/
  | report (outcome : Sent)

namespace Conversation

variable {σ S : Type} [MessageStream S]

/-- A conversation of the chaincode `name`, about to register. -/
def start (name : String) (stream : S) (handler : Handler σ) : Conversation σ S :=
  { session := .start name, stream, handler }

/-- `c` with an action of its session, if that is possible. -/
def act (c : Conversation σ S) (a : Session.Action) : Option (Conversation σ S) :=
  (c.session.step a).map fun session => { c with session }

/-- Sends a message on the conversation's stream. -/
def send (c : Conversation σ S) (m : Envelope) : Option (Sent × Conversation σ S) :=
  (MessageStream.send m c.stream).map fun (outcome, stream) => (outcome, { c with stream })

/-- Starts a task that sends a message. -/
def spawn (c : Conversation σ S) (m : Envelope) : Conversation σ S :=
  { c with tasks := c.tasks ++ [.unsent m] }

/-- Has the handler react to the message it was just given, if it was given one. -/
def assign (c : Conversation σ S) : Conversation σ S :=
  match c.session.stage with
  | .handling m =>
    let (state, work) := c.handler.react c.handler.state m
    { c with handler.state := state, work }
  | _ => c

/-- The handler's next effect. -/
def perform (c : Conversation σ S) (rest : Work) : Effect → Option (Conversation σ S)
  | .spawn m => some ({ c with work := rest }.spawn m)
  | .send m => do
    match ← c.send m with
    | (.ok (), c) => return { c with work := rest }
    | (.error fault, c) => act { c with work := {} } (.answer (.error { root := .stream fault }))
  | .report outcome => { c with work := rest }.act (.report outcome)
  | .hold m => some { c with work := rest, held := c.held ++ [some m] }
  | .pause => if c.resumed then some { c with work := rest, resumed := false } else none

/-- The conversation after a move, if the move is possible. -/
def step (c : Conversation σ S) : Move → Option (Conversation σ S)
  | .register =>
    match c.session.stage with
    | .registering m => do
      let (outcome, c) ← c.send m
      c.act (.register outcome)
    | _ => none
  | .beginReceive =>
    (c.act .beginReceive).map fun c => { c with stream := MessageStream.begin c.stream }
  | .receive =>
    match c.session.reader with
    | .receiving => do
      let (result, stream) ← MessageStream.receive c.stream
      act { c with stream } (match result with
        | some r => .receive r
        | none => .crash)
    | _ => none
  | .handOver => c.act .handOver
  | .takePermit => c.act .takePermit
  | .abort => do
    let after ← c.act .abort
    match c.session.reader with
    | .receiving => some { after with stream := MessageStream.abandon c.stream }
    | _ => some after
  | .takeResult => (c.act .takeResult).map assign
  | .takeOutcome => c.act .takeOutcome
  | .work =>
    match c.session.stage with
    | .handling _ =>
      match c.work.effects with
      | effect :: rest => c.perform { c.work with effects := rest } effect
      | [] => c.act (.answer c.work.verdict)
    | _ => none
  | .drain => c.act .drain
  | .grant => c.act .grant
  | .close =>
    match c.session.stage with
    | .closing _ =>
      let (outcome, stream) := MessageStream.close c.stream
      { c with stream }.act (.close outcome)
    | _ => none
  | .advance place =>
    match c.tasks[place]? with
    | some (.unsent m) => do
      let (outcome, c) ← c.send m
      return { c with tasks := c.tasks.set place (.unreported outcome) }
    | some (.unreported outcome) => { c with tasks := c.tasks.eraseIdx place }.act (.report outcome)
    | none => none
  | .send m => (c.send m).map (·.2)
  | .report outcome => c.act (.report outcome)

/-- The conversation after a list of moves, if each is possible in its turn. -/
def run (c : Conversation σ S) : List Move → Option (Conversation σ S)
  | [] => some c
  | move :: rest => (c.step move).bind (·.run rest)

/-! ## From outside -/

/-- Lets a handler that waits go on. With nobody waiting the next to wait is let through. -/
def resume (c : Conversation σ S) : Conversation σ S := { c with resumed := true }

/-- Sends a reply that was put aside on a task of its own, if it is still there. -/
def release (c : Conversation σ S) (place : Nat) : Option (Conversation σ S) :=
  match c.held[place]? with
  | some (some m) => some ({ c with held := c.held.set place none }.spawn m)
  | _ => none

/-- Reports an outcome to the session. -/
def report (c : Conversation σ S) (outcome : Sent) : Conversation σ S :=
  (c.act (.report outcome)).getD c

/-- Breaks the session off. Its tasks go on. -/
def cancel (c : Conversation σ S) : Conversation σ S :=
  { c with
    session := c.session.cancel
    stream := match c.session.reader with
      | .receiving => MessageStream.abandon c.stream
      | _ => c.stream }

end Conversation

end Chaincode

/-!
## Settling

One schedule of a conversation: the pump runs until it has to wait, then the handler's tasks in the
order of their start, then the reader, and so on in rounds.
-/

namespace Chaincode.Conversation

variable {σ S : Type} [MessageStream S]

/-- `c` after a move, or as it is if the move is not possible. -/
def attempt (c : Conversation σ S) (move : Move) : Conversation σ S := (c.step move).getD c

/-- `c` after the same move again and again, as often as it is possible and at most `n` times. -/
def repeatedly (move : Move) : Nat → Conversation σ S → Conversation σ S
  | 0, c => c
  | n + 1, c =>
    match c.step move with
    | some c => repeatedly move n c
    | none => c

/-- The pump's turn: it registers if that has not been done, looks at the outcomes, takes a result,
has the handler work on the message, looks at the outcomes again and lets the reader go on. If the
session has ended it ends the sending direction. -/
def pump (c : Conversation σ S) : Conversation σ S :=
  let c := c.attempt .register
  let c := repeatedly .takeOutcome c.session.outcomes.length c
  let c := c.attempt .takeResult
  let c := repeatedly .work (c.work.effects.length + 1) c
  let c := repeatedly .drain (c.session.outcomes.length + 1) c
  let c := c.attempt .grant
  (c.attempt .close).attempt .abort

/-- The tasks' turn. -/
def runTasks (c : Conversation σ S) : Conversation σ S :=
  repeatedly (.advance 0) (2 * c.tasks.length) c

/-- The reader's turn. -/
def read (c : Conversation σ S) : Conversation σ S :=
  [Move.takePermit, .beginReceive, .receive, .handOver].foldl attempt c

/-- `n` rounds. -/
def rounds : Nat → Conversation σ S → Conversation σ S
  | 0, c => c
  | n + 1, c => rounds n (read (runTasks (pump c)))

end Chaincode.Conversation
