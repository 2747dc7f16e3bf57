import Chaincode.Fault

/-!
# Sessions

A session registers with the peer and then dispatches the peer's messages until something ends it.
Two tasks share the work. The reader receives one message per permit and puts the result into a
slot. The pump takes results from the slot, dispatches the messages to the handler, and lets the
reader go on once a message has been handled. Between two messages it looks at the outcomes that the
handler reports for the messages it sent on its own; the first fault among them ends the session.

Each step of either task is an `Action`, and so are the answers of the stream and of the handler and
the reports. `Session.step` says when an action is possible and what it does; `Session.run` follows
a list of actions. Any schedule of the tasks is such a list.
-/

namespace Chaincode

/-- A handler's answer to a message: it is done with it, or refuses it. -/
abbrev Verdict := Except Refusal Unit

namespace Session

/-- Where the task that receives stands. -/
inductive Reader where
  /-- The session has not registered yet. -/
  | unstarted
  /-- About to receive. -/
  | ready
  | receiving
  /-- With a result in hand. -/
  | holding (result : Received)
  /-- Waiting for a permit to go on. -/
  | waiting
  | stopped

/-- Where the session itself stands. -/
inductive Stage where
  | registering (registration : Envelope)
  /-- Waiting for a result or an outcome, whichever comes first. -/
  | selecting
  /-- A message is with the handler. -/
  | handling (m : Envelope)
  /-- Looking at the outcomes reported so far. -/
  | draining
  /-- About to let the reader go on. -/
  | granting
  /-- About to end the sending direction. -/
  | closing (why : SessionEnd)
  | ended (why : SessionEnd)
  /-- Broken off from outside. -/
  | cancelled

/-- Is a session at this stage done with messages and outcomes? -/
def Stage.isOver : Stage → Bool
  | closing _ | ended _ | cancelled => true
  | registering _ | selecting | handling _ | draining | granting => false

/-- Does nothing follow a result? -/
def isLast : Received → Bool
  | .ok m => m.isEmpty
  | .error _ => true

/-- One step of the session, its reader, its stream, its handler or a task of the handler. -/
inductive Action where
  /-- The stream's answer to the registration. -/
  | register (outcome : Sent)
  | beginReceive
  /-- The receive under way yields a result. -/
  | receive (result : Received)
  /-- The receive under way takes the reader down. -/
  | crash
  /-- The reader puts its result into the slot. -/
  | handOver
  | takePermit
  /-- A reader that is not needed any more is broken off. -/
  | abort
  | takeResult
  | takeOutcome
  /-- The handler's answer to the message it has. -/
  | answer (verdict : Verdict)
  | drain
  | grant
  /-- The stream's answer to the end of the sending direction. -/
  | close (outcome : Sent)
  /-- The outcome of a send is reported. -/
  | report (outcome : Sent)

end Session

/-- The state of a session. -/
structure Session where
  stage : Session.Stage
  reader : Session.Reader := .unstarted
  /-- A result that the reader has handed over and the pump has not taken. -/
  slot : Option Received := none
  /-- A permit that the pump has given and the reader has not taken. -/
  permit : Bool := false
  /-- The outcomes that were reported and the pump has not looked at, oldest first. -/
  outcomes : List Sent := []
  /-- The messages given to the handler, oldest first. -/
  dispatched : List Envelope := []

namespace Session

/-- A session of the chaincode `name`, about to register. -/
def start (name : String) : Session :=
  match registration name with
  | .ok m => { stage := .registering m }
  | .error overrun => { stage := .closing (.serialization overrun) }

/-- `s` on its way out. -/
def finish (s : Session) (why : SessionEnd) : Session := { s with stage := .closing why }

/-- Ends the session if the outcome is a fault. -/
def check (s : Session) : Sent → Session
  | .ok () => s
  | .error fault => s.finish (.transport .send fault)

/-- The pump's way with a result. -/
def dispatch (s : Session) : Received → Session
  | .error .closed => s.finish .streamEnded
  | .error fault => s.finish (.transport .receive fault)
  | .ok m =>
    if m.isEmpty then s.finish .emptyMessage
    else { s with stage := .handling m, dispatched := s.dispatched ++ [m] }

/-- The session after an action, if the action is possible. A reader that finds nobody to hand its
result to, or nobody to give it a permit, stops. Reports to a session that is over are dropped. -/
def step (s : Session) : Action → Option Session
  | .register outcome =>
    match s.stage, outcome with
    | .registering _, .ok () => some { s with stage := .selecting, reader := .ready }
    | .registering _, .error fault => some (s.finish (.transport .register fault))
    | _, _ => none
  | .beginReceive =>
    match s.reader with
    | .ready => some { s with reader := .receiving }
    | _ => none
  | .receive result =>
    match s.reader with
    | .receiving => some { s with reader := .holding result }
    | _ => none
  | .crash =>
    match s.reader with
    | .receiving => some { s with reader := .stopped }
    | _ => none
  | .handOver =>
    match s.reader with
    | .holding result =>
      if s.stage.isOver then some { s with reader := .stopped }
      else if s.slot.isNone then
        some { s with slot := some result, reader := if isLast result then .stopped else .waiting }
      else none
    | _ => none
  | .takePermit =>
    match s.reader with
    | .waiting =>
      if s.permit then some { s with permit := false, reader := .ready }
      else if s.stage.isOver then some { s with reader := .stopped }
      else none
    | _ => none
  | .abort =>
    match s.reader with
    | .unstarted | .stopped => none
    | _ => if s.stage.isOver then some { s with reader := .stopped } else none
  | .takeResult =>
    match s.stage, s.slot, s.reader with
    | .selecting, some result, _ => some ({ s with slot := none }.dispatch result)
    | .selecting, none, .stopped => some (s.finish (.transport .receive .readerGone))
    | _, _, _ => none
  | .takeOutcome =>
    match s.stage, s.outcomes with
    | .selecting, outcome :: rest => some ({ s with outcomes := rest }.check outcome)
    | _, _ => none
  | .answer verdict =>
    match s.stage, verdict with
    | .handling _, .ok () => some { s with stage := .draining }
    | .handling _, .error refusal => some (s.finish (.rejected refusal))
    | _, _ => none
  | .drain =>
    match s.stage, s.outcomes with
    | .draining, [] => some { s with stage := .granting }
    | .draining, outcome :: rest => some ({ s with outcomes := rest }.check outcome)
    | _, _ => none
  | .grant =>
    match s.stage, s.reader with
    | .granting, .stopped => some (s.finish (.transport .receive .readerGone))
    | .granting, _ => if s.permit then none else some { s with permit := true, stage := .selecting }
    | _, _ => none
  | .close _ =>
    match s.stage with
    | .closing why => some { s with stage := .ended why }
    | _ => none
  | .report outcome =>
    match s.stage with
    | .registering _ => none
    | _ => if s.stage.isOver then some s else some { s with outcomes := s.outcomes ++ [outcome] }

/-- The session after a list of actions, if each is possible in its turn. -/
def run (s : Session) : List Action → Option Session
  | [] => some s
  | a :: rest => (s.step a).bind (·.run rest)

/-- A session broken off from outside: neither of its tasks does anything more. -/
def cancel (s : Session) : Session :=
  match s.stage with
  | .ended _ => s
  | _ => { s with stage := .cancelled, reader := .stopped }

/-- Why the session ended, once it has. -/
def result? (s : Session) : Option SessionEnd :=
  match s.stage with
  | .ended why => some why
  | _ => none

theorem run_append (s : Session) (as bs : List Action) :
    s.run (as ++ bs) = (s.run as).bind (·.run bs) := by
  induction as generalizing s with
  | nil => rfl
  | cons a as ih =>
    simp only [List.cons_append, run]
    cases s.step a with
    | none => rfl
    | some t => simpa using ih t

end Session

end Chaincode

/-!
## Sessions without concurrency

What a session would do with the results of its receives if it were a single loop: take a result,
stop if it is the last one, else dispatch it and stop if the handler refuses it.
-/

namespace Chaincode.Session

/-- The messages dispatched, and the cause that stops the loop unless the results run out.
`decide` is the handler's verdict on the last of the messages given to it so far. -/
def sequential (decide : List Envelope → Verdict) (seen : List Envelope) :
    List Received → List Envelope × Option SessionEnd
  | [] => (seen, none)
  | .error .closed :: _ => (seen, some .streamEnded)
  | .error fault :: _ => (seen, some (.transport .receive fault))
  | .ok m :: rest =>
    if m = {} then (seen, some .emptyMessage)
    else
      match decide (seen ++ [m]) with
      | .ok () => sequential decide (seen ++ [m]) rest
      | .error refusal => (seen ++ [m], some (.rejected refusal))

end Chaincode.Session
