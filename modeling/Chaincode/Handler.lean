import Chaincode.Session

/-!
# Handlers

A handler works on the messages that its session dispatches, one at a time. Its work on a message is
a list of effects followed by a verdict.
-/

namespace Chaincode

/-- Something that a handler does while it works on a message. -/
inductive Effect where
  /-- Sends a message on a task of its own, which reports the outcome to the session. -/
  | spawn (m : Envelope)
  /-- Sends a message and waits for the outcome; a fault is a reason to refuse. -/
  | send (m : Envelope)
  /-- Reports an outcome to the session. -/
  | report (outcome : Sent)
  /-- Puts a reply aside for later. -/
  | hold (m : Envelope)
  /-- Waits until it is resumed. -/
  | pause

/-- A handler's work on one message. -/
structure Work where
  effects : List Effect := []
  verdict : Verdict := .ok ()

/-- A handler with states `σ`. -/
structure Handler (σ : Type) where
  state : σ
  react : σ → Envelope → σ × Work

namespace Envelope

/-- A message of a kind that answers `m`: same payload, same correlation. -/
def answer (m : Envelope) (kind : Kind) : Envelope := { m with number := kind.number }

end Envelope

/-!
## The echo handler

Completes every invocation with the arguments it came with and answers signs of life in kind.
Messages that a peer has no reason to send are refused.
-/

/-- The work of the echo handler on a message. -/
def echoWork (m : Envelope) : Work :=
  match m.kind with
  | .registered | .ready => {}
  | .keepalive => { effects := [.spawn m] }
  | .init | .transaction => { effects := [.spawn (m.answer .completed)] }
  | other => { verdict := .error (.ofText ("unexpected " ++ other.name ++ " message from peer")) }

def echo : Handler Unit where
  state := ()
  react _ m := ((), echoWork m)

/-!
## Scripted handlers

Handlers that follow a script: one reaction for each message in turn, and one for all messages after
those.
-/

/-- What a scripted handler does with a message. A reply completes it. -/
inductive Reaction where
  | accept
  /-- Sends replies on tasks of their own. -/
  | reply (count : Nat)
  /-- Sends a reply and waits for the outcome. -/
  | replyInline
  /-- Puts a reply aside. -/
  | delay
  /-- Waits to be resumed if asked to, reports outcomes, and gives a verdict. -/
  | custom (block : Bool) (reports : List Sent) (verdict : Verdict)

def Reaction.work (m : Envelope) : Reaction → Work
  | accept => {}
  | reply count => { effects := .replicate count (.spawn (m.answer .completed)) }
  | replyInline => { effects := [.send (m.answer .completed)] }
  | delay => { effects := [.hold (m.answer .completed)] }
  | custom block reports verdict =>
    { effects := (if block then [.pause] else []) ++ reports.map .report, verdict }

/-- The handler that reacts as `script` says and then as `later` says. -/
def scripted (script : List Reaction) (later : Reaction) : Handler (List Reaction) where
  state := script
  react
    | [], m => ([], later.work m)
    | reaction :: rest, m => (rest, reaction.work m)

end Chaincode
