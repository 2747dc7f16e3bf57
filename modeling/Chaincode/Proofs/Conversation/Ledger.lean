import Mathlib.Data.List.Induction
import Chaincode.Proofs.Conversation.Registration

/-!
# Conversations among other events

The stream of a conversation is not its own, and the tasks of its handler keep no record of what they are
for. Runs are defined here with what others do to the stream, and a ledger is kept beside them.
-/

/-!
## Streams that change under a conversation

A stream is not its conversation's alone: something arrives on it, its peer takes out what was sent or
goes away. A `Turn` is a move of the conversation or such a change. `proceed` runs a conversation with
changes of any kind at any time, and `record` lists what the conversation asks of its stream on the way.
What holds at the start and is kept by every move and every change holds after every such run
(`proceed_induction`).
-/

namespace Chaincode

/-- A move of a conversation, or a change of its stream that it has no part in. -/
inductive Turn (S : Type) where
  | move (move : Move)
  | shift (stream : S)

namespace Conversation

variable {σ S : Type} [MessageStream S] {c d e : Conversation σ S} {move : Move} {t : Turn S}
  {turns : List (Turn S)}

/-- The conversation after a turn, if the turn is possible. -/
def turn (c : Conversation σ S) : Turn S → Option (Conversation σ S)
  | .move move => c.step move
  | .shift stream => some { c with stream }

/-- The conversation after a list of turns, if each is possible in its turn. -/
def proceed (c : Conversation σ S) : List (Turn S) → Option (Conversation σ S)
  | [] => some c
  | t :: rest => (c.turn t).bind (·.proceed rest)

/-- The uses of the stream in one turn, each with the party that makes it. -/
def turnUses (c : Conversation σ S) : Turn S → List (Party × Use)
  | .move move => c.uses [move]
  | .shift _ => []

/-- The uses of the stream in a list of turns, oldest first. -/
def record (c : Conversation σ S) : List (Turn S) → List (Party × Use)
  | [] => []
  | t :: rest =>
    c.turnUses t ++
      match c.turn t with
      | some d => d.record rest
      | none => []

theorem proceed_cons : c.proceed (t :: turns) = some e ↔
    ∃ d, c.turn t = some d ∧ d.proceed turns = some e := Option.bind_eq_some_iff

theorem record_cons (h : c.turn t = some d) :
    c.record (t :: turns) = c.turnUses t ++ d.record turns := by
  simp only [record, h]

theorem proceed_concat : c.proceed (turns ++ [t]) = some e ↔
    ∃ d, c.proceed turns = some d ∧ d.turn t = some e := by
  induction turns generalizing c with
  | nil =>
    rw [List.nil_append, proceed_cons]
    simp [proceed]
  | cons first turns ih =>
    rw [List.cons_append, proceed_cons]
    simp only [ih, proceed_cons]
    constructor
    · rintro ⟨c', hfirst, d, hrest, hlast⟩
      exact ⟨d, ⟨c', hfirst, hrest⟩, hlast⟩
    · rintro ⟨d, ⟨c', hfirst, hrest⟩, hlast⟩
      exact ⟨c', hfirst, d, hrest, hlast⟩

theorem record_concat (hrun : c.proceed turns = some d) :
    c.record (turns ++ [t]) = c.record turns ++ d.turnUses t := by
  induction turns generalizing c with
  | nil =>
    cases hrun
    rw [List.nil_append, record, record, List.nil_append]
    cases d.turn t <;> simp [record]
  | cons first turns ih =>
    obtain ⟨c', hfirst, hrest⟩ := proceed_cons.1 hrun
    rw [List.cons_append, record_cons hfirst, record_cons hfirst, ih hrest, List.append_assoc]

theorem uses_single (h : c.step move = some d) : ∃ made, Does c.session move d.session made ∧
    c.uses [move] = made.map (move.party, ·) := by
  obtain ⟨made, hdoes, huses⟩ := uses_cons h
  refine ⟨made, hdoes, ?_⟩
  rw [huses, uses, List.append_nil]

theorem turn_returned (h : c.turn t = some d) (hc : c.session.result?.isSome = true) :
    d.session.result?.isSome = true := by
  cases t with
  | move move =>
    obtain ⟨made, hdoes, -⟩ := uses_single h
    have hcloses := hdoes.closes
    rw [hc] at hcloses
    cases hd : d.session.result?.isSome with
    | true => rfl
    | false =>
      rw [hd] at hcloses
      simp at hcloses
  | shift stream =>
    cases h
    exact hc

/-- What holds at the start and is kept by every turn holds after every run. The turns may be limited
to those with a property `Q`. -/
theorem proceed_induction {P : List (Turn S) → Conversation σ S → Prop} {Q : Turn S → Prop}
    (start : P [] c)
    (next : ∀ turns t d e, (∀ t ∈ turns, Q t) → c.proceed turns = some d → P turns d → Q t →
      d.turn t = some e → P (turns ++ [t]) e)
    (hturns : ∀ t ∈ turns, Q t) (hrun : c.proceed turns = some d) : P turns d := by
  induction turns using List.reverseRecOn generalizing d with
  | nil =>
    cases hrun
    exact start
  | append_singleton turns t ih =>
    obtain ⟨d', hrest, hlast⟩ := proceed_concat.1 hrun
    have hbefore : ∀ t' ∈ turns, Q t' := fun t' ht' => hturns t' (List.mem_append_left _ ht')
    exact next turns t d' d hbefore hrest (ih hbefore hrest) (hturns t (by simp)) hlast

end Conversation

/-!
## Tasks and the messages they answer

A handler that replies on tasks of its own lets go of a reply when it starts the task: nothing in the
conversation says any more which message it answers. The `Ledger` keeps that beside a run: every task is
known by the place, among the messages dispatched, of the message it was started for, and so is what it
sends and what it reports. `Moves` lists the ways in which a conversation moves as far as its handler
and its tasks go, one constructor for each (`moves_step`).
-/

/-- The tasks of a conversation and what they have done. Each is known by the place, among the messages
dispatched, of the message that it was started for. -/
structure Ledger where
  /-- The tasks under way, in their order. -/
  tasks : List (Nat × Task) := []
  /-- What was sent, oldest first, with the outcome. -/
  sends : List (Nat × Envelope × Sent) := []
  /-- The outcomes that were reported, oldest first. -/
  reports : List (Nat × Sent) := []

/-- Does somebody make this move who is neither the session, its reader, its handler nor a task? -/
def Move.isForeign : Move → Bool
  | .send _ | .report _ => true
  | _ => false

def Turn.isForeign {S : Type} : Turn S → Bool
  | move m => m.isForeign
  | shift _ => false

namespace Ledger

/-- The places of the messages for which a task was started. -/
def known (l : Ledger) : List Nat := l.tasks.map (·.1) ++ l.reports.map (·.1)

variable {σ S : Type} [MessageStream S]

/-- `l` with what the conversation `c` does by a move. -/
def note (l : Ledger) (c : Conversation σ S) : Move → Ledger
  | .work =>
    match c.session.stage, c.work.effects with
    | .handling _, .spawn m :: _ =>
      { l with tasks := l.tasks ++ [(c.session.dispatched.length - 1, .unsent m)] }
    | _, _ => l
  | .advance place =>
    match l.tasks[place]? with
    | some (i, .unsent m) =>
      match c.send m with
      | some (outcome, _) =>
        { l with
          tasks := l.tasks.set place (i, .unreported outcome)
          sends := l.sends ++ [(i, m, outcome)] }
      | none => l
    | some (i, .unreported outcome) =>
      { l with tasks := l.tasks.eraseIdx place, reports := l.reports ++ [(i, outcome)] }
    | none => l
  | _ => l

/-- `l` with what the conversation `c` does in one turn. -/
def noteTurn (l : Ledger) (c : Conversation σ S) : Turn S → Ledger
  | .move move => l.note c move
  | .shift _ => l

/-- `l` with what the conversation `c` does in a list of turns. -/
def along (l : Ledger) (c : Conversation σ S) : List (Turn S) → Ledger
  | [] => l
  | t :: rest =>
    match c.turn t with
    | some d => (l.noteTurn c t).along d rest
    | none => l.noteTurn c t

theorem along_concat {l : Ledger} {c d : Conversation σ S} {t : Turn S} {turns : List (Turn S)}
    (hrun : c.proceed turns = some d) : l.along c (turns ++ [t]) = (l.along c turns).noteTurn d t := by
  induction turns generalizing l c with
  | nil =>
    cases hrun
    simp only [List.nil_append, along]
    cases d.turn t <;> rfl
  | cons first turns ih =>
    obtain ⟨c', hfirst, hrest⟩ := Conversation.proceed_cons.1 hrun
    rw [List.cons_append]
    simp only [along, hfirst]
    exact ih hrest

end Ledger

/-- What a stream was offered, oldest first, with the outcomes. -/
def offered (record : List (Party × Use)) : List (Envelope × Sent) := record.filterMap (·.2.sent?)

/-- Those of the messages offered that were accepted. -/
def acceptedOf (sends : List (Envelope × Sent)) : List Envelope :=
  sends.filterMap fun (m, outcome) => if outcome.isOk then some m else none

namespace Conversation

variable {σ S : Type} {c d : Conversation σ S} {move : Move} {a : Session.Action}

theorem eq_of_act (h : c.act a = some d) : d = { c with session := d.session } := by
  obtain ⟨session, hstep, rfl⟩ := Option.map_eq_some_iff.1 h
  rfl

variable [MessageStream S]

/-- What the conversation `c` does in a list of turns, beside what its last state shows. -/
def ledger (c : Conversation σ S) (turns : List (Turn S)) : Ledger := ({} : Ledger).along c turns

theorem ledger_concat {t : Turn S} {turns : List (Turn S)} (hrun : c.proceed turns = some d) :
    c.ledger (turns ++ [t]) = (c.ledger turns).noteTurn d t := Ledger.along_concat hrun

/-! ### Moves -/

theorem step_frame (h : c.step move = some d) (hown : move.party.isOwn = true)
    (hmove : move ≠ .takeResult) :
    d.handler = c.handler ∧ d.work = c.work ∧ d.tasks = c.tasks := by
  cases move with
  | takeResult => exact absurd rfl hmove
  | work | advance | send | report => cases hown
  | handOver | takePermit | takeOutcome | drain | grant =>
    rw [eq_of_act h]
    exact ⟨rfl, rfl, rfl⟩
  | register =>
    simp only [step] at h
    split at h
    · obtain ⟨⟨outcome, c'⟩, hsend, h⟩ := Option.bind_eq_some_iff.1 h
      obtain ⟨⟨outcome', stream⟩, -, heq⟩ := Option.map_eq_some_iff.1 hsend
      cases heq
      rw [eq_of_act h]
      exact ⟨rfl, rfl, rfl⟩
    · cases h
  | beginReceive =>
    obtain ⟨c', hact, rfl⟩ := Option.map_eq_some_iff.1 h
    rw [eq_of_act hact]
    exact ⟨rfl, rfl, rfl⟩
  | receive =>
    simp only [step] at h
    split at h
    · obtain ⟨⟨result, stream⟩, -, h⟩ := Option.bind_eq_some_iff.1 h
      rw [eq_of_act h]
      exact ⟨rfl, rfl, rfl⟩
    · cases h
  | abort =>
    obtain ⟨c', hact, h⟩ := Option.bind_eq_some_iff.1 h
    have hframe := eq_of_act hact
    split at h
    · cases h
      rw [hframe]
      exact ⟨rfl, rfl, rfl⟩
    · cases h
      rw [hframe]
      exact ⟨rfl, rfl, rfl⟩
  | close =>
    simp only [step] at h
    split at h
    · rw [eq_of_act h]
      exact ⟨rfl, rfl, rfl⟩
    · cases h

/-- The ways in which a conversation moves, with the uses of the stream that go with each. -/
inductive Moves (c : Conversation σ S) : Move → Conversation σ S → List Use → Prop where
  /-- The session or its reader goes on. -/
  | goesOn {d : Conversation σ S} {move : Move} (a : Session.Action)
      (hstep : c.session.step a = some d.session) (ha : a.move? = some move)
      (hmove : move ≠ .takeResult) (hhandler : d.handler = c.handler) (hwork : d.work = c.work)
      (htasks : d.tasks = c.tasks) : Moves c move d (c.session.uses a)
  /-- The pump takes a result; a message goes to the handler. -/
  | takes (s : Session) (hstep : c.session.step .takeResult = some s) :
      Moves c .takeResult ({ c with session := s }.assign) []
  | spawns (m m' : Envelope) (rest : List Effect) (hs : c.session.stage = .handling m)
      (heffects : c.work.effects = .spawn m' :: rest) :
      Moves c .work ({ c with work := { c.work with effects := rest } }.spawn m') []
  /-- The handler does something else than to start a task. -/
  | performs {d : Conversation σ S} {made : List Use} (m : Envelope) (effect : Effect)
      (rest : List Effect) (hs : c.session.stage = .handling m)
      (heffects : c.work.effects = effect :: rest) (heffect : ∀ m', effect ≠ .spawn m') :
      Moves c .work d made
  | answers (m : Envelope) (s : Session) (hs : c.session.stage = .handling m)
      (heffects : c.work.effects = []) (hstep : c.session.step (.answer c.work.verdict) = some s) :
      Moves c .work { c with session := s } []
  | sends (place : Nat) (m : Envelope) (outcome : Sent) (stream : S)
      (htask : c.tasks[place]? = some (.unsent m))
      (hsend : MessageStream.send m c.stream = some (outcome, stream)) :
      Moves c (.advance place) { c with stream, tasks := c.tasks.set place (.unreported outcome) }
        [.send m outcome]
  | reports (place : Nat) (outcome : Sent) (s : Session)
      (htask : c.tasks[place]? = some (.unreported outcome))
      (hstep : c.session.step (.report outcome) = some s) :
      Moves c (.advance place) { c with session := s, tasks := c.tasks.eraseIdx place } []
  | foreign {d : Conversation σ S} {move : Move} {made : List Use} (hmove : move.isForeign = true) :
      Moves c move d made

theorem moves_advance {place : Nat} (h : c.step (.advance place) = some d) :
    ∃ made, Moves c (.advance place) d made ∧
      c.recorded.step (.advance place) = some (d.withStream ⟨d.stream, made⟩) := by
  have hstep := h
  simp only [step] at h
  split at h
  · rename_i m htask
    obtain ⟨⟨outcome, c'⟩, hsend, h⟩ := Option.bind_eq_some_iff.1 h
    have hrecorded := send_recorded hsend
    obtain ⟨⟨outcome', stream⟩, hstream, heq⟩ := Option.map_eq_some_iff.1 hsend
    cases heq
    cases h
    refine ⟨_, .sends place m outcome stream htask hstream, ?_⟩
    simp only [step, recorded, withStream, htask] at hrecorded ⊢
    exact Option.bind_eq_some_iff.2 ⟨_, hrecorded, rfl⟩
  · rename_i outcome htask
    obtain ⟨session, hsession, rfl⟩ := Option.map_eq_some_iff.1 h
    refine ⟨_, .reports place outcome session htask hsession, ?_⟩
    simp only [step, recorded, withStream, htask]
    exact act_recorded [] h
  · cases h

theorem moves_step (h : c.step move = some d) : ∃ made, Moves c move d made ∧
    c.recorded.step move = some (d.withStream ⟨d.stream, made⟩) := by
  obtain ⟨made, hrecorded, hdoes⟩ := records_step h
  cases hown : move.party.isOwn with
  | true =>
    -- the session acts
    rcases hdoes.own_or_foreign with ⟨a, hstep, ha, rfl⟩ | ⟨hforeign, -⟩
    · by_cases hmove : move = .takeResult
      · subst hmove
        obtain ⟨c', hact, rfl⟩ := Option.map_eq_some_iff.1 h
        obtain ⟨s, hsession, rfl⟩ := Option.map_eq_some_iff.1 hact
        have huses : c.session.uses a = [] := by cases a <;> first | rfl | cases ha
        rw [huses] at hrecorded
        exact ⟨_, .takes s hsession, hrecorded⟩
      · obtain ⟨hhandler, hwork, htasks⟩ := step_frame h hown hmove
        exact ⟨_, .goesOn a hstep ha hmove hhandler hwork htasks, hrecorded⟩
    · rw [hown] at hforeign
      cases hforeign
  | false =>
    cases move with
    | advance place => exact moves_advance h
    | send m | report outcome => exact ⟨_, .foreign rfl, hrecorded⟩
    | work =>
      simp only [step] at h
      split at h
      · rename_i m hs
        split at h
        · rename_i effect rest heffects
          by_cases heffect : ∃ m', effect = .spawn m'
          · obtain ⟨m', rfl⟩ := heffect
            cases h
            refine ⟨_, .spawns m m' rest hs heffects, ?_⟩
            simp only [step, recorded, withStream, hs, heffects]
            rfl
          · exact ⟨_, .performs m effect rest hs heffects (not_exists.1 heffect), hrecorded⟩
        · rename_i heffects
          obtain ⟨s, hsession, rfl⟩ := Option.map_eq_some_iff.1 h
          refine ⟨_, .answers m s hs heffects hsession, ?_⟩
          simp only [step, recorded, withStream, hs, heffects]
          exact act_recorded [] h
      · cases h
    | _ => cases hown

/-- **A conversation moves in one of these ways.** -/
theorem moves_of_turn (h : c.step move = some d) : ∃ made, Moves c move d made ∧
    c.uses [move] = made.map (move.party, ·) := by
  obtain ⟨made, hmoves, hrecorded⟩ := moves_step h
  refine ⟨made, hmoves, ?_⟩
  simp only [uses, hrecorded, withStream, List.append_nil]

end Conversation

end Chaincode
