import Chaincode.Conversation
import Chaincode.Proofs.Session.Uses

/-!
# What a conversation asks of its stream

A `Recorded` stream is a stream that keeps a record of how it is used. A conversation over it goes
as it would without the record, and `Does` says what each move comes to: the action of the session,
if there is one, and the uses of the stream with it (`does_step`). `uses` lists the uses in a run,
each with the party that made it.
-/

namespace Chaincode

/-- A stream with a record of its uses, oldest first. -/
structure Recorded (S : Type) where
  stream : S
  uses : List Use := []

namespace Recorded

variable {S : Type}

/-- `r` after a use that leaves the stream as `stream`. -/
def note (r : Recorded S) (stream : S) (use : Use) : Recorded S :=
  { stream, uses := r.uses ++ [use] }

instance [MessageStream S] : MessageStream (Recorded S) where
  begin r := r.note (MessageStream.begin r.stream) .begin
  receive r := (MessageStream.receive r.stream).map fun (result, stream) =>
    (result, r.note stream (.receive result))
  abandon r := r.note (MessageStream.abandon r.stream) .abandon
  send m r := (MessageStream.send m r.stream).map fun (outcome, stream) =>
    (outcome, r.note stream (.send m outcome))
  close r :=
    let (outcome, stream) := MessageStream.close r.stream
    (outcome, r.note stream (.close outcome))

end Recorded

/-- Who takes part in a conversation. -/
inductive Party where
  /-- The session's own task: it registers, pumps and ends the sending direction. -/
  | session
  | reader
  /-- The handler at work on a message; the session's own task waits for its verdict. -/
  | handler
  /-- The tasks that the handler has started, and whoever it has passed something on to. -/
  | others

namespace Party

/-- Does the session itself account for this party, and not its handler? -/
def isOwn : Party → Bool
  | session | reader => true
  | handler | others => false

/-- Is this the session's own task, or the handler that it waits for? -/
def isMain : Party → Bool
  | session | handler => true
  | reader | others => false

end Party

/-- The uses in a record that are the session's own. -/
def ownUses (record : List (Party × Use)) : List Use := (record.filter (·.1.isOwn)).map (·.2)

/-- The move that brings an action of the session about, if the handler has no part in it. -/
def Session.Action.move? : Session.Action → Option Move
  | .register _ => some .register
  | .beginReceive => some .beginReceive
  | .receive _ | .crash => some .receive
  | .handOver => some .handOver
  | .takePermit => some .takePermit
  | .abort => some .abort
  | .takeResult => some .takeResult
  | .takeOutcome => some .takeOutcome
  | .drain => some .drain
  | .grant => some .grant
  | .close _ => some .close
  | .answer _ | .report _ => none

/-- Whose move this is. -/
def Move.party : Move → Party
  | .register | .takeResult | .takeOutcome | .drain | .grant | .close => .session
  | .beginReceive | .receive | .handOver | .takePermit | .abort => .reader
  | .work => .handler
  | .advance _ | .send _ | .report _ => .others

namespace Conversation

open Session (Action)

variable {σ S T : Type} {s t : Session} {move : Move} {a : Action} {made : List Use}

/-! ## What a move comes to -/

/-- What a move comes to for a session `s`, and the uses of the stream that go with it. -/
inductive Does (s : Session) : Move → Session → List Use → Prop where
  /-- The session acts. -/
  | acts {t : Session} {move : Move} (a : Action) (hstep : s.step a = some t)
      (ha : a.move? = some move) : Does s move t (s.uses a)
  /-- The handler does something about the message that it has, or answers. -/
  | works {t : Session} {uses : List Use} (m : Envelope) (hs : s.stage = .handling m)
      (ht : t = s ∨ (∃ verdict, s.step (.answer verdict) = some t) ∨
        ∃ outcome, s.step (.report outcome) = some t)
      (huses : ∀ use ∈ uses, use.sent?.isSome) : Does s .work t uses
  /-- Somebody else sends, or reports an outcome. -/
  | others {t : Session} {move : Move} {uses : List Use} (hmove : move.party = .others)
      (ht : t = s ∨ ∃ outcome, s.step (.report outcome) = some t)
      (huses : ∀ use ∈ uses, use.sent?.isSome) : Does s move t uses

theorem isOwn_of_move? (ha : a.move? = some move) : move.party.isOwn = true := by
  cases a <;> cases ha <;> rfl

/-- A move is an action of the session with the uses that go with it, or somebody else's: then the
stream is at most sent on, and the session does nothing that would be a use. -/
theorem Does.own_or_foreign (hdoes : Does s move t made) :
    (∃ a, s.step a = some t ∧ a.move? = some move ∧ made = s.uses a) ∨
      (move.party.isOwn = false ∧ (t = s ∨ ∃ a, s.step a = some t ∧ s.uses a = []) ∧
        ∀ use ∈ made, use.sent?.isSome) := by
  cases hdoes with
  | acts a hstep ha => exact .inl ⟨a, hstep, ha, rfl⟩
  | works m hs ht huses =>
    refine .inr ⟨rfl, ?_, huses⟩
    rcases ht with ht | ⟨verdict, hstep⟩ | ⟨outcome, hstep⟩
    · exact .inl ht
    · exact .inr ⟨_, hstep, rfl⟩
    · exact .inr ⟨_, hstep, rfl⟩
  | others hmove ht huses =>
    refine .inr ⟨by rw [hmove]; rfl, ?_, huses⟩
    rcases ht with ht | ⟨outcome, hstep⟩
    · exact .inl ht
    · exact .inr ⟨_, hstep, rfl⟩

/-! ## Over a stream that records -/

/-- `c` over another stream. -/
def withStream (c : Conversation σ S) (stream : T) : Conversation σ T where
  session := c.session
  stream := stream
  handler := c.handler
  work := c.work
  tasks := c.tasks
  held := c.held
  resumed := c.resumed

/-- `c` over its own stream, with the uses of the stream recorded from here on. -/
def recorded (c : Conversation σ S) : Conversation σ (Recorded S) := c.withStream { stream := c.stream }

variable {c c' d : Conversation σ S}

theorem act_recorded (uses : List Use) (h : c.act a = some d) :
    (c.withStream (⟨c.stream, uses⟩ : Recorded S)).act a = some (d.withStream ⟨d.stream, uses⟩) := by
  obtain ⟨session, hstep, rfl⟩ := Option.map_eq_some_iff.1 h
  exact Option.map_eq_some_iff.2 ⟨session, hstep, rfl⟩

theorem step_of_act (h : c.act a = some d) : c.session.step a = some d.session := by
  obtain ⟨session, hstep, rfl⟩ := Option.map_eq_some_iff.1 h
  exact hstep

theorem assign_session (c : Conversation σ S) : c.assign.session = c.session := by
  unfold assign
  split <;> rfl

theorem assign_recorded (uses : List Use) (c : Conversation σ S) :
    (c.withStream (⟨c.stream, uses⟩ : Recorded S)).assign =
      c.assign.withStream ⟨c.assign.stream, uses⟩ := by
  unfold assign
  cases hs : c.session.stage <;> simp [withStream, hs]

variable [MessageStream S]

theorem send_session {m : Envelope} {outcome : Sent} (h : c.send m = some (outcome, d)) :
    d.session = c.session := by
  obtain ⟨⟨outcome', stream⟩, -, heq⟩ := Option.map_eq_some_iff.1 h
  cases heq
  rfl

theorem send_recorded {m : Envelope} {outcome : Sent} (h : c.send m = some (outcome, d)) :
    c.recorded.send m = some (outcome, d.withStream ⟨d.stream, [.send m outcome]⟩) := by
  obtain ⟨⟨outcome', stream⟩, hsend, heq⟩ := Option.map_eq_some_iff.1 h
  cases heq
  simp only [send, recorded, withStream, MessageStream.send, Recorded.note] at hsend ⊢
  simp [hsend]

/-- `c` becomes `d` by `move` as well if the uses of the stream are recorded, and they go with what the
session does. -/
def Records (c : Conversation σ S) (move : Move) (d : Conversation σ S) : Prop :=
  ∃ uses, c.recorded.step move = some (d.withStream ⟨d.stream, uses⟩) ∧ Does c.session move d.session uses

theorem Records.of_act (hstep : c.recorded.step move = c.recorded.act a) (h : c.act a = some d)
    (ha : a.move? = some move) (huses : c.session.uses a = []) : Records c move d :=
  ⟨[], hstep.trans (act_recorded [] h), huses ▸ .acts a (step_of_act h) ha⟩

theorem records_perform {m : Envelope} {rest : Work} {effect : Effect}
    (hs : c.session.stage = .handling m) (hwork : c.recorded.step .work = c.recorded.perform rest effect)
    (h : c.perform rest effect = some d) : Records c .work d := by
  rw [Records, hwork]
  cases effect with
  | spawn m' | hold m' =>
    cases h
    exact ⟨[], rfl, .works m hs (.inl rfl) (by simp)⟩
  | report outcome =>
    simp only [perform] at h ⊢
    have hstep := step_of_act h
    exact ⟨[], act_recorded [] h, .works m hs (.inr (.inr ⟨outcome, hstep⟩)) (by simp)⟩
  | pause =>
    simp only [perform] at h ⊢
    split at h
    · rename_i hresumed
      cases h
      exact ⟨[], if_pos hresumed, .works m hs (.inl rfl) (by simp)⟩
    · cases h
  | send m' =>
    obtain ⟨⟨outcome, c'⟩, hsend, h⟩ := Option.bind_eq_some_iff.1 h
    have hsession := send_session hsend
    refine ⟨[.send m' outcome], Option.bind_eq_some_iff.2 ⟨_, send_recorded hsend, ?_⟩,
      .works m hs ?_ (by simp [Use.sent?])⟩
    · rcases outcome with fault | ⟨⟨⟩⟩
      · exact act_recorded _ h
      · cases h
        rfl
    · rcases outcome with fault | ⟨⟨⟩⟩
      · exact .inr (.inl ⟨_, hsession ▸ step_of_act h⟩)
      · cases h
        exact .inl hsession

theorem records_advance {place : Nat} (h : c.step (.advance place) = some d) :
    Records c (.advance place) d := by
  simp only [Records, step, recorded, withStream] at h ⊢
  split at h
  · obtain ⟨⟨outcome, c'⟩, hsend, h⟩ := Option.bind_eq_some_iff.1 h
    cases h
    have hsession := send_session hsend
    exact ⟨[.send _ outcome], Option.bind_eq_some_iff.2 ⟨_, send_recorded hsend, rfl⟩,
      .others rfl (.inl hsession) (by simp [Use.sent?])⟩
  · have hstep := step_of_act h
    exact ⟨[], act_recorded [] h, .others rfl (.inr ⟨_, hstep⟩) (by simp)⟩
  · cases h

/-- **A record changes nothing.** A conversation makes the same moves over a stream that records its
uses. -/
theorem records_step (h : c.step move = some d) : Records c move d := by
  cases move with
  | handOver | takePermit | takeOutcome | drain | grant => exact .of_act rfl h rfl rfl
  | advance place => exact records_advance h
  | register =>
    simp only [step] at h
    split at h
    · rename_i m hs
      obtain ⟨⟨outcome, c'⟩, hsend, h⟩ := Option.bind_eq_some_iff.1 h
      have hstep := step_of_act h
      rw [send_session hsend] at hstep
      refine ⟨[.send m outcome], ?_, ?_⟩
      · simp only [step, recorded, withStream, hs]
        exact Option.bind_eq_some_iff.2 ⟨_, send_recorded hsend, act_recorded _ h⟩
      · simpa [Session.uses, hs] using Does.acts _ hstep rfl
    · cases h
  | beginReceive =>
    obtain ⟨d', hact, rfl⟩ := Option.map_eq_some_iff.1 h
    exact ⟨[.begin], Option.map_eq_some_iff.2 ⟨_, act_recorded [] hact, rfl⟩,
      .acts _ (step_of_act hact) rfl⟩
  | receive =>
    simp only [step] at h
    split at h
    · rename_i hr
      obtain ⟨⟨result, stream⟩, hreceive, h⟩ := Option.bind_eq_some_iff.1 h
      have hact := act_recorded [.receive result] h
      refine ⟨[.receive result], ?_, ?_⟩
      · simp only [step, recorded, withStream, hr]
        refine Option.bind_eq_some_iff.2 ⟨(result, ⟨stream, [.receive result]⟩), ?_, hact⟩
        simp [MessageStream.receive, hreceive, Recorded.note]
      · cases result with
        | some result => exact .acts _ (step_of_act h) rfl
        | none => exact .acts _ (step_of_act h) rfl
    · cases h
  | abort =>
    obtain ⟨d', hact, h⟩ := Option.bind_eq_some_iff.1 h
    have hstep := step_of_act hact
    have hrecorded := act_recorded [] hact
    split at h
    · rename_i hr
      cases h
      refine ⟨[.abandon], Option.bind_eq_some_iff.2 ⟨_, hrecorded, ?_⟩, ?_⟩
      · simp only [recorded, withStream, hr]
        rfl
      · simpa [Session.uses, hr] using Does.acts _ hstep rfl
    · rename_i hr
      cases h
      refine ⟨[], Option.bind_eq_some_iff.2 ⟨_, hrecorded, ?_⟩, ?_⟩
      · simp only [recorded, withStream]
      · simpa [Session.uses, hr] using Does.acts _ hstep rfl
  | takeResult =>
    obtain ⟨d', hact, rfl⟩ := Option.map_eq_some_iff.1 h
    refine ⟨[], Option.map_eq_some_iff.2 ⟨_, act_recorded [] hact, assign_recorded [] d'⟩, ?_⟩
    rw [assign_session]
    exact .acts _ (step_of_act hact) rfl
  | work =>
    simp only [step] at h
    split at h
    · rename_i m hs
      split at h
      · rename_i effect rest heffects
        exact records_perform hs (by simp only [step, recorded, withStream, hs, heffects]) h
      · rename_i heffects
        refine ⟨[], ?_, .works m hs (.inr (.inl ⟨_, step_of_act h⟩)) (by simp)⟩
        simp only [step, recorded, withStream, hs, heffects]
        exact act_recorded [] h
    · cases h
  | close =>
    simp only [step] at h
    split at h
    · rename_i why hs
      have hact := act_recorded [.close (MessageStream.close c.stream).1] h
      refine ⟨[.close (MessageStream.close c.stream).1], ?_, .acts _ (step_of_act h) rfl⟩
      simp only [step, recorded, withStream, hs]
      exact hact
    · cases h
  | send m =>
    obtain ⟨⟨outcome, d'⟩, hsend, rfl⟩ := Option.map_eq_some_iff.1 h
    exact ⟨[.send m outcome], Option.map_eq_some_iff.2 ⟨_, send_recorded hsend, rfl⟩,
      .others rfl (.inl (send_session hsend)) (by simp [Use.sent?])⟩
  | report outcome =>
    exact ⟨[], act_recorded [] h, .others rfl (.inr ⟨_, step_of_act h⟩) (by simp)⟩

/-! ## Runs -/

/-- The uses of the stream in a run, oldest first, each with the party that made it. -/
def uses (c : Conversation σ S) : List Move → List (Party × Use)
  | [] => []
  | move :: rest =>
    match c.recorded.step move with
    | some d => d.stream.uses.map (move.party, ·) ++ (d.withStream d.stream.stream).uses rest
    | none => []

theorem uses_cons (h : c.step move = some d) : ∃ made, Does c.session move d.session made ∧
    ∀ rest, c.uses (move :: rest) = made.map (move.party, ·) ++ d.uses rest := by
  obtain ⟨made, hstep, hdoes⟩ := records_step h
  exact ⟨made, hdoes, fun rest => by rw [uses, hstep]; rfl⟩

theorem uses_concat {moves : List Move} (hrun : c.run moves = some c')
    (hstep : c'.step move = some d) : ∃ made, Does c'.session move d.session made ∧
      c.uses (moves ++ [move]) = c.uses moves ++ made.map (move.party, ·) := by
  induction moves generalizing c with
  | nil =>
    cases hrun
    obtain ⟨made, hdoes, huses⟩ := uses_cons hstep
    exact ⟨made, hdoes, by simpa [uses] using huses []⟩
  | cons first moves ih =>
    obtain ⟨c₁, hfirst, hrest⟩ := Option.bind_eq_some_iff.1 hrun
    obtain ⟨before, -, huses⟩ := uses_cons hfirst
    obtain ⟨made, hdoes, hconcat⟩ := ih hrest
    refine ⟨made, hdoes, ?_⟩
    rw [List.cons_append, huses, huses, hconcat, List.append_assoc]

theorem uses_induction {P : Session → List (Party × Use) → Prop}
    (hmove : ∀ s move t made record, Does s move t made → P s record →
      P t (record ++ made.map (move.party, ·)))
    {moves : List Move} (hstart : P c.session []) (hrun : c.run moves = some d) :
    P d.session (c.uses moves) := by
  suffices h : ∀ record, P c.session record → P d.session (record ++ c.uses moves) from h [] hstart
  clear hstart
  induction moves generalizing c with
  | nil =>
    cases hrun
    simp [uses]
  | cons move moves ih =>
    obtain ⟨c', hstep, hrest⟩ := Option.bind_eq_some_iff.1 hrun
    obtain ⟨made, hdoes, huses⟩ := uses_cons hstep
    intro record hrecord
    rw [huses, ← List.append_assoc]
    exact ih hrest _ (hmove _ _ _ _ _ hdoes hrecord)

end Conversation

end Chaincode

/-!
## The session of a conversation

A move of a conversation is one action of its session, or none (`acts_step`). So every conversation is
a run of its session (`run_session`), and what is proved about all runs of a session holds in every
conversation, over whatever stream and with whatever handler.
-/

namespace Chaincode.Conversation

variable {σ S : Type} {c d : Conversation σ S}

/-- The session of `c` gets to that of `d` by at most one action. -/
def Acts (c d : Conversation σ S) : Prop :=
  d.session = c.session ∨ ∃ a, c.session.step a = some d.session

variable [MessageStream S]

theorem acts_step {move : Move} (h : c.step move = some d) : Acts c d := by
  obtain ⟨made, -, hdoes⟩ := records_step h
  rcases hdoes.own_or_foreign with ⟨a, hstep, -, -⟩ | ⟨-, hsession | ⟨a, hstep, -⟩, -⟩
  · exact .inr ⟨a, hstep⟩
  · exact .inl hsession
  · exact .inr ⟨a, hstep⟩

/-- **Every conversation is a run of its session.** -/
theorem run_session {moves : List Move} (hrun : c.run moves = some d) :
    ∃ as, c.session.run as = some d.session := by
  induction moves generalizing c with
  | nil =>
    cases hrun
    exact ⟨[], rfl⟩
  | cons move moves ih =>
    obtain ⟨c', hstep, hrest⟩ := Option.bind_eq_some_iff.1 hrun
    obtain ⟨as, has⟩ := ih hrest
    rcases acts_step hstep with hsession | ⟨a, ha⟩
    · exact ⟨as, hsession ▸ has⟩
    · exact ⟨a :: as, Option.bind_eq_some_iff.2 ⟨c'.session, ha, has⟩⟩

end Chaincode.Conversation
