import Chaincode.Loopback
import Chaincode.Proofs.Conversation.Record
import Chaincode.Proofs.Session.Cause

/-!
# Registration first, one close last

Whatever the handler and the tasks around it do, a session asks nothing of its stream before the
stream has accepted the registration, and it ends the sending direction once, on every way out: a move
of the session's own task decides why the session ends, the close is that task's next move, and its
last (`Ends`). What the stream answers to the close makes no difference (`run_answering`). All of it
together is `registers_first_closes_once`. Those who were given the means to send when the handler was
built are not held back, though: they may be heard before the registration (`accepted_first`).
-/

namespace Chaincode.Conversation

open Session (Announced announced_step closes_step)

variable {σ S : Type} {s t : Session} {move : Move} {made : List Use} {m : Envelope}
  {record : List (Party × Use)} {why : SessionEnd}

/-! ## The session's own uses -/

theorem ownUses_append_own {party : Party} (hparty : party.isOwn = true) :
    ownUses (record ++ made.map (party, ·)) = ownUses record ++ made := by
  simp [ownUses, List.filter_map, hparty, Function.comp_def]

theorem ownUses_append_foreign {party : Party} (hparty : party.isOwn = false) :
    ownUses (record ++ made.map (party, ·)) = ownUses record := by
  simp [ownUses, List.filter_map, hparty, Function.comp_def]

theorem Does.announced (hdoes : Does s move t made) (h : Announced m s (ownUses record)) :
    Announced m t (ownUses (record ++ made.map (move.party, ·))) := by
  rcases hdoes.own_or_foreign with ⟨a, hstep, ha, rfl⟩ | ⟨hparty, ht, -⟩
  · rw [ownUses_append_own (isOwn_of_move? ha)]
    exact announced_step (.of_step hstep) h
  · rw [ownUses_append_foreign hparty]
    rcases ht with rfl | ⟨a, hstep, hnone⟩
    · exact h
    · simpa [hnone] using announced_step (.of_step hstep) h

theorem Does.isOwn (hdoes : Does s move t made) {use : Use} (huse : use ∈ made)
    (hsent : use.sent? = none) : move.party.isOwn = true := by
  rcases hdoes.own_or_foreign with ⟨a, -, ha, -⟩ | ⟨-, -, huses⟩
  · exact isOwn_of_move? ha
  · simpa [hsent] using huses use huse

theorem Does.closes (hdoes : Does s move t made) :
    s.result?.isSome.toNat + made.countP Use.isClose = t.result?.isSome.toNat := by
  rcases hdoes.own_or_foreign with ⟨a, hstep, -, rfl⟩ | ⟨-, ht, huses⟩
  · exact closes_step (.of_step hstep)
  · have hmade : made.countP Use.isClose = 0 := by
      refine List.countP_eq_zero.2 fun use huse hclose => ?_
      simpa [Use.sent?_eq_none hclose] using huses use huse
    rw [hmade]
    rcases ht with rfl | ⟨a, hstep, hnone⟩
    · rfl
    · simpa [hnone] using closes_step (.of_step hstep)

/-- What the session itself has asked of the stream, and that nobody else has done more than send. -/
structure Gated (m : Envelope) (s : Session) (record : List (Party × Use)) : Prop where
  announced : Announced m s (ownUses record)
  foreign : ∀ entry ∈ record, entry.2.sent? = none → entry.1.isOwn = true
  closes : record.countP (·.2.isClose) = s.result?.isSome.toNat

theorem gated_move (hdoes : Does s move t made) (h : Gated m s record) :
    Gated m t (record ++ made.map (move.party, ·)) where
  announced := hdoes.announced h.announced
  foreign entry hentry hsent := by
    rcases List.mem_append.1 hentry with hentry | hentry
    · exact h.foreign entry hentry hsent
    · obtain ⟨use, huse, rfl⟩ := List.mem_map.1 hentry
      exact hdoes.isOwn huse hsent
  closes := by
    rw [List.countP_append, h.closes, List.countP_map]
    exact hdoes.closes

/-! ## The way out -/

theorem Does.stage_eq (hdoes : Does s move t made) (hmove : move.party.isMain = false) :
    t.stage = s.stage := by
  cases hdoes with
  | acts a hstep ha =>
    cases Session.Step.of_step hstep with
    | registered | refused | takeLast | takeMessage | missReader | takeFault | drainFault | drained
    | grant | grantNobody | close =>
      cases ha
      cases hmove
    | accept | reject => cases ha
    | _ => rfl
  | works m hs ht huses => cases hmove
  | others hparty ht huses =>
    rcases ht with rfl | ⟨outcome, hstep⟩
    · rfl
    · cases Session.Step.of_step hstep <;> rfl

theorem Does.of_over (hdoes : Does s move t made) (ho : s.stage.isOver = true)
    (hmove : move.party.isMain = true) :
    move = .close ∧ ∃ why, s.stage = .closing why ∧ t.stage = .ended why := by
  cases hdoes with
  | acts a hstep ha =>
    cases Session.Step.of_step hstep with
    | close why outcome hs =>
      cases ha
      exact ⟨rfl, why, hs, rfl⟩
    | registered _ hs | refused _ _ hs | takeLast _ _ hs | takeMessage _ hs | missReader hs
    | takeOk _ hs | takeFault _ _ hs | accept _ hs | reject _ _ hs | drainOk _ hs
    | drainFault _ _ hs | drained hs | grant hs | grantNobody hs => simp [hs, Session.Stage.isOver] at ho
    | report | drop => cases ha
    | _ =>
      cases ha
      cases hmove
  | works m hs => simp [hs, Session.Stage.isOver] at ho
  | others hparty => simp [hparty, Party.isMain] at hmove

theorem Does.of_closing (hdoes : Does s move t made) (ht : t.stage = .closing why) :
    (s.stage.isOver = false ∧ move.party.isMain = true) ∨
      (s.stage = .closing why ∧ move.party.isMain = false) := by
  cases hmain : move.party.isMain with
  | false => exact .inr ⟨hdoes.stage_eq hmain ▸ ht, rfl⟩
  | true =>
    refine .inl ⟨?_, rfl⟩
    by_contra ho
    obtain ⟨-, why', -, ht'⟩ := hdoes.of_over (by simpa using ho) hmain
    cases ht.symm.trans ht'

theorem Does.of_ended (hdoes : Does s move t made) (ht : t.stage = .ended why) :
    (s.stage = .closing why ∧ move = .close) ∨
      (s.stage = .ended why ∧ move.party.isMain = false) := by
  cases hmain : move.party.isMain with
  | false => exact .inr ⟨hdoes.stage_eq hmain ▸ ht, rfl⟩
  | true =>
    have ho : s.stage.isOver = true := by
      rcases hdoes.own_or_foreign with ⟨a, hstep, -⟩ | ⟨-, rfl | ⟨a, hstep, -⟩, -⟩
      · exact (Session.Step.of_step hstep).isOver_of_ended ht
      · simp [ht, Session.Stage.isOver]
      · exact (Session.Step.of_step hstep).isOver_of_ended ht
    obtain ⟨hclose, why', hs, ht'⟩ := hdoes.of_over ho hmain
    cases ht.symm.trans ht'
    exact .inl ⟨hs, hclose⟩

/-! ## Whole runs -/

variable [MessageStream S] {c c' d : Conversation σ S} {moves : List Move}

theorem run_concat : c.run (moves ++ [move]) = some d ↔ ∃ c', c.run moves = some c' ∧
    c'.step move = some d := by
  induction moves generalizing c with
  | nil => simp [run]
  | cons first moves ih =>
    simp only [List.cons_append, run, Option.bind_eq_some_iff]
    constructor
    · rintro ⟨c₁, hfirst, hrest⟩
      obtain ⟨c', hrun, hstep⟩ := ih.1 hrest
      exact ⟨c', ⟨c₁, hfirst, hrun⟩, hstep⟩
    · rintro ⟨c', ⟨c₁, hfirst, hrun⟩, hstep⟩
      exact ⟨c₁, hfirst, ih.2 ⟨c', hrun, hstep⟩⟩

/-- A conversation on its way out with `why`: a move of the session's own task has decided that, and
that task has made no move since. -/
inductive Leaves (c : Conversation σ S) (why : SessionEnd) : List Move → Prop where
  | mk (before between : List Move) (last : Move) (c₁ c₂ : Conversation σ S)
      (hbefore : c.run before = some c₁) (ho : c₁.session.stage.isOver = false)
      (hlast : c₁.step last = some c₂) (hmain : last.party.isMain = true)
      (hwhy : c₂.session.stage = .closing why)
      (hbetween : ∀ move ∈ between, move.party.isMain = false) :
      Leaves c why (before ++ last :: between)

/-- A conversation whose session has returned `why`: the close is the next move of the session's own
task after the one that has decided the end, and its last. -/
inductive Ends (c : Conversation σ S) (why : SessionEnd) : List Move → Prop where
  | mk (before after : List Move) (hbefore : Leaves c why before)
      (hafter : ∀ move ∈ after, move.party.isMain = false) :
      Ends c why (before ++ .close :: after)

theorem leaves_of_closing (hc : c.session.stage.isOver = false) (hrun : c.run moves = some d)
    (hd : d.session.stage = .closing why) : Leaves c why moves := by
  induction moves using List.reverseRecOn generalizing d with
  | nil =>
    cases hrun
    simp [hd, Session.Stage.isOver] at hc
  | append_singleton moves move ih =>
    obtain ⟨c', hmoves, hstep⟩ := run_concat.1 hrun
    obtain ⟨made, hdoes, -⟩ := uses_cons hstep
    -- The last move either decides the end or comes after the move that has.
    rcases hdoes.of_closing hd with ⟨ho, hmain⟩ | ⟨hs, hmain⟩
    · exact .mk moves [] move c' d hmoves ho hstep hmain hd (by simp)
    · obtain ⟨before, between, last, c₁, c₂, hbefore, ho, hlast, hmain', hwhy, hbetween⟩ := ih hmoves hs
      rw [List.append_assoc]
      exact .mk before (between ++ [move]) last c₁ c₂ hbefore ho hlast hmain' hwhy
        (by simpa [or_imp, forall_and, hmain] using hbetween)

theorem ends_of_ended (hc : c.session.stage.isOver = false) (hrun : c.run moves = some d)
    (hd : d.session.stage = .ended why) : Ends c why moves := by
  induction moves using List.reverseRecOn generalizing d with
  | nil =>
    cases hrun
    simp [hd, Session.Stage.isOver] at hc
  | append_singleton moves move ih =>
    obtain ⟨c', hmoves, hstep⟩ := run_concat.1 hrun
    obtain ⟨made, hdoes, -⟩ := uses_cons hstep
    rcases hdoes.of_ended hd with ⟨hs, rfl⟩ | ⟨hs, hmain⟩
    · exact .mk moves [] (leaves_of_closing hc hmoves hs) (by simp)
    · obtain ⟨before, after, hbefore, hafter⟩ := ih hmoves hs
      rw [List.append_assoc]
      exact .mk before (after ++ [move]) hbefore
        (by simpa [or_imp, forall_and, hmain] using hafter)

theorem run_gated {name : String} {stream : S} {handler : Handler σ}
    (hrun : (start name stream handler).run moves = some d) : ∃ m, registration name = .ok m ∧
      Gated m d.session ((start name stream handler).uses moves) := by
  obtain ⟨m, hm, hannounced⟩ := Session.announced_start name
  refine ⟨m, hm, uses_induction (fun _ _ _ _ _ => gated_move) ⟨hannounced, by simp, ?_⟩ hrun⟩
  simp [start, Session.start_eq, Session.result?]

/-- The same stream but for what it answers to the end of the sending direction. -/
@[reducible] def answering (answer : S → Sent) : MessageStream S :=
  { ‹MessageStream S› with close := fun stream => (answer stream, (MessageStream.close stream).2) }

theorem step_answering (answer : S → Sent) (c : Conversation σ S) (move : Move) :
    @step σ S (answering answer) c move = c.step move := by
  cases move <;> rfl

/-- What the stream answers to the close makes no difference to anything. -/
theorem run_answering (answer : S → Sent) (c : Conversation σ S) (moves : List Move) :
    @run σ S (answering answer) c moves = c.run moves := by
  induction moves generalizing c with
  | nil => rfl
  | cons move moves ih =>
    simp only [run, step_answering]
    exact Option.bind_congr fun d _ => ih d

/-- What comes of the registration `m` in a session `s`, the uses of the stream so far being
`record`. -/
structure RegistersFirst (m : Envelope) (s : Session) (record : List (Party × Use)) : Prop where
  /-- The session itself sends the registration, and nothing else. -/
  sent : (s.stage = .registering m ∧ (ownUses record).filterMap Use.sent? = []) ∨
    ∃ outcome, (ownUses record).filterMap Use.sent? = [(m, outcome)]
  begun : ∀ before after party, record = before ++ (party, .begin) :: after →
    .send m (.ok ()) ∈ ownUses before
  dispatched : s.dispatched ≠ [] → .send m (.ok ()) ∈ ownUses record
  refused : ∀ fault, .send m (.error fault) ∈ ownUses record →
    (∀ party, (party, .begin) ∉ record) ∧ s.dispatched = [] ∧
      ∀ why, s.result? = some why → why = .transport .register fault
  /-- The sending direction is ended once, by the time the session has returned. -/
  closed : record.countP (·.2.isClose) = if s.result?.isSome then 1 else 0

theorem Gated.ownUses_cons_begin (h : Gated m s record) {before after : List (Party × Use)}
    {party : Party} (hrecord : record = before ++ (party, .begin) :: after) :
    ownUses record = ownUses before ++ .begin :: ownUses after := by
  have hown : party.isOwn = true := h.foreign (party, .begin) (by simp [hrecord]) rfl
  simp [hrecord, ownUses, hown]

theorem Gated.registersFirst (h : Gated m s record) : RegistersFirst m s record where
  sent := h.announced.sent
  begun before after party hrecord := by
    have hannounced := h.announced
    rw [h.ownUses_cons_begin hrecord] at hannounced
    exact hannounced.of_begin
  dispatched := h.announced.of_dispatched
  refused fault hfault := by
    obtain ⟨hbegin, hd, hs⟩ := h.announced.of_refused hfault
    refine ⟨fun party hmem => hbegin ?_, hd, fun why hwhy => ?_⟩
    · obtain ⟨before, after, hrecord⟩ := List.append_of_mem hmem
      simp [h.ownUses_cons_begin hrecord]
    · have hended := Session.eq_ended_of_result? hwhy
      rcases hs with hs | hs
      · cases hended.symm.trans hs
      · cases hended.symm.trans hs
        rfl
  closed := by
    rw [h.closes]
    cases s.result?.isSome <;> rfl

/-- **Registration comes first and the close comes once, on every way out.** Over every stream, with
every handler and in every schedule, whatever the handler or anybody else sends meanwhile: the session
itself sends one message, the registration; before the stream has accepted it no receive is begun and
no message dispatched, and if the stream refuses it there will be none, and the session ends with that
fault. A session that has returned has sent the registration and has ended the sending direction once:
the close is the next move of its own task after the one that has decided the end, and its last. The
run is the same, and so is the end, if the stream answers otherwise to the close. -/
theorem registers_first_closes_once {name : String} {stream : S} {handler : Handler σ}
    (hrun : (start name stream handler).run moves = some d) :
    ∃ m, registration name = .ok m ∧
      RegistersFirst m d.session ((start name stream handler).uses moves) ∧
      (∀ why, d.session.result? = some why → Ends (start name stream handler) why moves) ∧
      ∀ answer, @run σ S (answering answer) (start name stream handler) moves = some d := by
  obtain ⟨m, hm, hgated⟩ := run_gated hrun
  refine ⟨m, hm, hgated.registersFirst, fun why hwhy => ?_, fun answer => ?_⟩
  · have hc : (start name stream handler).session.stage.isOver = false := by
      simp [start, Session.start_eq, Session.Stage.isOver]
    exact ends_of_ended hc hrun (Session.eq_ended_of_result? hwhy)
  · rw [run_answering]
    exact hrun

/-- A stream whose peer has hung up and whose close fails. -/
def failedClose : Loopback.Rigged where
  loopback := { hungUp := true }
  closeFault := some .sendClosed

/-- A run that finds the peer gone, with somebody sending before the registration. -/
def hungUpRun : List Move :=
  [.send { payload := [1] }, .register, .beginReceive, .receive, .handOver, .takeResult, .close]

theorem registers_first_closes_once_failedClose :
    ∃ d, (start "mycc" failedClose echo).run hungUpRun = some d ∧
      d.session.result? = some .streamEnded ∧
      Ends (start "mycc" failedClose echo) .streamEnded hungUpRun ∧
      ∃ m, registration "mycc" = .ok m ∧
        RegistersFirst m d.session ((start "mycc" failedClose echo).uses hungUpRun) := by
  obtain ⟨d, hrun, hwhy⟩ : ∃ d, (start "mycc" failedClose echo).run hungUpRun = some d ∧
      d.session.result? = some .streamEnded := ⟨_, rfl, rfl⟩
  obtain ⟨m, hm, hfirst, hends, -⟩ := registers_first_closes_once hrun
  exact ⟨d, hrun, hwhy, hends _ hwhy, m, hm, hfirst⟩

/-! ## Before the registration -/

/-- If anything is accepted before the registration, it comes from a task that was started with the
handler: the session begins with the registration, and the handler has no message to work on yet. -/
theorem accepted_first {name : String} {stream : S} {handler : Handler σ} {party : Party}
    {m' : Envelope} (hrun : (start name stream handler).run moves = some c) (hstep : c.step move = some d)
    (hnone : ∀ party m, (party, .send m (.ok ())) ∉ (start name stream handler).uses moves)
    (hsend : (party, .send m' (.ok ())) ∈ (start name stream handler).uses (moves ++ [move])) :
    (registration name = .ok m' ∧ move = .register) ∨ party = .others := by
  obtain ⟨m, hm, hgated⟩ := run_gated hrun
  obtain ⟨made, hdoes, huses⟩ := uses_concat hrun hstep
  rw [huses, List.mem_append] at hsend
  have hmade := hsend.resolve_left (hnone party m')
  obtain ⟨use, huse, heq⟩ := List.mem_map.1 hmade
  cases heq
  -- With nothing accepted yet the session is registering or over, so the handler is not at work.
  have hstage := hgated.announced.of_not_accepted fun hmem => by
    obtain ⟨⟨party, use⟩, hentry, rfl⟩ := List.mem_map.1 hmem
    exact hnone party m (List.mem_filter.1 hentry).1
  cases hdoes with
  | acts a hact ha =>
    obtain ⟨rfl, hs⟩ := Session.registering_of_sent huse
    rcases hstage with hs' | ho
    · cases hs.symm.trans hs'
      cases ha
      exact .inl ⟨hm, rfl⟩
    · simp [hs, Session.Stage.isOver] at ho
  | works _ hs =>
    rcases hstage with hs' | ho
    · cases hs.symm.trans hs'
    · simp [hs, Session.Stage.isOver] at ho
  | others hmove => exact .inr hmove

/-- Such a task can indeed be first. -/
example : ∃ d, (start "mycc" ({} : Loopback.Rigged) echo).run [.send { payload := [1] }] = some d ∧
    d.stream.loopback.outbound = [{ payload := [1] }] := ⟨_, rfl, rfl⟩

end Chaincode.Conversation
