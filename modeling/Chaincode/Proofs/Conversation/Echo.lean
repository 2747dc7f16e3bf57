import Mathlib.Data.List.Perm.Subperm
import Chaincode.Proofs.Conversation.EchoTasks

/-!
# What the peer of an echo session sees

The stream of an echo session is offered the registration and then what the tasks send, and nothing else
(`inOrder_run`). With the account of the tasks that makes `echoes_each_once`: the replies are an
injective image of the messages that are owed one, each task sends once and reports once, and the first
message that is to be refused is the last.
-/

namespace Chaincode

theorem Session.Announced.of_registering {m m' : Envelope} {s : Session} {made : List Use}
    (h : Announced m s made) (hs : s.stage = .registering m') : s.dispatched = [] := by
  cases h with
  | before hs' hr hd => exact hd
  | accepted rest hs' => exact absurd hs (hs' m')
  | refused fault rest hs' hr hd => exact hd

theorem Session.Step.outcomes_suffix {s t : Session} {a : Action} (hstep : Step s a t)
    (hreport : ∀ outcome, a ≠ .report outcome) :
    t.outcomes <:+ s.outcomes ∧ (t.stage.isOver = false → s.stage.isOver = false) := by
  cases hstep with
  | report | drop => exact absurd rfl (hreport _)
  | takeOk rest hs ho | drainOk rest hs ho =>
    rw [ho]
    exact ⟨List.suffix_cons _ rest, id⟩
  | takeFault fault rest hs ho | drainFault fault rest hs ho =>
    rw [ho]
    exact ⟨List.suffix_cons _ rest, by simp [finish, Stage.isOver]⟩
  | registered _ hs | takeMessage _ hs | accept _ hs | drained hs | grant hs =>
    exact ⟨List.suffix_rfl, by simp [hs, Stage.isOver]⟩
  | refused | takeLast | missReader | reject | grantNobody | close =>
    exact ⟨List.suffix_rfl, by simp [finish, Stage.isOver]⟩
  | _ => exact ⟨List.suffix_rfl, id⟩

namespace Conversation

variable {S : Type} {c d : Conversation Unit S} {l : Ledger} {move : Move}
  {made : List Use} {m : Envelope} {record : List (Party × Use)}

/-! ## What is offered and what is reported -/

theorem offered_append (record record' : List (Party × Use)) :
    offered (record ++ record') = offered record ++ offered record' := List.filterMap_append

theorem offered_made (party : Party) (made : List Use) :
    offered (made.map (party, ·)) = made.filterMap Use.sent? := by
  rw [offered, List.filterMap_map]
  rfl

/-- The stream was offered what the session itself sends, and then what the tasks did. -/
def InOrder (record : List (Party × Use)) (l : Ledger) : Prop :=
  offered record = (ownUses record).filterMap Use.sent? ++ l.sends.map (·.2)

theorem Kept.sends_nil (h : Kept c l) (hd : c.session.dispatched = []) : l.sends = [] := by
  rw [List.eq_nil_iff_forall_not_mem]
  rintro ⟨i, m, outcome⟩ hmem
  have hlt := (h.sent i m outcome hmem).1.lt
  rw [hd] at hlt
  cases hlt

theorem sends_of_registering {m' : Envelope} (hgated : Gated m c.session record) (h : Kept c l)
    (hs : c.session.stage = .registering m') : l.sends = [] :=
  h.sends_nil (hgated.announced.of_registering hs)

theorem offered_cases (hgated : Gated m c.session record) (h : Kept c l) (horder : InOrder record l) :
    (offered record = [] ∧ l.sends = []) ∨
      ∃ outcome, offered record = (m, outcome) :: l.sends.map (·.2) ∧
        ∀ fault, outcome = .error fault → l.sends = [] := by
  rw [horder]
  rcases hgated.announced.sent with ⟨hs, hnone⟩ | ⟨outcome, hone⟩
  · left
    rw [hnone, sends_of_registering hgated h hs]
    exact ⟨rfl, rfl⟩
  · right
    refine ⟨outcome, by rw [hone]; rfl, ?_⟩
    rintro fault rfl
    have hmem : (m, .error fault) ∈ (ownUses record).filterMap Use.sent? := by
      rw [hone]
      exact List.mem_singleton_self _
    obtain ⟨use, huse, hsent⟩ := List.mem_filterMap.1 hmem
    obtain rfl : use = .send m (.error fault) := by
      cases use with
      | send m' outcome =>
        cases hsent
        rfl
      | _ => cases hsent
    exact h.sends_nil (hgated.announced.of_refused huse).2.1

/-- What a session has not looked at is the last that was reported to it. -/
def Heard (c : Conversation Unit S) (l : Ledger) : Prop :=
  c.session.stage.isOver = false → c.session.outcomes <:+ l.reports.map (·.2)

theorem Heard.of_step (h : Heard c l) {a : Session.Action} (hstep : c.session.step a = some d.session)
    (hreport : ∀ outcome, a ≠ .report outcome) : Heard d l := by
  intro ho
  obtain ⟨hsuffix, hover⟩ := (Session.Step.of_step hstep).outcomes_suffix hreport
  exact hsuffix.trans (h (hover ho))

/-! ## Replies as an image of what is owed -/

theorem filterMap_reply? (dispatched : List Envelope) : dispatched.filterMap Envelope.reply? =
    (List.range dispatched.length).filterMap fun i => dispatched[i]?.bind Envelope.reply? := by
  induction dispatched using List.reverseRecOn with
  | nil => rfl
  | append_singleton dispatched x ih =>
    rw [List.filterMap_append, ih, List.length_append, List.length_singleton, List.range_succ,
      List.filterMap_append]
    congr 1
    · refine List.filterMap_congr fun i hi => ?_
      rw [List.getElem?_append_left (List.mem_range.1 hi)]
    · rw [List.filterMap_cons, List.filterMap_cons, List.getElem?_concat_length]
      rfl

theorem messages_eq {sends : List (Nat × Envelope × Sent)} {dispatched : List Envelope}
    (howed : ∀ i m outcome, (i, m, outcome) ∈ sends → Owed dispatched i m) :
    sends.map (·.2.1) =
      (sends.map (·.1)).filterMap fun i => dispatched[i]?.bind Envelope.reply? := by
  rw [List.filterMap_map, ← List.filterMap_eq_map]
  refine List.filterMap_congr fun entry hentry => ?_
  exact (howed entry.1 entry.2.1 entry.2.2 hentry).symm

/-- Replies to different messages are an injective image of the messages. -/
theorem subperm_of_owed {sends : List (Nat × Envelope × Sent)} {dispatched : List Envelope}
    (howed : ∀ i m outcome, (i, m, outcome) ∈ sends → Owed dispatched i m)
    (hnodup : (sends.map (·.1)).Nodup) :
    (sends.map (·.2.1)).Subperm (dispatched.filterMap Envelope.reply?) := by
  have hsubset : sends.map (·.1) ⊆ List.range dispatched.length := by
    intro i hi
    obtain ⟨⟨i, m, outcome⟩, hmem, rfl⟩ := List.mem_map.1 hi
    exact List.mem_range.2 (howed i m outcome hmem).lt
  obtain ⟨places, hperm, hsublist⟩ := List.subperm_of_subset hnodup hsubset
  rw [messages_eq howed, filterMap_reply?]
  exact ⟨_, hperm.filterMap _, hsublist.filterMap _⟩

theorem perm_of_owed {sends : List (Nat × Envelope × Sent)} {dispatched : List Envelope}
    (howed : ∀ i m outcome, (i, m, outcome) ∈ sends → Owed dispatched i m)
    (hnodup : (sends.map (·.1)).Nodup)
    (hall : ∀ i m, Owed dispatched i m → i ∈ sends.map (·.1)) :
    (sends.map (·.2.1)).Perm (dispatched.filterMap Envelope.reply?) := by
  have hrange : ((List.range dispatched.length).filter
      fun i => (dispatched[i]?.bind Envelope.reply?).isSome).Perm (sends.map (·.1)) := by
    refine (List.perm_ext_iff_of_nodup (List.nodup_range.filter _) hnodup).2 fun i => ?_
    rw [List.mem_filter, List.mem_range]
    constructor
    · rintro ⟨-, hi⟩
      obtain ⟨m, hm⟩ := Option.isSome_iff_exists.1 hi
      exact hall i m hm
    · intro hi
      obtain ⟨⟨i, m, outcome⟩, hmem, rfl⟩ := List.mem_map.1 hi
      have h := howed i m outcome hmem
      exact ⟨h.lt, Option.isSome_iff_exists.2 ⟨m, h⟩⟩
  rw [messages_eq howed, filterMap_reply?]
  have hfilter := hrange.symm.filterMap fun i => dispatched[i]?.bind Envelope.reply?
  refine hfilter.trans (List.Perm.of_eq ?_)
  rw [List.filterMap_filter]
  refine List.filterMap_congr fun i _ => ?_
  cases h : dispatched[i]?.bind Envelope.reply? <;> simp

theorem acceptedOf_sublist (sends : List (Envelope × Sent)) :
    (acceptedOf sends).Sublist (sends.map (·.1)) := by
  induction sends with
  | nil => exact .slnil
  | cons entry sends ih =>
    obtain ⟨m, outcome⟩ := entry
    cases outcome with
    | error fault => simpa [acceptedOf, Except.isOk, Except.toBool] using ih.cons m
    | ok => simpa [acceptedOf, Except.isOk, Except.toBool] using ih

theorem acceptedOf_of_ok {sends : List (Envelope × Sent)} (hok : ∀ entry ∈ sends, entry.2 = .ok ()) :
    acceptedOf sends = sends.map (·.1) := by
  rw [acceptedOf, ← List.filterMap_eq_map]
  refine List.filterMap_congr fun entry hentry => ?_
  obtain ⟨m, outcome⟩ := entry
  obtain rfl : outcome = .ok () := hok (m, outcome) hentry
  rfl

/-! ## Tasks that have run -/

theorem filter_key_eq {α : Type} {xs : List (Nat × α)} (hnodup : (xs.map (·.1)).Nodup) {i : Nat}
    {a : α} (hmem : (i, a) ∈ xs) : xs.filter (·.1 = i) = [(i, a)] := by
  induction xs with
  | nil => cases hmem
  | cons entry xs ih =>
    rw [List.map_cons, List.nodup_cons] at hnodup
    obtain ⟨hfresh, hnodup⟩ := hnodup
    rcases List.mem_cons.1 hmem with rfl | hmem
    · have hnone : xs.filter (·.1 = i) = [] := by
        rw [List.filter_eq_nil_iff]
        intro entry hentry hi
        exact hfresh (List.mem_map.2 ⟨entry, hentry, of_decide_eq_true hi⟩)
      rw [List.filter_cons_of_pos (by simp), hnone]
    · have hne : entry.1 ≠ i := by
        rintro rfl
        exact hfresh (List.mem_map.2 ⟨_, hmem, rfl⟩)
      rw [List.filter_cons_of_neg (by simpa using hne), ih hnodup hmem]

/-- The task for the reply `m` to the message at a place has not run to its end. -/
def Pending (c : Conversation Unit S) (l : Ledger) (i : Nat) (m : Envelope) : Prop :=
  i ∈ l.tasks.map (·.1) ∨ i + 1 = c.session.dispatched.length ∧ c.AboutTo m

theorem Kept.settled (h : Kept c l) {i : Nat} (howed : Owed c.session.dispatched i m) :
    Pending c l i m ∨ ∃ outcome, l.sends.filter (·.1 = i) = [(i, m, outcome)] ∧
      l.reports.filter (·.1 = i) = [(i, outcome)] := by
  rcases h.all i m howed with hknown | habout
  · rcases List.mem_append.1 hknown with htask | hreport
    · exact .inl (.inl htask)
    · right
      obtain ⟨⟨j, outcome⟩, hmem, rfl⟩ := List.mem_map.1 hreport
      obtain ⟨m', hsent⟩ := h.reported j outcome hmem
      obtain rfl : m' = m := Option.some.inj ((h.sent j m' outcome hsent).1.symm.trans howed)
      have hreports : (l.reports.map (·.1)).Nodup := (List.nodup_append.1 h.known_nodup).2.1
      exact ⟨outcome, filter_key_eq h.sends_nodup hsent, filter_key_eq hreports hmem⟩
  · exact .inl (.inr habout)

/-! ## Every move -/

variable [MessageStream S]

theorem inOrder_move (hgated : Gated m c.session record) (h : Kept c l) (hmoves : Moves c move d made)
    (hforeign : move.isForeign = false) (horder : InOrder record l) :
    InOrder (record ++ made.map (move.party, ·)) (l.note c move) := by
  unfold InOrder at horder ⊢
  rw [offered_append, offered_made, horder]
  cases hmoves with
  | goesOn a hstep ha =>
    rw [note_of_action l c ha, ownUses_append_own (isOwn_of_move? ha), List.filterMap_append]
    by_cases hs : ∃ m', c.session.stage = .registering m'
    · obtain ⟨m', hs⟩ := hs
      rw [sends_of_registering hgated h hs]
      simp
    · have hnone : (c.session.uses a).filterMap Use.sent? = [] :=
        List.filterMap_eq_nil_iff.2 (Session.sent?_uses (not_exists.1 hs))
      rw [hnone, List.append_nil, List.append_nil]
  | takes s hstep => simp [Ledger.note]
  | spawns x m' rest hs heffects => simp [Ledger.note, hs, heffects]
  | performs x effect rest hs heffects heffect =>
    obtain ⟨m', hm', -⟩ := h.effects hs heffects
    exact absurd hm' (heffect m')
  | answers x s hs heffects hstep => simp [Ledger.note, hs, heffects]
  | sends place m' outcome stream htask hsend =>
    obtain ⟨i, hentry⟩ := h.task htask
    rw [ownUses_append_foreign rfl]
    simp only [Ledger.note, hentry, send, hsend, Option.map_some, List.map_append, List.append_assoc]
    rfl
  | reports place outcome s htask hstep =>
    obtain ⟨i, hentry⟩ := h.task htask
    simp [Ledger.note, hentry]
  | foreign hmove =>
    rw [hforeign] at hmove
    cases hmove

variable {name : String} {stream : S} {turns : List (Turn S)}

theorem gated_proceed {σ : Type} {handler : Handler σ} {c : Conversation σ S}
    (hrun : (start name stream handler).proceed turns = some c) : ∃ m, registration name = .ok m ∧
      Gated m c.session ((start name stream handler).record turns) := by
  have hnil : (start name stream handler).run [] = some (start name stream handler) := rfl
  obtain ⟨m, hm, hstart⟩ := run_gated hnil
  refine ⟨m, hm, ?_⟩
  refine proceed_induction (Q := fun _ => True)
    (P := fun turns c => Gated m c.session ((start name stream handler).record turns))
    hstart (fun turns t c d _ hbefore h _ hturn => ?_) (fun _ _ => trivial) hrun
  rw [record_concat hbefore]
  cases t with
  | move move =>
    obtain ⟨made, hdoes, huses⟩ := uses_single hturn
    rw [turnUses, huses]
    exact gated_move hdoes h
  | shift stream =>
    cases hturn
    simpa [turnUses] using h

theorem inOrder_run (hown : ∀ t ∈ turns, t.isForeign = false)
    (hrun : (start name stream echo).proceed turns = some c) :
    InOrder ((start name stream echo).record turns) ((start name stream echo).ledger turns) := by
  refine proceed_induction (P := fun turns _ => InOrder ((start name stream echo).record turns)
    ((start name stream echo).ledger turns)) rfl (fun turns t c d hturns hbefore h ht hturn => ?_)
    hown hrun
  rw [ledger_concat hbefore, record_concat hbefore]
  cases t with
  | move move =>
    obtain ⟨m, -, hgated⟩ := gated_proceed hbefore
    obtain ⟨made, hmoves, huses⟩ := moves_of_turn hturn
    rw [turnUses, huses]
    exact inOrder_move hgated (kept_run hturns hbefore) hmoves ht h
  | shift stream => simpa [turnUses, Ledger.noteTurn] using h

theorem heard_move (hkept : Kept c l) (hmoves : Moves c move d made)
    (hforeign : move.isForeign = false) (h : Heard c l) : Heard d (l.note c move) := by
  cases hmoves with
  | goesOn a hstep ha =>
    rw [note_of_action l c ha]
    refine h.of_step hstep ?_
    rintro outcome rfl
    cases ha
  | takes s hstep =>
    refine h.of_step (a := .takeResult) ?_ (by simp)
    rw [assign_session]
    exact hstep
  | spawns x m' rest hs heffects => simpa [Heard, Ledger.note, hs, heffects, spawn] using h
  | performs x effect rest hs heffects heffect =>
    obtain ⟨m', hm', -⟩ := hkept.effects hs heffects
    exact absurd hm' (heffect m')
  | answers x s hs heffects hstep =>
    have hnote : l.note c .work = l := by simp only [Ledger.note, hs, heffects]
    rw [hnote]
    exact h.of_step hstep (by simp)
  | sends place m' outcome stream htask hsend =>
    obtain ⟨i, hentry⟩ := hkept.task htask
    simpa [Heard, Ledger.note, hentry, send, hsend] using h
  | reports place outcome s htask hstep =>
    obtain ⟨i, hentry⟩ := hkept.task htask
    have hnote : (l.note c (.advance place)).reports = l.reports ++ [(i, outcome)] := by
      simp only [Ledger.note, hentry]
    intro ho
    rw [hnote, List.map_append]
    cases Session.Step.of_step hstep with
    | report outcome hs hover =>
      obtain ⟨before, hbefore⟩ := h hover
      refine ⟨before, ?_⟩
      rw [← hbefore, List.append_assoc]
      rfl
    | drop outcome hover =>
      rw [hover] at ho
      cases ho
  | foreign hmove =>
    rw [hforeign] at hmove
    cases hmove

theorem heard_run (hown : ∀ t ∈ turns, t.isForeign = false)
    (hrun : (start name stream echo).proceed turns = some c) :
    Heard c ((start name stream echo).ledger turns) := by
  refine proceed_induction (P := fun turns c => Heard c ((start name stream echo).ledger turns))
    (fun _ => ?_) (fun turns t c d hturns hbefore h ht hturn => ?_) hown hrun
  · simp [start, Session.start_eq]
  · rw [ledger_concat hbefore]
    cases t with
    | move move =>
      obtain ⟨made, hmoves, -⟩ := moves_of_turn hturn
      exact heard_move (kept_run hturns hbefore) hmoves ht h
    | shift stream =>
      cases hturn
      exact h

/-! ## The whole account -/

/-- The account of an echo session: `record` is what was asked of its stream, and `l` tells what each
task has done. -/
structure Echoes (registration : Envelope) (c : Conversation Unit S) (record : List (Party × Use))
    (l : Ledger) : Prop where
  tasks : l.tasks.map (·.2) = c.tasks
  /-- The stream is offered the registration and then what the tasks send. -/
  offers : (offered record = [] ∧ l.sends = []) ∨
    ∃ outcome, offered record = (registration, outcome) :: l.sends.map (·.2)
  /-- The peer is sent nothing before the registration. -/
  accepts : acceptedOf (offered record) = [] ∨
    acceptedOf (offered record) = registration :: acceptedOf (l.sends.map (·.2))
  /-- Each task sends the reply that is owed to its message, -/
  owed : ∀ i m outcome, (i, m, outcome) ∈ l.sends → Owed c.session.dispatched i m
  /-- and no two have the same message. -/
  once : (l.sends.map (·.1)).Nodup
  image : (acceptedOf (l.sends.map (·.2))).Subperm (c.session.dispatched.filterMap Envelope.reply?)
  /-- A task that has run has sent once and reported once. -/
  settled : ∀ i m, Owed c.session.dispatched i m → Pending c l i m ∨
    ∃ outcome, l.sends.filter (·.1 = i) = [(i, m, outcome)] ∧
      l.reports.filter (·.1 = i) = [(i, outcome)]
  heard : Heard c l
  answered : (∀ i m, Owed c.session.dispatched i m → ¬ Pending c l i m) →
    (∀ entry ∈ l.sends, entry.2.2 = .ok ()) →
    (acceptedOf (l.sends.map (·.2))).Perm (c.session.dispatched.filterMap Envelope.reply?)
  /-- A message that is refused gets no reply and is the last. The session needs nobody but its handler
  and itself to return, and it returns that the message was refused. -/
  refused : ∀ i x r, c.session.dispatched[i]? = some x → x.refusal? = some r →
    i + 1 = c.session.dispatched.length ∧ x.reply? = none ∧ c.session.Refuses x r ∧
      ∃ moves d, moves <:+ [.work, .close] ∧ c.run moves = some d ∧
        d.session.result? = some (.rejected r)

theorem close_of_closing {why : SessionEnd} (hs : c.session.stage = .closing why) :
    ∃ d, c.step .close = some d ∧ d.session.result? = some why := by
  simp [step, hs, act, Session.step, Session.result?]

theorem work_of_refusal {x : Envelope} {r : Refusal} (hs : c.session.stage = .handling x)
    (hwork : c.work = echoWork x) (hx : x.refusal? = some r) :
    ∃ d, c.step .work = some d ∧ d.session.stage = .closing (.rejected r) := by
  simp [step, hs, hwork, echoWork_eq, Envelope.reply?_of_refusal? hx, hx, act, Session.step,
    Session.finish]

/-- A session that has refused a message is at most two moves from returning. -/
theorem Kept.returns (h : Kept c l) {x : Envelope} {r : Refusal} (hx : x.refusal? = some r)
    (hrefuses : c.session.Refuses x r) : ∃ moves d, moves <:+ [.work, .close] ∧
      c.run moves = some d ∧ d.session.result? = some (.rejected r) := by
  rcases hrefuses with hs | hs | hs
  · obtain ⟨-, ⟨hwork, -⟩ | ⟨-, hnone⟩⟩ := h.handling x hs
    · obtain ⟨c', hstep, hs'⟩ := work_of_refusal hs hwork hx
      obtain ⟨d, hclose, hresult⟩ := close_of_closing hs'
      refine ⟨[.work, .close], d, List.suffix_rfl, ?_, hresult⟩
      simp [run, hstep, hclose]
    · cases hnone.symm.trans hx
  · obtain ⟨d, hclose, hresult⟩ := close_of_closing hs
    refine ⟨[.close], d, List.suffix_cons _ _, ?_, hresult⟩
    simp [run, hclose]
  · refine ⟨[], c, List.nil_suffix, rfl, ?_⟩
    simp [Session.result?, hs]

/-- **An echo session answers each message once.** In every schedule, over every stream and whatever
becomes of it meanwhile, the stream is offered the registration and then, for each of the invocations
and signs of life dispatched, at most one message, the reply to it; what it accepts begins with the
registration. A task that has run has sent once and reported the outcome once, and if all have run and
no send failed, every message has its reply. A message of a kind that the peer has no reason to send
ends the session: it is the last to be dispatched. -/
theorem echoes_each_once (hown : ∀ t ∈ turns, t.isForeign = false)
    (hrun : (start name stream echo).proceed turns = some c) : ∃ m, registration name = .ok m ∧
      Echoes m c ((start name stream echo).record turns) ((start name stream echo).ledger turns) := by
  obtain ⟨m, hm, hgated⟩ := gated_proceed hrun
  have hkept := kept_run hown hrun
  have hcases := offered_cases hgated hkept (inOrder_run hown hrun)
  have howed : ∀ i m outcome, (i, m, outcome) ∈ ((start name stream echo).ledger turns).sends →
      Owed c.session.dispatched i m := fun i m outcome hmem => (hkept.sent i m outcome hmem).1
  have hsubperm := subperm_of_owed howed hkept.sends_nodup
  refine ⟨m, hm, ?_⟩
  refine
    { tasks := hkept.tasks
      offers := hcases.imp_right fun ⟨outcome, hoffered, _⟩ => ⟨outcome, hoffered⟩
      accepts := ?_
      owed := howed
      once := hkept.sends_nodup
      image := ?_
      settled := fun i m => hkept.settled
      heard := heard_run hown hrun
      answered := ?_
      refused := ?_ }
  · rcases hcases with ⟨hoffered, -⟩ | ⟨outcome, hoffered, hfault⟩
    · rw [hoffered]
      exact .inl rfl
    · rw [hoffered]
      cases outcome with
      | ok => exact .inr rfl
      | error fault =>
        rw [hfault fault rfl]
        exact .inl rfl
  · have hsublist := acceptedOf_sublist
      (((start name stream echo).ledger turns).sends.map (·.2))
    rw [List.map_map] at hsublist
    exact hsublist.subperm.trans hsubperm
  · intro hran hok
    have hok' : ∀ entry ∈ ((start name stream echo).ledger turns).sends.map (·.2),
        entry.2 = .ok () := by
      intro entry hentry
      obtain ⟨entry, hmem, rfl⟩ := List.mem_map.1 hentry
      exact hok entry hmem
    rw [acceptedOf_of_ok hok', List.map_map]
    refine perm_of_owed howed hkept.sends_nodup fun i m hi => ?_
    obtain ⟨outcome, hsends, -⟩ := (hkept.settled hi).resolve_left (hran i m hi)
    have hmem := List.mem_singleton_self (i, m, outcome)
    rw [← hsends] at hmem
    exact List.mem_map.2 ⟨_, (List.mem_filter.1 hmem).1, rfl⟩
  · intro i x r hi hx
    obtain ⟨hlast, hrefuses⟩ := hkept.refused i x r hi hx
    exact ⟨hlast, Envelope.reply?_of_refusal? hx, hrefuses, hkept.returns hx hrefuses⟩

/-! ### Replies out of order -/

/-- A peer that has read the registration and has queued a transaction, a sign of life and something
that it has no reason to send. -/
def pipelined : Loopback.Rigged where
  loopback :=
    { inbound :=
        [.ok { number := Kind.transaction.number, payload := [7], txid := "t1", channel := "ch" },
          .ok (.ofKind .keepalive []), .ok (.ofKind .getState [1])] }

/-- The turns in which the next message comes to the handler. -/
def receiveNext : List (Turn Loopback.Rigged) :=
  [.beginReceive, .receive, .handOver, .takeResult].map .move

/-- The turns in which a reply is let go, the verdict given and the reader let on. -/
def replyAndGoOn : List (Turn Loopback.Rigged) :=
  [.work, .work, .drain, .grant, .takePermit].map .move

/-- The second reply is sent before the first, and the first only after the third message has been
refused; it is reported to a session that has returned. -/
def overtaking : List (Turn Loopback.Rigged) :=
  [.move .register, .shift pipelined] ++ receiveNext ++ replyAndGoOn ++ receiveNext ++ replyAndGoOn ++
    [.move (.advance 1)] ++ receiveNext ++
    [.work, .advance 0, .close, .advance 1, .advance 0].map .move

theorem echoes_each_once_overtaking : (∀ t ∈ overtaking, t.isForeign = false) ∧
    ∃ d m, (start "mycc" ({} : Loopback.Rigged) echo).proceed overtaking = some d ∧
      d.session.result? = some (.rejected (.ofText "unexpected GetState message from peer")) ∧
      registration "mycc" = .ok m ∧
      Echoes m d ((start "mycc" ({} : Loopback.Rigged) echo).record overtaking)
        ((start "mycc" ({} : Loopback.Rigged) echo).ledger overtaking) := by
  have hown : ∀ t ∈ overtaking, t.isForeign = false := by
    simp [overtaking, receiveNext, replyAndGoOn, Turn.isForeign, Move.isForeign]
  have hend : ((start "mycc" ({} : Loopback.Rigged) echo).proceed overtaking).bind
      (·.session.result?) = some (.rejected (.ofText "unexpected GetState message from peer")) := by
    rfl
  obtain ⟨d, hrun, hresult⟩ := Option.bind_eq_some_iff.1 hend
  obtain ⟨m, hm, hechoes⟩ := echoes_each_once hown hrun
  exact ⟨hown, d, m, hrun, hresult, hm, hechoes⟩

/-- The stream has accepted the second reply and then the first. -/
example : (acceptedOf (offered ((start "mycc" ({} : Loopback.Rigged) echo).record overtaking))).tail =
    [.ofKind .keepalive [],
      { number := Kind.completed.number, payload := [7], txid := "t1", channel := "ch" }] := rfl

end Conversation

end Chaincode
