import Chaincode.Proofs.Call.Course
import Chaincode.Proofs.Conversation.Record
import Chaincode.Proofs.Session.Cause

/-!
# Conversations over a call

A call changes while a session runs over it. What the session learns of the call is what has become of it.
-/

/-!
## The stream of a conversation

A conversation does nothing to its stream but use it. So a property of the stream that every use keeps
holds all along (`keeps_step`), whatever the session and the handler do.
-/

namespace Chaincode

/-- A property of a stream's states that every use of the stream keeps. -/
structure MessageStream.Keeps {S : Type} [MessageStream S] (P : S → Prop) : Prop where
  begin : ∀ s, P s → P (MessageStream.begin s)
  receive : ∀ s result t, P s → MessageStream.receive s = some (result, t) → P t
  abandon : ∀ s, P s → P (MessageStream.abandon s)
  send : ∀ s m outcome t, P s → MessageStream.send m s = some (outcome, t) → P t
  close : ∀ s, P s → P (MessageStream.close s).2

namespace Conversation

variable {σ S : Type} {c d : Conversation σ S} {P : S → Prop} {move : Move}

theorem act_stream {a : Session.Action} (h : c.act a = some d) : d.stream = c.stream := by
  obtain ⟨session, -, rfl⟩ := Option.map_eq_some_iff.1 h
  rfl

theorem assign_stream (c : Conversation σ S) : c.assign.stream = c.stream := by
  unfold assign
  split <;> rfl

variable [MessageStream S]

theorem send_stream {m : Envelope} {outcome : Sent} (h : c.send m = some (outcome, d)) :
    MessageStream.send m c.stream = some (outcome, d.stream) := by
  obtain ⟨⟨outcome', stream⟩, hsend, heq⟩ := Option.map_eq_some_iff.1 h
  cases heq
  exact hsend

theorem keeps_perform (hkeeps : MessageStream.Keeps P) {rest : Work} {effect : Effect}
    (hP : P c.stream) (h : c.perform rest effect = some d) : P d.stream := by
  cases effect with
  | spawn m | hold m =>
    cases h
    exact hP
  | report outcome =>
    rw [act_stream h]
    exact hP
  | pause =>
    simp only [perform] at h
    split at h
    · cases h
      exact hP
    · cases h
  | send m =>
    obtain ⟨⟨outcome, c'⟩, hsend, h⟩ := Option.bind_eq_some_iff.1 h
    have hsent := hkeeps.send _ _ _ _ hP (send_stream hsend)
    rcases outcome with fault | ⟨⟨⟩⟩
    · rw [act_stream h]
      exact hsent
    · cases h
      exact hsent

/-- **What every use of its stream keeps, every move of a conversation keeps.** -/
theorem keeps_step (hkeeps : MessageStream.Keeps P) (hP : P c.stream) (h : c.step move = some d) :
    P d.stream := by
  cases move with
  | handOver | takePermit | takeOutcome | drain | grant | report outcome =>
    rw [act_stream h]
    exact hP
  | register =>
    simp only [step] at h
    split at h
    · obtain ⟨⟨outcome, c'⟩, hsend, h⟩ := Option.bind_eq_some_iff.1 h
      rw [act_stream h]
      exact hkeeps.send _ _ _ _ hP (send_stream hsend)
    · cases h
  | beginReceive =>
    obtain ⟨c', hact, rfl⟩ := Option.map_eq_some_iff.1 h
    have hstream := act_stream hact
    exact hkeeps.begin _ (hstream ▸ hP)
  | receive =>
    simp only [step] at h
    split at h
    · obtain ⟨⟨result, stream⟩, hreceive, h⟩ := Option.bind_eq_some_iff.1 h
      rw [act_stream h]
      exact hkeeps.receive _ _ _ hP hreceive
    · cases h
  | abort =>
    obtain ⟨c', hact, h⟩ := Option.bind_eq_some_iff.1 h
    split at h
    · cases h
      exact hkeeps.abandon _ hP
    · cases h
      rw [act_stream hact]
      exact hP
  | takeResult =>
    obtain ⟨c', hact, rfl⟩ := Option.map_eq_some_iff.1 h
    rw [assign_stream, act_stream hact]
    exact hP
  | work =>
    simp only [step] at h
    split at h
    · split at h
      · exact keeps_perform hkeeps hP h
      · rw [act_stream h]
        exact hP
    · cases h
  | close =>
    simp only [step] at h
    split at h
    · rw [act_stream h]
      exact hkeeps.close _ hP
    · cases h
  | advance place =>
    simp only [step] at h
    split at h
    · obtain ⟨⟨outcome, c'⟩, hsend, h⟩ := Option.bind_eq_some_iff.1 h
      have hsent := hkeeps.send _ _ _ _ hP (send_stream hsend)
      cases h
      exact hsent
    · rw [act_stream h]
      exact hP
    · cases h
  | send m =>
    obtain ⟨⟨outcome, c'⟩, hsend, rfl⟩ := Option.map_eq_some_iff.1 h
    exact hkeeps.send _ _ _ _ hP (send_stream hsend)

end Conversation

/-!
## Sessions over a call

While a session runs over a call, messages arrive on the call, a call of ours is answered, and what was
sent is taken out. `follow` runs both together. The receives of the session are receives of the call
(`carried_of_follow`), so the pump takes the results of the call's course in their order, and the first
fault among them is the end of the call, never the closed state after it. So a session that ends well was
hung up on, and one that finds its call refused or failed says so (`failure_is_no_hang_up`).
-/

open Session (History)

/-- What a receive came to, if this is one that came to something. -/
def Use.received? : Use → Option Received
  | receive result => result
  | _ => none

namespace Session

variable {s s₀ t : Session} {a : Action} {h : History} {as : List Action}

theorem received_note : (h.note s a).received = h.received ++ (s.uses a).filterMap Use.received? := by
  cases a with
  | register outcome =>
    simp only [History.note, uses]
    split <;> simp [Use.received?]
  | abort =>
    simp only [History.note, uses]
    split <;> simp [Use.received?]
  | report outcome =>
    simp only [History.note, uses]
    split <;> simp
  | _ => simp [History.note, uses, Use.received?]

theorem received_concat (hrun : s₀.run as = some s) (hstep : s.step a = some t) :
    s₀.run (as ++ [a]) = some t ∧ (s₀.history (as ++ [a])).received =
      (s₀.history as).received ++ (s.uses a).filterMap Use.received? :=
  ⟨run_concat.2 ⟨s, hrun, hstep⟩, by rw [history_concat hrun hstep, received_note]⟩

end Session

namespace Conversation

variable {σ : Type} {c d e : Conversation σ Call} {move : Move} {name : String} {role : Role}
  {peer : String} {limit : Nat} {handler : Handler σ}

/-- A move of a conversation over a call, or an event of the call. -/
inductive Happening where
  | move (m : Move)
  | event (e : Call.Event)

def happen (c : Conversation σ Call) : Happening → Option (Conversation σ Call)
  | .move m => c.step m
  | .event e => (c.stream.happen e).map fun stream => { c with stream }

/-- The conversation after a list of moves and events, if each is possible in its turn. -/
def follow (c : Conversation σ Call) : List Happening → Option (Conversation σ Call)
  | [] => some c
  | h :: rest => (c.happen h).bind (·.follow rest)

def events (hs : List Happening) : List Call.Event :=
  hs.filterMap fun
    | .event e => some e
    | .move _ => none

/-- The session has returned `why`, or does so by its next move. -/
def Returns (c : Conversation σ Call) (why : SessionEnd) : Prop :=
  c.session.result? = some why ∨ ∃ d, c.step .close = some d ∧ d.session.result? = some why

/-! ### The session and its call -/

/-- The session has received what the receives on the call came to, the call having gone through the
events `es`. -/
def Carried (role : Role) (peer : String) (limit : Nat) (name : String) (es : List Call.Event)
    (c : Conversation σ Call) : Prop :=
  ∃ as plays, (Session.start name).run as = some c.session ∧
    (Call.opened role peer limit).play plays =
      some (((Session.start name).history as).received, c.stream) ∧
    Call.events plays = es

/-- The call `r` is `call` gone on by the recorded uses, with nothing happening on it besides. -/
def Played (call : Call) (r : Recorded Call) : Prop :=
  ∃ plays, call.play plays = some (r.uses.filterMap Use.received?, r.stream) ∧ Call.events plays = []

theorem Played.concat {call call' : Call} {r : Recorded Call} {a : Call.Action} {use : Use}
    (h : Played call r) (hact : r.stream.act a = some (use.received?, call'))
    (ha : Call.events [a] = []) : Played call (r.note call' use) := by
  obtain ⟨plays, hplays, hevents⟩ := h
  refine ⟨plays ++ [a], Call.play_concat.2 ⟨_, _, _, hplays, hact, ?_⟩, ?_⟩
  · cases huse : use.received? <;> simp [Recorded.note, huse]
  · rw [Call.events_append, hevents, ha]
    rfl

theorem Played.note {call : Call} {r : Recorded Call} {use : Use} (h : Played call r)
    (huse : use.received? = none) : Played call (r.note r.stream use) := by
  obtain ⟨plays, hplays, hevents⟩ := h
  exact ⟨plays, by simpa [Recorded.note, huse] using hplays, hevents⟩

theorem keeps_played (call : Call) : MessageStream.Keeps (Played call) where
  begin r h := h.note rfl
  abandon r h := h.note rfl
  receive r result t h hreceive := by
    obtain ⟨⟨result', stream⟩, hstream, heq⟩ := Option.map_eq_some_iff.1 hreceive
    cases heq
    obtain ⟨⟨result, call'⟩, hcall, heq⟩ := Option.map_eq_some_iff.1 hstream
    cases heq
    refine h.concat (a := .receive) ?_ rfl
    rw [Call.act, hcall]
    rfl
  send r m outcome t h hsend := by
    obtain ⟨⟨outcome', stream⟩, hstream, heq⟩ := Option.map_eq_some_iff.1 hsend
    cases heq
    have hcall : r.stream.send m = some (outcome, stream) := hstream
    refine h.concat (a := .send m) ?_ rfl
    rw [Call.act, hcall]
    rfl
  close r h := h.concat (a := .close) rfl rfl

theorem plays_step (h : c.step move = some d) : ∃ made plays, Does c.session move d.session made ∧
    c.stream.play plays = some (made.filterMap Use.received?, d.stream) ∧ Call.events plays = [] := by
  obtain ⟨made, hstep, hdoes⟩ := records_step h
  have hstart : Played c.stream c.recorded.stream := ⟨[], rfl, rfl⟩
  obtain ⟨plays, hplays, hevents⟩ := keeps_step (keeps_played c.stream) hstart hstep
  exact ⟨made, plays, hdoes, hplays, hevents⟩

theorem Does.run_received {s₀ s t : Session} {as : List Session.Action} {made : List Use}
    (hdoes : Does s move t made) (hrun : s₀.run as = some s) : ∃ as', s₀.run as' = some t ∧
      (s₀.history as').received = (s₀.history as).received ++ made.filterMap Use.received? := by
  rcases hdoes.own_or_foreign with ⟨a, hstep, -, rfl⟩ | ⟨-, ht, huses⟩
  · exact ⟨as ++ [a], Session.received_concat hrun hstep⟩
  -- whoever else makes a move does not receive
  · have hnone : made.filterMap Use.received? = [] := by
      refine List.filterMap_eq_nil_iff.2 fun use huse => ?_
      have hsent := huses use huse
      cases use with
      | send m outcome => rfl
      | _ => cases hsent
    rcases ht with rfl | ⟨a, hstep, ha⟩
    · exact ⟨as, hrun, by simp [hnone]⟩
    · have hreceived := Session.received_concat hrun hstep
      rw [ha] at hreceived
      rw [hnone]
      exact ⟨as ++ [a], hreceived⟩

theorem carried_move {es : List Call.Event} (hcarried : Carried role peer limit name es c)
    (h : c.step move = some d) : Carried role peer limit name es d := by
  obtain ⟨as, plays, hrun, hplays, hevents⟩ := hcarried
  obtain ⟨made, more, hdoes, hmore, hnone⟩ := plays_step h
  obtain ⟨as', hrun', hreceived⟩ := hdoes.run_received hrun
  refine ⟨as', plays ++ more, hrun', ?_, ?_⟩
  · exact Call.play_append.2 ⟨_, _, _, hplays, hmore, hreceived⟩
  · rw [Call.events_append, hevents, hnone, List.append_nil]

theorem carried_event {es : List Call.Event} {b : Call.Event}
    (hcarried : Carried role peer limit name es c) (h : c.happen (.event b) = some d) :
    Carried role peer limit name (es ++ [b]) d := by
  obtain ⟨as, plays, hrun, hplays, hevents⟩ := hcarried
  obtain ⟨stream, hstream, rfl⟩ := Option.map_eq_some_iff.1 h
  refine ⟨as, plays ++ [.event b], hrun, ?_, ?_⟩
  · refine Call.play_concat.2 ⟨_, _, none, hplays, ?_, by simp⟩
    rw [Call.act, hstream]
    rfl
  · rw [Call.events_append, hevents]
    rfl

theorem carried_follow {hs : List Happening} {es : List Call.Event}
    (hcarried : Carried role peer limit name es c) (hfollow : c.follow hs = some d) :
    Carried role peer limit name (es ++ events hs) d := by
  induction hs generalizing c es with
  | nil =>
    cases hfollow
    simpa [events] using hcarried
  | cons h hs ih =>
    obtain ⟨c', hhappen, hrest⟩ := Option.bind_eq_some_iff.1 hfollow
    cases h with
    | move m =>
      have hmove := carried_move hcarried hhappen
      simpa [events] using ih hmove hrest
    | event b =>
      have hevent := carried_event hcarried hhappen
      simpa [events] using ih hevent hrest

/-- **The receives of a session are the receives on its call.** -/
theorem carried_of_follow {hs : List Happening}
    (hfollow : (start name (Call.opened role peer limit) handler).follow hs = some d) :
    Carried role peer limit name (events hs) d := by
  have hstart : Carried role peer limit name []
      (start name (Call.opened role peer limit) handler) := ⟨[], [], rfl, rfl, rfl⟩
  simpa using carried_follow hstart hfollow

/-! ### Ends -/

theorem exists_messages {results : List Received} (h : ∀ r ∈ results, Session.ending? r = none) :
    ∃ ms : List Envelope, results = ms.map .ok := by
  induction results with
  | nil => exact ⟨[], rfl⟩
  | cons r results ih =>
    obtain ⟨m, rfl, -⟩ := Session.eq_ok_of_ending? (h r List.mem_cons_self)
    obtain ⟨ms, rfl⟩ := ih fun r hr => h r (List.mem_cons_of_mem _ hr)
    exact ⟨m :: ms, rfl⟩

theorem fault?_of_received {es : List Call.Event} {plays : List Call.Action} {call : Call}
    {results before : List Received} {fault : StreamFault}
    (hplays : (Call.opened role peer limit).play plays = some (results, call))
    (hresults : before ++ [.error fault] <+: results)
    (hbefore : ∀ r ∈ before, Session.ending? r = none) (hevents : Call.events plays = es) :
    (Call.course role limit es).fault? = some fault := by
  obtain ⟨ms, rfl⟩ := exists_messages hbefore
  obtain ⟨rest, hrest⟩ := hresults
  obtain ⟨hcourse, -⟩ := Call.results_of_play hplays
  rw [hevents] at hcourse
  have hfirst : results = ms.map .ok ++ .error fault :: rest := by
    rw [← hrest, List.append_assoc]
    rfl
  exact Course.fault?_of_first hcourse hfirst

theorem closed_of_streamEnded {es : List Call.Event} (hcarried : Carried role peer limit name es c)
    (hended : c.session.result? = some .streamEnded) :
    (Call.course role limit es).fault? = some .closed := by
  obtain ⟨as, plays, hrun, hplays, hevents⟩ := hcarried
  obtain ⟨dropped, lost, hflow⟩ := Session.run_flow hrun
  have hresults := hflow.results
  cases Session.run_cause hrun hended with
  | result before result _ ht hw hcalm =>
    rw [Session.ending?_eq_streamEnded.1 hw] at ht
    have hprefix : before ++ [.error .closed] <+: ((Session.start name).history as).received := by
      rw [hresults, ht, List.append_assoc, List.append_assoc]
      exact List.prefix_append _ _
    exact fault?_of_received hplays hprefix hcalm.results hevents

theorem fault?_of_taken {es : List Call.Event} {fault : StreamFault}
    (hcarried : Carried role peer limit name es c) (hslot : c.session.slot = some (.error fault))
    (hstage : c.session.stage = .selecting) :
    (Call.course role limit es).fault? = some fault := by
  obtain ⟨as, plays, hrun, hplays, hevents⟩ := hcarried
  obtain ⟨dropped, lost, hflow⟩ := Session.run_flow hrun
  have hresults := hflow.results
  have hcalm := Session.run_accounted hrun
  simp only [Session.Accounted, hstage] at hcalm
  have hprefix : ((Session.start name).history as).taken ++ [.error fault] <+:
      ((Session.start name).history as).received := by
    rw [hresults, hslot, List.append_assoc _ _ dropped]
    exact List.prefix_append _ _
  exact fault?_of_received hplays hprefix hcalm.results hevents

theorem closing_of_takeResult {fault : StreamFault} (hslot : c.session.slot = some (.error fault))
    (hstep : c.step .takeResult = some d) : c.session.stage = .selecting ∧
      ∃ why, Session.ending? (.error fault) = some why ∧ d.session.stage = .closing why := by
  obtain ⟨c', hact, rfl⟩ := Option.map_eq_some_iff.1 hstep
  obtain ⟨session, hsession, rfl⟩ := Option.map_eq_some_iff.1 hact
  rw [assign_session]
  cases Session.Step.of_step hsession with
  | takeLast result why hs hslot' hw =>
    cases hslot.symm.trans hslot'
    exact ⟨hs, why, hw, rfl⟩
  | takeMessage m hs hslot' hm => cases hslot.symm.trans hslot'
  | missReader hs hslot' hr => cases hslot.symm.trans hslot'

theorem follow_keeps_end {why : SessionEnd} {hs : List Happening}
    (h : c.session.stage = .closing why ∨ c.session.stage = .ended why)
    (hfollow : c.follow hs = some d) :
    d.session.stage = .closing why ∨ d.session.stage = .ended why := by
  induction hs generalizing c with
  | nil =>
    cases hfollow
    exact h
  | cons b hs ih =>
    obtain ⟨c', hhappen, hrest⟩ := Option.bind_eq_some_iff.1 hfollow
    refine ih ?_ hrest
    cases b with
    | event b =>
      obtain ⟨stream, -, rfl⟩ := Option.map_eq_some_iff.1 hhappen
      exact h
    | move m =>
      rcases acts_step hhappen with hsession | ⟨a, hstep⟩
      · rw [hsession]
        exact h
      · exact (Session.Step.of_step hstep).keeps_end h

theorem returns_of_leaving {why : SessionEnd}
    (h : c.session.stage = .closing why ∨ c.session.stage = .ended why) : c.Returns why := by
  rcases h with h | h
  · right
    simp [step, h, act, Session.step, Session.result?]
  · left
    simp [h, Session.result?]

/-- **A failed call is never mistaken for a hang-up.** However a call opens and whatever arrives on it,
the receives come to its course: its messages in order, then its end once with the reason, then that it
is closed, and a call of ours that is accepted is like one that the peer opened. A session over the call
ends well only if the peer has hung up in good order, and if the pump takes the end of a call that was
refused or failed, the session returns that status. -/
theorem failure_is_no_hang_up (role : Role) (peer : String) (limit : Nat) (name : String)
    (handler : Handler σ) :
    (∀ plays results call, (Call.opened role peer limit).play plays = some (results, call) →
      call.Follows results (Call.course role limit (Call.events plays))) ∧
    (∀ es es', Call.answer? es = some .accepted → Call.arrivals es = Call.arrivals es' →
      Call.course .client limit es = Call.course .server limit es') ∧
    ∀ hs c, (start name (Call.opened role peer limit) handler).follow hs = some c →
      (c.session.result? = some .streamEnded → Call.HungUp role limit (events hs)) ∧
      ∀ status fault d after e, (Call.course role limit (events hs)).fault? = some (.status status) →
        c.session.slot = some (.error fault) → c.step .takeResult = some d →
        d.follow after = some e → e.Returns (.transport .receive (.status status)) := by
  refine ⟨fun plays results call hplay => Call.results_of_play hplay,
    fun es es' => Call.course_of_accepted, fun hs c hfollow => ⟨fun hended => ?_, ?_⟩⟩
  · have hclosed := closed_of_streamEnded (carried_of_follow hfollow) hended
    exact Call.hungUp_of_closed hclosed
  · intro status fault d after e hfault hslot hstep hafter
    obtain ⟨hstage, why, hwhy, hclosing⟩ := closing_of_takeResult hslot hstep
    -- what the pump has taken is the end of the call, so it is that status
    have htaken := fault?_of_taken (carried_of_follow hfollow) hslot hstage
    cases htaken.symm.trans hfault
    cases hwhy
    exact returns_of_leaving (follow_keeps_end (.inl hclosing) hafter)

/-- A call of ours that the peer refuses after it has read the registration. -/
def refusedCall : List Happening :=
  [.move .register, .event (.outbound .drain), .move .beginReceive,
    .event (.answer (.refused { code := .unavailable, message := "draining" })), .move .receive,
    .move .handOver]

/-- Two receives too many on a call that brings one empty message and ends. -/
def shortCall : List Call.Action :=
  [.event (.arrive (.frame [])), .receive, .event (.arrive .ended), .receive, .receive]

theorem failure_is_no_hang_up_refusedCall :
    (∃ call, (Call.opened .server "peer0" 100).play shortCall =
        some ([.ok {}, .error .closed, .error .closed], call) ∧
      call.Follows [.ok {}, .error .closed, .error .closed]
        (Call.course .server 100 (Call.events shortCall))) ∧
    ∃ c d, (start "mycc" (Call.opened .client "peer0" 100) echo).follow refusedCall = some c ∧
      c.step .takeResult = some d ∧
      d.Returns (.transport .receive (.status { code := .unavailable, message := "draining" })) := by
  obtain ⟨call, hplay⟩ : ∃ call, (Call.opened .server "peer0" 100).play shortCall =
      some ([.ok {}, .error .closed, .error .closed], call) := by
    have hread : Codec.read 100 [] = .ok {} := by
      rw [Codec.read, Envelope.decode, Wire.Schema.read.eq_def]
      rfl
    simp [shortCall, Call.play, Call.act, Call.happen, Call.arrive, Call.receive, Inbound.receive,
      Inbound.next, Inbound.finish, Call.opened, Call.accepted, Inbound.accepted, hread]
  have hrefused : ((start "mycc" (Call.opened .client "peer0" 100) echo).follow refusedCall).map
      (fun c => (c.session.slot, (c.step .takeResult).isSome)) =
        some (some (.error (.status { code := .unavailable, message := "draining" })), true) := by
    decide +kernel
  obtain ⟨c, hfollow, hc⟩ := Option.map_eq_some_iff.1 hrefused
  obtain ⟨hslot, htake⟩ := Prod.mk.inj hc
  obtain ⟨d, hstep⟩ := Option.isSome_iff_exists.1 htake
  have hfollows := (failure_is_no_hang_up .server "peer0" 100 "mycc" echo).1 _ _ _ hplay
  have hreturns := ((failure_is_no_hang_up .client "peer0" 100 "mycc" echo).2.2 _ _ hfollow).2
    _ _ d [] d rfl hslot hstep rfl
  exact ⟨⟨call, hplay, hfollows⟩, c, d, hfollow, hstep, hreturns⟩

end Conversation

end Chaincode
