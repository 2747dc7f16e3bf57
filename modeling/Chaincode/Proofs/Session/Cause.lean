import Chaincode.Proofs.Session.Turn

/-!
# Why a session ends

`Cause` lists the five ways to an end, each with the one thing that brought it about and with
everything before that going well; every end has such a cause (`run_cause`). In particular the pump
looks at the outcomes in the order of the reports, the first fault among them is what a session ends
with, and only the end of the inbound direction is a clean end (`first_failed_send_ends`).
-/

namespace Chaincode.Session

/-- Nothing that the pump has seen so far ends a session. -/
structure Calm (taken : List Received) (checked : List Sent)
    (verdicts : List (List Envelope × Verdict)) : Prop where
  results : ∀ result ∈ taken, ending? result = none
  outcomes : ∀ outcome ∈ checked, outcome = .ok ()
  verdicts : ∀ entry ∈ verdicts, entry.2 = .ok ()

/-- What brings an end about. The last of the results, outcomes and verdicts does, or the
registration, or a reader that `crashed`. -/
inductive Cause (crashed : Prop) (taken : List Received) (checked : List Sent)
    (verdicts : List (List Envelope × Verdict)) : SessionEnd → Prop where
  | registration (fault : StreamFault) (ht : taken = []) (hc : checked = []) (hv : verdicts = []) :
      Cause crashed taken checked verdicts (.transport .register fault)
  | result (before : List Received) (result : Received) (why : SessionEnd)
      (ht : taken = before ++ [result]) (hw : ending? result = some why)
      (hcalm : Calm before checked verdicts) : Cause crashed taken checked verdicts why
  | outcome (before : List Sent) (fault : StreamFault) (hc : checked = before ++ [.error fault])
      (hcalm : Calm taken before verdicts) :
      Cause crashed taken checked verdicts (.transport .send fault)
  | verdict (before : List (List Envelope × Verdict)) (seen : List Envelope) (refusal : Refusal)
      (hv : verdicts = before ++ [(seen, .error refusal)]) (hcalm : Calm taken checked before) :
      Cause crashed taken checked verdicts (.rejected refusal)
  | reader (hc : crashed) (hcalm : Calm taken checked verdicts) :
      Cause crashed taken checked verdicts (.transport .receive .readerGone)

/-- The end of a session that is over has a cause; one that goes on has seen none. -/
def Accounted (crashed : Prop) (s : Session) (h : History) : Prop :=
  match s.stage with
  | .closing why | .ended why => Cause crashed h.taken h.checked h.verdicts why
  | .registering _ => h.taken = [] ∧ h.checked = [] ∧ h.verdicts = []
  | .selecting | .handling _ | .draining | .granting => Calm h.taken h.checked h.verdicts
  | .cancelled => False

variable {crashed : Prop} {s t : Session} {h : History} {a : Action} {name : String}
  {as : List Action}

theorem Calm.concat_ok {taken : List Received} {checked : List Sent}
    {verdicts : List (List Envelope × Verdict)} (hcalm : Calm taken checked verdicts) :
    Calm taken (checked ++ [.ok ()]) verdicts where
  results := hcalm.results
  outcomes := by simpa [or_imp, forall_and] using hcalm.outcomes
  verdicts := hcalm.verdicts

theorem Calm.concat_message {taken : List Received} {checked : List Sent}
    {verdicts : List (List Envelope × Verdict)} (hcalm : Calm taken checked verdicts) {m : Envelope}
    (hm : m.isEmpty = false) : Calm (taken ++ [.ok m]) checked verdicts where
  results := by simpa [or_imp, forall_and, ending?_ok hm] using hcalm.results
  outcomes := hcalm.outcomes
  verdicts := hcalm.verdicts

theorem Calm.concat_accept {taken : List Received} {checked : List Sent}
    {verdicts : List (List Envelope × Verdict)} (hcalm : Calm taken checked verdicts)
    (seen : List Envelope) : Calm taken checked (verdicts ++ [(seen, .ok ())]) where
  results := hcalm.results
  outcomes := hcalm.outcomes
  verdicts := by simpa [or_imp, forall_and] using hcalm.verdicts

theorem Accounted.of_eq {h' : History} (hacc : Accounted crashed s h) (hs : t.stage = s.stage)
    (ht : h'.taken = h.taken) (hc : h'.checked = h.checked) (hv : h'.verdicts = h.verdicts) :
    Accounted crashed t h' := by
  unfold Accounted at hacc ⊢
  rwa [hs, ht, hc, hv]

theorem accounted_step (hstep : Step s a t) (hb : Balanced crashed s h)
    (hacc : Accounted crashed s h) : Accounted crashed t (h.note s a) := by
  obtain ⟨owed, turn, -⟩ := hb
  cases hstep with
  | registered m hs =>
    simp only [Accounted, hs] at hacc
    obtain ⟨ht, hc, hv⟩ := hacc
    exact ⟨by simp [History.note, ht], by simp [History.note, hc], by simp [History.note, hv]⟩
  | refused m fault hs =>
    simp only [Accounted, hs] at hacc
    obtain ⟨ht, hc, hv⟩ := hacc
    exact .registration fault ht hc hv
  | takeLast result why hs hslot hw =>
    simp only [Accounted, hs] at hacc
    exact .result h.taken result why (by simp [History.note, hslot]) hw hacc
  | takeMessage m hs hslot hm =>
    simp only [Accounted, hs] at hacc
    simpa [Accounted, History.note, hslot] using hacc.concat_message hm
  | missReader hs hslot hr =>
    simp only [Accounted, hs] at hacc
    exact .reader (turn.of_missing hs hslot hr) (by simpa [History.note, hslot] using hacc)
  | takeOk rest hs ho =>
    simp only [Accounted, hs] at hacc
    simpa [Accounted, History.note, ho, hs] using hacc.concat_ok
  | takeFault fault rest hs ho =>
    simp only [Accounted, hs] at hacc
    exact .outcome h.checked fault (by simp [History.note, ho]) hacc
  | accept m hs =>
    simp only [Accounted, hs] at hacc
    exact hacc.concat_accept s.dispatched
  | reject m refusal hs =>
    simp only [Accounted, hs] at hacc
    exact .verdict h.verdicts s.dispatched refusal rfl hacc
  | drainOk rest hs ho =>
    simp only [Accounted, hs] at hacc
    simpa [Accounted, History.note, ho, hs] using hacc.concat_ok
  | drainFault fault rest hs ho =>
    simp only [Accounted, hs] at hacc
    exact .outcome h.checked fault (by simp [History.note, ho]) hacc
  | drained hs ho =>
    simp only [Accounted, hs] at hacc
    simpa [Accounted, History.note, ho] using hacc
  | grant hs hr hp =>
    simp only [Accounted, hs] at hacc
    exact hacc
  | grantNobody hs hr => exact absurd hr (turn.ne_stopped hs)
  | close why outcome hs =>
    simp only [Accounted, hs] at hacc
    exact hacc
  | report outcome hs ho | drop outcome ho =>
    refine hacc.of_eq rfl ?_ ?_ ?_ <;> simp [History.note, ho]
  | _ => exact hacc.of_eq rfl rfl rfl rfl

theorem accounted_start (name : String) : Accounted crashed (start name) {} := by
  rw [start_eq]
  exact ⟨rfl, rfl, rfl⟩

theorem run_accounted (hrun : (start name).run as = some s) :
    Accounted (.crash ∈ as) s ((start name).history as) := by
  have main := run_induction_crashed (P := fun c s h => Balanced c s h ∧ Accounted c s h)
    (fun _ => ⟨balanced_start name, accounted_start name⟩)
    (fun _ _ _ _ _ ih hstep hc => ⟨balanced_step hstep hc ih.1, accounted_step hstep ih.1 ih.2⟩) hrun
  exact main.2

namespace Cause

variable {taken : List Received} {checked : List Sent} {verdicts : List (List Envelope × Verdict)}
  {why : SessionEnd} {fault : StreamFault}

theorem of_send (hcause : Cause crashed taken checked verdicts (.transport .send fault)) :
    ∃ before, checked = before ++ [.error fault] ∧ Calm taken before verdicts := by
  cases hcause with
  | result before result _ ht hw hcalm => exact absurd hw ending?_ne_send
  | outcome before _ hc hcalm => exact ⟨before, hc, hcalm⟩

theorem eq_send (hcause : Cause crashed taken checked verdicts why) (hmem : .error fault ∈ checked) :
    why = .transport .send fault := by
  have hcalm {taken checked verdicts} (h : Calm taken checked verdicts) : .error fault ∉ checked :=
    fun hmem => by cases h.outcomes _ hmem
  cases hcause with
  | registration _ ht hc hv => simp [hc] at hmem
  | result before result _ ht hw h => exact absurd hmem (hcalm h)
  | outcome before _ hc h =>
    rw [hc, List.mem_append, List.mem_singleton] at hmem
    rcases hmem with hmem | hmem
    · exact absurd hmem (hcalm h)
    · cases hmem
      rfl
  | verdict before seen refusal hv h => exact absurd hmem (hcalm h)
  | reader hc h => exact absurd hmem (hcalm h)

theorem eq_of_ending? {result : Received} {why' : SessionEnd}
    (hcause : Cause crashed taken checked verdicts why) (hmem : result ∈ taken)
    (hw' : ending? result = some why') : why = why' := by
  have hcalm {taken checked verdicts} (h : Calm taken checked verdicts) : result ∉ taken :=
    fun hmem => by simp [h.results _ hmem] at hw'
  cases hcause with
  | registration _ ht hc hv => simp [ht] at hmem
  | result before result' _ ht hw h =>
    rw [ht, List.mem_append, List.mem_singleton] at hmem
    rcases hmem with hmem | rfl
    · exact absurd hmem (hcalm h)
    · exact Option.some.inj (hw.symm.trans hw')
  | outcome before _ hc h => exact absurd hmem (hcalm h)
  | verdict before seen refusal hv h => exact absurd hmem (hcalm h)
  | reader hc h => exact absurd hmem (hcalm h)

theorem streamEnded_iff (hcause : Cause crashed taken checked verdicts why) :
    why = .streamEnded ↔ .error .closed ∈ taken := by
  constructor
  · rintro rfl
    cases hcause with
    | result before result _ ht hw h => simp [ht, ending?_eq_streamEnded.1 hw]
  · exact fun hmem => hcause.eq_of_ending? hmem rfl

end Cause

theorem eq_ended_of_result? {why : SessionEnd} (h : s.result? = some why) : s.stage = .ended why := by
  unfold result? at h
  split at h
  · cases h
    assumption
  · cases h

/-- Every end has a cause. -/
theorem run_cause {why : SessionEnd} (hrun : (start name).run as = some s)
    (hwhy : s.result? = some why) :
    Cause (.crash ∈ as) ((start name).history as).taken ((start name).history as).checked
      ((start name).history as).verdicts why := by
  simpa [Accounted, eq_ended_of_result? hwhy] using run_accounted hrun

/-! ## The order of the outcomes, and what they do -/

/-- `fault` is the first fault among the outcomes; those before it went well. -/
def FirstFault (fault : StreamFault) (outcomes : List Sent) : Prop :=
  ∃ oks rest, outcomes = oks ++ .error fault :: rest ∧ ∀ outcome ∈ oks, outcome = .ok ()

theorem result?_of_refused {fault : StreamFault} {rest : List Action} {why : SessionEnd}
    (hrun : (start name).run (.register (.error fault) :: rest) = some s)
    (hwhy : s.result? = some why) : why = .transport .register fault := by
  obtain ⟨t, ht, hrest⟩ := Option.bind_eq_some_iff.1 hrun
  rw [start_eq] at ht
  cases ht
  have hended := eq_ended_of_result? hwhy
  rcases run_keeps_end (.inl rfl) hrest with h | h
  · cases hended.symm.trans h
  · cases hended.symm.trans h
    rfl

/-- **The first failed send that is reported ends the session, and only it does.** The pump looks at
the outcomes in the order of the reports, at each of them at most once; a send that went well changes
nothing else. If a session ends for a failed send, that is the first one reported. A closed stream is
a clean end when a receive finds it, and only then: never when a reply or the registration does. -/
theorem first_failed_send_ends (hrun : (start name).run as = some s) :
    ((start name).history as).checked ++ s.outcomes = ((start name).history as).reported ∧
    (∀ (u v : Session) (a : Action) (rest : List Sent), a = .takeOutcome ∨ a = .drain →
      u.outcomes = .ok () :: rest → u.step a = some v → v = { u with outcomes := rest }) ∧
    (∀ why, s.result? = some why →
      (∀ fault, why = .transport .send fault → FirstFault fault ((start name).history as).reported) ∧
      (∀ fault, .error fault ∈ ((start name).history as).checked → why = .transport .send fault) ∧
      (why = .streamEnded ↔ .error .closed ∈ ((start name).history as).taken)) ∧
    (∀ fault rest why, as = .register (.error fault) :: rest → s.result? = some why →
      why = .transport .register fault) := by
  have horder := run_outcomes hrun
  refine ⟨horder, ?_, fun why hwhy => ⟨?_, ?_, ?_⟩, ?_⟩
  · rintro u v a rest (rfl | rfl) hok hstep
    · cases Step.of_step hstep with
      | takeOk rest' hs ho =>
        cases ho.symm.trans hok
        rfl
      | takeFault fault rest' hs ho => simp [ho] at hok
    · cases Step.of_step hstep with
      | drainOk rest' hs ho =>
        cases ho.symm.trans hok
        rfl
      | drainFault fault rest' hs ho => simp [ho] at hok
      | drained hs ho => simp [ho] at hok
  · rintro fault rfl
    obtain ⟨oks, hchecked, hcalm⟩ := (run_cause hrun hwhy).of_send
    exact ⟨oks, s.outcomes, by rw [← horder, hchecked, List.append_assoc]; rfl, hcalm.outcomes⟩
  · exact fun fault hmem => (run_cause hrun hwhy).eq_send hmem
  · exact (run_cause hrun hwhy).streamEnded_iff
  · rintro fault rest why rfl hwhy
    exact result?_of_refused hrun hwhy

/-- A run in which a reply finds the stream closed, after one that went well and before another that
fails. -/
def closedReply : List Action :=
  [.register (.ok ()), .beginReceive, .receive (.ok { payload := [1] }), .handOver, .takeResult,
    .report (.ok ()), .report (.error .closed), .answer (.ok ()), .drain,
    .report (.error .sendClosed), .drain, .close (.ok ())]

theorem first_failed_send_ends_closedReply : ∃ s, (start "mycc").run closedReply = some s ∧
    s.result? = some (.transport .send .closed) ∧
    FirstFault .closed ((start "mycc").history closedReply).reported ∧
    .error .closed ∉ ((start "mycc").history closedReply).taken := by
  obtain ⟨s, hrun, hwhy⟩ : ∃ s, (start "mycc").run closedReply = some s ∧
      s.result? = some (.transport .send .closed) := ⟨_, rfl, rfl⟩
  obtain ⟨hsend, -, hclosed⟩ := (first_failed_send_ends hrun).2.2.1 _ hwhy
  exact ⟨s, hrun, hwhy, hsend _ rfl, fun hmem => by cases hclosed.2 hmem⟩

end Chaincode.Session
