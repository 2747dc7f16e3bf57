import Chaincode.Proofs.Session.Cause

/-!
# What is left to do after a failed reply

A session with a fault among the outcomes that its pump has not looked at is `Doomed`: it cannot get
past the next drain. What it may still do depends on where the turn is when the fault is reported.
Each of a receive, a message and a permit has its point of no return, a condition on the state that a
doomed session never gets back once it has lost it; so there is at most one more of each, and none
where the condition fails from the start (`Winding`, `run_winding`). A fault that is there when the
handler answers leaves nothing to do but to end the session (`failed_reply_stops`).
-/

namespace Chaincode.Session

variable {s s₀ t u v : Session} {h : History} {a : Action} {name : String} {as bs : List Action}
  {crashed : Prop} {why : SessionEnd} {fault : StreamFault} {k : Nat}

/-! ## At most once -/

/-- Something has happened `n` times, at most once, where it can happen `now` only if it could
`atFirst`, and not again. -/
def AtMostOnce (n : Nat) (atFirst now : Prop) : Prop :=
  n = 0 ∧ (now → atFirst) ∨ n = 1 ∧ atFirst ∧ ¬ now

namespace AtMostOnce

variable {n : Nat} {atFirst now now' : Prop}

theorem none : AtMostOnce 0 now now := .inl ⟨rfl, id⟩

theorem keep (honce : AtMostOnce n atFirst now) (hnow : now' → now) : AtMostOnce n atFirst now' := by
  rcases honce with ⟨rfl, hfirst⟩ | ⟨rfl, hfirst, hnot⟩
  · exact .inl ⟨rfl, hfirst ∘ hnow⟩
  · exact .inr ⟨rfl, hfirst, hnot ∘ hnow⟩

theorem use (honce : AtMostOnce n atFirst now) (hnow : now) (hnot : ¬ now') :
    AtMostOnce (n + 1) atFirst now' := by
  rcases honce with ⟨rfl, hfirst⟩ | ⟨-, -, hnever⟩
  · exact .inr ⟨rfl, hfirst hnow, hnot⟩
  · exact absurd hnow hnever

theorem le_one (honce : AtMostOnce n atFirst now) : n ≤ 1 := by
  rcases honce with ⟨rfl, -⟩ | ⟨rfl, -⟩ <;> decide

theorem eq_zero (honce : AtMostOnce n atFirst now) (hnot : ¬ atFirst) : n = 0 := by
  rcases honce with ⟨rfl, -⟩ | ⟨-, hfirst, -⟩
  · rfl
  · exact absurd hfirst hnot

end AtMostOnce

/-! ## Doomed sessions -/

/-- The session is over, or has a failed send to come to. -/
structure Doomed (s : Session) : Prop where
  registered : ∀ m, s.stage ≠ .registering m
  over_or_fault : s.stage.isOver = true ∨ ∃ fault, .error fault ∈ s.outcomes

theorem Doomed.exists_fault (hd : Doomed s) (ho : s.stage.isOver = false) :
    ∃ fault, .error fault ∈ s.outcomes := by
  rcases hd.over_or_fault with hover | hfault
  · simp [ho] at hover
  · exact hfault

theorem Doomed.outcomes_ne_nil (hd : Doomed s) (ho : s.stage.isOver = false) : s.outcomes ≠ [] := by
  obtain ⟨fault, hmem⟩ := hd.exists_fault ho
  exact List.ne_nil_of_mem hmem

theorem doomed_step (hstep : Step s a t) (hd : Doomed s) : Doomed t := by
  cases hstep with
  | registered m hs | refused m fault hs => exact absurd hs (hd.registered m)
  | takeLast | missReader | takeFault | reject | drainFault | grantNobody =>
    exact ⟨by simp [finish], .inl rfl⟩
  | close => exact ⟨by simp, .inl rfl⟩
  | takeMessage m hs | accept m hs | drained hs | grant hs =>
    exact ⟨by simp, .inr (hd.exists_fault (by simp [hs, Stage.isOver]))⟩
  | takeOk rest hs ho | drainOk rest hs ho =>
    obtain ⟨fault, hmem⟩ := hd.exists_fault (by simp [hs, Stage.isOver])
    exact ⟨hd.registered, .inr ⟨fault, by simpa [ho] using hmem⟩⟩
  | report outcome hs ho =>
    obtain ⟨fault, hmem⟩ := hd.exists_fault ho
    exact ⟨hs, .inr ⟨fault, List.mem_append_left _ hmem⟩⟩
  | _ => exact ⟨hd.registered, hd.over_or_fault⟩

theorem doomed_of_report (hstep : Step s (.report (.error fault)) t) : Doomed t := by
  cases hstep with
  | report _ hs ho => exact ⟨hs, .inr ⟨fault, by simp⟩⟩
  | drop _ ho => exact ⟨fun m hs => by simp [hs, Stage.isOver] at ho, .inl ho⟩

/-! ## Points of no return -/

/-- The pump may come to dispatch a message without another drain. -/
def MayDispatch (s : Session) : Prop := s.stage = .selecting ∨ s.stage = .granting

theorem Doomed.between (hd : Doomed s) (hstep : Step s a t) (hb : BetweenMessages t) :
    BetweenMessages s := by
  rcases hstep.between hb with hb | ⟨m, hs, -⟩ | ⟨hs, ho, -⟩
  · exact hb
  · exact absurd hs (hd.registered m)
  · exact absurd ho (hd.outcomes_ne_nil (by simp [hs, Stage.isOver]))

theorem Doomed.granting (hd : Doomed s) (hstep : Step s a t) (ht : t.stage = .granting) :
    s.stage = .granting := by
  cases hstep with
  | drained hs ho => exact absurd ho (hd.outcomes_ne_nil (by simp [hs, Stage.isOver]))
  | registered | refused | takeLast | takeMessage | missReader | takeFault | accept | reject
  | drainFault | grant | grantNobody | close => cases ht
  | _ => exact ht

theorem Doomed.mayDispatch (hd : Doomed s) (hstep : Step s a t) (hm : MayDispatch t) :
    MayDispatch s := by
  rcases hm with ht | ht
  · cases hstep with
    | registered m hs => exact absurd hs (hd.registered m)
    | grant hs => exact .inr hs
    | refused | takeLast | takeMessage | missReader | takeFault | accept | reject | drainFault
    | drained | grantNobody | close => cases ht
    | _ => exact .inl ht
  · exact .inr (hd.granting hstep ht)

/-- A doomed session `s₀` on its way to its end, with what it has done since. -/
structure Winding (s₀ s : Session) (h : History) : Prop where
  doomed : Doomed s
  receives : AtMostOnce h.begun (BetweenMessages s₀) (BetweenMessages s)
  messages : ∃ more, s.dispatched = s₀.dispatched ++ more ∧
    AtMostOnce more.length (MayDispatch s₀) (MayDispatch s)
  permits : AtMostOnce h.granted (s₀.stage = .granting) (s.stage = .granting)

theorem granted_note (ha : a ≠ .grant) : (h.note s a).granted = h.granted := by
  cases a with
  | grant => exact absurd rfl ha
  | report outcome =>
    simp only [History.note]
    split <;> rfl
  | _ => rfl

theorem winding_step (hstep : Step s a t) (hb : ∃ h', Balanced crashed s h') (hw : Winding s₀ s h) :
    Winding s₀ t (h.note s a) where
  doomed := doomed_step hstep hw.doomed
  receives := by
    have hbetween := hw.doomed.between hstep
    by_cases ha : a = .beginReceive
    · subst ha
      obtain ⟨h', hb⟩ := hb
      have hb' := balanced_step hstep (by simp) hb
      cases hstep with
      | beginReceive hr => exact hw.receives.use (.inr (.inr hr)) (hb'.of_receiving rfl).1
    · rw [begun_note ha]
      exact hw.receives.keep hbetween
  messages := by
    have hmay := hw.doomed.mayDispatch hstep
    obtain ⟨more, hmore, honce⟩ := hw.messages
    cases hstep with
    | takeMessage m hs hslot hm =>
      refine ⟨more ++ [m], by simp [hmore], ?_⟩
      rw [List.length_append]
      exact honce.use (.inl hs) (by simp [MayDispatch])
    | _ => exact ⟨more, hmore, honce.keep hmay⟩
  permits := by
    have hgranting := hw.doomed.granting hstep
    by_cases ha : a = .grant
    · subst ha
      cases hstep with
      | grant hs => exact hw.permits.use hs (by simp)
      | grantNobody hs => exact hw.permits.use hs (by simp [finish])
    · rw [granted_note ha]
      exact hw.permits.keep hgranting

theorem run_winding (hrun : (start name).run as = some s) (hd : Doomed s)
    (hrest : s.run bs = some t) : Winding s t (s.history bs) := by
  refine run_induction (P := fun _ t h => Winding s t h)
    ⟨hd, .none, ⟨[], by simp, .none⟩, .none⟩ (fun cs u a w hu ih hstep => ?_) hrest
  have hreach : (start name).run (as ++ cs) = some u := by
    rw [run_append, hrun]
    exact hu
  exact winding_step hstep ⟨_, run_balanced hreach⟩ ih

/-! ## The end after a verdict -/

/-- The session `s` returns `why`, its pump having looked at no more than `k` outcomes by then. -/
def ReturnsWithin (k : Nat) (why : SessionEnd) (s : Session) : Prop :=
  s.result? = some why ∨ s.result? = none ∧ ∃ n ≤ k, ∀ closed, ∃ t,
    s.run (List.replicate n .drain ++ [.close closed]) = some t ∧ t.result? = some why

/-- The end `why` of the session `s` is settled: it is on its way out, or is draining outcomes that
went well but for the one it will end with. -/
inductive Sealed (k : Nat) (why : SessionEnd) (s : Session) : Prop where
  | closing (hs : s.stage = .closing why)
  | ended (hs : s.stage = .ended why)
  | draining (fault : StreamFault) (oks rest : List Sent) (hs : s.stage = .draining)
      (hwhy : why = .transport .send fault) (ho : s.outcomes = oks ++ .error fault :: rest)
      (hoks : ∀ outcome ∈ oks, outcome = .ok ()) (hk : oks.length < k)

theorem sealed_of_end (h : s.stage = .closing why ∨ s.stage = .ended why) : Sealed k why s := by
  rcases h with h | h
  · exact .closing h
  · exact .ended h

theorem sealed_step (hstep : Step s a t) (hsealed : Sealed k why s) : Sealed k why t := by
  cases hsealed with
  | closing hs => exact sealed_of_end (hstep.keeps_end (.inl hs))
  | ended hs => exact sealed_of_end (hstep.keeps_end (.inr hs))
  | draining fault oks rest hs hwhy ho hoks hk =>
    cases hstep with
    | drainOk rest' hs' ho' =>
      rw [ho] at ho'
      cases oks with
      | nil => cases ho'
      | cons outcome oks =>
        cases ho'
        have hoks' : ∀ outcome ∈ oks, outcome = .ok () := fun o hmem =>
          hoks o (List.mem_cons_of_mem _ hmem)
        exact .draining fault oks rest hs hwhy rfl hoks' (Nat.lt_of_succ_lt hk)
    | drainFault fault' rest' hs' ho' =>
      rw [ho] at ho'
      cases oks with
      | nil =>
        cases ho'
        exact .closing (by rw [hwhy]; rfl)
      | cons outcome oks =>
        cases ho'
        cases hoks _ List.mem_cons_self
    | drained hs' ho' => simp [ho] at ho'
    | report outcome hs' ho' =>
      exact .draining fault oks (rest ++ [outcome]) hs hwhy (by simp [ho]) hoks hk
    | registered _ hs' | refused _ _ hs' | takeLast _ _ hs' | takeMessage _ hs' | missReader hs'
    | takeOk _ hs' | takeFault _ _ hs' | accept _ hs' | reject _ _ hs' | grant hs' | grantNobody hs'
    | close _ _ hs' => cases hs.symm.trans hs'
    | _ => exact .draining fault oks rest hs hwhy ho hoks hk

theorem run_drains {oks rest : List Sent} (hs : s.stage = .draining)
    (ho : s.outcomes = oks ++ .error fault :: rest) (hoks : ∀ outcome ∈ oks, outcome = .ok ()) :
    ∃ t, s.run (List.replicate (oks.length + 1) .drain) = some t ∧
      t.stage = .closing (.transport .send fault) := by
  induction oks generalizing s with
  | nil =>
    refine ⟨{ s with outcomes := rest }.finish (.transport .send fault), ?_, rfl⟩
    rw [List.nil_append] at ho
    simp [run, step, hs, ho, check]
  | cons outcome oks ih =>
    -- an outcome that went well takes one drain and leaves the session draining
    obtain rfl := hoks outcome List.mem_cons_self
    have hstep : s.step .drain = some { s with outcomes := oks ++ .error fault :: rest } := by
      rw [List.cons_append] at ho
      simp [step, hs, ho, check]
    obtain ⟨t, hrun, ht⟩ := ih (s := { s with outcomes := oks ++ .error fault :: rest }) hs rfl
      fun o hmem => hoks o (List.mem_cons_of_mem _ hmem)
    refine ⟨t, ?_, ht⟩
    rw [List.length_cons, List.replicate_succ, run, hstep]
    exact hrun

theorem run_close (hs : s.stage = .closing why) (closed : Sent) :
    ∃ t, s.run [.close closed] = some t ∧ t.result? = some why :=
  ⟨{ s with stage := .ended why }, by simp [run, step, hs], rfl⟩

theorem Sealed.returnsWithin (hsealed : Sealed k why s) : ReturnsWithin k why s := by
  cases hsealed with
  | ended hs => exact .inl (by simp [result?, hs])
  | closing hs => exact .inr ⟨by simp [result?, hs], 0, Nat.zero_le k, run_close hs⟩
  | draining fault oks rest hs hwhy ho hoks hk =>
    refine .inr ⟨by simp [result?, hs], oks.length + 1, hk, fun closed => ?_⟩
    obtain ⟨u, hrun, hu⟩ := run_drains hs ho hoks
    obtain ⟨t, ht, hresult⟩ := run_close hu closed
    exact ⟨t, by rw [run_append, hrun]; exact ht, hwhy ▸ hresult⟩

theorem exists_firstFault {outcomes : List Sent} (hmem : .error fault ∈ outcomes) :
    ∃ first, FirstFault first outcomes := by
  induction outcomes with
  | nil => cases hmem
  | cons outcome outcomes ih =>
    rcases outcome with first | ⟨⟨⟩⟩
    · exact ⟨first, [], outcomes, rfl, by simp⟩
    · have hmem' : .error fault ∈ outcomes := by simpa using hmem
      obtain ⟨first, oks, rest, rfl, hoks⟩ := ih hmem'
      exact ⟨first, .ok () :: oks, rest, rfl, by simpa using hoks⟩

/-- How a session ends whose handler gives a verdict when `fault` is the first failed send. -/
def endAfter (fault : StreamFault) : Verdict → SessionEnd
  | .ok () => .transport .send fault
  | .error refusal => .rejected refusal

theorem handling_of_answer {verdict : Verdict} (hstep : Step u (.answer verdict) v) :
    ∃ m, u.stage = .handling m := by
  cases hstep with
  | accept m hs | reject m refusal hs => exact ⟨m, hs⟩

theorem sealed_of_answer {verdict : Verdict} (hstep : Step u (.answer verdict) v)
    (hfirst : FirstFault fault u.outcomes) : Sealed u.outcomes.length (endAfter fault verdict) v := by
  obtain ⟨oks, rest, ho, hoks⟩ := hfirst
  cases hstep with
  | accept m hs => exact .draining fault oks rest rfl rfl ho hoks (by simp [ho])
  | reject m refusal hs => exact .closing rfl

/-- The handler's answer finds the turn with the pump, and leaves it there. -/
theorem closed_of_answer {verdict : Verdict} (hrun : (start name).run as = some u)
    (hstep : Step u (.answer verdict) v) :
    v.dispatched = u.dispatched ∧ ¬ BetweenMessages v ∧ ¬ MayDispatch v := by
  obtain ⟨owed, turn, -⟩ := run_balanced hrun
  obtain ⟨m, hs⟩ := handling_of_answer hstep
  obtain ⟨hr, -, hp, -⟩ := turn.of_handling hs
  cases hstep with
  | accept => exact ⟨rfl, by simp [BetweenMessages, hr, hp], by simp [MayDispatch]⟩
  | reject => exact ⟨rfl, by simp [BetweenMessages, finish, hr, hp], by simp [MayDispatch, finish]⟩

theorem run_sealed (hsealed : Sealed k why s) (hrest : s.run bs = some t) : Sealed k why t :=
  run_induction (P := fun _ t _ => Sealed k why t) hsealed
    (fun _ _ _ _ _ ih hstep => sealed_step hstep ih) hrest

/-- **A failed reply stops the session promptly.** If it has been reported when the handler answers,
no receive begins and no message is dispatched after that, and the session ends: for the handler's
refusal, or else for the first failed send. Whenever it is reported, at most one more receive begins,
at most one more message is dispatched, and at most one more permit is given. -/
theorem failed_reply_stops (hrun : (start name).run as = some u) :
    (∀ fault verdict v, .error fault ∈ u.outcomes → u.step (.answer verdict) = some v →
      ∃ m first, u.stage = .handling m ∧ u.dispatched.getLast? = some m ∧
        FirstFault first u.outcomes ∧ ∀ bs t, v.run bs = some t →
          (v.history bs).begun = 0 ∧ t.dispatched = u.dispatched ∧
          ReturnsWithin u.outcomes.length (endAfter first verdict) t) ∧
    (∀ fault v, u.step (.report (.error fault)) = some v → ∀ bs t, v.run bs = some t →
      (v.history bs).begun ≤ 1 ∧
      (∃ more, t.dispatched = u.dispatched ++ more ∧ more.length ≤ 1) ∧
      (v.history bs).granted ≤ 1) := by
  constructor
  · intro fault verdict v hmem hanswer
    have hstep := Step.of_step hanswer
    obtain ⟨m, hs⟩ := handling_of_answer hstep
    obtain ⟨first, hfirst⟩ := exists_firstFault hmem
    obtain ⟨hdispatched, hbetween, hmay⟩ := closed_of_answer hrun hstep
    refine ⟨m, first, hs, run_handling hrun hs, hfirst, fun bs t hrest => ?_⟩
    have hdoomed : Doomed v := doomed_step hstep ⟨by simp [hs], .inr ⟨fault, hmem⟩⟩
    have hw := run_winding (run_concat.2 ⟨u, hrun, hanswer⟩) hdoomed hrest
    obtain ⟨more, hmore, honce⟩ := hw.messages
    obtain rfl := List.length_eq_zero_iff.1 (honce.eq_zero hmay)
    refine ⟨hw.receives.eq_zero hbetween, by rw [hmore, hdispatched, List.append_nil], ?_⟩
    exact (run_sealed (sealed_of_answer hstep hfirst) hrest).returnsWithin
  · intro fault v hreport bs t hrest
    have hstep := Step.of_step hreport
    have hdispatched : v.dispatched = u.dispatched := by cases hstep <;> rfl
    have hw := run_winding (run_concat.2 ⟨u, hrun, hreport⟩) (doomed_of_report hstep) hrest
    obtain ⟨more, hmore, honce⟩ := hw.messages
    exact ⟨hw.receives.le_one, ⟨more, by rw [hmore, hdispatched], honce.le_one⟩, hw.permits.le_one⟩

/-- A run in which a reply fails while the handler has its message. -/
def failedWhileHandling : List Action :=
  [.register (.ok ()), .beginReceive, .receive (.ok { payload := [1] }), .handOver, .takeResult,
    .report (.error .closed)]

theorem failed_reply_stops_failedWhileHandling : ∃ u v first,
    (start "mycc").run failedWhileHandling = some u ∧ u.step (.answer (.ok ())) = some v ∧
    FirstFault first [.error .closed] ∧ ∀ bs t, v.run bs = some t →
      (v.history bs).begun = 0 ∧ t.dispatched = [{ payload := [1] }] ∧
      ReturnsWithin 1 (.transport .send first) t := by
  obtain ⟨u, v, hrun, hanswer, ho, hd⟩ : ∃ u v, (start "mycc").run failedWhileHandling = some u ∧
      u.step (.answer (.ok ())) = some v ∧ u.outcomes = [.error .closed] ∧
      u.dispatched = [{ payload := [1] }] := ⟨_, _, rfl, rfl, rfl, rfl⟩
  obtain ⟨m, first, -, -, hfirst, hafter⟩ :=
    (failed_reply_stops hrun).1 .closed (.ok ()) v (by simp [ho]) hanswer
  rw [ho] at hfirst hafter
  rw [hd] at hafter
  exact ⟨u, v, first, hrun, hanswer, hfirst, hafter⟩

end Chaincode.Session
