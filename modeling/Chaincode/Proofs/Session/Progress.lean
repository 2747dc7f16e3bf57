import Mathlib.Data.Set.Finite.Basic
import Chaincode.Proofs.Session.Refinement

/-!
# Sessions come to an end

A bound on how long a session can go on, and a step to take for as long as it has not returned.
-/

/-!
## How long a session can go on

Every place of the two tasks has a weight, larger than those of the places it leads to. A step takes
some weight away, unless it is a receive or a report, and these two add a bounded amount
(`weight_step`). A session receives nothing after a last result (`received_length_le`). So the length
of a run is bounded by the messages that come in before the first last result and by the reports
(`run_length_le`), and no run is infinite (`not_infinite`).
-/

namespace Chaincode.Session

variable {s t : Session} {h : History} {a : Action} {name : String} {as : List Action} {n : Nat}
  {inbound : Stream'.Seq Received}

/-! ### Weights -/

/-- More than the reader has left to do before its next result, and with a result in hand more than
the session has left to do with it. -/
def Reader.weight : Reader → Nat
  | .unstarted | .stopped => 0
  | .receiving | .waiting => 1
  | .ready => 2
  | .holding _ => 8

/-- More than the pump has left to do until it selects again. -/
def Stage.weight : Stage → Nat
  | .ended _ | .cancelled => 0
  | .closing _ => 1
  | .selecting => 2
  | .registering _ | .granting => 5
  | .draining => 6
  | .handling _ => 7

/-- The weight of a session: what it has left to do without another receive or report. -/
def weight (s : Session) : Nat :=
  s.stage.weight + s.reader.weight + 6 * s.slot.toList.length + 2 * s.permit.toNat +
    s.outcomes.length

/-- What an action may cost: what it adds to the weight, and itself. -/
def Action.cost : Action → Nat
  | .receive _ => 8
  | .report _ => 2
  | _ => 0

theorem weight_step (hstep : Step s a t) : t.weight + 1 ≤ s.weight + a.cost := by
  cases hstep with
  | registered m hs => simp only [weight, hs, Stage.weight, Reader.weight]; omega
  | refused m fault hs | missReader hs | accept m hs | reject m refusal hs | drained hs
  | grantNobody hs | close why outcome hs =>
    simp only [weight, finish, hs, Stage.weight]; omega
  | takeLast result why hs hslot | takeMessage m hs hslot =>
    simp only [weight, finish, hs, hslot, Stage.weight, Option.toList, List.length]; omega
  | takeOk rest hs ho | takeFault fault rest hs ho | drainOk rest hs ho | drainFault fault rest hs ho =>
    simp only [weight, finish, hs, ho, Stage.weight, List.length]; omega
  | grant hs hr hp => simp only [weight, hs, hp, Stage.weight, Bool.toNat_true]; omega
  | beginReceive hr | crash hr | discard result hr | giveUp hr =>
    simp only [weight, hr, Reader.weight]; omega
  | receive result hr => simp only [weight, hr, Reader.weight, Action.cost]; omega
  | handOver result hr ho hslot =>
    have hreader : s.reader.weight = 8 := by simp [hr, Reader.weight]
    have hnext : (if isLast result then Reader.stopped else .waiting).weight ≤ 1 := by
      split <;> simp [Reader.weight]
    simp only [weight, hslot, Option.toList, List.length]; omega
  | takePermit hr hp =>
    simp only [weight, hr, hp, Reader.weight, Bool.toNat_true, Bool.toNat_false]; omega
  | abort hr hr' =>
    have hreader : 1 ≤ s.reader.weight := by cases h : s.reader <;> simp_all [Reader.weight]
    have hstopped : Reader.stopped.weight = 0 := rfl
    simp only [weight]; omega
  | report outcome =>
    simp only [weight, Action.cost, List.length_append, List.length]; omega
  | drop outcome => simp only [Action.cost]; omega

/-! ### Nothing after a last result -/

/-- Has the reader come to a last result, so that it will receive nothing more? -/
def Reader.IsDone : Reader → Prop
  | .holding result => isLast result = true
  | .stopped => True
  | _ => False

/-- Only the latest of the results can be a last one, and then the reader is done. -/
structure Exhausting (s : Session) (h : History) : Prop where
  earlier : ∀ result ∈ h.received.dropLast, isLast result = false
  of_last : ∀ result ∈ h.received, isLast result = true → s.reader.IsDone

theorem Exhausting.of_not_done (hex : Exhausting s h) (hr : ¬ s.reader.IsDone) :
    ∀ result ∈ h.received, isLast result = false := by
  intro result hmem
  by_contra hlast
  exact hr (hex.of_last result hmem (by simpa using hlast))

theorem Exhausting.of_eq (hex : Exhausting s h) {h' : History} (hh : h'.received = h.received)
    (hr : s.reader.IsDone → t.reader.IsDone) : Exhausting t h' where
  earlier := hh ▸ hex.earlier
  of_last := hh ▸ fun result hmem hlast => hr (hex.of_last result hmem hlast)

theorem exhausting_step (hstep : Step s a t)
    (hreg : ∀ m, s.stage = .registering m → s.reader = .unstarted) (hex : Exhausting s h) :
    Exhausting t (h.note s a) := by
  cases hstep with
  | receive result hr =>
    have hnone := hex.of_not_done (by simp [hr, Reader.IsDone])
    constructor
    · simpa [History.note] using hnone
    · intro last hmem hlast
      rcases List.mem_append.1 hmem with hmem | hmem
      · simp [hnone last hmem] at hlast
      · rw [List.mem_singleton] at hmem
        exact hmem ▸ hlast
  | registered m hs => exact hex.of_eq rfl (by simp [hreg m hs, Reader.IsDone])
  | beginReceive hr | takePermit hr => exact hex.of_eq rfl (by simp [hr, Reader.IsDone])
  | handOver result hr => exact hex.of_eq rfl (by cases hl : isLast result <;> simp [hr, hl, Reader.IsDone])
  | crash | discard | giveUp | abort => exact hex.of_eq rfl fun _ => trivial
  | report outcome hs ho | drop outcome ho => exact hex.of_eq (by simp [History.note, ho]) id
  | _ => exact hex.of_eq rfl id

theorem run_exhausting (hrun : (start name).run as = some s) :
    Exhausting s ((start name).history as) :=
  run_induction (P := fun _ s h => Exhausting s h) ⟨by simp, by simp⟩
    (fun _ _ _ _ hs ih hstep =>
      exhausting_step hstep (fun _ hm => reader_of_registering (run_balanced hs) hm) ih) hrun

/-- What comes in ends with its `n`th result, counted from zero: the peer hangs up, the stream fails,
or an empty message arrives. -/
def EndsAt (inbound : Stream'.Seq Received) (n : Nat) : Prop :=
  (∃ fault, inbound.get? n = some (.error fault)) ∨ inbound.get? n = some (.ok {})

theorem EndsAt.exists_last (hend : EndsAt inbound n) :
    ∃ last, inbound.get? n = some last ∧ isLast last = true := by
  rcases hend with ⟨fault, hn⟩ | hn
  · exact ⟨_, hn, rfl⟩
  · exact ⟨_, hn, rfl⟩

theorem EndsAt.length_le (hend : EndsAt inbound n) {results : List Received}
    (hdraws : ∀ i result, results[i]? = some result → inbound.get? i = some result)
    (hresults : ∀ result ∈ results, isLast result = false) : results.length ≤ n := by
  obtain ⟨last, hn, hlast⟩ := hend.exists_last
  by_contra hlt
  obtain ⟨result, hi⟩ : ∃ result, results[n]? = some result :=
    ⟨_, List.getElem?_eq_getElem (Nat.lt_of_not_le hlt)⟩
  have heq : result = last := Option.some.inj ((hdraws n result hi).symm.trans hn)
  have hnot := hresults result (List.mem_of_getElem? hi)
  rw [heq, hlast] at hnot
  cases hnot

theorem received_length_le (hrun : (start name).run as = some s)
    (hdraws : ((start name).history as).DrawsFrom inbound) (hend : EndsAt inbound n) :
    ((start name).history as).received.length ≤ n + 1 := by
  have hearlier := hend.length_le (fun i result hi => hdraws i result ?_) (run_exhausting hrun).earlier
  · rw [List.length_dropLast] at hearlier
    omega
  · rw [List.getElem?_dropLast] at hi
    split at hi
    · exact hi
    · cases hi

/-! ### Runs -/

def Action.isReport : Action → Bool
  | .report _ => true
  | _ => false

theorem run_weight (hrun : (start name).run as = some s) :
    as.length + s.weight ≤
      5 + 8 * ((start name).history as).received.length + 2 * as.countP Action.isReport := by
  refine run_induction (P := fun as s h =>
    as.length + s.weight ≤ 5 + 8 * h.received.length + 2 * as.countP Action.isReport)
    (by rw [start_eq]; simp [weight, Stage.weight, Reader.weight])
    (fun as s a t _ ih hstep => ?_) hrun
  have hcost : 8 * ((start name).history as).received.length + a.cost ≤
      8 * (((start name).history as).note s a).received.length + 2 * [a].countP Action.isReport := by
    cases a with
    | receive result => simp [History.note, Action.cost, Action.isReport]; omega
    | report outcome =>
      simp only [History.note, Action.cost]
      split <;> simp [Action.isReport]
    | _ => simp [History.note, Action.cost]
  have hweight := weight_step hstep
  rw [List.length_append, List.countP_append, List.length_singleton]
  omega

theorem run_length_le (hrun : (start name).run as = some s)
    (hdraws : ((start name).history as).DrawsFrom inbound) (hend : EndsAt inbound n) :
    as.length ≤ 8 * n + 13 + 2 * as.countP Action.isReport := by
  have hweight := run_weight hrun
  have hreceived := received_length_le hrun hdraws hend
  omega

/-- The first `k` of the actions. -/
def firstOf (k : Nat) (actions : Nat → Action) : List Action := (List.range k).map actions

theorem countP_firstOf_le {actions : Nat → Action} (hreports : {k | (actions k).isReport}.Finite)
    (k : Nat) : (firstOf k actions).countP Action.isReport ≤ hreports.toFinset.card := by
  rw [firstOf, List.countP_map, List.countP_eq_length_filter,
    ← List.toFinset_card_of_nodup (List.nodup_range.filter _)]
  refine Finset.card_le_card fun i hi => ?_
  rw [List.mem_toFinset, List.mem_filter] at hi
  exact hreports.mem_toFinset.2 hi.2

theorem not_infinite (hend : EndsAt inbound n) {actions : Nat → Action}
    (hreports : {k | (actions k).isReport}.Finite) :
    ¬ ∀ k, ∃ s, (start name).run (firstOf k actions) = some s ∧
      ((start name).history (firstOf k actions)).DrawsFrom inbound := by
  intro hrun
  obtain ⟨s, hs, hdraws⟩ := hrun (8 * n + 14 + 2 * hreports.toFinset.card)
  have hlength := run_length_le hs hdraws hend
  have hcount := countP_firstOf_le hreports (8 * n + 14 + 2 * hreports.toFinset.card)
  rw [firstOf, List.length_map, List.length_range, ← firstOf] at hlength
  omega

end Chaincode.Session

/-!
## Sessions end and do not get stuck

In every state of a session that has not returned, the reader or the pump has a step to take, and it
waits neither for a report nor for anybody's reply (`exists_own_step`). While no message is with the
handler, each such step brings the result that comes next nearer to the pump (`nearing_step`). So that
result is dispatched or the session returns, whichever steps are taken (`Inevitable`). Together with
the bound on runs this is `ends_without_deadlock`.
-/

namespace Chaincode.Session

variable {s s₀ t : Session} {h : History} {a : Action} {name : String} {as : List Action} {n : Nat}
  {inbound : Stream'.Seq Received} {crashed : Prop} {owed : Nat} {next : Option Received}
  {result : Received}

/-! ### Steps of the session's own -/

/-- Is this a step that the reader and the pump take without anybody's report, `next` being what the
next receive comes to? The answers of the stream and of the handler that they wait for are such
steps. -/
def Action.IsOwn (next : Option Received) : Action → Prop
  | .receive result => next = some result
  | .crash | .report _ => False
  | _ => True

theorem exists_own_step (turn : InTurn crashed s owed) (hs : s.stage ≠ .cancelled)
    (hnext : s.reader = .receiving → next.isSome) :
    (∃ why, s.result? = some why) ∨ ∃ a t, a.IsOwn next ∧ s.step a = some t := by
  obtain ⟨stage, reader, slot, permit, outcomes, dispatched⟩ := s
  simp only [InTurn] at turn
  cases turn with
  | registering m => exact .inr ⟨.register (.ok ()), _, trivial, rfl⟩
  | ready => exact .inr ⟨.beginReceive, _, trivial, rfl⟩
  | receiving =>
    obtain ⟨result, hresult⟩ := Option.isSome_iff_exists.1 (hnext rfl)
    exact .inr ⟨.receive result, _, hresult, rfl⟩
  | holding result => exact .inr ⟨.handOver, _, trivial, rfl⟩
  | handed result hl | handedLast result hl => exact .inr ⟨.takeResult, _, trivial, rfl⟩
  | lost hc => exact .inr ⟨.takeResult, _, trivial, rfl⟩
  | handling m => exact .inr ⟨.answer (.ok ()), _, trivial, rfl⟩
  | draining =>
    cases outcomes with
    | nil => exact .inr ⟨.drain, _, trivial, rfl⟩
    | cons outcome rest => exact .inr ⟨.drain, _, trivial, rfl⟩
  | granting => exact .inr ⟨.grant, _, trivial, rfl⟩
  | granted => exact .inr ⟨.takePermit, _, trivial, rfl⟩
  | finished ho =>
    cases stage with
    | closing why => exact .inr ⟨.close (.ok ()), _, trivial, rfl⟩
    | ended why => exact .inl ⟨why, rfl⟩
    | cancelled => exact absurd rfl hs
    | _ => cases ho

theorem run_not_cancelled (hrun : (start name).run as = some s) : s.stage ≠ .cancelled := by
  intro hs
  simpa only [Accounted, hs] using run_accounted hrun

theorem returned_of_stuck (hrun : (start name).run as = some s)
    (hdraws : ((start name).history as).DrawsFrom inbound) (hend : EndsAt inbound n)
    (hstuck : ∀ a, a.IsOwn (inbound.get? ((start name).history as).received.length) →
      s.step a = none) : ∃ why, s.result? = some why := by
  obtain ⟨owed, turn, -⟩ := run_balanced hrun
  have hnext : s.reader = .receiving →
      (inbound.get? ((start name).history as).received.length).isSome := by
    intro hr
    have hresults := (run_exhausting hrun).of_not_done (by simp [hr, Reader.IsDone])
    obtain ⟨last, hn, -⟩ := hend.exists_last
    obtain ⟨result, hresult⟩ := inbound.ge_stable (hend.length_le hdraws hresults) hn
    exact Option.isSome_iff_exists.2 ⟨result, hresult⟩
  rcases exists_own_step turn (run_not_cancelled hrun) hnext with hreturned | ⟨a, t, ha, hstep⟩
  · exact hreturned
  · rw [hstuck a ha] at hstep
    cases hstep

/-! ### The way to the next result -/

/-- The results that have been received and that the pump has not taken. -/
def pending (s : Session) : List Received := s.slot.toList ++ s.reader.held

/-- The result that comes to the pump next, `next` being what the next receive comes to. -/
def upcoming (s : Session) (next : Received) : Received := s.pending.headD next

/-- From `s` on, the reader and the pump come to `goal` by steps of their own, whichever of these they
take. -/
inductive Inevitable (next : Option Received) (goal : Session → Prop) : Session → Prop where
  | here {s : Session} (hgoal : goal s) : Inevitable next goal s
  | later {s : Session} (hcan : ∃ a t, a.IsOwn next ∧ s.step a = some t)
      (hall : ∀ a t, a.IsOwn next → s.step a = some t → Inevitable next goal t) :
      Inevitable next goal s

/-- The result is a message and was dispatched after those that `s₀` had dispatched, or the session
has returned. -/
def Passed (s₀ : Session) (result : Received) (s : Session) : Prop :=
  (∃ m, result = .ok m ∧ s.stage = .handling m ∧ s.dispatched = s₀.dispatched ++ [m]) ∨
    ∃ why, s.result? = some why

/-- Can a reader at this point come to a result? -/
def Reader.expects : Reader → Bool
  | .holding _ | .stopped => false
  | _ => true

/-- The cost of the receive that may come before the pump has its next result. -/
def allowance (s : Session) : Nat := if s.slot.isNone && s.reader.expects then 8 else 0

theorem allowance_step {next : Received} (hstep : Step s a t) (ha : a.IsOwn (some next))
    (turn : InTurn crashed s owed) (ht : ∀ m, t.stage ≠ .handling m) :
    t.allowance + a.cost ≤ s.allowance := by
  cases hstep with
  | takeMessage m => exact absurd rfl (ht m)
  | crash | report | drop => cases ha
  | registered m hs =>
    obtain ⟨hr, -⟩ := turn.of_registering hs
    simp [allowance, hr, Reader.expects, Action.cost]
  | receive result hr =>
    obtain ⟨hslot, -⟩ := turn.leftover.of_busy (by simp [hr, Reader.IsIdle])
    simp [allowance, hr, hslot, Reader.expects, Action.cost]
  | beginReceive hr | takePermit hr => simp [allowance, hr, Reader.expects, Action.cost]
  | handOver | discard | giveUp | abort => simp [allowance, Reader.expects, Action.cost]
  | takeLast result why hs hslot hw =>
    -- the reader has stopped, so that nothing is allowed for it although the slot is empty again
    obtain ⟨-, -, -, hr⟩ := turn.of_slot hslot (by simp [hs, Stage.isOver])
    simp [isLast_eq_isSome_ending?, hw] at hr
    simp [allowance, finish, hr, Reader.expects, Action.cost]
  | _ => exact Nat.le_refl _

theorem Step.handling {m : Envelope} (hstep : Step s a t) (ht : t.stage = .handling m) :
    s.stage = .handling m ∨
      s.stage = .selecting ∧ s.slot = some (.ok m) ∧ t.dispatched = s.dispatched ++ [m] := by
  cases hstep with
  | takeMessage m' hs hslot => cases ht; exact .inr ⟨hs, hslot, rfl⟩
  | registered | refused | takeLast | missReader | takeFault | accept | reject | drainFault | drained
  | grant | grantNobody | close => cases ht
  | _ => exact .inl ht

theorem upcoming_step {next : Received} (hstep : Step s a t) (ha : a.IsOwn (some next))
    (turn : InTurn crashed s owed) (ht : ∀ m, t.stage ≠ .handling m) (ho : t.stage.isOver = false) :
    t.dispatched = s.dispatched ∧ t.upcoming next = s.upcoming next := by
  cases hstep with
  | takeMessage m => exact absurd rfl (ht m)
  | crash | report | drop => cases ha
  | refused | takeLast | missReader | takeFault | reject | drainFault | grantNobody | close => cases ho
  | discard result hr ho' | giveUp hr hp ho' | abort hr hr' ho' => simp [ho'] at ho
  | registered m hs =>
    obtain ⟨hr, -⟩ := turn.of_registering hs
    simp [upcoming, pending, hr]
  | receive result hr =>
    obtain ⟨hslot, -⟩ := turn.leftover.of_busy (by simp [hr, Reader.IsIdle])
    cases ha
    simp [upcoming, pending, hr, hslot]
  | beginReceive hr | takePermit hr => simp [upcoming, pending, hr]
  | handOver result hr ho' hslot =>
    cases hl : isLast result <;> simp [upcoming, pending, hr, hslot]
  | _ => exact ⟨rfl, rfl⟩

theorem Step.not_cancelled (hstep : Step s a t) (hs : s.stage ≠ .cancelled) :
    t.stage ≠ .cancelled := by
  cases hstep with
  | registered | refused | takeLast | takeMessage | missReader | takeFault | accept | reject
  | drainFault | drained | grant | grantNobody | close => simp [finish]
  | _ => exact hs

theorem Step.isOver (hstep : Step s a t) (hs : s.stage ≠ .cancelled) (ho : s.stage.isOver = true) :
    t.stage.isOver = true := by
  obtain ⟨why, hend⟩ : ∃ why, s.stage = .closing why ∨ s.stage = .ended why := by
    cases h : s.stage with
    | closing why => exact ⟨why, .inl rfl⟩
    | ended why => exact ⟨why, .inr rfl⟩
    | cancelled => exact absurd h hs
    | _ => simp [h, Stage.isOver] at ho
  rcases hstep.keeps_end hend with ht | ht <;> simp [ht, Stage.isOver]

/-- Nothing has come between `s₀` and `s` but steps towards the result that comes next, unless the
session is over. -/
structure Nearing (s₀ : Session) (next : Received) (s : Session) : Prop where
  balanced : ∃ crashed h, Balanced crashed s h
  not_cancelled : s.stage ≠ .cancelled
  not_handling : ∀ m, s.stage ≠ .handling m
  same : s.stage.isOver = false → s.dispatched = s₀.dispatched ∧ s.upcoming next = s₀.upcoming next

theorem nearing_step {next : Received} (hstep : Step s a t) (ha : a.IsOwn (some next))
    (hnear : Nearing s₀ next s) :
    Passed s₀ (s₀.upcoming next) t ∨
      Nearing s₀ next t ∧ t.weight + t.allowance < s.weight + s.allowance := by
  have hweight := weight_step hstep
  obtain ⟨crashed, h, hb⟩ := hnear.balanced
  have hb' := balanced_step hstep (by rintro rfl; exact ha.elim) hb
  obtain ⟨owed, turn, -⟩ := hb
  by_cases hm : ∃ m, t.stage = .handling m
  · obtain ⟨m, ht⟩ := hm
    rcases hstep.handling ht with hs | ⟨hs, hslot, hdispatched⟩
    · exact absurd hs (hnear.not_handling m)
    · obtain ⟨hsame, hupcoming⟩ := hnear.same (by simp [hs, Stage.isOver])
      refine .inl (.inl ⟨m, ?_, ht, by rw [hdispatched, hsame]⟩)
      rw [← hupcoming]
      simp [upcoming, pending, hslot]
  · have ht : ∀ m, t.stage ≠ .handling m := fun m ht => hm ⟨m, ht⟩
    have hallowance := allowance_step hstep ha turn ht
    refine .inr ⟨⟨⟨_, _, hb'⟩, hstep.not_cancelled hnear.not_cancelled, ht, fun ho => ?_⟩, by omega⟩
    have hs : s.stage.isOver = false := by
      by_contra hs
      simp [hstep.isOver hnear.not_cancelled (by simpa using hs)] at ho
    obtain ⟨hdispatched, hupcoming⟩ := upcoming_step hstep ha turn ht ho
    exact ⟨hdispatched.trans (hnear.same hs).1, hupcoming.trans (hnear.same hs).2⟩

theorem inevitable_of_nearing {next : Received} (hnear : Nearing s₀ next s) :
    Inevitable (some next) (Passed s₀ (s₀.upcoming next)) s := by
  induction hleft : s.weight + s.allowance using Nat.strongRecOn generalizing s with
  | ind left ih =>
    obtain ⟨crashed, h, owed, turn, -⟩ := hnear.balanced
    have hnext : s.reader = .receiving → (some next).isSome := fun _ => rfl
    rcases exists_own_step turn hnear.not_cancelled hnext with hreturned | hcan
    · exact .here (.inr hreturned)
    · refine .later hcan fun a t ha hstep => ?_
      rcases nearing_step (.of_step hstep) ha hnear with hpassed | ⟨hnear', hlt⟩
      · exact .here hpassed
      · exact ih _ (hleft ▸ hlt) hnear' rfl

/-- A result that is there is dispatched or ends the session, without anybody's report. -/
theorem inevitable_upcoming (hrun : (start name).run as = some s) (hs : ∀ m, s.stage ≠ .handling m)
    (next : Received) : Inevitable (some next) (Passed s (s.upcoming next)) s :=
  inevitable_of_nearing
    ⟨⟨_, _, run_balanced hrun⟩, run_not_cancelled hrun, hs, fun _ => ⟨rfl, rfl⟩⟩

/-- **Sessions end and never deadlock, however slow the replies.** Let what comes in end with its
`n`th result. Then no run is infinite in which finitely many outcomes are reported, whatever the
schedule; and a session whose reader and pump have no step left has returned a cause. Nobody's report
is needed for that: in every state without a message at the handler, the steps of the reader and the
pump alone, in whatever order, get the result that comes next dispatched or the session returned. -/
theorem ends_without_deadlock (hend : EndsAt inbound n) :
    (∀ as s, (start name).run as = some s → ((start name).history as).DrawsFrom inbound →
      as.length ≤ 8 * n + 13 + 2 * as.countP Action.isReport) ∧
    (∀ actions : Nat → Action, {k | (actions k).isReport}.Finite →
      ¬ ∀ k, ∃ s, (start name).run (firstOf k actions) = some s ∧
        ((start name).history (firstOf k actions)).DrawsFrom inbound) ∧
    (∀ as s, (start name).run as = some s → ((start name).history as).DrawsFrom inbound →
      (∀ a, a.IsOwn (inbound.get? ((start name).history as).received.length) → s.step a = none) →
      ∃ why, s.result? = some why) ∧
    ∀ as s next, (start name).run as = some s → (∀ m, s.stage ≠ .handling m) →
      Inevitable (some next) (Passed s (s.upcoming next)) s :=
  ⟨fun _ _ hrun hdraws => run_length_le hrun hdraws hend,
    fun _ hreports => not_infinite hend hreports,
    fun _ _ hrun hdraws hstuck => returned_of_stuck hrun hdraws hend hstuck,
    fun _ _ next hrun hs => inevitable_upcoming hrun hs next⟩

/-- A run up to the acceptance of a message whose reply nobody reports. -/
def silentReply : List Action :=
  [.register (.ok ()), .beginReceive, .receive (.ok { payload := [1] }), .handOver, .takeResult,
    .answer (.ok ())]

theorem ends_without_deadlock_silentReply : EndsAt (.ofList oneMessage) 1 ∧
    oneMessageRun.length ≤ 23 ∧ ∃ s, (start "mycc").run silentReply = some s ∧
      Inevitable (some (.error .closed)) (Passed s (.error .closed)) s := by
  have hend : EndsAt (.ofList oneMessage) 1 := .inl ⟨.closed, rfl⟩
  obtain ⟨s, hrun, hs, hupcoming⟩ : ∃ s, (start "mycc").run silentReply = some s ∧
      s.stage = .draining ∧ s.upcoming (.error .closed) = .error .closed := ⟨_, rfl, rfl, rfl⟩
  have hinevitable :=
    (ends_without_deadlock hend).2.2.2 silentReply s (.error .closed) hrun (by simp [hs])
  rw [hupcoming] at hinevitable
  obtain ⟨s', hrun'⟩ : ∃ s', (start "mycc").run oneMessageRun = some s' := ⟨_, rfl⟩
  refine ⟨hend, (ends_without_deadlock hend).1 oneMessageRun s' hrun' ?_, s, hrun, hinevitable⟩
  intro i result hi
  rw [Stream'.Seq.ofList_get?]
  exact hi

end Chaincode.Session
