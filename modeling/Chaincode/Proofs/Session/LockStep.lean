import Chaincode.Proofs.Session.Cause

/-!
# Receiving in lock step

A session begins a receive only when it is done with the message of the receive before: the handler
has accepted it and the outcomes reported until then have been looked at (`Settled`). At any time it
holds at most one message, and neither of its two slots is ever in the way of the other task. This is
`LockStep`, and it holds in every state of every session whose receives come to something
(`lock_step`).
-/

namespace Chaincode.Session

variable {s t u : Session} {h : History} {a : Action} {name : String} {as before : List Action}
  {k : Nat} {crashed : Prop}

/-! ## The state before the next receive -/

/-- The handler accepts the message of the `k`th receive in the state `u` after `before`. -/
structure Answered (name : String) (as : List Action) (k : Nat) (before : List Action) (u : Session) :
    Prop where
  run : (start name).run before = some u
  answer : before ++ [.answer (.ok ())] <+: as
  count : ((start name).history before).received.length = k
  message : ∃ m, u.stage = .handling m ∧
    ((start name).history before).received.getLast? = some (.ok m)

/-- The handler has accepted the message of the `k`th receive, and every outcome that had been
reported by then has been looked at and was no fault. -/
structure Settled (name : String) (as : List Action) (h : History) (k : Nat) (before : List Action)
    (u : Session) : Prop extends Answered name as k before u where
  outcomes : ∀ outcome ∈ u.outcomes, outcome = .ok ()
  checked : ((start name).history before).checked ++ u.outcomes <+: h.checked

/-- What the actions so far have settled. -/
structure Settling (name : String) (as : List Action) (s : Session) (h : History) : Prop where
  of_draining : s.stage = .draining → ∃ before u, Answered name as h.begun before u ∧
    ((start name).history before).reported <+: h.reported
  of_between : BetweenMessages s → h.begun = 0 ∨ ∃ before u, Settled name as h h.begun before u

theorem checked_prefix_note : h.checked <+: (h.note s a).checked := by
  cases a with
  | takeOutcome | drain => exact List.prefix_append _ _
  | report outcome =>
    simp only [History.note]
    split <;> exact List.prefix_rfl
  | _ => exact List.prefix_rfl

theorem reported_prefix_note : h.reported <+: (h.note s a).reported := by
  cases a with
  | report outcome =>
    simp only [History.note]
    split
    · exact List.prefix_rfl
    · exact List.prefix_append _ _
  | _ => exact List.prefix_rfl

theorem Answered.concat (hans : Answered name as k before u) : Answered name (as ++ [a]) k before u :=
  { hans with answer := hans.answer.trans (List.prefix_append _ _) }

theorem Settled.concat (hset : Settled name as h k before u) :
    Settled name (as ++ [a]) (h.note s a) k before u where
  toAnswered := hset.toAnswered.concat
  outcomes := hset.outcomes
  checked := hset.checked.trans checked_prefix_note

theorem Settling.between_concat (hset : Settling name as s h) (ha : a ≠ .beginReceive)
    (hb : BetweenMessages s) : (h.note s a).begun = 0 ∨
      ∃ before u, Settled name (as ++ [a]) (h.note s a) (h.note s a).begun before u := by
  rw [begun_note ha]
  rcases hset.of_between hb with h0 | ⟨before, u, hs⟩
  · exact .inl h0
  · exact .inr ⟨before, u, hs.concat⟩

theorem answered_of_handling {m : Envelope} (hrun : (start name).run as = some s)
    (hs : s.stage = .handling m) :
    Answered name (as ++ [.answer (.ok ())]) ((start name).history as).begun as s := by
  obtain ⟨owed, turn, -⟩ := run_balanced hrun
  obtain ⟨hr, hslot, -, -⟩ := turn.of_handling hs
  obtain ⟨dropped, lost, hflow⟩ := run_flow hrun
  obtain ⟨rfl, rfl⟩ := hflow.of_reader (by simp [hr])
  obtain ⟨last, htaken, hlast⟩ := run_dispatched hrun
  obtain rfl := hlast (by simp [hs, Stage.isOver])
  have hreceived : ((start name).history as).received = s.dispatched.map .ok := by
    simpa [hslot, hr, htaken] using hflow.results
  refine ⟨hrun, List.prefix_rfl, by simpa [hr] using hflow.begun.symm, m, hs, ?_⟩
  rw [hreceived, List.getLast?_map, run_handling hrun hs]
  rfl

/-- Once the pump finds no outcome any more, those reported before its message was accepted are
among the ones it has looked at. -/
theorem settled_of_drained (hrun : (start name).run as = some s) (hs : s.stage = .draining)
    (ho : s.outcomes = []) (hans : Answered name as k before u)
    (hreported : ((start name).history before).reported <+: ((start name).history as).reported) :
    Settled name as ((start name).history as) k before u := by
  have hchecked : ((start name).history before).checked ++ u.outcomes <+:
      ((start name).history as).checked := by
    rw [run_outcomes hans.run]
    simpa [ho, ← run_outcomes hrun] using hreported
  have hcalm : Calm ((start name).history as).taken ((start name).history as).checked
      ((start name).history as).verdicts := by
    simpa only [Accounted, hs] using run_accounted hrun
  exact ⟨hans, fun outcome hmem => hcalm.outcomes outcome
    (hchecked.subset (List.mem_append_right _ hmem)), hchecked⟩

theorem begun_of_registering {m : Envelope} (hrun : (start name).run as = some s)
    (hs : s.stage = .registering m) : ((start name).history as).begun = 0 := by
  obtain ⟨owed, turn, hbegun⟩ := run_balanced hrun
  obtain ⟨-, -, -, rfl⟩ := turn.of_registering hs
  obtain ⟨-, -, hverdicts⟩ : _ ∧ _ ∧ ((start name).history as).verdicts = [] := by
    simpa only [Accounted, hs] using run_accounted hrun
  simpa [History.accepted, hverdicts] using hbegun

theorem settling_step (hrun : (start name).run as = some s) (hstep : Step s a t)
    (hset : Settling name as s ((start name).history as)) :
    Settling name (as ++ [a]) t (((start name).history as).note s a) := by
  by_cases ha : a = .beginReceive
  · -- the count has moved on, but the turn is with the reader and nothing is claimed of its state
    have hb := balanced_step hstep (by simp [ha]) (run_balanced hrun)
    obtain ⟨hbetween, hdraining⟩ := hb.of_receiving (by cases ha; cases hstep; rfl)
    exact ⟨fun ht => absurd ht hdraining, fun hb => absurd hb hbetween⟩
  refine ⟨fun ht => ?_, fun hb => ?_⟩
  · rw [begun_note ha]
    rcases hstep.draining ht with hs | ⟨m, hs, rfl⟩
    · obtain ⟨before, u, hans, hreported⟩ := hset.of_draining hs
      exact ⟨before, u, hans.concat, hreported.trans reported_prefix_note⟩
    · exact ⟨as, s, answered_of_handling hrun hs, List.prefix_rfl⟩
  · rcases hstep.between hb with hb | ⟨m, hs, rfl⟩ | ⟨hs, ho, rfl⟩
    · exact hset.between_concat ha hb
    · exact .inl (begun_of_registering hrun hs)
    · obtain ⟨before, u, hans, hreported⟩ := hset.of_draining hs
      exact .inr ⟨before, u, (settled_of_drained hrun hs ho hans hreported).concat⟩

theorem run_settling (hrun : (start name).run as = some s) :
    Settling name as s ((start name).history as) := by
  refine run_induction (P := Settling name) ?_ (fun _ _ _ _ hs ih hstep => ?_) hrun
  · rw [start_eq]
    exact ⟨by simp, by simp [BetweenMessages]⟩
  · exact settling_step hs hstep ih

/-! ## Lock step -/

/-- The number of messages that are with the handler. -/
def Stage.withHandler : Stage → Nat
  | .handling _ => 1
  | _ => 0

/-- The reader and the pump of the session `s` are in lock step after the actions `as`. -/
structure LockStep (name : String) (as : List Action) (s : Session) (h : History) : Prop where
  /-- At most one receive is outstanding. -/
  one_receive : h.begun ≤ h.received.length + 1
  of_ready : s.reader = .ready → h.begun = h.received.length
  receives : h.begun = h.accepted ∨ h.begun = h.accepted + 1
  /-- A receive begins only if it is the first or the message of the one before is done with. -/
  settled : ∀ t, s.step .beginReceive = some t →
    h.begun = 0 ∨ ∃ before u, Settled name as h h.begun before u
  one_item : s.slot = none ∨ s.permit = false
  one_message : s.reader.held.length + s.slot.toList.length + s.stage.withHandler ≤ 1
  /-- The reader finds the slot for results empty. -/
  hand_over : ∀ result, s.reader = .holding result → s.stage.isOver = false → s.slot = none
  /-- The pump finds the slot for permits empty, and the reader waiting at it. -/
  grant : s.stage = .granting → s.permit = false ∧ s.reader = .waiting
  /-- The reader stops at a result exactly if the pump does. -/
  exits_agree : ∀ result, s.slot = some result → s.stage.isOver = false →
    (s.reader = .stopped ↔ (s.dispatch result).stage.isOver = true)
  /-- Only a stream that reports the fault itself makes a session end for want of a reader. -/
  reader_gone : s.result? = some (.transport .receive .readerGone) → .error .readerGone ∈ h.received

theorem LockStep.cancel (hlock : LockStep name as s h) : LockStep name as s.cancel h := by
  by_cases hs : ∃ why, s.stage = .ended why
  · obtain ⟨why, hs⟩ := hs
    simpa [Session.cancel, hs] using hlock
  · have hcancel : s.cancel = { s with stage := .cancelled, reader := .stopped } := by
      unfold Session.cancel
      split
      · exact absurd ⟨_, ‹_›⟩ hs
      · rfl
    rw [hcancel]
    exact {
      one_receive := hlock.one_receive
      of_ready := by simp
      receives := hlock.receives
      settled := by simp [step]
      one_item := hlock.one_item
      one_message := by simp [Stage.withHandler]
      hand_over := by simp
      grant := by simp
      exits_agree := by simp [Stage.isOver]
      reader_gone := by simp [result?] }

theorem isOver_dispatch (s : Session) (result : Received) :
    (s.dispatch result).stage.isOver = isLast result := by
  rw [isLast_eq_isSome_ending?]
  cases hw : ending? result with
  | none =>
    obtain ⟨m, rfl, hm⟩ := eq_ok_of_ending? hw
    simp [dispatch, hm, Stage.isOver]
  | some why => simp [dispatch_of_ending? hw, finish, Stage.isOver]

namespace Turn

variable {stage : Stage} {reader : Reader} {slot : Option Received} {permit : Bool} {owed : Nat}

theorem one_message (h : Turn crashed stage reader slot permit owed) :
    reader.held.length + slot.toList.length + stage.withHandler ≤ 1 := by
  cases h with
  | finished ho hl =>
    have hstage : stage.withHandler = 0 := by
      cases stage with
      | handling m => cases ho
      | _ => rfl
    rw [hstage]
    cases slot with
    | none => cases reader <;> simp
    | some result => rcases (hl.of_slot (by simp)).1 with rfl | rfl <;> simp
  | _ => simp [Stage.withHandler]

end Turn

theorem run_reader_gone (hrun : (start name).run as = some s) (hcrash : .crash ∉ as)
    (hwhy : s.result? = some (.transport .receive .readerGone)) :
    .error .readerGone ∈ ((start name).history as).received := by
  have htaken : .error .readerGone ∈ ((start name).history as).taken := by
    cases run_cause hrun hwhy with
    | result before result _ ht hw hcalm => simp [ht, ending?_readerGone hw]
    | reader hc => exact absurd hc hcrash
  obtain ⟨dropped, lost, hflow⟩ := run_flow hrun
  simp [hflow.results, htaken]

theorem Flow.begun_le {dropped : List Received} {lost : Nat} (hflow : Flow s h dropped lost) :
    h.begun ≤ h.received.length + 1 := by
  have hbegun := hflow.begun
  have hlost := hflow.lost_le
  by_cases hr : s.reader = .stopped
  · rw [hr] at hbegun
    simp only [Reader.underWay] at hbegun
    omega
  · obtain ⟨-, rfl⟩ := hflow.of_reader hr
    have hle : s.reader.underWay ≤ 1 := by cases s.reader <;> simp
    omega

theorem Flow.begun_of_ready {dropped : List Received} {lost : Nat} (hflow : Flow s h dropped lost)
    (hr : s.reader = .ready) : h.begun = h.received.length := by
  obtain ⟨-, rfl⟩ := hflow.of_reader (by simp [hr])
  simpa [hr] using hflow.begun

/-- **The reader and the pump work in lock step**, in every state of every session whose receives
come to something. -/
theorem lock_step (hrun : (start name).run as = some s) (hcrash : .crash ∉ as) :
    LockStep name as s ((start name).history as) := by
  obtain ⟨owed, turn, hbegun⟩ := run_balanced hrun
  obtain ⟨dropped, lost, hflow⟩ := run_flow hrun
  exact {
    one_receive := hflow.begun_le
    of_ready := hflow.begun_of_ready
    receives := by
      have howed := turn.leftover.owed_le
      omega
    settled := by
      intro t ht
      cases Step.of_step ht with
      | beginReceive hr => exact (run_settling hrun).of_between (.inr (.inr hr))
    one_item := by
      by_cases hslot : s.slot = none
      · exact .inl hslot
      · exact .inr (turn.leftover.of_slot hslot).2
    one_message := turn.one_message
    hand_over := by
      intro result hr _
      exact (turn.leftover.of_busy (by simp [hr, Reader.IsIdle])).1
    grant := by
      intro hs
      obtain ⟨hr, -, hp, -⟩ := turn.of_granting hs
      exact ⟨hp, hr⟩
    exits_agree := by
      intro result hslot ho
      obtain ⟨-, -, -, hr⟩ := turn.of_slot hslot ho
      rw [isOver_dispatch, hr]
      cases isLast result <;> simp
    reader_gone := run_reader_gone hrun hcrash }

/-- A run up to the second receive. -/
def secondReceive : List Action :=
  [.register (.ok ()), .beginReceive, .receive (.ok { payload := [1] }), .handOver, .takeResult,
    .report (.ok ()), .answer (.ok ()), .drain, .drain, .grant, .takePermit]

theorem lock_step_secondReceive : ∃ s, (start "mycc").run secondReceive = some s ∧
    s.reader = .ready ∧ ((start "mycc").history secondReceive).begun = 1 ∧
    ∃ before u, Settled "mycc" secondReceive ((start "mycc").history secondReceive) 1 before u := by
  obtain ⟨s, hrun, hr, t, ht⟩ : ∃ s, (start "mycc").run secondReceive = some s ∧ s.reader = .ready ∧
      ∃ t, s.step .beginReceive = some t := ⟨_, rfl, rfl, _, rfl⟩
  have hbegun : ((start "mycc").history secondReceive).begun = 1 := rfl
  have hlock := lock_step hrun (by simp [secondReceive])
  rcases hlock.settled t ht with h0 | hsettled
  · simp [hbegun] at h0
  · exact ⟨s, hrun, hr, hbegun, hbegun ▸ hsettled⟩

/-- The fault that stands for a lost reader can also be the stream's own answer to a receive. -/
theorem reader_gone_from_stream : ¬ ∀ name as s, (start name).run as = some s → .crash ∉ as →
    s.result? ≠ some (.transport .receive .readerGone) := by
  intro hnever
  have hrun := hnever "mycc" [.register (.ok ()), .beginReceive, .receive (.error .readerGone),
    .handOver, .takeResult, .close (.ok ())] _ rfl
  exact hrun (by simp) rfl

end Chaincode.Session
