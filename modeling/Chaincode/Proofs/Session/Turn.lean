import Chaincode.Proofs.Session.Step

/-!
# Whose turn it is

The reader and the pump of a session pass a single turn between them. It is with the reader while it
is about to receive, receives, or holds a result; it lies in the slot; it is with the pump from the
dispatch of a message to the permit; it lies in the permit. `Turn` lists these places, and the few
more that are left once the session is over. Every step keeps it (`balanced_step`), and with it the
count of receives: those begun are the messages done with, and at most one more (`run_balanced`).
-/

namespace Chaincode.Session

/-- Does a reader at this point neither receive nor hold a result, nor will without a permit? -/
def Reader.IsIdle (reader : Reader) : Prop := reader = .waiting ∨ reader = .stopped

/-- What the reader and the pump leave behind, `owed` receives being begun whose message is not done
with. -/
structure Leftover (reader : Reader) (slot : Option Received) (permit : Bool) (owed : Nat) : Prop where
  owed_le : owed ≤ 1
  of_ready : reader = .ready → owed = 0
  of_slot : slot ≠ none → reader.IsIdle ∧ permit = false
  of_permit : permit = true → reader.IsIdle ∧ slot = none ∧ owed = 0

namespace Leftover

variable {reader : Reader} {slot : Option Received} {permit : Bool} {owed : Nat}

theorem of_busy (h : Leftover reader slot permit owed) (hr : ¬ reader.IsIdle) :
    slot = none ∧ permit = false := by
  constructor
  · by_contra hslot
    exact hr (h.of_slot hslot).1
  · by_contra hp
    exact hr (h.of_permit (by simpa using hp)).1

theorem of_none (hready : reader = .ready → owed = 0) (hle : owed ≤ 1) :
    Leftover reader none false owed :=
  ⟨hle, hready, by simp, by simp⟩

theorem stop (h : Leftover reader slot permit owed) : Leftover .stopped slot permit owed where
  owed_le := h.owed_le
  of_ready := by simp
  of_slot hslot := ⟨.inr rfl, (h.of_slot hslot).2⟩
  of_permit hp := ⟨.inr rfl, (h.of_permit hp).2⟩

theorem take (h : Leftover reader slot permit owed) (hslot : slot ≠ none) :
    Leftover reader none permit owed := by
  obtain ⟨-, rfl⟩ := h.of_slot hslot
  exact of_none h.of_ready h.owed_le

end Leftover

/-- Where the turn can be, `owed` receives being begun whose message is not done with. The reader can
be lost only if it `crashed`. -/
inductive Turn (crashed : Prop) : Stage → Reader → Option Received → Bool → Nat → Prop where
  | registering (m : Envelope) : Turn crashed (.registering m) .unstarted none false 0
  | ready : Turn crashed .selecting .ready none false 0
  | receiving : Turn crashed .selecting .receiving none false 1
  | holding (result : Received) : Turn crashed .selecting (.holding result) none false 1
  | handed (result : Received) (hl : isLast result = false) :
      Turn crashed .selecting .waiting (some result) false 1
  | handedLast (result : Received) (hl : isLast result = true) :
      Turn crashed .selecting .stopped (some result) false 1
  | lost (hc : crashed) : Turn crashed .selecting .stopped none false 1
  | handling (m : Envelope) : Turn crashed (.handling m) .waiting none false 1
  | draining : Turn crashed .draining .waiting none false 0
  | granting : Turn crashed .granting .waiting none false 0
  | granted : Turn crashed .selecting .waiting none true 0
  | finished {stage : Stage} {reader : Reader} {slot : Option Received} {permit : Bool} {owed : Nat}
      (ho : stage.isOver = true) (hl : Leftover reader slot permit owed) :
      Turn crashed stage reader slot permit owed

namespace Turn

variable {crashed : Prop} {stage : Stage} {reader : Reader} {slot : Option Received} {permit : Bool}
  {owed : Nat}

theorem leftover (h : Turn crashed stage reader slot permit owed) :
    Leftover reader slot permit owed := by
  cases h with
  | finished ho hl => exact hl
  | _ => constructor <;> simp [Reader.IsIdle]

theorem of_registering {m : Envelope} (h : Turn crashed stage reader slot permit owed)
    (hs : stage = .registering m) : reader = .unstarted ∧ slot = none ∧ permit = false ∧ owed = 0 := by
  cases hs
  cases h with
  | registering => exact ⟨rfl, rfl, rfl, rfl⟩
  | finished ho => cases ho

theorem of_handling {m : Envelope} (h : Turn crashed stage reader slot permit owed)
    (hs : stage = .handling m) : reader = .waiting ∧ slot = none ∧ permit = false ∧ owed = 1 := by
  cases hs
  cases h with
  | handling => exact ⟨rfl, rfl, rfl, rfl⟩
  | finished ho => cases ho

theorem of_draining (h : Turn crashed stage reader slot permit owed) (hs : stage = .draining) :
    reader = .waiting ∧ slot = none ∧ permit = false ∧ owed = 0 := by
  cases hs
  cases h with
  | draining => exact ⟨rfl, rfl, rfl, rfl⟩
  | finished ho => cases ho

theorem of_granting (h : Turn crashed stage reader slot permit owed) (hs : stage = .granting) :
    reader = .waiting ∧ slot = none ∧ permit = false ∧ owed = 0 := by
  cases hs
  cases h with
  | granting => exact ⟨rfl, rfl, rfl, rfl⟩
  | finished ho => cases ho

theorem ne_stopped (h : Turn crashed stage reader slot permit owed) (hs : stage = .granting) :
    reader ≠ .stopped := by
  rw [(h.of_granting hs).1]
  simp

/-- A reader that leaves no result when it stops has crashed. -/
theorem of_missing (h : Turn crashed stage reader slot permit owed) (hs : stage = .selecting)
    (hslot : slot = none) (hr : reader = .stopped) : crashed := by
  cases hs
  cases hslot
  cases hr
  cases h with
  | lost hc => exact hc
  | finished ho => cases ho

theorem of_slot {result : Received} (h : Turn crashed stage reader slot permit owed)
    (hslot : slot = some result) (ho : stage.isOver = false) :
    stage = .selecting ∧ permit = false ∧ owed = 1 ∧
      reader = if isLast result then .stopped else .waiting := by
  cases h with
  | handed _ hl | handedLast _ hl =>
    cases hslot
    simp [hl]
  | finished ho' => simp [ho'] at ho
  | _ => cases hslot

end Turn

/-- The turn of the session `s`. -/
def InTurn (crashed : Prop) (s : Session) (owed : Nat) : Prop :=
  Turn crashed s.stage s.reader s.slot s.permit owed

/-- The turn of a session agrees with the receives it has begun and the messages done with. -/
def Balanced (crashed : Prop) (s : Session) (h : History) : Prop :=
  ∃ owed, InTurn crashed s owed ∧ h.begun = h.accepted + owed

variable {crashed : Prop} {s t : Session} {h : History} {a : Action} {owed : Nat}

@[simp] theorem begun_report (outcome : Sent) : (h.note s (.report outcome)).begun = h.begun := by
  simp only [History.note]
  split <;> rfl

theorem begun_note (ha : a ≠ .beginReceive) : (h.note s a).begun = h.begun := by
  cases a with
  | beginReceive => exact absurd rfl ha
  | report outcome => exact begun_report outcome
  | _ => rfl

@[simp] theorem accepted_report (outcome : Sent) :
    (h.note s (.report outcome)).accepted = h.accepted := by
  simp only [History.note]
  split <;> rfl

@[simp] theorem accepted_accept : (h.note s (.answer (.ok ()))).accepted = h.accepted + 1 := by
  simp [History.note, History.accepted, Except.isOk, Except.toBool]

@[simp] theorem accepted_reject (refusal : Refusal) :
    (h.note s (.answer (.error refusal))).accepted = h.accepted := by
  simp [History.note, History.accepted, Except.isOk, Except.toBool]

theorem balanced_step (hstep : Step s a t) (hc : a = .crash → crashed) (hb : Balanced crashed s h) :
    Balanced crashed t (h.note s a) := by
  obtain ⟨owed, turn, hbegun⟩ := hb
  -- the places of a turn are patterns in these, so that they have to be variables
  obtain ⟨stage, reader, slot, permit, outcomes, dispatched⟩ := s
  simp only [InTurn] at turn
  cases hstep with
  | registered m hs =>
    obtain ⟨rfl, rfl, rfl, rfl⟩ := turn.of_registering hs
    exact ⟨0, .ready, hbegun⟩
  | beginReceive hr =>
    cases hr
    cases turn with
    | ready => exact ⟨1, .receiving, congrArg (· + 1) hbegun⟩
    | finished ho hl =>
      obtain rfl := hl.of_ready rfl
      obtain ⟨rfl, rfl⟩ := hl.of_busy (by simp [Reader.IsIdle])
      exact ⟨1, .finished ho (.of_none (by simp) (by simp)), congrArg (· + 1) hbegun⟩
  | receive result hr =>
    cases hr
    cases turn with
    | receiving => exact ⟨1, .holding result, hbegun⟩
    | finished ho hl =>
      obtain ⟨rfl, rfl⟩ := hl.of_busy (by simp [Reader.IsIdle])
      exact ⟨owed, .finished ho (.of_none (by simp) hl.owed_le), hbegun⟩
  | crash hr =>
    cases hr
    cases turn with
    | receiving => exact ⟨1, .lost (hc rfl), hbegun⟩
    | finished ho hl => exact ⟨owed, .finished ho hl.stop, hbegun⟩
  | handOver result hr ho hslot =>
    cases hr
    cases turn with
    | holding =>
      cases hlast : isLast result with
      | true => exact ⟨1, by simpa [hlast, InTurn] using Turn.handedLast result hlast, hbegun⟩
      | false => exact ⟨1, by simpa [hlast, InTurn] using Turn.handed result hlast, hbegun⟩
    | finished ho' => exact absurd ho' (by simpa using ho)
  | discard result hr ho => exact ⟨owed, .finished ho turn.leftover.stop, hbegun⟩
  | takePermit hr hp =>
    cases hr
    cases hp
    cases turn with
    | granted => exact ⟨0, .ready, hbegun⟩
    | finished ho hl =>
      obtain ⟨-, rfl, rfl⟩ := hl.of_permit rfl
      exact ⟨0, .finished ho (.of_none (fun _ => rfl) (by simp)), hbegun⟩
  | giveUp hr hp ho => exact ⟨owed, .finished ho turn.leftover.stop, hbegun⟩
  | abort hr hr' ho => exact ⟨owed, .finished ho turn.leftover.stop, hbegun⟩
  | takeLast result why hs hslot hw =>
    cases hslot
    exact ⟨owed, .finished rfl (turn.leftover.take (by simp)), hbegun⟩
  | takeMessage m hs hslot hm =>
    cases hs
    obtain ⟨-, rfl, rfl, hr⟩ := turn.of_slot hslot rfl
    have hlast : isLast (.ok m) = false := hm
    rw [hlast] at hr
    cases hr
    exact ⟨1, .handling m, hbegun⟩
  | accept m hs =>
    obtain ⟨rfl, rfl, rfl, rfl⟩ := turn.of_handling hs
    exact ⟨0, .draining, by rw [accepted_accept]; exact hbegun⟩
  | reject m refusal hs =>
    exact ⟨owed, .finished rfl turn.leftover, by rw [accepted_reject]; exact hbegun⟩
  | drained hs ho =>
    obtain ⟨rfl, rfl, rfl, rfl⟩ := turn.of_draining hs
    exact ⟨0, .granting, hbegun⟩
  | grant hs hr hp =>
    obtain ⟨rfl, rfl, rfl, rfl⟩ := turn.of_granting hs
    exact ⟨0, .granted, hbegun⟩
  | close why outcome hs => exact ⟨owed, .finished rfl turn.leftover, hbegun⟩
  | report outcome hs ho => exact ⟨owed, turn, by simpa using hbegun⟩
  | drop outcome ho => exact ⟨owed, turn, by simpa using hbegun⟩
  | takeOk | drainOk => exact ⟨owed, turn, hbegun⟩
  | refused | missReader | takeFault | drainFault | grantNobody =>
    exact ⟨owed, .finished rfl turn.leftover, hbegun⟩

theorem start_eq (name : String) :
    start name = { stage := .registering (.ofKind .register (Identifier.named name).encode) } := by
  simp [start, registration, Identifier.encodeWithin, Except.map]

theorem balanced_start (name : String) : Balanced crashed (start name) {} := by
  rw [start_eq]
  exact ⟨0, .registering _, rfl⟩

theorem run_balanced {name : String} {as : List Action} (hrun : (start name).run as = some s) :
    Balanced (.crash ∈ as) s ((start name).history as) :=
  run_induction_crashed (P := Balanced) (fun _ => balanced_start name)
    (fun _ _ _ _ _ hb hstep hc => balanced_step hstep hc hb) hrun

/-! ## Between two messages -/

/-- The pump is done with a message, and the reader has not begun the receive of the next. -/
def BetweenMessages (s : Session) : Prop :=
  s.stage = .granting ∨ s.permit = true ∨ s.reader = .ready

theorem Step.between (hstep : Step s a t) (hb : BetweenMessages t) : BetweenMessages s ∨
    (∃ m, s.stage = .registering m ∧ a = .register (.ok ())) ∨
    s.stage = .draining ∧ s.outcomes = [] ∧ a = .drain := by
  cases hstep with
  | registered m hs => exact .inr (.inl ⟨m, hs, rfl⟩)
  | drained hs ho => exact .inr (.inr ⟨hs, ho, rfl⟩)
  | takePermit hr hp => exact .inl (.inr (.inl hp))
  | beginReceive hr => exact .inl (.inr (.inr hr))
  | grant hs hr hp => exact .inl (.inl hs)
  | handOver result hr ho hslot =>
    rcases hb with hs | hp | hr
    · exact .inl (.inl hs)
    · exact .inl (.inr (.inl hp))
    · cases hl : isLast result <;> simp [hl] at hr
  | receive | crash | discard | giveUp | abort =>
    rcases hb with hs | hp | hr
    · exact .inl (.inl hs)
    · exact .inl (.inr (.inl hp))
    · cases hr
  | takeOk | drainOk | report | drop => exact .inl hb
  | refused | takeLast | missReader | takeFault | reject | drainFault | grantNobody | close
  | takeMessage | accept =>
    rcases hb with hs | hb
    · cases hs
    · exact .inl (.inr hb)

theorem Step.draining (hstep : Step s a t) (ht : t.stage = .draining) :
    s.stage = .draining ∨ ∃ m, s.stage = .handling m ∧ a = .answer (.ok ()) := by
  cases hstep with
  | accept m hs => exact .inr ⟨m, hs, rfl⟩
  | registered | refused | takeLast | takeMessage | missReader | takeFault | reject | drainFault
  | drained | grant | grantNobody | close => cases ht
  | _ => exact .inl ht

theorem Balanced.of_receiving (hb : Balanced crashed s h) (hr : s.reader = .receiving) :
    ¬ BetweenMessages s ∧ s.stage ≠ .draining := by
  obtain ⟨owed, turn, -⟩ := hb
  have hp := (turn.leftover.of_busy (by simp [hr, Reader.IsIdle])).2
  refine ⟨?_, fun hs => ?_⟩
  · rintro (hs | hp' | hr')
    · cases hr.symm.trans (turn.of_granting hs).1
    · simp [hp] at hp'
    · simp [hr] at hr'
  · cases hr.symm.trans (turn.of_draining hs).1

end Chaincode.Session

/-!
## Results, messages and outcomes on their way

Receives follow one another and their results reach the pump in that order (`run_flow`), the messages
dispatched are the results taken (`run_dispatched`), and outcomes are looked at in the order of the
reports (`run_outcomes`). Nothing is doubled, and nothing is lost while the session goes on.
-/

namespace Chaincode.Session

variable {s t : Session} {h : History} {a : Action} {name : String} {as : List Action}

/-! ### Results -/

/-- The result that a reader holds, if it holds one. -/
@[simp] def Reader.held : Reader → List Received
  | .holding result => [result]
  | _ => []

/-- The number of receives of a reader that are under way. -/
@[simp] def Reader.underWay : Reader → Nat
  | .receiving => 1
  | _ => 0

/-- Where the results are that the pump has not taken. Only a reader that has stopped has dropped
any, or lost a receive that was under way. -/
structure Flow (s : Session) (h : History) (dropped : List Received) (lost : Nat) : Prop where
  results : h.received = h.taken ++ s.slot.toList ++ s.reader.held ++ dropped
  begun : h.begun = h.received.length + s.reader.underWay + lost
  lost_le : lost ≤ 1
  of_reader : s.reader ≠ .stopped → dropped = [] ∧ lost = 0

theorem flow_step (hstep : Step s a t) (hreg : ∀ m, s.stage = .registering m → s.reader = .unstarted)
    (hflow : ∃ dropped lost, Flow s h dropped lost) :
    ∃ dropped lost, Flow t (h.note s a) dropped lost := by
  obtain ⟨dropped, lost, hresults, hbegun, hle, hreader⟩ := hflow
  cases hstep with
  | registered m hs =>
    have hr := hreg m hs
    obtain ⟨rfl, rfl⟩ := hreader (by simp [hr])
    exact ⟨[], 0, by simpa [History.note, hr] using hresults,
      by simpa [History.note, hr] using hbegun, hle, by simp⟩
  | beginReceive hr =>
    obtain ⟨rfl, rfl⟩ := hreader (by simp [hr])
    exact ⟨[], 0, by simpa [History.note, hr] using hresults,
      by simpa [History.note, hr] using hbegun, hle, by simp⟩
  | receive result hr =>
    obtain ⟨rfl, rfl⟩ := hreader (by simp [hr])
    exact ⟨[], 0, by simp [History.note, hr, hresults],
      by simpa [History.note, hr] using hbegun, hle, by simp⟩
  | crash hr =>
    obtain ⟨rfl, rfl⟩ := hreader (by simp [hr])
    exact ⟨[], 1, by simpa [History.note, hr] using hresults,
      by simpa [History.note, hr] using hbegun, Nat.le_refl 1, by simp⟩
  | handOver result hr ho hslot =>
    obtain ⟨rfl, rfl⟩ := hreader (by simp [hr])
    refine ⟨[], 0, ?_, ?_, hle, by simp⟩
    · cases isLast result <;> simpa [History.note, hr, hslot] using hresults
    · cases isLast result <;> simpa [History.note, hr] using hbegun
  | discard result hr ho =>
    obtain ⟨rfl, rfl⟩ := hreader (by simp [hr])
    exact ⟨[result], 0, by simpa [History.note, hr] using hresults,
      by simpa [History.note, hr] using hbegun, hle, by simp⟩
  | takePermit hr hp =>
    obtain ⟨rfl, rfl⟩ := hreader (by simp [hr])
    exact ⟨[], 0, by simpa [History.note, hr] using hresults,
      by simpa [History.note, hr] using hbegun, hle, by simp⟩
  | giveUp hr hp ho =>
    exact ⟨dropped, lost, by simpa [History.note, hr] using hresults,
      by simpa [History.note, hr] using hbegun, hle, by simp⟩
  | abort hr hr' ho =>
    obtain ⟨rfl, rfl⟩ := hreader hr'
    refine ⟨s.reader.held, s.reader.underWay, by simpa [History.note] using hresults,
      by simpa [History.note] using hbegun, ?_, by simp⟩
    cases s.reader <;> simp
  | takeLast result why hs hslot hw =>
    exact ⟨dropped, lost, by simpa [History.note, finish, hslot] using hresults, hbegun, hle, hreader⟩
  | takeMessage m hs hslot hm =>
    exact ⟨dropped, lost, by simpa [History.note, hslot] using hresults, hbegun, hle, hreader⟩
  | missReader hs hslot hr =>
    exact ⟨dropped, lost, by simpa [History.note, finish, hslot] using hresults, hbegun, hle, hreader⟩
  | report outcome hs ho | drop outcome ho =>
    exact ⟨dropped, lost, by simpa [History.note, ho] using hresults,
      by simpa [History.note, ho] using hbegun, hle, hreader⟩
  | _ => exact ⟨dropped, lost, hresults, hbegun, hle, hreader⟩

theorem reader_of_registering {crashed : Prop} {m : Envelope} (hb : Balanced crashed s h)
    (hs : s.stage = .registering m) : s.reader = .unstarted := by
  obtain ⟨owed, turn, -⟩ := hb
  exact (turn.of_registering hs).1

theorem run_flow (hrun : (start name).run as = some s) :
    ∃ dropped lost, Flow s ((start name).history as) dropped lost := by
  refine run_induction (P := fun _ s h => ∃ dropped lost, Flow s h dropped lost)
    ⟨[], 0, ?_⟩ (fun as s a t hs ih hstep => ?_) hrun
  · rw [start_eq]
    exact ⟨rfl, rfl, Nat.zero_le 1, fun _ => ⟨rfl, rfl⟩⟩
  · exact flow_step hstep (fun m hm => reader_of_registering (run_balanced hs) hm) ih

/-! ### Messages -/

theorem run_dispatched (hrun : (start name).run as = some s) :
    ∃ last, ((start name).history as).taken = s.dispatched.map .ok ++ last ∧
      (s.stage.isOver = false → last = []) := by
  refine run_induction (P := fun _ s h => ∃ last, h.taken = s.dispatched.map .ok ++ last ∧
    (s.stage.isOver = false → last = [])) ⟨[], by rw [start_eq]; rfl, by simp⟩
    (fun _ s a t _ ih hstep => ?_) hrun
  obtain ⟨last, htaken, hlast⟩ := ih
  cases hstep with
  | takeLast result why hs hslot hw =>
    obtain rfl := hlast (by simp [hs, Stage.isOver])
    exact ⟨[result], by simp [History.note, finish, hslot, htaken], by simp [finish, Stage.isOver]⟩
  | takeMessage m hs hslot hm =>
    obtain rfl := hlast (by simp [hs, Stage.isOver])
    exact ⟨[], by simp [History.note, hslot, htaken], by simp⟩
  | missReader hs hslot hr =>
    exact ⟨last, by simpa [History.note, finish, hslot] using htaken, by simp [finish, Stage.isOver]⟩
  | report outcome hs ho | drop outcome ho =>
    exact ⟨last, by simpa [History.note, ho] using htaken, hlast⟩
  | refused | takeFault | reject | drainFault | grantNobody =>
    exact ⟨last, htaken, by simp [finish, Stage.isOver]⟩
  | close => exact ⟨last, htaken, by simp [Stage.isOver]⟩
  | registered m hs | accept m hs | drained hs ho | grant hs hr hp =>
    exact ⟨last, htaken, fun _ => hlast (by simp [hs, Stage.isOver])⟩
  | _ => exact ⟨last, htaken, hlast⟩

theorem run_handling {m : Envelope} (hrun : (start name).run as = some s)
    (hs : s.stage = .handling m) : s.dispatched.getLast? = some m := by
  refine run_induction (P := fun _ s _ => ∀ m, s.stage = .handling m → s.dispatched.getLast? = some m)
    (by rw [start_eq]; simp) (fun _ s a t _ ih hstep => ?_) hrun m hs
  cases hstep with
  | takeMessage m' hs' hslot hm => simp
  | registered | accept | drained | grant | close => simp
  | refused | takeLast | missReader | takeFault | reject | drainFault | grantNobody => simp [finish]
  | _ => exact ih

/-! ### Outcomes -/

theorem run_outcomes (hrun : (start name).run as = some s) :
    ((start name).history as).checked ++ s.outcomes = ((start name).history as).reported := by
  refine run_induction (P := fun _ s h => h.checked ++ s.outcomes = h.reported)
    (by rw [start_eq]; rfl) (fun _ s a t _ ih hstep => ?_) hrun
  cases hstep with
  | takeOk rest hs ho | takeFault fault rest hs ho | drainOk rest hs ho | drainFault fault rest hs ho =>
    simpa [History.note, ho, finish] using ih
  | drained hs ho => simpa [History.note, ho] using ih
  | report outcome hs ho => simp [History.note, ho, ← ih]
  | drop outcome ho => simpa [History.note, ho] using ih
  | _ => exact ih

end Chaincode.Session
