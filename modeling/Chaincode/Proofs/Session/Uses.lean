import Chaincode.Proofs.Session.Turn

/-!
# What a session asks of its stream

`uses` says which uses of the stream go with an action of a session. Everything starts with the
announcement: until the stream has accepted it there is nothing else, and if the stream refuses it
there is nothing more than the end of the sending direction (`announced_step`). The sending direction
is ended by the step that makes the session return, and by no other (`closes_step`).
-/

namespace Chaincode

/-- A use of a message stream, with what it came to. -/
inductive Use where
  | begin
  | receive (result : Option Received)
  | abandon
  | send (m : Envelope) (outcome : Sent)
  | close (outcome : Sent)

namespace Use

def sent? : Use → Option (Envelope × Sent)
  | send m outcome => some (m, outcome)
  | _ => none

def isClose : Use → Bool
  | close _ => true
  | _ => false

theorem sent?_eq_none {use : Use} (h : use.isClose = true) : use.sent? = none := by
  cases use with
  | close outcome => rfl
  | _ => cases h

end Use

namespace Session

/-- The uses of the stream that go with an action of `s`. -/
def uses (s : Session) : Action → List Use
  | .register outcome =>
    match s.stage with
    | .registering m => [.send m outcome]
    | _ => []
  | .beginReceive => [.begin]
  | .receive result => [.receive (some result)]
  | .crash => [.receive none]
  | .abort =>
    match s.reader with
    | .receiving => [.abandon]
    | _ => []
  | .close outcome => [.close outcome]
  | .handOver | .takePermit | .takeResult | .takeOutcome | .answer _ | .drain | .grant | .report _ => []

variable {m : Envelope} {s t : Session} {a : Action} {made : List Use}

/-- How a session stands that announces itself by `m`, the uses of the stream `made` so far being its
own. -/
inductive Announced (m : Envelope) (s : Session) : List Use → Prop where
  | before (hs : s.stage = .registering m) (hr : s.reader = .unstarted) (hd : s.dispatched = []) :
      Announced m s []
  | accepted (rest : List Use) (hs : ∀ m, s.stage ≠ .registering m)
      (hrest : ∀ use ∈ rest, use.sent? = none) : Announced m s (.send m (.ok ()) :: rest)
  /-- The reader is never started. -/
  | refused (fault : StreamFault) (rest : List Use)
      (hs : s.stage = .closing (.transport .register fault) ∨
        s.stage = .ended (.transport .register fault))
      (hr : s.reader = .unstarted) (hd : s.dispatched = []) (hrest : ∀ use ∈ rest, use.isClose) :
      Announced m s (.send m (.error fault) :: rest)

theorem registering_of_sent {outcome : Sent} (huse : .send m outcome ∈ s.uses a) :
    a = .register outcome ∧ s.stage = .registering m := by
  cases a with
  | register outcome' =>
    simp only [uses] at huse
    split at huse
    · rename_i hs
      cases List.mem_singleton.1 huse
      exact ⟨rfl, hs⟩
    · cases huse
  | abort =>
    simp only [uses] at huse
    split at huse <;> simp at huse
  | _ => simp [uses] at huse

theorem sent?_uses (hs : ∀ m, s.stage ≠ .registering m) : ∀ use ∈ s.uses a, use.sent? = none := by
  intro use huse
  cases use with
  | send m outcome => exact absurd (registering_of_sent huse).2 (hs m)
  | _ => rfl

theorem Step.not_registering (hstep : Step s a t) (hs : ∀ m, s.stage ≠ .registering m) :
    ∀ m, t.stage ≠ .registering m := by
  cases hstep with
  | registered m hs' | refused m fault hs' => exact absurd hs' (hs m)
  | beginReceive | receive | crash | handOver | discard | takePermit | giveUp | abort | takeOk
  | drainOk | report | drop => exact hs
  | _ => simp [finish]

theorem announced_step (hstep : Step s a t) (h : Announced m s made) :
    Announced m t (made ++ s.uses a) := by
  cases h with
  | before hs hr hd =>
    cases hstep with
    | registered m' hs' =>
      cases hs.symm.trans hs'
      simpa only [uses, hs, List.nil_append] using .accepted [] (by simp) (by simp)
    | refused m' fault hs' =>
      cases hs.symm.trans hs'
      simpa only [uses, hs, List.nil_append] using .refused fault [] (.inl rfl) hr hd (by simp)
    | beginReceive hr' | receive _ hr' | crash hr' | handOver _ hr' | discard _ hr' | takePermit hr'
    | giveUp hr' => cases hr.symm.trans hr'
    | abort hr' => exact absurd hr hr'
    | report outcome hs' => exact absurd hs (hs' m)
    | drop outcome ho => simp [hs, Stage.isOver] at ho
    | takeLast _ _ hs' | takeMessage _ hs' | missReader hs' | takeOk _ hs' | takeFault _ _ hs'
    | accept _ hs' | reject _ _ hs' | drainOk _ hs' | drainFault _ _ hs' | drained hs' | grant hs'
    | grantNobody hs' | close _ _ hs' => cases hs.symm.trans hs'
  | accepted rest hs hrest =>
    refine .accepted (rest ++ s.uses a) (hstep.not_registering hs) fun use huse => ?_
    rcases List.mem_append.1 huse with huse | huse
    · exact hrest use huse
    · exact sent?_uses hs use huse
  | refused fault rest hs hr hd hrest =>
    -- With the pump over and the reader unstarted, only the close and late reports are left.
    have ho : s.stage.isOver = true := by rcases hs with hs | hs <;> simp [hs, Stage.isOver]
    have hclosed := hstep.keeps_end hs
    cases hstep with
    | close why outcome hs' =>
      exact .refused fault (rest ++ [.close outcome]) hclosed hr hd
        (by simpa [or_imp, forall_and, Use.isClose] using hrest)
    | drop outcome =>
      simpa only [uses, List.append_nil] using .refused fault rest hs hr hd hrest
    | beginReceive hr' | receive _ hr' | crash hr' | handOver _ hr' | discard _ hr' | takePermit hr'
    | giveUp hr' => cases hr.symm.trans hr'
    | abort hr' => exact absurd hr hr'
    | report outcome hs' ho' => cases ho.symm.trans ho'
    | registered _ hs' | refused _ _ hs' | takeLast _ _ hs' | takeMessage _ hs' | missReader hs'
    | takeOk _ hs' | takeFault _ _ hs' | accept _ hs' | reject _ _ hs' | drainOk _ hs'
    | drainFault _ _ hs' | drained hs' | grant hs' | grantNobody hs' =>
      simp [hs', Stage.isOver] at ho

theorem announced_start (name : String) :
    ∃ m, registration name = .ok m ∧ Announced m (start name) [] := by
  refine ⟨.ofKind .register (Identifier.named name).encode, ?_, ?_⟩
  · simp [registration, Identifier.encodeWithin, Except.map]
  · rw [start_eq]
    exact .before rfl rfl rfl

namespace Announced

theorem sent (h : Announced m s made) :
    (s.stage = .registering m ∧ made.filterMap Use.sent? = []) ∨
      ∃ outcome, made.filterMap Use.sent? = [(m, outcome)] := by
  cases h with
  | before hs hr hd => exact .inl ⟨hs, rfl⟩
  | accepted rest hs hrest =>
    exact .inr ⟨.ok (), by simpa [Use.sent?, List.filterMap_eq_nil_iff] using hrest⟩
  | refused fault rest hs hr hd hrest =>
    have hnone : ∀ use ∈ rest, use.sent? = none := fun use huse => Use.sent?_eq_none (hrest use huse)
    exact .inr ⟨.error fault, by simpa [Use.sent?, List.filterMap_eq_nil_iff] using hnone⟩

theorem of_begin {before after : List Use} (h : Announced m s (before ++ .begin :: after)) :
    .send m (.ok ()) ∈ before := by
  generalize hmade : before ++ .begin :: after = made at h
  cases h with
  | before => simp at hmade
  | accepted rest hs hrest =>
    cases before with
    | nil => cases hmade
    | cons use before =>
      cases hmade
      exact List.mem_cons_self
  | refused fault rest hs hr hd hrest =>
    cases before with
    | nil => cases hmade
    | cons use before =>
      cases hmade
      simpa [Use.isClose] using hrest .begin (by simp)

theorem of_dispatched (h : Announced m s made) (hd : s.dispatched ≠ []) :
    .send m (.ok ()) ∈ made := by
  cases h with
  | before hs hr hd' => exact absurd hd' hd
  | accepted => exact List.mem_cons_self
  | refused fault rest hs hr hd' => exact absurd hd' hd

theorem of_not_accepted (h : Announced m s made) (hnone : .send m (.ok ()) ∉ made) :
    s.stage = .registering m ∨ s.stage.isOver = true := by
  cases h with
  | before hs hr hd => exact .inl hs
  | accepted => exact absurd List.mem_cons_self hnone
  | refused fault rest hs hr hd hrest =>
    right
    rcases hs with hs | hs <;> simp [hs, Stage.isOver]

/-- A session whose announcement was refused is on its way out with that, and has done nothing else. -/
theorem of_refused {fault : StreamFault} (h : Announced m s made)
    (hfault : .send m (.error fault) ∈ made) : .begin ∉ made ∧ s.dispatched = [] ∧
      (s.stage = .closing (.transport .register fault) ∨
        s.stage = .ended (.transport .register fault)) := by
  cases h with
  | before => cases hfault
  | accepted rest hs hrest =>
    rcases List.mem_cons.1 hfault with heq | hmem
    · cases heq
    · cases hrest _ hmem
  | refused fault' rest hs hr hd hrest =>
    rcases List.mem_cons.1 hfault with heq | hmem
    · cases heq
      refine ⟨fun hbegin => ?_, hd, hs⟩
      rcases List.mem_cons.1 hbegin with heq | hmem
      · cases heq
      · cases hrest _ hmem
    · cases hrest _ hmem

end Announced

theorem Step.isOver_of_ended {why : SessionEnd} (hstep : Step s a t) (ht : t.stage = .ended why) :
    s.stage.isOver = true := by
  cases hstep with
  | close why' outcome hs => simp [hs, Stage.isOver]
  | registered | refused | takeLast | takeMessage | missReader | takeFault | accept | reject
  | drainFault | drained | grant | grantNobody => cases ht
  | _ =>
    have hs : s.stage = .ended why := ht
    simp [hs, Stage.isOver]

theorem closes_step (hstep : Step s a t) :
    s.result?.isSome.toNat + (s.uses a).countP Use.isClose = t.result?.isSome.toNat := by
  cases hstep with
  | registered m hs | refused m fault hs | takeLast _ _ hs | takeMessage _ hs | missReader hs
  | takeFault _ _ hs | accept _ hs | reject _ _ hs | drainFault _ _ hs | drained hs | grant hs
  | grantNobody hs | close _ _ hs => simp [result?, uses, hs, finish, Use.isClose]
  | abort =>
    simp only [uses]
    split <;> simp [result?, Use.isClose]
  | _ => simp [result?, uses, Use.isClose]

end Session

end Chaincode
