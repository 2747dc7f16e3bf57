import Mathlib.Data.List.Induction
import Chaincode.Session

/-!
# What a session can do, and what it has done

`Step` lists the ways in which a session acts, one constructor for each, with everything that is
known when it happens (`Step.of_step`); no proof about runs opens `Session.step`.

`history` says what a run has done that its last state does not show any more: the receives, the
results taken, the verdicts, the outcomes reported and checked, the permits. `run_induction` is the
one induction on runs: it carries the actions so far, the state, and the history.
-/

namespace Chaincode.Session

/-! ## Results that end a session -/

/-- The end that a result brings about, unless it is a message to dispatch. -/
def ending? : Received → Option SessionEnd
  | .error .closed => some .streamEnded
  | .error fault => some (.transport .receive fault)
  | .ok m => if m.isEmpty then some .emptyMessage else none

theorem isLast_eq_isSome_ending? (result : Received) : isLast result = (ending? result).isSome := by
  rcases result with fault | m
  · cases fault <;> rfl
  · simp only [isLast, ending?]
    split
    · simp [*]
    · simp [*]

theorem dispatch_of_ending? {s : Session} {result : Received} {why : SessionEnd}
    (h : ending? result = some why) : s.dispatch result = s.finish why := by
  rcases result with fault | m
  · cases fault <;> (cases h; rfl)
  · simp only [ending?] at h
    split at h
    · rename_i hm
      cases h
      simp [dispatch, hm]
    · cases h

theorem eq_ok_of_ending? {result : Received} (h : ending? result = none) :
    ∃ m, result = .ok m ∧ m.isEmpty = false := by
  rcases result with fault | m
  · cases fault <;> cases h
  · simp only [ending?] at h
    split at h
    · cases h
    · exact ⟨m, rfl, by simpa using ‹¬ m.isEmpty = true›⟩

theorem ending?_ok {m : Envelope} (h : m.isEmpty = false) : ending? (.ok m) = none := by
  simp [ending?, h]

theorem ending?_eq_streamEnded {result : Received} :
    ending? result = some .streamEnded ↔ result = .error .closed := by
  rcases result with fault | m
  · cases fault <;> simp [ending?]
  · simp only [ending?]
    split <;> simp

theorem ending?_ne_send {result : Received} {fault : StreamFault} :
    ending? result ≠ some (.transport .send fault) := by
  rcases result with e | m
  · cases e <;> simp [ending?]
  · simp only [ending?]
    split <;> simp

theorem ending?_readerGone {result : Received}
    (h : ending? result = some (.transport .receive .readerGone)) : result = .error .readerGone := by
  rcases result with e | m
  · cases e <;> simp_all [ending?]
  · simp only [ending?] at h
    split at h <;> simp at h

/-! ## Steps -/

/-- The ways in which a session acts. -/
inductive Step (s : Session) : Action → Session → Prop where
  | registered (m : Envelope) (hs : s.stage = .registering m) :
      Step s (.register (.ok ())) { s with stage := .selecting, reader := .ready }
  | refused (m : Envelope) (fault : StreamFault) (hs : s.stage = .registering m) :
      Step s (.register (.error fault)) (s.finish (.transport .register fault))
  | beginReceive (hr : s.reader = .ready) : Step s .beginReceive { s with reader := .receiving }
  | receive (result : Received) (hr : s.reader = .receiving) :
      Step s (.receive result) { s with reader := .holding result }
  | crash (hr : s.reader = .receiving) : Step s .crash { s with reader := .stopped }
  | handOver (result : Received) (hr : s.reader = .holding result) (ho : s.stage.isOver = false)
      (hslot : s.slot = none) :
      Step s .handOver
        { s with slot := some result, reader := if isLast result then .stopped else .waiting }
  /-- There is nobody to hand the result to. -/
  | discard (result : Received) (hr : s.reader = .holding result) (ho : s.stage.isOver = true) :
      Step s .handOver { s with reader := .stopped }
  | takePermit (hr : s.reader = .waiting) (hp : s.permit = true) :
      Step s .takePermit { s with permit := false, reader := .ready }
  /-- There is nobody to give a permit. -/
  | giveUp (hr : s.reader = .waiting) (hp : s.permit = false) (ho : s.stage.isOver = true) :
      Step s .takePermit { s with reader := .stopped }
  | abort (hr : s.reader ≠ .unstarted) (hr' : s.reader ≠ .stopped) (ho : s.stage.isOver = true) :
      Step s .abort { s with reader := .stopped }
  | takeLast (result : Received) (why : SessionEnd) (hs : s.stage = .selecting)
      (hslot : s.slot = some result) (hw : ending? result = some why) :
      Step s .takeResult ({ s with slot := none }.finish why)
  | takeMessage (m : Envelope) (hs : s.stage = .selecting) (hslot : s.slot = some (.ok m))
      (hm : m.isEmpty = false) :
      Step s .takeResult
        { s with slot := none, stage := .handling m, dispatched := s.dispatched ++ [m] }
  | missReader (hs : s.stage = .selecting) (hslot : s.slot = none) (hr : s.reader = .stopped) :
      Step s .takeResult (s.finish (.transport .receive .readerGone))
  | takeOk (rest : List Sent) (hs : s.stage = .selecting) (ho : s.outcomes = .ok () :: rest) :
      Step s .takeOutcome { s with outcomes := rest }
  | takeFault (fault : StreamFault) (rest : List Sent) (hs : s.stage = .selecting)
      (ho : s.outcomes = .error fault :: rest) :
      Step s .takeOutcome ({ s with outcomes := rest }.finish (.transport .send fault))
  | accept (m : Envelope) (hs : s.stage = .handling m) :
      Step s (.answer (.ok ())) { s with stage := .draining }
  | reject (m : Envelope) (refusal : Refusal) (hs : s.stage = .handling m) :
      Step s (.answer (.error refusal)) (s.finish (.rejected refusal))
  | drainOk (rest : List Sent) (hs : s.stage = .draining) (ho : s.outcomes = .ok () :: rest) :
      Step s .drain { s with outcomes := rest }
  | drainFault (fault : StreamFault) (rest : List Sent) (hs : s.stage = .draining)
      (ho : s.outcomes = .error fault :: rest) :
      Step s .drain ({ s with outcomes := rest }.finish (.transport .send fault))
  | drained (hs : s.stage = .draining) (ho : s.outcomes = []) :
      Step s .drain { s with stage := .granting }
  | grant (hs : s.stage = .granting) (hr : s.reader ≠ .stopped) (hp : s.permit = false) :
      Step s .grant { s with permit := true, stage := .selecting }
  | grantNobody (hs : s.stage = .granting) (hr : s.reader = .stopped) :
      Step s .grant (s.finish (.transport .receive .readerGone))
  | close (why : SessionEnd) (outcome : Sent) (hs : s.stage = .closing why) :
      Step s (.close outcome) { s with stage := .ended why }
  | report (outcome : Sent) (hs : ∀ m, s.stage ≠ .registering m) (ho : s.stage.isOver = false) :
      Step s (.report outcome) { s with outcomes := s.outcomes ++ [outcome] }
  /-- Nobody looks at outcomes any more. -/
  | drop (outcome : Sent) (ho : s.stage.isOver = true) : Step s (.report outcome) s

theorem Step.of_takeResult {s t : Session} (h : s.step .takeResult = some t) : Step s .takeResult t := by
  simp only [step] at h
  split at h
  · rename_i result hs hslot
    cases hw : ending? result with
    | none =>
      obtain ⟨m, rfl, hm⟩ := eq_ok_of_ending? hw
      cases h
      simpa [dispatch, hm] using Step.takeMessage m hs hslot hm
    | some why =>
      cases h
      rw [dispatch_of_ending? hw]
      exact .takeLast result why hs hslot hw
  · rename_i hs hslot hr
    cases h
    exact .missReader hs hslot hr
  · cases h

theorem Step.of_step {s t : Session} {a : Action} (h : s.step a = some t) : Step s a t := by
  cases a with
  | takeResult => exact Step.of_takeResult h
  | register outcome =>
    simp only [step] at h
    split at h
    · cases h; exact .registered _ ‹_›
    · cases h; exact .refused _ _ ‹_›
    · cases h
  | beginReceive =>
    simp only [step] at h
    split at h
    · cases h; exact .beginReceive ‹_›
    · cases h
  | receive result =>
    simp only [step] at h
    split at h
    · cases h; exact .receive result ‹_›
    · cases h
  | crash =>
    simp only [step] at h
    split at h
    · cases h; exact .crash ‹_›
    · cases h
  | handOver =>
    simp only [step] at h
    split at h
    · rename_i result hr
      split at h
      · cases h; exact .discard result hr ‹_›
      · rename_i ho
        split at h
        · rename_i hslot
          cases h
          exact .handOver result hr (Bool.eq_false_iff.2 ho) (Option.isNone_iff_eq_none.1 hslot)
        · cases h
    · cases h
  | takePermit =>
    simp only [step] at h
    split at h
    · rename_i hr
      split at h
      · cases h; exact .takePermit hr ‹_›
      · rename_i hp
        split at h
        · cases h; exact .giveUp hr (Bool.eq_false_iff.2 hp) ‹_›
        · cases h
    · cases h
  | abort =>
    simp only [step] at h
    split at h
    · cases h
    · cases h
    · split at h
      · cases h; exact .abort ‹_› ‹_› ‹_›
      · cases h
  | takeOutcome =>
    simp only [step] at h
    split at h
    · rename_i outcome rest hs ho
      cases h
      rcases outcome with fault | ⟨⟨⟩⟩
      · exact .takeFault fault rest hs ho
      · exact .takeOk rest hs ho
    · cases h
  | answer verdict =>
    simp only [step] at h
    split at h
    · cases h; exact .accept _ ‹_›
    · cases h; exact .reject _ _ ‹_›
    · cases h
  | drain =>
    simp only [step] at h
    split at h
    · cases h; exact .drained ‹_› ‹_›
    · rename_i outcome rest hs ho
      cases h
      rcases outcome with fault | ⟨⟨⟩⟩
      · exact .drainFault fault rest hs ho
      · exact .drainOk rest hs ho
    · cases h
  | grant =>
    simp only [step] at h
    split at h
    · cases h; exact .grantNobody ‹_› ‹_›
    · rename_i hs hr
      split at h
      · cases h
      · rename_i hp
        cases h
        exact .grant hs hr (Bool.eq_false_iff.2 hp)
    · cases h
  | close outcome =>
    simp only [step] at h
    split at h
    · cases h; exact .close _ outcome ‹_›
    · cases h
  | report outcome =>
    simp only [step] at h
    split at h
    · cases h
    · rename_i hs
      split at h
      · cases h; exact .drop outcome ‹_›
      · rename_i ho
        cases h
        exact .report outcome hs (Bool.eq_false_iff.2 ho)

theorem Step.keeps_end {s t : Session} {a : Action} {why : SessionEnd} (hstep : Step s a t)
    (h : s.stage = .closing why ∨ s.stage = .ended why) :
    t.stage = .closing why ∨ t.stage = .ended why := by
  have ho : s.stage.isOver = true := by rcases h with h | h <;> simp [h, Stage.isOver]
  cases hstep with
  | close why' outcome hs =>
    rcases h with h | h
    · cases hs.symm.trans h
      exact .inr rfl
    · cases hs.symm.trans h
  | registered m hs | refused m fault hs | takeMessage m hs | accept m hs | reject m refusal hs
  | takeLast result why' hs | missReader hs | takeOk rest hs | takeFault fault rest hs
  | drainOk rest hs | drainFault fault rest hs | drained hs | grant hs | grantNobody hs =>
    simp [hs, Stage.isOver] at ho
  | _ => exact h

/-! ## Histories -/

/-- What a session has done. -/
structure History where
  /-- The receives begun. -/
  begun : Nat := 0
  /-- What the receives came to, oldest first. -/
  received : List Received := []
  /-- The results that the pump has taken. -/
  taken : List Received := []
  /-- The handler's verdicts, each with the messages given to the handler by then. -/
  verdicts : List (List Envelope × Verdict) := []
  /-- The outcomes that were reported before the session was over. -/
  reported : List Sent := []
  /-- The outcomes that the pump has looked at. -/
  checked : List Sent := []
  /-- The permits that the pump has given, or meant to give. -/
  granted : Nat := 0

namespace History

/-- The number of messages that the handler is done with. -/
def accepted (h : History) : Nat := h.verdicts.countP (·.2.isOk)

/-- `h` with what the session `s` does next. -/
def note (h : History) (s : Session) : Action → History
  | .beginReceive => { h with begun := h.begun + 1 }
  | .receive result => { h with received := h.received ++ [result] }
  | .takeResult => { h with taken := h.taken ++ s.slot.toList }
  | .takeOutcome | .drain => { h with checked := h.checked ++ s.outcomes.head?.toList }
  | .answer verdict => { h with verdicts := h.verdicts ++ [(s.dispatched, verdict)] }
  | .grant => { h with granted := h.granted + 1 }
  | .report outcome => if s.stage.isOver then h else { h with reported := h.reported ++ [outcome] }
  | .register _ | .crash | .handOver | .takePermit | .abort | .close _ => h

/-- `h` with what the session `s` does in a run. -/
def along (h : History) (s : Session) : List Action → History
  | [] => h
  | a :: rest =>
    match s.step a with
    | some t => (h.note s a).along t rest
    | none => h

theorem along_append {s t : Session} {as : List Action} (hrun : s.run as = some t) (h : History)
    (bs : List Action) : h.along s (as ++ bs) = (h.along s as).along t bs := by
  induction as generalizing s h with
  | nil => cases hrun; rfl
  | cons a as ih =>
    obtain ⟨u, hu, hrest⟩ := Option.bind_eq_some_iff.1 hrun
    simp only [List.cons_append, along, hu]
    exact ih hrest _

end History

/-- What the session `s` does in a run. -/
def history (s : Session) (as : List Action) : History := ({} : History).along s as

theorem run_concat {s t : Session} {as : List Action} {a : Action} :
    s.run (as ++ [a]) = some t ↔ ∃ u, s.run as = some u ∧ u.step a = some t := by
  rw [run_append, Option.bind_eq_some_iff]
  simp [run]

theorem history_concat {s t u : Session} {as : List Action} {a : Action} (hrun : s.run as = some t)
    (hstep : t.step a = some u) : s.history (as ++ [a]) = (s.history as).note t a := by
  rw [history, History.along_append hrun]
  simp [History.along, hstep, history]

theorem run_induction {s₀ : Session} {P : List Action → Session → History → Prop}
    (start : P [] s₀ {})
    (step : ∀ as s a t, s₀.run as = some s → P as s (s₀.history as) → Step s a t →
      P (as ++ [a]) t ((s₀.history as).note s a))
    {as : List Action} {s : Session} (hrun : s₀.run as = some s) : P as s (s₀.history as) := by
  induction as using List.reverseRecOn generalizing s with
  | nil => cases hrun; exact start
  | append_singleton as a ih =>
    obtain ⟨t, ht, hstep⟩ := run_concat.1 hrun
    rw [history_concat ht hstep]
    exact step as t a s ht (ih ht) (.of_step hstep)

theorem run_keeps_end {s t : Session} {as : List Action} {why : SessionEnd}
    (h : s.stage = .closing why ∨ s.stage = .ended why) (hrun : s.run as = some t) :
    t.stage = .closing why ∨ t.stage = .ended why :=
  run_induction (P := fun _ t _ => t.stage = .closing why ∨ t.stage = .ended why) h
    (fun _ _ _ _ _ ih hstep => hstep.keeps_end ih) hrun

/-- `run_induction` for what depends on whether the reader crashed. -/
theorem run_induction_crashed {s₀ : Session} {P : Prop → Session → History → Prop}
    (start : ∀ c, P c s₀ {})
    (step : ∀ c s h a t, P c s h → Step s a t → (a = .crash → c) → P c t (h.note s a))
    {as : List Action} {s : Session} (hrun : s₀.run as = some s) :
    P (.crash ∈ as) s (s₀.history as) := by
  -- the condition weakens as the run goes on, so the induction has to hold of every weaker one
  have main : ∀ c : Prop, (Action.crash ∈ as → c) → P c s (s₀.history as) := by
    refine run_induction (P := fun as s h => ∀ c : Prop, (Action.crash ∈ as → c) → P c s h)
      (fun c _ => start c) (fun as s a t _ ih hstep c hc => ?_) hrun
    have hprefix : Action.crash ∈ as → c := fun hmem => hc (List.mem_append_left _ hmem)
    exact step c s _ a t (ih c hprefix) hstep fun ha => hc (by simp [ha])
  exact main _ id

end Chaincode.Session
