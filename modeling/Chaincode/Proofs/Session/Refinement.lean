import Mathlib.Data.Seq.Basic
import Chaincode.Proofs.Session.Cause

/-!
# Sessions refine the sequential loop

Two tasks, a select, and reports from anywhere: none of that shows in what a session dispatches. The
results that the pump has taken are the first of the inbound ones, and `sequential` makes of them
just what the session has made of them (`Follows`, `run_follows`); results that follow change nothing
about that (`sequential_append_of_some`) or only add to it (`sequential_mono`). So the messages
dispatched are those of the loop as far as the session got, and so is the end, unless a failed send
cut the session short (`refines_sequential`).
-/

namespace Chaincode.Session

variable {s t : Session} {h : History} {a : Action} {name : String} {as : List Action}
  {why : SessionEnd} {decide : List Envelope → Verdict} {seen seen' : List Envelope}
  {xs ys : List Received}

/-! ## The loop, a few results at a time -/

/-- The end that a verdict brings about. -/
def refusal? : Verdict → Option SessionEnd
  | .ok () => none
  | .error refusal => some (.rejected refusal)

theorem sequential_ending {result : Received} (hw : ending? result = some why) :
    sequential decide seen [result] = (seen, some why) := by
  rcases result with fault | m
  · cases fault <;> (cases hw; rfl)
  · simp only [ending?, Envelope.isEmpty, decide_eq_true_eq] at hw
    split at hw
    · cases hw
      simp [sequential, *]
    · cases hw

theorem sequential_message {m : Envelope} (hm : m.isEmpty = false) :
    sequential decide seen [.ok m] = (seen ++ [m], refusal? (decide (seen ++ [m]))) := by
  have hne : m ≠ {} := by simpa [Envelope.isEmpty] using hm
  simp only [sequential, hne, if_false]
  rcases decide (seen ++ [m]) with refusal | ⟨⟨⟩⟩ <;> rfl

theorem sequential_append : sequential decide seen (xs ++ ys) =
    match sequential decide seen xs with
    | (seen', none) => sequential decide seen' ys
    | (seen', some why) => (seen', some why) := by
  fun_induction sequential decide seen xs with
  | case1 => rfl
  | case2 | case3 | case4 => simp [sequential]
  | case5 seen m rest hm hok ih => simp [sequential, hm, hok, ih]
  | case6 seen m rest hm refusal hrefused => simp [sequential, hm, hrefused]

theorem prefix_sequential : seen <+: (sequential decide seen xs).1 := by
  fun_induction sequential decide seen xs with
  | case1 | case2 | case3 | case4 => exact List.prefix_rfl
  | case5 seen m rest hm hok ih => exact (List.prefix_append _ _).trans ih
  | case6 seen m => exact List.prefix_append _ _

theorem sequential_mono (hxs : xs <+: ys) :
    (sequential decide seen xs).1 <+: (sequential decide seen ys).1 := by
  obtain ⟨zs, rfl⟩ := hxs
  rw [sequential_append]
  rcases sequential decide seen xs with ⟨seen', why | why⟩
  · exact prefix_sequential
  · exact List.prefix_rfl

/-! ## What a session makes of the results it has taken -/

namespace History

/-- The receives have come to the first of the inbound results. -/
def DrawsFrom (h : History) (inbound : Stream'.Seq Received) : Prop :=
  ∀ i result, h.received[i]? = some result → inbound.get? i = some result

/-- The handler's verdict depends on the messages given to it, and on nothing else. -/
def Heeds (h : History) (decide : List Envelope → Verdict) : Prop :=
  ∀ entry ∈ h.verdicts, entry.2 = decide entry.1

theorem Heeds.of_note (hheeds : (h.note s a).Heeds decide) : h.Heeds decide := by
  intro entry hmem
  cases a with
  | answer verdict => exact hheeds entry (List.mem_append_left _ hmem)
  | report outcome => exact hheeds entry (by simp only [note]; split <;> exact hmem)
  | _ => exact hheeds entry hmem

end History

/-- Something other than a result or a verdict has brought about the end. -/
def CutShort (as : List Action) (why : SessionEnd) : Prop :=
  .crash ∈ as ∨ (∃ fault, .register (.error fault) ∈ as) ∨ ∃ fault, why = .transport .send fault

theorem CutShort.concat (hcut : CutShort as why) : CutShort (as ++ [a]) why := by
  rcases hcut with hcrash | ⟨fault, hregister⟩ | hsend
  · exact .inl (List.mem_append_left _ hcrash)
  · exact .inr (.inl ⟨fault, List.mem_append_left _ hregister⟩)
  · exact .inr (.inr hsend)

/-- The session `s` has made of the results taken what the loop makes of them. While a message is
with the handler, the loop is one verdict ahead. -/
def Follows (decide : List Envelope → Verdict) (as : List Action) (s : Session)
    (taken : List Received) : Prop :=
  match s.stage with
  | .registering _ | .selecting | .draining | .granting =>
    sequential decide [] taken = (s.dispatched, none)
  | .handling _ => sequential decide [] taken = (s.dispatched, refusal? (decide s.dispatched))
  | .closing why | .ended why => (sequential decide [] taken).1 = s.dispatched ∧
    (CutShort as why ∨ (sequential decide [] taken).2 = some why)
  | .cancelled => False

theorem Follows.concat {taken : List Received} (hf : Follows decide as s taken)
    (hs : t.stage = s.stage) (hd : t.dispatched = s.dispatched) :
    Follows decide (as ++ [a]) t taken := by
  unfold Follows at hf ⊢
  rw [hs, hd]
  cases hstage : s.stage with
  | closing why | ended why =>
    simp only [hstage] at hf ⊢
    exact ⟨hf.1, hf.2.imp_left .concat⟩
  | cancelled => simp only [hstage] at hf
  | _ => simpa only [hstage] using hf

theorem follows_step (hrun : (start name).run as = some s) (hstep : Step s a t)
    (hheeds : (((start name).history as).note s a).Heeds decide)
    (hf : Follows decide as s ((start name).history as).taken) :
    Follows decide (as ++ [a]) t (((start name).history as).note s a).taken := by
  obtain ⟨owed, turn, -⟩ := run_balanced hrun
  cases hstep with
  | registered m hs =>
    simp only [Follows, hs] at hf
    exact hf
  | refused m fault hs =>
    simp only [Follows, hs] at hf
    exact ⟨congrArg Prod.fst hf, .inl (.inr (.inl ⟨fault, by simp⟩))⟩
  | takeLast result why hs hslot hw =>
    simp only [Follows, hs] at hf
    have hseq : sequential decide [] (((start name).history as).taken ++ [result]) =
        (s.dispatched, some why) := by
      rw [sequential_append, hf]
      exact sequential_ending hw
    simp only [Follows, finish, History.note, hslot, Option.toList_some]
    exact ⟨congrArg Prod.fst hseq, .inr (congrArg Prod.snd hseq)⟩
  | takeMessage m hs hslot hm =>
    simp only [Follows, hs] at hf
    simp only [Follows, History.note, hslot, Option.toList_some]
    rw [sequential_append, hf]
    exact sequential_message hm
  | missReader hs hslot hr =>
    simp only [Follows, hs] at hf
    simp only [Follows, finish, History.note, hslot, Option.toList_none, List.append_nil]
    exact ⟨congrArg Prod.fst hf, .inl (.inl (List.mem_append_left _ (turn.of_missing hs hslot hr)))⟩
  | takeFault fault rest hs | drainFault fault rest hs =>
    simp only [Follows, hs] at hf
    exact ⟨congrArg Prod.fst hf, .inl (.inr (.inr ⟨fault, rfl⟩))⟩
  | accept m hs =>
    -- the loop has been one verdict ahead since the dispatch, and this is that verdict
    simp only [Follows, hs] at hf
    have hverdict : .ok () = decide s.dispatched := hheeds (s.dispatched, .ok ()) (by simp [History.note])
    rw [← hverdict] at hf
    exact hf
  | reject m refusal hs =>
    simp only [Follows, hs] at hf
    have hverdict : .error refusal = decide s.dispatched :=
      hheeds (s.dispatched, .error refusal) (by simp [History.note])
    rw [← hverdict] at hf
    exact ⟨congrArg Prod.fst hf, .inr (congrArg Prod.snd hf)⟩
  | drained hs ho | grant hs hr hp =>
    simp only [Follows, hs] at hf
    exact hf
  | grantNobody hs hr => exact absurd hr (turn.ne_stopped hs)
  | close why outcome hs =>
    simp only [Follows, hs] at hf
    exact ⟨hf.1, hf.2.imp_left .concat⟩
  | report outcome hs ho | drop outcome ho =>
    have htaken : (((start name).history as).note s (.report outcome)).taken =
        ((start name).history as).taken := by simp [History.note, ho]
    rw [htaken]
    exact hf.concat rfl rfl
  | _ => exact hf.concat rfl rfl

theorem run_follows (hrun : (start name).run as = some s)
    (hheeds : ((start name).history as).Heeds decide) :
    Follows decide as s ((start name).history as).taken := by
  refine run_induction (P := fun as s h => h.Heeds decide → Follows decide as s h.taken) ?_
    (fun as s a t hs ih hstep hheeds => ?_) hrun hheeds
  · intro _
    rw [start_eq]
    exact rfl
  · exact follows_step hs hstep hheeds (ih hheeds.of_note)

theorem Follows.messages {taken : List Received} (hf : Follows decide as s taken) :
    (sequential decide [] taken).1 = s.dispatched := by
  unfold Follows at hf
  cases hstage : s.stage with
  | closing | ended =>
    simp only [hstage] at hf
    exact hf.1
  | cancelled => simp only [hstage] at hf
  | _ =>
    simp only [hstage] at hf
    exact congrArg Prod.fst hf

/-! ## Refinement -/

theorem taken_prefix {inbound : Stream'.Seq Received} {n : Nat}
    (hrun : (start name).run as = some s) (hdraws : ((start name).history as).DrawsFrom inbound)
    (hn : ((start name).history as).received.length ≤ n) :
    ((start name).history as).taken <+: inbound.take n := by
  obtain ⟨dropped, lost, hflow⟩ := run_flow hrun
  have hreceived : ((start name).history as).received <+: inbound.take n := by
    rw [List.prefix_iff_getElem?]
    intro i hi
    rw [Stream'.Seq.getElem?_take, if_pos (by omega)]
    exact hdraws i _ (List.getElem?_eq_getElem hi)
  refine List.IsPrefix.trans ?_ hreceived
  rw [hflow.results, List.append_assoc, List.append_assoc]
  exact List.prefix_append _ _

theorem ne_send_of_reported (hrun : (start name).run as = some s) (hwhy : s.result? = some why)
    (hreported : ∀ outcome ∈ ((start name).history as).reported, outcome = .ok ())
    (fault : StreamFault) : why ≠ .transport .send fault := by
  rintro rfl
  obtain ⟨before, hchecked, -⟩ := (run_cause hrun hwhy).of_send
  have horder := run_outcomes hrun
  have hmem : .error fault ∈ ((start name).history as).reported := by simp [← horder, hchecked]
  cases hreported _ hmem

/-- **A session refines the sequential loop**, whatever the schedule of its tasks and whatever is
reported to it. The messages dispatched are the first that the loop dispatches; and if the session
returns, but for a failed send, it has dispatched just what the loop dispatches and returns what the
loop returns. If no failed send is reported, this is how it returns. -/
theorem refines_sequential {inbound : Stream'.Seq Received} (hrun : (start name).run as = some s)
    (hdraws : ((start name).history as).DrawsFrom inbound)
    (hheeds : ((start name).history as).Heeds decide) :
    ∀ n, ((start name).history as).received.length ≤ n →
      s.dispatched <+: (sequential decide [] (inbound.take n)).1 ∧
      (.crash ∉ as → (∀ fault, .register (.error fault) ∉ as) → ∀ why, s.result? = some why →
        (∀ fault, why ≠ .transport .send fault) ∨
          (∀ outcome ∈ ((start name).history as).reported, outcome = .ok ()) →
        sequential decide [] (inbound.take n) = (s.dispatched, some why)) := by
  intro n hn
  have htaken := taken_prefix hrun hdraws hn
  have hf := run_follows hrun hheeds
  refine ⟨?_, fun hcrash hregister why hwhy hsends => ?_⟩
  · rw [← hf.messages]
    exact sequential_mono htaken
  · have hsend : ∀ fault, why ≠ .transport .send fault :=
      hsends.elim id (ne_send_of_reported hrun hwhy)
    simp only [Follows, eq_ended_of_result? hwhy] at hf
    obtain ⟨hmessages, ⟨hc | ⟨fault, hr⟩ | ⟨fault, hs⟩⟩ | hend⟩ := hf
    · exact absurd hc hcrash
    · exact absurd hr (hregister fault)
    · exact absurd hs (hsend fault)
    · have hseq : sequential decide [] ((start name).history as).taken = (s.dispatched, some why) :=
        Prod.ext hmessages hend
      obtain ⟨rest, hrest⟩ := htaken
      rw [← hrest, sequential_append, hseq]

/-- What comes in on a stream that ends after one message. -/
def oneMessage : List Received := [.ok { payload := [1] }, .error .closed]

/-- A run on that stream, with a report while the handler is at work. -/
def oneMessageRun : List Action :=
  [.register (.ok ()), .beginReceive, .receive (.ok { payload := [1] }), .handOver, .takeResult,
    .report (.ok ()), .answer (.ok ()), .drain, .drain, .grant, .takePermit, .beginReceive,
    .receive (.error .closed), .handOver, .takeResult, .close (.ok ())]

theorem refines_sequential_oneMessage : ∃ s, (start "mycc").run oneMessageRun = some s ∧
    s.result? = some .streamEnded ∧
    sequential (fun _ => .ok ()) [] ((Stream'.Seq.ofList oneMessage).take 2) =
      (s.dispatched, some .streamEnded) := by
  obtain ⟨s, hrun, hwhy⟩ : ∃ s, (start "mycc").run oneMessageRun = some s ∧
      s.result? = some .streamEnded := ⟨_, rfl, rfl⟩
  have hdraws : ((start "mycc").history oneMessageRun).DrawsFrom (Stream'.Seq.ofList oneMessage) := by
    intro i result hi
    rw [Stream'.Seq.ofList_get?]
    exact hi
  have hheeds : ((start "mycc").history oneMessageRun).Heeds fun _ => .ok () := by
    intro entry hmem
    have hverdicts : ((start "mycc").history oneMessageRun).verdicts =
        [([{ payload := [1] }], .ok ())] := rfl
    rw [hverdicts, List.mem_singleton] at hmem
    rw [hmem]
  have hrefines := (refines_sequential hrun hdraws hheeds 2 (by decide)).2
  exact ⟨s, hrun, hwhy, hrefines (by simp [oneMessageRun]) (by simp [oneMessageRun]) _ hwhy
    (.inl (by simp))⟩

end Chaincode.Session
