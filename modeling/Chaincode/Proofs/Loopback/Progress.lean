import Mathlib.Algebra.Ring.Nat
import Chaincode.Proofs.Loopback.Items

/-!
# Receives get done

The steps that receives under way take by themselves are so many and no more (`stepsLeft_run`), so that
they come to a standstill (`exists_settled`). Those that are left then stand in line for an item that
nobody has queued, and it can still come (`Settled.waits`); they can be dropped, and others started
(`exists_start_drop`). A receive that is not dropped is under way until it returns something (`kept_run`);
so once nothing more can come and everything has been taken, every receive returns the end
(`received_end_of_settled`).
-/

namespace Chaincode.Loopback

/-! ## Steps that receives take by themselves -/

/-- Is it a step of a receive that is under way, not dropped? -/
def Action.isReceives : Action → Bool
  | .enter _ | .record _ | .lineUp _ | .take _ | .leave _ => true
  | .start | .drop _ | .send _ | .closeSend | .dropStream | .push _ | .hangUp | .failSends _ | .drain
  | .nextSent | .dropPeer => false

/-- How many steps a receive still has to take. -/
def Progress.stepsLeft : Progress → Nat
  | .counted => 5
  | .entered _ => 4
  | .recorded => 3
  | .inLine => 2
  | .leaving _ => 1

/-- How many steps the receives under way still have to take. -/
def stepsLeft (l : Loopback) : Nat := (l.calls.map (·.progress.stepsLeft)).sum

/-- Can no receive that is under way take a step by itself? -/
def Settled (l : Loopback) : Prop := ∀ a : Action, a.isReceives = true → l.step a = none

/-- Has a receive neither taken an item nor been dropped? -/
def Call.Waits (c : Call) : Prop := ∀ result, c.progress ≠ .leaving result

variable {l l' : Loopback} {a : Action} {as bs : List Action} {s : Shown} {shown more : List Shown}
  {id : Nat} {c : Call}

theorem stepsLeft_step (hstep : Steps l a s l') (ha : a.isReceives = true) :
    l'.stepsLeft + 1 = l.stepsLeft := by
  cases hstep with
  | enter id before after hcalls | record id now before after hcalls | lineUp id before after hcalls
  | take id item rest waiting before after hnext hline hcalls | leave id result before after hcalls =>
    simp only [stepsLeft, hcalls, List.map_append, List.map_cons, List.sum_append, List.sum_cons,
      Progress.stepsLeft]
    omega
  | _ => cases ha

theorem stepsLeft_run (hs : Sound l) (hrun : l.run bs = some (more, l'))
    (hown : ∀ a ∈ bs, a.isReceives = true) : l'.stepsLeft + bs.length = l.stepsLeft := by
  induction bs generalizing l more with
  | nil =>
    cases hrun
    rfl
  | cons a bs ih =>
    obtain ⟨s, t, later, hstep, hrest, -⟩ := run_cons.1 hrun
    have hsteps := Steps.of_step hs hstep
    have hleft := ih (sound_step hsteps hs) hrest fun a ha => hown a (List.mem_cons_of_mem _ ha)
    have hone := stepsLeft_step hsteps (hown a List.mem_cons_self)
    rw [List.length_cons]
    omega

theorem exists_settled (hs : Sound l) : ∃ bs more l',
    (∀ a ∈ bs, a.isReceives = true) ∧ l.run bs = some (more, l') ∧ Settled l' := by
  generalize hleft : l.stepsLeft = n
  induction n generalizing l with
  | zero =>
    refine ⟨[], [], l, by simp, rfl, fun a ha => ?_⟩
    cases hstep : l.step a with
    | none => rfl
    | some found =>
      have hone := stepsLeft_step (Steps.of_step hs hstep) ha
      omega
  | succ n ih =>
    by_cases hsettled : Settled l
    · exact ⟨[], [], l, by simp, rfl, hsettled⟩
    · obtain ⟨a, hne⟩ := not_forall.1 hsettled
      obtain ⟨ha, hne⟩ := Classical.not_imp.1 hne
      obtain ⟨⟨s, t⟩, hstep⟩ := Option.ne_none_iff_exists'.1 hne
      have hsteps := Steps.of_step hs hstep
      have hone := stepsLeft_step hsteps ha
      obtain ⟨bs, more, l', hown, hrun, hdone⟩ := ih (sound_step hsteps hs) (by omega)
      refine ⟨a :: bs, s :: more, l', List.forall_mem_cons.2 ⟨ha, hown⟩, ?_, hdone⟩
      exact run_cons.2 ⟨s, t, more, hstep, hrun, rfl⟩

/-! ## When receives stand still -/

theorem next?_eq_none_iff :
    l.next? = none ↔ l.inbound = [] ∧ l.hungUp = false ∧ l.peerGone = false := by
  rw [next?.eq_def]
  cases l.inbound with
  | nil => cases l.hungUp <;> cases l.peerGone <;> simp
  | cons item rest => simp

theorem Settled.inLine (hs : Sound l) (h : Settled l) (hc : c ∈ l.calls) :
    c.progress = .inLine ∧ l.next? = none := by
  obtain ⟨id, progress⟩ := c
  have hstream : l.streamGone = false := by
    by_contra hgone
    rw [hs.stays (by simpa using hgone)] at hc
    cases hc
  have hp := hs.progress?_eq hc
  cases progress with
  | counted =>
    have hstep := h (.enter id) rfl
    simp [step, Action.isPeers, hstream, enter, hp] at hstep
  | entered now =>
    have hstep := h (.record id) rfl
    simp [step, Action.isPeers, hstream, record, hp] at hstep
  | recorded =>
    have hstep := h (.lineUp id) rfl
    simp [step, Action.isPeers, hstream, lineUp, hp] at hstep
  | leaving result =>
    have hstep := h (.leave id) rfl
    simp [step, Action.isPeers, hstream, leave, hp] at hstep
  | inLine =>
    refine ⟨rfl, ?_⟩
    have hid : id ∈ l.line := hs.line.mem_iff.2 (List.mem_filterMap.2 ⟨_, hc, rfl⟩)
    obtain ⟨head, hhead⟩ : ∃ head, l.line.getLast? = some head :=
      ⟨_, List.getLast?_eq_some_getLast (List.ne_nil_of_mem hid)⟩
    -- whoever heads the line would take what there is
    have hstep := h (.take head) rfl
    cases hnext : l.next? with
    | none => rfl
    | some found => simp [step, Action.isPeers, hstream, take, hnext, hhead] at hstep

theorem Settled.waits (hrun : run {} as = some (shown, l)) (h : Settled l) (hc : c ∈ l.calls) :
    c.progress = .inLine ∧ Emptied (as.zip shown) ∧ ¬ Ended (as.zip shown) := by
  obtain ⟨hline, hnext⟩ := h.inLine (sound_run .fresh hrun) hc
  obtain ⟨hinbound, hhungUp, hpeer⟩ := next?_eq_none_iff.1 hnext
  have hst := standing_run hrun
  refine ⟨hline, ?_, ?_⟩
  · rw [(dealing_run hrun).inbound, List.drop_eq_nil_iff] at hinbound
    exact hinbound
  · rw [Ended, ← hst.hungUp, ← hst.peerGone, hhungUp, hpeer]
    simp

/-! ## Acting at any time -/

theorem exists_step_of_isPeers (hrun : run {} as = some (shown, l))
    (hpeer : ¬ Happened (as.zip shown) .dropPeer) (ha : a.isPeers = true) (hnext : a ≠ .nextSent) :
    ∃ s l', l.step a = some (s, l') := by
  rw [← (standing_run hrun).peerGone, Bool.not_eq_true] at hpeer
  cases a with
  | nextSent => exact absurd rfl hnext
  | push item | hangUp | failSends on | drain | dropPeer => simp [step, Action.isPeers, hpeer]
  | _ => cases ha

theorem exists_start_drop (hrun : run {} as = some (shown, l))
    (hstream : ¬ Happened (as.zip shown) .dropStream) :
    (∃ l', l.step .start = some (.nothing, l')) ∧
      ∀ c ∈ l.calls, c.progress = .recorded ∨ c.progress = .inLine →
        ∃ l', l.step (.drop c.id) = some (.nothing, l') := by
  rw [← (standing_run hrun).streamGone, Bool.not_eq_true] at hstream
  refine ⟨by simp [step, Action.isPeers, hstream], ?_⟩
  rintro ⟨id, progress⟩ hc hwaits
  have hp := (sound_run .fresh hrun).progress?_eq hc
  rcases hwaits with rfl | rfl <;> simp [step, Action.isPeers, hstream, drop, hp]

/-! ## Until it returns -/

/-- Is the receive under way and not dropped? -/
def Kept (l : Loopback) (id : Nat) : Prop := ∃ p, ⟨id, p⟩ ∈ l.calls ∧ p ≠ .leaving none

theorem Kept.advance {before after : List Call} {i : Nat} {p q : Progress} (h : Kept l id)
    (hcalls : l.calls = before ++ ⟨i, p⟩ :: after) (hcalls' : l'.calls = before ++ ⟨i, q⟩ :: after)
    (hq : i = id → q ≠ .leaving none) : Kept l' id := by
  obtain ⟨p', hmem, hp'⟩ := h
  rw [hcalls, List.mem_append, List.mem_cons] at hmem
  rcases hmem with hmem | heq | hmem
  · exact ⟨p', by simp [hcalls', hmem], hp'⟩
  · cases heq
    exact ⟨q, by simp [hcalls'], hq rfl⟩
  · exact ⟨p', by simp [hcalls', hmem], hp'⟩

theorem kept_step (hs : Sound l) (hstep : Steps l a s l') (h : Kept l id) (hdrop : a ≠ .drop id) :
    Kept l' id ∨ ∃ r, s = .received id (some r) := by
  cases hstep with
  | start =>
    obtain ⟨p, hmem, hp⟩ := h
    exact .inl ⟨p, List.mem_cons_of_mem _ hmem, hp⟩
  | enter i before after hcalls | record i now before after hcalls | lineUp i before after hcalls
  | take i item rest waiting before after hnext hline hcalls =>
    exact .inl (h.advance hcalls rfl fun _ hq => by cases hq)
  | drop i before after hcalls | dropEarly i before after hcalls =>
    refine .inl (h.advance hcalls rfl fun heq => ?_)
    rw [heq] at hdrop
    exact absurd rfl hdrop
  | leave i result before after hcalls =>
    obtain ⟨p, hmem, hp⟩ := h
    by_cases hi : i = id
    · subst hi
      have hresult : some p = some (.leaving result) := by
        have hleaving : ⟨i, .leaving result⟩ ∈ l.calls := by simp [hcalls]
        rw [← hs.progress?_eq hmem, hs.progress?_eq hleaving]
      cases hresult
      cases result with
      | none => exact absurd rfl hp
      | some r => exact .inr ⟨r, rfl⟩
    · refine .inl ⟨p, ?_, hp⟩
      rw [hcalls, List.mem_append, List.mem_cons] at hmem
      rcases hmem with hmem | heq | hmem
      · exact List.mem_append_left _ hmem
      · cases heq
        exact absurd rfl hi
      · exact List.mem_append_right _ hmem
  | _ => exact .inl h

theorem kept_run (hs : Sound l) (hrun : l.run bs = some (more, l')) (h : Kept l id)
    (hdrop : .drop id ∉ bs) : Kept l' id ∨ ∃ r, .received id (some r) ∈ more := by
  induction bs generalizing l more with
  | nil =>
    cases hrun
    exact .inl h
  | cons a bs ih =>
    obtain ⟨s, t, later, hstep, hrest, rfl⟩ := run_cons.1 hrun
    have hsteps := Steps.of_step hs hstep
    rw [List.mem_cons, not_or] at hdrop
    rcases kept_step hs hsteps h (Ne.symm hdrop.1) with hkept | ⟨r, rfl⟩
    · refine (ih (sound_step hsteps hs) hrest hkept hdrop.2).imp_right ?_
      rintro ⟨r, hr⟩
      exact ⟨r, List.mem_cons_of_mem _ hr⟩
    · exact .inr ⟨r, List.mem_cons_self⟩

theorem received_end_of_settled (hrun : run {} as = some (shown, l)) (hended : Ended (as.zip shown))
    (hemptied : Emptied (as.zip shown)) (hmore : l.run bs = some (more, l')) (hsettled : Settled l')
    (hc : c ∈ l.calls) (hwaits : c.Waits) (hdrop : .drop c.id ∉ bs) :
    .received c.id (some (.error .closed)) ∈ more := by
  have hs := sound_run .fresh hrun
  have hwhole : run {} (as ++ bs) = some (shown ++ more, l') :=
    run_append.2 ⟨shown, l, more, hrun, hmore, rfl⟩
  rcases kept_run hs hmore ⟨c.progress, hc, hwaits none⟩ hdrop with ⟨p, hmem, -⟩ | ⟨r, hr⟩
  · have hopen := (hsettled.waits hwhole hmem).2.2
    rw [List.zip_append (length_of_run hrun).symm] at hopen
    exact absurd (hended.append _) hopen
  · rcases received_of_ended hrun hended hemptied hmore hr with hhand | rfl
    · obtain ⟨⟨i, p⟩, hmem, hholds⟩ := List.mem_filterMap.1 hhand
      rw [Call.holds?.eq_def] at hholds
      split at hholds
      · rename_i heq
        cases hholds
        cases heq
        have hprogress : some c.progress = some (.leaving (some r)) :=
          (hs.progress?_eq hc).symm.trans (hs.progress?_eq hmem)
        exact absurd (Option.some.inj hprogress) (hwaits _)
      · cases hholds
    · exact hr

end Chaincode.Loopback
