import Mathlib.Data.List.Induction
import Mathlib.Data.List.Nodup
import Mathlib.Data.List.Perm.Basic
import Chaincode.Loopback

/-!
# What can happen to a loopback

`Steps` lists the ways in which a loopback moves and what each shows, with the receive that moves set
apart from the others (`Steps.of_step`); no proof about runs opens `Loopback.step`. The receives have
numbers of their own, and those in line are those that say so (`Sound`). What holds of a new loopback and
is kept by every step holds of the record of every run (`run_induction`). The calls that the two ends make
as a whole are runs of these steps (`run_beginReceive`, `run_poll`, `run_abandon`, `run_drain`).
-/

namespace Chaincode.Loopback

variable {l l' : Loopback} {a : Action} {as bs : List Action} {s : Shown} {shown : List Shown}
  {id : Nat} {p : Progress}

/-! ## One receive among others -/

theorem moveOn_append {before : List Call} (hbefore : ∀ c ∈ before, c.id ≠ id) (q : Progress)
    (after : List Call) : moveOn id q (before ++ ⟨id, p⟩ :: after) = before ++ ⟨id, q⟩ :: after := by
  induction before with
  | nil => rw [List.nil_append, moveOn, if_pos rfl, List.nil_append]
  | cons c before ih =>
    have hc : c.id ≠ id := hbefore c List.mem_cons_self
    rw [List.cons_append, moveOn, if_neg hc, List.cons_append,
      ih fun c hc => hbefore c (List.mem_cons_of_mem _ hc)]

theorem exists_split (h : l.progress? id = some p) : ∃ before after,
    l.calls = before ++ ⟨id, p⟩ :: after ∧
      (∀ q, l.advance id q = { l with calls := before ++ ⟨id, q⟩ :: after }) ∧
      l.calls.eraseP (·.id = id) = before ++ after := by
  obtain ⟨⟨i, p'⟩, hfind, rfl⟩ := Option.map_eq_some_iff.1 h
  obtain ⟨hid, before, after, hcalls, hbefore⟩ := List.find?_eq_some_iff_append.1 hfind
  obtain rfl : i = id := by simpa using hid
  have hne : ∀ c ∈ before, c.id ≠ i := fun c hc => by simpa using hbefore c hc
  refine ⟨before, after, hcalls, fun q => ?_, ?_⟩
  · rw [advance, hcalls, moveOn_append hne]
  · rw [hcalls, List.eraseP_append_right _ fun c hc => by simpa using hne c hc,
      List.eraseP_cons_of_pos (by simp)]

section

variable {α β : Type} (f : α → Option β) {before after : List α} {x : α} {y : β}

theorem filterMap_middle_some (h : f x = some y) :
    (before ++ x :: after).filterMap f = before.filterMap f ++ y :: after.filterMap f := by
  rw [List.filterMap_append, List.filterMap_cons_some h]

theorem filterMap_middle_none (h : f x = none) :
    (before ++ x :: after).filterMap f = (before ++ after).filterMap f := by
  rw [List.filterMap_append, List.filterMap_cons_none h, List.filterMap_append]

end

/-- The number of a receive that stands in line. -/
def Call.waits? : Call → Option Nat
  | ⟨id, .inLine⟩ => some id
  | _ => none

/-- How a loopback and the receives on it stand. -/
structure Sound (l : Loopback) : Prop where
  ids : (l.calls.map (·.id)).Nodup
  known : ∀ c ∈ l.calls, c.id < l.tally.receives
  line : l.line.Perm (l.calls.filterMap (·.waits?))
  /-- The chaincode's end stays while a receive is under way. -/
  stays : l.streamGone = true → l.calls = []

theorem Sound.progress?_eq (hs : Sound l) (hmem : ⟨id, p⟩ ∈ l.calls) : l.progress? id = some p := by
  obtain ⟨before, after, hcalls⟩ := List.append_of_mem hmem
  have hids := hs.ids
  rw [hcalls, List.map_append, List.map_cons] at hids
  have hne : ∀ c ∈ before, c.id ≠ id := fun c hc heq =>
    (List.nodup_append.1 hids).2.2 c.id (List.mem_map_of_mem hc) id List.mem_cons_self heq
  have hfind : l.calls.find? (·.id = id) = some ⟨id, p⟩ := by
    rw [List.find?_eq_some_iff_append]
    exact ⟨by simp, before, after, hcalls, fun c hc => by simpa using hne c hc⟩
  rw [progress?, hfind, Option.map_some]

theorem Sound.progress?_of_line (hs : Sound l) (hid : id ∈ l.line) : l.progress? id = some .inLine := by
  obtain ⟨c, hc, hwaits⟩ := List.mem_filterMap.1 (hs.line.mem_iff.1 hid)
  rw [Call.waits?.eq_def] at hwaits
  split at hwaits
  · cases hwaits
    exact hs.progress?_eq hc
  · cases hwaits

/-! ## Steps -/

/-- The ways in which a loopback moves, and what each shows. -/
inductive Steps (l : Loopback) : Action → Shown → Loopback → Prop where
  | start (hstream : l.streamGone = false) : Steps l .start .nothing l.start
  | enter (id : Nat) (before after : List Call) (hcalls : l.calls = before ++ ⟨id, .counted⟩ :: after) :
      Steps l (.enter id) .nothing
        { l with
          tally.underWay := l.tally.underWay + 1
          calls := before ++ ⟨id, .entered (l.tally.underWay + 1)⟩ :: after }
  | record (id now : Nat) (before after : List Call)
      (hcalls : l.calls = before ++ ⟨id, .entered now⟩ :: after) :
      Steps l (.record id) .nothing
        { l with
          tally.mostUnderWay := max l.tally.mostUnderWay now
          calls := before ++ ⟨id, .recorded⟩ :: after }
  | lineUp (id : Nat) (before after : List Call) (hcalls : l.calls = before ++ ⟨id, .recorded⟩ :: after) :
      Steps l (.lineUp id) .nothing
        { l with line := id :: l.line, calls := before ++ ⟨id, .inLine⟩ :: after }
  | take (id : Nat) (item : Received) (rest : List Received) (waiting : List Nat)
      (before after : List Call) (hnext : l.next? = some (item, rest)) (hline : l.line = waiting ++ [id])
      (hcalls : l.calls = before ++ ⟨id, .inLine⟩ :: after) :
      Steps l (.take id) .nothing
        { l with
          inbound := rest
          line := waiting
          calls := before ++ ⟨id, .leaving (some item)⟩ :: after }
  | drop (id : Nat) (before after : List Call) (hcalls : l.calls = before ++ ⟨id, .inLine⟩ :: after) :
      Steps l (.drop id) .nothing
        { l with line := l.line.erase id, calls := before ++ ⟨id, .leaving none⟩ :: after }
  /-- It has not joined the line. -/
  | dropEarly (id : Nat) (before after : List Call)
      (hcalls : l.calls = before ++ ⟨id, .recorded⟩ :: after) :
      Steps l (.drop id) .nothing { l with calls := before ++ ⟨id, .leaving none⟩ :: after }
  | leave (id : Nat) (result : Option Received) (before after : List Call)
      (hcalls : l.calls = before ++ ⟨id, .leaving result⟩ :: after) :
      Steps l (.leave id) (.received id result)
        { l with tally.underWay := l.tally.underWay - 1, calls := before ++ after }
  | send (m : Envelope) (hsends : l.failing = false) (hopen : l.tally.closes = 0)
      (hpeer : l.peerGone = false) :
      Steps l (.send m) (.sent (.ok ())) { l with outbound := l.outbound ++ [m] }
  | refuse (m : Envelope) (fault : StreamFault)
      (hwhy : l.failing = true ∨ 0 < l.tally.closes ∨ l.peerGone = true) :
      Steps l (.send m) (.sent (.error fault)) l
  | closeSend : Steps l .closeSend (.sent (.ok ())) l.closeSend
  | dropStream (hcalls : l.calls = []) : Steps l .dropStream .nothing l.dropStream
  | push (item : Received) (hpeer : l.peerGone = false) (hopen : l.hungUp = false) :
      Steps l (.push item) .nothing { l with inbound := l.inbound ++ [item] }
  /-- The peer has hung up. -/
  | pushLate (item : Received) (hpeer : l.peerGone = false) (hdone : l.hungUp = true) :
      Steps l (.push item) .nothing l
  | hangUp : Steps l .hangUp .nothing l.hangUp
  | failSends (on : Bool) : Steps l (.failSends on) .nothing (l.failSends on)
  | drain (hpeer : l.peerGone = false) : Steps l .drain (.drained l.outbound) { l with outbound := [] }
  | nextSent (m : Envelope) (rest : List Envelope) (hpeer : l.peerGone = false)
      (hsent : l.outbound = m :: rest) :
      Steps l .nextSent (.read (some m)) { l with outbound := rest }
  /-- The chaincode's end is gone, and everything it sent has been read. -/
  | noneSent (hpeer : l.peerGone = false) (hsent : l.outbound = []) (hstream : l.streamGone = true) :
      Steps l .nextSent (.read none) l
  | dropPeer : Steps l .dropPeer .nothing l.dropPeer

theorem Steps.of_send {m : Envelope} {outcome : Sent} (h : l.send m = (outcome, l')) :
    Steps l (.send m) (.sent outcome) l' := by
  rw [Loopback.send] at h
  split at h
  · cases h
    exact .refuse m _ (.inl ‹_›)
  · rename_i hfailing
    split at h
    · cases h
      exact .refuse m _ (.inr (.inl ‹_›))
    · rename_i hcloses
      split at h
      · cases h
        exact .refuse m _ (.inr (.inr ‹_›))
      · rename_i hpeer
        cases h
        exact .send m (by simpa using hfailing) (by omega) (by simpa using hpeer)

theorem Steps.of_step (hs : Sound l) (h : l.step a = some (s, l')) : Steps l a s l' := by
  by_cases hgone : (if a.isPeers then l.peerGone else l.streamGone) = true
  · rw [step.eq_def, if_pos hgone] at h
    cases h
  rw [step.eq_def, if_neg hgone] at h
  have hpresent := Bool.eq_false_iff.2 hgone
  cases a with
  | start =>
    cases h
    exact .start hpresent
  | enter id =>
    obtain ⟨t, h, ht⟩ := Option.map_eq_some_iff.1 h
    cases ht
    rw [Loopback.enter] at h
    split at h
    · rename_i hp
      obtain ⟨before, after, hcalls, hadvance, -⟩ := exists_split hp
      cases h
      rw [hadvance]
      exact .enter id before after hcalls
    · cases h
  | record id =>
    obtain ⟨t, h, ht⟩ := Option.map_eq_some_iff.1 h
    cases ht
    rw [Loopback.record] at h
    split at h
    · rename_i now hp
      obtain ⟨before, after, hcalls, hadvance, -⟩ := exists_split hp
      cases h
      rw [hadvance]
      exact .record id now before after hcalls
    · cases h
  | lineUp id =>
    obtain ⟨t, h, ht⟩ := Option.map_eq_some_iff.1 h
    cases ht
    rw [Loopback.lineUp] at h
    split at h
    · rename_i hp
      obtain ⟨before, after, hcalls, hadvance, -⟩ := exists_split hp
      cases h
      rw [hadvance]
      exact .lineUp id before after hcalls
    · cases h
  | take id =>
    obtain ⟨t, h, ht⟩ := Option.map_eq_some_iff.1 h
    cases ht
    rw [Loopback.take] at h
    split at h
    · rename_i item rest hnext
      split at h
      · rename_i hlast
        obtain ⟨waiting, hline⟩ := List.getLast?_eq_some_iff.1 hlast
        have hid : id ∈ l.line := by simp [hline]
        obtain ⟨before, after, hcalls, hadvance, -⟩ := exists_split (hs.progress?_of_line hid)
        cases h
        rw [hadvance, hline, List.dropLast_concat]
        exact .take id item rest waiting before after hnext hline hcalls
      · cases h
    · cases h
  | drop id =>
    obtain ⟨t, h, ht⟩ := Option.map_eq_some_iff.1 h
    cases ht
    rw [Loopback.drop] at h
    split at h
    · rename_i hp
      obtain ⟨before, after, hcalls, hadvance, -⟩ := exists_split hp
      have hid : id ∉ l.line := fun hid => by cases hp.symm.trans (hs.progress?_of_line hid)
      cases h
      rw [hadvance, List.erase_of_not_mem hid]
      exact .dropEarly id before after hcalls
    · rename_i hp
      obtain ⟨before, after, hcalls, hadvance, -⟩ := exists_split hp
      cases h
      rw [hadvance]
      exact .drop id before after hcalls
    · cases h
  | leave id =>
    obtain ⟨⟨result, t⟩, h, ht⟩ := Option.map_eq_some_iff.1 h
    cases ht
    rw [Loopback.leave] at h
    split at h
    · rename_i result' hp
      obtain ⟨before, after, hcalls, -, herase⟩ := exists_split hp
      cases h
      rw [herase]
      exact .leave id _ before after hcalls
    · cases h
  | send m =>
    cases h
    exact .of_send rfl
  | closeSend =>
    cases h
    exact .closeSend
  | dropStream =>
    simp only [List.isEmpty_iff] at h
    split at h
    · cases h
      exact .dropStream ‹_›
    · cases h
  | push item =>
    cases h
    have hpeer : l.peerGone = false := hpresent
    cases hhung : l.hungUp with
    | true =>
      have hpush : l.push item = l := by simp [Loopback.push, hhung]
      rw [hpush]
      exact .pushLate item hpeer hhung
    | false =>
      have hpush : l.push item = { l with inbound := l.inbound ++ [item] } := by
        simp [Loopback.push, hhung, hpeer]
      rw [hpush]
      exact .push item hpeer hhung
  | hangUp =>
    cases h
    exact .hangUp
  | failSends on =>
    cases h
    exact .failSends on
  | drain =>
    cases h
    exact .drain hpresent
  | nextSent =>
    cases hsent : l.outbound with
    | cons m rest =>
      have hnext : l.nextSent = (some (some m), { l with outbound := rest }) := by
        simp [Loopback.nextSent, hsent]
      rw [hnext] at h
      cases h
      exact .nextSent m rest hpresent hsent
    | nil =>
      cases hstream : l.streamGone with
      | true =>
        have hnext : l.nextSent = (some none, l) := by simp [Loopback.nextSent, hsent, hstream]
        rw [hnext] at h
        cases h
        exact .noneSent hpresent hsent hstream
      | false =>
        have hnext : l.nextSent = (none, l) := by simp [Loopback.nextSent, hsent, hstream]
        rw [hnext] at h
        cases h
  | dropPeer =>
    cases h
    exact .dropPeer

/-! ## What holds all along -/

theorem Sound.fresh : Sound {} where
  ids := .nil
  known := by simp
  line := .nil
  stays := fun _ => rfl

theorem Sound.advance {q : Progress} {before after : List Call} {inbound : List Received}
    {tally : Tally} {line : List Nat} (hs : Sound l) (hcalls : l.calls = before ++ ⟨id, p⟩ :: after)
    (htally : tally.receives = l.tally.receives)
    (hline : line.Perm ((before ++ ⟨id, q⟩ :: after).filterMap (·.waits?))) :
    Sound { l with inbound, tally, line, calls := before ++ ⟨id, q⟩ :: after } where
  ids := by
    have hids := hs.ids
    rw [hcalls] at hids
    simpa using hids
  known := by
    intro c hc
    have hknown := hs.known
    rw [hcalls] at hknown
    rw [htally]
    rcases List.mem_append.1 hc with hc | hc
    · exact hknown c (List.mem_append_left _ hc)
    · rcases List.mem_cons.1 hc with rfl | hc
      · exact hknown ⟨id, p⟩ (by simp)
      · exact hknown c (by simp [hc])
  line := hline
  stays := by
    intro hgone
    rw [hs.stays hgone] at hcalls
    simp at hcalls

theorem sound_step (hstep : Steps l a s l') (hs : Sound l) : Sound l' := by
  have hline := hs.line
  cases hstep with
  | start hstream =>
    refine ⟨?_, ?_, hline, fun hgone => ?_⟩
    · rw [start, List.map_cons, List.nodup_cons]
      refine ⟨fun hmem => ?_, hs.ids⟩
      obtain ⟨c, hc, hid⟩ := List.mem_map.1 hmem
      exact Nat.lt_irrefl _ (hid ▸ hs.known c hc)
    · intro c hc
      rcases List.mem_cons.1 hc with rfl | hc
      · exact Nat.lt_succ_self _
      · exact Nat.lt_succ_of_lt (hs.known c hc)
    · cases hstream.symm.trans hgone
  | enter id before after hcalls | record id now before after hcalls | dropEarly id before after hcalls =>
    refine hs.advance hcalls rfl ?_
    rw [hcalls, filterMap_middle_none Call.waits? rfl] at hline
    rw [filterMap_middle_none Call.waits? rfl]
    exact hline
  | lineUp id before after hcalls =>
    refine hs.advance hcalls rfl ?_
    rw [hcalls, filterMap_middle_none Call.waits? rfl, List.filterMap_append] at hline
    rw [filterMap_middle_some Call.waits? rfl]
    exact (hline.cons id).trans List.perm_middle.symm
  | take id item rest waiting before after hnext hhead hcalls =>
    refine hs.advance hcalls rfl ?_
    rw [hcalls, hhead, filterMap_middle_some Call.waits? rfl] at hline
    rw [filterMap_middle_none Call.waits? rfl, List.filterMap_append]
    exact ((List.perm_append_singleton id waiting).symm.trans (hline.trans List.perm_middle)).cons_inv
  | drop id before after hcalls =>
    refine hs.advance hcalls rfl ?_
    rw [hcalls, filterMap_middle_some Call.waits? rfl] at hline
    rw [filterMap_middle_none Call.waits? rfl, List.filterMap_append]
    have herase := (hline.trans List.perm_middle).erase id
    rwa [List.erase_cons_head] at herase
  | leave id result before after hcalls =>
    have hsub : (before ++ after).Sublist l.calls := by
      rw [hcalls]
      exact (List.Sublist.refl before).append (List.sublist_cons_self _ _)
    refine ⟨hs.ids.sublist (hsub.map _), fun c hc => hs.known c (hsub.subset hc), ?_, fun hgone => ?_⟩
    · rw [hcalls, filterMap_middle_none Call.waits? rfl] at hline
      exact hline
    · rw [hs.stays hgone] at hsub
      exact List.sublist_nil.1 hsub
  | dropStream hcalls => exact ⟨hs.ids, hs.known, hline, fun _ => hcalls⟩
  | _ => exact ⟨hs.ids, hs.known, hline, hs.stays⟩

/-! ## Runs -/

theorem run_cons : l.run (a :: as) = some (shown, l') ↔ ∃ s t later,
    l.step a = some (s, t) ∧ t.run as = some (later, l') ∧ shown = s :: later := by
  simp only [run, Option.bind_eq_bind, Option.bind_eq_some_iff, Option.pure_def, Option.some.injEq,
    Prod.exists, Prod.mk.injEq]
  constructor
  · rintro ⟨s, t, hstep, later, u, hrest, rfl, rfl⟩
    exact ⟨s, t, later, hstep, hrest, rfl⟩
  · rintro ⟨s, t, later, hstep, hrest, rfl⟩
    exact ⟨s, t, hstep, later, l', hrest, rfl, rfl⟩

theorem run_append {more : List Shown} {l'' : Loopback} :
    l.run (as ++ bs) = some (more, l'') ↔ ∃ shown l' later,
      l.run as = some (shown, l') ∧ l'.run bs = some (later, l'') ∧ more = shown ++ later := by
  induction as generalizing l more with
  | nil => simp [run]
  | cons a as ih =>
    rw [List.cons_append, run_cons]
    constructor
    · rintro ⟨s, t, _, hstep, hrun, rfl⟩
      obtain ⟨shown, l', later, hfirst, hrest, rfl⟩ := ih.1 hrun
      exact ⟨s :: shown, l', later, run_cons.2 ⟨s, t, shown, hstep, hfirst, rfl⟩, hrest, rfl⟩
    · rintro ⟨_, l', later, hfirst, hrest, rfl⟩
      obtain ⟨s, t, shown, hstep, hrun, rfl⟩ := run_cons.1 hfirst
      exact ⟨s, t, shown ++ later, hstep, ih.2 ⟨shown, l', later, hrun, hrest, rfl⟩, rfl⟩

theorem run_singleton : l.run [a] = some (shown, l') ↔ ∃ s, l.step a = some (s, l') ∧ shown = [s] := by
  rw [run_cons]
  constructor
  · rintro ⟨s, t, later, hstep, hrest, rfl⟩
    cases hrest
    exact ⟨s, hstep, rfl⟩
  · rintro ⟨s, hstep, rfl⟩
    exact ⟨s, l', [], hstep, rfl, rfl⟩

theorem length_of_run (hrun : l.run as = some (shown, l')) : shown.length = as.length := by
  induction as generalizing l shown with
  | nil =>
    cases hrun
    rfl
  | cons a as ih =>
    obtain ⟨s, t, later, -, hrest, rfl⟩ := run_cons.1 hrun
    rw [List.length_cons, List.length_cons, ih hrest]

theorem sound_run (hs : Sound l) (hrun : l.run as = some (shown, l')) : Sound l' := by
  induction as generalizing l shown with
  | nil =>
    cases hrun
    exact hs
  | cons a as ih =>
    obtain ⟨s, t, later, hstep, hrest, rfl⟩ := run_cons.1 hrun
    exact ih (sound_step (.of_step hs hstep) hs) hrest

/-- What holds of a new loopback and is kept by every step holds of the record of every run. -/
theorem run_induction {P : List (Action × Shown) → Loopback → Prop} (start : P [] {})
    (next : ∀ as shown l a s l', run {} as = some (shown, l) → P (as.zip shown) l → Steps l a s l' →
      P (as.zip shown ++ [(a, s)]) l')
    (hrun : run {} as = some (shown, l)) : P (as.zip shown) l := by
  induction as using List.reverseRecOn generalizing l shown with
  | nil =>
    cases hrun
    exact start
  | append_singleton as a ih =>
    obtain ⟨shown, l', later, hbefore, hlast, rfl⟩ := run_append.1 hrun
    obtain ⟨s, hstep, rfl⟩ := run_singleton.1 hlast
    rw [List.zip_append (length_of_run hbefore).symm]
    exact next as shown l' a s l hbefore (ih hbefore) (.of_step (sound_run .fresh hbefore) hstep)

/-! ## Whole calls -/

theorem run_beginReceive (hstream : l.streamGone = false) :
    l.run [.start, .enter l.tally.receives, .record l.tally.receives, .lineUp l.tally.receives] =
      some ([.nothing, .nothing, .nothing, .nothing], l.beginReceive.2) := by
  simp [run, step, Action.isPeers, hstream, start, enter, record, lineUp, progress?, advance, moveOn,
    beginReceive]

theorem streamGone_of_take (h : l.take id = some l') : l'.streamGone = l.streamGone := by
  rw [take] at h
  split at h
  · split at h
    · cases h
      rfl
    · cases h
  · cases h

theorem run_poll {r : Received} (hstream : l.streamGone = false) (hpoll : l.poll id = some (r, l')) :
    l.run [.take id, .leave id] = some ([.nothing, .received id (some r)], l') := by
  simp only [poll, Option.bind_eq_bind, Option.bind_eq_some_iff, Option.pure_def, Option.some.injEq,
    Prod.exists, Prod.mk.injEq] at hpoll
  obtain ⟨t, htake, result, u, hleave, r', rfl, rfl, rfl⟩ := hpoll
  have hstream' : t.streamGone = false := (streamGone_of_take htake).trans hstream
  simp [run, step, Action.isPeers, hstream, htake, hleave, hstream']

theorem run_abandon (hs : Sound l) (hstream : l.streamGone = false) (hdrop : l.drop id = some l') :
    l.run [.drop id, .leave id] = some ([.nothing, .received id none], l.abandon id) := by
  have hstep : l.step (.drop id) = some (.nothing, l') := by
    simp [step, Action.isPeers, hstream, hdrop]
  have hsteps := Steps.of_step hs hstep
  obtain ⟨hmem, hstream'⟩ : ⟨id, .leaving none⟩ ∈ l'.calls ∧ l'.streamGone = false := by
    cases hsteps <;> exact ⟨by simp, hstream⟩
  have hgoes := (sound_step hsteps hs).progress?_eq hmem
  simp [run, step, Action.isPeers, hstream, abandon, hdrop, leave, hgoes, hstream']

theorem run_drain (hpeer : l.peerGone = false) :
    l.run (.replicate l.outbound.length .nextSent) =
      some (l.outbound.map fun m => .read (some m), l.drain.2) := by
  generalize hsent : l.outbound = sent
  induction sent generalizing l with
  | nil =>
    have hdrain : l.drain.2 = l := by simp [drain, ← hsent]
    rw [hdrain]
    rfl
  | cons m rest ih =>
    have hstep : l.step .nextSent = some (.read (some m), { l with outbound := rest }) := by
      simp [step, Action.isPeers, hpeer, nextSent, hsent]
    have hrest := ih (l := { l with outbound := rest }) hpeer rfl
    simp [List.replicate_succ, run, hstep, hrest, drain]

end Chaincode.Loopback
