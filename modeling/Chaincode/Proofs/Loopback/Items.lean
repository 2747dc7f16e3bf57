import Mathlib.Data.List.TakeWhile
import Chaincode.Proofs.Loopback.Tally

/-!
# What goes through a loopback

Messages from the chaincode to its peer, and items from the peer to the receives of the chaincode.
-/

/-!
## What becomes of what is sent

A send is accepted unless the peer has switched sends off, the sending direction has been ended or the
peer is gone (`send_iff`). What is accepted reaches the peer in that order, each message once; only what
the peer had not read when it went away is lost (`carrying_run`).
-/

namespace Chaincode.Loopback

/-- The message of a send that is accepted. -/
def accepted? : Action × Shown → Option Envelope
  | (.send m, .sent (.ok ())) => some m
  | _ => none

/-- What the peer gets to see. -/
def Shown.messages : Shown → List Envelope
  | .drained messages => messages
  | .read message => message.toList
  | .nothing | .received _ _ | .sent _ => []

/-- The messages whose sends have been accepted, oldest first. -/
def accepted (history : List (Action × Shown)) : List Envelope := history.filterMap accepted?

/-- The messages that the peer has read, oldest first. -/
def read (history : List (Action × Shown)) : List Envelope := history.flatMap (·.2.messages)

variable {history : List (Action × Shown)} {l l' : Loopback} {a : Action} {as : List Action} {s : Shown}
  {shown : List Shown}

theorem accepted_concat_none (h : accepted? (a, s) = none) :
    accepted (history ++ [(a, s)]) = accepted history :=
  filterMap_concat_none _ _ h

theorem read_concat : read (history ++ [(a, s)]) = read history ++ s.messages := by
  rw [read, List.flatMap_append, List.flatMap_singleton, read]

theorem read_concat_nil (h : s.messages = []) : read (history ++ [(a, s)]) = read history := by
  rw [read_concat, h, List.append_nil]

/-- What has been accepted has been read, waits to be read, or was lost with the peer. -/
def Carrying (history : List (Action × Shown)) (l : Loopback) : Prop :=
  ∃ lost, accepted history = read history ++ l.outbound ++ lost ∧ (l.peerGone = false → lost = [])

theorem carrying_step (hstep : Steps l a s l') (h : Carrying history l) :
    Carrying (history ++ [(a, s)]) l' := by
  obtain ⟨lost, hcarried, hkept⟩ := h
  cases hstep with
  | send m hsends hopen hpeer =>
    obtain rfl := hkept hpeer
    refine ⟨[], ?_, fun _ => rfl⟩
    rw [accepted, filterMap_concat, ← accepted, hcarried, read_concat_nil rfl]
    simp [accepted?]
  | refuse m fault hwhy =>
    exact ⟨lost, by rw [accepted_concat_none rfl, read_concat_nil rfl]; exact hcarried, hkept⟩
  | drain hpeer =>
    refine ⟨lost, ?_, hkept⟩
    rw [accepted_concat_none rfl, read_concat, hcarried, List.append_nil]
    rfl
  | nextSent m rest hpeer hsent =>
    refine ⟨lost, ?_, hkept⟩
    rw [accepted_concat_none rfl, read_concat, hcarried, hsent]
    simp [Shown.messages]
  | dropPeer =>
    refine ⟨l.outbound ++ lost, ?_, fun hpeer => by cases hpeer⟩
    rw [accepted_concat_none rfl, read_concat_nil rfl, hcarried]
    simp [dropPeer]
  | _ => exact ⟨lost, by rw [accepted_concat_none rfl, read_concat_nil rfl]; exact hcarried, hkept⟩

theorem carrying_run (hrun : run {} as = some (shown, l)) : Carrying (as.zip shown) l :=
  run_induction (P := Carrying) ⟨[], rfl, fun _ => rfl⟩
    (fun _ _ _ _ _ _ _ h hstep => carrying_step hstep h) hrun

theorem exists_unread (hrun : run {} as = some (shown, l)) :
    ∃ unread, accepted (as.zip shown) = read (as.zip shown) ++ unread ∧
      (¬ Happened (as.zip shown) .dropPeer → ∃ l', l.step .drain = some (.drained unread, l')) := by
  obtain ⟨lost, hcarried, hkept⟩ := carrying_run hrun
  refine ⟨l.outbound ++ lost, by rw [hcarried, List.append_assoc], fun hpeer => ?_⟩
  rw [← (standing_run hrun).peerGone, Bool.not_eq_true] at hpeer
  rw [hkept hpeer, List.append_nil]
  exact ⟨l.drain.2, by simp [step, Action.isPeers, hpeer, drain]⟩

theorem send_iff (hrun : run {} as = some (shown, l)) (hstream : ¬ Happened (as.zip shown) .dropStream)
    (m : Envelope) : ∃ outcome l', l.step (.send m) = some (.sent outcome, l') ∧
      (outcome = .ok () ↔ ¬ Failing (as.zip shown) ∧ ¬ Happened (as.zip shown) .closeSend ∧
        ¬ Happened (as.zip shown) .dropPeer) ∧
      (outcome ≠ .ok () → l' = l) := by
  have hst := standing_run hrun
  rw [← hst.streamGone, Bool.not_eq_true] at hstream
  have hstep : l.step (.send m) = some (.sent (l.send m).1, (l.send m).2) := by
    simp [step, Action.isPeers, hstream]
  refine ⟨_, _, hstep, ?_⟩
  rw [← hst.failing, ← closes_pos_iff, ← hst.closes, ← hst.peerGone]
  generalize (l.send m).1 = outcome, (l.send m).2 = l' at hstep
  cases Steps.of_step (sound_run .fresh hrun) hstep with
  | send _ hsends hopen hpeer => simp [hsends, hopen, hpeer]
  | refuse _ fault hwhy =>
    refine ⟨iff_of_false (fun h => by cases h) ?_, fun _ => rfl⟩
    rintro ⟨hsends, hopen, hpeer⟩
    exact hwhy.elim hsends (·.elim hopen hpeer)

end Chaincode.Loopback

/-!
## What receives return

What the peer queues before it hangs up is dealt out to the receives in the order in which they take, one
item each, and who takes after the last is told of the end (`dealing_run`). What is dealt out stays so
(`dealt_prefix`), and each receive returns what was dealt to it. Receives that never overlap return in the
order of the queue (`returned_of_alone`). Once nothing more can come, all that is left to return is the end
(`received_of_ended`).
-/

namespace Chaincode.Loopback

/-! ### Reading a record -/

def Action.isHangUp : Action → Bool
  | .hangUp => true
  | _ => false

def Action.pushed? : Action → Option Received
  | .push item => some item
  | _ => none

/-- The receive that takes an item. -/
def Action.taker? : Action → Option Nat
  | .take id => some id
  | _ => none

def Shown.returned? : Shown → Option (Nat × Received)
  | .received id (some r) => some (id, r)
  | _ => none

/-- What a receive holds that is about to return. -/
def Call.holds? : Call → Option (Nat × Received)
  | ⟨id, .leaving (some r)⟩ => some (id, r)
  | _ => none

/-- What the peer queued before it hung up. -/
def queued (history : List (Action × Shown)) : List Received :=
  (history.takeWhile (!·.1.isHangUp)).filterMap (·.1.pushed?)

/-- The receives that have taken an item or the end, in that order. -/
def takers (history : List (Action × Shown)) : List Nat := history.filterMap (·.1.taker?)

/-- Deals items out in their order; who comes after the last is told of the end. -/
def deal : List Nat → List Received → List (Nat × Received)
  | [], _ => []
  | id :: ids, [] => (id, .error .closed) :: deal ids []
  | id :: ids, item :: items => (id, item) :: deal ids items

/-- Who is to return what. -/
def dealt (history : List (Action × Shown)) : List (Nat × Received) :=
  deal (takers history) (queued history)

/-- What receives have returned, oldest first. -/
def returned (history : List (Action × Shown)) : List (Nat × Received) :=
  history.filterMap (·.2.returned?)

/-- What receives are about to return. -/
def inHand (l : Loopback) : List (Nat × Received) := l.calls.filterMap (·.holds?)

/-- Has the peer hung up or gone? -/
def Ended (history : List (Action × Shown)) : Prop :=
  Happened history .hangUp ∨ Happened history .dropPeer

/-- Has everything been taken that was queued? -/
def Emptied (history : List (Action × Shown)) : Prop :=
  (queued history).length ≤ (takers history).length

variable {history later : List (Action × Shown)} {l l' : Loopback} {a : Action} {as bs : List Action}
  {s : Shown} {shown more : List Shown} {id : Nat} {r : Received}

/-! ### Dealing -/

theorem deal_concat (ids : List Nat) (id : Nat) (items : List Received) :
    deal (ids ++ [id]) items = deal ids items ++ [(id, (items.drop ids.length).headD (.error .closed))] := by
  induction ids generalizing items with
  | nil => cases items <;> rfl
  | cons i ids ih => cases items <;> simp [deal, ih]

theorem deal_append_items {ids : List Nat} {items : List Received} (h : ids.length ≤ items.length)
    (more : List Received) : deal ids (items ++ more) = deal ids items := by
  induction ids generalizing items with
  | nil => cases items <;> cases more <;> rfl
  | cons i ids ih =>
    cases items with
    | nil => cases h
    | cons item items => simp [deal, ih (Nat.le_of_succ_le_succ h)]

theorem deal_append_of_le {ids : List Nat} {items : List Received} (h : items.length ≤ ids.length)
    (more : List Nat) :
    deal (ids ++ more) items = deal ids items ++ more.map fun id => (id, .error .closed) := by
  induction more using List.reverseRecOn with
  | nil => simp
  | append_singleton more id ih =>
    have hdrop : items.drop (ids ++ more).length = [] := by
      rw [List.drop_eq_nil_iff, List.length_append]
      omega
    rw [← List.append_assoc, deal_concat, ih, hdrop]
    simp

theorem map_fst_deal (ids : List Nat) (items : List Received) : (deal ids items).map (·.1) = ids := by
  induction ids generalizing items with
  | nil => cases items <;> rfl
  | cons i ids ih => cases items <;> simp [deal, ih]

/-! ### The queue -/

theorem queued_of_hungUp (h : Happened history .hangUp) (later : List (Action × Shown)) :
    queued (history ++ later) = queued history := by
  rw [queued, List.takeWhile_append, if_neg, queued]
  intro hlength
  have hall := (List.takeWhile_prefix _).eq_of_length hlength
  obtain ⟨e, he, heq⟩ := List.mem_map.1 h
  have hnot := List.takeWhile_eq_self_iff.1 hall e he
  rw [heq] at hnot
  cases hnot

theorem queued_concat (h : ¬ Happened history .hangUp) :
    queued (history ++ [(a, s)]) = queued history ++ a.pushed?.toList := by
  have hall : history.takeWhile (!·.1.isHangUp) = history := by
    rw [List.takeWhile_eq_self_iff]
    rintro ⟨a, s⟩ hmem
    cases a with
    | hangUp => exact absurd (List.mem_map.2 ⟨_, hmem, rfl⟩) h
    | _ => rfl
  rw [queued, List.takeWhile_append_of_pos (List.takeWhile_eq_self_iff.1 hall), List.filterMap_append,
    queued, hall]
  cases a <;> rfl

theorem queued_concat_none (h : a.pushed? = none) : queued (history ++ [(a, s)]) = queued history := by
  by_cases hdone : Happened history .hangUp
  · exact queued_of_hungUp hdone _
  · rw [queued_concat hdone, h, Option.toList_none, List.append_nil]

theorem takers_concat_none (h : a.taker? = none) : takers (history ++ [(a, s)]) = takers history :=
  filterMap_concat_none _ _ h

theorem returned_concat_none (h : s.returned? = none) :
    returned (history ++ [(a, s)]) = returned history :=
  filterMap_concat_none _ _ h

theorem dealt_concat_none (hqueued : queued (history ++ [(a, s)]) = queued history)
    (htaker : a.taker? = none) : dealt (history ++ [(a, s)]) = dealt history := by
  rw [dealt, hqueued, takers_concat_none htaker, dealt]

theorem Ended.append (h : Ended history) (later : List (Action × Shown)) : Ended (history ++ later) :=
  h.imp (·.append later) (·.append later)

/-- What becomes of the queue and of what is taken from it. -/
structure Dealing (history : List (Action × Shown)) (l : Loopback) : Prop where
  inbound : l.inbound = (queued history).drop (takers history).length
  /-- Receives get past what is queued only when nothing more can come. -/
  past : (takers history).length ≤ (queued history).length ∨ Ended history
  hands : (returned history ++ l.inHand).Perm (dealt history)

theorem Dealing.quiet (h : Dealing history l) (hpushed : queued (history ++ [(a, s)]) = queued history)
    (htaker : a.taker? = none) (hreturned : s.returned? = none) (hinbound : l'.inbound = l.inbound)
    (hhand : l'.inHand = l.inHand) : Dealing (history ++ [(a, s)]) l' where
  inbound := by rw [hinbound, h.inbound, hpushed, takers_concat_none htaker]
  past := by
    rw [hpushed, takers_concat_none htaker]
    exact h.past.imp_right (·.append _)
  hands := by
    rw [returned_concat_none hreturned, hhand, dealt_concat_none hpushed htaker]
    exact h.hands

theorem Dealing.next (h : Dealing history l) (hst : Standing history l) {item : Received}
    {rest : List Received} (hnext : l.next? = some (item, rest)) :
    l.inbound.headD (.error .closed) = item ∧ rest = l.inbound.drop 1 ∧
      ((takers history).length < (queued history).length ∨ Ended history) := by
  have hinbound := h.inbound
  rw [next?.eq_def] at hnext
  split at hnext
  · rename_i item' rest' heq
    cases hnext
    rw [heq] at hinbound ⊢
    refine ⟨rfl, rfl, .inl ?_⟩
    by_contra hle
    rw [List.drop_eq_nil_of_le (Nat.le_of_not_lt hle)] at hinbound
    cases hinbound
  · rename_i heq
    split at hnext
    · rename_i hended
      cases hnext
      rw [Bool.or_eq_true, hst.hungUp, hst.peerGone] at hended
      rw [heq]
      exact ⟨rfl, rfl, .inr hended⟩
    · cases hnext

theorem Dealing.dealt_take (h : Dealing history l) (hst : Standing history l) {item : Received}
    {rest : List Received} (hnext : l.next? = some (item, rest)) (id : Nat) :
    dealt (history ++ [(.take id, s)]) = dealt history ++ [(id, item)] := by
  rw [dealt, queued_concat_none rfl, takers, filterMap_concat, ← takers, Action.taker?,
    Option.toList_some, deal_concat, ← h.inbound, (h.next hst hnext).1, dealt]

theorem Dealing.le_of_open (h : Dealing history l) (hst : Standing history l) (hpeer : l.peerGone = false)
    (hopen : l.hungUp = false) : (takers history).length ≤ (queued history).length := by
  refine h.past.resolve_right ?_
  rw [Ended, ← hst.hungUp, ← hst.peerGone, hopen, hpeer]
  simp

theorem queued_push (hst : Standing history l) (hopen : l.hungUp = false) (item : Received) :
    queued (history ++ [(.push item, s)]) = queued history ++ [item] := by
  refine queued_concat ?_
  rw [← hst.hungUp, hopen]
  exact Bool.false_ne_true

theorem Dealing.dealt_push (h : Dealing history l) (hst : Standing history l) (hpeer : l.peerGone = false)
    (hopen : l.hungUp = false) (item : Received) :
    dealt (history ++ [(.push item, s)]) = dealt history := by
  rw [dealt, queued_push hst hopen, takers_concat_none rfl,
    deal_append_items (h.le_of_open hst hpeer hopen), dealt]

theorem dealing_step (hst : Standing history l) (hstep : Steps l a s l') (h : Dealing history l) :
    Dealing (history ++ [(a, s)]) l' := by
  obtain ⟨hinbound, hpast, hhands⟩ := h
  cases hstep with
  | enter id before after hcalls | record id now before after hcalls | lineUp id before after hcalls
  | drop id before after hcalls | dropEarly id before after hcalls =>
    refine Dealing.quiet ⟨hinbound, hpast, hhands⟩ (queued_concat_none rfl) rfl rfl rfl ?_
    rw [inHand, inHand, hcalls, filterMap_middle_none Call.holds? rfl,
      filterMap_middle_none Call.holds? rfl]
  | take id item rest waiting before after hnext hline hcalls =>
    have hdealing : Dealing history l := ⟨hinbound, hpast, hhands⟩
    have htakers : takers (history ++ [(.take id, .nothing)]) = takers history ++ [id] :=
      filterMap_concat _ _ _
    obtain ⟨-, hrest, hpast'⟩ := hdealing.next hst hnext
    refine ⟨?_, ?_, ?_⟩
    · rw [queued_concat_none rfl, htakers, hrest, hinbound, List.drop_drop, List.length_append]
      rfl
    · rw [queued_concat_none rfl, htakers, List.length_append]
      exact hpast'.imp_right (·.append _)
    · -- the item is in the hand of the receive from here on, wherever that stands among the others
      rw [returned_concat_none rfl, hdealing.dealt_take hst hnext]
      rw [inHand, hcalls, filterMap_middle_none Call.holds? rfl, List.filterMap_append] at hhands
      rw [inHand, filterMap_middle_some Call.holds? rfl]
      refine ((List.perm_middle.append_left _).trans List.perm_middle).trans ?_
      exact (hhands.cons _).trans (List.perm_append_singleton _ _).symm
  | leave id result before after hcalls =>
    cases result with
    | none =>
      refine Dealing.quiet ⟨hinbound, hpast, hhands⟩ (queued_concat_none rfl) rfl rfl rfl ?_
      rw [inHand, inHand, hcalls, filterMap_middle_none Call.holds? rfl]
    | some r =>
      refine ⟨?_, ?_, ?_⟩
      · rw [queued_concat_none rfl, takers_concat_none rfl]
        exact hinbound
      · rw [queued_concat_none rfl, takers_concat_none rfl]
        exact hpast.imp_right (·.append _)
      · rw [returned, filterMap_concat, ← returned, dealt_concat_none (queued_concat_none rfl) rfl]
        rw [inHand, hcalls, filterMap_middle_some Call.holds? rfl] at hhands
        rw [inHand, List.filterMap_append, Shown.returned?, Option.toList_some, List.append_assoc,
          List.singleton_append]
        exact (List.perm_middle.symm.append_left _).trans hhands
  | push item hpeer hopen =>
    have hdealing : Dealing history l := ⟨hinbound, hpast, hhands⟩
    have hle := hdealing.le_of_open hst hpeer hopen
    refine ⟨?_, .inl ?_, ?_⟩
    · rw [queued_push hst hopen, takers_concat_none rfl, List.drop_append_of_le_length hle, hinbound]
    · rw [queued_push hst hopen, takers_concat_none rfl, List.length_append]
      exact Nat.le_add_right_of_le hle
    · rw [returned_concat_none rfl, hdealing.dealt_push hst hpeer hopen]
      exact hhands
  | pushLate item hpeer hdone =>
    exact Dealing.quiet ⟨hinbound, hpast, hhands⟩ (queued_of_hungUp (hst.hungUp.1 hdone) _) rfl rfl rfl
      rfl
  | _ => exact Dealing.quiet ⟨hinbound, hpast, hhands⟩ (queued_concat_none rfl) rfl rfl rfl rfl

theorem dealing_run (hrun : run {} as = some (shown, l)) : Dealing (as.zip shown) l := by
  refine run_induction (P := Dealing) ⟨rfl, .inl (Nat.le_refl 0), .nil⟩
    (fun as shown l a s l' hbefore h hstep => ?_) hrun
  exact dealing_step (standing_run hbefore) hstep h

/-! ### Each once -/

theorem returned_sublist (history : List (Action × Shown)) :
    ((returned history).map (·.1)).Sublist (gone history) := by
  rw [returned, gone]
  induction history with
  | nil => exact .slnil
  | cons e history ih =>
    obtain ⟨a, s⟩ := e
    cases s with
    | received id result =>
      cases result with
      | none => exact ih.cons id
      | some r => exact ih.cons_cons id
    | _ => exact ih

theorem inHand_sublist (l : Loopback) : (l.inHand.map (·.1)).Sublist (l.calls.map (·.id)) := by
  rw [inHand]
  induction l.calls with
  | nil => exact .slnil
  | cons c calls ih =>
    obtain ⟨id, progress⟩ := c
    cases progress with
    | leaving result =>
      cases result with
      | none => exact ih.cons id
      | some r => exact ih.cons_cons id
    | _ => exact ih.cons id

theorem takers_nodup (hrun : run {} as = some (shown, l)) : (takers (as.zip shown)).Nodup := by
  have hhands := (dealing_run hrun).hands.map (·.1)
  rw [dealt, map_fst_deal, List.map_append] at hhands
  have hsub := (returned_sublist (as.zip shown)).append (inHand_sublist l)
  exact hhands.nodup_iff.1 ((numbers_run hrun).nodup.sublist hsub)

/-! ### In order -/

theorem dealt_step (hst : Standing history l) (h : Dealing history l) (hstep : Steps l a s l') :
    dealt history <+: dealt (history ++ [(a, s)]) := by
  cases hstep with
  | take id item rest waiting before after hnext =>
    rw [h.dealt_take hst hnext]
    exact List.prefix_append _ _
  | push item hpeer hopen =>
    exact ⟨[], by rw [List.append_nil, h.dealt_push hst hpeer hopen]⟩
  | pushLate item hpeer hdone =>
    have hqueued := queued_of_hungUp (hst.hungUp.1 hdone) [(.push item, .nothing)]
    exact ⟨[], by rw [List.append_nil, dealt_concat_none hqueued rfl]⟩
  | _ => exact ⟨[], by rw [List.append_nil, dealt_concat_none (queued_concat_none rfl) rfl]⟩

theorem dealt_prefix {earlier : List (Action × Shown)} (hrun : run {} as = some (shown, l))
    (hearlier : earlier <+: as.zip shown) : dealt earlier <+: dealt (as.zip shown) := by
  refine run_induction (P := fun history _ => ∀ earlier, earlier <+: history →
    dealt earlier <+: dealt history) ?_ (fun as shown l a s l' hbefore h hstep => ?_) hrun _ hearlier
  · intro earlier hnil
    obtain rfl := List.prefix_nil.1 hnil
    exact List.prefix_rfl
  · intro earlier hearlier
    rcases List.prefix_concat_iff.1 hearlier with rfl | hearlier
    · exact List.prefix_rfl
    · exact (h earlier hearlier).trans (dealt_step (standing_run hbefore) (dealing_run hbefore) hstep)

theorem filterMap_holds_nil {calls : List Call} (h : calls.filterMap Call.in? = []) :
    calls.filterMap (·.holds?) = [] := by
  rw [List.filterMap_eq_nil_iff] at h ⊢
  rintro ⟨id, progress⟩ hc
  cases progress with
  | leaving result => cases h _ hc
  | _ => rfl

theorem Counting.alone {before after : List Call} {p : Progress} (h : Counting history l)
    (hcalls : l.calls = before ++ ⟨id, p⟩ :: after) (hin : Call.in? ⟨id, p⟩ = some id)
    (hone : (Loopback.inside history).length ≤ 1) : (before ++ after).filterMap (·.holds?) = [] := by
  have hlength := h.inside.length_eq
  rw [hcalls, filterMap_middle_some Call.in? hin, List.length_append, List.length_cons] at hlength
  refine filterMap_holds_nil (List.eq_nil_of_length_eq_zero ?_)
  rw [List.filterMap_append, List.length_append]
  omega

theorem returned_of_alone (hrun : run {} as = some (shown, l))
    (hone : ∀ earlier, earlier <+: as.zip shown → (inside earlier).length ≤ 1) :
    returned (as.zip shown) ++ l.inHand = dealt (as.zip shown) := by
  refine run_induction (P := fun history l =>
    (∀ earlier, earlier <+: history → (inside earlier).length ≤ 1) →
      returned history ++ l.inHand = dealt history) (fun _ => rfl)
    (fun as shown l a s l' hbefore h hstep hone => ?_) hrun hone
  have hone' := hone _ (List.prefix_append _ _)
  have h := h fun earlier hearlier => hone earlier (hearlier.trans (List.prefix_append _ _))
  have hst := standing_run hbefore
  have hdealing := dealing_run hbefore
  have hcounting := counting_run hbefore
  -- the hands of others are empty when a receive takes and when it goes; no other step touches the order
  cases hstep with
  | enter id before after hcalls | record id now before after hcalls | lineUp id before after hcalls
  | drop id before after hcalls | dropEarly id before after hcalls =>
    rw [inHand, hcalls, filterMap_middle_none Call.holds? rfl] at h
    rw [inHand, filterMap_middle_none Call.holds? rfl, returned_concat_none rfl, h,
      dealt_concat_none (queued_concat_none rfl) rfl]
  | take id item rest waiting before after hnext hline hcalls =>
    have hothers := hcounting.alone hcalls rfl hone'
    rw [inHand, hcalls, filterMap_middle_none Call.holds? rfl, hothers, List.append_nil] at h
    rw [inHand, filterMap_middle_some Call.holds? rfl, returned_concat_none rfl, h,
      hdealing.dealt_take hst hnext]
    rw [List.filterMap_append, List.append_eq_nil_iff] at hothers
    rw [hothers.1, hothers.2, List.nil_append]
  | leave id result before after hcalls =>
    have hothers := hcounting.alone hcalls rfl hone'
    rw [dealt_concat_none (queued_concat_none rfl) rfl, ← h]
    cases result with
    | none =>
      rw [returned_concat_none rfl, inHand, inHand, hcalls, filterMap_middle_none Call.holds? rfl]
    | some r =>
      rw [returned, filterMap_concat, ← returned, inHand, inHand, hothers, List.append_nil, hcalls,
        filterMap_middle_some Call.holds? rfl]
      rw [List.filterMap_append, List.append_eq_nil_iff] at hothers
      rw [hothers.1, hothers.2]
      rfl
  | push item hpeer hopen =>
    rw [returned_concat_none rfl, hdealing.dealt_push hst hpeer hopen]
    exact h
  | pushLate item hpeer hdone =>
    rw [returned_concat_none rfl, dealt_concat_none (queued_of_hungUp (hst.hungUp.1 hdone) _) rfl]
    exact h
  | _ =>
    rw [returned_concat_none rfl, dealt_concat_none (queued_concat_none rfl) rfl]
    exact h

/-! ### After the end -/

theorem queued_step (hst : Standing history l) (hstep : Steps l a s l') (h : Ended history) :
    queued (history ++ [(a, s)]) = queued history := by
  cases hstep with
  | push item hpeer hopen =>
    rw [Ended, ← hst.hungUp, ← hst.peerGone, hopen, hpeer] at h
    simp at h
  | pushLate item hpeer hdone => exact queued_of_hungUp (hst.hungUp.1 hdone) _
  | _ => exact queued_concat_none rfl

theorem queued_of_ended {earlier : List (Action × Shown)} (hrun : run {} as = some (shown, l))
    (hearlier : earlier <+: as.zip shown) (hended : Ended earlier) :
    queued (as.zip shown) = queued earlier := by
  refine run_induction (P := fun history _ => ∀ earlier, earlier <+: history → Ended earlier →
    queued history = queued earlier) ?_ (fun as shown l a s l' hbefore h hstep => ?_) hrun _ hearlier
    hended
  · intro earlier hnil _
    rw [List.prefix_nil.1 hnil]
  · intro earlier hearlier hended
    rcases List.prefix_concat_iff.1 hearlier with rfl | hearlier
    · rfl
    · obtain ⟨later, hlater⟩ := hearlier
      rw [queued_step (standing_run hbefore) hstep (hlater ▸ hended.append later)]
      exact h earlier ⟨later, hlater⟩ hended

theorem received_of_ended (hrun : run {} as = some (shown, l)) (hended : Ended (as.zip shown))
    (hemptied : Emptied (as.zip shown)) (hmore : l.run bs = some (more, l'))
    (hmem : .received id (some r) ∈ more) : (id, r) ∈ l.inHand ∨ r = .error .closed := by
  have hwhole : run {} (as ++ bs) = some (shown ++ more, l') :=
    run_append.2 ⟨shown, l, more, hrun, hmore, rfl⟩
  have hzip : (as ++ bs).zip (shown ++ more) = as.zip shown ++ bs.zip more :=
    List.zip_append (length_of_run hrun).symm
  have hqueued := queued_of_ended hwhole (hzip ▸ List.prefix_append _ _) hended
  have hreturned : (id, r) ∈ returned (bs.zip more) := by
    obtain ⟨n, hn, hget⟩ := List.getElem_of_mem hmem
    have hn' : n < (bs.zip more).length := by
      rw [List.length_zip, ← length_of_run hmore, Nat.min_self]
      exact hn
    refine List.mem_filterMap.2 ⟨(bs.zip more)[n], List.getElem_mem hn', ?_⟩
    rw [List.getElem_zip, hget]
    rfl
  have hdealt : (id, r) ∈ dealt ((as ++ bs).zip (shown ++ more)) := by
    refine (dealing_run hwhole).hands.subset (List.mem_append_left _ ?_)
    rw [hzip, returned, List.filterMap_append]
    exact List.mem_append_right _ hreturned
  rw [dealt, hqueued, hzip, takers, List.filterMap_append, ← takers, deal_append_of_le hemptied,
    List.mem_append] at hdealt
  rcases hdealt with hold | hnew
  · refine .inl (((List.mem_append.1 ((dealing_run hrun).hands.symm.subset hold)).resolve_left ?_))
    -- who has returned does not return again
    intro hearly
    have hnodup := (List.nodup_append.1 (numbers_run hwhole).nodup).1
    rw [hzip, gone, List.filterMap_append] at hnodup
    exact (List.nodup_append.1 hnodup).2.2 id
      ((returned_sublist _).subset (List.mem_map.2 ⟨_, hearly, rfl⟩)) id
      ((returned_sublist _).subset (List.mem_map.2 ⟨_, hreturned, rfl⟩)) rfl
  · obtain ⟨i, -, heq⟩ := List.mem_map.1 hnew
    cases heq
    exact .inr rfl

end Chaincode.Loopback
