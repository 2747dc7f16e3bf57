import Chaincode.Proofs.Loopback.Progress

/-!
# Loopbacks are faithful

What a peer and a chaincode learn from a loopback is what has happened on it (`readings_are_faithful`),
whatever steps of the receives, the sends and the peer fall between one another. With one exception: how
many receives overlap is counted from their entry and not from their start, so that an overlap can be missed
(`misses_an_overlap`).
-/

namespace Chaincode.Loopback

variable {as : List Action} {shown : List Shown} {l : Loopback}

/-- What the record of a run says of what both ends have got from the loopback `l` that it leads to, and of
what they can still get. -/
structure Faithful (history : List (Action × Shown)) (l : Loopback) : Prop where
  /-- Receives have returned, or are about to, what was dealt out to them from the queue. -/
  results : (returned history ++ l.inHand).Perm (dealt history)
  /-- Nobody is dealt more than one item. -/
  once : (takers history).Nodup
  /-- What has been dealt out stays so. -/
  order : ∀ earlier, earlier <+: history → dealt earlier <+: dealt history
  /-- Receives that never overlap return in the order of the queue. -/
  alone : (∀ earlier, earlier <+: history → (inside earlier).length ≤ 1) →
    returned history ++ l.inHand = dealt history
  /-- Nobody is told of the end before the peer has hung up or gone. -/
  past : (takers history).length ≤ (queued history).length ∨ Ended history
  /-- What the peer queues after it has hung up is never seen. -/
  late : Ended history → ∀ bs more l', l.run bs = some (more, l') →
    queued (history ++ bs.zip more) = queued history
  /-- With the queue empty all receives that are still to take return the end, unless they are dropped. -/
  ended : Ended history → Emptied history → ∀ bs more l', l.run bs = some (more, l') →
    (∀ id r, .received id (some r) ∈ more → (id, r) ∈ l.inHand ∨ r = .error .closed) ∧
      (Settled l' → ∀ c ∈ l.calls, c.Waits → .drop c.id ∉ bs →
        .received c.id (some (.error .closed)) ∈ more)
  /-- Receives that can take no step by themselves wait for an item that can still come. -/
  settled : Settled l → ∀ c ∈ l.calls, c.progress = .inLine ∧ Emptied history ∧ ¬ Ended history
  /-- Left to themselves they come to that. -/
  settles : (∀ bs more l', l.run bs = some (more, l') → (∀ a ∈ bs, a.isReceives = true) →
      bs.length ≤ l.stepsLeft) ∧
    ∃ bs more l', (∀ a ∈ bs, a.isReceives = true) ∧ l.run bs = some (more, l') ∧ Settled l'
  /-- A receive can be started at any time, and dropped whenever it waits. -/
  anyTime : ¬ Happened history .dropStream → (∃ l', l.step .start = some (.nothing, l')) ∧
    ∀ c ∈ l.calls, c.progress = .recorded ∨ c.progress = .inLine →
      ∃ l', l.step (.drop c.id) = some (.nothing, l')
  /-- The peer never has to wait, unless for the next message. -/
  peers : ¬ Happened history .dropPeer → ∀ a : Action, a.isPeers = true → a ≠ .nextSent →
    ∃ s l', l.step a = some (s, l')
  /-- What the peer has read is what was accepted first, in that order, and the rest is there for it. -/
  reads : ∃ unread, accepted history = read history ++ unread ∧
    (¬ Happened history .dropPeer → ∃ l', l.step .drain = some (.drained unread, l'))
  sends : ¬ Happened history .dropStream → ∀ m, ∃ outcome l',
    l.step (.send m) = some (.sent outcome, l') ∧
      (outcome = .ok () ↔ ¬ Failing history ∧ ¬ Happened history .closeSend ∧
        ¬ Happened history .dropPeer) ∧
      (outcome ≠ .ok () → l' = l)
  receives : l.tally.receives = starts history
  closes : l.tally.closes = closes history
  /-- Only receives that are outstanding are inside. -/
  started : inside history ⊆ outstanding history
  /-- At rest all of those are. -/
  atRest : AtRest l → ∀ id, id ∈ inside history ↔ id ∈ outstanding history
  /-- At rest the peer sees how many receives were ever inside at once. -/
  most : AtRest l → IsGreatest (atOnce inside history) l.tally.mostUnderWay
  /-- It never sees more than were ever outstanding at once. -/
  bounded : ∀ n ∈ upperBounds (atOnce outstanding history), l.tally.mostUnderWay ≤ n
  /-- At rest it sees how many these were, if no receive went while another had started and not entered. -/
  prompt : AtRest l → Prompt history → IsGreatest (atOnce outstanding history) l.tally.mostUnderWay

/-- **What both ends read off a loopback is what has happened on it.** -/
theorem readings_are_faithful (hrun : run {} as = some (shown, l)) : Faithful (as.zip shown) l where
  results := (dealing_run hrun).hands
  once := takers_nodup hrun
  order := fun _ hearlier => dealt_prefix hrun hearlier
  alone := returned_of_alone hrun
  past := (dealing_run hrun).past
  late := by
    intro hended bs more l' hmore
    have hwhole : run {} (as ++ bs) = some (shown ++ more, l') :=
      run_append.2 ⟨shown, l, more, hrun, hmore, rfl⟩
    rw [← List.zip_append (length_of_run hrun).symm]
    refine queued_of_ended hwhole ?_ hended
    rw [List.zip_append (length_of_run hrun).symm]
    exact List.prefix_append _ _
  ended := fun hended hemptied bs more l' hmore =>
    ⟨fun id r hmem => received_of_ended hrun hended hemptied hmore hmem,
      fun hsettled c hc hwaits hdrop =>
        received_end_of_settled hrun hended hemptied hmore hsettled hc hwaits hdrop⟩
  settled := fun hsettled c hc => hsettled.waits hrun hc
  settles := by
    refine ⟨fun bs more l' hmore hown => ?_, exists_settled (sound_run .fresh hrun)⟩
    have hleft := stepsLeft_run (sound_run .fresh hrun) hmore hown
    omega
  anyTime := exists_start_drop hrun
  peers := fun hpeer _ ha hnext => exists_step_of_isPeers hrun hpeer ha hnext
  reads := exists_unread hrun
  sends := fun hstream m => send_iff hrun hstream m
  receives := (standing_run hrun).receives
  closes := (standing_run hrun).closes
  started := subset_outstanding hrun
  atRest := fun hrest id => hrest.mem_inside_iff hrun
  most := fun hrest => hrest.isGreatest hrun
  bounded := fun _ hn => mostUnderWay_le hrun hn
  prompt := fun hrest hprompt => hrest.isGreatest_outstanding hrun hprompt

/-- Three receives overlap and one of them is dropped, while the peer hangs up, queues too late, and
switches sends off and on. -/
def overlapping : List Action :=
  [.push (.ok { payload := [1] }), .start, .start, .enter 0, .enter 1, .record 1, .lineUp 1, .record 0,
    .lineUp 0, .take 1, .start, .enter 2, .drop 0, .record 2, .lineUp 2, .push (.ok { payload := [2] }),
    .hangUp, .push (.ok { payload := [3] }), .leave 0, .take 2, .leave 2, .leave 1,
    .send { payload := [4] }, .failSends true, .send { payload := [5] }, .failSends false,
    .send { payload := [6] }, .nextSent, .start, .enter 3, .record 3, .lineUp 3, .take 3, .leave 3,
    .closeSend, .send { payload := [7] }, .drain]

theorem readings_are_faithful_overlapping : ∃ shown l, run {} overlapping = some (shown, l) ∧
    Faithful (overlapping.zip shown) l ∧
    returned (overlapping.zip shown) =
      [(2, .ok { payload := [2] }), (1, .ok { payload := [1] }), (3, .error .closed)] ∧
    read (overlapping.zip shown) = [{ payload := [4] }, { payload := [6] }] ∧
    l.tally = { receives := 4, underWay := 0, mostUnderWay := 3, closes := 1 } := by
  obtain ⟨shown, l, hrun, hreturned, hread, htally⟩ : ∃ shown l,
      run {} overlapping = some (shown, l) ∧
      returned (overlapping.zip shown) =
        [(2, .ok { payload := [2] }), (1, .ok { payload := [1] }), (3, .error .closed)] ∧
      read (overlapping.zip shown) = [{ payload := [4] }, { payload := [6] }] ∧
      l.tally = { receives := 4, underWay := 0, mostUnderWay := 3, closes := 1 } :=
    ⟨_, _, rfl, rfl, rfl, rfl⟩
  exact ⟨shown, l, hrun, readings_are_faithful hrun, hreturned, hread, htally⟩

/-- The second receive has started when the first one goes, and enters after it. -/
def lateEntry : List Action :=
  [.start, .enter 0, .record 0, .lineUp 0, .push (.ok {}), .start, .take 0, .leave 0, .enter 1, .record 1,
    .lineUp 1]

/-- At rest the tally can have fewer receives than were outstanding at once. -/
theorem misses_an_overlap : ¬ ∀ as shown l, run {} as = some (shown, l) → AtRest l →
    IsGreatest (atOnce outstanding (as.zip shown)) l.tally.mostUnderWay := by
  intro h
  obtain ⟨shown, l, hrun, hrest, hmost, htwo⟩ : ∃ shown l, run {} lateEntry = some (shown, l) ∧
      (∀ c ∈ l.calls, c.progress.isCounting = false) ∧ l.tally.mostUnderWay = 1 ∧
      (outstanding ((lateEntry.zip shown).take 6)).length = 2 :=
    ⟨_, _, rfl, by decide, rfl, by decide⟩
  have hle := (h lateEntry shown l hrun hrest).2 ⟨_, List.take_prefix 6 _, htwo⟩
  omega

end Chaincode.Loopback
