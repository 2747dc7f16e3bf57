import Chaincode.Proofs.Call.Sending

/-!
# The order of sends, and the end after them

A send that has returned well is taken out before any that begins after that, one that has failed is
never taken out, and the end of the queue comes after everything that was accepted and before nothing
(`sends_keep_order`). An end to the sending direction that falls between the steps of a send changes
none of that: a send that has got hold of the queue still finishes, a later one is refused.
-/

namespace Chaincode.Sending

variable {s t : Sending} {as : List Action} {id : Nat} {m : Envelope}

/-! ## Order -/

theorem Sound.drained (h : Sound s) : s.call.outbound.drained = s.taken.map (·.2) := by
  obtain ⟨lost, horder, -⟩ := h.order
  rw [taken, List.map_take, horder, List.append_assoc, List.take_left']
  rfl

theorem Sound.mem_ids (h : Sound s) (hid : id ∈ s.placed.map (·.1)) : id ∈ s.ids := by
  have hreturned := (h.placed_iff id).1 hid
  exact List.mem_append_right _ (List.mem_map.2 ⟨_, hreturned, rfl⟩)

theorem exists_earlier {l p : List Nat} {k : Nat} (hp : p <+: l) (hid : id ∈ l.take k) (hnot : id ∉ p) :
    ∃ earlier later, l.take k = earlier ++ id :: later ∧ ∀ i ∈ p, i ∈ earlier := by
  obtain ⟨q, rfl⟩ := hp
  rw [List.take_append, List.mem_append] at hid
  rcases hid with hid | hid
  · exact absurd (List.mem_of_mem_take hid) hnot
  · have hlt : p.length < k := by
      by_contra hle
      rw [Nat.sub_eq_zero_of_le (Nat.le_of_not_lt hle)] at hid
      cases hid
    obtain ⟨between, later, hq⟩ := List.append_of_mem hid
    refine ⟨p ++ between, later, ?_, fun i hi => List.mem_append_left _ hi⟩
    rw [List.take_append, List.take_of_length_le (Nat.le_of_lt hlt), hq, List.append_assoc]

theorem taken_before (hs : Sound s) (hrun : s.run (.begin id m :: as) = some t) {i : Nat}
    (hi : (i, .ok ()) ∈ s.returned) (hid : id ∈ t.taken.map (·.1)) :
    ∃ earlier later, t.taken.map (·.1) = earlier ++ id :: later ∧ i ∈ earlier := by
  obtain ⟨s', hstep, -⟩ := Option.bind_eq_some_iff.1 hrun
  -- a send begins with a number that no send has had before
  have hfresh : id ∉ s.ids := by
    cases Step.of_step hstep with
    | refuse _ _ _ hid => exact hid
    | begin _ _ hid => exact hid
  have hnot : id ∉ s.placed.map (·.1) := fun hmem => hfresh (hs.mem_ids hmem)
  have hp : s.placed.map (·.1) <+: t.placed.map (·.1) := (run_grows hrun).2.map _
  rw [taken, List.map_take] at hid ⊢
  obtain ⟨earlier, later, heq, hearlier⟩ := exists_earlier hp hid hnot
  exact ⟨earlier, later, heq, hearlier i ((hs.placed_iff i).2 hi)⟩

/-! ## The end -/

theorem Sound.taken_atEnd (h : Sound s) (hend : s.call.outbound.atEnd = true) : s.taken = s.placed := by
  obtain ⟨-, -, hdrained⟩ := h.atEnd hend
  rw [taken, ← hdrained, List.length_map, List.take_length]

theorem drained_atEnd (h : Sound s) (hend : s.call.outbound.atEnd = true) (hrun : s.run as = some t) :
    t.call.outbound.drained = s.call.outbound.drained := by
  obtain ⟨hopen, hwaiting, hdrained⟩ := h.atEnd hend
  have hend' : t.call.outbound.atEnd = true := run_keeps (fun _ _ _ => Step.keeps_atEnd) hend hrun
  have hplaced := (run_placed ⟨hopen, hwaiting⟩ hrun).2
  rw [← ((sound_run h hrun).atEnd hend').2.2, hplaced, hdrained]

theorem unblocked (hmem : (id, m) ∈ s.call.outbound.waiting) :
    (s.step (.settle id)).isSome ∨ (s.step .drain).isSome := by
  obtain ⟨entry, hfind⟩ : ∃ entry, s.call.outbound.waiting.find? (·.1 = id) = some entry := by
    refine Option.isSome_iff_exists.1 (List.find?_isSome.2 ⟨_, hmem, ?_⟩)
    simp
  cases hgone : s.call.outbound.gone with
  | true => simp [step, Outbound.settle, hfind, hgone]
  | false =>
    by_cases hroom : s.call.outbound.queue.length < Outbound.capacity
    · simp [step, Outbound.settle, hfind, hgone, hroom]
    · right
      cases hqueue : s.call.outbound.queue with
      | nil => simp [hqueue, Outbound.capacity] at hroom
      | cons m rest => simp [step, Outbound.drain, hgone, hqueue]

theorem finish_iff (hopen : s.call.outbound.isOpen = false) (hwaiting : s.call.outbound.waiting = [])
    (hgone : s.call.outbound.gone = false) (hend : s.call.outbound.atEnd = false) :
    (s.step .finish).isSome ↔ s.call.outbound.queue = [] := by
  simp [step, Outbound.finish, hopen, hwaiting, hgone, hend]

theorem run_to_end (hopen : s.call.outbound.isOpen = false) (hwaiting : s.call.outbound.waiting = [])
    (hgone : s.call.outbound.gone = false) (hend : s.call.outbound.atEnd = false) :
    ∃ t, s.run (List.replicate s.call.outbound.queue.length .drain ++ [.finish]) = some t ∧
      t.call.outbound.atEnd = true := by
  generalize hqueue : s.call.outbound.queue = queue
  induction queue generalizing s with
  | nil =>
    obtain ⟨t, ht⟩ := Option.isSome_iff_exists.1 ((finish_iff hopen hwaiting hgone hend).2 hqueue)
    refine ⟨t, by simp [run, ht], ?_⟩
    cases Step.of_step ht
    rfl
  | cons m rest ih =>
    have hdrain : s.step .drain = some (s.withOutbound { s.call.outbound with
        queue := rest, drained := s.call.outbound.drained ++ [m] }) := by
      simp [step, Outbound.drain, hgone, hqueue]
    obtain ⟨t, hrun, ht⟩ := ih (s := s.withOutbound { s.call.outbound with
        queue := rest, drained := s.call.outbound.drained ++ [m] }) hopen hwaiting hgone hend rfl
    refine ⟨t, ?_, ht⟩
    rw [List.length_cons, List.replicate_succ, List.cons_append, run, hdrain]
    exact hrun

/-! ## All together -/

/-- What the sends of a run `as` from `start` have come to by the time that they stand as in `s`. -/
structure Orderly (start : Sending) (as : List Action) (s : Sending) : Prop where
  /-- What is taken out are the messages that have found their places first, in that order, each
  once. -/
  drained : s.taken <+: s.placed ∧ s.call.outbound.drained = s.taken.map (·.2) ∧
    (s.placed.map (·.1)).Nodup
  /-- The sends that have returned well are those whose messages have found a place. -/
  accepted : ∀ id, (id, .ok ()) ∈ s.returned ↔ id ∈ s.placed.map (·.1)
  /-- A message is that of its send. -/
  own : ∀ id m, (id, m) ∈ s.placed → .begin id m ∈ as
  room : s.call.outbound.queue.length ≤ Outbound.capacity
  /-- A send that has returned well is taken out before one that begins later. -/
  before : ∀ before after id m s₁, as = before ++ .begin id m :: after → start.run before = some s₁ →
    ∀ i, (i, .ok ()) ∈ s₁.returned → id ∈ s.taken.map (·.1) →
      ∃ earlier later, s.taken.map (·.1) = earlier ++ id :: later ∧ i ∈ earlier
  failed : ∀ id fault, (id, .error fault) ∈ s.returned →
    ∀ more t, s.run more = some t → id ∉ t.taken.map (·.1)
  /-- After an end to the sending direction nobody gets hold of the queue. -/
  late : .close ∈ as → ∀ id t, s.step (.claim id) = some t →
    t.call = s.call ∧ t.returned = s.returned ++ [(id, .error .sendClosed)]
  /-- The end of the queue comes after everything that was accepted, and before nothing. -/
  atEnd : s.call.outbound.atEnd = true →
    (∀ id, (id, .ok ()) ∈ s.returned → id ∈ s.taken.map (·.1)) ∧
      ∀ more t, s.run more = some t → t.call.outbound.drained = s.call.outbound.drained
  /-- A send that waits for a place finds one, or the call can make room. -/
  unblocked : ∀ entry ∈ s.call.outbound.waiting,
    (s.step (.settle entry.1)).isSome ∨ (s.step .drain).isSome
  /-- With the sending direction ended and nobody waiting, nothing joins the queue any more, and the
  end is reached when what is in it has been taken out. -/
  finishes : .close ∈ as → s.call.outbound.waiting = [] → s.call.outbound.gone = false →
    s.call.outbound.atEnd = false →
      (∀ more t, s.run more = some t → t.call.outbound.waiting = [] ∧ t.placed = s.placed) ∧
      ((s.step .finish).isSome ↔ s.call.outbound.queue = []) ∧
      ∃ t, s.run (List.replicate s.call.outbound.queue.length .drain ++ [.finish]) = some t ∧
        t.call.outbound.atEnd = true

theorem placed_of_taken (hid : id ∈ s.taken.map (·.1)) : id ∈ s.placed.map (·.1) := by
  rw [taken, List.map_take] at hid
  exact List.mem_of_mem_take hid

theorem Sound.failed (h : Sound s) {fault : StreamFault} (hfault : (id, .error fault) ∈ s.returned)
    (hrun : s.run as = some t) : id ∉ t.taken.map (·.1) := by
  intro hid
  have ht := sound_run h hrun
  have hok := (ht.placed_iff id).1 (placed_of_taken hid)
  have hfault' := (run_grows hrun).1.subset hfault
  cases ht.returned_once hok hfault'

theorem refused_of_closed (hopen : s.call.outbound.isOpen = false) (hstep : s.step (.claim id) = some t) :
    t.call = s.call ∧ t.returned = s.returned ++ [(id, .error .sendClosed)] := by
  cases Step.of_step hstep with
  | claim _ m hmem hopen' => cases hopen'.symm.trans hopen
  | late => exact ⟨rfl, rfl⟩

theorem sound_opened (role : Role) (peer : String) (limit : Nat) :
    Sound { call := .opened role peer limit } := by
  cases role with
  | client => exact sound_start rfl
  | server => exact sound_start rfl

theorem known_opened (role : Role) (peer : String) (limit : Nat) :
    ({ call := .opened role peer limit } : Sending).known = [] := by
  cases role <;> rfl

/-- **Sends keep their order, and the end comes after them.** For any number of sends side by side, with
ends to the sending direction and messages taken out between any two of their steps. -/
theorem sends_keep_order {role : Role} {peer : String} {limit : Nat}
    (hrun : ({ call := .opened role peer limit } : Sending).run as = some s) :
    Orderly { call := .opened role peer limit } as s := by
  have hstart := sound_opened role peer limit
  have hs := sound_run hstart hrun
  exact {
    drained := ⟨List.take_prefix _ _, hs.drained, hs.placed_once⟩
    accepted := fun id => (hs.placed_iff id).symm
    own := by
      intro id m hmem
      rcases run_known hrun (List.mem_append_right _ hmem) with hknown | ⟨hbegin, -⟩
      · rw [known_opened] at hknown
        cases hknown
      · exact hbegin
    room := hs.room
    before := by
      rintro before after id m s₁ rfl hbefore i hi hid
      obtain ⟨s₁', hbefore', hafter⟩ := run_append.1 hrun
      cases hbefore.symm.trans hbefore'
      exact taken_before (sound_run hstart hbefore) hafter hi hid
    failed := fun id fault hfault more t hmore => hs.failed hfault hmore
    late := fun hclose id t hstep => refused_of_closed (run_closed hclose hrun) hstep
    atEnd := by
      refine fun hend => ⟨fun id hid => ?_, fun more t hmore => drained_atEnd hs hend hmore⟩
      rw [hs.taken_atEnd hend]
      exact (hs.placed_iff id).2 hid
    unblocked := fun entry hentry => unblocked hentry
    finishes := by
      intro hclose hwaiting hgone hend
      have hopen := run_closed hclose hrun
      exact ⟨fun more t hmore => run_placed ⟨hopen, hwaiting⟩ hmore,
        finish_iff hopen hwaiting hgone hend, run_to_end hopen hwaiting hgone hend⟩ }

/-- A close falls between the steps of a send, and another send comes too late for the queue. -/
def closeBetween : List Action :=
  [.begin 0 { payload := [1] }, .begin 1 { payload := [2] }, .claim 1, .claim 0, .settle 0, .close,
    .begin 2 { payload := [3] }, .claim 2, .settle 1, .drain, .drain, .finish]

theorem sends_keep_order_closeBetween : ∃ s,
    ({ call := .opened .client "peer0" 100 } : Sending).run closeBetween = some s ∧
      Orderly { call := .opened .client "peer0" 100 } closeBetween s ∧
      s.returned = [(0, .ok ()), (2, .error .sendClosed), (1, .ok ())] ∧
      s.call.outbound.drained = [{ payload := [1] }, { payload := [2] }] ∧
      s.call.outbound.atEnd = true := by
  obtain ⟨s, hrun, hreturned, hdrained, hend⟩ : ∃ s,
      ({ call := .opened .client "peer0" 100 } : Sending).run closeBetween = some s ∧
        s.returned = [(0, .ok ()), (2, .error .sendClosed), (1, .ok ())] ∧
        s.call.outbound.drained = [{ payload := [1] }, { payload := [2] }] ∧
        s.call.outbound.atEnd = true := ⟨_, rfl, rfl, rfl, rfl⟩
  exact ⟨s, hrun, sends_keep_order hrun, hreturned, hdrained, hend⟩

end Chaincode.Sending
