import Mathlib.Data.List.Nodup
import Chaincode.Proofs.Call.Course

/-!
# Sends side by side on a call

Any number of sends can be under way on a call, and between the steps of one of them anything can
happen: steps of the others, an end to the sending direction, messages taken out. A `Sending` is a call
with the sends under way, `step` one step of any of them, `Step` says what each step comes to. A
message is taken out after those that found their place in the queue before it, and only the call going
away loses any (`Sound`, kept by `sound_step`). What these steps do to the call are events of it
(`happen_of_step`), and a send on a message stream is one of these sends with nothing between its steps
(`send_is_run`).
-/

namespace Chaincode

/-- A call with the sends on it. Each send has a number of its own. -/
structure Sending where
  call : Call
  /-- The sends past the size check that have not asked for the queue, each with its message. -/
  checked : List (Nat × Envelope) := []
  /-- The sends that have returned, oldest first. -/
  returned : List (Nat × Sent) := []
  /-- The sends whose messages have found a place in the queue, oldest first. -/
  placed : List (Nat × Envelope) := []

namespace Sending

/-- One step of a send, of the chaincode or of the call. -/
inductive Action where
  /-- The send `id` begins, with the size check. -/
  | begin (id : Nat) (m : Envelope)
  /-- It gets hold of the queue, unless the sending direction has ended. -/
  | claim (id : Nat)
  /-- It finds a place in the queue, or finds the call gone. -/
  | settle (id : Nat)
  | close
  | drain
  | finish
  | drop

def ids (s : Sending) : List Nat :=
  s.checked.map (·.1) ++ s.call.outbound.waiting.map (·.1) ++ s.returned.map (·.1)

/-- The sends whose messages the call has taken out, in that order. -/
def taken (s : Sending) : List (Nat × Envelope) := s.placed.take s.call.outbound.drained.length

def withOutbound (s : Sending) (outbound : Outbound) : Sending :=
  { s with call := { s.call with outbound } }

def answer (s : Sending) (id : Nat) (outcome : Sent) : Sending :=
  { s with returned := s.returned ++ [(id, outcome)] }

/-- The call and its sends after an action, if the action is possible. -/
def step (s : Sending) : Action → Option Sending
  | .begin id m =>
    if id ∈ s.ids then none
    else
      match s.call.checkSize m with
      | .error fault => some (s.answer id (.error fault))
      | .ok () => some { s with checked := s.checked ++ [(id, m)] }
  | .claim id =>
    match s.checked.find? (·.1 = id) with
    | none => none
    | some (_, m) =>
      let s := { s with checked := s.checked.filter (·.1 ≠ id) }
      match s.call.outbound.claim id m with
      | .error fault => some (s.answer id (.error fault))
      | .ok outbound => some (s.withOutbound outbound)
  | .settle id =>
    (s.call.outbound.settle id).map fun (outcome, outbound) =>
      let found := match outcome with
        | .ok () => (s.call.outbound.waiting.find? (·.1 = id)).toList
        | .error _ => []
      { (s.withOutbound outbound).answer id outcome with placed := s.placed ++ found }
  | .close => some { s with call := s.call.close }
  | .drain => s.call.outbound.drain.map s.withOutbound
  | .finish => s.call.outbound.finish.map s.withOutbound
  | .drop => some (s.withOutbound s.call.outbound.drop)

/-- The call and its sends after a list of actions, if each is possible in its turn. -/
def run (s : Sending) : List Action → Option Sending
  | [] => some s
  | a :: rest => (s.step a).bind (·.run rest)

/-! ## Steps -/

/-- What a step comes to. -/
inductive Step (s : Sending) : Action → Sending → Prop where
  | refuse (id : Nat) (m : Envelope) (fault : StreamFault) (hid : id ∉ s.ids)
      (hsize : s.call.checkSize m = .error fault) : Step s (.begin id m) (s.answer id (.error fault))
  | begin (id : Nat) (m : Envelope) (hid : id ∉ s.ids) (hsize : s.call.checkSize m = .ok ()) :
      Step s (.begin id m) { s with checked := s.checked ++ [(id, m)] }
  | claim (id : Nat) (m : Envelope) (hmem : (id, m) ∈ s.checked)
      (hopen : s.call.outbound.isOpen = true) :
      Step s (.claim id) (({ s with checked := s.checked.filter (·.1 ≠ id) }).withOutbound
        { s.call.outbound with waiting := s.call.outbound.waiting ++ [(id, m)] })
  /-- The sending direction has ended. -/
  | late (id : Nat) (m : Envelope) (hmem : (id, m) ∈ s.checked)
      (hopen : s.call.outbound.isOpen = false) :
      Step s (.claim id)
        (({ s with checked := s.checked.filter (·.1 ≠ id) }).answer id (.error .sendClosed))
  | place (id : Nat) (m : Envelope) (hmem : (id, m) ∈ s.call.outbound.waiting)
      (hgone : s.call.outbound.gone = false)
      (hroom : s.call.outbound.queue.length < Outbound.capacity) :
      Step s (.settle id)
        { (s.withOutbound { s.call.outbound with
            waiting := s.call.outbound.waiting.filter (·.1 ≠ id)
            queue := s.call.outbound.queue ++ [m] }).answer id (.ok ()) with
          placed := s.placed ++ [(id, m)] }
  /-- There is nobody left to take the message out. -/
  | miss (id : Nat) (m : Envelope) (hmem : (id, m) ∈ s.call.outbound.waiting)
      (hgone : s.call.outbound.gone = true) :
      Step s (.settle id) ((s.withOutbound { s.call.outbound with
        waiting := s.call.outbound.waiting.filter (·.1 ≠ id) }).answer id (.error .closed))
  | close : Step s .close (s.withOutbound { s.call.outbound with isOpen := false })
  | drain (m : Envelope) (rest : List Envelope) (hgone : s.call.outbound.gone = false)
      (hqueue : s.call.outbound.queue = m :: rest) :
      Step s .drain (s.withOutbound { s.call.outbound with
        queue := rest, drained := s.call.outbound.drained ++ [m] })
  | finish (hgone : s.call.outbound.gone = false) (hopen : s.call.outbound.isOpen = false)
      (hwaiting : s.call.outbound.waiting = []) (hqueue : s.call.outbound.queue = [])
      (hend : s.call.outbound.atEnd = false) :
      Step s .finish (s.withOutbound { s.call.outbound with atEnd := true })
  | drop : Step s .drop (s.withOutbound { s.call.outbound with gone := true, queue := [] })

variable {s t u : Sending} {a : Action} {as : List Action} {id : Nat} {m : Envelope}

theorem mem_of_find? {l : List (Nat × Envelope)} {entry : Nat × Envelope}
    (h : l.find? (·.1 = id) = some entry) : entry.1 = id ∧ (id, entry.2) ∈ l := by
  have hid : entry.1 = id := by simpa using List.find?_some h
  have hmem := List.mem_of_find?_eq_some h
  rw [← hid]
  exact ⟨rfl, hmem⟩

theorem Step.of_settle (h : s.step (.settle id) = some t) : Step s (.settle id) t := by
  obtain ⟨⟨outcome, outbound⟩, hsettle, rfl⟩ := Option.map_eq_some_iff.1 h
  rw [Outbound.settle] at hsettle
  split at hsettle
  · cases hsettle
  · rename_i id' m hfind
    obtain ⟨rfl, hmem⟩ := mem_of_find? hfind
    split at hsettle
    · rename_i hgone
      cases hsettle
      simpa [answer, withOutbound] using Step.miss _ m hmem hgone
    · rename_i hgone
      split at hsettle
      · rename_i hroom
        cases hsettle
        simpa [hfind] using Step.place _ m hmem (Bool.eq_false_iff.2 hgone) hroom
      · cases hsettle

theorem Step.of_step (h : s.step a = some t) : Step s a t := by
  cases a with
  | settle id => exact .of_settle h
  | begin id m =>
    simp only [step] at h
    split at h
    · cases h
    · rename_i hid
      split at h
      · cases h
        exact .refuse id m _ hid ‹_›
      · cases h
        exact .begin id m hid ‹_›
  | claim id =>
    simp only [step] at h
    split at h
    · cases h
    · rename_i id' m hfind
      obtain ⟨rfl, hmem⟩ := mem_of_find? hfind
      simp only [Outbound.claim] at h
      by_cases hopen : s.call.outbound.isOpen = true
      · rw [if_pos hopen] at h
        cases h
        exact .claim _ m hmem hopen
      · rw [if_neg hopen] at h
        cases h
        exact .late _ m hmem (Bool.eq_false_iff.2 hopen)
  | close =>
    cases h
    exact .close
  | drain =>
    obtain ⟨outbound, hdrain, rfl⟩ := Option.map_eq_some_iff.1 h
    rw [Outbound.drain] at hdrain
    split at hdrain
    · rename_i m rest hgone hqueue
      cases hdrain
      exact .drain m rest hgone hqueue
    · cases hdrain
  | finish =>
    obtain ⟨outbound, hfinish, rfl⟩ := Option.map_eq_some_iff.1 h
    rw [Outbound.finish] at hfinish
    split at hfinish
    · rename_i hready
      cases hfinish
      simp only [Bool.and_eq_true, Bool.not_eq_true', List.isEmpty_iff] at hready
      obtain ⟨⟨⟨⟨hgone, hopen⟩, hwaiting⟩, hqueue⟩, hend⟩ := hready
      exact .finish hgone hopen hwaiting hqueue hend
    · cases hfinish
  | drop =>
    cases h
    exact .drop

/-! ## What holds all along -/

theorem perm_leave {l : List (Nat × Envelope)} (hmem : (id, m) ∈ l) (hnodup : (l.map (·.1)).Nodup) :
    (id :: (l.filter (·.1 ≠ id)).map (·.1)).Perm (l.map (·.1)) := by
  have hid : id ∈ l.map (·.1) := List.mem_map.2 ⟨_, hmem, rfl⟩
  have herase : (l.filter (·.1 ≠ id)).map (·.1) = (l.map (·.1)).erase id := by
    rw [hnodup.erase_eq_filter, List.filter_map]
    congr 1
    refine List.filter_congr fun entry _ => ?_
    by_cases heq : entry.1 = id <;> simp [heq]
  rw [herase]
  exact (List.perm_cons_erase hid).symm

theorem count_ids (s : Sending) (i : Nat) : s.ids.count i = (s.checked.map (·.1)).count i +
    (s.call.outbound.waiting.map (·.1)).count i + (s.returned.map (·.1)).count i := by
  rw [ids, List.count_append, List.count_append]

theorem count_concat {β : Type} (l : List (Nat × β)) (entry : Nat × β) (i : Nat) :
    ((l ++ [entry]).map (·.1)).count i = (l.map (·.1)).count i + [entry.1].count i := by
  rw [List.map_append, List.count_append]
  rfl

theorem count_leave {l : List (Nat × Envelope)} (hmem : (id, m) ∈ l) (hnodup : (l.map (·.1)).Nodup)
    (i : Nat) : ((l.filter (·.1 ≠ id)).map (·.1)).count i + [id].count i = (l.map (·.1)).count i := by
  rw [← (perm_leave hmem hnodup).count_eq i, List.count_cons, List.count_cons, List.count_nil]
  omega

theorem Step.ids_perm (hstep : Step s a t) (hids : s.ids.Nodup) :
    t.ids.Perm s.ids ∨ ∃ id, id ∉ s.ids ∧ t.ids.Perm (s.ids ++ [id]) := by
  have hchecked : (s.checked.map (·.1)).Nodup :=
    List.Nodup.of_append_left (List.Nodup.of_append_left hids)
  have hwaiting : (s.call.outbound.waiting.map (·.1)).Nodup :=
    List.Nodup.of_append_right (List.Nodup.of_append_left hids)
  cases hstep with
  | refuse id m fault hid hsize =>
    refine .inr ⟨id, hid, List.perm_iff_count.2 fun i => ?_⟩
    simp only [List.count_append, count_ids, answer, count_concat]
    omega
  | begin id m hid hsize =>
    refine .inr ⟨id, hid, List.perm_iff_count.2 fun i => ?_⟩
    simp only [List.count_append, count_ids, count_concat]
    omega
  -- from here on a send that leaves one place joins another
  | claim id m hmem hopen | late id m hmem hopen =>
    refine .inl (List.perm_iff_count.2 fun i => ?_)
    have hleave := count_leave hmem hchecked i
    simp only [count_ids, answer, withOutbound, count_concat]
    omega
  | place id m hmem hgone | miss id m hmem hgone =>
    refine .inl (List.perm_iff_count.2 fun i => ?_)
    have hleave := count_leave hmem hwaiting i
    simp only [count_ids, answer, withOutbound, count_concat]
    omega
  | close | drain | finish | drop => exact .inl (List.Perm.refl _)

theorem Step.ids_nodup (hstep : Step s a t) (hids : s.ids.Nodup) : t.ids.Nodup := by
  rcases hstep.ids_perm hids with hperm | ⟨id, hid, hperm⟩
  · exact hperm.nodup_iff.2 hids
  · exact hperm.nodup_iff.2 (hids.append (List.nodup_singleton id) (by simpa using hid))

/-- How a call and its sends stand. -/
structure Sound (s : Sending) : Prop where
  ids : s.ids.Nodup
  /-- The sends that have returned well are those whose messages have found a place, -/
  placed_iff : ∀ id, id ∈ s.placed.map (·.1) ↔ (id, .ok ()) ∈ s.returned
  /-- one each. -/
  placed_once : (s.placed.map (·.1)).Nodup
  /-- Messages are taken out in the order of their places. Only a call that is gone has lost any. -/
  order : ∃ lost, s.placed.map (·.2) = s.call.outbound.drained ++ s.call.outbound.queue ++ lost ∧
    (s.call.outbound.gone = false → lost = []) ∧
    (s.call.outbound.gone = true → s.call.outbound.queue = [])
  room : s.call.outbound.queue.length ≤ Outbound.capacity
  /-- The end comes after everything that was accepted, and after it nothing is accepted. -/
  atEnd : s.call.outbound.atEnd = true → s.call.outbound.isOpen = false ∧
    s.call.outbound.waiting = [] ∧ s.placed.map (·.2) = s.call.outbound.drained

theorem Sound.not_returned (h : Sound s) (hid : id ∈ s.checked.map (·.1) ++
    s.call.outbound.waiting.map (·.1)) {outcome : Sent} : (id, outcome) ∉ s.returned := by
  intro hmem
  have hdisjoint := (List.nodup_append.1 h.ids).2.2
  exact hdisjoint id hid id (List.mem_map.2 ⟨_, hmem, rfl⟩) rfl

theorem Sound.returned_once (h : Sound s) {outcome outcome' : Sent} (hmem : (id, outcome) ∈ s.returned)
    (hmem' : (id, outcome') ∈ s.returned) : outcome = outcome' := by
  have hnodup : (s.returned.map (·.1)).Nodup := List.Nodup.of_append_right h.ids
  have heq := List.inj_on_of_nodup_map hnodup hmem hmem' rfl
  exact (Prod.mk.inj heq).2

theorem sound_start {call : Call} (hcall : call.outbound = {}) : Sound { call } where
  ids := by simp [ids, hcall]
  placed_iff := by simp
  placed_once := by simp
  order := ⟨[], by simp [hcall], by simp, by simp [hcall]⟩
  room := by simp [hcall]
  atEnd := by simp [hcall]

theorem sound_step (hstep : Step s a t) (h : Sound s) : Sound t := by
  have hids := hstep.ids_nodup h.ids
  obtain ⟨lost, horder, hkept, hgone'⟩ := h.order
  cases hstep with
  | refuse id m fault hid hsize =>
    exact ⟨hids, by simpa [answer] using h.placed_iff, h.placed_once, h.order, h.room, h.atEnd⟩
  | begin id m hid hsize =>
    exact ⟨hids, h.placed_iff, h.placed_once, h.order, h.room, h.atEnd⟩
  | claim id m hmem hopen =>
    refine ⟨hids, h.placed_iff, h.placed_once, h.order, h.room, fun hend => ?_⟩
    obtain ⟨hclosed, -⟩ := h.atEnd hend
    cases hopen.symm.trans hclosed
  | late id m hmem hopen =>
    exact ⟨hids, by simpa [answer] using h.placed_iff, h.placed_once, h.order, h.room, h.atEnd⟩
  | place id m hmem hgone hroom =>
    obtain rfl := hkept hgone
    have hid : id ∉ s.placed.map (·.1) := by
      rw [h.placed_iff]
      exact h.not_returned (List.mem_append_right _ (List.mem_map.2 ⟨_, hmem, rfl⟩))
    refine ⟨hids, fun x => ?_, ?_, ⟨[], ?_, fun _ => rfl, fun hgone'' => ?_⟩, ?_, fun hend => ?_⟩
    · have hplaced := h.placed_iff x
      simp only [answer, withOutbound, List.map_append, List.mem_append, hplaced, List.map_cons,
        List.map_nil, List.mem_singleton, Prod.mk.injEq, and_true]
    · rw [List.map_append]
      exact List.Nodup.append h.placed_once (by simp) (by simpa using hid)
    · simp [answer, withOutbound, horder]
    · cases hgone.symm.trans hgone''
    · have hlength : (s.call.outbound.queue ++ [m]).length ≤ Outbound.capacity := by
        rw [List.length_append]
        exact hroom
      exact hlength
    · obtain ⟨-, hwaiting, -⟩ := h.atEnd hend
      rw [hwaiting] at hmem
      cases hmem
  | miss id m hmem hgone =>
    refine ⟨hids, by simpa [answer, withOutbound] using h.placed_iff, h.placed_once, h.order, h.room,
      fun hend => ?_⟩
    obtain ⟨-, hwaiting, -⟩ := h.atEnd hend
    rw [hwaiting] at hmem
    cases hmem
  | close =>
    exact ⟨hids, h.placed_iff, h.placed_once, h.order, h.room, fun hend => ⟨rfl, (h.atEnd hend).2⟩⟩
  | drain m rest hgone hqueue =>
    rw [hqueue] at horder
    refine ⟨hids, h.placed_iff, h.placed_once, ⟨lost, ?_, hkept, fun hgone'' => ?_⟩, ?_, fun hend => ?_⟩
    · simpa [withOutbound] using horder
    · cases hgone.symm.trans hgone''
    · have hroom := h.room
      rw [hqueue, List.length_cons] at hroom
      exact Nat.le_of_succ_le hroom
    · -- at the end nothing is left to take out
      obtain ⟨-, -, hdrained⟩ := h.atEnd hend
      simp [hdrained] at horder
  | finish hgone hopen hwaiting hqueue hend =>
    obtain rfl := hkept hgone
    refine ⟨hids, h.placed_iff, h.placed_once, h.order, h.room, fun _ => ⟨hopen, hwaiting, ?_⟩⟩
    simpa [hqueue, withOutbound] using horder
  | drop =>
    refine ⟨hids, h.placed_iff, h.placed_once, ⟨s.call.outbound.queue ++ lost, ?_, ?_, fun _ => rfl⟩,
      Nat.zero_le _, h.atEnd⟩
    · simpa [withOutbound] using horder
    · rintro ⟨⟩

/-! ## Runs -/

theorem run_append {bs : List Action} :
    s.run (as ++ bs) = some u ↔ ∃ t, s.run as = some t ∧ t.run bs = some u := by
  induction as generalizing s with
  | nil => simp [run]
  | cons a as ih =>
    simp only [List.cons_append, run, Option.bind_eq_some_iff, ih]
    constructor
    · rintro ⟨s', hstep, t, hrun, hmore⟩
      exact ⟨t, ⟨s', hstep, hrun⟩, hmore⟩
    · rintro ⟨t, ⟨s', hstep, hrun⟩, hmore⟩
      exact ⟨s', hstep, t, hrun, hmore⟩

theorem run_keeps {P : Sending → Prop} (hkeeps : ∀ s a t, Step s a t → P s → P t) (h : P s)
    (hrun : s.run as = some t) : P t := by
  induction as generalizing s with
  | nil =>
    cases hrun
    exact h
  | cons a as ih =>
    obtain ⟨s', hstep, hrest⟩ := Option.bind_eq_some_iff.1 hrun
    exact ih (hkeeps s a s' (.of_step hstep) h) hrest

theorem sound_run (h : Sound s) (hrun : s.run as = some t) : Sound t :=
  run_keeps (fun _ _ _ => sound_step) h hrun

theorem Step.grows (hstep : Step s a t) : s.returned <+: t.returned ∧ s.placed <+: t.placed := by
  cases hstep with
  | refuse | late | miss => exact ⟨List.prefix_append _ _, List.prefix_refl _⟩
  | place => exact ⟨List.prefix_append _ _, List.prefix_append _ _⟩
  | _ => exact ⟨List.prefix_refl _, List.prefix_refl _⟩

theorem run_grows (hrun : s.run as = some t) :
    s.returned <+: t.returned ∧ s.placed <+: t.placed := by
  refine run_keeps (P := fun t => s.returned <+: t.returned ∧ s.placed <+: t.placed)
    (fun t a u hstep h => ?_) ⟨List.prefix_refl _, List.prefix_refl _⟩ hrun
  obtain ⟨hreturned, hplaced⟩ := hstep.grows
  exact ⟨h.1.trans hreturned, h.2.trans hplaced⟩

theorem Step.keeps_closed (hstep : Step s a t) (hopen : s.call.outbound.isOpen = false) :
    t.call.outbound.isOpen = false := by
  cases hstep with
  | close => rfl
  | _ => exact hopen

theorem run_closed (hclose : .close ∈ as) (hrun : s.run as = some t) :
    t.call.outbound.isOpen = false := by
  obtain ⟨before, after, rfl⟩ := List.append_of_mem hclose
  obtain ⟨s', -, hrest⟩ := run_append.1 hrun
  obtain ⟨s'', hstep, hafter⟩ := Option.bind_eq_some_iff.1 hrest
  have hclosed : s''.call.outbound.isOpen = false := by
    cases hstep
    rfl
  exact run_keeps (fun _ _ _ => Step.keeps_closed) hclosed hafter

theorem Step.keeps_placed (hstep : Step s a t)
    (h : s.call.outbound.isOpen = false ∧ s.call.outbound.waiting = []) :
    (t.call.outbound.isOpen = false ∧ t.call.outbound.waiting = []) ∧ t.placed = s.placed := by
  cases hstep with
  | claim id m hmem hopen => cases hopen.symm.trans h.1
  | place id m hmem | miss id m hmem =>
    rw [h.2] at hmem
    cases hmem
  | close => exact ⟨⟨rfl, h.2⟩, rfl⟩
  | _ => exact ⟨h, rfl⟩

theorem run_placed (h : s.call.outbound.isOpen = false ∧ s.call.outbound.waiting = [])
    (hrun : s.run as = some t) : t.call.outbound.waiting = [] ∧ t.placed = s.placed := by
  have hkept := run_keeps (P := fun t =>
    (t.call.outbound.isOpen = false ∧ t.call.outbound.waiting = []) ∧ t.placed = s.placed)
    (fun t a u hstep ih => ?_) ⟨h, rfl⟩ hrun
  · exact ⟨hkept.1.2, hkept.2⟩
  · obtain ⟨hclosed, hplaced⟩ := hstep.keeps_placed ih.1
    exact ⟨hclosed, hplaced.trans ih.2⟩

theorem Step.keeps_atEnd (hstep : Step s a t) (hend : s.call.outbound.atEnd = true) :
    t.call.outbound.atEnd = true := by
  cases hstep with
  | finish => rfl
  | _ => exact hend

/-- The sends whose messages are known, each with its message. -/
def known (s : Sending) : List (Nat × Envelope) := s.checked ++ s.call.outbound.waiting ++ s.placed

theorem Step.known (hstep : Step s a t) {entry : Nat × Envelope} (hentry : entry ∈ t.known) :
    entry ∈ s.known ∨ (a = .begin entry.1 entry.2 ∧ s.call.checkSize entry.2 = .ok ()) := by
  simp only [Sending.known, List.mem_append] at hentry ⊢
  cases hstep with
  | refuse | close | drain | finish | drop => exact .inl hentry
  | begin id m hid hsize =>
    rcases hentry with (hchecked | hwaiting) | hplaced
    · rcases List.mem_append.1 hchecked with hchecked | hnew
      · exact .inl (.inl (.inl hchecked))
      · cases List.mem_singleton.1 hnew
        exact .inr ⟨rfl, hsize⟩
    · exact .inl (.inl (.inr hwaiting))
    · exact .inl (.inr hplaced)
  | claim id m hmem hopen =>
    left
    rcases hentry with (hchecked | hwaiting) | hplaced
    · exact .inl (.inl (List.mem_of_mem_filter hchecked))
    · rcases List.mem_append.1 hwaiting with hwaiting | hnew
      · exact .inl (.inr hwaiting)
      · cases List.mem_singleton.1 hnew
        exact .inl (.inl hmem)
    · exact .inr hplaced
  | late id m hmem hopen =>
    left
    rcases hentry with (hchecked | hwaiting) | hplaced
    · exact .inl (.inl (List.mem_of_mem_filter hchecked))
    · exact .inl (.inr hwaiting)
    · exact .inr hplaced
  | place id m hmem hgone hroom =>
    left
    rcases hentry with (hchecked | hwaiting) | hplaced
    · exact .inl (.inl hchecked)
    · exact .inl (.inr (List.mem_of_mem_filter hwaiting))
    · rcases List.mem_append.1 hplaced with hplaced | hnew
      · exact .inr hplaced
      · cases List.mem_singleton.1 hnew
        exact .inl (.inr hmem)
  | miss id m hmem hgone =>
    left
    rcases hentry with (hchecked | hwaiting) | hplaced
    · exact .inl (.inl hchecked)
    · exact .inl (.inr (List.mem_of_mem_filter hwaiting))
    · exact .inr hplaced

theorem Step.limit (hstep : Step s a t) : t.call.limit = s.call.limit := by
  cases hstep <;> rfl

theorem run_limit (hrun : s.run as = some t) : t.call.limit = s.call.limit :=
  run_keeps (P := fun t => t.call.limit = s.call.limit)
    (fun _ _ _ hstep h => hstep.limit.trans h) rfl hrun

theorem run_known (hrun : s.run as = some t) {entry : Nat × Envelope} (hentry : entry ∈ t.known) :
    entry ∈ s.known ∨
      (.begin entry.1 entry.2 ∈ as ∧ s.call.checkSize entry.2 = .ok ()) := by
  induction as generalizing s with
  | nil =>
    cases hrun
    exact .inl hentry
  | cons a as ih =>
    obtain ⟨s', hstep, hrest⟩ := Option.bind_eq_some_iff.1 hrun
    have hstep := Step.of_step hstep
    rcases ih hrest with hknown | ⟨hbegin, hsize⟩
    · rcases hstep.known hknown with hknown | ⟨rfl, hsize⟩
      · exact .inl hknown
      · exact .inr ⟨List.mem_cons_self, hsize⟩
    · rw [Call.checkSize, hstep.limit] at hsize
      exact .inr ⟨List.mem_cons_of_mem _ hbegin, hsize⟩

/-! ## The steps of the call -/

theorem happen_of_step (h : s.step a = some t) :
    t.call = s.call ∨ ∃ b, s.call.happen (.outbound b) = some t.call := by
  cases a with
  | begin id m =>
    left
    cases Step.of_step h <;> rfl
  | claim id =>
    cases Step.of_step h with
    | claim _ m hmem hopen =>
      right
      refine ⟨.claim id m, ?_⟩
      simp [Call.happen, Outbound.step, Outbound.claim, hopen, withOutbound]
    | late => exact .inl rfl
  | settle id =>
    obtain ⟨⟨outcome, outbound⟩, hsettle, rfl⟩ := Option.map_eq_some_iff.1 h
    right
    refine ⟨.settle id, ?_⟩
    simp [Call.happen, Outbound.step, hsettle, answer, withOutbound]
  | close =>
    cases h
    exact .inr ⟨.close, rfl⟩
  | drain =>
    obtain ⟨outbound, hdrain, rfl⟩ := Option.map_eq_some_iff.1 h
    right
    refine ⟨.drain, ?_⟩
    simp [Call.happen, Outbound.step, hdrain, withOutbound]
  | finish =>
    obtain ⟨outbound, hfinish, rfl⟩ := Option.map_eq_some_iff.1 h
    right
    refine ⟨.finish, ?_⟩
    simp [Call.happen, Outbound.step, hfinish, withOutbound]
  | drop =>
    cases h
    exact .inr ⟨.drop, rfl⟩

/-! ## A send with nothing between its steps -/

theorem le_foldl_max (l : List Nat) (bound : Nat) :
    bound ≤ l.foldl max bound ∧ ∀ n ∈ l, n ≤ l.foldl max bound := by
  induction l generalizing bound with
  | nil => simp
  | cons first l ih =>
    obtain ⟨hbound, hall⟩ := ih (max bound first)
    rw [List.foldl_cons]
    refine ⟨by omega, fun n hn => ?_⟩
    rcases List.mem_cons.1 hn with rfl | hn
    · omega
    · exact hall n hn

theorem freshId_not_waiting (call : Call) : call.freshId ∉ call.outbound.waiting.map (·.1) := by
  intro hmem
  obtain ⟨entry, hentry, hid⟩ := List.mem_map.1 hmem
  have hle := (le_foldl_max (call.outbound.waiting.map (·.1 + 1)) 0).2 (entry.1 + 1)
    (List.mem_map.2 ⟨entry, hentry, rfl⟩)
  have hfresh : entry.1 + 1 ≤ call.freshId := hle
  omega

theorem find?_last {l : List (Nat × Envelope)} (hid : id ∉ l.map (·.1)) :
    (l ++ [(id, m)]).find? (·.1 = id) = some (id, m) := by
  have hnone : l.find? (·.1 = id) = none := by
    refine List.find?_eq_none.2 fun entry hentry => ?_
    have hne : entry.1 ≠ id := fun heq => hid (List.mem_map.2 ⟨entry, hentry, heq⟩)
    simpa using hne
  rw [List.find?_append, hnone]
  simp

theorem filter_last {l : List (Nat × Envelope)} (hid : id ∉ l.map (·.1)) :
    (l ++ [(id, m)]).filter (·.1 ≠ id) = l := by
  have hall : l.filter (·.1 ≠ id) = l := by
    refine List.filter_eq_self.2 fun entry hentry => ?_
    have hne : entry.1 ≠ id := fun heq => hid (List.mem_map.2 ⟨entry, hentry, heq⟩)
    simpa using hne
  rw [List.filter_append, hall]
  simp

theorem settle_claimed {o : Outbound} (hid : id ∉ o.waiting.map (·.1)) :
    ({ o with waiting := o.waiting ++ [(id, m)] } : Outbound).settle id =
      if o.gone then some (.error .closed, o)
      else if o.queue.length < Outbound.capacity then
        some (.ok (), { o with queue := o.queue ++ [m] })
      else none := by
  rw [Outbound.settle, find?_last hid]
  simp only [filter_last hid]

theorem step_begin (hid : id ∉ s.ids) (hsize : s.call.checkSize m = .ok ()) :
    s.step (.begin id m) = some { s with checked := s.checked ++ [(id, m)] } := by
  rw [step, if_neg hid]
  simp only [hsize]

theorem step_claim (hid : id ∉ s.checked.map (·.1)) :
    ({ s with checked := s.checked ++ [(id, m)] } : Sending).step (.claim id) =
      match s.call.outbound.claim id m with
      | .error fault => some (s.answer id (.error fault))
      | .ok outbound => some (s.withOutbound outbound) := by
  rw [step, find?_last hid]
  simp only [filter_last hid]

/-- **A send on the stream is a send with nothing between its steps.** -/
theorem send_is_run {call : Call} {outcome : Sent} (hid : id ∉ s.ids)
    (hsend : s.call.send m = some (outcome, call)) : ∃ as t,
      as <+: [.begin id m, .claim id, .settle id] ∧ s.run as = some t ∧ t.call = call ∧
      t.checked = s.checked ∧ t.returned = s.returned ++ [(id, outcome)] := by
  have hchecked : id ∉ s.checked.map (·.1) := fun hmem =>
    hid (List.mem_append_left _ (List.mem_append_left _ hmem))
  have hwaiting : id ∉ s.call.outbound.waiting.map (·.1) := fun hmem =>
    hid (List.mem_append_left _ (List.mem_append_right _ hmem))
  have hclaim := step_claim (m := m) hchecked
  rw [Call.send] at hsend
  cases hsize : s.call.checkSize m with
  | error fault =>
    simp only [hsize] at hsend
    cases hsend
    refine ⟨[.begin id m], s.answer id (.error fault), ⟨_, rfl⟩, ?_, rfl, rfl, rfl⟩
    rw [run, step, if_neg hid]
    simp only [hsize]
    rfl
  | ok =>
    have hbegin := step_begin hid hsize
    simp only [hsize, Outbound.claim] at hsend
    by_cases hopen : s.call.outbound.isOpen = true
    · rw [Outbound.claim, if_pos hopen] at hclaim
      simp only [if_pos hopen, settle_claimed (freshId_not_waiting s.call)] at hsend
      obtain ⟨⟨outcome', outbound⟩, hsettle, heq⟩ := Option.map_eq_some_iff.1 hsend
      cases heq
      rw [← settle_claimed hwaiting] at hsettle
      refine ⟨[.begin id m, .claim id, .settle id], _, List.prefix_refl _,
        Option.bind_eq_some_iff.2 ⟨_, hbegin, Option.bind_eq_some_iff.2 ⟨_, hclaim,
          Option.bind_eq_some_iff.2 ⟨_, Option.map_eq_some_iff.2 ⟨_, hsettle, rfl⟩, rfl⟩⟩⟩,
        rfl, rfl, rfl⟩
    · rw [Outbound.claim, if_neg hopen] at hclaim
      simp only [if_neg hopen] at hsend
      cases hsend
      exact ⟨[.begin id m, .claim id], s.answer id (.error .sendClosed), ⟨_, rfl⟩,
        Option.bind_eq_some_iff.2 ⟨_, hbegin, Option.bind_eq_some_iff.2 ⟨_, hclaim, rfl⟩⟩,
        rfl, rfl, rfl⟩

end Sending

end Chaincode
