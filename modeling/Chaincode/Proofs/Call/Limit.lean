import Chaincode.Proofs.Call.SendOrder
import Chaincode.Proofs.Message.Lossless

/-!
# One limit at both ends

The size check of a send, the sending codec and the receiving codec draw the line at the same byte. A
send above the limit is refused and leaves no trace (`run_without_refused`); what passes the check is
written, and read again by every end whose limit is no smaller (`Course.ofArrivals_frames`). An end with
a smaller limit reads the messages before the first that is too long for it, and then fails
(`Course.ofArrivals_tooLong`). All of it together is `one_limit_at_both_ends`.
-/

namespace Chaincode

variable {m : Envelope} {ms : List Envelope} {limit : Nat}

/-! ## The codec -/

namespace Codec

/-- The status for a frame that is too long to be read. -/
def tooLong (length limit : Nat) : Status where
  code := .outOfRange
  message := "Error, decoded message length too large: found " ++ toString length ++
    " bytes, the limit is: " ++ toString limit ++ " bytes"

theorem write_of_le (h : m.encode.length ≤ limit) : write limit m = .ok m.encode := by
  rw [write, if_neg (Nat.not_lt.2 h)]

theorem read_encode (hfits : m.Fits) (h : m.encode.length ≤ limit) : read limit m.encode = .ok m := by
  rw [read, if_neg (Nat.not_lt.2 h), Envelope.decode_encode hfits]

theorem read_of_lt {frame : Bytes} (h : limit < frame.length) :
    read limit frame = .error (tooLong frame.length limit) := by
  rw [read, if_pos h]
  rfl

end Codec

/-! ## The check -/

namespace Call

variable {c d : Call}

theorem checkSize_eq (hfits : m.Fits) : c.checkSize m =
    if c.limit < m.encode.length then .error (.tooLarge m.encode.length c.limit) else .ok () := by
  rw [checkSize, Envelope.length_encode hfits]

theorem length_le_of_checkSize (hfits : m.Fits) (h : c.checkSize m = .ok ()) :
    m.encode.length ≤ c.limit := by
  rw [checkSize_eq hfits] at h
  split at h
  · cases h
  · exact Nat.not_lt.1 ‹_›

theorem frame_of_checkSize (hfits : m.Fits) (h : c.checkSize m = .ok ()) : c.frame m = .ok m.encode :=
  Codec.write_of_le (length_le_of_checkSize hfits h)

theorem send_ne_tooLarge {size max : Nat} (h : c.checkSize m = .ok ()) :
    c.send m ≠ some (.error (.tooLarge size max), d) := by
  intro hsend
  simp only [send, h, Outbound.claim] at hsend
  by_cases hopen : c.outbound.isOpen = true
  · simp only [if_pos hopen, Sending.settle_claimed (Sending.freshId_not_waiting c)] at hsend
    split at hsend
    · simp at hsend
    · split at hsend <;> simp at hsend
  · simp only [if_neg hopen] at hsend
    cases hsend

theorem send_tooLarge_iff {size max : Nat} (hfits : m.Fits) :
    c.send m = some (.error (.tooLarge size max), d) ↔
      c.limit < m.encode.length ∧ size = m.encode.length ∧ max = c.limit ∧ d = c := by
  have hcheck := checkSize_eq (c := c) hfits
  by_cases hlimit : c.limit < m.encode.length
  · rw [if_pos hlimit] at hcheck
    simp only [send, hcheck]
    constructor
    · intro h
      cases h
      exact ⟨hlimit, rfl, rfl, rfl⟩
    · rintro ⟨-, rfl, rfl, rfl⟩
      rfl
  · rw [if_neg hlimit] at hcheck
    constructor
    · exact fun h => absurd h (send_ne_tooLarge hcheck)
    · exact fun h => absurd h.1 hlimit

end Call

/-! ## A refused send leaves no trace -/

namespace Sending

variable {s s' t : Sending} {a : Action} {as bs : List Action} {id : Nat} {fault : StreamFault}

/-- `t` stands as `s` does, but for the send `id`, which failed in `s` and was not made in `t`. -/
structure Lacks (id : Nat) (fault : StreamFault) (s t : Sending) : Prop where
  call : t.call = s.call
  checked : t.checked = s.checked
  placed : t.placed = s.placed
  returned : ∃ before after, s.returned = before ++ (id, .error fault) :: after ∧
    t.returned = before ++ after

theorem Lacks.mem_ids (h : Lacks id fault s t) {id' : Nat} (hid : id' ∈ t.ids) : id' ∈ s.ids := by
  obtain ⟨before, after, hreturned, hreturned'⟩ := h.returned
  have hsub : t.returned.map (·.1) ⊆ s.returned.map (·.1) := by
    rw [hreturned, hreturned']
    exact List.map_subset _ ((List.Sublist.refl _).append (List.sublist_cons_self _ _)).subset
  simp only [ids, List.mem_append, h.checked, h.call] at hid ⊢
  exact hid.imp_right fun hmem => hsub hmem

theorem Lacks.answer (h : Lacks id fault s t) (id' : Nat) (outcome : Sent) :
    Lacks id fault (s.answer id' outcome) (t.answer id' outcome) := by
  obtain ⟨before, after, hreturned, hreturned'⟩ := h.returned
  refine ⟨h.call, h.checked, h.placed, before, after ++ [(id', outcome)], ?_, ?_⟩
  · simp [Sending.answer, hreturned]
  · simp [Sending.answer, hreturned']

theorem Lacks.withOutbound (h : Lacks id fault s t) (outbound : Outbound) :
    Lacks id fault (s.withOutbound outbound) (t.withOutbound outbound) where
  call := by simp [Sending.withOutbound, h.call]
  checked := h.checked
  placed := h.placed
  returned := h.returned

theorem lacks_step (h : Lacks id fault s t) (hstep : s.step a = some s') :
    ∃ t', t.step a = some t' ∧ Lacks id fault s' t' := by
  cases a with
  | begin id' m =>
    simp only [step] at hstep ⊢
    split at hstep
    · cases hstep
    · rename_i hid
      rw [if_neg fun hmem => hid (h.mem_ids hmem), h.call]
      cases hsize : s.call.checkSize m with
      | error fault' =>
        simp only [hsize] at hstep
        cases hstep
        exact ⟨_, rfl, h.answer id' _⟩
      | ok =>
        simp only [hsize] at hstep
        cases hstep
        exact ⟨_, rfl, rfl, congrArg (· ++ [(id', m)]) h.checked, h.placed, h.returned⟩
  | claim id' =>
    simp only [step, h.checked, h.call] at hstep ⊢
    cases hfind : s.checked.find? (·.1 = id') with
    | none =>
      simp only [hfind] at hstep
      cases hstep
    | some entry =>
      -- the send leaves those that have been checked, in both
      have hleft : Lacks id fault { s with checked := s.checked.filter (·.1 ≠ id') }
          { t with call := s.call, checked := s.checked.filter (·.1 ≠ id') } :=
        ⟨rfl, rfl, h.placed, h.returned⟩
      simp only [hfind] at hstep
      cases hclaim : s.call.outbound.claim id' entry.2 with
      | error fault' =>
        simp only [hclaim] at hstep ⊢
        cases hstep
        exact ⟨_, rfl, hleft.answer id' _⟩
      | ok outbound =>
        simp only [hclaim] at hstep ⊢
        cases hstep
        exact ⟨_, rfl, hleft.withOutbound outbound⟩
  | settle id' =>
    obtain ⟨⟨outcome, outbound⟩, hsettle, rfl⟩ := Option.map_eq_some_iff.1 hstep
    rw [← h.call] at hsettle
    refine ⟨_, Option.map_eq_some_iff.2 ⟨_, hsettle, rfl⟩, ?_⟩
    have hanswer := (h.withOutbound outbound).answer id' outcome
    exact { hanswer with placed := by simp [h.placed, h.call] }
  | close =>
    cases hstep
    exact ⟨_, rfl, congrArg Call.close h.call, h.checked, h.placed, h.returned⟩
  | drain =>
    obtain ⟨outbound, hdrain, rfl⟩ := Option.map_eq_some_iff.1 hstep
    rw [← h.call] at hdrain
    exact ⟨_, Option.map_eq_some_iff.2 ⟨_, hdrain, rfl⟩, h.withOutbound outbound⟩
  | finish =>
    obtain ⟨outbound, hfinish, rfl⟩ := Option.map_eq_some_iff.1 hstep
    rw [← h.call] at hfinish
    exact ⟨_, Option.map_eq_some_iff.2 ⟨_, hfinish, rfl⟩, h.withOutbound outbound⟩
  | drop =>
    cases hstep
    refine ⟨_, rfl, ?_⟩
    rw [h.call]
    exact h.withOutbound _

theorem lacks_run (h : Lacks id fault s t) (hrun : s.run as = some s') :
    ∃ t', t.run as = some t' ∧ Lacks id fault s' t' := by
  induction as generalizing s t with
  | nil =>
    cases hrun
    exact ⟨t, rfl, h⟩
  | cons a as ih =>
    obtain ⟨s₁, hstep, hrest⟩ := Option.bind_eq_some_iff.1 hrun
    obtain ⟨t₁, hstep', h₁⟩ := lacks_step h hstep
    obtain ⟨t', hrun', h'⟩ := ih h₁ hrest
    exact ⟨t', Option.bind_eq_some_iff.2 ⟨t₁, hstep', hrun'⟩, h'⟩

/-- **A send above the limit leaves no trace.** Without it everything goes as it does with it. -/
theorem run_without_refused (hfits : m.Fits) (hlimit : s.call.limit < m.encode.length)
    (hrun : s.run (as ++ .begin id m :: bs) = some s') : ∃ t', s.run (as ++ bs) = some t' ∧
      Lacks id (.tooLarge m.encode.length s.call.limit) s' t' := by
  obtain ⟨s₁, hbefore, hrest⟩ := run_append.1 hrun
  obtain ⟨s₂, hbegin, hafter⟩ := Option.bind_eq_some_iff.1 hrest
  have hcheck : s₁.call.checkSize m = .error (.tooLarge m.encode.length s.call.limit) := by
    rw [Call.checkSize_eq hfits, run_limit hbefore, if_pos hlimit]
  have hlacks : Lacks id (.tooLarge m.encode.length s.call.limit) s₂ s₁ := by
    cases Step.of_step hbegin with
    | refuse _ _ fault hid hsize =>
      cases hcheck.symm.trans hsize
      exact ⟨rfl, rfl, rfl, s₁.returned, [], rfl, (List.append_nil _).symm⟩
    | begin _ _ hid hsize => cases hcheck.symm.trans hsize
  obtain ⟨t', hrun', h'⟩ := lacks_run hlacks hafter
  exact ⟨t', run_append.2 ⟨s₁, hbefore, hrun'⟩, h'⟩

theorem checkSize_of_drained {role : Role} {peer : String}
    (hrun : ({ call := .opened role peer limit } : Sending).run as = some s)
    (hmem : m ∈ s.call.outbound.drained) : s.call.checkSize m = .ok () := by
  rw [(sound_run (sound_opened role peer limit) hrun).drained] at hmem
  obtain ⟨entry, htaken, rfl⟩ := List.mem_map.1 hmem
  have hplaced : entry ∈ s.placed := List.mem_of_mem_take htaken
  rcases run_known hrun (List.mem_append_right _ hplaced) with hknown | ⟨-, hsize⟩
  · rw [known_opened] at hknown
    cases hknown
  · rw [Call.checkSize, run_limit hrun]
    exact hsize

end Sending

/-! ## At the other end -/

/-- Messages as they arrive. -/
def frames (ms : List Envelope) : List Arrival := ms.map (.frame ·.encode)

theorem frames_append (ms ms' : List Envelope) : frames (ms ++ ms') = frames ms ++ frames ms' :=
  List.map_append

theorem Arrival.result_of_le (hfits : m.Fits) (h : m.encode.length ≤ limit) :
    (Arrival.frame m.encode).result limit = .ok m := by
  rw [result, Codec.read_encode hfits h]

theorem Arrival.result_of_lt (h : limit < m.encode.length) : (Arrival.frame m.encode).result limit =
    .error (.status (Codec.tooLong m.encode.length limit)) := by
  rw [result, Codec.read_of_lt h]

namespace Course

theorem ofArrivals_frames {rest : List Arrival}
    (hms : ∀ m ∈ ms, m.Fits ∧ m.encode.length ≤ limit) :
    ofArrivals limit (frames ms ++ rest) =
      { ofArrivals limit rest with messages := ms ++ (ofArrivals limit rest).messages } := by
  induction ms with
  | nil => rfl
  | cons m ms ih =>
    obtain ⟨hfits, hle⟩ := hms m List.mem_cons_self
    have hrest := ih fun m hm => hms m (List.mem_cons_of_mem _ hm)
    have hfirst : ofArrivals limit (frames (m :: ms) ++ rest) =
        (ofArrivals limit (frames ms ++ rest)).cons m :=
      ofArrivals_message (Arrival.result_of_le hfits hle)
    rw [hfirst, hrest]
    rfl

/-- The first message above the limit is the end of the call. -/
theorem ofArrivals_tooLong {before after : List Envelope} {rest : List Arrival}
    (hbefore : ∀ m ∈ before, m.Fits ∧ m.encode.length ≤ limit) (hm : limit < m.encode.length) :
    ofArrivals limit (frames (before ++ m :: after) ++ rest) =
      { messages := before, fault? := some (.status (Codec.tooLong m.encode.length limit)) } := by
  have hlong : ofArrivals limit (frames (m :: after) ++ rest) =
      { fault? := some (.status (Codec.tooLong m.encode.length limit)) } :=
    ofArrivals_fault (Arrival.result_of_lt hm)
  rw [frames_append, List.append_assoc, ofArrivals_frames hbefore, hlong, List.append_nil]

end Course

namespace Call

theorem opened_limit (role : Role) (peer : String) (limit : Nat) :
    (opened role peer limit).limit = limit := by
  cases role <;> rfl

theorem course_of_open {role : Role} {es : List Event}
    (hopen : role = .server ∨ answer? es = some .accepted) :
    course role limit es = .ofArrivals limit (arrivals es) := by
  rcases hopen with rfl | haccepted
  · rfl
  · cases role with
    | server => rfl
    | client => simp only [course, haccepted]

end Call

/-! ## Both ends -/

/-- **The limit is one and the same boundary at both ends,** whatever it is. A send is refused for its
size exactly if the wire form is longer than the limit, and then the call is as before and everything
goes as it would without that send. What a call takes out of its queue passes its codec. At every end
whose limit is no smaller these messages are received unchanged and in order; at an end with a smaller
limit those before the first that is above it are, and then the receives fail once with a status and
find the call closed after that. -/
theorem one_limit_at_both_ends :
    (∀ (call call' : Call) (m : Envelope) (size max : Nat), m.Fits →
      (call.send m = some (.error (.tooLarge size max), call') ↔
        call.limit < m.encode.length ∧ size = m.encode.length ∧ max = call.limit ∧ call' = call) ∧
      (call.checkSize m = .ok () → call.frame m = .ok m.encode)) ∧
    (∀ (s t : Sending) (as bs : List Sending.Action) (id : Nat) (m : Envelope), m.Fits →
      s.call.limit < m.encode.length → s.run (as ++ .begin id m :: bs) = some t →
        ∃ t', s.run (as ++ bs) = some t' ∧ t'.call = t.call ∧
          ∃ before after, t'.returned = before ++ after ∧
            t.returned = before ++ (id, .error (.tooLarge m.encode.length s.call.limit)) :: after) ∧
    ∀ (role : Role) (peer : String) (limit : Nat) (as : List Sending.Action) (s : Sending),
      ({ call := .opened role peer limit } : Sending).run as = some s →
      (∀ m ∈ s.call.outbound.drained, m.Fits) →
      (∀ m ∈ s.call.outbound.drained, s.call.frame m = .ok m.encode) ∧
      ∀ role' peer' limit' plays results call rest,
        (Call.opened role' peer' limit').play plays = some (results, call) →
        (role' = .server ∨ Call.answer? (Call.events plays) = some .accepted) →
        Call.arrivals (Call.events plays) = frames s.call.outbound.drained ++ rest →
        (limit ≤ limit' → ∃ c : Course,
          call.Follows results { c with messages := s.call.outbound.drained ++ c.messages }) ∧
        ∀ before m after, s.call.outbound.drained = before ++ m :: after →
          (∀ b ∈ before, b.encode.length ≤ limit') → limit' < m.encode.length →
          call.Follows results
            { messages := before
              fault? := some (.status (Codec.tooLong m.encode.length limit')) } := by
  refine ⟨fun call call' m size max hfits =>
      ⟨Call.send_tooLarge_iff hfits, Call.frame_of_checkSize hfits⟩,
    fun s t as bs id m hfits hlimit hrun => ?_, fun role peer limit as s hrun hfits => ⟨?_, ?_⟩⟩
  · obtain ⟨t', hrun', hlacks⟩ := Sending.run_without_refused hfits hlimit hrun
    obtain ⟨before, after, hreturned, hreturned'⟩ := hlacks.returned
    exact ⟨t', hrun', hlacks.call, before, after, hreturned', hreturned⟩
  · intro m hm
    exact Call.frame_of_checkSize (hfits m hm) (Sending.checkSize_of_drained hrun hm)
  · intro role' peer' limit' plays results call rest hplay hopen harrivals
    have hfollows := Call.results_of_play hplay
    rw [Call.course_of_open hopen, harrivals] at hfollows
    refine ⟨fun hle => ?_, fun before m after hdrained hbefore hm => ?_⟩
    · have hall : ∀ m ∈ s.call.outbound.drained, m.Fits ∧ m.encode.length ≤ limit' := by
        intro m hm
        have hsent := Call.length_le_of_checkSize (hfits m hm) (Sending.checkSize_of_drained hrun hm)
        have hlimit : s.call.limit = limit := (Sending.run_limit hrun).trans (Call.opened_limit ..)
        exact ⟨hfits m hm, by omega⟩
      rw [Course.ofArrivals_frames hall] at hfollows
      exact ⟨_, hfollows⟩
    · have hall : ∀ b ∈ before, b.Fits ∧ b.encode.length ≤ limit' := by
        intro b hb
        exact ⟨hfits b (by simp [hdrained, hb]), hbefore b hb⟩
      rw [hdrained, Course.ofArrivals_tooLong hall hm] at hfollows
      exact hfollows

/-- One message from its begin to the wire. -/
def oneSend : List Sending.Action :=
  [.begin 0 foreignEnvelope, .claim 0, .settle 0, .drain]

/-- Its arrival, before any receive. -/
def oneArrival : List Call.Action := [.event (.arrive (.frame foreignEnvelope.encode))]

theorem one_limit_at_both_ends_foreignEnvelope :
    (Call.opened .client "peer0" 21).send foreignEnvelope =
      some (.error (.tooLarge 22 21), .opened .client "peer0" 21) ∧
    (∃ t', ({ call := .opened .client "peer0" 21 } : Sending).run [.close] = some t') ∧
    (∃ call, (Call.opened .server "peer1" 22).play oneArrival = some ([], call) ∧
      ∃ c : Course, call.Follows [] { c with messages := [foreignEnvelope] ++ c.messages }) ∧
    ∃ call, (Call.opened .server "peer1" 21).play oneArrival = some ([], call) ∧
      call.Follows [] { messages := [], fault? := some (.status (Codec.tooLong 22 21)) } := by
  have hfits : foreignEnvelope.Fits := ⟨by decide, by decide, by decide⟩
  have hlength : foreignEnvelope.encode.length = 22 := by
    rw [Envelope.length_encode hfits]
    decide
  obtain ⟨hsend, hrefused, hboth⟩ := one_limit_at_both_ends
  obtain ⟨t, hrun⟩ : ∃ t, ({ call := .opened .client "peer0" 21 } : Sending).run
      ([] ++ .begin 0 foreignEnvelope :: [.close]) = some t := ⟨_, rfl⟩
  have hlong : 21 < foreignEnvelope.encode.length := by
    rw [hlength]
    decide
  obtain ⟨t', hrun', -⟩ := hrefused _ t [] [.close] 0 foreignEnvelope hfits hlong hrun
  obtain ⟨s, hs, hdrained⟩ : ∃ s,
      ({ call := .opened .client "peer0" 22 } : Sending).run oneSend = some s ∧
        s.call.outbound.drained = [foreignEnvelope] := ⟨_, rfl, rfl⟩
  obtain ⟨-, hreceive⟩ := hboth .client "peer0" 22 oneSend s hs (by simpa [hdrained] using hfits)
  rw [hdrained] at hreceive
  obtain ⟨call, hplay⟩ : ∃ call,
      (Call.opened .server "peer1" 22).play oneArrival = some ([], call) := ⟨_, rfl⟩
  obtain ⟨call', hplay'⟩ : ∃ call,
      (Call.opened .server "peer1" 21).play oneArrival = some ([], call) := ⟨_, rfl⟩
  have hall := (hreceive .server "peer1" 22 oneArrival [] call [] hplay (.inl rfl) rfl).1 (by decide)
  have hstatus := (hreceive .server "peer1" 21 oneArrival [] call' [] hplay' (.inl rfl) rfl).2
    [] foreignEnvelope [] rfl (by simp) hlong
  rw [hlength] at hstatus
  exact ⟨(hsend _ _ _ 22 21 hfits).1.2 ⟨hlong, hlength.symm, rfl, rfl⟩, ⟨t', hrun'⟩,
    ⟨call, hplay, hall⟩, call', hplay', hstatus⟩

end Chaincode
