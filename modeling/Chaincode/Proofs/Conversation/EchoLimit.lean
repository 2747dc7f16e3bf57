import Chaincode.Proofs.Call.Limit
import Chaincode.Proofs.Conversation.EchoTasks
import Chaincode.Proofs.Conversation.OverCall
import Chaincode.Proofs.Wire.Shortest

/-!
# Echo replies and the limit

A call has one limit for both directions. The reply of the echo handler is never longer than the bytes
its message was read from, however the peer has spelled them (`Envelope.size_of_reply`), so a message
that was let in is answered by one that is let out. Hence no task of an echo session ever comes to a
fault for the size of its message (`Modest`, kept by every move), and no echo session ends with one
(`echo_replies_within_limit`).

For the three kinds that are answered the number takes one byte. A negative number may stand in fewer
bytes than it is written with, so the same could not be said of every message that is sent back as it
came.
-/

namespace Chaincode

open Wire

/-! ## A reply and the bytes of its message -/

namespace Envelope

variable {m r : Envelope} {os : List Occurrence} {bs : Bytes} {limit : Nat}

theorem ReadOff.fits (h : ReadOff os m) : m.Fits where
  payload := h.payload.fits
  txid := h.txid.fits
  channel := h.channel.fits

theorem number_of_kind {k : Kind} (h : m.kind = k) (hk : k ≠ .undefined) : m.number = k.number := by
  rw [kind, Kind.ofNumber] at h
  cases hnumber : Kind.ofNumber? m.number with
  | none =>
    rw [hnumber] at h
    exact absurd h.symm hk
  | some k' =>
    rw [hnumber] at h
    cases h
    exact (Kind.number_of_ofNumber? hnumber).symm

/-- A reply differs from its message at most in the number, and both numbers are small ones. -/
structure Answers (r m : Envelope) : Prop where
  asked : m.number ≠ 0
  number : r.number = Kind.completed.number ∨ r.number = Kind.keepalive.number
  payload : r.payload = m.payload
  txid : r.txid = m.txid
  channel : r.channel = m.channel

theorem answers_of_reply? (h : m.reply? = some r) : Answers r m := by
  unfold reply? at h
  split at h
  · rename_i hkind
    cases h
    exact ⟨by rw [number_of_kind hkind (by decide)]; decide, .inl rfl, rfl, rfl, rfl⟩
  · rename_i hkind
    cases h
    exact ⟨by rw [number_of_kind hkind (by decide)]; decide, .inl rfl, rfl, rfl, rfl⟩
  · rename_i hkind
    cases h
    have hnumber := number_of_kind hkind (by decide)
    exact ⟨by rw [hnumber]; decide, .inr hnumber, rfl, rfl, rfl⟩
  · cases h

theorem reply?_isSome_iff :
    m.reply?.isSome = true ↔ m.kind = .init ∨ m.kind = .transaction ∨ m.kind = .keepalive := by
  unfold reply?
  cases m.kind <;> simp

theorem Answers.fits (h : Answers r m) (hfits : m.Fits) : r.Fits where
  payload := h.payload ▸ hfits.payload
  txid := h.txid ▸ hfits.txid
  channel := h.channel ▸ hfits.channel

theorem Answers.writtenSize_number (h : Answers r m) :
    Field.writtenSize ⟨1, .int32 r.number⟩ = 2 := by
  rcases h.number with hnumber | hnumber <;>
  · rw [hnumber]
    decide

theorem Answers.size_le (h : Answers r m) (hread : ReadOff os m) (hos : ∀ o ∈ os, o.WellFormed) :
    r.size ≤ (bytesOf os).length := by
  have hnumber := hread.number.two_le h.asked hos
  have hpayload := hread.payload.writtenSize_le (by simp [Value.type]) (by decide) hos
  have htxid := hread.txid.writtenSize_le (by simp [Value.type]) (by decide) hos
  have hchannel := hread.channel.writtenSize_le (by simp [Value.type]) (by decide) hos
  have hsum := lastLength_sum_le {1, 3, 4, 7} os
  have hsize : r.size = Field.writtenSize ⟨1, .int32 r.number⟩ +
      (Field.writtenSize ⟨3, .bytes r.payload⟩ + (Field.writtenSize ⟨4, .text r.txid⟩ +
        Field.writtenSize ⟨7, .text r.channel⟩)) := by
    rw [size, fields, sizeFields_cons, sizeFields_cons, sizeFields_cons, sizeFields_cons]
    rfl
  rw [Finset.sum_insert (by decide), Finset.sum_insert (by decide), Finset.sum_insert (by decide),
    Finset.sum_singleton] at hsum
  rw [hsize, h.writtenSize_number, h.payload, h.txid, h.channel]
  omega

/-- **A reply is no longer than the bytes of its message,** whatever form these have. -/
theorem length_of_reply (hdecode : decode bs = .ok m) (hreply : m.reply? = some r) :
    r.size = r.encode.length ∧ r.size ≤ bs.length := by
  obtain ⟨os, fields, rfl, hreads, rfl⟩ := decode_eq_ok.1 hdecode
  have hread := readOff_of_reads hreads
  have hanswers := answers_of_reply? hreply
  have hos : ∀ o ∈ os, o.WellFormed := fun o ho => (admits_of_reads hreads o ho).wellFormed
  exact ⟨(length_encode (hanswers.fits hread.fits)).symm, hanswers.size_le hread hos⟩

/-- `m` is read from no more than `limit` bytes. -/
def ReadWithin (limit : Nat) (m : Envelope) : Prop := ∃ bs, bs.length ≤ limit ∧ decode bs = .ok m

theorem ReadWithin.size_of_reply (h : m.ReadWithin limit) (hreply : m.reply? = some r) :
    r.size ≤ limit := by
  obtain ⟨bs, hlimit, hdecode⟩ := h
  exact Nat.le_trans (length_of_reply hdecode hreply).2 hlimit

end Envelope

/-! ## Messages from a call -/

theorem Codec.readWithin {limit : Nat} {frame : Bytes} {m : Envelope} (h : read limit frame = .ok m) :
    m.ReadWithin limit := by
  rw [read] at h
  split at h
  · cases h
  · rename_i hlimit
    split at h
    · rename_i m' hdecode
      cases h
      exact ⟨frame, Nat.not_lt.1 hlimit, hdecode⟩
    · cases h

theorem Arrival.readWithin {limit : Nat} {a : Arrival} {m : Envelope} (h : a.result limit = .ok m) :
    m.ReadWithin limit := by
  cases a with
  | frame bytes =>
    rw [result] at h
    split at h
    · rename_i hread
      cases h
      exact Codec.readWithin hread
    · cases h
  | ended | failed status => cases h

theorem Course.readWithin {limit : Nat} {arrivals : List Arrival} {m : Envelope}
    (h : m ∈ (ofArrivals limit arrivals).messages) : m.ReadWithin limit := by
  induction arrivals with
  | nil => cases h
  | cons a arrivals ih =>
    cases hresult : a.result limit with
    | error fault =>
      rw [ofArrivals_fault hresult] at h
      cases h
    | ok m' =>
      rw [ofArrivals_message hresult] at h
      rcases List.mem_cons.1 h with rfl | h
      · exact Arrival.readWithin hresult
      · exact ih h

namespace Call

variable {c d : Call} {m : Envelope} {size max : Nat}

theorem readWithin {role : Role} {limit : Nat} {es : List Event}
    (h : m ∈ (course role limit es).messages) : m.ReadWithin limit := by
  unfold course at h
  split at h
  · exact Course.readWithin h
  · cases h
  · exact Course.readWithin h
  · cases h
  · cases h

theorem send_limit {outcome : Sent} (h : c.send m = some (outcome, d)) : d.limit = c.limit := by
  simp only [send] at h
  split at h
  · cases h
    rfl
  · split at h
    · cases h
      rfl
    · obtain ⟨⟨outcome', outbound⟩, -, heq⟩ := Option.map_eq_some_iff.1 h
      cases heq
      rfl

theorem act_limit {a : Action} {r? : Option Received} (h : c.act a = some (r?, d)) :
    d.limit = c.limit := by
  cases a with
  | receive =>
    obtain ⟨⟨r, c'⟩, hreceive, heq⟩ := Option.map_eq_some_iff.1 h
    obtain ⟨⟨r', inbound⟩, -, heq'⟩ := Option.map_eq_some_iff.1 hreceive
    cases heq
    cases heq'
    rfl
  | send m =>
    obtain ⟨⟨outcome, c'⟩, hsend, heq⟩ := Option.map_eq_some_iff.1 h
    cases heq
    exact send_limit hsend
  | close =>
    cases h
    rfl
  | event e =>
    obtain ⟨c', hhappen, heq⟩ := Option.map_eq_some_iff.1 h
    cases heq
    cases e with
    | arrive b =>
      cases hhappen
      rfl
    | answer o =>
      rw [happen] at hhappen
      split at hhappen
      · cases hhappen
        rfl
      · cases hhappen
    | outbound b =>
      obtain ⟨⟨outcome, outbound⟩, -, rfl⟩ := Option.map_eq_some_iff.1 hhappen
      rfl

theorem play_limit {as : List Action} {rs : List Received} (h : c.play as = some (rs, d)) :
    d.limit = c.limit := by
  induction as generalizing c rs with
  | nil =>
    cases h
    rfl
  | cons a as ih =>
    obtain ⟨r?, c', rs', hact, hplay, -⟩ := play_cons.1 h
    rw [ih hplay, act_limit hact]

theorem send_of_size_le (h : m.size ≤ c.limit) : c.send m ≠ some (.error (.tooLarge size max), d) := by
  refine send_ne_tooLarge ?_
  rw [checkSize, if_neg (Nat.not_lt.2 h)]

end Call

/-! ## Reports -/

namespace Session

variable {s t : Session} {a : Action} {name : String} {fault : StreamFault}

/-- No report to the session `s` of the chaincode `name` has told of `fault`. -/
def Spared (name : String) (fault : StreamFault) (s : Session) : Prop :=
  ∃ as, (start name).run as = some s ∧ .error fault ∉ ((start name).history as).reported

theorem Spared.step (h : s.Spared name fault) (hstep : s.step a = some t)
    (ha : a ≠ .report (.error fault)) : t.Spared name fault := by
  obtain ⟨as, hrun, hreported⟩ := h
  refine ⟨as ++ [a], run_concat.2 ⟨s, hrun, hstep⟩, ?_⟩
  rw [history_concat hrun hstep]
  cases a with
  | report outcome =>
    have houtcome : .error fault ≠ outcome := by
      rintro rfl
      exact ha rfl
    simp only [History.note]
    split
    · exact hreported
    · simpa [houtcome] using hreported
  | _ => exact hreported

theorem Spared.result?_ne (h : s.Spared name fault) : s.result? ≠ some (.transport .send fault) := by
  intro hresult
  obtain ⟨as, hrun, hreported⟩ := h
  obtain ⟨before, hchecked, -⟩ := (run_cause hrun hresult).of_send
  refine hreported ?_
  rw [← run_outcomes hrun, hchecked]
  simp

end Session

/-! ## Every move -/

namespace Conversation

variable {c d : Conversation Unit Call} {role : Role} {peer name : String} {limit size max : Nat}
  {es : List Call.Event} {move : Move} {made : List Use}

/-- A message with the handler came over the call, so it was read from no more bytes than its limit. -/
theorem Carried.readWithin {σ : Type} {c : Conversation σ Call} {m : Envelope}
    (h : Carried role peer limit name es c) (hs : c.session.stage = .handling m) :
    m.ReadWithin limit := by
  obtain ⟨as, plays, hrun, hplays, -⟩ := h
  have hdispatched : m ∈ c.session.dispatched := List.mem_of_getLast? (Session.run_handling hrun hs)
  obtain ⟨last, htaken, -⟩ := Session.run_dispatched hrun
  obtain ⟨dropped, lost, hflow⟩ := Session.run_flow hrun
  have hreceived : .ok m ∈ ((Session.start name).history as).received := by
    rw [hflow.results, htaken]
    simp [hdispatched]
  obtain ⟨n, hn⟩ := List.getElem?_of_mem hreceived
  have hresult := (Call.results_of_play hplays).1 n _ hn
  rw [Course.result?] at hresult
  split at hresult
  · rename_i m' hm'
    cases hresult
    exact Call.readWithin (List.mem_of_getElem? hm')
  · obtain ⟨fault, -, heq⟩ := Option.map_eq_some_iff.1 hresult
    cases heq

theorem Carried.limit_eq {σ : Type} {c : Conversation σ Call} (h : Carried role peer limit name es c) :
    c.stream.limit = limit := by
  obtain ⟨as, plays, -, hplays, -⟩ := h
  rw [Call.play_limit hplays, Call.opened_limit]

/-- An echo session whose tasks have nothing to send that is above the limit, and none of whose sends
was refused for that. -/
structure Modest (name : String) (limit size max : Nat) (c : Conversation Unit Call) : Prop where
  handler : c.handler.react = echo.react
  effects : ∀ effect ∈ c.work.effects, ∃ r, effect = .spawn r ∧ r.size ≤ limit
  unsent : ∀ r, .unsent r ∈ c.tasks → r.size ≤ limit
  unreported : .unreported (.error (.tooLarge size max)) ∉ c.tasks
  spared : c.session.Spared name (.tooLarge size max)

theorem modest_start (call : Call) : Modest name limit size max (start name call echo) where
  handler := rfl
  effects := by simp [start]
  unsent := by simp [start]
  unreported := by simp [start]
  spared := ⟨[], rfl, by simp [Session.history, Session.History.along]⟩

theorem effects_of_echoWork {m : Envelope} (h : m.ReadWithin limit) :
    ∀ effect ∈ (echoWork m).effects, ∃ r, effect = .spawn r ∧ r.size ≤ limit := by
  intro effect heffect
  rw [echoWork_eq] at heffect
  obtain ⟨r, hr, rfl⟩ := List.mem_map.1 heffect
  exact ⟨r, rfl, h.size_of_reply (Option.mem_toList.1 hr)⟩

theorem modest_takes {s : Session} (h : Modest name limit size max c)
    (hcarried : Carried role peer limit name es ({ c with session := s }.assign))
    (hstep : c.session.step .takeResult = some s) :
    Modest name limit size max ({ c with session := s }.assign) := by
  have hspared := h.spared.step hstep (by simp)
  have hreads {m : Envelope} (hs : s.stage = .handling m) : m.ReadWithin limit := by
    refine hcarried.readWithin ?_
    rw [assign_session]
    exact hs
  unfold assign
  split
  · rename_i m hs
    have hreact : c.handler.react c.handler.state m = ((), echoWork m) := by
      rw [h.handler]
      rfl
    simp only [hreact]
    exact ⟨h.handler, effects_of_echoWork (hreads hs), h.unsent, h.unreported, hspared⟩
  · exact ⟨h.handler, h.effects, h.unsent, h.unreported, hspared⟩

theorem modest_move (h : Modest name limit size max c) (hlimit : c.stream.limit = limit)
    (hcarried : Carried role peer limit name es d) (hmoves : Moves c move d made)
    (hforeign : move.isForeign = false) : Modest name limit size max d := by
  cases hmoves with
  | goesOn a hstep ha hmove hhandler hwork htasks =>
    refine ⟨hhandler ▸ h.handler, hwork ▸ h.effects, htasks ▸ h.unsent, htasks ▸ h.unreported, ?_⟩
    refine h.spared.step hstep ?_
    rintro rfl
    cases ha
  | takes s hstep => exact modest_takes h hcarried hstep
  | spawns x m rest hs heffects =>
    obtain ⟨r, heq, hsize⟩ := h.effects _ (heffects ▸ List.mem_cons_self)
    cases heq
    refine ⟨h.handler, fun effect heffect => ?_, fun r' hr' => ?_, ?_, h.spared⟩
    · exact h.effects effect (heffects ▸ List.mem_cons_of_mem _ heffect)
    · rcases List.mem_append.1 hr' with hr' | hr'
      · exact h.unsent r' hr'
      · cases List.mem_singleton.1 hr'
        exact hsize
    · simpa [spawn] using h.unreported
  | performs x effect rest hs heffects heffect =>
    obtain ⟨r, rfl, -⟩ := h.effects _ (heffects ▸ List.mem_cons_self)
    exact absurd rfl (heffect r)
  | answers x s hs heffects hstep =>
    exact ⟨h.handler, h.effects, h.unsent, h.unreported, h.spared.step hstep (by simp)⟩
  | sends place m outcome stream htask hsend =>
    have hsize : m.size ≤ c.stream.limit := hlimit ▸ h.unsent m (List.mem_of_getElem? htask)
    refine ⟨h.handler, h.effects, fun r hr => ?_, fun hmem => ?_, h.spared⟩
    · rcases List.mem_or_eq_of_mem_set hr with hr | hr
      · exact h.unsent r hr
      · cases hr
    · rcases List.mem_or_eq_of_mem_set hmem with hmem | hmem
      · exact h.unreported hmem
      · cases hmem
        exact Call.send_of_size_le hsize hsend
  | reports place outcome s htask hstep =>
    refine ⟨h.handler, h.effects, fun r hr => h.unsent r (List.mem_of_mem_eraseIdx hr),
      fun hmem => h.unreported (List.mem_of_mem_eraseIdx hmem), h.spared.step hstep ?_⟩
    intro heq
    cases heq
    exact h.unreported (List.mem_of_getElem? htask)
  | foreign hmove =>
    rw [hforeign] at hmove
    cases hmove

theorem modest_follow {hs : List Happening} (hown : ∀ m, .move m ∈ hs → m.isForeign = false)
    (hcarried : Carried role peer limit name es c) (h : Modest name limit size max c)
    (hfollow : c.follow hs = some d) : Modest name limit size max d := by
  induction hs generalizing c es with
  | nil =>
    cases hfollow
    exact h
  | cons b hs ih =>
    obtain ⟨c', hhappen, hrest⟩ := Option.bind_eq_some_iff.1 hfollow
    have hown' : ∀ m, .move m ∈ hs → m.isForeign = false := fun m hm =>
      hown m (List.mem_cons_of_mem _ hm)
    cases b with
    | move m =>
      obtain ⟨made, hmoves, -⟩ := moves_step hhappen
      have hcarried' := carried_move hcarried hhappen
      have hmodest := modest_move h hcarried.limit_eq hcarried' hmoves (hown m List.mem_cons_self)
      exact ih hown' hcarried' hmodest hrest
    | event b =>
      have hcarried' := carried_event hcarried hhappen
      obtain ⟨stream, -, rfl⟩ := Option.map_eq_some_iff.1 hhappen
      exact ih hown' hcarried' ⟨h.handler, h.effects, h.unsent, h.unreported, h.spared⟩ hrest

/-- **An echo reply is never too large for the call that brought its message.** Whatever bytes a message
is read from, if they are within the limit and the message is one that is answered, the handler starts
one task, for a reply that is no longer than those bytes, and no call with that limit refuses it for its
size. So no echo session over a call, be it ours or the peer's, ends because a reply was too large. -/
theorem echo_replies_within_limit :
    (∀ (limit : Nat) (bs : Bytes) (m : Envelope), bs.length ≤ limit → Envelope.decode bs = .ok m →
      m.kind = .init ∨ m.kind = .transaction ∨ m.kind = .keepalive →
      ∃ r, (echo.react () m).2 = { effects := [.spawn r] } ∧ r.size = r.encode.length ∧
        r.encode.length ≤ bs.length ∧
        ∀ (call call' : Call) (size max : Nat), call.limit = limit →
          call.send r ≠ some (.error (.tooLarge size max), call')) ∧
    ∀ (role : Role) (peer : String) (limit : Nat) (name : String) (hs : List Happening)
      (c : Conversation Unit Call), (∀ move, .move move ∈ hs → move.isForeign = false) →
      (start name (Call.opened role peer limit) echo).follow hs = some c →
      ∀ size max, c.session.result? ≠ some (.transport .send (.tooLarge size max)) := by
  refine ⟨fun limit bs m hlimit hdecode hkind => ?_, fun role peer limit name hs c hown hfollow => ?_⟩
  · obtain ⟨r, hreply⟩ := Option.isSome_iff_exists.1 (Envelope.reply?_isSome_iff.2 hkind)
    obtain ⟨hsize, hlength⟩ := Envelope.length_of_reply hdecode hreply
    have hwork : echoWork m = { effects := [.spawn r] } := by
      have hrefusal : m.refusal? = none := by
        rcases hkind with hkind | hkind | hkind <;> simp [Envelope.refusal?, hkind]
      rw [echoWork_eq, hreply, hrefusal]
      rfl
    refine ⟨r, hwork, hsize, hsize ▸ hlength, fun call call' size max hcall => ?_⟩
    refine Call.send_of_size_le ?_
    rw [hcall]
    exact Nat.le_trans hlength hlimit
  · intro size max
    have hcarried : Carried role peer limit name [] (start name (Call.opened role peer limit) echo) :=
      ⟨[], [], rfl, rfl, rfl⟩
    exact (modest_follow hown hcarried (modest_start _) hfollow).spared.result?_ne

/-- An invocation whose number has a leading zero, of as many bytes as the registration of `c`. -/
def paddedInit : Bytes := [0x08, 0x83, 0x00, 0x1a, 0x02, 5, 6]

/-- The peer sends it and hangs up once it is answered. -/
def paddedCall : List Happening :=
  [.move .register, .event (.arrive (.frame paddedInit)), .move .beginReceive, .move .receive,
    .move .handOver, .move .takeResult, .move .work, .move (.advance 0), .move .work,
    .move (.advance 0), .move .drain, .move .drain, .move .grant, .event (.arrive .ended),
    .move .takePermit, .move .beginReceive, .move .receive, .move .handOver, .move .takeResult,
    .move .close]

theorem echo_replies_within_limit_paddedInit :
    (∃ m r, Envelope.decode paddedInit = .ok m ∧ (echo.react () m).2 = { effects := [.spawn r] } ∧
      r.encode.length ≤ 7) ∧
    ∃ c, (start "c" (Call.opened .server "peer0" 7) echo).follow paddedCall = some c ∧
      c.session.result? = some .streamEnded ∧
      c.session.result? ≠ some (.transport .send (.tooLarge 8 7)) := by
  obtain ⟨hreply, hsession⟩ := echo_replies_within_limit
  have hread : (Envelope.decode paddedInit).toOption = some { number := 3, payload := [5, 6] } := by
    decide +kernel
  have hdecode : Envelope.decode paddedInit = .ok { number := 3, payload := [5, 6] } := by
    cases hd : Envelope.decode paddedInit with
    | error e =>
      rw [hd] at hread
      cases hread
    | ok m =>
      rw [hd] at hread
      exact congrArg Except.ok (Option.some.inj hread)
  obtain ⟨r, hwork, -, hlength, -⟩ := hreply 7 paddedInit _ (by decide) hdecode (by decide)
  have hend : ((start "c" (Call.opened .server "peer0" 7) echo).follow paddedCall).bind
      (·.session.result?) = some .streamEnded := by decide +kernel
  obtain ⟨c, hfollow, hresult⟩ := Option.bind_eq_some_iff.1 hend
  have hown : ∀ move, .move move ∈ paddedCall → move.isForeign = false := by
    simp [paddedCall, Move.isForeign]
  exact ⟨⟨_, r, hdecode, hwork, hlength⟩, c, hfollow, hresult,
    hsession .server "peer0" 7 "c" paddedCall c hown hfollow 8 7⟩

/-- The number -1 in the six bytes of its low 32 bits is written with eleven. -/
example : (Envelope.decode [0x08, 0xff, 0xff, 0xff, 0xff, 0x0f]).toOption.map Envelope.size =
    some 11 := by decide +kernel

end Conversation

end Chaincode
