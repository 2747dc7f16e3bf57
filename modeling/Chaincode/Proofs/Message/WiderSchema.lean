import Mathlib.Data.List.Induction
import Chaincode.Proofs.Wire.Reading
import Chaincode.Proofs.Wire.Record
import Chaincode.Session

/-!
# Envelopes under a wider schema

A peer writes fields that an envelope does not have, in any order, and may write one twice. Every run
of well-formed fields is read, provided that the four known ones are what they should be
(`Envelope.Admits`), and nothing else is; each part of the envelope is what the last occurrence of its
tag holds, or the default (`Envelope.ReadOff`). So unknown fields may be put in or left out anywhere,
and fields of different tags may change places: the envelope stays the same (`reads_wider_schema`).
-/

namespace Chaincode

open Wire

/-! ## The last occurrence -/

namespace Wire

variable {schema : Schema} {o : Occurrence} {os os' : List Occurrence} {fields : List Field} {tag : Nat}
  {v v' : Value}

theorem IsBody.number {body : Bytes} (h : IsBody tag .varint body) : ∃ n, Varint.Spells body n := by
  cases h with
  | plain _ _ hplain =>
    cases hplain with
    | varint n _ hspells => exact ⟨n, hspells⟩

theorem IsBody.block {body : Bytes} (h : IsBody tag .lengthDelimited body) :
    ∃ block, IsBlock block body := by
  cases h with
  | plain _ _ hplain =>
    cases hplain with
    | lengthDelimited block _ hblock => exact ⟨block, hblock⟩

theorem Holds.isText {type : WireType} {body : Bytes} (h : Holds type body v) (hv : v.type = .text) :
    ∃ s, IsBlock (Bytes.ofText s) body := by
  cases h with
  | int32 => cases hv
  | bytes => cases hv
  | text s _ hs => exact ⟨s, hs⟩

/-- `v` is what the last occurrence of the tag holds, or the default if there is none. -/
def LastHolds (os : List Occurrence) (tag : Nat) (v : Value) : Prop :=
  match lastOf tag os with
  | none => v.isDefault = true
  | some o => Holds o.type o.body v

theorem Value.eq_of_isDefault (h : v.isDefault = true) (h' : v'.isDefault = true)
    (htype : v.type = v'.type) : v = v' := by
  cases v <;> cases v' <;> simp_all [Value.isDefault, Value.type]

theorem LastHolds.unique (h : LastHolds os tag v) (h' : LastHolds os tag v')
    (htype : v.type = v'.type) : v = v' := by
  unfold LastHolds at h h'
  cases hlast : lastOf tag os with
  | none =>
    simp only [hlast] at h h'
    exact Value.eq_of_isDefault h h' htype
  | some o =>
    simp only [hlast] at h h'
    exact h.unique h' htype

theorem lastOf_cons (tag : Nat) (o : Occurrence) (os : List Occurrence) :
    lastOf tag (o :: os) = if o.tag = tag then some ((lastOf tag os).getD o) else lastOf tag os := by
  unfold lastOf
  by_cases htag : o.tag = tag
  · rw [List.filter_cons_of_pos (by simpa using htag), List.getLast?_cons, if_pos htag]
  · rw [List.filter_cons_of_neg (by simpa using htag), if_neg htag]

theorem Schema.Reads.last (h : schema.Reads os fields) (hknown : schema.field? tag ≠ none) :
    Option.Rel (fun o f => Holds o.type o.body f.value) (lastOf tag os)
      (fields.filter (·.tag = tag)).getLast? := by
  induction h with
  | nil => exact .none
  | skip o h hunknown hrest ih =>
    have htag : o.tag ≠ tag := by
      rintro rfl
      exact hknown hunknown
    rw [lastOf_cons, if_neg htag]
    exact ih
  | @take os fields o v name h hname hholds hrest ih =>
    rw [lastOf_cons]
    by_cases htag : o.tag = tag
    · rw [if_pos htag, List.filter_cons_of_pos (by simpa using htag), List.getLast?_cons]
      generalize lastOf tag os = last at ih ⊢
      generalize (fields.filter (·.tag = tag)).getLast? = found at ih ⊢
      cases ih with
      | none => exact .some hholds
      | some hlast => exact .some hlast
    · rw [if_neg htag, List.filter_cons_of_neg (by simpa using htag)]
      exact ih

end Wire

namespace Envelope

variable {m : Envelope} {o : Occurrence} {os os' : List Occurrence} {fields : List Field}

/-- An occurrence that an envelope may have: a well-formed field, with a number under tag 1, a block
under tags 3, 4 and 7, and in the last two of them a text. -/
structure Admits (o : Occurrence) : Prop where
  wellFormed : o.WellFormed
  number : o.tag = 1 → o.type = .varint
  block : o.tag = 3 ∨ o.tag = 4 ∨ o.tag = 7 → o.type = .lengthDelimited
  text : o.tag = 4 ∨ o.tag = 7 → ∃ s, IsBlock (Bytes.ofText s) o.body

/-- Each part of `m` is what the last occurrence of its tag holds. -/
structure ReadOff (os : List Occurrence) (m : Envelope) : Prop where
  number : LastHolds os 1 (.int32 m.number)
  payload : LastHolds os 3 (.bytes m.payload)
  txid : LastHolds os 4 (.text m.txid)
  channel : LastHolds os 7 (.text m.channel)

theorem ReadOff.unique {m' : Envelope} (h : ReadOff os m) (h' : ReadOff os m') : m = m' := by
  obtain ⟨number, payload, txid, channel⟩ := m
  obtain ⟨number', payload', txid', channel'⟩ := m'
  cases h.number.unique h'.number rfl
  cases h.payload.unique h'.payload rfl
  cases h.txid.unique h'.txid rfl
  cases h.channel.unique h'.channel rfl
  rfl

theorem ReadOff.congr (h : ∀ tag, lastOf tag os = lastOf tag os') (hread : ReadOff os m) :
    ReadOff os' m := by
  obtain ⟨hnumber, hpayload, htxid, hchannel⟩ := hread
  unfold LastHolds at hnumber hpayload htxid hchannel
  rw [h] at hnumber hpayload htxid hchannel
  exact ⟨hnumber, hpayload, htxid, hchannel⟩

/-! ## One occurrence -/

theorem field?_eq_none {tag : Nat} (h : tag ∉ [1, 3, 4, 7]) : schema.field? tag = none := by
  simp only [List.mem_cons, List.not_mem_nil, or_false, not_or] at h
  simp only [schema]
  split <;> simp_all

theorem admits_iff (hform : o.WellFormed) : Admits o ↔ schema.field? o.tag = none ∨
    ∃ name v, schema.field? o.tag = some (name, Value.type v) ∧ Holds o.type o.body v := by
  constructor
  · intro h
    have hbody := hform.body
    obtain ⟨tag, type, key, body⟩ := o
    obtain ⟨-, hnumber, hblock, htext⟩ := h
    simp only at hbody hnumber hblock htext ⊢
    by_cases h1 : tag = 1
    · subst h1
      rw [hnumber rfl] at hbody ⊢
      obtain ⟨n, hspells⟩ := hbody.number
      exact .inr ⟨_, .int32 (Int32.ofNat n), rfl, .int32 n body hspells⟩
    by_cases h3 : tag = 3
    · subst h3
      rw [hblock (.inl rfl)] at hbody ⊢
      obtain ⟨block, hblock⟩ := hbody.block
      exact .inr ⟨_, .bytes block, rfl, .bytes block body hblock⟩
    by_cases h4 : tag = 4
    · subst h4
      obtain ⟨s, hs⟩ := htext (.inl rfl)
      rw [hblock (.inr (.inl rfl))]
      exact .inr ⟨_, .text s, rfl, .text s body hs⟩
    by_cases h7 : tag = 7
    · subst h7
      obtain ⟨s, hs⟩ := htext (.inr rfl)
      rw [hblock (.inr (.inr rfl))]
      exact .inr ⟨_, .text s, rfl, .text s body hs⟩
    exact .inl (field?_eq_none (by simp [h1, h3, h4, h7]))
  · intro h
    have hexpect {tag : Nat} {name : String} {type : FieldType} (htag : o.tag = tag)
        (hknown : schema.field? tag = some (name, type)) :
        ∃ v : Value, v.type = type ∧ Holds o.type o.body v := by
      rw [htag, hknown] at h
      rcases h with hunknown | ⟨name', v, hv, hholds⟩
      · cases hunknown
      · cases hv
        exact ⟨v, rfl, hholds⟩
    refine ⟨hform, ?_, ?_, ?_⟩
    · intro htag
      obtain ⟨v, hv, hholds⟩ := hexpect htag rfl
      rw [hholds.wireType, hv]
      rfl
    · rintro (htag | htag | htag)
      all_goals
        obtain ⟨v, hv, hholds⟩ := hexpect htag rfl
        rw [hholds.wireType, hv]
        rfl
    · rintro (htag | htag)
      all_goals
        obtain ⟨v, hv, hholds⟩ := hexpect htag rfl
        exact hholds.isText hv

/-! ## Runs of occurrences -/

theorem exists_reads (h : ∀ o ∈ os, Admits o) : ∃ fields, schema.Reads os fields := by
  induction os with
  | nil => exact ⟨[], .nil⟩
  | cons o os ih =>
    obtain ⟨fields, hreads⟩ := ih fun o' ho' => h o' (List.mem_cons_of_mem o ho')
    have hadmits := h o List.mem_cons_self
    rcases (admits_iff hadmits.wellFormed).1 hadmits with hunknown | ⟨name, v, hknown, hholds⟩
    · exact ⟨fields, .skip o hadmits.wellFormed hunknown hreads⟩
    · exact ⟨_, .take o v name hadmits.wellFormed hknown hholds hreads⟩

theorem admits_of_reads (h : schema.Reads os fields) : ∀ o ∈ os, Admits o := by
  induction h with
  | nil => simp
  | skip o hform hunknown hrest ih =>
    intro o' ho'
    rcases List.mem_cons.1 ho' with rfl | ho'
    · exact (admits_iff hform).2 (.inl hunknown)
    · exact ih o' ho'
  | take o v name hform hknown hholds hrest ih =>
    intro o' ho'
    rcases List.mem_cons.1 ho' with rfl | ho'
    · exact (admits_iff hform).2 (.inr ⟨name, v, hknown, hholds⟩)
    · exact ih o' ho'

theorem knows_of_reads (h : schema.Reads os fields) : ∀ f ∈ fields, schema.Knows f := by
  induction h with
  | nil => simp
  | skip o hform hunknown hrest ih => exact ih
  | take o v name hform hknown hholds hrest ih =>
    intro f hf
    rcases List.mem_cons.1 hf with rfl | hf
    · exact ⟨name, hknown⟩
    · exact ih f hf

theorem fields_assign {f : Field} (h : schema.Knows f) :
    (m.assign f).fields = m.fields.map fun g => if g.tag = f.tag then f else g := by
  obtain ⟨name, hknown⟩ := h
  obtain ⟨tag, v⟩ := f
  simp only [schema] at hknown
  split at hknown
  all_goals cases v <;> cases hknown <;> rfl

theorem fields_foldl_assign (h : ∀ f ∈ fields, schema.Knows f) :
    ∀ g ∈ (fields.foldl assign m).fields,
      g ∈ (fields.filter (·.tag = g.tag)).getLast?.toList ∨
        (fields.filter (·.tag = g.tag)).getLast? = none ∧ g ∈ m.fields := by
  induction fields using List.reverseRecOn with
  | nil =>
    intro g hg
    exact .inr ⟨rfl, hg⟩
  | append_singleton fields f ih =>
    intro g hg
    rw [List.foldl_append, List.foldl_cons, List.foldl_nil, fields_assign (h f (by simp))] at hg
    obtain ⟨g', hg', rfl⟩ := List.mem_map.1 hg
    rw [List.filter_append]
    by_cases htag : g'.tag = f.tag
    · left
      simp [htag]
    · simpa [htag, Ne.symm htag] using ih (fun f' hf' => h f' (by simp [hf'])) g' hg'

theorem lastHolds_of_mem (h : schema.Reads os fields) {g : Field}
    (hg : g ∈ (fields.foldl assign ({} : Envelope)).fields) : LastHolds os g.tag g.value := by
  have hknown : schema.field? g.tag ≠ none := by
    simp only [Envelope.fields, List.mem_cons, List.not_mem_nil, or_false] at hg
    rcases hg with rfl | rfl | rfl | rfl <;> simp [schema]
  have hassigned := fields_foldl_assign (knows_of_reads h) g hg
  have hlast := h.last hknown
  unfold LastHolds
  generalize lastOf g.tag os = last at hlast ⊢
  generalize (fields.filter (·.tag = g.tag)).getLast? = found at hassigned hlast
  cases hlast with
  | none =>
    have hdefault : g ∈ ({} : Envelope).fields := by simpa using hassigned
    simp only [Envelope.fields, List.mem_cons, List.not_mem_nil, or_false] at hdefault
    rcases hdefault with rfl | rfl | rfl | rfl <;> rfl
  | @some o f hholds =>
    have hfound : g = f := by simpa [eq_comm] using hassigned
    rw [hfound]
    exact hholds

theorem readOff_of_reads (h : schema.Reads os fields) : ReadOff os (fields.foldl assign {}) := by
  have hlast : ∀ g ∈ (fields.foldl assign ({} : Envelope)).fields, LastHolds os g.tag g.value :=
    fun g hg => lastHolds_of_mem h hg
  simp only [Envelope.fields, List.forall_mem_cons] at hlast
  obtain ⟨hnumber, hpayload, htxid, hchannel, -⟩ := hlast
  exact ⟨hnumber, hpayload, htxid, hchannel⟩

theorem decode_eq_ok {bs : Bytes} : decode bs = .ok m ↔
    ∃ os fields, bs = bytesOf os ∧ schema.Reads os fields ∧ m = fields.foldl assign {} := by
  rw [decode]
  constructor
  · intro h
    cases hread : schema.read bs with
    | error e =>
      rw [hread] at h
      cases h
    | ok fields =>
      rw [hread] at h
      cases h
      obtain ⟨os, hbs, hreads⟩ := Schema.read_iff.1 hread
      exact ⟨os, fields, hbs, hreads, rfl⟩
  · rintro ⟨os, fields, rfl, hreads, rfl⟩
    rw [Schema.read_bytesOf hreads]
    rfl

theorem decode_bytesOf (h : ∀ o ∈ os, Admits o) : ∃ m, decode (bytesOf os) = .ok m ∧ ReadOff os m := by
  obtain ⟨fields, hreads⟩ := exists_reads h
  exact ⟨_, decode_eq_ok.2 ⟨os, fields, rfl, hreads, rfl⟩, readOff_of_reads hreads⟩

theorem decode_eq_ok_iff_readOff (h : ∀ o ∈ os, Admits o) :
    decode (bytesOf os) = .ok m ↔ ReadOff os m := by
  obtain ⟨m', hdecode, hread⟩ := decode_bytesOf h
  rw [hdecode]
  constructor
  · intro heq
    cases heq
    exact hread
  · intro hread'
    rw [hread.unique hread']

theorem read_append_congr {rest rest' : Bytes} (h : ∀ o ∈ os, Admits o)
    (hrest : schema.read rest = schema.read rest') :
    schema.read (bytesOf os ++ rest) = schema.read (bytesOf os ++ rest') := by
  induction os with
  | nil => exact hrest
  | cons o os ih =>
    have hos := ih fun o' ho' => h o' (List.mem_cons_of_mem o ho')
    have hadmits := h o List.mem_cons_self
    have hform := hadmits.wellFormed
    rw [bytesOf] at hos
    rw [bytesOf, List.flatMap_cons, List.append_assoc, List.append_assoc]
    rcases (admits_iff hform).1 hadmits with hunknown | ⟨name, v, hknown, hholds⟩
    · rw [Schema.read_unknown hform hunknown, Schema.read_unknown hform hunknown, hos]
    · rw [Schema.read_known hform hknown hholds, Schema.read_known hform hknown hholds, hos]

theorem read_bytesOf_unknown (h : ∀ o ∈ os, o.WellFormed ∧ o.tag ∉ [1, 3, 4, 7]) (rest : Bytes) :
    schema.read (bytesOf os ++ rest) = schema.read rest := by
  induction os with
  | nil => rfl
  | cons o os ih =>
    obtain ⟨hform, htag⟩ := h o List.mem_cons_self
    rw [bytesOf, List.flatMap_cons, List.append_assoc, Schema.read_unknown hform (field?_eq_none htag)]
    exact ih fun o' ho' => h o' (List.mem_cons_of_mem o ho')

/-- **Envelopes are read under a wider schema.** A byte string is read exactly if it is a run of
well-formed fields, in any order and number, with a number wherever tag 1 stands, a block wherever
tags 3, 4 and 7 stand, and a text in the blocks of the last two; and then each part of the envelope is
what the last occurrence of its tag holds, or the default. Unknown fields between two fields make no
difference, whatever follows, nor does the order of fields with different tags. The pump takes the
message for the empty one exactly if nothing but defaults can be read off. -/
theorem reads_wider_schema :
    (∀ bs, (∃ m, decode bs = .ok m) ↔ ∃ os, bs = bytesOf os ∧ ∀ o ∈ os, Admits o) ∧
    (∀ os m, (∀ o ∈ os, Admits o) → (decode (bytesOf os) = .ok m ↔ ReadOff os m)) ∧
    (∀ before unknown rest, (∀ o ∈ before, Admits o) →
      (∀ o ∈ unknown, o.WellFormed ∧ o.tag ∉ [1, 3, 4, 7]) →
      decode (bytesOf before ++ (bytesOf unknown ++ rest)) = decode (bytesOf before ++ rest)) ∧
    (∀ os os', (∀ o ∈ os, Admits o) →
      (∀ tag, os.filter (·.tag = tag) = os'.filter (·.tag = tag)) →
      decode (bytesOf os) = decode (bytesOf os')) ∧
    ∀ (s : Session) os m, (∀ o ∈ os, Admits o) → decode (bytesOf os) = .ok m →
      ((s.dispatch (.ok m)).stage = .closing .emptyMessage ↔ ReadOff os {}) := by
  refine ⟨fun bs => ⟨?_, ?_⟩, fun os m => decode_eq_ok_iff_readOff, ?_, ?_, ?_⟩
  · rintro ⟨m, hdecode⟩
    obtain ⟨os, fields, hbs, hreads, -⟩ := decode_eq_ok.1 hdecode
    exact ⟨os, hbs, admits_of_reads hreads⟩
  · rintro ⟨os, rfl, hos⟩
    obtain ⟨m, hdecode, -⟩ := decode_bytesOf hos
    exact ⟨m, hdecode⟩
  · intro before unknown rest hbefore hunknown
    rw [decode, decode, read_append_congr hbefore (read_bytesOf_unknown hunknown rest)]
  · intro os os' hos hfilter
    have hos' : ∀ o ∈ os', Admits o := by
      intro o ho
      have hmem : o ∈ os'.filter (·.tag = o.tag) := List.mem_filter.2 ⟨ho, by simp⟩
      rw [← hfilter] at hmem
      exact hos o (List.mem_filter.1 hmem).1
    obtain ⟨m, hdecode, hread⟩ := decode_bytesOf hos
    have hlast : ∀ tag, lastOf tag os = lastOf tag os' := by
      intro tag
      rw [lastOf, hfilter, lastOf]
    rw [hdecode, (decode_eq_ok_iff_readOff hos').2 (hread.congr hlast)]
  · intro s os m hos hdecode
    have hread := (decode_eq_ok_iff_readOff hos).1 hdecode
    have hempty : (s.dispatch (.ok m)).stage = .closing .emptyMessage ↔ m = {} := by
      by_cases hm : m = {}
      · simp [Session.dispatch, isEmpty, hm, Session.finish]
      · simp [Session.dispatch, isEmpty, hm]
    rw [hempty]
    constructor
    · rintro rfl
      exact hread
    · exact hread.unique

/-- A record as a peer may write it: a group that the chaincode does not know, the number 3 with a
leading zero, and two payloads. -/
def peerRecord : List Occurrence :=
  [⟨2, .startGroup, [0x13], [0x2d, 0, 0, 0, 1] ++ [0x14]⟩, ⟨1, .varint, [0x08], [0x83, 0]⟩,
    ⟨3, .lengthDelimited, [0x1a], [1, 7]⟩, ⟨7, .lengthDelimited, [0x3a], [1, 0x63]⟩,
    ⟨3, .lengthDelimited, [0x1a], [2, 8, 9]⟩]

theorem admits_peerRecord : ∀ o ∈ peerRecord, Admits o := by
  have hkey {tag : Nat} {type : WireType} {b : UInt8} (htag : tag ≠ 0) (hlt : tag * 8 + type.number < 2 ^ 32)
      (h : Varint.read [b] = some (tag * 8 + type.number, [])) : IsKey tag type [b] :=
    ⟨htag, hlt, .of_read h⟩
  have hgroup : Occurrence.WellFormed ⟨2, .startGroup, [0x13], [0x2d, 0, 0, 0, 1] ++ [0x14]⟩ := by
    have hinner : IsKey 5 .thirtyTwoBit [0x2d] := hkey (by decide) (by decide) rfl
    have hrun : IsRun 1 ([0x2d] ++ [0, 0, 0, 1] ++ []) :=
      .plain _ _ _ (by decide) hinner (.thirtyTwoBit _ rfl) (.nil 1)
    exact ⟨hkey (by decide) (by decide) rfl, .group _ _ hrun (hkey (by decide) (by decide) rfl)⟩
  have hnumber : Occurrence.WellFormed ⟨1, .varint, [0x08], [0x83, 0]⟩ :=
    ⟨hkey (by decide) (by decide) rfl, .plain _ _ (.varint 3 _ (.of_read rfl))⟩
  have hblock {tag : Nat} {b : UInt8} (block : Bytes) {length : UInt8} (htag : tag ≠ 0)
      (hlt : tag * 8 + WireType.lengthDelimited.number < 2 ^ 32)
      (hb : Varint.read [b] = some (tag * 8 + WireType.lengthDelimited.number, []))
      (hlength : Varint.read [length] = some (block.length, [])) :
      Occurrence.WellFormed ⟨tag, .lengthDelimited, [b], length :: block⟩ :=
    ⟨hkey htag hlt hb, .plain _ _ (.lengthDelimited block _ (.mk [length] (.of_read hlength)))⟩
  simp only [peerRecord, List.forall_mem_cons]
  refine ⟨⟨hgroup, by simp, by simp, by simp⟩, ⟨hnumber, by simp, by simp, by simp⟩,
    ⟨hblock [7] (by decide) (by decide) rfl rfl, by simp, by simp, by simp⟩,
    ⟨hblock [0x63] (by decide) (by decide) rfl rfl, by simp, by simp, fun _ => ?_⟩,
    ⟨hblock [8, 9] (by decide) (by decide) rfl rfl, by simp, by simp, by simp⟩, by simp⟩
  have hc : Bytes.ofText "c" = [0x63] := by decide
  exact ⟨"c", hc ▸ .mk [1] (.of_read rfl)⟩

theorem reads_wider_schema_peerRecord : (∀ o ∈ peerRecord, Admits o) ∧
    decode (bytesOf peerRecord) = .ok { number := 3, payload := [8, 9], channel := "c" } ∧
    decode (bytesOf peerRecord) = decode (bytesOf peerRecord.tail) := by
  obtain ⟨-, hread, hunknown, -, -⟩ := reads_wider_schema
  have hadmits := admits_peerRecord
  have hc : Bytes.ofText "c" = [0x63] := by decide
  have hnumber : Holds .varint [0x83, 0] (.int32 (Int32.ofNat 3)) := .int32 3 _ (.of_read rfl)
  have hpayload : Holds .lengthDelimited [2, 8, 9] (.bytes [8, 9]) := .bytes _ _ (.mk [2] (.of_read rfl))
  have hchannel : Holds .lengthDelimited [1, 0x63] (.text "c") :=
    .text "c" _ (hc ▸ .mk [1] (.of_read rfl))
  refine ⟨hadmits, (hread _ _ hadmits).2 ⟨hnumber, hpayload, rfl, hchannel⟩, ?_⟩
  have hgroup := (hadmits _ List.mem_cons_self).wellFormed
  exact hunknown [] [⟨2, .startGroup, [0x13], [0x2d, 0, 0, 0, 1] ++ [0x14]⟩] (bytesOf peerRecord.tail)
    (by simp) (by simpa using hgroup)

end Envelope

end Chaincode
