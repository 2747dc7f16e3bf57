import Chaincode.Message
import Chaincode.Proofs.Wire.Record

/-!
# Nothing is lost on the wire

Reading an envelope or an identifier from its wire form yields that envelope or identifier again,
whatever its fields hold, and the size found beforehand is the length of the wire form. Fields that
hold their default are not written; a reader assumes just those, so nothing is lost with them
(`foldl_assign`). Hence what differs is spelled differently (`coding_is_lossless`).
-/

namespace Chaincode

open Wire

namespace Envelope

variable {m : Envelope}

/-- The lengths of the fields can be counted with 64 bits, as those of anything in memory can. -/
structure Fits (m : Envelope) : Prop where
  payload : m.payload.length < 2 ^ 64
  txid : m.txid.utf8ByteSize < 2 ^ 64
  channel : m.channel.utf8ByteSize < 2 ^ 64

theorem fields_fit (h : m.Fits) : ∀ f ∈ m.fields, schema.Knows f ∧ f.Fits := by
  intro f hf
  simp only [fields, List.mem_cons, List.not_mem_nil, or_false] at hf
  rcases hf with rfl | rfl | rfl | rfl
  · exact ⟨⟨_, rfl⟩, by simp, by simp, trivial⟩
  · exact ⟨⟨_, rfl⟩, by simp, by simp, h.payload⟩
  · exact ⟨⟨_, rfl⟩, by simp, by simp, h.txid⟩
  · exact ⟨⟨_, rfl⟩, by simp, by simp, h.channel⟩

theorem foldl_assign (m : Envelope) :
    (m.fields.filter (!·.value.isDefault)).foldl assign {} = m := by
  obtain ⟨number, payload, txid, channel⟩ := m
  rw [List.foldl_filter]
  simp only [fields, List.foldl_cons, List.foldl_nil, Value.isDefault]
  by_cases hn : number = 0 <;> by_cases hp : payload = [] <;> by_cases ht : txid = "" <;>
    by_cases hc : channel = "" <;> simp [assign, hn, hp, ht, hc]

theorem decode_encode (h : m.Fits) : decode m.encode = .ok m := by
  rw [decode, encode, Schema.read_encodeFields (fields_fit h)]
  exact congrArg Except.ok (foldl_assign m)

theorem length_encode (h : m.Fits) : m.encode.length = m.size :=
  length_encodeFields fun f hf => (fields_fit h f hf).2

theorem encode_inj {m' : Envelope} (h : m.Fits) (h' : m'.Fits) (heq : m.encode = m'.encode) :
    m = m' := by
  have hdecode := decode_encode h
  rw [heq, decode_encode h'] at hdecode
  exact (Except.ok.inj hdecode).symm

theorem encode_eq_nil (m : Envelope) : m.encode = [] ↔ m.isEmpty = true := by
  obtain ⟨number, payload, txid, channel⟩ := m
  simp [encode, encodeFields_eq_nil, fields, Value.isDefault, isEmpty]

end Envelope

namespace Identifier

variable {id : Identifier}

/-- The lengths of the fields can be counted with 64 bits, as those of anything in memory can. -/
structure Fits (id : Identifier) : Prop where
  path : id.path.utf8ByteSize < 2 ^ 64
  name : id.name.utf8ByteSize < 2 ^ 64
  version : id.version.utf8ByteSize < 2 ^ 64

theorem fields_fit (h : id.Fits) : ∀ f ∈ id.fields, schema.Knows f ∧ f.Fits := by
  intro f hf
  simp only [fields, List.mem_cons, List.not_mem_nil, or_false] at hf
  rcases hf with rfl | rfl | rfl
  · exact ⟨⟨_, rfl⟩, by simp, by simp, h.path⟩
  · exact ⟨⟨_, rfl⟩, by simp, by simp, h.name⟩
  · exact ⟨⟨_, rfl⟩, by simp, by simp, h.version⟩

theorem foldl_assign (id : Identifier) :
    (id.fields.filter (!·.value.isDefault)).foldl assign {} = id := by
  obtain ⟨path, name, version⟩ := id
  rw [List.foldl_filter]
  simp only [fields, List.foldl_cons, List.foldl_nil, Value.isDefault]
  by_cases hp : path = "" <;> by_cases hn : name = "" <;> by_cases hv : version = "" <;>
    simp [assign, hp, hn, hv]

theorem decode_encode (h : id.Fits) : decode id.encode = .ok id := by
  rw [decode, encode, Schema.read_encodeFields (fields_fit h)]
  exact congrArg Except.ok (foldl_assign id)

theorem length_encode (h : id.Fits) : id.encode.length = id.size :=
  length_encodeFields fun f hf => (fields_fit h f hf).2

theorem encode_inj {id' : Identifier} (h : id.Fits) (h' : id'.Fits) (heq : id.encode = id'.encode) :
    id = id' := by
  have hdecode := decode_encode h
  rw [heq, decode_encode h'] at hdecode
  exact (Except.ok.inj hdecode).symm

theorem encodeWithin_of_le {capacity : Nat} (h : id.size ≤ capacity) :
    id.encodeWithin capacity = .ok id.encode := by
  rw [encodeWithin, if_neg (Nat.not_lt.2 h)]

end Identifier

/-- **The coding of envelopes and identifiers is lossless.** Every envelope is read back from its
wire form as it was, its number included; its size is the length of the wire form, which is empty
exactly for the empty envelope. Every identifier can be written into a buffer of its size, or a larger
one, and is read back as it was. So no two envelopes, and no two identifiers, have the same wire
form. -/
theorem coding_is_lossless :
    (∀ m : Envelope, m.Fits → Envelope.decode m.encode = .ok m ∧ m.size = m.encode.length ∧
      (m.encode = [] ↔ m.isEmpty = true)) ∧
    (∀ id : Identifier, id.Fits → (∀ capacity, id.size ≤ capacity →
      ∃ bytes, id.encodeWithin capacity = .ok bytes ∧ Identifier.decode bytes = .ok id) ∧
      id.size = id.encode.length) ∧
    (∀ m m' : Envelope, m.Fits → m'.Fits → m.encode = m'.encode → m = m') ∧
    ∀ id id' : Identifier, id.Fits → id'.Fits → id.encode = id'.encode → id = id' := by
  refine ⟨fun m h => ?_, fun id h => ⟨fun capacity hcapacity => ?_, ?_⟩,
    fun _ _ => Envelope.encode_inj, fun _ _ => Identifier.encode_inj⟩
  · exact ⟨Envelope.decode_encode h, (Envelope.length_encode h).symm, Envelope.encode_eq_nil m⟩
  · exact ⟨id.encode, Identifier.encodeWithin_of_le hcapacity, Identifier.decode_encode h⟩
  · exact (Identifier.length_encode h).symm

/-- An envelope whose number is below zero and names no kind, with text outside ASCII. -/
def foreignEnvelope : Envelope := { number := -1, payload := [0, 255], txid := "über" }

theorem coding_is_lossless_foreignEnvelope : foreignEnvelope.Fits ∧
    Envelope.decode foreignEnvelope.encode = .ok foreignEnvelope ∧
    foreignEnvelope.encode.length = 22 ∧ (Identifier.named "über").Fits ∧
    ∃ bytes, (Identifier.named "über").encodeWithin 7 = .ok bytes ∧
      Identifier.decode bytes = .ok (.named "über") := by
  have hm : foreignEnvelope.Fits := ⟨by decide, by decide, by decide⟩
  have hid : (Identifier.named "über").Fits := ⟨by decide, by decide, by decide⟩
  obtain ⟨hdecode, hsize, -⟩ := coding_is_lossless.1 foreignEnvelope hm
  have h22 : foreignEnvelope.size = 22 := by decide
  exact ⟨hm, hdecode, by rw [← hsize, h22], hid,
    (coding_is_lossless.2.1 _ hid).1 7 (by decide)⟩

end Chaincode
