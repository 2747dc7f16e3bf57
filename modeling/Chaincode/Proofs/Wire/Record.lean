import Mathlib.Algebra.Group.Nat.Defs
import Mathlib.Data.Nat.Log
import Chaincode.Wire

/-!
# What is written is read back

First the numbers of which everything else is made, then keys, values, fields and whole records.
-/

/-!
## Spelling and reading numbers

What `encode` spells, `read` reads, whatever follows (`read_encode`), and `size` is the length of the
spelling (`length_encode`), both for the numbers below `2 ^ 64`. A spelling has one byte for every
seven bits begun, so that the reader's ten bytes are enough and the tenth is at most 1.
-/

namespace Chaincode.Wire.Varint

variable {n place : Nat} {rest : Bytes}

theorem encode_of_lt (h : n < 128) : encode n = [n.toUInt8] := by
  rw [encode, if_pos h]

theorem encode_of_le (h : 128 ≤ n) : encode n = (n % 128 + 128).toUInt8 :: encode (n / 128) := by
  rw [encode, if_neg (Nat.not_lt.2 h)]

theorem encode_ne_nil (n : Nat) : encode n ≠ [] := by
  rw [encode]
  split <;> simp

theorem toNat_toUInt8 (h : n < 256) : n.toUInt8.toNat = n := by
  simp [Nat.mod_eq_of_lt h]

/-! ### Length -/

theorem log2_lt (h : n < 2 ^ place) (hplace : 0 < place) : n.log2 < place := by
  by_cases h0 : n = 0
  · simpa [h0] using hplace
  · exact (Nat.log2_lt h0).2 h

theorem log2_div (n k : Nat) : (n / 2 ^ k).log2 = n.log2 - k := by
  rw [Nat.log2_eq_log_two, Nat.log2_eq_log_two]
  exact Nat.log_div_base_pow 2 n k

theorem length_encode_eq (n : Nat) : (encode n).length = n.log2 / 7 + 1 := by
  induction n using Nat.strongRecOn with
  | ind n ih =>
    by_cases h : n < 128
    · have hlog : n.log2 < 7 := log2_lt h (by decide)
      rw [encode_of_lt h, List.length_singleton]
      omega
    · have hdiv : (n / 128).log2 = n.log2 - 7 := log2_div n 7
      have hlog : 7 ≤ n.log2 := (Nat.le_log2 (by omega)).2 (by omega)
      rw [encode_of_le (by omega), List.length_cons, ih (n / 128) (by omega), hdiv]
      omega

theorem length_encode (h : n < 2 ^ 64) : (encode n).length = size n := by
  have hlog : n.log2 < 64 := log2_lt h (by decide)
  rw [length_encode_eq, size]
  omega

/-! ### Reading -/

/-- Reading on after `place` bytes yields a number that fits the bits left for it. -/
theorem readFrom_encode (hplace : place ≤ 9) (h : n < 2 ^ (64 - 7 * place)) :
    readFrom place (encode n ++ rest) = some (n, rest) := by
  induction n using Nat.strongRecOn generalizing place with
  | ind n ih =>
    by_cases hlast : place = 9
    · subst hlast
      have hn : n < 2 := h
      have hbyte : n.toUInt8 < 2 := by
        rw [UInt8.lt_iff_toNat_lt, toNat_toUInt8 (by omega)]
        exact hn
      rw [encode_of_lt (by omega), List.singleton_append, readFrom, if_pos rfl, if_pos hbyte,
        toNat_toUInt8 (by omega)]
    · by_cases hn : n < 128
      · have hbyte : n.toUInt8 < 128 := by
          rw [UInt8.lt_iff_toNat_lt, toNat_toUInt8 (by omega)]
          exact hn
        rw [encode_of_lt hn, List.singleton_append, readFrom, if_neg hlast, if_pos hbyte,
          toNat_toUInt8 (by omega)]
      · have hbyte : ¬ (n % 128 + 128).toUInt8 < 128 := by
          rw [UInt8.lt_iff_toNat_lt, toNat_toUInt8 (by omega)]
          exact Nat.not_lt.2 (Nat.le_add_left _ _)
        have hhigh : n / 128 < 2 ^ (64 - 7 * (place + 1)) := by
          rw [Nat.div_lt_iff_lt_mul (by decide)]
          calc n < 2 ^ (64 - 7 * place) := h
            _ = 2 ^ (64 - 7 * (place + 1)) * 2 ^ 7 := by rw [← Nat.pow_add]; congr 1; omega
        rw [encode_of_le (by omega), List.cons_append, readFrom, if_neg hlast, if_neg hbyte,
          ih (n / 128) (by omega) (by omega) hhigh, Option.map_some, toNat_toUInt8 (by omega)]
        have hsum : n % 128 + 128 - 128 + 128 * (n / 128) = n := by omega
        exact congrArg (fun k => some (k, rest)) hsum

theorem read_encode (h : n < 2 ^ 64) : read (encode n ++ rest) = some (n, rest) :=
  readFrom_encode (Nat.zero_le 9) h

end Chaincode.Wire.Varint

/-!
## Writing and reading records

Every reader reads back what its writer wrote, whatever follows: keys, values, fields and, with a
schema that knows the fields, whole records (`read_encodeFields`). The sizes found without writing are
the lengths of what is written (`length_encodeFields`).
-/

namespace Chaincode.Wire

variable {tag n : Nat} {rest : Bytes}

namespace WireType

theorem number_lt (type : WireType) : type.number < 8 := by cases type <;> decide

@[simp] theorem ofNumber?_number (type : WireType) : ofNumber? type.number = some type := by
  cases type <;> rfl

end WireType

/-! ### Keys -/

namespace Key

theorem readNumber_encode (h : n < 2 ^ 64) :
    readNumber (Varint.encode n ++ rest) = .ok (n, rest) := by
  rw [readNumber, Varint.read_encode h]

theorem read_encode {type : WireType} (h0 : tag ≠ 0) (h : tag < 2 ^ 29) :
    read (encode tag type ++ rest) = .ok (tag, type, rest) := by
  have htype := type.number_lt
  have hdiv : (tag * 8 + type.number) / 8 = tag := by omega
  have hmod : (tag * 8 + type.number) % 8 = type.number := by omega
  rw [read, encode, readNumber_encode (by omega)]
  simp only [hdiv, hmod, WireType.ofNumber?_number, h0, if_false]
  rw [if_neg (by omega)]

theorem length_encode {type : WireType} (h0 : tag ≠ 0) (h : tag < 2 ^ 29) :
    (encode tag type).length = size tag := by
  have htype := type.number_lt
  -- both numbers have the tag above their three lowest bits
  have hlog {k : Nat} (hk : k < 8) : (tag * 8 + k).log2 = tag.log2 + 3 := by
    have hdiv : ((tag * 8 + k) / 8).log2 = (tag * 8 + k).log2 - 3 := Varint.log2_div _ 3
    have htag : (tag * 8 + k) / 8 = tag := by omega
    have hle : 3 ≤ (tag * 8 + k).log2 := (Nat.le_log2 (by omega)).2 (by omega)
    rw [htag] at hdiv
    omega
  have hsize : (tag * 8).log2 = tag.log2 + 3 := hlog (k := 0) (by decide)
  rw [encode, Varint.length_encode (by omega), Varint.size, hlog htype, size, Varint.size, hsize]

end Key

theorem readBlock_encode {block : Bytes} (h : block.length < 2 ^ 64) :
    readBlock (Varint.encode block.length ++ (block ++ rest)) = .ok (block, rest) := by
  rw [readBlock, Key.readNumber_encode h]
  simp [takeBytes]

/-! ### Values -/

namespace Value

variable {v : Value}

/-- The length that is written before the value can be counted with 64 bits. -/
def Fits : Value → Prop
  | int32 _ => True
  | bytes b => b.length < 2 ^ 64
  | text s => s.utf8ByteSize < 2 ^ 64

theorem length_ofText (s : String) : (Bytes.ofText s).length = s.utf8ByteSize := by
  simp [Bytes.ofText, String.toUTF8_eq_toByteArray]

theorem ofInt32_lt (n : Int32) : ofInt32 n < 2 ^ 64 := UInt64.toNat_lt _

/-- The low 32 bits of a number's residue are the number itself, whatever its sign. -/
theorem ofNat_ofInt32 (n : Int32) : Int32.ofNat (ofInt32 n) = n := by
  rw [← Int32.toBitVec_inj]
  change BitVec.ofNat 32 (n.toBitVec.signExtend 64).toNat = n.toBitVec
  rw [BitVec.ofNat_toNat]
  ext i hi
  have hi' : i < 64 := by omega
  simp [BitVec.getElem_signExtend, hi, hi']

theorem read_encode (h : v.Fits) :
    read v.type v.type.wireType (v.encode ++ rest) = .ok (v, rest) := by
  rw [read.eq_def, if_pos rfl]
  cases v with
  | int32 n =>
    simp only [type, encode, Key.readNumber_encode (ofInt32_lt n), Except.map, ofNat_ofInt32]
  | bytes b => simp only [type, encode, List.append_assoc, readBlock_encode h, Except.map]
  | text s =>
    have hlength : (Bytes.ofText s).length < 2 ^ 64 := by rwa [length_ofText]
    have hblock : readBlock (Varint.encode (Bytes.ofText s).length ++ (Bytes.ofText s ++ rest)) =
        .ok (Bytes.ofText s, rest) := readBlock_encode hlength
    rw [length_ofText] at hblock
    simp only [type, encode, List.append_assoc, hblock, Bytes.text?_ofText]

theorem length_encode (h : v.Fits) : v.encode.length = v.size := by
  cases v with
  | int32 n => exact Varint.length_encode (ofInt32_lt n)
  | bytes b => rw [encode, List.length_append, Varint.length_encode h, size]
  | text s => rw [encode, List.length_append, Varint.length_encode h, length_ofText, size]

end Value

/-! ### Fields -/

namespace Field

variable {f : Field}

/-- A field with a tag that the format allows and a value that fits. -/
structure Fits (f : Field) : Prop where
  tag_ne_zero : f.tag ≠ 0
  tag_lt : f.tag < 2 ^ 29
  value : f.value.Fits

theorem length_encode (h : f.Fits) : f.encode.length = f.size := by
  rw [encode, List.length_append, Key.length_encode h.tag_ne_zero h.tag_lt,
    Value.length_encode h.value, size]

theorem encode_ne_nil (f : Field) : f.encode ≠ [] := by
  simp [encode, Key.encode, Varint.encode_ne_nil]

end Field

/-! ### Records -/

variable {schema : Schema} {f : Field} {fields : List Field}

/-- Does the schema read the field's tag, at the type of its value? -/
def Schema.Knows (schema : Schema) (f : Field) : Prop :=
  ∃ name, schema.field? f.tag = some (name, f.value.type)

theorem Schema.read_cons (hknows : schema.Knows f) (h : f.Fits) :
    schema.read (f.encode ++ rest) = (schema.read rest).map (f :: ·) := by
  obtain ⟨name, hfield⟩ := hknows
  have hkey : Key.read (f.encode ++ rest) =
      .ok (f.tag, f.value.type.wireType, f.value.encode ++ rest) := by
    rw [Field.encode, List.append_assoc, Key.read_encode h.tag_ne_zero h.tag_lt]
  have hvalue : Value.read f.value.type f.value.type.wireType (f.value.encode ++ rest) =
      .ok (f.value, rest) := Value.read_encode h.value
  rw [read, if_neg (by simp [Field.encode_ne_nil])]
  split
  · rename_i hk
    rw [hkey] at hk
    cases hk
  · rename_i tag type after hk
    rw [hkey] at hk
    cases hk
    simp only [hfield]
    split
    · rename_i hv
      rw [hvalue] at hv
      cases hv
    · rename_i hv
      rw [hvalue] at hv
      cases hv
      rfl

theorem Schema.read_flatMap (h : ∀ f ∈ fields, schema.Knows f ∧ f.Fits) :
    schema.read (fields.flatMap Field.encode) = .ok fields := by
  induction fields with
  | nil => rw [List.flatMap_nil, read, if_pos rfl]
  | cons f fields ih =>
    obtain ⟨hknows, hfits⟩ := h f List.mem_cons_self
    rw [List.flatMap_cons, read_cons hknows hfits, ih fun g hg => h g (List.mem_cons_of_mem f hg)]
    rfl

theorem Schema.read_encodeFields (h : ∀ f ∈ fields, schema.Knows f ∧ f.Fits) :
    schema.read (encodeFields fields) = .ok (fields.filter (!·.value.isDefault)) :=
  read_flatMap fun f hf => h f ((List.mem_filter.1 hf).1)

theorem length_encodeFields (h : ∀ f ∈ fields, f.Fits) :
    (encodeFields fields).length = sizeFields fields := by
  rw [encodeFields, sizeFields, List.length_flatMap]
  congr 1
  exact List.map_congr_left fun f hf => Field.length_encode (h f ((List.mem_filter.1 hf).1))

theorem encodeFields_eq_nil :
    encodeFields fields = [] ↔ ∀ f ∈ fields, f.value.isDefault = true := by
  simp [encodeFields, Field.encode_ne_nil]

end Chaincode.Wire
