import Mathlib.Algebra.BigOperators.Group.Finset.Piecewise
import Mathlib.Algebra.Order.BigOperators.Group.Finset
import Chaincode.Proofs.Message.WiderSchema

/-!
# No form is shorter than the one that is written

A peer may spell numbers with leading zeros and write a field more than once. What is written here is no
longer: of all spellings of a number `encode` is the shortest (`Varint.Spells.size_le`), and so are the
blocks (`IsBlock.size_le`). The fields of a record lie side by side, so the last occurrences of different
tags together are no longer than the record (`lastLength_sum_le`).
-/

namespace Chaincode.Wire

variable {tag n : Nat} {type : WireType} {bs block body : Bytes}

namespace Varint

theorem value_lt (bs : Bytes) : value bs < 2 ^ (7 * bs.length) := by
  induction bs with
  | nil => decide
  | cons b bs ih =>
    have hdigit : b.toNat % 128 < 128 := Nat.mod_lt _ (by decide)
    have hpow : 2 ^ (7 * (b :: bs).length) = 128 * 2 ^ (7 * bs.length) := by
      rw [List.length_cons, Nat.mul_succ, Nat.pow_add, Nat.mul_comm]
    rw [value_cons, hpow]
    omega

theorem value_append (bs bs' : Bytes) :
    value (bs ++ bs') = value bs + 2 ^ (7 * bs.length) * value bs' := by
  induction bs with
  | nil => simp [value]
  | cons b bs ih =>
    have hpow : 2 ^ (7 * (b :: bs).length) = 128 * 2 ^ (7 * bs.length) := by
      rw [List.length_cons, Nat.mul_succ, Nat.pow_add, Nat.mul_comm]
    rw [List.cons_append, value_cons, value_cons, ih, hpow, Nat.mul_add, Nat.mul_assoc]
    omega

theorem Spells.length_pos (h : Spells bs n) : 0 < bs.length := by
  cases h
  simp

theorem Spells.lt (h : Spells bs n) : n < 2 ^ 64 := by
  obtain ⟨more, last, hmore, hlast, hlength⟩ := h
  rcases hlength with hlength | ⟨hlength, hlast'⟩
  · have hlt := value_lt (more ++ [last])
    rw [List.length_append, List.length_singleton] at hlt
    exact Nat.lt_of_lt_of_le hlt (Nat.pow_le_pow_right (by decide) (by omega))
  · have hlt := value_lt more
    have hlast'' : last.toNat < 2 := UInt8.lt_iff_toNat_lt.1 hlast'
    have hone : value [last] = last.toNat := by
      rw [value_cons]
      simp only [value, List.foldr_nil]
      omega
    rw [value_append, hone, hlength]
    rw [hlength] at hlt
    omega

/-- **A number has no spelling shorter than the one that is written.** -/
theorem Spells.size_le (h : Spells bs n) : size n ≤ bs.length := by
  have hvalue : n < 2 ^ (7 * bs.length) := by
    cases h with
    | mk more last => exact value_lt _
  have hpos := h.length_pos
  have hlog : n.log2 < 7 * bs.length := log2_lt hvalue (by omega)
  rw [← length_encode h.lt, length_encode_eq]
  omega

end Varint

theorem IsBlock.lt (h : IsBlock block body) : block.length < 2 ^ 64 := by
  obtain ⟨length, hspells⟩ := h
  exact hspells.lt

theorem IsBlock.size_le (h : IsBlock block body) :
    Varint.size block.length + block.length ≤ body.length := by
  obtain ⟨length, hspells⟩ := h
  have hle := hspells.size_le
  rw [List.length_append]
  omega

theorem Holds.fits {v : Value} (h : Holds type body v) : v.Fits := by
  cases h with
  | int32 n _ hspells => trivial
  | bytes block _ hblock => exact hblock.lt
  | text s _ hblock =>
    have hlt := hblock.lt
    rwa [Value.length_ofText] at hlt

/-- A text or a string of bytes is written no longer than it stands in a body. For a number that would
be false: it counts by its low 32 bits, and a negative one is written with ten bytes. -/
theorem Holds.size_le {v : Value} (h : Holds type body v) (hv : v.type ≠ .int32) :
    v.size ≤ body.length := by
  cases h with
  | int32 n _ hspells => exact absurd rfl hv
  | bytes block _ hblock => exact hblock.size_le
  | text s _ hblock =>
    have hle := hblock.size_le
    rwa [Value.length_ofText] at hle

theorem Holds.length_pos {v : Value} (h : Holds type body v) : 0 < body.length := by
  cases h with
  | int32 n _ hspells => exact hspells.length_pos
  | bytes block _ hblock | text s _ hblock =>
    obtain ⟨length, hspells⟩ := hblock
    have hpos := hspells.length_pos
    rw [List.length_append]
    omega

/-! ## Records -/

variable {o : Occurrence} {os : List Occurrence}

/-- How many bytes the last occurrence of a tag takes up, its key included. -/
def lastLength (tag : Nat) (os : List Occurrence) : Nat :=
  ((lastOf tag os).map (·.bytes.length)).getD 0

theorem lastLength_cons_le (tag : Nat) (o : Occurrence) (os : List Occurrence) :
    lastLength tag (o :: os) ≤ lastLength tag os + if o.tag = tag then o.bytes.length else 0 := by
  rw [lastLength, lastOf_cons]
  by_cases htag : o.tag = tag
  · rw [if_pos htag, if_pos htag, lastLength]
    cases lastOf tag os <;> simp
  · rw [if_neg htag, if_neg htag]
    exact Nat.le_refl _

/-- **The last occurrences of different tags lie side by side in a record.** -/
theorem lastLength_sum_le (tags : Finset Nat) (os : List Occurrence) :
    ∑ tag ∈ tags, lastLength tag os ≤ (bytesOf os).length := by
  induction os with
  | nil => simp [lastLength, lastOf]
  | cons o os ih =>
    -- an occurrence has one tag, so it counts once at most
    have hone : ∑ tag ∈ tags, (if o.tag = tag then o.bytes.length else 0) ≤ o.bytes.length := by
      rw [Finset.sum_ite_eq]
      split <;> simp
    have hlength : (bytesOf (o :: os)).length = o.bytes.length + (bytesOf os).length := by
      rw [bytesOf, List.flatMap_cons, List.length_append, bytesOf]
    calc ∑ tag ∈ tags, lastLength tag (o :: os)
        ≤ ∑ tag ∈ tags, (lastLength tag os + if o.tag = tag then o.bytes.length else 0) :=
          Finset.sum_le_sum fun tag _ => lastLength_cons_le tag o os
      _ = ∑ tag ∈ tags, lastLength tag os +
            ∑ tag ∈ tags, (if o.tag = tag then o.bytes.length else 0) := Finset.sum_add_distrib
      _ ≤ (bytesOf os).length + o.bytes.length := Nat.add_le_add ih hone
      _ = (bytesOf (o :: os)).length := by rw [hlength, Nat.add_comm]

theorem LastHolds.cases {v : Value} (h : LastHolds os tag v) : v.isDefault = true ∨
    ∃ o, lastOf tag os = some o ∧ Holds o.type o.body v := by
  unfold LastHolds at h
  cases hlast : lastOf tag os with
  | none =>
    rw [hlast] at h
    exact .inl h
  | some o =>
    rw [hlast] at h
    exact .inr ⟨o, rfl, h⟩

theorem mem_of_lastOf (h : lastOf tag os = some o) : o ∈ os :=
  (List.mem_filter.1 (List.mem_of_getLast? h)).1

theorem LastHolds.fits {v : Value} (h : LastHolds os tag v) : v.Fits := by
  rcases h.cases with hdefault | ⟨o, -, hholds⟩
  · cases v with
    | int32 n => trivial
    | bytes b =>
      obtain rfl : b = [] := List.isEmpty_iff.1 hdefault
      exact Nat.two_pow_pos 64
    | text s =>
      obtain rfl : s = "" := of_decide_eq_true hdefault
      exact Nat.two_pow_pos 64
  · exact hholds.fits

theorem lastLength_of_lastOf (h : lastOf tag os = some o) :
    lastLength tag os = o.key.length + o.body.length := by
  rw [lastLength, h, Option.map_some, Option.getD_some, Occurrence.bytes, List.length_append]

theorem LastHolds.two_le {k : Int32} (h : LastHolds os tag (.int32 k)) (hk : k ≠ 0)
    (hos : ∀ o ∈ os, o.WellFormed) : 2 ≤ lastLength tag os := by
  rcases h.cases with hdefault | ⟨o, hlast, hholds⟩
  · exact absurd (of_decide_eq_true hdefault) hk
  · have hkey := (hos o (mem_of_lastOf hlast)).key.spells.length_pos
    have hbody := hholds.length_pos
    rw [lastLength_of_lastOf hlast]
    omega

/-- The length of a field as it is written. -/
def Field.writtenSize (f : Field) : Nat := if f.value.isDefault then 0 else f.size

theorem sizeFields_cons (f : Field) (fields : List Field) :
    sizeFields (f :: fields) = f.writtenSize + sizeFields fields := by
  unfold sizeFields Field.writtenSize
  cases hdefault : f.value.isDefault with
  | true => simp [hdefault]
  | false => simp [hdefault]

theorem LastHolds.writtenSize_le {v : Value} (h : LastHolds os tag v) (hv : v.type ≠ .int32)
    (htag : Key.size tag = 1) (hos : ∀ o ∈ os, o.WellFormed) :
    Field.writtenSize ⟨tag, v⟩ ≤ lastLength tag os := by
  unfold Field.writtenSize
  split
  · exact Nat.zero_le _
  · rename_i hdefault
    obtain ⟨o, hlast, hholds⟩ := h.cases.resolve_left hdefault
    have hkey := (hos o (mem_of_lastOf hlast)).key.spells.length_pos
    have hbody := hholds.size_le hv
    have hsize : Field.size ⟨tag, v⟩ = 1 + v.size := by rw [Field.size, htag]
    rw [lastLength_of_lastOf hlast, hsize]
    omega

end Chaincode.Wire
