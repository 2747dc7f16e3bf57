import Mathlib.Data.List.TakeWhile
import Chaincode.Base64
import Chaincode.Proofs.Wire.Record

/-!
# Reading base64 back

`Spells` says what base64 is, group by group: four symbols for three bytes, and a last group that is
padded and has no bit set that no byte takes up. Writing gives the one text that spells its bytes
(`spells_iff`), and reading accepts what spells something and nothing else (`decode_eq_ok_iff`). White
space may be put in anywhere, also between the two signs of padding (`decodeSpaced_eq_ok_iff`).
-/

namespace Chaincode.Base64

variable {a b c d k n offset : Nat} {ns : List Nat} {bs text spaced : Bytes}

/-! ## Symbols -/

theorem map_symbol_range : (List.range 64).map symbol = Bytes.ofText
    "ABCDEFGHIJKLMNOPQRSTUVWXYZabcdefghijklmnopqrstuvwxyz0123456789+/" := by
  decide +kernel

theorem value?_symbol (h : n < 64) : value? (symbol n) = some n := by
  have htable : ∀ n < 64, value? (symbol n) = some n := by decide
  exact htable n h

theorem symbol_of_value? {s : UInt8} (h : value? s = some n) : n < 64 ∧ s = symbol n := by
  have htable : ∀ i < 256, ∀ n ∈ value? (UInt8.ofNat i), n < 64 ∧ UInt8.ofNat i = symbol n := by
    decide +kernel
  have hs := htable s.toNat s.toNat_lt
  rw [UInt8.ofNat_toNat] at hs
  exact hs n h

theorem symbol_ne_pad (h : n < 64) : symbol n ≠ pad := by
  intro hpad
  have hvalue := value?_symbol h
  rw [hpad] at hvalue
  cases hvalue

theorem values_eq_ok_iff :
    values offset bs = .ok ns ↔ (∀ n ∈ ns, n < 64) ∧ bs = ns.map symbol := by
  induction bs generalizing offset ns with
  | nil =>
    rw [values, Except.ok.injEq]
    constructor
    · rintro rfl
      simp
    · rintro ⟨-, h⟩
      exact (List.map_eq_nil_iff.1 h.symm).symm
  | cons s bs ih =>
    rw [values]
    constructor
    · intro h
      split at h
      · cases h
      · rename_i n hn
        cases hrest : values (offset + 1) bs with
        | error e =>
          rw [hrest] at h
          cases h
        | ok more =>
          rw [hrest] at h
          cases h
          obtain ⟨hlt, rfl⟩ := symbol_of_value? hn
          obtain ⟨hmore, rfl⟩ := ih.1 hrest
          exact ⟨List.forall_mem_cons.2 ⟨hlt, hmore⟩, rfl⟩
    · rintro ⟨hlt, h⟩
      cases ns with
      | nil => cases h
      | cons n ns =>
        obtain ⟨rfl, rfl⟩ := List.cons.inj h
        obtain ⟨hn, hns⟩ := List.forall_mem_cons.1 hlt
        rw [value?_symbol hn]
        simp only [ih.2 ⟨hns, rfl⟩, Except.map]

/-! ## Groups -/

/-- The text spells the bytes, group by group. -/
inductive Spells : Bytes → Bytes → Prop where
  | nil : Spells [] []
  | one {a b : Nat} (ha : a < 64) (hb : b < 64) (hzero : b % 16 = 0) :
      Spells [symbol a, symbol b, pad, pad] ((join a b 0 0).take 1)
  | two {a b c : Nat} (ha : a < 64) (hb : b < 64) (hc : c < 64) (hzero : c % 4 = 0) :
      Spells [symbol a, symbol b, symbol c, pad] ((join a b c 0).take 2)
  | three {a b c d : Nat} {text bs : Bytes} (ha : a < 64) (hb : b < 64) (hc : c < 64) (hd : d < 64)
      (h : Spells text bs) :
      Spells (symbol a :: symbol b :: symbol c :: symbol d :: text) (join a b c d ++ bs)

theorem toNat_join (ha : a < 64) (hb : b < 64) (hc : c < 64) (hd : d < 64) :
    (join a b c d).map (·.toNat) = [a * 4 + b / 16, b % 16 * 16 + c / 4, c % 4 * 64 + d] := by
  simp only [join, List.map_cons, List.map_nil]
  rw [Wire.Varint.toNat_toUInt8 (by omega), Wire.Varint.toNat_toUInt8 (by omega),
    Wire.Varint.toNat_toUInt8 (by omega)]

theorem toUInt8_eq {x : UInt8} (h : n = x.toNat) : n.toUInt8 = x := by
  rw [h, Nat.toUInt8, UInt8.ofNat_toNat]

theorem join_split (x y z : UInt8) :
    join (x.toNat / 4) (x.toNat % 4 * 16 + y.toNat / 16) (y.toNat % 16 * 4 + z.toNat / 64)
      (z.toNat % 64) = [x, y, z] := by
  have hy := y.toNat_lt
  have hz := z.toNat_lt
  rw [join, toUInt8_eq (x := x) (by omega), toUInt8_eq (x := y) (by omega),
    toUInt8_eq (x := z) (by omega)]

theorem spells_encode (bs : Bytes) : Spells (encode bs) bs := by
  induction bs using encode.induct with
  | case1 => exact .nil
  | case2 x =>
    have hx := x.toNat_lt
    have h : Spells [symbol (x.toNat / 4), symbol (x.toNat % 4 * 16), pad, pad] _ :=
      .one (by omega) (by omega) (by omega)
    have hjoin := join_split x 0 0
    simp only [UInt8.toNat_zero, Nat.zero_div, Nat.add_zero, Nat.zero_mod, Nat.zero_mul] at hjoin
    rw [hjoin] at h
    exact h
  | case3 x y =>
    have hx := x.toNat_lt
    have hy := y.toNat_lt
    have h : Spells [symbol (x.toNat / 4), symbol (x.toNat % 4 * 16 + y.toNat / 16),
        symbol (y.toNat % 16 * 4), pad] _ := .two (by omega) (by omega) (by omega) (by omega)
    have hjoin := join_split x y 0
    simp only [UInt8.toNat_zero, Nat.zero_div, Nat.add_zero, Nat.zero_mod] at hjoin
    rw [hjoin] at h
    exact h
  | case4 x y z rest ih =>
    have hx := x.toNat_lt
    have hy := y.toNat_lt
    have hz := z.toNat_lt
    have h := Spells.three (a := x.toNat / 4) (b := x.toNat % 4 * 16 + y.toNat / 16)
      (c := y.toNat % 16 * 4 + z.toNat / 64) (d := z.toNat % 64) (by omega) (by omega) (by omega)
      (by omega) ih
    rw [join_split] at h
    exact h

theorem eq_encode_of_spells (h : Spells text bs) : text = encode bs := by
  induction h with
  | nil => rfl
  | @one a b ha hb hzero =>
    have hnumbers := toNat_join ha hb (c := 0) (d := 0) (by decide) (by decide)
    simp only [join, List.map_cons, List.map_nil, List.cons.injEq, and_true] at hnumbers
    simp only [join, List.take_succ_cons, List.take_zero, encode, hnumbers.1]
    rw [show (a * 4 + b / 16) / 4 = a by omega, show (a * 4 + b / 16) % 4 * 16 = b by omega]
  | @two a b c ha hb hc hzero =>
    have hnumbers := toNat_join ha hb hc (d := 0) (by decide)
    simp only [join, List.map_cons, List.map_nil, List.cons.injEq, and_true] at hnumbers
    simp only [join, List.take_succ_cons, List.take_zero, encode, hnumbers.1, hnumbers.2.1]
    rw [show (a * 4 + b / 16) / 4 = a by omega,
      show (a * 4 + b / 16) % 4 * 16 + (b % 16 * 16 + c / 4) / 16 = b by omega,
      show (b % 16 * 16 + c / 4) % 16 * 4 = c by omega]
  | @three a b c d text bs ha hb hc hd h ih =>
    have hnumbers := toNat_join ha hb hc hd
    simp only [join, List.map_cons, List.map_nil, List.cons.injEq, and_true] at hnumbers
    simp only [join, List.cons_append, List.nil_append, encode, hnumbers.1, hnumbers.2.1, hnumbers.2.2, ← ih]
    rw [show (a * 4 + b / 16) / 4 = a by omega,
      show (a * 4 + b / 16) % 4 * 16 + (b % 16 * 16 + c / 4) / 16 = b by omega,
      show (b % 16 * 16 + c / 4) % 16 * 4 + (c % 4 * 64 + d) / 64 = c by omega,
      show (c % 4 * 64 + d) % 64 = d by omega]

/-- **One text spells given bytes: the one that writing gives.** -/
theorem spells_iff : Spells text bs ↔ text = encode bs :=
  ⟨eq_encode_of_spells, fun h => h ▸ spells_encode bs⟩

/-! ## Reading -/

theorem map_symbol_ne_pad (hns : ∀ n ∈ ns, n < 64) : ∀ s ∈ ns.map symbol, (s != pad) = true := by
  intro s hs
  obtain ⟨n, hn, rfl⟩ := List.mem_map.1 hs
  exact bne_iff_ne.2 (symbol_ne_pad (hns n hn))

theorem takeWhile_symbols (hns : ∀ n ∈ ns, n < 64) (k : Nat) :
    (ns.map symbol ++ List.replicate k pad).takeWhile (· != pad) = ns.map symbol := by
  rw [List.takeWhile_append_of_pos (map_symbol_ne_pad hns)]
  cases k with
  | zero => rw [List.replicate_zero, List.takeWhile_nil, List.append_nil]
  | succ k => rw [List.replicate_succ, List.takeWhile_cons_of_neg (by simp), List.append_nil]

theorem dropWhile_symbols (hns : ∀ n ∈ ns, n < 64) (k : Nat) :
    (ns.map symbol ++ List.replicate k pad).dropWhile (· != pad) = List.replicate k pad := by
  rw [List.dropWhile_append_of_pos (map_symbol_ne_pad hns)]
  cases k with
  | zero => rfl
  | succ k => rw [List.replicate_succ, List.dropWhile_cons_of_neg (by simp)]

/-- What a last group gives, by the numbers of its symbols and the length `k` of its padding. -/
def lastBytes (offset k : Nat) : List Nat → Except Fault Bytes
  | [_] => .error (.length (offset + 1))
  | [a, b] =>
    if k != 2 then .error .padding
    else if b % 16 != 0 then .error (.lastSymbol (symbol b) (offset + 1))
    else .ok ((join a b 0 0).take 1)
  | [a, b, c] =>
    if k != 1 then .error .padding
    else if c % 4 != 0 then .error (.lastSymbol (symbol c) (offset + 2))
    else .ok ((join a b c 0).take 2)
  | [a, b, c, d] => .ok (join a b c d)
  | _ => .ok []

theorem decodeLast_symbols (hns : ∀ n ∈ ns, n < 64) (hpadded : k = 0 ∨ 2 ≤ ns.length) :
    decodeLast offset (ns.map symbol ++ List.replicate k pad) = lastBytes offset k ns := by
  have hvalues : values offset (ns.map symbol) = .ok ns := values_eq_ok_iff.2 ⟨hns, rfl⟩
  have hpads : (List.replicate k pad != [] &&
      (decide ((ns.map symbol).length < 2) || (List.replicate k pad).any (· != pad))) = false := by
    rcases hpadded with rfl | hlong
    · rfl
    · have hshort : ¬ (ns.map symbol).length < 2 := by
        rw [List.length_map]
        omega
      have hall : (List.replicate k pad).any (· != pad) = false := by simp
      rw [decide_eq_false hshort, hall, Bool.or_false, Bool.and_false]
  rw [decodeLast, takeWhile_symbols hns, dropWhile_symbols hns]
  simp only [hvalues, hpads, List.length_replicate, Bool.false_eq_true, if_false]
  rfl

theorem symbols_of_decodeLast (h : decodeLast offset text = .ok bs) :
    ∃ (ns : List Nat) (k : Nat), (∀ n ∈ ns, n < 64) ∧ text = ns.map symbol ++ List.replicate k pad ∧
      (k = 0 ∨ 2 ≤ ns.length) := by
  rw [decodeLast] at h
  split at h
  · cases h
  · rename_i ns hvalues
    obtain ⟨hns, hsymbols⟩ := values_eq_ok_iff.1 hvalues
    split at h
    · cases h
    · rename_i hpads
      simp only [Bool.and_eq_true, bne_iff_ne, Bool.or_eq_true, decide_eq_true_eq, List.any_eq_true,
        hsymbols, List.length_map, not_and, not_or, not_exists, not_not, Nat.not_lt] at hpads
      refine ⟨ns, (text.dropWhile (· != pad)).length, hns, ?_, ?_⟩
      · have hpad : text.dropWhile (· != pad) = List.replicate (text.dropWhile (· != pad)).length pad :=
          List.eq_replicate_iff.2 ⟨rfl, fun s hs => (hpads (List.ne_nil_of_mem hs)).2 s hs⟩
        rw [← hpad, ← hsymbols, List.takeWhile_append_dropWhile]
      · by_cases hne : text.dropWhile (· != pad) = []
        · exact .inl (List.length_eq_zero_iff.2 hne)
        · exact .inr (hpads hne).1

theorem spells_of_lastBytes (hns : ∀ n ∈ ns, n < 64) (hpadded : k = 0 ∨ 2 ≤ ns.length)
    (hlength : ns.length + k ≤ 4) (h : lastBytes offset k ns = .ok bs) :
    Spells (ns.map symbol ++ List.replicate k pad) bs := by
  match ns with
  | [] =>
    cases h
    obtain rfl : k = 0 := hpadded.resolve_right (by simp)
    exact .nil
  | [_] => cases h
  | [a, b] =>
    rw [lastBytes] at h
    split at h
    · cases h
    · rename_i hcount
      split at h
      · cases h
      · rename_i hzero
        cases h
        obtain rfl : k = 2 := by simpa using hcount
        exact .one (hns a (by simp)) (hns b (by simp)) (by simpa using hzero)
  | [a, b, c] =>
    rw [lastBytes] at h
    split at h
    · cases h
    · rename_i hcount
      split at h
      · cases h
      · rename_i hzero
        cases h
        obtain rfl : k = 1 := by simpa using hcount
        exact .two (hns a (by simp)) (hns b (by simp)) (hns c (by simp)) (by simpa using hzero)
  | [a, b, c, d] =>
    cases h
    obtain rfl : k = 0 := by
      simp only [List.length_cons, List.length_nil] at hlength
      omega
    exact .three (hns a (by simp)) (hns b (by simp)) (hns c (by simp)) (hns d (by simp)) .nil
  | _ :: _ :: _ :: _ :: _ :: _ =>
    simp only [List.length_cons] at hlength
    omega

theorem decodeLast_of_spells (h : Spells text bs) (hlength : text.length ≤ 4) :
    decodeLast offset text = .ok bs := by
  cases h with
  | nil => rfl
  | @one a b ha hb hzero =>
    have hread : decodeLast offset ([a, b].map symbol ++ List.replicate 2 pad) = lastBytes offset 2 [a, b] :=
      decodeLast_symbols (by simp [ha, hb]) (by simp)
    exact hread.trans (by simp [lastBytes, hzero])
  | @two a b c ha hb hc hzero =>
    have hread : decodeLast offset ([a, b, c].map symbol ++ List.replicate 1 pad) =
        lastBytes offset 1 [a, b, c] := decodeLast_symbols (by simp [ha, hb, hc]) (by simp)
    exact hread.trans (by simp [lastBytes, hzero])
  | @three a b c d text bs ha hb hc hd h =>
    have htext : text = [] := by
      simp only [List.length_cons] at hlength
      exact List.eq_nil_of_length_eq_zero (by omega)
    subst htext
    cases h
    have hread : decodeLast offset ([a, b, c, d].map symbol ++ List.replicate 0 pad) =
        lastBytes offset 0 [a, b, c, d] := decodeLast_symbols (by simp [ha, hb, hc, hd]) (.inl rfl)
    exact hread

theorem spells_of_decodeLast (hlength : text.length ≤ 4) (h : decodeLast offset text = .ok bs) :
    Spells text bs := by
  obtain ⟨ns, k, hns, rfl, hpadded⟩ := symbols_of_decodeLast h
  rw [decodeLast_symbols hns hpadded] at h
  rw [List.length_append, List.length_map, List.length_replicate] at hlength
  exact spells_of_lastBytes hns hpadded hlength h

theorem decodeFrom_of_spells (h : Spells text bs) : decodeFrom offset text = .ok bs := by
  induction h generalizing offset with
  | nil => rfl
  | one ha hb hzero => exact decodeLast_of_spells (.one ha hb hzero) (by simp)
  | two ha hb hc hzero => exact decodeLast_of_spells (.two ha hb hc hzero) (by simp)
  | @three a b c d text bs ha hb hc hd h ih =>
    cases text with
    | nil => exact decodeLast_of_spells (.three ha hb hc hd h) (by simp)
    | cons next text =>
      have hns : ∀ n ∈ [a, b, c, d], n < 64 := by simp [ha, hb, hc, hd]
      have hvalues : values offset [symbol a, symbol b, symbol c, symbol d] = .ok [a, b, c, d] :=
        values_eq_ok_iff.2 ⟨hns, rfl⟩
      rw [decodeFrom, hvalues]
      simp only [ih, Except.map]
      rfl

theorem spells_of_decodeFrom (h : decodeFrom offset text = .ok bs) : Spells text bs := by
  induction offset, text using decodeFrom.induct generalizing bs with
  | case1 offset s t u v next rest e hvalues =>
    rw [decodeFrom, hvalues] at h
    cases h
  | case2 offset s t u v next rest ns hvalues ih =>
    rw [decodeFrom, hvalues] at h
    cases hmore : decodeFrom (offset + 4) (next :: rest) with
    | error e =>
      rw [hmore] at h
      cases h
    | ok more =>
      rw [hmore] at h
      cases h
      obtain ⟨hns, hsymbols⟩ := values_eq_ok_iff.1 hvalues
      match ns, hns, hsymbols with
      | [a, b, c, d], hns, hsymbols =>
        simp only [List.map_cons, List.map_nil, List.cons.injEq, and_true] at hsymbols
        obtain ⟨rfl, rfl, rfl, rfl⟩ := hsymbols
        exact .three (hns a (by simp)) (hns b (by simp)) (hns c (by simp)) (hns d (by simp)) (ih hmore)
  | case3 offset last hlast =>
    have hlength : last.length ≤ 4 := by
      match last, hlast with
      | [], _ | [_], _ | [_, _], _ | [_, _, _], _ | [_, _, _, _], _ => simp
      | s :: t :: u :: v :: next :: rest, hlast => exact (hlast s t u v next rest rfl).elim
    rw [decodeFrom] at h
    · exact spells_of_decodeLast hlength h
    · exact hlast

theorem Spells.length_mod (h : Spells text bs) : text.length % 4 = 0 := by
  induction h with
  | nil => rfl
  | one | two => simp
  | three ha hb hc hd h ih =>
    simp only [List.length_cons]
    omega

/-- **Reading accepts exactly what writing produces.** -/
theorem decode_eq_ok_iff : decode text = .ok bs ↔ text = encode bs := by
  rw [← spells_iff, decode]
  constructor
  · intro h
    split at h
    · cases h
    · exact spells_of_decodeFrom h
  · intro h
    have hmod := h.length_mod
    have hstray : stray? text = none := by
      rw [stray?, if_pos]
      rw [bne_iff_ne]
      omega
    rw [hstray]
    exact decodeFrom_of_spells h

/-! ## White space -/

/-- Space, tab, line feed, form feed and carriage return. -/
def asciiSpaces : Bytes := [0x20, 0x09, 0x0A, 0x0C, 0x0D]

/-- A text without its white space. -/
def squeeze (text : Bytes) : Bytes := text.filter (· ∉ asciiSpaces)

/-- The second text is the first with white space put in, anywhere and in any amount. -/
inductive Spaced : Bytes → Bytes → Prop where
  | nil : Spaced [] []
  | space {text spaced : Bytes} {s : UInt8} (hs : s ∈ asciiSpaces) (h : Spaced text spaced) :
      Spaced text (s :: spaced)
  | keep {text spaced : Bytes} (s : UInt8) (h : Spaced text spaced) : Spaced (s :: text) (s :: spaced)

theorem isSpace_iff {s : UInt8} : isSpace s = true ↔ s ∈ asciiSpaces := by
  simp only [isSpace, asciiSpaces, List.mem_cons, List.not_mem_nil, or_false, Bool.or_eq_true,
    decide_eq_true_eq, or_assoc]

theorem filter_isSpace (text : Bytes) : text.filter (!isSpace ·) = squeeze text := by
  refine List.filter_congr fun s _ => ?_
  rw [Bool.eq_iff_iff, Bool.not_eq_true', decide_eq_true_eq, ← isSpace_iff, Bool.not_eq_true]

theorem Spaced.squeeze_eq (h : Spaced text spaced) : squeeze spaced = squeeze text := by
  induction h with
  | nil => rfl
  | space hs h ih => rw [← ih, squeeze, squeeze, List.filter_cons_of_neg (by simpa using hs)]
  | keep s h ih =>
    rw [squeeze, squeeze] at ih ⊢
    rw [List.filter_cons, List.filter_cons, ih]

theorem spaced_squeeze (text : Bytes) : Spaced (squeeze text) text := by
  induction text with
  | nil => exact .nil
  | cons s text ih =>
    rw [squeeze, List.filter_cons]
    split
    · exact .keep s ih
    · rename_i hs
      exact .space (by simpa using hs) ih

theorem Spells.not_space (h : Spells text bs) : ∀ s ∈ text, s ∉ asciiSpaces := by
  have hsymbol : ∀ n < 64, symbol n ∉ asciiSpaces := by decide
  have hpad : pad ∉ asciiSpaces := by decide
  induction h with
  | nil => simp
  | one ha hb hzero => simp [hsymbol _ ha, hsymbol _ hb, hpad]
  | two ha hb hc hzero => simp [hsymbol _ ha, hsymbol _ hb, hsymbol _ hc, hpad]
  | three ha hb hc hd h ih =>
    simpa [hsymbol _ ha, hsymbol _ hb, hsymbol _ hc, hsymbol _ hd] using ih

theorem squeeze_encode (bs : Bytes) : squeeze (encode bs) = encode bs :=
  List.filter_eq_self.2 fun s hs => decide_eq_true ((spells_encode bs).not_space s hs)

theorem spaced_encode_iff : Spaced (encode bs) spaced ↔ squeeze spaced = encode bs := by
  constructor
  · intro h
    rw [h.squeeze_eq, squeeze_encode]
  · intro h
    rw [← h]
    exact spaced_squeeze spaced

theorem decodeSpaced_eq (text : Bytes) : decodeSpaced text = decode (squeeze text) := by
  rw [decodeSpaced, filter_isSpace]

/-- **Spaced text is read exactly if it is what writing produces with white space put in.** -/
theorem decodeSpaced_eq_ok_iff : decodeSpaced spaced = .ok bs ↔ Spaced (encode bs) spaced := by
  rw [decodeSpaced_eq, decode_eq_ok_iff, spaced_encode_iff]

end Chaincode.Base64
