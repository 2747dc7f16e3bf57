import Mathlib.Algebra.Group.Nat.Defs
import Chaincode.Wire

/-!
# What the readers accept

A grammar of records that knows no reader, and the proof that the readers accept just what it says.
-/

/-!
## The grammar of records

What a record is, said without a reader. A record is a run of fields. A field is a key with the body
that belongs to it: a number, a fixed number of bytes, a block behind its length, or a group, which
is a run of fields again up to the end key of its own tag. `IsBody` says what a body is under each
wire type, whatever the tag means to anybody; `Holds` says what a body holds for somebody who knows
the tag.
-/

namespace Chaincode.Wire

namespace Varint

/-- The number whose digits in base 128 are the low seven bits of the bytes, lowest digit first. -/
def value (bs : Bytes) : Nat := bs.foldr (fun b high => b.toNat % 128 + 128 * high) 0

/-- `bs` spells a number: the high bit is set on every byte but the last, and of ten bytes the last is
at most 1. Leading zeros are allowed. -/
inductive Spells : Bytes → Nat → Prop where
  | mk (more : Bytes) (last : UInt8) (hmore : ∀ b ∈ more, 128 ≤ b) (hlast : last < 128)
      (hlength : more.length < 9 ∨ more.length = 9 ∧ last < 2) :
      Spells (more ++ [last]) (value (more ++ [last]))

end Varint

/-- `bs` is a key: its number fits 32 bits and has the tag, which is not zero, above the wire type. -/
structure IsKey (tag : Nat) (type : WireType) (bs : Bytes) : Prop where
  tag_ne_zero : tag ≠ 0
  lt : tag * 8 + type.number < 2 ^ 32
  spells : Varint.Spells bs (tag * 8 + type.number)

/-- `bs` is `block` behind its length. -/
inductive IsBlock (block : Bytes) : Bytes → Prop where
  | mk (length : Bytes) (h : Varint.Spells length block.length) : IsBlock block (length ++ block)

/-- The bodies of fields that are no groups. -/
inductive IsPlain : WireType → Bytes → Prop where
  | varint (n : Nat) (bs : Bytes) (h : Varint.Spells bs n) : IsPlain .varint bs
  | sixtyFourBit (bs : Bytes) (h : bs.length = 8) : IsPlain .sixtyFourBit bs
  | thirtyTwoBit (bs : Bytes) (h : bs.length = 4) : IsPlain .thirtyTwoBit bs
  | lengthDelimited (block bs : Bytes) (h : IsBlock block bs) : IsPlain .lengthDelimited bs

/-- A run of fields each of which lies inside `enclosing` groups. No field lies inside more than 99. -/
inductive IsRun : Nat → Bytes → Prop where
  | nil (enclosing : Nat) : IsRun enclosing []
  | plain {enclosing tag : Nat} {type : WireType} (key body rest : Bytes)
      (hdepth : enclosing ≤ 99) (hkey : IsKey tag type key) (hbody : IsPlain type body)
      (hrest : IsRun enclosing rest) : IsRun enclosing (key ++ body ++ rest)
  | group {enclosing tag : Nat} (key inner close rest : Bytes) (hdepth : enclosing ≤ 99)
      (hkey : IsKey tag .startGroup key) (hinner : IsRun (enclosing + 1) inner)
      (hclose : IsKey tag .endGroup close) (hrest : IsRun enclosing rest) :
      IsRun enclosing (key ++ (inner ++ close) ++ rest)

/-- What belongs to the key of a field that lies in no group. No body belongs to an end key. -/
inductive IsBody (tag : Nat) : WireType → Bytes → Prop where
  | plain (type : WireType) (body : Bytes) (h : IsPlain type body) : IsBody tag type body
  | group (inner close : Bytes) (hinner : IsRun 1 inner) (hclose : IsKey tag .endGroup close) :
      IsBody tag .startGroup (inner ++ close)

/-- What a body of a wire type holds. A number counts by its low 32 bits. -/
inductive Holds : WireType → Bytes → Value → Prop where
  | int32 (n : Nat) (body : Bytes) (h : Varint.Spells body n) :
      Holds .varint body (.int32 (Int32.ofNat n))
  | bytes (block body : Bytes) (h : IsBlock block body) : Holds .lengthDelimited body (.bytes block)
  | text (s : String) (body : Bytes) (h : IsBlock (Bytes.ofText s) body) :
      Holds .lengthDelimited body (.text s)

/-- A field as it stands in a record. -/
structure Occurrence where
  tag : Nat
  type : WireType
  key : Bytes
  body : Bytes

namespace Occurrence

def bytes (o : Occurrence) : Bytes := o.key ++ o.body

/-- The key names the tag and the wire type, and the body is one of that type. -/
structure WellFormed (o : Occurrence) : Prop where
  key : IsKey o.tag o.type o.key
  body : IsBody o.tag o.type o.body

end Occurrence

/-- The bytes of a run of fields. -/
def bytesOf (os : List Occurrence) : Bytes := os.flatMap Occurrence.bytes

/-- The last occurrence of a tag. -/
def lastOf (tag : Nat) (os : List Occurrence) : Option Occurrence :=
  (os.filter (·.tag = tag)).getLast?

/-!
## The readers accept the grammar

Each reader accepts exactly what the grammar says, whatever follows it: numbers (`Varint.read_iff`),
keys (`Key.read_iff`), blocks (`readBlock_iff`), the bodies of fields (`skipField_iff`), values
(`Value.read_iff`) and whole records (`Schema.read_iff`). Groups are read with a stack of those that
are open; `Closes` says what such a stack still waits for.
-/

variable {tag n : Nat} {type : WireType} {bs rest : Bytes}

/-! ### Numbers -/

namespace Varint

variable {place : Nat}

theorem value_cons (b : UInt8) (bs : Bytes) : value (b :: bs) = b.toNat % 128 + 128 * value bs := rfl

theorem readFrom_spelled {more : Bytes} {last : UInt8} (hmore : ∀ b ∈ more, 128 ≤ b)
    (hlast : last < 128) (hlength : place + more.length < 9 ∨ place + more.length = 9 ∧ last < 2) :
    readFrom place (more ++ last :: rest) = some (value (more ++ [last]), rest) := by
  induction more generalizing place with
  | nil =>
    have hnat : last.toNat < 128 := UInt8.lt_iff_toNat_lt.1 hlast
    have hvalue : value [last] = last.toNat := by
      rw [value_cons]
      simp [value, Nat.mod_eq_of_lt hnat]
    rw [List.nil_append, List.nil_append, readFrom, hvalue]
    by_cases hplace : place = 9
    · have hlast' : last < 2 := by
        rcases hlength with h | h
        · simp [hplace] at h
        · exact h.2
      rw [if_pos hplace, if_pos hlast']
    · rw [if_neg hplace, if_pos hlast]
  | cons b more ih =>
    have hb : 128 ≤ b.toNat := UInt8.le_iff_toNat_le.1 (hmore b List.mem_cons_self)
    have hb' : b.toNat < 256 := b.toNat_lt
    have hnot : ¬ b < 128 := by
      rw [UInt8.lt_iff_toNat_lt]
      exact Nat.not_lt.2 hb
    have hcount : place + (b :: more).length = place + 1 + more.length := by
      rw [List.length_cons]
      omega
    rw [hcount] at hlength
    have hplace : place ≠ 9 := by omega
    have hrest := ih (fun c hc => hmore c (List.mem_cons_of_mem b hc)) hlength
    have hdigit : b.toNat - 128 = b.toNat % 128 := by omega
    rw [List.cons_append, readFrom, if_neg hplace, if_neg hnot, hrest, Option.map_some,
      List.cons_append, value_cons, hdigit]

theorem spelled_of_readFrom (hplace : place ≤ 9) (h : readFrom place bs = some (n, rest)) :
    ∃ more last, bs = more ++ last :: rest ∧ (∀ b ∈ more, 128 ≤ b) ∧ last < 128 ∧
      (place + more.length < 9 ∨ place + more.length = 9 ∧ last < 2) := by
  induction bs generalizing place n with
  | nil => simp [readFrom] at h
  | cons b bs ih =>
    rw [readFrom] at h
    split at h
    · rename_i hlast
      split at h
      · rename_i hb
        cases h
        have hnat : b.toNat < 2 := UInt8.lt_iff_toNat_lt.1 hb
        refine ⟨[], b, rfl, by simp, ?_, .inr ⟨by simp [hlast], hb⟩⟩
        rw [UInt8.lt_iff_toNat_lt]
        exact Nat.lt_trans hnat (by decide)
      · cases h
    · rename_i hnine
      split at h
      · rename_i hb
        cases h
        refine ⟨[], b, rfl, by simp, hb, .inl ?_⟩
        rw [List.length_nil]
        omega
      · rename_i hb
        obtain ⟨⟨high, after⟩, hread, heq⟩ := Option.map_eq_some_iff.1 h
        cases heq
        obtain ⟨more, last, hbs, hmore, hlast, hlength⟩ := ih (by omega) hread
        refine ⟨b :: more, last, by rw [hbs]; rfl, ?_, hlast, ?_⟩
        · intro c hc
          rcases List.mem_cons.1 hc with rfl | hc
          · exact UInt8.not_lt.1 hb
          · exact hmore c hc
        · have hcount : place + (b :: more).length = place + 1 + more.length := by
            rw [List.length_cons]
            omega
          rwa [hcount]

theorem read_iff : read bs = some (n, rest) ↔ ∃ front, bs = front ++ rest ∧ Spells front n := by
  have hread : ∀ {more : Bytes} {last : UInt8} {rest : Bytes}, (∀ b ∈ more, 128 ≤ b) → last < 128 →
      (more.length < 9 ∨ more.length = 9 ∧ last < 2) →
      read (more ++ last :: rest) = some (value (more ++ [last]), rest) := by
    intro more last rest hmore hlast hlength
    exact readFrom_spelled hmore hlast (by simpa using hlength)
  constructor
  · intro h
    obtain ⟨more, last, rfl, hmore, hlast, hlength⟩ := spelled_of_readFrom (Nat.zero_le 9) h
    rw [Nat.zero_add] at hlength
    rw [hread hmore hlast hlength] at h
    cases h
    exact ⟨more ++ [last], by simp, .mk more last hmore hlast hlength⟩
  · rintro ⟨front, rfl, hspells⟩
    obtain ⟨more, last, hmore, hlast, hlength⟩ := hspells
    rw [List.append_assoc, List.singleton_append]
    exact hread hmore hlast hlength

theorem Spells.of_read (h : read bs = some (n, [])) : Spells bs n := by
  obtain ⟨front, rfl, hspells⟩ := read_iff.1 h
  rwa [List.append_nil]

end Varint

/-! ### Keys and blocks -/

theorem WireType.ofNumber?_eq_some : WireType.ofNumber? n = some type ↔ type.number = n := by
  constructor
  · intro h
    simpa using List.find?_some h
  · rintro rfl
    cases type <;> rfl

namespace Key

theorem readNumber_iff :
    readNumber bs = .ok (n, rest) ↔ ∃ front, bs = front ++ rest ∧ Varint.Spells front n := by
  rw [← Varint.read_iff, readNumber]
  cases Varint.read bs with
  | none => simp
  | some p => simp

theorem read_iff :
    read bs = .ok (tag, type, rest) ↔ ∃ key, bs = key ++ rest ∧ IsKey tag type key := by
  have htype : type.number < 8 := by cases type <;> decide
  constructor
  · intro h
    rw [read] at h
    split at h
    · cases h
    · rename_i key after hread
      obtain ⟨front, rfl, hspells⟩ := readNumber_iff.1 hread
      split at h
      · cases h
      · rename_i hlt
        split at h
        · cases h
        · rename_i type' hnumber
          split at h
          · cases h
          · rename_i hzero
            cases h
            have hkey : key / 8 * 8 + type.number = key := by
              rw [WireType.ofNumber?_eq_some.1 hnumber]
              omega
            exact ⟨front, rfl, hzero, by omega, hkey.symm ▸ hspells⟩
  · rintro ⟨key, rfl, hkey⟩
    have hdiv : (tag * 8 + type.number) / 8 = tag := by omega
    have hmod : (tag * 8 + type.number) % 8 = type.number := by omega
    have hlt := hkey.lt
    rw [read, readNumber_iff.2 ⟨key, rfl, hkey.spells⟩]
    simp only [hdiv, hmod, WireType.ofNumber?_eq_some.2 rfl, hkey.tag_ne_zero, if_false]
    rw [if_neg (by omega)]

end Key

theorem IsKey.read {key : Bytes} (h : IsKey tag type key) (rest : Bytes) :
    Key.read (key ++ rest) = .ok (tag, type, rest) := Key.read_iff.2 ⟨key, rfl, h⟩

theorem takeBytes_iff {block : Bytes} :
    takeBytes n bs = .ok (block, rest) ↔ bs = block ++ rest ∧ block.length = n := by
  rw [takeBytes]
  constructor
  · intro h
    split at h
    · cases h
    · rename_i hlength
      cases h
      rw [List.length_take] at hlength
      exact ⟨(List.take_append_drop n bs).symm, by rw [List.length_take]; omega⟩
  · rintro ⟨rfl, rfl⟩
    simp

theorem readBlock_iff {block : Bytes} :
    readBlock bs = .ok (block, rest) ↔ ∃ body, bs = body ++ rest ∧ IsBlock block body := by
  constructor
  · intro h
    rw [readBlock] at h
    split at h
    · cases h
    · rename_i n after hread
      obtain ⟨length, rfl, hspells⟩ := Key.readNumber_iff.1 hread
      obtain ⟨rfl, rfl⟩ := takeBytes_iff.1 h
      exact ⟨length ++ block, (List.append_assoc _ _ _).symm, .mk length hspells⟩
  · rintro ⟨body, rfl, length, hspells⟩
    rw [List.append_assoc, readBlock, Key.readNumber_iff.2 ⟨length, rfl, hspells⟩]
    exact takeBytes_iff.2 ⟨rfl, rfl⟩

/-! ### Bodies -/

theorem map_snd_eq_ok {α : Type} {x : Except Malformed (α × Bytes)} :
    x.map (·.2) = .ok rest ↔ ∃ a, x = .ok (a, rest) := by
  cases x with
  | error e => simp [Except.map]
  | ok p => simp [Except.map, Prod.ext_iff]

theorem skipPlain_iff :
    skipPlain type bs = .ok rest ↔ ∃ body, bs = body ++ rest ∧ IsPlain type body := by
  constructor
  · intro h
    cases type with
    | varint =>
      obtain ⟨n, hread⟩ := map_snd_eq_ok.1 h
      obtain ⟨front, hbs, hspells⟩ := Key.readNumber_iff.1 hread
      exact ⟨front, hbs, .varint n front hspells⟩
    | sixtyFourBit =>
      obtain ⟨block, htake⟩ := map_snd_eq_ok.1 h
      obtain ⟨hbs, hlength⟩ := takeBytes_iff.1 htake
      exact ⟨block, hbs, .sixtyFourBit block hlength⟩
    | thirtyTwoBit =>
      obtain ⟨block, htake⟩ := map_snd_eq_ok.1 h
      obtain ⟨hbs, hlength⟩ := takeBytes_iff.1 htake
      exact ⟨block, hbs, .thirtyTwoBit block hlength⟩
    | lengthDelimited =>
      obtain ⟨block, hread⟩ := map_snd_eq_ok.1 h
      obtain ⟨body, hbs, hblock⟩ := readBlock_iff.1 hread
      exact ⟨body, hbs, .lengthDelimited block body hblock⟩
    | startGroup => cases h
    | endGroup => cases h
  · rintro ⟨body, rfl, hbody⟩
    cases hbody with
    | varint n _ hspells => exact map_snd_eq_ok.2 ⟨n, Key.readNumber_iff.2 ⟨body, rfl, hspells⟩⟩
    | sixtyFourBit _ hlength => exact map_snd_eq_ok.2 ⟨body, takeBytes_iff.2 ⟨rfl, hlength⟩⟩
    | thirtyTwoBit _ hlength => exact map_snd_eq_ok.2 ⟨body, takeBytes_iff.2 ⟨rfl, hlength⟩⟩
    | lengthDelimited block _ hblock =>
      exact map_snd_eq_ok.2 ⟨block, readBlock_iff.2 ⟨body, rfl, hblock⟩⟩

theorem IsPlain.skip {body : Bytes} (h : IsPlain type body) (rest : Bytes) :
    skipPlain type (body ++ rest) = .ok rest := skipPlain_iff.2 ⟨body, rfl, h⟩

theorem IsPlain.ne_group {body : Bytes} (h : IsPlain type body) :
    type ≠ .startGroup ∧ type ≠ .endGroup := by
  cases h <;> simp

/-! ### Groups -/

/-- `bs` closes the groups `opened`, innermost first, with whatever fields stand before each end. -/
inductive Closes : List Nat → Bytes → Prop where
  | nil : Closes [] []
  | cons {group : Nat} {outer : List Nat} (inner close more : Bytes)
      (hinner : IsRun (outer.length + 1) inner) (hclose : IsKey group .endGroup close)
      (hmore : Closes outer more) : Closes (group :: outer) (inner ++ close ++ more)

variable {group : Nat} {outer opened : List Nat}

theorem closeGroups_of_key (hkey : Key.read bs = .ok (tag, type, rest)) :
    closeGroups (group :: outer) bs =
      if type = .endGroup then
        if tag = group then closeGroups outer rest else .error .groupEnd
      else if maxDepth ≤ outer.length + 1 then .error .depth
      else if type = .startGroup then closeGroups (tag :: group :: outer) rest
      else (skipPlain type rest).bind (closeGroups (group :: outer)) := by
  rw [closeGroups]
  split
  · rename_i hread
    rw [hkey] at hread
    cases hread
  · rename_i hread
    rw [hkey] at hread
    cases hread
    congr 3
    split
    · rename_i hplain
      rw [hplain]
      rfl
    · rename_i hplain
      rw [hplain]
      rfl

theorem closeGroups_run {enclosing : Nat} {inner tail : Bytes} (hrun : IsRun enclosing inner)
    (hdepth : enclosing = outer.length + 1) :
    closeGroups (group :: outer) (inner ++ tail) = closeGroups (group :: outer) tail := by
  induction hrun generalizing group outer tail with
  | nil => rfl
  | plain key body rest hle hkey hbody hrest ih =>
    have hroom : ¬ maxDepth ≤ outer.length + 1 := by
      rw [maxDepth]
      omega
    rw [List.append_assoc, List.append_assoc, closeGroups_of_key (hkey.read _), if_neg hbody.ne_group.2,
      if_neg hroom, if_neg hbody.ne_group.1, hbody.skip]
    exact ih hdepth
  | group key inner close rest hle hkey hinner hclose hrest ihinner ihrest =>
    have hroom : ¬ maxDepth ≤ outer.length + 1 := by
      rw [maxDepth]
      omega
    rw [List.append_assoc, List.append_assoc, List.append_assoc, closeGroups_of_key (hkey.read _),
      if_neg (by decide), if_neg hroom, if_pos rfl, ihinner (by rw [List.length_cons, hdepth]),
      closeGroups_of_key (hclose.read _), if_pos rfl, if_pos rfl]
    exact ihrest hdepth

theorem closeGroups_of_closes (h : Closes opened bs) (rest : Bytes) :
    closeGroups opened (bs ++ rest) = .ok rest := by
  induction h with
  | nil => rw [List.nil_append, closeGroups]
  | cons inner close more hinner hclose hmore ih =>
    rw [List.append_assoc, List.append_assoc, closeGroups_run hinner rfl,
      closeGroups_of_key (hclose.read _), if_pos rfl, if_pos rfl, ih]

/-- The field in front belongs to the innermost group. -/
theorem Closes.plain {key body : Bytes} (hdepth : outer.length + 1 ≤ 99) (hkey : IsKey tag type key)
    (hbody : IsPlain type body) (h : Closes (group :: outer) bs) :
    Closes (group :: outer) (key ++ body ++ bs) := by
  cases h with
  | cons inner close more hinner hclose hmore =>
    rw [List.append_assoc inner, ← List.append_assoc, ← List.append_assoc]
    exact .cons _ close more (.plain key body inner hdepth hkey hbody hinner) hclose hmore

/-- The group in front, once closed, is a field of the next one. -/
theorem Closes.closed {key : Bytes} (hdepth : outer.length + 1 ≤ 99) (hkey : IsKey tag .startGroup key)
    (h : Closes (tag :: group :: outer) bs) : Closes (group :: outer) (key ++ bs) := by
  cases h with
  | cons inner close more hinner hclose hmore =>
    cases hmore with
    | cons inner' close' more' hinner' hclose' hmore' =>
      have hrun := IsRun.group key inner close inner' hdepth hkey hinner hclose hinner'
      simpa only [List.append_assoc] using Closes.cons _ close' more' hrun hclose' hmore'

theorem closes_of_closeGroups (opened : List Nat) (bs : Bytes) :
    ∀ {rest}, closeGroups opened bs = .ok rest → ∃ front, bs = front ++ rest ∧ Closes opened front := by
  fun_induction closeGroups opened bs with
  | case1 bs =>
    intro rest h
    cases h
    exact ⟨[], rfl, .nil⟩
  | case2 | case4 | case5 | case7 =>
    intro rest h
    cases h
  | case3 outer bs tag after hread ih =>
    intro rest h
    obtain ⟨close, rfl, hclose⟩ := Key.read_iff.1 hread
    obtain ⟨front, rfl, hmore⟩ := ih h
    exact ⟨close ++ front, (List.append_assoc _ _ _).symm, .cons [] close front (.nil _) hclose hmore⟩
  | case6 group outer bs tag after hdepth hread hend ih =>
    intro rest h
    obtain ⟨key, rfl, hkey⟩ := Key.read_iff.1 hread
    obtain ⟨front, rfl, hmore⟩ := ih h
    rw [maxDepth] at hdepth
    exact ⟨key ++ front, (List.append_assoc _ _ _).symm, .closed (by omega) hkey hmore⟩
  | case8 group outer bs tag type after hread hend hdepth hstart after' hskip ih =>
    intro rest h
    obtain ⟨key, rfl, hkey⟩ := Key.read_iff.1 hread
    obtain ⟨body, rfl, hbody⟩ := skipPlain_iff.1 hskip
    obtain ⟨front, rfl, hmore⟩ := ih h
    rw [maxDepth] at hdepth
    exact ⟨key ++ body ++ front, by simp only [List.append_assoc],
      .plain (by omega) hkey hbody hmore⟩

theorem skipField_iff :
    skipField tag type bs = .ok rest ↔ ∃ body, bs = body ++ rest ∧ IsBody tag type body := by
  rw [skipField]
  constructor
  · intro h
    split at h
    · rename_i htype
      subst htype
      obtain ⟨front, rfl, hcloses⟩ := closes_of_closeGroups _ _ h
      cases hcloses with
      | cons inner close more hinner hclose hmore =>
        cases hmore
        exact ⟨_, rfl, by simpa using IsBody.group inner close hinner hclose⟩
    · obtain ⟨body, hbs, hbody⟩ := skipPlain_iff.1 h
      exact ⟨body, hbs, .plain type body hbody⟩
  · rintro ⟨body, rfl, hbody⟩
    cases hbody with
    | plain _ _ hplain =>
      rw [if_neg hplain.ne_group.1]
      exact hplain.skip rest
    | group inner close hinner hclose =>
      rw [if_pos rfl]
      have hcloses : Closes [tag] (inner ++ close ++ []) := .cons inner close [] hinner hclose .nil
      simpa using closeGroups_of_closes hcloses rest

/-! ### Values -/

theorem Holds.wireType {body : Bytes} {v : Value} (h : Holds type body v) : type = v.type.wireType := by
  cases h <;> rfl

theorem Value.read_iff {expected : FieldType} {v : Value} :
    Value.read expected type bs = .ok (v, rest) ↔
      ∃ body, bs = body ++ rest ∧ v.type = expected ∧ Holds type body v := by
  rw [Value.read.eq_def]
  constructor
  · intro h
    split at h
    · rename_i htype
      subst htype
      cases expected with
      | int32 =>
        cases hread : Key.readNumber bs with
        | error e =>
          rw [hread] at h
          cases h
        | ok p =>
          rw [hread] at h
          cases h
          obtain ⟨front, hbs, hspells⟩ := Key.readNumber_iff.1 hread
          exact ⟨front, hbs, rfl, .int32 _ front hspells⟩
      | bytes =>
        cases hread : readBlock bs with
        | error e =>
          rw [hread] at h
          cases h
        | ok p =>
          rw [hread] at h
          cases h
          obtain ⟨body, hbs, hblock⟩ := readBlock_iff.1 hread
          exact ⟨body, hbs, rfl, .bytes _ body hblock⟩
      | text =>
        cases hread : readBlock bs with
        | error e =>
          simp only [hread] at h
          cases h
        | ok p =>
          simp only [hread] at h
          split at h
          · rename_i s htext
            cases h
            obtain ⟨body, hbs, hblock⟩ := readBlock_iff.1 hread
            rw [← Bytes.ofText_of_text? htext] at hblock
            exact ⟨body, hbs, rfl, .text s body hblock⟩
          · cases h
    · cases h
  · rintro ⟨body, rfl, rfl, hholds⟩
    rw [if_pos hholds.wireType]
    cases hholds with
    | int32 n _ hspells =>
      simp only [Value.type, Key.readNumber_iff.2 ⟨body, rfl, hspells⟩, Except.map]
    | bytes block _ hblock =>
      simp only [Value.type, readBlock_iff.2 ⟨body, rfl, hblock⟩, Except.map]
    | text s _ hblock =>
      simp only [Value.type, readBlock_iff.2 ⟨body, rfl, hblock⟩, Bytes.text?_ofText]

theorem Holds.isPlain {body : Bytes} {v : Value} (h : Holds type body v) : IsPlain type body := by
  cases h with
  | int32 n _ hspells => exact .varint n body hspells
  | bytes block _ hblock => exact .lengthDelimited block body hblock
  | text s _ hblock => exact .lengthDelimited _ body hblock

theorem Holds.unique {body : Bytes} {v v' : Value} (h : Holds type body v) (h' : Holds type body v')
    (htype : v.type = v'.type) : v = v' := by
  have hread : Value.read v.type type (body ++ []) = .ok (v, []) := Value.read_iff.2 ⟨body, rfl, rfl, h⟩
  rw [Value.read_iff.2 ⟨body, rfl, htype.symm, h'⟩] at hread
  cases hread
  rfl

/-! ### Records -/

/-- What somebody who knows the schema reads of a run of fields. -/
inductive Schema.Reads (schema : Schema) : List Occurrence → List Field → Prop where
  | nil : Reads schema [] []
  | skip {os : List Occurrence} {fields : List Field} (o : Occurrence) (h : o.WellFormed)
      (hunknown : schema.field? o.tag = none) (hrest : Reads schema os fields) :
      Reads schema (o :: os) fields
  | take {os : List Occurrence} {fields : List Field} (o : Occurrence) (v : Value) (name : String)
      (h : o.WellFormed) (hknown : schema.field? o.tag = some (name, v.type))
      (hholds : Holds o.type o.body v) (hrest : Reads schema os fields) :
      Reads schema (o :: os) (⟨o.tag, v⟩ :: fields)

variable {schema : Schema} {o : Occurrence} {os : List Occurrence} {fields : List Field}

theorem Occurrence.WellFormed.read (h : o.WellFormed) (rest : Bytes) :
    Key.read (o.bytes ++ rest) = .ok (o.tag, o.type, o.body ++ rest) := by
  rw [Occurrence.bytes, List.append_assoc]
  exact h.key.read _

theorem Schema.read_of_key (hkey : Key.read bs = .ok (tag, type, rest)) :
    schema.read bs =
      match schema.field? tag with
      | some (name, expected) =>
        match Value.read expected type rest with
        | .error cause => .error ⟨cause, some (schema.record, name)⟩
        | .ok (value, after) => (schema.read after).map (⟨tag, value⟩ :: ·)
      | none =>
        match skipField tag type rest with
        | .error cause => .error ⟨cause, none⟩
        | .ok after => schema.read after := by
  have hne : bs ≠ [] := by
    rintro rfl
    cases hkey
  rw [Schema.read, if_neg hne]
  split
  · rename_i hread
    rw [hkey] at hread
    cases hread
  · rename_i hread
    rw [hkey] at hread
    cases hread
    cases schema.field? tag with
    | none =>
      simp only
      split <;> simp only [*]
    | some known =>
      simp only
      split <;> simp only [*]

theorem Schema.read_unknown (h : o.WellFormed) (hunknown : schema.field? o.tag = none) (rest : Bytes) :
    schema.read (o.bytes ++ rest) = schema.read rest := by
  have hskip : skipField o.tag o.type (o.body ++ rest) = .ok rest := skipField_iff.2 ⟨_, rfl, h.body⟩
  rw [read_of_key (h.read rest), hunknown]
  simp only [hskip]

theorem Schema.read_known {v : Value} {name : String} (h : o.WellFormed)
    (hknown : schema.field? o.tag = some (name, v.type)) (hholds : Holds o.type o.body v)
    (rest : Bytes) :
    schema.read (o.bytes ++ rest) = (schema.read rest).map (⟨o.tag, v⟩ :: ·) := by
  have hvalue : Value.read v.type o.type (o.body ++ rest) = .ok (v, rest) :=
    Value.read_iff.2 ⟨_, rfl, rfl, hholds⟩
  rw [read_of_key (h.read rest), hknown]
  simp only [hvalue]

theorem Schema.read_bytesOf (h : schema.Reads os fields) : schema.read (bytesOf os) = .ok fields := by
  induction h with
  | nil => rw [bytesOf, List.flatMap_nil, Schema.read, if_pos rfl]
  | skip o h hunknown hrest ih =>
    rw [bytesOf, List.flatMap_cons, read_unknown h hunknown]
    exact ih
  | take o v name h hknown hholds hrest ih =>
    rw [bytesOf] at ih
    rw [bytesOf, List.flatMap_cons, read_known h hknown hholds, ih]
    rfl

theorem Schema.reads_of_read (schema : Schema) (bs : Bytes) :
    ∀ {fields}, schema.read bs = .ok fields → ∃ os, bs = bytesOf os ∧ schema.Reads os fields := by
  fun_induction Schema.read schema bs with
  | case1 =>
    intro fields h
    cases h
    exact ⟨[], rfl, .nil⟩
  | case2 | case3 | case5 =>
    intro fields h
    cases h
  | case4 bs hne tag type rest hread name expected hknown v after hvalue ih =>
    intro fields h
    obtain ⟨key, rfl, hkey⟩ := Key.read_iff.1 hread
    obtain ⟨body, rfl, rfl, hholds⟩ := Value.read_iff.1 hvalue
    cases hafter : schema.read after with
    | error e =>
      rw [hafter] at h
      cases h
    | ok others =>
      rw [hafter] at h
      cases h
      obtain ⟨os, rfl, hreads⟩ := ih hafter
      have hform : (⟨tag, type, key, body⟩ : Occurrence).WellFormed := ⟨hkey, .plain _ _ hholds.isPlain⟩
      exact ⟨⟨tag, type, key, body⟩ :: os, (List.append_assoc _ _ _).symm,
        .take ⟨tag, type, key, body⟩ v name hform hknown hholds hreads⟩
  | case6 bs hne tag type rest hread hunknown after hskip ih =>
    intro fields h
    obtain ⟨key, rfl, hkey⟩ := Key.read_iff.1 hread
    obtain ⟨body, rfl, hbody⟩ := skipField_iff.1 hskip
    obtain ⟨os, rfl, hreads⟩ := ih h
    exact ⟨⟨tag, type, key, body⟩ :: os, (List.append_assoc _ _ _).symm,
      .skip ⟨tag, type, key, body⟩ ⟨hkey, hbody⟩ hunknown hreads⟩

/-- **A record reader accepts exactly the runs of well-formed fields in which the known ones hold
values of their types**, and reads those values in their order. -/
theorem Schema.read_iff : schema.read bs = .ok fields ↔ ∃ os, bs = bytesOf os ∧ schema.Reads os fields := by
  constructor
  · exact reads_of_read schema bs
  · rintro ⟨os, rfl, hreads⟩
    exact read_bytesOf hreads

end Chaincode.Wire
