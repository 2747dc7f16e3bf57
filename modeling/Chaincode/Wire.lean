import Chaincode.Text

/-!
# The wire form of records

A record is a run of fields, a field a key with a body. Numbers take as many bytes as they need, and
everything else says how long it is, so that a reader can pass over what it does not know.
-/

/-!
## Variable-length numbers

A number in base 128, lowest digit first, one digit a byte; every byte but the last has its high bit
set. A reader takes at most ten bytes, and of the tenth only the lowest bit, so what it reads is
below `2 ^ 64`. Overlong spellings are read like any other.
-/

namespace Chaincode.Wire.Varint

/-- The shortest spelling of `n`. -/
def encode (n : Nat) : Bytes :=
  if n < 128 then [n.toUInt8] else (n % 128 + 128).toUInt8 :: encode (n / 128)
termination_by n

/-- The length of `encode n` for `n < 2 ^ 64`, from the position of the highest bit: one byte for
every seven bits begun. -/
def size (n : Nat) : Nat := (n.log2 * 9 + 73) / 64

/-- Reads on after `place` bytes of a number. -/
def readFrom (place : Nat) : Bytes → Option (Nat × Bytes)
  | [] => none
  | b :: rest =>
    if place = 9 then
      if b < 2 then some (b.toNat, rest) else none
    else if b < 128 then some (b.toNat, rest)
    else (readFrom (place + 1) rest).map fun (high, after) => (b.toNat - 128 + 128 * high, after)

/-- The number that `bs` begins with, and what follows it. -/
def read (bs : Bytes) : Option (Nat × Bytes) := readFrom 0 bs

theorem readFrom_length {bs rest : Bytes} {place n : Nat} (h : readFrom place bs = some (n, rest)) :
    rest.length < bs.length := by
  induction bs generalizing place n with
  | nil => simp [readFrom] at h
  | cons b bs ih =>
    rw [readFrom] at h
    split at h
    · split at h <;> simp_all
    · split at h
      · simp_all
      · obtain ⟨⟨high, after⟩, hr, he⟩ := Option.map_eq_some_iff.1 h
        cases he
        have := ih hr
        simp only [List.length_cons]
        omega

theorem read_length {bs rest : Bytes} {n : Nat} (h : read bs = some (n, rest)) :
    rest.length < bs.length := readFrom_length h

end Chaincode.Wire.Varint

/-!
## What can be wrong with a record

The causes for which a byte string is not a record, and their wording. A fault met inside a known
field names that field.
-/

namespace Chaincode.Wire

/-- How the bytes after a field's key are delimited. -/
inductive WireType where
  | varint
  | sixtyFourBit
  | lengthDelimited
  | startGroup
  | endGroup
  | thirtyTwoBit
  deriving DecidableEq, Repr

namespace WireType

/-- The low three bits of a key. -/
def number : WireType → Nat
  | varint => 0
  | sixtyFourBit => 1
  | lengthDelimited => 2
  | startGroup => 3
  | endGroup => 4
  | thirtyTwoBit => 5

def all : List WireType :=
  [varint, sixtyFourBit, lengthDelimited, startGroup, endGroup, thirtyTwoBit]

def ofNumber? (n : Nat) : Option WireType := all.find? (·.number = n)

def name : WireType → String
  | varint => "Varint"
  | sixtyFourBit => "SixtyFourBit"
  | lengthDelimited => "LengthDelimited"
  | startGroup => "StartGroup"
  | endGroup => "EndGroup"
  | thirtyTwoBit => "ThirtyTwoBit"

end WireType

/-- Why a byte string is not a record. -/
inductive Malformed where
  /-- A number is cut short or does not fit 64 bits. -/
  | number
  /-- A key does not fit 32 bits. -/
  | key (value : Nat)
  /-- The low bits of a key name no wire type. -/
  | wireType (value : Nat)
  /-- Tags count from one. -/
  | zeroTag
  /-- A field reaches past the end. -/
  | underflow
  /-- A known field is written under another wire type than its own. -/
  | mismatch (actual expected : WireType)
  /-- An end-of-group key without its group. -/
  | groupEnd
  /-- A field to skip lies inside too many groups. -/
  | depth
  /-- A text field that is not UTF-8. -/
  | encoding
  deriving DecidableEq, Repr

def Malformed.description : Malformed → String
  | number => "invalid varint"
  | key value => "invalid key value: " ++ toString value
  | wireType value => "invalid wire type value: " ++ toString value
  | zeroTag => "invalid tag value: 0"
  | underflow => "buffer underflow"
  | mismatch actual expected =>
    "invalid wire type: " ++ actual.name ++ " (expected " ++ expected.name ++ ")"
  | groupEnd => "unexpected end group tag"
  | depth => "recursion limit reached"
  | encoding => "invalid string value: data is not UTF-8 encoded"

/-- A cause, with the record and field in which it was met. -/
structure DecodeError where
  cause : Malformed
  field : Option (String × String) := none
  deriving DecidableEq, Repr

def DecodeError.message (e : DecodeError) : String :=
  let place := match e.field with
    | some (record, field) => record ++ "." ++ field ++ ": "
    | none => ""
  "failed to decode Protobuf message: " ++ place ++ e.cause.description

/-!
## Keys and the extent of a field

A field opens with a key, its tag and its wire type in one number. The wire type alone decides how
far the field reaches, so that a field with an unknown tag can be skipped. A group reaches to the
end key of its own tag, over whatever fields lie between.
-/

/-- How many enclosing groups a skipped field may have, plus one. -/
def maxDepth : Nat := 100

namespace Key

def encode (tag : Nat) (type : WireType) : Bytes := Varint.encode (tag * 8 + type.number)

def size (tag : Nat) : Nat := Varint.size (tag * 8)

/-- Reads a number; a fault if there is none. -/
def readNumber (bs : Bytes) : Except Malformed (Nat × Bytes) :=
  match Varint.read bs with
  | some read => .ok read
  | none => .error .number

/-- The tag and wire type that `bs` begins with, and what follows them. -/
def read (bs : Bytes) : Except Malformed (Nat × WireType × Bytes) :=
  match readNumber bs with
  | .error e => .error e
  | .ok (key, rest) =>
    if 0x100000000 ≤ key then .error (.key key)
    else match WireType.ofNumber? (key % 8) with
      | none => .error (.wireType (key % 8))
      | some type => if key / 8 = 0 then .error .zeroTag else .ok (key / 8, type, rest)

theorem readNumber_length {bs rest : Bytes} {n : Nat} (h : readNumber bs = .ok (n, rest)) :
    rest.length < bs.length := by
  rw [readNumber] at h
  split at h
  · rename_i hr
    cases h
    exact Varint.read_length hr
  · cases h

theorem read_length {bs rest : Bytes} {tag : Nat} {type : WireType}
    (h : read bs = .ok (tag, type, rest)) : rest.length < bs.length := by
  rw [read] at h
  split at h
  · cases h
  · rename_i hr
    split at h
    · cases h
    · split at h
      · cases h
      · split at h
        · cases h
        · cases h
          exact readNumber_length hr

end Key

/-- The first `n` bytes, and what follows them. -/
def takeBytes (n : Nat) (bs : Bytes) : Except Malformed (Bytes × Bytes) :=
  if (bs.take n).length < n then .error .underflow else .ok (bs.take n, bs.drop n)

/-- A block of bytes behind its length. -/
def readBlock (bs : Bytes) : Except Malformed (Bytes × Bytes) :=
  match Key.readNumber bs with
  | .error e => .error e
  | .ok (n, rest) => takeBytes n rest

theorem takeBytes_length {n : Nat} {bs block rest : Bytes}
    (h : takeBytes n bs = .ok (block, rest)) :
    rest.length ≤ bs.length := by
  rw [takeBytes] at h
  split at h
  · cases h
  · cases h
    simp

theorem readBlock_length {bs block rest : Bytes} (h : readBlock bs = .ok (block, rest)) :
    rest.length ≤ bs.length := by
  rw [readBlock] at h
  split at h
  · cases h
  · rename_i hr
    exact Nat.le_trans (takeBytes_length h) (Nat.le_of_lt (Key.readNumber_length hr))

/-- What follows the body of a field that is no group. -/
def skipPlain (type : WireType) (bs : Bytes) : Except Malformed Bytes :=
  match type with
  | .varint => (Key.readNumber bs).map (·.2)
  | .sixtyFourBit => (takeBytes 8 bs).map (·.2)
  | .thirtyTwoBit => (takeBytes 4 bs).map (·.2)
  | .lengthDelimited => (readBlock bs).map (·.2)
  | .startGroup | .endGroup => .error .groupEnd

theorem skipPlain_length {type : WireType} {bs rest : Bytes} (h : skipPlain type bs = .ok rest) :
    rest.length ≤ bs.length := by
  have map_ok : ∀ {α : Type} {x : Except Malformed (α × Bytes)} {rest : Bytes},
      x.map (·.2) = .ok rest → ∃ a, x = .ok (a, rest) := by
    intro α x rest h
    cases x with
    | error e => cases h
    | ok p => exact ⟨p.1, by cases h; rfl⟩
  cases type with
  | varint =>
    obtain ⟨n, hn⟩ := map_ok h
    exact Nat.le_of_lt (Key.readNumber_length hn)
  | sixtyFourBit =>
    obtain ⟨b, hb⟩ := map_ok h
    exact takeBytes_length hb
  | thirtyTwoBit =>
    obtain ⟨b, hb⟩ := map_ok h
    exact takeBytes_length hb
  | lengthDelimited =>
    obtain ⟨b, hb⟩ := map_ok h
    exact readBlock_length hb
  | startGroup => cases h
  | endGroup => cases h

/-- What follows the end of the groups `opened`, innermost first. -/
def closeGroups : List Nat → Bytes → Except Malformed Bytes
  | [], bs => .ok bs
  | group :: outer, bs =>
    match _hk : Key.read bs with
    | .error e => .error e
    | .ok (tag, type, rest) =>
      if type = .endGroup then
        if tag = group then closeGroups outer rest else .error .groupEnd
      else if maxDepth ≤ outer.length + 1 then .error .depth
      else if type = .startGroup then closeGroups (tag :: group :: outer) rest
      else match _hs : skipPlain type rest with
        | .error e => .error e
        | .ok after => closeGroups (group :: outer) after
termination_by _ bs => bs.length
decreasing_by
  · exact Key.read_length _hk
  · exact Key.read_length _hk
  · exact Nat.lt_of_le_of_lt (skipPlain_length _hs) (Key.read_length _hk)

theorem closeGroups_length (opened : List Nat) (bs : Bytes) :
    ∀ {rest}, closeGroups opened bs = .ok rest → rest.length ≤ bs.length := by
  fun_induction closeGroups opened bs with
  | case1 bs => intro rest h; cases h; exact Nat.le_refl _
  | case2 => intro rest h; cases h
  | case3 outer bs tag rest hk ih =>
    intro r h
    exact Nat.le_trans (ih h) (Nat.le_of_lt (Key.read_length hk))
  | case4 => intro r h; cases h
  | case5 => intro r h; cases h
  | case6 group outer bs tag rest hd hk hend ih =>
    intro r h
    exact Nat.le_trans (ih h) (Nat.le_of_lt (Key.read_length hk))
  | case7 => intro r h; cases h
  | case8 group outer bs tag type rest hk hend hd hstart after hs ih =>
    intro r h
    exact Nat.le_trans (ih h)
      (Nat.le_trans (skipPlain_length hs) (Nat.le_of_lt (Key.read_length hk)))

/-- What follows the field whose key was just read. -/
def skipField (tag : Nat) (type : WireType) (bs : Bytes) : Except Malformed Bytes :=
  if type = .startGroup then closeGroups [tag] bs else skipPlain type bs

theorem skipField_length {tag : Nat} {type : WireType} {bs rest : Bytes}
    (h : skipField tag type bs = .ok rest) : rest.length ≤ bs.length := by
  rw [skipField] at h
  split at h
  · exact closeGroups_length _ _ h
  · exact skipPlain_length h

/-!
## Records

A record is a run of tagged fields. A schema gives the tags that are read, with the name and the
type of each; fields with other tags are skipped. Reading answers the known fields in the order in
which they stand, so that "the last occurrence wins" is a fold over the answer. Writing leaves out
fields that hold the default of their type.
-/

/-- The types a known field may have. -/
inductive FieldType where
  | int32
  | bytes
  | text
  deriving DecidableEq, Repr

def FieldType.wireType : FieldType → WireType
  | int32 => .varint
  | bytes => .lengthDelimited
  | text => .lengthDelimited

/-- The content of a known field. -/
inductive Value where
  | int32 (n : Int32)
  | bytes (b : Bytes)
  | text (s : String)
  deriving DecidableEq

namespace Value

def type : Value → FieldType
  | int32 _ => .int32
  | bytes _ => .bytes
  | text _ => .text

/-- Is this what a reader assumes of an absent field? -/
def isDefault : Value → Bool
  | int32 n => n = 0
  | bytes b => b.isEmpty
  | text s => s = ""

/-- A negative number is spelled as its residue modulo `2 ^ 64`. -/
def ofInt32 (n : Int32) : Nat := n.toInt64.toUInt64.toNat

def encode : Value → Bytes
  | int32 n => Varint.encode (ofInt32 n)
  | bytes b => Varint.encode b.length ++ b
  | text s => Varint.encode s.utf8ByteSize ++ Bytes.ofText s

def size : Value → Nat
  | int32 n => Varint.size (ofInt32 n)
  | bytes b => Varint.size b.length + b.length
  | text s => Varint.size s.utf8ByteSize + s.utf8ByteSize

/-- Reads a value of type `type` from a field of wire type `actual`. A number keeps its low 32
bits. -/
def read (type : FieldType) (actual : WireType) (bs : Bytes) : Except Malformed (Value × Bytes) :=
  if actual = type.wireType then
    match type with
    | .int32 => (Key.readNumber bs).map fun (n, rest) => (int32 (Int32.ofNat n), rest)
    | .bytes => (readBlock bs).map fun (b, rest) => (bytes b, rest)
    | .text =>
      match readBlock bs with
      | .error e => .error e
      | .ok (b, rest) =>
        match Bytes.text? b with
        | some s => .ok (text s, rest)
        | none => .error .encoding
  else .error (.mismatch actual type.wireType)

theorem read_length {type : FieldType} {actual : WireType} {bs rest : Bytes} {v : Value}
    (h : read type actual bs = .ok (v, rest)) : rest.length ≤ bs.length := by
  rw [read.eq_def] at h
  split at h
  · cases type with
    | int32 =>
      cases hr : Key.readNumber bs with
      | error e => rw [hr] at h; cases h
      | ok p => rw [hr] at h; cases h; exact Nat.le_of_lt (Key.readNumber_length hr)
    | bytes =>
      cases hr : readBlock bs with
      | error e => rw [hr] at h; cases h
      | ok p => rw [hr] at h; cases h; exact readBlock_length hr
    | text =>
      cases hr : readBlock bs with
      | error e => simp [hr] at h
      | ok p =>
        simp only [hr] at h
        split at h
        · cases h; exact readBlock_length hr
        · cases h
  · cases h

end Value

/-- One known field of a record. -/
structure Field where
  tag : Nat
  value : Value
  deriving DecidableEq

namespace Field

def encode (f : Field) : Bytes := Key.encode f.tag f.value.type.wireType ++ f.value.encode

def size (f : Field) : Nat := Key.size f.tag + f.value.size

end Field

/-- Writes the fields that do not hold their default. -/
def encodeFields (fields : List Field) : Bytes :=
  (fields.filter (!·.value.isDefault)).flatMap Field.encode

/-- The length of `encodeFields fields`, found without writing it. -/
def sizeFields (fields : List Field) : Nat :=
  ((fields.filter (!·.value.isDefault)).map Field.size).foldr (· + ·) 0

/-- The tags a reader knows, with the name and the type of each. -/
structure Schema where
  record : String
  field? : Nat → Option (String × FieldType)

/-- The known fields of `bs`, in the order in which they stand. -/
def Schema.read (schema : Schema) (bs : Bytes) : Except DecodeError (List Field) :=
  if bs = [] then .ok []
  else match _hk : Key.read bs with
    | .error cause => .error ⟨cause, none⟩
    | .ok (tag, type, rest) =>
      match schema.field? tag with
      | some (name, expected) =>
        match _hv : Value.read expected type rest with
        | .error cause => .error ⟨cause, some (schema.record, name)⟩
        | .ok (value, after) => (schema.read after).map (⟨tag, value⟩ :: ·)
      | none =>
        match _hs : skipField tag type rest with
        | .error cause => .error ⟨cause, none⟩
        | .ok after => schema.read after
termination_by bs.length
decreasing_by
  · exact Nat.lt_of_le_of_lt (Value.read_length _hv) (Key.read_length _hk)
  · exact Nat.lt_of_le_of_lt (skipField_length _hs) (Key.read_length _hk)

end Chaincode.Wire
