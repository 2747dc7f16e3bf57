import Chaincode.Text

/-!
# Base64

Three bytes are spelled by four symbols; a last group of one or two bytes is filled up with padding.
Reading accepts exactly what writing produces. The first fault from the left is reported, but for a
stray byte at the very end, which is looked at first.
-/

namespace Chaincode.Base64

/-- Why an octet string is not base64. -/
inductive Fault where
  | symbol (byte : UInt8) (offset : Nat)
  /-- A last group of one symbol, with the count of symbols up to it. -/
  | length (count : Nat)
  /-- Bits are set in the last symbol that no byte takes up. -/
  | lastSymbol (byte : UInt8) (offset : Nat)
  | padding
  deriving DecidableEq, Repr

def Fault.message : Fault → String
  | symbol byte offset =>
    "Invalid symbol " ++ toString byte.toNat ++ ", offset " ++ toString offset ++ "."
  | length count => "Invalid input length: " ++ toString count
  | lastSymbol byte offset =>
    "Invalid last symbol " ++ toString byte.toNat ++ ", offset " ++ toString offset ++ "."
  | padding => "Invalid padding"

/-! ## Symbols -/

/-- The equals sign. -/
def pad : UInt8 := 61

/-- The symbol for a number below 64: capital letters, small letters, digits, plus and slash. -/
def symbol (n : Nat) : UInt8 :=
  if n < 26 then (65 + n).toUInt8
  else if n < 52 then (71 + n).toUInt8
  else if n < 62 then (n - 4).toUInt8
  else if n = 62 then 43
  else 47

/-- The number that a symbol stands for. -/
def value? (b : UInt8) : Option Nat :=
  if 65 ≤ b && b ≤ 90 then some (b.toNat - 65)
  else if 97 ≤ b && b ≤ 122 then some (b.toNat - 71)
  else if 48 ≤ b && b ≤ 57 then some (b.toNat + 4)
  else if b = 43 then some 62
  else if b = 47 then some 63
  else none

/-- The numbers that symbols stand for. -/
def values (offset : Nat) : Bytes → Except Fault (List Nat)
  | [] => .ok []
  | b :: rest =>
    match value? b with
    | none => .error (.symbol b offset)
    | some n => (values (offset + 1) rest).map (n :: ·)

/-- The three bytes of four numbers. -/
def join (a b c d : Nat) : Bytes :=
  [(a * 4 + b / 16).toUInt8, (b % 16 * 16 + c / 4).toUInt8, (c % 4 * 64 + d).toUInt8]

/-! ## Writing and reading -/

def encode : Bytes → Bytes
  | [] => []
  | [a] => [symbol (a.toNat / 4), symbol (a.toNat % 4 * 16), pad, pad]
  | [a, b] =>
    [symbol (a.toNat / 4), symbol (a.toNat % 4 * 16 + b.toNat / 16), symbol (b.toNat % 16 * 4), pad]
  | a :: b :: c :: rest =>
    symbol (a.toNat / 4) :: symbol (a.toNat % 4 * 16 + b.toNat / 16) ::
      symbol (b.toNat % 16 * 4 + c.toNat / 64) :: symbol (c.toNat % 64) :: encode rest

/-- Reads the last group, which may be shorter and may be padded. -/
def decodeLast (offset : Nat) (bs : Bytes) : Except Fault Bytes :=
  let symbols := bs.takeWhile (· != pad)
  let pads := bs.dropWhile (· != pad)
  match values offset symbols with
  | .error e => .error e
  | .ok ns =>
    if pads != [] && (symbols.length < 2 || pads.any (· != pad)) then
      .error (.symbol pad (offset + symbols.length))
    else match ns with
      | [_] => .error (.length (offset + 1))
      | [a, b] =>
        if pads.length != 2 then .error .padding
        else if b % 16 != 0 then .error (.lastSymbol (symbol b) (offset + 1))
        else .ok ((join a b 0 0).take 1)
      | [a, b, c] =>
        if pads.length != 1 then .error .padding
        else if c % 4 != 0 then .error (.lastSymbol (symbol c) (offset + 2))
        else .ok ((join a b c 0).take 2)
      | [a, b, c, d] => .ok (join a b c d)
      | _ => .ok []

/-- Reads groups from an offset on. Only the last group may be padded. -/
def decodeFrom (offset : Nat) : Bytes → Except Fault Bytes
  | s :: t :: u :: v :: next :: rest =>
    match values offset [s, t, u, v] with
    | .error e => .error e
    | .ok ns =>
      (decodeFrom (offset + 4) (next :: rest)).map fun more =>
        join (ns.getD 0 0) (ns.getD 1 0) (ns.getD 2 0) (ns.getD 3 0) ++ more
  | last => decodeLast offset last

/-- A byte that begins a group of its own at the very end and is no symbol. -/
def stray? (bs : Bytes) : Option Fault :=
  if bs.length % 4 != 1 then none
  else match bs.getLast? with
    | none => none
    | some b => if b = pad || (value? b).isSome then none else some (.symbol b (bs.length - 1))

def decode (bs : Bytes) : Except Fault Bytes :=
  match stray? bs with
  | some fault => .error fault
  | none => decodeFrom 0 bs

/-! ## Text with white space -/

/-- Space, tab, line feed, form feed and carriage return. -/
def isSpace (b : UInt8) : Bool := b = 32 || b = 9 || b = 10 || b = 12 || b = 13

/-- Reads base64 with white space anywhere in it. -/
def decodeSpaced (bs : Bytes) : Except Fault Bytes := decode (bs.filter (!isSpace ·))

end Chaincode.Base64
