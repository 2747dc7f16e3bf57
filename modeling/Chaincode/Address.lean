import Chaincode.Text

/-!
# Addresses

The two forms in which an address is judged: the URI of an endpoint to dial, and the IP address and port
of a socket to wait on.
-/

/-!
## URIs

Which octet strings are accepted as the URI of an endpoint: a path alone, an authority alone, or a
scheme with an authority and an optional path, query and fragment. An authority may hold user
information, a host (perhaps in brackets) and one port.
-/

namespace Chaincode.Uri

/-- Why an octet string is no URI. -/
inductive Fault where
  | empty
  | tooLong
  | char
  | format
  | authority
  | schemeTooLong
  deriving DecidableEq, Repr

def Fault.message : Fault → String
  | empty => "empty string"
  | tooLong => "uri too long"
  | char => "invalid uri character"
  | format => "invalid format"
  | authority => "invalid authority"
  | schemeTooLong => "scheme too long"

def maxLength : Nat := 65534

def maxSchemeLength : Nat := 64

/-- Colons that may stand in a row of text without `@` and `]`: a bracketed host has up to eight. -/
def maxColons : Nat := 8

/-- The byte of an ASCII character. -/
def byte (c : Char) : UInt8 := c.toNat.toUInt8

def isLetter (b : UInt8) : Bool :=
  byte 'a' ≤ b && b ≤ byte 'z' || byte 'A' ≤ b && b ≤ byte 'Z'

def isDigit (b : UInt8) : Bool := byte '0' ≤ b && b ≤ byte '9'

def among (marks : List Char) (b : UInt8) : Bool := marks.any (byte · = b)

/-- Does the authority end before `b`? -/
def endsAuthority (b : UInt8) : Bool := among ['/', '?', '#'] b

def isAuthorityByte (b : UInt8) : Bool :=
  isLetter b || isDigit b ||
    among ['!', '$', '&', '\x27', '(', ')', '*', '+', ',', '-', '.', ':', ';', '=', '@', '[', ']',
      '_', '~'] b

def isPathByte (b : UInt8) : Bool :=
  among ['!', '"', '=', '\x7b', '|', '\x7d', '~'] b || byte '$' ≤ b && b ≤ byte ';' ||
    byte '@' ≤ b && b ≤ byte '_' || byte 'a' ≤ b && b ≤ byte 'z' || 0x80 ≤ b

def isQueryByte (b : UInt8) : Bool :=
  among ['!', '='] b || byte '$' ≤ b && b ≤ byte ';' || byte '?' ≤ b && b != 0x7F

def isSchemeByte (b : UInt8) : Bool :=
  isLetter b || isDigit b || among ['+', '-', '.', '~'] b

/-! ### The authority -/

/-- What is known of an authority after some of its bytes. Colons and percent signs count since the
last `@` or `]` only: before it they belonged to user information or to a bracketed host. -/
structure Scan where
  colons : Nat := 0
  opened : Bool := false
  closed : Bool := false
  percent : Bool := false
  /-- Was the last byte an `@`? -/
  atEnd : Bool := false

def Scan.next (s : Scan) (b : UInt8) : Except Fault Scan :=
  if b = byte ':' then
    if maxColons ≤ s.colons then .error .authority
    else .ok { s with colons := s.colons + 1, atEnd := false }
  else if b = byte '[' then
    if s.percent || s.opened then .error .authority
    else .ok { s with opened := true, atEnd := false }
  else if b = byte ']' then
    if !s.opened || s.closed then .error .authority
    else .ok { s with closed := true, colons := 0, percent := false, atEnd := false }
  else if b = byte '@' then .ok { s with colons := 0, percent := false, atEnd := true }
  else if b = byte '%' then .ok { s with percent := true, atEnd := false }
  else if isAuthorityByte b then .ok { s with atEnd := false }
  else .error .char

def Scan.finish (s : Scan) : Except Fault Unit :=
  if s.opened != s.closed || 1 < s.colons || s.atEnd || s.percent then .error .authority
  else .ok ()

/-- Checks the authority that `bs` begins with, which may be empty. -/
def checkAuthority (bs : Bytes) : Except Fault Unit := do
  let s ← (bs.takeWhile (!endsAuthority ·)).foldlM Scan.next {}
  s.finish

/-- What follows the authority. -/
def afterAuthority (bs : Bytes) : Bytes := bs.dropWhile (!endsAuthority ·)

/-! ### The whole -/

/-- Checks a path and a query; a fragment may hold anything. -/
def checkPathAndQuery (bs : Bytes) : Except Fault Unit :=
  let located := bs.takeWhile (· != byte '#')
  let path := located.takeWhile (· != byte '?')
  let query := (located.dropWhile (· != byte '?')).drop 1
  if path.all isPathByte && query.all isQueryByte then .ok () else .error .char

/-- What follows the scheme and its separator; `none` if `bs` has no scheme. -/
def afterScheme (bs : Bytes) : Except Fault (Option Bytes) :=
  let scheme := bs.takeWhile isSchemeByte
  let rest := bs.drop scheme.length
  if bs.length ≤ 3 || rest.take 3 != [byte ':', byte '/', byte '/'] then .ok none
  else if maxSchemeLength < scheme.length then .error .schemeTooLong
  else .ok (some (rest.drop 3))

/-- Checks a URI that is longer than one byte and no path. -/
def checkFull (bs : Bytes) : Except Fault Unit := do
  match ← afterScheme bs with
  | none =>
    checkAuthority bs
    if afterAuthority bs = [] then .ok () else .error .format
  | some [] => .error .empty
  | some rest =>
    checkAuthority rest
    if afterAuthority rest = rest then .error .format
    else checkPathAndQuery (afterAuthority rest)

/-- Checks a URI. -/
def check (bs : Bytes) : Except Fault Unit :=
  if maxLength < bs.length then .error .tooLong
  else match bs with
    | [] => .error .empty
    | [b] =>
      if b = byte '/' || b = byte '*' then .ok ()
      else do
        checkAuthority bs
        if afterAuthority bs = [] then .ok () else .error .char
    | b :: _ => if b = byte '/' then checkPathAndQuery bs else checkFull bs

end Chaincode.Uri

/-!
## Socket addresses

An IP address and a port: four decimal numbers, or in brackets eight groups of hexadecimal digits of
which one run of zeros may be left out.
-/

namespace Chaincode

inductive IpAddress where
  | v4 (bytes : List Nat)
  | v6 (groups : List Nat)
  deriving DecidableEq, Repr

structure SocketAddress where
  ip : IpAddress
  port : Nat
  deriving DecidableEq, Repr

namespace SocketAddress

/-- What cannot be read as a socket address is said to be this. -/
def syntaxFault : String := "invalid socket address syntax"

def digit? (radix : Nat) (c : Char) : Option Nat :=
  let n? :=
    if '0' ≤ c && c ≤ '9' then some (c.toNat - '0'.toNat)
    else if 'a' ≤ c && c ≤ 'f' then some (c.toNat - 'a'.toNat + 10)
    else if 'A' ≤ c && c ≤ 'F' then some (c.toNat - 'A'.toNat + 10)
    else none
  n?.filter (· < radix)

/-- A number below `bound`, of all the digits in front. -/
def number (radix bound : Nat) (s : List Char) : Option (Nat × List Char) :=
  let digits := s.takeWhile fun c => (digit? radix c).isSome
  let n := digits.foldl (fun n c => min bound (n * radix + (digit? radix c).getD 0)) 0
  if digits.isEmpty || bound ≤ n then none else some (n, s.drop digits.length)

def char (c : Char) : List Char → Option (List Char)
  | [] => none
  | d :: rest => if d = c then some rest else none

/-- One of the four numbers: up to three digits, no needless zero in front. -/
def decimalByte (s : List Char) : Option (Nat × List Char) := do
  let (n, rest) ← number 10 256 s
  let width := s.length - rest.length
  if 3 < width || 1 < width && s.head? = some '0' then none else some (n, rest)

def readV4 (s : List Char) : Option (List Nat × List Char) := do
  let (a, s) ← decimalByte s
  let s ← char '.' s
  let (b, s) ← decimalByte s
  let s ← char '.' s
  let (c, s) ← decimalByte s
  let s ← char '.' s
  let (d, s) ← decimalByte s
  return ([a, b, c, d], s)

/-- One group: up to four hexadecimal digits. -/
def hexGroup (s : List Char) : Option (Nat × List Char) := do
  let (n, rest) ← number 16 65536 s
  if 4 < s.length - rest.length then none else some (n, rest)

/-- Up to `room` groups with colons between them, and whether they end in an address of four
numbers, which takes the place of two groups. -/
def groups : (room : Nat) → (first : Bool) → List Char → List Nat × Bool × List Char
  | 0, _, s => ([], false, s)
  | room + 1, first, s =>
    match if first then some s else char ':' s with
    | none => ([], false, s)
    | some inner =>
      match if 0 < room then readV4 inner else none with
      | some ([a, b, c, d], rest) => ([a * 256 + b, c * 256 + d], true, rest)
      | _ =>
        match hexGroup inner with
        | none => ([], false, s)
        | some (g, rest) =>
          let (gs, v4, rest) := groups room false rest
          (g :: gs, v4, rest)

def readV6 (s : List Char) : Option (List Nat × List Char) := do
  let (front, v4, s) := groups 8 true s
  if front.length = 8 then return (front, s)
  if v4 then none
  let s ← char ':' s
  let s ← char ':' s
  let (back, _, s) := groups (7 - front.length) true s
  return (front ++ List.replicate (8 - front.length - back.length) 0 ++ back, s)

def readPort (s : List Char) : Option (Nat × List Char) := do
  let s ← char ':' s
  number 10 65536 s

/-- A scope behind a percent sign, which is not kept. -/
def skipScope (s : List Char) : List Char :=
  match char '%' s >>= number 10 0x100000000 with
  | some (_, rest) => rest
  | none => s

def readAddress (s : List Char) : Option (SocketAddress × List Char) :=
  match readV4 s with
  | some (bytes, rest) => (readPort rest).map fun (port, rest) => (⟨.v4 bytes, port⟩, rest)
  | none => do
    let s ← char '[' s
    let (groups, s) ← readV6 s
    let s ← char ']' (skipScope s)
    let (port, s) ← readPort s
    return (⟨.v6 groups, port⟩, s)

/-- The socket address that a text spells. -/
def parse? (text : String) : Option SocketAddress :=
  match readAddress text.toList with
  | some (address, []) => some address
  | _ => none

end SocketAddress

end Chaincode
