/-!
# TOML values

What can stand on the right of an equals sign, as text and as a value.
-/

/-!
## Readers

A reader takes a prefix off a text and answers what it found and what is left, or nothing. A
repeated reader goes on as long as it finds something. What it finds takes at least one character,
so the text itself bounds how often it does.
-/

namespace Chaincode.Toml

abbrev Reader (α : Type) := List Char → Option (α × List Char)

namespace Reader

variable {α β : Type}

/-- The one character `c`. -/
def char (c : Char) : Reader Unit
  | [] => none
  | d :: rest => if d = c then some ((), rest) else none

/-- The characters of `cs` in order. -/
def exactly : List Char → Reader Unit
  | [], s => some ((), s)
  | c :: cs, s => do
    let ((), rest) ← char c s
    exactly cs rest

/-- One character of a class. -/
def one (p : Char → Bool) : Reader Char
  | [] => none
  | c :: rest => if p c then some (c, rest) else none

/-- At least one character of a class. -/
def span1 (p : Char → Bool) : Reader (List Char) := fun s =>
  if (s.takeWhile p).isEmpty then none else some (s.takeWhile p, s.dropWhile p)

/-- Exactly `n` characters of a class. -/
def count (n : Nat) (p : Char → Bool) : Reader (List Char) := fun s =>
  let taken := s.take n
  if taken.length = n && taken.all p then some (taken, s.drop n) else none

/-- `r`, or nothing at all. -/
def optional (r : Reader α) : Reader (Option α) := fun s =>
  match r s with
  | some (a, rest) => some (some a, rest)
  | none => some (none, s)

/-- The first of two readers that finds something. -/
def either (r t : Reader α) : Reader α := fun s => r s <|> t s

/-- What `r` finds in a row, at most once for each character of `bound`, and what is left. -/
def manyWithin (r : Reader α) : (bound : List Char) → List Char → List α × List Char
  | [], s => ([], s)
  | _ :: bound, s =>
    match r s with
    | none => ([], s)
    | some (a, rest) =>
      let (as, left) := manyWithin r bound rest
      (a :: as, left)

/-- Everything that `r` finds in a row, and what is left. -/
def many (r : Reader α) (s : List Char) : List α × List Char := manyWithin r s s

/-- What is left after everything that `r` finds in a row. -/
def skipMany (r : Reader α) (s : List Char) : List Char := (many r s).2

/-- One or more of `r`, with `separator` between any two. -/
def separated (separator : Char) (r : Reader α) : Reader (List α) := fun s => do
  let (first, rest) ← r s
  let (more, left) := many (fun s => do
    let ((), rest) ← char separator s
    r rest) rest
  return (first :: more, left)

end Reader

/-!
## Values of a TOML document

Tables keep the order in which their keys were written, and remember how they came about, which
decides whether they may be reopened.
-/

/-- How a table came about. -/
inductive Form where
  /-- Written in braces. -/
  | inline
  /-- Under a header of its own. -/
  | header
  /-- Named on the way to another header only. -/
  | implicit
  /-- Named on the way to a dotted key. -/
  | dotted
  deriving DecidableEq, Repr

inductive Value where
  | text (s : String)
  | integer (n : Int)
  /-- A float. No setting is one, so its value is not kept. -/
  | float
  | boolean (b : Bool)
  /-- A date, a time or both; like a float it is not kept. -/
  | dateTime
  | array (items : List Value)
  | table (form : Form) (entries : List (String × Value))
  /-- Tables under repeated headers of one name, the last one first. -/
  | tables (items : List Value)
  deriving Repr

abbrev Entries := List (String × Value)

namespace Entries

/-- The value under `key`. -/
def get? (entries : Entries) (key : String) : Option Value :=
  (entries.find? (·.1 = key)).map (·.2)

/-- Replaces the value under `key`, or adds one at the end, by what `f` makes of it; `f` may
refuse. -/
def alter (key : String) (f : Option Value → Option Value) : Entries → Option Entries
  | [] => (f none).map fun v => [(key, v)]
  | (k, v) :: rest =>
    if k = key then (f (some v)).map fun v' => (k, v') :: rest
    else (alter key f rest).map ((k, v) :: ·)

/-- Adds a value under a key that is not there yet. -/
def insertNew (key : String) (v : Value) (entries : Entries) : Option Entries :=
  entries.alter key fun
    | none => some v
    | some _ => none

/-- Changes the table at `path` by `f`, which sees its form. Tables that are missing on the way
come about, as dotted ones on the way of a dotted key and as implicit ones on the way of a header. A
dotted key cannot pass through a table that has a header of its own; nothing can pass through a
plain value. Of tables under repeated headers the last one is meant. -/
def alterAt (dotted : Bool) (f : Form → Entries → Option Entries) :
    List String → Form → Entries → Option Entries
  | [], form, entries => f form entries
  | key :: path, _, entries =>
    entries.alter key fun
      | none =>
        let form := if dotted then .dotted else .implicit
        (alterAt dotted f path form []).map (.table form)
      | some (.table form inner) =>
        if form = .inline || dotted && form = .header then none
        else (alterAt dotted f path form inner).map (.table form)
      | some (.tables items) =>
        match items with
        | .table form inner :: before =>
          (alterAt dotted f path form inner).map fun inner' =>
            .tables (.table form inner' :: before)
        | _ => none
      | some _ => none

/-- Adds a value under a dotted key. The tables on its way must themselves come from dotted keys. -/
def insertDotted (path : List String) (v : Value) (entries : Entries) : Option Entries :=
  match path.getLast? with
  | none => none
  | some key =>
    let way := path.dropLast
    alterAt true (fun form inner =>
      if way.isEmpty || form = .dotted then inner.insertNew key v else none) way .header entries

/-- The entries that key and value pairs make in turn. -/
def insertPairs (entries : Entries) (pairs : List (List String × Value)) : Option Entries :=
  pairs.foldlM (fun entries (path, v) => entries.insertDotted path v) entries

end Entries

/-!
## Blanks, comments and strings

The four kinds of string, and what may stand between the parts of a document. Control characters
other than the tab stand nowhere; within strings over several lines a line end counts as one line
feed however it is written.
-/

open Reader

def isSpace (c : Char) : Bool := c = ' ' || c = '\t'

/-- May `c` stand in a comment or, quotes and backslash apart, in a string? -/
def isPlain (c : Char) : Bool := c = '\t' || '\x20' ≤ c && c != '\x7F'

def skipSpace (s : List Char) : List Char := s.dropWhile isSpace

def newline : Reader Unit
  | '\n' :: rest => some ((), rest)
  | '\r' :: '\n' :: rest => some ((), rest)
  | _ => none

def comment : Reader Unit
  | '#' :: rest => some ((), rest.dropWhile isPlain)
  | _ => none

/-- A comment may close a line. -/
def skipComment (s : List Char) : List Char :=
  match comment s with
  | some ((), rest) => rest
  | none => s

/-- The rest of a line on which nothing more stands. -/
def lineEnd : Reader Unit := fun s =>
  match skipComment (skipSpace s) with
  | [] => some ((), [])
  | s => newline s

/-- Space, line ends and comments, as may stand between the items of an array. -/
def skipLines : List Char → List Char :=
  skipMany fun s =>
    match span1 isSpace s with
    | some (_, rest) => some ((), rest)
    | none => newline (skipComment s)

/-! ### Strings on one line -/

def isHex (c : Char) : Bool :=
  '0' ≤ c && c ≤ '9' || 'a' ≤ c && c ≤ 'f' || 'A' ≤ c && c ≤ 'F'

def hexDigit (c : Char) : Nat :=
  if '0' ≤ c && c ≤ '9' then c.toNat - '0'.toNat
  else if 'a' ≤ c && c ≤ 'f' then c.toNat - 'a'.toNat + 10
  else c.toNat - 'A'.toNat + 10

/-- The number spelled by hexadecimal digits. -/
def hexNumber (digits : List Char) : Nat := digits.foldl (fun n c => n * 16 + hexDigit c) 0

/-- A character by its code point in `n` hexadecimal digits. -/
def codePoint (n : Nat) : Reader Char := fun s => do
  let (digits, rest) ← count n isHex s
  let value := hexNumber digits
  if value.isValidChar then some (Char.ofNat value, rest) else none

/-- What follows a backslash. -/
def escape : Reader Char
  | 'b' :: rest => some ('\x08', rest)
  | 't' :: rest => some ('\t', rest)
  | 'n' :: rest => some ('\n', rest)
  | 'f' :: rest => some ('\x0C', rest)
  | 'r' :: rest => some ('\r', rest)
  | '"' :: rest => some ('"', rest)
  | '\\' :: rest => some ('\\', rest)
  | 'u' :: rest => codePoint 4 rest
  | 'U' :: rest => codePoint 8 rest
  | _ => none

/-- One character of a string in double quotes. -/
def basicChar : Reader Char
  | '\\' :: rest => escape rest
  | s => one (fun c => isPlain c && c != '"') s

/-- One character of a string in single quotes. -/
def literalChar : Reader Char := one fun c => isPlain c && c != '\''

/-- A string in double quotes. -/
def basicString : Reader String := fun s => do
  let ((), s) ← char '"' s
  let (cs, s) := many basicChar s
  let ((), s) ← char '"' s
  return (String.ofList cs, s)

/-- A string in single quotes. -/
def literalString : Reader String := fun s => do
  let ((), s) ← char '\'' s
  let (cs, s) := many literalChar s
  let ((), s) ← char '\'' s
  return (String.ofList cs, s)

/-! ### Strings over several lines -/

/-- One or two quotes that do not belong to the end of the string. -/
def innerQuotes (quote : Char) : Reader (List Char) := fun s =>
  let run := s.takeWhile (· = quote)
  if run.length = 1 || run.length = 2 then some (run, s.dropWhile (· = quote)) else none

/-- A backslash at the end of a line takes the line end and all white space after it away. -/
def joinedLine : Reader Unit := fun s => do
  let ((), s) ← char '\\' s
  let ((), s) ← newline (skipSpace s)
  return ((), skipMany (either newline fun s => (one isSpace s).map fun (_, rest) => ((), rest)) s)

/-- Something of a string in three double quotes. -/
def basicPiece : Reader (List Char) := fun s =>
  match joinedLine s, newline s with
  | some ((), rest), _ => some ([], rest)
  | none, some ((), rest) => some (['\n'], rest)
  | none, none =>
    match basicChar s with
    | some (c, rest) => some ([c], rest)
    | none => innerQuotes '"' s

/-- Something of a string in three single quotes. -/
def literalPiece : Reader (List Char) := fun s =>
  match newline s, literalChar s with
  | some ((), rest), _ => some (['\n'], rest)
  | none, some (c, rest) => some ([c], rest)
  | none, none => innerQuotes '\'' s

/-- The end of a string: three quotes, before which one or two more belong to the string. -/
def closingQuotes (quote : Char) : Reader (List Char) := fun s =>
  let run := (s.takeWhile (· = quote)).length
  if run < 3 then none
  else
    let inner := min (run - 3) 2
    some (List.replicate inner quote, s.drop (inner + 3))

/-- A string in three quotes of a kind. A line end right after them does not count. -/
def longString (quote : Char) (piece : Reader (List Char)) : Reader String := fun s => do
  let ((), s) ← exactly [quote, quote, quote] s
  let (_, s) ← optional newline s
  let (pieces, s) := many piece s
  let (last, s) ← closingQuotes quote s
  return (String.ofList (pieces.flatten ++ last), s)

/-- A string of any kind. -/
def anyString : Reader String
  | s@('"' :: '"' :: '"' :: _) => longString '"' basicPiece s
  | s@('"' :: _) => basicString s
  | s@('\'' :: '\'' :: '\'' :: _) => longString '\'' literalPiece s
  | s => literalString s

/-!
## Numbers, dates and times

Integers have 64 bits and a sign. Of floats, dates and times only the form is checked, and that a
float is not above the largest double and that a day exists.
-/

def isDigit (c : Char) : Bool := '0' ≤ c && c ≤ '9'

/-- Digits of a class, between any two of which an underscore may stand. -/
def digits (p : Char → Bool) : Reader (List Char) := fun s => do
  let (first, s) ← one p s
  let (more, s) := many (fun s => do
    let (_, s) ← optional (char '_') s
    one p s) s
  return (first :: more, s)

def sign : Reader Bool
  | '-' :: rest => some (true, rest)
  | '+' :: rest => some (false, rest)
  | s => some (false, s)

/-- Decimal digits without a needless zero in front. -/
def decimal : Reader (List Char)
  | '0' :: rest => some (['0'], rest)
  | s => digits isDigit s

/-- The number spelled in a base. -/
def numberIn (base : Nat) (ds : List Char) : Nat := ds.foldl (fun n c => n * base + hexDigit c) 0

/-- The number spelled in a base, or `bound` if it is larger. -/
def numberUpTo (bound base : Nat) (ds : List Char) : Nat :=
  ds.foldl (fun n c => min bound (n * base + hexDigit c)) 0

/-- Is `n` a signed integer of 64 bits? -/
def fits (n : Int) : Bool := -0x8000000000000000 ≤ n && n < 0x8000000000000000

/-- A number that no integer reaches. -/
def beyondInteger : Nat := 0x10000000000000000

/-- Digits after a mark for their base. -/
def basedInteger (base : Nat) (p : Char → Bool) : Reader Int := fun s => do
  let (ds, s) ← digits p s
  return ((numberUpTo beyondInteger base ds : Int), s)

def plainInteger : Reader Int := fun s => do
  let (negative, s) ← sign s
  let (ds, s) ← decimal s
  let n : Int := numberUpTo beyondInteger 10 ds
  return (if negative then -n else n, s)

def integer : Reader Int := fun s => do
  let (n, s) ← match s with
    | '0' :: 'x' :: rest => basedInteger 16 isHex rest
    | '0' :: 'o' :: rest => basedInteger 8 (fun c => '0' ≤ c && c ≤ '7') rest
    | '0' :: 'b' :: rest => basedInteger 2 (fun c => c = '0' || c = '1') rest
    | s => plainInteger s
  if fits n then some (n, s) else none

/-! ### Floats -/

/-- The least number that a double cannot hold, even rounded: half a step above the largest. -/
def beyondDouble : Nat := Nat.pow 2 1024 - Nat.pow 2 970

/-- Is the number of the decimal digits `ds`, times `10 ^ exponent`, too large for a double? The
count of digits decides all but the close cases. -/
def tooLarge (ds : List Char) (exponent : Int) : Bool :=
  let ds := ds.dropWhile (· = '0')
  let magnitude := ds.length + exponent
  if ds.isEmpty || magnitude < 300 then false
  else if 400 < magnitude then true
  else if 0 ≤ exponent then beyondDouble ≤ numberIn 10 ds * Nat.pow 10 exponent.toNat
  else beyondDouble * Nat.pow 10 (-exponent).toNat ≤ numberIn 10 ds

/-- The digits after a decimal point. -/
def fraction : Reader (List Char) := fun s => do
  let ((), s) ← char '.' s
  digits isDigit s

def exponent : Reader Int := fun s => do
  let (_, s) ← one (fun c => c = 'e' || c = 'E') s
  let (negative, s) ← sign s
  let (ds, s) ← digits isDigit s
  let n : Int := numberUpTo beyondInteger 10 ds
  return (if negative then -n else n, s)

/-- A number with a fraction, an exponent or both. -/
def finiteFloat : Reader Unit := fun s => do
  let (negative, s) ← sign s
  let (whole, s) ← decimal s
  let (part, s) ← optional fraction s
  let (power, s) ← optional exponent s
  if part.isNone && power.isNone then none
  else
    let part := part.getD []
    if !negative && tooLarge (whole ++ part) (power.getD 0 - part.length) then none
    else some ((), s)

def specialFloat : Reader Unit := fun s => do
  let (_, s) ← sign s
  either (exactly ['i', 'n', 'f']) (exactly ['n', 'a', 'n']) s

def float : Reader Unit := either finiteFloat specialFloat

/-! ### Dates and times -/

/-- A number of exactly `width` digits. -/
def fixedNumber (width : Nat) : Reader Nat := fun s => do
  let (ds, s) ← count width isDigit s
  return (numberIn 10 ds, s)

def daysIn (year month : Nat) : Nat :=
  if month = 2 then
    if year % 4 = 0 && (year % 100 != 0 || year % 400 = 0) then 29 else 28
  else if [4, 6, 9, 11].contains month then 30
  else 31

def date : Reader Unit := fun s => do
  let (year, s) ← fixedNumber 4 s
  let ((), s) ← char '-' s
  let (month, s) ← fixedNumber 2 s
  let ((), s) ← char '-' s
  let (day, s) ← fixedNumber 2 s
  if 1 ≤ month && month ≤ 12 && 1 ≤ day && day ≤ daysIn year month then some ((), s) else none

/-- Hours and minutes. -/
def clock : Reader Unit := fun s => do
  let (hour, s) ← fixedNumber 2 s
  let ((), s) ← char ':' s
  let (minute, s) ← fixedNumber 2 s
  if hour < 24 && minute < 60 then some ((), s) else none

/-- A time of day. A minute may have a leap second. -/
def time : Reader Unit := fun s => do
  let ((), s) ← clock s
  let ((), s) ← char ':' s
  let (second, s) ← fixedNumber 2 s
  let (_, s) ← optional (fun s => do
    let ((), s) ← char '.' s
    span1 isDigit s) s
  if second ≤ 60 then some ((), s) else none

def zone : Reader Unit := fun s => do
  let (mark, s) ← one (['Z', 'z', '+', '-'].contains ·) s
  if mark = '+' || mark = '-' then clock s else some ((), s)

def dateAndTime : Reader Unit := fun s => do
  let ((), s) ← date s
  let (_, s) ← optional (fun s => do
    let (_, s) ← one (['T', 't', ' '].contains ·) s
    let ((), s) ← time s
    optional zone s) s
  return ((), s)

def dateTime : Reader Unit := either dateAndTime time

/-- A number, a date or a time. -/
def numberOrDate : Reader Value := fun s =>
  match dateTime s, float s with
  | some ((), rest), _ => some (.dateTime, rest)
  | none, some ((), rest) => some (.float, rest)
  | none, none => (integer s).map fun (n, rest) => (.integer n, rest)

end Chaincode.Toml
