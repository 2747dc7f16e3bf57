import Chaincode.Toml.Value

/-!
# TOML documents

A document is a run of lines: headers and key and value pairs. Reading it answers its root table, or
nothing if a line is malformed or a key is given twice.
-/

namespace Chaincode.Toml

open Reader

/-- How many arrays and inline tables may lie inside each other, and how many parts a key may
have. -/
def maxNesting : Nat := 79

/-! ## Keys and values -/

def isBareKeyChar (c : Char) : Bool := c.isAlphanum || c = '-' || c = '_'

def simpleKey : Reader String
  | s@('"' :: _) => basicString s
  | s@('\'' :: _) => literalString s
  | s => (span1 isBareKeyChar s).map fun (cs, rest) => (String.ofList cs, rest)

/-- A key of one or more parts with points between them. -/
def key : Reader (List String) := fun s => do
  let (parts, rest) ← separated '.' (fun s => do
    let (part, rest) ← simpleKey (skipSpace s)
    return (part, skipSpace rest)) s
  if parts.length ≤ maxNesting then some (parts, rest) else none

/-- A key, a sign of equality and a value. -/
def pair (value : Reader Value) : Reader (List String × Value) := fun s => do
  let (path, s) ← key s
  let ((), s) ← char '=' s
  let (v, s) ← value (skipSpace s)
  return ((path, v), s)

/-- The items of an array and its end. A comma may follow the last item. -/
def arrayItems (value : Reader Value) : Reader (List Value) := fun s => do
  let (items, s) := (separated ',' (fun s => do
    let (v, rest) ← value (skipLines s)
    return (v, skipLines rest)) s).getD ([], s)
  let (_, s) ← if items.isEmpty then some (none, s) else optional (char ',') s
  let ((), s) ← char ']' (skipLines s)
  return (items, s)

/-- The pairs of an inline table and its end. -/
def inlinePairs (value : Reader Value) : Reader (List (List String × Value)) := fun s => do
  let (pairs, s) := (separated ',' (fun s => do
    let (p, rest) ← pair value s
    return (p, skipSpace rest)) s).getD ([], s)
  let ((), s) ← char '\x7d' (skipSpace s)
  return (pairs, s)

/-- A value in which at most `nesting` arrays and inline tables lie inside each other. -/
def value : (nesting : Nat) → Reader Value
  | nesting, s =>
    match nesting, s with
    | n + 1, '[' :: rest =>
      (arrayItems (value n) rest).map fun (items, rest) => (.array items, rest)
    | n + 1, '\x7b' :: rest => do
      let (pairs, rest) ← inlinePairs (value n) rest
      let entries ← Entries.insertPairs [] pairs
      return (.table .inline entries, rest)
    | _, 't' :: _ => (exactly ['t', 'r', 'u', 'e'] s).map fun (_, rest) => (.boolean true, rest)
    | _, 'f' :: _ =>
      (exactly ['f', 'a', 'l', 's', 'e'] s).map fun (_, rest) => (.boolean false, rest)
    | _, '"' :: _ => (anyString s).map fun (t, rest) => (.text t, rest)
    | _, '\'' :: _ => (anyString s).map fun (t, rest) => (.text t, rest)
    | _, s => numberOrDate s

/-! ## Lines -/

inductive Line where
  | blank
  | pair (path : List String) (v : Value)
  | header (path : List String)
  /-- The header of one of several tables of one name. -/
  | repeatedHeader (path : List String)

def lineContent : Reader Line
  | '[' :: '[' :: rest => do
    let (path, s) ← key rest
    let ((), s) ← exactly [']', ']'] s
    return (.repeatedHeader path, s)
  | '[' :: rest => do
    let (path, s) ← key rest
    let ((), s) ← char ']' s
    return (.header path, s)
  | s => (pair (value maxNesting) s).map fun ((path, v), rest) => (.pair path v, rest)

/-- One line of a document. -/
def line : Reader Line := fun s =>
  match lineEnd s with
  | some ((), rest) => some (.blank, rest)
  | none => do
    let (content, rest) ← lineContent (skipSpace s)
    let ((), rest) ← lineEnd rest
    return (content, rest)

/-! ## Tables -/

/-- A header with the pairs below it; the pairs before the first header have none. -/
structure Section where
  header : Option Line
  pairs : List (List String × Value)

/-- Splits lines at their headers. -/
def sections : List Line → Section × List Section
  | [] => (⟨none, []⟩, [])
  | .blank :: rest => sections rest
  | .pair path v :: rest =>
    let (first, more) := sections rest
    ({ first with pairs := (path, v) :: first.pairs }, more)
  | header :: rest =>
    let (first, more) := sections rest
    (⟨none, []⟩, { first with header := some header } :: more)

/-- Adds a table under a header. A table that was only named on the way to another header may get
its own header later. -/
def openTable (key : String) (pairs : List (List String × Value)) (parent : Entries) :
    Option Entries :=
  parent.alter key fun
    | none => (Entries.insertPairs [] pairs).map (.table .header)
    | some (.table .implicit entries) => (Entries.insertPairs entries pairs).map (.table .header)
    | some _ => none

/-- Adds one of several tables of one name. -/
def openRepeated (key : String) (pairs : List (List String × Value)) (parent : Entries) :
    Option Entries :=
  parent.alter key fun
    | none => (Entries.insertPairs [] pairs).map fun entries => .tables [.table .header entries]
    | some (.tables items) =>
      (Entries.insertPairs [] pairs).map fun entries => .tables (.table .header entries :: items)
    | some _ => none

/-- Adds a section to the root table. -/
def addSection (root : Entries) (part : Section) : Option Entries :=
  match part.header with
  | some (.header path) => do
    let key ← path.getLast?
    Entries.alterAt false (fun _ parent => openTable key part.pairs parent) path.dropLast .header
      root
  | some (.repeatedHeader path) => do
    let key ← path.getLast?
    Entries.alterAt false (fun _ parent => openRepeated key part.pairs parent) path.dropLast .header
      root
  | _ => root.insertPairs part.pairs

/-- The root table of a document. A byte order mark in front does not count. -/
def parse? (text : String) : Option Entries :=
  let s := match text.toList with
    | '\uFEFF' :: rest => rest
    | s => s
  match Reader.many line s with
  | (lines, []) =>
    let (first, more) := sections lines
    (first :: more).foldlM addSection []
  | _ => none

end Chaincode.Toml
