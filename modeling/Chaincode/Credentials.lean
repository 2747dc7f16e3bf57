import Chaincode.Base64
import Chaincode.Settings

/-!
# Credentials

Sections of PEM, and the three files of them that make up the credentials of a chaincode.
-/

/-!
## PEM

Sections of base64 between a BEGIN line and the END line of the same label, with anything around
them. Sections with labels of no interest are passed over unread. The content of a section is not
looked at.
-/

namespace Chaincode.Pem

/-- What can be wrong with a text of sections. -/
inductive Fault where
  | sectionStart (line : Bytes)
  | sectionEnd (label : Bytes)
  | character (byte : UInt8)
  /-- Padding before the last group of four. -/
  | prematurePadding
  /-- A last group of one symbol, or one that is wrongly padded. -/
  | trailingPadding
  deriving DecidableEq, Repr

def Fault.message : Fault → String
  | sectionStart line => "illegal section start: " ++ Text.quote (Text.lossy line)
  | sectionEnd label => "section end " ++ Text.quote (Text.lossy label) ++ " missing"
  | character byte => "InvalidCharacter(" ++ toString byte.toNat ++ ")"
  | prematurePadding => "PrematurePadding"
  | trailingPadding => "InvalidTrailingPadding"

/-- The kinds of section that are read. -/
inductive Kind where
  | certificate
  | publicKey
  | rsaPrivateKey
  | privateKey
  | ecPrivateKey
  | revocationList
  | certificateRequest
  | encryptedHello
  deriving DecidableEq, Repr

namespace Kind

def all : List Kind :=
  [certificate, publicKey, rsaPrivateKey, privateKey, ecPrivateKey, revocationList,
   certificateRequest, encryptedHello]

def label : Kind → String
  | certificate => "CERTIFICATE"
  | publicKey => "PUBLIC KEY"
  | rsaPrivateKey => "RSA PRIVATE KEY"
  | privateKey => "PRIVATE KEY"
  | ecPrivateKey => "EC PRIVATE KEY"
  | revocationList => "X509 CRL"
  | certificateRequest => "CERTIFICATE REQUEST"
  | encryptedHello => "ECHCONFIG"

def ofLabel? (label : Bytes) : Option Kind := all.find? (Bytes.ofText ·.label = label)

def isPrivateKey : Kind → Bool
  | rsaPrivateKey | privateKey | ecPrivateKey => true
  | _ => false

end Kind

/-- A section and its content. -/
structure Section where
  kind : Kind
  content : Bytes
  deriving DecidableEq, Repr

/-! ### The body of a section -/

def isSpace (b : UInt8) : Bool := b = 32 || 9 ≤ b && b ≤ 13

/-- A symbol's number; padding has none. -/
def number (b : UInt8) : Nat := (Base64.value? b).getD 0

/-- Reads the last group of up to four symbols. It may be padded to four or not; bits that no byte
takes up are not looked at. -/
def decodeGroup (bs : Bytes) : Except Fault Bytes :=
  let n (i : Nat) := number (bs.getD i 0)
  let bytes := Base64.join (n 0) (n 1) (n 2) (n 3)
  match bs.map (· == Base64.pad) with
  | [] => .ok []
  | [false, false, false, false] => .ok bytes
  | [false, false, false, true] | [false, false, false] => .ok (bytes.take 2)
  | [false, false, true, true] | [false, false] => .ok (bytes.take 1)
  | _ => .error .trailingPadding

/-- The first byte that neither is a symbol nor pads. -/
def badSymbol? (bs : Bytes) : Option UInt8 :=
  bs.find? fun b => b != Base64.pad && (Base64.value? b).isNone

/-- Reads symbols eight at a time. Padding within eight is a fault as soon as another symbol
follows them. -/
def decodeSymbols (bs : Bytes) : Except Fault Bytes :=
  match badSymbol? (bs.take 9) with
  | some b => .error (.character b)
  | none =>
    let first := bs.take 4
    let second := (bs.drop 4).take 4
    if bs.drop 8 = [] then
      if second = [] then decodeGroup first
      else if first.contains Base64.pad then .error .prematurePadding
      else do
        let front ← decodeGroup first
        return front ++ (← decodeGroup second)
    else if (bs.take 8).contains Base64.pad then .error .prematurePadding
    else do
      let front ← decodeGroup first
      let middle ← decodeGroup second
      return front ++ middle ++ (← decodeSymbols (bs.drop 8))
termination_by bs.length
decreasing_by
  rename_i h _
  simp only [List.drop_eq_nil_iff, Nat.not_le] at h
  simp only [List.length_drop]
  omega

def decodeBody (bs : Bytes) : Except Fault Bytes := decodeSymbols (bs.filter (!isSpace ·))

/-! ### Sections -/

/-- Splits after every line feed and every carriage return. -/
def lines : Bytes → List Bytes
  | [] => []
  | b :: rest =>
    if b = 10 || b = 13 then [b] :: lines rest
    else match lines rest with
      | [] => [[b]]
      | line :: more => (b :: line) :: more

def dash : UInt8 := 45

def beginMark : Bytes := Bytes.ofText "-----BEGIN "

def endMark (label : Bytes) : Bytes := Bytes.ofText "-----END " ++ label ++ Bytes.ofText "-----"

/-- The label of a BEGIN line: what stands before exactly five dashes at its end. -/
def label? (line : Bytes) : Option Bytes :=
  let tail := (line.reverse.takeWhile fun b => b = dash || b = 10 || b = 13 || b = 32).reverse
  if tail.count dash != 5 then none
  else
    let label := line.take (line.length - (tail.dropWhile (· != dash)).length)
    some (label.drop beginMark.length)

/-- Reads the lines after an open section's BEGIN line and its lines `body`, the last one first, or
those outside a section. A BEGIN line within a section changes its label. Nothing is read after a
fault. -/
def sectionsFrom : Option Bytes → List Bytes → List Bytes → List (Except Fault Section)
  | none, _, [] => []
  | some label, _, [] => [.error (.sectionEnd label)]
  | current, body, line :: rest =>
    if beginMark.isPrefixOf line then
      match label? line with
      | none => [.error (.sectionStart line)]
      | some label => sectionsFrom (some label) body rest
    else match current with
      | none => sectionsFrom none body rest
      | some label =>
        if (endMark label).isPrefixOf line then
          match Kind.ofLabel? label with
          | none => sectionsFrom none [] rest
          | some kind =>
            match decodeBody body.reverse.flatten with
            | .error e => [.error e]
            | .ok content => .ok ⟨kind, content⟩ :: sectionsFrom none [] rest
        else sectionsFrom (some label) (line :: body) rest

/-- The sections of a text up to its first fault. -/
def sections (text : Bytes) : List (Except Fault Section) := sectionsFrom none [] (lines text)

/-- The first private key. What follows it is not read. -/
def firstKey : List (Except Fault Section) → Except Fault (Option Section)
  | [] => .ok none
  | .error e :: _ => .error e
  | .ok part :: rest => if part.kind.isPrivateKey then .ok (some part) else firstKey rest

/-- All certificates; the whole text must be well-formed. -/
def certificates (parts : List (Except Fault Section)) : Except Fault (List Section) :=
  (parts.mapM id).map (·.filter (·.kind = .certificate))

end Chaincode.Pem

/-!
## Credentials

The private key and the certificates for a mutually authenticated connection, as PEM. Key and
certificate files hold base64 of it, the root file PEM itself. All three are checked before anything is
dialed: first that their paths are set, then that they can be read, then what they hold; each time the
key first, the certificate second and the root last.
-/

namespace Chaincode

structure Credentials where
  key : Bytes
  certificate : Bytes
  root : Bytes
  deriving DecidableEq, Repr

namespace Credentials

def required (what : String) : Option String → Except ConfigFault String
  | some path => .ok path
  | none => .error (.tls (what ++ " must be set when TLS is enabled"))

def readFile (files : Files) (path : String) : Except ConfigFault Bytes :=
  match files.read path with
  | .ok content => .ok content
  | .error fault => .error (.readFailed path fault)

/-- The content of a file of base64. -/
def readBase64 (files : Files) (path : String) : Except ConfigFault Bytes :=
  match readFile files path with
  | .error e => .error e
  | .ok content =>
    match Base64.decodeSpaced content with
    | .ok bytes => .ok bytes
    | .error fault => .error (.tls (path ++ " is not base64: " ++ fault.message))

def keyIn (path : String) (pem : Bytes) : Except ConfigFault Pem.Section :=
  match Pem.firstKey (Pem.sections pem) with
  | .error fault =>
    .error (.tls ("failed to parse private key in " ++ path ++ ": " ++ fault.message))
  | .ok none => .error (.tls ("no private key found in " ++ path))
  | .ok (some key) => .ok key

def certificatesIn (path : String) (pem : Bytes) : Except ConfigFault (List Pem.Section) :=
  match Pem.certificates (Pem.sections pem) with
  | .error fault =>
    .error (.tls ("failed to parse certificates in " ++ path ++ ": " ++ fault.message))
  | .ok [] => .error (.tls ("no certificate found in " ++ path))
  | .ok certificates => .ok certificates

/-- Loads the files that the settings name. -/
def load (files : Files) (tls : Settings.Tls) : Except ConfigFault Credentials := do
  let keyPath ← required "client key path" tls.keyPath
  let certPath ← required "client certificate path" tls.certPath
  let rootPath ← required "root certificate file" tls.rootPath
  let keyPem ← readBase64 files keyPath
  let certPem ← readBase64 files certPath
  let rootPem ← readFile files rootPath
  let _ ← keyIn keyPath keyPem
  let _ ← certificatesIn certPath certPem
  let _ ← certificatesIn rootPath rootPem
  return { key := keyPem, certificate := certPem, root := rootPem }

end Credentials

end Chaincode
