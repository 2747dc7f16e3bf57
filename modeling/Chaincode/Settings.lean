import Chaincode.Fault
import Chaincode.Toml.Document

/-!
# Settings

What a chaincode is configured with, the values that hold unless something else is given, and what
follows from them: the identity, and whether the chaincode dials its peer or waits for it.
-/

namespace Chaincode

/-- The files for a mutually authenticated connection. -/
structure Settings.Tls where
  enabled : Bool := false
  keyPath : Option String := none
  certPath : Option String := none
  rootPath : Option String := none
  deriving DecidableEq, Repr

/-- How idle connections are probed, in seconds. -/
structure Settings.Keepalive where
  interval : Nat := 60
  timeout : Nat := 20
  deriving DecidableEq, Repr

/-- The peer, and how to reach it. -/
structure Settings.Peer where
  address : String := ""
  /-- Seconds after which dialing is given up. -/
  dialTimeout : Nat := 10
  tls : Settings.Tls := {}
  keepalive : Settings.Keepalive := {}
  deriving DecidableEq, Repr

structure Settings where
  /-- The name under which the chaincode registers. -/
  name : String := ""
  peer : Settings.Peer := {}
  listenAddress : String := Protocol.defaultListenAddress
  /-- The size in bytes up to which messages are sent and received. -/
  messageLimit : Nat := Protocol.defaultLimit
  deriving DecidableEq, Repr

/-- How a chaincode and its peer come together. -/
inductive Mode where
  | dial (address : String)
  | listen (address : String)
  deriving DecidableEq, Repr

namespace Settings

/-- The name as it was configured; a blank one is none. -/
def identity (s : Settings) : Except ConfigFault String :=
  if Text.trim s.name = "" then .error .missingIdentity else .ok s.name

/-- The peer's address without white space around it, unless it is blank. -/
def peerAddress? (s : Settings) : Option String :=
  let address := Text.trim s.peer.address
  if address = "" then none else some address

/-- A chaincode dials if it knows where its peer is. -/
def mode (s : Settings) : Mode :=
  match s.peerAddress? with
  | some address => .dial address
  | none => .listen (Text.trim s.listenAddress)

end Settings

end Chaincode

/-!
## Settings from the environment

The variables that stand above the configuration file. A variable that is set counts even if it is
empty.
-/

namespace Chaincode.Settings

def nameVariable : String := "CORE_CHAINCODE_ID_NAME"

def peerAddressVariable : String := "CORE_PEER_ADDRESS"

def listenAddressVariable : String := "CHAINCODE_SERVER_ADDRESS"

def tlsVariable : String := "CORE_PEER_TLS_ENABLED"

def keyPathVariable : String := "CORE_TLS_CLIENT_KEY_PATH"

def certPathVariable : String := "CORE_TLS_CLIENT_CERT_PATH"

def rootPathVariable : String := "CORE_PEER_TLS_ROOTCERT_FILE"

/-- Which values switch TLS on; all others switch it off. -/
def isOn (value : String) : Bool := value = "true" || value = "1"

def Tls.override (env : Environment) (tls : Tls) : Tls where
  enabled := ((env tlsVariable).map isOn).getD tls.enabled
  keyPath := env keyPathVariable <|> tls.keyPath
  certPath := env certPathVariable <|> tls.certPath
  rootPath := env rootPathVariable <|> tls.rootPath

/-- Settings with the variables of an environment put above them. -/
def override (env : Environment) (s : Settings) : Settings :=
  { s with
    name := (env nameVariable).getD s.name
    peer := { s.peer with
      address := (env peerAddressVariable).getD s.peer.address
      tls := s.peer.tls.override env }
    listenAddress := (env listenAddressVariable).getD s.listenAddress }

end Chaincode.Settings

/-!
## Settings from a TOML document

Every key may be left out and unknown keys are passed over, but a key that is there must hold a
value of its type. A group of settings is a table; its settings may also be listed in an array, in
their order.
-/

namespace Chaincode.Toml.Value

/-- The settings of a group by their names. A date has none; it passes for a table with keys that
are unknown. -/
def member? (names : List String) (v : Value) : Option (String → Option Value) :=
  match v with
  | .table _ entries => some (Entries.get? entries)
  | .array items => some (Entries.get? (names.zip items))
  | .tables items => some (Entries.get? (names.zip items.reverse))
  | .dateTime => some fun _ => none
  | _ => none

def asText : Value → Option String
  | .text s => some s
  | _ => none

def asNat : Value → Option Nat
  | .integer n => if 0 ≤ n then some n.toNat else none
  | _ => none

def asBool : Value → Option Bool
  | .boolean b => some b
  | _ => none

end Chaincode.Toml.Value

namespace Chaincode.Settings

open Toml (Value)

/-- What `read` makes of a value, or a default where there is none. -/
def orDefault {α : Type} (default : α) (read : Value → Option α) : Option Value → Option α
  | none => some default
  | some v => read v

def Tls.ofValue? (v : Value) : Option Tls := do
  let member ← v.member? ["enabled", "client_key_path", "client_cert_path", "root_cert_path"]
  let path (name : String) : Option (Option String) :=
    orDefault none (fun v => v.asText.map some) (member name)
  let default : Tls := {}
  return {
    enabled := ← orDefault default.enabled Value.asBool (member "enabled")
    keyPath := ← path "client_key_path"
    certPath := ← path "client_cert_path"
    rootPath := ← path "root_cert_path" }

def Keepalive.ofValue? (v : Value) : Option Keepalive := do
  let member ← v.member? ["interval_secs", "timeout_secs"]
  let default : Keepalive := {}
  return {
    interval := ← orDefault default.interval Value.asNat (member "interval_secs")
    timeout := ← orDefault default.timeout Value.asNat (member "timeout_secs") }

def Peer.ofValue? (v : Value) : Option Peer := do
  let member ← v.member? ["address", "dial_timeout_secs", "tls", "keepalive"]
  let default : Peer := {}
  return {
    address := ← orDefault default.address Value.asText (member "address")
    dialTimeout := ← orDefault default.dialTimeout Value.asNat (member "dial_timeout_secs")
    tls := ← orDefault default.tls Tls.ofValue? (member "tls")
    keepalive := ← orDefault default.keepalive Keepalive.ofValue? (member "keepalive") }

/-- The one setting of a group. -/
def single {α : Type} (name : String) (default : α) (read : Value → Option α) (v : Value) :
    Option α := do
  let member ← v.member? [name]
  orDefault default read (member name)

/-- The settings of a document. -/
def ofEntries? (root : Toml.Entries) : Option Settings := do
  let entry := Toml.Entries.get? root
  let default : Settings := {}
  return {
    name := ← orDefault default.name (single "id_name" default.name Value.asText)
      (entry "chaincode")
    peer := ← orDefault default.peer Peer.ofValue? (entry "peer")
    listenAddress := ← orDefault default.listenAddress
      (single "listen_address" default.listenAddress Value.asText) (entry "server")
    messageLimit := ← orDefault default.messageLimit
      (single "max_message_bytes" default.messageLimit Value.asNat) (entry "wire") }

/-- The settings that a text describes. -/
def parse? (text : String) : Option Settings := Toml.parse? text >>= ofEntries?

end Chaincode.Settings

/-!
## Loading settings

Where the configuration file is, and what a chaincode is configured with: the variables of the
environment above the file above the defaults. Only a file that was asked for by name must exist.
-/

namespace Chaincode

/-- A path and a relative path below it. -/
def joinPath (base below : String) : String :=
  if base = "" || base.endsWith "/" then base ++ below else base ++ "/" ++ below

namespace Settings

def locationVariable : String := "CCSHIM_CONFIG"

def configHomeVariable : String := "XDG_CONFIG_HOME"

def homeVariable : String := "HOME"

/-- Where the configuration file is unless it was asked for by name. -/
def location (env : Environment) : String :=
  match env locationVariable with
  | some path => path
  | none =>
    let base := match env configHomeVariable with
      | some base => base
      | none => joinPath ((env homeVariable).getD "/tmp") ".config"
    joinPath base "ccshim/config.toml"

/-- All variables that settings depend on. -/
def variableNames : List String :=
  [locationVariable, configHomeVariable, homeVariable, nameVariable, peerAddressVariable,
   listenAddressVariable, tlsVariable, keyPathVariable, certPathVariable, rootPathVariable]

/-- The settings in a file that must exist. -/
def ofFile (files : Files) (path : String) : Except ConfigFault Settings :=
  match files.readText path with
  | .error fault => .error (.readFailed path fault)
  | .ok text =>
    match parse? text with
    | some s => .ok s
    | none => .error (.parseFailed path)

/-- The settings in the configuration file, if there is one, below those of the environment. -/
def load (files : Files) (env : Environment) : Except ConfigFault Settings :=
  let path := location env
  let below := if files.has path then ofFile files path else .ok {}
  below.map (override env)

end Settings

end Chaincode
