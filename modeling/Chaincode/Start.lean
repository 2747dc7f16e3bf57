import Chaincode.Conversation
import Chaincode.Credentials

/-!
# From settings to a running chaincode

The endpoint that the settings name, and how a chaincode starts on it.
-/

/-!
## Dialing the peer and waiting for it

What a chaincode asks of the network, with every answer taken as given, and what it needs for that. When it
is to dial, everything that can be wrong with the configuration is found before a connection is tried: the
address must be set, the credentials must load if they are wanted, only then the address itself is judged,
and last the TLS library takes the credentials or refuses them. When it is to wait, the address must be one
of a socket.
-/

namespace Chaincode

/-- What a TLS library says to credentials that are to be shown to the server at an address: nothing, or
why it refuses. -/
abbrev TlsSetup := String → Credentials → Except String Unit

/-- The answers of a network whose streams are `S`. -/
structure Network (S : Type) where
  setup : TlsSetup
  /-- A stream to the peer at an address. -/
  connect : String → Except SystemFault S
  /-- The address that is taken up for one that was asked for; port zero leaves the port open. -/
  listen : SocketAddress → Except SystemFault SocketAddress

/-- A network that reaches nobody, has no addresses and takes no credentials. -/
def Network.unreachable {S : Type} : Network S where
  setup _ _ := .error "transport error"
  connect _ := .error .networkUnreachable
  listen _ := .error .networkUnreachable

/-! ### Dialing -/

/-- A peer that can be dialed. -/
structure Dialer where
  address : String
  /-- For a connection on which each side proves who it is. -/
  credentials : Option Credentials
  limit : Nat
  deriving DecidableEq, Repr

namespace Dialer

/-- The URI of a peer. -/
def uri (secure : Bool) (address : String) : String :=
  (if secure then "https://" else "http://") ++ address

/-- The credentials, if the TLS library takes them. -/
def secured (setup : TlsSetup) (address : String) (credentials : Credentials) :
    Except ConfigFault Credentials :=
  match setup address credentials with
  | .ok () => .ok credentials
  | .error detail => .error (.tls ("client TLS setup: " ++ detail))

def ofSettings (setup : TlsSetup) (files : Files) (s : Settings) : Except ConfigFault Dialer :=
  match s.peerAddress? with
  | none => .error .missingPeerAddress
  | some address => do
    let credentials ← if s.peer.tls.enabled then some <$> Credentials.load files s.peer.tls
      else .ok none
    match Uri.check (Bytes.ofText (uri credentials.isSome address)) with
    | .error _ => .error (.invalidAddress address "invalid URI")
    | .ok () => return { address, credentials := ← credentials.mapM (secured setup address),
                         limit := s.messageLimit }

/-- Connects to the peer, once. -/
def dial {S : Type} (network : Network S) (d : Dialer) : Except SessionEnd S :=
  match network.connect d.address with
  | .ok stream => .ok stream
  | .error fault => .error (.transport .dial (.connect (.tcp fault)))

end Dialer

/-! ### Waiting -/

/-- A chaincode that waits for calls. -/
structure Listener where
  name : String
  address : SocketAddress
  limit : Nat
  deriving DecidableEq, Repr

namespace Listener

/-- The configured address. -/
def wanted (s : Settings) : Except ConfigFault SocketAddress :=
  let text := Text.trim s.listenAddress
  match SocketAddress.parse? text with
  | some address => .ok address
  | none => .error (.invalidAddress text SocketAddress.syntaxFault)

/-- Takes up the configured address. -/
def bind {S : Type} (network : Network S) (s : Settings) (name : String) :
    Except SessionEnd Listener :=
  match wanted s with
  | .error fault => .error (.config fault)
  | .ok address =>
    match network.listen address with
    | .error fault => .error (.transport .listen (.io fault))
    | .ok address => .ok { name, address, limit := s.messageLimit }

end Listener

/-!
## Starting a chaincode

From settings to a running chaincode. The identity is settled before anything else. Then the stream
comes from a given source or, without one, the chaincode dials its peer or waits for it as its
settings say. What is asked of the world on the way is recorded.
-/

/-- Something that was asked of the world, or made, while a chaincode started. -/
inductive Event where
  /-- The given source was asked for a stream. -/
  | opened
  | dialed (address : String)
  | bound (address : SocketAddress)
  /-- A handler was built. -/
  | built
  deriving DecidableEq, Repr

/-- A chaincode that has started. -/
inductive Running (σ S : Type) where
  | session (conversation : Conversation σ S)
  /-- Waiting for calls; each gets a session and a handler of its own. -/
  | serving (listener : Listener)

/-- What happened while a chaincode started, and what came of it. -/
structure Startup (α : Type) where
  events : List Event := []
  result : Except SessionEnd α

namespace Startup

variable {α β : Type}

def fail (why : SessionEnd) : Startup α := { result := .error why }

/-- `s` and, if it was successful, what follows. -/
def andThen (s : Startup α) (next : α → Startup β) : Startup β :=
  match s.result with
  | .ok a => { next a with events := s.events ++ (next a).events }
  | .error why => { s with result := .error why }

end Startup

variable {σ S : Type} [MessageStream S]

/-- One session over a stream that exists already. -/
def startOn (name : String) (stream : S) (handler : Handler σ) : Startup (Running σ S) :=
  { events := [.built], result := .ok (.session (.start name stream handler)) }

/-- A stream from a given source. -/
def openWith (source : Except SessionEnd S) : Startup S := { events := [.opened], result := source }

/-- A stream to the configured peer. -/
def dialPeer (network : Network S) (files : Files) (s : Settings) : Startup S :=
  match Dialer.ofSettings network.setup files s with
  | .error fault => .fail (.config fault)
  | .ok dialer => { events := [.dialed dialer.address], result := dialer.dial network }

/-- Waits for the peer on the configured address. -/
def awaitPeer (network : Network S) (s : Settings) (name : String) : Startup (Running σ S) :=
  match Listener.wanted s with
  | .error fault => .fail (.config fault)
  | .ok address =>
    { events := [.bound address], result := (Listener.bind network s name).map .serving }

/-- Starts a chaincode. A source of streams takes the place of the network. -/
def start (network : Network S) (files : Files) (s : Settings)
    (source : Option (Except SessionEnd S)) (handler : Handler σ) : Startup (Running σ S) :=
  match s.identity with
  | .error fault => .fail (.config fault)
  | .ok name =>
    match source with
    | some source => (openWith source).andThen (startOn name · handler)
    | none =>
      match s.mode with
      | .dial _ => (dialPeer network files s).andThen (startOn name · handler)
      | .listen _ => awaitPeer network s name

end Chaincode
