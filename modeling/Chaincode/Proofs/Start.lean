import Chaincode.Call
import Chaincode.Proofs.Conversation.Ledger
import Chaincode.Proofs.Endpoint

/-!
# How a chaincode starts

`Starts` lists the ways in which a start goes, each with everything that was asked of the world
(`starts_start`). The identity comes before all else. A given source is asked once and stands in for all
that the settings say of the network, so that a chaincode started with one shows what a session over its
stream shows, and nothing but the name matters (`identity_comes_first`).
-/

namespace Chaincode

namespace Settings

variable {s : Settings} {name : String}

/-- **A name counts as it is configured, unless it is blank.** -/
theorem identity_eq_ok_iff : s.identity = .ok name ↔ name = s.name ∧ ¬ Text.AllBlank s.name := by
  rw [identity, ← Text.trim_eq_empty_iff]
  by_cases hblank : Text.trim s.name = ""
  · rw [if_pos hblank]
    simp [hblank]
  · rw [if_neg hblank, Except.ok.injEq, eq_comm]
    simp [hblank]

theorem identity_eq_error_iff {fault : ConfigFault} :
    s.identity = .error fault ↔ fault = .missingIdentity ∧ Text.AllBlank s.name := by
  rw [identity, ← Text.trim_eq_empty_iff]
  by_cases hblank : Text.trim s.name = ""
  · rw [if_pos hblank, Except.error.injEq, eq_comm]
    simp [hblank]
  · rw [if_neg hblank]
    simp [hblank]

end Settings

variable {σ S : Type} {network : Network S} {files : Files} {s : Settings}
  {handler : Handler σ} {source : Option (Except SessionEnd S)} {out : Startup (Running σ S)}

/-- The ways in which a start goes. -/
inductive Starts (network : Network S) (files : Files) (s : Settings) (handler : Handler σ) :
    Option (Except SessionEnd S) → Startup (Running σ S) → Prop where
  | nameless (source : Option (Except SessionEnd S)) (hname : Text.AllBlank s.name) :
      Starts network files s handler source
        { events := [], result := .error (.config .missingIdentity) }
  | unopened (why : SessionEnd) (hname : ¬ Text.AllBlank s.name) :
      Starts network files s handler (some (.error why))
        { events := [.opened], result := .error why }
  | opened (stream : S) (hname : ¬ Text.AllBlank s.name) :
      Starts network files s handler (some (.ok stream))
        { events := [.opened, .built], result := .ok (.session (.start s.name stream handler)) }
  /-- The settings do not allow to dial. -/
  | undialed (fault : ConfigFault) (hname : ¬ Text.AllBlank s.name)
      (hpeer : ¬ Text.AllBlank s.peer.address) (hdialer : Dialer.ofSettings network.setup files s = .error fault) :
      Starts network files s handler none { events := [], result := .error (.config fault) }
  | unreached (dialer : Dialer) (fault : SystemFault) (hname : ¬ Text.AllBlank s.name)
      (hpeer : ¬ Text.AllBlank s.peer.address) (hdialer : Dialer.ofSettings network.setup files s = .ok dialer)
      (hconnect : network.connect (Text.trim s.peer.address) = .error fault) :
      Starts network files s handler none
        { events := [.dialed (Text.trim s.peer.address)]
          result := .error (.transport .dial (.connect (.tcp fault))) }
  | dialed (dialer : Dialer) (stream : S) (hname : ¬ Text.AllBlank s.name)
      (hpeer : ¬ Text.AllBlank s.peer.address) (hdialer : Dialer.ofSettings network.setup files s = .ok dialer)
      (hconnect : network.connect (Text.trim s.peer.address) = .ok stream) :
      Starts network files s handler none
        { events := [.dialed (Text.trim s.peer.address), .built]
          result := .ok (.session (.start s.name stream handler)) }
  /-- The settings spell no address to wait on. -/
  | unspelled (hname : ¬ Text.AllBlank s.name) (hpeer : Text.AllBlank s.peer.address)
      (hparse : SocketAddress.parse? (Text.trim s.listenAddress) = none) :
      Starts network files s handler none
        { events := []
          result := .error (.config (.invalidAddress (Text.trim s.listenAddress)
            SocketAddress.syntaxFault)) }
  | taken (address : SocketAddress) (fault : SystemFault) (hname : ¬ Text.AllBlank s.name)
      (hpeer : Text.AllBlank s.peer.address)
      (hparse : SocketAddress.parse? (Text.trim s.listenAddress) = some address)
      (hlisten : network.listen address = .error fault) :
      Starts network files s handler none
        { events := [.bound address], result := .error (.transport .listen (.io fault)) }
  | bound (address address' : SocketAddress) (hname : ¬ Text.AllBlank s.name)
      (hpeer : Text.AllBlank s.peer.address)
      (hparse : SocketAddress.parse? (Text.trim s.listenAddress) = some address)
      (hlisten : network.listen address = .ok address') :
      Starts network files s handler none
        { events := [.bound address]
          result := .ok (.serving { name := s.name, address := address', limit := s.messageLimit }) }

theorem starts_dialing (hname : ¬ Text.AllBlank s.name) (hpeer : ¬ Text.AllBlank s.peer.address) :
    Starts network files s handler none
      ((dialPeer network files s).andThen (startOn s.name · handler)) := by
  unfold dialPeer
  cases hdialer : Dialer.ofSettings network.setup files s with
  | error fault => exact .undialed fault hname hpeer hdialer
  | ok dialer =>
    have haddress : dialer.address = Text.trim s.peer.address := by
      have h := Dialer.address_of_ofSettings hdialer
      rw [Settings.peerAddress?_of_not_blank hpeer] at h
      exact (Option.some.inj h).symm
    simp only [Dialer.dial, haddress]
    cases hconnect : network.connect (Text.trim s.peer.address) with
    | error fault => exact .unreached dialer fault hname hpeer hdialer hconnect
    | ok stream => exact .dialed dialer stream hname hpeer hdialer hconnect

theorem starts_waiting (hname : ¬ Text.AllBlank s.name) (hpeer : Text.AllBlank s.peer.address) :
    Starts network files s handler none (awaitPeer network s s.name) := by
  unfold awaitPeer
  cases hparse : SocketAddress.parse? (Text.trim s.listenAddress) with
  | none =>
    simp only [Listener.wanted_of_parse_none hparse]
    exact .unspelled hname hpeer hparse
  | some address =>
    have hwanted := Listener.wanted_of_parse hparse
    simp only [hwanted]
    cases hlisten : network.listen address with
    | error fault =>
      rw [Listener.bind_of_taken hwanted hlisten]
      exact .taken address fault hname hpeer hparse hlisten
    | ok address' =>
      rw [Listener.bind_of_free hwanted hlisten]
      exact .bound address address' hname hpeer hparse hlisten

/-- **A start goes in one of these ways.** -/
theorem starts_start [MessageStream S] :
    Starts network files s handler source (start network files s source handler) := by
  unfold start
  cases hidentity : s.identity with
  | error fault =>
    obtain ⟨rfl, hname⟩ := Settings.identity_eq_error_iff.1 hidentity
    exact .nameless source hname
  | ok name =>
    obtain ⟨rfl, hname⟩ := Settings.identity_eq_ok_iff.1 hidentity
    cases source with
    | some source =>
      cases source with
      | error why => exact .unopened why hname
      | ok stream => exact .opened stream hname
    | none =>
      by_cases hpeer : Text.AllBlank s.peer.address
      · simp only [Settings.mode, Settings.peerAddress?_of_blank hpeer]
        exact starts_waiting hname hpeer
      · simp only [Settings.mode, Settings.peerAddress?_of_not_blank hpeer]
        exact starts_dialing hname hpeer

namespace Starts

theorem one_way (h : Starts network files s handler source out) :
    (∀ address, .dialed address ∈ out.events → source = none ∧ ¬ Text.AllBlank s.peer.address ∧
      address = Text.trim s.peer.address) ∧
    ∀ address, .bound address ∈ out.events → source = none ∧ Text.AllBlank s.peer.address := by
  cases h <;> simp_all

theorem built_iff (h : Starts network files s handler source out) :
    .built ∈ out.events ↔ ∃ c, out.result = .ok (.session c) := by
  cases h <;> simp

theorem with_source {network' : Network S} {files' : Files} {s' : Settings} {source : Except SessionEnd S}
    (hname : s'.name = s.name) (h : Starts network' files' s' handler (some source) out) :
    Starts network files s handler (some source) out := by
  cases h with
  | nameless _ hblank => exact .nameless _ (hname ▸ hblank)
  | unopened why hgiven => exact .unopened why (hname ▸ hgiven)
  | opened stream hgiven =>
    rw [hname] at hgiven ⊢
    exact .opened stream hgiven

theorem unique {out' : Startup (Running σ S)} (h : Starts network files s handler source out)
    (h' : Starts network files s handler source out') : out = out' := by
  cases h <;> cases h' <;> simp_all

end Starts

section Shows

variable [MessageStream S]

/-- What can be seen of a session: what is asked of its stream and by whom, the messages dispatched, and
the end once it has come. -/
structure Sight where
  record : List (Party × Use)
  dispatched : List Envelope
  result? : Option SessionEnd

/-- The chaincode has started a session that is seen like this in some schedule, with some changes of its
stream. -/
def Startup.Shows (out : Startup (Running σ S)) (seen : Sight) : Prop :=
  ∃ c turns d, out.result = .ok (.session c) ∧ c.proceed turns = some d ∧
    seen = ⟨c.record turns, d.session.dispatched, d.session.result?⟩

theorem Startup.Shows.congr {out out' : Startup (Running σ S)} (h : out.result = out'.result)
    (seen : Sight) : out.Shows seen ↔ out'.Shows seen := by
  rw [Shows, Shows, h]

/-- What becomes of a start under a name with a given source. -/
structure StartsSupplied (network : Network S) (files : Files) (s : Settings) (handler : Handler σ) :
    Prop where
  /-- The fault of the source is returned as it is, before a handler is built. -/
  unopened : ∀ why, start network files s (some (.error why)) handler =
    { events := [.opened], result := .error why }
  /-- The source is asked once and before all else. -/
  events : ∀ stream, (start network files s (some (.ok stream)) handler).events =
    .opened :: (startOn s.name stream handler).events
  result : ∀ stream, (start network files s (some (.ok stream)) handler).result =
    (startOn s.name stream handler).result
  /-- In every schedule its stream shows what a stream that exists already shows, under the name as it is
  configured. -/
  shows : ∀ stream seen, (start network files s (some (.ok stream)) handler).Shows seen ↔
    (startOn s.name stream handler).Shows seen

/-- What becomes of a start under a name with a peer to dial. -/
structure StartsDialing (network : Network S) (files : Files) (s : Settings) (handler : Handler σ) :
    Prop where
  undialed : ∀ fault, Dialer.ofSettings network.setup files s = .error fault →
    start network files s none handler = { events := [], result := .error (.config fault) }
  unreached : ∀ dialer fault, Dialer.ofSettings network.setup files s = .ok dialer →
    network.connect (Text.trim s.peer.address) = .error fault → start network files s none handler =
      { events := [.dialed (Text.trim s.peer.address)]
        result := .error (.transport .dial (.connect (.tcp fault))) }
  dialed : ∀ dialer stream, Dialer.ofSettings network.setup files s = .ok dialer →
    network.connect (Text.trim s.peer.address) = .ok stream → start network files s none handler =
      { events := [.dialed (Text.trim s.peer.address), .built]
        result := .ok (.session (.start s.name stream handler)) }
  /-- Without credentials an address that makes a URI is all it takes to have a dialer, -/
  plain : s.peer.tls.enabled = false →
    Uri.check (Bytes.ofText ("http://" ++ Text.trim s.peer.address)) = .ok () →
      ∃ dialer, Dialer.ofSettings network.setup files s = .ok dialer
  /-- and with them, sound files that the TLS library takes. -/
  secure : s.peer.tls.enabled = true → (∀ role, Credentials.Sound files s.peer.tls role) →
    Uri.check (Bytes.ofText ("https://" ++ Text.trim s.peer.address)) = .ok () →
    (∀ credentials, Credentials.FoundIn files s.peer.tls credentials →
      network.setup (Text.trim s.peer.address) credentials = .ok ()) →
        ∃ dialer, Dialer.ofSettings network.setup files s = .ok dialer

/-- What becomes of a start under a name with no peer to dial. -/
structure StartsWaiting (network : Network S) (files : Files) (s : Settings) (handler : Handler σ) :
    Prop where
  unspelled : SocketAddress.parse? (Text.trim s.listenAddress) = none →
    start network files s none handler =
      { events := []
        result := .error (.config (.invalidAddress (Text.trim s.listenAddress)
          SocketAddress.syntaxFault)) }
  taken : ∀ address fault, SocketAddress.parse? (Text.trim s.listenAddress) = some address →
    network.listen address = .error fault → start network files s none handler =
      { events := [.bound address], result := .error (.transport .listen (.io fault)) }
  bound : ∀ address address', SocketAddress.parse? (Text.trim s.listenAddress) = some address →
    network.listen address = .ok address' → start network files s none handler =
      { events := [.bound address]
        result := .ok (.serving { name := s.name, address := address', limit := s.messageLimit }) }

/-- The identity comes before all else, and a given source stands in for the network. -/
structure IdentityFirst (network : Network S) (files : Files) (s : Settings) (handler : Handler σ) :
    Prop where
  /-- Without a name nothing is asked of the world and nothing is built. -/
  nameless : Text.AllBlank s.name → ∀ source, start network files s source handler =
    { events := [], result := .error (.config .missingIdentity) }
  supplied : ¬ Text.AllBlank s.name → StartsSupplied network files s handler
  /-- Without a source the chaincode dials exactly if its peer's address is not blank. -/
  dialing : ¬ Text.AllBlank s.name → ¬ Text.AllBlank s.peer.address →
    StartsDialing network files s handler
  waiting : ¬ Text.AllBlank s.name → Text.AllBlank s.peer.address → StartsWaiting network files s handler
  /-- With a source nothing but the name makes a difference, in the settings, the files or the network. -/
  indifferent : ∀ network' files' s' source, s'.name = s.name →
    start network' files' s' (some source) handler = start network files s (some source) handler
  /-- It is never both ways, -/
  dialed : ∀ source address, .dialed address ∈ (start network files s source handler).events →
    source = none ∧ ¬ Text.AllBlank s.peer.address ∧ address = Text.trim s.peer.address
  bound : ∀ source address, .bound address ∈ (start network files s source handler).events →
    source = none ∧ Text.AllBlank s.peer.address
  /-- and a handler is built only once nothing can go wrong. -/
  built : ∀ source, .built ∈ (start network files s source handler).events ↔
    ∃ c, (start network files s source handler).result = .ok (.session c)

section

variable (hname : ¬ Text.AllBlank s.name)

include hname

theorem startsSupplied : StartsSupplied network files s handler := by
  have hopened : ∀ stream, start network files s (some (.ok stream)) handler =
      { events := [.opened, .built], result := .ok (.session (.start s.name stream handler)) } :=
    fun stream => starts_start.unique (.opened stream hname)
  have hresult : ∀ stream, (start network files s (some (.ok stream)) handler).result =
      (startOn s.name stream handler).result := by
    intro stream
    rw [hopened, startOn]
  refine ⟨fun why => starts_start.unique (.unopened why hname), ?_, hresult, ?_⟩
  · intro stream
    rw [hopened, startOn]
  · exact fun stream => Startup.Shows.congr (hresult stream)

theorem startsDialing (hpeer : ¬ Text.AllBlank s.peer.address) : StartsDialing network files s handler := by
  have haddress := Settings.peerAddress?_of_not_blank hpeer
  constructor
  · exact fun fault hdialer => starts_start.unique (.undialed fault hname hpeer hdialer)
  · intro dialer fault hdialer hconnect
    exact starts_start.unique (.unreached dialer fault hname hpeer hdialer hconnect)
  · intro dialer stream hdialer hconnect
    exact starts_start.unique (.dialed dialer stream hname hpeer hdialer hconnect)
  · exact fun htls huri => ⟨_, Dialer.ofSettings_plain haddress htls huri⟩
  · intro htls hsound huri hsetup
    obtain ⟨credentials, hfound, htaken, -⟩ :=
      (Dialer.dials_ofSettings network.setup files s).of_sound haddress htls hsound huri
    exact ⟨_, htaken (hsetup credentials hfound)⟩

theorem startsWaiting (hpeer : Text.AllBlank s.peer.address) : StartsWaiting network files s handler := by
  constructor
  · exact fun hparse => starts_start.unique (.unspelled hname hpeer hparse)
  · intro address fault hparse hlisten
    exact starts_start.unique (.taken address fault hname hpeer hparse hlisten)
  · intro address address' hparse hlisten
    exact starts_start.unique (.bound address address' hname hpeer hparse hlisten)

end

/-- **The identity comes first, and a given stream stands in for the network.** With a blank name nothing
is asked of the world. Otherwise a given source is asked once; its fault is returned as it is, before a
handler is built, and on its stream the chaincode does what it does on a stream that exists already, under
the name as it is configured. Nothing else in the settings, and nothing in the files or the network, makes
a difference then. Without a source the chaincode dials exactly if its peer's address is not blank, and
waits for the peer otherwise, never both; whatever goes wrong on either way goes wrong before a handler is
built. -/
theorem identity_comes_first (network : Network S) (files : Files) (s : Settings) (handler : Handler σ) :
    IdentityFirst network files s handler where
  nameless hblank source := starts_start.unique (.nameless source hblank)
  supplied := startsSupplied
  dialing := startsDialing
  waiting := startsWaiting
  indifferent _ _ _ _ hs' := (starts_start.with_source hs').unique starts_start
  dialed _ := starts_start.one_way.1
  bound _ := starts_start.one_way.2
  built _ := starts_start.built_iff

/-- White space around a name stays, and that around an address goes. -/
def spacedSettings : Settings where
  name := " mycc\t"
  peer := { address := " peer0:7051\n" }
  listenAddress := "\u2003[::1]:9999 "

/-- A network in which nobody answers and every address is free. -/
def quiet : Network Call where
  setup _ _ := .ok ()
  connect _ := .error .networkUnreachable
  listen address := .ok address

theorem identity_comes_first_spacedSettings :
    start quiet (Files.ofTree []) { spacedSettings with name := "\u3000" }
        (some (.ok (Call.accepted "peer0" 100))) echo =
      { events := [], result := .error (.config .missingIdentity) } ∧
    (start quiet (Files.ofTree []) spacedSettings (some (.ok (Call.accepted "peer0" 100))) echo).result =
      (startOn " mycc\t" (Call.accepted "peer0" 100) echo).result ∧
    start quiet (Files.ofTree []) spacedSettings none echo =
      { events := [.dialed "peer0:7051"]
        result := .error (.transport .dial (.connect (.tcp .networkUnreachable))) } ∧
    start quiet (Files.ofTree []) { spacedSettings with peer.address := "\u3000" } none echo =
      { events := [.bound ⟨.v6 [0, 0, 0, 0, 0, 0, 0, 1], 9999⟩]
        result := .ok (.serving { name := " mycc\t", address := ⟨.v6 [0, 0, 0, 0, 0, 0, 0, 1], 9999⟩
                                  limit := Protocol.defaultLimit }) } := by
  have hnameless := identity_comes_first quiet (Files.ofTree []) { spacedSettings with name := "\u3000" } echo
  have hdials := identity_comes_first quiet (Files.ofTree []) spacedSettings echo
  have hwaits :=
    identity_comes_first quiet (Files.ofTree []) { spacedSettings with peer.address := "\u3000" } echo
  have hname : ¬ Text.AllBlank spacedSettings.name := by decide +kernel
  have hpeer : ¬ Text.AllBlank spacedSettings.peer.address := by decide +kernel
  have haddress : Text.trim spacedSettings.peer.address = "peer0:7051" := by decide +kernel
  have hlisten : SocketAddress.parse? (Text.trim spacedSettings.listenAddress) =
      some ⟨.v6 [0, 0, 0, 0, 0, 0, 0, 1], 9999⟩ := by
    decide +kernel
  obtain ⟨dialer, hdialer⟩ := (hdials.dialing hname hpeer).plain rfl (by decide +kernel)
  have hunreached := (hdials.dialing hname hpeer).unreached dialer .networkUnreachable hdialer rfl
  rw [haddress] at hunreached
  exact ⟨hnameless.nameless (by decide +kernel) _, (hdials.supplied hname).result _, hunreached,
    (hwaits.waiting hname (by decide +kernel)).bound _ _ hlisten rfl⟩

end Shows

end Chaincode
