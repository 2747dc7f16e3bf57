import Chaincode.Settings

/-!
# Settings one by one

The settings lie in groups, two of which lie in a third. `Settings.get` takes one of them out, whatever
group it is in, and `written?` finds what a document says of it. `Configures` tells in these terms which
settings a document describes: every group that is there is one, every value that is there is of its
setting's type, and what is not there holds its default, however much of its group is left out. That is
how documents are read (`ofEntries?_eq_some_iff`).
-/

namespace Chaincode

open Toml (Value Entries)

/-- One of the settings. -/
inductive Setting where
  | name
  | peerAddress
  | dialTimeout
  | tlsEnabled
  | keyPath
  | certPath
  | rootPath
  | keepaliveInterval
  | keepaliveTimeout
  | listenAddress
  | messageLimit
  deriving DecidableEq, Repr

namespace Setting

/-- What the setting can hold. -/
def Content : Setting → Type
  | name | peerAddress | listenAddress => String
  | keyPath | certPath | rootPath => Option String
  | tlsEnabled => Bool
  | dialTimeout | keepaliveInterval | keepaliveTimeout | messageLimit => Nat

/-- What a value in a document says of the setting, if it is of the setting's type. -/
def read : (k : Setting) → Value → Option k.Content
  | name | peerAddress | listenAddress => Value.asText
  | keyPath | certPath | rootPath => fun v => v.asText.map some
  | tlsEnabled => Value.asBool
  | dialTimeout | keepaliveInterval | keepaliveTimeout | messageLimit => Value.asNat

/-- The groups of settings in a document. -/
inductive Group where
  | chaincode
  | peer
  | tls
  | keepalive
  | server
  | wire

def group : Setting → Group
  | name => .chaincode
  | peerAddress | dialTimeout => .peer
  | tlsEnabled | keyPath | certPath | rootPath => .tls
  | keepaliveInterval | keepaliveTimeout => .keepalive
  | listenAddress => .server
  | messageLimit => .wire

/-- The key of the setting in its group. -/
def key : Setting → String
  | name => "id_name"
  | peerAddress => "address"
  | dialTimeout => "dial_timeout_secs"
  | tlsEnabled => "enabled"
  | keyPath => "client_key_path"
  | certPath => "client_cert_path"
  | rootPath => "root_cert_path"
  | keepaliveInterval => "interval_secs"
  | keepaliveTimeout => "timeout_secs"
  | listenAddress => "listen_address"
  | messageLimit => "max_message_bytes"

namespace Group

def key : Group → String
  | chaincode => "chaincode"
  | peer => "peer"
  | tls => "tls"
  | keepalive => "keepalive"
  | server => "server"
  | wire => "wire"

/-- The keys of the group, in the order in which an array lists their values. -/
def keys : Group → List String
  | chaincode => ["id_name"]
  | peer => ["address", "dial_timeout_secs", "tls", "keepalive"]
  | tls => ["enabled", "client_key_path", "client_cert_path", "root_cert_path"]
  | keepalive => ["interval_secs", "timeout_secs"]
  | server => ["listen_address"]
  | wire => ["max_message_bytes"]

/-- The members of the group if `value?` stands for it. A group that is not there has no members; what
is there and is no group is not read. -/
def membersOf (g : Group) : Option Value → Option (String → Option Value)
  | none => some fun _ => none
  | some v => v.member? g.keys

/-- The members of the group in a document. -/
def members? (doc : Entries) : Group → Option (String → Option Value)
  | tls => (peer.membersOf (doc.get? peer.key)).bind fun member => tls.membersOf (member tls.key)
  | keepalive =>
    (peer.membersOf (doc.get? peer.key)).bind fun member => keepalive.membersOf (member keepalive.key)
  | g => g.membersOf (doc.get? g.key)

end Group

/-- What is written about the setting in a document. -/
def written? (doc : Entries) (k : Setting) : Option Value := (k.group.members? doc).bind (· k.key)

end Setting

namespace Settings

open Setting (Group)

variable {s s' : Settings} {doc : Entries} {value? : Option Value}

/-- What one of the settings is set to. -/
def get (s : Settings) : (k : Setting) → k.Content
  | .name => s.name
  | .peerAddress => s.peer.address
  | .dialTimeout => s.peer.dialTimeout
  | .tlsEnabled => s.peer.tls.enabled
  | .keyPath => s.peer.tls.keyPath
  | .certPath => s.peer.tls.certPath
  | .rootPath => s.peer.tls.rootPath
  | .keepaliveInterval => s.peer.keepalive.interval
  | .keepaliveTimeout => s.peer.keepalive.timeout
  | .listenAddress => s.listenAddress
  | .messageLimit => s.messageLimit

theorem eq_of_get (h : ∀ k, s.get k = s'.get k) : s = s' := by
  obtain ⟨_, ⟨_, _, ⟨_, _, _, _⟩, ⟨_, _⟩⟩, _, _⟩ := s
  obtain ⟨_, ⟨_, _, ⟨_, _, _, _⟩, ⟨_, _⟩⟩, _, _⟩ := s'
  cases h .name
  cases h .peerAddress
  cases h .dialTimeout
  cases h .tlsEnabled
  cases h .keyPath
  cases h .certPath
  cases h .rootPath
  cases h .keepaliveInterval
  cases h .keepaliveTimeout
  cases h .listenAddress
  cases h .messageLimit
  rfl

/-- The document describes the settings. -/
structure Configures (doc : Entries) (s : Settings) : Prop where
  groups : ∀ g : Group, (g.members? doc).isSome
  settings : ∀ k : Setting,
    orDefault (({} : Settings).get k) k.read (k.written? doc) = some (s.get k)

/-! ## Reading a group -/

/-- To read a group that is not there as its default is to read one without members. -/
theorem orDefault_group {α : Type} {g : Group} {default a : α} {ofValue? : Value → Option α}
    {P : (String → Option Value) → α → Prop}
    (h : ∀ v a, ofValue? v = some a ↔ ∃ member, v.member? g.keys = some member ∧ P member a)
    (hdefault : ∀ a, P (fun _ => none) a ↔ a = default) :
    orDefault default ofValue? value? = some a ↔
      ∃ member, g.membersOf value? = some member ∧ P member a := by
  cases value? with
  | none =>
    rw [orDefault, Option.some.injEq, eq_comm, ← hdefault]
    simp [Group.membersOf]
  | some v => exact h v a

theorem orDefault_single {α : Type} {g : Group} {name : String} {default a : α} {read : Value → Option α}
    (hkeys : g.keys = [name]) : orDefault default (single name default read) value? = some a ↔
      ∃ member, g.membersOf value? = some member ∧ orDefault default read (member name) = some a := by
  refine orDefault_group (P := fun member a => orDefault default read (member name) = some a)
    (fun v a => ?_) (fun a => by simp [orDefault, eq_comm])
  rw [single, Option.bind_eq_bind, Option.bind_eq_some_iff, hkeys]

/-- What the members of the group say of a path. -/
def pathOf : Option Value → Option (Option String) := orDefault none fun v => v.asText.map some

def Tls.SaidBy (member : String → Option Value) (t : Tls) : Prop :=
  orDefault false Value.asBool (member "enabled") = some t.enabled ∧
    pathOf (member "client_key_path") = some t.keyPath ∧
    pathOf (member "client_cert_path") = some t.certPath ∧
    pathOf (member "root_cert_path") = some t.rootPath

def Keepalive.SaidBy (member : String → Option Value) (t : Keepalive) : Prop :=
  orDefault 60 Value.asNat (member "interval_secs") = some t.interval ∧
    orDefault 20 Value.asNat (member "timeout_secs") = some t.timeout

def Peer.SaidBy (member : String → Option Value) (t : Peer) : Prop :=
  orDefault "" Value.asText (member "address") = some t.address ∧
    orDefault 10 Value.asNat (member "dial_timeout_secs") = some t.dialTimeout ∧
    orDefault {} Tls.ofValue? (member "tls") = some t.tls ∧
    orDefault {} Keepalive.ofValue? (member "keepalive") = some t.keepalive

theorem orDefault_tls {t : Tls} : orDefault {} Tls.ofValue? value? = some t ↔
    ∃ member, Group.tls.membersOf value? = some member ∧ t.SaidBy member := by
  refine orDefault_group (fun v t => ?_) (fun t => ?_)
  · constructor
    · intro h
      obtain ⟨member, hmember, h⟩ := Option.bind_eq_some_iff.1 h
      obtain ⟨enabled, henabled, h⟩ := Option.bind_eq_some_iff.1 h
      obtain ⟨keyPath, hkey, h⟩ := Option.bind_eq_some_iff.1 h
      obtain ⟨certPath, hcert, h⟩ := Option.bind_eq_some_iff.1 h
      obtain ⟨rootPath, hroot, h⟩ := Option.bind_eq_some_iff.1 h
      cases h
      exact ⟨member, hmember, henabled, hkey, hcert, hroot⟩
    · rintro ⟨member, hmember, henabled, hkey, hcert, hroot⟩
      simp only [Group.keys, pathOf] at hmember hkey hcert hroot
      simp [Tls.ofValue?, hmember, henabled, hkey, hcert, hroot]
  · obtain ⟨enabled, keyPath, certPath, rootPath⟩ := t
    simp [Tls.SaidBy, pathOf, orDefault, eq_comm]

theorem orDefault_keepalive {t : Keepalive} : orDefault {} Keepalive.ofValue? value? = some t ↔
    ∃ member, Group.keepalive.membersOf value? = some member ∧ t.SaidBy member := by
  refine orDefault_group (fun v t => ?_) (fun t => ?_)
  · obtain ⟨interval, timeout⟩ := t
    simp [Keepalive.ofValue?, Keepalive.SaidBy, Option.bind_eq_some_iff, Group.keys]
  · obtain ⟨interval, timeout⟩ := t
    simp [Keepalive.SaidBy, orDefault, eq_comm]

theorem orDefault_peer {t : Peer} : orDefault {} Peer.ofValue? value? = some t ↔
    ∃ member, Group.peer.membersOf value? = some member ∧ t.SaidBy member := by
  refine orDefault_group (fun v t => ?_) (fun t => ?_)
  · constructor
    · intro h
      obtain ⟨member, hmember, h⟩ := Option.bind_eq_some_iff.1 h
      obtain ⟨address, haddress, h⟩ := Option.bind_eq_some_iff.1 h
      obtain ⟨dialTimeout, hdial, h⟩ := Option.bind_eq_some_iff.1 h
      obtain ⟨tls, htls, h⟩ := Option.bind_eq_some_iff.1 h
      obtain ⟨keepalive, hkeepalive, h⟩ := Option.bind_eq_some_iff.1 h
      cases h
      exact ⟨member, hmember, haddress, hdial, htls, hkeepalive⟩
    · rintro ⟨member, hmember, haddress, hdial, htls, hkeepalive⟩
      simp only [Group.keys] at hmember
      simp [Peer.ofValue?, hmember, haddress, hdial, htls, hkeepalive]
  · obtain ⟨address, dialTimeout, tls, keepalive⟩ := t
    simp [Peer.SaidBy, orDefault, eq_comm]

/-! ## Reading a document -/

theorem settled_of_members? (k : Setting) {member : String → Option Value}
    (h : k.group.members? doc = some member)
    (hk : orDefault (({} : Settings).get k) k.read (member k.key) = some (s.get k)) :
    orDefault (({} : Settings).get k) k.read (k.written? doc) = some (s.get k) := by
  rwa [Setting.written?, h, Option.bind_some]

theorem members?_inner {g : Group} {member : String → Option Value}
    (hinner : g.members? doc = (Group.peer.members? doc).bind fun member => g.membersOf (member g.key))
    (h : Group.peer.members? doc = some member) : g.members? doc = g.membersOf (member g.key) := by
  rw [hinner, h, Option.bind_some]

theorem configures_of_ofEntries? (h : ofEntries? doc = some s) : Configures doc s := by
  obtain ⟨name, hname, h⟩ := Option.bind_eq_some_iff.1 h
  obtain ⟨peer, hpeer, h⟩ := Option.bind_eq_some_iff.1 h
  obtain ⟨listen, hlisten, h⟩ := Option.bind_eq_some_iff.1 h
  obtain ⟨limit, hlimit, h⟩ := Option.bind_eq_some_iff.1 h
  cases h
  obtain ⟨chaincode, hchaincode, hname⟩ := (orDefault_single (g := .chaincode) rfl).1 hname
  obtain ⟨members, hmembers, haddress, hdial, htls, hkeepalive⟩ := orDefault_peer.1 hpeer
  obtain ⟨tls, htls, henabled, hkey, hcert, hroot⟩ := orDefault_tls.1 htls
  obtain ⟨keepalive, hkeepalive, hinterval, htimeout⟩ := orDefault_keepalive.1 hkeepalive
  obtain ⟨server, hserver, hlisten⟩ := (orDefault_single (g := .server) rfl).1 hlisten
  obtain ⟨wire, hwire, hlimit⟩ := (orDefault_single (g := .wire) rfl).1 hlimit
  replace htls := (members?_inner (g := .tls) rfl hmembers).trans htls
  replace hkeepalive := (members?_inner (g := .keepalive) rfl hmembers).trans hkeepalive
  constructor
  · intro g
    refine Option.isSome_iff_exists.2 ?_
    cases g with
    | chaincode => exact ⟨chaincode, hchaincode⟩
    | peer => exact ⟨members, hmembers⟩
    | tls => exact ⟨tls, htls⟩
    | keepalive => exact ⟨keepalive, hkeepalive⟩
    | server => exact ⟨server, hserver⟩
    | wire => exact ⟨wire, hwire⟩
  · intro k
    cases k with
    | name => exact settled_of_members? .name hchaincode hname
    | peerAddress => exact settled_of_members? .peerAddress hmembers haddress
    | dialTimeout => exact settled_of_members? .dialTimeout hmembers hdial
    | tlsEnabled => exact settled_of_members? .tlsEnabled htls henabled
    | keyPath => exact settled_of_members? .keyPath htls hkey
    | certPath => exact settled_of_members? .certPath htls hcert
    | rootPath => exact settled_of_members? .rootPath htls hroot
    | keepaliveInterval => exact settled_of_members? .keepaliveInterval hkeepalive hinterval
    | keepaliveTimeout => exact settled_of_members? .keepaliveTimeout hkeepalive htimeout
    | listenAddress => exact settled_of_members? .listenAddress hserver hlisten
    | messageLimit => exact settled_of_members? .messageLimit hwire hlimit

theorem Configures.said (h : Configures doc s) (k : Setting) {member : String → Option Value}
    (hmembers : k.group.members? doc = some member) :
    orDefault (({} : Settings).get k) k.read (member k.key) = some (s.get k) := by
  have hk := h.settings k
  rwa [Setting.written?, hmembers, Option.bind_some] at hk

theorem Configures.ofEntries? (h : Configures doc s) : ofEntries? doc = some s := by
  obtain ⟨chaincode, hchaincode⟩ := Option.isSome_iff_exists.1 (h.groups .chaincode)
  obtain ⟨members, hmembers⟩ := Option.isSome_iff_exists.1 (h.groups .peer)
  obtain ⟨tls, htls⟩ := Option.isSome_iff_exists.1 (h.groups .tls)
  obtain ⟨keepalive, hkeepalive⟩ := Option.isSome_iff_exists.1 (h.groups .keepalive)
  obtain ⟨server, hserver⟩ := Option.isSome_iff_exists.1 (h.groups .server)
  obtain ⟨wire, hwire⟩ := Option.isSome_iff_exists.1 (h.groups .wire)
  have hname := (orDefault_single (g := .chaincode) rfl).2
    ⟨chaincode, hchaincode, h.said .name hchaincode⟩
  have hpeer : orDefault {} Peer.ofValue? (doc.get? "peer") = some s.peer := by
    refine orDefault_peer.2 ⟨members, hmembers, h.said .peerAddress hmembers,
      h.said .dialTimeout hmembers, orDefault_tls.2 ⟨tls, ?_, ?_⟩,
      orDefault_keepalive.2 ⟨keepalive, ?_, ?_⟩⟩
    · exact (members?_inner (g := .tls) rfl hmembers).symm.trans htls
    · exact ⟨h.said .tlsEnabled htls, h.said .keyPath htls, h.said .certPath htls, h.said .rootPath htls⟩
    · exact (members?_inner (g := .keepalive) rfl hmembers).symm.trans hkeepalive
    · exact ⟨h.said .keepaliveInterval hkeepalive, h.said .keepaliveTimeout hkeepalive⟩
  have hlisten := (orDefault_single (g := .server) rfl).2
    ⟨server, hserver, h.said .listenAddress hserver⟩
  have hlimit := (orDefault_single (g := .wire) rfl).2 ⟨wire, hwire, h.said .messageLimit hwire⟩
  exact Option.bind_eq_some_iff.2 ⟨s.name, hname, Option.bind_eq_some_iff.2 ⟨s.peer, hpeer,
    Option.bind_eq_some_iff.2 ⟨s.listenAddress, hlisten,
      Option.bind_eq_some_iff.2 ⟨s.messageLimit, hlimit, rfl⟩⟩⟩⟩

/-- **A document is read as what it describes.** -/
theorem ofEntries?_eq_some_iff : ofEntries? doc = some s ↔ Configures doc s :=
  ⟨configures_of_ofEntries?, Configures.ofEntries?⟩

end Settings

end Chaincode

/-!
## Settings in layers

For each setting by itself: what a document says of it (`Setting.ofDocument?`) and what the variables of
an environment say of it (`Setting.ofVariables?`). A document that is readable configures exactly what it
says, above the defaults (`configures_iff`). The variables put what they say above anything else
(`get_override`), so that of two environments the later stands above the earlier (`override_override`).
-/

namespace Chaincode

open Toml (Entries)

namespace Setting

/-- What a document says of the setting. -/
def ofDocument? (doc : Entries) (k : Setting) : Option k.Content := (k.written? doc).bind k.read

/-- What the variables of an environment say of the setting. -/
def ofVariables? (env : Environment) : (k : Setting) → Option k.Content
  | name => env "CORE_CHAINCODE_ID_NAME"
  | peerAddress => env "CORE_PEER_ADDRESS"
  | listenAddress => env "CHAINCODE_SERVER_ADDRESS"
  | tlsEnabled => (env "CORE_PEER_TLS_ENABLED").map fun value => decide (value = "true" ∨ value = "1")
  | keyPath => (env "CORE_TLS_CLIENT_KEY_PATH").map some
  | certPath => (env "CORE_TLS_CLIENT_CERT_PATH").map some
  | rootPath => (env "CORE_PEER_TLS_ROOTCERT_FILE").map some
  | dialTimeout | keepaliveInterval | keepaliveTimeout | messageLimit => none

end Setting

namespace Settings

variable {s : Settings} {doc : Entries} {text : String} {env : Environment}

/-- Settings made of one content for each. -/
def ofContents (f : (k : Setting) → k.Content) : Settings where
  name := f .name
  peer :=
    { address := f .peerAddress
      dialTimeout := f .dialTimeout
      tls :=
        { enabled := f .tlsEnabled
          keyPath := f .keyPath
          certPath := f .certPath
          rootPath := f .rootPath }
      keepalive := { interval := f .keepaliveInterval, timeout := f .keepaliveTimeout } }
  listenAddress := f .listenAddress
  messageLimit := f .messageLimit

theorem get_ofContents (f : (k : Setting) → k.Content) (k : Setting) : (ofContents f).get k = f k := by
  cases k <;> rfl

/-! ### Documents -/

/-- Every group that is there is one, and every value that is there is of its setting's type. -/
structure Readable (doc : Entries) : Prop where
  groups : ∀ g : Setting.Group, (g.members? doc).isSome
  values : ∀ (k : Setting) v, k.written? doc = some v → (k.read v).isSome

theorem orDefault_eq_some_iff {α : Type} {default a : α} {read : Toml.Value → Option α}
    {value? : Option Toml.Value} : orDefault default read value? = some a ↔
      (∀ v, value? = some v → (read v).isSome) ∧ a = (value?.bind read).getD default := by
  rw [eq_comm (a := a)]
  cases value? with
  | none => simp [orDefault]
  | some v => cases hread : read v <;> simp [orDefault, hread]

theorem configures_iff : Configures doc s ↔
    Readable doc ∧ ∀ k : Setting, s.get k = (k.ofDocument? doc).getD (({} : Settings).get k) := by
  constructor
  · intro h
    have hsettings k := orDefault_eq_some_iff.1 (h.settings k)
    exact ⟨⟨h.groups, fun k => (hsettings k).1⟩, fun k => (hsettings k).2⟩
  · rintro ⟨hreadable, hget⟩
    exact ⟨hreadable.groups, fun k => orDefault_eq_some_iff.2 ⟨hreadable.values k, hget k⟩⟩

theorem readable_iff : Readable doc ↔ ∃ s, Configures doc s := by
  constructor
  · intro h
    exact ⟨ofContents fun k => (k.ofDocument? doc).getD (({} : Settings).get k),
      configures_iff.2 ⟨h, get_ofContents _⟩⟩
  · rintro ⟨s, h⟩
    exact (configures_iff.1 h).1

theorem configures_nil : Configures [] {} where
  groups g := by cases g <;> rfl
  settings k := by cases k <;> rfl

theorem parse?_eq_some_iff :
    parse? text = some s ↔ ∃ doc, Toml.parse? text = some doc ∧ Configures doc s := by
  simp only [parse?, Option.bind_eq_bind, Option.bind_eq_some_iff, ofEntries?_eq_some_iff]

theorem parse?_eq_none_iff :
    parse? text = none ↔ ∀ doc, Toml.parse? text = some doc → ¬ Readable doc := by
  rw [Option.eq_none_iff_forall_ne_some]
  constructor
  · intro h doc hdoc hreadable
    obtain ⟨s, hs⟩ := readable_iff.1 hreadable
    exact h s (parse?_eq_some_iff.2 ⟨doc, hdoc, hs⟩)
  · intro h s hs
    obtain ⟨doc, hdoc, hs⟩ := parse?_eq_some_iff.1 hs
    exact h doc hdoc (readable_iff.2 ⟨s, hs⟩)

/-! ### Variables -/

theorem get_override (env : Environment) (s : Settings) (k : Setting) :
    (override env s).get k = (k.ofVariables? env).getD (s.get k) := by
  have hpath : ∀ path path' : Option String, (path <|> path') = (path.map some).getD path' := by
    intro path path'
    cases path <;> rfl
  have hon : isOn = fun value => decide (value = "true" ∨ value = "1") := by
    funext value
    simp [isOn]
  cases k with
  | keyPath | certPath | rootPath => exact hpath _ _
  | tlsEnabled =>
    rw [Setting.ofVariables?, ← hon]
    rfl
  | name | peerAddress | listenAddress => rfl
  | dialTimeout | keepaliveInterval | keepaliveTimeout | messageLimit => rfl

theorem ofVariables?_or (env env' : Environment) (k : Setting) :
    k.ofVariables? (fun v => (env' v).or (env v)) = (k.ofVariables? env').or (k.ofVariables? env) := by
  cases k with
  | tlsEnabled | keyPath | certPath | rootPath => exact Option.map_or
  | name | peerAddress | listenAddress => rfl
  | dialTimeout | keepaliveInterval | keepaliveTimeout | messageLimit => rfl

theorem override_override (env env' : Environment) (s : Settings) :
    override env' (override env s) = override (fun v => (env' v).or (env v)) s := by
  refine eq_of_get fun k => ?_
  rw [get_override, get_override, get_override, ofVariables?_or, Option.getD_or]

end Settings

end Chaincode
