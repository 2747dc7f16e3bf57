import Chaincode.Call
import Chaincode.Proofs.CommandLine.Options
import Chaincode.Proofs.Settings

/-!
# The settings of a run

One file lies below the settings of a run (`Options.file`), and nothing else in the file system has a
say. If it has to be used and cannot be, the run ends there. Above its values stand those of the
environment and above these the options, for each setting by itself (`settings_by_layers`).
-/

namespace Chaincode

/-! ## Files -/

theorem joinPath_home (home : String) :
    joinPath (joinPath home ".config") "ccshim/config.toml" =
      joinPath home ".config/ccshim/config.toml" := by
  have hconfig (front : String) : (front ++ ".config").endsWith "/" = false := by
    rw [String.endsWith_eq_endsWith_toSlice, String.Slice.endsWith_string_eq_false_iff,
      String.copy_toSlice, String.toList_append]
    intro h
    have hlast := h.getLast (by decide)
    rw [List.getLast_append_of_ne_nil _ (by decide)] at hlast
    exact absurd hlast (by decide)
  have hnonempty (front : String) : front ++ ".config" ≠ "" := by simp
  have hjoin (front : String) : joinPath (front ++ ".config") "ccshim/config.toml" =
      front ++ ".config/ccshim/config.toml" := by
    simp [joinPath, hconfig, hnonempty, String.append_assoc]
  rw [joinPath.eq_def home ".config", joinPath.eq_def home ".config/ccshim/config.toml"]
  split
  · exact hjoin home
  · exact (hjoin (home ++ "/")).trans (by rw [String.append_assoc])

namespace Settings

/-- Why a file gives no settings: it cannot be read, or there is no document in it, or one with a value of
another type than its setting's. -/
inductive Unusable (files : Files) (path : String) : ConfigFault → Prop where
  | unread {fault : SystemFault} (h : files.readText path = .error fault) :
      Unusable files path (.readFailed path fault)
  | unparsed {text : String} (h : files.readText path = .ok text)
      (hparse : ∀ doc, Toml.parse? text = some doc → ¬ Readable doc) :
      Unusable files path (.parseFailed path)

variable {files : Files} {path : String} {fault : ConfigFault} {s : Settings}

theorem ofFile_eq_error_iff : ofFile files path = .error fault ↔ Unusable files path fault := by
  constructor
  · intro h
    rw [ofFile] at h
    cases htext : files.readText path with
    | error f =>
      rw [htext] at h
      cases h
      exact .unread htext
    | ok text =>
      rw [htext] at h
      cases hparse : parse? text with
      | some s => simp [hparse] at h
      | none =>
        simp only [hparse, Except.error.injEq] at h
        exact h ▸ .unparsed htext (parse?_eq_none_iff.1 hparse)
  · rintro (htext | ⟨htext, hparse⟩)
    · rw [ofFile, htext]
    · simp only [ofFile, htext, parse?_eq_none_iff.2 hparse]

theorem ofFile_eq_ok_iff : ofFile files path = .ok s ↔
    ∃ text doc, files.readText path = .ok text ∧ Toml.parse? text = some doc ∧ Configures doc s := by
  constructor
  · intro h
    rw [ofFile] at h
    cases htext : files.readText path with
    | error f =>
      rw [htext] at h
      cases h
    | ok text =>
      rw [htext] at h
      cases hparse : parse? text with
      | none => simp [hparse] at h
      | some s' =>
        simp only [hparse, Except.ok.injEq] at h
        obtain ⟨doc, hdoc, hs⟩ := parse?_eq_some_iff.1 hparse
        exact ⟨text, doc, rfl, hdoc, h ▸ hs⟩
  · rintro ⟨text, doc, htext, hdoc, hs⟩
    have hparse := parse?_eq_some_iff.2 ⟨doc, hdoc, hs⟩
    simp only [ofFile, htext, hparse]

end Settings

/-- What the options say of the setting. -/
def Setting.ofOptions? (o : CommandLine.Options) : (k : Setting) → Option k.Content
  | peerAddress => o.peerAddress
  | listenAddress => o.address
  | name | dialTimeout | tlsEnabled | keyPath | certPath | rootPath | keepaliveInterval
  | keepaliveTimeout | messageLimit => none

namespace CommandLine

namespace Options

variable {o : Options} {files : Files} {env : Environment} {fault : ConfigFault} {s : Settings}

/-- The one file that the settings of a run can come from. -/
def file (o : Options) (env : Environment) : String :=
  match o.config, env "CCSHIM_CONFIG", env "XDG_CONFIG_HOME", env "HOME" with
  | some path, _, _, _ => path
  | none, some path, _, _ => path
  | none, none, some base, _ => joinPath base "ccshim/config.toml"
  | none, none, none, some home => joinPath home ".config/ccshim/config.toml"
  | none, none, none, none => "/tmp/.config/ccshim/config.toml"

theorem file_of_config {path : String} (h : o.config = some path) : o.file env = path := by
  rw [file, h]

theorem file_of_location (h : o.config = none) : o.file env = Settings.location env := by
  rw [file, h, Settings.location, Settings.locationVariable, Settings.configHomeVariable,
    Settings.homeVariable]
  cases env "CCSHIM_CONFIG" with
  | some path => rfl
  | none =>
    cases env "XDG_CONFIG_HOME" with
    | some base => rfl
    | none =>
      cases env "HOME" with
      | some home => exact (joinPath_home home).symm
      | none =>
        have htmp : joinPath (joinPath "/tmp" ".config") "ccshim/config.toml" =
          "/tmp/.config/ccshim/config.toml" := by decide +kernel
        exact htmp.symm

/-- Does the file have to be used? It does if it was asked for or is there. -/
def needsFile (o : Options) (files : Files) (env : Environment) : Bool :=
  o.config.isSome || files.has (o.file env)

/-- The document that lies below everything else: the one in the file, or an empty one if the file does
not have to be there and is not. -/
inductive Underlies (o : Options) (files : Files) (env : Environment) : Toml.Entries → Prop where
  | file {text : String} {doc : Toml.Entries} (hneeds : o.needsFile files env)
      (htext : files.readText (o.file env) = .ok text) (hdoc : Toml.parse? text = some doc) :
      Underlies o files env doc
  | missing (hconfig : o.config = none) (hmissing : files.has (o.file env) = false) :
      Underlies o files env []

/-! ## The layers -/

/-- The settings below those of the environment. -/
def below (o : Options) (files : Files) (env : Environment) : Except ConfigFault Settings :=
  if o.needsFile files env then Settings.ofFile files (o.file env) else .ok {}

theorem below_eq_ok_iff :
    o.below files env = .ok s ↔ ∃ doc, o.Underlies files env doc ∧ Settings.Configures doc s := by
  rw [below]
  split
  · rename_i hneeds
    rw [Settings.ofFile_eq_ok_iff]
    constructor
    · rintro ⟨text, doc, htext, hdoc, hs⟩
      exact ⟨doc, .file hneeds htext hdoc, hs⟩
    · rintro ⟨doc, hdoc, hs⟩
      cases hdoc with
      | file _ htext hdoc => exact ⟨_, doc, htext, hdoc, hs⟩
      | missing hconfig hmissing => simp [needsFile, hconfig, hmissing] at hneeds
  · rename_i hneeds
    constructor
    · intro h
      cases h
      rw [needsFile, Bool.or_eq_true, not_or, Option.not_isSome_iff_eq_none, Bool.not_eq_true] at hneeds
      exact ⟨[], .missing hneeds.1 hneeds.2, Settings.configures_nil⟩
    · rintro ⟨doc, hdoc, hs⟩
      cases hdoc with
      | file hneeds' => exact absurd hneeds' hneeds
      | missing =>
        have hdefault := Settings.ofEntries?_eq_some_iff.2 hs
        cases hdefault
        rfl

theorem below_eq_error_iff : o.below files env = .error fault ↔
    o.needsFile files env ∧ Settings.Unusable files (o.file env) fault := by
  rw [below]
  split
  · rename_i hneeds
    simp [hneeds, Settings.ofFile_eq_error_iff]
  · rename_i hneeds
    simp [hneeds]

/-- Settings with the options put above them. -/
def override (o : Options) (s : Settings) : Settings :=
  { s with
    peer.address := o.peerAddress.getD s.peer.address
    listenAddress := o.address.getD s.listenAddress }

theorem get_override (o : Options) (s : Settings) (k : Setting) :
    (o.override s).get k = (k.ofOptions? o).getD (s.get k) := by
  cases k <;> rfl

theorem settings_eq : o.settings files env =
    (o.below files env).map fun s => o.override (s.override env) := by
  have hsettings : o.settings files env =
      ((o.below files env).map (Settings.override env)).map o.override := by
    rw [settings, below, needsFile]
    cases hconfig : o.config with
    | some path =>
      rw [file_of_config hconfig, Option.isSome_some, Bool.true_or, if_pos rfl]
      rfl
    | none =>
      rw [file_of_location hconfig, Option.isSome_none, Bool.false_or]
      rfl
  rw [hsettings]
  cases o.below files env <;> rfl

theorem settings_eq_error_iff : o.settings files env = .error fault ↔
    o.needsFile files env ∧ Settings.Unusable files (o.file env) fault := by
  rw [settings_eq, ← below_eq_error_iff]
  cases o.below files env <;> simp [Except.map]

theorem settings_eq_ok_iff : o.settings files env = .ok s ↔
    ∃ doc, o.Underlies files env doc ∧ Settings.Readable doc ∧ ∀ k : Setting,
      s.get k = ((k.ofOptions? o).or ((k.ofVariables? env).or (k.ofDocument? doc))).getD
        (({} : Settings).get k) := by
  have hget {doc} {s' : Settings} (hs : Settings.Configures doc s') (k : Setting) :
      (o.override (s'.override env)).get k =
        ((k.ofOptions? o).or ((k.ofVariables? env).or (k.ofDocument? doc))).getD
          (({} : Settings).get k) := by
    rw [get_override, Settings.get_override, (Settings.configures_iff.1 hs).2 k, Option.getD_or,
      Option.getD_or]
  rw [settings_eq]
  constructor
  · intro h
    cases hbelow : o.below files env with
    | error fault =>
      rw [hbelow] at h
      cases h
    | ok s' =>
      rw [hbelow] at h
      cases h
      obtain ⟨doc, hdoc, hs⟩ := below_eq_ok_iff.1 hbelow
      exact ⟨doc, hdoc, Settings.readable_iff.2 ⟨s', hs⟩, hget hs⟩
  · rintro ⟨doc, hdoc, hreadable, hs⟩
    obtain ⟨s', hs'⟩ := Settings.readable_iff.1 hreadable
    rw [below_eq_ok_iff.2 ⟨doc, hdoc, hs'⟩]
    have hsame := Settings.eq_of_get fun k => (hget hs' k).trans (hs k).symm
    exact congrArg Except.ok hsame

/-- No file but one has a say. -/
theorem settings_congr {files' : Files} (hhas : files'.has (o.file env) = files.has (o.file env))
    (hread : files'.read (o.file env) = files.read (o.file env)) :
    o.settings files' env = o.settings files env := by
  have hfile : Settings.ofFile files' (o.file env) = Settings.ofFile files (o.file env) := by
    rw [Settings.ofFile, Settings.ofFile, Files.readText, Files.readText, hread]
  rw [settings_eq, settings_eq, below, below, needsFile, needsFile, hhas, hfile]

end Options

/-! ## The run -/

theorem run_eq_unconfigured_iff {S : Type} [MessageStream S] {network : Network S} {files : Files}
    {env : Environment} {args : List String} {o : Options} {fault : ConfigFault}
    (h : Options.read args = .ok (.start o)) :
    run network files env args = .unconfigured fault ↔ o.settings files env = .error fault := by
  rw [run, h]
  cases hsettings : o.settings files env with
  | error fault' => simp [hsettings]
  | ok s => cases hstart : (start network files s none echo).result <;> simp [hsettings, hstart]

/-- **Settings are resolved one by one.** For a command line that asks for a start:

* The options are what the command line gives.
* Of the file system, only its answers for one path count. Loading fails exactly if the file there has to
  be used, since it was asked for or is there, and cannot be read or parsed, and then the run ends with
  that fault.
* Otherwise each setting is what the options say of it, or else what the variables say, or else what the
  file says, or else its default, whatever the others are. No value in the file is passed over because it
  is of another type.
* By themselves, too, variables change no setting but their own, to what they say. The later of two
  environments stands above the earlier, and the same one twice is the same as once. -/
theorem settings_by_layers {S : Type} [MessageStream S] (network : Network S) (files : Files)
    (env : Environment) {args : List String} {o : Options} (h : Options.read args = .ok (.start o)) :
    (∀ name value, o.get name = some value ↔ Gives args name value) ∧
      (∀ files' : Files, files'.has (o.file env) = files.has (o.file env) →
        files'.read (o.file env) = files.read (o.file env) →
          o.settings files' env = o.settings files env) ∧
      (∀ fault, o.settings files env = .error fault ↔
        o.needsFile files env ∧ Settings.Unusable files (o.file env) fault) ∧
      (∀ fault, run network files env args = .unconfigured fault ↔
        o.settings files env = .error fault) ∧
      (∀ s, o.settings files env = .ok s ↔
        ∃ doc, o.Underlies files env doc ∧ Settings.Readable doc ∧ ∀ k : Setting,
          s.get k = ((k.ofOptions? o).or ((k.ofVariables? env).or (k.ofDocument? doc))).getD
            (({} : Settings).get k)) ∧
      (∀ (s : Settings) (k : Setting), (s.override env).get k = (k.ofVariables? env).getD (s.get k)) ∧
      (∀ (s : Settings) (env' : Environment),
        (s.override env).override env' = s.override fun v => (env' v).or (env v)) ∧
      ∀ s : Settings, (s.override env).override env = s.override env := by
  refine ⟨fun _ _ => Options.get_eq_some_iff h, fun _ => Options.settings_congr,
    fun _ => Options.settings_eq_error_iff, fun _ => run_eq_unconfigured_iff h,
    fun _ => Options.settings_eq_ok_iff, Settings.get_override env,
    fun s env' => Settings.override_override env env' s, fun s => ?_⟩
  rw [Settings.override_override]
  simp only [Option.or_self]

/-- A file with part of a group in it. -/
def slowPeer : String := "peer.address='p:1'\npeer.keepalive.interval_secs=5\n"

def securedPeer : Environment :=
  .ofList [("CORE_PEER_ADDRESS", ""), ("CORE_PEER_TLS_ENABLED", "1")]

def secondPort : Options := { address := some ":2", config := some "/etc/echo.toml" }

/-- A file system in which everything is there and nothing can be opened. -/
def barred : Files where
  has _ := true
  read _ := .error (.errno 13)

theorem settings_by_layers_secondPort :
    Options.read ["--address=:2", "--config", "/etc/echo.toml"] = .ok (.start secondPort) ∧
      secondPort.settings (Files.ofTree [(["etc", "echo.toml"], .file (.ofText slowPeer))]) securedPeer = .ok
        { peer := { tls := { enabled := true }, keepalive := { interval := 5 } }, listenAddress := ":2" } ∧
      run (.unreachable : Network Call) (Files.ofTree []) securedPeer
          ["--address=:2", "--config", "/etc/echo.toml"] =
        .unconfigured (.readFailed "/etc/echo.toml" .noSuchFile) ∧
      run (.unreachable : Network Call) barred (.ofList [("HOME", "/root")]) [] =
        .unconfigured (.readFailed "/root/.config/ccshim/config.toml" (.errno 13)) := by
  have hread : Options.read ["--address=:2", "--config", "/etc/echo.toml"] = .ok (.start secondPort) := by
    decide +kernel
  obtain ⟨-, -, -, -, hloads, -⟩ := settings_by_layers (.unreachable : Network Call)
    (Files.ofTree [(["etc", "echo.toml"], .file (.ofText slowPeer))]) securedPeer hread
  obtain ⟨-, -, hfails, hrun, -⟩ :=
    settings_by_layers (.unreachable : Network Call) (Files.ofTree []) securedPeer hread
  have hplain : Options.read [] = .ok (.start {}) := by decide +kernel
  obtain ⟨-, -, hfails', hrun', -⟩ :=
    settings_by_layers (.unreachable : Network Call) barred (.ofList [("HOME", "/root")]) hplain
  have hpath : Options.file {} (.ofList [("HOME", "/root")]) = "/root/.config/ccshim/config.toml" := by
    decide +kernel
  have htext : (Files.ofTree [(["etc", "echo.toml"], .file (.ofText slowPeer))]).readText
      "/etc/echo.toml" = .ok slowPeer := by decide +kernel
  have hmissing : (Files.ofTree []).readText "/etc/echo.toml" = .error .noSuchFile := by decide +kernel
  have hparse : Settings.parse? slowPeer = some
      { peer := { address := "p:1", keepalive := { interval := 5 } } } := by decide +kernel
  have habove : secondPort.override
      (Settings.override securedPeer { peer := { address := "p:1", keepalive := { interval := 5 } } }) =
      { peer := { tls := { enabled := true }, keepalive := { interval := 5 } }, listenAddress := ":2" } := by
    decide +kernel
  obtain ⟨doc, hdoc, hsays⟩ := Settings.parse?_eq_some_iff.1 hparse
  obtain ⟨hreadable, hsays⟩ := Settings.configures_iff.1 hsays
  refine ⟨hread, (hloads _).2 ⟨doc, .file rfl htext hdoc, hreadable, fun k => ?_⟩,
    (hrun _).2 ((hfails _).2 ⟨rfl, .unread hmissing⟩), (hrun' _).2 ((hfails' _).2 ⟨rfl, ?_⟩)⟩
  · rw [← habove, Options.get_override, Settings.get_override, hsays k, Option.getD_or, Option.getD_or]
  · rw [hpath]
    exact .unread rfl

end CommandLine

end Chaincode
