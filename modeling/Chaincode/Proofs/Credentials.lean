import Chaincode.Credentials
import Chaincode.Proofs.Base64

/-!
# The files of the credentials

What has to be in the three files, and what is said of the first thing that is not.
-/

/-!
## What a text of sections provides

A private key is found exactly if nothing is wrong before it (`hasKey_of_firstKey`, `exists_firstKey`), and
certificates are found exactly if there is one and nothing is wrong anywhere
(`hasCertificate_of_certificates`, `exists_certificates`).
-/

namespace Chaincode.Pem

variable {parts : List (Except Fault Section)} {key : Section} {found : List Section}

/-- There is a private key, and nothing is wrong before it. -/
def HasKey (parts : List (Except Fault Section)) : Prop :=
  ∃ before key after, parts = List.map .ok before ++ .ok key :: after ∧ key.kind.isPrivateKey = true

/-- There is a certificate, and nothing is wrong anywhere. -/
def HasCertificate (parts : List (Except Fault Section)) : Prop :=
  ∃ whole, parts = List.map .ok whole ∧ ∃ part ∈ whole, part.kind = .certificate

theorem hasKey_of_firstKey (h : firstKey parts = .ok (some key)) : HasKey parts := by
  induction parts with
  | nil => cases h
  | cons part parts ih =>
    cases part with
    | error fault => cases h
    | ok part =>
      rw [firstKey] at h
      split at h
      · rename_i hkey
        exact ⟨[], part, parts, rfl, hkey⟩
      · obtain ⟨before, key, after, rfl, hkey⟩ := ih h
        exact ⟨part :: before, key, after, rfl, hkey⟩

theorem exists_firstKey (h : HasKey parts) : ∃ key, firstKey parts = .ok (some key) := by
  obtain ⟨before, key, after, rfl, hkey⟩ := h
  induction before with
  | nil => exact ⟨key, by simp [firstKey, hkey]⟩
  | cons part before ih =>
    rw [List.map_cons, List.cons_append, firstKey]
    split
    · exact ⟨part, rfl⟩
    · exact ih

theorem not_hasKey (h : ∀ key, firstKey parts ≠ .ok (some key)) : ¬ HasKey parts := by
  intro hkey
  obtain ⟨key, hfirst⟩ := exists_firstKey hkey
  exact h key hfirst

instance (parts : List (Except Fault Section)) : Decidable (HasKey parts) :=
  match h : firstKey parts with
  | .ok (some _) => isTrue (hasKey_of_firstKey h)
  | .ok none | .error _ => isFalse (not_hasKey (by simp [h]))

theorem mapM_id_map (whole : List Section) :
    (List.map .ok whole : List (Except Fault Section)).mapM id = .ok whole := by
  induction whole with
  | nil => rfl
  | cons part whole ih =>
    rw [List.map_cons, List.mapM_cons, ih]
    rfl

theorem eq_map_of_mapM_id (h : parts.mapM id = .ok found) : parts = List.map .ok found := by
  induction parts generalizing found with
  | nil =>
    cases h
    rfl
  | cons part parts ih =>
    rw [List.mapM_cons] at h
    cases part with
    | error fault => cases h
    | ok part =>
      cases hrest : parts.mapM id with
      | error fault =>
        rw [hrest] at h
        cases h
      | ok rest =>
        rw [hrest] at h
        cases h
        rw [ih hrest, List.map_cons]

theorem hasCertificate_of_certificates {first : Section} (h : certificates parts = .ok (first :: found)) :
    HasCertificate parts := by
  rw [certificates] at h
  cases hwhole : parts.mapM id with
  | error fault =>
    rw [hwhole] at h
    cases h
  | ok whole =>
    rw [hwhole] at h
    have hfilter : whole.filter (·.kind = .certificate) = first :: found := Except.ok.inj h
    have hmem : first ∈ whole.filter (·.kind = .certificate) := by
      rw [hfilter]
      exact List.mem_cons_self
    obtain ⟨hfirst, hkind⟩ := List.mem_filter.1 hmem
    exact ⟨whole, eq_map_of_mapM_id hwhole, first, hfirst, by simpa using hkind⟩

theorem exists_certificates (h : HasCertificate parts) :
    ∃ first found, certificates parts = .ok (first :: found) := by
  obtain ⟨whole, rfl, part, hpart, hkind⟩ := h
  rw [certificates, mapM_id_map]
  have hmem : part ∈ whole.filter (·.kind = .certificate) := by simp [hpart, hkind]
  cases hfound : whole.filter (·.kind = .certificate) with
  | nil =>
    rw [hfound] at hmem
    cases hmem
  | cons first found => exact ⟨first, found, by rw [Except.map, hfound]⟩

theorem not_hasCertificate (h : ∀ first found, certificates parts ≠ .ok (first :: found)) :
    ¬ HasCertificate parts := by
  intro hcertificate
  obtain ⟨first, found, hfound⟩ := exists_certificates hcertificate
  exact h first found hfound

instance (parts : List (Except Fault Section)) : Decidable (HasCertificate parts) :=
  match h : certificates parts with
  | .ok (_ :: _) => isTrue (hasCertificate_of_certificates h)
  | .ok [] | .error _ => isFalse (not_hasCertificate (by simp [h]))

end Chaincode.Pem

/-!
## Checking credentials

A file of base64 is read back exactly, whatever white space is in it (`base64_files_are_exact`). Loading
credentials checks nine things in a fixed order: three paths, three files, and what is in them. `Fails`
says on its own when each check fails and with which fault, and `Runs` is what it takes to run checks in
order; loading either reports the first that fails or finds all three files as they should be
(`runs_load`).
-/

namespace Chaincode.Credentials

variable {files files' : Files} {tls : Settings.Tls} {path path' : String} {content content' pem : Bytes}

/-! ### Files of base64 -/

/-- What is told of a file that was read as base64. -/
def told (path : String) : Except Base64.Fault Bytes → Except ConfigFault Bytes
  | .ok bytes => .ok bytes
  | .error fault => .error (.tls (path ++ " is not base64: " ++ fault.message))

theorem readBase64_of_read (h : files.read path = .ok content) :
    readBase64 files path = told path (Base64.decodeSpaced content) := by
  simp only [readBase64, readFile, h]
  cases Base64.decodeSpaced content <;> rfl

theorem readBase64_of_unread {fault : SystemFault} (h : files.read path = .error fault) :
    readBase64 files path = .error (.readFailed path fault) := by
  simp only [readBase64, readFile, h]

theorem readBase64_eq_ok_iff : readBase64 files path = .ok pem ↔
    ∃ content, files.read path = .ok content ∧ Base64.Spaced (Base64.encode pem) content := by
  cases hread : files.read path with
  | error fault => simp [readBase64_of_unread hread]
  | ok content =>
    rw [readBase64_of_read hread]
    constructor
    · intro h
      cases hdecode : Base64.decodeSpaced content with
      | error fault =>
        rw [hdecode] at h
        cases h
      | ok bytes =>
        rw [hdecode] at h
        cases h
        exact ⟨content, rfl, Base64.decodeSpaced_eq_ok_iff.1 hdecode⟩
    · rintro ⟨_, heq, hspaced⟩
      cases heq
      rw [Base64.decodeSpaced_eq_ok_iff.2 hspaced]
      rfl

/-- **A file of base64 is read back exactly.** A file that holds the base64 of some bytes, with white space
put in anywhere, gives these bytes; a file that gives some bytes holds their base64 and white space; and
files that differ in white space only give the same bytes or the same fault. -/
theorem base64_files_are_exact (files files' : Files) (path path' : String) :
    (∀ bytes content, files.read path = .ok content → Base64.Spaced (Base64.encode bytes) content →
      readBase64 files path = .ok bytes) ∧
    (∀ bytes, readBase64 files path = .ok bytes →
      ∃ content, files.read path = .ok content ∧ Base64.squeeze content = Base64.encode bytes) ∧
    ∀ content content', files.read path = .ok content → files'.read path' = .ok content' →
      Base64.squeeze content = Base64.squeeze content' →
        ∃ result, readBase64 files path = told path result ∧ readBase64 files' path' = told path' result := by
  refine ⟨?_, ?_, ?_⟩
  · intro bytes content hread hspaced
    exact readBase64_eq_ok_iff.2 ⟨content, hread, hspaced⟩
  · intro bytes h
    obtain ⟨content, hread, hspaced⟩ := readBase64_eq_ok_iff.1 h
    exact ⟨content, hread, Base64.spaced_encode_iff.1 hspaced⟩
  · intro content content' hread hread' hsame
    refine ⟨Base64.decodeSpaced content, readBase64_of_read hread, ?_⟩
    rw [readBase64_of_read hread', Base64.decodeSpaced_eq, Base64.decodeSpaced_eq, hsame]

/-- A file system in which every path names the same file. -/
def holding (content : Bytes) : Files where
  has _ := true
  read _ := .ok content

/-- The base64 of one letter, with white space in its padding too. -/
def spacedLetter : Bytes := Bytes.ofText " Z\ng=\t="

/-- In the last symbol a bit is set that no byte takes up. -/
def overfull : Bytes := Bytes.ofText "Zh=="

theorem base64_files_are_exact_spacedLetter :
    Base64.Spaced (Base64.encode (Bytes.ofText "f")) spacedLetter ∧
    readBase64 (holding spacedLetter) "key" = .ok (Bytes.ofText "f") ∧
    (∃ content, (holding spacedLetter).read "key" = .ok content ∧
      Base64.squeeze content = Base64.encode (Bytes.ofText "f")) ∧
    readBase64 (holding (Bytes.ofText " Zh\n= =")) "key" = readBase64 (holding overfull) "key" ∧
    readBase64 (holding overfull) "key" =
      .error (.tls "key is not base64: Invalid last symbol 104, offset 1.") := by
  have hspaced : Base64.Spaced (Base64.encode (Bytes.ofText "f")) spacedLetter :=
    Base64.spaced_encode_iff.2 (by decide +kernel)
  have hsame : Base64.squeeze (Bytes.ofText " Zh\n= =") = Base64.squeeze overfull := by decide +kernel
  obtain ⟨hreads, hexact, -⟩ :=
    base64_files_are_exact (holding spacedLetter) (holding spacedLetter) "key" "key"
  obtain ⟨-, -, hagree⟩ :=
    base64_files_are_exact (holding (Bytes.ofText " Zh\n= =")) (holding overfull) "key" "key"
  have hletter := hreads _ _ rfl hspaced
  obtain ⟨result, hresult, hresult'⟩ := hagree _ _ rfl rfl hsame
  exact ⟨hspaced, hletter, hexact _ hletter, hresult.trans hresult'.symm, by decide +kernel⟩

/-! ### What is checked -/

/-- What a file is for. -/
inductive Role where
  | key
  | certificate
  | root
  deriving DecidableEq, Repr

/-- What is checked of a file. -/
inductive Aspect where
  /-- Its path is set. -/
  | path
  /-- It can be read. -/
  | reading
  /-- There is in it what it is for. -/
  | content
  deriving DecidableEq, Repr

abbrev Check := Aspect × Role

/-- The checks in their order. -/
def order : List Check :=
  [(.path, .key), (.path, .certificate), (.path, .root),
   (.reading, .key), (.reading, .certificate), (.reading, .root),
   (.content, .key), (.content, .certificate), (.content, .root)]

namespace Role

/-- The path that is set for a file. -/
def path? (tls : Settings.Tls) : Role → Option String
  | key => tls.keyPath
  | certificate => tls.certPath
  | root => tls.rootPath

/-- What the setting of its path is called. -/
def setting : Role → String
  | key => "client key path"
  | certificate => "client certificate path"
  | root => "root certificate file"

/-- What is read from a file: the text itself for the root, and what it is the base64 of for the others. -/
def Wraps : Role → Bytes → Bytes → Prop
  | key, content, pem | certificate, content, pem => Base64.Spaced (Base64.encode pem) content
  | root, content, pem => content = pem

/-- The text has the sections that it is there for. A key counts if nothing is wrong up to it; certificates
do if nothing is wrong at all. -/
def Provides : Role → Bytes → Prop
  | key, pem => Pem.HasKey (Pem.sections pem)
  | certificate, pem | root, pem => Pem.HasCertificate (Pem.sections pem)

end Role

theorem provides_iff_hasCertificate {role : Role} (hrole : role ≠ .key) :
    role.Provides pem ↔ Pem.HasCertificate (Pem.sections pem) := by
  cases role with
  | key => exact absurd rfl hrole
  | certificate | root => rfl

/-- The file of a role is there and gives the text. -/
def Holds (files : Files) (role : Role) (path : String) (pem : Bytes) : Prop :=
  ∃ content, files.read path = .ok content ∧ role.Wraps content pem

/-- The text for a role. -/
def text (credentials : Credentials) : Role → Bytes
  | .key => credentials.key
  | .certificate => credentials.certificate
  | .root => credentials.root

/-- The credentials are what the files give, with nothing wrong in it. -/
def FoundIn (files : Files) (tls : Settings.Tls) (credentials : Credentials) : Prop :=
  ∀ role : Role, ∃ path, role.path? tls = some path ∧ Holds files role path (credentials.text role) ∧
    role.Provides (credentials.text role)

/-- Nothing is wrong with the file of a role. -/
def Sound (files : Files) (tls : Settings.Tls) (role : Role) : Prop :=
  ∃ path pem, role.path? tls = some path ∧ Holds files role path pem ∧ role.Provides pem

/-- A check fails with a fault. What is in a file is judged only if it can be read, and a file is read only
if its path is set. -/
inductive Fails (files : Files) (tls : Settings.Tls) : Check → ConfigFault → Prop where
  | unset (role : Role) (hpath : role.path? tls = none) :
      Fails files tls (.path, role) (.tls (role.setting ++ " must be set when TLS is enabled"))
  | unread (role : Role) (path : String) (fault : SystemFault) (hpath : role.path? tls = some path)
      (hread : files.read path = .error fault) :
      Fails files tls (.reading, role) (.readFailed path fault)
  | notBase64 (role : Role) (path : String) (content : Bytes) (fault : Base64.Fault) (hrole : role ≠ .root)
      (hpath : role.path? tls = some path) (hread : files.read path = .ok content)
      (hfault : Base64.decodeSpaced content = .error fault) :
      Fails files tls (.reading, role) (.tls (path ++ " is not base64: " ++ fault.message))
  | malformedKey (path : String) (pem : Bytes) (fault : Pem.Fault) (hpath : Role.key.path? tls = some path)
      (hholds : Holds files .key path pem) (hfault : Pem.firstKey (Pem.sections pem) = .error fault) :
      Fails files tls (.content, .key)
        (.tls ("failed to parse private key in " ++ path ++ ": " ++ fault.message))
  | noKey (path : String) (pem : Bytes) (hpath : Role.key.path? tls = some path)
      (hholds : Holds files .key path pem) (hnone : Pem.firstKey (Pem.sections pem) = .ok none) :
      Fails files tls (.content, .key) (.tls ("no private key found in " ++ path))
  | malformedCertificates (role : Role) (path : String) (pem : Bytes) (fault : Pem.Fault)
      (hrole : role ≠ .key) (hpath : role.path? tls = some path) (hholds : Holds files role path pem)
      (hfault : Pem.certificates (Pem.sections pem) = .error fault) :
      Fails files tls (.content, role)
        (.tls ("failed to parse certificates in " ++ path ++ ": " ++ fault.message))
  | noCertificate (role : Role) (path : String) (pem : Bytes) (hrole : role ≠ .key)
      (hpath : role.path? tls = some path) (hholds : Holds files role path pem)
      (hnone : Pem.certificates (Pem.sections pem) = .ok []) :
      Fails files tls (.content, role) (.tls ("no certificate found in " ++ path))

def Passes (files : Files) (tls : Settings.Tls) (check : Check) : Prop :=
  ∀ fault, ¬ Fails files tls check fault

/-- The fault of the first check that fails, of those in a list. -/
def FirstFault (files : Files) (tls : Settings.Tls) (checks : List Check) (fault : ConfigFault) : Prop :=
  ∃ before check after, checks = before ++ check :: after ∧
    (∀ earlier ∈ before, Passes files tls earlier) ∧ Fails files tls check fault

/-! ### When a check passes -/

section

variable {role : Role} {fault : ConfigFault}

theorem Holds.unique {pem' : Bytes} (h : Holds files role path pem) (h' : Holds files role path pem') :
    pem = pem' := by
  obtain ⟨content, hread, hwraps⟩ := h
  obtain ⟨content', hread', hwraps'⟩ := h'
  cases hread.symm.trans hread'
  cases role with
  | key | certificate =>
    have hpem := Base64.decodeSpaced_eq_ok_iff.2 hwraps
    have hpem' := Base64.decodeSpaced_eq_ok_iff.2 hwraps'
    exact Except.ok.inj (hpem.symm.trans hpem')
  | root => exact hwraps.symm.trans hwraps'

theorem FoundIn.sound {credentials : Credentials} (h : FoundIn files tls credentials) (role : Role) :
    Sound files tls role := by
  obtain ⟨path, hpath, hholds, hprovides⟩ := h role
  exact ⟨path, credentials.text role, hpath, hholds, hprovides⟩

theorem FoundIn.unique {credentials credentials' : Credentials} (h : FoundIn files tls credentials)
    (h' : FoundIn files tls credentials') : credentials = credentials' := by
  have htext : ∀ role, credentials.text role = credentials'.text role := by
    intro role
    obtain ⟨path, hpath, hholds, -⟩ := h role
    obtain ⟨path', hpath', hholds', -⟩ := h' role
    obtain rfl := Option.some.inj (hpath.symm.trans hpath')
    exact hholds.unique hholds'
  obtain ⟨key, certificate, root⟩ := credentials
  obtain ⟨key', certificate', root'⟩ := credentials'
  rw [mk.injEq]
  exact ⟨htext .key, htext .certificate, htext .root⟩

theorem passes_path (hpath : role.path? tls = some path) : Passes files tls (.path, role) := by
  rintro fault ⟨role, hunset⟩
  cases hunset.symm.trans hpath

theorem passes_reading (hpath : role.path? tls = some path) (hholds : Holds files role path pem) :
    Passes files tls (.reading, role) := by
  obtain ⟨content, hread, hwraps⟩ := hholds
  intro fault hfails
  cases hfails with
  | unread role path' fault hpath' hread' =>
    cases hpath'.symm.trans hpath
    cases hread'.symm.trans hread
  | notBase64 role path' content' fault hrole hpath' hread' hfault =>
    cases hpath'.symm.trans hpath
    cases hread'.symm.trans hread
    cases role with
    | key | certificate => cases hfault.symm.trans (Base64.decodeSpaced_eq_ok_iff.2 hwraps)
    | root => exact hrole rfl

theorem passes_content (hpath : role.path? tls = some path) (hholds : Holds files role path pem)
    (hprovides : role.Provides pem) : Passes files tls (.content, role) := by
  intro fault hfails
  cases hfails with
  | malformedKey path' pem' fault hpath' hholds' hfault =>
    cases hpath'.symm.trans hpath
    cases hholds'.unique hholds
    obtain ⟨key, hkey⟩ := Pem.exists_firstKey hprovides
    cases hfault.symm.trans hkey
  | noKey path' pem' hpath' hholds' hnone =>
    cases hpath'.symm.trans hpath
    cases hholds'.unique hholds
    obtain ⟨key, hkey⟩ := Pem.exists_firstKey hprovides
    cases hnone.symm.trans hkey
  | malformedCertificates role path' pem' fault hrole hpath' hholds' hfault =>
    cases hpath'.symm.trans hpath
    cases hholds'.unique hholds
    obtain ⟨first, found, hfound⟩ := Pem.exists_certificates ((provides_iff_hasCertificate hrole).1 hprovides)
    cases hfault.symm.trans hfound
  | noCertificate role path' pem' hrole hpath' hholds' hnone =>
    cases hpath'.symm.trans hpath
    cases hholds'.unique hholds
    obtain ⟨first, found, hfound⟩ := Pem.exists_certificates ((provides_iff_hasCertificate hrole).1 hprovides)
    cases hnone.symm.trans hfound

theorem passes_of_sound (h : ∀ role, Sound files tls role) (check : Check) : Passes files tls check := by
  obtain ⟨aspect, role⟩ := check
  obtain ⟨path, pem, hpath, hholds, hprovides⟩ := h role
  cases aspect with
  | path => exact passes_path hpath
  | reading => exact passes_reading hpath hholds
  | content => exact passes_content hpath hholds hprovides

end

/-! ### Checks in order -/

section

variable {α β : Type} {check : Check} {checks : List Check} {r : Except ConfigFault α}
  {next : α → Except ConfigFault β} {Good : α → Prop} {Good' : β → Prop}

/-- The result decides a check: it is the fault with which the check fails, or a value that is as it should
be. -/
def Decides (files : Files) (tls : Settings.Tls) (check : Check) (Good : α → Prop) :
    Except ConfigFault α → Prop
  | .ok a => Passes files tls check ∧ Good a
  | .error fault => Fails files tls check fault

/-- The same of checks in their order: the fault is that of the first that fails. -/
def Runs (files : Files) (tls : Settings.Tls) (checks : List Check) (Good : α → Prop) :
    Except ConfigFault α → Prop
  | .ok a => (∀ check ∈ checks, Passes files tls check) ∧ Good a
  | .error fault => FirstFault files tls checks fault

theorem runs_nil {a : α} (h : Good a) : Runs files tls [] Good (pure a) :=
  ⟨fun _ hmem => absurd hmem List.not_mem_nil, h⟩

theorem Decides.andThen (h : Decides files tls check Good r)
    (hnext : ∀ a, Good a → Runs files tls checks Good' (next a)) :
    Runs files tls (check :: checks) Good' (r >>= next) := by
  cases r with
  | error fault => exact ⟨[], check, checks, rfl, fun _ hmem => absurd hmem List.not_mem_nil, h⟩
  | ok a =>
    obtain ⟨hpasses, hgood⟩ := h
    have hrest := hnext a hgood
    show Runs files tls (check :: checks) Good' (next a)
    cases hb : next a with
    | error fault =>
      rw [hb] at hrest
      obtain ⟨before, failing, after, rfl, hbefore, hfails⟩ := hrest
      exact ⟨check :: before, failing, after, rfl, List.forall_mem_cons.2 ⟨hpasses, hbefore⟩, hfails⟩
    | ok b =>
      rw [hb] at hrest
      exact ⟨List.forall_mem_cons.2 ⟨hpasses, hrest.1⟩, hrest.2⟩

end

/-! ### Loading -/

section

variable {role : Role}

theorem decides_path (role : Role) : Decides files tls (.path, role)
    (fun path => role.path? tls = some path) (required role.setting (role.path? tls)) := by
  cases hpath : role.path? tls with
  | none => exact .unset role hpath
  | some path => exact ⟨passes_path hpath, rfl⟩

theorem decides_base64 (hrole : role ≠ .root) (hpath : role.path? tls = some path) :
    Decides files tls (.reading, role) (Holds files role path) (readBase64 files path) := by
  cases hread : files.read path with
  | error fault =>
    rw [readBase64_of_unread hread]
    exact .unread role path fault hpath hread
  | ok content =>
    rw [readBase64_of_read hread]
    cases hdecode : Base64.decodeSpaced content with
    | error fault => exact .notBase64 role path content fault hrole hpath hread hdecode
    | ok pem =>
      have hholds : Holds files role path pem := by
        refine ⟨content, hread, ?_⟩
        have hspaced := Base64.decodeSpaced_eq_ok_iff.1 hdecode
        cases role with
        | key | certificate => exact hspaced
        | root => exact absurd rfl hrole
      exact ⟨passes_reading hpath hholds, hholds⟩

theorem decides_root (hpath : Role.root.path? tls = some path) :
    Decides files tls (.reading, .root) (Holds files .root path) (readFile files path) := by
  rw [readFile]
  cases hread : files.read path with
  | error fault => exact .unread .root path fault hpath hread
  | ok content =>
    have hholds : Holds files .root path content := ⟨content, hread, rfl⟩
    exact ⟨passes_reading hpath hholds, hholds⟩

theorem decides_key (hpath : Role.key.path? tls = some path) (hholds : Holds files .key path pem) :
    Decides files tls (.content, .key) (fun _ => Role.key.Provides pem) (keyIn path pem) := by
  rw [keyIn]
  cases hkey : Pem.firstKey (Pem.sections pem) with
  | error fault => exact .malformedKey path pem fault hpath hholds hkey
  | ok found =>
    cases found with
    | none => exact .noKey path pem hpath hholds hkey
    | some key =>
      have hprovides : Role.key.Provides pem := Pem.hasKey_of_firstKey hkey
      exact ⟨passes_content hpath hholds hprovides, hprovides⟩

theorem decides_certificates (hrole : role ≠ .key) (hpath : role.path? tls = some path)
    (hholds : Holds files role path pem) :
    Decides files tls (.content, role) (fun _ => role.Provides pem) (certificatesIn path pem) := by
  rw [certificatesIn]
  cases hfound : Pem.certificates (Pem.sections pem) with
  | error fault => exact .malformedCertificates role path pem fault hrole hpath hholds hfound
  | ok found =>
    cases found with
    | nil => exact .noCertificate role path pem hrole hpath hholds hfound
    | cons first found =>
      have hprovides := (provides_iff_hasCertificate hrole).2 (Pem.hasCertificate_of_certificates hfound)
      exact ⟨passes_content hpath hholds hprovides, hprovides⟩

end

/-- **Loading checks in order.** It gives the fault of the first check that fails, or what is in the three
files. -/
theorem runs_load (files : Files) (tls : Settings.Tls) :
    Runs files tls order (FoundIn files tls) (load files tls) := by
  refine (decides_path .key).andThen fun keyPath hkeyPath => ?_
  refine (decides_path .certificate).andThen fun certPath hcertPath => ?_
  refine (decides_path .root).andThen fun rootPath hrootPath => ?_
  refine (decides_base64 (by decide) hkeyPath).andThen fun keyPem hkeyPem => ?_
  refine (decides_base64 (by decide) hcertPath).andThen fun certPem hcertPem => ?_
  refine (decides_root hrootPath).andThen fun rootPem hrootPem => ?_
  refine (decides_key hkeyPath hkeyPem).andThen fun key hkey => ?_
  refine (decides_certificates (by decide) hcertPath hcertPem).andThen fun certificates hcerts => ?_
  refine (decides_certificates (by decide) hrootPath hrootPem).andThen fun roots hroots => ?_
  refine runs_nil fun role => ?_
  cases role with
  | key => exact ⟨keyPath, hkeyPath, hkeyPem, hkey⟩
  | certificate => exact ⟨certPath, hcertPath, hcertPem, hcerts⟩
  | root => exact ⟨rootPath, hrootPath, hrootPem, hroots⟩

section

variable {fault : ConfigFault} {credentials : Credentials}

theorem foundIn_of_load (h : load files tls = .ok credentials) : FoundIn files tls credentials := by
  have hruns := runs_load files tls
  rw [h] at hruns
  exact hruns.2

theorem sound_of_load (h : load files tls = .ok credentials) (role : Role) : Sound files tls role :=
  (foundIn_of_load h).sound role

theorem firstFault_of_load (h : load files tls = .error fault) : FirstFault files tls order fault := by
  have hruns := runs_load files tls
  rw [h] at hruns
  exact hruns

theorem exists_load (h : ∀ role, Sound files tls role) : ∃ credentials, load files tls = .ok credentials := by
  cases hload : load files tls with
  | error fault =>
    obtain ⟨before, check, after, -, -, hfails⟩ := firstFault_of_load hload
    exact absurd hfails (passes_of_sound h check fault)
  | ok credentials => exact ⟨credentials, rfl⟩

theorem FirstFault.kind {checks : List Check} (h : FirstFault files tls checks fault) :
    (∃ detail, fault = .tls detail) ∨ ∃ path why, fault = .readFailed path why := by
  obtain ⟨before, check, after, -, -, hfails⟩ := h
  cases hfails with
  | unread role path why => exact .inr ⟨path, why, rfl⟩
  | _ => exact .inl ⟨_, rfl⟩

end

/-! ### What is read -/

/-- The files that are read: none before all paths are set, and none after one whose content cannot be
had. -/
def reads (files : Files) (tls : Settings.Tls) : List String :=
  match tls.keyPath, tls.certPath, tls.rootPath with
  | some key, some certificate, some root =>
    if (readBase64 files key).isOk = false then [key]
    else if (readBase64 files certificate).isOk = false then [key, certificate]
    else [key, certificate, root]
  | _, _, _ => []

theorem reads_of_unset {role : Role} (h : role.path? tls = none) : reads files tls = [] := by
  rw [reads]
  cases role with
  | key => rw [show tls.keyPath = none from h]
  | certificate => rw [show tls.certPath = none from h]; cases tls.keyPath <;> rfl
  | root => rw [show tls.rootPath = none from h]; cases tls.keyPath <;> cases tls.certPath <;> rfl

theorem readFile_congr (h : files'.read path = files.read path) : readFile files' path = readFile files path := by
  rw [readFile, readFile, h]

theorem readBase64_congr (h : files'.read path = files.read path) :
    readBase64 files' path = readBase64 files path := by
  rw [readBase64, readBase64, readFile_congr h]

theorem load_congr (h : ∀ path ∈ reads files tls, files'.read path = files.read path) :
    load files' tls = load files tls := by
  obtain ⟨enabled, keyPath, certPath, rootPath⟩ := tls
  cases keyPath with
  | none => rfl
  | some keyPath =>
    cases certPath with
    | none => rfl
    | some certPath =>
      cases rootPath with
      | none => rfl
      | some rootPath =>
        simp only [reads] at h
        simp only [load, required, bind, Except.bind]
        have hkey : readBase64 files' keyPath = readBase64 files keyPath := by
          refine readBase64_congr (h keyPath ?_)
          split_ifs <;> simp
        rw [hkey]
        cases hkeyPem : readBase64 files keyPath with
        | error fault => rfl
        | ok keyPem =>
          rw [hkeyPem, if_neg (by simp [Except.isOk, Except.toBool])] at h
          have hcert : readBase64 files' certPath = readBase64 files certPath := by
            refine readBase64_congr (h certPath ?_)
            split_ifs <;> simp
          rw [hcert]
          cases hcertPem : readBase64 files certPath with
          | error fault => rfl
          | ok certPem =>
            rw [hcertPem, if_neg (by simp [Except.isOk, Except.toBool])] at h
            rw [readFile_congr (h rootPath (by simp))]

end Chaincode.Credentials
