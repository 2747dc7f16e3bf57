import Chaincode.Proofs.Message.Lossless
import Chaincode.Proofs.Start
import Chaincode.Proofs.Wire.Shortest

/-!
# The announcement of a chaincode

A chaincode announces itself with an identifier inside an envelope, each with lengths of its own. The
buffer of the identifier is never too small (`registration_eq`), whatever the name, and who reads the
envelope and then its payload finds that name and nothing else (`registration_identifies`). The name is
the configured one, with the white space around it.
-/

namespace Chaincode

open Wire

variable {name name' : String} {m m' : Envelope}

/-- The announcement of a chaincode. -/
def announcement (name : String) : Envelope := .ofKind .register (Identifier.named name).encode

/-- **The announcement is always made:** the buffer has the size of what is written. -/
theorem registration_eq (name : String) : registration name = .ok (announcement name) := by
  rw [registration, Identifier.encodeWithin_of_le (Nat.le_refl _)]
  rfl

theorem Session.stage_start (name : String) :
    (Session.start name).stage = .registering (announcement name) := by
  rw [Session.start_eq, announcement]

/-- A text is in memory, so its length can be counted with 63 bits. -/
def Text.InMemory (s : String) : Prop := s.utf8ByteSize < 2 ^ 63

instance (s : String) : Decidable (Text.InMemory s) :=
  inferInstanceAs (Decidable (s.utf8ByteSize < 2 ^ 63))

namespace Identifier

theorem fits_named (h : Text.InMemory name) : (named name).Fits where
  path := Nat.two_pow_pos 64
  name := Nat.lt_trans h (Nat.pow_lt_pow_right (by decide) (by decide))
  version := Nat.two_pow_pos 64

theorem length_encode_named_lt (h : Text.InMemory name) : (named name).encode.length < 2 ^ 64 := by
  have hfits := fits_named h
  have hsize : (named name).size = Field.writtenSize ⟨1, .text ""⟩ +
      (Field.writtenSize ⟨2, .text name⟩ + (Field.writtenSize ⟨3, .text ""⟩ + 0)) := by
    rw [size, fields, sizeFields_cons, sizeFields_cons, sizeFields_cons]
    rfl
  have hempty (tag : Nat) : Field.writtenSize ⟨tag, .text ""⟩ = 0 := rfl
  have hwritten : Field.writtenSize ⟨2, .text name⟩ ≤ 1 + (10 + name.utf8ByteSize) := by
    have hlog : name.utf8ByteSize.log2 < 64 := Varint.log2_lt hfits.name (by decide)
    have hkey : Key.size 2 = 1 := by decide
    rw [Field.writtenSize, Field.size, hkey, Value.size, Varint.size]
    split <;> omega
  rw [hempty, hempty] at hsize
  unfold Text.InMemory at h
  rw [length_encode hfits, hsize]
  omega

end Identifier

theorem fits_announcement (h : Text.InMemory name) : (announcement name).Fits where
  payload := Identifier.length_encode_named_lt h
  txid := Nat.two_pow_pos 64
  channel := Nat.two_pow_pos 64

theorem decode_announcement (h : Text.InMemory name) :
    Envelope.decode (announcement name).encode = .ok (announcement name) ∧
      Identifier.decode (announcement name).payload = .ok { name := name } :=
  ⟨Envelope.decode_encode (fits_announcement h), Identifier.decode_encode (Identifier.fits_named h)⟩

theorem announcement_inj (h : Text.InMemory name) (h' : Text.InMemory name')
    (heq : announcement name = announcement name') : name = name' := by
  have hread := (decode_announcement h).2
  rw [heq, (decode_announcement h').2] at hread
  exact (congrArg Identifier.name (Except.ok.inj hread)).symm

theorem encode_announcement_inj (h : Text.InMemory name) (h' : Text.InMemory name')
    (heq : (announcement name).encode = (announcement name').encode) : name = name' :=
  announcement_inj h h' (Envelope.encode_inj (fits_announcement h) (fits_announcement h') heq)

theorem Starts.goes_by_name {σ S : Type} {network : Network S} {files : Files} {s : Settings}
    {handler : Handler σ} {source : Option (Except SessionEnd S)} {out : Startup (Running σ S)}
    (h : Starts network files s handler source out) :
    (∀ c, out.result = .ok (.session c) → c.session = .start s.name) ∧
      ∀ listener, out.result = .ok (.serving listener) → listener.name = s.name := by
  cases h <;> simp [Conversation.start]

/-- **The announcement identifies the chaincode exactly.** It can be made for every name and is what the
session registers with: a REGISTER message without correlation, never the empty message. Whoever reads its
bytes, and its payload as an identifier, finds that name, an empty path and an empty version, so different
names are announced differently. A name that the settings are accepted for is announced as it was
configured, white space included. -/
theorem registration_identifies :
    (∀ name, ∃ m, registration name = .ok m ∧ (Session.start name).stage = .registering m ∧
      m.kind = .register ∧ m.txid = "" ∧ m.channel = "" ∧ m.isEmpty = false ∧
      (Text.InMemory name → Envelope.decode m.encode = .ok m ∧
        Identifier.decode m.payload = .ok { path := "", name := name, version := "" })) ∧
    (∀ name name' m m', Text.InMemory name → Text.InMemory name' → name ≠ name' →
      registration name = .ok m → registration name' = .ok m' → m ≠ m' ∧ m.encode ≠ m'.encode) ∧
    ∀ (s : Settings) (name : String), s.identity = .ok name → name = s.name ∧
      ∀ (σ S : Type) [MessageStream S] (network : Network S) (files : Files) (handler : Handler σ)
        (source : Option (Except SessionEnd S)),
        (∀ c, (start network files s source handler).result = .ok (.session c) →
          ∃ m, registration s.name = .ok m ∧ c.session.stage = .registering m) ∧
        ∀ listener, (start network files s source handler).result = .ok (.serving listener) →
          listener.name = s.name := by
  refine ⟨fun name => ?_, fun name name' m m' h h' hne hm hm' => ?_, fun s name hname => ?_⟩
  · have hkind : (announcement name).kind = .register := by
      simp [announcement, Envelope.kind, Envelope.ofKind, Kind.ofNumber]
    have hempty : (announcement name).isEmpty = false := by
      simp [announcement, Envelope.isEmpty, Envelope.ofKind, Kind.number]
    exact ⟨announcement name, registration_eq name, Session.stage_start name, hkind, rfl, rfl, hempty,
      decode_announcement⟩
  · rw [registration_eq] at hm hm'
    cases hm
    cases hm'
    exact ⟨mt (announcement_inj h h') hne, mt (encode_announcement_inj h h') hne⟩
  · refine ⟨(Settings.identity_eq_ok_iff.1 hname).1, ?_⟩
    intro σ S _ network files handler source
    have hstarts : Starts network files s handler source (start network files s source handler) :=
      starts_start
    obtain ⟨hsession, hserving⟩ := hstarts.goes_by_name
    refine ⟨fun c hc => ⟨announcement s.name, registration_eq s.name, ?_⟩, hserving⟩
    rw [hsession c hc, Session.stage_start]

theorem registration_identifies_spacedName : Text.InMemory " über\t" ∧ Text.InMemory "über" ∧
    ∃ m m', registration " über\t" = .ok m ∧ registration "über" = .ok m' ∧
      Identifier.decode m.payload = .ok { name := " über\t" } ∧ m.encode ≠ m'.encode ∧
      ({ name := " über\t" } : Settings).identity = .ok " über\t" := by
  obtain ⟨hmade, hdiffer, hidentity⟩ := registration_identifies
  obtain ⟨m, hm, -, -, -, -, -, hread⟩ := hmade " über\t"
  obtain ⟨m', hm', -⟩ := hmade "über"
  have hspaced : Text.InMemory " über\t" := by decide
  have hplain : Text.InMemory "über" := by decide
  have hencode := (hdiffer _ _ m m' hspaced hplain (by decide) hm hm').2
  have hname : ({ name := " über\t" } : Settings).identity = .ok " über\t" := by decide +kernel
  obtain ⟨hkept, -⟩ := hidentity _ _ hname
  exact ⟨hspaced, hplain, m, m', hm, hm', (hread hspaced).2, hencode, hkept ▸ hname⟩

end Chaincode
