import Mathlib.Data.List.Basic

/-!
# Envelopes, and how a state file is stored

`internal/stealth/stealth.go`, and `stateReadPath` and `stateWritePath` of
`internal/agent/agent.go`. In the hidden layout a state file is an AES-GCM envelope behind a magic;
a reader recognises it by the magic and takes anything else as it is. AES-GCM itself is a parameter,
with what its documentation promises: it opens what it sealed, and a sealed text is 16 bytes longer.

The files here are those without a runtime purpose, which are all but the five of
`runtimeProtectedFiles`: nothing more is done to them when they are written, and a content that
looks like a protected one is refused when they are read (`runtime_security_storage.go`).
-/

namespace OboardAgent.Stealth

abbrev Bytes := List UInt8

/-- A key of `KeyLen` bytes. -/
abbrev Key := { k : Bytes // k.length = 32 }

/-- A nonce of `nonceLen` bytes. -/
abbrev Nonce := { n : Bytes // n.length = 12 }

structure Aead where
  sealBytes : Key → Nonce → Bytes → Bytes
  openBytes : Key → Nonce → Bytes → Option Bytes
  openBytes_sealBytes : ∀ k n p, openBytes k n (sealBytes k n p) = some p
  length_of_openBytes : ∀ k n s p, openBytes k n s = some p → s.length = p.length + 16

/-- A stand-in for AES-GCM to evaluate the model with: the tag is 16 zero bytes, and nothing is
hidden. -/
def tagOnly : Aead where
  sealBytes _ _ p := p ++ List.replicate 16 0
  openBytes _ _ s :=
    if 16 ≤ s.length ∧ s.drop (s.length - 16) = List.replicate 16 0
      then some (s.take (s.length - 16)) else none
  openBytes_sealBytes _ _ p := by
    have hlength : (p ++ List.replicate 16 (0 : UInt8)).length - 16 = p.length := by
      rw [List.length_append, List.length_replicate]
      omega
    rw [hlength, List.drop_left, List.take_left, if_pos ⟨by simp, rfl⟩]
  length_of_openBytes _ _ s p h := by
    split at h
    · rename_i htag
      cases h
      rw [List.length_take]
      omega
    · cases h

def plainKey : Key := ⟨List.replicate 32 0, by simp⟩

def plainNonce : Nonce := ⟨List.replicate 12 0, by simp⟩

/-- `EnvelopeMagic`, "OBSE1". -/
def envelopeMagic : Bytes := [79, 66, 83, 69, 49]

/-- `maxSealPlaintext`, 64 MiB. -/
def maxSealPlaintext : Nat := 67108864

def isEncrypted (data : Bytes) : Bool := data.take 5 = envelopeMagic

variable (aead : Aead)

/-- `Encrypt`, with the nonce it draws. -/
def encrypt (key : Key) (nonce : Nonce) (plaintext : Bytes) : Option Bytes :=
  if maxSealPlaintext < plaintext.length then none
  else some (envelopeMagic ++ (nonce.val ++ aead.sealBytes key nonce plaintext))

def decrypt (key : Key) (data : Bytes) : Option Bytes :=
  if h : isEncrypted data = true ∧ 33 ≤ data.length then
    aead.openBytes key ⟨(data.drop 5).take 12, by rw [List.length_take, List.length_drop]; omega⟩
      ((data.drop 5).drop 12)
  else none

variable {aead} {key : Key} {nonce : Nonce} {data plaintext : Bytes}

section

variable (h : encrypt aead key nonce plaintext = some data)
include h

theorem isEncrypted_of_encrypt : isEncrypted data = true := by
  unfold encrypt at h
  split at h
  · cases h
  · cases h
    rfl

theorem length_of_encrypt : data.length = plaintext.length + 33 := by
  unfold encrypt at h
  split at h
  · cases h
  · cases h
    have hseal := aead.length_of_openBytes _ _ _ _ (aead.openBytes_sealBytes key nonce plaintext)
    rw [List.length_append, List.length_append, nonce.property, hseal]
    change 5 + (12 + (plaintext.length + 16)) = _
    omega

theorem decrypt_of_encrypt : decrypt aead key data = some plaintext := by
  have hlength := length_of_encrypt h
  unfold decrypt
  rw [dif_pos ⟨isEncrypted_of_encrypt h, by omega⟩]
  unfold encrypt at h
  split at h
  · cases h
  · cases h
    have hbody : (envelopeMagic ++ (nonce.val ++ aead.sealBytes key nonce plaintext)).drop 5
        = nonce.val ++ aead.sealBytes key nonce plaintext :=
      List.drop_left' (show envelopeMagic.length = 5 from rfl)
    have htake : (nonce.val ++ aead.sealBytes key nonce plaintext).take 12 = nonce.val :=
      List.take_left' nonce.property
    have hdrop : (nonce.val ++ aead.sealBytes key nonce plaintext).drop 12
        = aead.sealBytes key nonce plaintext :=
      List.drop_left' nonce.property
    simp only [hbody, htake, hdrop]
    exact aead.openBytes_sealBytes key nonce plaintext

end

theorem length_of_decrypt (h : decrypt aead key data = some plaintext) :
    data.length = plaintext.length + 33 := by
  unfold decrypt at h
  split at h
  · rename_i henvelope
    have hsealed := aead.length_of_openBytes _ _ _ _ h
    rw [List.length_drop, List.length_drop] at hsealed
    omega
  · cases h

/-! ## State files -/

inductive Mode where
  | standard
  | stealth (key : Key)

/-- The limit of `securefile.Read`, 32 MiB. -/
def readLimit : Nat := 33554432

/-- `protectedstate.Magic`, "OBRP1". -/
def protectedMagic : Bytes := [79, 66, 82, 80, 49]

def isProtected (raw : Bytes) : Bool := raw.take 5 = protectedMagic

/-- `openRuntimeState`, for a file without a purpose. -/
def openRuntimeState (raw : Bytes) : Option Bytes := if isProtected raw then none else some raw

theorem openRuntimeState_eq_some {raw content : Bytes} :
    openRuntimeState raw = some content ↔ raw = content ∧ isProtected content = false := by
  unfold openRuntimeState
  split
  · rename_i hprotected
    refine iff_of_false nofun ?_
    rintro ⟨rfl, hplain⟩
    exact absurd hprotected (by simp [hplain])
  · rename_i hplain
    rw [Option.some.injEq]
    exact ⟨fun h => ⟨h, by simpa [h] using hplain⟩, And.left⟩

namespace Mode

/-- `stateReadPath`, on the bytes of a file. -/
def read (aead : Aead) (mode : Mode) (raw : Bytes) : Option Bytes :=
  if readLimit < raw.length then none
  else
    match mode with
    | .standard => openRuntimeState raw
    | .stealth key =>
      if isEncrypted raw then (decrypt aead key raw).bind openRuntimeState else openRuntimeState raw

/-- `stateWritePath`: the bytes of the file. `protectRuntimeState` leaves the content alone. -/
def write (aead : Aead) (mode : Mode) (nonce : Nonce) (content : Bytes) : Option Bytes :=
  match mode with
  | .standard => some content
  | .stealth key => encrypt aead key nonce content

def Protects (mode : Mode) (raw : Bytes) : Prop :=
  match mode with
  | .standard => True
  | .stealth _ => isEncrypted raw = true

instance (mode : Mode) (raw : Bytes) : Decidable (mode.Protects raw) := by
  cases mode <;> unfold Protects <;> infer_instance

/-- A file holds a content, stored as the mode asks for; without a content there is no file. -/
def Holds (aead : Aead) (mode : Mode) (file : Option Bytes) : Option Bytes → Prop
  | none => file = none
  | some content => ∃ raw, file = some raw ∧ mode.read aead raw = some content ∧ mode.Protects raw

variable {mode : Mode} {content raw : Bytes}

theorem protects_of_write (h : mode.write aead nonce content = some raw) : mode.Protects raw := by
  cases mode with
  | standard => trivial
  | stealth key => exact isEncrypted_of_encrypt h

theorem read_of_write (h : mode.write aead nonce content = some raw) :
    mode.read aead raw = if readLimit < raw.length then none else openRuntimeState content := by
  cases mode with
  | standard =>
    cases h
    rfl
  | stealth key =>
    simp only [read, isEncrypted_of_encrypt h, if_true, decrypt_of_encrypt h, Option.bind_some]

theorem limit_of_read (h : mode.read aead raw = some content) : ¬readLimit < raw.length := by
  intro hlong
  unfold read at h
  rw [if_pos hlong] at h
  cases h

/-- What can be read is no protected content, and the bytes are the content or its envelope. -/
theorem opened_of_read (hread : mode.read aead raw = some content) (hprotects : mode.Protects raw) :
    isProtected content = false ∧
      match mode with
      | .standard => raw = content
      | .stealth key => decrypt aead key raw = some content := by
  have hlimit := limit_of_read hread
  unfold read at hread
  rw [if_neg hlimit] at hread
  cases mode with
  | standard => exact (openRuntimeState_eq_some.mp hread).symm
  | stealth key =>
    have hencrypted : isEncrypted raw = true := hprotects
    simp only [hencrypted, if_true, Option.bind_eq_some_iff] at hread
    obtain ⟨plain, hplain, hopen⟩ := hread
    obtain ⟨rfl, hplain'⟩ := openRuntimeState_eq_some.mp hopen
    exact ⟨hplain', hplain⟩

theorem length_write {raw' : Bytes} (hread : mode.read aead raw = some content)
    (hprotects : mode.Protects raw) (hwrite : mode.write aead nonce content = some raw') :
    raw'.length = raw.length := by
  have hopened := (opened_of_read hread hprotects).2
  cases mode with
  | standard =>
    cases hwrite
    exact congrArg List.length hopened.symm
  | stealth key => rw [length_of_encrypt hwrite, length_of_decrypt hopened]

variable (nonce) in
theorem Holds.rewrite {file : Option Bytes} (h : mode.Holds aead file (some content)) :
    ∃ raw', mode.write aead nonce content = some raw' ∧
      mode.Holds aead (some raw') (some content) := by
  obtain ⟨raw, -, hread, hprotects⟩ := h
  have hlimit := limit_of_read hread
  obtain ⟨hplain, hopened⟩ := opened_of_read hread hprotects
  have hwritten : ∃ raw', mode.write aead nonce content = some raw' := by
    cases mode with
    | standard => exact ⟨content, rfl⟩
    | stealth key =>
      have hlength := length_of_decrypt hopened
      have hsize : ¬maxSealPlaintext < content.length := by
        unfold maxSealPlaintext
        unfold readLimit at hlimit
        omega
      exact ⟨_, if_neg hsize⟩
  obtain ⟨raw', hwrite⟩ := hwritten
  refine ⟨raw', hwrite, raw', rfl, ?_, protects_of_write hwrite⟩
  rw [read_of_write hwrite, length_write hread hprotects hwrite, if_neg hlimit]
  exact openRuntimeState_eq_some.mpr ⟨rfl, hplain⟩

theorem not_holds_plain {key : Key} :
    ¬(Mode.stealth key).Holds aead (some content) (some content) := by
  rintro ⟨raw, hfile, hread, hprotects⟩
  cases hfile
  have hlength := length_of_decrypt (opened_of_read hread hprotects).2
  omega

/-- What a mode adds to the content of a file. -/
def overhead : Mode → Nat
  | .standard => 0
  | .stealth _ => 33

/-- **A state that is written is read back exactly if its file is within the reader's limit** and it
does not look like a protected one. The writer of the hidden layout takes contents up to twice as
long. -/
theorem reads_back_iff (aead : Aead) (mode : Mode) (nonce : Nonce) (content : Bytes) :
    (∃ raw, mode.write aead nonce content = some raw ∧ mode.read aead raw = some content) ↔
      content.length + mode.overhead ≤ readLimit ∧ isProtected content = false := by
  have hlength : ∀ {raw}, mode.write aead nonce content = some raw →
      raw.length = content.length + mode.overhead := by
    intro raw hraw
    cases mode with
    | standard =>
      cases hraw
      rfl
    | stealth key => exact length_of_encrypt hraw
  constructor
  · rintro ⟨raw, hwrite, hread⟩
    have hlimit := limit_of_read hread
    rw [read_of_write hwrite, if_neg hlimit] at hread
    rw [← hlength hwrite]
    exact ⟨Nat.not_lt.mp hlimit, (openRuntimeState_eq_some.mp hread).2⟩
  · rintro ⟨hle, hplain⟩
    have hwritten : ∃ raw, mode.write aead nonce content = some raw := by
      cases mode with
      | standard => exact ⟨content, rfl⟩
      | stealth key =>
        refine ⟨_, if_neg ?_⟩
        unfold maxSealPlaintext
        unfold readLimit at hle
        omega
    obtain ⟨raw, hwrite⟩ := hwritten
    refine ⟨raw, hwrite, ?_⟩
    rw [read_of_write hwrite, hlength hwrite, if_neg (Nat.not_lt.mpr hle)]
    exact openRuntimeState_eq_some.mpr ⟨rfl, hplain⟩

end Mode

end OboardAgent.Stealth
