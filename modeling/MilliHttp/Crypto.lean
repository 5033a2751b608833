-- Encryption levels, the cryptographic primitives the QUIC stack is compiled with,
-- and the key schedule of RFC 9001 (crypto/mod.rs, crypto/key_schedule.rs,
-- crypto/rustcrypto.rs). The primitives themselves come from other crates: here they
-- are parameters that carry the lengths their documentation promises.
import MilliHttp.Varint

open bytes

namespace milli_http.crypto

/-! ## Encryption levels -/

/-- Encryption level: which keys protect a packet. -/
inductive Level where
  | Initial
  | Handshake
  | Application
  deriving DecidableEq, Repr

/-- A `[T; 3]` indexed by `level_index`. -/
structure PerLevel (α : Type) where
  initial : α
  handshake : α
  application : α
  deriving DecidableEq, Repr

namespace PerLevel

variable {α : Type}

/-- `a[level_index(level)]`. -/
def get (a : PerLevel α) : Level → α
  | .Initial => a.initial
  | .Handshake => a.handshake
  | .Application => a.application

/-- `a[level_index(level)] = x`. -/
def set (a : PerLevel α) (level : Level) (x : α) : PerLevel α :=
  match level with
  | .Initial => { a with initial := x }
  | .Handshake => { a with handshake := x }
  | .Application => { a with application := x }

/-- `[x; 3]`. -/
def replicate (x : α) : PerLevel α := ⟨x, x, x⟩

@[simp] theorem get_set_self (a : PerLevel α) (l : Level) (x : α) : (a.set l x).get l = x := by
  cases l <;> rfl

@[simp] theorem get_set_ne (a : PerLevel α) {l l' : Level} (x : α) (h : l' ≠ l) :
    (a.set l x).get l' = a.get l' := by
  cases l <;> cases l' <;> first | rfl | exact absurd rfl h

theorem set_get_self (a : PerLevel α) (l : Level) : a.set l (a.get l) = a := by
  cases l <;> rfl

theorem set_eq_self {a : PerLevel α} {l : Level} {x : α} (h : a.get l = x) : a.set l x = a :=
  h ▸ set_get_self a l

end PerLevel

/-! ## Cipher suites -/

/-- TLS cipher suites the crate supports. -/
inductive CipherSuite where
  | TlsAes128GcmSha256
  | TlsChacha20Poly1305Sha256
  deriving DecidableEq, Repr

namespace CipherSuite

def to_u16 : CipherSuite → Nat
  | TlsAes128GcmSha256 => 0x1301
  | TlsChacha20Poly1305Sha256 => 0x1303

def from_u16 (v : Nat) : Option CipherSuite :=
  if v = 0x1301 then some TlsAes128GcmSha256
  else if v = 0x1303 then some TlsChacha20Poly1305Sha256
  else none

/-- AEAD key length of the suite. -/
def key_len : CipherSuite → Nat
  | TlsAes128GcmSha256 => 16
  | TlsChacha20Poly1305Sha256 => 32

/-- Header-protection key length of the suite. -/
def hp_key_len : CipherSuite → Nat
  | TlsAes128GcmSha256 => 16
  | TlsChacha20Poly1305Sha256 => 32

end CipherSuite

/-! ## Primitives -/

/-- HKDF with SHA-256. -/
structure Hkdf where
  /-- HKDF-Extract of a salt and input keying material. -/
  extract : Bytes → Bytes → Bytes
  /-- HKDF-Expand of a pseudorandom key, an info string and an output length. -/
  okm : Bytes → Bytes → Nat → Bytes
  extract_length : ∀ salt ikm, (extract salt ikm).length = 32
  okm_length : ∀ prk info len, (okm prk info len).length = len

/-- HKDF-Expand refuses a key shorter than a digest and an output longer than 255 of them. -/
def Hkdf.expand (hkdf : Hkdf) (prk info : Bytes) (len : Nat) : Except Error Bytes :=
  if prk.length < 32 ∨ len > 255 * 32 then .error .Crypto else .ok (hkdf.okm prk info len)

/-- The AEAD tag length. -/
def TAG_LEN : Nat := 16

/-- What the source asks of a `CryptoProvider` and of its `Aead` and `HeaderProtection`:
sealing appends a tag, opening removes it, a mask has five bytes. -/
structure CryptoProvider where
  Aead : Type
  HeaderProtection : Type
  KEY_LEN : Nat
  hkdf : Hkdf
  cipher_suites : List CipherSuite
  aead : Bytes → Except Error Aead
  header_protection : Bytes → Except Error HeaderProtection
  seal_in_place : Aead → (nonce aad plaintext : Bytes) → Bytes
  open_in_place : Aead → (nonce aad ciphertext : Bytes) → Except Error Bytes
  mask : HeaderProtection → Bytes → Bytes
  seal_length : ∀ k n a p, (seal_in_place k n a p).length = p.length + TAG_LEN
  open_length : ∀ k n a c p, open_in_place k n a c = .ok p → p.length + TAG_LEN = c.length
  mask_length : ∀ k s, (mask k s).length = 5

/-- The primitives a build of the crate links: the negotiable suites `C`, the
AES-128-GCM provider of Initial packets, SHA-256, X25519 and the two signature schemes. -/
structure Primitives where
  C : CryptoProvider
  Aes128GcmProvider : CryptoProvider
  sha256 : Bytes → Bytes
  x25519_public : Bytes → Bytes
  diffie_hellman : Bytes → Bytes → Bytes
  ed25519_sign : Bytes → Bytes → Bytes
  ed25519_verify : (public_key message signature : Bytes) → Bool
  p256_sign : Bytes → Bytes → Except Error Bytes
  p256_verify : (public_key message signature : Bytes) → Bool
  aes_key_len : Aes128GcmProvider.KEY_LEN = 16
  aes_aead : ∀ key, key.length = 16 → ∃ a, Aes128GcmProvider.aead key = .ok a
  aes_header_protection :
    ∀ key, key.length = 16 → ∃ h, Aes128GcmProvider.header_protection key = .ok h

/-- Keys for one direction at one encryption level. -/
structure DirectionalKeys (P : CryptoProvider) where
  aead : P.Aead
  header_protection : P.HeaderProtection
  iv : Bytes

/-- The AEAD nonce of a packet number: the IV with the number XORed into its last 8 bytes. -/
def DirectionalKeys.nonce {P : CryptoProvider} (k : DirectionalKeys P) (packet_number : Nat) :
    Bytes :=
  k.iv.take 4 ++ (k.iv.drop 4).zipWith (· ^^^ ·) (toBe 8 packet_number)

/-! ## Key schedule -/

/-- QUIC v1 Initial salt. -/
def INITIAL_SALT_V1 : Bytes :=
  [0x38, 0x76, 0x2c, 0xf7, 0xf5, 0x59, 0x34, 0xb3, 0x4d, 0x17, 0x9a, 0xe6, 0xa4, 0xc8, 0x0c, 0xad,
   0xcc, 0xbb, 0x7f, 0x0a]

/-- HKDF-Expand-Label. -/
def hkdf_expand_label (hkdf : Hkdf) (secret label context : Bytes) (out_len : Nat) :
    Except Error Bytes :=
  let full_label := ascii "tls13 " ++ label
  let info := toBe 2 out_len ++ [UInt8.ofNat full_label.length] ++ full_label ++
    [UInt8.ofNat context.length] ++ context
  if info.length > 80 then .error .Crypto else hkdf.expand secret info out_len

/-- The client's and the server's Initial secret of a Destination Connection ID. -/
def derive_initial_secrets (hkdf : Hkdf) (dcid : Bytes) : Except Error (Bytes × Bytes) := do
  let initial_secret := hkdf.extract INITIAL_SALT_V1 dcid
  let client ← hkdf_expand_label hkdf initial_secret (ascii "client in") [] 32
  let server ← hkdf_expand_label hkdf initial_secret (ascii "server in") [] 32
  pure (client, server)

/-- The next traffic secret of a key update. -/
def derive_next_application_secret (hkdf : Hkdf) (current_secret : Bytes) : Except Error Bytes :=
  hkdf_expand_label hkdf current_secret (ascii "quic ku") [] current_secret.length

/-- Complete keys from a traffic secret, with the key lengths of `suite`. -/
def derive_directional_keys_for (P : CryptoProvider) (secret : Bytes) (suite : CipherSuite) :
    Except Error (DirectionalKeys P) := do
  let key ← hkdf_expand_label P.hkdf secret (ascii "quic key") [] suite.key_len
  let iv ← hkdf_expand_label P.hkdf secret (ascii "quic iv") [] 12
  let hp_key ← hkdf_expand_label P.hkdf secret (ascii "quic hp") [] suite.hp_key_len
  let aead ← P.aead key
  let header_protection ← P.header_protection hp_key
  pure { aead, header_protection, iv }

/-- Complete keys for the provider's own suite. -/
def derive_directional_keys (P : CryptoProvider) (secret : Bytes) :
    Except Error (DirectionalKeys P) :=
  if P.KEY_LEN = 16 then derive_directional_keys_for P secret .TlsAes128GcmSha256
  else if P.KEY_LEN = 32 then derive_directional_keys_for P secret .TlsChacha20Poly1305Sha256
  else .error .Crypto

/-! ## Initial keys can always be derived -/

theorem hkdf_expand_label_ok (hkdf : Hkdf) {secret : Bytes} (label : Bytes) (out_len : Nat)
    (hs : 32 ≤ secret.length) (hl : label.length ≤ 20) (ho : out_len ≤ 32) :
    ∃ out, hkdf_expand_label hkdf secret label [] out_len = .ok out ∧ out.length = out_len := by
  have hlabel : (ascii "tls13 ").length = 6 := by decide
  have hinfo : ∀ info : Bytes, hkdf.expand secret info out_len = .ok (hkdf.okm secret info out_len) :=
    fun info => if_neg (by omega)
  unfold hkdf_expand_label
  rw [if_neg (by simp [hlabel]; omega), hinfo]
  exact ⟨_, rfl, hkdf.okm_length _ _ _⟩

/-- From public values alone, both directions of the Initial level can be keyed. -/
theorem derive_directional_keys_aes_ok (X : Primitives) {secret : Bytes}
    (hs : 32 ≤ secret.length) :
    ∃ k, derive_directional_keys X.Aes128GcmProvider secret = .ok k := by
  obtain ⟨key, hkey, hkl⟩ := hkdf_expand_label_ok X.Aes128GcmProvider.hkdf
    (ascii "quic key") 16 hs (by decide) (by decide)
  obtain ⟨iv, hiv, -⟩ := hkdf_expand_label_ok X.Aes128GcmProvider.hkdf
    (ascii "quic iv") 12 hs (by decide) (by decide)
  obtain ⟨hp, hhp, hhl⟩ := hkdf_expand_label_ok X.Aes128GcmProvider.hkdf
    (ascii "quic hp") 16 hs (by decide) (by decide)
  obtain ⟨a, ha⟩ := X.aes_aead key hkl
  obtain ⟨h, hh⟩ := X.aes_header_protection hp hhl
  refine ⟨{ aead := a, header_protection := h, iv }, ?_⟩
  unfold derive_directional_keys derive_directional_keys_for
  rw [if_pos X.aes_key_len]
  simp only [CipherSuite.key_len, CipherSuite.hp_key_len, hkey, hiv, hhp, ha, hh, except_ok_bind]
  rfl

theorem derive_initial_secrets_ok (hkdf : Hkdf) (dcid : Bytes) :
    ∃ c s, derive_initial_secrets hkdf dcid = .ok (c, s) ∧ 32 ≤ c.length ∧ 32 ≤ s.length := by
  have hl : 32 ≤ (hkdf.extract INITIAL_SALT_V1 dcid).length := Nat.le_of_eq (hkdf.extract_length _ _).symm
  obtain ⟨c, hc, hcl⟩ := hkdf_expand_label_ok hkdf
    (ascii "client in") 32 hl (by decide) (by decide)
  obtain ⟨s, hs, hsl⟩ := hkdf_expand_label_ok hkdf
    (ascii "server in") 32 hl (by decide) (by decide)
  refine ⟨c, s, ?_, Nat.le_of_eq hcl.symm, Nat.le_of_eq hsl.symm⟩
  simp only [derive_initial_secrets, hc, hs, except_ok_bind]
  rfl

end milli_http.crypto
