import Rog.Proto
import Rog.Lib.Base64
import Rog.Lib.ChaCha20Poly1305
import Rog.Lib.Sha256

/-!
# Encrypted bytes and fields

`util/crypto.rs`. A ciphertext travels with its nonce in front; a text field is encrypted as
bytes and carried in base64. The random nonce of each encryption is an argument here.
-/

namespace Rog

open Io

namespace CryptoCrates

variable (x : CryptoCrates)

def deriveKey (password : String) : Bytes := x.sha256 (asBytes password)

def encryptBytes (nonce : Nonce) (plaintext : Bytes) (password : String) : Io Bytes := do
  let key := x.deriveKey password
  let ciphertext ← mapErr (fun e ↦ s!"encrypt error: {e}") (x.encrypt key nonce plaintext)
  return nonce.bytes ++ ciphertext

def decryptBytes (combined : Bytes) (password : String) : Io Bytes :=
  let key := x.deriveKey password
  if h : combined.length < 12 then other "ciphertext too short"
  else
    let nonce : Nonce := ⟨combined.take 12, by simp; omega⟩
    mapErr (fun e ↦ s!"decrypt error: {e}") (x.decrypt key nonce (combined.drop 12))

def encryptField (nonce : Nonce) (plaintext : String) (password : String) : Io String := do
  let combined ← x.encryptBytes nonce (asBytes plaintext) password
  return x.base64Encode combined

def decryptField (ciphertext : String) (password : String) : Io String := do
  let combined ← mapErr (fun e ↦ s!"base64 decode error: {e}") (x.base64Decode ciphertext)
  let plaintext ← x.decryptBytes combined password
  match fromUtf8 plaintext with
  | some s => return s
  | none => other s!"utf8 error: {Lib.utf8Error plaintext}"

variable {x} {nonce : Nonce} {password : String}

theorem encryptBytes_eq_ok {plaintext combined : Bytes}
    (h : x.encryptBytes nonce plaintext password = .ok combined) :
    ∃ ciphertext, x.encrypt (x.deriveKey password) nonce plaintext = .ok ciphertext ∧
      combined = nonce.bytes ++ ciphertext := by
  obtain ⟨ciphertext, hcipher, hcombined⟩ := bind_eq_ok h
  exact ⟨ciphertext, mapErr_eq_ok hcipher, (Except.ok.inj hcombined).symm⟩

theorem encryptBytes_ne_nil {plaintext combined : Bytes}
    (h : x.encryptBytes nonce plaintext password = .ok combined) : combined ≠ [] := by
  obtain ⟨ciphertext, -, rfl⟩ := encryptBytes_eq_ok h
  have := nonce.length_bytes
  intro hnil
  simp [(List.append_eq_nil_iff.mp hnil).1] at this

namespace RoundTrips

theorem decryptBytes (hx : x.RoundTrips) {plaintext combined : Bytes}
    (h : x.encryptBytes nonce plaintext password = .ok combined) :
    x.decryptBytes combined password = .ok plaintext := by
  obtain ⟨ciphertext, hcipher, rfl⟩ := encryptBytes_eq_ok h
  have hlong : ¬ (nonce.bytes ++ ciphertext).length < 12 := by
    rw [List.length_append, nonce.length_bytes]
    omega
  have htake : (nonce.bytes ++ ciphertext).take 12 = nonce.bytes :=
    List.take_left' nonce.length_bytes
  have hdrop : (nonce.bytes ++ ciphertext).drop 12 = ciphertext :=
    List.drop_left' nonce.length_bytes
  simp only [CryptoCrates.decryptBytes, hlong, dite_false, htake, hdrop,
    hx.decrypt_encrypt _ _ _ _ hcipher]
  rfl

theorem decryptField (hx : x.RoundTrips) {plaintext field : String}
    (h : x.encryptField nonce plaintext password = .ok field) :
    x.decryptField field password = .ok plaintext := by
  obtain ⟨combined, hcombined, hfield⟩ := bind_eq_ok h
  obtain rfl : x.base64Encode combined = field := Except.ok.inj hfield
  have hplaintext := hx.decryptBytes hcombined
  simp only [CryptoCrates.decryptField, hx.base64Decode_encode, mapErr]
  simp only [bind, Except.bind, hplaintext, fromUtf8_asBytes]
  rfl

end RoundTrips

/-! ## The algorithms themselves -/

/-- What the crates compute. -/
def standard : CryptoCrates where
  sha256 := Lib.Sha256.hash
  encrypt key nonce plaintext := Lib.ChaCha20Poly1305.encrypt key nonce.bytes plaintext
  decrypt key nonce input := Lib.ChaCha20Poly1305.decrypt key nonce.bytes input
  base64Encode bytes := String.ofList (Lib.Base64.encode bytes)
  base64Decode s :=
    match Lib.Base64.decode s.toList with
    | some bytes => .ok bytes
    | none => .error "Invalid input"

theorem standard_encryptBytes (nonce : Nonce) {plaintext : Bytes} (password : String)
    (h : ¬Lib.ChaCha20Poly1305.TooLong plaintext.length) :
    ∃ combined, standard.encryptBytes nonce plaintext password = .ok combined ∧
      combined.length = plaintext.length + 28 := by
  obtain ⟨output, houtput, hlength⟩ := Lib.ChaCha20Poly1305.encrypt_of_short
    (standard.deriveKey password) nonce.bytes h
  refine ⟨nonce.bytes ++ output, ?_, ?_⟩
  · have hencrypt : standard.encrypt (standard.deriveKey password) nonce plaintext = .ok output :=
      houtput
    simp only [encryptBytes, hencrypt, bind, Except.bind, mapErr]
    rfl
  · rw [List.length_append, nonce.length_bytes, hlength]
    omega

theorem standard_encryptField (nonce : Nonce) {plaintext : String} (password : String)
    (h : ¬Lib.ChaCha20Poly1305.TooLong (asBytes plaintext).length) :
    ∃ field, standard.encryptField nonce plaintext password = .ok field ∧
      (asBytes field).length = ((asBytes plaintext).length + 30) / 3 * 4 := by
  obtain ⟨combined, hcombined, hlength⟩ := standard_encryptBytes nonce password h
  refine ⟨standard.base64Encode combined, ?_, ?_⟩
  · simp only [encryptField, hcombined, bind, Except.bind]
    rfl
  · rw [standard, asBytes_ofList, Lib.utf8_of_ascii (Lib.Base64.ascii_encode combined),
      List.length_map, Lib.Base64.length_encode, hlength]

theorem standard_roundTrips : standard.RoundTrips := by
  constructor
  · intro key nonce plaintext ciphertext h
    exact Lib.ChaCha20Poly1305.decrypt_encrypt h
  · intro bytes
    simp [standard, Lib.Base64.decode_encode]

end CryptoCrates

end Rog
