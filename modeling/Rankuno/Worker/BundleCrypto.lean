import Rankuno.Foundation.EncryptThenMac
import Rankuno.Python.Digests
import Rankuno.Python.Quote

/-!
# Bundles at rest

`worker_bundle_crypto.py`: an uploaded bundle is stored encrypted under a key of the server.
`HMAC-SHA256` is a parameter, any function to 32 bytes. The key stream is as long as the bundle
is, so that the exclusive or of the two undoes itself; what is stored is an encryption with a
tag over it.
-/

namespace Rankuno

open Python

/-- How encrypting or decrypting a bundle may fail. -/
inductive BundleCryptoError where
  | bundleDecryption (detail : String)
  | valueError
  deriving DecidableEq

/-- `_NONCE_BYTES`. -/
def nonceBytes : Nat := 16

/-- `_TAG_BYTES`. -/
def tagBytes : Nat := 32

/-- `_BLOCK_BYTES`. -/
def blockBytes : Nat := 32

/-- `n.to_bytes(size, "big")`, of a number that fits. -/
def toBytes : (size : Nat) → (n : Nat) → Bytes
  | 0, _ => []
  | size + 1, n => toBytes size (n / 256) ++ [UInt8.ofNat n]

variable (hmac : Hmac)

/-- The keys for the key stream and for the tag. -/
structure BundleSubkeys where
  encKey : Bytes
  macKey : Bytes

/-- `_subkeys`. -/
def bundleSubkeys (secret : Text) : BundleSubkeys where
  encKey := hmac (Utf8.encode secret) (Utf8.encode "rankuno-bundle-enc".toList)
  macKey := hmac (Utf8.encode secret) (Utf8.encode "rankuno-bundle-mac".toList)

/-- The loop of `_keystream`, in as many rounds as it may have. The counter fits into its eight
bytes: no `bytes` object is long enough for a greater one. -/
def keystreamBlocks (key nonce : Bytes) (length : Nat) : (rounds counter produced : Nat) → Bytes
  | 0, _, _ => []
  | rounds + 1, counter, produced =>
    if produced < length then
      (hmac key (nonce ++ toBytes 8 counter)).1 ++
        keystreamBlocks key nonce length rounds (counter + 1) (produced + blockBytes)
    else []

/-- `_keystream`. -/
def bundleKeystream (key nonce : Bytes) (length : Nat) : Bytes :=
  (keystreamBlocks hmac key nonce length length 0 0).take length

/-- `_xor`, which is strict about the lengths. -/
def xorBytes (data keystream : Bytes) : Except BundleCryptoError Bytes :=
  if data.length = keystream.length then .ok (data.zipWith (· ^^^ ·) keystream)
  else .error .valueError

/-- `encrypt_bytes`, with the nonce that `token_bytes` gives. -/
def encryptBytes (secret : Text) (nonce : Sized nonceBytes) (data : Bytes) :
    Except BundleCryptoError Bytes := do
  let keys := bundleSubkeys hmac secret
  let ciphertext ← xorBytes data (bundleKeystream hmac keys.encKey nonce data.length)
  return nonce ++ ciphertext ++ hmac keys.macKey (nonce ++ ciphertext)

/-- `decrypt_bytes`. -/
def decryptBytes (secret : Text) (blob : Bytes) : Except BundleCryptoError Bytes :=
  if blob.length < nonceBytes + tagBytes then
    .error (.bundleDecryption "encrypted bundle is too short to be well-formed")
  else
    let nonce := blob.take nonceBytes
    let ciphertext := (blob.take (blob.length - tagBytes)).drop nonceBytes
    let tag := blob.drop (blob.length - tagBytes)
    let keys := bundleSubkeys hmac secret
    let expectedTag : Bytes := hmac keys.macKey (nonce ++ ciphertext)
    if expectedTag = tag then
      xorBytes ciphertext (bundleKeystream hmac keys.encKey nonce ciphertext.length)
    else .error (.bundleDecryption "encrypted bundle failed authentication")

/-! ## The scheme -/

variable {hmac} {key nonce data keystream : Bytes} {secret : Text}

theorem length_keystreamBlocks {length rounds counter produced : Nat}
    (enough : length ≤ produced + rounds) :
    length ≤ produced + (keystreamBlocks hmac key nonce length rounds counter produced).length := by
  induction rounds generalizing counter produced with
  | zero => exact enough
  | succ rounds ih =>
    rw [keystreamBlocks]
    split
    · rw [List.length_append, (hmac _ _).2]
      have enough : length ≤ produced + blockBytes + rounds := by
        rw [blockBytes]
        omega
      have rest := @ih (counter + 1) (produced + blockBytes) enough
      rw [blockBytes] at rest
      rw [blockBytes]
      omega
    · next done => exact Nat.le_trans (Nat.le_of_not_lt done) (Nat.le_add_right _ _)

@[simp] theorem length_bundleKeystream {length : Nat} :
    (bundleKeystream hmac key nonce length).length = length := by
  have covers : length ≤ 0 + (keystreamBlocks hmac key nonce length length 0 0).length :=
    length_keystreamBlocks (Nat.le_of_eq (Nat.zero_add length).symm)
  rw [Nat.zero_add] at covers
  rw [bundleKeystream, List.length_take, Nat.min_eq_left covers]

theorem xor_xor (same : data.length = keystream.length) :
    (data.zipWith (· ^^^ ·) keystream).zipWith (· ^^^ ·) keystream = data := by
  induction data generalizing keystream with
  | nil => rfl
  | cons a data ih =>
    cases keystream with
    | nil => cases same
    | cons b keystream =>
      rw [List.zipWith_cons_cons, List.zipWith_cons_cons, ih (Nat.succ.inj same),
        UInt8.xor_assoc, UInt8.xor_self, UInt8.xor_zero]

variable (hmac secret)

/-- The masking of a bundle with its key stream, and the tag over it. -/
def bundleScheme : EncryptThenMac UInt8 where
  nonceSize := nonceBytes
  tagSize := tagBytes
  mask nonce data := data.zipWith (· ^^^ ·)
    (bundleKeystream hmac (bundleSubkeys hmac secret).encKey nonce data.length)
  tag body := hmac (bundleSubkeys hmac secret).macKey body
  mask_mask nonce data := by
    rw [List.length_zipWith, length_bundleKeystream, Nat.min_self]
    exact xor_xor length_bundleKeystream.symm
  length_mask nonce data := by
    rw [List.length_zipWith, length_bundleKeystream, Nat.min_self]
  length_tag body := (hmac _ body).2

theorem encryptBytes_eq (nonce : Sized nonceBytes) (data : Bytes) :
    encryptBytes hmac secret nonce data = .ok ((bundleScheme hmac secret).encrypt nonce data) := by
  rw [encryptBytes, xorBytes, if_pos length_bundleKeystream.symm]
  rfl

theorem decryptBytes_eq (blob : Bytes) :
    (decryptBytes hmac secret blob).toOption = (bundleScheme hmac secret).decrypt? blob ∧
      decryptBytes hmac secret blob ≠ .error .valueError := by
  rw [decryptBytes, EncryptThenMac.decrypt?]
  split
  · next short => exact ⟨(if_pos short).symm, by rintro ⟨⟩⟩
  · next long =>
    have long : ¬blob.length < (bundleScheme hmac secret).nonceSize +
      (bundleScheme hmac secret).tagSize := long
    rw [if_neg long]
    dsimp only
    split
    · next right =>
      rw [xorBytes, if_pos length_bundleKeystream.symm]
      exact ⟨(if_pos right).symm, by rintro ⟨⟩⟩
    · next wrong => exact ⟨(if_neg wrong).symm, by rintro ⟨⟩⟩

theorem decryptBytes_eq_ok {blob data : Bytes} : decryptBytes hmac secret blob = .ok data ↔
    (bundleScheme hmac secret).decrypt? blob = some data := by
  rw [← (decryptBytes_eq hmac secret blob).1]
  cases decryptBytes hmac secret blob with
  | ok read => exact ⟨fun same => congrArg some (Except.ok.inj same),
      fun same => congrArg Except.ok (Option.some.inj same)⟩
  | error =>
    constructor
    · rintro ⟨⟩
    · rintro ⟨⟩

/-- What decrypting may refuse a blob with. -/
def Refused (result : Except BundleCryptoError Bytes) : Prop :=
  ∃ detail, result = .error (.bundleDecryption detail)

theorem refused_iff {blob : Bytes} : Refused (decryptBytes hmac secret blob) ↔
    (bundleScheme hmac secret).decrypt? blob = none := by
  rw [← (decryptBytes_eq hmac secret blob).1]
  have never := (decryptBytes_eq hmac secret blob).2
  cases same : decryptBytes hmac secret blob with
  | ok read =>
    constructor
    · rintro ⟨_, ⟨⟩⟩
    · rintro ⟨⟩
  | error error =>
    cases error with
    | bundleDecryption detail => exact ⟨fun _ => rfl, fun _ => ⟨detail, rfl⟩⟩
    | valueError => exact absurd same never

/-- Encrypting and decrypting are inverse, and only what was encrypted is decrypted. -/
structure InverseAuthenticated : Prop where
  inverse : ∀ (nonce : Sized nonceBytes) (data : Bytes), ∃ blob,
    encryptBytes hmac secret nonce data = .ok blob ∧ blob.length = data.length + 48 ∧
      decryptBytes hmac secret blob = .ok data
  authentic : ∀ blob data, decryptBytes hmac secret blob = .ok data →
    ∃ nonce : Sized nonceBytes, nonce.1 = blob.take nonceBytes ∧
      encryptBytes hmac secret nonce data = .ok blob
  one_blob : ∀ blob blob' data, decryptBytes hmac secret blob = .ok data →
    decryptBytes hmac secret blob' = .ok data → blob.take nonceBytes = blob'.take nonceBytes →
      blob = blob'
  short : ∀ blob : Bytes, blob.length < 48 → Refused (decryptBytes hmac secret blob)
  altered : ∀ body tag tag' : Bytes, tag.length = tagBytes → tag'.length = tagBytes → tag' ≠ tag →
    (∃ data, decryptBytes hmac secret (body ++ tag) = .ok data) →
      Refused (decryptBytes hmac secret (body ++ tag'))
  refuses : ∀ blob, (∃ data, decryptBytes hmac secret blob = .ok data) ∨
    Refused (decryptBytes hmac secret blob)

/-- **Encrypting and decrypting bundles are inverse, and only what was encrypted is decrypted.** -/
theorem inverse_authenticated (hmac : Hmac) (secret : Text) : InverseAuthenticated hmac secret := by
  have made {blob data : Bytes} (read : decryptBytes hmac secret blob = .ok data) :
      nonceBytes + tagBytes ≤ blob.length ∧
        blob = (bundleScheme hmac secret).encrypt (blob.take nonceBytes) data :=
    EncryptThenMac.decrypt?_eq_some.mp ((decryptBytes_eq_ok hmac secret).mp read)
  have refuses {blob : Bytes} (unread : ∀ data, decryptBytes hmac secret blob ≠ .ok data) :
      Refused (decryptBytes hmac secret blob) := by
    rw [refused_iff, Option.eq_none_iff_forall_ne_some]
    exact fun data read => unread data ((decryptBytes_eq_ok hmac secret).mpr read)
  refine ⟨fun nonce data => ⟨_, encryptBytes_eq hmac secret nonce data, ?_, ?_⟩, ?_, ?_, ?_, ?_, ?_⟩
  · rw [EncryptThenMac.length_encrypt, nonce.2, Nat.add_comm nonceBytes, Nat.add_assoc]
    rfl
  · exact (decryptBytes_eq_ok hmac secret).mpr (EncryptThenMac.decrypt?_encrypt nonce.2)
  · intro blob data read
    obtain ⟨long, same⟩ := made read
    refine ⟨⟨blob.take nonceBytes, ?_⟩, rfl, ?_⟩
    · exact List.length_take_of_le (Nat.le_trans (Nat.le_add_right _ _) long)
    · rw [encryptBytes_eq, ← same]
  · intro blob blob' data read read' nonce
    rw [(made read).2, (made read').2, nonce]
  · intro blob short
    refine refuses fun data read => ?_
    exact absurd (made read).1 (Nat.not_le.mpr short)
  · rintro body tag tag' sized sized' other ⟨data, read⟩
    refine refuses fun data' read' => other ?_
    -- Both blobs have the nonce and the masked text of the first, which make the tag.
    have parts {last : Bytes} (sized : last.length = tagBytes) {data : Bytes}
        (read : decryptBytes hmac secret (body ++ last) = .ok data) :
        last = hmac (bundleSubkeys hmac secret).macKey body := by
      obtain ⟨long, same⟩ := made read
      have first : body = (body ++ last).take nonceBytes ++ (bundleScheme hmac secret).mask
          ((body ++ last).take nonceBytes) data :=
        (List.append_inj' same (by rw [sized]; exact ((hmac _ _).2).symm)).1
      rw [EncryptThenMac.encrypt, ← first] at same
      exact List.append_cancel_left same
    rw [parts sized' read', parts sized read]
  · intro blob
    by_cases read : ∃ data, decryptBytes hmac secret blob = .ok data
    · exact Or.inl read
    · exact Or.inr (refuses (not_exists.mp read))

end Rankuno
