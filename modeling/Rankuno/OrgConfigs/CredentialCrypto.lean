import Rankuno.Foundation.IdealAead
import Rankuno.Foundation.Table
import Rankuno.Python.Digests
import Rankuno.Python.Partition
import Rankuno.Python.Utf8RoundTrip

/-!
# Stored credentials and their slots

`gsc_credential_crypto.py`. Each credential is encrypted with the place it belongs to as its
associated data: the product, the key, the organization, and for Search Console the account and
the field. An account may have any name, with the separator in it too; none of the other parts
has, so that the place can be read off the associated data.

`AESGCM` is an ideal cipher with tags of its own length.
-/

namespace Rankuno.CredentialCrypto

open Python Python.Text

/-- `CredentialField`. -/
inductive CredentialField where
  | refreshToken
  | clientSecret
  deriving DecidableEq

def CredentialField.text : CredentialField → Text
  | refreshToken => "refresh_token".toList
  | clientSecret => "client_secret".toList

/-- `_KEY_BYTES`. -/
def keyBytes : Nat := 32

/-- `_NONCE_BYTES`. -/
def nonceBytes : Nat := 12

/-- `_TAG_BYTES`. -/
def tagBytes : Nat := 16

/-- `_AAD_LABEL`. -/
def aadLabel : Text := "rankuno-gsc-cred-v1".toList

/-- `_GA4_AAD_LABEL`. -/
def ga4AadLabel : Text := "rankuno-ga4-cred-v1".toList

/-- `_GA4_FIELD`. -/
def ga4Field : Text := "ga4_refresh_token".toList

/-- `_KEY_ID_LABEL`. -/
def keyIdLabel : Text := "rankuno-gsc-cred-key-id-v1".toList

/-- The name of an organization, after its pattern. -/
abbrev OrgId := {s : Text // 1 ≤ s.length ∧ s.length ≤ 64 ∧ s.all isSlugChar = true}

/-- `key_id_for`. -/
def keyIdFor (hmac : Hmac) (key : Bytes) : Text :=
  (hex (hmac key (Utf8.encode keyIdLabel))).take 8

/-- `b"|".join`. -/
def joinBytes (parts : List Bytes) : Bytes := [UInt8.ofNat 124].intercalate parts

/-- `_aad`. -/
def aad (keyId orgId accountName : Text) (field : CredentialField) : Bytes :=
  joinBytes [Utf8.encode aadLabel, Utf8.encode keyId, Utf8.encode orgId, Utf8.encode accountName,
    Utf8.encode field.text]

/-- `_ga4_aad`. -/
def ga4Aad (keyId orgId : Text) : Bytes :=
  joinBytes [Utf8.encode ga4AadLabel, Utf8.encode keyId, Utf8.encode orgId, Utf8.encode ga4Field]

/-- An encryption by `AESGCM`. -/
abbrev CredentialBox := Box Bytes Bytes Bytes Bytes Bytes

/-- What is stored of an encryption. -/
def blobOf (box : CredentialBox) : Bytes := box.nonce ++ box.body

/-- `AESGCM`: ideal, with a nonce of twelve bytes and a tag after what is encrypted. -/
structure AesGcm extends IdealAead Bytes Bytes Bytes Bytes Bytes where
  nonces : ∀ box ∈ made, box.nonce.length = nonceBytes
  tagged : ∀ box ∈ made, box.body.length = box.plain.length + tagBytes

/-- How the cipher fails. -/
inductive CredentialError where
  | configuration (message : String)
  | gscCredentialDecryption (accountName : Text)
  | ga4CredentialDecryption
  deriving DecidableEq

/-- `GscCredentialCipher`: the keys by their ids, and the id of the one that writes. -/
structure GscCredentialCipher where
  keyId : Text
  keys : Dict Text Bytes

section Cipher

variable (hmac : Hmac)

/-- `__init__`. -/
def GscCredentialCipher.init (current : Bytes) (previous : Option Bytes) :
    Except CredentialError GscCredentialCipher :=
  if current.length ≠ keyBytes ∨ previous.any fun key => key.length ≠ keyBytes then
    .error (.configuration "GSC credential keys must be exactly 32 bytes.")
  else
    let keyId := keyIdFor hmac current
    let keys : Dict Text Bytes := Table.put .empty (keyId, current)
    match previous with
    | none => .ok ⟨keyId, keys⟩
    | some previous =>
      if keyIdFor hmac previous = keyId then
        .error (.configuration ("GSC_CREDENTIAL_ENCRYPTION_KEY_PREVIOUS must differ from " ++
          "GSC_CREDENTIAL_ENCRYPTION_KEY."))
      else .ok ⟨keyId, Table.put keys (keyIdFor hmac previous, previous)⟩

variable (cipher : GscCredentialCipher) (gcm : AesGcm)

/-- What the cipher has `AESGCM` encrypt, with the nonce that `urandom` gives and the body that
`AESGCM` answers. -/
def encryptUnder (nonce : Sized nonceBytes) (body : Bytes) (plaintext : Text) (data : Bytes) :
    Option CredentialBox :=
  (cipher.keys.get cipher.keyId).map fun key =>
    ⟨key, nonce, data, Utf8.encode plaintext, body⟩

/-- `encrypt`. -/
def encrypt (nonce : Sized nonceBytes) (body : Bytes) (plaintext orgId accountName : Text)
    (field : CredentialField) : Option CredentialBox :=
  encryptUnder cipher nonce body plaintext (aad cipher.keyId orgId accountName field)

/-- `encrypt_ga4_refresh_token`. -/
def encryptGa4RefreshToken (nonce : Sized nonceBytes) (body : Bytes) (plaintext orgId : Text) :
    Option CredentialBox :=
  encryptUnder cipher nonce body plaintext (ga4Aad cipher.keyId orgId)

/-- What the two ways to decrypt have in common. -/
def decryptUnder (blob : Bytes) (keyId : Text) (data : Bytes) (error : CredentialError) :
    Except CredentialError Text :=
  match cipher.keys.get keyId with
  | none => .error error
  | some key =>
    if blob.length < nonceBytes + tagBytes then .error error
    else
      match gcm.decrypt key (blob.take nonceBytes) data (blob.drop nonceBytes) with
      | none => .error error
      | some plaintext =>
        match Utf8.decode plaintext with
        | none => .error error
        | some plaintext => .ok plaintext

/-- `decrypt`. -/
def decrypt (blob : Bytes) (keyId orgId accountName : Text) (field : CredentialField) :
    Except CredentialError Text :=
  decryptUnder cipher gcm blob keyId (aad keyId orgId accountName field)
    (.gscCredentialDecryption accountName)

/-- `decrypt_ga4_refresh_token`. -/
def decryptGa4RefreshToken (blob : Bytes) (keyId orgId : Text) : Except CredentialError Text :=
  decryptUnder cipher gcm blob keyId (ga4Aad keyId orgId) .ga4CredentialDecryption

end Cipher

/-! ## Slots -/

/-- What a credential is for. -/
inductive Product where
  | gsc (accountName : Text) (field : CredentialField)
  | ga4

/-- The place of a credential. -/
structure Slot where
  keyId : Text
  orgId : OrgId
  product : Product

namespace Slot

variable (slot : Slot)

/-- What is encrypted along with the credential. -/
def data : Bytes :=
  match slot.product with
  | .gsc accountName field => aad slot.keyId slot.orgId accountName field
  | .ga4 => ga4Aad slot.keyId slot.orgId

/-- The error for a credential that does not open. -/
def error : CredentialError :=
  match slot.product with
  | .gsc accountName _ => .gscCredentialDecryption accountName
  | .ga4 => .ga4CredentialDecryption

/-- A credential is encrypted for a slot of the key that writes. -/
def encrypt (cipher : GscCredentialCipher) (nonce : Sized nonceBytes) (body : Bytes)
    (plaintext : Text) : Option CredentialBox :=
  match slot.product with
  | .gsc accountName field =>
    CredentialCrypto.encrypt cipher nonce body plaintext slot.orgId accountName field
  | .ga4 => encryptGa4RefreshToken cipher nonce body plaintext slot.orgId

def decrypt (cipher : GscCredentialCipher) (gcm : AesGcm) (blob : Bytes) :
    Except CredentialError Text :=
  match slot.product with
  | .gsc accountName field =>
    CredentialCrypto.decrypt cipher gcm blob slot.keyId slot.orgId accountName field
  | .ga4 => decryptGa4RefreshToken cipher gcm blob slot.keyId slot.orgId

end Slot

/-- What was encrypted for a slot opens there, with the key that wrote it, and nothing else opens
in any slot. -/
structure OpensInItsSlot (hmac : Hmac) (gcm : AesGcm) : Prop where
  injective : ∀ (key key' : Bytes) (slot slot' : Slot), slot.keyId = keyIdFor hmac key →
    slot'.keyId = keyIdFor hmac key' → slot.data = slot'.data → slot = slot'
  returns : ∀ current previous cipher current' previous' reader,
    GscCredentialCipher.init hmac current previous = .ok cipher →
    GscCredentialCipher.init hmac current' previous' = .ok reader →
    current' = current ∨ previous' = some current →
    ∀ (slot : Slot) (nonce : Sized nonceBytes) (body : Bytes) (plaintext : Text)
      (box : CredentialBox), slot.keyId = cipher.keyId →
      slot.encrypt cipher nonce body plaintext = some box → box ∈ gcm.made →
        slot.decrypt reader gcm (blobOf box) = .ok plaintext
  elsewhere : ∀ current previous cipher current' previous' reader,
    GscCredentialCipher.init hmac current previous = .ok cipher →
    GscCredentialCipher.init hmac current' previous' = .ok reader →
    ∀ (slot : Slot) (nonce : Sized nonceBytes) (body : Bytes) (plaintext : Text)
      (box : CredentialBox), slot.keyId = cipher.keyId →
      slot.encrypt cipher nonce body plaintext = some box → box ∈ gcm.made →
        ∀ slot' : Slot, slot' ≠ slot → slot'.decrypt reader gcm (blobOf box) = .error slot'.error
  altered : ∀ (reader : GscCredentialCipher) (slot : Slot) (blob : Bytes),
    (∀ box ∈ gcm.made, box.data = slot.data → blobOf box ≠ blob) →
      slot.decrypt reader gcm blob = .error slot.error

/-! ## Associated data -/

section Data

variable {s t s' t' : Text}

theorem encode_bar_cons : Utf8.encode ('|' :: s) = UInt8.ofNat 124 :: Utf8.encode s := rfl

theorem eq_of_append_bar (apart : '|' ∉ s) (apart' : '|' ∉ s')
    (same : s ++ '|' :: t = s' ++ '|' :: t') : s = s' ∧ t = t' := by
  have cut := congrArg (partition '|') same
  rw [partition_append_cons apart, partition_append_cons apart'] at cut
  exact ⟨congrArg Prod.fst cut, Option.some.inj (congrArg Prod.snd cut)⟩

theorem eq_of_append_last_bar (apart : '|' ∉ t) (apart' : '|' ∉ t')
    (same : s ++ '|' :: t = s' ++ '|' :: t') : s = s' ∧ t = t' := by
  have cut := congrArg (rpartition '|') same
  rw [rpartition_append_cons apart, rpartition_append_cons apart'] at cut
  exact ⟨Option.some.inj (congrArg Prod.fst cut), congrArg Prod.snd cut⟩

/-- The associated data of a slot as a text. -/
def Slot.text (slot : Slot) : Text :=
  match slot.product with
  | .gsc accountName field => aadLabel ++ '|' :: (slot.keyId ++ '|' :: (slot.orgId.1 ++ '|' ::
      (accountName ++ '|' :: field.text)))
  | .ga4 => ga4AadLabel ++ '|' :: (slot.keyId ++ '|' :: (slot.orgId.1 ++ '|' :: ga4Field))

theorem Slot.data_eq (slot : Slot) : slot.data = Utf8.encode slot.text := by
  rw [data, text]
  cases slot.product with
  | gsc accountName field =>
    simp only [aad, joinBytes, List.intercalate_cons_cons, List.intercalate_singleton,
      Utf8.encode_append, encode_bar_cons, List.append_assoc, List.singleton_append]
  | ga4 =>
    simp only [ga4Aad, joinBytes, List.intercalate_cons_cons, List.intercalate_singleton,
      Utf8.encode_append, encode_bar_cons, List.append_assoc, List.singleton_append]

theorem notMem_bar_of_slug (slug : s.all isSlugChar = true) : '|' ∉ s := fun bar =>
  absurd (List.all_eq_true.mp slug '|' bar) (by decide)

theorem notMem_bar_keyIdFor (hmac : Hmac) (key : Bytes) : '|' ∉ keyIdFor hmac key := fun bar =>
  absurd (isHexDigit_of_mem_hex (List.mem_of_mem_take bar)) (by decide)

theorem notMem_bar_aadLabel : '|' ∉ aadLabel := by decide

theorem notMem_bar_ga4AadLabel : '|' ∉ ga4AadLabel := by decide

theorem aadLabel_ne : aadLabel ≠ ga4AadLabel := fun same =>
  absurd (congrArg (fun label => label[9]?) same) (by decide)

theorem notMem_bar_field (field : CredentialField) : '|' ∉ field.text := by
  cases field <;> decide

theorem CredentialField.text_injective {field field' : CredentialField}
    (same : field.text = field'.text) : field = field' := by
  have first := congrArg List.head? same
  cases field <;> cases field' <;> first | rfl | exact absurd first (by decide)

/-- **The slot can be read off the associated data.** -/
theorem Slot.eq_of_data {slot slot' : Slot} (key : '|' ∉ slot.keyId) (key' : '|' ∉ slot'.keyId)
    (same : slot.data = slot'.data) : slot = slot' := by
  obtain ⟨keyId, orgId, product⟩ := slot
  obtain ⟨keyId', orgId', product'⟩ := slot'
  have org := notMem_bar_of_slug orgId.2.2.2
  have org' := notMem_bar_of_slug orgId'.2.2.2
  have label := notMem_bar_aadLabel
  have ga4Label := notMem_bar_ga4AadLabel
  rw [data_eq, data_eq] at same
  have same := Utf8.encode_injective same
  cases product with
  | gsc accountName field =>
    cases product' with
    | gsc accountName' field' =>
      obtain ⟨rfl, same⟩ := eq_of_append_bar key key' (eq_of_append_bar label label same).2
      obtain ⟨orgs, same⟩ := eq_of_append_bar org org' same
      obtain ⟨rfl, fields⟩ :=
        eq_of_append_last_bar (notMem_bar_field field) (notMem_bar_field field') same
      rw [Subtype.ext orgs, CredentialField.text_injective fields]
    | ga4 => exact absurd (eq_of_append_bar label ga4Label same).1 aadLabel_ne
  | ga4 =>
    cases product' with
    | gsc accountName' field' =>
      exact absurd (eq_of_append_bar ga4Label label same).1.symm aadLabel_ne
    | ga4 =>
      obtain ⟨rfl, same⟩ :=
        eq_of_append_bar key key' (eq_of_append_bar ga4Label ga4Label same).2
      rw [Subtype.ext (eq_of_append_bar org org' same).1]

end Data

/-! ## Keys -/

section Keys

variable {hmac : Hmac} {current : Bytes} {previous : Option Bytes} {cipher : GscCredentialCipher}

theorem keys_of_init (made : GscCredentialCipher.init hmac current previous = .ok cipher) :
    cipher.keyId = keyIdFor hmac current ∧ cipher.keys.get cipher.keyId = some current ∧
      (∀ key, previous = some key → cipher.keys.get (keyIdFor hmac key) = some key) ∧
      ∀ keyId key, cipher.keys.get keyId = some key → keyId = keyIdFor hmac key := by
  unfold GscCredentialCipher.init at made
  split at made
  · cases made
  · cases previous with
    | none =>
      cases made
      refine ⟨rfl, by rw [Dict.get_put, if_pos rfl], ?_, ?_⟩
      · intro key never
        cases never
      · intro keyId key held
        rw [Dict.get_put] at held
        split at held
        · next same => rw [← same, Option.some.inj held]
        · cases held
    | some earlier =>
      dsimp only at made
      split at made
      · cases made
      · next other =>
        cases made
        refine ⟨rfl, by rw [Dict.get_put, if_neg other, Dict.get_put, if_pos rfl], ?_, ?_⟩
        · intro key same
          rw [← Option.some.inj same, Dict.get_put, if_pos rfl]
        · intro keyId key held
          rw [Dict.get_put] at held
          split at held
          · next same => rw [← same, Option.some.inj held]
          · rw [Dict.get_put] at held
            split at held
            · next same => rw [← same, Option.some.inj held]
            · cases held

end Keys

/-! ## Opening -/

section Opening

variable {hmac : Hmac} {gcm : AesGcm} {cipher reader : GscCredentialCipher} {slot : Slot}
  {nonce : Sized nonceBytes} {body blob data : Bytes} {plaintext keyId : Text}
  {box : CredentialBox} {error : CredentialError}

theorem parts_blobOf (made : box ∈ gcm.made) :
    (blobOf box).take nonceBytes = box.nonce ∧ (blobOf box).drop nonceBytes = box.body ∧
      ¬ (blobOf box).length < nonceBytes + tagBytes := by
  have nonce := gcm.nonces box made
  refine ⟨?_, ?_, ?_⟩
  · rw [blobOf, ← nonce, List.take_left]
  · rw [blobOf, ← nonce, List.drop_left]
  · rw [blobOf, List.length_append, nonce, gcm.tagged box made]
    omega

theorem decryptUnder_spec (cipher : GscCredentialCipher) (gcm : AesGcm) (blob data : Bytes)
    (keyId : Text) (error : CredentialError) :
    decryptUnder cipher gcm blob keyId data error = .error error ∨
      ∃ box ∈ gcm.made, cipher.keys.get keyId = some box.key ∧ box.data = data ∧
        blobOf box = blob := by
  unfold decryptUnder
  split
  · exact .inl rfl
  · next key held =>
    split
    · exact .inl rfl
    · split
      · exact .inl rfl
      · next plain read =>
        refine .inr ⟨_, IdealAead.decrypt_eq_some.mp read, held, rfl, ?_⟩
        exact List.take_append_drop nonceBytes blob

theorem decryptUnder_of_mem (made : box ∈ gcm.made) (held : cipher.keys.get keyId = some box.key)
    (plain : box.plain = Utf8.encode plaintext) :
    decryptUnder cipher gcm (blobOf box) keyId box.data error = .ok plaintext := by
  obtain ⟨nonce, body, long⟩ := parts_blobOf made
  have read : gcm.decrypt box.key box.nonce box.data box.body = some box.plain :=
    IdealAead.decrypt_eq_some.mpr made
  rw [decryptUnder, held]
  dsimp only
  rw [if_neg long, nonce, body, read, plain]
  dsimp only
  rw [Utf8.decode_encode]

theorem Slot.decrypt_eq (slot : Slot) (reader : GscCredentialCipher) (gcm : AesGcm)
    (blob : Bytes) : slot.decrypt reader gcm blob =
      decryptUnder reader gcm blob slot.keyId slot.data slot.error := by
  obtain ⟨keyId, orgId, product⟩ := slot
  cases product <;> rfl

theorem Slot.encrypt_eq_some (own : slot.keyId = cipher.keyId)
    (done : slot.encrypt cipher nonce body plaintext = some box) :
    cipher.keys.get cipher.keyId = some box.key ∧ box.data = slot.data ∧
      box.plain = Utf8.encode plaintext := by
  have under : encryptUnder cipher nonce body plaintext slot.data = some box := by
    rw [← done]
    obtain ⟨keyId, orgId, product⟩ := slot
    subst own
    cases product <;> rfl
  rw [encryptUnder, Option.map_eq_some_iff] at under
  obtain ⟨key, held, rfl⟩ := under
  exact ⟨held, rfl, rfl⟩

theorem held_of_init {current current' : Bytes} {previous' : Option Bytes}
    (made : GscCredentialCipher.init hmac current' previous' = .ok reader)
    (kept : current' = current ∨ previous' = some current) :
    reader.keys.get (keyIdFor hmac current) = some current := by
  obtain ⟨own, held, earlier, _⟩ := keys_of_init made
  obtain rfl | kept := kept
  · rwa [own] at held
  · exact earlier current kept

end Opening

end Rankuno.CredentialCrypto
