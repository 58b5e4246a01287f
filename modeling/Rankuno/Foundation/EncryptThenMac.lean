import Mathlib.Data.List.Basic

/-!
# Encryption with a tag over it

A text is masked with what its nonce gives, and a tag over the nonce and the masked text comes
last. The tag says which blobs are decrypted: those of the scheme's own making. Decrypting undoes
encrypting, and encrypting, with the nonce that a blob carries, undoes decrypting.
-/

universe u

/-- A mask that undoes itself, and a tag. -/
structure EncryptThenMac (α : Type u) where
  nonceSize : Nat
  tagSize : Nat
  mask : List α → List α → List α
  tag : List α → List α
  mask_mask : ∀ nonce text, mask nonce (mask nonce text) = text
  length_mask : ∀ nonce text, (mask nonce text).length = text.length
  length_tag : ∀ body, (tag body).length = tagSize

namespace EncryptThenMac

variable {α : Type u} (scheme : EncryptThenMac α)

/-- The nonce, the masked text and the tag over both. -/
def encrypt (nonce text : List α) : List α :=
  nonce ++ scheme.mask nonce text ++ scheme.tag (nonce ++ scheme.mask nonce text)

/-- The nonce of a blob. -/
def nonceOf (blob : List α) : List α := blob.take scheme.nonceSize

/-- What the tag is over. -/
def bodyOf (blob : List α) : List α := blob.take (blob.length - scheme.tagSize)

/-- What stands between the nonce and the tag. -/
def maskedOf (blob : List α) : List α := (scheme.bodyOf blob).drop scheme.nonceSize

def tagOf (blob : List α) : List α := blob.drop (blob.length - scheme.tagSize)

variable [DecidableEq α]

/-- The text of a blob, if it has the right tag. -/
def decrypt? (blob : List α) : Option (List α) :=
  if blob.length < scheme.nonceSize + scheme.tagSize then none
  else if scheme.tag (scheme.nonceOf blob ++ scheme.maskedOf blob) = scheme.tagOf blob then
    some (scheme.mask (scheme.nonceOf blob) (scheme.maskedOf blob))
  else none

variable {scheme} {nonce text blob : List α}

omit [DecidableEq α] in
theorem length_encrypt :
    (scheme.encrypt nonce text).length = nonce.length + text.length + scheme.tagSize := by
  rw [encrypt, List.length_append, List.length_append, scheme.length_mask, scheme.length_tag]

omit [DecidableEq α] in
theorem nonceOf_append {rest : List α} (sized : nonce.length = scheme.nonceSize) :
    scheme.nonceOf (nonce ++ rest) = nonce := by
  rw [nonceOf, ← sized, List.take_left']
  rfl

omit [DecidableEq α] in
theorem bodyOf_append {body tag : List α} (sized : tag.length = scheme.tagSize) :
    scheme.bodyOf (body ++ tag) = body := by
  rw [bodyOf, List.length_append, sized, Nat.add_sub_cancel, List.take_left']
  rfl

omit [DecidableEq α] in
theorem tagOf_append {body tag : List α} (sized : tag.length = scheme.tagSize) :
    scheme.tagOf (body ++ tag) = tag := by
  rw [tagOf, List.length_append, sized, Nat.add_sub_cancel, List.drop_left']
  rfl

omit [DecidableEq α] in
theorem parts_append (long : scheme.nonceSize + scheme.tagSize ≤ blob.length) :
    scheme.nonceOf blob ++ scheme.maskedOf blob ++ scheme.tagOf blob = blob := by
  have body : scheme.nonceOf blob ++ scheme.maskedOf blob = scheme.bodyOf blob := by
    have nonce : scheme.nonceOf blob = (scheme.bodyOf blob).take scheme.nonceSize := by
      rw [nonceOf, bodyOf, List.take_take, Nat.min_eq_left (Nat.le_sub_of_add_le long)]
    rw [nonce, maskedOf, List.take_append_drop]
  rw [body, bodyOf, tagOf, List.take_append_drop]

theorem decrypt?_encrypt (sized : nonce.length = scheme.nonceSize) :
    scheme.decrypt? (scheme.encrypt nonce text) = some text := by
  have tagged : (scheme.tag (nonce ++ scheme.mask nonce text)).length = scheme.tagSize :=
    scheme.length_tag _
  have named : scheme.nonceOf (scheme.encrypt nonce text) = nonce := by
    rw [encrypt, List.append_assoc, nonceOf_append sized]
  have masked : scheme.maskedOf (scheme.encrypt nonce text) = scheme.mask nonce text := by
    rw [maskedOf, encrypt, bodyOf_append tagged, ← sized, List.drop_left']
    rfl
  rw [decrypt?, length_encrypt, if_neg (by omega), named, masked, if_pos, scheme.mask_mask]
  rw [encrypt, tagOf_append tagged]

/-- **What is decrypted was encrypted**, with the nonce it carries. -/
theorem decrypt?_eq_some : scheme.decrypt? blob = some text ↔
    scheme.nonceSize + scheme.tagSize ≤ blob.length ∧
      blob = scheme.encrypt (scheme.nonceOf blob) text := by
  constructor
  · intro read
    rw [decrypt?] at read
    split at read
    · cases read
    · next long =>
      have long := Nat.le_of_not_lt long
      split at read
      · next right =>
        refine ⟨long, ?_⟩
        rw [← Option.some.inj read, encrypt, scheme.mask_mask, right, parts_append long]
      · cases read
  · rintro ⟨long, same⟩
    have sized : (scheme.nonceOf blob).length = scheme.nonceSize :=
      List.length_take_of_le (Nat.le_trans (Nat.le_add_right _ _) long)
    have read : scheme.decrypt? (scheme.encrypt (scheme.nonceOf blob) text) = some text :=
      decrypt?_encrypt sized
    rw [← same] at read
    exact read

end EncryptThenMac
