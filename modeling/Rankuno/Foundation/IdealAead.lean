import Mathlib.Data.List.Basic

/-!
# Ideal authenticated encryption

A cipher that keeps a record of what it has encrypted, and decrypts that and nothing else: what is
decrypted has the key, the nonce and the associated data it was encrypted with. Two encryptions
under one nonce never look the same.
-/

universe u v w x y

/-- An encryption with what it was made of. -/
structure Box (κ : Type u) (ν : Type v) (δ : Type w) (π : Type x) (γ : Type y) where
  key : κ
  nonce : ν
  data : δ
  plain : π
  body : γ

structure IdealAead (κ : Type u) (ν : Type v) (δ : Type w) (π : Type x) (γ : Type y) where
  made : List (Box κ ν δ π γ)
  apart : ∀ box ∈ made, ∀ box' ∈ made, box.nonce = box'.nonce → box.body = box'.body → box = box'

namespace IdealAead

variable {κ : Type u} {ν : Type v} {δ : Type w} {π : Type x} {γ : Type y}
  [DecidableEq κ] [DecidableEq ν] [DecidableEq δ] [DecidableEq γ]

/-- The plaintext of a body that was made under this key, nonce and data. -/
def decrypt (aead : IdealAead κ ν δ π γ) (key : κ) (nonce : ν) (data : δ) (body : γ) : Option π :=
  (aead.made.find? fun box =>
    box.key = key ∧ box.nonce = nonce ∧ box.data = data ∧ box.body = body).map Box.plain

variable {aead : IdealAead κ ν δ π γ} {key : κ} {nonce : ν} {data : δ} {body : γ} {plain : π}
  {box : Box κ ν δ π γ}

theorem decrypt_eq_some : aead.decrypt key nonce data body = some plain ↔
    ⟨key, nonce, data, plain, body⟩ ∈ aead.made := by
  rw [decrypt, Option.map_eq_some_iff]
  constructor
  · rintro ⟨box, found, rfl⟩
    have right := List.find?_some found
    rw [decide_eq_true_eq] at right
    obtain ⟨rfl, rfl, rfl, rfl⟩ := right
    exact List.mem_of_find?_eq_some found
  · intro made
    cases found : aead.made.find? fun box =>
        box.key = key ∧ box.nonce = nonce ∧ box.data = data ∧ box.body = body with
    | none =>
      have never := List.find?_eq_none.mp found _ made
      exact absurd (decide_eq_true ⟨rfl, rfl, rfl, rfl⟩) never
    | some box =>
      have right := List.find?_some found
      rw [decide_eq_true_eq] at right
      have same :=
        aead.apart _ (List.mem_of_find?_eq_some found) _ made right.2.1 right.2.2.2
      exact ⟨box, rfl, congrArg Box.plain same⟩

end IdealAead
