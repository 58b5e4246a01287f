import Rankuno.Foundation.Machine

/-!
# Rows that reach a final status

A store keeps rows by key, and some statuses are meant to be final. The lemmas
compose steps that respect this, and say when one step does.
-/

universe u v w x y

/-- A row with a final status is still there, with that status. -/
def FinalStays {σ : Type u} {κ : Type v} {ρ : Type w} {ς : Type x} (row : σ → κ → Option ρ)
    (status : ρ → ς) (final : ς → Prop) (s t : σ) : Prop :=
  ∀ k r, row s k = some r → final (status r) → ∃ r', row t k = some r' ∧ status r' = status r

namespace FinalStays

variable {σ : Type u} {κ : Type v} {ρ : Type w} {ς : Type x} {row : σ → κ → Option ρ}
variable {status : ρ → ς} {final : ς → Prop} {s t u : σ}

theorem refl (s : σ) : FinalStays row status final s s :=
  fun _ r hr _ => ⟨r, hr, rfl⟩

theorem trans (h : FinalStays row status final s t) (k : FinalStays row status final t u) :
    FinalStays row status final s u := by
  intro key r hr hfinal
  obtain ⟨r', hr', same⟩ := h key r hr hfinal
  obtain ⟨r'', hr'', same'⟩ := k key r' hr' (same ▸ hfinal)
  exact ⟨r'', hr'', same'.trans same⟩

theorem iff_of_rows {f : κ → ρ → ρ} (rows : ∀ k r, row s k = some r → row t k = some (f k r)) :
    FinalStays row status final s t ↔
      ∀ k r, row s k = some r → final (status r) → status (f k r) = status r := by
  constructor
  · intro h k r hr hfinal
    obtain ⟨r', hr', same⟩ := h k r hr hfinal
    rw [rows k r hr] at hr'
    cases hr'
    exact same
  · intro h k r hr hfinal
    exact ⟨f k r, rows k r hr, h k r hr hfinal⟩

end FinalStays
