import Rankuno.Python.Urllib

/-!
# Capitals and their lower case

Facts about `Char.toLower`, proved for the 26 letters it changes, and what they
say of a scheme in lower case.
-/

namespace Rankuno.Python

namespace Text

theorem toLower_of_not_capital {c : Char} (capital : ¬(c.val ≥ 'A'.val ∧ c.val ≤ 'Z'.val)) :
    c.toLower = c :=
  dif_neg capital

theorem of_capital {P : Char → Prop} {c : Char} (capital : c.val ≥ 'A'.val ∧ c.val ≤ 'Z'.val)
    (letters : ∀ n ∈ List.range 26, P (Char.ofNat (65 + n))) : P c := by
  have low : 65 ≤ c.toNat := UInt32.le_iff_toNat_le.mp capital.1
  have high : c.toNat ≤ 90 := UInt32.le_iff_toNat_le.mp capital.2
  have letter := letters (c.toNat - 65) (List.mem_range.mpr (by omega))
  rwa [Nat.add_sub_cancel' low, Char.ofNat_toNat] at letter

theorem test_toLower {p : Char → Bool}
    (letters : ∀ n ∈ List.range 26, p (Char.ofNat (65 + n)).toLower = p (Char.ofNat (65 + n)))
    (c : Char) : p c.toLower = p c := by
  by_cases capital : c.val ≥ 'A'.val ∧ c.val ≤ 'Z'.val
  · exact of_capital (P := fun c => p c.toLower = p c) capital letters
  · rw [toLower_of_not_capital capital]

theorem toLower_toLower (c : Char) : c.toLower.toLower = c.toLower := by
  by_cases capital : c.val ≥ 'A'.val ∧ c.val ≤ 'Z'.val
  · exact of_capital (P := fun c => c.toLower.toLower = c.toLower) capital (by decide)
  · rw [toLower_of_not_capital capital, toLower_of_not_capital capital]

end Text

namespace Urllib

open Text

theorem lowerAscii_lowerAscii (s : Text) : lowerAscii (lowerAscii s) = lowerAscii s := by
  rw [lowerAscii, lowerAscii, List.map_map]
  exact List.map_congr_left fun c _ => toLower_toLower c

theorem all_lowerAscii (s : Text) : (lowerAscii s).all isSchemeChar = s.all isSchemeChar := by
  rw [lowerAscii, List.all_map]
  exact congrArg s.all (funext (test_toLower (p := isSchemeChar) (by decide)))

theorem head?_lowerAscii (s : Text) :
    (lowerAscii s).head?.any isAsciiAlpha = s.head?.any isAsciiAlpha := by
  cases s with
  | nil => rfl
  | cons c s => exact test_toLower (p := isAsciiAlpha) (by decide) c

end Urllib

/-- The Unicode database on ASCII text. -/
def UnicodeData.ascii : UnicodeData where
  lower s := s.map Char.toLower
  nfkc s := s
  idna s := .ok s
  repr s := '\'' :: s ++ ['\'']

end Rankuno.Python
