import Mathlib

/-! What holds of every ASCII character can be checked. -/
namespace Library.Ascii

theorem ascii_cases {P : Char → Prop} (all : ∀ n < 128, P (Char.ofNat n)) {c : Char}
    (ascii : c.toNat < 128) : P c := by
  have here := all c.toNat ascii
  rwa [Char.ofNat_toNat] at here

end Library.Ascii
