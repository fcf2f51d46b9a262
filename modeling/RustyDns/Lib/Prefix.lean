import Mathlib.Data.BitVec

/-!
# Address prefixes

A network is an address with a prefix length: it holds the addresses that agree with it on that many
leading bits. The same set by shifting both sides, and by dividing their values.
-/

namespace RustyDns.Lib

variable {w : Nat}

/-- The first `len` bits of `a` are those of `net`. -/
def Within (net : BitVec w) (len : Nat) (a : BitVec w) : Prop :=
  ∀ i < len, a.getMsbD i = net.getMsbD i

instance (net : BitVec w) (len : Nat) (a : BitVec w) : Decidable (Within net len a) :=
  inferInstanceAs (Decidable (∀ i < len, _))

theorem within_iff_shiftRight {net a : BitVec w} {len : Nat} :
    Within net len a ↔ a >>> (w - len) = net >>> (w - len) := by
  constructor
  · intro h
    refine BitVec.eq_of_getLsbD_eq fun i _ => ?_
    rw [BitVec.getLsbD_ushiftRight, BitVec.getLsbD_ushiftRight]
    by_cases hlt : w - len + i < w
    · have hbit := h (w - 1 - (w - len + i)) (by omega)
      rw [BitVec.getMsbD, BitVec.getMsbD] at hbit
      have hback : w - 1 - (w - 1 - (w - len + i)) = w - len + i := by omega
      have hin : w - 1 - (w - len + i) < w := by omega
      simpa [hin, hback] using hbit
    · rw [BitVec.getLsbD_of_ge _ _ (by omega), BitVec.getLsbD_of_ge _ _ (by omega)]
  · intro h i hi
    by_cases hw : i < w
    · have hbit := congrArg (·.getLsbD (w - 1 - i - (w - len))) h
      have hback : w - len + (w - 1 - i - (w - len)) = w - 1 - i := by omega
      simpa [BitVec.getLsbD_ushiftRight, hback, BitVec.getMsbD, hw] using hbit
    · simp [BitVec.getMsbD, hw]

theorem within_iff_toNat {net a : BitVec w} {len : Nat} :
    Within net len a ↔ a.toNat / 2 ^ (w - len) = net.toNat / 2 ^ (w - len) := by
  rw [within_iff_shiftRight, ← BitVec.toNat_inj, BitVec.toNat_ushiftRight,
    BitVec.toNat_ushiftRight, Nat.shiftRight_eq_div_pow, Nat.shiftRight_eq_div_pow]

end RustyDns.Lib
