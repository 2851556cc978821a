import BlobVault.Codec
import BlobVault.Proofs.Number.Rounding

/-!
# When a compressed form is kept

The sizes of both forms are divided in double precision, and the quotient is compared with the
double nearest to nine tenths.  That number is a little more than nine tenths.  A quotient that is
less than nine tenths is less by at least a tenth of the inverse of the divisor, and this is enough
for it to be rounded to a smaller number.

* `Binary64.div_less_iff` : the rounded quotient is less than the rounded threshold exactly if the
  quotient is less than nine tenths;
* `Codec.worthwhile_iff` : **the exact test is the one in double precision**, for all plain texts of
  up to `2 ^ 51` bytes.
-/

namespace BlobVault

namespace Binary64

theorem ofDecimal_nineTenths : ofDecimal false 9 (-1) = .finite false 8106479329266893 (-53) := by
  decide +kernel

/-- The fraction is halfway between the threshold and the number before it, whose mantissa is even. -/
theorem ofRatio_halfway :
    ofRatio false 16212958658533785 (2 ^ 54) = .finite false 8106479329266892 (-53) := by
  decide +kernel

/-- What is less than nine tenths is rounded to less than the threshold, if the denominator is not
too large. -/
theorem ofRatio_lt {num den c p : ℕ} (negative : Bool) (hp : 0 < p) (hle : p ≤ 2 ^ 51)
    (hd : 0 < den) (hx : (num : ℚ) / den = c / p) (h : 10 * c < 9 * p) :
    (ofRatio negative num den).magnitude < (ofDecimal false 9 (-1)).magnitude := by
  have hp' : (0 : ℚ) < p := by exact_mod_cast hp
  -- the fraction is less by at least a tenth of the inverse of its denominator
  have hbelow : (num : ℚ) / den ≤ (16212958658533785 : ℕ) / (2 ^ 54 : ℕ) := by
    have hc : (10 : ℚ) * c + 1 ≤ 9 * p := by exact_mod_cast h
    have hp51 : (p : ℚ) ≤ 2 ^ 51 := by exact_mod_cast hle
    rw [hx, div_le_div_iff₀ hp' (by positivity)]
    push_cast
    linarith
  have hrounded : (ofRatio negative num den).magnitude ≤
      (ofRatio false 16212958658533785 (2 ^ 54)).magnitude :=
    magnitude_ofRatio_mono hd (by positivity) hbelow
  refine hrounded.trans_lt ?_
  rw [ofRatio_halfway, ofDecimal_nineTenths, magnitude, magnitude, WithTop.coe_lt_coe]
  exact mul_lt_mul_of_pos_right (by norm_num) (by positivity)

/-- What is not less than nine tenths is not rounded to less than the threshold. -/
theorem le_ofRatio {num den : ℕ} (negative : Bool) (hd : 0 < den)
    (h : (9 : ℚ) / 10 ≤ num / den) :
    (ofDecimal false 9 (-1)).magnitude ≤ (ofRatio negative num den).magnitude := by
  show (ofRatio false 9 10).magnitude ≤ _
  exact magnitude_ofRatio_mono (by omega) hd (by exact_mod_cast h)

/-- The quotient of two natural numbers in double precision is less than the double nearest to nine
tenths exactly if it is less than nine tenths before it is rounded. -/
theorem div_less_iff {p : ℕ} (hp : 0 < p) (hle : p ≤ 2 ^ 51) (c : ℕ) :
    ((ofNat c).div (ofNat p)).Less (ofDecimal false 9 (-1)) ↔ 10 * c < 9 * p := by
  have hp' : (0 : ℚ) < p := by exact_mod_cast hp
  obtain ⟨t, n, f, hofp, hn⟩ := finite_of_magnitude (magnitude_ofNat (n := p) (by omega))
  have hne : (n : ℚ) * 2 ^ f ≠ 0 := hn ▸ hp'.ne'
  rw [Less, hofp]
  constructor
  · rintro ⟨-, hless⟩
    by_contra hge
    refine hless.not_ge ?_
    -- the dividend itself may be too large to be exact, but then it is not rounded to less
    have hmin := le_magnitude_ofNat (k := min c (2 ^ 53 - 1)) (n := c) (by omega) (min_le_left ..)
    cases hofc : ofNat c with
    | infinite s => exact le_top
    | nan => exact le_top
    | finite s m e =>
      obtain ⟨num, den, hd, hx, hdiv⟩ := div_eq_ofRatio e hne
      rw [hofc, magnitude, WithTop.coe_le_coe] at hmin
      rw [hdiv]
      refine le_ofRatio _ hd ?_
      have hfew : (9 : ℚ) * p ≤ 10 * (min c (2 ^ 53 - 1) : ℕ) := by
        exact_mod_cast (show 9 * p ≤ 10 * min c (2 ^ 53 - 1) by omega)
      rw [hx, hn, div_le_div_iff₀ (by norm_num) hp']
      linarith
  · intro hlt
    obtain ⟨s, m, e, hofc, hm⟩ := finite_of_magnitude (magnitude_ofNat (n := c) (by omega))
    obtain ⟨num, den, hd, hx, hdiv⟩ := div_eq_ofRatio e hne
    rw [hm, hn] at hx
    refine ⟨by simp [ofDecimal_nineTenths], ?_⟩
    rw [hofc, hdiv]
    exact ofRatio_lt _ hp hle hd hx hlt

end Binary64

namespace Codec

/-- **A compressed form is kept if the quotient of the sizes is less than nine tenths in double
precision.** -/
theorem worthwhile_iff {plain : Bytes} (hp : plain.length ≤ 2 ^ 51) (compressed : Bytes) :
    worthwhile plain compressed = true ↔ plain ≠ [] ∧
      ((Binary64.ofNat compressed.length).div (.ofNat plain.length)).Less
        (.ofDecimal false 9 (-1)) := by
  rw [worthwhile, Bool.and_eq_true, decide_eq_true_eq, Bool.not_eq_true', List.isEmpty_eq_false_iff]
  exact and_congr_right fun hne =>
    (Binary64.div_less_iff (List.length_pos_iff.2 hne) hp compressed.length).symm

end Codec

end BlobVault
