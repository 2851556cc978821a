import BlobVault.Number.Binary64
import Mathlib.Algebra.Order.Field.Power
import Mathlib.Order.WithBot
import Mathlib.Tactic.FieldSimp
import Mathlib.Tactic.Linarith
import Mathlib.Tactic.Positivity
import Mathlib.Tactic.Ring

/-!
# Rounding to double precision

A fraction is rounded to a multiple of the power of two that leaves 53 bits of it, or of the least
power there is.

* `Binary64.Rounds` : the nearest integer, of two that are as near the even one;
* `Binary64.Nearest` : the nearest number with 53 bits;
* `Binary64.ofRatio_nearest` : this is what a fraction is rounded to, unless that is too large;
* `Binary64.magnitude_ofRatio_mono` : **rounding keeps the order of fractions**;
* `Binary64.magnitude_ofNat` : natural numbers below `2 ^ 53` are not rounded.
-/

namespace BlobVault

namespace Binary64

/-! ### Integers -/

/-- The integer is the nearest to a number, and the even one if two are as near. -/
structure Rounds (x : ℚ) (m : ℕ) : Prop where
  le : x ≤ m + 1 / 2
  ge : m ≤ x + 1 / 2
  even : x = m + 1 / 2 ∨ (m : ℚ) = x + 1 / 2 → m % 2 = 0

namespace Rounds

variable {x y : ℚ} {m n : ℕ}

theorem mono (hx : Rounds x m) (hy : Rounds y n) (h : x ≤ y) : m ≤ n := by
  by_contra hlt
  have hn : (n : ℚ) + 1 ≤ m := by exact_mod_cast Nat.lt_of_not_le hlt
  have hle := hy.le
  have hge := hx.ge
  -- both are halfway between the two integers, of which only one is even
  have hm : (m : ℚ) = n + 1 := by linarith
  have hmeven := hx.even (.inr (by linarith))
  have hneven := hy.even (.inl (by linarith))
  have hsucc : m = n + 1 := by exact_mod_cast hm
  omega

theorem natCast (k : ℕ) : Rounds k k where
  le := by linarith
  ge := by linarith
  even h := by rcases h with h | h <;> linarith

theorem eq_of_natCast {k : ℕ} (h : Rounds k m) : m = k :=
  Nat.le_antisymm (h.mono (natCast k) le_rfl) ((natCast k).mono h le_rfl)

end Rounds

theorem rounds_roundQuotient {num den : ℕ} (hd : 0 < den) :
    Rounds ((num : ℚ) / den) (roundQuotient num den) := by
  have hd' : (0 : ℚ) < den := by exact_mod_cast hd
  have hx : (num : ℚ) / den = (num / den : ℕ) + (num % den : ℕ) / den := by
    have hnum : (num : ℚ) = den * (num / den : ℕ) + (num % den : ℕ) := by
      exact_mod_cast (Nat.div_add_mod num den).symm
    conv_lhs => rw [hnum]
    field_simp
  have hnonneg : (0 : ℚ) ≤ (num % den : ℕ) / den := by positivity
  have hone : ((num % den : ℕ) : ℚ) / den < 1 := by
    rw [div_lt_one hd']
    exact_mod_cast Nat.mod_lt num hd
  rw [hx]
  unfold roundQuotient
  dsimp only
  split
  · rename_i hlt
    have hhalf : ((num % den : ℕ) : ℚ) / den < 1 / 2 := by
      rw [div_lt_iff₀ hd']
      have : (2 : ℚ) * (num % den : ℕ) < den := by exact_mod_cast hlt
      linarith
    exact ⟨by linarith, by linarith, fun h => by rcases h with h | h <;> linarith⟩
  · split
    · rename_i hgt
      have hhalf : (1 : ℚ) / 2 < (num % den : ℕ) / den := by
        rw [lt_div_iff₀ hd']
        have : (den : ℚ) < 2 * (num % den : ℕ) := by exact_mod_cast hgt
        linarith
      refine ⟨?_, ?_, fun h => ?_⟩ <;> push_cast at *
      · linarith
      · linarith
      · rcases h with h | h <;> linarith
    · have hhalf : ((num % den : ℕ) : ℚ) / den = 1 / 2 := by
        rw [div_eq_iff hd'.ne']
        have : (2 : ℚ) * (num % den : ℕ) = den := by
          exact_mod_cast Nat.le_antisymm (Nat.le_of_not_lt ‹_›) (Nat.le_of_not_lt ‹_›)
        linarith
      rw [hhalf]
      split
      · exact ⟨by linarith, by linarith, fun _ => ‹_›⟩
      · refine ⟨?_, ?_, fun _ => by omega⟩ <;> push_cast <;> linarith

/-! ### Numbers with 53 bits -/

/-- The mantissa and the exponent of the double nearest to a number that is not negative; if the
mantissa is `2 ^ 53`, the double has another form. -/
structure Nearest (x : ℚ) (m : ℕ) (e : ℤ) : Prop where
  least : -1074 ≤ e
  lt : x < 2 ^ (e + 53)
  le : -1074 < e → 2 ^ (e + 52) ≤ x
  rounds : Rounds (x / 2 ^ e) m

namespace Nearest

variable {x y : ℚ} {m n : ℕ} {e f : ℤ}

theorem mantissa_le (h : Nearest x m e) : m ≤ 2 ^ 53 := by
  have hx : x / 2 ^ e ≤ ((2 ^ 53 : ℕ) : ℚ) := by
    rw [div_le_iff₀ (by positivity)]
    have hlt := h.lt
    rw [zpow_add₀ two_ne_zero, mul_comm] at hlt
    exact_mod_cast hlt.le
  exact h.rounds.mono (.natCast _) hx

theorem le_mantissa (h : Nearest x m e) (he : -1074 < e) : 2 ^ 52 ≤ m := by
  have hx : ((2 ^ 52 : ℕ) : ℚ) ≤ x / 2 ^ e := by
    rw [le_div_iff₀ (by positivity)]
    have hle := h.le he
    rw [zpow_add₀ two_ne_zero, mul_comm] at hle
    exact_mod_cast hle
  exact Rounds.mono (.natCast _) h.rounds hx

/-- A greater number has no smaller exponent. -/
theorem exponent_le (hx : Nearest x m e) (hy : Nearest y n f) (h : x ≤ y) : e ≤ f := by
  by_contra hlt
  have hle := hx.le (by have := hy.least; omega)
  have hpow : (2 : ℚ) ^ (f + 53) ≤ 2 ^ (e + 52) :=
    zpow_le_zpow_right₀ one_le_two (by omega)
  have := hy.lt
  linarith

theorem mono (hx : Nearest x m e) (hy : Nearest y n f) (h : x ≤ y) :
    (m : ℚ) * 2 ^ e ≤ n * 2 ^ f := by
  rcases (hx.exponent_le hy h).eq_or_lt with rfl | hlt
  · have hmn : (m : ℚ) ≤ n := by
      exact_mod_cast hx.rounds.mono hy.rounds (div_le_div_of_nonneg_right h (by positivity))
    exact mul_le_mul_of_nonneg_right hmn (by positivity)
  · -- a power of two lies between the two numbers
    have hm : (m : ℚ) ≤ 2 ^ 53 := by exact_mod_cast hx.mantissa_le
    have hn : (2 : ℚ) ^ 52 ≤ n := by
      exact_mod_cast hy.le_mantissa (lt_of_le_of_lt hx.least hlt)
    calc (m : ℚ) * 2 ^ e ≤ 2 ^ 53 * 2 ^ e := mul_le_mul_of_nonneg_right hm (by positivity)
      _ = 2 ^ 52 * 2 ^ (e + 1) := by rw [zpow_add₀ two_ne_zero]; ring
      _ ≤ 2 ^ 52 * 2 ^ f :=
        mul_le_mul_of_nonneg_left (zpow_le_zpow_right₀ one_le_two hlt) (by positivity)
      _ ≤ n * 2 ^ f := mul_le_mul_of_nonneg_right hn (by positivity)

/-- A number with 53 bits is not rounded. -/
theorem mul_eq {k : ℕ} {g : ℤ} (h : Nearest (k * 2 ^ g) m e) (hk : k < 2 ^ 53) (hg : -1074 ≤ g) :
    (m : ℚ) * 2 ^ e = k * 2 ^ g := by
  have hle : e ≤ g := by
    by_contra hlt
    have hk' : (k : ℚ) < 2 ^ 53 := by exact_mod_cast hk
    have hlow := h.le (by omega)
    have hpow : (2 : ℚ) ^ (g + 53) ≤ 2 ^ (e + 52) :=
      zpow_le_zpow_right₀ one_le_two (by omega)
    have hhigh : (k : ℚ) * 2 ^ g < 2 ^ (g + 53) := by
      rw [zpow_add₀ two_ne_zero, mul_comm]
      exact mul_lt_mul_of_pos_left (by exact_mod_cast hk') (by positivity)
    linarith
  obtain ⟨i, rfl⟩ := Int.le.dest hle
  have hi : (k : ℚ) * 2 ^ (e + i) / 2 ^ e = (k * 2 ^ i : ℕ) := by
    rw [zpow_add₀ two_ne_zero]
    push_cast
    field_simp
    rw [zpow_natCast]
  have hrounds := h.rounds
  rw [hi] at hrounds
  rw [hrounds.eq_of_natCast, zpow_add₀ two_ne_zero]
  push_cast
  rw [zpow_natCast]
  ring

end Nearest

/-! ### Fractions -/

variable {num den num' den' : ℕ} {negative negative' : Bool}

theorem scale_pos (hd : 0 < den) (power : ℤ) : 0 < (scale num den power).2 := by
  unfold scale
  split
  · exact hd
  · exact Nat.mul_pos hd (Nat.pow_pos two_pos)

/-- Scaling multiplies by a power of two. -/
theorem scale_div (num den : ℕ) (power : ℤ) :
    ((scale num den power).1 : ℚ) / (scale num den power).2 = num / den * 2 ^ power := by
  unfold scale
  split
  · rename_i h
    obtain ⟨k, rfl⟩ := Int.eq_ofNat_of_zero_le h
    simp only [Int.toNat_natCast, Nat.pow_eq, Nat.cast_mul, Nat.cast_pow,
      Nat.cast_ofNat, zpow_natCast]
    ring
  · rename_i h
    obtain ⟨k, hk⟩ := Int.eq_ofNat_of_zero_le (show 0 ≤ -power by omega)
    obtain rfl : power = -k := by simpa using congrArg Neg.neg hk
    simp only [neg_neg, Int.toNat_natCast, Nat.pow_eq, Nat.cast_mul, Nat.cast_pow, Nat.cast_ofNat,
      zpow_neg, zpow_natCast]
    rw [← div_div, div_eq_mul_inv]

/-- The exponent with which a fraction has a mantissa of 53 bits. -/
def fitting (num den : ℕ) : ℤ :=
  let guess : ℤ := (Nat.log2 num : ℤ) - Nat.log2 den - 52
  if (scale num den (-guess)).1 / (scale num den (-guess)).2 < 2 ^ 52 then guess - 1 else guess

theorem zpow_log2 {n : ℕ} (hn : 0 < n) :
    (2 : ℚ) ^ (Nat.log2 n : ℤ) ≤ n ∧ (n : ℚ) < 2 ^ ((Nat.log2 n : ℤ) + 1) :=
  ⟨by exact_mod_cast Nat.log2_self_le hn.ne', by exact_mod_cast Nat.lt_log2_self⟩

/-- The logarithms of numerator and denominator give a fraction up to a factor of four. -/
theorem between_log2 (hn : 0 < num) (hd : 0 < den) :
    (2 : ℚ) ^ ((Nat.log2 num : ℤ) - Nat.log2 den - 1) ≤ num / den ∧
      (num : ℚ) / den < 2 ^ ((Nat.log2 num : ℤ) - Nat.log2 den + 1) := by
  have hd' : (0 : ℚ) < den := by exact_mod_cast hd
  have hnum := zpow_log2 hn
  have hden := zpow_log2 hd
  generalize (Nat.log2 num : ℤ) = a at hnum ⊢
  generalize (Nat.log2 den : ℤ) = b at hden ⊢
  constructor
  · rw [le_div_iff₀ hd']
    calc (2 : ℚ) ^ (a - b - 1) * den
      _ ≤ 2 ^ (a - b - 1) * 2 ^ (b + 1) := mul_le_mul_of_nonneg_left hden.2.le (by positivity)
      _ = 2 ^ a := by
        rw [← zpow_add₀ two_ne_zero]
        congr 1
        omega
      _ ≤ num := hnum.1
  · rw [div_lt_iff₀ hd']
    calc (num : ℚ)
      _ < 2 ^ (a + 1) := hnum.2
      _ = 2 ^ (a - b + 1) * 2 ^ b := by
        rw [← zpow_add₀ two_ne_zero]
        congr 1
        omega
      _ ≤ 2 ^ (a - b + 1) * den := mul_le_mul_of_nonneg_left hden.1 (by positivity)

theorem fitting_spec (hn : 0 < num) (hd : 0 < den) :
    (2 : ℚ) ^ (fitting num den + 52) ≤ num / den ∧
      (num : ℚ) / den < 2 ^ (fitting num den + 53) := by
  obtain ⟨hlow, hhigh⟩ := between_log2 hn hd
  unfold fitting
  dsimp only
  generalize hguess : (Nat.log2 num : ℤ) - Nat.log2 den - 52 = guess
  rw [show (Nat.log2 num : ℤ) - Nat.log2 den - 1 = guess - 1 + 52 by omega] at hlow
  rw [show (Nat.log2 num : ℤ) - Nat.log2 den + 1 = guess + 53 by omega] at hhigh
  have htest : (scale num den (-guess)).1 / (scale num den (-guess)).2 < 2 ^ 52 ↔
      (num : ℚ) / den < 2 ^ (guess + 52) := by
    have hpos : 0 < (scale num den (-guess)).2 := scale_pos hd _
    have hscaled : (num : ℚ) / den =
        (scale num den (-guess)).1 / (scale num den (-guess)).2 * 2 ^ guess := by
      rw [scale_div, zpow_neg]
      field_simp
    rw [Nat.div_lt_iff_lt_mul hpos, hscaled, zpow_add₀ two_ne_zero, mul_comm (2 ^ guess),
      mul_lt_mul_iff_left₀ (by positivity), div_lt_iff₀ (by exact_mod_cast hpos)]
    exact_mod_cast Iff.rfl
  split
  · rename_i hlt
    refine ⟨hlow, ?_⟩
    rw [show guess - 1 + 53 = guess + 52 by omega]
    exact htest.1 hlt
  · rename_i hge
    exact ⟨le_of_not_gt fun hlt => hge (htest.2 hlt), hhigh⟩

/-- The mantissa of a fraction for an exponent. -/
def mantissa (num den : ℕ) (exponent : ℤ) : ℕ :=
  roundQuotient (scale num den (-exponent)).1 (scale num den (-exponent)).2

theorem nearest_mantissa (hn : 0 < num) (hd : 0 < den) :
    Nearest ((num : ℚ) / den) (mantissa num den (max (fitting num den) (-1074)))
      (max (fitting num den) (-1074)) := by
  obtain ⟨hlow, hhigh⟩ := fitting_spec hn hd
  refine ⟨le_max_right _ _, ?_, fun hlt => ?_, ?_⟩
  · exact hhigh.trans_le (zpow_le_zpow_right₀ one_le_two (by omega))
  · rwa [max_eq_left (by omega)]
  · rw [div_eq_mul_inv, ← zpow_neg, ← scale_div]
    exact rounds_roundQuotient (scale_pos hd _)

/-! ### Magnitudes -/

/-- How large a number is.  An infinite one, and one that is not a number, is larger than any
finite one. -/
def magnitude : Binary64 → WithTop ℚ
  | finite _ m e => ((m * 2 ^ e : ℚ) : WithTop ℚ)
  | _ => ⊤

/-- Numbers that are too large are infinite. -/
def cap (x : ℚ) : WithTop ℚ := if (2 : ℚ) ^ (1024 : ℤ) ≤ x then ⊤ else (x : WithTop ℚ)

theorem cap_mono {x y : ℚ} (h : x ≤ y) : cap x ≤ cap y := by
  unfold cap
  split
  · rw [if_pos (le_trans ‹_› h)]
  · split
    · exact le_top
    · exact_mod_cast h

/-- A mantissa that has been rounded up to 54 bits is halved. -/
def carry (m : ℕ) (e : ℤ) : ℕ × ℤ := if m = 2 ^ 53 then (2 ^ 52, e + 1) else (m, e)

theorem carry_mul (m : ℕ) (e : ℤ) : ((carry m e).1 : ℚ) * 2 ^ (carry m e).2 = m * 2 ^ e := by
  unfold carry
  split
  · rename_i hm
    rw [hm, zpow_add₀ two_ne_zero]
    push_cast
    ring
  · rfl

/-- A number is too large exactly if its exponent is. -/
theorem Nearest.carry_gt {x : ℚ} {m : ℕ} {e : ℤ} (h : Nearest x m e) :
    (carry m e).2 > 971 ↔ (2 : ℚ) ^ (1024 : ℤ) ≤ m * 2 ^ e := by
  have hbits : (carry m e).1 < 2 ^ 53 ∧ (-1074 < (carry m e).2 → 2 ^ 52 ≤ (carry m e).1) := by
    have hle := h.mantissa_le
    have hge := h.le_mantissa
    unfold carry
    split
    · exact ⟨by omega, fun _ => le_rfl⟩
    · exact ⟨by omega, hge⟩
  rw [← carry_mul m e]
  generalize carry m e = double at hbits
  obtain ⟨m', e'⟩ := double
  obtain ⟨hlt, hge⟩ := hbits
  dsimp only at hlt hge ⊢
  constructor
  · intro hbig
    have hm : (2 : ℚ) ^ (52 : ℤ) ≤ m' := by exact_mod_cast hge (by omega)
    calc (2 : ℚ) ^ (1024 : ℤ)
      _ ≤ 2 ^ (52 + e') := zpow_le_zpow_right₀ one_le_two (by omega)
      _ = 2 ^ (52 : ℤ) * 2 ^ e' := zpow_add₀ two_ne_zero _ _
      _ ≤ m' * 2 ^ e' := mul_le_mul_of_nonneg_right hm (by positivity)
  · refine fun hbig => not_le.1 fun hsmall => hbig.not_gt ?_
    have hm : (m' : ℚ) < 2 ^ (53 : ℤ) := by exact_mod_cast hlt
    calc (m' : ℚ) * 2 ^ e'
      _ < 2 ^ (53 : ℤ) * 2 ^ e' := mul_lt_mul_of_pos_right hm (by positivity)
      _ = 2 ^ (53 + e') := (zpow_add₀ two_ne_zero _ _).symm
      _ ≤ 2 ^ (1024 : ℤ) := zpow_le_zpow_right₀ one_le_two (by omega)

theorem ofRatio_eq (hn : num ≠ 0) : ofRatio negative num den =
    let e := max (fitting num den) (-1074)
    let double := carry (mantissa num den e) e
    if double.2 > 971 then .infinite negative else .finite negative double.1 double.2 := by
  rw [ofRatio, if_neg hn]
  rfl

/-- A fraction is rounded to the nearest double. -/
theorem ofRatio_nearest (negative : Bool) (num : ℕ) (hd : 0 < den) :
    ∃ m e, Nearest ((num : ℚ) / den) m e ∧
      (ofRatio negative num den).magnitude = cap (m * 2 ^ e) := by
  rcases Nat.eq_zero_or_pos num with rfl | hn
  · refine ⟨0, -1074, ⟨le_rfl, ?_, fun h => absurd h (lt_irrefl _), ?_⟩, ?_⟩
    · rw [Nat.cast_zero, zero_div]
      positivity
    · rw [Nat.cast_zero, zero_div, zero_div]
      exact_mod_cast Rounds.natCast 0
    · rw [ofRatio, if_pos rfl, magnitude, cap, if_neg (by simp)]
  · have hnearest := nearest_mantissa hn hd
    refine ⟨_, _, hnearest, ?_⟩
    rw [ofRatio_eq hn.ne', cap]
    dsimp only
    split
    · rw [if_pos (hnearest.carry_gt.1 ‹_›)]
      rfl
    · rename_i hfits
      rw [if_neg fun hbig => hfits (hnearest.carry_gt.2 hbig), magnitude, carry_mul]

/-- **Rounding keeps the order of fractions.** -/
theorem magnitude_ofRatio_mono (hd : 0 < den) (hd' : 0 < den')
    (h : (num : ℚ) / den ≤ num' / den') :
    (ofRatio negative num den).magnitude ≤ (ofRatio negative' num' den').magnitude := by
  obtain ⟨m, e, hx, hmag⟩ := ofRatio_nearest negative num hd
  obtain ⟨n, f, hy, hmag'⟩ := ofRatio_nearest negative' num' hd'
  rw [hmag, hmag']
  exact cap_mono (hx.mono hy h)

/-- Natural numbers below `2 ^ 53` are not rounded. -/
theorem magnitude_ofNat {n : ℕ} (h : n < 2 ^ 53) : (ofNat n).magnitude = ((n : ℚ) : WithTop ℚ) := by
  obtain ⟨m, e, hx, hmag⟩ := ofRatio_nearest false n one_pos
  have hexact : (m : ℚ) * 2 ^ e = n := by
    rw [Nat.cast_one, div_one, ← mul_one (n : ℚ), ← zpow_zero (2 : ℚ)] at hx
    rw [hx.mul_eq h (by omega), zpow_zero, mul_one]
  rw [ofNat, hmag, hexact, cap, if_neg]
  rw [not_le]
  calc (n : ℚ)
    _ < 2 ^ (53 : ℤ) := by exact_mod_cast h
    _ ≤ 2 ^ (1024 : ℤ) := zpow_le_zpow_right₀ one_le_two (by omega)

/-- A natural number is not rounded to less than a smaller one that is not rounded. -/
theorem le_magnitude_ofNat {k n : ℕ} (hk : k < 2 ^ 53) (h : k ≤ n) :
    ((k : ℚ) : WithTop ℚ) ≤ (ofNat n).magnitude := by
  rw [← magnitude_ofNat hk]
  refine magnitude_ofRatio_mono one_pos one_pos ?_
  rw [Nat.cast_one, div_one, div_one]
  exact_mod_cast h

/-! ### Quotients -/

theorem finite_of_magnitude {x : Binary64} {q : ℚ} (h : x.magnitude = (q : WithTop ℚ)) :
    ∃ negative m e, x = .finite negative m e ∧ (m : ℚ) * 2 ^ e = q := by
  cases x with
  | finite negative m e => exact ⟨negative, m, e, rfl, WithTop.coe_injective h⟩
  | infinite negative => cases h
  | nan => cases h

/-- A quotient is the rounded quotient of the values. -/
theorem div_eq_ofRatio {m n : ℕ} (e : ℤ) {f : ℤ} (hn : (n : ℚ) * 2 ^ f ≠ 0) :
    ∃ num den : ℕ, 0 < den ∧ (num : ℚ) / den = m * 2 ^ e / (n * 2 ^ f) ∧
      (finite negative m e).div (finite negative' n f) =
        ofRatio (negative != negative') num den := by
  have hx := scale_div m 1 e
  have hy := scale_div n 1 f
  rw [Nat.cast_one, div_one] at hx hy
  have hb : 0 < (scale m 1 e).2 := scale_pos one_pos e
  have hc : 0 < (scale n 1 f).1 := Nat.pos_of_ne_zero fun hzero => hn (by rw [← hy, hzero]; simp)
  refine ⟨(scale m 1 e).1 * (scale n 1 f).2, _, Nat.mul_pos hb hc, ?_, rfl⟩
  have hd : 0 < (scale n 1 f).2 := scale_pos one_pos f
  rw [← hx, ← hy]
  push_cast
  field_simp

/-- One number is less than another; neither of them is negative. -/
def Less (x y : Binary64) : Prop := y ≠ .nan ∧ x.magnitude < y.magnitude

end Binary64

end BlobVault
