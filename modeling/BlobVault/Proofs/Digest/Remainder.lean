import BlobVault.Proofs.Digest.Crc32
import Mathlib.Algebra.Field.ZMod
import Mathlib.RingTheory.AdjoinRoot

/-!
# The checksum as a remainder

By its definition, a checksum is what a division leaves.  The bits of the message, the lowest bit of
each byte first, with 32 zeros behind them and the first 32 bits inverted, are the coefficients of a
polynomial over the field of two elements.  It is divided by the generator, a polynomial of degree
32, and the bits of the checksum are those of the remainder, inverted.

The register keeps the remainder of what has been taken in so far: to move it on by one bit is to
multiply its polynomial by `X`, modulo the generator.

* `IsChecksum` : the definition;
* `residue_shift`, `residue_step`, `residue_feed` : a register as a residue, by the bit, by the byte
  and by the piece;
* `isChecksum_iff` : **`ofBytes` computes the checksum by its definition.**
-/

namespace BlobVault.Crc32

open Polynomial AdjoinRoot

/-! ### Strings of bits -/

/-- The lowest bits of a number, from the lowest on. -/
def bits (width n : Nat) : List Bool := (List.range width).map n.testBit

@[simp] theorem length_bits (width n : Nat) : (bits width n).length = width := by
  simp [bits]

theorem bits_succ (width n : Nat) :
    bits (width + 1) n = n.testBit 0 :: bits width (n / 2) := by
  simp [bits, List.range_succ_eq_map, Nat.testBit_succ]

theorem bits_concat (width n : Nat) : bits (width + 1) n = bits width n ++ [n.testBit width] := by
  simp [bits, List.range_succ]

/-- A small number has no more bits than it needs. -/
theorem bits_of_lt {width n : Nat} (h : n < 2 ^ width) (more : Nat) :
    bits (width + more) n = bits width n ++ List.replicate more false := by
  induction more with
  | zero => simp
  | succ more ih =>
    have htop : n.testBit (width + more) = false :=
      Nat.testBit_lt_two_pow (h.trans_le (Nat.pow_le_pow_right (by decide) (by omega)))
    rw [← Nat.add_assoc, bits_concat, ih, htop, List.append_assoc, ← List.replicate_succ']

theorem bits_injective {width m n : Nat} (hm : m < 2 ^ width) (hn : n < 2 ^ width)
    (h : bits width m = bits width n) : m = n := by
  refine Nat.eq_of_testBit_eq fun i => ?_
  by_cases hi : i < width
  · exact List.map_inj_left.1 h i (List.mem_range.2 hi)
  · have hwidth : 2 ^ width ≤ 2 ^ i := Nat.pow_le_pow_right (by decide) (by omega)
    rw [Nat.testBit_lt_two_pow (hm.trans_le hwidth), Nat.testBit_lt_two_pow (hn.trans_le hwidth)]

theorem bits_xor (width m n : Nat) :
    bits width (m ^^^ n) = List.zipWith Bool.xor (bits width m) (bits width n) := by
  simp [bits, List.zipWith_map_left, List.zipWith_map_right, List.zipWith_self]

/-- The polynomial whose coefficients are the given bits, from the highest power on. -/
noncomputable def polynomial : List Bool → (ZMod 2)[X]
  | [] => 0
  | bit :: rest => (if bit then X ^ rest.length else 0) + polynomial rest

theorem polynomial_append (xs ys : List Bool) :
    polynomial (xs ++ ys) = polynomial xs * X ^ ys.length + polynomial ys := by
  induction xs with
  | nil => simp [polynomial]
  | cons bit xs ih =>
    rw [List.cons_append, polynomial, polynomial, ih, List.length_append, pow_add, add_mul, ite_mul,
      zero_mul, add_assoc]

theorem polynomial_zeros (n : Nat) : polynomial (List.replicate n false) = 0 := by
  induction n with
  | zero => rfl
  | succ n ih => simp [List.replicate_succ, polynomial, ih]

theorem polynomial_zipWith_xor {xs ys : List Bool} (h : xs.length = ys.length) :
    polynomial (List.zipWith Bool.xor xs ys) = polynomial xs + polynomial ys := by
  induction xs generalizing ys with
  | nil =>
    rw [List.length_eq_zero_iff.1 h.symm]
    simp [polynomial]
  | cons x xs ih =>
    obtain ⟨y, ys, rfl⟩ := List.exists_cons_of_length_eq_add_one h.symm
    have htail : xs.length = ys.length := by simpa using h
    rw [List.zipWith_cons_cons, polynomial, polynomial, polynomial, ih htail,
      List.length_zipWith, htail, Nat.min_self]
    -- twice the same power is nothing
    have hbit : (if Bool.xor x y then (X : (ZMod 2)[X]) ^ ys.length else 0) =
        (if x then X ^ ys.length else 0) + if y then X ^ ys.length else 0 := by
      cases x <;> cases y <;> simp [CharTwo.add_self_eq_zero]
    rw [hbit]
    ring

theorem polynomial_map_not (xs : List Bool) :
    polynomial (xs.map not) = polynomial xs + polynomial (List.replicate xs.length true) := by
  rw [← polynomial_zipWith_xor (by simp)]
  congr 1
  induction xs with
  | nil => rfl
  | cons x xs ih => simp [List.replicate_succ, ih]

theorem degree_polynomial_lt (xs : List Bool) : (polynomial xs).degree < xs.length := by
  induction xs with
  | nil => simp [polynomial]
  | cons bit xs ih =>
    have hlead : (if bit then (X : (ZMod 2)[X]) ^ xs.length else 0).degree ≤ xs.length := by
      cases bit <;> simp
    have hlength : (xs.length : WithBot ℕ) < (bit :: xs).length := by
      rw [List.length_cons]
      exact_mod_cast Nat.lt_succ_self _
    exact (degree_add_le _ _).trans_lt (max_lt (hlead.trans_lt hlength) (ih.trans hlength))

theorem coeff_polynomial_of_le {xs : List Bool} {i : Nat} (h : xs.length ≤ i) :
    (polynomial xs).coeff i = 0 :=
  coeff_eq_zero_of_degree_lt ((degree_polynomial_lt xs).trans_le (by exact_mod_cast h))

/-- No two strings of the same length have the same polynomial. -/
theorem polynomial_injective {xs ys : List Bool} (hlength : xs.length = ys.length)
    (h : polynomial xs = polynomial ys) : xs = ys := by
  induction xs generalizing ys with
  | nil => exact (List.length_eq_zero_iff.1 hlength.symm).symm
  | cons x xs ih =>
    obtain ⟨y, ys, rfl⟩ := List.exists_cons_of_length_eq_add_one hlength.symm
    have htail : xs.length = ys.length := by simpa using hlength
    have hlead : x = y := by
      have hcoeff := congrArg (fun p : (ZMod 2)[X] => p.coeff ys.length) h
      simp only [polynomial, coeff_add, coeff_polynomial_of_le (Nat.le_refl _),
        coeff_polynomial_of_le htail.le, htail] at hcoeff
      cases x <;> cases y <;> simp at hcoeff ⊢
    subst hlead
    rw [polynomial, polynomial, htail] at h
    rw [ih htail (add_left_cancel h)]

/-! ### The definition -/

/-- The polynomial that messages are divided by. -/
noncomputable def generator : (ZMod 2)[X] :=
  X ^ 32 + (X ^ 26 + X ^ 23 + X ^ 22 + X ^ 16 + X ^ 12 + X ^ 11 + X ^ 10 + X ^ 8 + X ^ 7 + X ^ 5 +
    X ^ 4 + X ^ 2 + X + 1)

/-- The bits of a message. -/
def messageBits (message : Bytes) : List Bool := message.flatMap fun b => bits 8 b.toNat

/-- A string with its first bits inverted. -/
def invertFirst (n : Nat) (xs : List Bool) : List Bool := (xs.take n).map not ++ xs.drop n

/-- What is divided by the generator. -/
noncomputable def dividend (message : Bytes) : (ZMod 2)[X] :=
  polynomial (invertFirst 32 (messageBits message ++ List.replicate 32 false))

/-- The bits of the word are those of the remainder, inverted. -/
def IsChecksum (message : Bytes) (w : UInt32) : Prop :=
  polynomial ((bits 32 w.toNat).map not) = dividend message %ₘ generator

/-! ### Registers as residues -/

/-- The bits of the polynomial that is added when a bit is moved out are the generator's, its
highest power apart. -/
theorem generator_eq : generator = X ^ 32 + polynomial (bits 32 0xEDB88320) := by
  have hbits : bits 32 0xEDB88320 =
      [false, false, false, false, false, true, false, false, true, true, false, false, false,
        false, false, true, false, false, false, true, true, true, false, true, true, false, true,
        true, false, true, true, true] := by decide
  rw [hbits, generator]
  simp [polynomial, add_assoc]

theorem monic_generator : generator.Monic := by
  rw [generator_eq]
  exact monic_X_pow_add ((degree_polynomial_lt _).trans_le (by simp))

theorem degree_generator : generator.degree = 32 := by
  have hrest : (polynomial (bits 32 0xEDB88320)).degree < ((X : (ZMod 2)[X]) ^ 32).degree := by
    rw [degree_X_pow]
    exact (degree_polynomial_lt _).trans_le (by simp)
  rw [generator_eq, degree_add_eq_left_of_degree_lt hrest, degree_X_pow]
  rfl

/-- The polynomial of a register. -/
noncomputable def registerPolynomial (r : UInt32) : (ZMod 2)[X] := polynomial (bits 32 r.toNat)

theorem registerPolynomial_xor (r s : UInt32) :
    registerPolynomial (r ^^^ s) = registerPolynomial r + registerPolynomial s := by
  rw [registerPolynomial, UInt32.toNat_xor, bits_xor, polynomial_zipWith_xor (by simp)]
  rfl

theorem registerPolynomial_of_lt {r : UInt32} (width more : Nat) (h : r.toNat < 2 ^ width)
    (hwidth : width + more = 32) :
    registerPolynomial r = polynomial (bits width r.toNat) * X ^ more := by
  rw [registerPolynomial, ← hwidth, bits_of_lt h, polynomial_append, polynomial_zeros,
    List.length_replicate, add_zero]

theorem registerPolynomial_shiftRight (r : UInt32) :
    registerPolynomial (r >>> 1) = polynomial (bits 31 (r.toNat / 2)) * X := by
  have hr := r.toNat_lt
  have hhalf : (r >>> 1).toNat = r.toNat / 2 := by
    simp [UInt32.toNat_shiftRight, Nat.shiftRight_eq_div_pow]
  have hlt : (r >>> 1).toNat < 2 ^ 31 := by omega
  rw [registerPolynomial_of_lt 31 1 hlt rfl, hhalf, pow_one]

/-- What is added when a bit is moved out: the generator without the highest power. -/
theorem registerPolynomial_carry (bit : Bool) :
    registerPolynomial (carry bit) =
      (if bit then X ^ 32 else 0) + if bit then generator else 0 := by
  cases bit with
  | false =>
    rw [registerPolynomial_of_lt 0 32 (by decide) rfl]
    simp [bits, polynomial]
  | true =>
    rw [if_pos rfl, if_pos rfl, generator_eq, ← add_assoc, CharTwo.add_self_eq_zero, zero_add]
    rfl

/-- Moving the register on by a bit multiplies its polynomial by `X`, and takes the generator off
if the degree is too high then. -/
theorem registerPolynomial_shift (r : UInt32) :
    registerPolynomial (shift r) =
      registerPolynomial r * X + if r.toNat.testBit 0 then generator else 0 := by
  have hr : registerPolynomial r =
      (if r.toNat.testBit 0 then X ^ 31 else 0) + polynomial (bits 31 (r.toNat / 2)) := by
    rw [registerPolynomial, bits_succ, polynomial, length_bits]
  rw [shift_eq, registerPolynomial_xor, registerPolynomial_shiftRight, registerPolynomial_carry, hr,
    add_mul, ite_mul, zero_mul, ← pow_succ]
  ring

/-- The polynomial of a register modulo the generator. -/
noncomputable def residue (r : UInt32) : AdjoinRoot generator := mk generator (registerPolynomial r)

theorem residue_xor (r s : UInt32) : residue (r ^^^ s) = residue r + residue s := by
  rw [residue, registerPolynomial_xor, map_add]
  rfl

theorem residue_shift (r : UInt32) : residue (shift r) = residue r * root generator := by
  have hcarry : mk generator (if r.toNat.testBit 0 then generator else 0) = 0 := by
    split
    · exact mk_self
    · exact map_zero _
  rw [residue, registerPolynomial_shift, map_add, map_mul, mk_X, hcarry, add_zero]
  rfl

theorem residue_iterate_shift (n : Nat) (r : UInt32) :
    residue (shift^[n] r) = residue r * root generator ^ n := by
  induction n generalizing r with
  | zero => simp
  | succ n ih => rw [Function.iterate_succ_apply, ih, residue_shift, pow_succ', mul_assoc]

theorem residue_byte (b : UInt8) :
    residue b.toUInt32 = mk generator (polynomial (bits 8 b.toNat)) * root generator ^ 24 := by
  have hb : b.toUInt32.toNat < 2 ^ 8 := by
    rw [UInt8.toNat_toUInt32]
    exact b.toNat_lt
  rw [residue, registerPolynomial_of_lt 8 24 hb rfl, map_mul, map_pow, mk_X, UInt8.toNat_toUInt32]

/-- A byte comes in with 32 zeros behind it. -/
theorem residue_step (r : UInt32) (b : UInt8) :
    residue (step r b) = residue r * root generator ^ 8 +
      mk generator (polynomial (bits 8 b.toNat)) * root generator ^ 32 := by
  have hstep : step r b = shift^[8] (r ^^^ b.toUInt32) := rfl
  rw [hstep, residue_iterate_shift, residue_xor, residue_byte]
  ring

theorem length_messageBits (message : Bytes) :
    (messageBits message).length = 8 * message.length := by
  simp [messageBits]
  omega

theorem residue_feed (r : UInt32) (piece : Bytes) :
    residue (feed r piece) = residue r * root generator ^ (8 * piece.length) +
      mk generator (polynomial (messageBits piece)) * root generator ^ 32 := by
  induction piece generalizing r with
  | nil => simp [feed, messageBits, polynomial]
  | cons b piece ih =>
    have hbits : messageBits (b :: piece) = bits 8 b.toNat ++ messageBits piece := rfl
    have hfeed : feed r (b :: piece) = feed (step r b) piece := rfl
    rw [hfeed, ih, residue_step, hbits, polynomial_append, length_messageBits, map_add, map_mul,
      map_pow, mk_X, List.length_cons]
    ring

/-! ### The register after a message -/

theorem polynomial_invertFirst {n : Nat} {xs : List Bool} (h : n ≤ xs.length) :
    polynomial (invertFirst n xs) =
      polynomial xs + polynomial (List.replicate n true) * X ^ (xs.length - n) := by
  have hsplit : polynomial xs =
      polynomial (xs.take n) * X ^ (xs.length - n) + polynomial (xs.drop n) := by
    rw [← List.length_drop, ← polynomial_append, List.take_append_drop]
  rw [invertFirst, polynomial_append, polynomial_map_not, List.length_take, Nat.min_eq_left h,
    List.length_drop, hsplit]
  ring

theorem registerPolynomial_start :
    registerPolynomial start = polynomial (List.replicate 32 true) := by
  have hbits : bits 32 start.toNat = List.replicate 32 true := by decide
  rw [registerPolynomial, hbits]

theorem residue_feed_start (message : Bytes) :
    residue (feed start message) = mk generator (dividend message) := by
  have hlength : (messageBits message ++ List.replicate 32 false).length =
      8 * message.length + 32 := by
    simp [length_messageBits]
  rw [residue_feed, residue, registerPolynomial_start, dividend, polynomial_invertFirst (by omega),
    hlength, polynomial_append, polynomial_zeros, Nat.add_sub_cancel]
  simp only [map_add, map_mul, map_pow, mk_X, List.length_replicate, add_zero]
  ring

/-- The register keeps the remainder. -/
theorem registerPolynomial_feed_start (message : Bytes) :
    registerPolynomial (feed start message) = dividend message %ₘ generator := by
  have hdegree : (registerPolynomial (feed start message)).degree < generator.degree := by
    rw [degree_generator]
    exact (degree_polynomial_lt _).trans_le (by simp)
  rw [← (modByMonic_eq_self_iff monic_generator).2 hdegree]
  exact modByMonic_eq_of_dvd_sub monic_generator (mk_eq_mk.1 (residue_feed_start message))

theorem registerPolynomial_injective {r s : UInt32}
    (h : registerPolynomial r = registerPolynomial s) : r = s :=
  UInt32.toNat_inj.1 (bits_injective r.toNat_lt s.toNat_lt (polynomial_injective (by simp) h))

theorem registerPolynomial_finish (w : UInt32) :
    registerPolynomial (finish w) = polynomial ((bits 32 w.toNat).map not) := by
  have hones : finish w = w ^^^ start := rfl
  rw [hones, registerPolynomial_xor, registerPolynomial_start, polynomial_map_not, length_bits]
  rfl

/-- **The checksum that the register computes is the one of the definition.** -/
theorem isChecksum_iff {message : Bytes} {w : UInt32} :
    IsChecksum message w ↔ ofBytes message = w := by
  have hfinish : ∀ r, finish (finish r) = r := fun r => by
    rw [finish, finish, UInt32.xor_assoc, UInt32.xor_self, UInt32.xor_zero]
  rw [IsChecksum, ← registerPolynomial_finish, ← registerPolynomial_feed_start]
  constructor
  · intro h
    rw [ofBytes, ← registerPolynomial_injective h, hfinish]
  · rintro rfl
    rw [ofBytes, hfinish]

end BlobVault.Crc32
