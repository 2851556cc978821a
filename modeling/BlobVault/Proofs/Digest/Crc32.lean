import BlobVault.Digest.Crc32
import Mathlib.Data.List.Induction
import Mathlib.Data.Nat.Bitwise
import Mathlib.Logic.Function.Iterate

/-!
# Bursts and the checksum

The register of the checksum is linear in exclusive or, so the difference of two registers moves on
by itself, whatever the registers are.  A difference that is small after a byte was merely moved
down by it: the polynomial has its highest bit set, which would show.

* `shift_xor`, `step_xor_step` : the difference of two registers moves on by itself;
* `toNat_of_iterate_shift` : a register that is small after some bits was moved down by them;
* `feed_injective` : nothing that follows brings two different registers together;
* `eq_of_feed_close` : four bytes or fewer that lead to the same register are the same;
* `ofBytes_ne_of_burst` : **a change within four consecutive bytes changes the checksum.**
-/

namespace BlobVault.Crc32

/-! ### Differences of registers -/

theorem and_one_eq_one_iff (r : UInt32) : r &&& 1 = 1 ↔ r.toNat.testBit 0 = true := by
  rw [← UInt32.toNat_inj, UInt32.toNat_and, Nat.testBit_zero]
  simp

/-- What a bit that is moved out adds to the rest of the register. -/
def carry (bit : Bool) : UInt32 := if bit then 0xEDB88320 else 0

theorem carry_xor (a b : Bool) : carry (a ^^ b) = carry a ^^^ carry b := by
  cases a <;> cases b <;> rfl

theorem shift_eq (r : UInt32) : shift r = (r >>> 1) ^^^ carry (r.toNat.testBit 0) := by
  unfold shift carry
  by_cases h : r.toNat.testBit 0 = true
  · rw [if_pos ((and_one_eq_one_iff r).2 h), if_pos h]
  · rw [if_neg (mt (and_one_eq_one_iff r).1 h), if_neg h, UInt32.xor_zero]

theorem shift_xor (r s : UInt32) : shift (r ^^^ s) = shift r ^^^ shift s := by
  have hrest : (r ^^^ s) >>> 1 = (r >>> 1) ^^^ (s >>> 1) := by
    apply UInt32.toBitVec_inj.1
    simp [BitVec.ushiftRight_xor_distrib]
  rw [shift_eq, shift_eq, shift_eq, hrest, UInt32.toNat_xor, Nat.testBit_xor, carry_xor]
  ac_rfl

theorem iterate_shift_xor (n : Nat) (r s : UInt32) :
    shift^[n] (r ^^^ s) = shift^[n] r ^^^ shift^[n] s := by
  induction n generalizing r s with
  | zero => rfl
  | succ n ih => rw [Function.iterate_succ_apply, shift_xor, ih]; rfl

theorem step_xor_step (r s : UInt32) (b c : UInt8) :
    step r b ^^^ step s c = shift^[8] ((r ^^^ s) ^^^ (b ^^^ c).toUInt32) := by
  have hbytes : (r ^^^ s) ^^^ (b ^^^ c).toUInt32 = (r ^^^ b.toUInt32) ^^^ (s ^^^ c.toUInt32) := by
    rw [UInt8.toUInt32_xor]
    ac_rfl
  rw [hbytes, iterate_shift_xor]
  rfl

/-- The highest bit of the polynomial shows whether a bit was moved out. -/
theorem toNat_of_shift {r : UInt32} (h : (shift r).toNat < 2 ^ 31) :
    r.toNat = 2 * (shift r).toNat := by
  have hrest : (r >>> 1).toNat = r.toNat / 2 := by
    simp [UInt32.toNat_shiftRight, Nat.shiftRight_eq_div_pow]
  have hr := r.toNat_lt
  have hbit : r.toNat.testBit 0 = false := by
    by_contra hbit
    rw [Bool.not_eq_false] at hbit
    -- otherwise the highest bit of the polynomial is the highest bit of the result
    have htop : (shift r).toNat.testBit 31 = true := by
      rw [shift_eq, hbit, UInt32.toNat_xor, Nat.testBit_xor, hrest,
        Nat.testBit_lt_two_pow (by omega)]
      rfl
    exact absurd h (Nat.not_lt.2 (Nat.ge_two_pow_of_testBit htop))
  rw [shift_eq, hbit, UInt32.toNat_xor, hrest]
  rw [Nat.testBit_zero, decide_eq_false_iff_not] at hbit
  simp only [carry]
  simp
  omega

theorem toNat_of_iterate_shift {n : Nat} (hn : n ≤ 32) {r : UInt32}
    (h : (shift^[n] r).toNat < 2 ^ (32 - n)) : r.toNat = 2 ^ n * (shift^[n] r).toNat := by
  induction n generalizing r with
  | zero => simp
  | succ n ih =>
    rw [Function.iterate_succ_apply'] at h ⊢
    have hlast := toNat_of_shift
      (Nat.lt_of_lt_of_le h (Nat.pow_le_pow_right (by decide) (by omega)))
    have hbefore : (shift^[n] r).toNat < 2 ^ (32 - n) := by
      rw [hlast, show 32 - n = (32 - (n + 1)) + 1 by omega, Nat.pow_succ]
      omega
    rw [ih (by omega) hbefore, hlast, Nat.pow_succ]
    ac_rfl

/-- A difference that has vanished was none. -/
theorem eq_zero_of_iterate_shift {n : Nat} (hn : n ≤ 32) {r : UInt32} (h : shift^[n] r = 0) :
    r = 0 := by
  have hr := toNat_of_iterate_shift hn (r := r) (by rw [h]; exact Nat.two_pow_pos _)
  rw [h] at hr
  exact UInt32.toNat_inj.1 hr

theorem feed_injective {r s : UInt32} {bs : Bytes} (h : feed r bs = feed s bs) : r = s := by
  induction bs generalizing r s with
  | nil => exact h
  | cons b bs ih =>
    have hstep : step r b ^^^ step s b = 0 := by
      rw [ih h, UInt32.xor_self]
    rw [step_xor_step, UInt8.xor_self] at hstep
    simpa using eq_zero_of_iterate_shift (by decide) hstep

/-- Byte strings that lead from one register to registers that differ in their first bits only are
the same.  The induction takes the last bytes off: each gives room for eight bits more. -/
theorem eq_of_feed_close {r : UInt32} {bs cs : Bytes} (hlength : bs.length = cs.length)
    (hfour : bs.length ≤ 4)
    (h : (feed r bs ^^^ feed r cs).toNat < 2 ^ (32 - 8 * bs.length)) : bs = cs := by
  induction bs using List.reverseRecOn generalizing cs with
  | nil => exact (List.length_eq_zero_iff.1 hlength.symm).symm
  | append_singleton bs b ih =>
    obtain ⟨cs, c, rfl⟩ : ∃ cs' c, cs = cs' ++ [c] := by
      rcases List.eq_nil_or_concat cs with rfl | ⟨cs', c, rfl⟩
      · simp at hlength
      · exact ⟨cs', c, by simp⟩
    simp only [List.length_append, List.length_singleton] at hlength hfour h
    rw [feed_append, feed_append] at h
    change (step (feed r bs) b ^^^ step (feed r cs) c).toNat < _ at h
    rw [step_xor_step] at h
    have hlate := toNat_of_iterate_shift (n := 8) (by decide)
      (Nat.lt_of_lt_of_le h (Nat.pow_le_pow_right (by decide) (by omega)))
    have hbyte : (b ^^^ c).toUInt32.toNat < 2 ^ 8 := by
      rw [UInt8.toNat_toUInt32]
      exact (b ^^^ c).toNat_lt
    -- the difference before the last byte, with that byte in its lowest bits
    have hbefore : ((feed r bs ^^^ feed r cs) ^^^ (b ^^^ c).toUInt32).toNat <
        2 ^ (32 - 8 * bs.length) := by
      rw [hlate, show 32 - 8 * bs.length = 8 + (32 - 8 * (bs.length + 1)) by omega, Nat.pow_add]
      exact Nat.mul_lt_mul_of_pos_left h (by decide)
    have hclose : (feed r bs ^^^ feed r cs).toNat < 2 ^ (32 - 8 * bs.length) := by
      have hcancel : feed r bs ^^^ feed r cs =
          ((feed r bs ^^^ feed r cs) ^^^ (b ^^^ c).toUInt32) ^^^ (b ^^^ c).toUInt32 := by
        rw [UInt32.xor_assoc, UInt32.xor_self, UInt32.xor_zero]
      rw [hcancel, UInt32.toNat_xor]
      exact Nat.xor_lt_two_pow hbefore
        (Nat.lt_of_lt_of_le hbyte (Nat.pow_le_pow_right (by decide) (by omega)))
    obtain rfl := ih (by omega) (by omega) hclose
    -- nothing but the last byte is left, and it is too small to be moved up by eight places
    rw [UInt32.xor_self, UInt32.zero_xor] at hlate
    have hzero : (b ^^^ c).toUInt32.toNat = 0 := by omega
    rw [UInt8.toNat_toUInt32] at hzero
    rw [UInt8.xor_eq_zero_iff.1 (UInt8.toNat_inj.1 hzero)]

/-- The byte strings are of the same length and differ, but nowhere outside four consecutive
bytes. -/
structure Burst (bs cs : Bytes) : Prop where
  length_eq : bs.length = cs.length
  ne : bs ≠ cs
  confined : ∃ first, ∀ i, i < first ∨ first + 4 ≤ i → bs[i]? = cs[i]?

/-- **A change within four consecutive bytes changes the checksum.** -/
theorem ofBytes_ne_of_burst {bs cs : Bytes} (h : Burst bs cs) : ofBytes bs ≠ ofBytes cs := by
  obtain ⟨first, hsame⟩ := h.confined
  have hsplit : ∀ xs : Bytes,
      xs = xs.take first ++ ((xs.drop first).take 4 ++ xs.drop (first + 4)) := fun xs => by
    rw [← List.drop_drop, List.take_append_drop, List.take_append_drop]
  have hbefore : bs.take first = cs.take first := by
    refine List.ext_getElem? fun i => ?_
    by_cases hi : i < first
    · rw [List.getElem?_take_of_lt hi, List.getElem?_take_of_lt hi, hsame i (.inl hi)]
    · rw [List.getElem?_take_eq_none (by omega), List.getElem?_take_eq_none (by omega)]
  have hbehind : bs.drop (first + 4) = cs.drop (first + 4) := by
    refine List.ext_getElem? fun i => ?_
    rw [List.getElem?_drop, List.getElem?_drop, hsame _ (.inr (by omega))]
  intro hsum
  have hfeed : feed start bs = feed start cs := UInt32.xor_left_inj _ |>.1 hsum
  rw [hsplit bs, hsplit cs, feed_append, feed_append, feed_append, feed_append, ← hbefore,
    ← hbehind] at hfeed
  have hlength := h.length_eq
  -- the two registers are the same right behind the window, so its bytes are
  have hwindow : (bs.drop first).take 4 = (cs.drop first).take 4 :=
    eq_of_feed_close (by simp [hlength]) (List.length_take_le ..) (by
      rw [feed_injective hfeed, UInt32.xor_self]
      exact Nat.two_pow_pos _)
  refine h.ne ?_
  rw [hsplit bs, hsplit cs, hbefore, hwindow, hbehind]

/-- A byte that is changed is a burst. -/
theorem burst_modify {bs : Bytes} {offset : Nat} {b : UInt8} (hb : bs[offset]? = some b)
    {f : UInt8 → UInt8} (hf : f b ≠ b) : Burst bs (bs.modify offset f) where
  length_eq := (List.length_modify ..).symm
  ne h := by
    have hsame := congrArg (fun xs : Bytes => xs[offset]?) h
    simp only [List.getElem?_modify, if_true, hb] at hsame
    exact hf (Option.some.inj hsame).symm
  confined := ⟨offset, fun i hi => by
    have hne : offset ≠ i := by omega
    simp [hne]⟩

end BlobVault.Crc32
