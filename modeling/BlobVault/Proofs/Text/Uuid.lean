import BlobVault.Proofs.Text.Hex
import BlobVault.Uuid
import Mathlib.Algebra.GroupWithZero.Nat

/-!
# Identifiers read back

* `Bytes.toNatBE_ofNatBE` : a number that fits is read back from its bytes;
* `Uuid.valueOf?_digits` : hexadecimal digits denote the number of the bytes they are made of;
* `Uuid.ofText_toText`, `Uuid.toText_injective` : **an identifier is read back from its text**, so a
  text belongs to one identifier;
* `Uuid.ofHyphenated?_groups` : five groups of digits with hyphens between them are one number.
-/

namespace BlobVault

namespace Bytes

theorem foldl_ofNatBE (width n acc : Nat) :
    (ofNatBE width n).foldl (fun n b => n * 256 + b.toNat) acc
      = acc * 256 ^ width + n % 256 ^ width := by
  induction width generalizing acc with
  | zero => simp [ofNatBE, Nat.mod_one]
  | succ width ih =>
    have hsplit : n % 256 ^ (width + 1)
        = n / 256 ^ width % 256 * 256 ^ width + n % 256 ^ width := by
      rw [Nat.pow_succ, Nat.mod_mul, Nat.mul_comm, Nat.add_comm]
    have hbyte : (UInt8.ofNat (n / 256 ^ width)).toNat = n / 256 ^ width % 256 := by simp
    simp only [ofNatBE, List.foldl_cons, ih, Nat.pow_eq, hbyte]
    rw [hsplit, Nat.pow_succ, Nat.add_mul, Nat.mul_assoc, Nat.mul_comm 256, Nat.add_assoc]

/-- A number that fits is read back from its bytes. -/
theorem toNatBE_ofNatBE {width n : Nat} (h : n < 256 ^ width) :
    toNatBE (ofNatBE width n) = n := by
  rw [toNatBE, foldl_ofNatBE, Nat.mod_eq_of_lt h, Nat.zero_mul, Nat.zero_add]

theorem ofNatBE_injective {width m n : Nat} (hm : m < 256 ^ width) (hn : n < 256 ^ width)
    (h : ofNatBE width m = ofNatBE width n) : m = n := by
  rw [← toNatBE_ofNatBE hm, h, toNatBE_ofNatBE hn]

end Bytes

namespace Uuid

theorem foldl_digits (bs : Bytes) (acc : Nat) :
    (Hex.digits bs).foldl (fun n? c => do
      let n ← n?
      let d ← Hex.value? c
      pure (16 * n + d)) (some acc) = some (bs.foldl (fun n b => n * 256 + b.toNat) acc) := by
  induction bs generalizing acc with
  | nil => rfl
  | cons b bs ih =>
    have hlt : b.toNat < 256 := b.toNat_lt
    have hhi : Hex.value? (Hex.digit (b.toNat / 16)) = some (b.toNat / 16) :=
      Hex.value?_digit (by omega)
    have hlo : Hex.value? (Hex.digit (b.toNat % 16)) = some (b.toNat % 16) :=
      Hex.value?_digit (by omega)
    have hbyte : 16 * (16 * acc + b.toNat / 16) + b.toNat % 16 = acc * 256 + b.toNat := by omega
    simpa only [Hex.digits_cons, List.foldl_cons, hhi, hlo, Option.bind_eq_bind, Option.bind_some,
      Option.pure_def, hbyte] using ih (acc * 256 + b.toNat)

/-- Digits denote the number of the bytes they are made of. -/
theorem valueOf?_digits (bs : Bytes) : valueOf? (Hex.digits bs) = some (Bytes.toNatBE bs) :=
  foldl_digits bs 0

/-- The 36 characters made of 32 digits. -/
theorem toList_toText (u : Uuid) : u.toText.toList =
    (Hex.digits u.toBytes).take 8 ++ '-' :: ((Hex.digits u.toBytes).drop 8).take 4
      ++ '-' :: ((Hex.digits u.toBytes).drop 12).take 4
      ++ '-' :: ((Hex.digits u.toBytes).drop 16).take 4
      ++ '-' :: (Hex.digits u.toBytes).drop 20 := by
  rw [toText, String.toList_ofList]

/-- Five groups of digits with hyphens between them are read as one number. -/
theorem ofHyphenated?_groups {a b c d e : List Char} (ha : a.length = 8) (hb : b.length = 4)
    (hc : c.length = 4) (hd : d.length = 4) (he : e.length = 12) :
    ofHyphenated? (a ++ '-' :: b ++ '-' :: c ++ '-' :: d ++ '-' :: e)
      = valueOf? (a ++ b ++ c ++ d ++ e) := by
  rw [ofHyphenated?, if_pos]
  · simp (disch := omega) [List.drop_append, List.drop_of_length_le, ha, hb, hc, hd]
  · simp [hyphenPlaces, ha, hb, hc, hd, he]

/-- An identifier is written with hexadecimal digits and hyphens. -/
theorem mem_toText {u : Uuid} {c : Char} (h : c ∈ u.toText.toList) :
    c = '-' ∨ ∃ n < 16, c = Hex.digit n := by
  refine (Decidable.em (c = '-')).imp_right fun hne => ?_
  suffices hdigits : c ∈ Hex.digits u.toBytes from Hex.exists_of_mem_digits hdigits
  rw [toList_toText] at h
  simp only [List.mem_append, List.mem_cons, hne, false_or] at h
  rcases h with (((h | h) | h) | h) | h
  · exact List.mem_of_mem_take h
  · exact List.mem_of_mem_drop (List.mem_of_mem_take h)
  · exact List.mem_of_mem_drop (List.mem_of_mem_take h)
  · exact List.mem_of_mem_drop (List.mem_of_mem_take h)
  · exact List.mem_of_mem_drop h

theorem length_digits_toBytes (u : Uuid) : (Hex.digits u.toBytes).length = 32 := by
  rw [Hex.length_digits, toBytes, Bytes.length_ofNatBE]

theorem ofHyphenated?_toText (u : Uuid) : ofHyphenated? u.toText.toList = some u.bits.toNat := by
  have hlen := u.length_digits_toBytes
  have hfits : u.bits.toNat < 256 ^ 16 := u.bits.isLt
  have hnext : ∀ (ds : List Char) (i : Nat), (ds.drop i).take 4 ++ ds.drop (i + 4) = ds.drop i :=
    fun ds i => by rw [← List.drop_drop, List.take_append_drop]
  have hjoin : ∀ ds : List Char,
      ds.take 8 ++ (ds.drop 8).take 4 ++ (ds.drop 12).take 4 ++ (ds.drop 16).take 4 ++ ds.drop 20
        = ds := fun ds => by
    rw [List.append_assoc, hnext ds 16, List.append_assoc, hnext ds 12, List.append_assoc,
      hnext ds 8, List.take_append_drop]
  rw [toList_toText, ofHyphenated?_groups (by simp [hlen]) (by simp [hlen]) (by simp [hlen])
    (by simp [hlen]) (by simp [hlen]), hjoin, valueOf?_digits, toBytes,
    Bytes.toNatBE_ofNatBE hfits]

theorem digit_ne_brace {n : Nat} (h : n < 16) : Hex.digit n ≠ '\x7b' := by
  revert n
  decide

theorem toText_eq_cons (u : Uuid) : ∃ n < 16, ∃ rest, u.toText.toList = Hex.digit n :: rest := by
  have hbytes : u.toBytes.length = 16 := by rw [toBytes, Bytes.length_ofNatBE]
  obtain ⟨b, bs, hcons⟩ := List.exists_cons_of_length_eq_add_one hbytes
  have hlt : b.toNat < 256 := b.toNat_lt
  refine ⟨b.toNat / 16, by omega, ?_⟩
  rw [toList_toText, hcons, Hex.digits_cons]
  exact ⟨_, rfl⟩

/-- The text of an identifier has the plain hyphenated form. -/
theorem number?_toText (u : Uuid) : number? u.toText.toList = some u.bits.toNat := by
  have hread := ofHyphenated?_toText u
  have hlen : u.toText.toList.length = 36 := by
    have hdigits := u.length_digits_toBytes
    simp only [toList_toText, List.length_append, List.length_cons, List.length_take,
      List.length_drop, hdigits]
    decide
  have hhyphen : (u.toText.toList)[8]? = some '-' := by
    have hplaces : ∀ i ∈ hyphenPlaces, (u.toText.toList)[i]? = some '-' := by
      rw [ofHyphenated?] at hread
      split at hread
      · rename_i hform
        simpa using hform.2
      · cases hread
    exact hplaces 8 (by decide)
  have hunbraced : unbraced? u.toText.toList = none := by
    obtain ⟨n, hn, rest, htext⟩ := u.toText_eq_cons
    rw [htext, unbraced?]
    simp [digit_ne_brace hn]
  have hbare : afterScheme? u.toText.toList = none := by
    rw [afterScheme?, if_neg]
    intro hscheme
    have hcolon := congrArg (·[8]?) hscheme
    simp [hhyphen] at hcolon
  rw [number?, if_neg (by omega), hunbraced, hbare]
  exact hread

/-- **An identifier is read back from its text.** -/
theorem ofText_toText (u : Uuid) : ofText u.toText = .ok u := by
  rw [ofText, number?_toText]
  exact congrArg (Except.ok ∘ Uuid.mk) (BitVec.ofNat_toNat 128 u.bits)

theorem toText_injective {u v : Uuid} (h : u.toText = v.toText) : u = v := by
  have hu := ofText_toText u
  rw [h, ofText_toText] at hu
  exact (Except.ok.inj hu).symm

end Uuid

end BlobVault
