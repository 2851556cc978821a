import BlobVault.Keys.Key
import BlobVault.Proofs.Codec.RoundTrip
import BlobVault.Proofs.Number.Modular
import BlobVault.Proofs.Text.Uuid

/-!
# Wrapping and unwrapping

A data key that is short enough for the modulus is wrapped with any seed, and the private half gives
it back: the padding is undone, and the exponents undo each other.

* `Bytes.ofNatBE_toNatBE` : a byte string is written back from its number;
* `Oaep.unpad?_of_pad?` : **the padding is undone**;
* `PublicKey.Takes`, `PublicKey.exists_wrap?` : which keys wrap which data keys;
* `PrivateKey.Inverts`, `PrivateKey.inverts_of_primes` : the exponents undo each other;
* `PrivateKey.unwrap?_of_wrap?` : **what is wrapped is unwrapped**.
-/

namespace BlobVault

namespace Bytes

theorem toNatBE_cons (b : UInt8) (bs : Bytes) :
    toNatBE (b :: bs) = b.toNat * 256 ^ bs.length + toNatBE bs := by
  have hfold : ∀ (bs : Bytes) (acc : Nat), bs.foldl (fun n b => n * 256 + b.toNat) acc =
      acc * 256 ^ bs.length + toNatBE bs := by
    intro bs
    induction bs with
    | nil => simp [toNatBE]
    | cons c bs ih =>
      intro acc
      rw [toNatBE, List.foldl_cons, List.foldl_cons, ih, ih, List.length_cons, pow_succ]
      ring
  rw [toNatBE, List.foldl_cons, hfold, Nat.zero_mul, Nat.zero_add]

theorem toNatBE_lt (bs : Bytes) : toNatBE bs < 256 ^ bs.length := by
  induction bs with
  | nil => exact Nat.one_pos
  | cons b bs ih =>
    rw [toNatBE_cons, List.length_cons, pow_succ, Nat.mul_comm _ 256]
    have hb : b.toNat + 1 ≤ 256 := b.toNat_lt
    calc b.toNat * 256 ^ bs.length + toNatBE bs
        < b.toNat * 256 ^ bs.length + 256 ^ bs.length := Nat.add_lt_add_left ih _
      _ = (b.toNat + 1) * 256 ^ bs.length := (Nat.succ_mul _ _).symm
      _ ≤ 256 * 256 ^ bs.length := Nat.mul_le_mul_right _ hb

/-- What stands above the highest byte is dropped. -/
theorem ofNatBE_mul_add (width high low : Nat) :
    ofNatBE width (high * 256 ^ width + low) = ofNatBE width low := by
  induction width generalizing high with
  | zero => rfl
  | succ width ih =>
    have hpos : 0 < 256 ^ width := Nat.pow_pos (by omega)
    have hshift : high * 256 ^ (width + 1) = high * 256 * 256 ^ width := by
      rw [pow_succ, Nat.mul_assoc, Nat.mul_comm 256]
    have hbyte : UInt8.ofNat ((high * 256 * 256 ^ width + low) / 256 ^ width) =
        UInt8.ofNat (low / 256 ^ width) := by
      rw [Nat.add_comm, Nat.add_mul_div_right _ _ hpos]
      apply UInt8.toNat_inj.1
      simp
    rw [ofNatBE, ofNatBE, hshift, Nat.pow_eq, hbyte, ih]

/-- A byte string is written back from its number. -/
theorem ofNatBE_toNatBE (bs : Bytes) : ofNatBE bs.length (toNatBE bs) = bs := by
  induction bs with
  | nil => rfl
  | cons b bs ih =>
    have hpos : 0 < 256 ^ bs.length := Nat.pow_pos (by omega)
    have hdiv : (b.toNat * 256 ^ bs.length + toNatBE bs) / 256 ^ bs.length = b.toNat := by
      rw [Nat.add_comm, Nat.add_mul_div_right _ _ hpos, Nat.div_eq_of_lt (toNatBE_lt bs),
        Nat.zero_add]
    rw [toNatBE_cons, List.length_cons, ofNatBE, ofNatBE_mul_add, ih, Nat.pow_eq, hdiv,
      UInt8.ofNat_toNat]

end Bytes

/-! ### The padding -/

namespace Oaep

variable {size : Nat} {seed message padded : Bytes}

@[simp] theorem length_mask (seed : Bytes) (length : Nat) : (mask seed length).length = length := by
  have hsum : ∀ blocks : Nat, (((List.range blocks).map fun i =>
      Sha256.hash (seed ++ Bytes.ofNatBE 4 i)).flatten).length = 32 * blocks := by
    intro blocks
    rw [List.length_flatten, List.map_map]
    simp [Function.comp_def, Nat.mul_comm]
  rw [mask, List.length_take, hsum]
  omega

/-- The block that is hidden in a padded form: the label's digest, zeros, a mark and the
message. -/
def block (size : Nat) (message : Bytes) : Bytes :=
  labelDigest ++ List.replicate (size - message.length - 66) 0 ++ 1 :: message

theorem length_block (h : message.length + 66 ≤ size) :
    (block size message).length = size - 33 := by
  have hlabel : labelDigest.length = 32 := Sha256.length_hash []
  simp only [block, List.length_append, List.length_replicate, List.length_cons, hlabel]
  omega

/-- The hidden form of the block. -/
def maskedBlock (size : Nat) (seed message : Bytes) : Bytes :=
  Bytes.xor (block size message) (mask seed (block size message).length)

theorem length_maskedBlock :
    (maskedBlock size seed message).length = (block size message).length := by
  simp [maskedBlock]

/-- The hidden form of the seed. -/
def maskedSeed (size : Nat) (seed message : Bytes) : Bytes :=
  Bytes.xor seed (mask (maskedBlock size seed message) digestLength)

theorem length_maskedSeed (hseed : seed.length = digestLength) :
    (maskedSeed size seed message).length = digestLength := by
  simp [maskedSeed, hseed]

theorem pad?_eq_some (h : pad? size seed message = some padded) :
    message.length + 66 ≤ size ∧
      padded = 0 :: (maskedSeed size seed message ++ maskedBlock size seed message) := by
  unfold pad? at h
  split at h
  · rename_i hfits
    exact ⟨hfits, (Option.some.inj h).symm⟩
  · cases h

theorem pad?_of_fits (h : message.length + 66 ≤ size) (seed : Bytes) :
    ∃ padded, pad? size seed message = some padded :=
  ⟨_, if_pos h⟩

theorem length_of_pad? (hseed : seed.length = digestLength)
    (h : pad? size seed message = some padded) : padded.length = size := by
  obtain ⟨hfits, rfl⟩ := pad?_eq_some h
  rw [List.length_cons, List.length_append, length_maskedSeed hseed, length_maskedBlock,
    length_block hfits, digestLength]
  omega

/-- The mark is the first byte after the label's digest that is not zero. -/
theorem dropWhile_block : ((block size message).drop digestLength).dropWhile (· = 0) =
    1 :: message := by
  have hdrop : (block size message).drop digestLength =
      List.replicate (size - message.length - 66) 0 ++ 1 :: message := by
    rw [block, List.append_assoc]
    exact List.drop_left' (Sha256.length_hash [])
  rw [hdrop, List.dropWhile_append_of_pos (by simp)]
  simp

/-- **The padding is undone.** -/
theorem unpad?_of_pad? (hseed : seed.length = digestLength)
    (h : pad? size seed message = some padded) : unpad? padded = some message := by
  have hlength := length_of_pad? hseed h
  obtain ⟨hfits, rfl⟩ := pad?_eq_some h
  have htake : (maskedSeed size seed message ++ maskedBlock size seed message).take digestLength =
      maskedSeed size seed message := List.take_left' (length_maskedSeed hseed)
  have hdrop : (maskedSeed size seed message ++ maskedBlock size seed message).drop digestLength =
      maskedBlock size seed message := List.drop_left' (length_maskedSeed hseed)
  have hseed' : Bytes.xor (maskedSeed size seed message)
      (mask (maskedBlock size seed message) digestLength) = seed :=
    Bytes.xor_xor_self (by simp [hseed])
  have hblock : Bytes.xor (maskedBlock size seed message)
      (mask seed (maskedBlock size seed message).length) = block size message := by
    rw [length_maskedBlock]
    exact Bytes.xor_xor_self (by simp)
  have hlabel : (block size message).take digestLength = labelDigest := by
    rw [block, List.append_assoc]
    exact List.take_left' (Sha256.length_hash [])
  have hlong : ¬ size < 2 * digestLength + 2 := by
    rw [digestLength]
    omega
  simp only [unpad?]
  rw [hlength, if_neg hlong, htake, hdrop, hseed', hblock, dropWhile_block, hlabel]
  simp

end Oaep

/-! ### The keys -/

theorem le_modulusSize {n : Nat} (hn : 0 < modulusSize n) : 256 ^ (modulusSize n - 1) ≤ n := by
  have hne : n ≠ 0 := by
    rintro rfl
    exact absurd hn (by decide)
  have hbits : 8 * (modulusSize n - 1) ≤ Nat.log2 n := by
    rw [modulusSize, bitCount, if_neg hne]
    omega
  calc 256 ^ (modulusSize n - 1) = 2 ^ (8 * (modulusSize n - 1)) := by rw [pow_mul]; norm_num
    _ ≤ 2 ^ Nat.log2 n := Nat.pow_le_pow_right (by omega) hbits
    _ ≤ n := Nat.log2_self_le hne

theorem lt_modulusSize (n : Nat) : n < 256 ^ modulusSize n := by
  by_cases hne : n = 0
  · subst hne
    decide
  have hbits : Nat.log2 n + 1 ≤ 8 * modulusSize n := by
    rw [modulusSize, bitCount, if_neg hne]
    omega
  calc n < 2 ^ (Nat.log2 n + 1) := Nat.lt_log2_self
    _ ≤ 2 ^ (8 * modulusSize n) := Nat.pow_le_pow_right (by omega) hbits
    _ = 256 ^ modulusSize n := by rw [pow_mul]; norm_num

/-- The key can wrap the data key: it is short enough for the modulus. -/
def PublicKey.Takes : PublicKey → Bytes → Prop
  | .rsa n e, dataKey => e < n ∧ dataKey.length + 66 ≤ modulusSize n
  | .curve _, _ => False

/-- The exponents of the key undo each other. -/
def PrivateKey.Inverts : PrivateKey → Prop
  | .rsa n e d => ∀ m < n, Modular.pow (Modular.pow m e n) d n = m
  | .curve _ => True

theorem PrivateKey.inverts_of_primes {p q e d : Nat} (hp : p.Prime) (hq : q.Prime) (hpq : p ≠ q)
    (hinverse : e * d ≡ 1 [MOD (p - 1) * (q - 1)]) : (rsa (p * q) e d).Inverts :=
  fun _ => Modular.pow_pow_of_primes hp hq hpq hinverse

/-- A padded form starts with a zero, so that its number is below the modulus. -/
theorem Oaep.toNatBE_lt_modulus {n : Nat} {seed message padded : Bytes}
    (hseed : seed.length = digestLength) (h : pad? (modulusSize n) seed message = some padded) :
    Bytes.toNatBE padded < n := by
  have hlength := length_of_pad? hseed h
  obtain ⟨-, rfl⟩ := pad?_eq_some h
  rw [List.length_cons] at hlength
  have hlt := Bytes.toNatBE_lt (maskedSeed (modulusSize n) seed message ++
    maskedBlock (modulusSize n) seed message)
  rw [show (maskedSeed (modulusSize n) seed message ++
    maskedBlock (modulusSize n) seed message).length = modulusSize n - 1 by omega] at hlt
  rw [Bytes.toNatBE_cons]
  simp only [UInt8.toNat_zero, Nat.zero_mul, Nat.zero_add]
  exact Nat.lt_of_lt_of_le hlt (le_modulusSize (by omega))

theorem PublicKey.exists_wrap? {k : PublicKey} {seed dataKey : Bytes} (hk : k.Takes dataKey)
    (hseed : seed.length = Oaep.digestLength) : ∃ wrapped, k.wrap? seed dataKey = some wrapped := by
  cases k with
  | curve point => exact hk.elim
  | rsa n e =>
    obtain ⟨padded, hpadded⟩ := Oaep.pad?_of_fits hk.2 seed
    refine ⟨Bytes.ofNatBE (modulusSize n) (Modular.pow (Bytes.toNatBE padded) e n), ?_⟩
    rw [wrap?, hpadded, Option.bind_some]
    exact if_pos ⟨hk.1, Oaep.toNatBE_lt_modulus hseed hpadded⟩

/-- **What is wrapped is unwrapped.** -/
theorem PrivateKey.unwrap?_of_wrap? {p : PrivateKey} {seed dataKey wrapped : Bytes}
    (hp : p.Inverts) (hseed : seed.length = Oaep.digestLength)
    (h : p.toPublic.wrap? seed dataKey = some wrapped) : p.unwrap? wrapped = some dataKey := by
  cases p with
  | curve point => cases h
  | rsa n e d =>
    obtain ⟨padded, hpadded, h⟩ := Option.bind_eq_some_iff.1 h
    dsimp only at h
    split at h
    · rename_i hsmall
      obtain rfl := Option.some.inj h
      have hn : 0 < n := Nat.lt_of_le_of_lt (Nat.zero_le _) hsmall.2
      have hpow := Modular.pow_lt hn (Bytes.toNatBE padded) e
      have hread : Bytes.toNatBE (Bytes.ofNatBE (modulusSize n)
          (Modular.pow (Bytes.toNatBE padded) e n)) = Modular.pow (Bytes.toNatBE padded) e n :=
        Bytes.toNatBE_ofNatBE (hpow.trans (lt_modulusSize n))
      have hback : Bytes.ofNatBE (modulusSize n) (Bytes.toNatBE padded) = padded := by
        rw [← Oaep.length_of_pad? hseed hpadded, Bytes.ofNatBE_toNatBE]
      simp only [unwrap?]
      rw [Bytes.length_ofNatBE, if_neg (Nat.lt_irrefl _), hread, if_pos hpow, hp _ hsmall.2, hback]
      exact Oaep.unpad?_of_pad? hseed hpadded
    · cases h

end BlobVault
