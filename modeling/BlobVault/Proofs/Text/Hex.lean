import BlobVault.Ref

/-!
# Hexadecimal texts read back

Every byte string is read back from its digits in either case, so a text is read exactly if its
lower case is the text of some bytes.  Texts are ordered as the bytes that they stand for, since a
byte is compared digit by digit.

* `Hex.decode?_eq_some_iff` : **a text is read as the bytes whose text its lower case is**;
* `Hex.decodePairs_digits`, `Hex.encode_injective` : reading undoes writing, so a text belongs to
  one byte string;
* `Hex.compare_digits` : digits are ordered as the bytes;
* `Ref.ofHex?_eq_some_iff`, `Ref.isSome_ofHex?` : the texts that are read as a reference;
* `Ref.compare_toHex` : references are ordered as their texts.
-/

namespace BlobVault

namespace Hex

/-! ### Digits -/

theorem value?_digit {n : Nat} (h : n < 16) : value? (digit n) = some n := by
  revert n
  decide

/-- A hexadecimal digit of either case. -/
def IsDigit (c : Char) : Prop :=
  '0' ≤ c ∧ c ≤ '9' ∨ 'a' ≤ c ∧ c ≤ 'f' ∨ 'A' ≤ c ∧ c ≤ 'F'

theorem toNat_toLower (c : Char) :
    c.toLower.toNat = if 65 ≤ c.toNat ∧ c.toNat ≤ 90 then c.toNat + 32 else c.toNat := by
  have hcase : (c.val ≥ 'A'.val ∧ c.val ≤ 'Z'.val) ↔ 65 ≤ c.toNat ∧ c.toNat ≤ 90 := Iff.rfl
  by_cases h : c.val ≥ 'A'.val ∧ c.val ≤ 'Z'.val
  · have hlower : c.toLower = ⟨c.val + 32, _⟩ := dif_pos h
    obtain ⟨-, hle⟩ := hcase.1 h
    rw [if_pos (hcase.1 h), hlower]
    show (c.val + 32).toNat = c.toNat + 32
    rw [UInt32.toNat_add]
    exact Nat.mod_eq_of_lt (Nat.lt_of_le_of_lt (Nat.add_le_add_right hle 32) (by decide))
  · have hlower : c.toLower = c := dif_neg h
    rw [if_neg (mt hcase.2 h), hlower]

theorem toNat_digit {n : Nat} (h : n < 16) :
    (digit n).toNat = if n < 10 then 48 + n else 87 + n := by
  revert n
  decide

/-- The value of a digit is that of its lower case. -/
theorem value?_eq_some_iff {c : Char} {n : Nat} :
    value? c = some n ↔ n < 16 ∧ c.toLower = digit n := by
  -- characters are compared by their numbers, where each kind of digit is an interval
  constructor
  · intro h
    have hn : n < 16 ∧ c.toLower.toNat = if n < 10 then 48 + n else 87 + n := by
      rw [toNat_toLower]
      rw [value?] at h
      grind
    exact ⟨hn.1, Char.toNat_inj.1 (hn.2.trans (toNat_digit hn.1).symm)⟩
  · rintro ⟨hn, hc⟩
    have hnat := congrArg Char.toNat hc
    rw [toNat_toLower, toNat_digit hn] at hnat
    rw [value?]
    grind

theorem toLower_digit {n : Nat} (h : n < 16) : (digit n).toLower = digit n :=
  (value?_eq_some_iff.1 (value?_digit h)).2

theorem isDigit_iff {c : Char} : IsDigit c ↔ ∃ n < 16, c.toLower = digit n := by
  have hval : IsDigit c ↔ (value? c).isSome := by
    have hle : ∀ a b : Char, a ≤ b ↔ a.toNat ≤ b.toNat := fun _ _ => Iff.rfl
    simp only [IsDigit, hle, value?]
    grind
  rw [hval, Option.isSome_iff_exists]
  simp only [value?_eq_some_iff]

theorem digits_cons (b : UInt8) (bs : Bytes) :
    digits (b :: bs) = digit (b.toNat / 16) :: digit (b.toNat % 16) :: digits bs := by
  simp [digits]

/-- A byte that is put together from two digits. -/
theorem digits_ofNat_cons {m n : Nat} (hm : m < 16) (hn : n < 16) (bs : Bytes) :
    digits (UInt8.ofNat (16 * m + n) :: bs) = digit m :: digit n :: digits bs := by
  have hbyte : (UInt8.ofNat (16 * m + n)).toNat = 16 * m + n :=
    UInt8.toNat_ofNat_of_lt' (by show _ < 256; omega)
  have hdiv : (16 * m + n) / 16 = m := by omega
  have hmod : (16 * m + n) % 16 = n := by omega
  rw [digits_cons, hbyte, hdiv, hmod]

theorem exists_of_mem_digits {c : Char} {bs : Bytes} (h : c ∈ digits bs) :
    ∃ n < 16, c = digit n := by
  obtain ⟨b, -, hc⟩ := List.mem_flatMap.1 h
  have hlt : b.toNat < 256 := b.toNat_lt
  simp only [List.mem_cons, List.not_mem_nil, or_false] at hc
  rcases hc with rfl | rfl
  · exact ⟨b.toNat / 16, by omega, rfl⟩
  · exact ⟨b.toNat % 16, by omega, rfl⟩

/-! ### Reading -/

theorem map_toLower_digits (bs : Bytes) : (digits bs).map Char.toLower = digits bs := by
  have hfixed : ∀ c ∈ digits bs, c.toLower = id c := fun c hc => by
    obtain ⟨n, hn, rfl⟩ := exists_of_mem_digits hc
    exact toLower_digit hn
  rw [List.map_congr_left hfixed, List.map_id]

theorem map_toLower_of_decodePairs {position : Nat} {cs : List Char} {bs : Bytes}
    (h : decodePairs position cs = .ok bs) : cs.map Char.toLower = digits bs := by
  -- only the end and a pair of digits are read without a fault
  fun_induction decodePairs position cs generalizing bs with
  | case1 => rw [← Except.ok.inj h]; rfl
  | case5 position hi lo rest m n hlo hhi bs' hrest ih =>
    obtain ⟨hm, hhi'⟩ := value?_eq_some_iff.1 hhi
    obtain ⟨hn, hlo'⟩ := value?_eq_some_iff.1 hlo
    rw [← Except.ok.inj h, digits_ofNat_cons hm hn, ← ih hrest, List.map_cons, List.map_cons, hhi',
      hlo']
  | _ => cases h

theorem decodePairs_of_map_toLower {position : Nat} {cs : List Char} {bs : Bytes}
    (h : cs.map Char.toLower = digits bs) : decodePairs position cs = .ok bs := by
  induction bs generalizing position cs with
  | nil => rw [List.map_eq_nil_iff.1 h]; rfl
  | cons b bs ih =>
    have hlt : b.toNat < 256 := b.toNat_lt
    rw [digits_cons] at h
    obtain ⟨hi, cs, rfl, hhi, h⟩ := List.map_eq_cons_iff.1 h
    obtain ⟨lo, cs, rfl, hlo, hrest⟩ := List.map_eq_cons_iff.1 h
    have hhi : value? hi = some (b.toNat / 16) := value?_eq_some_iff.2 ⟨by omega, hhi⟩
    have hlo : value? lo = some (b.toNat % 16) := value?_eq_some_iff.2 ⟨by omega, hlo⟩
    have hb : 16 * (b.toNat / 16) + b.toNat % 16 = b.toNat := by omega
    simp [decodePairs, hhi, hlo, ih hrest, hb]

/-- **A text is read as the bytes whose text its lower case is.** -/
theorem decode?_eq_some_iff {cs : List Char} {bs : Bytes} :
    decode? cs = some bs ↔ cs.map Char.toLower = digits bs := by
  constructor
  · intro h
    rw [decode?] at h
    split at h
    · rename_i bs' hread
      rw [decode] at hread
      split at hread
      · cases hread
      · rw [← Option.some.inj h, map_toLower_of_decodePairs hread]
    · cases h
  · intro h
    have hlength := congrArg List.length h
    rw [List.length_map, length_digits] at hlength
    rw [decode?, decode, if_neg (by omega), decodePairs_of_map_toLower h]

/-- As many pairs of digits as there are bytes stand for some bytes. -/
theorem exists_map_toLower {n : Nat} {cs : List Char} (hlength : cs.length = 2 * n)
    (h : ∀ c ∈ cs, IsDigit c) : ∃ bs, bs.length = n ∧ cs.map Char.toLower = digits bs := by
  induction n generalizing cs with
  | zero => exact ⟨[], rfl, by rw [List.length_eq_zero_iff.1 hlength]; rfl⟩
  | succ n ih =>
    match cs with
    | [] | [_] => simp only [List.length_cons, List.length_nil] at hlength; omega
    | hi :: lo :: rest =>
      simp only [List.length_cons] at hlength
      obtain ⟨hhi, h⟩ := List.forall_mem_cons.1 h
      obtain ⟨hlo, hrest⟩ := List.forall_mem_cons.1 h
      obtain ⟨m, hm, hhi⟩ := isDigit_iff.1 hhi
      obtain ⟨k, hk, hlo⟩ := isDigit_iff.1 hlo
      obtain ⟨bs, hbs, hdigits⟩ := ih (by omega) hrest
      refine ⟨UInt8.ofNat (16 * m + k) :: bs, by rw [List.length_cons, hbs], ?_⟩
      rw [digits_ofNat_cons hm hk, List.map_cons, List.map_cons, hhi, hlo, hdigits]

theorem isDigit_of_map_toLower {cs : List Char} {bs : Bytes}
    (h : cs.map Char.toLower = digits bs) {c : Char} (hc : c ∈ cs) : IsDigit c := by
  have hmem : c.toLower ∈ digits bs := h ▸ List.mem_map_of_mem hc
  exact isDigit_iff.2 (exists_of_mem_digits hmem)

theorem toList_toLower (s : String) : s.toLower.toList = s.toList.map Char.toLower :=
  String.toList_map

theorem decodePairs_digits (position : Nat) (bs : Bytes) :
    decodePairs position (digits bs) = .ok bs :=
  decodePairs_of_map_toLower (map_toLower_digits bs)

theorem digits_injective {bs cs : Bytes} (h : digits bs = digits cs) : bs = cs := by
  have hb := decodePairs_digits 0 bs
  rw [h, decodePairs_digits] at hb
  exact (Except.ok.inj hb).symm

theorem toList_encode (bs : Bytes) : (encode bs).toList = digits bs := by
  simp [encode]

theorem encode_injective {bs cs : Bytes} (h : encode bs = encode cs) : bs = cs :=
  digits_injective (by rw [← toList_encode, h, toList_encode])

/-! ### Order -/

theorem compare_digit {m n : Nat} (hm : m < 16) (hn : n < 16) :
    compare (digit m) (digit n) = compare m n := by
  have hall : ∀ m < 16, ∀ n < 16, compare (digit m) (digit n) = compare m n := by decide
  exact hall m hm n hn

/-- Numbers are compared digit by digit. -/
theorem compare_div_mod (m n : Nat) :
    compare m n = (compare (m / 16) (n / 16)).then (compare (m % 16) (n % 16)) := by
  rcases Nat.lt_trichotomy (m / 16) (n / 16) with h | h | h
  · rw [Nat.compare_eq_lt.2 h, Nat.compare_eq_lt.2 (by omega)]; rfl
  · rw [Nat.compare_eq_eq.2 h, Ordering.eq_then]
    rcases Nat.lt_trichotomy (m % 16) (n % 16) with h' | h' | h'
    · rw [Nat.compare_eq_lt.2 h', Nat.compare_eq_lt.2 (by omega)]
    · rw [Nat.compare_eq_eq.2 h', Nat.compare_eq_eq.2 (by omega)]
    · rw [Nat.compare_eq_gt.2 h', Nat.compare_eq_gt.2 (by omega)]
  · rw [Nat.compare_eq_gt.2 h, Nat.compare_eq_gt.2 (by omega)]; rfl

theorem compare_toNat (b c : UInt8) : compare b c = compare b.toNat c.toNat := by
  show compareOfLessAndEq b c = compareOfLessAndEq b.toNat c.toNat
  simp only [compareOfLessAndEq, UInt8.lt_iff_toNat_lt, ← UInt8.toNat_inj]

/-- Digits are ordered as the bytes that they stand for. -/
theorem compare_digits (bs cs : Bytes) : compare (digits bs) (digits cs) = compare bs cs := by
  -- two bytes are compared by their high digits and then by their low ones, as the texts are
  induction bs generalizing cs with
  | nil =>
    cases cs with
    | nil => rfl
    | cons c cs => rw [digits_cons]; rfl
  | cons b bs ih =>
    cases cs with
    | nil => rw [digits_cons]; rfl
    | cons c cs =>
      have hb : b.toNat < 256 := b.toNat_lt
      have hc : c.toNat < 256 := c.toNat_lt
      rw [digits_cons, digits_cons, List.compare_cons_cons, List.compare_cons_cons,
        List.compare_cons_cons, ih, compare_digit (by omega) (by omega),
        compare_digit (by omega) (by omega), compare_toNat, compare_div_mod b.toNat c.toNat,
        Ordering.then_assoc]

/-- The two ways to compare lists of characters agree. -/
theorem compare_chars (cs ds : List Char) : compare cs ds = compareOfLessAndEq cs ds := by
  induction cs generalizing ds with
  | nil => cases ds <;> rfl
  | cons c cs ih =>
    cases ds with
    | nil => rfl
    | cons d ds =>
      have hhead : compare c d = compareOfLessAndEq c d := rfl
      rw [List.compare_cons_cons, ih, hhead]
      simp only [compareOfLessAndEq, List.cons_lt_cons_iff, List.cons.injEq]
      by_cases hlt : c < d
      · simp [hlt]
      · by_cases heq : c = d
        · subst heq
          simp only [hlt, if_false, if_true, Ordering.eq_then, true_and, false_or]
        · simp [hlt, heq]

/-- Texts are ordered as the lists of their characters. -/
theorem compare_toList (s t : String) : compare s.toList t.toList = compare s t := by
  rw [compare_chars]
  show compareOfLessAndEq s.toList t.toList = compareOfLessAndEq s t
  simp only [compareOfLessAndEq, String.toList_inj]
  rfl

end Hex

namespace Ref

theorem toHex_injective {r s : Ref} (h : r.toHex = s.toHex) : r = s :=
  ext_bytes (Hex.encode_injective h)

@[simp] theorem length_toHex (r : Ref) : r.toHex.length = 64 := by
  rw [toHex, ← String.length_toList, Hex.toList_encode, Hex.length_digits, r.size_eq]

/-- **A text is read as the reference whose text its lower case is.** -/
theorem ofHex?_eq_some_iff {s : String} {r : Ref} : ofHex? s = some r ↔ s.toLower = r.toHex := by
  have hread : ofHex? s = some r ↔ Hex.decode? s.toList = some r.bytes := by
    rw [ofHex?, Option.bind_eq_some_iff]
    constructor
    · rintro ⟨bs, hbs, hr⟩
      rw [ofBytes?] at hr
      split at hr
      · rw [hbs, ← Option.some.inj hr]
      · cases hr
    · intro h
      exact ⟨r.bytes, h, by rw [ofBytes?, dif_pos r.size_eq]⟩
  rw [hread, Hex.decode?_eq_some_iff, ← String.toList_inj, Hex.toList_toLower, toHex,
    Hex.toList_encode]

/-- A reference is read back from its text. -/
theorem ofHex?_toHex (r : Ref) : ofHex? r.toHex = some r := by
  rw [ofHex?_eq_some_iff, ← String.toList_inj, Hex.toList_toLower, toHex, Hex.toList_encode,
    Hex.map_toLower_digits]

/-- The texts that are read: 64 digits of either case. -/
theorem isSome_ofHex? (s : String) :
    (ofHex? s).isSome ↔ s.length = 64 ∧ ∀ c ∈ s.toList, Hex.IsDigit c := by
  simp only [Option.isSome_iff_exists, ofHex?_eq_some_iff, ← String.toList_inj, Hex.toList_toLower,
    toHex, Hex.toList_encode, ← String.length_toList]
  constructor
  · rintro ⟨r, h⟩
    have hlength := congrArg List.length h
    rw [List.length_map, Hex.length_digits, r.size_eq] at hlength
    exact ⟨hlength, fun c hc => Hex.isDigit_of_map_toLower h hc⟩
  · rintro ⟨hlength, h⟩
    obtain ⟨bs, hbs, hdigits⟩ := Hex.exists_map_toLower (n := 32) hlength h
    exact ⟨⟨bs, hbs⟩, hdigits⟩

/-- References are ordered as their texts. -/
theorem compare_toHex (r s : Ref) : compare r.toHex s.toHex = compare r s := by
  rw [← Hex.compare_toList, toHex, toHex, Hex.toList_encode, Hex.toList_encode]
  exact Hex.compare_digits r.bytes s.bytes

end Ref

end BlobVault
