import BlobVault.Proofs.Codec.RoundTrip
import BlobVault.Proofs.Gzip.FixedCode

/-!
# What decoding answers

Whatever it is given, decoding answers a content of the reference or says that the blob is corrupt.
So the stored form of a plain text, under whatever reference it was made, decodes to the plain text
exactly if the reference is the right one.

* `Codec.kept?_isSome_iff` : when the compressed form is the one that is stored;
* `Codec.decode_cases` : the two kinds of answers;
* `Codec.formed_encode` : **a stored form decodes under the reference of its plain text and no
  other**, and its flag, its length and its checksum are what they should be;
* `Codec.formed_encode_sample` : a plain text that is stored in its compressed form.
-/

namespace BlobVault

namespace Codec

section

variable {r : Ref} {plain ciphertext : Bytes} {key : DataKey} {flag hint : Bool}

theorem kept?_isSome_iff :
    (kept? plain hint).isSome = true ↔
      hint = true ∧ plain ≠ [] ∧ 10 * (Gzip.gzip plain).length < 9 * plain.length := by
  cases hint with
  | false => simp [kept?]
  | true =>
    by_cases hw : worthwhile plain (Gzip.gzip plain) = true
    · have hkept : kept? plain true = some (Gzip.gzip plain) := by simp [kept?, compress?, hw]
      simpa [hkept, worthwhile] using hw
    · have hplain : kept? plain true = none := by simp [kept?, compress?, hw]
      simpa [hplain, worthwhile] using hw

/-- What is stored is the compressed form or the plain text itself. -/
theorem length_kept? :
    ((kept? plain hint).getD plain).length =
      if (kept? plain hint).isSome then (Gzip.gzip plain).length else plain.length := by
  cases h : kept? plain hint with
  | none => rfl
  | some compressed =>
    obtain ⟨-, rfl, -⟩ := kept?_eq_some h
    rfl

/-- A plain text that does not belong to the reference is not answered. -/
def unwanted (r : Ref) (plain : Bytes) : Fault :=
  .integrity (.digest ⟨.sha256, r.toHex, (Ref.ofContent plain).toHex⟩)

theorem decode_of_expand (h : expand r (key.apply r ciphertext) flag = .ok plain) :
    decode r ciphertext key flag =
      if Ref.ofContent plain = r then .ok plain else .error (unwanted r plain) := by
  rw [decode, h]
  rfl

/-- Expanding fails only for a compressed form, and says that the blob is corrupt. -/
theorem expand_eq_error {fault : Fault} (h : expand r plain flag = .error fault) :
    ∃ why, fault = .integrity why := by
  unfold expand at h
  split at h
  · split at h
    · cases h
    · exact ⟨_, (Except.error.inj h).symm⟩
  · cases h

/-- Decoding answers a content of the reference, or that the blob is corrupt. -/
theorem decode_cases (r : Ref) (ciphertext : Bytes) (key : DataKey) (flag : Bool) :
    (∃ plain, decode r ciphertext key flag = .ok plain ∧ Ref.ofContent plain = r) ∨
      ∃ why, decode r ciphertext key flag = .error (.integrity why) := by
  cases hexpand : expand r (key.apply r ciphertext) flag with
  | error fault =>
    obtain ⟨why, rfl⟩ := expand_eq_error hexpand
    exact .inr ⟨why, by rw [decode, hexpand]⟩
  | ok plain =>
    rw [decode_of_expand hexpand]
    by_cases hr : Ref.ofContent plain = r
    · exact .inl ⟨plain, if_pos hr, hr⟩
    · exact .inr ⟨_, if_neg hr⟩

/-- The stored form expands to the plain text, whatever the reference. -/
theorem expand_encode (hz : hint = true → Gzip.Restores plain) :
    expand r (key.apply r (encode r plain key hint).ciphertext)
      (encode r plain key hint).isCompressed = .ok plain := by
  rw [isCompressed_encode, ciphertext_encode, DataKey.apply_apply]
  cases h : kept? plain hint with
  | none => rfl
  | some compressed =>
    obtain ⟨hhint, rfl, -⟩ := kept?_eq_some h
    have hrestores := hz hhint
    rw [Gzip.Restores] at hrestores
    simp [expand, hrestores]

/-- What a stored form tells of its plain text, and the reference that it was made under. -/
structure Formed (e : Encoded) (r : Ref) (plain : Bytes) (key : DataKey) (hint : Bool) : Prop where
  /-- It is the stored form of the content of the reference, or of nothing. -/
  decode : decode r e.ciphertext key e.isCompressed =
    if Ref.ofContent plain = r then .ok plain else .error (unwanted r plain)
  crc32 : e.crc32 = Crc32.ofBytes e.ciphertext
  /-- It is compressed if that was asked for and saves more than a tenth. -/
  isCompressed : e.isCompressed = true ↔
    hint = true ∧ plain ≠ [] ∧ 10 * (Gzip.gzip plain).length < 9 * plain.length
  length : e.ciphertext.length =
    if e.isCompressed then (Gzip.gzip plain).length else plain.length

/-- **A stored form decodes to its plain text under the right reference, and is corrupt under any
other one**; no byte string at all decodes to anything but a content of the reference. -/
theorem formed_encode (hz : hint = true → Gzip.Restores plain) :
    Formed (encode r plain key hint) r plain key hint ∧
      ∀ (r' : Ref) (ciphertext : Bytes) (key' : DataKey) (flag : Bool),
        (∃ plain', Codec.decode r' ciphertext key' flag = .ok plain' ∧ Ref.ofContent plain' = r') ∨
          ∃ why, Codec.decode r' ciphertext key' flag = .error (.integrity why) := by
  refine ⟨⟨decode_of_expand (expand_encode hz), crc32_encode .., ?_, ?_⟩, decode_cases⟩
  · rw [isCompressed_encode]
    exact kept?_isSome_iff
  · rw [isCompressed_encode, ciphertext_encode, DataKey.length_apply]
    exact length_kept?

end

/-! ### A plain text that is compressed -/

namespace Sample

/-- As few zero bytes as are stored in their compressed form. -/
def plain : Bytes := List.replicate 26 0

/-- Their compressed form. -/
def compressed : Bytes :=
  [31, 139, 8, 0, 0, 0, 0, 0, 0, 255, 99, 96, 192, 5, 0, 50, 190, 236, 175, 26, 0, 0, 0]

def key : DataKey := ⟨"key", List.replicate 16 1, by decide⟩

theorem gzip_plain : Gzip.gzip plain = compressed := by decide +kernel

theorem restores_plain : Gzip.Restores plain := by
  have hheader : Gzip.headerLength compressed = .ok 10 := by decide +kernel
  have hbody : Gzip.inflate compressed.toArray 10 = .ok (plain.toArray, 15) := by
    rw [Gzip.inflate_of_fixed rfl rfl]
    decide +kernel
  rw [Gzip.Restores, gzip_plain, Gzip.gunzip, hheader]
  simp only [bind, Except.bind]
  rw [hbody]
  decide +kernel

end Sample

theorem formed_encode_sample :
    (encode (Ref.ofContent Sample.plain) Sample.plain Sample.key true).isCompressed = true ∧
      Codec.decode (Ref.ofContent Sample.plain)
          (encode (Ref.ofContent Sample.plain) Sample.plain Sample.key true).ciphertext Sample.key
          true =
        .ok Sample.plain := by
  have hformed : Formed (encode (Ref.ofContent Sample.plain) Sample.plain Sample.key true)
      (Ref.ofContent Sample.plain) Sample.plain Sample.key true :=
    (formed_encode fun _ => Sample.restores_plain).1
  have hcompressed := hformed.isCompressed.2
    ⟨rfl, by decide, by rw [Sample.gzip_plain]; decide⟩
  have hdecode := hformed.decode
  rw [hcompressed, if_pos rfl] at hdecode
  exact ⟨hcompressed, hdecode⟩

end Codec

end BlobVault
