import BlobVault.Codec
import BlobVault.Proofs.Cipher.Counter

/-!
# Encoding and decoding

Hiding twice reveals, so decoding under the same key gives back what was encoded.

* `Codec.decode_encode` : a stored form decodes to its plain text;
* `Codec.length_encode` : how long a stored form is.

That gunzipping undoes gzipping is taken as an assumption on the plain text (`Gzip.Restores`).
-/

namespace BlobVault

/-- Expanding the compressed form of a plain text gives the plain text back. -/
def Gzip.Restores (plain : Bytes) : Prop := gunzip (gzip plain) = .ok plain

namespace Codec

/-- The compressed form that is stored, if one is. -/
def kept? (plain : Bytes) (hint : Bool) : Option Bytes := if hint then compress? plain else none

theorem ciphertext_encode (r : Ref) (plain : Bytes) (key : DataKey) (hint : Bool) :
    (encode r plain key hint).ciphertext = key.apply r ((kept? plain hint).getD plain) := rfl

theorem isCompressed_encode (r : Ref) (plain : Bytes) (key : DataKey) (hint : Bool) :
    (encode r plain key hint).isCompressed = (kept? plain hint).isSome := rfl

@[simp] theorem crc32_encode (r : Ref) (plain : Bytes) (key : DataKey) (hint : Bool) :
    (encode r plain key hint).crc32 = Crc32.ofBytes (encode r plain key hint).ciphertext := rfl

theorem kept?_eq_some {plain compressed : Bytes} {hint : Bool}
    (h : kept? plain hint = some compressed) :
    hint = true ∧ compressed = Gzip.gzip plain ∧ 10 * compressed.length < 9 * plain.length := by
  cases hint with
  | false => cases h
  | true =>
    simp only [kept?, if_true, compress?] at h
    split at h
    · rename_i hw
      obtain rfl := Option.some.inj h
      simp only [worthwhile, Bool.and_eq_true, decide_eq_true_eq] at hw
      exact ⟨rfl, rfl, hw.2⟩
    · cases h

/-- A stored form is as long as its plain text, or shorter by more than a tenth. -/
theorem length_encode (r : Ref) (plain : Bytes) (key : DataKey) (hint : Bool) :
    if (encode r plain key hint).isCompressed then
      10 * (encode r plain key hint).ciphertext.length < 9 * plain.length
    else (encode r plain key hint).ciphertext.length = plain.length := by
  rw [isCompressed_encode, ciphertext_encode]
  cases h : kept? plain hint with
  | none => simp
  | some compressed => simpa using (kept?_eq_some h).2.2

/-- A stored form decodes to its plain text. -/
theorem decode_encode {r : Ref} {plain : Bytes} {key : DataKey} {hint : Bool}
    (hr : Ref.ofContent plain = r) (hz : hint = true → Gzip.Restores plain) :
    decode r (encode r plain key hint).ciphertext key (encode r plain key hint).isCompressed
      = .ok plain := by
  have hexpand : expand r ((kept? plain hint).getD plain) (kept? plain hint).isSome
      = .ok plain := by
    cases h : kept? plain hint with
    | none => rfl
    | some compressed =>
      obtain ⟨hhint, rfl, -⟩ := kept?_eq_some h
      have := hz hhint
      rw [Gzip.Restores] at this
      simp [expand, this]
  rw [isCompressed_encode, ciphertext_encode, decode, DataKey.apply_apply, hexpand]
  simp [hr]

end Codec

end BlobVault
