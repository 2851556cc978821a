import BlobVault.Catalog.Documents
import BlobVault.Proofs.Json.Objects
import BlobVault.Proofs.Storage.Objects

/-!
# References as texts

A reference is a text wherever it leaves the program: in messages and documents, and in the names of
files.  Nothing is lost in that: the text determines the reference and keeps its place in the order.

* `Ref.readJson_toHex` : a reference is read back from its document;
* `Ref.faithful_toHex` : **the texts of references, all in one**.
-/

namespace BlobVault

namespace Ref

open Json

theorem ordinary_of_mem_toHex {r : Ref} {c : Char} (h : c ∈ r.toHex.toList) : Ordinary c := by
  rw [toHex, Hex.toList_encode] at h
  obtain ⟨n, hn, rfl⟩ := Hex.exists_of_mem_digits h
  exact ordinary_digit hn

/-- The bytes of a reference in a document. -/
theorem encode_toHex (r : Ref) : Utf8.encode (Value.text r.toHex).render = inQuotes r.toHex [] := by
  have htext := quoted_of_ordinary fun c => ordinary_of_mem_toHex (r := r) (c := c)
  rw [String.ofList_toList] at htext
  rw [Utf8.encode, Value.render, String.toList_ofList, Value.chars, htext]
  simp only [Utf8.encodeChars_cons, Utf8.encodeChars_append]
  rfl

/-- A reference is read back from its document. -/
theorem readJson_toHex (r : Ref) :
    readJson (.plain refShape) Datum.ref? (Utf8.encode (Value.text r.toHex).render) = .ok r := by
  have hshape : Reading.shaped 127 (.plain refShape) = Reading.plain refShape := rfl
  have hread : read (.plain refShape) (Utf8.encode (Value.text r.toHex).render) =
      .ok (.text r.toHex) := by
    refine Reads.read ?_
    rw [encode_toHex, hshape]
    refine Reads.plain (fun c => ordinary_of_mem_toHex) ?_
    simp only [ofHex?_toHex, Option.isSome_some, if_true]
  simp [readJson, hread, Datum.ref?, Datum.text?, ofHex?_toHex]

/-- **The texts that are read as a reference are those of 64 hexadecimal digits of either case, and
the text of the reference is the lower case of what was read.  Every reference is read back from its
text and from its document, references are ordered as their texts, and they have different places
below a folder.** -/
theorem faithful_toHex :
    (∀ s, (ofHex? s).isSome ↔ s.length = 64 ∧ ∀ c ∈ s.toList, Hex.IsDigit c) ∧
      (∀ s r, ofHex? s = some r ↔ r.toHex = s.toLower) ∧
      (∀ r : Ref, ofHex? r.toHex = some r) ∧
      (∀ r r' : Ref, compare r r' = compare r.toHex r'.toHex) ∧
      (∀ r, readJson (.plain refShape) Datum.ref? (Utf8.encode (Value.text r.toHex).render) =
        .ok r) ∧
      ∀ root, Function.Injective (Folder.pathOf root) :=
  ⟨isSome_ofHex?, fun _ _ => ofHex?_eq_some_iff.trans eq_comm, ofHex?_toHex,
    fun r r' => (compare_toHex r r').symm, readJson_toHex,
    fun _ _ _ h => (Folder.pathOf_injective h).2⟩

end Ref

end BlobVault
