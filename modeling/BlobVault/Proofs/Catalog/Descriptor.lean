import BlobVault.Catalog.Documents
import BlobVault.Proofs.Json.Objects

/-!
# The descriptor document

* `Descriptor.encode_toJson` : the bytes that a descriptor is written as;
* `Descriptor.readJson_toJson` : **a descriptor is read back from its document**.
-/

namespace BlobVault

namespace Descriptor

open Json

/-- The bytes of a descriptor. -/
theorem encode_toJson (d : Descriptor) : Utf8.encode d.toJson.render
    = 123 :: inQuotes "uuid" (58 :: inQuotes d.uuid.toText [125]) := by
  have htext := quoted_of_ordinary fun c => ordinary_of_mem_toText (u := d.uuid) (c := c)
  rw [String.ofList_toList] at htext
  have hchars : d.toJson.chars = '\x7b' :: '"' :: ("uuid".toList ++ '"' :: ':' :: '"'
      :: (d.uuid.toText.toList ++ ['"', '\x7d'])) := by
    have hkey : quoted "uuid" = '"' :: ("uuid".toList ++ ['"']) := rfl
    simp [toJson, Value.chars, Value.memberChars, htext, hkey]
  rw [Utf8.encode, Value.render, String.toList_ofList, hchars]
  simp only [Utf8.encodeChars_cons, Utf8.encodeChars_append]
  rfl

/-- **A descriptor is read back from its document.** -/
theorem readJson_toJson (d : Descriptor) :
    readJson shape ofDatum? (Utf8.encode d.toJson.render) = .ok d := by
  have hshape : Reading.shaped 127 shape
      = Reading.record "VolumeDescriptor" [⟨"uuid", Reading.plain uuidShape, .required⟩] := rfl
  have hread : read shape (Utf8.encode d.toJson.render) = .ok (.record [.text d.uuid.toText]) := by
    refine Reads.read ?_
    rw [encode_toJson, hshape]
    refine Reads.record (by simp [Ordinary]) (fun c => ordinary_of_mem_toText) ?_
    simp only [Uuid.ofText_toText]
  have huuid : Uuid.ofText? d.uuid.toText = some d.uuid := by
    rw [Uuid.ofText?, Uuid.ofText_toText]
    rfl
  simp [readJson, hread, ofDatum?, Datum.uuid?, Datum.text?, huuid]

end Descriptor

end BlobVault
