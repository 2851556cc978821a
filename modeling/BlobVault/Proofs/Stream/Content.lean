import BlobVault.Proofs.Digest.Sha256
import BlobVault.Verified

/-!
# The content of verified streams

Reading a verified stream to its end gives the content of its source, and fails if the digest of
that content is wrong.

* `content_ofCrc32`, `content_ofRef` : the content of a verified stream;
* `content_toStream` : a reader of a verified stream that was passed on sees the same content.
-/

namespace BlobVault

namespace Stream

@[simp] theorem content_ofBytes (bs : Bytes) : (ofBytes bs).content = .ok bs := by
  cases bs <;> simp [ofBytes, content, drain]

theorem drain_ofParts (bs : Bytes) (fault? : Option IoFault) :
    (ofParts bs fault?).drain = ⟨bs, fault?, []⟩ := by
  cases bs <;> cases fault? <;> simp [ofParts, drain]

@[simp] theorem content_ofParts_none (bs : Bytes) : (ofParts bs none).content = .ok bs := by
  simp [content, drain_ofParts]

@[simp] theorem content_ofParts_some (bs : Bytes) (fault : IoFault) :
    (ofParts bs (some fault)).content = .error fault := by
  simp [content, drain_ofParts]

end Stream

namespace Verifier

theorem check_update_ofCrc32 (expected : UInt32) (bs : Bytes) :
    ((ofCrc32 expected).update bs).check =
      if Crc32.ofBytes bs = expected then .ok ()
      else .error ⟨.crc32, Hex.ofWord expected, Hex.ofWord (Crc32.ofBytes bs)⟩ := rfl

theorem check_update_ofRef (expected : Ref) (bs : Bytes) :
    ((ofRef expected).update bs).check =
      if Ref.ofContent bs = expected then .ok ()
      else .error ⟨.sha256, expected.toHex, (Ref.ofContent bs).toHex⟩ := by
  simp only [ofRef, update, check, Sha256.Hasher.finish_update_fresh]
  by_cases h : Ref.ofContent bs = expected
  · have hb : Sha256.hash bs = expected.bytes := congrArg Ref.bytes h
    rw [if_pos h, if_pos hb]
  · have hb : Sha256.hash bs ≠ expected.bytes := fun hb => h (Ref.ext_bytes hb)
    rw [if_neg h, if_neg hb]
    rfl

end Verifier

namespace VerifiedStream

/-- A stream that has not been read gives the content of its source, unless the source fails or
the verifier objects. -/
theorem content_of_unread {s : VerifiedStream} (h : s.outcome? = none) :
    s.content = match s.source.content with
      | .error fault => .error fault
      | .ok bs =>
        match (s.verifier.update bs).check with
        | .ok () => .ok bs
        | .error m => .error (.mismatch m) := by
  simp only [content, readAll, h, Stream.content]
  cases hf : s.source.drain.fault? with
  | some fault => rfl
  | none =>
    simp only [conclude, Verifier.verify]
    cases (s.verifier.update s.source.drain.bytes).check <;> rfl

theorem content_ofCrc32 (s : Stream) (crc32 : UInt32) :
    (ofCrc32 s crc32).content = match s.content with
      | .error fault => .error fault
      | .ok bs =>
        if Crc32.ofBytes bs = crc32 then .ok bs
        else .error (.mismatch ⟨.crc32, Hex.ofWord crc32, Hex.ofWord (Crc32.ofBytes bs)⟩) := by
  rw [content_of_unread rfl, ofCrc32]
  cases s.content with
  | error fault => rfl
  | ok bs =>
    simp only [Verifier.check_update_ofCrc32]
    by_cases h : Crc32.ofBytes bs = crc32 <;> simp [h]

theorem content_ofRef (s : Stream) (r : Ref) :
    (ofRef s r).content = match s.content with
      | .error fault => .error fault
      | .ok bs =>
        if Ref.ofContent bs = r then .ok bs
        else .error (.mismatch ⟨.sha256, r.toHex, (Ref.ofContent bs).toHex⟩) := by
  rw [content_of_unread rfl, ofRef]
  cases s.content with
  | error fault => rfl
  | ok bs =>
    simp only [Verifier.check_update_ofRef]
    by_cases h : Ref.ofContent bs = r <;> simp [h]

theorem content_toStream (s : VerifiedStream) : s.toStream.content = s.content := by
  simp only [toStream, content]
  obtain ⟨bs, fault?, rest⟩ := s.readAll
  cases fault? <;> simp

end VerifiedStream

end BlobVault
