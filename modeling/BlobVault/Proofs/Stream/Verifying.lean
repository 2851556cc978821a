import BlobVault.Proofs.Digest.Remainder
import BlobVault.Proofs.Stream.Schedule
import BlobVault.Proofs.Text.Uuid
import Mathlib.Data.List.DropRight

/-!
# Verifiers that are used again

A verifier may be given its message in any pieces, and it may be asked for its verdict any number of
times.  Each verdict is about the message that came since the one before, and goes by the digest of
that message as a whole: SHA-256 of the padded message, or the remainder of its polynomial.  A
verdict leaves the verifier as it was before the first piece.

* `DigestKind.IsDigest` : the digest of a whole message, by its definition;
* `VerifierCall.unchecked` : what came since the last verdict;
* `Expected.performAll_verifier` : after some calls, a verifier is one that was given that in one
  piece;
* `Expected.verify_performAll` : **every verdict, whatever was asked before and however the message
  was cut.**
-/

namespace BlobVault

/-! ### Digests of whole messages -/

/-- The digest of a message, by the definition of its kind. -/
def DigestKind.IsDigest (kind : DigestKind) (message digest : Bytes) : Prop :=
  match kind with
  | sha256 => digest = Sha256.hash message
  | crc32 => ∃ w, Crc32.IsChecksum message w ∧ digest = Bytes.ofNatBE 4 w.toNat

namespace Expected

/-- The kind of the digest. -/
def kind : Expected → DigestKind
  | content _ => .sha256
  | crc32 _ => .crc32

/-- The digest that the message should have. -/
def due : Expected → Bytes
  | content r => r.bytes
  | crc32 word => Bytes.ofNatBE 4 word.toNat

/-- The digest that a message has. -/
def digest : Expected → Bytes → Bytes
  | content _, message => Sha256.hash message
  | crc32 _, message => Bytes.ofNatBE 4 (Crc32.ofBytes message).toNat

theorem isDigest_iff (e : Expected) (message digest : Bytes) :
    e.kind.IsDigest message digest ↔ digest = e.digest message := by
  cases e with
  | content r => exact Iff.rfl
  | crc32 word =>
    simp only [kind, DigestKind.IsDigest, Crc32.isChecksum_iff, exists_eq_left', Expected.digest]

theorem verdict_eq (e : Expected) (message : Bytes) :
    e.verdict message =
      if e.digest message = e.due then .ok ()
      else .error ⟨e.kind, Hex.encode e.due, Hex.encode (e.digest message)⟩ := by
  cases e with
  | content r =>
    have hdue : Ref.ofContent message = r ↔ Sha256.hash message = r.bytes :=
      Ref.bytes_injective.symm
    simp only [verdict, hdue, digest, due]
    rfl
  | crc32 word =>
    have hdue : Crc32.ofBytes message = word ↔
        Bytes.ofNatBE 4 (Crc32.ofBytes message).toNat = Bytes.ofNatBE 4 word.toNat :=
      ⟨fun h => by rw [h], fun h => UInt32.toNat_inj.1
        (Bytes.ofNatBE_injective (UInt32.toNat_lt _) word.toNat_lt h)⟩
    simp only [verdict, hdue, digest, due]
    rfl

end Expected

/-! ### Calls one after another -/

/-- The calls on a verifier. -/
inductive VerifierCall where
  | update (bs : Bytes)
  | verify

namespace VerifierCall

/-- The call gives data. -/
def isUpdate : VerifierCall → Bool
  | update _ => true
  | verify => false

/-- The data that a call gives. -/
def data : VerifierCall → Bytes
  | update bs => bs
  | verify => []

/-- The data that was given since the last verdict, or since the first call if there was none. -/
def unchecked (calls : List VerifierCall) : Bytes := (calls.rtakeWhile isUpdate).flatMap data

theorem unchecked_update (calls : List VerifierCall) (bs : Bytes) :
    unchecked (calls ++ [update bs]) = unchecked calls ++ bs := by
  rw [unchecked, List.rtakeWhile_concat_pos _ _ _ rfl, List.flatMap_append]
  simp [unchecked, data]

theorem unchecked_verify (calls : List VerifierCall) : unchecked (calls ++ [verify]) = [] := by
  rw [unchecked, List.rtakeWhile_concat_neg _ _ _ (by simp [isUpdate])]
  rfl

end VerifierCall

namespace Verifier

/-- The verifier after a call. -/
def perform (v : Verifier) : VerifierCall → Verifier
  | .update bs => v.update bs
  | .verify => v.verify.2

/-- The verifier after some calls. -/
def performAll (v : Verifier) (calls : List VerifierCall) : Verifier := calls.foldl perform v

theorem performAll_concat (v : Verifier) (calls : List VerifierCall) (c : VerifierCall) :
    v.performAll (calls ++ [c]) = (v.performAll calls).perform c := by
  simp [performAll]

end Verifier

namespace Expected

/-- The verifier that has seen nothing. -/
def verifier : Expected → Verifier
  | content r => .ofRef r
  | crc32 word => .ofCrc32 word

variable (e : Expected)

theorem verifier_guard (source : Stream) : (e.guard source).verifier = e.verifier := by
  cases e <;> rfl

/-- A verdict leaves the verifier that has seen nothing. -/
theorem restart_update_verifier (message : Bytes) :
    (e.verifier.update message).restart = e.verifier := by
  rw [Verifier.restart_update, ← e.verifier_guard [], restart_guard]

/-- After some calls, the verifier is the one that was given the last message in one piece. -/
theorem performAll_verifier (calls : List VerifierCall) :
    e.verifier.performAll calls = e.verifier.update (VerifierCall.unchecked calls) := by
  -- one call after the other, the last of them first
  induction calls using List.reverseRecOn with
  | nil =>
    rw [← e.verifier_guard []]
    exact update_guard_nil.symm
  | append_singleton calls c ih =>
    rw [Verifier.performAll_concat, ih]
    cases c with
    | update bs =>
      rw [VerifierCall.unchecked_update, ← e.verifier_guard []]
      exact update_guard_update ..
    | verify =>
      rw [VerifierCall.unchecked_verify, ← e.verifier_guard [], update_guard_nil, e.verifier_guard]
      exact e.restart_update_verifier _

/-- **A verdict is right about all that came since the one before.**  Whatever was asked of the
verifier before and however the message was cut, it is the verifier that was given the message in
one piece: its verdict is that the digest of the message is the one that was due, or else a mismatch
that carries both in lower-case digits; and it starts over. -/
theorem verify_performAll (calls : List VerifierCall) :
    let message := VerifierCall.unchecked calls
    e.verifier.performAll calls = e.verifier.update message ∧
      ∃ digest, (∀ d, e.kind.IsDigest message d ↔ d = digest) ∧
        (e.verifier.performAll calls).verify =
          (if digest = e.due then .ok ()
            else .error ⟨e.kind, Hex.encode e.due, Hex.encode digest⟩, e.verifier) := by
  intro message
  refine ⟨e.performAll_verifier calls, e.digest message, e.isDigest_iff message, ?_⟩
  have hcheck : (e.verifier.update message).check = e.verdict message := by
    rw [← e.verifier_guard []]
    exact check_guard message
  rw [e.performAll_verifier calls, Verifier.verify, hcheck, verdict_eq, restart_update_verifier]

/-- A mismatch leaves no trace, and neither do empty pieces. -/
example :
    ((crc32 (Crc32.ofBytes [2, 3])).verifier.performAll
      [.update [1], .verify, .update [2], .update [], .update [3]]).verify.1 = .ok () := by
  decide +kernel

end Expected

end BlobVault
