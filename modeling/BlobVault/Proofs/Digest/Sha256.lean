import BlobVault.Digest.Sha256

/-!
# Digests in pieces

A hasher that has taken in a message piece by piece is the hasher that has taken it in at once,
and its digest is the digest of the message.

* `Hasher.update_update` : the split of a message into pieces does not matter;
* `Hasher.finish_update_fresh` : a hasher computes `Sha256.hash`.
-/

namespace BlobVault.Sha256

theorem absorb_append {s : Chain} {blocks : Nat} {xs : Bytes} (ys : Bytes)
    (h : 64 * blocks ≤ xs.length) : absorb s blocks (xs ++ ys) = absorb s blocks xs := by
  induction blocks generalizing s xs with
  | zero => rfl
  | succ blocks ih =>
    have hx : 64 ≤ xs.length := by omega
    simp only [absorb]
    rw [List.take_append_of_le_length hx, List.drop_append_of_le_length hx, ih]
    simp
    omega

theorem absorb_add (s : Chain) (m n : Nat) (xs : Bytes) :
    absorb s (m + n) xs = absorb (absorb s m xs) n (xs.drop (64 * m)) := by
  induction m generalizing s xs with
  | zero => simp [absorb]
  | succ m ih =>
    have hdrop : (xs.drop 64).drop (64 * m) = xs.drop (64 * (m + 1)) := by
      rw [List.drop_drop]
      congr 1
      omega
    rw [Nat.succ_add, absorb, ih, hdrop, absorb]

namespace Hasher

theorem update_fresh (message : Bytes) :
    fresh.update message =
      ⟨absorb Chain.start (message.length / 64) message,
        message.drop (64 * (message.length / 64)), message.length⟩ := by
  simp [update, fresh]

/-- Taking in two pieces is taking in both at once. -/
theorem update_update (message piece : Bytes) :
    (fresh.update message).update piece = fresh.update (message ++ piece) := by
  -- the whole blocks of the message come before those that the piece completes
  have hq : 64 * (message.length / 64) ≤ message.length := by omega
  have hblocks : (message ++ piece).length / 64 = message.length / 64
      + (message.drop (64 * (message.length / 64)) ++ piece).length / 64 := by
    simp only [List.length_append, List.length_drop]
    omega
  have htail : message.drop (64 * (message.length / 64)) ++ piece
      = (message ++ piece).drop (64 * (message.length / 64)) :=
    (List.drop_append_of_le_length hq).symm
  rw [update_fresh, update_fresh, update]
  simp only [hblocks]
  rw [absorb_add, absorb_append piece hq, htail, List.drop_drop, Nat.mul_add]
  simp

/-- A hasher that took in a message has the digest of the message. -/
theorem finish_update_fresh (message : Bytes) :
    (fresh.update message).finish = hash message := by
  have hq : 64 * (message.length / 64) ≤ message.length := by omega
  have hblocks : (message ++ padding message.length).length / 64 = message.length / 64
      + (message.drop (64 * (message.length / 64)) ++ padding message.length).length / 64 := by
    simp only [List.length_append, List.length_drop]
    omega
  rw [update_fresh, finish, hash, absorbAll, absorbAll, hblocks, absorb_add,
    absorb_append _ hq, List.drop_append_of_le_length hq]

end Hasher

end BlobVault.Sha256
