import BlobVault.Digest.Sha256
import BlobVault.Uuid

/-!
# Entropy

Random bytes come from a pool that is drawn from in blocks: the digest of a counter.  No two
draws of a pool are the same block.
-/

namespace BlobVault

/-- A pool of random bytes, by the number of blocks already drawn. -/
structure Entropy where
  drawn : Nat
  deriving DecidableEq, Repr, Inhabited

namespace Entropy

/-- The block with the given number. -/
def block (n : Nat) : Bytes := Sha256.hash (Bytes.ofNatBE 16 n)

/-- Draws the given number of bytes. -/
def draw (pool : Entropy) (count : Nat) : Bytes × Entropy :=
  let blocks := (count + 31) / 32
  let bytes := ((List.range blocks).map fun i => block (pool.drawn + i)).flatten
  (bytes.take count, ⟨pool.drawn + blocks⟩)

/-- Draws a random identifier. -/
def drawUuid (pool : Entropy) : Uuid × Entropy :=
  let (bytes, pool) := pool.draw 16
  (Uuid.ofRandom bytes, pool)

end Entropy

end BlobVault
