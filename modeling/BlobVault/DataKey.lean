import BlobVault.Cipher.Counter
import BlobVault.Fault

/-!
# Data keys

A data key never encrypts anything by itself: together with a blob's reference it fixes one
keystream, whose initial counter block is the first half of the reference.  So one key yields one
counter block for each content, and equal contents have equal ciphertexts.
-/

namespace BlobVault

/-- The lengths a data key may have. -/
def isKeyLength (n : Nat) : Bool := n == 16 || n == 24 || n == 32

/-- An unwrapped data key with its identifier. -/
structure DataKey where
  id : String
  bytes : Bytes
  length_ok : isKeyLength bytes.length = true

namespace DataKey

/-- A data key of 16, 24 or 32 bytes. -/
def ofBytes (id : String) (bytes : Bytes) : Except Fault DataKey :=
  if h : isKeyLength bytes.length = true then .ok ⟨id, bytes, h⟩
  else .error (.configuration (.badKeyLength bytes.length))

/-- Hides or reveals the content of a blob.  A node hands the whole content to its cipher at once,
which takes less than `2 ^ 31` bytes; that no content is longer is assumed, and every length is
allowed here. -/
def apply (key : DataKey) (r : Ref) (data : Bytes) : Bytes :=
  Counter.apply key.bytes r.counterBlock data

/-- A description that shows the identifier and nothing of the key. -/
def describe (key : DataKey) : String :=
  "CollectionKey \x7b key_id: " ++ Quoted.quote key.id ++ ", .. \x7d"

end DataKey

end BlobVault
