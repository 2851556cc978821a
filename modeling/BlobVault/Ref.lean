import BlobVault.Digest.Sha256
import BlobVault.Text.Hex
import BlobVault.Text.Quoted

/-!
# Blob references

A blob is named by the SHA-256 digest of its content.  The same 32 bytes are the key under which
its ciphertext is stored and the source of its initial counter block.  References are ordered
bytewise, which is also the order of their hexadecimal texts.
-/

namespace BlobVault

/-- The name of a blob: 32 bytes. -/
structure Ref where
  bytes : Bytes
  size_eq : bytes.length = 32

namespace Ref

theorem ext_bytes {r s : Ref} (h : r.bytes = s.bytes) : r = s := by
  cases r; cases s; cases h; rfl

theorem bytes_injective {r s : Ref} : r.bytes = s.bytes ↔ r = s :=
  ⟨ext_bytes, congrArg bytes⟩

instance : DecidableEq Ref := fun r s =>
  decidable_of_iff (r.bytes = s.bytes) bytes_injective

/-- References are ordered by their bytes. -/
instance : Ord Ref := ⟨fun r s => compare r.bytes s.bytes⟩

instance : Std.TransOrd Ref where
  eq_swap {r s} := @Std.OrientedCmp.eq_swap Bytes compare _ r.bytes s.bytes
  isLE_trans {r s t} h₁ h₂ := @Std.TransCmp.isLE_trans Bytes compare _ r.bytes s.bytes t.bytes h₁ h₂

instance : Std.LawfulEqOrd Ref where
  compare_self {r} := @Std.ReflCmp.compare_self Bytes compare _ r.bytes
  eq_of_compare h := ext_bytes (Std.LawfulEqOrd.eq_of_compare (α := Bytes) h)

/-- The reference of a content. -/
def ofContent (content : Bytes) : Ref := ⟨Sha256.hash content, by simp⟩

/-- The reference of 32 zero bytes, under which a volume keeps its descriptor. -/
def descriptor : Ref := ⟨List.replicate 32 0, by simp⟩

/-- The reference names a volume descriptor. -/
def isDescriptor (r : Ref) : Bool := r == descriptor

/-- Reads a reference off 32 bytes. -/
def ofBytes? (bs : Bytes) : Option Ref :=
  if h : bs.length = 32 then some ⟨bs, h⟩ else none

/-- The 64 lower-case digits of a reference. -/
def toHex (r : Ref) : String := Hex.encode r.bytes

/-- Reads 64 hexadecimal digits of either case. -/
def ofHex? (s : String) : Option Ref := (Hex.decode? s.toList).bind ofBytes?

/-- What is said of a text that is no reference. -/
def unreadable (s : String) : String :=
  "invalid blob ref " ++ Quoted.quote s ++ ": expected 64 hex characters"

/-- The initial counter block of a blob's cipher: the first half of its reference. -/
def counterBlock (r : Ref) : Bytes := r.bytes.take 16

instance : Inhabited Ref := ⟨descriptor⟩

end Ref

end BlobVault
