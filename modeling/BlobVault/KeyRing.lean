import BlobVault.Catalog.Record
import BlobVault.Entropy
import BlobVault.Keys.Generate
import BlobVault.Keys.Pem
import BlobVault.OrderedMap

/-!
# The key ring

Data keys are kept wrapped, once for each recipient.  The ring holds the wrapping keys by their
fingerprints, some of them with their private half, and remembers the data keys that it unwrapped
most recently.  Removing a private half also empties that memory, so that access ends at once.
-/

namespace BlobVault

/-- A registered wrapping key. -/
structure WrappingKey where
  publicKey : PublicKey
  privateKey? : Option PrivateKey
  deriving DecidableEq, Repr

/-- The most recently used unwrapped data keys, by identifier. -/
structure KeyCache where
  capacity : Nat
  /-- Distinct identifiers with their keys, most recently used first. -/
  entries : List (String × Bytes)
  deriving DecidableEq, Repr

namespace KeyCache

/-- A cache without keys; it has room for at least one. -/
def empty (capacity : Nat) : KeyCache := ⟨max capacity 1, []⟩

/-- The key of an identifier. -/
def find? (c : KeyCache) (id : String) : Option Bytes := c.entries.lookup id

/-- Makes a key the most recently used one, and drops the least recently used one if there is no
room. -/
def put (c : KeyCache) (id : String) (key : Bytes) : KeyCache :=
  { c with entries := ((id, key) :: c.entries.filter fun p => p.1 != id).take c.capacity }

/-- Looks a key up, and makes it the most recently used one. -/
def use? (c : KeyCache) (id : String) : Option (Bytes × KeyCache) :=
  (c.find? id).map fun key => (key, c.put id key)

/-- Drops all keys. -/
def clear (c : KeyCache) : KeyCache := { c with entries := [] }

end KeyCache

/-- The wrapping keys and the cache. -/
structure KeyRing where
  keys : OrderedMap String WrappingKey
  cache : KeyCache

namespace KeyRing

/-- A ring without keys. -/
def empty (capacity : Nat) : KeyRing := ⟨.empty, .empty capacity⟩

/-- The digest of a public key's DER form. -/
def fingerprintOf (der : Bytes) : String := Hex.encode (Sha256.hash der)

/-- The fingerprint of a public key. -/
def fingerprint (k : PublicKey) : String := fingerprintOf (Der.writePublic k)

/-- Registers a key with its private half, replacing an entry of the same fingerprint. -/
def registerPrivate (ring : KeyRing) (k : PrivateKey) : String × KeyRing :=
  let f := fingerprint k.toPublic
  (f, { ring with keys := ring.keys.insert f ⟨k.toPublic, some k⟩ })

/-- Registers a recipient; an entry of the same fingerprint stays as it is. -/
def registerPublic (ring : KeyRing) (k : PublicKey) : String × KeyRing :=
  let f := fingerprint k
  if ring.keys.contains f then (f, ring)
  else (f, { ring with keys := ring.keys.insert f ⟨k, none⟩ })

/-- Registers the private key of a key file. -/
def registerPrivateFile (ring : KeyRing) (file : Bytes) : Except KeyFault (String × KeyRing) :=
  match Pem.readPrivate? file with
  | some k => .ok (ring.registerPrivate k)
  | none => .error .cryptography

/-- Registers the public key of a key file. -/
def registerPublicFile (ring : KeyRing) (file : Bytes) : Except KeyFault (String × KeyRing) :=
  match Pem.readPublic? file with
  | some k => .ok (ring.registerPublic k)
  | none => .error .cryptography

/-- The registered fingerprints in order. -/
def fingerprints (ring : KeyRing) : List String := ring.keys.keys

/-- The length of a seed for wrapping. -/
def seedLength : Nat := Oaep.digestLength

/-- Wraps a data key for each recipient in order. -/
def wrapSlots (ring : KeyRing) (dataKey : Bytes) :
    List String → Entropy → Except KeyFault (List Slot) × Entropy
  | [], pool => (.ok [], pool)
  | f :: fs, pool =>
    match ring.keys.get? f with
    | none => (.error (.unknownRecipient f), pool)
    | some k =>
      let (seed, pool) := pool.draw seedLength
      match k.publicKey.wrap? seed dataKey with
      | none => (.error .cryptography, pool)
      | some wrapped =>
        match wrapSlots ring dataKey fs pool with
        | (.ok slots, pool) => (.ok (⟨f, wrapped⟩ :: slots), pool)
        | (.error e, pool) => (.error e, pool)

/-- Wraps a data key for a list of recipients. -/
def wrap (ring : KeyRing) (keyId : String) (dataKey : Bytes) (recipients : List String)
    (pool : Entropy) : Except KeyFault Envelope × Entropy :=
  if keyId.isEmpty then (.error .emptyKeyId, pool)
  else if recipients.isEmpty then (.error (.noRecipients keyId), pool)
  else
    match ring.wrapSlots dataKey recipients pool with
    | (.ok slots, pool) => (.ok ⟨keyId, slots⟩, pool)
    | (.error e, pool) => (.error e, pool)

/-- Opens one slot with a private half that is registered here. -/
def openSlot? (keys : OrderedMap String WrappingKey) (s : Slot) : Option Bytes :=
  (keys.get? s.fingerprint).bind fun k => k.privateKey?.bind fun p => p.unwrap? s.wrapped

/-- Opens the first slot that can be opened. -/
def openFirst? (keys : OrderedMap String WrappingKey) (e : Envelope) : Option Bytes :=
  e.slots.findSome? (openSlot? keys)

/-- The fault that no slot of an envelope can be opened. -/
def noMatch (e : Envelope) : KeyFault := .noMatchingKey e.keyId (e.slots.map (·.fingerprint))

/-! Unwrapping takes up to three steps, and forgetting takes two; other calls may come between. -/

/-- Looks a data key up in the cache. -/
def lookUp? (ring : KeyRing) (keyId : String) : Option (Bytes × KeyRing) :=
  (ring.cache.use? keyId).map fun (key, cache) => (key, { ring with cache := cache })

/-- Keeps an unwrapped data key in the cache. -/
def remember (ring : KeyRing) (keyId : String) (key : Bytes) : KeyRing :=
  { ring with cache := ring.cache.put keyId key }

/-- Unwraps a data key, or takes it from the cache by its identifier. -/
def unwrap (ring : KeyRing) (e : Envelope) : Except KeyFault Bytes × KeyRing :=
  match ring.lookUp? e.keyId with
  | some (key, ring) => (.ok key, ring)
  | none =>
    match openFirst? ring.keys e with
    | none => (.error (noMatch e), ring)
    | some key => (.ok key, ring.remember e.keyId key)

/-- Drops the private half of a key, if it is registered. -/
def dropPrivate (ring : KeyRing) (f : String) : KeyRing :=
  { ring with keys := ring.keys.modify f fun k => { k with privateKey? := none } }

/-- Drops all cached data keys. -/
def clearCache (ring : KeyRing) : KeyRing := { ring with cache := ring.cache.clear }

/-- Ends all access by a private key. -/
def forget (ring : KeyRing) (f : String) : KeyRing := (ring.dropPrivate f).clearCache

/-- The length of new data keys. -/
def dataKeyLength : Nat := 32

/-- A new data key. -/
def newDataKey (pool : Entropy) : Bytes × Entropy := pool.draw dataKeyLength

/-- A new wrapping key. -/
def newWrappingKey (bits : Nat) (pool : Entropy) : Except KeyFault PrivateKey × Entropy :=
  match Generate.key bits pool with
  | (some k, pool) => (.ok k, pool)
  | (none, pool) => (.error .cryptography, pool)

end KeyRing

end BlobVault
