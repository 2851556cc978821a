import BlobVault.Proofs.Digest.Crc32
import BlobVault.Proofs.Vault.Transfer

/-!
# Corrupted objects

An object whose bytes were changed within four consecutive places does not have the recorded
checksum any more, and whoever reads it from its volume finds that out before anything comes of it.

* `Vault.Holds` : a blob is recorded, and a volume holds some bytes for it;
* `Vault.Passes`, `Vault.Rejects` : what reading the bytes comes to if their checksum is right, and
  if it is not;
* `Vault.tamper?` : one byte of an object in memory is changed behind the back of the vault;
* `Vault.rejects_of_burst` : **a change within four consecutive bytes is always found, and one that
  is undone is forgotten.**

A replication may fail before a byte is read, because the target does not even begin to store
(`Vault.refused_sample`); it fails with the target's own fault then.
-/

namespace BlobVault

/-- The fault of bytes that do not have the recorded checksum. -/
def BlobRecord.contradicted (record : BlobRecord) (bs : Bytes) : Fault :=
  .integrity (.digest ⟨.crc32, Hex.ofWord record.crc32, Hex.ofWord (Crc32.ofBytes bs)⟩)

namespace Vault

/-- A blob is recorded, and a mounted volume that answers as it should holds some bytes for it,
whether they are the right ones or not. -/
structure Holds (v : Vault) (volume : VolumeId) (r : Ref) (record : BlobRecord) (bs : Bytes) :
    Prop where
  recorded : v.catalog.records.get? r = some record
  plain : ∃ b, v.mounts.get? volume = some b ∧ (v.storage.backend b).isPlain = true
  object : v.object? volume r = some bs

/-- The bytes are counted, decoded and passed on. -/
structure Passes (v : Vault) (volume : VolumeId) (r : Ref) (record : BlobRecord) (bs : Bytes) :
    Prop where
  scrub : (v.scrub r volume).1 = .ok bs.length
  fetch : ∀ key, (v.catalog.resolveKey record.keyId v.ring).1 = .ok key →
    (v.fetch r volume).1 = Codec.decode r bs key record.isCompressed
  /-- The target has the last word, and the catalog the one after it. -/
  replicate : ∀ target b, v.mounts.get? target = some b →
    (v.replicate volume target r).1 = match (v.storage.store b r (.ofParts bs none)).1 with
      | .error fault => .error fault
      | .ok () => match v.catalog.confirm r target with
        | .error fault => .error (.ofCatalog fault)
        | .ok _ => .ok ()

/-- The bytes are found to be wrong by everyone who reads them, and go nowhere. -/
structure Rejects (v : Vault) (volume : VolumeId) (r : Ref) (record : BlobRecord) (bs : Bytes) :
    Prop where
  scrub : (v.scrub r volume).1 = .error (record.contradicted bs)
  fetch : ∀ key, (v.catalog.resolveKey record.keyId v.ring).1 = .ok key →
    (v.fetch r volume).1 = .error (record.contradicted bs)
  /-- Unless the target refuses whatever it is given, which it does before it reads anything. -/
  replicate : ∀ target b, v.mounts.get? target = some b →
    (v.replicate volume target r).1 = .error (record.contradicted bs) ∨
      ∃ refusal, v.storage.Refuses b r refusal ∧
        (v.replicate volume target r).1 = .error refusal
  /-- Neither the catalog nor an object on any volume changes. -/
  quiet : ∀ target, Quiet v (v.replicate volume target r).2

variable {v v' : Vault} {volume : VolumeId} {r : Ref} {record : BlobRecord} {bs : Bytes}

/-- What left no trace left the object as well. -/
theorem Holds.of_quiet (h : v.Holds volume r record bs) (hq : Quiet v v') :
    v'.Holds volume r record bs where
  recorded := by rw [hq.catalog]; exact h.recorded
  plain := by
    obtain ⟨b, hb, hp⟩ := h.plain
    exact ⟨b, hq.follows.serves hb hp⟩
  object := (hq.objects volume r).trans h.object

/-! ### Reading right and wrong bytes -/

theorem Holds.passes (h : v.Holds volume r record bs) (hsum : Crc32.ofBytes bs = record.crc32) :
    v.Passes volume r record bs := by
  obtain ⟨b, hb, hp⟩ := h.plain
  refine ⟨?_, fun key hkey => ?_, fun target b' hb' => ?_⟩
  · rw [scrub_of_object hp hb h.recorded h.object, if_pos hsum]
  · rw [fetch_of_object hp hb h.recorded hkey h.object, if_pos hsum]
  · have hcopy := replicate_of_object hp hb hb' h.recorded h.object
    rw [passedOn_of_eq hsum] at hcopy
    cases hst : (v.storage.store b' r (.ofParts bs none)).1 with
    | error fault =>
      rw [hst] at hcopy
      rw [hcopy]
    | ok u =>
      rw [hst] at hcopy
      exact hcopy

/-- A backend that is given wrong bytes says so, unless it refuses all bytes. -/
theorem store_passedOn_of_ne (hsum : Crc32.ofBytes bs ≠ record.crc32) (st : Storage)
    (b : BackendId) (r : Ref) :
    ∃ fault, (st.store b r (passedOn record bs)).1 = .error fault ∧
      (fault = record.contradicted bs ∨ st.Refuses b r fault) := by
  have hcontent : (passedOn record bs).content = .error (.mismatch
      ⟨.crc32, Hex.ofWord record.crc32, Hex.ofWord (Crc32.ofBytes bs)⟩) := by
    rw [content_passedOn, if_neg hsum]
  rcases Storage.store_of_fault st b r with ⟨refusal, hrefuses⟩ | hfails
  · exact ⟨refusal, hrefuses _, .inr hrefuses⟩
  · exact ⟨_, hfails _ _ hcontent, .inl rfl⟩

theorem Holds.rejects (h : v.Holds volume r record bs) (hsum : Crc32.ofBytes bs ≠ record.crc32) :
    v.Rejects volume r record bs := by
  obtain ⟨b, hb, hp⟩ := h.plain
  refine ⟨?_, fun key hkey => ?_, fun target b' hb' => ?_, fun target => ?_⟩
  · rw [scrub_of_object hp hb h.recorded h.object, if_neg hsum]
    rfl
  · rw [fetch_of_object hp hb h.recorded hkey h.object, if_neg hsum]
    rfl
  · have hcopy := replicate_of_object hp hb hb' h.recorded h.object
    obtain ⟨fault, hst, hfault⟩ := store_passedOn_of_ne hsum v.storage b' r
    rw [hst] at hcopy
    rcases hfault with rfl | hrefuses
    · exact .inl (by rw [hcopy])
    · exact .inr ⟨fault, hrefuses, by rw [hcopy]⟩
  · cases hb' : v.mounts.get? target with
    | none =>
      have hnone : v.replicate volume target r =
          (.error (.capability (.notMounted target)), v) := by
        simp only [replicate, beginCopy, backendOf, hb, hb']
      rw [hnone]
      exact .refl v
    | some b' =>
      have hcopy := replicate_of_object hp hb hb' h.recorded h.object
      obtain ⟨fault, hst, -⟩ := store_passedOn_of_ne hsum v.storage b' r
      have hstored : ((v.rawFetch b r).2.rawStore b' r (passedOn record bs)).1 = .error fault :=
        (Storage.fst_store_fetch v.storage b r b' r _).trans hst
      rw [hst] at hcopy
      rw [hcopy]
      exact (quiet_rawFetch v b r).trans (quiet_rawStore_of_error hstored)

/-! ### Tampering -/

end Vault

/-- A byte string with every bit of one of its bytes flipped. -/
def Bytes.flipped (bs : Bytes) (offset : Nat) : Bytes := bs.modify offset (· ^^^ 0xFF)

theorem Bytes.flipped_flipped (bs : Bytes) (offset : Nat) :
    flipped (flipped bs offset) offset = bs := by
  have hback : (fun b : UInt8 => b ^^^ 0xFF) ∘ (fun b : UInt8 => b ^^^ 0xFF) = id := by
    funext b
    show b ^^^ 0xFF ^^^ 0xFF = b
    rw [UInt8.xor_assoc, UInt8.xor_self, UInt8.xor_zero]
  rw [flipped, flipped, List.modify_modify_eq, hback, List.modify_id]

theorem Bytes.length_flipped (bs : Bytes) (offset : Nat) :
    (flipped bs offset).length = bs.length :=
  List.length_modify ..

theorem Bytes.burst_flipped {bs : Bytes} {offset : Nat} (h : offset < bs.length) :
    Crc32.Burst bs (flipped bs offset) := by
  refine Crc32.burst_modify (List.getElem?_eq_getElem h) fun hsame => ?_
  have hzero : (0xFF : UInt8) = 0 := by
    rw [← UInt8.xor_right_inj (bs[offset]), hsame, UInt8.xor_zero]
  exact absurd hzero (by decide)

namespace Vault

variable {v v' : Vault} {volume : VolumeId} {r : Ref} {record : BlobRecord} {bs : Bytes}

/-- Flips every bit of one byte of an object, if the volume is mounted on memory that holds such a
byte. -/
def tamper? (v : Vault) (volume : VolumeId) (r : Ref) (offset : Nat) : Option Vault := do
  let b ← v.mounts.get? volume
  let shelf ← v.storage.shelf? b
  let shelf ← shelf.tamper r offset
  return { v with storage := v.storage.setShelf b shelf }

/-- The vault with an object in one of its memories replaced. -/
def replacing (v : Vault) (b : BackendId) (shelf : Shelf) (r : Ref) (bs : Bytes) : Vault :=
  { v with
    storage := v.storage.setBackend b
      (.memory { shelf with objects := shelf.objects.insert r bs }) }

theorem tamper?_of_memory {b : BackendId} {shelf : Shelf} {offset : Nat}
    (hb : v.mounts.get? volume = some b) (hm : v.storage.backend b = .memory shelf)
    (hraw : shelf.raw? r = some bs) (hoffset : offset < bs.length) :
    v.tamper? volume r offset = some (v.replacing b shelf r (bs.flipped offset)) := by
  have htamper : shelf.tamper r offset =
      some { shelf with objects := shelf.objects.insert r (bs.flipped offset) } := by
    rw [Shelf.tamper, hraw]
    exact if_pos hoffset
  simp only [tamper?, hb, Storage.shelf?, hm, Backend.shelf?, htamper, Storage.setShelf,
    Backend.withShelf, Option.bind_eq_bind, Option.bind_some, Option.pure_def, replacing]

theorem follows_replacing {b : BackendId} {shelf : Shelf} (hm : v.storage.backend b = .memory shelf)
    (r : Ref) (bs : Bytes) : Follows v (v.replacing b shelf r bs) :=
  .ofStorage (Storage.sameLayout_setBackend (by rw [hm]; rfl) (by rw [hm]; rfl))

/-- Whatever is mounted on the memory sees the new object. -/
theorem object?_replacing {b : BackendId} {shelf : Shelf}
    (hm : v.storage.backend b = .memory shelf) (r : Ref) (bs : Bytes) (volume' : VolumeId)
    (r' : Ref) :
    (v.replacing b shelf r bs).object? volume' r' =
      if v.mounts.get? volume' = some b ∧ r' = r then some bs else v.object? volume' r' := by
  cases hb' : v.mounts.get? volume' with
  | none =>
    rw [object?_of_not_mounted hb', if_neg (by rintro ⟨⟨⟩, -⟩)]
    exact object?_of_not_mounted (v := v.replacing b shelf r bs) hb' r'
  | some b' =>
    rw [object?_of_mounted hb', object?_of_mounted (v := v.replacing b shelf r bs) hb', replacing]
    by_cases hbb : b' = b
    · subst hbb
      rw [Storage.object?_setBackend_of_shelf rfl, Storage.object?_memory hm, Shelf.raw?,
        OrderedMap.get?_insert]
      simp [Shelf.raw?]
    · rw [Storage.object?_setBackend_of_ne hbb, if_neg fun h => hbb (Option.some.inj h.1)]

theorem Holds.replacing {b : BackendId} {shelf : Shelf} (h : v.Holds volume r record bs)
    (hb : v.mounts.get? volume = some b) (hm : v.storage.backend b = .memory shelf) (bs' : Bytes) :
    (v.replacing b shelf r bs').Holds volume r record bs' where
  recorded := h.recorded
  plain := ⟨b, (follows_replacing hm r bs').serves hb (by rw [hm]; rfl)⟩
  object := by rw [object?_replacing hm, if_pos ⟨hb, rfl⟩]

/-- A memory that holds something is in place. -/
theorem get?_backends_of_memory {st : Storage} {b : BackendId} {shelf : Shelf}
    (hm : st.backend b = .memory shelf) (hraw : shelf.raw? r = some bs) :
    st.backends.get? b = some (.memory shelf) := by
  unfold Storage.backend at hm
  cases hb : st.backends.get? b with
  | some backend => rw [hb] at hm; exact congrArg some hm
  | none =>
    rw [hb] at hm
    injection hm with hshelf
    rw [← hshelf] at hraw
    cases hraw

/-- Flipping the bits once more brings the vault back. -/
theorem tamper?_replacing {b : BackendId} {shelf : Shelf} {offset : Nat}
    (hb : v.mounts.get? volume = some b) (hm : v.storage.backend b = .memory shelf)
    (hraw : shelf.raw? r = some bs) (hoffset : offset < bs.length) :
    (v.replacing b shelf r (bs.flipped offset)).tamper? volume r offset = some v := by
  have hm' : (v.replacing b shelf r (bs.flipped offset)).storage.backend b =
      .memory { shelf with objects := shelf.objects.insert r (bs.flipped offset) } := by
    rw [replacing, Storage.backend_setBackend, if_pos rfl]
  rw [tamper?_of_memory (v := v.replacing b shelf r (bs.flipped offset)) hb hm'
    (OrderedMap.get?_insert_self ..) (by rw [Bytes.length_flipped]; exact hoffset),
    Bytes.flipped_flipped]
  simp only [replacing, Storage.setBackend, OrderedMap.insert_insert]
  rw [OrderedMap.insert_of_get? (m := shelf.objects) hraw,
    OrderedMap.insert_of_get? (get?_backends_of_memory hm hraw)]

/-- The same if something happened in between that left no trace. -/
theorem tamper?_of_quiet {b : BackendId} {shelf : Shelf} {offset : Nat}
    (hb : v.mounts.get? volume = some b) (hm : v.storage.backend b = .memory shelf)
    (hraw : shelf.raw? r = some bs) (hoffset : offset < bs.length)
    (hq : Quiet (v.replacing b shelf r (bs.flipped offset)) v') :
    ∃ v'', v'.tamper? volume r offset = some v'' ∧ Quiet v v'' := by
  have hfollows := (follows_replacing hm r (bs.flipped offset)).trans hq.follows
  obtain ⟨hb', hp'⟩ := hfollows.serves hb (by rw [hm]; rfl)
  have hobjects : ∀ volume' r', v'.object? volume' r' =
      if v.mounts.get? volume' = some b ∧ r' = r then some (bs.flipped offset)
      else v.object? volume' r' := fun volume' r' => by
    rw [hq.objects, object?_replacing hm]
  -- the memory may have been asked for objects, but is still a memory with the same ones
  obtain ⟨shelf', hm'⟩ : ∃ shelf', v'.storage.backend b = .memory shelf' := by
    have hplace := hfollows.layout.place b
    rw [hm] at hplace
    cases hbackend : v'.storage.backend b with
    | memory shelf' => exact ⟨shelf', rfl⟩
    | folder root cost => rw [hbackend] at hplace; cases hplace
    | rigged shelf' rig => rw [hbackend] at hp'; cases hp'
  have hraw' : shelf'.raw? r = some (bs.flipped offset) := by
    rw [← Storage.object?_memory hm', ← object?_of_mounted hb', hobjects, if_pos ⟨hb, rfl⟩]
  refine ⟨_, tamper?_of_memory hb' hm' hraw' (by rw [Bytes.length_flipped]; exact hoffset),
    hfollows.trans (follows_replacing hm' r _), hq.catalog, fun volume' r' => ?_⟩
  rw [object?_replacing hm', hobjects, hfollows.mounts, Bytes.flipped_flipped]
  by_cases h : v.mounts.get? volume' = some b ∧ r' = r
  · rw [if_pos h, object?_of_mounted h.1, h.2, Storage.object?_memory hm, hraw]
  · rw [if_neg h, if_neg h]

/-- **Wrong bytes that differ from the right ones within four consecutive places are rejected**, and
bytes that were tampered with pass again when the same bits are flipped back. -/
theorem rejects_of_burst (h : v.Holds volume r record bs)
    (hsum : Crc32.ofBytes bs = record.crc32) :
    v.Passes volume r record bs ∧
    (∀ (bs' : Bytes) (v' : Vault), Crc32.Burst bs bs' → v'.Holds volume r record bs' →
      v'.Rejects volume r record bs') ∧
    ∀ b shelf offset, v.mounts.get? volume = some b → v.storage.backend b = .memory shelf →
      offset < bs.length →
      ∃ v', v.tamper? volume r offset = some v' ∧
        v'.Rejects volume r record (bs.flipped offset) ∧
        v'.tamper? volume r offset = some v ∧
        ∀ v'', Quiet v' v'' → ∃ v₃, v''.tamper? volume r offset = some v₃ ∧ Quiet v v₃ ∧
          v₃.Passes volume r record bs := by
  have hburst : ∀ (bs' : Bytes) (v' : Vault), Crc32.Burst bs bs' →
      v'.Holds volume r record bs' → v'.Rejects volume r record bs' := fun _ _ hchange hholds =>
    hholds.rejects fun hsum' => Crc32.ofBytes_ne_of_burst hchange (hsum.trans hsum'.symm)
  refine ⟨h.passes hsum, hburst, fun b shelf offset hb hm hoffset => ?_⟩
  have hraw : shelf.raw? r = some bs := by
    rw [← Storage.object?_memory hm, ← object?_of_mounted hb, h.object]
  refine ⟨_, tamper?_of_memory hb hm hraw hoffset,
    hburst _ _ (Bytes.burst_flipped hoffset) (h.replacing hb hm _),
    tamper?_replacing hb hm hraw hoffset, fun v'' hq => ?_⟩
  obtain ⟨v₃, htamper, hback⟩ := tamper?_of_quiet hb hm hraw hoffset hq
  exact ⟨v₃, htamper, hback, (h.of_quiet hback).passes hsum⟩

namespace Sample

def ref : Ref := .repeated 1

def bytes : Bytes := [1, 2, 3]

def blob : BlobRecord := { BlobRecord.written ref with crc32 := Crc32.ofBytes bytes }

def shelf : Shelf := { Shelf.empty 10 with objects := OrderedMap.empty.insert ref bytes }

/-- A disk with a file where the folder of the object would have to be. -/
def files : Files :=
  ((Files.empty.put ["disk"] .folder).put ["disk", "blobs"] .folder).put
    (Folder.pathOf ["disk"] ref).dropLast (.file [])

/-- A blob on a volume in memory, and a volume on the disk. -/
def vault : Vault where
  ring := .empty 1
  catalog := { Catalog.empty with
    records := OrderedMap.empty.insert ref blob
    volumes := (OrderedMap.empty.insert 1 ⟨1, ⟨1⟩, "first", 0, 1, 3⟩).insert 2
      ⟨2, ⟨2⟩, "second", 0, 0, 0⟩ }
  storage :=
    { Storage.empty with
      backends := (OrderedMap.empty.insert 10 (.memory shelf)).insert 20 (.folder ["disk"] 10)
      files := files }
  mounts := (OrderedMap.empty.insert 1 10).insert 2 20

/-- The vault after the first byte of the object was tampered with. -/
def spoilt : Vault := vault.replacing 10 shelf ref (bytes.flipped 0)

theorem holds : vault.Holds 1 ref blob bytes where
  recorded := rfl
  plain := ⟨10, rfl, rfl⟩
  object := rfl

theorem backend_shelf : vault.storage.backend 10 = .memory shelf := rfl

/-- The folder of the object cannot be made, so the disk takes no bytes for it. -/
theorem refuses_disk (st : Storage) (hfiles : st.files = files)
    (hdisk : st.backend 20 = .folder ["disk"] 10) :
    st.Refuses 20 ref (.io Refusal.exists.fault) := by
  have hfolder : st.files.createFolders (Folder.pathOf ["disk"] ref).dropLast =
      .error .exists := by
    rw [hfiles]
    rfl
  intro content
  rw [Storage.store_folder hdisk, Storage.fst_store_folder, Folder.upload,
    Upload.run_start_of_no_folder hfolder]
  rfl

end Sample

theorem rejects_of_burst_sample :
    Sample.vault.Holds 1 Sample.ref Sample.blob Sample.bytes ∧
      Crc32.ofBytes Sample.bytes = Sample.blob.crc32 ∧
      ∃ v, Sample.vault.tamper? 1 Sample.ref 0 = some v ∧
        v.Rejects 1 Sample.ref Sample.blob (Sample.bytes.flipped 0) ∧
        v.tamper? 1 Sample.ref 0 = some Sample.vault := by
  obtain ⟨-, -, htamper⟩ := rejects_of_burst Sample.holds rfl
  obtain ⟨v, hv, hrejects, hback, -⟩ :=
    htamper 10 Sample.shelf 0 rfl Sample.backend_shelf (by decide)
  exact ⟨Sample.holds, rfl, v, hv, hrejects, hback⟩

/-- Nobody finds out about wrong bytes that the target does not ask for. -/
theorem refused_sample :
    Crc32.ofBytes Sample.bytes = Sample.blob.crc32 ∧
      Crc32.Burst Sample.bytes (Sample.bytes.flipped 0) ∧
      Sample.vault.tamper? 1 Sample.ref 0 = some Sample.spoilt ∧
      Sample.spoilt.Holds 1 Sample.ref Sample.blob (Sample.bytes.flipped 0) ∧
      Sample.spoilt.isMounted 2 = true ∧
      ∀ what, (Sample.spoilt.replicate 1 2 Sample.ref).1 ≠ .error (.integrity what) := by
  have hholds : Sample.spoilt.Holds 1 Sample.ref Sample.blob (Sample.bytes.flipped 0) :=
    Sample.holds.replacing rfl Sample.backend_shelf (Sample.bytes.flipped 0)
  have hsource : Sample.spoilt.mounts.get? 1 = some 10 := rfl
  have htarget : Sample.spoilt.mounts.get? 2 = some 20 := rfl
  have hcopy := replicate_of_object rfl hsource htarget hholds.recorded hholds.object
  rw [Sample.refuses_disk _ rfl rfl] at hcopy
  refine ⟨rfl, Bytes.burst_flipped (by decide),
    tamper?_of_memory rfl Sample.backend_shelf rfl (by decide), hholds, rfl, fun what hwhat => ?_⟩
  rw [hcopy] at hwhat
  cases hwhat

end Vault

end BlobVault
