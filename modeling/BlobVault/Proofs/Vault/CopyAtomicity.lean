import BlobVault.Proofs.Vault.Copying
import BlobVault.Proofs.Vault.WriteAtomicity

/-!
# Replications are all or nothing

A replication that succeeds has put the bytes that its source delivered on its target, and has
confirmed the copy.  One that fails has changed nothing, whatever the source answers; in particular
the copy that the target already had is still there.  Only on a target that the catalog does not
know can an object be left behind or be replaced, and it has the recorded checksum then.

* `Vault.Delivers` : the bytes that a reader gets from a volume;
* `Vault.Replicated` : all that a replication that succeeds has done;
* `Vault.replicate_ok_iff` : when a replication succeeds;
* `Vault.replicate_all_or_nothing` : **a replication does all of it, or leaves nothing but an
  orphan.**
-/

namespace BlobVault

namespace Vault

/-- Somebody who reads what a volume answers gets these bytes and a clean end. -/
def Delivers (v : Vault) (volume : VolumeId) (r : Ref) (bs : Bytes) : Prop :=
  ∃ b s rest, v.mounts.get? volume = some b ∧ (v.storage.fetch b r).1 = .ok s ∧
    Reads Stream.read s bs none rest

/-- All that a replication does: the target holds what the source delivered, the record lists it
and waits for it no more, and the volume counts it unless it was listed before. -/
structure Replicated (v v' : Vault) (source target : VolumeId) (r : Ref) (record : BlobRecord)
    (bs : Bytes) : Prop where
  recorded : v.catalog.records.get? r = some record
  delivered : v.Delivers source r bs
  crc32 : Crc32.ofBytes bs = record.crc32
  object : Deposited v v' target r bs
  catalog : ∃ known, v.catalog.volumes.get? target = some known ∧
    v'.catalog = { v.catalog with
      records := v.catalog.records.insert r ((record.arrived target).listed target)
      volumes := if record.isOn target then v.catalog.volumes
        else v.catalog.volumes.insert target (known.holding record) }
  listed : ∃ record', v'.catalog.records.get? r = some record' ∧
    target ∈ record'.volumes ∧ target ∉ record'.pending
  ring : v'.ring = v.ring

/-- The bytes have the checksum that is recorded for the blob. -/
def HasChecksum (v : Vault) (r : Ref) (bs : Bytes) : Prop :=
  ∃ record, v.catalog.records.get? r = some record ∧ Crc32.ofBytes bs = record.crc32

end Vault

theorem VerifiedStream.content_ofCrc32_eq_ok {s : Stream} {crc32 : UInt32} {bs : Bytes} :
    (ofCrc32 s crc32).content = .ok bs ↔ s.content = .ok bs ∧ Crc32.ofBytes bs = crc32 := by
  rw [content_ofCrc32]
  cases s.content with
  | error fault => simp
  | ok bs' =>
    dsimp only
    by_cases h : Crc32.ofBytes bs' = crc32
    · rw [if_pos h]
      refine ⟨fun hbs => ⟨hbs, ?_⟩, And.left⟩
      rw [← Except.ok.inj hbs, h]
    · rw [if_neg h]
      refine ⟨nofun, fun hbs => absurd ?_ h⟩
      rw [Except.ok.inj hbs.1, hbs.2]

/-- A verified stream that is right is passed on as its bytes. -/
theorem VerifiedStream.toStream_of_content {s : VerifiedStream} {bs : Bytes}
    (h : s.content = .ok bs) : s.toStream = .ofParts bs none := by
  unfold content at h
  split at h
  · rename_i bs' rest hread
    rw [toStream, hread, Except.ok.inj h]
  · cases h

namespace Copy

variable {v : Vault}

/-- A copy that has its answer touches nothing, or deposits what was delivered and then has to be
confirmed. -/
theorem finish_effect (c : Copy) (answer : Except Fault Stream)
    (hb : v.mounts.get? c.volume = some c.target) :
    (∃ fault, (c.finish answer v).1 = .error fault ∧ v.Untouched (c.finish answer v).2) ∨
    ∃ s bs v', answer = .ok s ∧ s.content = .ok bs ∧ Crc32.ofBytes bs = c.crc32 ∧
      (v.storage.store c.target c.ref (.ofParts bs none)).1 = .ok () ∧
      v.Deposited v' c.volume c.ref bs ∧ v'.catalog = v.catalog ∧ v'.ring = v.ring ∧
      c.finish answer v = match v.catalog.confirm c.ref c.volume with
        | .error fault => (.error (.ofCatalog fault), v')
        | .ok catalog => (.ok (), { v' with catalog := catalog }) := by
  cases answer with
  | error fault => exact .inl ⟨fault, rfl, .refl v⟩
  | ok s =>
    have heffect := Vault.rawStore_effect hb c.ref (VerifiedStream.ofCrc32 s c.crc32).toStream
    cases hstore : v.rawStore c.target c.ref (VerifiedStream.ofCrc32 s c.crc32).toStream with
    | mk outcome v' =>
      rw [hstore] at heffect
      have hcatalog : v'.catalog = v.catalog := congrArg (fun answer => answer.2.catalog) hstore.symm
      have hring : v'.ring = v.ring := congrArg (fun answer => answer.2.ring) hstore.symm
      cases outcome with
      | error fault =>
        refine .inl ⟨fault, ?_⟩
        simp only [finish, hstore, true_and]
        exact heffect
      | ok u =>
        obtain ⟨bs, hbs, hdeposited⟩ := heffect
        rw [VerifiedStream.content_toStream] at hbs
        have hparts := VerifiedStream.toStream_of_content hbs
        obtain ⟨hcontent, hcrc⟩ := VerifiedStream.content_ofCrc32_eq_ok.1 hbs
        refine .inr ⟨s, bs, v', rfl, hcontent, hcrc, ?_, hdeposited, hcatalog, hring, ?_⟩
        · rw [hparts] at hstore
          exact congrArg Prod.fst hstore
        · cases hconfirm : v.catalog.confirm c.ref c.volume with
          | error fault => simp only [finish, hstore, hcatalog, hconfirm]
          | ok catalog => simp only [finish, hstore, hcatalog, hconfirm]

end Copy

namespace Vault

variable {v v' : Vault} {source target : VolumeId} {r : Ref} {record : BlobRecord} {bs : Bytes}

/-- A replication that cannot begin fails at once, and any other fetches and stores. -/
theorem replicate_cases (v : Vault) (source target : VolumeId) (r : Ref) :
    (∃ fault, v.replicate source target r = (.error fault, v)) ∨
    ∃ b b' record, v.mounts.get? source = some b ∧ v.mounts.get? target = some b' ∧
      v.catalog.records.get? r = some record ∧ v.replicate source target r =
        Copy.finish ⟨b, b', target, r, record.crc32⟩ (v.rawFetch b r).1 (v.rawFetch b r).2 := by
  cases hbegin : v.beginCopy source target r with
  | error fault => exact .inl ⟨fault, by rw [replicate, hbegin]⟩
  | ok c =>
    obtain ⟨hb, hb', rfl, rfl, record, hrecord, hcrc⟩ := beginCopy_eq_ok hbegin
    refine .inr ⟨c.source, c.target, record, hb, hb', hrecord, ?_⟩
    rw [← hcrc, replicate, hbegin]

/-- A replication has stored what was delivered and has only to confirm it. -/
structure Carried (v v' : Vault) (source target : VolumeId) (r : Ref) (record : BlobRecord)
    (bs : Bytes) : Prop where
  recorded : v.catalog.records.get? r = some record
  delivered : v.Delivers source r bs
  crc32 : Crc32.ofBytes bs = record.crc32
  object : Deposited v v' target r bs
  accepted : ∃ b, v.mounts.get? target = some b ∧
    (v.storage.store b r (.ofParts bs none)).1 = .ok ()
  catalog : v'.catalog = v.catalog
  ring : v'.ring = v.ring

/-- A replication touches nothing, or stores what was delivered and tries to confirm it. -/
theorem replicate_effect (v : Vault) (source target : VolumeId) (r : Ref) :
    (∃ fault, (v.replicate source target r).1 = .error fault ∧
      Untouched v (v.replicate source target r).2) ∨
    ∃ record bs v', Carried v v' source target r record bs ∧
      v.replicate source target r = match v.catalog.confirm r target with
        | .error fault => (.error (.ofCatalog fault), v')
        | .ok catalog => (.ok (), { v' with catalog := catalog }) := by
  rcases replicate_cases v source target r with
    ⟨fault, hrun⟩ | ⟨b, b', record, hb, hb', hrecord, hrun⟩
  · rw [hrun]
    exact .inl ⟨fault, rfl, .refl v⟩
  · have hfetched := untouched_rawFetch v b r
    rcases Copy.finish_effect (v := (v.rawFetch b r).2) ⟨b, b', target, r, record.crc32⟩
      (v.rawFetch b r).1 hb' with ⟨fault, herror, huntouched⟩ |
        ⟨s, bs, v', hs, hcontent, hcrc, hstore, hdeposited, hcatalog, hring, hfinish⟩
    · rw [hrun]
      exact .inl ⟨fault, herror, hfetched.trans huntouched⟩
    · obtain ⟨rest, hreads⟩ := Stream.content_eq_ok.1 hcontent
      refine .inr ⟨record, bs, v', ?_, hrun.trans hfinish⟩
      exact
        { recorded := hrecord
          delivered := ⟨b, s, rest, hb, hs, hreads⟩
          crc32 := hcrc
          object := hfetched.deposited hdeposited
          accepted := ⟨b', hb', (Storage.fst_store_fetch v.storage b r b' r _).symm.trans hstore⟩
          catalog := hcatalog
          ring := hring }

/-- A replication that succeeds has done all of it. -/
theorem replicated_of_replicate (hok : (v.replicate source target r).1 = .ok ()) :
    ∃ record bs, Replicated v (v.replicate source target r).2 source target r record bs := by
  rcases replicate_effect v source target r with
    ⟨fault, herror, -⟩ | ⟨record, bs, v', hcarried, hrun⟩
  · rw [herror] at hok
    cases hok
  · cases hconfirm : v.catalog.confirm r target with
    | error fault =>
      rw [hrun, hconfirm] at hok
      cases hok
    | ok catalog =>
      obtain ⟨record', known, hrecord, hknown, rfl⟩ := Catalog.confirm_eq_ok hconfirm
      obtain rfl := Option.some.inj (hcarried.recorded.symm.trans hrecord)
      rw [hrun, hconfirm]
      refine ⟨record, bs, ?_⟩
      exact
        { recorded := hrecord
          delivered := hcarried.delivered
          crc32 := hcarried.crc32
          object := hcarried.object.withCatalog _
          catalog := ⟨known, hknown, rfl⟩
          listed := ⟨_, OrderedMap.get?_insert_self _ _ _,
            BlobRecord.mem_volumes_arrived_listed.2 (.inr rfl), by
              simp [BlobRecord.pending_arrived_listed]⟩
          ring := hcarried.ring }

/-- A replication that fails leaves nothing but an orphan. -/
theorem traces_of_replicate {fault : Fault}
    (herror : (v.replicate source target r).1 = .error fault) :
    Untouched v (v.replicate source target r).2 ∨
      Orphaned v (v.replicate source target r).2 target r (v.HasChecksum r) := by
  rcases replicate_effect v source target r with
    ⟨-, -, huntouched⟩ | ⟨record, bs, v', hcarried, hrun⟩
  · exact .inl huntouched
  · refine .inr ?_
    -- the record was found, so that the confirmation has failed for the volume
    cases hknown : v.catalog.volumes.get? target with
    | some known =>
      obtain ⟨volumes, hconfirm, -⟩ := Catalog.confirm_of_record hcarried.recorded
        (OrderedMap.contains_of_get? hknown)
      rw [hrun, hconfirm] at herror
      cases herror
    | none =>
      have hconfirm : v.catalog.confirm r target = .error (.notFound (.volume target)) := by
        simp [Catalog.confirm, Catalog.findRecord, hcarried.recorded, Catalog.findVolume, hknown]
      rw [hrun, hconfirm]
      exact ⟨hknown, hcarried.catalog, bs, ⟨record, hcarried.recorded, hcarried.crc32⟩,
        hcarried.object⟩

/-- What was delivered, has the recorded checksum and is not refused is kept and confirmed. -/
theorem replicate_of_delivers {b : BackendId} (hb : v.mounts.get? target = some b)
    (hdelivers : v.Delivers source r bs) (hchecksum : v.HasChecksum r bs)
    (hstore : (v.storage.store b r (.ofParts bs none)).1 = .ok ())
    (hknown : v.catalog.volumes.contains target = true) :
    (v.replicate source target r).1 = .ok () := by
  obtain ⟨b', s, rest, hb', hs, hreads⟩ := hdelivers
  obtain ⟨record, hrecord, hcrc⟩ := hchecksum
  have hcontent : (VerifiedStream.ofCrc32 s record.crc32).content = .ok bs :=
    VerifiedStream.content_ofCrc32_eq_ok.2 ⟨Stream.content_eq_ok.2 ⟨rest, hreads⟩, hcrc⟩
  have hanswer : v.rawFetch b' r = (.ok s, (v.rawFetch b' r).2) := by
    rw [← hs]
    rfl
  -- that the source was asked makes no difference to the target
  have hkept : ((v.rawFetch b' r).2.rawStore b r (.ofParts bs none)).1 = .ok () :=
    (Storage.fst_store_fetch v.storage b' r b r (.ofParts bs none)).trans hstore
  obtain ⟨volumes, hconfirm, -⟩ := Catalog.confirm_of_record hrecord hknown
  rw [replicate, beginCopy_of_record hb' hb hrecord]
  dsimp only
  rw [hanswer]
  simp only [Copy.finish, VerifiedStream.toStream_of_content hcontent]
  cases hst : (v.rawFetch b' r).2.rawStore b r (.ofParts bs none) with
  | mk outcome v' =>
    have hcatalog : v'.catalog = v.catalog := congrArg (fun answer => answer.2.catalog) hst.symm
    rw [hst] at hkept
    obtain rfl : outcome = .ok () := hkept
    simp only [hcatalog, hconfirm]

/-- When a replication succeeds. -/
theorem replicate_ok_iff :
    (v.replicate source target r).1 = .ok () ↔ ∃ b bs, v.mounts.get? target = some b ∧
      v.Delivers source r bs ∧ v.HasChecksum r bs ∧
      (v.storage.store b r (.ofParts bs none)).1 = .ok () ∧
      v.catalog.volumes.contains target = true := by
  constructor
  · intro hok
    rcases replicate_effect v source target r with
      ⟨fault, herror, -⟩ | ⟨record, bs, v', hcarried, hrun⟩
    · rw [herror] at hok
      cases hok
    · obtain ⟨b, hb, hstore⟩ := hcarried.accepted
      refine ⟨b, bs, hb, hcarried.delivered, ⟨record, hcarried.recorded, hcarried.crc32⟩, hstore,
        ?_⟩
      cases hconfirm : v.catalog.confirm r target with
      | error fault =>
        rw [hrun, hconfirm] at hok
        cases hok
      | ok catalog =>
        obtain ⟨-, known, -, hknown, -⟩ := Catalog.confirm_eq_ok hconfirm
        exact OrderedMap.contains_of_get? hknown
  · rintro ⟨b, bs, hb, hdelivers, hchecksum, hstore, hknown⟩
    exact replicate_of_delivers hb hdelivers hchecksum hstore hknown

/-- **A replication does all of it, or leaves nothing but an orphan**, even where the source is also
the target, where the copy was made before, and whatever the source answers.  It succeeds exactly
if both volumes are mounted and the target is known, the source delivers bytes with the recorded
checksum, and the backend of the target does not refuse. -/
theorem replicate_all_or_nothing (v : Vault) (source target : VolumeId) (r : Ref) :
    let result := v.replicate source target r
    (result.1 = .ok () → ∃ record bs, Replicated v result.2 source target r record bs) ∧
    (∀ fault, result.1 = .error fault → Untouched v result.2 ∨
      Orphaned v result.2 target r (v.HasChecksum r)) ∧
    (result.1 = .ok () ↔ ∃ b bs, v.mounts.get? target = some b ∧ v.Delivers source r bs ∧
      v.HasChecksum r bs ∧ (v.storage.store b r (.ofParts bs none)).1 = .ok () ∧
      v.catalog.volumes.contains target = true) :=
  ⟨replicated_of_replicate, fun _ => traces_of_replicate, replicate_ok_iff⟩

end Vault

namespace Sample

/-- The first volume delivers the blob that was written there, and the second one takes it. -/
theorem delivers_published :
    ∃ b bs, published.mounts.get? 2 = some b ∧ published.Delivers 1 named bs ∧
      published.HasChecksum named bs ∧
      (published.storage.store b named (.ofParts bs none)).1 = .ok () ∧
      published.catalog.volumes.contains 2 = true := by
  obtain ⟨⟨record, hok⟩, -⟩ := write_photo
  have hwritten := Vault.written_of_write hok
  rw [← Vault.afterWrite, ← published] at hwritten
  obtain ⟨known, -, hcatalog⟩ := hwritten.catalog
  obtain ⟨bs, -, hdeposited, -, hcrc⟩ := hwritten.object
  obtain ⟨b, hb, hputs⟩ := hdeposited.storage
  obtain rfl : 10 = b := Option.some.inj hb
  have hmemory : ∀ b, ∃ shelf, published.storage.backend b = .memory shelf := fun b =>
    Backend.memory_of_bare (hputs.backends b)
  obtain ⟨shelf, hshelf⟩ := hmemory 10
  obtain ⟨shelf', hshelf'⟩ := hmemory 20
  have hobject := hputs.placed 10 (.inl rfl)
  have hfetch := Storage.fetch_of_object (by rw [hshelf]; rfl) hobject
  obtain ⟨rest, hreads⟩ := Stream.content_eq_ok.1 (Stream.content_ofBytes bs)
  refine ⟨20, bs, ?_, ⟨10, _, rest, ?_, hfetch, hreads⟩, ⟨record, ?_, hcrc⟩, ?_, ?_⟩
  · rw [hdeposited.mounts]
    rfl
  · rw [hdeposited.mounts, hb]
  · rw [hcatalog]
    exact OrderedMap.get?_insert_self _ _ _
  · exact (Storage.answers_memory hshelf').stores _ _ bs (Stream.content_ofParts_none bs)
  · rw [hcatalog]
    exact (OrderedMap.contains_insert _ _ _ _).2 (.inr rfl)

end Sample

namespace Vault

/-- The copy is made on the second volume, and the first time it is counted. -/
theorem replicate_all_or_nothing_sample :
    (Sample.published.replicate 1 2 Sample.named).1 = .ok () ∧
      ∃ record bs, Replicated Sample.published (Sample.published.replicate 1 2 Sample.named).2 1 2
        Sample.named record bs := by
  obtain ⟨hall, -, hiff⟩ := replicate_all_or_nothing Sample.published 1 2 Sample.named
  have hok := hiff.2 Sample.delivers_published
  exact ⟨hok, hall hok⟩

end Vault

end BlobVault
