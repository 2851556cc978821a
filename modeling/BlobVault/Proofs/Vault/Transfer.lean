import BlobVault.Proofs.Catalog.Records
import BlobVault.Proofs.Codec.RoundTrip
import BlobVault.Proofs.Stream.Content
import BlobVault.Proofs.Vault.Objects
import BlobVault.Vault.Transfer

/-!
# What transfers answer and leave behind

* `Vault.fetch_of_object`, `Vault.fetch_of_no_object` : the answer of a fetch;
* `Vault.quiet_fetch`, `Vault.quiet_scrub` : fetching and scrubbing leave no trace;
* `Vault.scrub_of_object`, `Vault.replicate_of_object` : the answers of a scrub and a replication;
* `Vault.replicate_spec` : replicating leaves no trace, or stores the ciphertext of a record and
  tries to confirm the copy;
* `BlobRecord.Describes` : the record belongs to a stored form, so that reading it gives the plain
  text back (`BlobRecord.Describes.decode`).
-/

namespace BlobVault

/-- Bytes are passed on if their checksum is the expected one. -/
theorem checked_ok (crc32 : UInt32) (s : Stream) :
    checked crc32 (.ok s) = match s.content with
      | .error fault => .error (.ofIo fault)
      | .ok bs =>
        if Crc32.ofBytes bs = crc32 then .ok bs
        else .error (.ofIo (.mismatch
          ⟨.crc32, Hex.ofWord crc32, Hex.ofWord (Crc32.ofBytes bs)⟩)) := by
  simp only [checked, VerifiedStream.content_ofCrc32]
  cases s.content with
  | error fault => rfl
  | ok bs => by_cases h : Crc32.ofBytes bs = crc32 <;> simp [h]

namespace BlobRecord

/-- The record of a plain text that is stored under a key. -/
structure Describes (record : BlobRecord) (plain : Bytes) (key : DataKey) (hint : Bool) :
    Prop where
  ref : record.ref = Ref.ofContent plain
  keyId : record.keyId = key.id
  size : record.size = plain.length
  isCompressed : record.isCompressed = (Codec.encode record.ref plain key hint).isCompressed
  sizeOnDisk : record.sizeOnDisk = (Codec.encode record.ref plain key hint).ciphertext.length
  crc32 : record.crc32 = (Codec.encode record.ref plain key hint).crc32

namespace Describes

variable {record : BlobRecord} {plain : Bytes} {key : DataKey} {hint : Bool}

/-- The lists of volumes are not part of the description. -/
theorem of_eq {record' : BlobRecord} (h : record.Describes plain key hint)
    (hrecord : record' = { record with
      volumes := record'.volumes, pending := record'.pending, referenced := record'.referenced }) :
    record'.Describes plain key hint := by
  rw [hrecord]
  exact ⟨h.ref, h.keyId, h.size, h.isCompressed, h.sizeOnDisk, h.crc32⟩

theorem arrived_listed (h : record.Describes plain key hint) (id : VolumeId) :
    ((record.arrived id).listed id).Describes plain key hint := by
  refine h.of_eq ?_
  rw [arrived_listed_eq]

/-- The size of a record is that of the plain text, and its size on disk is smaller by more than a
tenth if the blob is compressed. -/
theorem sizes (h : record.Describes plain key hint) :
    if record.isCompressed then 10 * record.sizeOnDisk < 9 * record.size
    else record.sizeOnDisk = record.size := by
  rw [h.isCompressed, h.sizeOnDisk, h.size]
  exact Codec.length_encode _ _ _ _

theorem decode (h : record.Describes plain key hint)
    (hrestores : hint = true → Gzip.Restores plain) :
    Codec.decode record.ref (Codec.encode record.ref plain key hint).ciphertext key
      record.isCompressed = .ok plain := by
  rw [h.isCompressed]
  exact Codec.decode_encode h.ref.symm hrestores

end Describes

end BlobRecord

/-- The end of a copy confirms it in the catalog, or leaves the catalog alone. -/
theorem Copy.catalog_finish (c : Copy) (answer : Except Fault Stream) (v : Vault) :
    (c.finish answer v).2.catalog = v.catalog ∨
      v.catalog.confirm c.ref c.volume = .ok (c.finish answer v).2.catalog := by
  unfold finish
  cases answer with
  | error fault => exact .inl rfl
  | ok s =>
    dsimp only
    cases hstore : v.rawStore c.target c.ref (VerifiedStream.ofCrc32 s c.crc32).toStream with
    | mk outcome v' =>
      have hcatalog : v'.catalog = v.catalog := (congrArg (·.2.catalog) hstore).symm
      cases outcome with
      | error fault => exact .inl hcatalog
      | ok u =>
        dsimp only
        rw [← hcatalog]
        cases v'.catalog.confirm c.ref c.volume with
        | error fault => exact .inl rfl
        | ok catalog => exact .inr rfl

namespace Vault

variable {v : Vault} {volume : VolumeId} {b : BackendId} {r : Ref}

theorem backendOf_of_mounted (hb : v.mounts.get? volume = some b) :
    v.backendOf volume = .ok b := by
  rw [backendOf, hb]

theorem mounted_of_backendOf (h : v.backendOf volume = .ok b) :
    v.mounts.get? volume = some b := by
  unfold backendOf at h
  split at h
  · rename_i b' hb
    rw [hb, Except.ok.inj h]
  · cases h

/-! ### Fetching -/

theorem beginFetch_of_record {record : BlobRecord} {key : DataKey}
    (hb : v.mounts.get? volume = some b) (hrecord : v.catalog.records.get? r = some record)
    (hkey : (v.catalog.resolveKey record.keyId v.ring).1 = .ok key) :
    v.beginFetch r volume = (.ok ⟨b, r, record, key⟩,
      { v with ring := v.catalog.ringAfter v.ring [record.keyId] }) := by
  have hres : v.catalog.resolveKey record.keyId v.ring =
      (.ok key, v.catalog.ringAfter v.ring [record.keyId]) := by
    rw [← hkey]
    rfl
  rw [beginFetch, backendOf_of_mounted hb]
  simp only [Catalog.findBlob, Catalog.findRecord_eq_ok.2 hrecord, hres]

/-- A fetch gives the decoded object if its checksum is the recorded one. -/
theorem fetch_of_object {record : BlobRecord} {key : DataKey} {bs : Bytes}
    (hp : (v.storage.backend b).isPlain = true)
    (hb : v.mounts.get? volume = some b) (hrecord : v.catalog.records.get? r = some record)
    (hkey : (v.catalog.resolveKey record.keyId v.ring).1 = .ok key)
    (hobject : v.object? volume r = some bs) :
    (v.fetch r volume).1 =
      if Crc32.ofBytes bs = record.crc32 then
        Codec.decode r bs key record.isCompressed
      else .error (.ofIo (.mismatch
        ⟨.crc32, Hex.ofWord record.crc32, Hex.ofWord (Crc32.ofBytes bs)⟩)) := by
  rw [object?_of_mounted hb] at hobject
  have hanswer := Storage.fetch_of_object hp hobject
  rw [fetch, beginFetch_of_record hb hrecord hkey]
  simp only [rawFetch, Fetch.finish, hanswer, checked_ok, Stream.content_ofBytes]
  by_cases h : Crc32.ofBytes bs = record.crc32 <;> simp [h]

/-- What is not there cannot be fetched. -/
theorem fetch_of_no_object (hs : v.Separate) (hb : v.mounts.get? volume = some b)
    (hobject : v.object? volume r = none) : ∃ fault, (v.fetch r volume).1 = .error fault := by
  rw [object?_of_mounted hb] at hobject
  rw [fetch, beginFetch, backendOf_of_mounted hb]
  simp only
  cases hfind : v.catalog.findBlob r v.ring with
  | mk answer ring =>
    cases answer with
    | error fault => exact ⟨_, rfl⟩
    | ok found =>
      simp only [rawFetch, Fetch.finish]
      cases ha : (v.storage.fetch b r).1 with
      | error fault => exact ⟨_, rfl⟩
      | ok s =>
        obtain ⟨fault, hfault⟩ := Storage.fetch_of_no_object (hs.plain volume b hb) hobject ha
        rw [checked_ok, hfault]
        exact ⟨_, rfl⟩

theorem quiet_beginFetch (v : Vault) (r : Ref) (volume : VolumeId) :
    Quiet v (v.beginFetch r volume).2 := by
  unfold beginFetch
  cases v.backendOf volume with
  | error fault => exact .refl v
  | ok b =>
    obtain ⟨ids, hids⟩ := Catalog.findBlob_snd v.catalog r v.ring
    cases hfind : v.catalog.findBlob r v.ring with
    | mk answer ring =>
      rw [hfind] at hids
      obtain rfl : ring = v.catalog.ringAfter v.ring ids := hids
      cases answer with
      | error fault => simpa only [hfind] using Quiet.ofRing v ids
      | ok found => simpa only [hfind] using Quiet.ofRing v ids

/-- A fetch leaves no trace. -/
theorem quiet_fetch (v : Vault) (r : Ref) (volume : VolumeId) :
    Quiet v (v.fetch r volume).2 := by
  have hbegin := quiet_beginFetch v r volume
  unfold fetch
  cases hf : v.beginFetch r volume with
  | mk answer v' =>
    rw [hf] at hbegin
    cases answer with
    | error fault => exact hbegin
    | ok f => exact hbegin.trans (quiet_rawFetch v' f.backend r)

/-- A scrub leaves no trace. -/
theorem quiet_scrub (v : Vault) (r : Ref) (volume : VolumeId) :
    Quiet v (v.scrub r volume).2 := by
  unfold scrub
  cases v.beginCheck r volume with
  | error fault => exact .refl v
  | ok c => exact quiet_rawFetch v c.backend r

/-! ### Scrubbing -/

/-- A scrub counts the bytes of the object if its checksum is the recorded one. -/
theorem scrub_of_object {record : BlobRecord} {bs : Bytes}
    (hp : (v.storage.backend b).isPlain = true) (hb : v.mounts.get? volume = some b)
    (hrecord : v.catalog.records.get? r = some record) (hobject : v.object? volume r = some bs) :
    (v.scrub r volume).1 =
      if Crc32.ofBytes bs = record.crc32 then .ok bs.length
      else .error (.ofIo (.mismatch
        ⟨.crc32, Hex.ofWord record.crc32, Hex.ofWord (Crc32.ofBytes bs)⟩)) := by
  rw [object?_of_mounted hb] at hobject
  have hbegin : v.beginCheck r volume = .ok ⟨b, r, record.crc32⟩ := by
    rw [beginCheck, backendOf_of_mounted hb]
    simp only [Catalog.checksumOf, Catalog.findRecord_eq_ok.2 hrecord]
  rw [scrub, hbegin]
  simp only [rawFetch, Check.finish, Storage.fetch_of_object hp hobject, checked_ok,
    Stream.content_ofBytes]
  by_cases h : Crc32.ofBytes bs = record.crc32 <;> simp [h]

/-! ### Replicating -/

theorem beginCopy_of_record {source target : VolumeId} {b' : BackendId} {record : BlobRecord}
    (hb : v.mounts.get? source = some b) (hb' : v.mounts.get? target = some b')
    (hrecord : v.catalog.records.get? r = some record) :
    v.beginCopy source target r = .ok ⟨b, b', target, r, record.crc32⟩ := by
  rw [beginCopy, backendOf_of_mounted hb, backendOf_of_mounted hb']
  simp only [Catalog.checksumOf, Catalog.findRecord_eq_ok.2 hrecord]

/-- What is passed on when an object is copied: its bytes, and a failure at the end if they do not
have the recorded checksum. -/
def passedOn (record : BlobRecord) (bs : Bytes) : Stream :=
  (VerifiedStream.ofCrc32 (.ofBytes bs) record.crc32).toStream

theorem content_passedOn (record : BlobRecord) (bs : Bytes) :
    (passedOn record bs).content =
      if Crc32.ofBytes bs = record.crc32 then .ok bs
      else .error (.mismatch
        ⟨.crc32, Hex.ofWord record.crc32, Hex.ofWord (Crc32.ofBytes bs)⟩) := by
  rw [passedOn, VerifiedStream.content_toStream, VerifiedStream.content_ofCrc32,
    Stream.content_ofBytes]

theorem passedOn_of_eq {record : BlobRecord} {bs : Bytes}
    (h : Crc32.ofBytes bs = record.crc32) : passedOn record bs = .ofParts bs none := by
  have hdrain : (Stream.ofBytes bs).drain.bytes = bs ∧ (Stream.ofBytes bs).drain.fault? = none := by
    cases bs <;> simp [Stream.ofBytes, Stream.drain]
  simp only [passedOn, VerifiedStream.toStream, VerifiedStream.readAll, VerifiedStream.ofCrc32,
    hdrain, VerifiedStream.conclude, Verifier.verify, Verifier.check_update_ofCrc32, if_pos h]

/-- A replication answers what the target answers to the object, and then what the catalog answers
to the confirmation. -/
theorem replicate_of_object {source target : VolumeId} {b' : BackendId} {record : BlobRecord}
    {bs : Bytes} (hp : (v.storage.backend b).isPlain = true)
    (hb : v.mounts.get? source = some b) (hb' : v.mounts.get? target = some b')
    (hrecord : v.catalog.records.get? r = some record) (hobject : v.object? source r = some bs) :
    match (v.storage.store b' r (passedOn record bs)).1 with
    | .error fault => v.replicate source target r =
        (.error fault, ((v.rawFetch b r).2.rawStore b' r (passedOn record bs)).2)
    | .ok () => (v.replicate source target r).1 = match v.catalog.confirm r target with
        | .error fault => .error (.ofCatalog fault)
        | .ok _ => .ok () := by
  rw [object?_of_mounted hb] at hobject
  have hanswer : v.rawFetch b r = (.ok (.ofBytes bs), (v.rawFetch b r).2) := by
    rw [← Storage.fetch_of_object hp hobject]
    rfl
  have hcopy : v.replicate source target r =
      Copy.finish ⟨b, b', target, r, record.crc32⟩ (.ok (.ofBytes bs)) (v.rawFetch b r).2 := by
    rw [replicate, beginCopy_of_record hb hb' hrecord]
    simp only
    rw [hanswer]
  -- the fetch before the store makes no difference to what the target answers
  have hstore : ((v.rawFetch b r).2.rawStore b' r (passedOn record bs)).1 =
      (v.storage.store b' r (passedOn record bs)).1 :=
    Storage.fst_store_fetch v.storage b r b' r (passedOn record bs)
  rw [hcopy, ← hstore]
  cases hst : (v.rawFetch b r).2.rawStore b' r (passedOn record bs) with
  | mk outcome v' =>
    have hcatalog : v'.catalog = v.catalog :=
      congrArg (fun answer => answer.2.catalog) hst.symm
    rw [passedOn] at hst
    cases outcome with
    | error fault => simp only [Copy.finish, hst]
    | ok u =>
      simp only [Copy.finish, hst, hcatalog]
      cases v.catalog.confirm r target <;> rfl

theorem beginCopy_eq_ok {source target : VolumeId} {c : Copy}
    (h : v.beginCopy source target r = .ok c) :
    v.mounts.get? source = some c.source ∧ v.mounts.get? target = some c.target ∧
      c.volume = target ∧ c.ref = r ∧
      ∃ record, v.catalog.records.get? r = some record ∧ c.crc32 = record.crc32 := by
  unfold beginCopy at h
  split at h
  · cases h
  · rename_i b hb
    split at h
    · cases h
    · rename_i b' hb'
      unfold Catalog.checksumOf at h
      cases hr : v.catalog.findRecord r with
      | error fault => simp [hr] at h
      | ok record =>
        simp only [hr, Except.ok.injEq] at h
        subst h
        exact ⟨mounted_of_backendOf hb, mounted_of_backendOf hb', rfl, rfl, record,
          Catalog.findRecord_eq_ok.1 hr, rfl⟩

/-- A replication confirms the copy in the catalog, or leaves the catalog alone. -/
theorem catalog_replicate (v : Vault) (source target : VolumeId) (r : Ref) :
    (v.replicate source target r).2.catalog = v.catalog ∨
      v.catalog.confirm r target = .ok (v.replicate source target r).2.catalog := by
  unfold replicate
  cases hc : v.beginCopy source target r with
  | error fault => exact .inl rfl
  | ok c =>
    obtain ⟨-, -, rfl, rfl, -⟩ := beginCopy_eq_ok hc
    exact c.catalog_finish (v.rawFetch c.source c.ref).1 (v.rawFetch c.source c.ref).2

/-- The state after a copy that was stored, which then has to be confirmed. -/
structure Copied (source target : VolumeId) (r : Ref) (v v' : Vault) : Prop where
  recorded : ∃ record, v.catalog.records.get? r = some record
  mounted : ∃ b, v.mounts.get? target = some b
  landed : ∃ bs, v.object? source r = some bs ∧ Landed target r bs v v'

theorem replicate_spec (hs : v.Separate) (source target : VolumeId) (r : Ref) :
    ((∃ fault, (v.replicate source target r).1 = .error fault) ∧
      Quiet v (v.replicate source target r).2) ∨
    ∃ v', Copied source target r v v' ∧
      v.replicate source target r = (match v'.catalog.confirm r target with
        | .error fault => (.error (.ofCatalog fault), v')
        | .ok catalog => (.ok (), { v' with catalog := catalog })) := by
  cases hc : v.beginCopy source target r with
  | error fault =>
    rw [replicate, hc]
    exact .inl ⟨⟨fault, rfl⟩, .refl v⟩
  | ok c =>
    obtain ⟨hsource, htarget, hvolume, href, record, hrecord, hcrc⟩ := beginCopy_eq_ok hc
    have hquiet := quiet_rawFetch v c.source r
    have hsep := hquiet.follows.separate hs
    rw [replicate, hc]
    simp only
    cases hf : v.rawFetch c.source r with
    | mk answer v₁ =>
      rw [hf] at hquiet hsep
      simp only
      cases answer with
      | error fault => exact .inl ⟨⟨fault, rfl⟩, hquiet⟩
      | ok s =>
        have htarget₁ : v₁.mounts.get? target = some c.target := by
          rw [hquiet.follows.mounts]
          exact htarget
        have hstore := rawStore_spec hsep htarget₁ c.ref (VerifiedStream.ofCrc32 s c.crc32).toStream
        simp only [Copy.finish]
        cases hst : v₁.rawStore c.target c.ref (VerifiedStream.ofCrc32 s c.crc32).toStream with
        | mk outcome v₂ =>
          rw [hst] at hstore
          cases outcome with
          | error fault => exact .inl ⟨⟨fault, rfl⟩, hquiet.trans hstore⟩
          | ok u =>
            obtain ⟨bs, hbs, hlanded⟩ := hstore
            rw [VerifiedStream.content_toStream, VerifiedStream.content_ofCrc32] at hbs
            rw [href] at hlanded
            refine .inr ⟨v₂, ⟨⟨record, hrecord⟩, ⟨c.target, htarget⟩, bs, ?_,
              hquiet.landed hlanded⟩, by subst href hvolume; rfl⟩
            -- what was passed on is what the source holds
            rw [object?_of_mounted hsource]
            have hs₁ : (v.storage.fetch c.source r).1 = .ok s := congrArg Prod.fst hf
            cases ho : v.storage.object? c.source r with
            | none =>
              obtain ⟨fault, hfault⟩ :=
                Storage.fetch_of_no_object (hs.plain source c.source hsource) ho hs₁
              rw [hfault] at hbs
              cases hbs
            | some bs' =>
              rw [Storage.fetch_of_object (hs.plain source c.source hsource) ho] at hs₁
              obtain rfl := Except.ok.inj hs₁
              rw [Stream.content_ofBytes] at hbs
              dsimp only at hbs
              split at hbs
              · rw [Except.ok.inj hbs]
              · cases hbs

end Vault

end BlobVault
