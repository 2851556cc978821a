import BlobVault.Proofs.Keys.Recall
import BlobVault.Proofs.Vault.Verification
import BlobVault.Proofs.Vault.Write

/-!
# Changing the key of a collection

Adding an envelope files it under its identifier, and there is one envelope to an identifier.  So a
blob that was written under an identifier stays readable as long as the envelope of that identifier
holds the same data key, or as long as the old data key is in the cache.

* `Vault.ReadableBy` : a data key deciphers what a volume holds of a blob;
* `Vault.fetch_adding` : **what stays readable when an envelope is added**, before and after the
  cache is emptied, and what can be read of the blobs that are written next;
* `Vault.unreadable_sample` : an envelope takes the place of another one, and its blobs are lost.
-/

namespace BlobVault

namespace Codec

/-- What is decoded depends on the bytes of the key alone. -/
theorem decode_congr {key key' : DataKey} (h : key.bytes = key'.bytes) (r : Ref)
    (ciphertext : Bytes) (isCompressed : Bool) :
    decode r ciphertext key isCompressed = decode r ciphertext key' isCompressed := by
  rw [decode, decode, DataKey.apply, DataKey.apply, h]

end Codec

namespace Vault

/-- The vault after an envelope was added for a collection. -/
def adding (v : Vault) (name : String) (e : Envelope) : Vault :=
  { v with catalog := v.catalog.addCollection name e }

/-- The vault after its cache was emptied. -/
def flushed (v : Vault) : Vault := { v with ring := v.ring.clearCache }

/-- The vault after a write, whatever came of it. -/
def afterWrite (v : Vault) (volume : VolumeId) (collection : String) (r : Ref) (content : Stream)
    (hint : Bool) : Vault :=
  (v.write volume collection r content hint).2

/-- A data key deciphers what a volume holds of a blob. -/
def ReadableBy (v : Vault) (r : Ref) (volume : VolumeId) (dek plain : Bytes) : Prop :=
  ∃ b record s bytes rest, ∃ key : DataKey, key.bytes = dek ∧ v.mounts.get? volume = some b ∧
    v.catalog.records.get? r = some record ∧ (v.rawFetch b r).1 = .ok s ∧
    Reads Stream.read s bytes none rest ∧ Crc32.ofBytes bytes = record.crc32 ∧
    Codec.decode r bytes key record.isCompressed = .ok plain

/-- Every envelope is filed under its own identifier, and there is room in the cache.  So it is in
an empty vault, and nothing changes it. -/
structure Orderly (v : Vault) : Prop where
  filed : ∀ id e, v.catalog.envelopes.get? id = some e → e.keyId = id
  room : 0 < v.ring.cache.capacity

variable {v : Vault} {r : Ref} {volume : VolumeId} {plain : Bytes}

/-! ### Reading a blob -/

/-- A blob is fetched by the data key that its envelope is answered with. -/
theorem fetch_eq_ok_iff : (v.fetch r volume).1 = .ok plain ↔
    ∃ record e dek, v.catalog.records.get? r = some record ∧
      v.catalog.envelopes.get? record.keyId = some e ∧ (v.ring.unwrap e).1 = .ok dek ∧
      v.ReadableBy r volume dek plain := by
  constructor
  · intro h
    obtain ⟨b, hb⟩ : ∃ b, v.mounts.get? volume = some b := by
      rw [fst_fetch] at h
      cases hf : (v.beginFetch r volume).1 with
      | error fault =>
        rw [hf] at h
        cases h
      | ok f => exact ⟨f.backend, (beginFetch_eq_ok hf).1⟩
    obtain ⟨record, key, s, bytes, rest, hrecord, hkey, hfetched⟩ := (fetch_eq_ok hb).1 h
    obtain ⟨-, e, he, hunwrap⟩ := Catalog.resolveKey_eq_ok.1 hkey
    exact ⟨record, e, key.bytes, hrecord, he, hunwrap, b, record, s, bytes, rest, key, rfl, hb,
      hrecord, hfetched⟩
  · rintro ⟨record, e, dek, hrecord, he, hunwrap, b, record', s, bytes, rest, key, rfl, hb,
      hrecord', hs, hreads, hcrc, hdecode⟩
    obtain rfl := Option.some.inj (hrecord.symm.trans hrecord')
    refine (fetch_eq_ok hb).2 ⟨record, ⟨record.keyId, key.bytes, key.length_ok⟩, s, bytes, rest,
      hrecord, Catalog.resolveKey_eq_ok.2 ⟨rfl, e, he, hunwrap⟩, hs, hreads, hcrc, ?_⟩
    rw [← hdecode]
    exact Codec.decode_congr rfl _ _ _

/-- Without a cache, a blob is fetched by what is in the first slot of its envelope that opens. -/
theorem fetch_flushed_eq_ok_iff : (v.flushed.fetch r volume).1 = .ok plain ↔
    ∃ record e dek, v.catalog.records.get? r = some record ∧
      v.catalog.envelopes.get? record.keyId = some e ∧
      KeyRing.openFirst? v.ring.keys e = some dek ∧ v.ReadableBy r volume dek plain := by
  rw [fetch_eq_ok_iff]
  refine exists_congr fun record => exists_congr fun e => exists_congr fun dek =>
    and_congr_right fun _ => and_congr_right fun _ => and_congr ?_ .rfl
  show (v.ring.clearCache.unwrap e).1 = .ok dek ↔ _
  rw [KeyRing.unwrap_clearCache, KeyRing.opened_eq_ok]

/-! ### Adding an envelope -/

variable {name : String} {e : Envelope} {dek : Bytes} {record : BlobRecord}

theorem mounts_adding (v : Vault) (name : String) (e : Envelope) :
    (v.adding name e).mounts = v.mounts := rfl

theorem get?_envelopes_adding (v : Vault) (name : String) (e : Envelope) (id : String) :
    (v.adding name e).catalog.envelopes.get? id =
      if id = e.keyId then some e else v.catalog.envelopes.get? id := by
  rw [adding, Catalog.addCollection, OrderedMap.get?_insert]
  simp only [Std.LawfulEqCmp.compare_eq_iff_eq]

/-- A blob stays readable unless its envelope is replaced by one of another data key, and the old
data key is not in the cache. -/
theorem fetch_adding_iff (hv : v.Orderly) (he : KeyRing.openFirst? v.ring.keys e = some dek)
    (hrecord : v.catalog.records.get? r = some record)
    (hfetch : (v.fetch r volume).1 = .ok plain) :
    ((v.adding name e).fetch r volume).1 = .ok plain ↔
      (record.keyId = e.keyId →
        (v.ring.cache.find? e.keyId).isSome = true ∨ v.ReadableBy r volume dek plain) := by
  obtain ⟨record', e₀, dek₀, hrecord', he₀, hunwrap₀, hreadable⟩ := fetch_eq_ok_iff.1 hfetch
  obtain rfl := Option.some.inj (hrecord.symm.trans hrecord')
  rw [fetch_eq_ok_iff]
  by_cases hid : record.keyId = e.keyId
  · have hget : (v.adding name e).catalog.envelopes.get? record.keyId = some e := by
      rw [get?_envelopes_adding, if_pos hid]
    cases hfind : v.ring.cache.find? e.keyId with
    | some key =>
      -- the cache answers both envelopes alike
      have hsame : e₀.keyId = e.keyId := (hv.filed _ _ he₀).trans hid
      rw [KeyRing.unwrap_of_cached (hsame ▸ hfind)] at hunwrap₀
      obtain rfl := Except.ok.inj hunwrap₀
      have hunwrap : (v.ring.unwrap e).1 = .ok key :=
        congrArg Prod.fst (KeyRing.unwrap_of_cached hfind)
      exact iff_of_true ⟨record, e, key, hrecord, hget, hunwrap, hreadable⟩ fun _ => .inl rfl
    | none =>
      have hunwrap : (v.ring.unwrap e).1 = .ok dek := by
        rw [KeyRing.unwrap_fst_of_not_cached hfind, KeyRing.opened_eq_ok, he]
      constructor
      · rintro ⟨record', e', dek', hrecord', he', hunwrap', hreadable'⟩ -
        obtain rfl := Option.some.inj (hrecord.symm.trans hrecord')
        obtain rfl := Option.some.inj (hget.symm.trans he')
        obtain rfl := Except.ok.inj (hunwrap.symm.trans hunwrap')
        exact .inr hreadable'
      · intro h
        exact ⟨record, e, dek, hrecord, hget, hunwrap, (h hid).resolve_left (by simp)⟩
  · refine iff_of_true ⟨record, e₀, dek₀, hrecord, ?_, hunwrap₀, hreadable⟩ fun h => absurd h hid
    rw [get?_envelopes_adding, if_neg hid, he₀]

/-- Without the cache, a blob whose envelope is replaced is readable exactly if the new envelope
holds its data key; nothing changes for the others. -/
theorem fetch_flushed_adding_iff (he : KeyRing.openFirst? v.ring.keys e = some dek)
    (hrecord : v.catalog.records.get? r = some record) :
    ((v.adding name e).flushed.fetch r volume).1 = .ok plain ↔
      if record.keyId = e.keyId then v.ReadableBy r volume dek plain
      else (v.flushed.fetch r volume).1 = .ok plain := by
  rw [fetch_flushed_eq_ok_iff, fetch_flushed_eq_ok_iff]
  simp only [get?_envelopes_adding]
  show (∃ record' e' dek', v.catalog.records.get? r = some record' ∧ _ ∧
    KeyRing.openFirst? v.ring.keys e' = some dek' ∧ v.ReadableBy r volume dek' plain) ↔ _
  split
  · rename_i hid
    constructor
    · rintro ⟨record', e', dek', hrecord', he', hopen, hreadable⟩
      obtain rfl := Option.some.inj (hrecord.symm.trans hrecord')
      rw [if_pos hid] at he'
      obtain rfl := Option.some.inj he'
      obtain rfl := Option.some.inj (he.symm.trans hopen)
      exact hreadable
    · intro hreadable
      exact ⟨record, e, dek, hrecord, if_pos hid, he, hreadable⟩
  · rename_i hid
    refine exists_congr fun record' => exists_congr fun e' => exists_congr fun dek' =>
      and_congr_right fun hrecord' => and_congr_left' ?_
    obtain rfl := Option.some.inj (hrecord.symm.trans hrecord')
    rw [if_neg hid]

/-! ### Blobs that are written next -/

variable {b : BackendId} {collection : String} {content : Stream} {hint : Bool}

theorem keyForNew_eq_ok {c : Catalog} {ring : KeyRing} {key : DataKey}
    (h : (c.keyForNew collection ring).1 = .ok key) :
    ∃ e, c.collections.get? collection = some key.id ∧ c.envelopes.get? key.id = some e ∧
      (ring.unwrap e).1 = .ok key.bytes ∧ (c.keyForNew collection ring).2 = (ring.unwrap e).2 := by
  cases hid : c.collections.get? collection with
  | none =>
    rw [Catalog.keyForNew, hid] at h
    cases h
  | some id =>
    have hresolve : c.keyForNew collection ring = c.resolveKey id ring := by
      rw [Catalog.keyForNew, hid]
    rw [hresolve] at h ⊢
    obtain ⟨rfl, e, he, hunwrap⟩ := Catalog.resolveKey_eq_ok.1 h
    refine ⟨e, rfl, he, hunwrap, ?_⟩
    rw [Catalog.resolveKey_of_envelope he]

section Succeeded

variable {w : Write} {key : DataKey} {result : Except Fault BlobRecord × Vault}

/-- A write that succeeds leaves a record that describes the ciphertext. -/
theorem record_of_succeeds (h : w.Succeeds v plain key result) :
    ∃ record, result.2.catalog.records.get? w.ref = some record ∧
      record.Describes plain key w.hint ∧ record.ref = w.ref := by
  obtain ⟨catalog, hcreate, rfl⟩ := h.recorded
  refine ⟨((w.stored plain key).1.arrived w.volume).listed w.volume, ?_,
    (Write.describes_recordOf h.accepts key).arrived_listed w.volume,
    BlobRecord.ref_arrived_listed _ _⟩
  rw [(Catalog.create_keeps_keys hcreate).1]
  exact OrderedMap.get?_insert_self _ _ _

/-- A write that succeeds leaves its ciphertext on the volume. -/
theorem object_of_succeeds (h : w.Succeeds v plain key result)
    (hb : v.mounts.get? w.volume = some w.backend) :
    result.2.object? w.volume w.ref = some (w.stored plain key).2 := by
  obtain ⟨catalog, -, rfl⟩ := h.recorded
  have hobject := rawStore_self (v := w.keyed v) hb w.ref (.ofBytes (w.stored plain key).2)
  rw [← Write.storing, h.stored] at hobject
  obtain ⟨bs, hbs, hobject⟩ := hobject
  rw [Stream.content_ofBytes] at hbs
  rw [Except.ok.inj hbs]
  exact hobject

/-- A write that succeeds was given the data key of its collection's envelope, which is unwrapped
by then. -/
theorem envelope_of_succeeds (h : w.Succeeds v plain key result) :
    ∃ e, v.catalog.collections.get? w.collection = some key.id ∧
      v.catalog.envelopes.get? key.id = some e ∧ result.2.catalog.envelopes = v.catalog.envelopes ∧
      (v.ring.unwrap e).1 = .ok key.bytes ∧ result.2.ring = (v.ring.unwrap e).2 := by
  obtain ⟨catalog, hcreate, rfl⟩ := h.recorded
  obtain ⟨e, hcollection, he, hunwrap, hring⟩ := keyForNew_eq_ok h.resolved
  exact ⟨e, hcollection, he, (Catalog.create_keeps_keys hcreate).2.1, hunwrap, hring⟩

theorem follows_of_succeeds (h : w.Succeeds v plain key result) : Follows v result.2 := by
  obtain ⟨catalog, hcreate, rfl⟩ := h.recorded
  obtain ⟨-, henvelopes, hcollections⟩ := Catalog.create_keeps_keys hcreate
  obtain ⟨ids, hids⟩ := v.catalog.keyForNew_snd w.collection v.ring
  have hkeyed : Follows v (w.keyed v) := by
    rw [Write.keyed, hids]
    exact .ofRing v ids
  exact (hkeyed.trans (follows_rawStore (w.keyed v) w.backend w.ref _)).trans
    (.ofCatalog henvelopes hcollections)

/-- What a write leaves can be read. -/
theorem fetch_of_succeeds (h : w.Succeeds v plain key result) (hroom : 0 < v.ring.cache.capacity)
    (hb : v.mounts.get? w.volume = some w.backend)
    (hp : (v.storage.backend w.backend).isPlain = true)
    (hrestores : w.hint = true → Gzip.Restores plain) :
    (result.2.fetch w.ref w.volume).1 = .ok plain := by
  obtain ⟨record, hrecord, hdescribes, href⟩ := record_of_succeeds h
  obtain ⟨e, -, he, henvelopes, hunwrap, hring⟩ := envelope_of_succeeds h
  obtain ⟨hmounted, hplain⟩ := (follows_of_succeeds h).serves hb hp
  -- the key is answered once more
  have hkey : (result.2.catalog.resolveKey record.keyId result.2.ring).1 = .ok key := by
    refine Catalog.resolveKey_eq_ok.2 ⟨hdescribes.keyId.symm, e, ?_, ?_⟩
    · rw [henvelopes, hdescribes.keyId, he]
    · rw [hring, KeyRing.unwrap_unwrap hroom, hunwrap]
  have hciphertext : (w.stored plain key).2 =
      (Codec.encode record.ref plain key w.hint).ciphertext := by
    rw [href]
    rfl
  rw [fetch_of_object hplain hmounted hrecord hkey (object_of_succeeds h hb), hciphertext, ← href]
  exact (if_pos hdescribes.crc32.symm).trans (hdescribes.decode hrestores)

/-- Without the cache, what a write leaves can be read if the envelope of its collection holds the
data key that it was written under. -/
theorem fetch_flushed_of_succeeds (h : w.Succeeds v plain key result) :
    ∃ id e, v.catalog.collections.get? w.collection = some id ∧
      v.catalog.envelopes.get? id = some e ∧
      ((result.2.flushed.fetch w.ref w.volume).1 = .ok plain ↔
        ∃ dek, KeyRing.openFirst? v.ring.keys e = some dek ∧
          result.2.ReadableBy w.ref w.volume dek plain) := by
  obtain ⟨record, hrecord, hdescribes, -⟩ := record_of_succeeds h
  obtain ⟨e, hcollection, he, henvelopes, -, hring⟩ := envelope_of_succeeds h
  refine ⟨key.id, e, hcollection, he, ?_⟩
  have hkeys : result.2.ring.keys = v.ring.keys := by
    rw [hring, (KeyRing.fixed_unwrap v.ring e).1]
  have henvelope : result.2.catalog.envelopes.get? record.keyId = some e := by
    rw [henvelopes, hdescribes.keyId, he]
  rw [fetch_flushed_eq_ok_iff, hkeys]
  constructor
  · rintro ⟨record', e', dek, hrecord', he', hopen, hreadable⟩
    obtain rfl := Option.some.inj (hrecord.symm.trans hrecord')
    obtain rfl := Option.some.inj (henvelope.symm.trans he')
    exact ⟨dek, hopen, hreadable⟩
  · rintro ⟨dek, hopen, hreadable⟩
    exact ⟨record, e, dek, hrecord, henvelope, hopen, hreadable⟩

end Succeeded

/-- A write that was successful, as such. -/
theorem succeeds_of_write (hb : v.mounts.get? volume = some b)
    (hplain : content.content = .ok plain)
    (hok : (v.write volume collection r content hint).1 = .ok record) :
    ∃ key, (⟨volume, b, collection, r, content, hint, .checking⟩ : Write).Succeeds v plain key
      (v.write volume collection r content hint) := by
  unfold write beginWrite at hok ⊢
  rw [backendOf_of_mounted hb] at hok ⊢
  obtain ⟨plain', key, hsucceeds⟩ := Write.succeeds_of_run rfl hok
  obtain rfl := Except.ok.inj (hplain.symm.trans hsucceeds.accepts.1)
  exact ⟨key, hsucceeds⟩

theorem follows_afterWrite (hb : v.mounts.get? volume = some b)
    (hplain : content.content = .ok plain)
    (hok : (v.write volume collection r content hint).1 = .ok record) :
    Follows v (v.afterWrite volume collection r content hint) := by
  obtain ⟨key, hsucceeds⟩ := succeeds_of_write hb hplain hok
  exact follows_of_succeeds hsucceeds

/-! ### What stays readable -/

theorem Orderly.adding (hv : v.Orderly) (name : String) (e : Envelope) :
    (v.adding name e).Orderly where
  filed := Catalog.filed_addCollection hv.filed name e
  room := hv.room

theorem Orderly.of_follows {v' : Vault} (hv : v.Orderly) (h : Follows v v') : v'.Orderly where
  filed id e he := by
    rw [h.envelopes] at he
    exact hv.filed id e he
  room := by
    obtain ⟨ids, hids⟩ := h.ring
    rw [hids, (Catalog.fixed_ringAfter v.catalog v.ring ids).2]
    exact hv.room

/-- **What can be read when an envelope is added whose slots can be opened.**  A blob that could be
read before can still be read unless its envelope is replaced by one of a data key that does not
decipher it: then it can be read only as long as the old data key is in the cache.  A blob that is
written next can be read; without the cache, it can be read if its envelope holds the data key that
was answered from the cache when it was written. -/
theorem fetch_adding (hv : v.Orderly) (name : String) {e : Envelope} {dek : Bytes}
    (he : KeyRing.openFirst? v.ring.keys e = some dek) :
    (∀ r volume record plain, v.catalog.records.get? r = some record →
      (v.fetch r volume).1 = .ok plain →
      (((v.adding name e).fetch r volume).1 = .ok plain ↔ (record.keyId = e.keyId →
        (v.ring.cache.find? e.keyId).isSome = true ∨ v.ReadableBy r volume dek plain)) ∧
      (((v.adding name e).flushed.fetch r volume).1 = .ok plain ↔
        if record.keyId = e.keyId then v.ReadableBy r volume dek plain
        else (v.flushed.fetch r volume).1 = .ok plain)) ∧
    ∀ (u : Vault) volume b collection r content hint record plain,
      Follows (v.adding name e) u → v.mounts.get? volume = some b →
      (v.storage.backend b).isPlain = true → content.content = .ok plain →
      (hint = true → Gzip.Restores plain) →
      (u.write volume collection r content hint).1 = .ok record →
      ((u.afterWrite volume collection r content hint).fetch r volume).1 = .ok plain ∧
      ∃ id e', (v.adding name e).catalog.collections.get? collection = some id ∧
        (v.adding name e).catalog.envelopes.get? id = some e' ∧
        (((u.afterWrite volume collection r content hint).flushed.fetch r volume).1 = .ok plain ↔
          ∃ dek', KeyRing.openFirst? v.ring.keys e' = some dek' ∧
            (u.afterWrite volume collection r content hint).ReadableBy r volume dek' plain) := by
  refine ⟨fun r volume record plain hrecord hfetch => ⟨fetch_adding_iff hv he hrecord hfetch,
    fetch_flushed_adding_iff he hrecord⟩, ?_⟩
  intro u volume b collection r content hint record plain hfollows hb hp hplain hrestores hok
  obtain ⟨hmounted, hserves⟩ := hfollows.serves (v := v.adding name e) hb hp
  obtain ⟨key, hsucceeds⟩ := succeeds_of_write hmounted hplain hok
  have hfetch := fetch_of_succeeds hsucceeds ((hv.adding name e).of_follows hfollows).room hmounted
    hserves hrestores
  obtain ⟨id, e', hcollection, henvelope, hflushed⟩ := fetch_flushed_of_succeeds hsucceeds
  obtain ⟨ids, hring⟩ := hfollows.ring
  have hkeys : u.ring.keys = v.ring.keys := by
    rw [hring]
    exact (Catalog.fixed_ringAfter _ _ ids).1
  rw [hfollows.collections] at hcollection
  rw [hfollows.envelopes] at henvelope
  rw [hkeys] at hflushed
  exact ⟨hfetch, id, e', hcollection, henvelope, hflushed⟩

/-- A write that has ended after its five steps. -/
theorem write_of_steps (hb : v.mounts.get? volume = some b) {steps : Write × Vault}
    (hsteps : Write.steps 5 ⟨volume, b, collection, r, content, hint, .checking⟩ v = steps)
    {outcome : Except Fault BlobRecord} (h : steps.1.phase.outcome? = some outcome) :
    (v.write volume collection r content hint).1 = outcome ∧
      v.afterWrite volume collection r content hint = steps.2 := by
  subst hsteps
  rw [afterWrite, write, beginWrite, backendOf_of_mounted hb]
  simp only [Write.run_of_steps h, and_self]

end Vault

/-! ### An envelope that takes the place of another one -/

namespace Sample

/-- A blob was written, and its data key is in the cache. -/
def published : Vault := vault.afterWrite 1 "photos" named (.ofBytes plain) false

/-- Another data key is filed under the identifier of the first one. -/
def rotated : Vault := published.adding "letters" otherEnvelope

/-- The content of a blob that is written next. -/
def note : Bytes := [4, 5]

def noted : Vault := rotated.afterWrite 1 "letters" (Ref.ofContent note) (.ofBytes note) false

/-- The steps of the first write. -/
def photoSteps : Write × Vault :=
  Write.steps 5 ⟨1, 10, "photos", named, .ofBytes plain, false, .checking⟩ vault

/-- The steps of the second write. -/
def noteSteps : Write × Vault :=
  Write.steps 5 ⟨1, 10, "letters", Ref.ofContent note, .ofBytes note, false, .checking⟩
    (photoSteps.2.adding "letters" otherEnvelope)

/-- All that is computed here, in one go. -/
theorem rotation_runs :
    photoSteps.1.phase.outcome?.any (·.isOk) = true ∧
    KeyRing.openFirst? photoSteps.2.ring.keys otherEnvelope = some (List.replicate 16 2) ∧
    (photoSteps.2.ring.cache.find? otherEnvelope.keyId).isSome = true ∧
    (photoSteps.2.fetch named 1).1.toOption = some plain ∧
    ((photoSteps.2.adding "letters" otherEnvelope).flushed.fetch named 1).1.toOption = none ∧
    noteSteps.1.phase.outcome?.any (·.isOk) = true ∧
    (noteSteps.2.flushed.fetch (Ref.ofContent note) 1).1.toOption = none := by
  decide +kernel

theorem ok_of_outcome? {outcome? : Option (Except Fault BlobRecord)}
    (h : outcome?.any (·.isOk) = true) : ∃ record, outcome? = some (.ok record) := by
  match outcome?, h with
  | some (.ok record), _ => exact ⟨record, rfl⟩

theorem write_photo :
    (∃ record, (vault.write 1 "photos" named (.ofBytes plain) false).1 = .ok record) ∧
      published = photoSteps.2 := by
  obtain ⟨record, houtcome⟩ := ok_of_outcome? rotation_runs.1
  obtain ⟨hwrite, hleft⟩ := Vault.write_of_steps (v := vault) rfl photoSteps.eq_def.symm houtcome
  exact ⟨⟨record, hwrite⟩, hleft⟩

theorem follows_published : Vault.Follows vault published := by
  obtain ⟨⟨record, hwrite⟩, -⟩ := write_photo
  exact Vault.follows_afterWrite (v := vault) (b := 10) rfl rfl hwrite

theorem write_note :
    (∃ record, (rotated.write 1 "letters" (Ref.ofContent note) (.ofBytes note) false).1 =
      .ok record) ∧ noted = noteSteps.2 := by
  obtain ⟨-, -, -, -, -, hnote, -⟩ := rotation_runs
  obtain ⟨record, houtcome⟩ := ok_of_outcome? hnote
  have hmounted : rotated.mounts.get? 1 = some 10 := by
    rw [rotated, Vault.mounts_adding, follows_published.mounts]
    rfl
  have hsteps : Write.steps 5 ⟨1, 10, "letters", Ref.ofContent note, .ofBytes note, false,
      .checking⟩ rotated = noteSteps := by
    rw [rotated, write_photo.2, noteSteps]
  obtain ⟨hwrite, hleft⟩ := Vault.write_of_steps hmounted hsteps houtcome
  exact ⟨⟨record, hwrite⟩, hleft⟩

theorem orderly_published : published.Orderly :=
  Vault.Orderly.of_follows
    { filed := Catalog.filed_addCollection
        (Catalog.filed_addCollection (fun _ _ h => by cases h) _ _) _ _
      room := Nat.one_pos }
    follows_published

end Sample

namespace Vault

/-- The blob stays readable while its data key is in the cache, and the next one can be read after
it was written. -/
theorem fetch_adding_sample :
    Sample.published.Orderly ∧
      KeyRing.openFirst? Sample.published.ring.keys Sample.otherEnvelope =
        some (List.replicate 16 2) ∧
      (Sample.published.fetch Sample.named 1).1 = .ok Sample.plain ∧
      (Sample.rotated.fetch Sample.named 1).1 = .ok Sample.plain ∧
      (Sample.noted.fetch (Ref.ofContent Sample.note) 1).1 = .ok Sample.note := by
  obtain ⟨-, hopen, hcached, hfetch, -⟩ := Sample.rotation_runs
  rw [← Sample.write_photo.2] at hopen hcached hfetch
  have hfetch := Sample.eq_ok_of_toOption hfetch
  obtain ⟨hbefore, hnext⟩ := fetch_adding Sample.orderly_published "letters" hopen
  obtain ⟨record, -, -, hrecord, -⟩ := fetch_eq_ok_iff.1 hfetch
  obtain ⟨⟨note, hwrite⟩, -⟩ := Sample.write_note
  refine ⟨Sample.orderly_published, hopen, hfetch,
    (hbefore _ _ _ _ hrecord hfetch).1.2 fun _ => .inl hcached, ?_⟩
  have hmounted : Sample.vault.mounts.get? 1 = some 10 := rfl
  obtain ⟨hmounted, hserves⟩ := Sample.follows_published.serves hmounted rfl
  exact (hnext Sample.rotated 1 10 "letters" _ _ false note _ (.refl _) hmounted hserves rfl
    (fun h => by cases h) hwrite).1

/-- When the cache has been emptied, neither the blob whose envelope was replaced can be read, nor
the one that was written next, under the data key of the old envelope. -/
theorem unreadable_sample :
    KeyRing.openFirst? Sample.published.ring.keys Sample.otherEnvelope =
        some (List.replicate 16 2) ∧
      (Sample.published.fetch Sample.named 1).1 = .ok Sample.plain ∧
      (∀ plain, (Sample.rotated.flushed.fetch Sample.named 1).1 ≠ .ok plain) ∧
      (∃ record, (Sample.rotated.write 1 "letters" (Ref.ofContent Sample.note)
        (.ofBytes Sample.note) false).1 = .ok record) ∧
      ∀ plain, (Sample.noted.flushed.fetch (Ref.ofContent Sample.note) 1).1 ≠ .ok plain := by
  obtain ⟨-, hopen, -, hfetch, hlost, -, hnote⟩ := Sample.rotation_runs
  obtain ⟨hwritten, hnoted⟩ := Sample.write_note
  rw [← Sample.write_photo.2] at hopen hfetch hlost
  rw [← hnoted] at hnote
  refine ⟨hopen, Sample.eq_ok_of_toOption hfetch, fun plain h => ?_,
    hwritten, fun plain h => ?_⟩
  · rw [Sample.rotated] at h
    rw [h] at hlost
    cases hlost
  · rw [h] at hnote
    cases hnote

end Vault

end BlobVault
