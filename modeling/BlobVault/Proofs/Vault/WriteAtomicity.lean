import BlobVault.Proofs.Storage.Effects
import BlobVault.Proofs.Stream.Reading
import BlobVault.Proofs.Vault.Rotation

/-!
# Writes are all or nothing

A write that succeeds has made one record and one object, and has counted them on the volume.  One
that fails has changed nothing, whatever else is there: only where a volume is mounted that the
catalog does not know can an object be left behind.

* `Vault.Untouched` : nothing has changed;
* `Vault.Deposited` : one object has been put on a mounted volume;
* `Vault.Orphaned` : an object was left on a volume that the catalog does not know;
* `Vault.Written` : all that a write that succeeds has done;
* `Vault.write_ok_iff` : when a write succeeds;
* `Vault.write_all_or_nothing` : **a write does all of it, or leaves nothing but an orphan**,
  however its content comes.
-/

namespace BlobVault

namespace Vault

variable {v v' v'' : Vault} {volume : VolumeId} {b : BackendId} {r : Ref} {bs : Bytes}

/-- Nothing has changed between the two vaults but the data keys in the cache and what was asked
for. -/
structure Untouched (v v' : Vault) : Prop where
  mounts : v'.mounts = v.mounts
  keys : v'.ring.keys = v.ring.keys
  catalog : v'.catalog = v.catalog
  storage : v.storage.Same v'.storage

/-- An object has been put on a mounted volume between the two vaults; the mounts, the registered
keys, and all other objects are what they were. -/
structure Deposited (v v' : Vault) (volume : VolumeId) (r : Ref) (bs : Bytes) : Prop where
  mounts : v'.mounts = v.mounts
  keys : v'.ring.keys = v.ring.keys
  storage : ∃ b, v.mounts.get? volume = some b ∧ v.storage.Puts v'.storage b r bs

/-- An object has been left on a mounted volume that the catalog does not know, and nothing else has
changed. -/
structure Orphaned (v v' : Vault) (volume : VolumeId) (r : Ref) (wished : Bytes → Prop) :
    Prop where
  unknown : v.catalog.volumes.get? volume = none
  catalog : v'.catalog = v.catalog
  object : ∃ bs, wished bs ∧ Deposited v v' volume r bs

namespace Untouched

theorem refl (v : Vault) : Untouched v v := ⟨rfl, rfl, rfl, .refl _⟩

theorem trans (h : Untouched v v') (h' : Untouched v' v'') : Untouched v v'' where
  mounts := h'.mounts.trans h.mounts
  keys := h'.keys.trans h.keys
  catalog := h'.catalog.trans h.catalog
  storage := h.storage.trans h'.storage

theorem deposited (h : Untouched v v') (h' : Deposited v' v'' volume r bs) :
    Deposited v v'' volume r bs where
  mounts := h'.mounts.trans h.mounts
  keys := h'.keys.trans h.keys
  storage := by
    obtain ⟨b, hb, hputs⟩ := h'.storage
    exact ⟨b, by rw [← h.mounts, hb], h.storage.puts hputs⟩

end Untouched

/-- A change of the catalog is not a change of the objects. -/
theorem Deposited.withCatalog (h : Deposited v v' volume r bs) (c : Catalog) :
    Deposited v { v' with catalog := c } volume r bs :=
  ⟨h.mounts, h.keys, h.storage⟩

/-- Fetching from a backend touches nothing. -/
theorem untouched_rawFetch (v : Vault) (b : BackendId) (r : Ref) :
    Untouched v (v.rawFetch b r).2 :=
  ⟨rfl, rfl, rfl, Storage.same_fetch v.storage b r⟩

/-- Storing on a mounted backend deposits the content or touches nothing. -/
theorem rawStore_effect (hb : v.mounts.get? volume = some b) (r : Ref) (content : Stream) :
    match (v.rawStore b r content).1 with
    | .ok () => ∃ bs, content.content = .ok bs ∧
        Deposited v (v.rawStore b r content).2 volume r bs
    | .error _ => Untouched v (v.rawStore b r content).2 := by
  have heffect := Storage.store_effect v.storage b r content
  show match (v.storage.store b r content).1 with | .ok () => _ | .error _ => _
  cases hanswer : (v.storage.store b r content).1 with
  | error fault =>
    rw [hanswer] at heffect
    exact ⟨rfl, rfl, rfl, heffect⟩
  | ok u =>
    rw [hanswer] at heffect
    obtain ⟨bs, hbs, hputs⟩ := heffect
    exact ⟨bs, hbs, rfl, rfl, b, hb, hputs⟩

/-! ### Writes -/

/-- The bytes are what is stored of a content that has the reference, under the key of the
collection. -/
def Prepared (v : Vault) (collection : String) (r : Ref) (content : Stream) (hint : Bool)
    (bs : Bytes) : Prop :=
  ∃ plain key, content.content = .ok plain ∧ Ref.ofContent plain = r ∧
    (v.catalog.keyForNew collection v.ring).1 = .ok key ∧
    bs = (Codec.encode r plain key hint).ciphertext

/-- All that a write does: there is one record more and one object more, and the volume counts
it. -/
structure Written (v v' : Vault) (volume : VolumeId) (collection : String) (r : Ref)
    (content : Stream) (hint : Bool) (record : BlobRecord) : Prop where
  accepted : ∃ plain, content.content = .ok plain ∧ Ref.ofContent plain = r
  fresh : v.catalog.records.get? r = none
  named : record.ref = r
  catalog : ∃ known, v.catalog.volumes.get? volume = some known ∧
    v'.catalog = { v.catalog with
      records := v.catalog.records.insert r record
      volumes := v.catalog.volumes.insert volume (known.holding record) }
  object : ∃ bs, v.Prepared collection r content hint bs ∧ Deposited v v' volume r bs ∧
    bs.length = record.sizeOnDisk ∧ Crc32.ofBytes bs = record.crc32

end Vault

namespace Write

variable {w : Write} {v : Vault} {plain : Bytes} {key : DataKey} {record : BlobRecord}

/-- Looking for the key of a collection touches nothing. -/
theorem untouched_keyed (w : Write) (v : Vault) : v.Untouched (w.keyed v) := by
  obtain ⟨ids, hids⟩ := v.catalog.keyForNew_snd w.collection v.ring
  refine ⟨rfl, ?_, rfl, .refl _⟩
  rw [keyed, hids]
  exact (Catalog.fixed_ringAfter v.catalog v.ring ids).1

/-- Storing the ciphertext deposits it or touches nothing. -/
theorem storing_effect (hb : v.mounts.get? w.volume = some w.backend) (plain : Bytes)
    (key : DataKey) :
    match (w.storing plain key v).1 with
    | .ok () => v.Deposited (w.storing plain key v).2 w.volume w.ref (w.stored plain key).2
    | .error _ => v.Untouched (w.storing plain key v).2 := by
  have hkeyed := untouched_keyed w v
  have heffect := Vault.rawStore_effect (v := w.keyed v) hb w.ref (.ofBytes (w.stored plain key).2)
  rw [← storing] at heffect
  cases hanswer : (w.storing plain key v).1 with
  | error fault =>
    rw [hanswer] at heffect
    exact hkeyed.trans heffect
  | ok u =>
    rw [hanswer] at heffect
    obtain ⟨bs, hbs, hdeposited⟩ := heffect
    rw [Stream.content_ofBytes] at hbs
    obtain rfl := Except.ok.inj hbs
    exact hkeyed.deposited hdeposited

theorem prepared_stored (haccepts : w.Accepts plain)
    (hkey : (v.catalog.keyForNew w.collection v.ring).1 = .ok key) :
    v.Prepared w.collection w.ref w.content w.hint (w.stored plain key).2 :=
  ⟨plain, key, haccepts.1, haccepts.2, hkey, rfl⟩

/-- The record of a new blob lists its volume already. -/
theorem arrived_listed_stored (w : Write) (plain : Bytes) (key : DataKey) :
    ((w.stored plain key).1.arrived w.volume).listed w.volume = (w.stored plain key).1 := by
  simp [stored, recordOf, BlobRecord.arrived, BlobRecord.listed, BlobRecord.isOn]

/-- If there is a record, nothing happens. -/
theorem run_of_hasRecord (h : w.phase = .checking) (hrecord : v.catalog.hasRecord w.ref = true) :
    w.run v = (.error (.alreadyExists (.blob w.ref)), v) := by
  rw [run_step (by rw [h]; rfl), step_checking h, if_pos hrecord]
  exact run_of_outcome? rfl v

/-- A run that succeeds has done all that a write does. -/
theorem written_of_run (h : w.phase = .checking) (hb : v.mounts.get? w.volume = some w.backend)
    (hok : (w.run v).1 = .ok record) :
    v.Written (w.run v).2 w.volume w.collection w.ref w.content w.hint record := by
  obtain ⟨plain, key, hsucceeds⟩ := succeeds_of_run h hok
  obtain ⟨catalog, hcreate, hresult⟩ := hsucceeds.recorded
  obtain ⟨hfresh, known, hknown, rfl⟩ := Catalog.create_eq_ok hcreate
  have heffect := storing_effect hb plain key
  rw [hsucceeds.stored] at heffect
  rw [hresult] at hok ⊢
  obtain rfl := Except.ok.inj hok
  rw [arrived_listed_stored]
  exact
    { accepted := ⟨plain, hsucceeds.accepts⟩
      fresh := hfresh
      named := rfl
      catalog := ⟨known, hknown, rfl⟩
      object := ⟨_, prepared_stored hsucceeds.accepts hsucceeds.resolved,
        heffect.withCatalog _, rfl, rfl⟩ }

/-- A run that fails leaves nothing but an orphan. -/
theorem traces_of_run (h : w.phase = .checking) (hb : v.mounts.get? w.volume = some w.backend)
    {fault : Fault} (herror : (w.run v).1 = .error fault) :
    v.Untouched (w.run v).2 ∨ v.Orphaned (w.run v).2 w.volume w.ref
      (v.Prepared w.collection w.ref w.content w.hint) := by
  cases hrecord : v.catalog.hasRecord w.ref with
  | true =>
    rw [run_of_hasRecord h hrecord]
    exact .inl (.refl v)
  | false =>
    rcases run_cases (v := v) h with
      ⟨fault', hrun⟩ | ⟨fault', hrun⟩ | ⟨plain, key, haccepts, hkey, hrun⟩
    · rw [hrun]
      exact .inl (.refl v)
    · rw [hrun]
      exact .inl (untouched_keyed w v)
    · have heffect := storing_effect hb plain key
      rw [hrun] at herror ⊢
      cases hstore : (w.storing plain key v).1 with
      | error fault' =>
        rw [hstore] at heffect
        exact .inl heffect
      | ok u =>
        rw [hstore] at heffect herror
        refine .inr ?_
        -- the object is there, and only a volume that is not known can still be in the way
        have hcatalog : (w.storing plain key v).2.catalog = v.catalog := rfl
        have hfresh : v.catalog.hasRecord (w.stored plain key).1.ref = false := hrecord
        cases hknown : v.catalog.volumes.get? w.volume with
        | some known =>
          simp [finish, hcatalog, Catalog.create, hfresh, Catalog.findVolume, hknown] at herror
        | none =>
          simp only [finish, hcatalog, Catalog.create, hfresh, Catalog.findVolume, hknown,
            Bool.false_eq_true, if_false]
          exact ⟨hknown, hcatalog, _, prepared_stored haccepts hkey, heffect⟩

/-- A run whose content is prepared, and that meets neither a record nor a refusal, succeeds. -/
theorem run_ok (h : w.phase = .checking) (hfresh : v.catalog.hasRecord w.ref = false)
    (haccepts : w.Accepts plain) (hkey : (v.catalog.keyForNew w.collection v.ring).1 = .ok key)
    (hstore : (v.storage.store w.backend w.ref (.ofBytes (w.stored plain key).2)).1 = .ok ())
    (hknown : v.catalog.volumes.contains w.volume = true) :
    (w.run v).1 = .ok (w.stored plain key).1 := by
  have hfresh' : v.catalog.hasRecord (w.stored plain key).1.ref = false := hfresh
  obtain ⟨known, hcreate⟩ := Catalog.create_of_fresh hfresh' hknown
  obtain ⟨v', hsteps, -⟩ := steps_create haccepts hkey hstore hcreate
  rw [run_step (by rw [h]; rfl), step_checking h, hfresh, if_neg Bool.false_ne_true]
  rw [run_of_steps (n := 4) (by rw [hsteps]; rfl)]

/-- A step looks at the content of its stream, not at how it comes. -/
theorem advance_congr {content : Stream} (h : content.content = w.content.content) (v : Vault) :
    ({ w with content := content } : Write).advance v = w.advance v := by
  unfold advance
  cases w.phase with
  | reading => simp only [VerifiedStream.content_ofRef, h]
  | _ => rfl

/-- What a write comes to depends on the content of its stream alone. -/
theorem run_congr {content : Stream} (h : content.content = w.content.content) (v : Vault) :
    ({ w with content := content } : Write).run v = w.run v := by
  induction hn : w.phase.distance using Nat.strongRecOn generalizing w v with
  | ind n ih =>
    subst hn
    cases ho : w.phase.outcome? with
    | some outcome =>
      rw [run_of_outcome? ho, run_of_outcome? (w := { w with content := content }) ho]
    | none =>
      rw [run_step ho, run_step (w := { w with content := content }) ho]
      have hstep : ({ w with content := content } : Write).step v =
          ({ (w.step v).1 with content := content }, (w.step v).2) := by
        rw [step, step, advance_congr h]
      rw [hstep]
      exact ih _ (distance_step w v ho) (w := (w.step v).1) h _ rfl

/-- No step of a write asks a backend for anything. -/
theorem asked_run (h : w.phase = .checking) (b : BackendId) :
    ((w.run v).2.storage.shelf? b).map (·.asked) = (v.storage.shelf? b).map (·.asked) := by
  rcases run_cases (v := v) h with ⟨fault, hrun⟩ | ⟨fault, hrun⟩ | ⟨plain, key, -, -, hrun⟩
  · rw [hrun]
  · rw [hrun]
    rfl
  · have hstorage : (w.run v).2.storage = (w.storing plain key v).2.storage := by
      rw [hrun]
      cases (w.storing plain key v).1 with
      | error fault => rfl
      | ok u =>
        dsimp only
        unfold finish
        cases (w.storing plain key v).2.catalog.create (w.stored plain key).1 w.volume <;> rfl
    rw [hstorage]
    exact Storage.asked_store v.storage w.backend w.ref _ b

end Write

namespace Vault

variable {v v' : Vault} {volume : VolumeId} {r : Ref} {collection : String} {content : Stream}
  {hint : Bool} {record : BlobRecord} {bs : Bytes}

/-- A write on a volume that is not mounted fails at once, and any other runs. -/
theorem write_cases (v : Vault) (volume : VolumeId) (collection : String) (r : Ref)
    (content : Stream) (hint : Bool) :
    (v.mounts.get? volume = none ∧ v.write volume collection r content hint =
      (.error (.capability (.notMounted volume)), v)) ∨
    ∃ b, v.mounts.get? volume = some b ∧ v.write volume collection r content hint =
      Write.run ⟨volume, b, collection, r, content, hint, .checking⟩ v := by
  cases hb : v.mounts.get? volume with
  | none => exact .inl ⟨rfl, by simp [write, beginWrite, backendOf, hb]⟩
  | some b => exact .inr ⟨b, rfl, by simp [write, beginWrite, backendOf, hb]⟩

theorem written_of_write (hok : (v.write volume collection r content hint).1 = .ok record) :
    Written v (v.write volume collection r content hint).2 volume collection r content hint
      record := by
  rcases write_cases v volume collection r content hint with ⟨-, hwrite⟩ | ⟨b, hb, hwrite⟩
  · rw [hwrite] at hok
    cases hok
  · rw [hwrite] at hok ⊢
    exact Write.written_of_run rfl hb hok

theorem traces_of_write {fault : Fault}
    (herror : (v.write volume collection r content hint).1 = .error fault) :
    Untouched v (v.write volume collection r content hint).2 ∨
      Orphaned v (v.write volume collection r content hint).2 volume r
        (v.Prepared collection r content hint) := by
  rcases write_cases v volume collection r content hint with ⟨-, hwrite⟩ | ⟨b, hb, hwrite⟩
  · rw [hwrite]
    exact .inl (.refl v)
  · rw [hwrite] at herror ⊢
    exact Write.traces_of_run rfl hb herror

theorem asked_write (v : Vault) (volume : VolumeId) (collection : String) (r : Ref)
    (content : Stream) (hint : Bool) (b : BackendId) :
    ((v.write volume collection r content hint).2.storage.shelf? b).map (·.asked) =
      (v.storage.shelf? b).map (·.asked) := by
  rcases write_cases v volume collection r content hint with ⟨-, hwrite⟩ | ⟨b', -, hwrite⟩
  · rw [hwrite]
  · rw [hwrite]
    exact Write.asked_run rfl b

theorem write_of_hasRecord (hmounted : v.isMounted volume = true)
    (hrecord : v.catalog.hasRecord r = true) (collection : String) (content : Stream)
    (hint : Bool) :
    v.write volume collection r content hint = (.error (.alreadyExists (.blob r)), v) := by
  rcases write_cases v volume collection r content hint with ⟨hnone, -⟩ | ⟨b, -, hwrite⟩
  · rw [isMounted, OrderedMap.contains_eq_false.2 hnone] at hmounted
    cases hmounted
  · rw [hwrite]
    exact Write.run_of_hasRecord rfl hrecord

/-- Two streams with the same content are written alike. -/
theorem write_congr {content' : Stream} (h : content'.content = content.content) (v : Vault)
    (volume : VolumeId) (collection : String) (r : Ref) (hint : Bool) :
    v.write volume collection r content' hint = v.write volume collection r content hint := by
  unfold write beginWrite
  cases v.backendOf volume with
  | error fault => rfl
  | ok b => exact Write.run_congr (w := ⟨volume, b, collection, r, content, hint, .checking⟩) h v

/-- When a write succeeds. -/
theorem write_ok_iff :
    (∃ record, (v.write volume collection r content hint).1 = .ok record) ↔
      ∃ b bs, v.mounts.get? volume = some b ∧ v.catalog.hasRecord r = false ∧
        v.Prepared collection r content hint bs ∧
        (v.storage.store b r (.ofBytes bs)).1 = .ok () ∧
        v.catalog.volumes.contains volume = true := by
  rcases write_cases v volume collection r content hint with ⟨hnone, hwrite⟩ | ⟨b, hb, hwrite⟩
  · rw [hwrite]
    simp [hnone]
  · rw [hwrite]
    constructor
    · rintro ⟨record, hok⟩
      obtain ⟨plain, key, hsucceeds⟩ := Write.succeeds_of_run rfl hok
      obtain ⟨catalog, hcreate, -⟩ := hsucceeds.recorded
      obtain ⟨hfresh, known, hknown, -⟩ := Catalog.create_eq_ok hcreate
      exact ⟨b, _, hb, OrderedMap.contains_eq_false.2 hfresh,
        Write.prepared_stored hsucceeds.accepts hsucceeds.resolved, hsucceeds.stored,
        OrderedMap.contains_of_get? hknown⟩
    · rintro ⟨b', bs, hb', hfresh, ⟨plain, key, hplain, href, hkey, rfl⟩, hstore, hknown⟩
      obtain rfl := Option.some.inj (hb.symm.trans hb')
      exact ⟨_, Write.run_ok rfl hfresh ⟨hplain, href⟩ hkey hstore hknown⟩

/-- **A write does all of it, or leaves nothing but an orphan.**  It adds nothing to what was asked
of any backend.  If the blob has a record, nothing changes at all.  It depends on the stream only
through the bytes that a reader gets, and it succeeds exactly if the content can be prepared, its
volume is mounted and known, there is no record, and the backend does not refuse. -/
theorem write_all_or_nothing (v : Vault) (volume : VolumeId) (collection : String) (r : Ref)
    (content : Stream) (hint : Bool) :
    let result := v.write volume collection r content hint
    (∀ record, result.1 = .ok record →
      Written v result.2 volume collection r content hint record) ∧
    (∀ fault, result.1 = .error fault → Untouched v result.2 ∨
      Orphaned v result.2 volume r (v.Prepared collection r content hint)) ∧
    (∀ b, (result.2.storage.shelf? b).map (·.asked) = (v.storage.shelf? b).map (·.asked)) ∧
    (v.isMounted volume = true → v.catalog.hasRecord r = true →
      result = (.error (.alreadyExists (.blob r)), v)) ∧
    (∀ bs rest, Reads Stream.read content bs none rest →
      result = v.write volume collection r (.ofBytes bs) hint) ∧
    ((∃ record, result.1 = .ok record) ↔ ∃ b bs, v.mounts.get? volume = some b ∧
      v.catalog.hasRecord r = false ∧ v.Prepared collection r content hint bs ∧
      (v.storage.store b r (.ofBytes bs)).1 = .ok () ∧
      v.catalog.volumes.contains volume = true) := by
  refine ⟨fun record => written_of_write, fun fault => traces_of_write,
    asked_write v volume collection r content hint,
    fun hmounted hrecord => write_of_hasRecord hmounted hrecord collection content hint,
    fun bs rest hreads => ?_, write_ok_iff⟩
  have hcontent : content.content = (Stream.ofBytes bs).content := by
    rw [Stream.content_ofBytes, Stream.content_eq_ok]
    exact ⟨rest, hreads⟩
  exact write_congr hcontent v volume collection r hint

/-- A blob is written from a stream that comes in two pieces, and cannot be written again. -/
theorem write_all_or_nothing_sample :
    (∃ record,
      (BlobVault.Sample.vault.write 1 "photos" Sample.named (.ofBytes Sample.plain) false).1 =
        .ok record ∧
      BlobVault.Sample.vault.Written Sample.published 1 "photos" Sample.named
        (.ofBytes Sample.plain) false record) ∧
    BlobVault.Sample.vault.write 1 "photos" Sample.named [.bytes [1], .bytes [2, 3]] false =
      BlobVault.Sample.vault.write 1 "photos" Sample.named (.ofBytes Sample.plain) false ∧
    Sample.published.write 1 "photos" Sample.named (.ofBytes Sample.plain) false =
      (.error (.alreadyExists (.blob Sample.named)), Sample.published) := by
  obtain ⟨⟨record, hok⟩, -⟩ := Sample.write_photo
  have hwritten := (write_all_or_nothing BlobVault.Sample.vault 1 "photos" Sample.named
    (.ofBytes Sample.plain) false).1 record hok
  rw [← afterWrite, ← Sample.published] at hwritten
  have hpieces : Reads Stream.read [.bytes [1], .bytes [2, 3]] Sample.plain none [] :=
    Stream.reads_iff.2 rfl
  have hmounted : Sample.published.isMounted 1 = true := by
    rw [isMounted, Sample.follows_published.mounts]
    rfl
  have hrecord : Sample.published.catalog.hasRecord Sample.named = true := by
    obtain ⟨known, -, hcatalog⟩ := hwritten.catalog
    refine OrderedMap.contains_of_get? (a := record) ?_
    rw [hcatalog]
    exact OrderedMap.get?_insert_self _ _ _
  obtain ⟨-, -, -, -, hreads, -⟩ := write_all_or_nothing BlobVault.Sample.vault 1 "photos"
    Sample.named [.bytes [1], .bytes [2, 3]] false
  obtain ⟨-, -, -, hagain, -, -⟩ := write_all_or_nothing Sample.published 1 "photos" Sample.named
    (.ofBytes Sample.plain) false
  exact ⟨⟨record, hok, hwritten⟩, hreads _ _ hpieces, hagain hmounted hrecord⟩

end Vault

end BlobVault
