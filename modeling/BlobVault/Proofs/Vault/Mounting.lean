import BlobVault.Proofs.Storage.Descriptors
import BlobVault.Proofs.Vault.Verification
import BlobVault.Proofs.Vault.Write
import BlobVault.Vault.Mounting

/-!
# What becomes of descriptors and mounts

The descriptor of a backend says which volume it is.  It shares the backend with the blobs, and with
whatever else is stored there; but once there is a descriptor nothing touches it, and a volume that
is mounted stays mounted where it is.

* `Vault.Carries` : the backend has a descriptor with this identifier;
* `Vault.Upholds`, `Vault.Spares` : descriptors and mounts are kept; nothing is bound either;
* `Vault.mount_eq_ok_iff` : a volume is mounted exactly if the backend carries its identifier and it
  is not mounted yet;
* `Vault.Binds` : **a volume is bound to a backend that carries its identifier, or nothing is**,
  which is so for each way to mount;
* `Vault.Regular.write`, `Vault.Regular.replicate` and so on : every other operation spares them.
-/

namespace BlobVault

namespace Vault

/-- The backends are there and answer as they should, and no blob is known under the reference of
descriptors. -/
structure Regular (v : Vault) : Prop where
  numbered : v.storage.Numbered
  plain : ∀ b, (v.storage.backend b).isPlain = true
  unrecorded : v.catalog.records.get? .descriptor = none
  served : ∀ id b, v.mounts.get? id = some b → v.storage.backends.contains b = true

theorem regular_empty (cacheCapacity : Nat) : (empty cacheCapacity).Regular where
  numbered b := ⟨fun h => (by cases h), fun h => absurd h (Nat.not_lt_zero b)⟩
  plain _ := rfl
  unrecorded := rfl
  served _ _ h := by cases h

/-- Descriptors and mounts are kept, whatever else has happened. -/
structure Upholds (v v' : Vault) : Prop where
  regular : v'.Regular
  backends : ∀ b, v.storage.backends.contains b = true → v'.storage.backends.contains b = true
  descriptors : ∀ b bs, v.storage.object? b .descriptor = some bs →
    v'.storage.object? b .descriptor = some bs
  mounts : ∀ id b, v.mounts.get? id = some b → v'.mounts.get? id = some b

/-- Nothing is bound either. -/
structure Spares (v v' : Vault) : Prop extends Upholds v v' where
  unbound : v'.mounts = v.mounts

/-- The backend has a descriptor with this identifier. -/
def Carries (v : Vault) (b : BackendId) (uuid : Uuid) : Prop :=
  ∃ bs, v.storage.object? b .descriptor = some bs ∧
    readJson Descriptor.shape Descriptor.ofDatum? bs = .ok ⟨uuid⟩

variable {v v' v'' : Vault} {b b' : BackendId} {uuid uuid' : Uuid}

theorem Upholds.refl (h : v.Regular) : Upholds v v := ⟨h, fun _ => id, fun _ _ => id, fun _ _ => id⟩

theorem Upholds.trans (h : Upholds v v') (h' : Upholds v' v'') : Upholds v v'' where
  regular := h'.regular
  backends b hb := h'.backends b (h.backends b hb)
  descriptors b bs hbs := h'.descriptors b bs (h.descriptors b bs hbs)
  mounts id b hb := h'.mounts id b (h.mounts id b hb)

theorem Spares.refl (h : v.Regular) : Spares v v := ⟨.refl h, rfl⟩

theorem Spares.trans (h : Spares v v') (h' : Spares v' v'') : Spares v v'' :=
  ⟨h.toUpholds.trans h'.toUpholds, h'.unbound.trans h.unbound⟩

theorem Carries.of_upholds (h : v.Carries b uuid) (hu : Upholds v v') : v'.Carries b uuid := by
  obtain ⟨bs, hbs, hread⟩ := h
  exact ⟨bs, hu.descriptors b bs hbs, hread⟩

/-- A descriptor carries one identifier, for all backends in its place. -/
theorem Carries.eq (h : v.Carries b uuid) (h' : v.Carries b' uuid')
    (hplace : b' = b ∨ ¬ v.storage.Apart b b') : uuid' = uuid := by
  obtain ⟨bs, hbs, hread⟩ := h
  obtain ⟨bs', hbs', hread'⟩ := h'
  have hsame : v.storage.object? b' .descriptor = v.storage.object? b .descriptor := by
    rcases hplace with rfl | hplace
    · rfl
    · exact Storage.object?_of_not_apart hplace _
  rw [hsame, hbs] at hbs'
  obtain rfl := Option.some.inj hbs'
  exact congrArg Descriptor.uuid (Except.ok.inj (hread'.symm.trans hread))

/-! ### What an operation may change -/

theorem Regular.of_storage (h : v.Regular) {st : Storage} (hk : v.storage.Keeps st) :
    Spares v { v with storage := st } where
  regular :=
    { numbered := h.numbered.of_keeps hk
      plain := fun b => (hk.layout.plain b).trans (h.plain b)
      unrecorded := h.unrecorded
      served := fun id b hb => (hk.contains b).trans (h.served id b hb) }
  backends b hb := (hk.contains b).trans hb
  descriptors := hk.descriptors
  mounts _ _ := id
  unbound := rfl

theorem Regular.of_knowledge (h : v.Regular) {c : Catalog} (hc : c.records.get? .descriptor = none)
    (ring : KeyRing) : Spares v { v with catalog := c, ring := ring } where
  regular := ⟨h.numbered, h.plain, hc, h.served⟩
  backends _ := id
  descriptors _ _ := id
  mounts _ _ := id
  unbound := rfl

theorem Regular.of_ring (h : v.Regular) (ring : KeyRing) : Spares v { v with ring := ring } :=
  h.of_knowledge h.unrecorded ring

theorem Regular.rawFetch (h : v.Regular) (hb : v.storage.backends.contains b = true) (r : Ref) :
    Spares v (v.rawFetch b r).2 :=
  h.of_storage (Storage.keeps_fetch hb r)

theorem Regular.rawStore (h : v.Regular) (hb : v.storage.backends.contains b = true) {r : Ref}
    (hr : r ≠ .descriptor ∨ v.storage.object? b .descriptor = none) (content : Stream) :
    Spares v (v.rawStore b r content).2 :=
  h.of_storage (Storage.keeps_store hb hr content)

theorem Regular.addBackend (h : v.Regular) {backend : Backend} (hp : backend.isPlain = true) :
    Spares v { v with storage := (v.storage.addBackend backend).2 } where
  regular :=
    { numbered := h.numbered.addBackend backend
      plain := fun b => by
        rw [Storage.addBackend, Storage.backend_setBackend]
        split
        · exact hp
        · exact h.plain b
      unrecorded := h.unrecorded
      served := fun id b hb =>
        (Storage.contains_addBackend _ _ b).2 (.inr (h.served id b hb)) }
  backends b hb := (Storage.contains_addBackend _ _ b).2 (.inr hb)
  descriptors _ _ := h.numbered.object?_addBackend backend
  mounts _ _ := id
  unbound := rfl

/-! ### Reading and writing descriptors -/

theorem readDescriptor_snd (v : Vault) (b : BackendId) :
    (v.readDescriptor b).2 = (v.rawFetch b .descriptor).2 := by
  rw [readDescriptor]
  cases hfetch : v.rawFetch b .descriptor with
  | mk answer v' =>
    cases answer with
    | error fault => rfl
    | ok s =>
      dsimp only
      cases s.content with
      | error fault => rfl
      | ok document =>
        dsimp only
        cases readJson Descriptor.shape Descriptor.ofDatum? document <;> rfl

/-- A descriptor that is there is read, or is malformed. -/
theorem readDescriptor_of_object (h : (v.storage.backend b).isPlain = true) {bs : Bytes}
    (hbs : v.storage.object? b .descriptor = some bs) :
    (v.readDescriptor b).1 = match readJson Descriptor.shape Descriptor.ofDatum? bs with
      | .error fault => .error (.configuration (.badDescriptor fault))
      | .ok d => .ok d := by
  have hanswer : v.rawFetch b .descriptor = (.ok (.ofBytes bs), (v.rawFetch b .descriptor).2) := by
    rw [← Storage.fetch_of_object h hbs]
    rfl
  rw [readDescriptor, hanswer]
  simp only [Stream.content_ofBytes]
  cases readJson Descriptor.shape Descriptor.ofDatum? bs <;> rfl

theorem carries_of_readDescriptor (h : (v.storage.backend b).isPlain = true) {d : Descriptor}
    (hread : (v.readDescriptor b).1 = .ok d) : v.Carries b d.uuid := by
  cases hobject : v.storage.object? b .descriptor with
  | some bs =>
    rw [readDescriptor_of_object h hobject] at hread
    refine ⟨bs, hobject, ?_⟩
    cases hjson : readJson Descriptor.shape Descriptor.ofDatum? bs with
    | error fault =>
      rw [hjson] at hread
      cases hread
    | ok d' =>
      rw [hjson] at hread
      obtain rfl := Except.ok.inj hread
      rfl
  | none =>
    -- what is not there cannot be read
    rw [readDescriptor] at hread
    cases hfetch : v.rawFetch b .descriptor with
    | mk answer v' =>
      rw [hfetch] at hread
      cases answer with
      | error fault => cases hread
      | ok s =>
        obtain ⟨fault, hfault⟩ := Storage.fetch_of_no_object h hobject
          (congrArg Prod.fst hfetch)
        simp only [hfault] at hread
        cases hread

/-- If the descriptor is said to be absent, it is. -/
theorem no_object_of_readDescriptor (h : (v.storage.backend b).isPlain = true) {fault : Fault}
    (hread : (v.readDescriptor b).1 = .error fault) (hfault : fault.isNotFound = true) :
    v.storage.object? b .descriptor = none := by
  cases hobject : v.storage.object? b .descriptor with
  | none => rfl
  | some bs =>
    rw [readDescriptor_of_object h hobject] at hread
    cases hjson : readJson Descriptor.shape Descriptor.ofDatum? bs with
    | error fault' =>
      rw [hjson] at hread
      obtain rfl := Except.error.inj hread
      cases hfault
    | ok d =>
      rw [hjson] at hread
      cases hread

theorem Regular.readDescriptor (h : v.Regular) (hb : v.storage.backends.contains b = true) :
    Spares v (v.readDescriptor b).2 := by
  rw [readDescriptor_snd]
  exact h.rawFetch hb .descriptor

/-- Preparing a backend writes no descriptor over another one. -/
theorem Regular.prepare (h : v.Regular) (hb : v.storage.backends.contains b = true) (uuid : Uuid) :
    Spares v (v.prepare uuid b).2 := by
  have hread := h.readDescriptor hb
  have habsent : ∀ fault, (v.readDescriptor b).1 = .error fault → fault.isNotFound = true →
      v.storage.object? b .descriptor = none := fun _ => no_object_of_readDescriptor (h.plain b)
  have hobject : (v.readDescriptor b).2.storage.object? b .descriptor =
      v.storage.object? b .descriptor := by
    rw [readDescriptor_snd]
    exact Storage.object?_fetch v.storage b _ b _
  rw [Vault.prepare]
  cases hd : v.readDescriptor b with
  | mk answer v' =>
    rw [hd] at hread habsent hobject
    cases answer with
    | ok found => exact hread
    | error fault =>
      dsimp only
      split
      · rename_i hfault
        refine hread.trans (hread.regular.rawStore (hread.backends b hb) (.inr ?_) _)
        exact hobject.trans (habsent fault rfl hfault)
      · exact hread

/-! ### Mounting -/

/-- A volume is mounted exactly if the backend carries the identifier and the volume is not mounted
yet. -/
theorem mount_eq_ok_iff (h : v.Regular) {id : VolumeId} :
    (v.mount id uuid b).1 = .ok () ↔ v.Carries b uuid ∧ v.isMounted id = false := by
  have hmounts : (v.readDescriptor b).2.isMounted id = v.isMounted id := by
    rw [readDescriptor_snd]
    rfl
  constructor
  · intro hok
    have hcarries := fun d => carries_of_readDescriptor (d := d) (h.plain b)
    rw [Vault.mount] at hok
    cases hd : v.readDescriptor b with
    | mk answer v' =>
      rw [hd] at hok hmounts hcarries
      cases answer with
      | error fault => cases hok
      | ok found =>
        dsimp only at hok
        split at hok
        · cases hok
        · rename_i huuid
          split at hok
          · cases hok
          · rename_i hfree
            obtain rfl : found.uuid = uuid := by simpa using huuid
            rw [hmounts, Bool.not_eq_true] at hfree
            exact ⟨hcarries found rfl, hfree⟩
  · rintro ⟨⟨bs, hbs, hread⟩, hfree⟩
    have hanswer := readDescriptor_of_object (h.plain b) hbs
    rw [hread] at hanswer
    rw [Vault.mount]
    cases hd : v.readDescriptor b with
    | mk answer v' =>
      rw [hd] at hanswer hmounts
      dsimp only at hanswer hmounts ⊢
      rw [hanswer]
      simp [hmounts, hfree]

/-- A volume is bound to a backend that carries its identifier, or nothing is bound. -/
structure Binds {α : Type} (v : Vault) (id : VolumeId) (uuid : Uuid) (b : BackendId)
    (result : Except Fault α × Vault) : Prop where
  upholds : Upholds v result.2
  bound : ∀ a, result.1 = .ok a →
    result.2.mounts = v.mounts.insert id b ∧ result.2.Carries b uuid
  refused : ∀ fault, result.1 = .error fault → result.2.mounts = v.mounts

theorem Binds.of_error {α : Type} {id : VolumeId} {fault : Fault} (h : Spares v v') :
    Binds v id uuid b ((.error fault, v') : Except Fault α × Vault) where
  upholds := h.toUpholds
  bound a hok := by cases hok
  refused _ _ := h.unbound

theorem Binds.of_spares {α : Type} {id : VolumeId} {result : Except Fault α × Vault}
    (h : Spares v v') (hb : Binds v' id uuid b result) : Binds v id uuid b result where
  upholds := h.toUpholds.trans hb.upholds
  bound a hok := by
    rw [← h.unbound]
    exact hb.bound a hok
  refused fault herror := (hb.refused fault herror).trans h.unbound

/-- A volume that is not mounted may be bound to a backend. -/
theorem Regular.bind (h : v.Regular) (hb : v.storage.backends.contains b = true) {id : VolumeId}
    (hfree : v.isMounted id = false) : Upholds v { v with mounts := v.mounts.insert id b } where
  regular :=
    { numbered := h.numbered
      plain := h.plain
      unrecorded := h.unrecorded
      served := fun id' b' hb' => by
        rw [OrderedMap.get?_insert] at hb'
        split at hb'
        · rw [← Option.some.inj hb']
          exact hb
        · exact h.served id' b' hb' }
  backends _ hb' := hb'
  descriptors _ _ hbs := hbs
  mounts id' b' hb' := by
    rw [OrderedMap.get?_insert, if_neg]
    · exact hb'
    · intro hid
      rw [Std.LawfulEqCmp.compare_eq_iff_eq.1 hid, OrderedMap.contains_eq_false.1 hfree] at hb'
      cases hb'

theorem Regular.mount (h : v.Regular) (hb : v.storage.backends.contains b = true) (id : VolumeId)
    (uuid : Uuid) : Binds v id uuid b (v.mount id uuid b) := by
  have hread := h.readDescriptor hb
  have hcarries := fun d => carries_of_readDescriptor (d := d) (h.plain b)
  rw [Vault.mount]
  cases hd : v.readDescriptor b with
  | mk answer v' =>
    rw [hd] at hread hcarries
    cases answer with
    | error fault => exact .of_error hread
    | ok found =>
      dsimp only
      split
      · exact .of_error hread
      · rename_i huuid
        split
        · exact .of_error hread
        · rename_i hfree
          obtain rfl : found.uuid = uuid := by simpa using huuid
          rw [Bool.not_eq_true] at hfree
          have hbind := hread.toUpholds.trans (hread.regular.bind (hread.backends b hb) hfree)
          exact ⟨hbind, fun _ _ => ⟨by rw [← hread.unbound], (hcarries found rfl).of_upholds hbind⟩,
            fun _ herror => by cases herror⟩

theorem Regular.mountOrPrepare (h : v.Regular) (hb : v.storage.backends.contains b = true)
    (volume : Volume) : Binds v volume.id volume.uuid b (v.mountOrPrepare volume b) := by
  have hfirst := h.mount hb volume.id volume.uuid
  rw [Vault.mountOrPrepare]
  cases hm : v.mount volume.id volume.uuid b with
  | mk answer v₁ =>
    rw [hm] at hfirst
    cases answer with
    | ok u => exact hfirst
    | error fault =>
      have hrefused : Spares v v₁ := ⟨hfirst.upholds, hfirst.refused fault rfl⟩
      dsimp only
      split
      · have hprepare :=
          hrefused.trans (hrefused.regular.prepare (hrefused.backends b hb) volume.uuid)
        cases hp : v₁.prepare volume.uuid b with
        | mk answer v₂ =>
          rw [hp] at hprepare
          cases answer with
          | error fault' => exact .of_error hprepare
          | ok u =>
            exact .of_spares hprepare
              (hprepare.regular.mount (hprepare.backends b hb) volume.id volume.uuid)
      · exact .of_error hrefused

theorem isPlain_build (setup : BackendSetup) : setup.build.isPlain = true := by
  cases setup <;> rfl

/-- The backend that the next volume of a configuration is mounted on. -/
def nextBackend (v : Vault) : BackendId := v.storage.backends.size

theorem nextBackend_eq (v : Vault) (backend : Backend) :
    (v.storage.addBackend backend).1 = v.nextBackend := rfl

theorem Regular.mountConfiguredOne (h : v.Regular) {m : Mount} {volume : Volume}
    (hvolume : v.catalog.findVolume m.volumeId = .ok volume) :
    Binds v volume.id volume.uuid v.nextBackend (v.mountConfiguredOne m) := by
  have hadd := h.addBackend (isPlain_build m.backend)
  have hnew : (v.storage.addBackend m.backend.build).2.backends.contains v.nextBackend = true :=
    (Storage.contains_addBackend _ _ _).2 (.inl rfl)
  have hbinds := Binds.of_spares hadd (hadd.regular.mountOrPrepare hnew volume)
  rw [Vault.mountConfiguredOne, hvolume]
  dsimp only
  rw [nextBackend_eq]
  generalize Vault.mountOrPrepare _ volume v.nextBackend = result at hbinds ⊢
  obtain ⟨answer, v'⟩ := result
  cases answer with
  | error fault => exact .of_error ⟨hbinds.upholds, hbinds.refused fault rfl⟩
  | ok u => exact ⟨hbinds.upholds, fun _ _ => hbinds.bound u rfl, fun _ herror => by cases herror⟩

/-! ### Blobs -/

theorem beginFetch_snd (v : Vault) (r : Ref) (volume : VolumeId) :
    ∃ ring, (v.beginFetch r volume).2 = { v with ring := ring } := by
  rw [beginFetch]
  cases v.backendOf volume with
  | error fault => exact ⟨v.ring, rfl⟩
  | ok b =>
    dsimp only
    cases v.catalog.findBlob r v.ring with
    | mk answer ring => cases answer <;> exact ⟨ring, rfl⟩

theorem Regular.fetch (h : v.Regular) (r : Ref) (volume : VolumeId) :
    Spares v (v.fetch r volume).2 := by
  obtain ⟨ring, hring⟩ := beginFetch_snd v r volume
  have hbegin := h.of_ring ring
  rw [← hring] at hbegin
  rw [Vault.fetch]
  cases hf : v.beginFetch r volume with
  | mk answer v' =>
    rw [hf] at hbegin
    cases answer with
    | error fault => exact hbegin
    | ok f =>
      have hmounted := hbegin.mounts _ _ (beginFetch_eq_ok (congrArg Prod.fst hf)).1
      exact hbegin.trans (hbegin.regular.rawFetch (hbegin.regular.served _ _ hmounted) r)

theorem Regular.scrub (h : v.Regular) (r : Ref) (volume : VolumeId) :
    Spares v (v.scrub r volume).2 := by
  rw [Vault.scrub, beginCheck]
  cases hb : v.backendOf volume with
  | error fault => exact .refl h
  | ok b =>
    dsimp only
    cases v.catalog.checksumOf r with
    | error fault => exact .refl h
    | ok crc32 => exact h.rawFetch (h.served _ _ (mounted_of_backendOf hb)) r

/-- Only what is known is copied, and no blob is known under the reference of descriptors. -/
theorem Regular.replicate (h : v.Regular) (source target : VolumeId) (r : Ref) :
    Spares v (v.replicate source target r).2 := by
  rw [Vault.replicate]
  cases hc : v.beginCopy source target r with
  | error fault => exact .refl h
  | ok c =>
    obtain ⟨hsource, htarget, -, rfl, record, hrecord, -⟩ := beginCopy_eq_ok hc
    have hne : c.ref ≠ .descriptor := by
      intro href
      rw [href, h.unrecorded] at hrecord
      cases hrecord
    have hfetch := h.rawFetch (h.served _ _ hsource) c.ref
    dsimp only
    cases hf : v.rawFetch c.source c.ref with
    | mk answer v₁ =>
      rw [hf] at hfetch
      cases answer with
      | error fault => exact hfetch
      | ok s =>
        rw [Copy.finish]
        have hstore := hfetch.trans (hfetch.regular.rawStore
          (hfetch.backends _ (h.served _ _ htarget)) (.inl hne)
          (VerifiedStream.ofCrc32 s c.crc32).toStream)
        dsimp only
        cases hst : v₁.rawStore c.target c.ref (VerifiedStream.ofCrc32 s c.crc32).toStream with
        | mk outcome v₂ =>
          rw [hst] at hstore
          cases outcome with
          | error fault => exact hstore
          | ok u =>
            dsimp only
            cases hconfirm : v₂.catalog.confirm c.ref c.volume with
            | error fault => exact hstore
            | ok catalog =>
              obtain ⟨b, volume, -, -, rfl⟩ := Catalog.confirm_eq_ok hconfirm
              refine hstore.trans (hstore.regular.of_knowledge ?_ _)
              rw [OrderedMap.get?_insert, if_neg (by simpa using hne.symm)]
              exact hstore.regular.unrecorded

/-- What is written is not stored under the reference of descriptors. -/
theorem Regular.run (h : v.Regular) {w : Write} (hphase : w.phase = .checking)
    (hserved : v.storage.backends.contains w.backend = true)
    (hcontent : ∀ plain, w.content.content = .ok plain → Ref.ofContent plain ≠ .descriptor) :
    Spares v (w.run v).2 := by
  rcases Write.run_cases (v := v) hphase with
    ⟨fault, hrun⟩ | ⟨fault, hrun⟩ | ⟨plain, key, haccepts, -, hrun⟩
  · rw [hrun]
    exact .refl h
  · rw [hrun]
    exact h.of_ring _
  · have hne : w.ref ≠ .descriptor := haccepts.2 ▸ hcontent plain haccepts.1
    have hkeyed := h.of_ring (v.catalog.keyForNew w.collection v.ring).2
    have hstore : Spares v (w.storing plain key v).2 :=
      hkeyed.trans (hkeyed.regular.rawStore hserved (.inl hne) _)
    rw [hrun]
    cases (w.storing plain key v).1 with
    | error fault => exact hstore
    | ok u =>
      dsimp only
      rw [Write.finish]
      cases hcreate : (w.storing plain key v).2.catalog.create (w.stored plain key).1 w.volume with
      | error fault => exact hstore
      | ok catalog =>
        refine hstore.trans (hstore.regular.of_knowledge ?_ _)
        rw [(Catalog.create_keeps_keys hcreate).1, OrderedMap.get?_insert]
        exact (if_neg fun heq => hne (Std.LawfulEqCmp.compare_eq_iff_eq.1 heq).symm).trans
          hstore.regular.unrecorded

theorem Regular.write (h : v.Regular) (volume : VolumeId) (collection : String) (r : Ref)
    {content : Stream} (hcontent : ∀ plain, content.content = .ok plain →
      Ref.ofContent plain ≠ .descriptor) (hint : Bool) :
    Spares v (v.write volume collection r content hint).2 := by
  rw [Vault.write, beginWrite]
  cases hb : v.backendOf volume with
  | error fault => exact .refl h
  | ok b => exact h.run rfl (h.served _ _ (mounted_of_backendOf hb)) hcontent

end Vault

end BlobVault
