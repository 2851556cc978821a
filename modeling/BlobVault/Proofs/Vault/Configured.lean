import BlobVault.Proofs.Storage.Stamping
import BlobVault.Proofs.Vault.Preparation

/-!
# Mounting what is configured

The volumes that are configured for a node are mounted one after another, each on a backend of its
own, up to the first that cannot be mounted.

* `Vault.OnlyStamps` : backends were stamped, and nothing else that is stored or known has changed;
* `Vault.Tries` : what comes of one volume, with one lemma for each way to mount it;
* `Vault.Mounted` : all volumes of a list have been added to the table, each on its own backend;
* `Vault.Built` : the backends of a list of volumes have been added, and only those of volumes
  without blobs were stamped;
* `Vault.mountConfigured_halts` : **the configured volumes are mounted in order, all of them or
  those before the first that cannot be; what comes after that one makes no difference.**
-/

namespace BlobVault

/-! ### Volumes under their own numbers -/

namespace Catalog

/-- Every volume is kept under its own number. -/
def VolumesFiled (c : Catalog) : Prop :=
  ∀ id volume, c.volumes.get? id = some volume → volume.id = id

namespace VolumesFiled

variable {c c' : Catalog} {id : VolumeId}

theorem insert (h : c.VolumesFiled) {volume : Volume} (hid : volume.id = id)
    (hvolumes : c'.volumes = c.volumes.insert id volume) : c'.VolumesFiled := by
  intro id' volume' hget
  rw [hvolumes, OrderedMap.get?_insert] at hget
  split at hget
  · rename_i heq
    rw [← Option.some.inj hget, hid, Std.LawfulEqCmp.compare_eq_iff_eq.1 heq]
  · exact h id' volume' hget

theorem addVolume (h : c.VolumesFiled) (volume : Volume) : (c.addVolume volume).VolumesFiled :=
  h.insert rfl rfl

end VolumesFiled

end Catalog

namespace Vault

open Storage

/-- Volumes are kept under their own numbers, and backends are numbered from zero.  Every vault that
is reached from an empty one is like this (`Node.wellFiled_of_history`). -/
structure WellFiled (v : Vault) : Prop where
  volumes : v.catalog.VolumesFiled
  backends : v.storage.Numbered

theorem wellFiled_empty (cacheCapacity : Nat) : (empty cacheCapacity).WellFiled where
  volumes _ _ h := by cases h
  backends := (regular_empty cacheCapacity).numbered

/-! ### One volume -/

/-- Some backends were stamped with some identifiers, and nothing else that is stored or known has
changed. -/
structure OnlyStamps (stamps : BackendId → Uuid → Prop) (v v' : Vault) : Prop where
  storage : Storage.Stamped stamps v.storage v'.storage
  catalog : v'.catalog = v.catalog
  ring : v'.ring = v.ring

/-- A volume is bound to a backend that carries its identifier, or nothing is bound; some backends
may have been stamped. -/
structure Tries {α : Type} (stamps : BackendId → Uuid → Prop) (v : Vault) (id : VolumeId)
    (uuid : Uuid) (b : BackendId) (result : Except Fault α × Vault) : Prop where
  stamped : OnlyStamps stamps v result.2
  bound : ∀ a, result.1 = .ok a → v.isMounted id = false ∧
    result.2.mounts = v.mounts.insert id b ∧ result.2.Carries b uuid
  refused : ∀ fault, result.1 = .error fault → result.2.mounts = v.mounts

/-- A backend may be stamped for a volume that counts no blob. -/
def StampsFor (volume : Volume) (b b' : BackendId) (uuid : Uuid) : Prop :=
  b' = b ∧ volume.blobCount = 0 ∧ volume.uuid = uuid

variable {stamps stamps' : BackendId → Uuid → Prop} {v v' v'' : Vault} {b : BackendId}
  {id : VolumeId} {uuid : Uuid} {fault : Fault}

namespace OnlyStamps

theorem refl (v : Vault) : OnlyStamps stamps v v := ⟨.refl v.storage, rfl, rfl⟩

theorem trans (h : OnlyStamps stamps v v') (h' : OnlyStamps stamps v' v'') :
    OnlyStamps stamps v v'' :=
  ⟨h.storage.trans h'.storage, h'.catalog.trans h.catalog, h'.ring.trans h.ring⟩

theorem mono (h : OnlyStamps stamps v v') (hstamps : ∀ b uuid, stamps b uuid → stamps' b uuid) :
    OnlyStamps stamps' v v' :=
  ⟨h.storage.mono hstamps, h.catalog, h.ring⟩

theorem contains (h : OnlyStamps stamps v v') (hb : v.storage.backends.contains b = true) :
    v'.storage.backends.contains b = true :=
  (h.storage.known b).trans hb

theorem isPlain (h : OnlyStamps stamps v v') (hp : (v.storage.backend b).isPlain = true) :
    (v'.storage.backend b).isPlain = true :=
  (isPlain_of_bare (h.storage.backends b)).trans hp

theorem carries (h : OnlyStamps stamps v v') (hc : v.Carries b uuid) : v'.Carries b uuid := by
  obtain ⟨bs, hobject, hread⟩ := hc
  exact ⟨bs, h.storage.object?_of_some hobject, hread⟩

end OnlyStamps

namespace Tries

variable {α : Type} {result : Except Fault α × Vault}

theorem of_error (h : OnlyStamps stamps v v') (hmounts : v'.mounts = v.mounts) :
    Tries stamps v id uuid b ((.error fault, v') : Except Fault α × Vault) where
  stamped := h
  bound _ hok := by cases hok
  refused _ _ := hmounts

theorem of_onlyStamps (h : OnlyStamps stamps v v') (hmounts : v'.mounts = v.mounts)
    (ht : Tries stamps v' id uuid b result) : Tries stamps v id uuid b result where
  stamped := h.trans ht.stamped
  bound a hok := by
    obtain ⟨hfree, hbound, hcarries⟩ := ht.bound a hok
    rw [isMounted, hmounts] at hfree
    rw [hmounts] at hbound
    exact ⟨hfree, hbound, hcarries⟩
  refused fault herror := (ht.refused fault herror).trans hmounts

end Tries

/-- Reading a descriptor stamps nothing. -/
theorem onlyStamps_readDescriptor (hb : v.storage.backends.contains b = true) :
    OnlyStamps stamps v (v.readDescriptor b).2 := by
  rw [readDescriptor_snd]
  exact ⟨stamped_fetch hb .descriptor, rfl, rfl⟩

theorem tries_mount (hb : v.storage.backends.contains b = true)
    (hp : (v.storage.backend b).isPlain = true) (id : VolumeId) (uuid : Uuid) :
    Tries stamps v id uuid b (v.mount id uuid b) := by
  have hread : OnlyStamps stamps v (v.readDescriptor b).2 := onlyStamps_readDescriptor hb
  have hmounts := mounts_readDescriptor v b
  have hcarries := fun d => carries_of_readDescriptor (d := d) hp
  rw [mount]
  cases hd : v.readDescriptor b with
  | mk answer v' =>
    rw [hd] at hread hmounts hcarries
    cases answer with
    | error fault => exact .of_error hread hmounts
    | ok found =>
      dsimp only
      split
      · exact .of_error hread hmounts
      · rename_i huuid
        split
        · exact .of_error hread hmounts
        · rename_i hfree
          obtain rfl : found.uuid = uuid := by simpa using huuid
          rw [Bool.not_eq_true, isMounted, hmounts] at hfree
          refine ⟨⟨hread.storage, hread.catalog, hread.ring⟩, fun _ _ => ⟨hfree, ?_, ?_⟩,
            fun _ herror => by cases herror⟩
          · rw [← hmounts]
          · exact hread.carries (hcarries found rfl)

/-- A descriptor that is written where there is none stamps its backend, if it does anything. -/
theorem onlyStamps_writeDescriptor (hb : v.storage.backends.contains b = true)
    (hblank : v.storage.object? b .descriptor = none) (uuid : Uuid) :
    OnlyStamps (fun b' uuid' => b' = b ∧ uuid' = uuid) v (v.writeDescriptor b ⟨uuid⟩).2 := by
  rw [writeDescriptor, ← Uuid.stamp]
  exact ⟨stamped_store hb hblank uuid, rfl, rfl⟩

/-- Preparing stamps the backend, if it does anything. -/
theorem onlyStamps_prepare (hb : v.storage.backends.contains b = true)
    (hp : (v.storage.backend b).isPlain = true) (uuid : Uuid) :
    OnlyStamps (fun b' uuid' => b' = b ∧ uuid' = uuid) v (v.prepare uuid b).2 ∧
      (v.prepare uuid b).2.mounts = v.mounts := by
  have hread : OnlyStamps (fun b' uuid' => b' = b ∧ uuid' = uuid) v (v.readDescriptor b).2 :=
    onlyStamps_readDescriptor hb
  have hmounts := mounts_readDescriptor v b
  have habsent : ∀ fault, (v.readDescriptor b).1 = .error fault → fault.isNotFound = true →
      v.storage.object? b .descriptor = none := fun _ => no_object_of_readDescriptor hp
  have hobject := object?_readDescriptor v b b .descriptor
  rw [prepare]
  cases hd : v.readDescriptor b with
  | mk answer v' =>
    rw [hd] at hread hmounts habsent hobject
    cases answer with
    | ok found => exact ⟨hread, hmounts⟩
    | error fault =>
      dsimp only
      split
      · rename_i hfault
        have hblank := hobject.trans (habsent fault rfl hfault)
        exact ⟨hread.trans (onlyStamps_writeDescriptor (hread.contains hb) hblank uuid),
          hmounts⟩
      · exact ⟨hread, hmounts⟩

/-- A backend is stamped for a volume only if that counts no blob. -/
theorem tries_mountOrPrepare (hb : v.storage.backends.contains b = true)
    (hp : (v.storage.backend b).isPlain = true) (volume : Volume) :
    Tries (StampsFor volume b) v volume.id volume.uuid b (v.mountOrPrepare volume b) := by
  have hfirst : Tries (StampsFor volume b) v volume.id volume.uuid b
      (v.mount volume.id volume.uuid b) := tries_mount hb hp volume.id volume.uuid
  rw [mountOrPrepare]
  cases hm : v.mount volume.id volume.uuid b with
  | mk answer v₁ =>
    rw [hm] at hfirst
    cases answer with
    | ok u => exact hfirst
    | error fault =>
      have hmounts₁ := hfirst.refused fault rfl
      dsimp only
      split
      · rename_i hretry
        simp only [Bool.and_eq_true, beq_iff_eq] at hretry
        obtain ⟨hprepare, hmounts₂⟩ := onlyStamps_prepare (hfirst.stamped.contains hb)
          (hfirst.stamped.isPlain hp) volume.uuid
        have hboth : OnlyStamps (StampsFor volume b) v (v₁.prepare volume.uuid b).2 :=
          hfirst.stamped.trans (hprepare.mono fun _ _ h => ⟨h.1, hretry.2, h.2.symm⟩)
        cases hprep : v₁.prepare volume.uuid b with
        | mk answer v₂ =>
          rw [hprep] at hboth hmounts₂
          cases answer with
          | error fault' => exact .of_error hboth (hmounts₂.trans hmounts₁)
          | ok u =>
            exact .of_onlyStamps hboth (hmounts₂.trans hmounts₁)
              (tries_mount (hboth.contains hb) (hboth.isPlain hp) volume.id volume.uuid)
      · exact .of_error hfirst.stamped hmounts₁

/-! ### One entry of a configuration -/

/-- The vault with one more backend. -/
def withBackend (v : Vault) (m : Mount) : Vault :=
  { v with storage := (v.storage.addBackend m.backend.build).2 }

theorem tries_mountConfiguredOne {m : Mount} {volume : Volume}
    (hvolume : v.catalog.findVolume m.volumeId = .ok volume) :
    Tries (StampsFor volume v.nextBackend) (v.withBackend m) volume.id volume.uuid v.nextBackend
      (v.mountConfiguredOne m) := by
  have hnew : (v.withBackend m).storage.backends.contains v.nextBackend = true :=
    (contains_addBackend ..).2 (.inl rfl)
  have hplain : ((v.withBackend m).storage.backend v.nextBackend).isPlain = true := by
    rw [withBackend, nextBackend, backend_addBackend_self]
    exact isPlain_build m.backend
  have htries := tries_mountOrPrepare hnew hplain volume
  rw [mountConfiguredOne, hvolume]
  dsimp only
  rw [nextBackend_eq, ← withBackend]
  generalize (v.withBackend m).mountOrPrepare volume v.nextBackend = result at htries ⊢
  obtain ⟨answer, v'⟩ := result
  cases answer with
  | error fault => exact .of_error htries.stamped (htries.refused fault rfl)
  | ok u => exact ⟨htries.stamped, fun _ _ => htries.bound u rfl, fun _ herror => by cases herror⟩

/-! ### All entries -/

/-- Entries with the numbers of their backends. -/
def placed (v : Vault) (ms : List Mount) : List (Mount × BackendId) := ms.zipIdx v.nextBackend

/-- The vault with a backend for each entry. -/
def withBackends (v : Vault) (ms : List Mount) : Vault :=
  { v with storage := v.storage.addBackends (ms.map (·.backend)) }

/-- A backend may be stamped for the entry that it belongs to. -/
def StampsForOne (v : Vault) (ms : List Mount) (b : BackendId) (uuid : Uuid) : Prop :=
  ∃ m b₀ volume, (m, b₀) ∈ v.placed ms ∧ v.catalog.findVolume m.volumeId = .ok volume ∧
    StampsFor volume b₀ b uuid

/-- Each entry has got the backend that it describes, and only backends of volumes without blobs
were stamped. -/
structure Built (v v' : Vault) (ms : List Mount) : Prop
    extends OnlyStamps (v.StampsForOne ms) (v.withBackends ms) v' where
  driven : ∀ m b, (m, b) ∈ v.placed ms → (v'.storage.backend b).bare = m.backend.build.bare

/-- The volumes of all entries have been added to the table, each on the backend of its entry, which
carries the identifier that the catalog has for it. -/
structure Mounted (v v' : Vault) (ms : List Mount) : Prop where
  nodup : (ms.map (·.volumeId)).Nodup
  unmounted : ∀ m ∈ ms, v.isMounted m.volumeId = false
  table : ∀ id b, v'.mounts.get? id = some b ↔
    v.mounts.get? id = some b ∨ ∃ m, (m, b) ∈ v.placed ms ∧ m.volumeId = id
  carried : ∀ m b, (m, b) ∈ v.placed ms →
    ∃ volume, v.catalog.findVolume m.volumeId = .ok volume ∧ v'.Carries b volume.uuid

/-- The entries that have got a backend, if one could not be mounted: that one has got none if its
volume is unknown. -/
def tried (v : Vault) (done : List Mount) (m : Mount) : List Mount :=
  match v.catalog.findVolume m.volumeId with
  | .ok _ => done ++ [m]
  | .error _ => done

/-- Some entries were mounted, and the next one could not be, whatever comes after it. -/
structure Halted (v v' : Vault) (fault : Fault) (done : List Mount) (m : Mount) : Prop where
  before : (v.mountAll done).1 = .ok (done.map (·.volumeId))
  refused : ∀ rest, v.mountAll (done ++ m :: rest) = (.error fault, v')
  mounted : v.Mounted v' done
  built : v.Built v' (v.tried done m)

variable {v₁ : Vault} {m : Mount} {ms : List Mount} {volume : Volume}

theorem placed_cons (m : Mount) (ms : List Mount) (hnext : v₁.nextBackend = v.nextBackend + 1) :
    v.placed (m :: ms) = (m, v.nextBackend) :: v₁.placed ms := by
  rw [placed, List.zipIdx_cons, placed, hnext]

theorem tried_cons (m : Mount) (done : List Mount) (m' : Mount)
    (hcatalog : v₁.catalog = v.catalog) : v.tried (m :: done) m' = m :: v₁.tried done m' := by
  rw [tried, tried, hcatalog]
  cases v.catalog.findVolume m'.volumeId <;> rfl

/-- After one entry the next backend is the next one, and all is in order again. -/
theorem WellFiled.next (h : v.WellFiled) (hs : OnlyStamps stamps (v.withBackend m) v₁) :
    v₁.WellFiled ∧ v₁.nextBackend = v.nextBackend + 1 := by
  obtain ⟨hnumbered, hsize⟩ := hs.storage.numbered (h.backends.addBackend m.backend.build)
  refine ⟨⟨?_, hnumbered⟩, ?_⟩
  · rw [hs.catalog]
    exact h.volumes
  · rw [nextBackend, hsize]
    exact h.backends.size_addBackend m.backend.build

theorem built_nil (v : Vault) : v.Built v [] := ⟨.refl v, fun _ _ h => by cases h⟩

theorem Built.cons (hv : v.WellFiled) (hvolume : v.catalog.findVolume m.volumeId = .ok volume)
    (h₁ : OnlyStamps (StampsFor volume v.nextBackend) (v.withBackend m) v₁) (h : v₁.Built v' ms) :
    v.Built v' (m :: ms) := by
  obtain ⟨hv₁, hnext⟩ := hv.next h₁
  have hplaced := placed_cons m ms hnext
  have hown : (v.withBackend m).storage.backends.contains v.nextBackend = true :=
    (contains_addBackend ..).2 (.inl rfl)
  have hfirst : ∀ b uuid, StampsFor volume v.nextBackend b uuid →
      v.StampsForOne (m :: ms) b uuid := fun b uuid hb =>
    ⟨m, v.nextBackend, volume, hplaced ▸ List.mem_cons_self, hvolume, hb⟩
  have hothers : ∀ b uuid, v₁.StampsForOne ms b uuid → v.StampsForOne (m :: ms) b uuid := by
    rintro b uuid ⟨m', b₀, volume', hmem, hvolume', hb⟩
    rw [h₁.catalog] at hvolume'
    exact ⟨m', b₀, volume', hplaced ▸ List.mem_cons_of_mem _ hmem, hvolume', hb⟩
  have hlifted := h₁.storage.addBackends (hv.backends.addBackend m.backend.build)
    (fun b uuid hb => hb.1 ▸ hown) (ms.map (·.backend))
  refine ⟨⟨(hlifted.mono hfirst).trans (h.storage.mono hothers), h.catalog.trans h₁.catalog,
    h.ring.trans h₁.ring⟩, fun m' b hmem => ?_⟩
  rw [hplaced] at hmem
  rcases List.mem_cons.1 hmem with heq | hmem
  · obtain ⟨rfl, rfl⟩ := Prod.mk.inj heq
    rw [h.storage.backends, withBackends,
      hv₁.backends.backend_addBackends _ (h₁.contains hown), h₁.storage.backends, withBackend,
      nextBackend, backend_addBackend_self]
  · exact h.driven m' b hmem

theorem Mounted.cons {ms' : List Mount} (hv : v.WellFiled)
    (hvolume : v.catalog.findVolume m.volumeId = .ok volume)
    (hone : v.mountConfiguredOne m = (.ok id, v₁)) (h : v₁.Mounted v' ms)
    (hbuilt : v₁.Built v' ms') : v.Mounted v' (m :: ms) := by
  have htries := tries_mountConfiguredOne hvolume
  rw [hone, hv.volumes _ _ (Catalog.findVolume_eq_ok.1 hvolume)] at htries
  obtain ⟨hfree, hbound, hcarries⟩ := htries.bound id rfl
  obtain ⟨hv₁, hnext⟩ := hv.next htries.stamped
  have hplaced := placed_cons m ms hnext
  have hnone : v.mounts.get? m.volumeId = none := OrderedMap.contains_eq_false.1 hfree
  have hget : ∀ id' b, v₁.mounts.get? id' = some b ↔
      v.mounts.get? id' = some b ∨ m.volumeId = id' ∧ v.nextBackend = b := by
    intro id' b
    rw [hbound]
    by_cases hid : id' = m.volumeId
    · subst hid
      rw [OrderedMap.get?_insert_self, hnone]
      simp
    · rw [OrderedMap.get?_insert_of_ne _ hid]
      exact (or_iff_left fun hnew => hid hnew.1.symm).symm
  have hmounted : v₁.isMounted m.volumeId = true :=
    OrderedMap.contains_of_get? ((hget _ _).2 (.inr ⟨rfl, rfl⟩))
  refine ⟨?_, fun m' hm' => ?_, fun id' b => ?_, fun m' b hmem => ?_⟩
  · -- an entry of the same volume would not have been mounted after this one
    refine List.nodup_cons.2 ⟨fun hagain => ?_, h.nodup⟩
    obtain ⟨m', hm', hid⟩ := List.mem_map.1 hagain
    have hfree' := h.unmounted m' hm'
    rw [hid, hmounted] at hfree'
    cases hfree'
  · rcases List.mem_cons.1 hm' with rfl | hm'
    · exact hfree
    · have hfree' := h.unmounted m' hm'
      rw [isMounted, OrderedMap.contains_eq_false] at hfree' ⊢
      refine Option.eq_none_iff_forall_ne_some.2 fun b hb => ?_
      rw [(hget _ _).2 (.inl hb)] at hfree'
      cases hfree'
  · rw [h.table, hget, hplaced, or_assoc]
    simp only [List.mem_cons, Prod.mk.injEq, or_and_right, exists_or]
    refine or_congr_right (or_congr_left ?_)
    constructor
    · rintro ⟨hid, rfl⟩
      exact ⟨m, ⟨rfl, rfl⟩, hid⟩
    · rintro ⟨m', ⟨rfl, rfl⟩, hid⟩
      exact ⟨hid, rfl⟩
  · rw [hplaced] at hmem
    rcases List.mem_cons.1 hmem with heq | hmem
    · obtain ⟨rfl, rfl⟩ := Prod.mk.inj heq
      obtain ⟨bs, hobject, hread⟩ := hcarries
      refine ⟨volume, hvolume, hbuilt.carries ⟨bs, ?_, hread⟩⟩
      exact hv₁.backends.object?_addBackends _ hobject
    · obtain ⟨volume', hvolume', hcarries'⟩ := h.carried m' b hmem
      rw [htries.stamped.catalog] at hvolume'
      exact ⟨volume', hvolume', hcarries'⟩

/-- If nothing was mounted, the table is what it was. -/
theorem mounted_nil (h : v'.mounts = v.mounts) : v.Mounted v' [] where
  nodup := .nil
  unmounted _ hm := by cases hm
  table id b := by
    rw [h]
    exact (or_iff_left fun ⟨_, hmem, _⟩ => by cases hmem).symm
  carried _ _ hmem := by cases hmem

theorem mountAll_of_error (h : v.mountConfiguredOne m = (.error fault, v')) (rest : List Mount) :
    v.mountAll (m :: rest) = (.error fault, v') := by
  rw [mountAll, h]

theorem mountAll_of_ok (h : v.mountConfiguredOne m = (.ok id, v₁)) (ms : List Mount) :
    v.mountAll (m :: ms) = ((v₁.mountAll ms).1.map (id :: ·), (v₁.mountAll ms).2) := by
  rw [mountAll, h]
  dsimp only
  cases v₁.mountAll ms with
  | mk answer v' => cases answer <;> rfl

/-- An entry that cannot be mounted is the first such one if none comes before it. -/
theorem halted_nil (hv : v.WellFiled) (h : v.mountConfiguredOne m = (.error fault, v')) :
    v.Halted v' fault [] m := by
  cases hvolume : v.catalog.findVolume m.volumeId with
  | error unknown =>
    have hone : v.mountConfiguredOne m = (.error (.ofCatalog unknown), v) := by
      rw [mountConfiguredOne, hvolume]
    obtain ⟨-, rfl⟩ := Prod.mk.inj (hone.symm.trans h)
    refine ⟨rfl, mountAll_of_error h, mounted_nil rfl, ?_⟩
    rw [tried, hvolume]
    exact built_nil v
  | ok volume =>
    have htries := tries_mountConfiguredOne hvolume
    rw [h] at htries
    refine ⟨rfl, mountAll_of_error h, mounted_nil (htries.refused fault rfl), ?_⟩
    rw [tried, hvolume]
    exact .cons hv hvolume htries.stamped (built_nil v')

theorem Halted.cons {m' : Mount} {done : List Mount} (hv : v.WellFiled)
    (hvolume : v.catalog.findVolume m.volumeId = .ok volume)
    (hone : v.mountConfiguredOne m = (.ok m.volumeId, v₁)) (h : v₁.Halted v' fault done m') :
    v.Halted v' fault (m :: done) m' := by
  have hstamped := (tries_mountConfiguredOne hvolume).stamped
  rw [hone] at hstamped
  refine ⟨?_, fun rest => ?_, h.mounted.cons hv hvolume hone h.built, ?_⟩
  · rw [mountAll_of_ok hone, h.before]
    rfl
  · rw [List.cons_append, mountAll_of_ok hone, h.refused rest]
    rfl
  · rw [tried_cons (v := v) m done m' hstamped.catalog]
    exact .cons hv hvolume hstamped h.built

/-- The number that is answered for an entry is its own. -/
theorem mountConfiguredOne_eq_ok (hv : v.WellFiled) (h : v.mountConfiguredOne m = (.ok id, v₁)) :
    id = m.volumeId ∧ ∃ volume, v.catalog.findVolume m.volumeId = .ok volume := by
  cases hvolume : v.catalog.findVolume m.volumeId with
  | error unknown =>
    rw [mountConfiguredOne, hvolume] at h
    cases h
  | ok volume =>
    refine ⟨?_, volume, rfl⟩
    rw [mountConfiguredOne, hvolume] at h
    dsimp only at h
    split at h
    · cases h
    · rw [← Except.ok.inj (Prod.mk.inj h).1]
      exact hv.volumes _ _ (Catalog.findVolume_eq_ok.1 hvolume)

theorem mountAll_halts (hv : v.WellFiled) (ms : List Mount) :
    match v.mountAll ms with
    | (.ok ids, v') => ids = ms.map (·.volumeId) ∧ v.Mounted v' ms ∧ v.Built v' ms
    | (.error fault, v') =>
      ∃ done m rest, ms = done ++ m :: rest ∧ v.Halted v' fault done m := by
  induction ms generalizing v with
  | nil => exact ⟨rfl, mounted_nil rfl, built_nil v⟩
  | cons m ms ih =>
    cases hone : v.mountConfiguredOne m with
    | mk answer v₁ =>
      cases answer with
      | error fault =>
        rw [mountAll_of_error hone]
        exact ⟨[], m, ms, rfl, halted_nil hv hone⟩
      | ok id =>
        obtain ⟨rfl, volume, hvolume⟩ := mountConfiguredOne_eq_ok hv hone
        have hstamped := (tries_mountConfiguredOne hvolume).stamped
        rw [hone] at hstamped
        have hrest := ih (hv.next hstamped).1
        rw [mountAll_of_ok hone]
        cases hall : v₁.mountAll ms with
        | mk answer v' =>
          rw [hall] at hrest
          cases answer with
          | ok ids =>
            obtain ⟨rfl, hmounted, hbuilt⟩ := hrest
            exact ⟨rfl, hmounted.cons hv hvolume hone hbuilt, hbuilt.cons hv hvolume hstamped⟩
          | error fault =>
            obtain ⟨done, m', rest, rfl, hhalted⟩ := hrest
            exact ⟨m :: done, m', rest, rfl, hhalted.cons hv hvolume hone⟩

/-- **The configured volumes are mounted in order, all of them or those before the first that
cannot be.**  If all are, the table is the old one and these; if one cannot be, the table is the old
one and those before it, and what comes after it makes no difference to the vault. -/
theorem mountConfigured_halts (hv : v.WellFiled) (node : String) (mounts : List Mount) :
    match v.mountConfigured node mounts with
    | (.ok ids, v') =>
      ids = (mounts.filter (·.node == node)).map (·.volumeId) ∧
        v.Mounted v' (mounts.filter (·.node == node)) ∧
        v.Built v' (mounts.filter (·.node == node))
    | (.error fault, v') =>
      ∃ done m rest, mounts.filter (·.node == node) = done ++ m :: rest ∧
        v.Halted v' fault done m :=
  mountAll_halts hv _

namespace Sample

/-- The first volume is new, and the second one has held blobs. -/
def site : Vault :=
  { Vault.empty 1 with catalog :=
      (Catalog.empty.addVolume ⟨1, ⟨7⟩, "new", 0, 0, 0⟩).addVolume ⟨2, ⟨8⟩, "used", 0, 5, 60⟩ }

/-- The disk of the second volume has not appeared. -/
def configuration : List Mount :=
  [⟨2, "elsewhere", .memory 10⟩, ⟨1, "here", .memory 10⟩, ⟨2, "here", .memory 10⟩,
    ⟨1, "here", .folder "late"⟩]

theorem wellFiled_site : site.WellFiled where
  volumes := Catalog.VolumesFiled.addVolume (.addVolume (fun _ _ h => by cases h) _) _
  backends := (wellFiled_empty 1).backends

/-- One volume is mounted, and not all of them can be. -/
theorem stopped_site : (site.mountConfigured "here" configuration).1.toOption = none ∧
    (site.mountConfigured "here" configuration).2.mounts.entries = [(1, 0)] := by
  decide +kernel

end Sample

theorem mountConfigured_halts_sample :
    Sample.site.WellFiled ∧ ∃ fault v' done m rest,
      Sample.site.mountConfigured "here" Sample.configuration = (.error fault, v') ∧
      v'.mounts.entries = [(1, 0)] ∧
      Sample.configuration.filter (·.node == "here") = done ++ m :: rest ∧
      Sample.site.Halted v' fault done m := by
  refine ⟨Sample.wellFiled_site, ?_⟩
  have hresult := mountConfigured_halts Sample.wellFiled_site "here" Sample.configuration
  obtain ⟨hfailed, htable⟩ := Sample.stopped_site
  cases hconfigured : Sample.site.mountConfigured "here" Sample.configuration with
  | mk answer v' =>
    rw [hconfigured] at hresult hfailed htable
    cases answer with
    | ok ids => cases hfailed
    | error fault =>
      obtain ⟨done, m, rest, hown, hhalted⟩ := hresult
      exact ⟨fault, v', done, m, rest, rfl, htable, hown, hhalted⟩

end Vault

end BlobVault
