import BlobVault.Proofs.Catalog.Descriptor
import BlobVault.Proofs.Storage.Service
import BlobVault.Proofs.Vault.Mounting

/-!
# What a mount that fails leaves behind

A volume that never held a blob may be mounted on a backend without a descriptor, which is given
one first.  Whether the volume is mounted already is only asked after that.

* `Vault.readDescriptor_of_absent` : what a backend in working order says of a descriptor that it
  does not have;
* `Vault.prepare_of_absent` : a backend without a descriptor is given one;
* `Vault.Stamps` : the volume is mounted elsewhere, counts no blob, and the backend is blank;
* `Vault.mountOrPrepare_of_blank` : what becomes of a backend without a descriptor;
* `Vault.mountOrPrepare_traces` : **if the mount fails, nothing is mounted, and no object has
  changed unless the call stamps a blank backend**, which then carries the identifier of a volume
  that is mounted elsewhere.
-/

namespace BlobVault

namespace Vault

open Storage

variable {v : Vault} {b : BackendId} {uuid : Uuid} {fault : Fault}

/-- A backend in working order says that a descriptor is absent if it is. -/
theorem readDescriptor_of_absent (h : v.storage.Answers b)
    (habsent : v.storage.object? b .descriptor = none) :
    (v.readDescriptor b).1 = .error (.notFound (.blob .descriptor)) := by
  have hanswer : v.rawFetch b .descriptor =
      (.error (.notFound (.blob .descriptor)), (v.rawFetch b .descriptor).2) := by
    rw [← h.absent .descriptor habsent]
    rfl
  rw [readDescriptor, hanswer]

/-- Reading a descriptor changes nothing that could be told. -/
theorem object?_readDescriptor (v : Vault) (b b' : BackendId) (r : Ref) :
    (v.readDescriptor b).2.storage.object? b' r = v.storage.object? b' r := by
  rw [readDescriptor_snd]
  exact object?_fetch v.storage b _ b' r

theorem mounts_readDescriptor (v : Vault) (b : BackendId) :
    (v.readDescriptor b).2.mounts = v.mounts := by
  rw [readDescriptor_snd]
  rfl

theorem sameLayout_readDescriptor (v : Vault) (b : BackendId) :
    SameLayout v.storage (v.readDescriptor b).2.storage := by
  rw [readDescriptor_snd]
  exact sameLayout_fetch v.storage b .descriptor

theorem answers_readDescriptor (h : v.storage.Answers b) :
    (v.readDescriptor b).2.storage.Answers b := by
  rw [readDescriptor_snd]
  exact h.fetch b .descriptor

/-- A mount that fails has read the descriptor, and done nothing else. -/
theorem mount_snd_of_error {id : VolumeId} (h : (v.mount id uuid b).1 = .error fault) :
    (v.mount id uuid b).2 = (v.readDescriptor b).2 := by
  rw [mount] at h ⊢
  cases hread : v.readDescriptor b with
  | mk answer v' =>
    rw [hread] at h
    cases answer with
    | error fault' => rfl
    | ok found =>
      dsimp only at h ⊢
      split at h
      · rename_i huuid
        rw [if_pos huuid]
      · rename_i huuid
        split at h
        · rename_i hmounted
          rw [if_neg huuid, if_pos hmounted]
        · cases h

/-- A mount leaves the objects alone, whatever it answers. -/
theorem object?_mount (v : Vault) (id : VolumeId) (uuid : Uuid) (b b' : BackendId) (r : Ref) :
    (v.mount id uuid b).2.storage.object? b' r = v.storage.object? b' r := by
  rw [← object?_readDescriptor v b b' r, mount]
  cases hread : v.readDescriptor b with
  | mk answer v' =>
    cases answer with
    | error fault => rfl
    | ok found =>
      dsimp only
      split
      · rfl
      · split <;> rfl

/-- The answer of a mount. -/
theorem mount_fst (v : Vault) (id : VolumeId) (uuid : Uuid) (b : BackendId) :
    (v.mount id uuid b).1 =
      match (v.readDescriptor b).1 with
      | .error fault => .error fault
      | .ok found =>
        if found.uuid ≠ uuid then .error (.configuration (.wrongVolume id found.uuid uuid))
        else if v.isMounted id then .error (.configuration (.alreadyMounted id))
        else .ok () := by
  have hmounts : (v.readDescriptor b).2.isMounted id = v.isMounted id := by
    rw [isMounted, mounts_readDescriptor]
    rfl
  rw [mount]
  cases hread : v.readDescriptor b with
  | mk answer v' =>
    rw [hread] at hmounts
    cases answer with
    | error fault => rfl
    | ok found =>
      dsimp only at hmounts ⊢
      rw [hmounts]
      split
      · rfl
      · split <;> rfl

/-- A backend without a descriptor is given one. -/
theorem prepare_of_absent (uuid : Uuid) (h : v.storage.Answers b)
    (habsent : v.storage.object? b .descriptor = none) :
    (v.prepare uuid b).1 = .ok () ∧ (v.prepare uuid b).2.mounts = v.mounts ∧
      SameLayout v.storage (v.prepare uuid b).2.storage ∧
      Stored v.storage (v.prepare uuid b).2.storage b .descriptor
        (Utf8.encode (Descriptor.toJson ⟨uuid⟩).render) := by
  have hread := readDescriptor_of_absent h habsent
  have hobjects := object?_readDescriptor v b
  have hmounts := mounts_readDescriptor v b
  have hlayout := sameLayout_readDescriptor v b
  have hanswers := answers_readDescriptor h
  rw [prepare]
  cases hd : v.readDescriptor b with
  | mk answer v' =>
    rw [hd] at hread hobjects hmounts hlayout hanswers
    dsimp only at hread
    subst hread
    have hcontent := Stream.content_ofBytes (Utf8.encode (Descriptor.toJson ⟨uuid⟩).render)
    have hok := hanswers.stores .descriptor _ _ hcontent
    have hstored := object?_store v'.storage b .descriptor
      (.ofBytes (Utf8.encode (Descriptor.toJson ⟨uuid⟩).render))
    rw [hok] at hstored
    obtain ⟨bs, hbs, hstored⟩ := hstored
    obtain rfl := Except.ok.inj (hcontent.symm.trans hbs)
    refine ⟨hok, hmounts, hlayout.trans (sameLayout_store _ b _ _), fun b' r' hb' => ?_⟩
    have hplace : b' = b ∨ v'.storage.Apart b b' := hb'.imp_right hlayout.apart
    refine (hstored b' r' hplace).trans ?_
    rw [hobjects]

/-! ### Mounts that fail -/

/-- The volume is mounted and counts no blob, and the backend has no descriptor. -/
def Stamps (v : Vault) (volume : Volume) (b : BackendId) : Prop :=
  v.isMounted volume.id = true ∧ volume.blobCount = 0 ∧
    v.storage.object? b .descriptor = none

variable {volume : Volume}

/-- A mount on a backend with a descriptor does not say that something is absent. -/
theorem mount_of_present (h : (v.storage.backend b).isPlain = true) {bs : Bytes}
    (hobject : v.storage.object? b .descriptor = some bs) {id : VolumeId}
    (hm : (v.mount id uuid b).1 = .error fault) : fault.isNotFound = false := by
  rw [mount_fst, readDescriptor_of_object h hobject] at hm
  cases hread : readJson Descriptor.shape Descriptor.ofDatum? bs with
  | error fault' =>
    rw [hread] at hm
    obtain rfl := Except.error.inj hm
    rfl
  | ok found =>
    rw [hread] at hm
    dsimp only at hm
    split at hm
    · obtain rfl := Except.error.inj hm
      rfl
    · split at hm
      · obtain rfl := Except.error.inj hm
        rfl
      · cases hm

/-- A volume cannot be mounted twice, even on a backend that carries its identifier. -/
theorem mount_of_carries (id : VolumeId) (h : (v.storage.backend b).isPlain = true)
    (hc : v.Carries b uuid) : (v.mount id uuid b).1 =
      if v.isMounted id then .error (.configuration (.alreadyMounted id)) else .ok () := by
  obtain ⟨bs, hobject, hread⟩ := hc
  rw [mount_fst, readDescriptor_of_object h hobject, hread]
  simp

/-- The first of the two mounts fails, and nothing more is tried. -/
theorem mountOrPrepare_of_error (hm : (v.mount volume.id volume.uuid b).1 = .error fault)
    (h : (fault.isNotFound && volume.blobCount == 0) = false) :
    v.mountOrPrepare volume b = (.error fault, (v.readDescriptor b).2) := by
  rw [← mount_snd_of_error hm, mountOrPrepare]
  cases hresult : v.mount volume.id volume.uuid b with
  | mk answer v' =>
    rw [hresult] at hm
    obtain rfl : answer = .error fault := hm
    simp [h]

/-- The first of the two mounts finds nothing, and the backend is prepared for the second. -/
theorem mountOrPrepare_of_notFound {v₁ : Vault}
    (hm : (v.mount volume.id volume.uuid b).1 = .error fault)
    (hnext : (v.mount volume.id volume.uuid b).2 = v₁) (h : fault.isNotFound = true)
    (hcount : volume.blobCount = 0) (hok : (v₁.prepare volume.uuid b).1 = .ok ()) :
    v.mountOrPrepare volume b = (v₁.prepare volume.uuid b).2.mount volume.id volume.uuid b := by
  rw [mountOrPrepare]
  cases hresult : v.mount volume.id volume.uuid b with
  | mk answer v' =>
    rw [hresult] at hm hnext
    obtain rfl : answer = .error fault := hm
    obtain rfl : v' = v₁ := hnext
    dsimp only
    rw [if_pos (by simp [h, hcount])]
    cases hp : v'.prepare volume.uuid b with
    | mk answer v₂ =>
      rw [hp] at hok
      obtain rfl : answer = .ok () := hok
      rfl

/-- A blank backend is prepared, and then the volume is mounted unless it is mounted already. -/
theorem mountOrPrepare_of_blank (h : v.storage.Answers b)
    (habsent : v.storage.object? b .descriptor = none) (hcount : volume.blobCount = 0) :
    (v.mountOrPrepare volume b).1 =
        (if v.isMounted volume.id then .error (.configuration (.alreadyMounted volume.id))
          else .ok ()) ∧
      (v.isMounted volume.id = true → (v.mountOrPrepare volume b).2.mounts = v.mounts) ∧
      Stored v.storage (v.mountOrPrepare volume b).2.storage b .descriptor
        (Utf8.encode (Descriptor.toJson ⟨volume.uuid⟩).render) := by
  have hfirst : (v.mount volume.id volume.uuid b).1 = .error (.notFound (.blob .descriptor)) := by
    rw [mount_fst, readDescriptor_of_absent h habsent]
  have hnext := mount_snd_of_error hfirst
  have hlayout := sameLayout_readDescriptor v b
  obtain ⟨hok, hmounts, hlayout₂, hstored⟩ := prepare_of_absent volume.uuid
    (answers_readDescriptor h) ((object?_readDescriptor v b b .descriptor).trans habsent)
  rw [mounts_readDescriptor] at hmounts
  have hresult := mountOrPrepare_of_notFound hfirst hnext rfl hcount hok
  generalize ((v.readDescriptor b).2.prepare volume.uuid b).2 = v₂ at *
  have hplain : (v₂.storage.backend b).isPlain = true := by
    rw [hlayout₂.plain, hlayout.plain, h.plain]
  have hcarries : v₂.Carries b volume.uuid := by
    refine ⟨_, ?_, Descriptor.readJson_toJson ⟨volume.uuid⟩⟩
    rw [hstored b .descriptor (.inl rfl), if_pos ⟨rfl, rfl⟩]
  have hmounted : v₂.isMounted volume.id = v.isMounted volume.id := by
    rw [isMounted, hmounts]
    rfl
  have hanswer := mount_of_carries volume.id hplain hcarries
  rw [hmounted] at hanswer
  rw [hresult]
  refine ⟨hanswer, fun hm => ?_, fun b' r' hb' => ?_⟩
  · rw [if_pos hm] at hanswer
    rw [mount_snd_of_error hanswer, mounts_readDescriptor, hmounts]
  · rw [object?_mount, hstored b' r' (hb'.imp_right hlayout.apart), object?_readDescriptor]

/-- A mount that fails without stamping the backend has tried nothing more. -/
theorem mountOrPrepare_of_not_stamps (h : v.storage.Answers b) (hs : ¬ v.Stamps volume b)
    (herror : (v.mountOrPrepare volume b).1 = .error fault) :
    (v.mountOrPrepare volume b).2 = (v.readDescriptor b).2 := by
  cases hm : (v.mount volume.id volume.uuid b).1 with
  | ok u =>
    rw [mountOrPrepare] at herror
    cases hresult : v.mount volume.id volume.uuid b with
    | mk answer v' =>
      rw [hresult] at hm herror
      obtain rfl : answer = .ok u := hm
      cases herror
  | error fault' =>
    have hstop : (fault'.isNotFound && volume.blobCount == 0) = false := by
      cases hobject : v.storage.object? b .descriptor with
      | some bs => rw [mount_of_present h.plain hobject hm, Bool.false_and]
      | none =>
        by_cases hcount : volume.blobCount = 0
        · -- a blank backend is refused only if the volume is mounted
          obtain ⟨hanswer, -⟩ := mountOrPrepare_of_blank h hobject hcount
          rw [herror] at hanswer
          split at hanswer
          · rename_i hmounted
            exact absurd ⟨hmounted, hcount, hobject⟩ hs
          · cases hanswer
        · simp [hcount]
    rw [mountOrPrepare_of_error hm hstop]

/-- **If the mount fails, nothing is mounted, and no object has changed unless the call stamps a
blank backend.**  In that case it always fails, with the complaint that the volume is mounted, and
the backend carries the identifier of the volume from then on. -/
theorem mountOrPrepare_traces (h : v.storage.Answers b) :
    (∀ fault, (v.mountOrPrepare volume b).1 = .error fault →
      (v.mountOrPrepare volume b).2.mounts = v.mounts ∧
      (¬ v.Stamps volume b → ∀ b' r,
        (v.mountOrPrepare volume b).2.storage.object? b' r = v.storage.object? b' r)) ∧
    (v.Stamps volume b →
      (v.mountOrPrepare volume b).1 = .error (.configuration (.alreadyMounted volume.id)) ∧
      (v.mountOrPrepare volume b).2.Carries b volume.uuid ∧
      Stored v.storage (v.mountOrPrepare volume b).2.storage b .descriptor
        (Utf8.encode (Descriptor.toJson ⟨volume.uuid⟩).render)) := by
  refine ⟨fun fault herror => ?_, fun ⟨hmounted, hcount, habsent⟩ => ?_⟩
  · by_cases hs : v.Stamps volume b
    · obtain ⟨-, hmounts, -⟩ := mountOrPrepare_of_blank h hs.2.2 hs.2.1
      exact ⟨hmounts hs.1, fun hnot => absurd hs hnot⟩
    · rw [mountOrPrepare_of_not_stamps h hs herror]
      exact ⟨mounts_readDescriptor v b, fun _ => object?_readDescriptor v b⟩
  · obtain ⟨hanswer, -, hstored⟩ := mountOrPrepare_of_blank h habsent hcount
    rw [if_pos hmounted] at hanswer
    refine ⟨hanswer, ⟨_, ?_, Descriptor.readJson_toJson ⟨volume.uuid⟩⟩, hstored⟩
    rw [hstored b .descriptor (.inl rfl), if_pos ⟨rfl, rfl⟩]

namespace Sample

/-- A volume that is mounted, and a second, blank backend in memory. -/
def twins : Vault := { Vault.empty 1 with mounts := OrderedMap.empty.insert 1 10 }

def freshVolume : Volume := ⟨1, ⟨7⟩, "first", 0, 0, 0⟩

theorem answers_twins : twins.storage.Answers 20 := by
  have hmemory : twins.storage.backend 20 = .memory (.empty localCost) := rfl
  exact answers_memory hmemory

theorem stamps_twins : twins.Stamps freshVolume 20 := ⟨rfl, rfl, rfl⟩

end Sample

theorem mountOrPrepare_traces_sample :
    Sample.twins.storage.Answers 20 ∧ Sample.twins.Stamps Sample.freshVolume 20 ∧
      (Sample.twins.mountOrPrepare Sample.freshVolume 20).1 =
        .error (.configuration (.alreadyMounted 1)) ∧
      (Sample.twins.mountOrPrepare Sample.freshVolume 20).2.Carries 20 ⟨7⟩ := by
  obtain ⟨hanswer, hcarries, -⟩ :=
    (mountOrPrepare_traces Sample.answers_twins).2 Sample.stamps_twins
  exact ⟨Sample.answers_twins, Sample.stamps_twins, hanswer, hcarries⟩

/-- A mount that fails may leave a descriptor on a backend that had none. -/
theorem stamped_sample :
    ¬ ∀ (v : Vault) (volume : Volume) (b : BackendId) (fault : Fault), v.storage.Answers b →
      (v.mountOrPrepare volume b).1 = .error fault →
      (v.mountOrPrepare volume b).2.mounts = v.mounts ∧
        ∀ r, (v.mountOrPrepare volume b).2.storage.object? b r = v.storage.object? b r := by
  intro htraceless
  obtain ⟨hmounted, hcount, habsent⟩ := Sample.stamps_twins
  obtain ⟨hanswer, -, hstored⟩ := mountOrPrepare_of_blank Sample.answers_twins habsent hcount
  rw [if_pos hmounted] at hanswer
  have hsame := (htraceless _ _ _ _ Sample.answers_twins hanswer).2 .descriptor
  rw [habsent, hstored 20 .descriptor (.inl rfl), if_pos ⟨rfl, rfl⟩] at hsame
  cases hsame

end Vault

end BlobVault
