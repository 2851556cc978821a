import BlobVault.Proofs.Vault.Configured
import BlobVault.Proofs.Vault.Identity

/-!
# How volumes and backends are filed

A volume is added to a catalog under its own number.  From then on it is only replaced by itself
with other counters, and backends are only added, each under the next number.

* `Catalog.Learns` : what the catalog is asked for by others than the vault;
* `Node.catalog_perform` : a call makes a record, confirms a copy, or leaves the catalog alone;
* `Node.Step` : a call, a change of the catalog or of the key ring, or a restart;
* `Node.wellFiled_of_history` : **every vault that is reached from an empty one is well filed.**
-/

namespace BlobVault

namespace Catalog

variable {c c' : Catalog} {id : VolumeId}

namespace VolumesFiled

theorem create (h : c.VolumesFiled) {b : BlobRecord} (hc : c.create b id = .ok c') :
    c'.VolumesFiled := by
  obtain ⟨-, volume, hvolume, rfl⟩ := create_eq_ok hc
  have hid : (volume.holding b).id = id := h id volume hvolume
  exact h.insert hid rfl

theorem confirm (h : c.VolumesFiled) {r : Ref} (hc : c.confirm r id = .ok c') :
    c'.VolumesFiled := by
  obtain ⟨b, volume, -, hvolume, rfl⟩ := confirm_eq_ok hc
  by_cases hon : b.isOn id = true
  · rw [if_pos hon]
    exact h
  · rw [if_neg hon]
    have hid : (volume.holding b).id = id := h id volume hvolume
    exact h.insert hid rfl

end VolumesFiled

/-- What the catalog is asked for by others than the vault. -/
inductive Learns (c : Catalog) : Catalog → Prop
  | addVolume (volume : Volume) : Learns c (c.addVolume volume)
  | addCollection (name : String) (e : Envelope) : Learns c (c.addCollection name e)
  | commit {refs : List Ref} {desired : List VolumeId} {c' : Catalog}
      (hc : c.commit refs desired = .ok c') : Learns c c'
  | saveJob (j : ScrubJob) : Learns c (c.saveJob j)

namespace Learns

theorem volumesFiled (hl : c.Learns c') (h : c.VolumesFiled) : c'.VolumesFiled := by
  cases hl with
  | addVolume volume => exact h.addVolume volume
  | addCollection name e => exact h
  | commit hc =>
    obtain rfl := commit_eq_ok hc
    exact h
  | saveJob j => exact h

/-- None of it makes a record. -/
theorem no_record (hl : c.Learns c') {r : Ref} (h : c.records.get? r = none) :
    c'.records.get? r = none := by
  cases hl with
  | addVolume volume => exact h
  | addCollection name e => exact h
  | commit hc =>
    obtain rfl := commit_eq_ok hc
    rw [get?_foldl_committed, h, Option.map_none]
  | saveJob j => exact h

end Learns

end Catalog

namespace Vault

/-! ### Mounting leaves the catalog alone -/

theorem catalog_mountConfiguredOne (v : Vault) (m : Mount) :
    (v.mountConfiguredOne m).2.catalog = v.catalog := by
  cases hvolume : v.catalog.findVolume m.volumeId with
  | error fault => rw [mountConfiguredOne, hvolume]
  | ok volume => exact (tries_mountConfiguredOne hvolume).stamped.catalog

theorem catalog_mountAll (v : Vault) (ms : List Mount) :
    (v.mountAll ms).2.catalog = v.catalog := by
  induction ms generalizing v with
  | nil => rfl
  | cons m ms ih =>
    have hcatalog := v.catalog_mountConfiguredOne m
    cases hone : v.mountConfiguredOne m with
    | mk answer v₁ =>
      rw [hone] at hcatalog
      cases answer with
      | error fault =>
        rw [mountAll_of_error hone]
        exact hcatalog
      | ok id =>
        rw [mountAll_of_ok hone]
        exact (ih v₁).trans hcatalog

end Vault

namespace Node

open Vault

variable {s s' : Node}

/-- A call to the vault makes a record in the catalog, confirms a copy there, or leaves the catalog
alone. -/
theorem catalog_perform (h : s.Sound) {call : NodeCall}
    (hvault : ∀ catalog ring, call ≠ .learn catalog ring) :
    (s.perform call).vault.catalog = s.vault.catalog ∨
    (∃ b id, s.vault.catalog.create b id = .ok (s.perform call).vault.catalog) ∨
      ∃ r id, s.vault.catalog.confirm r id = .ok (s.perform call).vault.catalog := by
  cases call with
  | addBackend backend => exact .inl rfl
  | prepare uuid b =>
    rw [perform]
    split
    · exact .inl (onlyStamps_prepare ‹_› (h.regular.plain b) uuid).1.catalog
    · exact .inl rfl
  | mount id uuid b =>
    rw [perform]
    split
    · have htries : Tries (fun _ _ => False) s.vault id uuid b (s.vault.mount id uuid b) :=
        tries_mount ‹_› (h.regular.plain b) id uuid
      exact .inl htries.stamped.catalog
    · exact .inl rfl
  | mountOrPrepare volume b =>
    rw [perform]
    split
    · exact .inl (tries_mountOrPrepare ‹_› (h.regular.plain b) volume).stamped.catalog
    · exact .inl rfl
  | mountConfigured node mounts =>
    rw [perform, vault_afterMountAll]
    exact .inl (catalog_mountAll _ _)
  | write volume collection r content hint =>
    rcases s.vault.catalog_write volume collection r content hint with
      hsame | ⟨w, plain, key, -, hc⟩
    · exact .inl hsame
    · exact .inr (.inl ⟨(w.stored plain key).1, w.volume, hc⟩)
  | fetch r volume => exact .inl (quiet_fetch s.vault r volume).catalog
  | replicate source target r =>
    rcases s.vault.catalog_replicate source target r with hsame | hc
    · exact .inl hsame
    · exact .inr (.inr ⟨r, target, hc⟩)
  | scrub r volume => exact .inl (quiet_scrub s.vault r volume).catalog
  | learn catalog ring => exact absurd rfl (hvault catalog ring)

theorem volumesFiled_perform (h : s.Sound) (hfiled : s.vault.catalog.VolumesFiled)
    {call : NodeCall} (hvault : ∀ catalog ring, call ≠ .learn catalog ring) :
    (s.perform call).vault.catalog.VolumesFiled := by
  rcases catalog_perform h hvault with hsame | ⟨b, id, hc⟩ | ⟨r, id, hc⟩
  · rw [hsame]
    exact hfiled
  · exact hfiled.create hc
  · exact hfiled.confirm hc

/-! ### Any history -/

/-- The node after a restart: the files and the catalog are still there, and nothing else. -/
def restarted (s : Node) (cacheCapacity : Nat) : Node :=
  start
    { Vault.empty cacheCapacity with
      storage := { s.vault.storage with backends := .empty }
      catalog := s.vault.catalog }

/-- What happens to a node. -/
inductive Step : Node → Node → Prop
  | call (s : Node) {call : NodeCall} (hallowed : call.Allowed)
      (hvault : ∀ catalog ring, call ≠ .learn catalog ring) : Step s (s.perform call)
  | learn (s : Node) {catalog : Catalog} (hlearns : s.vault.catalog.Learns catalog) :
      Step s (s.perform (.learn catalog s.vault.ring))
  | rekey (s : Node) (ring : KeyRing) : Step s (s.perform (.learn s.vault.catalog ring))
  | restart (s : Node) (cacheCapacity : Nat) : Step s (s.restarted cacheCapacity)

/-- What every step keeps. -/
structure Kept (s : Node) : Prop extends Sound s where
  volumes : s.vault.catalog.VolumesFiled

theorem kept_start (cacheCapacity : Nat) : (start (.empty cacheCapacity)).Kept where
  toSound := sound_start (regular_empty cacheCapacity) OrderedMap.get?_empty
  volumes := (wellFiled_empty cacheCapacity).volumes

theorem Kept.restarted (h : s.Kept) (cacheCapacity : Nat) : (s.restarted cacheCapacity).Kept where
  toSound := by
    have hempty := regular_empty cacheCapacity
    exact sound_start ⟨hempty.numbered, hempty.plain, h.regular.unrecorded, hempty.served⟩
      OrderedMap.get?_empty
  volumes := h.volumes

theorem Kept.step (h : s.Kept) (hstep : Step s s') : s'.Kept := by
  cases hstep with
  | call hallowed hvault =>
    exact ⟨(h.perform hallowed).1, volumesFiled_perform h.toSound h.volumes hvault⟩
  | learn hlearns =>
    have hallowed := hlearns.no_record h.regular.unrecorded
    exact ⟨(h.perform (c := .learn _ _) hallowed).1, hlearns.volumesFiled h.volumes⟩
  | rekey ring => exact ⟨(h.perform (c := .learn _ _) h.regular.unrecorded).1, h.volumes⟩
  | restart cacheCapacity => exact h.restarted cacheCapacity

/-- **Every vault that is reached from an empty one is well filed**, whatever was called, whatever
the catalog has learned, and however often the node was restarted. -/
theorem wellFiled_of_history {cacheCapacity : Nat}
    (h : Relation.ReflTransGen Step (start (.empty cacheCapacity)) s) : s.vault.WellFiled := by
  have hkept : s.Kept := by
    induction h with
    | refl => exact kept_start cacheCapacity
    | tail _ hstep ih => exact ih.step hstep
  exact ⟨hkept.volumes, hkept.regular.numbered⟩

end Node

end BlobVault
