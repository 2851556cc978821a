import BlobVault.Proofs.Catalog.Bookkeeping
import BlobVault.Proofs.Vault.Agreement

/-!
# The records that operations leave behind

Records are made by writes and changed by replications and commits, and by nothing else.

* `Vault.Reached` : the records of a vault come from such operations, whole ones or the steps of
  several that come between each other;
* `Vault.Reached.perform` : **whole calls lead from such a vault to such a vault**;
* `Vault.Reached.tidy` : **each of its records stands under its own reference, lists some volume,
  and waits for none that it lists.**
-/

namespace BlobVault

/-- Each record stands under its own reference, and the copies of its blob are where they should
be. -/
def Catalog.Tidy (c : Catalog) : Prop :=
  ∀ r b, c.records.get? r = some b → b.ref = r ∧ b.Placed c.volumes

namespace Catalog.Tidy

variable {c c' : Catalog} {r : Ref} {id : VolumeId}

/-- A record goes on, or is made, with one volume more on its list. -/
theorem listed (h : c.Tidy) {b : BlobRecord} {volumes : OrderedMap VolumeId Volume}
    (href : b.ref = r) (hb : b.Placed c.volumes) (hknown : c.volumes.contains id = true)
    (hvolumes : ∀ id', c.volumes.contains id' = true → volumes.contains id' = true) :
    Tidy { c with
      records := c.records.insert r ((b.arrived id).listed id), volumes := volumes } := by
  intro r' b' hb'
  by_cases hr : r' = r
  · subst hr
    rw [OrderedMap.get?_insert_self] at hb'
    rw [← Option.some.inj hb']
    exact ⟨(b.ref_arrived_listed id).trans href, (hb.arrived_listed hknown).mono hvolumes⟩
  · rw [OrderedMap.get?_insert_of_ne _ hr] at hb'
    obtain ⟨href', hplaced⟩ := h r' b' hb'
    exact ⟨href', hplaced.mono hvolumes⟩

theorem create {b : BlobRecord} (h : c.Tidy) (hvolumes : b.volumes = [id])
    (hpending : b.pending = []) (hc : c.create b id = .ok c') : c'.Tidy := by
  obtain ⟨-, volume, hvolume, rfl⟩ := create_eq_ok hc
  have hknown : c.volumes.contains id = true := OrderedMap.contains_of_get? hvolume
  have hb : b.Placed c.volumes := by
    refine ⟨?_, ?_, ?_, ?_⟩ <;> simp [hvolumes, hpending, hknown]
  exact h.listed rfl hb hknown fun id' hid' => (OrderedMap.contains_insert _ _ _ _).2 (.inr hid')

theorem confirm (h : c.Tidy) (hc : c.confirm r id = .ok c') : c'.Tidy := by
  obtain ⟨b, volume, hb, hvolume, rfl⟩ := confirm_eq_ok hc
  obtain ⟨href, hplaced⟩ := h r b hb
  refine h.listed href hplaced (OrderedMap.contains_of_get? hvolume) fun id' hid' => ?_
  split
  · exact hid'
  · exact (OrderedMap.contains_insert _ _ _ _).2 (.inr hid')

theorem commit (h : c.Tidy) {refs : List Ref} {desired : List VolumeId}
    (hc : c.commit refs desired = .ok c') : c'.Tidy := by
  obtain rfl := commit_eq_ok hc
  intro r b hb
  dsimp only at hb ⊢
  rw [get?_foldl_committed, Option.map_eq_some_iff] at hb
  obtain ⟨old, hold, rfl⟩ := hb
  obtain ⟨href, hplaced⟩ := h r old hold
  split
  · exact ⟨href, hplaced.committed desired⟩
  · exact ⟨href, hplaced⟩

end Catalog.Tidy

namespace Vault

/-- The records of the vault come from writes, replications and commits.  An operation is seen in
the step of it that touches the records; the vault may have changed in any other way before and
after that step, but volumes are not forgotten. -/
inductive Reached : Vault → Prop
  | fresh {v : Vault} (h : v.catalog.records = .empty) : Reached v
  | write {v : Vault} {c : Catalog} (h : Reached v) (w : Write) (plain : Bytes) (key : DataKey)
      (e : Encoded) (hc : v.catalog.create (w.recordOf plain key e) w.volume = .ok c) :
      Reached { v with catalog := c }
  | replicate {v : Vault} {c : Catalog} (h : Reached v) (r : Ref) (target : VolumeId)
      (hc : v.catalog.confirm r target = .ok c) : Reached { v with catalog := c }
  | commit {v : Vault} {c : Catalog} (h : Reached v) (refs : List Ref) (desired : List VolumeId)
      (hc : v.catalog.commit refs desired = .ok c) : Reached { v with catalog := c }
  | other {v v' : Vault} (h : Reached v) (hrecords : v'.catalog.records = v.catalog.records)
      (hvolumes : ∀ id, v.catalog.volumes.contains id = true →
        v'.catalog.volumes.contains id = true) : Reached v'

namespace Reached

variable {v v' : Vault}

/-- What leaves the catalog alone leaves the records alone. -/
theorem of_catalog (h : v.Reached) (hcatalog : v'.catalog = v.catalog) : v'.Reached :=
  h.other (by rw [hcatalog]) fun id hid => by rwa [hcatalog]

theorem writeBlob (h : v.Reached) (volume : VolumeId) (collection : String) (r : Ref)
    (content : Stream) (hint : Bool) : (v.write volume collection r content hint).2.Reached := by
  rcases v.catalog_write volume collection r content hint with hsame | ⟨w, plain, key, -, hc⟩
  · exact h.of_catalog hsame
  · exact (h.write w plain key _ hc).of_catalog rfl

theorem copyBlob (h : v.Reached) (source target : VolumeId) (r : Ref) :
    (v.replicate source target r).2.Reached := by
  rcases v.catalog_replicate source target r with hsame | hc
  · exact h.of_catalog hsame
  · exact (h.replicate r target hc).of_catalog rfl

/-- **Whole calls lead from such a vault to such a vault.** -/
theorem perform {s : Session} (h : s.vault.Reached) (call : Call) :
    (s.perform call).vault.Reached := by
  cases call with
  | write volume collection r content hint => exact h.writeBlob volume collection r content hint
  | replicate source target r => exact h.copyBlob source target r
  | commit refs desired =>
    unfold Session.perform
    cases hc : s.vault.catalog.commit refs desired with
    | error fault => simpa only [hc] using h
    | ok c => simpa only [hc] using h.commit refs desired hc
  | fetch r volume => exact h.of_catalog (quiet_fetch s.vault r volume).catalog
  | scrub r volume => exact h.of_catalog (quiet_scrub s.vault r volume).catalog

/-- **The records are tidy after any operations.** -/
theorem tidy (h : v.Reached) : v.catalog.Tidy := by
  induction h with
  | fresh hempty =>
    intro r b hb
    rw [hempty] at hb
    cases hb
  | write _ w plain key e hc ih => exact ih.create rfl rfl hc
  | replicate _ r target hc ih => exact ih.confirm hc
  | commit _ refs desired hc ih => exact ih.commit hc
  | other _ hrecords hvolumes ih =>
    intro r b hb
    rw [hrecords] at hb
    obtain ⟨href, hplaced⟩ := ih r b hb
    exact ⟨href, hplaced.mono hvolumes⟩

end Reached

end Vault

end BlobVault
