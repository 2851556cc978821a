import BlobVault.Proofs.Keys.Resolution
import BlobVault.Proofs.Storage.Objects
import BlobVault.Vault.Basic

/-!
# The objects of a vault

What the mounted volumes of a vault hold, and which parts of a vault an operation leaves alone.

* `Vault.object?` : what a mounted volume holds under a reference;
* `Vault.Separate` : every mounted volume has a backend of its own;
* `Vault.Follows` : what no operation on blobs changes, and how the key ring may change;
* `Vault.Quiet`, `Vault.Landed` : an operation that left no trace, and one that stored one object;
* `Vault.rawStore_spec` : storing either leaves no trace or stores one object.
-/

namespace BlobVault

theorem Catalog.resolveKey_congr {c c' : Catalog} (h : c'.envelopes = c.envelopes) :
    c'.resolveKey = c.resolveKey := by
  funext id ring
  rw [resolveKey, resolveKey, h]

namespace Vault

/-- What a mounted volume holds under a reference. -/
def object? (v : Vault) (volume : VolumeId) (r : Ref) : Option Bytes :=
  (v.mounts.get? volume).bind fun b => v.storage.object? b r

theorem object?_of_not_mounted {v : Vault} {volume : VolumeId}
    (h : v.mounts.get? volume = none) (r : Ref) : v.object? volume r = none := by
  rw [object?, h, Option.bind_none]

theorem object?_of_mounted {v : Vault} {volume : VolumeId} {b : BackendId}
    (h : v.mounts.get? volume = some b) (r : Ref) :
    v.object? volume r = v.storage.object? b r := by
  rw [object?, h, Option.bind_some]

/-- Every mounted volume has a backend of its own, which answers as it should. -/
structure Separate (v : Vault) : Prop where
  plain : ∀ volume b, v.mounts.get? volume = some b → (v.storage.backend b).isPlain = true
  own : ∀ volume volume' b b', v.mounts.get? volume = some b → v.mounts.get? volume' = some b' →
    volume ≠ volume' → b ≠ b' ∧ v.storage.Apart b b'

/-- No operation on blobs changes the mounts, the places of the backends, or what the collections
and the envelopes say; and it changes the key ring only by resolving keys. -/
structure Follows (v v' : Vault) : Prop where
  mounts : v'.mounts = v.mounts
  layout : v.storage.SameLayout v'.storage
  envelopes : v'.catalog.envelopes = v.catalog.envelopes
  collections : v'.catalog.collections = v.catalog.collections
  ring : ∃ ids, v'.ring = v.catalog.ringAfter v.ring ids

namespace Follows

variable {v v' v'' : Vault}

theorem refl (v : Vault) : Follows v v := ⟨rfl, .refl _, rfl, rfl, [], rfl⟩

theorem trans (h : Follows v v') (h' : Follows v' v'') : Follows v v'' := by
  refine ⟨h'.mounts.trans h.mounts, h.layout.trans h'.layout, h'.envelopes.trans h.envelopes,
    h'.collections.trans h.collections, ?_⟩
  obtain ⟨ids, hids⟩ := h.ring
  obtain ⟨ids', hids'⟩ := h'.ring
  refine ⟨ids ++ ids', ?_⟩
  rw [hids', hids, Catalog.ringAfter, Catalog.ringAfter, Catalog.ringAfter, List.foldl_append,
    Catalog.resolveKey_congr h.envelopes]

theorem ofRing (v : Vault) (ids : List String) :
    Follows v { v with ring := v.catalog.ringAfter v.ring ids } :=
  ⟨rfl, .refl _, rfl, rfl, ids, rfl⟩

theorem ofStorage {st : Storage} (h : v.storage.SameLayout st) :
    Follows v { v with storage := st } :=
  ⟨rfl, h, rfl, rfl, [], rfl⟩

theorem ofCatalog {c : Catalog} (henv : c.envelopes = v.catalog.envelopes)
    (hcol : c.collections = v.catalog.collections) : Follows v { v with catalog := c } :=
  ⟨rfl, .refl _, henv, hcol, [], rfl⟩

/-- A mounted backend that tells the truth stays one. -/
theorem serves (h : Follows v v') {volume : VolumeId} {b : BackendId}
    (hb : v.mounts.get? volume = some b) (hp : (v.storage.backend b).isPlain = true) :
    v'.mounts.get? volume = some b ∧ (v'.storage.backend b).isPlain = true := by
  rw [h.mounts, h.layout.plain]
  exact ⟨hb, hp⟩

theorem separate (h : Follows v v') (hs : v.Separate) : v'.Separate where
  plain volume b hb := by
    rw [h.mounts] at hb
    rw [h.layout.plain]
    exact hs.plain volume b hb
  own volume volume' b b' hb hb' hne := by
    rw [h.mounts] at hb hb'
    obtain ⟨hbb, hap⟩ := hs.own volume volume' b b' hb hb' hne
    exact ⟨hbb, h.layout.apart hap⟩

theorem steady (h : Follows v v') (hs : v.catalog.Steady v.ring) :
    v'.catalog.Steady v'.ring := by
  obtain ⟨ids, hids⟩ := h.ring
  intro ids' id
  rw [hids, Catalog.ringAfter, Catalog.resolveKey_congr h.envelopes]
  exact hs.ringAfter ids ids' id

/-- Identifiers resolve to the same keys as before. -/
theorem resolveKey (h : Follows v v') (hs : v.catalog.Steady v.ring) (id : String) :
    (v'.catalog.resolveKey id v'.ring).1 = (v.catalog.resolveKey id v.ring).1 := by
  obtain ⟨ids, hids⟩ := h.ring
  rw [hids, Catalog.resolveKey_congr h.envelopes]
  exact hs ids id

/-- The collections have the same keys as before. -/
theorem keyForNew (h : Follows v v') (hs : v.catalog.Steady v.ring) (collection : String) :
    (v'.catalog.keyForNew collection v'.ring).1 = (v.catalog.keyForNew collection v.ring).1 := by
  rw [Catalog.keyForNew, Catalog.keyForNew, h.collections]
  cases v.catalog.collections.get? collection with
  | none => rfl
  | some id => exact h.resolveKey hs id

end Follows

/-- An operation between the two states left no trace but in the key ring and in what the backends
remember of who asked. -/
structure Quiet (v v' : Vault) : Prop where
  follows : Follows v v'
  catalog : v'.catalog = v.catalog
  objects : ∀ volume r, v'.object? volume r = v.object? volume r

/-- An operation between the two states stored one object. -/
structure Landed (volume : VolumeId) (r : Ref) (bs : Bytes) (v v' : Vault) : Prop where
  follows : Follows v v'
  catalog : v'.catalog = v.catalog
  objects : ∀ volume' r',
    v'.object? volume' r' = if volume' = volume ∧ r' = r then some bs else v.object? volume' r'

namespace Quiet

variable {v v' v'' : Vault}

theorem refl (v : Vault) : Quiet v v := ⟨.refl v, rfl, fun _ _ => rfl⟩

theorem trans (h : Quiet v v') (h' : Quiet v' v'') : Quiet v v'' :=
  ⟨h.follows.trans h'.follows, h'.catalog.trans h.catalog,
    fun volume r => (h'.objects volume r).trans (h.objects volume r)⟩

theorem ofRing (v : Vault) (ids : List String) :
    Quiet v { v with ring := v.catalog.ringAfter v.ring ids } :=
  ⟨.ofRing v ids, rfl, fun _ _ => rfl⟩

theorem landed {volume : VolumeId} {r : Ref} {bs : Bytes} (h : Quiet v v')
    (h' : Landed volume r bs v' v'') : Landed volume r bs v v'' := by
  refine ⟨h.follows.trans h'.follows, h'.catalog.trans h.catalog, fun volume' r' => ?_⟩
  rw [h'.objects, h.objects]

end Quiet

/-- Fetching leaves no trace. -/
theorem quiet_rawFetch (v : Vault) (b : BackendId) (r : Ref) : Quiet v (v.rawFetch b r).2 where
  follows := .ofStorage (Storage.sameLayout_fetch v.storage b r)
  catalog := rfl
  objects volume r' := by
    show (v.mounts.get? volume).bind (fun b' => (v.storage.fetch b r).2.object? b' r') = _
    simp only [Storage.object?_fetch]
    rfl

theorem follows_rawStore (v : Vault) (b : BackendId) (r : Ref) (content : Stream) :
    Follows v (v.rawStore b r content).2 :=
  .ofStorage (Storage.sameLayout_store v.storage b r content)

/-- A store that fails leaves no trace. -/
theorem quiet_rawStore_of_error {v : Vault} {b : BackendId} {r : Ref} {content : Stream}
    {fault : Fault} (h : (v.rawStore b r content).1 = .error fault) :
    Quiet v (v.rawStore b r content).2 where
  follows := follows_rawStore v b r content
  catalog := rfl
  objects volume r' := by
    show (v.mounts.get? volume).bind (fun b' => (v.storage.store b r content).2.object? b' r') = _
    simp only [Storage.object?_store_of_error h]
    rfl

/-- The object that a store is about, whatever else shares its backend. -/
theorem rawStore_self {v : Vault} {volume : VolumeId} {b : BackendId}
    (hb : v.mounts.get? volume = some b) (r : Ref) (content : Stream) :
    match (v.rawStore b r content).1 with
    | .ok () => ∃ bs, content.content = .ok bs ∧
        (v.rawStore b r content).2.object? volume r = some bs
    | .error _ => (v.rawStore b r content).2.object? volume r = v.object? volume r := by
  have hstore := Storage.object?_store v.storage b r content
  rw [object?_of_mounted hb, object?_of_mounted (v := (v.rawStore b r content).2) hb]
  show match (v.storage.store b r content).1 with | .ok () => _ | .error _ => _
  cases ha : (v.storage.store b r content).1 with
  | ok u =>
    rw [ha] at hstore
    obtain ⟨bs, hbs, hst⟩ := hstore
    exact ⟨bs, hbs, (hst b r (.inl rfl)).trans (if_pos ⟨rfl, rfl⟩)⟩
  | error fault =>
    rw [ha] at hstore
    exact hstore b r

/-- Storing on a mounted volume either stores one object or leaves no trace. -/
theorem rawStore_spec {v : Vault} (hs : v.Separate) {volume : VolumeId} {b : BackendId}
    (hb : v.mounts.get? volume = some b) (r : Ref) (content : Stream) :
    match (v.rawStore b r content).1 with
    | .ok () => ∃ bs, content.content = .ok bs ∧ Landed volume r bs v (v.rawStore b r content).2
    | .error _ => Quiet v (v.rawStore b r content).2 := by
  have hstore := Storage.object?_store v.storage b r content
  have hfollows := follows_rawStore v b r content
  -- the other volumes are not on this backend
  have hother : ∀ {volume' b'}, v.mounts.get? volume' = some b' →
      (b' = b ∨ v.storage.Apart b b') ∧ (b' = b ↔ volume' = volume) := by
    intro volume' b' hb'
    by_cases hv : volume' = volume
    · obtain rfl : b' = b := Option.some.inj (by rw [← hb', hv, hb])
      exact ⟨.inl rfl, iff_of_true rfl hv⟩
    · obtain ⟨hne, hap⟩ := hs.own volume volume' b b' hb hb' (Ne.symm hv)
      exact ⟨.inr hap, iff_of_false (Ne.symm hne) hv⟩
  show match (v.storage.store b r content).1 with | .ok () => _ | .error _ => _
  cases ha : (v.storage.store b r content).1 with
  | ok u =>
    rw [ha] at hstore
    obtain ⟨bs, hbs, hst⟩ := hstore
    refine ⟨bs, hbs, hfollows, rfl, fun volume' r' => ?_⟩
    cases hb' : v.mounts.get? volume' with
    | none =>
      have hne : volume' ≠ volume := by
        rintro rfl
        rw [hb] at hb'
        cases hb'
      rw [if_neg fun h => hne h.1, object?_of_not_mounted hb']
      exact object?_of_not_mounted (v := (v.rawStore b r content).2) hb' r'
    | some b' =>
      obtain ⟨hap, hiff⟩ := hother hb'
      rw [object?_of_mounted hb', object?_of_mounted (v := (v.rawStore b r content).2) hb']
      refine (hst b' r' hap).trans ?_
      simp only [hiff]
  | error fault => exact quiet_rawStore_of_error ha

end Vault

end BlobVault
