import BlobVault.Catalog.Store

/-!
# Resolving data keys

Resolving a data key may change what the ring remembers, and so what a later resolution answers.
A catalog is steady under a ring if that never happens.

* `Catalog.Steady` : whatever was resolved before, an identifier resolves to the same data key;
* `Catalog.steady_of_inStep` : a cache that is in step with the envelopes makes the catalog steady,
  whatever its capacity;
* `Catalog.keyForNew_snd`, `Catalog.findBlob_snd` : the catalog leaves no other ring behind than
  those of resolutions.
-/

namespace BlobVault

namespace KeyCache

theorem lookup_filter_of_ne {entries : List (String × Bytes)} {id id' : String} (h : id' ≠ id) :
    (entries.filter fun p => p.1 != id).lookup id' = entries.lookup id' := by
  induction entries with
  | nil => rfl
  | cons p entries ih =>
    obtain ⟨k, key⟩ := p
    by_cases hk : k = id
    · subst hk
      rw [List.filter_cons_of_neg (by simp), ih, List.lookup_cons, beq_false_of_ne h]
    · rw [List.filter_cons_of_pos (by simpa using hk), List.lookup_cons, List.lookup_cons, ih]

/-- A cache holds nothing but what was put into it. -/
theorem find?_put {c : KeyCache} {id id' : String} {key key' : Bytes}
    (h : (c.put id key).find? id' = some key') :
    id' = id ∧ key' = key ∨ c.find? id' = some key' := by
  have hfull := (List.take_prefix _ _).lookup_eq_some h
  rw [List.lookup_cons] at hfull
  by_cases hid : id' = id
  · rw [hid, beq_self_eq_true] at hfull
    exact .inl ⟨hid, (Option.some.inj hfull).symm⟩
  · rw [beq_false_of_ne hid] at hfull
    exact .inr ((lookup_filter_of_ne hid).symm.trans hfull)

end KeyCache

namespace Catalog

/-- The ring after some data keys were resolved. -/
def ringAfter (c : Catalog) (ring : KeyRing) (ids : List String) : KeyRing :=
  ids.foldl (fun ring id => (c.resolveKey id ring).2) ring

/-- Whatever was resolved before, an identifier resolves to the same data key. -/
def Steady (c : Catalog) (ring : KeyRing) : Prop :=
  ∀ ids id, (c.resolveKey id (c.ringAfter ring ids)).1 = (c.resolveKey id ring).1

theorem Steady.ringAfter {c : Catalog} {ring : KeyRing} (h : c.Steady ring) (ids : List String) :
    c.Steady (c.ringAfter ring ids) := by
  intro ids' id
  have happ : c.ringAfter (c.ringAfter ring ids) ids' = c.ringAfter ring (ids ++ ids') := by
    rw [Catalog.ringAfter, Catalog.ringAfter, Catalog.ringAfter, List.foldl_append]
  rw [happ, h, h]

/-- The cache holds no other keys than those that the ring would unwrap, and every envelope is
filed under its own identifier. -/
structure InStep (c : Catalog) (ring : KeyRing) : Prop where
  filed : ∀ id e, c.envelopes.get? id = some e → e.keyId = id
  cached : ∀ id e key, c.envelopes.get? id = some e → ring.cache.find? id = some key →
    KeyRing.openFirst? ring.keys e = some key

/-- Adding a collection files its envelope under the envelope's own identifier. -/
theorem filed_addCollection {c : Catalog}
    (h : ∀ id e, c.envelopes.get? id = some e → e.keyId = id) (name : String) (e : Envelope)
    (id : String) (e' : Envelope) (he' : (c.addCollection name e).envelopes.get? id = some e') :
    e'.keyId = id := by
  rw [addCollection, OrderedMap.get?_insert] at he'
  split at he'
  · rename_i hid
    rw [← Option.some.inj he']
    exact (Std.LawfulEqOrd.eq_of_compare hid).symm
  · exact h id e' he'

/-- What an identifier resolves to if nothing is remembered. -/
def openKey (c : Catalog) (id : String) (keys : OrderedMap String WrappingKey) :
    Except CatalogFault DataKey :=
  (c.resolveKey id ⟨keys, ⟨0, []⟩⟩).1

variable {c : Catalog} {ring : KeyRing}

theorem resolveKey_of_no_envelope {id : String} (h : c.envelopes.get? id = none)
    (ring : KeyRing) :
    c.resolveKey id ring = (.error (.keyResolution (.noEnvelope id)), ring) := by
  rw [resolveKey, h]

theorem resolveKey_of_envelope {id : String} {e : Envelope} (h : c.envelopes.get? id = some e)
    (ring : KeyRing) :
    c.resolveKey id ring =
      (match (ring.unwrap e).1 with
        | .error fault => .error (.keyResolution (.ring fault))
        | .ok key =>
          if h : isKeyLength key.length = true then .ok ⟨id, key, h⟩
          else .error (.keyResolution (.badLength key.length)), (ring.unwrap e).2) := by
  rw [resolveKey, h]
  cases hu : ring.unwrap e with
  | mk answer ring' =>
    cases answer with
    | error fault => simp [hu]
    | ok key =>
      simp only [hu]
      split <;> rfl

/-- Unwrapping answers what is under the wrapping, whether it is remembered or not. -/
theorem unwrap_of_inStep (h : c.InStep ring) {id : String} {e : Envelope}
    (he : c.envelopes.get? id = some e) :
    (ring.unwrap e).1 = (match KeyRing.openFirst? ring.keys e with
      | none => .error (KeyRing.noMatch e)
      | some key => .ok key) ∧
    (ring.unwrap e).2.keys = ring.keys ∧ c.InStep (ring.unwrap e).2 := by
  obtain rfl := h.filed id e he
  -- a key that is put into the cache is the one that the envelope holds
  have hput : ∀ key, KeyRing.openFirst? ring.keys e = some key →
      c.InStep ⟨ring.keys, ring.cache.put e.keyId key⟩ := fun key hkey =>
    { filed := h.filed
      cached := by
        intro id' e' key' he' hk'
        rcases KeyCache.find?_put hk' with ⟨rfl, rfl⟩ | hold
        · obtain rfl := Option.some.inj (he.symm.trans he')
          exact hkey
        · exact h.cached id' e' key' he' hold }
  unfold KeyRing.unwrap KeyRing.lookUp? KeyCache.use?
  cases hc : ring.cache.find? e.keyId with
  | some key =>
    have hopen := h.cached _ _ key he hc
    rw [hopen]
    exact ⟨rfl, rfl, hput key hopen⟩
  | none =>
    cases hopen : KeyRing.openFirst? ring.keys e with
    | none => exact ⟨rfl, rfl, h⟩
    | some key => exact ⟨rfl, rfl, hput key hopen⟩

theorem resolveKey_of_inStep (h : c.InStep ring) (id : String) :
    (c.resolveKey id ring).1 = c.openKey id ring.keys ∧
    (c.resolveKey id ring).2.keys = ring.keys ∧ c.InStep (c.resolveKey id ring).2 := by
  cases he : c.envelopes.get? id with
  | none =>
    rw [openKey, resolveKey_of_no_envelope he, resolveKey_of_no_envelope he]
    exact ⟨rfl, rfl, h⟩
  | some e =>
    obtain ⟨hkey, hkeys, hstep⟩ := unwrap_of_inStep h he
    -- an empty cache is in step with everything
    have hempty : c.InStep ⟨ring.keys, ⟨0, []⟩⟩ := ⟨h.filed, fun _ _ _ _ hk => by cases hk⟩
    rw [openKey, resolveKey_of_envelope he, resolveKey_of_envelope he, hkey,
      (unwrap_of_inStep hempty he).1]
    exact ⟨rfl, hkeys, hstep⟩

theorem ringAfter_of_inStep (h : c.InStep ring) (ids : List String) :
    (c.ringAfter ring ids).keys = ring.keys ∧ c.InStep (c.ringAfter ring ids) := by
  induction ids generalizing ring with
  | nil => exact ⟨rfl, h⟩
  | cons id ids ih =>
    obtain ⟨-, hkeys, hstep⟩ := resolveKey_of_inStep h id
    rw [← hkeys]
    exact ih hstep

/-- A cache in step with the envelopes never changes what an identifier resolves to. -/
theorem steady_of_inStep (h : c.InStep ring) : c.Steady ring := by
  intro ids id
  obtain ⟨hkeys, hstep⟩ := ringAfter_of_inStep h ids
  rw [(resolveKey_of_inStep hstep id).1, (resolveKey_of_inStep h id).1, hkeys]

/-! ### The rings that are left behind -/

theorem keyForNew_snd (c : Catalog) (collection : String) (ring : KeyRing) :
    ∃ ids, (c.keyForNew collection ring).2 = c.ringAfter ring ids := by
  unfold keyForNew
  cases c.collections.get? collection with
  | none => exact ⟨[], rfl⟩
  | some id => exact ⟨[id], rfl⟩

theorem findBlob_snd (c : Catalog) (r : Ref) (ring : KeyRing) :
    ∃ ids, (c.findBlob r ring).2 = c.ringAfter ring ids := by
  unfold findBlob
  cases c.findRecord r with
  | error fault => exact ⟨[], rfl⟩
  | ok b =>
    refine ⟨[b.keyId], ?_⟩
    rw [ringAfter, List.foldl_cons, List.foldl_nil]
    cases hres : c.resolveKey b.keyId ring with
    | mk answer ring' => cases answer <;> simp [hres]

/-- A data key that was found has the identifier that it was looked up by. -/
theorem id_resolveKey {id : String} {key : DataKey} (h : (c.resolveKey id ring).1 = .ok key) :
    key.id = id := by
  cases he : c.envelopes.get? id with
  | none => rw [resolveKey_of_no_envelope he] at h; cases h
  | some e =>
    rw [resolveKey_of_envelope he] at h
    dsimp only at h
    split at h
    · cases h
    · split at h
      · obtain rfl := Except.ok.inj h
        rfl
      · cases h

theorem keyForNew_fst {collection : String} {key : DataKey}
    (h : (c.keyForNew collection ring).1 = .ok key) :
    (c.resolveKey key.id ring).1 = .ok key := by
  unfold keyForNew at h
  split at h
  · cases h
  · rename_i id _
    rw [id_resolveKey h]
    exact h

end Catalog

end BlobVault
