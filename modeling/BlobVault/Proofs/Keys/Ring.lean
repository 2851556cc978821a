import BlobVault.Proofs.Keys.Resolution
import BlobVault.Proofs.OrderedMap

/-!
# What a key ring answers and changes

An envelope is answered by the cache, or else by the first of its slots that opens.

* `KeyRing.privateHalf?` : the private half under a fingerprint, through registering and dropping;
* `KeyRing.firstOpened?` : the slot that an envelope is opened by, and what opens it;
* `KeyRing.unwrap_of_cached`, `KeyRing.unwrap_of_not_cached` : the two ways to answer.
-/

namespace BlobVault

namespace KeyCache

theorem mem_put {c : KeyCache} {id : String} {key : Bytes} {p : String × Bytes}
    (h : p ∈ (c.put id key).entries) : p = (id, key) ∨ p ∈ c.entries ∧ p.1 ≠ id := by
  rcases List.mem_cons.1 (List.mem_of_mem_take h) with hnew | hold
  · exact .inl hnew
  · obtain ⟨hmem, hne⟩ := List.mem_filter.1 hold
    exact .inr ⟨hmem, by simpa using hne⟩

theorem mem_of_find? {c : KeyCache} {id : String} {key : Bytes} (h : c.find? id = some key) :
    (id, key) ∈ c.entries := by
  obtain ⟨before, after, hentries, -⟩ := List.lookup_eq_some_iff.1 h
  rw [hentries]
  exact List.mem_append_right _ List.mem_cons_self

end KeyCache

namespace KeyRing

variable (ring : KeyRing) (keys : OrderedMap String WrappingKey)

/-! ### Private halves -/

/-- The private half that is registered under a fingerprint. -/
def privateHalf? (f : String) : Option PrivateKey := (keys.get? f).bind (·.privateKey?)

theorem privateHalf?_registerPrivate (k : PrivateKey) (f : String) :
    privateHalf? (ring.registerPrivate k).2.keys f =
      if f = fingerprint k.toPublic then some k else privateHalf? ring.keys f := by
  simp only [privateHalf?, registerPrivate, OrderedMap.get?_insert,
    Std.LawfulEqCmp.compare_eq_iff_eq]
  split <;> rfl

/-- A recipient comes without a private half, and takes none away. -/
theorem privateHalf?_registerPublic (k : PublicKey) (f : String) :
    privateHalf? (ring.registerPublic k).2.keys f = privateHalf? ring.keys f := by
  unfold registerPublic
  dsimp only
  split
  · rfl
  · rename_i hnew
    rw [Bool.not_eq_true, OrderedMap.contains_eq_false] at hnew
    simp only [privateHalf?, OrderedMap.get?_insert, Std.LawfulEqCmp.compare_eq_iff_eq]
    split
    · rename_i hf
      rw [hf, hnew]
      rfl
    · rfl

theorem cache_registerPublic (k : PublicKey) :
    (ring.registerPublic k).2.cache = ring.cache := by
  unfold registerPublic
  dsimp only
  split <;> rfl

theorem privateHalf?_dropPrivate (f f' : String) :
    privateHalf? (ring.dropPrivate f).keys f' =
      if f' = f then none else privateHalf? ring.keys f' := by
  simp only [privateHalf?, dropPrivate, OrderedMap.get?_modify, Std.LawfulEqCmp.compare_eq_iff_eq]
  split
  · cases ring.keys.get? f' <;> rfl
  · rfl

/-! ### Slots that open -/

theorem openSlot?_eq (s : Slot) :
    openSlot? keys s = (privateHalf? keys s.fingerprint).bind fun p => p.unwrap? s.wrapped := by
  rw [openSlot?, privateHalf?, Option.bind_assoc]

end KeyRing

/-- A slot of an envelope that was opened, the private half that opened it, and the data key that
was in it. -/
structure OpenedSlot where
  envelope : Envelope
  slot : Slot
  privateKey : PrivateKey
  key : Bytes
  deriving DecidableEq

namespace OpenedSlot

/-- The slot is one of the envelope's, and the private half opens it. -/
structure Genuine (o : OpenedSlot) : Prop where
  slot : o.slot ∈ o.envelope.slots
  opens : o.privateKey.unwrap? o.slot.wrapped = some o.key

/-- The private half is registered under the fingerprint of the slot. -/
def Registered (o : OpenedSlot) (keys : OrderedMap String WrappingKey) : Prop :=
  KeyRing.privateHalf? keys o.slot.fingerprint = some o.privateKey

instance (o : OpenedSlot) (keys : OrderedMap String WrappingKey) : Decidable (o.Registered keys) :=
  inferInstanceAs (Decidable (_ = _))

end OpenedSlot

namespace KeyRing

variable (ring : KeyRing) (keys : OrderedMap String WrappingKey)

/-- The first slot that opens, with what is in it. -/
def firstOpened? (e : Envelope) : Option OpenedSlot :=
  e.slots.findSome? fun s => (privateHalf? keys s.fingerprint).bind fun p =>
    (p.unwrap? s.wrapped).map fun key => ⟨e, s, p, key⟩

theorem openFirst?_eq (e : Envelope) :
    openFirst? keys e = (firstOpened? keys e).map (·.key) := by
  rw [openFirst?, firstOpened?, List.map_findSome?]
  refine congrArg (e.slots.findSome? ·) (funext fun s => ?_)
  rw [openSlot?_eq, Function.comp_apply, Option.map_bind]
  refine congrArg ((privateHalf? keys s.fingerprint).bind ·) (funext fun p => ?_)
  rw [Function.comp_apply, Option.map_map]
  exact Option.map_id'.symm

theorem firstOpened?_eq_some {keys : OrderedMap String WrappingKey} {e : Envelope} {o : OpenedSlot}
    (h : firstOpened? keys e = some o) : o.envelope = e ∧ o.Genuine ∧ o.Registered keys := by
  obtain ⟨s, hs, ho⟩ := List.exists_of_findSome?_eq_some h
  obtain ⟨p, hp, ho⟩ := Option.bind_eq_some_iff.1 ho
  obtain ⟨key, hkey, rfl⟩ := Option.map_eq_some_iff.1 ho
  exact ⟨rfl, ⟨hs, hkey⟩, hp⟩

/-! ### Unwrapping -/

variable {ring : KeyRing}

theorem lookUp?_eq (id : String) :
    ring.lookUp? id = (ring.cache.find? id).map fun key => (key, ring.remember id key) := by
  rw [lookUp?, KeyCache.use?, Option.map_map]
  rfl

theorem unwrap_of_cached {e : Envelope} {key : Bytes} (h : ring.cache.find? e.keyId = some key) :
    ring.unwrap e = (.ok key, ring.remember e.keyId key) := by
  rw [unwrap, lookUp?_eq, h]
  rfl

theorem unwrap_of_not_cached {e : Envelope} (h : ring.cache.find? e.keyId = none) :
    ring.unwrap e = match openFirst? ring.keys e with
      | none => (.error (noMatch e), ring)
      | some key => (.ok key, ring.remember e.keyId key) := by
  rw [unwrap, lookUp?_eq, h]
  rfl

/-- What is in the first slot that opens, or the fault that there is none. -/
def opened (keys : OrderedMap String WrappingKey) (e : Envelope) : Except KeyFault Bytes :=
  match openFirst? keys e with
  | some key => .ok key
  | none => .error (noMatch e)

theorem unwrap_fst_of_not_cached {e : Envelope} (h : ring.cache.find? e.keyId = none) :
    (ring.unwrap e).1 = opened ring.keys e := by
  rw [unwrap_of_not_cached h, opened]
  cases openFirst? ring.keys e <;> rfl

theorem opened_eq_ok {keys : OrderedMap String WrappingKey} {e : Envelope} {key : Bytes} :
    opened keys e = .ok key ↔ openFirst? keys e = some key := by
  rw [opened]
  cases openFirst? keys e <;> simp

/-- Nothing comes from a cache that was cleared. -/
theorem unwrap_clearCache (e : Envelope) :
    (ring.clearCache.unwrap e).1 = opened ring.keys e :=
  unwrap_fst_of_not_cached rfl

/-- What was unwrapped is unwrapped again, if there is room for it in the cache. -/
theorem unwrap_unwrap {ring : KeyRing} (hroom : 0 < ring.cache.capacity) (e : Envelope) :
    ((ring.unwrap e).2.unwrap e).1 = (ring.unwrap e).1 := by
  have hremembered : ∀ key, (ring.remember e.keyId key).cache.find? e.keyId = some key := by
    intro key
    obtain ⟨room, hcapacity⟩ := Nat.exists_eq_add_one.2 hroom
    rw [remember, KeyCache.put, KeyCache.find?, hcapacity, List.take_succ_cons,
      List.lookup_cons_self]
  cases hfind : ring.cache.find? e.keyId with
  | some key => rw [unwrap_of_cached hfind, unwrap_of_cached (hremembered key)]
  | none =>
    rw [unwrap_of_not_cached hfind]
    cases hopen : openFirst? ring.keys e with
    | some key =>
      dsimp only
      rw [unwrap_of_cached (hremembered key)]
    | none =>
      dsimp only
      rw [unwrap_of_not_cached hfind, hopen]

/-- Unwrapping changes nothing but what is remembered. -/
theorem fixed_unwrap (ring : KeyRing) (e : Envelope) :
    (ring.unwrap e).2.keys = ring.keys ∧
      (ring.unwrap e).2.cache.capacity = ring.cache.capacity := by
  cases hfind : ring.cache.find? e.keyId with
  | some key => rw [unwrap_of_cached hfind]; exact ⟨rfl, rfl⟩
  | none =>
    rw [unwrap_of_not_cached hfind]
    cases openFirst? ring.keys e <;> exact ⟨rfl, rfl⟩

end KeyRing

namespace Catalog

variable {c : Catalog} {ring : KeyRing}

/-- Resolving changes nothing but what is remembered. -/
theorem fixed_ringAfter (c : Catalog) (ring : KeyRing) (ids : List String) :
    (c.ringAfter ring ids).keys = ring.keys ∧
      (c.ringAfter ring ids).cache.capacity = ring.cache.capacity := by
  induction ids generalizing ring with
  | nil => exact ⟨rfl, rfl⟩
  | cons id ids ih =>
    have hresolve : (c.resolveKey id ring).2.keys = ring.keys ∧
        (c.resolveKey id ring).2.cache.capacity = ring.cache.capacity := by
      cases he : c.envelopes.get? id with
      | none => rw [resolveKey_of_no_envelope he]; exact ⟨rfl, rfl⟩
      | some e => rw [resolveKey_of_envelope he]; exact KeyRing.fixed_unwrap ring e
    exact ⟨(ih _).1.trans hresolve.1, (ih _).2.trans hresolve.2⟩

theorem resolveKey_eq_ok {id : String} {key : DataKey} :
    (c.resolveKey id ring).1 = .ok key ↔ key.id = id ∧
      ∃ e, c.envelopes.get? id = some e ∧ (ring.unwrap e).1 = .ok key.bytes := by
  constructor
  · intro h
    refine ⟨id_resolveKey h, ?_⟩
    cases he : c.envelopes.get? id with
    | none =>
      rw [resolveKey_of_no_envelope he] at h
      cases h
    | some e =>
      rw [resolveKey_of_envelope he] at h
      refine ⟨e, rfl, ?_⟩
      dsimp only at h
      split at h
      · cases h
      · rename_i bytes hbytes
        split at h
        · rw [hbytes, ← Except.ok.inj h]
        · cases h
  · rintro ⟨rfl, e, he, hu⟩
    rw [resolveKey_of_envelope he, hu]
    exact dif_pos key.length_ok

end Catalog

end BlobVault
