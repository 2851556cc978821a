import BlobVault.Proofs.Keys.Recall
import BlobVault.Proofs.Keys.Wrapping
import Mathlib.NumberTheory.LucasLehmer

/-!
# Sharing data keys

A data key is wrapped once for each recipient, whether the ring has the recipient's private half or
not.  Any other ring that has the private half of a recipient unwraps it, from the slots that are
left: slots may have been taken out, moved or damaged, and those that cannot be opened are passed
over.

* `KeyRing.Filed` : keys are registered under their fingerprints, with their own private halves;
* `KeyRing.wrapSlots_of_registered`, `KeyRing.wrapSlots_of_unknown` : the slots of an envelope, and
  the recipient that is missing;
* `KeyRing.openSlot?_of_wraps` : who opens a slot;
* `KeySession.shared_wrap` : **any recipient unwraps**.
-/

namespace BlobVault

/-! ### How keys are registered -/

/-- The key has the fingerprint, and its private half is its own. -/
structure WrappingKey.Filed (k : WrappingKey) (f : String) : Prop where
  fingerprint : KeyRing.fingerprint k.publicKey = f
  toPublic : ∀ p, k.privateKey? = some p → p.toPublic = k.publicKey

/-- Every key is registered under its fingerprint, and its private half is its own. -/
def KeyRing.Filed (ring : KeyRing) : Prop := ∀ f k, ring.keys.get? f = some k → k.Filed f

namespace KeyRing

variable {ring : KeyRing}

theorem Filed.insert (h : ring.Filed) {f : String} {k : WrappingKey} (hk : k.Filed f) :
    Filed { ring with keys := ring.keys.insert f k } := by
  intro f' k' hget
  simp only [OrderedMap.get?_insert, Std.LawfulEqCmp.compare_eq_iff_eq] at hget
  split at hget
  · rename_i hf
    rw [hf, ← Option.some.inj hget]
    exact hk
  · exact h f' k' hget

theorem Filed.registerPrivate (h : ring.Filed) (k : PrivateKey) :
    (ring.registerPrivate k).2.Filed :=
  h.insert ⟨rfl, fun _ hp => congrArg PrivateKey.toPublic (Option.some.inj hp).symm⟩

theorem Filed.registerPublic (h : ring.Filed) (k : PublicKey) :
    (ring.registerPublic k).2.Filed := by
  unfold KeyRing.registerPublic
  dsimp only
  split
  · exact h
  · exact h.insert ⟨rfl, fun _ hp => by cases hp⟩

theorem Filed.forget (h : ring.Filed) (f : String) : (ring.forget f).Filed := by
  intro f' k hget
  simp only [KeyRing.forget, clearCache, dropPrivate, OrderedMap.get?_modify] at hget
  split at hget
  · obtain ⟨k', hk', rfl⟩ := Option.map_eq_some_iff.1 hget
    exact ⟨(h f' k' hk').fingerprint, fun _ hp => by cases hp⟩
  · exact h f' k hget

/-- The public keys that are registered. -/
def publicKeys (ring : KeyRing) : List PublicKey := ring.keys.values.map (·.publicKey)

theorem mem_publicKeys {f : String} {k : WrappingKey} (h : ring.keys.get? f = some k) :
    k.publicKey ∈ ring.publicKeys :=
  List.mem_map_of_mem (OrderedMap.mem_values.2 ⟨f, h⟩)

end KeyRing

namespace KeySession

variable {s : KeySession}

/-- No call registers a key under another fingerprint than its own. -/
theorem filed_perform (h : s.ring.Filed) (c : KeyCall) : (s.perform c).ring.Filed := by
  cases c with
  | registerPrivate k => exact h.registerPrivate k
  | registerPublic k => exact h.registerPublic k
  | forget f => exact h.forget f
  | wrap => exact h
  | unwrap e =>
    have hkeys := (KeyRing.fixed_unwrap s.ring e).1
    have hfiled : (s.ring.unwrap e).2.Filed := by
      rw [KeyRing.Filed, hkeys]
      exact h
    rw [perform]
    rcases hunwrap : s.ring.unwrap e with ⟨answer, ring⟩
    rw [hunwrap] at hfiled
    cases answer <;> exact hfiled

theorem filed_performAll (h : s.ring.Filed) (calls : List KeyCall) :
    (s.performAll calls).ring.Filed := by
  induction calls generalizing s with
  | nil => exact h
  | cons c calls ih => exact ih (filed_perform h c)

theorem filed_start (capacity : Nat) : (start capacity).ring.Filed :=
  fun _ _ h => by cases h

end KeySession

/-! ### Wrapping -/

namespace KeyRing

/-- A slot holds the data key, wrapped under the key that is registered under its fingerprint. -/
def Wraps (ring : KeyRing) (dataKey : Bytes) (s : Slot) : Prop :=
  ∃ k seed, ring.keys.get? s.fingerprint = some k ∧ seed.length = Oaep.digestLength ∧
    k.publicKey.wrap? seed dataKey = some s.wrapped

variable {ring : KeyRing} {dataKey : Bytes} {recipients : List String}

/-- Every recipient that is registered has a key that can wrap the data key. -/
def Suits (ring : KeyRing) (dataKey : Bytes) (recipients : List String) : Prop :=
  ∀ f ∈ recipients, ∀ k, ring.keys.get? f = some k → k.publicKey.Takes dataKey

theorem length_seed (pool : Entropy) : (pool.draw seedLength).1.length = Oaep.digestLength := by
  simp [Entropy.draw, seedLength, Oaep.digestLength, Entropy.block]

/-- A data key is wrapped for each recipient in order. -/
theorem wrapSlots_of_registered (hsuits : ring.Suits dataKey recipients)
    (hregistered : ∀ f ∈ recipients, ring.keys.contains f = true) (pool : Entropy) :
    ∃ slots, (ring.wrapSlots dataKey recipients pool).1 = .ok slots ∧
      slots.map (·.fingerprint) = recipients ∧ ∀ s ∈ slots, ring.Wraps dataKey s := by
  induction recipients generalizing pool with
  | nil => exact ⟨[], rfl, rfl, by simp⟩
  | cons f fs ih =>
    obtain ⟨k, hk⟩ := Option.isSome_iff_exists.1 (hregistered f List.mem_cons_self)
    obtain ⟨wrapped, hwrapped⟩ := PublicKey.exists_wrap? (hsuits f List.mem_cons_self k hk)
      (length_seed pool)
    obtain ⟨slots, hslots, hfingerprints, hwraps⟩ :=
      ih (fun f' hf' => hsuits f' (List.mem_cons_of_mem _ hf'))
      (fun f' hf' => hregistered f' (List.mem_cons_of_mem _ hf')) (pool.draw seedLength).2
    refine ⟨⟨f, wrapped⟩ :: slots, ?_, congrArg (f :: ·) hfingerprints,
      List.forall_mem_cons.2 ⟨⟨k, _, hk, length_seed pool, hwrapped⟩, hwraps⟩⟩
    simp only [wrapSlots, hk, hwrapped]
    rcases hrest : ring.wrapSlots dataKey fs (pool.draw seedLength).2 with ⟨answer, pool'⟩
    rw [hrest] at hslots
    obtain rfl : answer = .ok slots := hslots
    rfl

/-- The first recipient that is not registered is the one that is missed. -/
theorem wrapSlots_of_unknown (hsuits : ring.Suits dataKey recipients) {f : String}
    (hf : recipients.find? (fun f => !ring.keys.contains f) = some f) (pool : Entropy) :
    (ring.wrapSlots dataKey recipients pool).1 = .error (.unknownRecipient f) := by
  induction recipients generalizing pool with
  | nil => cases hf
  | cons f' fs ih =>
    cases hk : ring.keys.get? f' with
    | none =>
      have hnew : (!ring.keys.contains f') = true := by
        rw [OrderedMap.contains_eq_isSome, hk]
        rfl
      simp only [List.find?_cons, hnew] at hf
      obtain rfl := Option.some.inj hf
      simp only [wrapSlots, hk]
    | some k =>
      have hold : (!ring.keys.contains f') = false := by
        rw [OrderedMap.contains_eq_isSome, hk]
        rfl
      simp only [List.find?_cons, hold] at hf
      obtain ⟨wrapped, hwrapped⟩ := PublicKey.exists_wrap? (hsuits f' List.mem_cons_self k hk)
        (length_seed pool)
      have hfs := ih (fun f'' hf'' => hsuits f'' (List.mem_cons_of_mem _ hf'')) hf
        (pool.draw seedLength).2
      simp only [wrapSlots, hk, hwrapped]
      rcases hrest : ring.wrapSlots dataKey fs (pool.draw seedLength).2 with ⟨answer, pool'⟩
      rw [hrest] at hfs
      obtain rfl : answer = .error (.unknownRecipient f) := hfs
      rfl

theorem wrap_eq {id : String} (hid : id ≠ "") (hrecipients : recipients ≠ []) (pool : Entropy) :
    (ring.wrap id dataKey recipients pool).1 =
      (ring.wrapSlots dataKey recipients pool).1.map fun slots => ⟨id, slots⟩ := by
  have hid' : ¬ id.isEmpty = true := by simpa using hid
  have hrecipients' : ¬ recipients.isEmpty = true := by simpa using hrecipients
  rw [wrap, if_neg hid', if_neg hrecipients']
  rcases ring.wrapSlots dataKey recipients pool with ⟨answer, pool'⟩
  cases answer <;> rfl

/-! ### Unwrapping -/

variable {a b : KeyRing}

/-- Different public keys of the two rings have different fingerprints. -/
def Apart (a b : KeyRing) : Prop :=
  ∀ k ∈ a.publicKeys, ∀ k' ∈ b.publicKeys, fingerprint k = fingerprint k' → k = k'

/-- A slot is opened by the private half of its recipient, and by nothing else. -/
theorem openSlot?_of_wraps (ha : a.Filed) (hb : b.Filed) (hapart : a.Apart b) {s : Slot}
    (hs : a.Wraps dataKey s)
    (hinverts : ∀ p, privateHalf? b.keys s.fingerprint = some p → p.Inverts) :
    openSlot? b.keys s = (privateHalf? b.keys s.fingerprint).map fun _ => dataKey := by
  obtain ⟨k, seed, hk, hseed, hwrapped⟩ := hs
  rw [openSlot?_eq]
  cases hp : privateHalf? b.keys s.fingerprint with
  | none => rfl
  | some p =>
    obtain ⟨k', hk', hp'⟩ := Option.bind_eq_some_iff.1 hp
    -- the two rings have the same key under the fingerprint
    have hsame : k.publicKey = k'.publicKey :=
      hapart _ (mem_publicKeys hk) _ (mem_publicKeys hk')
        ((ha _ k hk).fingerprint.trans (hb _ k' hk').fingerprint.symm)
    rw [hsame, ← (hb _ k' hk').toPublic p hp'] at hwrapped
    exact PrivateKey.unwrap?_of_wrap? (hinverts p hp) hseed hwrapped

/-- The first slot that opens is found behind those that do not. -/
theorem openFirst?_of_opens {keys : OrderedMap String WrappingKey} {e : Envelope} {s : Slot}
    (hs : s ∈ e.slots) (hopens : openSlot? keys s = some dataKey)
    (hothers : ∀ s' ∈ e.slots, ∀ key, openSlot? keys s' = some key → key = dataKey) :
    openFirst? keys e = some dataKey := by
  have hsome : (openFirst? keys e).isSome = true :=
    List.findSome?_isSome_iff.2 ⟨s, hs, by rw [hopens]; rfl⟩
  obtain ⟨key, hkey⟩ := Option.isSome_iff_exists.1 hsome
  obtain ⟨s', hs', hopens'⟩ := List.exists_of_findSome?_eq_some hkey
  rw [hkey, hothers s' hs' key hopens']

/-- What is left of an envelope: some of its slots in any order, and damaged ones, which no private
half of the ring opens. -/
structure Left (ring : KeyRing) (e e' : Envelope) : Prop where
  keyId : e'.keyId = e.keyId
  slot : ∀ s ∈ e'.slots, s ∈ e.slots ∨ openSlot? ring.keys s = none

/-- What is left of an envelope has a slot of its own for a private half of the ring. -/
def CanOpen (ring : KeyRing) (e e' : Envelope) : Prop :=
  ∃ s ∈ e'.slots, s ∈ e.slots ∧ (privateHalf? ring.keys s.fingerprint).isSome = true

/-- The ring unwraps what is left of an envelope if it can open one of the slots, and misses a
private half otherwise. -/
def Unwraps (ring : KeyRing) (e : Envelope) (dataKey : Bytes) : Prop :=
  ∀ e', ring.Left e e' →
    (ring.CanOpen e e' → (ring.unwrap e').1 = .ok dataKey) ∧
      (¬ ring.CanOpen e e' →
        (ring.unwrap e').1 = .error (.noMatchingKey e.keyId (e'.slots.map (·.fingerprint))))

theorem unwraps_of_wraps (ha : a.Filed) (hb : b.Filed) (hapart : a.Apart b) {e : Envelope}
    (hwraps : ∀ s ∈ e.slots, a.Wraps dataKey s)
    (hinverts : ∀ s ∈ e.slots, ∀ p, privateHalf? b.keys s.fingerprint = some p → p.Inverts)
    (hcache : b.cache.find? e.keyId = none) : b.Unwraps e dataKey := by
  -- each slot of the envelope is opened by the private half of its recipient
  have hopens : ∀ s ∈ e.slots, openSlot? b.keys s =
      (privateHalf? b.keys s.fingerprint).map fun _ => dataKey := fun s hs =>
    openSlot?_of_wraps ha hb hapart (hwraps s hs) (hinverts s hs)
  intro e' hleft
  rw [unwrap_fst_of_not_cached (hleft.keyId ▸ hcache)]
  refine ⟨fun hcan => ?_, fun hcannot => ?_⟩
  · obtain ⟨s, hs, horiginal, hhalf⟩ := hcan
    obtain ⟨p, hp⟩ := Option.isSome_iff_exists.1 hhalf
    refine opened_eq_ok.2 (openFirst?_of_opens hs (by rw [hopens s horiginal, hp]; rfl) ?_)
    intro s' hs' key hkey
    rcases hleft.slot s' hs' with horiginal' | hdamaged
    · rw [hopens s' horiginal'] at hkey
      obtain ⟨-, -, rfl⟩ := Option.map_eq_some_iff.1 hkey
      rfl
    · rw [hdamaged] at hkey
      cases hkey
  · have hnone : openFirst? b.keys e' = none := by
      refine List.findSome?_eq_none_iff.2 fun s hs => ?_
      rcases hleft.slot s hs with horiginal | hdamaged
      · rw [hopens s horiginal, Option.map_eq_none_iff]
        by_contra hhalf
        exact hcannot ⟨s, hs, horiginal, Option.isSome_iff_ne_none.2 hhalf⟩
      · exact hdamaged
    rw [opened, hnone, noMatch, hleft.keyId]

end KeyRing

namespace KeySession

/-- **Any recipient unwraps.**  If a recipient is not registered, the first such one is missed.
Otherwise there is one slot for each recipient in order, and every ring that has nothing cached
under the identifier unwraps what is left of the envelope. -/
theorem shared_wrap (capacity : Nat) (calls : List KeyCall) {id : String} {dataKey : Bytes}
    {recipients : List String} (pool : Entropy) (hid : id ≠ "") (hrecipients : recipients ≠ [])
    (hsuits : ((start capacity).performAll calls).ring.Suits dataKey recipients) :
    let a := ((start capacity).performAll calls).ring
    (∀ f, recipients.find? (fun f => !a.keys.contains f) = some f →
      (a.wrap id dataKey recipients pool).1 = .error (.unknownRecipient f)) ∧
    ((∀ f ∈ recipients, a.keys.contains f = true) →
      ∃ e, (a.wrap id dataKey recipients pool).1 = .ok e ∧ e.keyId = id ∧
        e.slots.map (·.fingerprint) = recipients ∧
        ∀ (capacity' : Nat) (calls' : List KeyCall),
          let b := ((start capacity').performAll calls').ring
          a.Apart b →
          (∀ f ∈ recipients, ∀ p, KeyRing.privateHalf? b.keys f = some p → p.Inverts) →
          b.cache.find? id = none → b.Unwraps e dataKey) := by
  intro a
  have ha : a.Filed := filed_performAll (filed_start capacity) calls
  rw [KeyRing.wrap_eq hid hrecipients]
  refine ⟨fun f hf => ?_, fun hregistered => ?_⟩
  · rw [KeyRing.wrapSlots_of_unknown hsuits hf]
    rfl
  · obtain ⟨slots, hslots, hfingerprints, hwraps⟩ :=
      KeyRing.wrapSlots_of_registered hsuits hregistered pool
    refine ⟨⟨id, slots⟩, by rw [hslots]; rfl, rfl, hfingerprints, ?_⟩
    intro capacity' calls' b hapart hinverts hcache
    have hb : b.Filed := filed_performAll (filed_start capacity') calls'
    refine KeyRing.unwraps_of_wraps ha hb hapart hwraps (fun s hs => hinverts _ ?_) hcache
    rw [← hfingerprints]
    exact List.mem_map_of_mem hs

end KeySession

/-! ### A ring with a public key and one with its private half -/

namespace Sample

/-- The modulus of the key is the product of two Mersenne primes, and its exponents are inverse to
each other. -/
theorem inverts_wrappingKey : wrappingKey.Inverts := by
  have hp : (mersenne 89).Prime := lucas_lehmer_sufficiency _ (by simp) (by norm_num)
  have hq : (mersenne 607).Prime := lucas_lehmer_sufficiency _ (by simp) (by norm_num)
  have hne : mersenne 89 ≠ mersenne 607 := (mersenne_lt_mersenne.2 (by norm_num)).ne
  obtain ⟨d, hkey, hinverse⟩ : ∃ d, wrappingKey = .rsa (mersenne 89 * mersenne 607) 65537 d ∧
      65537 * d ≡ 1 [MOD (mersenne 89 - 1) * (mersenne 607 - 1)] :=
    ⟨(Modular.inverse? 65537 ((mersenne 89 - 1) * (mersenne 607 - 1))).getD 1,
      by decide +kernel, by decide +kernel⟩
  rw [hkey]
  exact PrivateKey.inverts_of_primes hp hq hne hinverse

def recipient : String := KeyRing.fingerprint wrappingKey.toPublic

/-- A ring that knows the recipient by its public key only. -/
def sender : KeyRing :=
  ((KeySession.start 1).performAll [.registerPublic wrappingKey.toPublic]).ring

/-- A ring that has the recipient's private half. -/
def receiver : KeyRing := ((KeySession.start 1).performAll [.registerPrivate wrappingKey]).ring

theorem suits_sender : sender.Suits (List.replicate 16 1) [recipient, recipient] := by
  have hget : sender.keys.get? recipient = some ⟨wrappingKey.toPublic, none⟩ := by decide +kernel
  intro f hf k hk
  obtain rfl : f = recipient := by simpa using hf
  obtain rfl := Option.some.inj (hget.symm.trans hk)
  exact ⟨by decide +kernel, by decide +kernel⟩

theorem apart_sender : sender.Apart receiver := by
  have hsender : sender.publicKeys = [wrappingKey.toPublic] := by decide +kernel
  have hreceiver : receiver.publicKeys = [wrappingKey.toPublic] := by decide +kernel
  intro k hk k' hk' _
  rw [hsender, List.mem_singleton] at hk
  rw [hreceiver, List.mem_singleton] at hk'
  rw [hk, hk']

theorem inverts_receiver : ∀ f ∈ [recipient, recipient], ∀ p,
    KeyRing.privateHalf? receiver.keys f = some p → p.Inverts := by
  have hhalf : KeyRing.privateHalf? receiver.keys recipient = some wrappingKey := by decide +kernel
  intro f hf p hp
  obtain rfl : f = recipient := by simpa using hf
  rw [← Option.some.inj (hhalf.symm.trans hp)]
  exact inverts_wrappingKey

end Sample

namespace KeySession

/-- The data key is unwrapped from a slot behind a damaged one, and not without a slot. -/
theorem shared_wrap_sample :
    ∃ e, (Sample.sender.wrap "photo-key" (List.replicate 16 1) [Sample.recipient, Sample.recipient]
        ⟨0⟩).1 = .ok e ∧
      (Sample.receiver.unwrap ⟨"photo-key", ⟨Sample.recipient, []⟩ :: e.slots⟩).1 =
        .ok (List.replicate 16 1) ∧
      (Sample.receiver.unwrap ⟨"photo-key", []⟩).1 = .error (.noMatchingKey "photo-key" []) := by
  have hid : "photo-key" ≠ "" := by decide
  have hregistered : ∀ f ∈ [Sample.recipient, Sample.recipient],
      Sample.sender.keys.contains f = true := by decide +kernel
  have hhalf : (KeyRing.privateHalf? Sample.receiver.keys Sample.recipient).isSome = true := by
    decide +kernel
  have hdamaged : KeyRing.openSlot? Sample.receiver.keys ⟨Sample.recipient, []⟩ = none := by
    decide +kernel
  obtain ⟨e, he, hkeyId, hfingerprints, hunwraps⟩ :=
    (shared_wrap 1 [.registerPublic Sample.wrappingKey.toPublic] ⟨0⟩ hid (List.cons_ne_nil _ _)
      Sample.suits_sender).2 hregistered
  have hunwraps := hunwraps 1 [.registerPrivate Sample.wrappingKey] Sample.apart_sender
    Sample.inverts_receiver rfl
  obtain ⟨s, slots, hslots, hs, -⟩ := List.map_eq_cons_iff.1 hfingerprints
  have hmem : s ∈ e.slots := hslots ▸ List.mem_cons_self
  refine ⟨e, he, ?_, ?_⟩
  · refine (hunwraps ⟨"photo-key", ⟨Sample.recipient, []⟩ :: e.slots⟩ ⟨hkeyId.symm, ?_⟩).1 ?_
    · exact List.forall_mem_cons.2 ⟨.inr hdamaged, fun s hs => .inl hs⟩
    · exact ⟨s, List.mem_cons_of_mem _ hmem, hmem, hs ▸ hhalf⟩
  · have hnone := (hunwraps ⟨"photo-key", []⟩ ⟨hkeyId.symm, by simp⟩).2 (by simp [KeyRing.CanOpen])
    rw [hkeyId] at hnone
    exact hnone

end KeySession

end BlobVault
