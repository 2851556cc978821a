import BlobVault.Proofs.Keys.Revocation
import Mathlib.Data.Finset.Card

/-!
# What the cache answers

The cache knows data keys by their identifiers alone.  So an envelope is answered with what was last
answered under its identifier, whatever it holds itself, as long as that answer is remembered: until
a private half is forgotten, or as many other identifiers as there is room for have been answered.

* `KeySession` : calls on a ring, one after another, and what unwrapping has answered;
* `KeySession.recalled?` : what is remembered under an identifier, read off the answers;
* `KeySession.unwrap_eq_iff` : **unwrapping answers as it would without a cache exactly if what is
  remembered, if anything, is in the envelope's first slot that opens**;
* `KeySession.recalled_sample` : two envelopes with one identifier and different data keys.
-/

namespace BlobVault

namespace KeyCache

/-! ### Entries -/

/-- Every identifier with its last answer, latest first. -/
def latest : List (String × Bytes) → List (String × Bytes)
  | [] => []
  | p :: answers => p :: (latest answers).filter fun q => q.1 != p.1

theorem nodup_latest (answers : List (String × Bytes)) :
    ((latest answers).map (·.1)).Nodup := by
  induction answers with
  | nil => exact .nil
  | cons p answers ih =>
    refine List.nodup_cons.2 ⟨fun hmem => ?_, ih.sublist (List.filter_sublist.map _)⟩
    obtain ⟨q, hq, hid⟩ := List.mem_map.1 hmem
    simp [hid] at hq

/-- To make room for one entry, it does not matter whether the old entry of its identifier is
taken out before or after the others are cut off. -/
theorem take_filter_take (id : String) (n : Nat) {entries : List (String × Bytes)}
    (h : (entries.map (·.1)).Nodup) :
    ((entries.take (n + 1)).filter fun q => q.1 != id).take n =
      (entries.filter fun q => q.1 != id).take n := by
  induction entries generalizing n with
  | nil => rfl
  | cons q entries ih =>
    obtain ⟨hq, hentries⟩ := List.nodup_cons.1 h
    rw [List.take_succ_cons]
    by_cases hid : q.1 = id
    · -- no other entry has the identifier
      have hothers : ∀ q' ∈ entries, (q'.1 != id) = true := fun q' hmem => by
        exact bne_iff_ne.2 fun hid' => hq (List.mem_map.2 ⟨q', hmem, hid'.trans hid.symm⟩)
      rw [List.filter_cons_of_neg (by simp [hid]), List.filter_cons_of_neg (by simp [hid]),
        List.filter_eq_self.2 fun q' hmem => hothers q' (List.mem_of_mem_take hmem),
        List.filter_eq_self.2 hothers, List.take_take, Nat.min_self]
    · rw [List.filter_cons_of_pos (by simp [hid]), List.filter_cons_of_pos (by simp [hid])]
      cases n with
      | zero => rfl
      | succ n => rw [List.take_succ_cons, List.take_succ_cons, ih n hentries]

theorem lookup_latest (answers : List (String × Bytes)) (id : String) :
    (latest answers).lookup id = answers.lookup id := by
  induction answers with
  | nil => rfl
  | cons p answers ih =>
    obtain ⟨id', key⟩ := p
    rw [latest, List.lookup_cons, List.lookup_cons]
    by_cases hid : id = id'
    · rw [hid, beq_self_eq_true]
    · rw [beq_false_of_ne hid]
      exact (lookup_filter_of_ne hid).trans ih

theorem takeWhile_filter {α : Type} {p q : α → Bool} (h : ∀ a, p a = false → q a = true)
    (as : List α) : (as.filter q).takeWhile p = (as.takeWhile p).filter q := by
  induction as with
  | nil => rfl
  | cons a as ih =>
    cases hp : p a with
    | false =>
      rw [List.filter_cons_of_pos (h a hp), List.takeWhile_cons, List.takeWhile_cons, hp]
      rfl
    | true =>
      rw [List.takeWhile_cons, if_pos hp]
      cases hq : q a with
      | false =>
        rw [List.filter_cons_of_neg (by simp [hq]), List.filter_cons_of_neg (by simp [hq]), ih]
      | true =>
        rw [List.filter_cons_of_pos hq, List.filter_cons_of_pos hq, List.takeWhile_cons,
          if_pos hp, ih]

theorem takeWhile_latest (answers : List (String × Bytes)) (id : String) :
    (latest answers).takeWhile (fun q => q.1 != id) =
      latest (answers.takeWhile fun q => q.1 != id) := by
  induction answers with
  | nil => rfl
  | cons p answers ih =>
    rw [latest, List.takeWhile_cons, List.takeWhile_cons]
    split
    · rename_i hp
      rw [latest, takeWhile_filter (fun q hq => ?_), ih]
      have hq : q.1 = id := by simpa using hq
      simpa [hq] using Ne.symm (bne_iff_ne.1 hp)
    · rfl

theorem notMem_map_fst_iff {entries : List (String × Bytes)} {id : String} :
    id ∉ entries.map (·.1) ↔ entries.lookup id = none := by
  rw [List.lookup_eq_none_iff, List.mem_map]
  constructor
  · intro h p hp
    exact bne_iff_ne.2 fun hid => h ⟨p, hp, hid.symm⟩
  · rintro h ⟨p, hp, rfl⟩
    simpa using h p hp

/-- The number of different identifiers that have been answered. -/
theorem length_latest (answers : List (String × Bytes)) :
    (latest answers).length = (answers.map (·.1)).toFinset.card := by
  have hsame : ((latest answers).map (·.1)).toFinset = (answers.map (·.1)).toFinset := by
    ext id
    simp only [List.mem_toFinset]
    rw [← not_iff_not, notMem_map_fst_iff, notMem_map_fst_iff, lookup_latest]
  rw [← hsame, List.toFinset_card_of_nodup (nodup_latest answers), List.length_map]

theorem lookup_take (entries : List (String × Bytes)) (n : Nat) (id : String) :
    (entries.take n).lookup id =
      if (entries.takeWhile fun q => q.1 != id).length < n then entries.lookup id else none := by
  induction entries generalizing n with
  | nil => simp only [List.take_nil, List.lookup_nil, ite_self]
  | cons q entries ih =>
    obtain ⟨id', key⟩ := q
    cases n with
    | zero => simp
    | succ n =>
      rw [List.take_succ_cons, List.lookup_cons, List.lookup_cons, List.takeWhile_cons]
      by_cases hid : id = id'
      · simp [hid]
      · rw [beq_false_of_ne hid, if_pos (bne_iff_ne.2 (Ne.symm hid))]
        simp [ih]

/-- What is remembered under an identifier if there is room for some answers: the last one, unless
as many other identifiers have been answered after it. -/
def recalled? (answers : List (String × Bytes)) (room : Nat) (id : String) : Option Bytes :=
  if ((answers.takeWhile fun q => q.1 != id).map (·.1)).toFinset.card < room
  then answers.lookup id
  else none

theorem lookup_take_latest (answers : List (String × Bytes)) (n : Nat) (id : String) :
    ((latest answers).take n).lookup id = recalled? answers n id := by
  rw [lookup_take, takeWhile_latest, length_latest, lookup_latest, recalled?]

end KeyCache

/-! ### Calls one after another -/

/-- The calls on a key ring. -/
inductive KeyCall where
  | registerPrivate (k : PrivateKey)
  | registerPublic (k : PublicKey)
  | forget (fingerprint : String)
  | wrap (keyId : String) (dataKey : Bytes) (recipients : List String) (pool : Entropy)
  | unwrap (e : Envelope)

/-- A ring, and the data keys that unwrapping has answered since a private half was last forgotten,
each with its identifier, latest first. -/
structure KeySession where
  ring : KeyRing
  answers : List (String × Bytes)

namespace KeySession

/-- A ring without keys. -/
def start (capacity : Nat) : KeySession := ⟨.empty capacity, []⟩

/-- The session after a call. -/
def perform (s : KeySession) : KeyCall → KeySession
  | .registerPrivate k => { s with ring := (s.ring.registerPrivate k).2 }
  | .registerPublic k => { s with ring := (s.ring.registerPublic k).2 }
  | .forget f => ⟨s.ring.forget f, []⟩
  | .wrap .. => s
  | .unwrap e =>
    match s.ring.unwrap e with
    | (.ok key, ring) => ⟨ring, (e.keyId, key) :: s.answers⟩
    | (.error _, ring) => { s with ring := ring }

/-- The session after some calls. -/
def performAll (s : KeySession) (calls : List KeyCall) : KeySession := calls.foldl perform s

/-- The cache is what is remembered of the answers. -/
structure InCache (s : KeySession) (capacity : Nat) : Prop where
  room : s.ring.cache.capacity = max capacity 1
  entries : s.ring.cache.entries = (KeyCache.latest s.answers).take (max capacity 1)

variable {s : KeySession} {capacity : Nat}

theorem InCache.answer (h : s.InCache capacity) (id : String) (key : Bytes) :
    InCache ⟨s.ring.remember id key, (id, key) :: s.answers⟩ capacity where
  room := h.room
  entries := by
    obtain ⟨room, hroom⟩ : ∃ room, max capacity 1 = room + 1 := ⟨max capacity 1 - 1, by omega⟩
    show ((id, key) :: s.ring.cache.entries.filter fun p => p.1 != id).take
      s.ring.cache.capacity = _
    rw [h.room, h.entries, hroom, List.take_succ_cons,
      KeyCache.take_filter_take id room (KeyCache.nodup_latest s.answers)]
    rfl

theorem InCache.perform (h : s.InCache capacity) (c : KeyCall) :
    (s.perform c).InCache capacity := by
  cases c with
  | registerPrivate k => exact ⟨h.room, h.entries⟩
  | registerPublic k =>
    have hcache : (s.ring.registerPublic k).2.cache = s.ring.cache :=
      KeyRing.cache_registerPublic s.ring k
    exact ⟨hcache ▸ h.room, hcache ▸ h.entries⟩
  | forget f => exact ⟨h.room, List.take_nil.symm⟩
  | wrap => exact h
  | unwrap e =>
    rw [KeySession.perform]
    cases hfind : s.ring.cache.find? e.keyId with
    | some key =>
      rw [KeyRing.unwrap_of_cached hfind]
      exact h.answer e.keyId key
    | none =>
      rw [KeyRing.unwrap_of_not_cached hfind]
      cases KeyRing.openFirst? s.ring.keys e with
      | none => exact h
      | some key => exact h.answer e.keyId key

theorem InCache.performAll (h : s.InCache capacity) (calls : List KeyCall) :
    (s.performAll calls).InCache capacity := by
  induction calls generalizing s with
  | nil => exact h
  | cons c calls ih => exact ih (h.perform c)

theorem inCache_start (capacity : Nat) : (start capacity).InCache capacity :=
  ⟨rfl, List.take_nil.symm⟩

/-- What is remembered under an identifier. -/
def recalled? (s : KeySession) (capacity : Nat) (id : String) : Option Bytes :=
  KeyCache.recalled? s.answers (max capacity 1) id

theorem InCache.find? (h : s.InCache capacity) (id : String) :
    s.ring.cache.find? id = s.recalled? capacity id := by
  rw [KeyCache.find?, h.entries, KeyCache.lookup_take_latest, recalled?]

/-- **Unwrapping answers as it would without a cache**, that is, with what is in the first slot that
opens or with a fault if there is none, **exactly if what is remembered under the identifier is in
that slot, or nothing is remembered**.  What is remembered is answered whatever the envelope
holds. -/
theorem unwrap_eq_iff (capacity : Nat) (calls : List KeyCall) (e : Envelope) :
    (((start capacity).performAll calls).ring.clearCache.unwrap e).1 =
        KeyRing.opened ((start capacity).performAll calls).ring.keys e ∧
      ((((start capacity).performAll calls).ring.unwrap e).1 =
          KeyRing.opened ((start capacity).performAll calls).ring.keys e ↔
        ∀ key, ((start capacity).performAll calls).recalled? capacity e.keyId = some key →
          KeyRing.openFirst? ((start capacity).performAll calls).ring.keys e = some key) ∧
      ∀ key, ((start capacity).performAll calls).recalled? capacity e.keyId = some key →
        (((start capacity).performAll calls).ring.unwrap e).1 = .ok key := by
  have hcache := (inCache_start capacity).performAll calls
  generalize (start capacity).performAll calls = s at hcache ⊢
  refine ⟨KeyRing.unwrap_clearCache e, ?_⟩
  rw [← hcache.find?]
  cases hfind : s.ring.cache.find? e.keyId with
  | some key =>
    rw [KeyRing.unwrap_of_cached hfind, eq_comm, KeyRing.opened_eq_ok]
    exact ⟨by simp, fun key' hkey' => congrArg Except.ok (Option.some.inj hkey')⟩
  | none =>
    rw [KeyRing.unwrap_fst_of_not_cached hfind]
    exact ⟨by simp, fun key' hkey' => by cases hkey'⟩

end KeySession

namespace Sample

/-- Another data key that is wrapped under the same identifier. -/
def otherEnvelope : Envelope := envelope "photo-key" (List.replicate 16 2)

def unwrapping : List KeyCall := [.registerPrivate wrappingKey, .unwrap photoEnvelope]

end Sample

namespace KeySession

/-- An envelope is answered with the data key of another one that has its identifier. -/
theorem recalled_sample :
    (((start 1).performAll Sample.unwrapping).ring.unwrap Sample.otherEnvelope).1 =
        .ok (List.replicate 16 1) ∧
      (((start 1).performAll Sample.unwrapping).ring.clearCache.unwrap Sample.otherEnvelope).1 =
        .ok (List.replicate 16 2) := by
  have hrun : ((start 1).performAll Sample.unwrapping).ring.cache.find? "photo-key" =
        some (List.replicate 16 1) ∧
      KeyRing.openFirst? ((start 1).performAll Sample.unwrapping).ring.keys Sample.otherEnvelope =
        some (List.replicate 16 2) := by decide +kernel
  rw [KeyRing.unwrap_clearCache, KeyRing.unwrap_of_cached (e := Sample.otherEnvelope) hrun.1]
  exact ⟨rfl, KeyRing.opened_eq_ok.2 hrun.2⟩

end KeySession

end BlobVault
