import BlobVault.Proofs.Keys.Recall

/-!
# What the cache holds

A ring is asked for one thing after another, and its unwrappings are written down, each with the
ring as it found it.  Of those that were answered since a private half was last forgotten, the cache
holds the latest identifiers, as many as there is room for.  While an identifier is held, its
envelopes are answered from the cache and not opened, so its data key is still the one that was
opened when the cache did not have it the last time.

* `KeyRequest`, `KeyLog` : what can be asked, and the record of the unwrappings;
* `KeyLog.perform_cases` : all that a request can do;
* `KeyLog.InCache.perform`, `KeyLog.Opened.perform` : what one request keeps;
* `KeyLog.held_performAll` : **the cache after any requests.**
-/

namespace BlobVault

namespace KeyCache

/-! ### Identifiers -/

theorem eraseDups_filter (q : String → Bool) (ids : List String) :
    (ids.filter q).eraseDups = ids.eraseDups.filter q := by
  -- what follows the first identifier may be shorter by more than one
  induction hlength : ids.length using Nat.strong_induction_on generalizing ids with
  | _ n ih =>
    cases ids with
    | nil => rfl
    | cons id ids =>
      have hrest := ih _ (by rw [← hlength]; exact Nat.lt_succ_of_le (List.length_filter_le ..))
        (ids.filter fun id' => !id' == id) rfl
      rw [List.eraseDups_cons]
      cases hq : q id with
      | true =>
        rw [List.filter_cons_of_pos hq, List.filter_cons_of_pos hq, List.eraseDups_cons, ← hrest,
          List.filter_filter, List.filter_filter]
        simp only [Bool.and_comm]
      | false =>
        have hnone : (ids.filter fun id' => !id' == id).filter q = ids.filter q := by
          rw [List.filter_filter]
          refine List.filter_congr fun id' _ => ?_
          by_cases hid : id' = id
          · simp [hid, hq]
          · simp [hid]
        rw [List.filter_cons_of_neg (by simp [hq]), List.filter_cons_of_neg (by simp [hq]), ← hrest,
          hnone]

theorem map_fst_latest (answers : List (String × Bytes)) :
    (latest answers).map (·.1) = (answers.map (·.1)).eraseDups := by
  induction answers with
  | nil => rfl
  | cons p answers ih =>
    rw [latest, List.map_cons, List.map_cons, List.eraseDups_cons, eraseDups_filter, ← ih,
      List.filter_map]
    rfl

end KeyCache

/-! ### Requests -/

/-- What can be asked of a key ring. -/
inductive KeyRequest where
  | call (c : KeyCall)
  | registerPrivateFile (file : Bytes)
  | registerPublicFile (file : Bytes)
  | fingerprints

/-- The ring that a registration leaves, which is the old one if the key file cannot be read. -/
def KeyRing.registered (ring : KeyRing) : Except KeyFault (String × KeyRing) → KeyRing
  | .ok (_, ring) => ring
  | .error _ => ring

/-- The ring after a request. -/
def KeyRing.after (ring : KeyRing) : KeyRequest → KeyRing
  | .call (.registerPrivate k) => (ring.registerPrivate k).2
  | .call (.registerPublic k) => (ring.registerPublic k).2
  | .call (.forget f) => ring.forget f
  | .call (.wrap ..) => ring
  | .call (.unwrap e) => (ring.unwrap e).2
  | .registerPrivateFile file => ring.registered (ring.registerPrivateFile file)
  | .registerPublicFile file => ring.registered (ring.registerPublicFile file)
  | .fingerprints => ring

/-- A call that unwraps an envelope, with the ring as the call found it. -/
structure Unwrapping where
  envelope : Envelope
  ring : KeyRing

namespace Unwrapping

/-- The identifier that is asked for. -/
def keyId (u : Unwrapping) : String := u.envelope.keyId

/-- The data key that was answered, if there was one. -/
def answer? (u : Unwrapping) : Option Bytes :=
  match (u.ring.unwrap u.envelope).1 with
  | .ok key => some key
  | .error _ => none

/-- The cache did not have the identifier. -/
def isMiss (u : Unwrapping) : Bool := (u.ring.cache.find? u.keyId).isNone

/-- What is in the first slot that opens. -/
def opened? (u : Unwrapping) : Option Bytes := KeyRing.openFirst? u.ring.keys u.envelope

end Unwrapping

/-- A ring, and the unwrappings since a private half was last forgotten, latest first. -/
structure KeyLog where
  ring : KeyRing
  unwrappings : List Unwrapping

namespace KeyLog

/-- A ring without keys. -/
def start (capacity : Nat) : KeyLog := ⟨.empty capacity, []⟩

/-- The record after a request. -/
def record (l : KeyLog) : KeyRequest → List Unwrapping
  | .call (.forget _) => []
  | .call (.unwrap e) => ⟨e, l.ring⟩ :: l.unwrappings
  | _ => l.unwrappings

/-- The ring and the record after a request. -/
def perform (l : KeyLog) (r : KeyRequest) : KeyLog := ⟨l.ring.after r, l.record r⟩

/-- The ring and the record after some requests. -/
def performAll (l : KeyLog) (requests : List KeyRequest) : KeyLog := requests.foldl perform l

/-- The answers in the record, each with its identifier. -/
def answers (l : KeyLog) : List (String × Bytes) :=
  l.unwrappings.filterMap fun u => u.answer?.map fun key => (u.keyId, key)

/-- The identifiers that were answered, latest first. -/
def used (l : KeyLog) : List String := l.answers.map (·.1)

/-- The last time that the cache did not have an identifier that was asked for. -/
def lastMiss? (l : KeyLog) (id : String) : Option Unwrapping :=
  l.unwrappings.find? fun u => u.isMiss && u.keyId == id

/-- The cache is what is remembered of the answers. -/
def InCache (l : KeyLog) (capacity : Nat) : Prop :=
  KeySession.InCache ⟨l.ring, l.answers⟩ capacity

/-- Every data key that is held is the one that was opened when the cache did not have its
identifier the last time. -/
def Opened (l : KeyLog) : Prop :=
  ∀ p ∈ l.ring.cache.entries, ∃ u, l.lastMiss? p.1 = some u ∧ u.opened? = some p.2

/-! ### One request -/

/-- What a request can do: it empties the cache, answers an envelope from the cache or by opening
it, refuses an envelope, or leaves the cache and the record alone. -/
theorem perform_cases (l : KeyLog) (r : KeyRequest) :
    (∃ f, r = .call (.forget f)) ∨
    (∃ e key, r = .call (.unwrap e) ∧
      (l.ring.cache.find? e.keyId = some key ∨
        l.ring.cache.find? e.keyId = none ∧ KeyRing.openFirst? l.ring.keys e = some key) ∧
      l.ring.unwrap e = (.ok key, l.ring.remember e.keyId key)) ∨
    (∃ e, r = .call (.unwrap e) ∧ l.ring.cache.find? e.keyId = none ∧
      l.ring.unwrap e = (.error (KeyRing.noMatch e), l.ring)) ∨
    (l.perform r).ring.cache = l.ring.cache ∧ (l.perform r).unwrappings = l.unwrappings := by
  cases r with
  | call c =>
    cases c with
    | registerPrivate k => exact .inr (.inr (.inr ⟨rfl, rfl⟩))
    | registerPublic k => exact .inr (.inr (.inr ⟨KeyRing.cache_registerPublic l.ring k, rfl⟩))
    | forget f => exact .inl ⟨f, rfl⟩
    | wrap => exact .inr (.inr (.inr ⟨rfl, rfl⟩))
    | unwrap e =>
      cases hfind : l.ring.cache.find? e.keyId with
      | some key => exact .inr (.inl ⟨e, key, rfl, .inl hfind, KeyRing.unwrap_of_cached hfind⟩)
      | none =>
        have hunwrap := KeyRing.unwrap_of_not_cached hfind
        cases hopen : KeyRing.openFirst? l.ring.keys e with
        | some key =>
          rw [hopen] at hunwrap
          exact .inr (.inl ⟨e, key, rfl, .inr ⟨hfind, hopen⟩, hunwrap⟩)
        | none =>
          rw [hopen] at hunwrap
          exact .inr (.inr (.inl ⟨e, rfl, hfind, hunwrap⟩))
  | registerPrivateFile file =>
    refine .inr (.inr (.inr ⟨?_, rfl⟩))
    show (l.ring.registered (l.ring.registerPrivateFile file)).cache = l.ring.cache
    unfold KeyRing.registerPrivateFile
    split <;> rfl
  | registerPublicFile file =>
    refine .inr (.inr (.inr ⟨?_, rfl⟩))
    show (l.ring.registered (l.ring.registerPublicFile file)).cache = l.ring.cache
    unfold KeyRing.registerPublicFile
    split
    · exact KeyRing.cache_registerPublic l.ring _
    · rfl
  | fingerprints => exact .inr (.inr (.inr ⟨rfl, rfl⟩))

variable {l : KeyLog} {capacity : Nat}

theorem answers_of_ok {e : Envelope} {key : Bytes} {ring : KeyRing}
    (h : l.ring.unwrap e = (.ok key, ring)) :
    (l.perform (.call (.unwrap e))).answers = (e.keyId, key) :: l.answers := by
  simp [perform, record, answers, Unwrapping.answer?, Unwrapping.keyId, h]

theorem answers_of_error {e : Envelope} {fault : KeyFault} {ring : KeyRing}
    (h : l.ring.unwrap e = (.error fault, ring)) :
    (l.perform (.call (.unwrap e))).answers = l.answers := by
  simp [perform, record, answers, Unwrapping.answer?, h]

theorem lastMiss?_of_miss {e : Envelope} (h : l.ring.cache.find? e.keyId = none) :
    (l.perform (.call (.unwrap e))).lastMiss? e.keyId = some ⟨e, l.ring⟩ := by
  simp [perform, record, lastMiss?, Unwrapping.isMiss, Unwrapping.keyId, h]

theorem lastMiss?_of_hit {e : Envelope} {key : Bytes}
    (h : l.ring.cache.find? e.keyId = some key) (id : String) :
    (l.perform (.call (.unwrap e))).lastMiss? id = l.lastMiss? id := by
  simp [perform, record, lastMiss?, Unwrapping.isMiss, Unwrapping.keyId, h]

theorem lastMiss?_of_ne {e : Envelope} {id : String} (h : id ≠ e.keyId) :
    (l.perform (.call (.unwrap e))).lastMiss? id = l.lastMiss? id := by
  simp [perform, record, lastMiss?, Unwrapping.keyId, Ne.symm h]

theorem InCache.perform (h : l.InCache capacity) (r : KeyRequest) :
    (l.perform r).InCache capacity := by
  rcases l.perform_cases r with ⟨f, rfl⟩ | ⟨e, key, rfl, -, hunwrap⟩ | ⟨e, rfl, -, hunwrap⟩ |
    ⟨hcache, hrecord⟩
  · exact ⟨h.room, List.take_nil.symm⟩
  · have hring : (l.perform (.call (.unwrap e))).ring = l.ring.remember e.keyId key :=
      congrArg Prod.snd hunwrap
    rw [InCache, hring, answers_of_ok hunwrap]
    exact h.answer e.keyId key
  · have hring : (l.perform (.call (.unwrap e))).ring = l.ring := congrArg Prod.snd hunwrap
    rw [InCache, hring, answers_of_error hunwrap]
    exact h
  · have hanswers : (l.perform r).answers = l.answers := by
      rw [answers, hrecord]
      rfl
    rw [InCache, hanswers]
    exact ⟨hcache ▸ h.room, hcache ▸ h.entries⟩

theorem Opened.perform (h : l.Opened) (r : KeyRequest) : (l.perform r).Opened := by
  rcases l.perform_cases r with ⟨f, rfl⟩ | ⟨e, key, rfl, hkey, hunwrap⟩ | ⟨e, rfl, hmiss, hunwrap⟩ |
    ⟨hcache, hrecord⟩
  · intro p hp
    cases hp
  · have hring : (l.perform (.call (.unwrap e))).ring = l.ring.remember e.keyId key :=
      congrArg Prod.snd hunwrap
    intro p hp
    rw [hring] at hp
    rcases KeyCache.mem_put hp with rfl | ⟨hold, hne⟩
    · rcases hkey with hhit | ⟨hmiss, hopen⟩
      · -- the key was held before, and its identifier has not been missed since
        rw [lastMiss?_of_hit hhit]
        exact h _ (KeyCache.mem_of_find? hhit)
      · exact ⟨_, lastMiss?_of_miss hmiss, hopen⟩
    · rw [lastMiss?_of_ne hne]
      exact h p hold
  · have hring : (l.perform (.call (.unwrap e))).ring = l.ring := congrArg Prod.snd hunwrap
    intro p hp
    rw [hring] at hp
    -- an identifier that is held is not missed
    have hne : p.1 ≠ e.keyId := fun hid => KeyCache.notMem_map_fst_iff.2 hmiss
      (List.mem_map.2 ⟨p, hp, hid⟩)
    rw [lastMiss?_of_ne hne]
    exact h p hp
  · intro p hp
    rw [hcache] at hp
    rw [lastMiss?, hrecord]
    exact h p hp

/-! ### Requests one after another -/

theorem sound_performAll (capacity : Nat) (requests : List KeyRequest) :
    ((start capacity).performAll requests).InCache capacity ∧
      ((start capacity).performAll requests).Opened := by
  induction requests using List.reverseRecOn with
  | nil => exact ⟨KeySession.inCache_start capacity, fun p hp => by cases hp⟩
  | append_singleton requests r ih =>
    rw [performAll, List.foldl_append]
    exact ⟨ih.1.perform r, ih.2.perform r⟩

/-- **What the cache holds after any requests.**  Its identifiers are the latest ones that were
answered since a private half was last forgotten, each of them once, and as many as there is room
for; the data key of each is what was opened when the cache did not have it the last time.  Nothing
but forgetting and an unwrapping that is answered changes the cache. -/
theorem held_performAll (capacity : Nat) (requests : List KeyRequest) :
    let l := (start capacity).performAll requests
    l.ring.cache.entries.map (·.1) = l.used.eraseDups.take (max capacity 1) ∧
      (∀ p ∈ l.ring.cache.entries, ∃ u, l.lastMiss? p.1 = some u ∧ u.opened? = some p.2) ∧
      ∀ r, (l.ring.after r).cache = l.ring.cache ∨ (∃ f, r = .call (.forget f)) ∨
        ∃ e key, r = .call (.unwrap e) ∧ (l.ring.unwrap e).1 = .ok key := by
  intro l
  obtain ⟨hcache, hopened⟩ := sound_performAll capacity requests
  refine ⟨?_, hopened, fun r => ?_⟩
  · rw [hcache.entries, List.map_take, KeyCache.map_fst_latest, used]
  · rcases l.perform_cases r with hforget | ⟨e, key, rfl, -, hunwrap⟩ | ⟨e, rfl, -, hunwrap⟩ |
      ⟨hcache, -⟩
    · exact .inr (.inl hforget)
    · exact .inr (.inr ⟨e, key, rfl, congrArg Prod.fst hunwrap⟩)
    · exact .inl (congrArg (fun answer => answer.2.cache) hunwrap)
    · exact .inl hcache

end KeyLog

end BlobVault
