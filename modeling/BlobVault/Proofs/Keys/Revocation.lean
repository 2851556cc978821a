import BlobVault.Proofs.Keys.Ring
import BlobVault.Proofs.Vault.Agreement

/-!
# Revocation

Unwrapping a data key looks it up, opens a slot and keeps the key, and forgetting a private half
drops it and then clears the cache.  The table of keys and the cache have a lock each, so that the
steps of different calls may come in any order.  A forget that runs while an unwrapping stands
between opening and keeping is overtaken by it: the key is in the cache after the cache was cleared.

* `Custody` : a ring, the calls on their way, and what happened to private halves so far;
* `Custody.Outlived` : a cached key is left although the half that opened it is gone;
* `Custody.accounts_run` : **in every order, a cached key was opened by a half that is registered,
  unless a forget was overtaken or another half was registered in its place**;
* `Custody.outlived_sample` : both of these happen.
-/

namespace BlobVault

/-- A call that others may come between, by what it does next. -/
inductive RingCall where
  | looking (e : Envelope)
  | opening (e : Envelope)
  | keeping (o : OpenedSlot) (openedAt : Nat)
  | answered (answer : Except KeyFault Bytes)
  | dropping (fingerprint : String)
  | clearing (fingerprint : String) (droppedAt : Nat)
  | forgotten

/-- The call has returned. -/
def RingCall.isOver : RingCall → Bool
  | answered _ | forgotten => true
  | _ => false

/-- The private half under a fingerprint was dropped, or one was registered. -/
structure HalfChange where
  time : Nat
  fingerprint : String
  half? : Option PrivateKey

/-- A data key that was put into the cache. -/
structure KeptKey where
  opening : OpenedSlot
  openedAt : Nat
  keptAt : Nat

/-- A forget that returned. -/
structure Forgetting where
  fingerprint : String
  droppedAt : Nat
  clearedAt : Nat

/-- A ring, the calls on it, and what they have done so far, latest first. -/
structure Custody where
  ring : KeyRing
  calls : List RingCall
  now : Nat
  changes : List HalfChange
  kept : List KeptKey
  forgets : List Forgetting

namespace Custody

/-- No call is on its way. -/
def start (ring : KeyRing) : Custody := ⟨ring, [], 0, [], [], []⟩

/-- What can happen.  Registering takes one step; the other calls begin and then advance. -/
inductive Event where
  | unwrap (e : Envelope)
  | forget (fingerprint : String)
  | registerPrivate (k : PrivateKey)
  | registerPublic (k : PublicKey)
  | advance (i : Nat)

/-- A call goes on as another one. -/
def become (x : Custody) (i : Nat) (c : RingCall) : Custody := { x with calls := x.calls.set i c }

/-- The private half under a fingerprint has changed. -/
def change (x : Custody) (ring : KeyRing) (f : String) (half? : Option PrivateKey) : Custody :=
  { x with ring := ring, changes := ⟨x.now, f, half?⟩ :: x.changes }

/-- A call takes its next step. -/
def advance (x : Custody) (i : Nat) : RingCall → Custody
  | .looking e =>
    match x.ring.lookUp? e.keyId with
    | some (key, ring) => { x.become i (.answered (.ok key)) with ring := ring }
    | none => x.become i (.opening e)
  | .opening e =>
    match KeyRing.firstOpened? x.ring.keys e with
    | some o => x.become i (.keeping o x.now)
    | none => x.become i (.answered (.error (KeyRing.noMatch e)))
  | .keeping o openedAt =>
    { x.become i (.answered (.ok o.key)) with
      ring := x.ring.remember o.envelope.keyId o.key
      kept := ⟨o, openedAt, x.now⟩ :: x.kept }
  | .dropping f => (x.become i (.clearing f x.now)).change (x.ring.dropPrivate f) f none
  | .clearing f droppedAt =>
    { x.become i .forgotten with
      ring := x.ring.clearCache
      forgets := ⟨f, droppedAt, x.now⟩ :: x.forgets }
  | .answered _ | .forgotten => x

/-- What an event does. -/
def act (x : Custody) : Event → Custody
  | .unwrap e => { x with calls := x.calls ++ [.looking e] }
  | .forget f => { x with calls := x.calls ++ [.dropping f] }
  | .registerPrivate k =>
    x.change (x.ring.registerPrivate k).2 (KeyRing.fingerprint k.toPublic) (some k)
  | .registerPublic k => { x with ring := (x.ring.registerPublic k).2 }
  | .advance i =>
    match x.calls[i]? with
    | some c => x.advance i c
    | none => x

/-- Something happens, and time goes on. -/
def play (x : Custody) (event : Event) : Custody := { x.act event with now := x.now + 1 }

/-- Some events happen one after another. -/
def run (x : Custody) (events : List Event) : Custody := events.foldl play x

/-- No call is in progress. -/
def Quiet (x : Custody) : Prop := ∀ c ∈ x.calls, c.isOver = true

instance (x : Custody) : Decidable x.Quiet :=
  inferInstanceAs (Decidable (∀ c ∈ x.calls, c.isOver = true))

/-- The last key that was put into the cache under an identifier. -/
def lastKept? (x : Custody) (id : String) : Option KeptKey :=
  x.kept.find? fun k => k.opening.envelope.keyId == id

/-- The last change under a fingerprint after a moment. -/
def lastChange? (x : Custody) (f : String) (since : Nat) : Option HalfChange :=
  x.changes.find? fun c => decide (since < c.time) && c.fingerprint == f

end Custody

/-- The forget ran from its beginning to its end after the slot was opened and before the key was
kept. -/
structure Forgetting.Overtaken (g : Forgetting) (k : KeptKey) : Prop where
  fingerprint : g.fingerprint = k.opening.slot.fingerprint
  dropped : k.openedAt < g.droppedAt
  cleared : g.clearedAt < k.keptAt

namespace Custody

/-- The last change to the half that opened the slot has taken it away: either another half came in
its place, or a forget dropped it and was overtaken. -/
def Outlived (x : Custody) (k : KeptKey) : Prop :=
  ∃ c, x.lastChange? k.opening.slot.fingerprint k.openedAt = some c ∧
    ((∃ p, c.half? = some p ∧ p ≠ k.opening.privateKey) ∨
      c.half? = none ∧ ∃ g ∈ x.forgets, g.droppedAt = c.time ∧ g.Overtaken k)

/-- A data key was opened from an envelope of the identifier, by a half that is registered unless
it was outlived. -/
def Accounts (x : Custody) (id : String) (key : Bytes) : Prop :=
  ∃ k, x.lastKept? id = some k ∧ k.opening.envelope.keyId = id ∧ k.opening.key = key ∧
    k.opening.Genuine ∧ (k.opening.Registered x.ring.keys ↔ ¬ x.Outlived k)

/-! ### What every event keeps -/

/-- The half under the slot's fingerprint is what the last change has made it since the slot was
opened, or still the one that opened it. -/
structure Traced (x : Custody) (o : OpenedSlot) (openedAt : Nat) : Prop where
  genuine : o.Genuine
  past : openedAt < x.now
  half : KeyRing.privateHalf? x.ring.keys o.slot.fingerprint =
    match x.lastChange? o.slot.fingerprint openedAt with
    | some c => c.half?
    | none => some o.privateKey

/-- What is known of a state, whatever happened before. -/
structure Sound (x : Custody) : Prop where
  changed : ∀ c ∈ x.changes, c.time < x.now
  dropped : ∀ c ∈ x.changes, c.half? = none → .clearing c.fingerprint c.time ∈ x.calls ∨
    ∃ g ∈ x.forgets, g.fingerprint = c.fingerprint ∧ g.droppedAt = c.time
  cleared : ∀ g ∈ x.forgets, g.clearedAt < x.now
  keeping : ∀ o t, .keeping o t ∈ x.calls → x.Traced o t
  kept : ∀ k ∈ x.kept, x.Traced k.opening k.openedAt
  cached : ∀ p ∈ x.ring.cache.entries, ∃ k, x.lastKept? p.1 = some k ∧ k.opening.key = p.2 ∧
    ∀ g ∈ x.forgets, g.clearedAt < k.keptAt

variable {x y : Custody}

/-- The private halves change together with the record of their changes. -/
def Follows (x y : Custody) : Prop :=
  (y.changes = x.changes ∧
    ∀ f, KeyRing.privateHalf? y.ring.keys f = KeyRing.privateHalf? x.ring.keys f) ∨
  ∃ f half?, y.changes = ⟨x.now, f, half?⟩ :: x.changes ∧
    ∀ f', KeyRing.privateHalf? y.ring.keys f' =
      if f' = f then half? else KeyRing.privateHalf? x.ring.keys f'

theorem Traced.of_follows {o : OpenedSlot} {t : Nat} (h : x.Traced o t) (hf : Follows x y)
    (hnow : x.now ≤ y.now) : y.Traced o t where
  genuine := h.genuine
  past := Nat.lt_of_lt_of_le h.past hnow
  half := by
    rcases hf with ⟨hchanges, hhalf⟩ | ⟨f, half?, hchanges, hhalf⟩
    · rw [hhalf, h.half, lastChange?, lastChange?, hchanges]
    · rw [hhalf, lastChange?, hchanges]
      by_cases hslot : o.slot.fingerprint = f
      · rw [if_pos hslot, List.find?_cons_of_pos (by simp [h.past, hslot])]
      · rw [if_neg hslot, h.half, List.find?_cons_of_neg (by simp [Ne.symm hslot]), lastChange?]

/-- Nothing happens to private halves. -/
theorem Traced.stay {o : OpenedSlot} {t : Nat} (h : x.Traced o t) (hchanges : y.changes = x.changes)
    (hkeys : y.ring.keys = x.ring.keys) (hnow : y.now = x.now + 1) : y.Traced o t :=
  h.of_follows (.inl ⟨hchanges, fun f => by rw [hkeys]⟩) (hnow ▸ Nat.le_succ _)

theorem mem_set_of_ne {α : Type} {as : List α} {i : Nat} {a b c : α} (hget : as[i]? = some c)
    (hmem : a ∈ as) (hne : a ≠ c) : a ∈ as.set i b := by
  obtain ⟨j, hj⟩ := List.mem_iff_getElem?.1 hmem
  refine List.mem_iff_getElem?.2 ⟨j, ?_⟩
  rw [List.getElem?_set_ne, hj]
  rintro rfl
  exact hne (Option.some.inj (hj.symm.trans hget))

/-- The calls hold what they held, apart from what begins or ends. -/
structure Carries (x : Custody) (calls : List RingCall) : Prop where
  keeping : ∀ o t, .keeping o t ∈ calls → .keeping o t ∈ x.calls
  clearing : ∀ f t, .clearing f t ∈ x.calls → .clearing f t ∈ calls

theorem carries_append {c : RingCall} (hc : ∀ o t, c ≠ .keeping o t) :
    x.Carries (x.calls ++ [c]) where
  keeping o t hmem := by
    rcases List.mem_append.1 hmem with hold | hnew
    · exact hold
    · exact absurd (List.mem_singleton.1 hnew).symm (hc o t)
  clearing f t hmem := List.mem_append_left _ hmem

theorem carries_set {i : Nat} {c c' : RingCall} (hget : x.calls[i]? = some c)
    (hc : ∀ f t, c ≠ .clearing f t) (hc' : ∀ o t, c' ≠ .keeping o t) :
    x.Carries (x.calls.set i c') where
  keeping o t hmem := by
    rcases List.mem_or_eq_of_mem_set hmem with hold | hnew
    · exact hold
    · exact absurd hnew.symm (hc' o t)
  clearing f t hmem := mem_set_of_ne hget hmem fun heq => hc f t heq.symm

/-- Nothing happens to private halves, and nothing comes into the cache. -/
theorem Sound.of_carries (h : x.Sound) {calls : List RingCall} (hcalls : x.Carries calls)
    {ring : KeyRing}
    (hhalf : ∀ f, KeyRing.privateHalf? ring.keys f = KeyRing.privateHalf? x.ring.keys f)
    (hcache : ∀ p ∈ ring.cache.entries, p ∈ x.ring.cache.entries) :
    Sound { x with ring := ring, calls := calls, now := x.now + 1 } where
  changed c hc := Nat.lt_succ_of_lt (h.changed c hc)
  dropped c hc hnone := (h.dropped c hc hnone).imp_left (hcalls.clearing _ _)
  cleared g hg := Nat.lt_succ_of_lt (h.cleared g hg)
  keeping o t hmem :=
    (h.keeping o t (hcalls.keeping o t hmem)).of_follows (.inl ⟨rfl, hhalf⟩) (Nat.le_succ _)
  kept k hk := (h.kept k hk).of_follows (.inl ⟨rfl, hhalf⟩) (Nat.le_succ _)
  cached p hp := h.cached p (hcache p hp)

/-- A private half is dropped or registered. -/
theorem Sound.of_change (h : x.Sound) {calls : List RingCall} (hcalls : x.Carries calls)
    {ring : KeyRing} {f : String} {half? : Option PrivateKey}
    (hhalf : ∀ f', KeyRing.privateHalf? ring.keys f' =
      if f' = f then half? else KeyRing.privateHalf? x.ring.keys f')
    (hcache : ring.cache = x.ring.cache) (hdropped : half? = none → .clearing f x.now ∈ calls) :
    Sound { x with
      ring := ring
      calls := calls
      now := x.now + 1
      changes := ⟨x.now, f, half?⟩ :: x.changes } := by
  have hfollows : ∀ {o t}, x.Traced o t → Traced { x with
      ring := ring
      calls := calls
      now := x.now + 1
      changes := ⟨x.now, f, half?⟩ :: x.changes } o t := fun htraced =>
    htraced.of_follows (.inr ⟨f, half?, rfl, hhalf⟩) (Nat.le_succ _)
  exact
    { changed := fun c hc => by
        rcases List.mem_cons.1 hc with rfl | hold
        · exact Nat.lt_succ_self _
        · exact Nat.lt_succ_of_lt (h.changed c hold)
      dropped := fun c hc hnone => by
        rcases List.mem_cons.1 hc with rfl | hold
        · exact .inl (hdropped hnone)
        · exact (h.dropped c hold hnone).imp_left (hcalls.clearing _ _)
      cleared := fun g hg => Nat.lt_succ_of_lt (h.cleared g hg)
      keeping := fun o t hmem => hfollows (h.keeping o t (hcalls.keeping o t hmem))
      kept := fun k hk => hfollows (h.kept k hk)
      cached := fun p hp => h.cached p (hcache ▸ hp) }

/-- A slot is opened. -/
theorem Sound.of_opened (h : x.Sound) {i : Nat} {e : Envelope}
    (hget : x.calls[i]? = some (.opening e)) {o : OpenedSlot}
    (ho : KeyRing.firstOpened? x.ring.keys e = some o) :
    Sound { x.become i (.keeping o x.now) with now := x.now + 1 } where
  changed c hc := Nat.lt_succ_of_lt (h.changed c hc)
  dropped c hc hnone :=
    (h.dropped c hc hnone).imp_left fun hmem => mem_set_of_ne hget hmem (by simp)
  cleared g hg := Nat.lt_succ_of_lt (h.cleared g hg)
  keeping o' t hmem := by
    rcases List.mem_or_eq_of_mem_set hmem with hold | hnew
    · exact (h.keeping o' t hold).stay rfl rfl rfl
    · obtain ⟨rfl, rfl⟩ := RingCall.keeping.inj hnew
      obtain ⟨-, hgenuine, hregistered⟩ := KeyRing.firstOpened?_eq_some ho
      refine ⟨hgenuine, Nat.lt_succ_self _, ?_⟩
      -- nothing has changed since this moment
      have hunchanged : x.lastChange? o'.slot.fingerprint x.now = none :=
        List.find?_eq_none.2 fun c hc => by
          simp [Nat.not_lt.2 (Nat.le_of_lt (h.changed c hc))]
      show _ = match x.lastChange? o'.slot.fingerprint x.now with
        | some c => c.half?
        | none => some o'.privateKey
      rw [hunchanged]
      exact hregistered
  kept k hk := (h.kept k hk).stay rfl rfl rfl
  cached := h.cached

/-- A data key comes into the cache. -/
theorem Sound.of_kept (h : x.Sound) {i : Nat} {o : OpenedSlot} {t : Nat}
    (hget : x.calls[i]? = some (.keeping o t)) :
    Sound { x.become i (.answered (.ok o.key)) with
      ring := x.ring.remember o.envelope.keyId o.key
      kept := ⟨o, t, x.now⟩ :: x.kept
      now := x.now + 1 } where
  changed c hc := Nat.lt_succ_of_lt (h.changed c hc)
  dropped c hc hnone :=
    (h.dropped c hc hnone).imp_left fun hmem => mem_set_of_ne hget hmem (by simp)
  cleared g hg := Nat.lt_succ_of_lt (h.cleared g hg)
  keeping o' t' hmem := by
    refine (h.keeping o' t' ?_).stay rfl rfl rfl
    exact (List.mem_or_eq_of_mem_set hmem).resolve_right (by simp)
  kept k hk := by
    have htraced : x.Traced k.opening k.openedAt := by
      rcases List.mem_cons.1 hk with rfl | hold
      · exact h.keeping o t (List.mem_of_getElem? hget)
      · exact h.kept k hold
    exact htraced.stay rfl rfl rfl
  cached p hp := by
    rcases KeyCache.mem_put hp with rfl | ⟨hold, hne⟩
    · exact ⟨_, List.find?_cons_of_pos (by simp), rfl, h.cleared⟩
    · obtain ⟨k, hlast, hkept⟩ := h.cached p hold
      exact ⟨k, (List.find?_cons_of_neg (by simpa using Ne.symm hne)).trans hlast, hkept⟩

/-- A forget returns. -/
theorem Sound.of_cleared (h : x.Sound) {i : Nat} {f : String} {t : Nat}
    (hget : x.calls[i]? = some (.clearing f t)) :
    Sound { x.become i .forgotten with
      ring := x.ring.clearCache
      forgets := ⟨f, t, x.now⟩ :: x.forgets
      now := x.now + 1 } where
  changed c hc := Nat.lt_succ_of_lt (h.changed c hc)
  dropped c hc hnone := by
    rcases h.dropped c hc hnone with hmem | ⟨g, hg, hforgot⟩
    · by_cases hthis : RingCall.clearing c.fingerprint c.time = .clearing f t
      · obtain ⟨hf, ht⟩ := RingCall.clearing.inj hthis
        exact .inr ⟨_, List.mem_cons_self, hf.symm, ht.symm⟩
      · exact .inl (mem_set_of_ne hget hmem hthis)
    · exact .inr ⟨g, List.mem_cons_of_mem _ hg, hforgot⟩
  cleared g hg := by
    rcases List.mem_cons.1 hg with rfl | hold
    · exact Nat.lt_succ_self _
    · exact Nat.lt_succ_of_lt (h.cleared g hold)
  keeping o' t' hmem := by
    refine (h.keeping o' t' ?_).stay rfl rfl rfl
    exact (List.mem_or_eq_of_mem_set hmem).resolve_right (by simp)
  kept k hk := (h.kept k hk).stay rfl rfl rfl
  cached p hp := by cases hp

/-- A call takes its next step. -/
theorem Sound.advance (h : x.Sound) {i : Nat} {c : RingCall} (hget : x.calls[i]? = some c) :
    Sound { x.advance i c with now := x.now + 1 } := by
  cases c with
  | looking e =>
    rw [Custody.advance, KeyRing.lookUp?_eq]
    cases hfind : x.ring.cache.find? e.keyId with
    | some key =>
      -- a key that is found was in the cache before
      refine h.of_carries (carries_set hget (by simp) (by simp)) (fun _ => rfl) fun p hp => ?_
      rcases KeyCache.mem_put hp with rfl | ⟨hold, -⟩
      · exact KeyCache.mem_of_find? hfind
      · exact hold
    | none =>
      exact h.of_carries (carries_set hget (by simp) (by simp)) (fun _ => rfl) fun _ hp => hp
  | opening e =>
    rw [Custody.advance]
    cases ho : KeyRing.firstOpened? x.ring.keys e with
    | some o => exact h.of_opened hget ho
    | none =>
      exact h.of_carries (carries_set hget (by simp) (by simp)) (fun _ => rfl) fun _ hp => hp
  | keeping o t => exact h.of_kept hget
  | answered answer => exact h.of_carries ⟨fun _ _ => id, fun _ _ => id⟩ (fun _ => rfl) fun _ => id
  | dropping f =>
    refine h.of_change (carries_set hget (by simp) (by simp))
      (KeyRing.privateHalf?_dropPrivate x.ring f) rfl fun _ => ?_
    exact List.mem_set (List.getElem?_eq_some_iff.1 hget).1 _
  | clearing f t => exact h.of_cleared hget
  | forgotten => exact h.of_carries ⟨fun _ _ => id, fun _ _ => id⟩ (fun _ => rfl) fun _ => id

theorem Sound.play (h : x.Sound) (event : Event) : (x.play event).Sound := by
  cases event with
  | unwrap e => exact h.of_carries (carries_append (by simp)) (fun _ => rfl) fun _ => id
  | forget f => exact h.of_carries (carries_append (by simp)) (fun _ => rfl) fun _ => id
  | registerPrivate k =>
    exact h.of_change ⟨fun _ _ => id, fun _ _ => id⟩ (KeyRing.privateHalf?_registerPrivate x.ring k)
      rfl (by simp)
  | registerPublic k =>
    refine h.of_carries ⟨fun _ _ => id, fun _ _ => id⟩
      (KeyRing.privateHalf?_registerPublic x.ring k) fun p hp => ?_
    exact KeyRing.cache_registerPublic x.ring k ▸ hp
  | advance i =>
    rw [Custody.play, act]
    split
    · rename_i c hget
      exact h.advance hget
    · exact h.of_carries ⟨fun _ _ => id, fun _ _ => id⟩ (fun _ => rfl) fun _ => id

theorem Sound.run (h : x.Sound) (events : List Event) : (x.run events).Sound := by
  induction events generalizing x with
  | nil => exact h
  | cons event events ih => exact ih (h.play event)

theorem sound_start {ring : KeyRing} (hcache : ring.cache.entries = []) : (start ring).Sound where
  changed c hc := by cases hc
  dropped c hc := by cases hc
  cleared g hg := by cases hg
  keeping o t hmem := by cases hmem
  kept k hk := by cases hk
  cached p hp := by
    rw [start, hcache] at hp
    cases hp

/-! ### When no call is in progress -/

theorem Sound.accounts (h : x.Sound) (hq : x.Quiet) {id : String} {key : Bytes}
    (hmem : (id, key) ∈ x.ring.cache.entries) : x.Accounts id key := by
  obtain ⟨k, hlast, hkey, hcleared⟩ := h.cached _ hmem
  have htraced := h.kept k (List.mem_of_find?_eq_some hlast)
  refine ⟨k, hlast, by simpa using List.find?_some hlast, hkey, htraced.genuine, ?_⟩
  rw [OpenedSlot.Registered, htraced.half, Outlived]
  cases hc : x.lastChange? k.opening.slot.fingerprint k.openedAt with
  | none => simp
  | some c =>
    have hmem : c ∈ x.changes := List.mem_of_find?_eq_some hc
    obtain ⟨hafter, hf⟩ : k.openedAt < c.time ∧ c.fingerprint = k.opening.slot.fingerprint := by
      simpa using List.find?_some hc
    cases hhalf : c.half? with
    | some p => simp [hhalf]
    | none =>
      -- the forget that dropped the half has returned, and the cache was cleared before
      have hover : RingCall.clearing c.fingerprint c.time ∉ x.calls := fun hcall => by
        cases hq _ hcall
      obtain ⟨g, hg, hgf, hgt⟩ := (h.dropped c hmem hhalf).resolve_left hover
      have hovertaken : g.Overtaken k := ⟨hgf.trans hf, hgt ▸ hafter, hcleared g hg⟩
      simpa [hhalf] using ⟨g, hg, hgt, hovertaken⟩

/-- **In every order of the steps, when no call is in progress, every cached key was opened from an
envelope of its identifier by a private half that is registered, unless it was outlived**; and what
unwrapping answers is such a key, or is opened by a registered half there and then. -/
theorem accounts_run {ring : KeyRing} (hcache : ring.cache.entries = []) (events : List Event)
    (hq : ((start ring).run events).Quiet) :
    (∀ id key, (id, key) ∈ ((start ring).run events).ring.cache.entries →
      ((start ring).run events).Accounts id key) ∧
    ∀ e key, (((start ring).run events).ring.unwrap e).1 = .ok key →
      ((start ring).run events).Accounts e.keyId key ∨
      ∃ o : OpenedSlot, o.envelope = e ∧ o.key = key ∧ o.Genuine ∧
        o.Registered ((start ring).run events).ring.keys := by
  have hsound := (sound_start hcache).run events
  refine ⟨fun id key hmem => hsound.accounts hq hmem, fun e key hanswer => ?_⟩
  cases hfind : ((start ring).run events).ring.cache.find? e.keyId with
  | some key' =>
    rw [KeyRing.unwrap_of_cached hfind] at hanswer
    obtain rfl := Except.ok.inj hanswer
    exact .inl (hsound.accounts hq (KeyCache.mem_of_find? hfind))
  | none =>
    rw [KeyRing.unwrap_of_not_cached hfind, KeyRing.openFirst?_eq] at hanswer
    cases ho : KeyRing.firstOpened? ((start ring).run events).ring.keys e with
    | none =>
      rw [ho] at hanswer
      cases hanswer
    | some o =>
      rw [ho] at hanswer
      obtain ⟨henvelope, hgenuine, hregistered⟩ := KeyRing.firstOpened?_eq_some ho
      exact .inr ⟨o, henvelope, Except.ok.inj hanswer, hgenuine, hregistered⟩

/-! ### Calls that nothing comes between -/

/-- The three steps of unwrapping, one after another, are unwrapping. -/
theorem run_unwrap (x : Custody) (e : Envelope) :
    (x.run (.unwrap e :: List.replicate 3 (.advance x.calls.length))).ring = (x.ring.unwrap e).2 ∧
    (x.run (.unwrap e :: List.replicate 3 (.advance x.calls.length))).calls =
      x.calls ++ [.answered (x.ring.unwrap e).1] := by
  cases hfind : x.ring.cache.find? e.keyId with
  | some key =>
    rw [KeyRing.unwrap_of_cached hfind]
    simp [run, play, act, advance, become, List.replicate, KeyRing.lookUp?_eq, hfind]
  | none =>
    rw [KeyRing.unwrap_of_not_cached hfind, KeyRing.openFirst?_eq]
    cases ho : KeyRing.firstOpened? x.ring.keys e with
    | none =>
      simp [run, play, act, advance, become, List.replicate, KeyRing.lookUp?_eq, hfind, ho]
    | some o =>
      obtain ⟨rfl, -⟩ := KeyRing.firstOpened?_eq_some ho
      simp [run, play, act, advance, become, List.replicate, KeyRing.lookUp?_eq, hfind, ho]

/-- The two steps of forgetting, one after another, are forgetting. -/
theorem run_forget (x : Custody) (f : String) :
    (x.run (.forget f :: List.replicate 2 (.advance x.calls.length))).ring = x.ring.forget f ∧
    (x.run (.forget f :: List.replicate 2 (.advance x.calls.length))).calls =
      x.calls ++ [.forgotten] := by
  simp [run, play, act, advance, become, change, List.replicate, KeyRing.forget]

end Custody

/-! ### A key that is left -/

namespace Sample

def photoBytes : Bytes := List.replicate 16 1

/-- A data key that is wrapped for the key of the ring alone. -/
def photoEnvelope : Envelope := envelope "photo-key" photoBytes

/-- Unwrapping has opened the slot when a forget comes and goes; then it keeps the key. -/
def overtaking : List Custody.Event :=
  [.unwrap photoEnvelope, .advance 0, .advance 0,
    .forget (KeyRing.fingerprint wrappingKey.toPublic), .advance 1, .advance 1, .advance 0]

/-- A private half that does not belong to the public half, which is that of the ring's key. -/
def damagedKey : PrivateKey :=
  match wrappingKey with
  | .rsa n e d => .rsa n e (d + 2)
  | .curve point => .curve point

/-- The key is unwrapped, and then another private half is registered in place of the first. -/
def replacing : List Custody.Event :=
  [.unwrap photoEnvelope, .advance 0, .advance 0, .advance 0, .registerPrivate damagedKey]

end Sample

namespace Custody

theorem accounts_run_sample :
    Sample.ring.cache.entries = [] ∧ ((start Sample.ring).run Sample.overtaking).Quiet ∧
      ("photo-key", Sample.photoBytes) ∈
        ((start Sample.ring).run Sample.overtaking).ring.cache.entries ∧
      ((start Sample.ring).run Sample.overtaking).Accounts "photo-key" Sample.photoBytes := by
  have hrun : ((start Sample.ring).run Sample.overtaking).Quiet ∧
      ("photo-key", Sample.photoBytes) ∈
        ((start Sample.ring).run Sample.overtaking).ring.cache.entries := by decide +kernel
  exact ⟨rfl, hrun.1, hrun.2, (accounts_run rfl Sample.overtaking hrun.1).1 _ _ hrun.2⟩

/-- A data key is answered from the cache although no slot of the envelope opens, and although no
half that ever opened it is registered. -/
structure Stale (x : Custody) (e : Envelope) (key : Bytes) : Prop where
  quiet : x.Quiet
  answered : (x.ring.unwrap e).1 = .ok key
  shut : KeyRing.openFirst? x.ring.keys e = none
  unregistered : ∀ k ∈ x.kept, ¬ k.opening.Registered x.ring.keys

/-- A key that was opened before a forget and kept after it is still answered, and so is one whose
private half was replaced. -/
theorem outlived_sample :
    Stale ((start Sample.ring).run Sample.overtaking) Sample.photoEnvelope Sample.photoBytes ∧
      Stale ((start Sample.ring).run Sample.replacing) Sample.photoEnvelope Sample.photoBytes := by
  have hrun : ∀ events ∈ [Sample.overtaking, Sample.replacing],
      ((start Sample.ring).run events).Quiet ∧
      ((start Sample.ring).run events).ring.cache.find? "photo-key" = some Sample.photoBytes ∧
      KeyRing.openFirst? ((start Sample.ring).run events).ring.keys Sample.photoEnvelope = none ∧
      ∀ k ∈ ((start Sample.ring).run events).kept,
        ¬ k.opening.Registered ((start Sample.ring).run events).ring.keys := by decide +kernel
  have hstale : ∀ events ∈ [Sample.overtaking, Sample.replacing],
      Stale ((start Sample.ring).run events) Sample.photoEnvelope Sample.photoBytes := by
    intro events hmem
    obtain ⟨hquiet, hcached, hshut, hunregistered⟩ := hrun events hmem
    exact ⟨hquiet, congrArg Prod.fst (KeyRing.unwrap_of_cached (e := Sample.photoEnvelope) hcached),
      hshut, hunregistered⟩
  exact ⟨hstale _ (by simp), hstale _ (by simp)⟩

end Custody

end BlobVault
