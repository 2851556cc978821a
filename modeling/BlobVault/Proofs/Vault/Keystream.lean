import BlobVault.Proofs.History
import BlobVault.Proofs.Vault.Agreement

/-!
# One keystream and what is sent under it

The data key and the first half of the reference fix the keystream of a blob, so no two plain texts
are ever sent under one keystream unless their references begin alike.  But a plain text that can be
compressed has two forms, of which the caller's hint picks one; and a write that has handed its
ciphertext to a backend and then fails leaves the way free for another one, whose hint may be
different.

* `Traffic` : writes on their way, and every ciphertext that was handed to a backend;
* `Traffic.Apart` : no two plain texts have references that begin alike;
* `Traffic.same_iff_of_history` : **two ciphertexts under one keystream are the same exactly if the
  hints agree, or the plain text has only one form**;
* `Traffic.reused_sample` : a blob that is sent in both of its forms.
-/

namespace BlobVault

/-! ### The two forms of a plain text -/

theorem DataKey.apply_injective {key : DataKey} {r : Ref} {data data' : Bytes}
    (h : key.apply r data = key.apply r data') : data = data' := by
  rw [← key.apply_apply r data, h, key.apply_apply]

/-- The keystream depends on nothing but the bytes of the key and the counter block. -/
theorem DataKey.apply_congr {key key' : DataKey} {r r' : Ref} (hkey : key.bytes = key'.bytes)
    (hblock : r.counterBlock = r'.counterBlock) (data : Bytes) :
    key.apply r data = key'.apply r' data := by
  rw [apply, apply, hkey, hblock]

namespace Codec

/-- A compressed form that is kept is not the plain text itself. -/
theorem ne_of_compress? {plain compressed : Bytes} (h : compress? plain = some compressed) :
    compressed ≠ plain := by
  rintro rfl
  have hkept : kept? compressed true = some compressed := h
  obtain ⟨-, -, hshorter⟩ := kept?_eq_some hkept
  omega

/-- Two hints lead to the same form exactly if they agree, or there is only one form. -/
theorem form_eq_iff (plain : Bytes) (hint hint' : Bool) :
    (kept? plain hint).getD plain = (kept? plain hint').getD plain ↔
      hint = hint' ∨ compress? plain = none := by
  cases hc : compress? plain with
  | none => cases hint <;> cases hint' <;> simp [kept?, hc]
  | some compressed =>
    have hne := ne_of_compress? hc
    cases hint <;> cases hint' <;> simp [kept?, hc, hne, hne.symm]

/-- Two stored forms of one plain text under one keystream are the same exactly if the hints agree,
or there is only one form. -/
theorem ciphertext_eq_iff {key key' : DataKey} {r r' : Ref} (hkey : key.bytes = key'.bytes)
    (hblock : r.counterBlock = r'.counterBlock) (plain : Bytes) (hint hint' : Bool) :
    (encode r plain key hint).ciphertext = (encode r' plain key' hint').ciphertext ↔
      hint = hint' ∨ compress? plain = none := by
  rw [ciphertext_encode, ciphertext_encode, ← form_eq_iff plain hint hint',
    DataKey.apply_congr hkey hblock]
  exact ⟨DataKey.apply_injective, congrArg _⟩

end Codec

/-! ### Writes on their way -/

/-- A write on its way, and the data key that it was given. -/
structure Underway where
  write : Write
  key? : Option DataKey

/-- A ciphertext that a write has handed to a backend, whatever the backend said. -/
structure Sent where
  ref : Ref
  content : Stream
  hint : Bool
  key? : Option DataKey
  ciphertext : Bytes

/-- A vault, the writes on their way, and what they have handed to the backends, latest first. -/
structure Traffic where
  vault : Vault
  writes : List Underway
  sent : List Sent

namespace Underway

/-- The write takes a step. -/
def step (u : Underway) (v : Vault) : Underway where
  write := (u.write.step v).1
  key? := match u.write.phase with
    | .encoding _ => (v.catalog.keyForNew u.write.collection v.ring).1.toOption
    | _ => u.key?

/-- What the next step of the write hands to its backend. -/
def sends (u : Underway) : List Sent :=
  match u.write.phase with
  | .storing _ ciphertext =>
    [⟨u.write.ref, u.write.content, u.write.hint, u.key?, ciphertext⟩]
  | _ => []

end Underway

/-- The bytes of the key that the ciphertext was made with. -/
def Sent.keyBytes? (s : Sent) : Option Bytes := s.key?.map (·.bytes)

namespace Traffic

/-- Nothing is on its way. -/
def start (v : Vault) : Traffic := ⟨v, [], []⟩

/-- What can happen.  Any number of writes may be on their way at once. -/
inductive Step : Traffic → Traffic → Prop
  /-- A write sets out. -/
  | begin {x : Traffic} {volume : VolumeId} {collection : String} {r : Ref} {content : Stream}
      {hint : Bool} {w : Write}
      (hw : x.vault.beginWrite volume collection r content hint = .ok w) :
      Step x { x with writes := x.writes ++ [⟨w, none⟩] }
  /-- One of the writes takes a step. -/
  | advance {x : Traffic} {i : Nat} {u : Underway} (hu : x.writes[i]? = some u) :
      Step x ⟨(u.write.step x.vault).2, x.writes.set i (u.step x.vault), u.sends ++ x.sent⟩
  /-- Something else happens to the vault. -/
  | other {x : Traffic} (v : Vault) : Step x { x with vault := v }

/-- No two of the plain texts that were sent have references that begin alike. -/
def Apart (x : Traffic) : Prop :=
  ∀ s ∈ x.sent, ∀ s' ∈ x.sent, ∀ plain plain', s.content.content = .ok plain →
    s'.content.content = .ok plain' →
    (Ref.ofContent plain).counterBlock = (Ref.ofContent plain').counterBlock → plain = plain'

end Traffic

/-! ### What every step keeps -/

/-- What the write has in hand came of its content, its key and its hint. -/
def Underway.Fit (u : Underway) : Prop :=
  match u.write.phase with
  | .encoding plain => u.write.Accepts plain
  | .storing _ ciphertext => ∃ plain key, u.write.Accepts plain ∧ u.key? = some key ∧
      ciphertext = (u.write.stored plain key).2
  | _ => True

/-- The ciphertext is the stored form of its content. -/
structure Sent.Made (s : Sent) (plain : Bytes) (key : DataKey) : Prop where
  content : s.content.content = .ok plain
  ref : Ref.ofContent plain = s.ref
  resolved : s.key? = some key
  ciphertext : s.ciphertext = (Codec.encode s.ref plain key s.hint).ciphertext

namespace Underway

variable {u : Underway}

theorem fit_step (h : u.Fit) (v : Vault) : (u.step v).Fit := by
  obtain ⟨w, key?⟩ := u
  unfold Fit step at *
  cases hp : w.phase with
  | checking =>
    rw [Write.step_checking hp]
    cases v.catalog.hasRecord w.ref <;> trivial
  | reading =>
    rcases Write.step_reading hp v with ⟨plain, haccepts, hstep⟩ | ⟨fault, -, hstep⟩
    · rw [hstep]
      exact haccepts
    · rw [hstep]
      trivial
  | encoding plain =>
    simp only [hp] at h ⊢
    obtain ⟨ids, -, hstep⟩ := Write.step_encoding hp v
    rw [hstep]
    cases hkey : (v.catalog.keyForNew w.collection v.ring).1 with
    | error fault => trivial
    | ok key => exact ⟨plain, key, h, rfl, rfl⟩
  | storing record ciphertext =>
    obtain ⟨-, hstep⟩ := Write.step_storing hp v
    rw [hstep]
    cases (v.rawStore w.backend w.ref (.ofBytes ciphertext)).1 <;> trivial
  | recording record =>
    rw [Write.step_recording hp]
    cases v.catalog.create record w.volume <;> trivial
  | finished outcome =>
    rw [Write.step_of_outcome? (r := outcome) (by rw [hp]; rfl), hp]
    trivial

theorem Fit.made_of_sends (h : u.Fit) {s : Sent} (hs : s ∈ u.sends) :
    ∃ plain key, s.Made plain key := by
  unfold Fit at h
  unfold sends at hs
  cases hp : u.write.phase with
  | storing record ciphertext =>
    simp only [hp, List.mem_singleton] at h hs
    obtain ⟨plain, key, haccepts, hkey, hciphertext⟩ := h
    subst hs
    exact ⟨plain, key, haccepts.1, haccepts.2, hkey, hciphertext⟩
  | _ =>
    rw [hp] at hs
    cases hs

end Underway

namespace Traffic

variable {x y : Traffic}

/-- Every write is as it should be, and so is everything that was sent. -/
structure Sound (x : Traffic) : Prop where
  writes : ∀ u ∈ x.writes, u.Fit
  sent : ∀ s ∈ x.sent, ∃ plain key, s.Made plain key

theorem Sound.step (h : x.Sound) (hstep : Step x y) : y.Sound := by
  cases hstep with
  | @begin volume collection r content hint w hw =>
    refine ⟨fun u hu => ?_, h.sent⟩
    rcases List.mem_append.1 hu with hold | hnew
    · exact h.writes u hold
    · obtain rfl := List.mem_singleton.1 hnew
      -- a write that sets out has nothing in hand
      unfold Vault.beginWrite at hw
      split at hw
      · cases hw
      · obtain rfl := Except.ok.inj hw
        trivial
  | @advance i u hu =>
    have hfit := h.writes u (List.mem_of_getElem? hu)
    refine ⟨fun u' hu' => ?_, fun s hs => ?_⟩
    · rcases List.mem_or_eq_of_mem_set hu' with hold | rfl
      · exact h.writes u' hold
      · exact Underway.fit_step hfit x.vault
    · rcases List.mem_append.1 hs with hnew | hold
      · exact hfit.made_of_sends hnew
      · exact h.sent s hold
  | other v => exact ⟨h.writes, h.sent⟩

theorem sound_of_history {v : Vault} (h : Relation.ReflTransGen Step (start v) x) : x.Sound := by
  induction h with
  | refl => exact ⟨fun _ hu => (List.not_mem_nil hu).elim, fun _ hs => (List.not_mem_nil hs).elim⟩
  | tail _ hstep ih => exact ih.step hstep

theorem Sound.same_iff (h : x.Sound) (hapart : x.Apart) {s s' : Sent} (hs : s ∈ x.sent)
    (hs' : s' ∈ x.sent) (hkey : s.keyBytes? = s'.keyBytes?)
    (hblock : s.ref.counterBlock = s'.ref.counterBlock) :
    ∃ plain key, s.Made plain key ∧ s'.content.content = .ok plain ∧
      (s.ciphertext = s'.ciphertext ↔ s.hint = s'.hint ∨ Codec.compress? plain = none) := by
  obtain ⟨plain, key, hmade⟩ := h.sent s hs
  obtain ⟨plain', key', hmade'⟩ := h.sent s' hs'
  obtain rfl : plain = plain' := by
    refine hapart s hs s' hs' plain plain' hmade.content hmade'.content ?_
    rw [hmade.ref, hmade'.ref, hblock]
  have hbytes : key.bytes = key'.bytes := by
    rw [Sent.keyBytes?, Sent.keyBytes?, hmade.resolved, hmade'.resolved] at hkey
    exact Option.some.inj hkey
  refine ⟨plain, key, hmade, hmade'.content, ?_⟩
  rw [hmade.ciphertext, hmade'.ciphertext]
  exact Codec.ciphertext_eq_iff hbytes hblock plain s.hint s'.hint

/-- **Two ciphertexts that were sent under one keystream are of one plain text, and they are the
same exactly if the hints agree, or the plain text has only one form.** -/
theorem same_iff_of_history {v : Vault} (hhistory : Relation.ReflTransGen Step (start v) x)
    (hapart : x.Apart) {s s' : Sent} (hs : s ∈ x.sent) (hs' : s' ∈ x.sent)
    (hkey : s.keyBytes? = s'.keyBytes?) (hblock : s.ref.counterBlock = s'.ref.counterBlock) :
    ∃ plain key, s.Made plain key ∧ s'.content.content = .ok plain ∧
      (s.ciphertext = s'.ciphertext ↔ s.hint = s'.hint ∨ Codec.compress? plain = none) :=
  (sound_of_history hhistory).same_iff hapart hs hs' hkey hblock

/-- The rest of a write is a history. -/
theorem history_of_run {i : Nat} {u : Underway} (hu : x.writes[i]? = some u) :
    ∃ y, Relation.ReflTransGen Step x y ∧ y.vault = (u.write.run x.vault).2 := by
  induction hn : u.write.phase.distance using Nat.strongRecOn generalizing x u with
  | ind n ih =>
    subst hn
    cases houtcome : u.write.phase.outcome? with
    | some outcome => exact ⟨x, .refl, by rw [Write.run_of_outcome? houtcome]⟩
    | none =>
      have hlt : i < x.writes.length := (List.getElem?_eq_some_iff.1 hu).1
      obtain ⟨y, hhistory, hvault⟩ := ih _ (Write.distance_step u.write x.vault houtcome)
        (x := ⟨(u.write.step x.vault).2, x.writes.set i (u.step x.vault), u.sends ++ x.sent⟩)
        (u := u.step x.vault) (List.getElem?_set_self hlt) rfl
      refine ⟨y, .head (.advance hu) hhistory, ?_⟩
      rw [hvault, Write.run_step houtcome]
      rfl

/-- A whole write is a history. -/
theorem history_of_write (x : Traffic) (volume : VolumeId) (collection : String) (r : Ref)
    (content : Stream) (hint : Bool) :
    ∃ y, Relation.ReflTransGen Step x y ∧
      y.vault = (x.vault.write volume collection r content hint).2 := by
  unfold Vault.write
  cases hw : x.vault.beginWrite volume collection r content hint with
  | error fault => exact ⟨x, .refl, rfl⟩
  | ok w =>
    obtain ⟨y, hhistory, hvault⟩ := history_of_run
      (x := { x with writes := x.writes ++ [⟨w, none⟩] }) (i := x.writes.length) (u := ⟨w, none⟩)
      (by simp)
    exact ⟨y, .head (.begin hw) hhistory, hvault⟩

/-! ### A blob that is sent in both of its forms -/

/-- What can be done with writes by themselves. -/
inductive Event where
  | begin (volume : VolumeId) (collection : String) (content : Bytes) (hint : Bool)
  | advance (i : Nat)

/-- What an event leads to, if it is possible. -/
def play? (x : Traffic) : Event → Option Traffic
  | .begin volume collection content hint =>
    match x.vault.beginWrite volume collection (Ref.ofContent content) (.ofBytes content) hint with
    | .ok w => some { x with writes := x.writes ++ [⟨w, none⟩] }
    | .error _ => none
  | .advance i =>
    x.writes[i]?.map fun u =>
      ⟨(u.write.step x.vault).2, x.writes.set i (u.step x.vault), u.sends ++ x.sent⟩

theorem step_of_play? {event : Event} (h : x.play? event = some y) : Step x y := by
  cases event with
  | begin volume collection content hint =>
    unfold play? at h
    dsimp only at h
    split at h
    · rename_i w hw
      obtain rfl := Option.some.inj h
      exact .begin hw
    · cases h
  | advance i =>
    obtain ⟨u, hu, rfl⟩ := Option.map_eq_some_iff.1 h
    exact .advance hu

namespace Sample

/-- Forty zero bytes, which can be compressed. -/
def zeros : Bytes := List.replicate 40 0

/-- The volumes are mounted, but the catalog does not know them, so that every write fails at its
last step. -/
def unlisted : Vault :=
  { BlobVault.Sample.vault with
    catalog := { BlobVault.Sample.catalog with volumes := .empty } }

/-- One write after the other. -/
def events (hints : List Bool) : List Event :=
  hints.zipIdx.flatMap fun (hint, i) =>
    .begin 1 "photos" zeros hint :: List.replicate 5 (.advance i)

/-- The write has failed. -/
def failed (u : Underway) : Bool :=
  match u.write.phase with
  | .finished (.error _) => true
  | _ => false

/-- What is known of a ciphertext without looking at it. -/
structure Label where
  content : Stream
  keyBytes? : Option Bytes
  hint : Bool
  deriving DecidableEq

def Label.ofSent (s : Sent) : Label := ⟨s.content, s.keyBytes?, s.hint⟩

/-- Zeros, under the key of the photos. -/
def zerosWith (hint : Bool) : Label := ⟨.ofBytes zeros, some (List.replicate 16 1), hint⟩

theorem fails : (((events [true, true, false]).foldlM play? (start unlisted)).map fun x =>
    (x.writes.map failed, x.sent.map Label.ofSent)) =
      some ([true, true, true], [zerosWith false, zerosWith true, zerosWith true]) := by
  decide +kernel

theorem compresses : Codec.compress? zeros ≠ none := by decide +kernel

/-- The ciphertext is one of the zeros, under the key of the photos. -/
structure Zeros (s : Sent) (hint : Bool) : Prop where
  content : s.content.content = .ok zeros
  key : s.keyBytes? = some (List.replicate 16 1)
  hint : s.hint = hint

theorem Zeros.ofLabel {s : Sent} {hint : Bool} (h : Label.ofSent s = zerosWith hint) :
    Zeros s hint := by
  obtain ⟨hcontent, hkey, hhint⟩ := Label.mk.inj h
  exact ⟨hcontent ▸ Stream.content_ofBytes zeros, hkey, hhint⟩

theorem Zeros.counterBlock (h : x.Sound) {s s' : Sent} {hint hint' : Bool} (hs : s ∈ x.sent)
    (hs' : s' ∈ x.sent) (hz : Zeros s hint) (hz' : Zeros s' hint') :
    s.ref.counterBlock = s'.ref.counterBlock := by
  have href : ∀ {s hint}, s ∈ x.sent → Zeros s hint → Ref.ofContent zeros = s.ref :=
    fun {s hint} hs hz => by
      obtain ⟨plain, key, hmade⟩ := h.sent s hs
      obtain rfl := Except.ok.inj (hz.content.symm.trans hmade.content)
      exact hmade.ref
  rw [← href hs hz, ← href hs' hz']

/-- Three writes that fail, each after its ciphertext was sent. -/
theorem history : ∃ x a b c, Relation.ReflTransGen Step (start unlisted) x ∧
    x.writes.map failed = [true, true, true] ∧ x.sent = [a, b, c] ∧ x.Apart ∧
    Zeros a false ∧ Zeros b true ∧ Zeros c true := by
  obtain ⟨x, hplay, hx⟩ := Option.map_eq_some_iff.1 fails
  obtain ⟨hfailed, hsent⟩ := Prod.mk.inj hx
  obtain ⟨a, rest, hsent, ha, hrest⟩ := List.map_eq_cons_iff.1 hsent
  obtain ⟨b, rest', rfl, hb, hrest'⟩ := List.map_eq_cons_iff.1 hrest
  obtain ⟨c, rest'', rfl, hc, hnil⟩ := List.map_eq_cons_iff.1 hrest'
  obtain rfl := List.map_eq_nil_iff.1 hnil
  have hzeros : ∀ s ∈ x.sent, ∃ hint, Zeros s hint := by
    rw [hsent]
    simp only [List.mem_cons, List.not_mem_nil, or_false, forall_eq_or_imp, forall_eq]
    exact ⟨⟨_, .ofLabel ha⟩, ⟨_, .ofLabel hb⟩, ⟨_, .ofLabel hc⟩⟩
  have hhistory : Relation.ReflTransGen Step (start unlisted) x := by
    refine reflTransGen_of_foldlM ?_ hplay
    exact fun x event y hplay => step_of_play? hplay
  refine ⟨x, a, b, c, hhistory, hfailed, hsent, ?_, .ofLabel ha, .ofLabel hb, .ofLabel hc⟩
  -- there is but one plain text
  intro s hs s' hs' plain plain' hplain hplain' _
  obtain ⟨hint, hz⟩ := hzeros s hs
  obtain ⟨hint', hz'⟩ := hzeros s' hs'
  obtain rfl := Except.ok.inj (hz.content.symm.trans hplain)
  exact Except.ok.inj (hz'.content.symm.trans hplain')

end Sample

/-- Two writes with one hint send the same bytes, also if the first of them has failed. -/
theorem same_iff_of_history_sample :
    ∃ x a b c, Relation.ReflTransGen Step (start Sample.unlisted) x ∧ x.Apart ∧
      x.sent = [a, b, c] ∧ b.keyBytes? = c.keyBytes? ∧ b.ref.counterBlock = c.ref.counterBlock ∧
      b.ciphertext = c.ciphertext := by
  obtain ⟨x, a, b, c, hhistory, -, hsent, hapart, -, hb, hc⟩ := Sample.history
  have hmemB : b ∈ x.sent := by simp [hsent]
  have hmemC : c ∈ x.sent := by simp [hsent]
  have hkey := hb.key.trans hc.key.symm
  have hblock := hb.counterBlock (sound_of_history hhistory) hmemB hmemC hc
  obtain ⟨plain, key, -, -, hsame⟩ := same_iff_of_history hhistory hapart hmemB hmemC hkey hblock
  exact ⟨x, a, b, c, hhistory, hapart, hsent, hkey, hblock,
    hsame.2 (.inl (hb.hint.trans hc.hint.symm))⟩

/-- That references do not begin alike is not enough to make all ciphertexts under one keystream the
same: forty zeros are written three times in vain, and sent compressed and as they are. -/
theorem reused_sample :
    ¬ ∀ (v : Vault) (x : Traffic), Relation.ReflTransGen Step (start v) x → x.Apart →
      ∀ s ∈ x.sent, ∀ s' ∈ x.sent, s.keyBytes? = s'.keyBytes? →
        s.ref.counterBlock = s'.ref.counterBlock → s.ciphertext = s'.ciphertext := by
  intro hreproduced
  obtain ⟨x, a, b, c, hhistory, -, hsent, hapart, ha, hb, -⟩ := Sample.history
  have hsound := sound_of_history hhistory
  have hmemA : a ∈ x.sent := by simp [hsent]
  have hmemB : b ∈ x.sent := by simp [hsent]
  have hkey := ha.key.trans hb.key.symm
  have hblock := ha.counterBlock hsound hmemA hmemB hb
  obtain ⟨plain, key, hmade, -, hsame⟩ := hsound.same_iff hapart hmemA hmemB hkey hblock
  obtain rfl := Except.ok.inj (ha.content.symm.trans hmade.content)
  rcases hsame.1 (hreproduced _ x hhistory hapart a hmemA b hmemB hkey hblock) with hhint | hone
  · rw [ha.hint, hb.hint] at hhint
    cases hhint
  · exact Sample.compresses hone

end Traffic

end BlobVault
