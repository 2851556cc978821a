import BlobVault.Proofs.Vault.Agreement

/-!
# Racing writers

Two writes of one blob on one volume can both find that there is no record yet.  Then both store
their ciphertext, and the one that comes second to the catalog fails: what survives is the record of
one and the object of either.

* `Race` : two writes and the vault they share, with any order of their steps;
* `Race.Harmless` : the object that is left is the one that the record describes;
* `Race.Compatible` : the record of each write describes the ciphertext of the other;
* `Race.harmless_iff` : **a race is harmless in every order exactly if its writes are compatible**;
* `Race.harmful_sample` : two collections with different keys are not.
-/

namespace BlobVault

/-- Two writes, and the vault that they work on. -/
structure Race where
  first : Write
  second : Write
  vault : Vault

namespace Race

/-- One of the writes takes a step. -/
def step (x : Race) : Bool → Race
  | true => { x with first := (x.first.step x.vault).1, vault := (x.first.step x.vault).2 }
  | false => { x with second := (x.second.step x.vault).1, vault := (x.second.step x.vault).2 }

/-- The writes take steps in the given order. -/
def run (x : Race) (turns : List Bool) : Race := turns.foldl step x

/-- Both writes have ended. -/
def Over (x : Race) : Prop :=
  x.first.phase.outcome?.isSome = true ∧ x.second.phase.outcome?.isSome = true

/-- One of the writes has ended well. -/
def Succeeded (x : Race) : Prop :=
  ∃ record, x.first.phase = .finished (.ok record) ∨ x.second.phase = .finished (.ok record)

/-- There is a record, the volume holds the object that it describes, and a fetch gives the plain
text. -/
def Harmless (x : Race) (plain : Bytes) : Prop :=
  ∃ record bs, x.vault.catalog.records.get? x.first.ref = some record ∧
    x.vault.object? x.first.volume x.first.ref = some bs ∧ Crc32.ofBytes bs = record.crc32 ∧
    bs.length = record.sizeOnDisk ∧
    (x.vault.fetch x.first.ref x.first.volume).1 = .ok plain

/-- Two writes of the same content set out on a volume that does not have the blob. -/
structure Starts (x : Race) (plain : Bytes) : Prop where
  first : x.first.phase = .checking
  second : x.second.phase = .checking
  volume : x.second.volume = x.first.volume
  backend : x.second.backend = x.first.backend
  ref : x.second.ref = x.first.ref
  firstContent : x.first.content.content = .ok plain
  secondContent : x.second.content.content = .ok plain
  mounted : x.vault.mounts.get? x.first.volume = some x.first.backend
  plain : (x.vault.storage.backend x.first.backend).isPlain = true
  steady : x.vault.catalog.Steady x.vault.ring
  unrecorded : x.vault.catalog.records.get? x.first.ref = none
  empty : x.vault.object? x.first.volume x.first.ref = none

end Race

/-- The record describes the bytes, and they decode to the plain text. -/
def BlobRecord.Reads (record : BlobRecord) (key : DataKey) (bs plain : Bytes) : Prop :=
  Crc32.ofBytes bs = record.crc32 ∧ bs.length = record.sizeOnDisk ∧
    Codec.decode record.ref bs key record.isCompressed = .ok plain

theorem BlobRecord.reads_arrived_listed {record : BlobRecord} {id : VolumeId} {key : DataKey}
    {bs plain : Bytes} :
    ((record.arrived id).listed id).Reads key bs plain ↔ record.Reads key bs plain := by
  rw [BlobRecord.arrived_listed_eq]
  exact .rfl

/-- What a volume holds is what the record describes exactly if a fetch gives the plain text. -/
theorem Vault.reads_iff {v : Vault} {volume : VolumeId} {b : BackendId} {r : Ref}
    {record : BlobRecord} {key : DataKey} {bs plain : Bytes}
    (hp : (v.storage.backend b).isPlain = true) (hb : v.mounts.get? volume = some b)
    (hrecord : v.catalog.records.get? r = some record) (href : record.ref = r)
    (hkey : (v.catalog.resolveKey record.keyId v.ring).1 = .ok key)
    (hobject : v.object? volume r = some bs) :
    record.Reads key bs plain ↔ Crc32.ofBytes bs = record.crc32 ∧
      bs.length = record.sizeOnDisk ∧ (v.fetch r volume).1 = .ok plain := by
  refine and_congr_right fun hcrc => and_congr_right fun _ => ?_
  rw [Vault.fetch_of_object hp hb hrecord hkey hobject, if_pos hcrc, href]

namespace Race

/-- The data key that a write gets. -/
def keyOf (x : Race) (w : Write) : Except CatalogFault DataKey :=
  (x.vault.catalog.keyForNew w.collection x.vault.ring).1

/-- If both writes get a key, the record of each describes the ciphertext of the other. -/
def Compatible (x : Race) (plain : Bytes) : Prop :=
  ∀ k l, x.keyOf x.first = .ok k → x.keyOf x.second = .ok l →
    (x.first.stored plain k).1.Reads k (x.second.stored plain l).2 plain ∧
    (x.second.stored plain l).1.Reads l (x.first.stored plain k).2 plain

/-! ### What every order keeps -/

variable {x : Race} {plain : Bytes} {v v' : Vault}

/-- The write is one of the two. -/
def Has (x : Race) (w : Write) : Prop := w = x.first ∨ w = x.second

/-- What the race may have left of the blob: an object that one of the writes made, and the record
of one of the writes, which is not there without an object. -/
structure Shared (x : Race) (plain : Bytes) (v : Vault) : Prop where
  follows : Vault.Follows x.vault v
  object : ∀ bs, v.object? x.first.volume x.first.ref = some bs →
    ∃ w key, x.Has w ∧ x.keyOf w = .ok key ∧ bs = (w.stored plain key).2
  record : ∀ record, v.catalog.records.get? x.first.ref = some record →
    ∃ w key, x.Has w ∧ x.keyOf w = .ok key ∧ w.Accepts plain ∧
      record = ((w.stored plain key).1.arrived w.volume).listed w.volume
  kept : v.catalog.hasRecord x.first.ref = true →
    (v.object? x.first.volume x.first.ref).isSome = true

/-- What a write knows when it is in a phase. -/
def Local (x : Race) (w : Write) (plain : Bytes) (v : Vault) : Write.Phase → Prop
  | .checking | .reading => True
  | .encoding content => content = plain ∧ w.Accepts plain
  | .storing record ciphertext => w.Accepts plain ∧
      ∃ key, x.keyOf w = .ok key ∧ (record, ciphertext) = w.stored plain key
  | .recording record => w.Accepts plain ∧
      (∃ key, x.keyOf w = .ok key ∧ record = (w.stored plain key).1) ∧
      (v.object? x.first.volume x.first.ref).isSome = true
  | .finished (.ok _) => v.catalog.hasRecord x.first.ref = true
  | .finished (.error _) => True

/-- What is there of the blob stays there. -/
structure Grows (x : Race) (v v' : Vault) : Prop where
  object : (v.object? x.first.volume x.first.ref).isSome = true →
    (v'.object? x.first.volume x.first.ref).isSome = true
  record : v.catalog.hasRecord x.first.ref = true → v'.catalog.hasRecord x.first.ref = true

theorem Local.grows {w : Write} {p : Write.Phase} (h : x.Local w plain v p) (hg : x.Grows v v') :
    x.Local w plain v' p := by
  cases p with
  | recording record => exact ⟨h.1, h.2.1, hg.object h.2.2⟩
  | finished outcome =>
    cases outcome with
    | ok record => exact hg.record h
    | error fault => trivial
  | _ => exact h

theorem Starts.of_has (hx : x.Starts plain) {w : Write} (hw : x.Has w) :
    w.volume = x.first.volume ∧ w.backend = x.first.backend ∧ w.ref = x.first.ref ∧
      w.content.content = .ok plain := by
  rcases hw with rfl | rfl
  · exact ⟨rfl, rfl, rfl, hx.firstContent⟩
  · exact ⟨hx.volume, hx.backend, hx.ref, hx.secondContent⟩

theorem Starts.hasRecord_eq_false (hx : x.Starts plain) :
    x.vault.catalog.hasRecord x.first.ref = false :=
  OrderedMap.contains_eq_false.2 hx.unrecorded

theorem Grows.refl (x : Race) (v : Vault) : x.Grows v v := ⟨id, id⟩

theorem Shared.of_quiet (h : x.Shared plain v) (hq : Vault.Quiet v v') : x.Shared plain v' where
  follows := h.follows.trans hq.follows
  object bs hbs := h.object bs ((hq.objects _ _).symm.trans hbs)
  record record hrecord := h.record record (hq.catalog ▸ hrecord)
  kept hrecord := by
    rw [hq.objects]
    exact h.kept (hq.catalog ▸ hrecord)

theorem Grows.of_quiet (hq : Vault.Quiet v v') : x.Grows v v' where
  object hsome := by rwa [hq.objects]
  record hrecord := by rwa [hq.catalog]

theorem shared_start (hx : x.Starts plain) : x.Shared plain x.vault where
  follows := .refl x.vault
  object bs hbs := by
    rw [hx.empty] at hbs
    cases hbs
  record record hrecord := by
    rw [hx.unrecorded] at hrecord
    cases hrecord
  kept hrecord := by
    rw [hx.hasRecord_eq_false] at hrecord
    cases hrecord

/-- What a step leads to, if the race keeps what it should. -/
def Keeps (x : Race) (w : Write) (plain : Bytes) (v : Vault) (next : Write × Vault) : Prop :=
  x.Shared plain next.2 ∧ x.Grows v next.2 ∧
    ∃ p, next.1 = w.become p ∧ x.Local w plain next.2 p

theorem keeps_storing (hx : x.Starts plain) {w : Write} (hw : x.Has w) (hs : x.Shared plain v)
    {record : BlobRecord} {ciphertext : Bytes}
    (hl : x.Local w plain v (.storing record ciphertext)) :
    x.Keeps w plain v ((w.become (.storing record ciphertext)).step v) := by
  obtain ⟨hvolume, hbackend, href, -⟩ := hx.of_has hw
  obtain ⟨haccepts, key, hkey, hstored⟩ := hl
  obtain ⟨hv, hstep⟩ := Write.step_storing (w := w.become (.storing record ciphertext)) rfl v
  have hmounted := (hs.follows.serves hx.mounted hx.plain).1
  rw [← hbackend] at hmounted
  have hself := Vault.rawStore_self hmounted x.first.ref (.ofBytes ciphertext)
  have hfollows := Vault.follows_rawStore v w.backend x.first.ref (.ofBytes ciphertext)
  rw [Keeps, hv, hstep]
  simp only [Write.become, href]
  cases ha : (v.rawStore w.backend x.first.ref (.ofBytes ciphertext)).1 with
  | ok u =>
    rw [ha] at hself
    obtain ⟨bs, hbs, hobject⟩ := hself
    rw [Stream.content_ofBytes] at hbs
    obtain rfl := Except.ok.inj hbs
    refine ⟨⟨hs.follows.trans hfollows, fun bs hbs => ?_, hs.record, fun _ => ?_⟩,
      ⟨fun _ => ?_, id⟩, .recording record, rfl, haccepts, ⟨key, hkey, ?_⟩, ?_⟩
    · rw [hobject] at hbs
      exact ⟨w, key, hw, hkey, by rw [← hstored, ← Option.some.inj hbs]⟩
    · rw [hobject]; rfl
    · rw [hobject]; rfl
    · rw [← hstored]
    · rw [hobject]; rfl
  | error fault =>
    -- a store that fails leaves the object of the other write
    rw [ha] at hself
    refine ⟨⟨hs.follows.trans hfollows, fun bs hbs => hs.object bs (hself.symm.trans hbs),
      hs.record, fun hrecord => ?_⟩, ⟨fun hsome => ?_, id⟩, .finished (.error fault), rfl, trivial⟩
    · rw [hself]
      exact hs.kept hrecord
    · rw [hself]
      exact hsome

theorem keeps_recording (hx : x.Starts plain) {w : Write} (hw : x.Has w) (hs : x.Shared plain v)
    {record : BlobRecord} (hl : x.Local w plain v (.recording record)) :
    x.Keeps w plain v ((w.become (.recording record)).step v) := by
  obtain ⟨hvolume, -, href, -⟩ := hx.of_has hw
  obtain ⟨haccepts, ⟨key, hkey, rfl⟩, hsome⟩ := hl
  rw [Keeps, Write.step_recording (w := w.become (.recording (w.stored plain key).1)) rfl v]
  simp only [Write.become]
  cases hc : v.catalog.create (w.stored plain key).1 w.volume with
  | error fault => exact ⟨hs, .refl x v, _, rfl, trivial⟩
  | ok catalog =>
    obtain ⟨hrecords, henvelopes, hcollections⟩ := Catalog.create_keeps_keys hc
    have hget : catalog.records.get? x.first.ref =
        some (((w.stored plain key).1.arrived w.volume).listed w.volume) := by
      rw [hrecords, ← href]
      exact OrderedMap.get?_insert_self _ _ _
    have hhas : catalog.hasRecord x.first.ref = true := OrderedMap.contains_of_get? hget
    refine ⟨⟨hs.follows.trans (.ofCatalog henvelopes hcollections), hs.object,
      fun record hrecord => ?_, fun _ => hsome⟩, ⟨fun h => h, fun _ => hhas⟩, _, rfl, hhas⟩
    rw [hget] at hrecord
    exact ⟨w, key, hw, hkey, haccepts, (Option.some.inj hrecord).symm⟩

/-- A step of one of the writes keeps what the race should keep. -/
theorem keeps_step (hx : x.Starts plain) {w : Write} (hw : x.Has w) (hs : x.Shared plain v)
    {p : Write.Phase} (hl : x.Local w plain v p) : x.Keeps w plain v ((w.become p).step v) := by
  obtain ⟨-, -, -, hcontent⟩ := hx.of_has hw
  cases p with
  | checking =>
    rw [Write.step_checking rfl]
    refine ⟨hs, .refl x v, _, rfl, ?_⟩
    split <;> trivial
  | reading =>
    rcases Write.step_reading (w := w.become .reading) rfl v with
      ⟨content, haccepts, hstep⟩ | ⟨fault, -, hstep⟩
    · rw [hstep]
      obtain rfl := Except.ok.inj (hcontent.symm.trans haccepts.1)
      exact ⟨hs, .refl x v, _, rfl, rfl, haccepts⟩
    · rw [hstep]
      exact ⟨hs, .refl x v, _, rfl, trivial⟩
  | encoding content =>
    obtain ⟨rfl, haccepts⟩ := hl
    obtain ⟨ids, hv, hstep⟩ := Write.step_encoding (w := w.become (.encoding content)) rfl v
    have hquiet : Vault.Quiet v ((w.become (.encoding content)).step v).2 := hv ▸ .ofRing v ids
    refine ⟨hs.of_quiet hquiet, .of_quiet hquiet, ?_⟩
    rw [hstep]
    -- whatever was resolved in between, the key is that of the beginning
    have hkey := hs.follows.keyForNew hx.steady w.collection
    simp only [Write.become] at hkey ⊢
    rw [hkey]
    cases hk : (x.vault.catalog.keyForNew w.collection x.vault.ring).1 with
    | error fault => exact ⟨_, rfl, trivial⟩
    | ok key => exact ⟨_, rfl, haccepts, key, hk, rfl⟩
  | storing record ciphertext => exact keeps_storing hx hw hs hl
  | recording record => exact keeps_recording hx hw hs hl
  | finished outcome =>
    rw [Write.step_of_outcome? (r := outcome) rfl]
    exact ⟨hs, .refl x v, _, rfl, hl⟩

/-- What every order of the steps keeps. -/
structure Kept (x : Race) (plain : Bytes) (y : Race) : Prop where
  shared : x.Shared plain y.vault
  first : ∃ p, y.first = x.first.become p ∧ x.Local x.first plain y.vault p
  second : ∃ p, y.second = x.second.become p ∧ x.Local x.second plain y.vault p

theorem kept_start (hx : x.Starts plain) : x.Kept plain x where
  shared := shared_start hx
  first := ⟨.checking, by rw [Write.become, ← hx.first], trivial⟩
  second := ⟨.checking, by rw [Write.become, ← hx.second], trivial⟩

theorem Kept.step (hx : x.Starts plain) {y : Race} (h : x.Kept plain y) (turn : Bool) :
    x.Kept plain (y.step turn) := by
  obtain ⟨p, hp, hlp⟩ := h.first
  obtain ⟨q, hq, hlq⟩ := h.second
  cases turn with
  | true =>
    obtain ⟨hshared, hgrows, hnext⟩ := keeps_step hx (.inl rfl) h.shared hlp
    rw [← hp] at hshared hgrows hnext
    exact ⟨hshared, hnext, q, hq, hlq.grows hgrows⟩
  | false =>
    obtain ⟨hshared, hgrows, hnext⟩ := keeps_step hx (.inr rfl) h.shared hlq
    rw [← hq] at hshared hgrows hnext
    exact ⟨hshared, ⟨p, hp, hlp.grows hgrows⟩, hnext⟩

theorem Kept.run (hx : x.Starts plain) {y : Race} (h : x.Kept plain y) (turns : List Bool) :
    x.Kept plain (y.run turns) := by
  induction turns generalizing y with
  | nil => exact h
  | cons turn turns ih => exact ih (h.step hx turn)

/-! ### Compatible writes -/

theorem reads_stored {w : Write} (h : w.Accepts plain) (key : DataKey)
    (hrestores : w.hint = true → Gzip.Restores plain) :
    (w.stored plain key).1.Reads key (w.stored plain key).2 plain :=
  ⟨rfl, rfl, (Write.describes_recordOf h key).decode hrestores⟩

/-- The record of either write describes whatever object there is. -/
theorem Compatible.reads (h : x.Compatible plain)
    (hfirst : x.first.hint = true → Gzip.Restores plain)
    (hsecond : x.second.hint = true → Gzip.Restores plain) {w w' : Write} {k l : DataKey}
    (hw : x.Has w) (hw' : x.Has w') (hk : x.keyOf w = .ok k) (hl : x.keyOf w' = .ok l)
    (haccepts : w.Accepts plain) : (w.stored plain k).1.Reads k (w'.stored plain l).2 plain := by
  rcases hw with rfl | rfl <;> rcases hw' with rfl | rfl
  · obtain rfl := Except.ok.inj (hk.symm.trans hl)
    exact reads_stored haccepts k hfirst
  · exact (h k l hk hl).1
  · exact (h l k hl hk).2
  · obtain rfl := Except.ok.inj (hk.symm.trans hl)
    exact reads_stored haccepts k hsecond

theorem hasRecord_of_succeeded {y : Race} (h : x.Kept plain y) (hs : y.Succeeded) :
    y.vault.catalog.hasRecord x.first.ref = true := by
  obtain ⟨p, hp, hlp⟩ := h.first
  obtain ⟨q, hq, hlq⟩ := h.second
  obtain ⟨record, hrecord | hrecord⟩ := hs
  · rw [hp] at hrecord
    obtain rfl : p = .finished (.ok record) := hrecord
    exact hlp
  · rw [hq] at hrecord
    obtain rfl : q = .finished (.ok record) := hrecord
    exact hlq

theorem harmless_of_kept (hx : x.Starts plain) (hc : x.Compatible plain)
    (hfirst : x.first.hint = true → Gzip.Restores plain)
    (hsecond : x.second.hint = true → Gzip.Restores plain) {y : Race} (h : x.Kept plain y)
    (hs : y.Succeeded) : y.Harmless plain := by
  have hhas := hasRecord_of_succeeded h hs
  obtain ⟨bs, hbs⟩ := Option.isSome_iff_exists.1 (h.shared.kept hhas)
  obtain ⟨record, hrecord⟩ := Option.isSome_iff_exists.1 hhas
  -- the object and the record may be those of different writes
  obtain ⟨w', l, hw', hl, rfl⟩ := h.shared.object bs hbs
  obtain ⟨w, k, hw, hk, haccepts, rfl⟩ := h.shared.record record hrecord
  have hreads := hc.reads hfirst hsecond hw hw' hk hl haccepts
  obtain ⟨p, hp, -⟩ := h.first
  have hkey : (y.vault.catalog.resolveKey
      (((w.stored plain k).1.arrived w.volume).listed w.volume).keyId y.vault.ring).1 = .ok k := by
    rw [h.shared.follows.resolveKey hx.steady,
      ((Write.describes_recordOf haccepts k).arrived_listed w.volume).keyId]
    exact Catalog.keyForNew_fst hk
  obtain ⟨hmounted, hplain⟩ := h.shared.follows.serves hx.mounted hx.plain
  have href : (((w.stored plain k).1.arrived w.volume).listed w.volume).ref = x.first.ref :=
    (BlobRecord.ref_arrived_listed _ _).trans (hx.of_has hw).2.2.1
  obtain ⟨hcrc, hlength, hfetch⟩ := (Vault.reads_iff hplain hmounted hrecord href hkey hbs).1
    (BlobRecord.reads_arrived_listed.2 hreads)
  rw [Harmless, hp]
  exact ⟨_, _, hrecord, hbs, hcrc, hlength, hfetch⟩

/-! ### Writes that are not compatible -/

/-- The race with its writes exchanged. -/
def swap (x : Race) : Race := ⟨x.second, x.first, x.vault⟩

theorem run_append (x : Race) (turns turns' : List Bool) :
    x.run (turns ++ turns') = (x.run turns).run turns' :=
  List.foldl_append

theorem run_swap (x : Race) (turns : List Bool) :
    x.swap.run (turns.map (!·)) = (x.run turns).swap := by
  induction turns generalizing x with
  | nil => rfl
  | cons turn turns ih =>
    cases turn with
    | true => exact ih (x.step true)
    | false => exact ih (x.step false)

theorem run_first (x : Race) (n : Nat) : x.run (List.replicate n true) =
    { x with first := (x.first.steps n x.vault).1, vault := (x.first.steps n x.vault).2 } := by
  induction n generalizing x with
  | zero => rfl
  | succ n ih => exact ih (x.step true)

theorem run_second (x : Race) (n : Nat) : x.run (List.replicate n false) =
    { x with second := (x.second.steps n x.vault).1, vault := (x.second.steps n x.vault).2 } := by
  induction n generalizing x with
  | zero => rfl
  | succ n ih => exact ih (x.step false)

/-- Both writes find no record; the first one stores and records the blob, and then the second one
stores its ciphertext over it. -/
def overtaking : List Bool :=
  [true, false] ++ (List.replicate 4 true ++ List.replicate 4 false)

theorem run_checks (hx : x.Starts plain) :
    x.run [true, false] = ⟨x.first.become .reading, x.second.become .reading, x.vault⟩ := by
  show (x.step true).step false = _
  simp only [step, Write.step_checking hx.first, Write.step_checking hx.second, hx.ref,
    hx.hasRecord_eq_false]
  rfl

/-- The record of the first write is left with the object of the second one. -/
theorem run_overtaking (hx : x.Starts plain) (href : Ref.ofContent plain = x.first.ref)
    (hknown : x.vault.catalog.volumes.contains x.first.volume = true)
    (htakes : x.vault.storage.Takes x.first.backend x.first.ref) {k l : DataKey}
    (hk : x.keyOf x.first = .ok k) (hl : x.keyOf x.second = .ok l) :
    ∃ fault v, x.run overtaking = ⟨x.first.become (.finished (.ok (x.first.stored plain k).1)),
        x.second.become (.finished (.error fault)), v⟩ ∧
      Vault.Follows x.vault v ∧
      v.catalog.records.get? x.first.ref =
        some (((x.first.stored plain k).1.arrived x.first.volume).listed x.first.volume) ∧
      v.object? x.first.volume x.first.ref = some (x.second.stored plain l).2 := by
  -- the first write goes through
  obtain ⟨catalog, hcreate⟩ : ∃ catalog,
      x.vault.catalog.create (x.first.stored plain k).1 x.first.volume = .ok catalog := by
    obtain ⟨counted, hcreate⟩ :=
      Catalog.create_of_fresh (b := (x.first.stored plain k).1) hx.hasRecord_eq_false hknown
    exact ⟨_, hcreate⟩
  obtain ⟨hrecords, henvelopes, hcollections⟩ := Catalog.create_keeps_keys hcreate
  obtain ⟨v₁, hsteps₁, hfollows₁, hcatalog₁, hstorage₁⟩ :=
    Write.steps_create ⟨hx.firstContent, href⟩ hk (htakes [] _) hcreate
  have hfollows : Vault.Follows x.vault { v₁ with catalog := catalog } :=
    hfollows₁.trans (.ofCatalog (henvelopes.trans hfollows₁.envelopes.symm)
      (hcollections.trans hfollows₁.collections.symm))
  have hget : catalog.records.get? x.first.ref =
      some (((x.first.stored plain k).1.arrived x.first.volume).listed x.first.volume) := by
    rw [hrecords]
    exact OrderedMap.get?_insert_self _ _ _
  -- the second one stores as well, and then finds the record
  have htaken : catalog.hasRecord x.second.ref = true := by
    rw [hx.ref]
    exact OrderedMap.contains_of_get? hget
  have hstore : (({ v₁ with catalog := catalog } : Vault).rawStore x.second.backend x.second.ref
      (.ofBytes (x.second.stored plain l).2)).1 = .ok () := by
    show (v₁.storage.store x.second.backend x.second.ref _).1 = .ok ()
    rw [hstorage₁, hx.backend, hx.ref]
    exact htakes [(x.first.stored plain k).2] _
  obtain ⟨v₂, hsteps₂, hfollows₂, hcatalog₂, hstorage₂⟩ :=
    Write.steps_taken (w := x.second) (v := { v₁ with catalog := catalog })
      ⟨hx.secondContent, href.trans hx.ref.symm⟩
      ((hfollows.keyForNew hx.steady x.second.collection).trans hl) hstore htaken
  refine ⟨.alreadyExists (.blob x.second.ref), v₂, ?_, hfollows.trans hfollows₂,
    by rw [hcatalog₂, hget], ?_⟩
  · rw [overtaking, run_append, run_append, run_checks hx, run_first, hsteps₁, run_second]
    dsimp only
    rw [hsteps₂]
  · have hmounted := (hfollows₁.serves hx.mounted hx.plain).1
    have hself := Vault.rawStore_self (v := { v₁ with catalog := catalog }) hmounted
      x.first.ref (.ofBytes (x.second.stored plain l).2)
    rw [hx.backend, hx.ref] at hstore
    rw [hstore] at hself
    obtain ⟨bs, hbs, hobject⟩ := hself
    rw [Stream.content_ofBytes] at hbs
    obtain rfl := Except.ok.inj hbs
    rw [← hobject, Vault.object?, Vault.object?, hfollows₂.mounts, hstorage₂, hx.backend, hx.ref]
    rfl

/-- If the race is harmless when the second write overtakes, the first record describes the second
ciphertext. -/
theorem reads_of_overtaking (hx : x.Starts plain) (href : Ref.ofContent plain = x.first.ref)
    (hknown : x.vault.catalog.volumes.contains x.first.volume = true)
    (htakes : x.vault.storage.Takes x.first.backend x.first.ref) {k l : DataKey}
    (hk : x.keyOf x.first = .ok k) (hl : x.keyOf x.second = .ok l) :
    ((x.run overtaking).Over ∧ (x.run overtaking).Succeeded) ∧
      ((x.run overtaking).Harmless plain →
        (x.first.stored plain k).1.Reads k (x.second.stored plain l).2 plain) := by
  obtain ⟨fault, v, hrun, hfollows, hget, hobject⟩ := run_overtaking hx href hknown htakes hk hl
  rw [hrun]
  refine ⟨⟨⟨rfl, rfl⟩, _, .inl rfl⟩, ?_⟩
  rintro ⟨record, bs, hrecord, hbs, hleft⟩
  obtain rfl := Option.some.inj (hrecord.symm.trans hget)
  obtain rfl := Option.some.inj (hbs.symm.trans hobject)
  have hdescribes := Write.describes_recordOf (w := x.first) ⟨hx.firstContent, href⟩ k
  have hkey : (v.catalog.resolveKey (((x.first.stored plain k).1.arrived
      x.first.volume).listed x.first.volume).keyId v.ring).1 = .ok k := by
    rw [hfollows.resolveKey hx.steady, (hdescribes.arrived_listed x.first.volume).keyId]
    exact Catalog.keyForNew_fst hk
  obtain ⟨hmounted, hplain⟩ := hfollows.serves hx.mounted hx.plain
  exact BlobRecord.reads_arrived_listed.1
    ((Vault.reads_iff hplain hmounted hget (BlobRecord.ref_arrived_listed _ _) hkey hobject).2
      hleft)

theorem starts_swap (hx : x.Starts plain) : x.swap.Starts plain where
  first := hx.second
  second := hx.first
  volume := hx.volume.symm
  backend := hx.backend.symm
  ref := hx.ref.symm
  firstContent := hx.secondContent
  secondContent := hx.firstContent
  mounted := by
    show x.vault.mounts.get? x.second.volume = some x.second.backend
    rw [hx.volume, hx.backend]
    exact hx.mounted
  plain := by
    show (x.vault.storage.backend x.second.backend).isPlain = true
    rw [hx.backend]
    exact hx.plain
  steady := hx.steady
  unrecorded := by
    show x.vault.catalog.records.get? x.second.ref = none
    rw [hx.ref]
    exact hx.unrecorded
  empty := by
    show x.vault.object? x.second.volume x.second.ref = none
    rw [hx.volume, hx.ref]
    exact hx.empty

theorem compatible_of_harmless (hx : x.Starts plain) (href : Ref.ofContent plain = x.first.ref)
    (hknown : x.vault.catalog.volumes.contains x.first.volume = true)
    (htakes : x.vault.storage.Takes x.first.backend x.first.ref)
    (hharmless : ∀ turns, (x.run turns).Over → (x.run turns).Succeeded →
      (x.run turns).Harmless plain) : x.Compatible plain := by
  intro k l hk hl
  obtain ⟨⟨hover, hsucceeded⟩, hreads⟩ := reads_of_overtaking hx href hknown htakes hk hl
  refine ⟨hreads (hharmless _ hover hsucceeded), ?_⟩
  -- the orders of the exchanged race are those of this one
  have hswap : ∀ turns, (x.swap.run turns).Over → (x.swap.run turns).Succeeded →
      (x.swap.run turns).Harmless plain := by
    intro turns hover hsucceeded
    have hturns : x.swap.run turns = (x.run (turns.map (!·))).swap := by
      rw [← run_swap, List.map_map]
      simp [Function.comp_def]
    rw [hturns] at hover hsucceeded ⊢
    obtain ⟨record, hrecord⟩ := hsucceeded
    have hleft := hharmless _ ⟨hover.2, hover.1⟩ ⟨record, hrecord.symm⟩
    have hkept := (kept_start hx).run hx (turns.map (!·))
    obtain ⟨p, hp, -⟩ := hkept.first
    obtain ⟨q, hq, -⟩ := hkept.second
    rw [Harmless, hp] at hleft
    rw [Harmless, swap, hq]
    simp only [Write.become, hx.ref, hx.volume] at hleft ⊢
    exact hleft
  rw [← hx.volume] at hknown
  rw [← hx.backend, ← hx.ref] at htakes
  obtain ⟨⟨hover, hsucceeded⟩, hreads⟩ :=
    reads_of_overtaking (starts_swap hx) (href.trans hx.ref.symm) hknown htakes hl hk
  exact hreads (hswap _ hover hsucceeded)

/-- **A race is harmless in every order exactly if its writes are compatible.** -/
theorem harmless_iff (hx : x.Starts plain)
    (hfirst : x.first.hint = true → Gzip.Restores plain)
    (hsecond : x.second.hint = true → Gzip.Restores plain) :
    (x.Compatible plain → ∀ turns, (x.run turns).Over → (x.run turns).Succeeded →
      (x.run turns).Harmless plain) ∧
    (Ref.ofContent plain = x.first.ref →
      x.vault.catalog.volumes.contains x.first.volume = true →
      x.vault.storage.Takes x.first.backend x.first.ref →
      (∀ turns, (x.run turns).Over → (x.run turns).Succeeded → (x.run turns).Harmless plain) →
      x.Compatible plain) :=
  ⟨fun hc turns _ hs => harmless_of_kept hx hc hfirst hsecond ((kept_start hx).run hx turns) hs,
    compatible_of_harmless hx⟩

end Race

namespace Sample

/-- The write of a collection whose key is known. -/
def write (collection : String) : Write :=
  ⟨1, 10, collection, Ref.ofContent plain, .ofBytes plain, false, .checking⟩

/-- Two writes of one content, for two collections. -/
def race (collection collection' : String) : Race :=
  ⟨write collection, write collection', vault⟩

theorem starts_race (collection collection' : String) :
    (race collection collection').Starts plain where
  first := rfl
  second := rfl
  volume := rfl
  backend := rfl
  ref := rfl
  firstContent := rfl
  secondContent := rfl
  mounted := rfl
  plain := rfl
  steady := steady
  unrecorded := rfl
  empty := rfl

theorem takes_race (collection collection' : String) :
    (race collection collection').vault.storage.Takes 10 (Ref.ofContent plain) :=
  Storage.takes_memory rfl _

/-- The bytes of a data key that a collection has. -/
theorem keyOf_race {collection : String} {bytes : Bytes}
    (h : (match (vault.catalog.keyForNew collection vault.ring).1 with
      | .ok key => key.bytes == bytes
      | .error _ => false) = true) (collection' collection'' : String) :
    ∃ key, (race collection' collection'').keyOf (write collection) = .ok key ∧
      key.bytes = bytes := by
  rw [Race.keyOf]
  show ∃ key, (vault.catalog.keyForNew collection vault.ring).1 = .ok key ∧ _
  cases hk : (vault.catalog.keyForNew collection vault.ring).1 with
  | error fault => rw [hk] at h; cases h
  | ok key =>
    rw [hk] at h
    exact ⟨key, rfl, eq_of_beq h⟩

theorem photoKey : ∃ key, (race "photos" "letters").keyOf (write "photos") = .ok key ∧
    key.bytes = List.replicate 16 1 :=
  keyOf_race (by decide +kernel) _ _

theorem letterKey : ∃ key, (race "photos" "letters").keyOf (write "letters") = .ok key ∧
    key.bytes = List.replicate 16 2 :=
  keyOf_race (by decide +kernel) _ _

end Sample

namespace Race

/-- Two writes for one collection leave its blob readable even if one overtakes the other. -/
theorem harmless_iff_sample :
    (Sample.race "photos" "photos").Starts Sample.plain ∧
      ((Sample.race "photos" "photos").run overtaking).Succeeded ∧
      ((Sample.race "photos" "photos").run overtaking).Harmless Sample.plain := by
  obtain ⟨k, hk, -⟩ := Sample.photoKey
  have hx := Sample.starts_race "photos" "photos"
  have hcompatible : (Sample.race "photos" "photos").Compatible Sample.plain := by
    intro l m hl hm
    obtain rfl := Except.ok.inj (hl.symm.trans hm)
    exact ⟨reads_stored ⟨rfl, rfl⟩ l (fun h => by cases h),
      reads_stored ⟨rfl, rfl⟩ l (fun h => by cases h)⟩
  obtain ⟨⟨hover, hsucceeded⟩, -⟩ :=
    reads_of_overtaking hx rfl rfl (Sample.takes_race _ _) hk hk
  exact ⟨hx, hsucceeded, (harmless_iff hx (fun h => by cases h) (fun h => by cases h)).1
    hcompatible overtaking hover hsucceeded⟩

/-- Two writes for two collections: the record of the one is left with the object of the other,
and the blob cannot be read. -/
theorem harmful_sample :
    (Sample.race "photos" "letters").Starts Sample.plain ∧
      ((Sample.race "photos" "letters").run overtaking).Over ∧
      ((Sample.race "photos" "letters").run overtaking).Succeeded ∧
      ¬ ((Sample.race "photos" "letters").run overtaking).Harmless Sample.plain := by
  obtain ⟨k, hk, hkbytes⟩ := Sample.photoKey
  obtain ⟨l, hl, hlbytes⟩ := Sample.letterKey
  have hx := Sample.starts_race "photos" "letters"
  obtain ⟨⟨hover, hsucceeded⟩, hreads⟩ :=
    reads_of_overtaking hx rfl rfl (Sample.takes_race _ _) hk hl
  refine ⟨hx, hover, hsucceeded, fun hharmless => ?_⟩
  have hcrc := (hreads hharmless).1
  rw [Write.crc32_stored, Write.ciphertext_stored rfl, Write.ciphertext_stored rfl, hkbytes,
    hlbytes] at hcrc
  exact absurd hcrc (by decide +kernel)

end Race

end BlobVault
