import BlobVault.Proofs.Codec.Decoding
import BlobVault.Proofs.Vault.Write

/-!
# Catalog and storage agree

Calls that work on blobs, one after another, on a vault that begins without blobs: whatever they
answer, the records, the objects on the mounted volumes and what was written say the same.

* `Session` : a vault and the writes that succeeded;
* `Session.Agrees` : what the three say about each other;
* `Session.agrees_performAll` : **they agree after any calls.**

The proof carries a stronger statement through the calls, `Session.Sound`: every record has an
origin, that is, the content, the key and the hint of the write that it comes from.
-/

namespace BlobVault

/-- The calls that work on blobs. -/
inductive Call where
  | write (volume : VolumeId) (collection : String) (r : Ref) (content : Stream) (hint : Bool)
  | replicate (source target : VolumeId) (r : Ref)
  | commit (refs : List Ref) (desired : List VolumeId)
  | fetch (r : Ref) (volume : VolumeId)
  | scrub (r : Ref) (volume : VolumeId)

/-- Compressing what the call writes can be undone. -/
def Call.Restorable : Call → Prop
  | .write _ _ _ content true => ∀ plain, content.content = .ok plain → Gzip.Restores plain
  | _ => True

/-- A vault, and the writes that succeeded: each reference with the content it was given. -/
structure Session where
  vault : Vault
  written : List (Ref × Stream)

namespace Session

/-- A session that has not written anything. -/
def start (v : Vault) : Session := ⟨v, []⟩

/-- The session after a call. -/
def perform (s : Session) : Call → Session
  | .write volume collection r content hint =>
    let (answer, v) := s.vault.write volume collection r content hint
    ⟨v, match answer with
      | .ok _ => (r, content) :: s.written
      | .error _ => s.written⟩
  | .replicate source target r => { s with vault := (s.vault.replicate source target r).2 }
  | .commit refs desired =>
    match s.vault.catalog.commit refs desired with
    | .ok catalog => { s with vault := { s.vault with catalog := catalog } }
    | .error _ => s
  | .fetch r volume => { s with vault := (s.vault.fetch r volume).2 }
  | .scrub r volume => { s with vault := (s.vault.scrub r volume).2 }

/-- The session after some calls. -/
def performAll (s : Session) (calls : List Call) : Session := calls.foldl perform s

/-- The records, the objects and the writes of a session say the same of every blob. -/
structure Agrees (s : Session) : Prop where
  /-- A mounted volume holds an object exactly if there is a record that lists the volume. -/
  listed : ∀ r volume, r ≠ .descriptor → s.vault.isMounted volume = true →
    ((s.vault.object? volume r).isSome = true ↔
      ∃ record, s.vault.catalog.records.get? r = some record ∧ record.isOn volume = true)
  /-- All objects of a blob are the same bytes. -/
  identical : ∀ r volume volume' bs bs', r ≠ .descriptor → s.vault.object? volume r = some bs →
    s.vault.object? volume' r = some bs' → bs = bs'
  /-- An object has the recorded length and checksum. -/
  measured : ∀ r volume record bs, r ≠ .descriptor →
    s.vault.catalog.records.get? r = some record → s.vault.object? volume r = some bs →
    bs.length = record.sizeOnDisk ∧ Crc32.ofBytes bs = record.crc32
  /-- There is a record exactly if a write has succeeded, and then only one has. -/
  recorded : ∀ r, r ≠ .descriptor →
    (s.vault.catalog.hasRecord r = true ↔ ∃ content, (r, content) ∈ s.written) ∧
    ∀ content content', (r, content) ∈ s.written → (r, content') ∈ s.written → content = content'
  /-- The size is that of the plain text; a compressed blob takes less than nine tenths of it. -/
  sized : ∀ r record content plain, r ≠ .descriptor →
    s.vault.catalog.records.get? r = some record → (r, content) ∈ s.written →
    content.content = .ok plain →
    record.size = plain.length ∧
      if record.isCompressed then 10 * record.sizeOnDisk < 9 * record.size
      else record.sizeOnDisk = record.size
  /-- A fetch from a volume that holds the blob gives the plain text that was written. -/
  readBack : ∀ r content, r ≠ .descriptor → (r, content) ∈ s.written →
    ∃ plain, content.content = .ok plain ∧
      ∀ volume, (s.vault.object? volume r).isSome = true → (s.vault.fetch r volume).1 = .ok plain
  /-- A fetch from any other volume fails. -/
  missing : ∀ r volume, s.vault.object? volume r = none →
    ∃ fault, (s.vault.fetch r volume).1 = .error fault

end Session

/-- No blob is known or stored; every mounted volume has a backend of its own and is known to the
catalog; and no identifier ever resolves to two data keys. -/
structure Vault.Pristine (v : Vault) : Prop where
  separate : v.Separate
  steady : v.catalog.Steady v.ring
  known : ∀ volume, v.isMounted volume = true → v.catalog.volumes.contains volume = true
  unrecorded : ∀ r, r ≠ .descriptor → v.catalog.records.get? r = none
  empty : ∀ r volume, r ≠ .descriptor → v.object? volume r = none

namespace Session

/-- The write that a record comes from. -/
structure Origin where
  content : Stream
  plain : Bytes
  key : DataKey
  hint : Bool

/-- The bytes that are stored for a reference. -/
def Origin.ciphertext (o : Origin) (r : Ref) : Bytes :=
  (Codec.encode r o.plain o.key o.hint).ciphertext

/-- A record and the objects under its reference come from a write. -/
structure Origin.Accounts (o : Origin) (s : Session) (r : Ref) (record : BlobRecord) : Prop where
  written : ∀ content, (r, content) ∈ s.written ↔ content = o.content
  content : o.content.content = .ok o.plain
  restores : o.hint = true → Gzip.Restores o.plain
  ref : record.ref = r
  describes : record.Describes o.plain o.key o.hint
  resolves : (s.vault.catalog.resolveKey o.key.id s.vault.ring).1 = .ok o.key
  objects : ∀ volume, s.vault.isMounted volume = true →
    s.vault.object? volume r = if record.isOn volume then some (o.ciphertext r) else none

/-- What every call keeps. -/
structure Sound (s : Session) : Prop where
  separate : s.vault.Separate
  steady : s.vault.catalog.Steady s.vault.ring
  known : ∀ volume, s.vault.isMounted volume = true →
    s.vault.catalog.volumes.contains volume = true
  absent : ∀ r, r ≠ .descriptor → s.vault.catalog.records.get? r = none →
    (∀ volume, s.vault.object? volume r = none) ∧ ∀ content, (r, content) ∉ s.written
  kept : ∀ r record, r ≠ .descriptor → s.vault.catalog.records.get? r = some record →
    ∃ o : Origin, o.Accounts s r record

variable {s : Session} {v' : Vault}

theorem sound_start {v : Vault} (h : v.Pristine) : (start v).Sound where
  separate := h.separate
  steady := h.steady
  known := h.known
  absent r hr _ := ⟨fun volume => h.empty r volume hr, fun _ => List.not_mem_nil⟩
  kept r record hr hrecord := by
    have := h.unrecorded r hr
    rw [show (start v).vault = v from rfl, this] at hrecord
    cases hrecord

theorem isMounted_of_follows {v : Vault} (h : Vault.Follows v v') (volume : VolumeId) :
    v'.isMounted volume = v.isMounted volume := by
  rw [Vault.isMounted, h.mounts]
  rfl

theorem isMounted_of_object? {v : Vault} {volume : VolumeId} {r : Ref} {bs : Bytes}
    (h : v.object? volume r = some bs) : v.isMounted volume = true := by
  obtain ⟨b, hb, -⟩ := Option.bind_eq_some_iff.1 h
  exact OrderedMap.contains_of_get? hb

/-- The origin of a record stays its origin while neither its objects nor the writes of its
reference change. -/
theorem Origin.Accounts.of_follows {o : Origin} {r : Ref} {record record' : BlobRecord}
    {written : List (Ref × Stream)} (h : o.Accounts s r record)
    (hsteady : s.vault.catalog.Steady s.vault.ring) (hv : Vault.Follows s.vault v')
    (hwritten : ∀ content, (r, content) ∈ written ↔ (r, content) ∈ s.written)
    (hrecord : record' = { record with
      volumes := record'.volumes, pending := record'.pending, referenced := record'.referenced })
    (hobjects : ∀ volume, s.vault.isMounted volume = true →
      v'.object? volume r = if record'.isOn volume then some (o.ciphertext r) else none) :
    o.Accounts ⟨v', written⟩ r record' where
  written content := (hwritten content).trans (h.written content)
  content := h.content
  restores := h.restores
  ref := by rw [hrecord]; exact h.ref
  describes := h.describes.of_eq hrecord
  resolves := (hv.resolveKey hsteady o.key.id).trans h.resolves
  objects volume hvolume := hobjects volume (isMounted_of_follows hv volume ▸ hvolume)

/-! ### What the calls keep -/

theorem Sound.of_quiet (h : s.Sound) (hq : Vault.Quiet s.vault v') :
    Sound { s with vault := v' } where
  separate := hq.follows.separate h.separate
  steady := hq.follows.steady h.steady
  known volume hvolume := by
    rw [hq.catalog]
    exact h.known volume (isMounted_of_follows hq.follows volume ▸ hvolume)
  absent r hr hrecord := by
    rw [hq.catalog] at hrecord
    obtain ⟨hobjects, hwritten⟩ := h.absent r hr hrecord
    exact ⟨fun volume => (hq.objects volume r).trans (hobjects volume), hwritten⟩
  kept r record hr hrecord := by
    rw [hq.catalog] at hrecord
    obtain ⟨o, ho⟩ := h.kept r record hr hrecord
    refine ⟨o, ho.of_follows h.steady hq.follows (fun _ => .rfl) rfl fun volume hvolume => ?_⟩
    rw [hq.objects, ho.objects volume hvolume]

theorem Sound.commit (h : s.Sound) (refs : List Ref) (desired : List VolumeId) :
    (s.perform (.commit refs desired)).Sound := by
  rw [perform]
  cases hc : s.vault.catalog.commit refs desired with
  | error fault => exact h
  | ok catalog =>
    obtain rfl := Catalog.commit_eq_ok hc
    have hfollows := Vault.Follows.ofCatalog (v := s.vault) (c := { s.vault.catalog with
      records := refs.foldl (fun records r => records.modify r (·.committed desired))
        s.vault.catalog.records }) rfl rfl
    dsimp only
    refine ⟨hfollows.separate h.separate, hfollows.steady h.steady, h.known,
      fun r hr hrecord => ?_, fun r record hr hrecord => ?_⟩
    · rw [Catalog.get?_foldl_committed, Option.map_eq_none_iff] at hrecord
      exact h.absent r hr hrecord
    · -- a commit changes nothing of a record that its origin accounts for
      rw [Catalog.get?_foldl_committed, Option.map_eq_some_iff] at hrecord
      obtain ⟨old, hold, hrecord⟩ := hrecord
      obtain ⟨o, ho⟩ := h.kept r old hr hold
      refine ⟨o, ho.of_follows h.steady hfollows (fun _ => .rfl) ?_ fun volume hvolume => ?_⟩
      · rw [← hrecord]
        split <;> rfl
      · have hon : record.isOn volume = old.isOn volume := by
          rw [← hrecord]
          split <;> rfl
        rw [hon]
        exact ho.objects volume hvolume

/-- A session goes on with a record of one blob; nothing else has changed but the objects of that
blob. -/
theorem Sound.of_record (h : s.Sound) {r : Ref} {record : BlobRecord}
    {volumes : OrderedMap VolumeId Volume} {written : List (Ref × Stream)}
    (hv : Vault.Follows s.vault v') (hcatalog : v'.catalog = { s.vault.catalog with
      records := s.vault.catalog.records.insert r record, volumes := volumes })
    (hvolumes : ∀ id, s.vault.catalog.volumes.contains id = true → volumes.contains id = true)
    (hwritten : ∀ r' content, r' ≠ r → ((r', content) ∈ written ↔ (r', content) ∈ s.written))
    (hobjects : ∀ r' volume, r' ≠ r → v'.object? volume r' = s.vault.object? volume r')
    (horigin : r ≠ .descriptor → ∃ o : Origin, o.Accounts ⟨v', written⟩ r record) :
    Sound ⟨v', written⟩ where
  separate := hv.separate h.separate
  steady := hv.steady h.steady
  known volume hvolume := by
    rw [hcatalog]
    exact hvolumes volume (h.known volume (isMounted_of_follows hv volume ▸ hvolume))
  absent r' hr' hrecord := by
    rw [hcatalog] at hrecord
    have hne : r' ≠ r := by
      rintro rfl
      simp at hrecord
    rw [OrderedMap.get?_insert_of_ne _ hne] at hrecord
    obtain ⟨hempty, hnone⟩ := h.absent r' hr' hrecord
    exact ⟨fun volume => (hobjects r' volume hne).trans (hempty volume),
      fun content hmem => hnone content ((hwritten r' content hne).1 hmem)⟩
  kept r' record' hr' hrecord := by
    rw [hcatalog] at hrecord
    by_cases hne : r' = r
    · subst hne
      rw [OrderedMap.get?_insert_self] at hrecord
      obtain rfl := Option.some.inj hrecord
      exact horigin hr'
    · -- the records of other blobs keep their origins
      rw [OrderedMap.get?_insert_of_ne _ hne] at hrecord
      obtain ⟨o, ho⟩ := h.kept r' record' hr' hrecord
      refine ⟨o, ho.of_follows h.steady hv (fun content => hwritten r' content hne) rfl
        fun volume hvolume => ?_⟩
      rw [hobjects r' volume hne, ho.objects volume hvolume]

/-- A write that was stored is recorded. -/
theorem Sound.of_published (h : s.Sound) {w : Write} {plain : Bytes} {key : DataKey}
    (hb : s.vault.mounts.get? w.volume = some w.backend)
    (hw : w.Published plain key s.vault v') (hrestores : w.hint = true → Gzip.Restores plain) :
    ∃ catalog, v'.catalog.create (w.stored plain key).1 w.volume = .ok catalog ∧
      Sound ⟨{ v' with catalog := catalog }, (w.ref, w.content) :: s.written⟩ := by
  have hmounted : s.vault.isMounted w.volume = true := OrderedMap.contains_of_get? hb
  have hrecords : s.vault.catalog.records.get? w.ref = none :=
    OrderedMap.contains_eq_false.1 hw.fresh
  obtain ⟨counted, hcreate⟩ := Catalog.create_of_fresh (b := (w.stored plain key).1) hw.fresh
    (h.known w.volume hmounted)
  refine ⟨_, by rw [hw.landed.catalog, hcreate], ?_⟩
  have hfollows := hw.landed.follows
  have hfollows' := hfollows.trans (.ofCatalog (c := { s.vault.catalog with
      records := s.vault.catalog.records.insert w.ref
        (((w.stored plain key).1.arrived w.volume).listed w.volume)
      volumes := s.vault.catalog.volumes.insert w.volume counted })
    hfollows.envelopes.symm hfollows.collections.symm)
  refine h.of_record (r := w.ref) hfollows' rfl ?_ ?_ ?_ fun hne => ?_
  · exact fun id hid => (OrderedMap.contains_insert _ _ _ _).2 (.inr hid)
  · intro r' content hr'
    simp [hr']
  · intro r' volume hr'
    exact (hw.landed.objects volume r').trans (if_neg fun h => hr' h.2)
  · obtain ⟨hempty, hnone⟩ := h.absent w.ref hne hrecords
    refine ⟨⟨w.content, plain, key, w.hint⟩, ?_, hw.accepts.1, hrestores,
      BlobRecord.ref_arrived_listed _ _,
      (Write.describes_recordOf hw.accepts key).arrived_listed w.volume,
      (hfollows'.resolveKey h.steady key.id).trans (Catalog.keyForNew_fst hw.resolved),
      fun volume hvolume => ?_⟩
    · intro content
      simp [hnone content]
    · -- the new record lists the volume of the write and no other
      have hon : (((w.stored plain key).1.arrived w.volume).listed w.volume).isOn volume =
          (volume == w.volume) := by
        rw [BlobRecord.isOn_arrived_listed]
        simp [Write.stored, Write.recordOf, BlobRecord.isOn]
      refine (hw.landed.objects volume w.ref).trans ?_
      rw [hon, hempty]
      by_cases hv : volume = w.volume <;> simp [hv, Write.stored, Origin.ciphertext]

theorem Sound.write (h : s.Sound) {volume : VolumeId} {collection : String} {r : Ref}
    {content : Stream} {hint : Bool}
    (hr : (Call.write volume collection r content hint).Restorable) :
    (s.perform (.write volume collection r content hint)).Sound := by
  rw [perform]
  rcases Vault.write_spec h.separate volume collection r content hint with
    ⟨⟨fault, hfault⟩, hquiet⟩ |
      ⟨w, plain, key, v', ⟨rfl, rfl, rfl, rfl, rfl⟩, hb, hpublished, hwrite⟩
  · simp only [hfault]
    exact h.of_quiet hquiet
  · obtain ⟨catalog, hcreate, hsound⟩ := h.of_published hb hpublished (by
      intro hhint
      rw [hhint] at hr
      exact hr plain hpublished.accepts.1)
    simp only [hwrite, Write.finish, hcreate]
    exact hsound

/-- A copy that was stored is confirmed. -/
theorem Sound.of_copied (h : s.Sound) {source target : VolumeId} {r : Ref}
    (hc : Vault.Copied source target r s.vault v') :
    ∃ catalog, v'.catalog.confirm r target = .ok catalog ∧
      Sound { s with vault := { v' with catalog := catalog } } := by
  obtain ⟨⟨record, hrecord⟩, ⟨b, hb⟩, bs, hsource, hlanded⟩ := hc
  have hmounted : s.vault.isMounted target = true := OrderedMap.contains_of_get? hb
  obtain ⟨volumes, hconfirm, hvolumes⟩ :=
    Catalog.confirm_of_record hrecord (h.known target hmounted)
  refine ⟨_, by rw [hlanded.catalog, hconfirm], ?_⟩
  have hfollows := hlanded.follows.trans (.ofCatalog (c := { s.vault.catalog with
      records := s.vault.catalog.records.insert r ((record.arrived target).listed target)
      volumes := volumes })
    hlanded.follows.envelopes.symm hlanded.follows.collections.symm)
  refine h.of_record (r := r) hfollows rfl hvolumes (fun _ _ _ => .rfl) ?_ fun hne => ?_
  · intro r' volume hr'
    exact (hlanded.objects volume r').trans (if_neg fun h => hr' h.2)
  · obtain ⟨o, ho⟩ := h.kept r record hne hrecord
    -- the source holds the ciphertext of the record's origin
    have hbs : bs = o.ciphertext r := by
      rw [ho.objects source (isMounted_of_object? hsource)] at hsource
      split at hsource
      · exact (Option.some.inj hsource).symm
      · cases hsource
    refine ⟨o, ho.of_follows h.steady hfollows (fun _ => .rfl) ?_ fun volume hvolume => ?_⟩
    · rw [BlobRecord.arrived_listed_eq]
    · rw [BlobRecord.isOn_arrived_listed]
      refine (hlanded.objects volume r).trans ?_
      rw [ho.objects volume hvolume, hbs]
      by_cases hv : volume = target <;> simp [hv]

theorem Sound.replicate (h : s.Sound) (source target : VolumeId) (r : Ref) :
    (s.perform (.replicate source target r)).Sound := by
  rw [perform]
  rcases Vault.replicate_spec h.separate source target r with ⟨-, hquiet⟩ | ⟨v', hcopied, hrun⟩
  · exact h.of_quiet hquiet
  · obtain ⟨catalog, hconfirm, hsound⟩ := h.of_copied hcopied
    simp only [hrun, hconfirm]
    exact hsound

theorem Sound.perform (h : s.Sound) {c : Call} (hc : c.Restorable) : (s.perform c).Sound := by
  cases c with
  | write volume collection r content hint => exact h.write hc
  | replicate source target r => exact h.replicate source target r
  | commit refs desired => exact h.commit refs desired
  | fetch r volume => exact h.of_quiet (Vault.quiet_fetch s.vault r volume)
  | scrub r volume => exact h.of_quiet (Vault.quiet_scrub s.vault r volume)

theorem Sound.performAll (h : s.Sound) {calls : List Call} (hcalls : ∀ c ∈ calls, c.Restorable) :
    (s.performAll calls).Sound := by
  induction calls generalizing s with
  | nil => exact h
  | cons c calls ih =>
    rw [Session.performAll, List.foldl_cons]
    exact ih (h.perform (hcalls c List.mem_cons_self)) fun c' hc' =>
      hcalls c' (List.mem_cons_of_mem c hc')

/-! ### What follows -/

/-- Every object has a record, whose origin gives its bytes. -/
theorem Sound.origin (h : s.Sound) {r : Ref} (hr : r ≠ .descriptor) {volume : VolumeId}
    {bs : Bytes} (hobject : s.vault.object? volume r = some bs) :
    ∃ record o, s.vault.catalog.records.get? r = some record ∧ Origin.Accounts o s r record ∧
      record.isOn volume = true ∧ bs = o.ciphertext r := by
  cases hrecord : s.vault.catalog.records.get? r with
  | none =>
    rw [(h.absent r hr hrecord).1 volume] at hobject
    cases hobject
  | some record =>
    obtain ⟨o, ho⟩ := h.kept r record hr hrecord
    rw [ho.objects volume (isMounted_of_object? hobject)] at hobject
    split at hobject
    · rename_i hon
      exact ⟨record, o, rfl, ho, hon, (Option.some.inj hobject).symm⟩
    · cases hobject

/-- Every write that succeeded is the origin of a record. -/
theorem Sound.of_written (h : s.Sound) {r : Ref} (hr : r ≠ .descriptor) {content : Stream}
    (hwritten : (r, content) ∈ s.written) :
    ∃ record o, s.vault.catalog.records.get? r = some record ∧ Origin.Accounts o s r record ∧
      content = o.content := by
  cases hrecord : s.vault.catalog.records.get? r with
  | none => exact absurd hwritten ((h.absent r hr hrecord).2 content)
  | some record =>
    obtain ⟨o, ho⟩ := h.kept r record hr hrecord
    exact ⟨record, o, rfl, ho, (ho.written content).1 hwritten⟩

/-- An object decodes to the plain text of the record's origin. -/
theorem Sound.fetch_of_object? (h : s.Sound) {r : Ref} {record : BlobRecord} {o : Origin}
    (hrecord : s.vault.catalog.records.get? r = some record) (ho : o.Accounts s r record)
    {volume : VolumeId} (hobject : s.vault.object? volume r = some (o.ciphertext r)) :
    (s.vault.fetch r volume).1 = .ok o.plain := by
  obtain ⟨b, hb, -⟩ := Option.bind_eq_some_iff.1 hobject
  have hkey : (s.vault.catalog.resolveKey record.keyId s.vault.ring).1 = .ok o.key := by
    rw [ho.describes.keyId]
    exact ho.resolves
  obtain rfl := ho.ref
  have hcrc : Crc32.ofBytes (o.ciphertext record.ref) = record.crc32 := ho.describes.crc32.symm
  rw [Vault.fetch_of_object (h.separate.plain volume b hb) hb hrecord hkey hobject, if_pos hcrc]
  exact ho.describes.decode ho.restores

theorem Sound.agrees (h : s.Sound) : s.Agrees where
  listed r volume hr hvolume := by
    constructor
    · intro hsome
      obtain ⟨bs, hbs⟩ := Option.isSome_iff_exists.1 hsome
      obtain ⟨record, o, hrecord, -, hon, -⟩ := h.origin hr hbs
      exact ⟨record, hrecord, hon⟩
    · rintro ⟨record, hrecord, hon⟩
      obtain ⟨o, ho⟩ := h.kept r record hr hrecord
      rw [ho.objects volume hvolume, if_pos hon]
      rfl
  identical r volume volume' bs bs' hr hbs hbs' := by
    obtain ⟨record, o, -, ho, -, rfl⟩ := h.origin hr hbs
    rw [ho.objects volume' (isMounted_of_object? hbs')] at hbs'
    split at hbs'
    · exact Option.some.inj hbs'
    · cases hbs'
  measured r volume record bs hr hrecord hbs := by
    obtain ⟨record', o, hrecord', ho, -, rfl⟩ := h.origin hr hbs
    obtain rfl := Option.some.inj (hrecord.symm.trans hrecord')
    obtain rfl := ho.ref
    exact ⟨ho.describes.sizeOnDisk.symm, ho.describes.crc32.symm⟩
  recorded r hr := by
    refine ⟨⟨fun hrecord => ?_, ?_⟩, fun content content' hmem hmem' => ?_⟩
    · obtain ⟨record, hrecord⟩ := Option.isSome_iff_exists.1 hrecord
      obtain ⟨o, ho⟩ := h.kept r record hr hrecord
      exact ⟨o.content, (ho.written o.content).2 rfl⟩
    · rintro ⟨content, hwritten⟩
      obtain ⟨record, o, hrecord, -, -⟩ := h.of_written hr hwritten
      exact OrderedMap.contains_of_get? hrecord
    · obtain ⟨record, o, -, ho, rfl⟩ := h.of_written hr hmem
      exact ((ho.written content').1 hmem').symm
  sized r record content plain hr hrecord hwritten hplain := by
    obtain ⟨record', o, hrecord', ho, rfl⟩ := h.of_written hr hwritten
    obtain rfl := Option.some.inj (hrecord.symm.trans hrecord')
    obtain rfl := Except.ok.inj (hplain.symm.trans ho.content)
    exact ⟨ho.describes.size, ho.describes.sizes⟩
  readBack r content hr hwritten := by
    obtain ⟨record, o, hrecord, ho, rfl⟩ := h.of_written hr hwritten
    refine ⟨o.plain, ho.content, fun volume hsome => ?_⟩
    obtain ⟨bs, hbs⟩ := Option.isSome_iff_exists.1 hsome
    have hobject := ho.objects volume (isMounted_of_object? hbs)
    split at hobject
    · exact h.fetch_of_object? hrecord ho hobject
    · rw [hobject] at hsome
      cases hsome
  missing r volume hnone := by
    cases hb : s.vault.mounts.get? volume with
    | none => exact ⟨.capability (.notMounted volume), by
        simp [Vault.fetch, Vault.beginFetch, Vault.backendOf, hb]⟩
    | some b => exact Vault.fetch_of_no_object h.separate hb hnone

/-- **Catalog, storage and writes agree after any calls** on a vault that begins without blobs,
provided that compressing what was written can be undone. -/
theorem agrees_performAll {v : Vault} (h : v.Pristine) {calls : List Call}
    (hcalls : ∀ c ∈ calls, c.Restorable) : ((start v).performAll calls).Agrees :=
  ((sound_start h).performAll hcalls).agrees

end Session

/-! ### A vault with two volumes -/

namespace Sample

/-- A key whose modulus is the product of two Mersenne primes. -/
def wrappingKey : PrivateKey :=
  let p := Nat.pow 2 89 - 1
  let q := Nat.pow 2 607 - 1
  .rsa (p * q) 65537 ((Modular.inverse? 65537 ((p - 1) * (q - 1))).getD 1)

def ring : KeyRing := ((KeyRing.empty 1).registerPrivate wrappingKey).2

/-- A data key, wrapped for the key of the ring. -/
def envelope (id : String) (key : Bytes) : Envelope :=
  ⟨id, match (ring.wrapSlots key ring.fingerprints ⟨0⟩).1 with
    | .ok slots => slots
    | .error _ => []⟩

def catalog : Catalog :=
  ((((Catalog.empty.addVolume ⟨1, ⟨1⟩, "first", 0, 0, 0⟩).addVolume
    ⟨2, ⟨2⟩, "second", 0, 0, 0⟩).addCollection "photos"
    (envelope "photo-key" (List.replicate 16 1))).addCollection "letters"
    (envelope "letter-key" (List.replicate 16 2)))

/-- Two volumes in memory, and two collections with a key each. -/
def vault : Vault where
  ring := ring
  catalog := catalog
  storage := Storage.empty
  mounts := (OrderedMap.empty.insert 1 10).insert 2 20

def plain : Bytes := [1, 2, 3]

/-- Twenty-six zero bytes, which can be compressed. -/
def zeros : Bytes := Codec.Sample.plain

/-- Writes a blob to be compressed and one that is not, copies the first and reads the copy. -/
def calls : List Call :=
  let r := Ref.ofContent zeros
  [.write 1 "photos" r (.ofBytes zeros) true,
    .write 1 "photos" (Ref.ofContent plain) (.ofBytes plain) false, .replicate 1 2 r,
    .commit [r] [1, 2], .scrub r 2, .fetch r 2]

theorem steady : vault.catalog.Steady vault.ring :=
  Catalog.steady_of_inStep
    { filed := Catalog.filed_addCollection
        (Catalog.filed_addCollection (fun _ _ h => by cases h) _ _) _ _
      cached := fun _ _ _ _ h => by cases h }

theorem mounted {volume : VolumeId} {b : BackendId} (h : vault.mounts.get? volume = some b) :
    volume = 1 ∧ b = 10 ∨ volume = 2 ∧ b = 20 := by
  simp only [vault, OrderedMap.get?_insert, Std.LawfulEqCmp.compare_eq_iff_eq] at h
  split at h
  · rename_i hv
    exact .inr ⟨hv, (Option.some.inj h).symm⟩
  · split at h
    · rename_i hv
      exact .inl ⟨hv, (Option.some.inj h).symm⟩
    · cases h

theorem pristine : vault.Pristine where
  separate :=
    { plain := fun _ _ _ => rfl
      own := by
        intro volume volume' b b' hb hb' hne
        refine ⟨?_, fun root hroot => by cases hroot⟩
        rcases mounted hb with ⟨rfl, rfl⟩ | ⟨rfl, rfl⟩ <;>
          rcases mounted hb' with ⟨rfl, rfl⟩ | ⟨rfl, rfl⟩
        · exact absurd rfl hne
        · decide
        · decide
        · exact absurd rfl hne }
  steady := steady
  known volume h := by
    obtain ⟨b, hb⟩ := Option.isSome_iff_exists.1 h
    rcases mounted hb with ⟨rfl, -⟩ | ⟨rfl, -⟩ <;> rfl
  unrecorded _ _ := rfl
  empty r volume _ := by
    rw [Vault.object?]
    cases vault.mounts.get? volume <;> rfl

theorem restorable (c : Call) (hc : c ∈ calls) : c.Restorable := by
  simp only [calls, List.mem_cons, List.not_mem_nil, or_false] at hc
  rcases hc with rfl | rfl | rfl | rfl | rfl | rfl
  · intro plain' hplain
    obtain rfl := Except.ok.inj ((Stream.content_ofBytes zeros).symm.trans hplain)
    exact Codec.Sample.restores_plain
  all_goals trivial

/-- The write of the zeros. -/
def writeZeros : Write :=
  ⟨1, 10, "photos", Ref.ofContent zeros, .ofBytes zeros, true, .checking⟩

/-- The write succeeds, so what follows is not about a vault that stays empty. -/
theorem write_zeros :
    ∃ record, (vault.write 1 "photos" (Ref.ofContent zeros) (.ofBytes zeros) true).1 = .ok record ∧
      record.isCompressed = true := by
  have hbegin : vault.beginWrite 1 "photos" (Ref.ofContent zeros) (.ofBytes zeros) true =
      .ok writeZeros := rfl
  have hsteps : (Write.steps 5 writeZeros vault).1.phase.outcome?.bind
      (fun outcome => outcome.toOption.map (·.isCompressed)) = some true := by decide +kernel
  obtain ⟨outcome, ho, houtcome⟩ := Option.bind_eq_some_iff.1 hsteps
  obtain ⟨record, hrecord, hcompressed⟩ := Option.map_eq_some_iff.1 houtcome
  refine ⟨record, ?_, hcompressed⟩
  rw [Vault.write, hbegin]
  simp only [Write.run_of_steps ho]
  cases outcome with
  | error fault => cases hrecord
  | ok record' => exact congrArg Except.ok (Option.some.inj hrecord)

end Sample

namespace Session

theorem agrees_performAll_sample :
    Sample.vault.Pristine ∧ (∀ c ∈ Sample.calls, c.Restorable) ∧
      (∃ record, (Sample.vault.write 1 "photos" (Ref.ofContent Sample.zeros)
        (.ofBytes Sample.zeros) true).1 = .ok record ∧ record.isCompressed = true) ∧
      ((start Sample.vault).performAll Sample.calls).Agrees :=
  ⟨Sample.pristine, Sample.restorable, Sample.write_zeros,
    agrees_performAll Sample.pristine Sample.restorable⟩

end Session

end BlobVault
