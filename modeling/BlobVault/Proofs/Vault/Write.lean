import BlobVault.Proofs.Vault.Transfer
import BlobVault.Vault.Write

/-!
# What a write answers and leaves behind

The five steps of a write, each with its outcome and the next vault, and what they come to if
nothing comes between them.

* `Write.step_checking`, `Write.step_reading`, `Write.step_encoding`, `Write.step_storing`,
  `Write.step_recording` : the steps;
* `Write.describes_recordOf` : the new record describes the ciphertext that is stored;
* `Write.run_cases`, `Write.Succeeds` : how a whole write can go, and what one that succeeds has
  done, whatever shares its backend;
* `Vault.write_spec` : a whole write leaves no trace, or stores the ciphertext of its content and
  tries to record it.
-/

namespace BlobVault

namespace Write

/-- The write, in another phase. -/
def become (w : Write) (p : Phase) : Write := { w with phase := p }

variable {w : Write} {v : Vault}

theorem run_of_outcome? {r : Except Fault BlobRecord} (h : w.phase.outcome? = some r)
    (v : Vault) : w.run v = (r, v) := by
  rw [run]
  split
  · rename_i o ho
    rw [h] at ho
    rw [Option.some.inj ho]
  · rename_i ho
    rw [h] at ho
    cases ho

theorem run_step (h : w.phase.outcome? = none) (v : Vault) :
    w.run v = (w.step v).1.run (w.step v).2 := by
  rw [run]
  split
  · rename_i o ho
    rw [h] at ho
    cases ho
  · rfl

/-- Some steps of a write, one after another. -/
def steps : Nat → Write → Vault → Write × Vault
  | 0, w, v => (w, v)
  | n + 1, w, v => steps n (w.step v).1 (w.step v).2

/-! ### The steps -/

/-- A write that has ended does nothing more. -/
theorem step_of_outcome? {r : Except Fault BlobRecord}
    (h : w.phase.outcome? = some r) (v : Vault) : w.step v = (w, v) := by
  obtain ⟨volume, b, collection, r, content, hint, phase⟩ := w
  cases phase with
  | finished o => rfl
  | _ => cases h

/-- A run does as many steps as it takes. -/
theorem run_of_steps {n : Nat} {outcome : Except Fault BlobRecord}
    (h : (steps n w v).1.phase.outcome? = some outcome) :
    w.run v = (outcome, (steps n w v).2) := by
  induction n generalizing w v with
  | zero => exact run_of_outcome? h v
  | succ n ih =>
    rw [steps] at h ⊢
    rw [← ih h]
    cases ho : w.phase.outcome? with
    | none => exact run_step ho v
    | some o => rw [step_of_outcome? ho]

theorem step_checking (h : w.phase = .checking) (v : Vault) :
    w.step v = (w.become (if v.catalog.hasRecord w.ref then
      .finished (.error (.alreadyExists (.blob w.ref))) else .reading), v) := by
  simp only [step, advance, h, become]

/-- The content has the reference of the write. -/
def Accepts (w : Write) (plain : Bytes) : Prop :=
  w.content.content = .ok plain ∧ Ref.ofContent plain = w.ref

theorem step_reading (h : w.phase = .reading) (v : Vault) :
    (∃ plain, w.Accepts plain ∧ w.step v = (w.become (.encoding plain), v)) ∨
    ∃ fault, (∀ plain, ¬ w.Accepts plain) ∧
      w.step v = (w.become (.finished (.error fault)), v) := by
  simp only [step, advance, h, become, VerifiedStream.content_ofRef, Accepts]
  cases hc : w.content.content with
  | error fault => exact .inr ⟨_, by simp, rfl⟩
  | ok plain =>
    by_cases hr : Ref.ofContent plain = w.ref
    · exact .inl ⟨plain, ⟨rfl, hr⟩, by simp [hr]⟩
    · refine .inr ⟨.ofIo (.mismatch ⟨.sha256, w.ref.toHex, (Ref.ofContent plain).toHex⟩), ?_, ?_⟩
      · rintro plain' ⟨hp, hr'⟩
        rw [Except.ok.inj hp] at hr
        exact hr hr'
      · simp [hr]

/-- The record and the ciphertext that a write makes of a plain text. -/
def stored (w : Write) (plain : Bytes) (key : DataKey) : BlobRecord × Bytes :=
  (w.recordOf plain key (Codec.encode w.ref plain key w.hint),
    (Codec.encode w.ref plain key w.hint).ciphertext)

theorem crc32_stored (w : Write) (plain : Bytes) (key : DataKey) :
    (w.stored plain key).1.crc32 = Crc32.ofBytes (w.stored plain key).2 := rfl

/-- Without a hint the plain text is encrypted as it is. -/
theorem ciphertext_stored (h : w.hint = false) (plain : Bytes) (key : DataKey) :
    (w.stored plain key).2 = Counter.apply key.bytes w.ref.counterBlock plain := by
  rw [stored, h]
  rfl

theorem step_encoding {plain : Bytes} (h : w.phase = .encoding plain) (v : Vault) :
    ∃ ids, (w.step v).2 = { v with ring := v.catalog.ringAfter v.ring ids } ∧
      (w.step v).1 = match (v.catalog.keyForNew w.collection v.ring).1 with
        | .ok key => w.become (.storing (w.stored plain key).1 (w.stored plain key).2)
        | .error fault => w.become (.finished (.error (.ofCatalog fault))) := by
  obtain ⟨ids, hids⟩ := v.catalog.keyForNew_snd w.collection v.ring
  refine ⟨ids, ?_⟩
  rw [← hids]
  simp only [step, advance, h]
  cases hk : v.catalog.keyForNew w.collection v.ring with
  | mk answer ring => cases answer <;> exact ⟨rfl, rfl⟩

theorem step_storing {record : BlobRecord} {ciphertext : Bytes}
    (h : w.phase = .storing record ciphertext) (v : Vault) :
    (w.step v).2 = (v.rawStore w.backend w.ref (.ofBytes ciphertext)).2 ∧
      (w.step v).1 = match (v.rawStore w.backend w.ref (.ofBytes ciphertext)).1 with
        | .ok () => w.become (.recording record)
        | .error fault => w.become (.finished (.error fault)) := by
  simp only [step, advance, h]
  cases hs : v.rawStore w.backend w.ref (.ofBytes ciphertext) with
  | mk answer v' => cases answer <;> exact ⟨rfl, rfl⟩

theorem step_recording {record : BlobRecord} (h : w.phase = .recording record) (v : Vault) :
    w.step v = match v.catalog.create record w.volume with
      | .error fault => (w.become (.finished (.error (.ofCatalog fault))), v)
      | .ok catalog => (w.become (.finished (.ok record)), { v with catalog := catalog }) := by
  simp only [step, advance, h]
  cases v.catalog.create record w.volume <;> rfl

/-- The new record describes the ciphertext that is stored. -/
theorem describes_recordOf {plain : Bytes} (h : w.Accepts plain) (key : DataKey) :
    (w.stored plain key).1.Describes plain key w.hint :=
  ⟨h.2.symm, rfl, rfl, rfl, rfl, rfl⟩

/-- The state after a write that was stored, which then has to be recorded. -/
structure Published (w : Write) (plain : Bytes) (key : DataKey) (v v' : Vault) : Prop where
  fresh : v.catalog.hasRecord w.ref = false
  accepts : w.Accepts plain
  resolved : (v.catalog.keyForNew w.collection v.ring).1 = .ok key
  landed : Vault.Landed w.volume w.ref (w.stored plain key).2 v v'

/-- A write whose content is as it should be, whose key is known and whose backend takes the
ciphertext has only to record it. -/
theorem steps_publish {plain : Bytes} {key : DataKey} (haccepts : w.Accepts plain)
    (hkey : (v.catalog.keyForNew w.collection v.ring).1 = .ok key)
    (hstore : (v.rawStore w.backend w.ref (.ofBytes (w.stored plain key).2)).1 = .ok ()) :
    ∃ v', steps 3 (w.become .reading) v = (w.become (.recording (w.stored plain key).1), v') ∧
      Vault.Follows v v' ∧ v'.catalog = v.catalog ∧
      v'.storage = (v.storage.store w.backend w.ref (.ofBytes (w.stored plain key).2)).2 := by
  have hreading : (w.become .reading).step v = (w.become (.encoding plain), v) := by
    rcases step_reading (w := w.become .reading) rfl v with
      ⟨plain', haccepts', hstep⟩ | ⟨fault, hrefuses, -⟩
    · obtain rfl := Except.ok.inj (haccepts.1.symm.trans haccepts'.1)
      exact hstep
    · exact absurd haccepts (hrefuses plain)
  obtain ⟨ids, hv, hw⟩ := step_encoding (w := w.become (.encoding plain)) rfl v
  have hencoding : (w.become (.encoding plain)).step v =
      (w.become (.storing (w.stored plain key).1 (w.stored plain key).2),
        { v with ring := v.catalog.ringAfter v.ring ids }) := by
    refine Prod.ext (hw.trans ?_) hv
    simp only [become] at hkey ⊢
    rw [hkey]
    rfl
  obtain ⟨hv', hw'⟩ := step_storing
    (w := w.become (.storing (w.stored plain key).1 (w.stored plain key).2)) rfl
    { v with ring := v.catalog.ringAfter v.ring ids }
  refine ⟨_, ?_, (Vault.Follows.ofRing v ids).trans (Vault.follows_rawStore
    { v with ring := v.catalog.ringAfter v.ring ids } w.backend w.ref _), rfl, rfl⟩
  rw [steps, hreading, steps, hencoding, steps, hv', hw', steps]
  refine Prod.ext ?_ rfl
  -- resolving the key has not touched the storage
  have hstore' : (({ v with ring := v.catalog.ringAfter v.ring ids } : Vault).rawStore w.backend
      w.ref (.ofBytes (w.stored plain key).2)).1 = .ok () := hstore
  simp only [become] at hstore' ⊢
  rw [hstore']

theorem steps_succ (n : Nat) (w : Write) (v : Vault) :
    steps (n + 1) w v = (steps n w v).1.step (steps n w v).2 := by
  induction n generalizing w v with
  | zero => rfl
  | succ n ih => exact ih (w.step v).1 (w.step v).2

/-- A write that is stored, with no record in its way, records the blob. -/
theorem steps_create {plain : Bytes} {key : DataKey} (haccepts : w.Accepts plain)
    (hkey : (v.catalog.keyForNew w.collection v.ring).1 = .ok key)
    (hstore : (v.rawStore w.backend w.ref (.ofBytes (w.stored plain key).2)).1 = .ok ())
    {catalog : Catalog}
    (hcreate : v.catalog.create (w.stored plain key).1 w.volume = .ok catalog) :
    ∃ v', steps 4 (w.become .reading) v =
        (w.become (.finished (.ok (w.stored plain key).1)), { v' with catalog := catalog }) ∧
      Vault.Follows v v' ∧ v'.catalog = v.catalog ∧
      v'.storage = (v.storage.store w.backend w.ref (.ofBytes (w.stored plain key).2)).2 := by
  obtain ⟨v', hsteps, hfollows, hcatalog, hstorage⟩ := steps_publish haccepts hkey hstore
  refine ⟨v', ?_, hfollows, hcatalog, hstorage⟩
  rw [steps_succ, hsteps, step_recording rfl]
  simp only [become]
  rw [hcatalog, hcreate]

/-- A write that is stored, with a record in its way, fails. -/
theorem steps_taken {plain : Bytes} {key : DataKey} (haccepts : w.Accepts plain)
    (hkey : (v.catalog.keyForNew w.collection v.ring).1 = .ok key)
    (hstore : (v.rawStore w.backend w.ref (.ofBytes (w.stored plain key).2)).1 = .ok ())
    (htaken : v.catalog.hasRecord w.ref = true) :
    ∃ v', steps 4 (w.become .reading) v =
        (w.become (.finished (.error (.alreadyExists (.blob w.ref)))), v') ∧
      Vault.Follows v v' ∧ v'.catalog = v.catalog ∧
      v'.storage = (v.storage.store w.backend w.ref (.ofBytes (w.stored plain key).2)).2 := by
  obtain ⟨v', hsteps, hfollows, hcatalog, hstorage⟩ := steps_publish haccepts hkey hstore
  refine ⟨v', ?_, hfollows, hcatalog, hstorage⟩
  have htaken' : v.catalog.hasRecord (w.stored plain key).1.ref = true := htaken
  rw [steps_succ, hsteps, step_recording rfl, hcatalog, Catalog.create, if_pos htaken']
  rfl

/-- How a run ends whose ciphertext has been stored. -/
def finish (w : Write) (record : BlobRecord) (v : Vault) : Except Fault BlobRecord × Vault :=
  match v.catalog.create record w.volume with
  | .error fault => (.error (.ofCatalog fault), v)
  | .ok catalog => (.ok record, { v with catalog := catalog })

/-- A run that ended in a fault before anything was stored. -/
def Fails (v : Vault) (result : Except Fault BlobRecord × Vault) : Prop :=
  (∃ fault, result.1 = .error fault) ∧ Vault.Quiet v result.2

theorem Fails.of_quiet {v v' : Vault} {result : Except Fault BlobRecord × Vault}
    (hq : Vault.Quiet v v') (h : Fails v' result) : Fails v result :=
  ⟨h.1, hq.trans h.2⟩

theorem fails_finished (w : Write) (fault : Fault) (v : Vault) :
    Fails v ((w.become (.finished (.error fault))).run v) := by
  rw [run_of_outcome? (r := .error fault) rfl]
  exact ⟨⟨fault, rfl⟩, .refl v⟩

theorem run_recording {record : BlobRecord} (h : w.phase = .recording record) (v : Vault) :
    w.run v = w.finish record v := by
  rw [run_step (by rw [h]; rfl), step_recording h, finish]
  cases v.catalog.create record w.volume with
  | error fault => exact run_of_outcome? rfl _
  | ok catalog => exact run_of_outcome? rfl _

theorem run_storing {record : BlobRecord} {ciphertext : Bytes} (hs : v.Separate)
    (hb : v.mounts.get? w.volume = some w.backend) (h : w.phase = .storing record ciphertext) :
    Fails v (w.run v) ∨
      ∃ v', Vault.Landed w.volume w.ref ciphertext v v' ∧ w.run v = w.finish record v' := by
  obtain ⟨hv, hstep⟩ := step_storing h v
  have hstore := Vault.rawStore_spec hs hb w.ref (.ofBytes ciphertext)
  rw [run_step (by rw [h]; rfl), hv, hstep]
  cases ha : (v.rawStore w.backend w.ref (.ofBytes ciphertext)).1 with
  | error fault =>
    rw [ha] at hstore
    exact .inl ((fails_finished w fault _).of_quiet hstore)
  | ok u =>
    rw [ha] at hstore
    obtain ⟨bs, hbs, hlanded⟩ := hstore
    rw [Stream.content_ofBytes] at hbs
    obtain rfl := Except.ok.inj hbs
    exact .inr ⟨_, hlanded, run_recording rfl _⟩

theorem run_encoding {plain : Bytes} (hs : v.Separate)
    (hb : v.mounts.get? w.volume = some w.backend) (h : w.phase = .encoding plain) :
    Fails v (w.run v) ∨
      ∃ key v', (v.catalog.keyForNew w.collection v.ring).1 = .ok key ∧
        Vault.Landed w.volume w.ref (w.stored plain key).2 v v' ∧
        w.run v = w.finish (w.stored plain key).1 v' := by
  obtain ⟨ids, hv, hstep⟩ := step_encoding h v
  have hquiet : Vault.Quiet v (w.step v).2 := hv ▸ .ofRing v ids
  rw [run_step (by rw [h]; rfl), hstep]
  cases hkey : (v.catalog.keyForNew w.collection v.ring).1 with
  | error fault => exact .inl ((fails_finished w _ _).of_quiet hquiet)
  | ok key =>
    rcases run_storing (w := w.become (.storing (w.stored plain key).1 (w.stored plain key).2))
      (hquiet.follows.separate hs) (hquiet.follows.mounts ▸ hb) rfl with hfails | ⟨v', hl, hrun⟩
    · exact .inl (hfails.of_quiet hquiet)
    · exact .inr ⟨key, v', rfl, hquiet.landed hl, hrun⟩

/-- A whole write leaves no trace, or is stored and then recorded. -/
theorem run_spec (hs : v.Separate) (hb : v.mounts.get? w.volume = some w.backend)
    (h : w.phase = .checking) :
    Fails v (w.run v) ∨
      ∃ plain key v', w.Published plain key v v' ∧
        w.run v = w.finish (w.stored plain key).1 v' := by
  rw [run_step (by rw [h]; rfl), step_checking h]
  cases hrecord : v.catalog.hasRecord w.ref with
  | true => exact .inl (fails_finished w _ v)
  | false =>
    -- the record is missing now, and nothing before the last step can bring it
    rw [if_neg Bool.false_ne_true]
    dsimp only
    rw [run_step rfl]
    rcases step_reading (w := w.become .reading) rfl v with
      ⟨plain, haccepts, hstep⟩ | ⟨fault, -, hstep⟩
    · rw [hstep]
      rcases run_encoding (w := w.become (.encoding plain)) hs hb rfl with
        hfails | ⟨key, v', hkey, hlanded, hrun⟩
      · exact .inl hfails
      · exact .inr ⟨plain, key, v', ⟨hrecord, haccepts, hkey, hlanded⟩, hrun⟩
    · rw [hstep]
      exact .inl (fails_finished w fault v)

/-! ### Whatever shares the backend -/

/-- The vault after a write has looked for its key. -/
def keyed (w : Write) (v : Vault) : Vault :=
  { v with ring := (v.catalog.keyForNew w.collection v.ring).2 }

/-- What storing the ciphertext comes to. -/
def storing (w : Write) (plain : Bytes) (key : DataKey) (v : Vault) : Except Fault Unit × Vault :=
  (w.keyed v).rawStore w.backend w.ref (.ofBytes (w.stored plain key).2)

theorem step_encoding_snd {plain : Bytes} (h : w.phase = .encoding plain) (v : Vault) :
    (w.step v).2 = w.keyed v := by
  simp only [step, advance, h, keyed]
  cases hk : v.catalog.keyForNew w.collection v.ring with
  | mk answer ring => cases answer <;> rfl

theorem run_encoding_cases {plain : Bytes} (h : w.phase = .encoding plain) :
    (∃ fault, w.run v = (.error fault, w.keyed v)) ∨
      ∃ key, (v.catalog.keyForNew w.collection v.ring).1 = .ok key ∧
        w.run v = match (w.storing plain key v).1 with
          | .error fault => (.error fault, (w.storing plain key v).2)
          | .ok () => w.finish (w.stored plain key).1 (w.storing plain key v).2 := by
  obtain ⟨-, -, hstep⟩ := step_encoding h v
  rw [run_step (by rw [h]; rfl), step_encoding_snd h, hstep]
  cases hkey : (v.catalog.keyForNew w.collection v.ring).1 with
  | error fault => exact .inl ⟨.ofCatalog fault, run_of_outcome? rfl _⟩
  | ok key =>
    refine .inr ⟨key, rfl, ?_⟩
    obtain ⟨hv, hstep⟩ := step_storing
      (w := w.become (.storing (w.stored plain key).1 (w.stored plain key).2)) rfl (w.keyed v)
    dsimp only
    rw [run_step rfl, hv, hstep]
    show (match (w.storing plain key v).1 with
      | .ok () => w.become (.recording (w.stored plain key).1)
      | .error fault => w.become (.finished (.error fault))).run (w.storing plain key v).2 = _
    cases (w.storing plain key v).1 with
    | error fault => exact run_of_outcome? rfl _
    | ok u => exact run_recording rfl _

/-- How a whole write can go, and what it leaves. -/
theorem run_cases (h : w.phase = .checking) :
    (∃ fault, w.run v = (.error fault, v)) ∨
    (∃ fault, w.run v = (.error fault, w.keyed v)) ∨
      ∃ plain key, w.Accepts plain ∧ (v.catalog.keyForNew w.collection v.ring).1 = .ok key ∧
        w.run v = match (w.storing plain key v).1 with
          | .error fault => (.error fault, (w.storing plain key v).2)
          | .ok () => w.finish (w.stored plain key).1 (w.storing plain key v).2 := by
  rw [run_step (by rw [h]; rfl), step_checking h]
  cases hrecord : v.catalog.hasRecord w.ref with
  | true => exact .inl ⟨.alreadyExists (.blob w.ref), run_of_outcome? rfl _⟩
  | false =>
    rw [if_neg Bool.false_ne_true]
    dsimp only
    rw [run_step rfl]
    rcases step_reading (w := w.become .reading) rfl v with
      ⟨plain, haccepts, hstep⟩ | ⟨fault, -, hstep⟩
    · rw [hstep]
      rcases run_encoding_cases (w := w.become (.encoding plain)) (v := v) rfl with
        hfails | ⟨key, hkey, hrun⟩
      · exact .inr (.inl hfails)
      · exact .inr (.inr ⟨plain, key, haccepts, hkey, hrun⟩)
    · rw [hstep]
      exact .inl ⟨fault, run_of_outcome? rfl _⟩

/-- The end of a write makes its record in the catalog, or leaves the catalog alone. -/
theorem catalog_finish (w : Write) (record : BlobRecord) (v : Vault) :
    (w.finish record v).2.catalog = v.catalog ∨
      v.catalog.create record w.volume = .ok (w.finish record v).2.catalog := by
  unfold finish
  cases v.catalog.create record w.volume with
  | error fault => exact .inl rfl
  | ok catalog => exact .inr rfl

theorem catalog_run (h : w.phase = .checking) (v : Vault) :
    (w.run v).2.catalog = v.catalog ∨ ∃ plain key,
      v.catalog.create (w.stored plain key).1 w.volume = .ok (w.run v).2.catalog := by
  rcases run_cases (v := v) h with ⟨fault, hrun⟩ | ⟨fault, hrun⟩ | ⟨plain, key, -, -, hrun⟩
  · rw [hrun]
    exact .inl rfl
  · rw [hrun]
    exact .inl rfl
  · rw [hrun]
    split
    · exact .inl rfl
    · -- storing has left the catalog alone
      exact (w.catalog_finish _ (w.storing plain key v).2).imp_right fun hc => ⟨plain, key, hc⟩

/-- A write that succeeds has had its ciphertext stored and its record made. -/
structure Succeeds (w : Write) (v : Vault) (plain : Bytes) (key : DataKey)
    (result : Except Fault BlobRecord × Vault) : Prop where
  accepts : w.Accepts plain
  resolved : (v.catalog.keyForNew w.collection v.ring).1 = .ok key
  stored : (w.storing plain key v).1 = .ok ()
  recorded : ∃ catalog, v.catalog.create (w.stored plain key).1 w.volume = .ok catalog ∧
    result = (.ok (w.stored plain key).1, { (w.storing plain key v).2 with catalog := catalog })

theorem succeeds_of_run (h : w.phase = .checking) {record : BlobRecord}
    (hok : (w.run v).1 = .ok record) : ∃ plain key, w.Succeeds v plain key (w.run v) := by
  rcases run_cases (v := v) h with
    ⟨fault, hrun⟩ | ⟨fault, hrun⟩ | ⟨plain, key, haccepts, hkey, hrun⟩
  · rw [hrun] at hok
    cases hok
  · rw [hrun] at hok
    cases hok
  · rw [hrun] at hok ⊢
    cases hstore : (w.storing plain key v).1 with
    | error fault =>
      rw [hstore] at hok
      cases hok
    | ok u =>
      rw [hstore, finish] at hok
      rw [finish]
      -- the catalog is still what it was
      have hcatalog : (w.storing plain key v).2.catalog = v.catalog := rfl
      cases hcreate : v.catalog.create (w.stored plain key).1 w.volume with
      | error fault =>
        simp only [hcatalog, hcreate] at hok
        cases hok
      | ok catalog =>
        simp only [hcatalog, hcreate]
        exact ⟨plain, key, haccepts, hkey, hstore, catalog, hcreate, rfl⟩

end Write

namespace Vault

/-- A write makes a record in the catalog, or leaves the catalog alone. -/
theorem catalog_write (v : Vault) (volume : VolumeId) (collection : String) (r : Ref)
    (content : Stream) (hint : Bool) :
    (v.write volume collection r content hint).2.catalog = v.catalog ∨
      ∃ (w : Write) (plain : Bytes) (key : DataKey), w.volume = volume ∧
        v.catalog.create (w.stored plain key).1 w.volume =
          .ok (v.write volume collection r content hint).2.catalog := by
  unfold write beginWrite
  cases v.backendOf volume with
  | error fault => exact .inl rfl
  | ok b =>
    rcases Write.catalog_run (w := ⟨volume, b, collection, r, content, hint, .checking⟩) rfl v with
      hsame | ⟨plain, key, hcreate⟩
    · exact .inl hsame
    · exact .inr ⟨_, plain, key, rfl, hcreate⟩

/-- A whole write leaves no trace, or is stored and then recorded. -/
theorem write_spec {v : Vault} (hs : v.Separate) (volume : VolumeId) (collection : String)
    (r : Ref) (content : Stream) (hint : Bool) :
    Write.Fails v (v.write volume collection r content hint) ∨
      ∃ w plain key v', (w.volume = volume ∧ w.collection = collection ∧ w.ref = r ∧
          w.content = content ∧ w.hint = hint) ∧
        v.mounts.get? w.volume = some w.backend ∧ Write.Published w plain key v v' ∧
        v.write volume collection r content hint = w.finish (w.stored plain key).1 v' := by
  unfold write beginWrite
  cases hbackend : v.backendOf volume with
  | error fault => exact .inl ⟨⟨fault, rfl⟩, .refl v⟩
  | ok b =>
    have hb := mounted_of_backendOf hbackend
    rcases Write.run_spec (w := ⟨volume, b, collection, r, content, hint, .checking⟩) hs hb rfl with
      hfails | ⟨plain, key, v', hpublished, hrun⟩
    · exact .inl hfails
    · exact .inr ⟨_, plain, key, v', ⟨rfl, rfl, rfl, rfl, rfl⟩, hb, hpublished, hrun⟩

end Vault

end BlobVault
