import BlobVault.Proofs.Catalog.Records
import BlobVault.Replication.Run
import BlobVault.Scrub.Controller

/-!
# What does not depend on keys

The keys of a vault are its ring, the envelopes, and the envelope that each collection uses.
Whatever copies or checks ciphertexts does the same thing in a vault with other keys, and leaves the
keys alone: it commutes with giving the vault other keys.

* `Vault.withSecrets` : the vault with other keys;
* `Vault.scrub_withSecrets`, `Vault.replicate_withSecrets`, `Vault.discover_withSecrets`,
  `Vault.createJob_withSecrets` : whole operations;
* `Scan.step?_withSecrets`, `Controller.step?_withSecrets`, `Replication.step?_withSecrets` :
  **every single action of scrubbing and replication commutes with giving the vault other keys.**
-/

namespace BlobVault

/-- The keys of a vault, and what they are known by. -/
structure Secrets where
  ring : KeyRing
  collections : OrderedMap String String
  envelopes : OrderedMap String Envelope

/-- The catalog with other envelopes and collections. -/
def Catalog.withSecrets (c : Catalog) (k : Secrets) : Catalog :=
  { c with collections := k.collections, envelopes := k.envelopes }

namespace Vault

/-- The keys of the vault. -/
def secrets (v : Vault) : Secrets := ⟨v.ring, v.catalog.collections, v.catalog.envelopes⟩

/-- The vault with other keys. -/
def withSecrets (v : Vault) (k : Secrets) : Vault :=
  { v with ring := k.ring, catalog := v.catalog.withSecrets k }

theorem withSecrets_secrets (v : Vault) : v.withSecrets v.secrets = v := rfl

@[simp] theorem secrets_withSecrets (v : Vault) (k : Secrets) : (v.withSecrets k).secrets = k := rfl

end Vault

/-- A result beside a vault with other keys. -/
def keyed {α : Type} (k : Secrets) (result : α × Vault) : α × Vault :=
  (result.1, result.2.withSecrets k)

/-! ### The catalog -/

theorem Catalog.confirm_withSecrets (c : Catalog) (k : Secrets) (r : Ref) (id : VolumeId) :
    (c.withSecrets k).confirm r id = (c.confirm r id).map (·.withSecrets k) := by
  have hrecord : (c.withSecrets k).findRecord r = c.findRecord r := rfl
  have hvolume : (c.withSecrets k).findVolume id = c.findVolume id := rfl
  rw [confirm, confirm, hrecord, hvolume]
  cases c.findRecord r with
  | error fault => rfl
  | ok b => cases c.findVolume id <;> rfl

/-! ### Whole operations -/

theorem Copy.finish_withSecrets (c : Copy) (answer : Except Fault Stream) (v : Vault)
    (k : Secrets) : c.finish answer (v.withSecrets k) = keyed k (c.finish answer v) := by
  cases answer with
  | error fault => rfl
  | ok s =>
    have hstore : (v.withSecrets k).rawStore c.target c.ref
        (VerifiedStream.ofCrc32 s c.crc32).toStream =
        keyed k (v.rawStore c.target c.ref (VerifiedStream.ofCrc32 s c.crc32).toStream) := rfl
    rw [finish, finish, hstore]
    cases v.rawStore c.target c.ref (VerifiedStream.ofCrc32 s c.crc32).toStream with
    | mk outcome v' =>
      cases outcome with
      | error fault => rfl
      | ok u =>
        have hconfirm := v'.catalog.confirm_withSecrets k c.ref c.volume
        simp only [keyed, Vault.withSecrets, hconfirm]
        cases v'.catalog.confirm c.ref c.volume <;> rfl

namespace Vault

theorem scrub_withSecrets (v : Vault) (k : Secrets) (r : Ref) (volume : VolumeId) :
    (v.withSecrets k).scrub r volume = keyed k (v.scrub r volume) := by
  have hbegin : (v.withSecrets k).beginCheck r volume = v.beginCheck r volume := rfl
  rw [scrub, scrub, hbegin]
  cases v.beginCheck r volume <;> rfl

theorem replicate_withSecrets (v : Vault) (k : Secrets) (source target : VolumeId) (r : Ref) :
    (v.withSecrets k).replicate source target r = keyed k (v.replicate source target r) := by
  have hbegin : (v.withSecrets k).beginCopy source target r = v.beginCopy source target r := rfl
  rw [replicate, replicate, hbegin]
  cases v.beginCopy source target r with
  | error fault => rfl
  | ok c => exact c.finish_withSecrets _ (v.rawFetch c.source r).2 k

theorem takeJobs_withSecrets (v : Vault) (k : Secrets) (limit : Nat) (js : List CopyJob)
    (inFlight : InFlight) :
    (v.withSecrets k).takeJobs limit js inFlight = v.takeJobs limit js inFlight := by
  -- of the vault, only the mount table decides whether a job is taken
  induction js generalizing limit inFlight with
  | nil => simp only [takeJobs]
  | cons j js ih =>
    have hmounted : (v.withSecrets k).isMounted j.target = v.isMounted j.target := rfl
    cases limit with
    | zero => simp only [takeJobs]
    | succ limit => simp only [takeJobs, hmounted, ih]

theorem discover_withSecrets (v : Vault) (k : Secrets) (batchSize : Nat) (inFlight : InFlight) :
    (v.withSecrets k).discover batchSize inFlight = v.discover batchSize inFlight := by
  have hpending : (v.withSecrets k).catalog.pendingRecords batchSize =
      v.catalog.pendingRecords batchSize := rfl
  have hwanted : (v.withSecrets k).wantedCopies = v.wantedCopies := rfl
  rw [discover, discover, hpending, hwanted, takeJobs_withSecrets]

theorem createJob_withSecrets (v : Vault) (k : Secrets) (volume : VolumeId) (now : Nat) :
    (v.withSecrets k).createJob volume now = keyed k (v.createJob volume now) := by
  have hvolume : (v.withSecrets k).catalog.findVolume volume = v.catalog.findVolume volume := rfl
  rw [createJob, createJob, hvolume]
  cases v.catalog.findVolume volume <;> rfl

end Vault

/-! ### Single actions -/

namespace Scan

theorem note_withSecrets (s : Scan) (now : Nat) (v : Vault) (k : Secrets) (r : Ref)
    (result? : Option (Except Fault Nat)) (rest : List BlobRecord) :
    s.note now (v.withSecrets k) r result? rest = keyed k (s.note now v r result? rest) := by
  rw [note, note]
  dsimp only
  split
  · rfl
  · split <;> rfl

theorem visit_withSecrets (s : Scan) (now : Nat) (v : Vault) (k : Secrets) (b : BlobRecord)
    (rest : List BlobRecord) :
    s.visit now (v.withSecrets k) b rest = keyed k (s.visit now v b rest) := by
  have hbegin : (v.withSecrets k).beginCheck b.ref s.job.volumeId =
      v.beginCheck b.ref s.job.volumeId := rfl
  rw [visit, visit, hbegin]
  split
  · cases v.beginCheck b.ref s.job.volumeId with
    | error fault => exact s.note_withSecrets now v k b.ref _ rest
    | ok check => rfl
  · exact s.note_withSecrets now v k b.ref none rest

theorem step?_withSecrets (s : Scan) (now : Nat) (cancelled : Bool) (v : Vault) (k : Secrets) :
    s.step? now cancelled (v.withSecrets k) = (s.step? now cancelled v).map (keyed k) := by
  rw [step?, step?]
  cases s.phase with
  | querying => rfl
  | visiting records =>
    cases records with
    | nil => rfl
    | cons b rest =>
      dsimp only
      split
      · rfl
      · exact congrArg some (s.visit_withSecrets now v k b rest)
  | checking b check approach rest =>
    have hadvance : (v.withSecrets k).storage.advance? now approach =
        v.storage.advance? now approach := rfl
    dsimp only
    split
    · exact congrArg some (s.note_withSecrets now
        { v with storage := (v.storage.answer approach).2 } k b.ref _ rest)
    · rw [hadvance, Option.map_map]
      rfl
  | saving outcome => rfl
  | ended outcome => rfl

end Scan

namespace Controller

theorem resumable_withSecrets (c : Controller) (v : Vault) (k : Secrets) (id : Uuid) :
    c.resumable (v.withSecrets k) id = c.resumable v id := rfl

theorem obey_withSecrets (c : Controller) (now : Nat) (v : Vault) (k : Secrets) (ticket : Nat)
    (command : Command) :
    c.obey now (v.withSecrets k) ticket command = c.obey now v ticket command := by
  cases command with
  | resume id => rw [obey, obey, resumable_withSecrets]
  | _ => rfl

theorem serve?_withSecrets (c : Controller) (now : Nat) (v : Vault) (k : Secrets) :
    c.serve? now (v.withSecrets k) = c.serve? now v := by
  rw [serve?, serve?]
  simp only [obey_withSecrets]

theorem step?_withSecrets (c : Controller) (now : Nat) (v : Vault) (k : Secrets) (a : Action) :
    c.step? now (v.withSecrets k) a = (c.step? now v a).map (keyed k) := by
  cases a with
  | serve =>
    rw [step?, step?, serve?_withSecrets, Option.map_map]
    rfl
  | scan run =>
    rw [step?, step?, scan?, scan?]
    cases c.tasks.get? run with
    | none => rfl
    | some t =>
      dsimp only
      rw [Scan.step?_withSecrets, Option.map_map, Option.map_map]
      rfl

theorem next?_withSecrets (c : Controller) (now : Nat) (v : Vault) (k : Secrets) :
    c.next? now (v.withSecrets k) = (c.next? now v).map (keyed k) := by
  have hstep : c.step? now (v.withSecrets k) = Option.map (keyed k) ∘ c.step? now v :=
    funext fun a => c.step?_withSecrets now v k a
  rw [next?, next?, hstep, List.map_findSome?]

end Controller

namespace Replication

theorem copyOn?_withSecrets (r : Replication) (now : Nat) (v : Vault) (k : Secrets) (i : Nat)
    (job : CopyJob) (copy : Copy) (approach : Approach) :
    r.copyOn? now (v.withSecrets k) i job copy approach =
      (r.copyOn? now v i job copy approach).map (keyed k) := by
  have hadvance : (v.withSecrets k).storage.advance? now approach =
      v.storage.advance? now approach := rfl
  have hanswer : (v.withSecrets k).storage.answer approach = v.storage.answer approach := rfl
  rw [copyOn?, copyOn?]
  split
  · have hfinish : copy.finish (v.storage.answer approach).1
        { v.withSecrets k with storage := (v.storage.answer approach).2 } =
        keyed k (copy.finish (v.storage.answer approach).1
          { v with storage := (v.storage.answer approach).2 }) :=
      copy.finish_withSecrets _ { v with storage := (v.storage.answer approach).2 } k
    dsimp only
    rw [hanswer, hfinish]
    cases copy.finish (v.storage.answer approach).1
      { v with storage := (v.storage.answer approach).2 } with
    | mk result v' => cases result <;> rfl
  · rw [hadvance]
    cases v.storage.advance? now approach <;> rfl

theorem work?_withSecrets (r : Replication) (now : Nat) (v : Vault) (k : Secrets) (i : Nat) :
    r.work? now (v.withSecrets k) i = (r.work? now v i).map (keyed k) := by
  rw [work?, work?]
  cases r.workers[i]? with
  | none => rfl
  | some w =>
    cases w with
    | idle =>
      dsimp only
      rw [Option.map_map]
      rfl
    | holding job => rfl
    | copying job copy approach => exact r.copyOn?_withSecrets now v k i job copy approach
    | resting wake =>
      dsimp only
      split
      · rfl
      · split <;> rfl
    | left => rfl

theorem tick?_withSecrets (r : Replication) (now : Nat) (v : Vault) (k : Secrets) :
    r.tick? now (v.withSecrets k) = r.tick? now v := by
  rw [tick?, tick?]
  simp only [Vault.discover_withSecrets]

theorem step?_withSecrets (r : Replication) (now : Nat) (v : Vault) (k : Secrets) (a : Action) :
    r.step? now (v.withSecrets k) a = (r.step? now v a).map (keyed k) := by
  cases a with
  | tick =>
    rw [step?, step?, tick?_withSecrets, Option.map_map]
    rfl
  | work i => exact r.work?_withSecrets now v k i
  | _ =>
    rw [step?, step?, Option.map_map]
    rfl

theorem next?_withSecrets (r : Replication) (now : Nat) (v : Vault) (k : Secrets) :
    r.next? now (v.withSecrets k) = (r.next? now v).map (keyed k) := by
  have hstep : r.step? now (v.withSecrets k) = Option.map (keyed k) ∘ r.step? now v :=
    funext fun a => r.step?_withSecrets now v k a
  rw [next?, next?, hstep, List.map_findSome?]

end Replication

end BlobVault
