import BlobVault.Proofs.Scrub.Pass
import BlobVault.Proofs.Stream.Reading
import BlobVault.Proofs.Vault.Agreement

/-!
# Nothing unverified is returned

A backend may answer a fetch with any fault or with any stream: in pieces of any size, with empty
pieces and failures anywhere, cut short, or with the bytes of something else.

* `Vault.fetch_eq_ok`, `Vault.scrub_eq_ok` : when exactly a fetch and a scrub succeed;
* `Answer.Fails` : an answer that is a fault, or a stream that fails before its end;
* `Vault.fetch_of_fails`, `Vault.scrub_of_fails` : its fault is passed on as it is;
* `Vault.verified_of_answer` : **whatever the backend answers, a plain text that is returned has its
  reference, and came of a stream that ended cleanly with the recorded checksum**;
* `Storage.fetch_rigged` : every answer is possible.
-/

namespace BlobVault

/-- The answer of a backend fails, at once or while it is read. -/
inductive Answer.Fails : Except Fault Stream → Fault → Prop
  | atOnce (fault : Fault) : Fails (.error fault) fault
  | reading {s rest : Stream} {bytes : Bytes} {fault : IoFault}
      (hreads : Reads Stream.read s bytes (some fault) rest) : Fails (.ok s) (.ofIo fault)

/-! ### Checked bytes -/

theorem checked_eq_ok {crc32 : UInt32} {answer : Except Fault Stream} {bytes : Bytes} :
    checked crc32 answer = .ok bytes ↔ ∃ s rest, answer = .ok s ∧
      Reads Stream.read s bytes none rest ∧ Crc32.ofBytes bytes = crc32 := by
  cases answer with
  | error fault => simp [checked]
  | ok s =>
    rw [checked_ok]
    constructor
    · intro h
      cases hcontent : s.content with
      | error fault =>
        rw [hcontent] at h
        cases h
      | ok given =>
        obtain ⟨rest, hreads⟩ := Stream.content_eq_ok.1 hcontent
        simp only [hcontent] at h
        split at h
        · rename_i hcrc
          obtain rfl := Except.ok.inj h
          exact ⟨s, rest, rfl, hreads, hcrc⟩
        · cases h
    · rintro ⟨s', rest, hs, hreads, hcrc⟩
      obtain rfl := Except.ok.inj hs
      simp only [Stream.content_eq_ok.2 ⟨rest, hreads⟩, hcrc, if_true]

/-- The fault of an answer that fails is passed on as it is. -/
theorem checked_of_fails {answer : Except Fault Stream} {fault : Fault}
    (h : Answer.Fails answer fault) (crc32 : UInt32) : checked crc32 answer = .error fault := by
  cases h with
  | atOnce => rfl
  | reading hreads => rw [checked_ok, Stream.content_eq_error.2 ⟨_, _, hreads⟩]

/-- What is decoded is the content of the reference. -/
theorem Codec.ofContent_of_decode {r : Ref} {ciphertext plain : Bytes} {key : DataKey}
    {isCompressed : Bool} (h : decode r ciphertext key isCompressed = .ok plain) :
    Ref.ofContent plain = r := by
  unfold decode at h
  split at h
  · cases h
  · rename_i expanded _
    dsimp only at h
    split at h
    · rename_i href
      rw [← Except.ok.inj h]
      exact href
    · cases h

namespace Vault

variable {v : Vault} {volume : VolumeId} {b : BackendId} {r : Ref}

/-! ### When a fetch and a scrub succeed -/

theorem beginFetch_eq_ok {f : Fetch} (h : (v.beginFetch r volume).1 = .ok f) :
    v.mounts.get? volume = some f.backend ∧ f.ref = r ∧
      v.catalog.records.get? r = some f.record ∧
      (v.catalog.resolveKey f.record.keyId v.ring).1 = .ok f.key ∧
      (v.beginFetch r volume).2.storage = v.storage := by
  unfold beginFetch at h ⊢
  cases hb : v.backendOf volume with
  | error fault =>
    rw [hb] at h
    cases h
  | ok b =>
    simp only [hb, Catalog.findBlob] at h ⊢
    cases hrecord : v.catalog.findRecord r with
    | error fault =>
      rw [hrecord] at h
      cases h
    | ok record =>
      simp only [hrecord] at h ⊢
      cases hkey : v.catalog.resolveKey record.keyId v.ring with
      | mk answer ring =>
        cases answer with
        | error fault =>
          rw [hkey] at h
          cases h
        | ok key =>
          simp only [hkey] at h ⊢
          obtain rfl := Except.ok.inj h
          exact ⟨mounted_of_backendOf hb, rfl, Catalog.findRecord_eq_ok.1 hrecord, by rw [hkey],
            trivial⟩

/-- A fetch ends as its beginning, or makes something of the answer of the backend. -/
theorem fst_fetch (v : Vault) (r : Ref) (volume : VolumeId) :
    (v.fetch r volume).1 = match (v.beginFetch r volume).1 with
      | .error fault => .error fault
      | .ok f => f.finish (v.rawFetch f.backend r).1 := by
  unfold fetch
  cases hf : v.beginFetch r volume with
  | mk answer v' =>
    cases answer with
    | error fault => rfl
    | ok f =>
      have hbegun : (v.beginFetch r volume).1 = .ok f := by rw [hf]
      obtain ⟨-, -, -, -, hstorage⟩ := beginFetch_eq_ok hbegun
      rw [hf] at hstorage
      dsimp only at hstorage ⊢
      rw [rawFetch, rawFetch, hstorage]

/-- What a fetch of a record under its key makes of the answer of the backend. -/
theorem fetch_of_record {record : BlobRecord} {key : DataKey} (hb : v.mounts.get? volume = some b)
    (hrecord : v.catalog.records.get? r = some record)
    (hkey : (v.catalog.resolveKey record.keyId v.ring).1 = .ok key) :
    (v.fetch r volume).1 = Fetch.finish ⟨b, r, record, key⟩ (v.rawFetch b r).1 := by
  rw [fst_fetch, beginFetch_of_record hb hrecord hkey]

theorem fetch_eq_ok {plain : Bytes} (hb : v.mounts.get? volume = some b) :
    (v.fetch r volume).1 = .ok plain ↔ ∃ record key s bytes rest,
      v.catalog.records.get? r = some record ∧
      (v.catalog.resolveKey record.keyId v.ring).1 = .ok key ∧
      (v.rawFetch b r).1 = .ok s ∧ Reads Stream.read s bytes none rest ∧
      Crc32.ofBytes bytes = record.crc32 ∧
      Codec.decode r bytes key record.isCompressed = .ok plain := by
  constructor
  · intro h
    rw [fst_fetch] at h
    cases hf : (v.beginFetch r volume).1 with
    | error fault =>
      rw [hf] at h
      cases h
    | ok f =>
      obtain ⟨hmounted, href, hrecord, hkey, -⟩ := beginFetch_eq_ok hf
      obtain rfl := Option.some.inj (hmounted.symm.trans hb)
      simp only [hf, Fetch.finish, href] at h
      cases hchecked : checked f.record.crc32 (v.rawFetch f.backend r).1 with
      | error fault =>
        rw [hchecked] at h
        cases h
      | ok bytes =>
        rw [hchecked] at h
        obtain ⟨s, rest, hs, hreads, hcrc⟩ := checked_eq_ok.1 hchecked
        exact ⟨f.record, f.key, s, bytes, rest, hrecord, hkey, hs, hreads, hcrc, h⟩
  · rintro ⟨record, key, s, bytes, rest, hrecord, hkey, hs, hreads, hcrc, hdecode⟩
    rw [fetch_of_record hb hrecord hkey, Fetch.finish,
      checked_eq_ok.2 ⟨s, rest, hs, hreads, hcrc⟩]
    exact hdecode

theorem scrub_of_record {record : BlobRecord} (hb : v.mounts.get? volume = some b)
    (hrecord : v.catalog.records.get? r = some record) :
    (v.scrub r volume).1 = Check.finish ⟨b, r, record.crc32⟩ (v.rawFetch b r).1 := by
  have hbegin : v.beginCheck r volume = .ok ⟨b, r, record.crc32⟩ := by
    rw [beginCheck, backendOf_of_mounted hb]
    simp only [Catalog.checksumOf, Catalog.findRecord_eq_ok.2 hrecord]
  rw [scrub, hbegin]

theorem scrub_of_no_record (hb : v.mounts.get? volume = some b)
    (hrecord : v.catalog.records.get? r = none) :
    (v.scrub r volume).1 = .error (.notFound (.blob r)) := by
  have hbegin : v.beginCheck r volume = .error (.notFound (.blob r)) := by
    rw [beginCheck, backendOf_of_mounted hb]
    simp only [Catalog.checksumOf, Catalog.findRecord, hrecord, Fault.ofCatalog]
  rw [scrub, hbegin]

theorem scrub_eq_ok {count : Nat} (hb : v.mounts.get? volume = some b) :
    (v.scrub r volume).1 = .ok count ↔ ∃ record s bytes rest,
      v.catalog.records.get? r = some record ∧ (v.rawFetch b r).1 = .ok s ∧
      Reads Stream.read s bytes none rest ∧ Crc32.ofBytes bytes = record.crc32 ∧
      bytes.length = count := by
  cases hrecord : v.catalog.records.get? r with
  | none =>
    rw [scrub_of_no_record hb hrecord]
    simp
  | some record =>
    rw [scrub_of_record hb hrecord, Check.finish]
    constructor
    · intro h
      split at h
      · cases h
      · rename_i bytes hchecked
        obtain ⟨s, rest, hs, hreads, hcrc⟩ := checked_eq_ok.1 hchecked
        exact ⟨record, s, bytes, rest, rfl, hs, hreads, hcrc, Except.ok.inj h⟩
    · rintro ⟨record', s, bytes, rest, hrecord', hs, hreads, hcrc, rfl⟩
      obtain rfl := Option.some.inj hrecord'
      rw [checked_eq_ok.2 ⟨s, rest, hs, hreads, hcrc⟩]

/-! ### Answers that fail -/

variable {fault : Fault}

theorem fetch_of_fails {record : BlobRecord} {key : DataKey} (hb : v.mounts.get? volume = some b)
    (hfails : Answer.Fails (v.rawFetch b r).1 fault)
    (hrecord : v.catalog.records.get? r = some record)
    (hkey : (v.catalog.resolveKey record.keyId v.ring).1 = .ok key) :
    (v.fetch r volume).1 = .error fault := by
  rw [fetch_of_record hb hrecord hkey, Fetch.finish, checked_of_fails hfails]

theorem scrub_of_fails {record : BlobRecord} (hb : v.mounts.get? volume = some b)
    (hfails : Answer.Fails (v.rawFetch b r).1 fault)
    (hrecord : v.catalog.records.get? r = some record) :
    (v.scrub r volume).1 = .error fault := by
  rw [scrub_of_record hb hrecord, Check.finish, checked_of_fails hfails]

/-- A fetch that succeeds has not been given a failing answer. -/
theorem fetch_ne_ok_of_fails (hb : v.mounts.get? volume = some b)
    (hfails : Answer.Fails (v.rawFetch b r).1 fault) (plain : Bytes) :
    (v.fetch r volume).1 ≠ .ok plain := by
  intro h
  obtain ⟨record, key, s, bytes, rest, hrecord, hkey, -⟩ := (fetch_eq_ok hb).1 h
  rw [fetch_of_fails hb hfails hrecord hkey] at h
  cases h

theorem scrub_ne_ok_of_fails (hb : v.mounts.get? volume = some b)
    (hfails : Answer.Fails (v.rawFetch b r).1 fault) (count : Nat) :
    (v.scrub r volume).1 ≠ .ok count := by
  intro h
  obtain ⟨record, s, bytes, rest, hrecord, -⟩ := (scrub_eq_ok hb).1 h
  rw [scrub_of_fails hb hfails hrecord] at h
  cases h

/-! ### Whatever the backend answers -/

/-- The stream that the backend answered has given these bytes and come to a clean end, and their
checksum is the recorded one. -/
structure Vouched (v : Vault) (r : Ref) (s : Stream) (bytes : Bytes) : Prop where
  ended : ∃ rest, Reads Stream.read s bytes none rest
  recorded : ∃ record, v.catalog.records.get? r = some record ∧
    Crc32.ofBytes bytes = record.crc32
  /-- Whoever checks the stream while reading it gets these bytes, and sees a clean end. -/
  confirmed : ∀ record, v.catalog.records.get? r = some record → ∀ given fault? s',
    Reads VerifiedStream.read (.ofCrc32 s record.crc32) given fault? s' →
      given = bytes ∧ fault? = none

theorem Vouched.of_reads {s rest : Stream} {bytes : Bytes} {record : BlobRecord}
    (hrecord : v.catalog.records.get? r = some record)
    (hreads : Reads Stream.read s bytes none rest) (hcrc : Crc32.ofBytes bytes = record.crc32) :
    v.Vouched r s bytes where
  ended := ⟨rest, hreads⟩
  recorded := ⟨record, hrecord, hcrc⟩
  confirmed record' hrecord' given fault? s' hchecked := by
    obtain rfl := Option.some.inj (hrecord.symm.trans hrecord')
    obtain ⟨hgiven, -, hclean⟩ := VerifiedStream.reads_ofCrc32 hreads hchecked
    exact ⟨hgiven, hclean.2 ⟨rfl, hcrc⟩⟩

/-- A scrub is satisfied with the same stream. -/
theorem Vouched.scrub {s : Stream} {bytes : Bytes} (h : v.Vouched r s bytes)
    (hb : v.mounts.get? volume = some b) (hanswer : (v.rawFetch b r).1 = .ok s) :
    (v.scrub r volume).1 = .ok bytes.length := by
  obtain ⟨record, hrecord, hcrc⟩ := h.recorded
  obtain ⟨rest, hreads⟩ := h.ended
  exact (scrub_eq_ok hb).2 ⟨record, s, bytes, rest, hrecord, hanswer, hreads, hcrc, rfl⟩

/-- **Whatever the backend answers, a plain text that is returned has its reference, and came of a
stream that ended cleanly with the recorded checksum.**  A scrub that is given the same stream then
counts its bytes.  If the answer fails, neither succeeds, and both pass the failure on. -/
theorem verified_of_answer (hb : v.mounts.get? volume = some b)
    {answer : Except Fault Stream} (hanswer : (v.rawFetch b r).1 = answer) :
    (∀ plain, (v.fetch r volume).1 = .ok plain → Ref.ofContent plain = r ∧
      ∃ s bytes, answer = .ok s ∧ v.Vouched r s bytes ∧
        ∀ (v' : Vault) volume' b', v'.catalog.records.get? r = v.catalog.records.get? r →
          v'.mounts.get? volume' = some b' → (v'.rawFetch b' r).1 = .ok s →
          (v'.scrub r volume').1 = .ok bytes.length) ∧
    ∀ fault, Answer.Fails answer fault →
      (∀ plain, (v.fetch r volume).1 ≠ .ok plain) ∧
      (∀ count, (v.scrub r volume).1 ≠ .ok count) ∧
      ∀ record, v.catalog.records.get? r = some record →
        (v.scrub r volume).1 = .error fault ∧
        ∀ key, (v.catalog.resolveKey record.keyId v.ring).1 = .ok key →
          (v.fetch r volume).1 = .error fault := by
  subst hanswer
  refine ⟨fun plain hfetch => ?_, fun fault hfails => ?_⟩
  · obtain ⟨record, key, s, bytes, rest, hrecord, -, hs, hreads, hcrc, hdecode⟩ :=
      (fetch_eq_ok hb).1 hfetch
    exact ⟨Codec.ofContent_of_decode hdecode, s, bytes, hs, .of_reads hrecord hreads hcrc,
      fun v' volume' b' hsame hb' hs' =>
        (Vouched.of_reads (hsame.trans hrecord) hreads hcrc).scrub hb' hs'⟩
  · exact ⟨fetch_ne_ok_of_fails hb hfails, scrub_ne_ok_of_fails hb hfails,
      fun record hrecord => ⟨scrub_of_fails hb hfails hrecord,
        fun key hkey => fetch_of_fails hb hfails hrecord hkey⟩⟩

end Vault

/-! ### Backends that answer anything -/

/-- Every answer is possible. -/
theorem Storage.fetch_rigged (st : Storage) (b : BackendId) (shelf : Shelf)
    (answer : Except Fault Stream) (r : Ref) :
    ((st.setBackend b (.rigged shelf { Rig.idle with reply := fun _ => answer })).fetch b r).1 =
      answer := by
  obtain ⟨-, -, hreply⟩ := approach_eq
    (st.setBackend b (.rigged shelf { Rig.idle with reply := fun _ => answer })) b r 0
  rw [fetch, Storage.answer]
  simp only [hreply, backend_setBackend, if_true, Backend.spoils]

namespace Sample

/-- The reference of three bytes. -/
def named : Ref := Ref.ofContent plain

def ciphertext : Bytes := Counter.apply (List.replicate 16 1) named.counterBlock plain

def fetched : BlobRecord where
  ref := named
  keyId := "photo-key"
  volumes := [1]
  pending := []
  referenced := false
  isCompressed := false
  size := 3
  sizeOnDisk := 3
  crc32 := Crc32.ofBytes ciphertext

/-- The first volume answers every fetch alike. -/
def answering (answer : Except Fault Stream) : Vault :=
  { vault with
    catalog := { catalog with records := OrderedMap.empty.insert named fetched }
    storage := Storage.empty.setBackend 10
      (.rigged (.empty 0) { Rig.idle with reply := fun _ => answer }) }

/-- The ciphertext in two pieces, and then an end that is followed by other bytes. -/
def inPieces : Stream :=
  [.bytes (ciphertext.take 1), .bytes (ciphertext.drop 1), .bytes [], .bytes [9]]

/-- One byte of the ciphertext, and then a failure. -/
def broken : Stream := [.bytes (ciphertext.take 1), .fail (.other "stream cut")]

theorem rawFetch_answering (answer : Except Fault Stream) (r : Ref) :
    ((answering answer).rawFetch 10 r).1 = answer := by
  rw [Vault.rawFetch]
  exact Storage.fetch_rigged .empty 10 (.empty 0) answer r

theorem mounted_answering (answer : Except Fault Stream) :
    (answering answer).mounts.get? 1 = some 10 := rfl

theorem eq_ok_of_toOption {ε α : Type} {answer : Except ε α} {a : α}
    (h : answer.toOption = some a) : answer = .ok a := by
  cases answer with
  | error fault => cases h
  | ok a' => exact congrArg _ (Option.some.inj h)

theorem fetch_inPieces : ((answering (.ok inPieces)).fetch named 1).1 = .ok plain :=
  eq_ok_of_toOption (by decide +kernel)

/-- The answers have nothing to do with the key. -/
theorem resolveKey_answering (answer answer' : Except Fault Stream) (id : String) :
    (answering answer).catalog.resolveKey id (answering answer).ring =
      (answering answer').catalog.resolveKey id (answering answer').ring := rfl

theorem resolves (answer : Except Fault Stream) :
    ∃ key, ((answering answer).catalog.resolveKey fetched.keyId (answering answer).ring).1 =
      .ok key := by
  obtain ⟨record, key, -, -, -, hrecord, hkey, -⟩ :=
    (Vault.fetch_eq_ok (mounted_answering _)).1 fetch_inPieces
  obtain rfl := Option.some.inj ((OrderedMap.get?_insert_self _ _ _).symm.trans hrecord)
  exact ⟨key, by rw [resolveKey_answering answer (.ok inPieces), hkey]⟩

theorem fails_broken : Answer.Fails (.ok broken) (.ofIo (.other "stream cut")) := by
  have hpiece : ciphertext.take 1 ≠ [] := fun hnil => by
    have hlength := congrArg List.length hnil
    rw [List.length_take, ciphertext, Counter.length_apply] at hlength
    cases hlength
  exact .reading (Stream.reads_iff.2 (Stream.drain_bytes_append hpiece _))

end Sample

namespace Vault

/-- Pieces that make up the ciphertext are decoded, whatever follows their end; a stream that breaks
off after a byte is not, and says why. -/
theorem verified_of_answer_sample :
    ((Sample.answering (.ok Sample.inPieces)).fetch Sample.named 1).1 = .ok Sample.plain ∧
      Ref.ofContent Sample.plain = Sample.named ∧
      (∃ bytes, (Sample.answering (.ok Sample.inPieces)).Vouched Sample.named Sample.inPieces bytes ∧
        ((Sample.answering (.ok Sample.inPieces)).scrub Sample.named 1).1 = .ok bytes.length) ∧
      ((Sample.answering (.ok Sample.broken)).scrub Sample.named 1).1 =
        .error (.io (.other "stream cut")) ∧
      ((Sample.answering (.ok Sample.broken)).fetch Sample.named 1).1 =
        .error (.io (.other "stream cut")) := by
  obtain ⟨key, hkey⟩ := Sample.resolves (.ok Sample.broken)
  obtain ⟨hsound, -⟩ := verified_of_answer (Sample.mounted_answering _)
    (Sample.rawFetch_answering (.ok Sample.inPieces) Sample.named)
  obtain ⟨href, s, bytes, hs, hvouched, hscrub⟩ := hsound _ Sample.fetch_inPieces
  obtain rfl := Except.ok.inj hs
  obtain ⟨-, hfailing⟩ := verified_of_answer (Sample.mounted_answering _)
    (Sample.rawFetch_answering (.ok Sample.broken) Sample.named)
  obtain ⟨-, -, hpassed⟩ := hfailing _ Sample.fails_broken
  obtain ⟨hscrubbed, hfetched⟩ := hpassed Sample.fetched (OrderedMap.get?_insert_self _ _ _)
  exact ⟨Sample.fetch_inPieces, href,
    ⟨bytes, hvouched, hscrub _ 1 10 rfl rfl (Sample.rawFetch_answering _ _)⟩, hscrubbed,
    hfetched key hkey⟩

end Vault

end BlobVault
