import BlobVault.Proofs.Stream.Content

/-!
# Reading piece by piece

A reader asks for bytes again and again, each time with room for some, and stops at the first read
that gives nothing or fails.  What it has by then does not depend on the room of its reads, neither
for a stream nor for a verified stream, although the latter hands out its bytes before it has seen
the last of them.

* `Reads` : what a reader gets, and how it ends;
* `Stream.reads_iff` : a reader of a stream gets what draining the stream gives;
* `VerifiedStream.readAll_of_reads` : a reader of a verified stream gets what reading all of it
  gives;
* `VerifiedStream.reads_ofCrc32` : it sees a clean end exactly if the source has one and the
  checksum is right.
-/

namespace BlobVault

/-- A reader has asked for bytes, each time with room for some, up to the first read that gave
nothing or failed. -/
inductive Reads {σ : Type} (read : Nat → σ → Except IoFault Bytes × σ) :
    σ → Bytes → Option IoFault → σ → Prop
  /-- The end of the file. -/
  | finish {s s' : σ} {room : Nat} (hroom : 0 < room) (hread : read room s = (.ok [], s')) :
      Reads read s [] none s'
  | fail {s s' : σ} {room : Nat} {fault : IoFault} (hroom : 0 < room)
      (hread : read room s = (.error fault, s')) : Reads read s [] (some fault) s'
  | more {s s' s'' : σ} {room : Nat} {bs bytes : Bytes} {fault? : Option IoFault}
      (hroom : 0 < room) (hread : read room s = (.ok bs, s')) (hbs : bs ≠ [])
      (hrest : Reads read s' bytes fault? s'') : Reads read s (bs ++ bytes) fault? s''

/-! ### Streams -/

namespace Stream

variable {s s' : Stream} {room : Nat}

/-- A piece that is read in two parts counts as one. -/
theorem drain_bytes_append {bs : Bytes} (hbs : bs ≠ []) (rest : Stream) :
    drain (.bytes bs :: rest) =
      ⟨bs ++ (drain rest).bytes, (drain rest).fault?, (drain rest).rest⟩ := by
  rw [drain, if_neg (by simpa using hbs)]

theorem drain_of_read_nil (hroom : 0 < room) (h : s.read room = (.ok [], s')) :
    s.drain = ⟨[], none, s'⟩ := by
  unfold read at h
  rw [if_neg (by omega)] at h
  match s with
  | [] =>
    obtain ⟨-, rfl⟩ := Prod.mk.inj h
    rfl
  | .fail fault :: rest => simp at h
  | .bytes bs :: rest =>
    dsimp only at h
    split at h
    · obtain ⟨hbs, rfl⟩ := Prod.mk.inj h
      obtain rfl := Except.ok.inj hbs
      rfl
    · -- with room left for a byte, a piece that does not fit gives one
      rename_i hfits
      obtain ⟨hbs, -⟩ := Prod.mk.inj h
      have hlength := congrArg List.length (Except.ok.inj hbs)
      rw [List.length_take, List.length_nil] at hlength
      omega

theorem drain_of_read_error {fault : IoFault} (h : s.read room = (.error fault, s')) :
    s.drain = ⟨[], some fault, s'⟩ := by
  unfold read at h
  split at h
  · simp at h
  · match s with
    | [] => simp at h
    | .fail fault' :: rest =>
      obtain ⟨hfault, rfl⟩ := Prod.mk.inj h
      obtain rfl := Except.error.inj hfault
      rfl
    | .bytes bs :: rest =>
      dsimp only at h
      split at h <;> simp at h

theorem drain_of_read {bs : Bytes} (hbs : bs ≠ []) (h : s.read room = (.ok bs, s')) :
    s.drain = ⟨bs ++ s'.drain.bytes, s'.drain.fault?, s'.drain.rest⟩ := by
  unfold read at h
  split at h
  · exact absurd (Except.ok.inj (Prod.mk.inj h).1).symm hbs
  · match s with
    | [] => exact absurd (Except.ok.inj (Prod.mk.inj h).1).symm hbs
    | .fail fault :: rest => simp at h
    | .bytes all :: rest =>
      dsimp only at h
      split at h
      · obtain ⟨hall, rfl⟩ := Prod.mk.inj h
        obtain rfl := Except.ok.inj hall
        exact drain_bytes_append hbs _
      · rename_i hfits
        obtain ⟨htake, rfl⟩ := Prod.mk.inj h
        obtain rfl := Except.ok.inj htake
        have hall : all ≠ [] := fun hnil => hfits (by simp [hnil])
        have hdrop : all.drop room ≠ [] := fun hnil => by
          have := List.drop_eq_nil_iff.1 hnil
          omega
        rw [drain_bytes_append hall, drain_bytes_append hdrop, ← List.append_assoc,
          List.take_append_drop]

/-- There is a reader that takes each piece whole. -/
theorem reads_drain (s : Stream) : Reads read s s.drain.bytes s.drain.fault? s.drain.rest := by
  induction s with
  | nil => exact .finish Nat.one_pos rfl
  | cons piece rest ih =>
    cases piece with
    | fail fault => exact .fail Nat.one_pos rfl
    | bytes bs =>
      by_cases hbs : bs = []
      · subst hbs
        exact .finish Nat.one_pos rfl
      · have hlength := List.length_pos_iff.2 hbs
        rw [drain_bytes_append hbs]
        refine .more hlength ?_ hbs ih
        unfold read
        rw [if_neg (by omega)]
        exact if_pos (Nat.le_refl _)

/-- Whatever the room of its reads, a reader gets what draining the stream gives. -/
theorem reads_iff {bytes : Bytes} {fault? : Option IoFault} :
    Reads read s bytes fault? s' ↔ s.drain = ⟨bytes, fault?, s'⟩ := by
  constructor
  · intro h
    induction h with
    | finish hroom hread => exact drain_of_read_nil hroom hread
    | fail hroom hread => exact drain_of_read_error hread
    | more hroom hread hbs _ ih => rw [drain_of_read hbs hread, ih]
  · intro h
    have hdrain := reads_drain s
    rw [h] at hdrain
    exact hdrain

theorem content_eq_ok {bytes : Bytes} :
    s.content = .ok bytes ↔ ∃ rest, Reads read s bytes none rest := by
  simp only [reads_iff, content]
  obtain ⟨given, fault?, rest⟩ := s.drain
  cases fault? <;> simp

theorem content_eq_error {fault : IoFault} :
    s.content = .error fault ↔ ∃ bytes rest, Reads read s bytes (some fault) rest := by
  simp only [reads_iff, content]
  obtain ⟨given, fault?, rest⟩ := s.drain
  cases fault? <;> simp

end Stream

/-! ### Verified streams -/

namespace Verifier

theorem restart_update (v : Verifier) (bs : Bytes) : (v.update bs).restart = v.restart := by
  cases v <;> rfl

theorem restart_restart (v : Verifier) : v.restart.restart = v.restart := by
  cases v <;> rfl

/-- Two pieces that are taken in from the start are one. -/
theorem restart_update_update (v : Verifier) (bs cs : Bytes) :
    (v.restart.update bs).update cs = v.restart.update (bs ++ cs) := by
  cases v with
  | sha256 hasher expected =>
    exact congrArg (sha256 · expected) (Sha256.Hasher.update_update bs cs)
  | crc32 register expected =>
    exact congrArg (crc32 · expected) (Crc32.feed_append Crc32.start bs cs).symm

end Verifier

namespace VerifiedStream

/-- The end has not been seen, and the verifier has taken in nothing but bytes since its start. -/
def Unread (s : VerifiedStream) : Prop :=
  s.outcome? = none ∧ ∃ bs, s.verifier = s.verifier.restart.update bs

theorem unread_ofCrc32 (source : Stream) (expected : UInt32) : (ofCrc32 source expected).Unread :=
  ⟨rfl, [], rfl⟩

variable {s s' : VerifiedStream}

theorem Unread.update (h : s.Unread) (bs cs : Bytes) :
    (s.verifier.update bs).update cs = s.verifier.update (bs ++ cs) := by
  obtain ⟨-, taken, htaken⟩ := h
  rw [htaken, Verifier.restart_update_update, Verifier.restart_update_update,
    Verifier.restart_update_update, List.append_assoc]

/-- Bytes that were handed out have passed the verifier. -/
theorem Unread.next (h : s.Unread) (source : Stream) (bs : Bytes) :
    Unread { s with source := source, verifier := s.verifier.update bs } := by
  obtain ⟨hnone, taken, htaken⟩ := h
  refine ⟨hnone, taken ++ bs, ?_⟩
  dsimp only
  rw [htaken, Verifier.restart_update_update, Verifier.restart_update, Verifier.restart_restart]

theorem Unread.update_nil (h : s.Unread) : s.verifier.update [] = s.verifier := by
  obtain ⟨-, taken, htaken⟩ := h
  rw [htaken, Verifier.restart_update_update, List.append_nil]

/-- The stream whose check has been made. -/
def concluded (s : VerifiedStream) (rest : Stream) : VerifiedStream :=
  { source := rest, verifier := s.verifier.restart, outcome? := some s.verifier.check }

/-- What a read at the end of the file says of a check. -/
def objection? : Except Mismatch Unit → Option IoFault
  | .ok () => none
  | .error m => some (.mismatch m)

/-- What comes of a source that gives some bytes and then ends or fails. -/
def close (s : VerifiedStream) (d : Stream.Drained) : Bytes × Option IoFault × VerifiedStream :=
  let s := { s with verifier := s.verifier.update d.bytes }
  match d.fault? with
  | some fault => (d.bytes, some fault, { s with source := d.rest })
  | none => (d.bytes, objection? s.verifier.check, s.concluded d.rest)

theorem readAll_eq (h : s.Unread) : s.readAll = s.close s.source.drain := by
  simp only [readAll, h.1, close]
  cases s.source.drain.fault? with
  | some fault => rfl
  | none =>
    simp only [conclude, Verifier.verify, concluded]
    cases (s.verifier.update s.source.drain.bytes).check <;> rfl

/-- What was handed out before counts. -/
theorem close_append (h : s.Unread) (bs : Bytes) (source : Stream) (d : Stream.Drained) :
    s.close ⟨bs ++ d.bytes, d.fault?, d.rest⟩ =
      let closed := close { s with source := source, verifier := s.verifier.update bs } d
      (bs ++ closed.1, closed.2) := by
  simp only [close, h.update]
  cases d.fault? <;> rfl

theorem close_end (h : s.Unread) (rest : Stream) :
    s.close ⟨[], none, rest⟩ = ([], objection? s.verifier.check, s.concluded rest) := by
  simp only [close, h.update_nil]

theorem close_fault (h : s.Unread) (fault : IoFault) (rest : Stream) :
    s.close ⟨[], some fault, rest⟩ = ([], some fault, { s with source := rest }) := by
  simp only [close, h.update_nil]

/-- One read comes to the end of the source, meets a failure, or hands out some bytes. -/
theorem read_cases (h : s.Unread) {room : Nat} (hroom : 0 < room) :
    (∃ rest, s.source.drain = ⟨[], none, rest⟩ ∧
      s.read room = (settled s.verifier.check, s.concluded rest)) ∨
    (∃ fault rest, s.source.drain = ⟨[], some fault, rest⟩ ∧
      s.read room = (.error fault, { s with source := rest })) ∨
    ∃ bs rest, bs ≠ [] ∧
      s.source.drain = ⟨bs ++ rest.drain.bytes, rest.drain.fault?, rest.drain.rest⟩ ∧
      s.read room = (.ok bs, { s with source := rest, verifier := s.verifier.update bs }) := by
  have hne : room ≠ 0 := by omega
  cases hsource : s.source.read room with
  | mk answer rest =>
    cases answer with
    | error fault =>
      refine .inr (.inl ⟨fault, rest, Stream.drain_of_read_error hsource, ?_⟩)
      simp only [read, h.1, hsource]
    | ok bs =>
      by_cases hbs : bs = []
      · subst hbs
        refine .inl ⟨rest, Stream.drain_of_read_nil hroom hsource, ?_⟩
        simp [read, h.1, hsource, hne, conclude, Verifier.verify, concluded]
      · refine .inr (.inr ⟨bs, rest, hbs, Stream.drain_of_read hbs hsource, ?_⟩)
        simp [read, h.1, hsource, hbs]

theorem settled_eq_nil {outcome : Except Mismatch Unit} (h : settled outcome = .ok []) :
    objection? outcome = none := by
  cases outcome with
  | ok u => rfl
  | error m => cases h

theorem settled_eq_error {outcome : Except Mismatch Unit} {fault : IoFault}
    (h : settled outcome = .error fault) : objection? outcome = some fault := by
  cases outcome with
  | ok u => cases h
  | error m => exact congrArg some (Except.error.inj h)

theorem settled_ne_bytes {outcome : Except Mismatch Unit} {bs : Bytes} (hbs : bs ≠ []) :
    settled outcome ≠ .ok bs := by
  cases outcome with
  | ok u => exact fun h => hbs (Except.ok.inj h).symm
  | error m => exact fun h => by cases h

/-- Whatever the room of its reads, a reader of a verified stream gets what reading all of it
gives. -/
theorem readAll_of_reads (h : s.Unread) {bytes : Bytes} {fault? : Option IoFault}
    (hreads : Reads read s bytes fault? s') : s.readAll = (bytes, fault?, s') := by
  rw [readAll_eq h]
  induction hreads with
  | finish hroom hread =>
    rcases read_cases h hroom with ⟨rest, hdrain, hnext⟩ | ⟨fault, rest, -, hnext⟩ |
      ⟨bs, rest, hbs, -, hnext⟩
    · obtain ⟨hsettled, rfl⟩ := Prod.mk.inj (hnext.symm.trans hread)
      rw [hdrain, close_end h, settled_eq_nil hsettled]
    · cases (Prod.mk.inj (hnext.symm.trans hread)).1
    · exact absurd (Except.ok.inj (Prod.mk.inj (hnext.symm.trans hread)).1) hbs
  | fail hroom hread =>
    rcases read_cases h hroom with ⟨rest, hdrain, hnext⟩ | ⟨fault, rest, hdrain, hnext⟩ |
      ⟨bs, rest, -, -, hnext⟩
    · obtain ⟨hsettled, rfl⟩ := Prod.mk.inj (hnext.symm.trans hread)
      rw [hdrain, close_end h, settled_eq_error hsettled]
    · obtain ⟨hfault, rfl⟩ := Prod.mk.inj (hnext.symm.trans hread)
      rw [hdrain, close_fault h, Except.error.inj hfault]
    · cases (Prod.mk.inj (hnext.symm.trans hread)).1
  | more hroom hread hbs _ ih =>
    rcases read_cases h hroom with ⟨rest, -, hnext⟩ | ⟨fault, rest, -, hnext⟩ |
      ⟨bs, rest, -, hdrain, hnext⟩
    · exact absurd (Prod.mk.inj (hnext.symm.trans hread)).1 (settled_ne_bytes hbs)
    · cases (Prod.mk.inj (hnext.symm.trans hread)).1
    · obtain ⟨hbytes, rfl⟩ := Prod.mk.inj (hnext.symm.trans hread)
      obtain rfl := Except.ok.inj hbytes
      rw [hdrain, close_append h bs rest rest.drain, ih (h.next rest bs)]

/-- A reader gets all bytes of the source, sees any failure of the source, and a clean end exactly if
the source has one and the checksum is right. -/
theorem reads_ofCrc32 {source rest : Stream} {expected : UInt32} {given bytes : Bytes}
    {ended? fault? : Option IoFault} (hsource : Reads Stream.read source given ended? rest)
    (hreads : Reads read (ofCrc32 source expected) bytes fault? s') :
    bytes = given ∧ (∀ fault, ended? = some fault → fault? = some fault) ∧
      (fault? = none ↔ ended? = none ∧ Crc32.ofBytes given = expected) := by
  have hdrain := Stream.reads_iff.1 hsource
  have hall := readAll_of_reads (unread_ofCrc32 source expected) hreads
  rw [readAll_eq (unread_ofCrc32 source expected), ofCrc32, hdrain, close] at hall
  cases ended? with
  | some fault =>
    obtain ⟨rfl, hrest⟩ := Prod.mk.inj hall
    obtain ⟨rfl, -⟩ := Prod.mk.inj hrest
    simp
  | none =>
    obtain ⟨rfl, hrest⟩ := Prod.mk.inj hall
    obtain ⟨rfl, -⟩ := Prod.mk.inj hrest
    rw [Verifier.check_update_ofCrc32]
    by_cases hcrc : Crc32.ofBytes given = expected <;> simp [hcrc, objection?]

end VerifiedStream

end BlobVault
