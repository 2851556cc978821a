import BlobVault.Proofs.Stream.Reading
import Mathlib.Data.List.Induction

/-!
# Reads of any sizes

A reader of a verified stream may ask for any number of bytes at a time, for none at all, and again
after a failure or after the end.  `readEach` is what such a schedule of reads gets.  Up to the end
of the file a verified stream answers as its source does; there it gives its verdict on all bytes
that it has handed out, and from then on it repeats the verdict and leaves the source alone.

* `Passing` : the end of the file has not been seen;
* `Judged` : it has;
* `VerifiedStream.bytes_read` : no read loses, repeats or changes a byte;
* `Passing.next`, `Judged.next` : one more read;
* `VerifiedStream.readEach_guard` : **what a verified stream lets through, for every schedule**.
-/

namespace BlobVault

/-! ### Schedules -/

/-- What reads with the given room get, one after the other. -/
def readEach {σ : Type} (read : Nat → σ → Except IoFault Bytes × σ) :
    List Nat → σ → List (Except IoFault Bytes) × σ
  | [], s => ([], s)
  | room :: rooms, s =>
    let (answer, s) := read room s
    let (answers, s) := readEach read rooms s
    (answer :: answers, s)

/-- The bytes of an answer. -/
def handed : Except IoFault Bytes → Bytes
  | .ok bs => bs
  | .error _ => []

/-- The bytes of all answers. -/
def delivered (answers : List (Except IoFault Bytes)) : Bytes := answers.flatMap handed

section

variable {σ : Type} {read : Nat → σ → Except IoFault Bytes × σ} {s s' s'' : σ} {room : Nat}
  {rooms : List Nat} {answer : Except IoFault Bytes} {answers : List (Except IoFault Bytes)}

theorem delivered_concat :
    delivered (answers ++ [answer]) = delivered answers ++ handed answer := by
  simp [delivered]

theorem readEach_concat (hrooms : readEach read rooms s = (answers, s'))
    (hroom : read room s' = (answer, s'')) :
    readEach read (rooms ++ [room]) s = (answers ++ [answer], s'') := by
  induction rooms generalizing s answers with
  | nil =>
    obtain ⟨rfl, rfl⟩ := Prod.mk.inj hrooms
    simp [readEach, hroom]
  | cons first rooms ih =>
    simp only [readEach] at hrooms
    obtain ⟨rfl, hrest⟩ := Prod.mk.inj hrooms
    simp only [List.cons_append, readEach]
    rw [ih (Prod.ext rfl hrest)]

theorem length_readEach (read : Nat → σ → Except IoFault Bytes × σ) (rooms : List Nat) (s : σ) :
    (readEach read rooms s).1.length = rooms.length := by
  induction rooms generalizing s with
  | nil => rfl
  | cons room rooms ih => simp [readEach, ih]

/-- What one read hands out is missing from what is left, and so it is for all of them. -/
theorem delivered_readEach (left : σ → Bytes)
    (hread : ∀ room s, left s = handed (read room s).1 ++ left (read room s).2) (rooms : List Nat)
    (s : σ) : left s = delivered (readEach read rooms s).1 ++ left (readEach read rooms s).2 := by
  induction rooms generalizing s with
  | nil => rfl
  | cons room rooms ih =>
    simp only [readEach, delivered, List.flatMap_cons, List.append_assoc]
    rw [hread room s, ih (read room s).2]
    rfl

end

/-! ### The bytes of a stream -/

/-- The bytes of a piece. -/
def Piece.given : Piece → Bytes
  | .bytes bs => bs
  | .fail _ => []

/-- All bytes that a stream has, whatever comes between them. -/
def Stream.bytes (s : Stream) : Bytes := s.flatMap Piece.given

theorem Stream.bytes_cons (piece : Piece) (rest : Stream) :
    bytes (piece :: rest) = piece.given ++ bytes rest := rfl

theorem Stream.bytes_read (room : Nat) (s : Stream) :
    s.bytes = handed (s.read room).1 ++ (s.read room).2.bytes := by
  unfold read
  split
  · rfl
  · match s with
    | [] => rfl
    | .fail fault :: rest => rfl
    | .bytes bs :: rest =>
      dsimp only
      split
      · rfl
      · simp only [bytes_cons, Piece.given, handed]
        rw [← List.append_assoc, List.take_append_drop]

namespace VerifiedStream

variable {s s' : VerifiedStream} {room : Nat}

theorem handed_settled (outcome : Except Mismatch Unit) : handed (settled outcome) = [] := by
  cases outcome <;> rfl

theorem read_of_settled {outcome : Except Mismatch Unit} (h : s.outcome? = some outcome)
    (room : Nat) : s.read room = (settled outcome, s) := by
  rw [read, h]

/-- Before the end, a failure of the source is passed on. -/
theorem read_of_error (h : s.outcome? = none) {fault : IoFault} {rest : Stream}
    (hsource : s.source.read room = (.error fault, rest)) :
    s.read room = (.error fault, { s with source := rest }) := by
  simp [read, h, hsource]

/-- Before the end, bytes are handed out and taken in. -/
theorem read_of_bytes (h : s.outcome? = none) {bs : Bytes} (hbs : bs ≠ []) {rest : Stream}
    (hsource : s.source.read room = (.ok bs, rest)) :
    s.read room = (.ok bs, { s with source := rest, verifier := s.verifier.update bs }) := by
  simp [read, h, hsource, hbs]

/-- A read without room gets nothing and changes nothing. -/
theorem read_zero (h : s.outcome? = none) : s.read 0 = (.ok [], s) := by
  obtain ⟨source, verifier, outcome?⟩ := s
  obtain rfl : outcome? = none := h
  rfl

/-- A read without room, or one that fails, disturbs nothing: the next one goes on from there. -/
theorem read_of_undisturbed (h : s.outcome? = none) {answer : Except IoFault Bytes} {rest : Stream}
    (hsource : s.source.read room = (answer, rest))
    (hanswer : room = 0 ∨ ∃ fault, answer = .error fault) :
    s.read room = (answer, { s with source := rest }) := by
  rcases hanswer with rfl | ⟨fault, rfl⟩
  · obtain ⟨rfl, rfl⟩ := Prod.mk.inj hsource
    exact read_zero h
  · exact read_of_error h hsource

/-- The first read with room that gets nothing makes the check. -/
theorem read_of_end (h : s.outcome? = none) (hroom : 0 < room) {rest : Stream}
    (hsource : s.source.read room = (.ok [], rest)) :
    s.read room = (settled s.verifier.check, s.concluded rest) := by
  have hne : room ≠ 0 := by omega
  simp [read, h, hsource, hne, conclude, Verifier.verify, concluded]

/-- **No read of a verified stream loses, repeats or changes a byte of its source.** -/
theorem bytes_read (room : Nat) (s : VerifiedStream) :
    s.source.bytes = handed (s.read room).1 ++ (s.read room).2.source.bytes := by
  cases h : s.outcome? with
  | some outcome => rw [read_of_settled h, handed_settled]; rfl
  | none =>
    have hsource := Stream.bytes_read room s.source
    rcases hread : s.source.read room with ⟨answer, rest⟩
    rw [hread] at hsource
    cases answer with
    | error fault => rw [read_of_error h hread]; exact hsource
    | ok bs =>
      by_cases hbs : bs = []
      · subst hbs
        by_cases hroom : room = 0
        · subst hroom
          rw [read_zero h]
          rfl
        · rw [read_of_end h (by omega) hread, handed_settled]
          exact hsource
      · rw [read_of_bytes h hbs hread]; exact hsource

end VerifiedStream

/-! ### The verdict -/

/-- A kind of digest with the value that it should come to. -/
inductive Expected where
  | content (r : Ref)
  | crc32 (word : UInt32)

namespace Expected

/-- The stream that checks a source. -/
def guard : Expected → Stream → VerifiedStream
  | content r, source => .ofRef source r
  | crc32 word, source => .ofCrc32 source word

/-- What is to be said of some bytes: a mismatch carries both digests. -/
def verdict (e : Expected) (bs : Bytes) : Except Mismatch Unit :=
  match e with
  | content r =>
    if Ref.ofContent bs = r then .ok () else .error ⟨.sha256, r.toHex, (Ref.ofContent bs).toHex⟩
  | crc32 word =>
    if Crc32.ofBytes bs = word then .ok ()
    else .error ⟨.crc32, Hex.ofWord word, Hex.ofWord (Crc32.ofBytes bs)⟩

variable {e : Expected} {source : Stream}

theorem source_guard : (e.guard source).source = source := by cases e <;> rfl

theorem outcome?_guard : (e.guard source).outcome? = none := by cases e <;> rfl

theorem restart_guard : (e.guard source).verifier.restart = (e.guard source).verifier := by
  cases e <;> rfl

theorem update_guard_nil : (e.guard source).verifier.update [] = (e.guard source).verifier := by
  cases e <;> rfl

theorem update_guard_update (bs cs : Bytes) :
    ((e.guard source).verifier.update bs).update cs =
      (e.guard source).verifier.update (bs ++ cs) := by
  rw [← restart_guard, Verifier.restart_update_update]

theorem check_guard (bs : Bytes) : ((e.guard source).verifier.update bs).check = e.verdict bs := by
  cases e with
  | content r => exact Verifier.check_update_ofRef r bs
  | crc32 word => exact Verifier.check_update_ofCrc32 word bs

end Expected

/-! ### Before the end and after it -/

/-- A schedule of reads has not come to the end of the file. -/
structure Passing (e : Expected) (source : Stream) (rooms : List Nat)
    (answers : List (Except IoFault Bytes)) (s : VerifiedStream) : Prop where
  /-- Every read got what the source gave. -/
  given : readEach Stream.read rooms source = (answers, s.source)
  /-- No read with room got nothing. -/
  unended : ∀ p ∈ rooms.zip answers, p.2 = .ok [] → p.1 = 0
  /-- Nothing but the bytes that were handed out has been taken in. -/
  verifier : s.verifier = (e.guard source).verifier.update (delivered answers)
  /-- A next read without room, or one that fails, changes neither the digest nor the outcome. -/
  undisturbed : ∀ {room : Nat} {answer : Except IoFault Bytes} {rest : Stream},
    s.source.read room = (answer, rest) → (room = 0 ∨ ∃ fault, answer = .error fault) →
      s.read room = (answer, { s with source := rest })
  outcome? : s.outcome? = none

/-- A schedule of reads has come to the end of the file: at some read with room the source gave
nothing.  That read and all later ones got the verdict on the bytes before it, and the source is as
that read left it. -/
inductive Judged (e : Expected) (source : Stream) :
    List Nat → List (Except IoFault Bytes) → VerifiedStream → Prop
  | intro {before after : List Nat} {room : Nat} {given : List (Except IoFault Bytes)}
      {s : VerifiedStream} {rest : Stream} (hpassing : Passing e source before given s)
      (hroom : 0 < room) (hend : s.source.read room = (.ok [], rest)) :
      Judged e source (before ++ room :: after)
        (given ++ List.replicate (after.length + 1)
          (VerifiedStream.settled (e.verdict (delivered given))))
        (s.concluded rest)

section

variable {e : Expected} {source : Stream} {rooms : List Nat} {room : Nat}
  {answer : Except IoFault Bytes} {answers : List (Except IoFault Bytes)} {s s' : VerifiedStream}

namespace Passing

theorem nil : Passing e source [] [] (e.guard source) where
  given := by rw [Expected.source_guard]; rfl
  unended := by simp
  verifier := Expected.update_guard_nil.symm
  undisturbed := VerifiedStream.read_of_undisturbed Expected.outcome?_guard
  outcome? := Expected.outcome?_guard

theorem length_eq (h : Passing e source rooms answers s) : rooms.length = answers.length := by
  have hlength := length_readEach Stream.read rooms source
  rw [h.given] at hlength
  exact hlength.symm

theorem check (h : Passing e source rooms answers s) :
    s.verifier.check = e.verdict (delivered answers) := by
  rw [h.verifier, Expected.check_guard]

theorem update_nil (h : Passing e source rooms answers s) : s.verifier.update [] = s.verifier := by
  rw [h.verifier, Expected.update_guard_update, List.append_nil]

/-- A read that gets bytes or a failure of the source, or has no room, passes it on. -/
theorem concat (h : Passing e source rooms answers s) {rest : Stream}
    (hsource : s.source.read room = (answer, rest)) (hanswer : answer = .ok [] → room = 0) :
    Passing e source (rooms ++ [room]) (answers ++ [answer])
      { s with source := rest, verifier := s.verifier.update (handed answer) } where
  given := readEach_concat h.given hsource
  unended := by
    rw [List.zip_append h.length_eq]
    intro p hp
    rcases List.mem_append.1 hp with hp | hp
    · exact h.unended p hp
    · obtain rfl := List.mem_singleton.1 hp
      exact hanswer
  verifier := by
    rw [h.verifier, delivered_concat]
    exact Expected.update_guard_update ..
  undisturbed := VerifiedStream.read_of_undisturbed
    (s := { s with source := rest, verifier := s.verifier.update (handed answer) }) h.outcome?
  outcome? := h.outcome?

/-- One more read passes on what the source gives, or comes to the end of the file. -/
theorem next (h : Passing e source rooms answers s) (hread : s.read room = (answer, s')) :
    Passing e source (rooms ++ [room]) (answers ++ [answer]) s' ∨
      Judged e source (rooms ++ [room]) (answers ++ [answer]) s' := by
  rcases hsource : s.source.read room with ⟨given, rest⟩
  by_cases hend : given = .ok [] → room = 0
  · left
    have hpass : s.read room =
        (given, { s with source := rest, verifier := s.verifier.update (handed given) }) := by
      cases given with
      | error fault =>
        rw [VerifiedStream.read_of_error h.outcome? hsource, handed, h.update_nil]
      | ok bs =>
        by_cases hbs : bs = []
        · subst hbs
          rw [h.undisturbed hsource (.inl (hend rfl)), handed, h.update_nil]
        · exact VerifiedStream.read_of_bytes h.outcome? hbs hsource
    obtain ⟨rfl, rfl⟩ := Prod.mk.inj (hpass.symm.trans hread)
    exact h.concat hsource hend
  · right
    simp only [Classical.not_imp] at hend
    obtain ⟨rfl, hroom⟩ := hend
    have hroom : 0 < room := by omega
    obtain ⟨rfl, rfl⟩ := Prod.mk.inj
      ((VerifiedStream.read_of_end h.outcome? hroom hsource).symm.trans hread)
    rw [h.check]
    exact .intro h hroom hsource

end Passing

/-- One more read gets the same verdict and leaves the source alone. -/
theorem Judged.next (h : Judged e source rooms answers s) (hread : s.read room = (answer, s')) :
    Judged e source (rooms ++ [room]) (answers ++ [answer]) s' := by
  cases h with
  | @intro before after first given s rest hpassing hroom hend =>
    obtain ⟨rfl, rfl⟩ := Prod.mk.inj
      ((VerifiedStream.read_of_settled (s := s.concluded rest) rfl room).symm.trans hread)
    have hjudged : Judged e source (before ++ first :: (after ++ [room])) _ _ :=
      .intro hpassing hroom hend
    rw [List.length_append, List.length_singleton, List.replicate_succ', ← List.append_assoc,
      ← hpassing.check] at hjudged
    rw [← hpassing.check, List.append_assoc before, List.cons_append]
    exact hjudged

end

namespace VerifiedStream

/-- **A verified stream hands out the bytes of its source, in order and each of them once, whatever
the room of its reads.**  Up to the first read with room that gets nothing it answers as the source
does, and reads without room or that fail disturb nothing; that read and all later ones get the
verdict on all the bytes, and the source is left alone. -/
theorem readEach_guard (e : Expected) (source : Stream) (rooms : List Nat) :
    let run := readEach read rooms (e.guard source)
    source.bytes = delivered run.1 ++ run.2.source.bytes ∧
      (Passing e source rooms run.1 run.2 ∨ Judged e source rooms run.1 run.2) := by
  intro run
  refine ⟨?_, ?_⟩
  · have hbytes := delivered_readEach (fun s => s.source.bytes) bytes_read rooms (e.guard source)
    rw [Expected.source_guard] at hbytes
    exact hbytes
  · -- one read after the other, the last of them first
    induction rooms using List.reverseRecOn with
    | nil => exact .inl .nil
    | append_singleton rooms room ih =>
      have hrun : run = _ := readEach_concat rfl rfl
      rw [hrun]
      rcases ih with hpassing | hjudged
      · exact hpassing.next rfl
      · exact .inr (hjudged.next rfl)

/-- An end of the file that is seen early is the end: the last piece is not asked for any more. -/
example :
    (readEach read [2, 0, 4, 1, 3, 4, 0, 4] (Expected.guard (.crc32 (Crc32.ofBytes [1, 2, 3, 4]))
      [.bytes [1, 2, 3], .fail .notText, .bytes [4], .bytes [], .bytes [5]])).1 =
      [.ok [1, 2], .ok [], .ok [3], .error .notText, .ok [4], .ok [], .ok [], .ok []] := by
  decide +kernel

end VerifiedStream

end BlobVault
