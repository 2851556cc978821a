import BlobVault.Json.Read
import BlobVault.Json.Write
import BlobVault.Proofs.Text.Uuid

/-!
# Objects of one text, read back

A document that is written without escapes, on one line, is read from left to right; each part of
it takes some bytes and leaves the rest.

* `Utf8.decodeChars?_encodeChars` : characters of one byte each are read back from their bytes;
* `Json.Ordinary`, `Json.quoted_of_ordinary` : the characters that stand for themselves in a string;
* `Json.Reads` : reading these bytes gives this value and leaves these bytes, with one lemma for
  each way to put readers together;
* `Json.Reads.record`, `Json.Reads.read` : **an object whose only member is a text is read off its
  bytes**.
-/

namespace BlobVault

namespace Utf8

theorem encodeChars_cons (c : Char) (cs : List Char) :
    encodeChars (c :: cs) = encodeCode c.toNat ++ encodeChars cs := by
  simp [encodeChars]

theorem encodeChars_append (cs ds : List Char) :
    encodeChars (cs ++ ds) = encodeChars cs ++ encodeChars ds := by
  simp [encodeChars]

theorem encodeCode_ascii {c : Char} (h : c.toNat < 128) :
    encodeCode c.toNat = [UInt8.ofNat c.toNat] := by
  rw [encodeCode, if_pos h]

theorem toNat_ofNat_ascii {c : Char} (h : c.toNat < 128) :
    (UInt8.ofNat c.toNat).toNat = c.toNat :=
  UInt8.toNat_ofNat_of_lt' (Nat.lt_of_lt_of_le h (by decide))

/-- A text of one-byte characters is read back from its bytes. -/
theorem decodeChars?_encodeChars {cs : List Char} (h : ∀ c ∈ cs, c.toNat < 128) :
    decodeChars? 0 (encodeChars cs) = some cs := by
  induction cs with
  | nil => rfl
  | cons c cs ih =>
    obtain ⟨hc, hcs⟩ := List.forall_mem_cons.1 h
    rw [encodeChars_cons, encodeCode_ascii hc]
    simp [decodeChars?, decodeHead?, toNat_ofNat_ascii hc, hc, ih hcs]

end Utf8

namespace Json

/-- A character that stands for itself in a string, and takes one byte. -/
def Ordinary (c : Char) : Prop := 32 ≤ c.toNat ∧ c.toNat < 128 ∧ c ≠ '"' ∧ c ≠ '\\'

instance (c : Char) : Decidable (Ordinary c) := by unfold Ordinary; infer_instance

variable {cs : List Char}

theorem escapeChar_of_ordinary {c : Char} (h : Ordinary c) : escapeChar c = [c] := by
  obtain ⟨hlow, -, hquote, hslash⟩ := h
  have hne : ∀ d : Char, d.toNat < 32 → c ≠ d := by
    rintro d hd rfl
    omega
  rw [escapeChar, if_neg hquote, if_neg hslash, if_neg (hne _ (by decide)),
    if_neg (hne _ (by decide)), if_neg (hne _ (by decide)), if_neg (by omega), if_neg (by omega),
    if_neg (by omega)]

theorem quoted_of_ordinary (h : ∀ c ∈ cs, Ordinary c) :
    quoted (String.ofList cs) = '"' :: (cs ++ ['"']) := by
  have hflat : cs.flatMap escapeChar = cs := by
    induction cs with
    | nil => rfl
    | cons c cs ih =>
      obtain ⟨hc, hcs⟩ := List.forall_mem_cons.1 h
      rw [List.flatMap_cons, escapeChar_of_ordinary hc, ih hcs, List.singleton_append]
  rw [quoted, String.toList_ofList, hflat]

theorem isOrdinary_of_mem (h : ∀ c ∈ cs, Ordinary c) {b : UInt8} (hb : b ∈ Utf8.encodeChars cs) :
    Reading.isOrdinary b = true ∧ b ≠ 10 := by
  obtain ⟨c, hc, hbc⟩ := List.mem_flatMap.1 hb
  obtain ⟨hlow, hhigh, hquote, hslash⟩ := h c hc
  rw [Utf8.encodeCode_ascii hhigh, List.mem_singleton] at hbc
  have hbyte : b.toNat = c.toNat := by rw [hbc, Utf8.toNat_ofNat_ascii hhigh]
  have hne : ∀ d : Char, c ≠ d → b.toNat ≠ d.toNat := fun d hd he =>
    hd (Char.toNat_inj.1 (hbyte.symm.trans he))
  have hb34 : b ≠ 34 := fun he => hne _ hquote (by rw [he]; rfl)
  have hb92 : b ≠ 92 := fun he => hne _ hslash (by rw [he]; rfl)
  have hb32 : 32 ≤ b := by rw [UInt8.le_iff_toNat_le, hbyte]; exact hlow
  refine ⟨by simp [Reading.isOrdinary, hb34, hb92, hb32], ?_⟩
  rintro rfl
  exact absurd hb32 (by decide)

theorem advanceMany_append {bs : Bytes} (h : ∀ b ∈ bs, b ≠ 10) (rest : Bytes)
    (line column : Nat) :
    Cursor.advanceMany bs.length ⟨bs ++ rest, line, column⟩
      = ⟨rest, line, column + bs.length⟩ := by
  induction bs generalizing column with
  | nil => rfl
  | cons b bs ih =>
    obtain ⟨hb, hbs⟩ := List.forall_mem_cons.1 h
    have hstep : Cursor.advance ⟨b :: bs ++ rest, line, column⟩ =
        ⟨bs ++ rest, line, column + 1⟩ := by
      simp [Cursor.advance, hb]
    rw [List.length_cons, Cursor.advanceMany, hstep, ih hbs, Nat.add_assoc, Nat.add_comm 1]

/-- Reading these bytes, on one line, gives a value and leaves a rest. -/
def Reads {α : Type} (x : Reading α) (bytes : Bytes) (a : α) (rest : Bytes) : Prop :=
  ∀ line column, ∃ column', x ⟨bytes, line, column⟩ = (.ok a, ⟨rest, line, column'⟩)

/-- The bytes of a string in quotes, and what comes after it. -/
def inQuotes (s : String) (rest : Bytes) : Bytes := 34 :: (Utf8.encode s ++ 34 :: rest)

namespace Reads

open Reading

variable {α β : Type} {x : Reading α} {a : α} {b : β} {bytes bytes' rest : Bytes}

theorem of_eq (h : ∀ c, c.rest = bytes → x c = (.ok a, c)) : Reads x bytes a bytes :=
  fun line column => ⟨column, h ⟨bytes, line, column⟩ rfl⟩

theorem pure (a : α) : Reads (Pure.pure a) bytes a bytes := of_eq fun _ _ => rfl

theorem bind {f : α → Reading β} (h : Reads x bytes a bytes') (h' : Reads (f a) bytes' b rest) :
    Reads (x >>= f) bytes b rest := fun line column => by
  obtain ⟨column', hx⟩ := h line column
  obtain ⟨column'', hf⟩ := h' line column'
  refine ⟨column'', ?_⟩
  show Reading.bind x f _ = _
  rw [Reading.bind, hx, ← hf]

theorem placed (h : Reads x bytes a rest) : Reads (Reading.placed x) bytes a rest :=
  fun line column => by
    obtain ⟨column', hx⟩ := h line column
    exact ⟨column', by rw [Reading.placed, hx]⟩

theorem followedBy {y : Reading Unit} (h : Reads x bytes a bytes') (h' : Reads y bytes' () rest) :
    Reads (Reading.followedBy x y) bytes a rest := fun line column => by
  obtain ⟨column', hx⟩ := h line column
  obtain ⟨column'', hy⟩ := h' line column'
  exact ⟨column'', by rw [Reading.followedBy, hx]; simp only [hy]⟩

theorem remaining : Reads Reading.remaining bytes bytes.length bytes :=
  of_eq fun _ h => by rw [← h]; rfl

theorem skip {b : UInt8} (h : b ≠ 10) : Reads Reading.skip (b :: bytes) () bytes :=
  fun line column => ⟨column + 1, by simp [Reading.skip, Cursor.advance, h]⟩

theorem peekToken {b : UInt8} (h : isBlank b = false) :
    Reads Reading.peekToken (b :: bytes) (some b) (b :: bytes) := fun line column =>
  ⟨column, by simp [Reading.peekToken, h, Cursor.advanceMany]⟩

/-! ### Strings -/

/-- A string without escapes is read up to its closing quote. -/
theorem string (h : ∀ c ∈ cs, Ordinary c) :
    Reads Reading.string (Utf8.encodeChars cs ++ 34 :: rest) (String.ofList cs) rest := by
  have hbytes := fun b hb => isOrdinary_of_mem (b := b) h hb
  have hrun : Reads ordinary (Utf8.encodeChars cs ++ 34 :: rest) (Utf8.encodeChars cs)
      (34 :: rest) := fun line column => by
    have htake : (Utf8.encodeChars cs ++ 34 :: rest).takeWhile isOrdinary
        = Utf8.encodeChars cs := by
      rw [List.takeWhile_append_of_pos fun b hb => (hbytes b hb).1]
      simp [isOrdinary]
    exact ⟨_, by rw [ordinary, htake, advanceMany_append fun b hb => (hbytes b hb).2]⟩
  have htext : Utf8.decode? (Utf8.encodeChars cs) = some (String.ofList cs) := by
    rw [Utf8.decode?, Utf8.decodeChars?_encodeChars fun c hc => (h c hc).2.1]
    rfl
  have hread : ∀ fuel, Reads (stringBytes (fuel + 1) []) (Utf8.encodeChars cs ++ 34 :: rest)
      (Utf8.encodeChars cs) (34 :: rest) := fun fuel => by
    refine hrun.bind (.bind (a := some 34) (of_eq fun c h => by rw [peek, h]; rfl) ?_)
    simpa using Reads.pure (Utf8.encodeChars cs)
  refine .bind .remaining (.bind (hread _) ?_)
  rw [htext]
  exact .bind (skip (by decide)) (.pure _)

variable {key s title expecting : String} {refusal : String → Option String}

/-- A text that is accepted is read. -/
theorem plain (h : ∀ c ∈ s.toList, Ordinary c) (hr : refusal s = none) :
    Reads (Reading.plain (.text expecting refusal)) (inQuotes s rest) (.text s) rest := by
  have hstring : Reads Reading.string (Utf8.encode s ++ 34 :: rest) s rest := by
    have hread : Reads Reading.string (Utf8.encodeChars s.toList ++ 34 :: rest)
        (String.ofList s.toList) rest := string h
    rwa [String.ofList_toList] at hread
  have hfound : Reads found (inQuotes s rest) (.text s) rest :=
    .bind (peekToken rfl) (.bind (skip (by decide)) (.bind hstring (.pure _)))
  refine placed (hfound.bind ?_)
  simp only [Plain.accept, hr]
  exact .pure _

/-! ### Records of one text -/

theorem members (hkey : ∀ c ∈ key.toList, Ordinary c) (h : ∀ c ∈ s.toList, Ordinary c)
    (hr : refusal s = none) (fuel : Nat) :
    Reads (Reading.members
        (fieldMember [⟨key, Reading.plain (.text expecting refusal), .required⟩])
        (fuel + 1 + 1) true [])
      (inQuotes key (58 :: inQuotes s (125 :: rest))) [(key, .text s)] (125 :: rest) := by
  have hmember : Reads (fieldMember
      [⟨key, Reading.plain (.text expecting refusal), .required⟩] [] key)
      (58 :: inQuotes s (125 :: rest)) [(key, .text s)] (125 :: rest) := by
    rw [fieldMember, List.find?_cons_of_pos (by simp)]
    exact .bind (.bind (peekToken rfl) (skip (by decide))) (.bind (plain h hr) (.pure _))
  have hstring : Reads Reading.string (Utf8.encode key ++ 34 :: 58 :: inQuotes s (125 :: rest))
      key (58 :: inQuotes s (125 :: rest)) := by
    have hread : Reads Reading.string
        (Utf8.encodeChars key.toList ++ 34 :: 58 :: inQuotes s (125 :: rest))
        (String.ofList key.toList) (58 :: inQuotes s (125 :: rest)) := string hkey
    rwa [String.ofList_toList] at hread
  have hfirst : Reads (moreKeys true) (inQuotes key (58 :: inQuotes s (125 :: rest))) true
      (inQuotes key (58 :: inQuotes s (125 :: rest))) := .bind (peekToken rfl) (.pure true)
  have hlast : Reads (moreKeys false) (125 :: rest) false (125 :: rest) :=
    .bind (peekToken rfl) (.pure false)
  exact .bind hfirst (.bind (skip (by decide)) (.bind hstring (.bind hmember
    (.bind hlast (.pure _)))))

/-- A record of one text is read off an object. -/
theorem record (hkey : ∀ c ∈ key.toList, Ordinary c) (h : ∀ c ∈ s.toList, Ordinary c)
    (hr : refusal s = none) :
    Reads (Reading.record title [⟨key, Reading.plain (.text expecting refusal), .required⟩])
      (123 :: inQuotes key (58 :: inQuotes s (125 :: rest))) (.record [.text s]) rest := by
  have hfound : Reads found (123 :: inQuotes key (58 :: inQuotes s (125 :: rest))) .map
      (123 :: inQuotes key (58 :: inQuotes s (125 :: rest))) := .bind (peekToken rfl) (.pure _)
  have hend : Reads endObject (125 :: rest) () rest := .bind (peekToken rfl) (skip (by decide))
  have hfields : fieldsOfMap [⟨key, (), .required⟩] [(key, .text s)] = .ok [.text s] := by
    simp [fieldsOfMap]
  refine placed (hfound.bind (.bind (skip (by decide)) (.followedBy (.bind .remaining
    (.bind (members hkey h hr _) ?_)) hend)))
  simp only [List.map_cons, List.map_nil, hfields]
  exact .pure _

/-- A document is read if nothing is left of it. -/
theorem read {shape : Shape} {d : Datum} (h : Reads (Reading.shaped 127 shape) bytes d []) :
    Json.read shape bytes = .ok d := by
  have hend : Reads Reading.peekToken [] none [] :=
    of_eq fun c h => by simp [Reading.peekToken, h, Cursor.advanceMany]
  have hdocument : Reads (Reading.document shape) bytes d [] := h.bind (hend.bind (.pure d))
  obtain ⟨column', hread⟩ := hdocument 1 0
  rw [Json.read, Cursor.start, hread]

end Reads

theorem ordinary_digit {n : Nat} (h : n < 16) : Ordinary (Hex.digit n) := by
  revert n
  decide

theorem ordinary_of_mem_toText {u : Uuid} {c : Char} (h : c ∈ u.toText.toList) : Ordinary c := by
  rcases Uuid.mem_toText h with rfl | ⟨n, hn, rfl⟩
  · decide
  · exact ordinary_digit hn

end Json

end BlobVault
