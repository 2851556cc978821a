import BlobVault.Proofs.Storage.Publishing

/-!
# Folders and memory are alike

A folder and a shelf in memory that begin without objects cannot be told apart by what they answer,
whatever they are asked to store or to give back.

* `Storage.Errand` : something that a backend is asked for;
* `Storage.ideal` : a backend that is nothing but a map from references to objects;
* `Storage.perform_folder`, `Storage.perform_memory` : both do what the map does;
* `Storage.alike_performAll` : **both give the same answers; the files of the folder are the objects
  that were stored last; and of stores that take turns no part is ever seen.**
-/

namespace BlobVault

namespace Storage

open Folder (Objects Denotes Vacant)

/-- Something that a backend is asked for. -/
inductive Errand where
  | store (r : Ref) (content : Stream)
  | fetch (r : Ref)

/-- What comes of an errand: a fault, or, for a fetch, what reading the object to its end gives. -/
abbrev Outcome := Except Fault (Option (Except IoFault Bytes))

/-- Asks a backend for something. -/
def perform (st : Storage) (b : BackendId) : Errand → Outcome × Storage
  | .store r content => ((st.store b r content).1.map fun _ => none, (st.store b r content).2)
  | .fetch r => ((st.fetch b r).1.map fun s => some s.content, (st.fetch b r).2)

/-- Asks a backend for one thing after another. -/
def performAll (st : Storage) (b : BackendId) : List Errand → List Outcome × Storage
  | [] => ([], st)
  | e :: es =>
    let (outcome, st) := st.perform b e
    let (outcomes, st) := st.performAll b es
    (outcome :: outcomes, st)

/-- A backend that is nothing but a map. -/
def ideal (objects : Objects) : Errand → Outcome × Objects
  | .store r content =>
    match content.content with
    | .ok bs => (.ok none, Function.update objects r (some bs))
    | .error fault => (.error (.ofIo fault), objects)
  | .fetch r =>
    match objects r with
    | some bs => (.ok (some (.ok bs)), objects)
    | none => (.error (.notFound (.blob r)), objects)

/-- A map does one thing after another. -/
def idealAll (objects : Objects) : List Errand → List Outcome × Objects
  | [] => ([], objects)
  | e :: es =>
    let (outcome, objects) := ideal objects e
    let (outcomes, objects) := idealAll objects es
    (outcome :: outcomes, objects)

/-- The objects after an errand with an outcome: a store that succeeded has replaced one. -/
def noted (objects : Objects) : Errand × Outcome → Objects
  | (.store r content, .ok _) => Function.update objects r content.content.toOption
  | _ => objects

/-- What was stored last under each reference, of the stores that succeeded. -/
def latest (log : List (Errand × Outcome)) : Objects := log.foldl noted fun _ => none

theorem noted_ideal (objects : Objects) (e : Errand) :
    noted objects (e, (ideal objects e).1) = (ideal objects e).2 := by
  cases e with
  | store r content =>
    cases hcontent : content.content with
    | ok bs => simp only [ideal, hcontent, noted, Except.toOption]
    | error fault => simp only [ideal, hcontent, noted]
  | fetch r =>
    cases hobject : objects r with
    | some bs => simp only [ideal, hobject, noted]
    | none => simp only [ideal, hobject, noted]

theorem foldl_noted_idealAll (objects : Objects) (es : List Errand) :
    (es.zip (idealAll objects es).1).foldl noted objects = (idealAll objects es).2 := by
  induction es generalizing objects with
  | nil => rfl
  | cons e es ih =>
    simp only [idealAll, List.zip_cons_cons, List.foldl_cons, noted_ideal]
    exact ih _

/-- An object that is given is read to its end. -/
theorem read_ofBytes (bs : Bytes) :
    (Except.ok (Stream.ofBytes bs) : Except Fault Stream).map (fun s => some s.content) =
      .ok (some (.ok bs)) :=
  congrArg (fun content => Except.ok (some content)) (Stream.content_ofBytes bs)

variable {st : Storage} {b : BackendId} {root : Path} {cost : Nat} {objects : Objects}

/-! ### A folder does what the map does -/

/-- The backend is a folder whose tree denotes the objects; no upload is on its way. -/
structure Foldered (st : Storage) (b : BackendId) (root : Path) (cost : Nat) (objects : Objects) :
    Prop where
  backend : st.backend b = .folder root cost
  denotes : Denotes st.files root objects fun _ => none

theorem perform_folder (h : Foldered st b root cost objects) (e : Errand) :
    (st.perform b e).1 = (ideal objects e).1 ∧
      Foldered (st.perform b e).2 b root cost (ideal objects e).2 := by
  cases e with
  | store r content =>
    have hstore := Folder.store_of_denotes h.denotes r st.drawUuid.1 content
    rw [perform, store_folder h.backend]
    cases hcontent : content.content with
    | ok bs =>
      rw [hcontent] at hstore
      obtain ⟨files', hrun, hdenotes⟩ := hstore
      simp only [ideal, hcontent, hrun]
      exact ⟨rfl, h.backend, hdenotes⟩
    | error fault =>
      rw [hcontent] at hstore
      obtain ⟨files', hrun, hdenotes⟩ := hstore
      simp only [ideal, hcontent, hrun]
      exact ⟨rfl, h.backend, hdenotes⟩
  | fetch r =>
    have hfetch : st.fetch b r = (Folder.fetch st.files root r, st) := by
      simp only [Storage.fetch, answer, approach, trueAnswer, h.backend]
    rw [perform, hfetch, h.denotes.fetch r, ideal]
    cases objects r with
    | some bs => exact ⟨read_ofBytes bs, h⟩
    | none => exact ⟨rfl, h⟩

theorem performAll_folder (h : Foldered st b root cost objects) (es : List Errand) :
    (st.performAll b es).1 = (idealAll objects es).1 ∧
      Foldered (st.performAll b es).2 b root cost (idealAll objects es).2 := by
  induction es generalizing st objects with
  | nil => exact ⟨rfl, h⟩
  | cons e es ih =>
    obtain ⟨houtcome, hnext⟩ := perform_folder h e
    obtain ⟨houtcomes, hlast⟩ := ih hnext
    simp only [performAll, idealAll]
    exact ⟨by rw [houtcome, houtcomes], hlast⟩

/-! ### Memory does what the map does -/

/-- The backend is a shelf in memory with these objects. -/
def Shelved (st : Storage) (b : BackendId) (objects : Objects) : Prop :=
  ∃ shelf, st.backend b = .memory shelf ∧ ∀ r, shelf.raw? r = objects r

theorem shelved_setBackend {shelf : Shelf} (st : Storage) (b : BackendId)
    (h : ∀ r, shelf.raw? r = objects r) : Shelved (st.setBackend b (.memory shelf)) b objects :=
  ⟨shelf, by rw [backend_setBackend, if_pos rfl], h⟩

theorem store_memory {shelf : Shelf} (hb : st.backend b = .memory shelf) (r : Ref)
    (content : Stream) : st.store b r content =
      ((shelf.store r content).1, st.setBackend b (.memory (shelf.store r content).2)) := by
  rw [store, hb]

theorem fetch_memory {shelf : Shelf} (hb : st.backend b = .memory shelf) (r : Ref) :
    st.fetch b r = ((shelf.fetch r).1, st.setBackend b (.memory (shelf.fetch r).2)) := by
  rw [fetch, answer, approach, hb, trueAnswer, hb]

theorem perform_memory (h : Shelved st b objects) (e : Errand) :
    (st.perform b e).1 = (ideal objects e).1 ∧
      Shelved (st.perform b e).2 b (ideal objects e).2 := by
  obtain ⟨shelf, hb, hobjects⟩ := h
  cases e with
  | store r content =>
    have hraw := raw?_store shelf r content
    rw [perform, store_memory hb, ideal]
    cases hcontent : content.content with
    | ok bs =>
      have hanswer : (shelf.store r content).1 = .ok () := by rw [Shelf.store, hcontent]
      rw [hanswer] at hraw ⊢
      obtain ⟨bs', hbs, hraw⟩ := hraw
      obtain rfl := Except.ok.inj (hcontent.symm.trans hbs)
      refine ⟨rfl, shelved_setBackend st b fun r' => ?_⟩
      dsimp only
      rw [hraw, Function.update_apply, hobjects]
    | error fault =>
      have hstore : shelf.store r content = (.error (.ofIo fault), shelf) := by
        rw [Shelf.store, hcontent]
      rw [hstore]
      exact ⟨rfl, shelved_setBackend st b hobjects⟩
  | fetch r =>
    have hshelf : Shelved (st.setBackend b (.memory (shelf.fetch r).2)) b objects :=
      shelved_setBackend st b hobjects
    rw [perform, fetch_memory hb, ideal]
    rw [Shelf.fetch, hobjects r] at hshelf ⊢
    cases objects r with
    | some bs => exact ⟨read_ofBytes bs, hshelf⟩
    | none => exact ⟨rfl, hshelf⟩

theorem performAll_memory (h : Shelved st b objects) (es : List Errand) :
    (st.performAll b es).1 = (idealAll objects es).1 := by
  induction es generalizing st objects with
  | nil => rfl
  | cons e es ih =>
    obtain ⟨houtcome, hnext⟩ := perform_memory h e
    simp only [performAll, idealAll]
    rw [houtcome, ih hnext]

/-! ### Both are alike -/

/-- The answers of a folder are those of a memory, its files are the objects that were stored last,
and of stores in it that take turns only whole contents are seen. -/
structure Alike (st st' : Storage) (b b' : BackendId) (root : Path) (es : List Errand) : Prop where
  answers : (st.performAll b es).1 = (st'.performAll b' es).1
  files : ∀ path bs, (path, bs) ∈ (st.performAll b es).2.files.under root ↔
    ∃ r, root ++ path = Folder.pathOf root r ∧
      latest (es.zip (st.performAll b es).1) r = some bs
  races : ∀ {ι : Type} [DecidableEq ι] (rs : ι → Ref) (ids : ι → Uuid) (cs : ι → Stream),
    Function.Injective ids → ∀ (schedule : List ι) (r : Ref),
      let files := (Folder.turns (fun i => Folder.upload root (rs i) (ids i) (cs i))
        (st.performAll b es).2.files schedule).2
      files.fileAt? (Folder.pathOf root r) = latest (es.zip (st.performAll b es).1) r ∨
        ∃ i bs, rs i = r ∧ (cs i).content = .ok bs ∧
          files.fileAt? (Folder.pathOf root r) = some bs

/-- **A folder without files and an empty memory are alike.** -/
theorem alike_performAll {st st' : Storage} {b b' : BackendId} {root : Path} {cost cost' : Nat}
    (hb : st.backend b = .folder root cost) (hfiles : Vacant st.files root)
    (hb' : st'.backend b' = .memory (.empty cost')) (es : List Errand) :
    Alike st st' b b' root es := by
  obtain ⟨hfolder, hfoldered⟩ := performAll_folder ⟨hb, hfiles.denotes⟩ es
  have hmemory : (st'.performAll b' es).1 = (idealAll (fun _ => none) es).1 :=
    performAll_memory ⟨_, hb', fun _ => rfl⟩ es
  have hlatest : latest (es.zip (st.performAll b es).1) = (idealAll (fun _ => none) es).2 := by
    rw [hfolder]
    exact foldl_noted_idealAll _ es
  refine ⟨hfolder.trans hmemory.symm, fun path bs => ?_, fun rs ids cs hids schedule r => ?_⟩
  · rw [Files.mem_under, hfoldered.denotes.holds _ _ (List.prefix_append root path), hlatest]
    exact or_iff_left fun hdraft => by cases hdraft
  · rw [hlatest]
    exact Folder.fileAt?_turns hfoldered.denotes hids schedule r

namespace Pair

/-- A folder on a disk, and a memory beside it. -/
def storage : Storage :=
  ⟨(OrderedMap.empty.insert 0 (.folder ["disk"] 10)).insert 1 (.memory (.empty 20)),
    Files.empty.put ["disk"] .folder, ⟨0⟩⟩

/-- An object is stored and read; a store in its place fails; another object is missing. -/
def errands : List Errand :=
  [.store .descriptor [.bytes [1, 2], .bytes [3]],
    .store .descriptor [.bytes [4], .fail (.system 5)], .fetch .descriptor, .fetch (.ofContent [])]

theorem vacant : Vacant storage.files ["disk"] where
  way path hpath := by
    rcases List.prefix_cons_iff.1 hpath with rfl | ⟨rest, rfl, hrest⟩
    · rfl
    · obtain rfl := List.prefix_nil.1 hrest
      rfl
  empty path node _ hnode := by
    rw [storage, Files.get?_put] at hnode
    split at hnode
    · rename_i hpath
      exact ⟨hpath, (Option.some.inj hnode).symm⟩
    · cases hnode

end Pair

theorem alike_performAll_sample :
    Pair.storage.backend 0 = .folder ["disk"] 10 ∧ Vacant Pair.storage.files ["disk"] ∧
      Pair.storage.backend 1 = .memory (.empty 20) ∧
      Alike Pair.storage Pair.storage 0 1 ["disk"] Pair.errands :=
  ⟨rfl, Pair.vacant, rfl, alike_performAll rfl Pair.vacant rfl Pair.errands⟩

end Storage

end BlobVault
