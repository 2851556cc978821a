import BlobVault.Backend.Folder
import BlobVault.Proofs.Storage.Objects
import BlobVault.Proofs.Text.Uuid
import Mathlib.Logic.Function.Basic

/-!
# What a folder denotes

The files under the root of a folder are the objects that it keeps and the temporary files of the
uploads that are on their way, and nothing else.

* `Folder.Denotes` : the objects and the temporary files that the tree under a root stands for;
* `Folder.Denotes.createFolders`, `create`, `append`, `rename`, `remove` : **no operation of an
  upload is refused, and each does to what the tree denotes what its name says**;
* `Folder.tempOf_injective` : two uploads have different temporary files.
-/

namespace BlobVault

namespace Files

theorem get?_put (files : Files) (path other : Path) (node : Node) :
    (files.put path node).nodes.get? other =
      if other = path then some node else files.nodes.get? other := by
  rw [put, OrderedMap.get?_insert]
  simp only [Std.LawfulEqCmp.compare_eq_iff_eq]

theorem get?_drop (files : Files) (path other : Path) :
    (files.drop path).nodes.get? other =
      if other = path then none else files.nodes.get? other := by
  rw [drop, OrderedMap.get?_erase]
  simp only [Std.LawfulEqCmp.compare_eq_iff_eq]

theorem look?_of_ne_nil {files : Files} {path : Path} (h : path ≠ []) :
    files.look? path = files.nodes.get? path := if_neg h

/-- The files under a folder are those whose paths begin with its path. -/
theorem mem_under {files : Files} {folder path : Path} {bs : Bytes} :
    (path, bs) ∈ files.under folder ↔ files.nodes.get? (folder ++ path) = some (.file bs) := by
  rw [← OrderedMap.mem_entries, under, List.mem_filterMap]
  constructor
  · rintro ⟨⟨path', node⟩, hmem, h⟩
    cases node with
    | folder => cases h
    | file content =>
      dsimp only at h
      split at h
      · rename_i hbegins
        obtain ⟨rest, rfl⟩ := List.isPrefixOf_iff_prefix.1 hbegins
        rw [List.drop_left] at h
        obtain ⟨rfl, rfl⟩ := Prod.mk.inj (Option.some.inj h)
        exact hmem
      · cases h
  · intro hmem
    have hbegins : folder.isPrefixOf (folder ++ path) = true :=
      List.isPrefixOf_iff_prefix.2 (List.prefix_append folder path)
    exact ⟨_, hmem, by simp [hbegins]⟩

/-- Folders are not lost. -/
def KeepsFolders (files files' : Files) : Prop :=
  ∀ path, files.look? path = some .folder → files'.look? path = some .folder

theorem KeepsFolders.trans {files files' files'' : Files} (h : KeepsFolders files files')
    (h' : KeepsFolders files' files'') : KeepsFolders files files'' :=
  fun path hpath => h' path (h path hpath)

theorem keepsFolders_putFolder (files : Files) (path : Path) :
    KeepsFolders files (files.putFolder path) := by
  intro other hother
  rw [look?_putFolder]
  split
  · rfl
  · exact hother

/-- A file may be put where no folder is. -/
theorem keepsFolders_put {files : Files} {path : Path} {bs : Bytes}
    (h : files.look? path ≠ some .folder) : KeepsFolders files (files.put path (.file bs)) := by
  intro other hother
  have hne : other ≠ path := by
    rintro rfl
    exact h hother
  rwa [look?_put_of_ne hne]

theorem keepsFolders_drop {files : Files} {path : Path} (h : files.look? path ≠ some .folder) :
    KeepsFolders files (files.drop path) := by
  intro other hother
  have hne : other ≠ path := by
    rintro rfl
    exact h hother
  rwa [look?_drop_of_ne hne]

end Files

namespace Folder

variable {root : Path} {r : Ref} {id : Uuid}

/-! ### Where things are -/

/-- The folder of an object. -/
def shelfOf (root : Path) (r : Ref) : Path :=
  root ++ ["blobs", String.ofList (r.toHex.toList.take 2)]

theorem dropLast_pathOf (root : Path) (r : Ref) : (pathOf root r).dropLast = shelfOf root r := by
  simp [pathOf, shelfOf]

theorem dropLast_tempOf (root : Path) (r : Ref) (id : Uuid) :
    (tempOf root r id).dropLast = shelfOf root r := by
  rw [tempOf, dropLast_pathOf, List.dropLast_concat]

theorem length_pathOf (root : Path) (r : Ref) : (pathOf root r).length = root.length + 3 := by
  simp [pathOf]

theorem length_shelfOf (root : Path) (r : Ref) : (shelfOf root r).length = root.length + 2 := by
  simp [shelfOf]

theorem length_tempOf (root : Path) (r : Ref) (id : Uuid) :
    (tempOf root r id).length = root.length + 3 := by
  rw [tempOf, dropLast_pathOf, List.length_append, length_shelfOf]
  rfl

theorem prefix_pathOf (root : Path) (r : Ref) : root <+: pathOf root r := List.prefix_append _ _

theorem prefix_tempOf (root : Path) (r : Ref) (id : Uuid) : root <+: tempOf root r id := by
  rw [tempOf, dropLast_pathOf, shelfOf, List.append_assoc]
  exact List.prefix_append _ _

/-- Two uploads with different identifiers have different temporary files. -/
theorem tempOf_injective {r' : Ref} {id' : Uuid} (h : tempOf root r id = tempOf root r' id') :
    id = id' := by
  have hlast := congrArg List.getLast? h
  rw [getLast?_tempOf, getLast?_tempOf] at hlast
  have hchars := congrArg String.toList (Option.some.inj hlast)
  simp only [String.toList_append] at hchars
  have hlen : (".".toList ++ r.toHex.toList ++ tempMark.toList).length =
      (".".toList ++ r'.toHex.toList ++ tempMark.toList).length := by
    simp only [List.length_append, String.length_toList, Ref.length_toHex]
  exact Uuid.toText_injective (String.toList_inj.1 (List.append_inj hchars hlen).2)

/-! ### What a tree denotes -/

/-- The objects that a folder keeps. -/
abbrev Objects := Ref → Option Bytes

/-- The temporary files of uploads, by their paths. -/
abbrev Drafts := Path → Option Bytes

/-- The tree under the root holds these objects and these temporary files, in their places, and no
other files; and the way to the root is open. -/
structure Denotes (files : Files) (root : Path) (objects : Objects) (drafts : Drafts) : Prop where
  way : ∀ path, path <+: root → files.fileAt? path = none
  holds : ∀ path bs, root <+: path → (files.nodes.get? path = some (.file bs) ↔
    (∃ r, path = pathOf root r ∧ objects r = some bs) ∨ drafts path = some bs)
  shallow : ∀ path, root <+: path → files.nodes.get? path = some .folder →
    path.length ≤ root.length + 2
  named : ∀ path bs, drafts path = some bs → ∃ r id, path = tempOf root r id

namespace Denotes

variable {files files' : Files} {objects objects' : Objects} {drafts drafts' : Drafts}
  {path : Path} {bs : Bytes}

theorem length_of_file (h : Denotes files root objects drafts) (hpath : root <+: path)
    (hfile : files.nodes.get? path = some (.file bs)) : path.length = root.length + 3 := by
  rcases (h.holds path bs hpath).1 hfile with ⟨r, rfl, -⟩ | hdraft
  · exact length_pathOf root r
  · obtain ⟨r, id, rfl⟩ := h.named path bs hdraft
    exact length_tempOf root r id

/-- No file is in the way to an object. -/
theorem fileAt?_of_prefix (h : Denotes files root objects drafts)
    (hpath : path <+: shelfOf root r) : files.fileAt? path = none := by
  rcases List.prefix_or_prefix_of_prefix hpath (List.prefix_append root _) with hroot | hroot
  · exact h.way path hroot
  · cases hfile : files.fileAt? path with
    | none => rfl
    | some bs =>
      have hlook := Files.fileAt?_eq_some.1 hfile
      rw [Files.look?_of_ne_nil (Files.ne_nil_of_fileAt? hfile)] at hlook
      have hlength := h.length_of_file hroot hlook
      have hbound := hpath.length_le
      rw [length_shelfOf] at hbound
      omega

/-- Nothing as deep as the objects is a folder. -/
theorem look?_ne_folder (h : Denotes files root objects drafts) (hpath : root <+: path)
    (hlength : path.length = root.length + 3) : files.look? path ≠ some .folder := by
  have hne : path ≠ [] := by
    rintro rfl
    cases hlength
  rw [Files.look?_of_ne_nil hne]
  intro hfolder
  have := h.shallow path hpath hfolder
  omega

theorem pathOf_ne_draft (h : Denotes files root objects drafts) (hdraft : drafts path = some bs)
    (r : Ref) : path ≠ pathOf root r := by
  obtain ⟨r', id, rfl⟩ := h.named path bs hdraft
  exact (pathOf_ne_tempOf root root r' r id).symm

theorem fileAt?_pathOf (h : Denotes files root objects drafts) (r : Ref) :
    files.fileAt? (pathOf root r) = objects r := by
  have hne : pathOf root r ≠ [] := by simp [pathOf]
  ext bs
  rw [Files.fileAt?_eq_some, Files.look?_of_ne_nil hne, h.holds _ _ (prefix_pathOf root r)]
  constructor
  · rintro (⟨r', hr', hobject⟩ | hdraft)
    · rw [(pathOf_injective hr').2]
      exact hobject
    · exact absurd rfl (h.pathOf_ne_draft hdraft r)
  · exact fun hobject => .inl ⟨r, rfl, hobject⟩

theorem fileAt?_tempOf (h : Denotes files root objects drafts) (r : Ref) (id : Uuid) :
    files.fileAt? (tempOf root r id) = drafts (tempOf root r id) := by
  have hne : tempOf root r id ≠ [] := by simp [tempOf]
  ext bs
  rw [Files.fileAt?_eq_some, Files.look?_of_ne_nil hne, h.holds _ _ (prefix_tempOf root r id)]
  constructor
  · rintro (⟨r', hr', -⟩ | hdraft)
    · exact absurd hr'.symm (pathOf_ne_tempOf root root r r' id)
    · exact hdraft
  · exact .inr

/-! ### Changes of the tree -/

/-- A folder stands where nothing stood, no deeper than the folders of objects. -/
theorem putFolder (h : Denotes files root objects drafts)
    (hlength : path.length ≤ root.length + 2) :
    Denotes (files.putFolder path) root objects drafts := by
  have hget : ∀ other, (files.putFolder path).nodes.get? other = files.nodes.get? other ∨
      other = path ∧ files.nodes.get? other = none ∧
        (files.putFolder path).nodes.get? other = some .folder := by
    intro other
    unfold Files.putFolder
    cases hlook : files.look? path with
    | some node => exact .inl rfl
    | none =>
      have hne : path ≠ [] := by
        rintro rfl
        cases hlook
      dsimp only
      rw [Files.get?_put]
      split
      · rename_i heq
        subst heq
        rw [Files.look?_of_ne_nil hne] at hlook
        exact .inr ⟨rfl, hlook, rfl⟩
      · exact .inl rfl
  refine ⟨fun other hother => ?_, fun other bs hother => ?_, fun other hother hfolder => ?_,
    h.named⟩
  · rw [Files.fileAt?_putFolder, h.way other hother]
  · rw [← h.holds other bs hother]
    rcases hget other with hsame | ⟨-, hnone, hfolder⟩
    · rw [hsame]
    · rw [hnone, hfolder]
      simp
  · rcases hget other with hsame | ⟨rfl, -, -⟩
    · rw [hsame] at hfolder
      exact h.shallow other hother hfolder
    · exact hlength

theorem foldl_putFolder (h : Denotes files root objects drafts) {paths : List Path}
    (hpaths : ∀ path ∈ paths, path.length ≤ root.length + 2) :
    Denotes (paths.foldl Files.putFolder files) root objects drafts ∧
      Files.KeepsFolders files (paths.foldl Files.putFolder files) := by
  induction paths generalizing files with
  | nil => exact ⟨h, fun _ hpath => hpath⟩
  | cons path paths ih =>
    obtain ⟨hpath, hpaths⟩ := List.forall_mem_cons.1 hpaths
    obtain ⟨hdenotes, hkeeps⟩ := ih (h.putFolder hpath) hpaths
    exact ⟨hdenotes, (Files.keepsFolders_putFolder files path).trans hkeeps⟩

/-- One path changes, as deep as the objects, and what the tree denotes changes there alone. -/
theorem of_change (h : Denotes files root objects drafts) (hpath : root <+: path)
    (hlength : path.length = root.length + 3)
    (hget : ∀ other, other ≠ path → files'.nodes.get? other = files.nodes.get? other)
    (hfolder : files'.nodes.get? path ≠ some .folder)
    (hself : ∀ bs, files'.nodes.get? path = some (.file bs) ↔
      (∃ r, path = pathOf root r ∧ objects' r = some bs) ∨ drafts' path = some bs)
    (hothers : ∀ other bs, other ≠ path →
      ((∃ r, other = pathOf root r ∧ objects' r = some bs) ∨ drafts' other = some bs ↔
        (∃ r, other = pathOf root r ∧ objects r = some bs) ∨ drafts other = some bs))
    (hnamed : ∀ other bs, drafts' other = some bs → ∃ r id, other = tempOf root r id) :
    Denotes files' root objects' drafts' := by
  refine ⟨fun other hother => ?_, fun other bs hother => ?_, fun other hother hother' => ?_,
    hnamed⟩
  · have hne : other ≠ path := by
      rintro rfl
      have := hother.length_le
      omega
    rw [← h.way other hother]
    refine Files.fileAt?_eq_of_look? ?_
    rw [Files.look?, Files.look?, hget other hne]
  · by_cases hne : other = path
    · rw [hne]
      exact hself bs
    · rw [hget other hne, h.holds other bs hother]
      exact (hothers other bs hne).symm
  · by_cases hne : other = path
    · exact absurd (hne ▸ hother') hfolder
    · rw [hget other hne] at hother'
      exact h.shallow other hother hother'

/-- A temporary file is all that changes. -/
theorem changeDraft (h : Denotes files root objects drafts) (r : Ref) (id : Uuid)
    (held? : Option Bytes) (hget : ∀ other, files'.nodes.get? other =
      if other = tempOf root r id then held?.map .file else files.nodes.get? other) :
    Denotes files' root objects (Function.update drafts (tempOf root r id) held?) := by
  have hself : files'.nodes.get? (tempOf root r id) = held?.map .file := by
    rw [hget, if_pos rfl]
  refine h.of_change (prefix_tempOf root r id) (length_tempOf root r id) (fun other hne => ?_) ?_
    (fun bs => ?_) (fun other bs hne => ?_) fun other bs hdraft => ?_
  · rw [hget, if_neg hne]
  · rw [hself]
    cases held? with
    | none => exact Option.some_ne_none _ ∘ Eq.symm
    | some bs => simp
  · have hno : ∀ r', tempOf root r id ≠ pathOf root r' := fun r' =>
      (pathOf_ne_tempOf root root r r' id).symm
    rw [hself]
    cases held? with
    | none => simp [hno]
    | some bs' => simp [hno]
  · rw [Function.update_of_ne hne]
  · by_cases hne : other = tempOf root r id
    · exact ⟨r, id, hne⟩
    · rw [Function.update_of_ne hne] at hdraft
      exact h.named other bs hdraft

theorem putDraft (h : Denotes files root objects drafts) (r : Ref) (id : Uuid) (bs : Bytes) :
    Denotes (files.put (tempOf root r id) (.file bs)) root objects
      (Function.update drafts (tempOf root r id) (some bs)) :=
  h.changeDraft r id (some bs) fun other => Files.get?_put files _ other _

theorem dropDraft (h : Denotes files root objects drafts) (r : Ref) (id : Uuid) :
    Denotes (files.drop (tempOf root r id)) root objects
      (Function.update drafts (tempOf root r id) none) :=
  h.changeDraft r id none fun other => Files.get?_drop files _ other

theorem putObject (h : Denotes files root objects drafts) (r : Ref) (bs : Bytes) :
    Denotes (files.put (pathOf root r) (.file bs)) root (Function.update objects r (some bs))
      drafts := by
  refine h.of_change (prefix_pathOf root r) (length_pathOf root r) (fun other hne => ?_) ?_
    (fun bs' => ?_) (fun other bs' hne => ?_) h.named
  · rw [Files.get?_put, if_neg hne]
  · rw [Files.get?_put, if_pos rfl]
    simp
  · have hno : drafts (pathOf root r) ≠ some bs' := fun hdraft => h.pathOf_ne_draft hdraft r rfl
    rw [Files.get?_put, if_pos rfl]
    constructor
    · intro hbs
      refine .inl ⟨r, rfl, ?_⟩
      rw [Function.update_self]
      simpa using hbs
    · rintro (⟨r', hr', hobject⟩ | hdraft)
      · obtain rfl := (pathOf_injective hr').2
        rw [Function.update_self] at hobject
        simpa using hobject
      · exact absurd hdraft hno
  · refine or_congr_left (exists_congr fun r' => and_congr_right fun hr' => ?_)
    rw [Function.update_of_ne (by rintro rfl; exact hne hr')]

/-! ### The operations of an upload -/

theorem look?_tempOf (h : Denotes files root objects drafts) (r : Ref) (id : Uuid) :
    files.look? (tempOf root r id) = (drafts (tempOf root r id)).map .file := by
  have hfolder := h.look?_ne_folder (prefix_tempOf root r id) (length_tempOf root r id)
  rw [← h.fileAt?_tempOf r id, Files.fileAt?]
  cases hlook : files.look? (tempOf root r id) with
  | none => rfl
  | some node =>
    cases node with
    | folder => exact absurd hlook hfolder
    | file content => rfl

/-- No file is in the way to anything in the folder of an object. -/
theorem blocked_eq_false (h : Denotes files root objects drafts) {path : Path} (r : Ref)
    (hpath : ∀ above ∈ path.above, above <+: shelfOf root r) : files.blocked path = false := by
  rw [Files.blocked, List.any_eq_false]
  intro above habove
  split
  · rename_i bs hfile
    have hnone := h.fileAt?_of_prefix (hpath above habove)
    rw [Files.fileAt?_eq_some.2 hfile] at hnone
    cases hnone
  · exact Bool.false_ne_true

theorem prefix_of_mem_above {above path : Path} (h : above ∈ path.above) : above <+: path := by
  obtain ⟨n, -, rfl⟩ := List.mem_map.1 h
  exact List.take_prefix n path

/-- The folder of an object is made, if it is not there. -/
theorem createFolders (h : Denotes files root objects drafts) (r : Ref) :
    ∃ files', files.createFolders (shelfOf root r) = .ok files' ∧
      Denotes files' root objects drafts ∧ Files.KeepsFolders files files' ∧
      files'.look? (shelfOf root r) = some .folder := by
  have hnotFile : ∀ {files}, Denotes files root objects drafts → ∀ bs,
      files.look? (shelfOf root r) ≠ some (.file bs) := fun h bs hfile => by
    have hnone := h.fileAt?_of_prefix (List.prefix_refl (shelfOf root r))
    rw [Files.fileAt?_eq_some.2 hfile] at hnone
    cases hnone
  have hblocked : files.blocked (shelfOf root r) = false :=
    h.blocked_eq_false r fun _ => prefix_of_mem_above
  have hlengths : ∀ path ∈ (shelfOf root r).above, path.length ≤ root.length + 2 := by
    intro path hpath
    rw [← length_shelfOf root r]
    exact (prefix_of_mem_above hpath).length_le
  obtain ⟨habove, hkeeps⟩ := h.foldl_putFolder hlengths
  refine ⟨((shelfOf root r).above.foldl Files.putFolder files).putFolder (shelfOf root r), ?_,
    habove.putFolder (Nat.le_of_eq (length_shelfOf root r)),
    hkeeps.trans (Files.keepsFolders_putFolder _ _), ?_⟩
  · rw [Files.createFolders, if_neg (by rw [hblocked]; exact Bool.false_ne_true),
      List.foldl_append]
    split
    · rename_i bs hfile
      exact absurd hfile (hnotFile h bs)
    · rfl
  · rw [Files.look?_putFolder]
    split
    · rfl
    · rename_i hsome
      cases hlook : ((shelfOf root r).above.foldl Files.putFolder files).look? (shelfOf root r) with
      | none => exact absurd ⟨rfl, hlook⟩ hsome
      | some node =>
        cases node with
        | folder => rfl
        | file bs => exact absurd hlook (hnotFile habove bs)

/-- An empty temporary file is made in a folder that is there. -/
theorem create (h : Denotes files root objects drafts) {r : Ref}
    (hfolder : files.look? (shelfOf root r) = some .folder) (id : Uuid) :
    files.create (tempOf root r id) = .ok (files.put (tempOf root r id) (.file [])) := by
  have hparent : files.resolve (tempOf root r id).dropLast = .ok .folder := by
    rw [dropLast_tempOf]
    exact Files.resolve_eq_ok.2 hfolder
  rw [Files.create, h.look?_tempOf]
  cases drafts (tempOf root r id) with
  | some bs => rfl
  | none => simp only [Option.map_none, hparent]

theorem append (h : Denotes files root objects drafts) {held : Bytes}
    (hheld : drafts (tempOf root r id) = some held) (bs : Bytes) :
    files.append (tempOf root r id) bs = files.put (tempOf root r id) (.file (held ++ bs)) := by
  refine Files.append_eq_put ?_ bs
  rw [h.fileAt?_tempOf, hheld]

/-- A temporary file takes the place of the object. -/
theorem rename (h : Denotes files root objects drafts) {held : Bytes}
    (hheld : drafts (tempOf root r id) = some held) :
    files.rename (tempOf root r id) (pathOf root r) =
      .ok ((files.drop (tempOf root r id)).put (pathOf root r) (.file held)) := by
  have hsource : files.resolve (tempOf root r id) = .ok (.file held) := by
    rw [Files.resolve_eq_ok, h.look?_tempOf, hheld, Option.map_some]
  have htarget := h.look?_ne_folder (prefix_pathOf root r) (length_pathOf root r)
  rw [Files.rename, hsource]
  dsimp only
  split
  · rename_i hfolder
    exact absurd hfolder htarget
  · rfl

theorem remove (h : Denotes files root objects drafts) {held : Bytes}
    (hheld : drafts (tempOf root r id) = some held) :
    files.remove (tempOf root r id) = .ok (files.drop (tempOf root r id)) := by
  have hsource : files.resolve (tempOf root r id) = .ok (.file held) := by
    rw [Files.resolve_eq_ok, h.look?_tempOf, hheld, Option.map_some]
  rw [Files.remove, hsource]

/-! ### Reading -/

/-- What is read is the object, and what is not there is missing. -/
theorem fetch (h : Denotes files root objects drafts) (r : Ref) :
    Folder.fetch files root r = match objects r with
      | some bs => .ok (.ofBytes bs)
      | none => .error (.notFound (.blob r)) := by
  have hobject := h.fileAt?_pathOf r
  rw [Folder.fetch, Files.resolve]
  cases hlook : files.look? (pathOf root r) with
  | some node =>
    cases node with
    | folder =>
      exact absurd hlook (h.look?_ne_folder (prefix_pathOf root r) (length_pathOf root r))
    | file bs =>
      rw [Files.fileAt?_eq_some.2 hlook] at hobject
      rw [← hobject]
  | none =>
    have hblocked : files.blocked (pathOf root r) = false := by
      refine h.blocked_eq_false r fun above habove => ?_
      obtain ⟨n, hn, rfl⟩ := List.mem_map.1 habove
      have hshelf : pathOf root r = shelfOf root r ++ [r.toHex] := by
        simp [pathOf, shelfOf]
      rw [List.mem_range, length_pathOf] at hn
      rw [hshelf, List.take_append_of_le_length (by rw [length_shelfOf]; omega)]
      exact List.take_prefix n _
    rw [Files.fileAt?, hlook] at hobject
    rw [← hobject, hblocked]
    rfl

end Denotes

/-- Nothing is under the root, and the way to it is open. -/
structure Vacant (files : Files) (root : Path) : Prop where
  way : ∀ path, path <+: root → files.fileAt? path = none
  empty : ∀ path node, root <+: path → files.nodes.get? path = some node →
    path = root ∧ node = .folder

theorem Vacant.denotes {files : Files} (h : Vacant files root) :
    Denotes files root (fun _ => none) fun _ => none := by
  refine ⟨h.way, fun path bs hpath => iff_of_false (fun hfile => ?_) ?_,
    fun path hpath hfolder => ?_, fun path bs hdraft => by cases hdraft⟩
  · cases (h.empty path _ hpath hfile).2
  · rintro (⟨r, -, hobject⟩ | hdraft)
    · cases hobject
    · cases hdraft
  · rw [(h.empty path _ hpath hfolder).1]
    omega

end Folder

end BlobVault
