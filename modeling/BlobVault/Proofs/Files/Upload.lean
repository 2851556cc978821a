import BlobVault.Files.Upload
import BlobVault.Proofs.OrderedMap

/-!
# What an upload leaves behind

An upload touches two files, its target and its temporary file.  If it succeeds, the target has the
whole content of the stream; if it fails, the target is what it was.

* `Files.fileAt?` : the content of the file at a path;
* `Files.fileAt?_createFolders` : making folders changes no file;
* `Upload.run_start` : the outcome of a whole upload;
* `Upload.fileAt?_temp_run_start` : no temporary file is left over;
* `Upload.run_start_of_fault` : an upload is refused whatever its content is, or fails with its
  content.
-/

namespace BlobVault

namespace Files

/-- The content of the file at a path, if there is a file. -/
def fileAt? (files : Files) (path : Path) : Option Bytes :=
  match files.look? path with
  | some (.file content) => some content
  | _ => none

theorem fileAt?_eq_some {files : Files} {path : Path} {content : Bytes} :
    files.fileAt? path = some content ↔ files.look? path = some (.file content) := by
  unfold fileAt?
  split <;> simp_all

theorem fileAt?_eq_of_look? {files files' : Files} {path path' : Path}
    (h : files.look? path = files'.look? path') : files.fileAt? path = files'.fileAt? path' := by
  rw [fileAt?, fileAt?, h]

theorem look?_put (files : Files) (path other : Path) (node : Node) :
    (files.put path node).look? other =
      if other = [] then some .folder else if other = path then some node
      else files.look? other := by
  by_cases h : other = [] <;> simp [look?, put, h, OrderedMap.get?_insert]

theorem look?_drop (files : Files) (path other : Path) :
    (files.drop path).look? other =
      if other = [] then some .folder else if other = path then none else files.look? other := by
  by_cases h : other = [] <;> simp [look?, drop, h, OrderedMap.get?_erase]

theorem look?_put_of_ne {files : Files} {path other : Path} {node : Node} (h : other ≠ path) :
    (files.put path node).look? other = files.look? other := by
  rw [look?_put, if_neg h]
  by_cases ho : other = [] <;> simp [look?, ho]

theorem look?_drop_of_ne {files : Files} {path other : Path} (h : other ≠ path) :
    (files.drop path).look? other = files.look? other := by
  rw [look?_drop, if_neg h]
  by_cases ho : other = [] <;> simp [look?, ho]

theorem fileAt?_put_self {files : Files} {path : Path} {content : Bytes} (h : path ≠ []) :
    (files.put path (.file content)).fileAt? path = some content := by
  rw [fileAt?_eq_some, look?_put, if_neg h, if_pos rfl]

theorem fileAt?_put_of_ne {files : Files} {path other : Path} {node : Node} (h : other ≠ path) :
    (files.put path node).fileAt? other = files.fileAt? other :=
  fileAt?_eq_of_look? (look?_put_of_ne h)

theorem fileAt?_drop_of_ne {files : Files} {path other : Path} (h : other ≠ path) :
    (files.drop path).fileAt? other = files.fileAt? other :=
  fileAt?_eq_of_look? (look?_drop_of_ne h)

theorem fileAt?_drop_self (files : Files) (path : Path) : (files.drop path).fileAt? path = none := by
  rw [fileAt?, look?_drop]
  by_cases h : path = [] <;> simp [h]

/-- A new folder stands where nothing stood. -/
theorem look?_putFolder (files : Files) (path other : Path) :
    (files.putFolder path).look? other =
      if other = path ∧ files.look? path = none then some .folder else files.look? other := by
  unfold putFolder
  cases h : files.look? path with
  | some node => simp
  | none =>
    rw [look?_put]
    by_cases ho : other = path
    · simp [ho]
    · by_cases hn : other = [] <;> simp [ho, hn, look?]

theorem fileAt?_putFolder (files : Files) (path other : Path) :
    (files.putFolder path).fileAt? other = files.fileAt? other := by
  by_cases h : other = path ∧ files.look? path = none
  · rw [fileAt?, look?_putFolder, if_pos h, fileAt?, h.1, h.2]
  · exact fileAt?_eq_of_look? (by rw [look?_putFolder, if_neg h])

theorem fileAt?_foldl_putFolder (files : Files) (paths : List Path) (other : Path) :
    (paths.foldl putFolder files).fileAt? other = files.fileAt? other := by
  induction paths generalizing files with
  | nil => rfl
  | cons path paths ih => rw [List.foldl_cons, ih, fileAt?_putFolder]

/-- Making folders changes no file. -/
theorem fileAt?_createFolders {files files' : Files} {path : Path}
    (h : files.createFolders path = .ok files') (other : Path) :
    files'.fileAt? other = files.fileAt? other := by
  unfold createFolders at h
  split at h
  · cases h
  · split at h
    · cases h
    · obtain rfl := Except.ok.inj h
      exact fileAt?_foldl_putFolder _ _ _

/-- A file that was made is empty, and no other has changed. -/
theorem fileAt?_create {files files' : Files} {path : Path} (h : files.create path = .ok files') :
    files' = files.put path (.file []) ∧ path ≠ [] := by
  have hne : path ≠ [] := by
    rintro rfl
    simp [create, look?] at h
  unfold create at h
  split at h
  · cases h
  · exact ⟨(Except.ok.inj h).symm, hne⟩
  · split at h
    · exact ⟨(Except.ok.inj h).symm, hne⟩
    · cases h
    · cases h

theorem append_eq_put {files : Files} {path : Path} {content : Bytes}
    (h : files.fileAt? path = some content) (bs : Bytes) :
    files.append path bs = files.put path (.file (content ++ bs)) := by
  rw [append, fileAt?_eq_some.1 h]

theorem ne_nil_of_fileAt? {files : Files} {path : Path} {content : Bytes}
    (h : files.fileAt? path = some content) : path ≠ [] := by
  rintro rfl
  simp [fileAt?, look?] at h

theorem resolve_eq_ok {files : Files} {path : Path} {node : Node} :
    files.resolve path = .ok node ↔ files.look? path = some node := by
  unfold resolve
  cases files.look? path <;> simp

theorem rename_eq_ok {files files' : Files} {source target : Path}
    (h : files.rename source target = .ok files') :
    ∃ node, files' = (files.drop source).put target node := by
  unfold rename at h
  split at h
  · cases h
  · rename_i node _
    split at h
    · cases h
    · exact ⟨node, (Except.ok.inj h).symm⟩

/-- A file that was moved is at its new place. -/
theorem fileAt?_rename {files files' : Files} {source target : Path} {content : Bytes}
    (hs : files.fileAt? source = some content) (h : files.rename source target = .ok files') :
    files' = (files.drop source).put target (.file content) ∧ target ≠ [] := by
  have hres := resolve_eq_ok.2 (fileAt?_eq_some.1 hs)
  have hne : target ≠ [] := by
    rintro rfl
    simp [rename, hres, look?] at h
  simp only [rename, hres] at h
  split at h
  · cases h
  · exact ⟨(Except.ok.inj h).symm, hne⟩

end Files

namespace Stream

/-- The content of a stream whose first piece is not the end of the file. -/
theorem content_cons_bytes {bs : Bytes} (h : bs.isEmpty = false) (rest : Stream) :
    content (.bytes bs :: rest) = match content rest with
      | .ok more => .ok (bs ++ more)
      | .error fault => .error fault := by
  simp only [content, drain, h, Bool.false_eq_true, if_false]
  cases (drain rest).fault? <;> rfl

end Stream

namespace Upload

variable {target temp : Path}

/-- The outcome of an upload, given the files before it: only its two files have changed; if it
succeeded, the content of the target is as wished, and if it failed, the target has not changed. -/
def Lands (target temp : Path) (files : Files) (wished : Bytes → Prop)
    (result : Except IoFault Unit × Files) : Prop :=
  (∀ path, path ≠ temp → path ≠ target → result.2.fileAt? path = files.fileAt? path) ∧
    match result.1 with
    | .ok () => ∃ content, wished content ∧ result.2.fileAt? target = some content
    | .error _ => result.2.fileAt? target = files.fileAt? target

theorem Lands.trans {files files' : Files} {wished wished' : Bytes → Prop}
    {result : Except IoFault Unit × Files} (h : Lands target temp files' wished result)
    (hsame : ∀ path, path ≠ temp → files'.fileAt? path = files.fileAt? path)
    (htemp : target ≠ temp) (himp : ∀ content, wished content → wished' content) :
    Lands target temp files wished' result := by
  refine ⟨fun path hp ht => (h.1 path hp ht).trans (hsame path hp), ?_⟩
  have h2 := h.2
  split at h2
  · obtain ⟨content, hw, hc⟩ := h2
    exact ⟨content, himp content hw, hc⟩
  · exact h2.trans (hsame target htemp)

theorem run_of_outcome? {u : Upload} {r : Except IoFault Unit}
    (h : u.phase.outcome? = some r) (files : Files) : u.run files = (r, files) := by
  rw [run]
  split
  · rename_i o ho
    rw [h] at ho
    rw [Option.some.inj ho]
  · rename_i ho
    rw [h] at ho
    cases ho

theorem run_step {u : Upload} (h : u.phase.outcome? = none) (files : Files) :
    u.run files = (u.step files).1.run (u.step files).2 := by
  rw [run]
  split
  · rename_i o ho
    rw [h] at ho
    cases ho
  · rfl

theorem run_discarding (htemp : target ≠ temp) (fault : IoFault) (files : Files)
    (wished : Bytes → Prop) :
    Lands target temp files wished ((⟨target, temp, .discarding fault⟩ : Upload).run files) := by
  rw [run_step rfl, run_of_outcome? (r := .error fault) rfl]
  have hsame : ∀ path, path ≠ temp →
      ((⟨target, temp, .discarding fault⟩ : Upload).step files).2.fileAt? path
        = files.fileAt? path := by
    intro path hp
    simp only [step, advance, Files.remove]
    cases files.resolve temp with
    | error refusal => rfl
    | ok node =>
      cases node with
      | folder => rfl
      | file content => exact Files.fileAt?_drop_of_ne hp
  exact ⟨fun path hp _ => hsame path hp, hsame target htemp⟩

theorem run_publishing (htemp : target ≠ temp) {files : Files} {content : Bytes}
    (hc : files.fileAt? temp = some content) :
    Lands target temp files (· = content)
      ((⟨target, temp, .publishing⟩ : Upload).run files) := by
  rw [run_step rfl]
  cases hr : files.rename temp target with
  | error refusal =>
    have hstep : (⟨target, temp, .publishing⟩ : Upload).step files
        = (⟨target, temp, .discarding refusal.fault⟩, files) := by
      simp [step, advance, after, hr]
    -- the file could not be moved, so the target is as it was
    rw [hstep]
    exact run_discarding htemp _ _ _
  | ok files' =>
    have hstep : (⟨target, temp, .publishing⟩ : Upload).step files
        = (⟨target, temp, .finished (.ok ())⟩, files') := by
      simp [step, advance, after, hr]
    obtain ⟨rfl, hne⟩ := Files.fileAt?_rename hc hr
    rw [hstep, run_of_outcome? (r := .ok ()) rfl]
    refine ⟨fun path hp ht => ?_, content, rfl, Files.fileAt?_put_self hne⟩
    rw [Files.fileAt?_put_of_ne ht, Files.fileAt?_drop_of_ne hp]

/-- What has been copied is kept, and the rest of the stream is added to it. -/
theorem run_copying (htemp : target ≠ temp) (rest : Stream) {files : Files} {copied : Bytes}
    (hc : files.fileAt? temp = some copied) :
    Lands target temp files (fun content => ∃ more, rest.content = .ok more ∧
        content = copied ++ more)
      ((⟨target, temp, .copying rest⟩ : Upload).run files) := by
  induction rest generalizing files copied with
  | nil =>
    -- the end of the stream: the file is synced and published
    rw [run_step rfl, run_step rfl]
    exact (run_publishing htemp hc).trans (fun _ _ => rfl) htemp
      fun content h => ⟨[], rfl, by simp [h]⟩
  | cons piece rest ih =>
    rw [run_step rfl]
    cases piece with
    | fail fault => exact run_discarding htemp _ _ _
    | bytes bs =>
      cases hb : bs.isEmpty with
      | true =>
        -- an empty piece is the end of the file
        have hstep : (⟨target, temp, .copying (.bytes bs :: rest)⟩ : Upload).step files
            = (⟨target, temp, .syncing⟩, files) := by
          simp [step, advance, copyPiece, hb]
        rw [hstep, run_step rfl]
        refine (run_publishing htemp hc).trans (fun _ _ => rfl) htemp fun content h => ?_
        exact ⟨[], by simp [Stream.content, Stream.drain, hb], by simp [h]⟩
      | false =>
        have hstep : (⟨target, temp, .copying (.bytes bs :: rest)⟩ : Upload).step files
            = (⟨target, temp, .copying rest⟩, files.append temp bs) := by
          simp [step, advance, copyPiece, hb]
        rw [hstep, Files.append_eq_put hc]
        refine (ih (Files.fileAt?_put_self (Files.ne_nil_of_fileAt? hc))).trans
          (fun path hp => Files.fileAt?_put_of_ne hp) htemp ?_
        rintro content ⟨more, hmore, rfl⟩
        exact ⟨bs ++ more, by rw [Stream.content_cons_bytes hb, hmore], by simp⟩

/-! ### Whole uploads -/

theorem run_start_of_no_folder {files : Files} {refusal : Refusal}
    (hf : files.createFolders target.dropLast = .error refusal) (content : Stream) :
    (start target temp content).run files = (.error refusal.fault, files) := by
  have hstep : (start target temp content).step files
      = (⟨target, temp, .finished (.error refusal.fault)⟩, files) := by
    simp [start, step, advance, after, hf]
  rw [run_step rfl, hstep, run_of_outcome? (r := .error refusal.fault) rfl]

theorem run_start_of_no_file {files files' : Files} {refusal : Refusal}
    (hf : files.createFolders target.dropLast = .ok files')
    (hcr : files'.create temp = .error refusal) (content : Stream) :
    (start target temp content).run files =
      (⟨target, temp, .discarding refusal.fault⟩ : Upload).run files' := by
  have hstep : (start target temp content).step files
      = (⟨target, temp, .creating content⟩, files') := by
    simp [start, step, advance, after, hf]
  have hstep' : (⟨target, temp, .creating content⟩ : Upload).step files'
      = (⟨target, temp, .discarding refusal.fault⟩, files') := by
    simp [step, advance, after, hcr]
  rw [run_step rfl, hstep, run_step rfl, hstep']

theorem run_start_of_file {files files' files'' : Files}
    (hf : files.createFolders target.dropLast = .ok files') (hcr : files'.create temp = .ok files'')
    (content : Stream) :
    (start target temp content).run files =
      (⟨target, temp, .copying content⟩ : Upload).run files'' := by
  have hstep : (start target temp content).step files
      = (⟨target, temp, .creating content⟩, files') := by
    simp [start, step, advance, after, hf]
  have hstep' : (⟨target, temp, .creating content⟩ : Upload).step files'
      = (⟨target, temp, .copying content⟩, files'') := by
    simp [step, advance, after, hcr]
  rw [run_step rfl, hstep, run_step rfl, hstep']

/-- The outcome of a whole upload: its target has the content of the stream, or has not changed. -/
theorem run_start (htemp : target ≠ temp) (content : Stream) (files : Files) :
    Lands target temp files (fun bs => content.content = .ok bs)
      ((start target temp content).run files) := by
  cases hf : files.createFolders target.dropLast with
  | error refusal =>
    rw [run_start_of_no_folder hf]
    exact ⟨fun _ _ _ => rfl, rfl⟩
  | ok files' =>
    have hsame := Files.fileAt?_createFolders hf
    cases hcr : files'.create temp with
    | error refusal =>
      rw [run_start_of_no_file hf hcr]
      exact (run_discarding htemp _ _ _).trans (fun path _ => hsame path) htemp fun _ h => h
    | ok files'' =>
      obtain ⟨rfl, hne⟩ := Files.fileAt?_create hcr
      rw [run_start_of_file hf hcr]
      refine (run_copying htemp content (Files.fileAt?_put_self hne)).trans
        (fun path hp => (Files.fileAt?_put_of_ne hp).trans (hsame path)) htemp ?_
      rintro bs ⟨more, hmore, rfl⟩
      exact hmore

/-! ### Temporary files -/

theorem fileAt?_temp_run_discarding (target temp : Path) (fault : IoFault) (files : Files) :
    ((⟨target, temp, .discarding fault⟩ : Upload).run files).2.fileAt? temp = none := by
  rw [run_step rfl, run_of_outcome? (r := .error fault) rfl]
  simp only [step, advance, Files.remove, Files.resolve]
  cases hl : files.look? temp with
  | none => simp [Files.fileAt?, hl]
  | some node =>
    cases node with
    | folder => simp [Files.fileAt?, hl]
    | file content => exact Files.fileAt?_drop_self files temp

theorem fileAt?_temp_run_publishing (htemp : target ≠ temp) (files : Files) :
    ((⟨target, temp, .publishing⟩ : Upload).run files).2.fileAt? temp = none := by
  rw [run_step rfl]
  cases hr : files.rename temp target with
  | error refusal =>
    have hstep : (⟨target, temp, .publishing⟩ : Upload).step files
        = (⟨target, temp, .discarding refusal.fault⟩, files) := by
      simp [step, advance, after, hr]
    rw [hstep]
    exact fileAt?_temp_run_discarding target temp _ _
  | ok files' =>
    have hstep : (⟨target, temp, .publishing⟩ : Upload).step files
        = (⟨target, temp, .finished (.ok ())⟩, files') := by
      simp [step, advance, after, hr]
    obtain ⟨node, rfl⟩ := Files.rename_eq_ok hr
    rw [hstep, run_of_outcome? (r := .ok ()) rfl, Files.fileAt?_put_of_ne htemp.symm,
      Files.fileAt?_drop_self]

theorem fileAt?_temp_run_copying (htemp : target ≠ temp) (rest : Stream) (files : Files) :
    ((⟨target, temp, .copying rest⟩ : Upload).run files).2.fileAt? temp = none := by
  induction rest generalizing files with
  | nil =>
    rw [run_step rfl, run_step rfl]
    exact fileAt?_temp_run_publishing htemp _
  | cons piece rest ih =>
    rw [run_step rfl]
    cases piece with
    | fail fault => exact fileAt?_temp_run_discarding target temp fault _
    | bytes bs =>
      cases hb : bs.isEmpty with
      | true =>
        have hstep : (⟨target, temp, .copying (.bytes bs :: rest)⟩ : Upload).step files
            = (⟨target, temp, .syncing⟩, files) := by
          simp [step, advance, copyPiece, hb]
        rw [hstep, run_step rfl]
        exact fileAt?_temp_run_publishing htemp _
      | false =>
        have hstep : (⟨target, temp, .copying (.bytes bs :: rest)⟩ : Upload).step files
            = (⟨target, temp, .copying rest⟩, files.append temp bs) := by
          simp [step, advance, copyPiece, hb]
        rw [hstep]
        exact ih _

/-- An upload that has come far enough to make its temporary file leaves none. -/
theorem fileAt?_temp_run_start (htemp : target ≠ temp) (content : Stream) (files : Files) :
    ((start target temp content).run files).2.fileAt? temp = none ∨
      ((start target temp content).run files).2 = files := by
  cases hf : files.createFolders target.dropLast with
  | error refusal => exact .inr (by rw [run_start_of_no_folder hf])
  | ok files' =>
    refine .inl ?_
    cases hcr : files'.create temp with
    | error refusal =>
      rw [run_start_of_no_file hf hcr]
      exact fileAt?_temp_run_discarding target temp _ _
    | ok files'' =>
      rw [run_start_of_file hf hcr]
      exact fileAt?_temp_run_copying htemp content _

/-! ### Contents that fail -/

theorem fst_run_discarding (target temp : Path) (fault : IoFault) (files : Files) :
    ((⟨target, temp, .discarding fault⟩ : Upload).run files).1 = .error fault := by
  rw [run_step rfl, run_of_outcome? (r := .error fault) rfl]

theorem run_copying_of_fault {rest : Stream} {fault : IoFault} (h : rest.content = .error fault)
    (files : Files) : ((⟨target, temp, .copying rest⟩ : Upload).run files).1 = .error fault := by
  induction rest generalizing files with
  | nil => cases h
  | cons piece rest ih =>
    rw [run_step rfl]
    cases piece with
    | fail fault' =>
      obtain rfl : fault' = fault := Except.error.inj h
      exact fst_run_discarding target temp fault' files
    | bytes bs =>
      cases hb : bs.isEmpty with
      | true => simp [Stream.content, Stream.drain, hb] at h
      | false =>
        have hstep : (⟨target, temp, .copying (.bytes bs :: rest)⟩ : Upload).step files
            = (⟨target, temp, .copying rest⟩, files.append temp bs) := by
          simp [step, advance, copyPiece, hb]
        rw [hstep]
        rw [Stream.content_cons_bytes hb] at h
        split at h
        · cases h
        · rename_i hrest
          exact ih (hrest.trans h) _

/-- An upload that finds no place for its files is refused before its content is read; any other
fails if its content does. -/
theorem run_start_of_fault (target temp : Path) (files : Files) :
    (∃ refusal : Refusal, ∀ content,
      ((start target temp content).run files).1 = .error refusal.fault) ∨
    ∀ content fault, content.content = .error fault →
      ((start target temp content).run files).1 = .error fault := by
  cases hf : files.createFolders target.dropLast with
  | error refusal =>
    refine .inl ⟨refusal, fun content => ?_⟩
    rw [run_start_of_no_folder hf]
  | ok files' =>
    cases hcr : files'.create temp with
    | error refusal =>
      refine .inl ⟨refusal, fun content => ?_⟩
      rw [run_start_of_no_file hf hcr, fst_run_discarding]
    | ok files'' =>
      refine .inr fun content fault h => ?_
      rw [run_start_of_file hf hcr]
      exact run_copying_of_fault h files''

end Upload

end BlobVault
