import BlobVault.Proofs.Storage.Denotation

/-!
# Stores that take turns

A store in a folder is an upload, whose steps others may come between.  In a folder that is in order
no step is refused, so an upload ends as its content does.

* `Folder.Stage` : what the temporary file of an upload holds in each of its phases;
* `Folder.step_of_stage` : **what one step of an upload does to what the tree denotes**;
* `Folder.store_of_denotes` : a whole store keeps the content or fails as the content does, and
  leaves no temporary file;
* `Folder.fileAt?_turns` : **whatever turns uploads take, an object is at every moment what it was
  or the whole content of one of them.**
-/

namespace BlobVault

namespace Folder

variable {files files' : Files} {root : Path} {objects : Objects} {drafts : Drafts} {r : Ref}
  {id : Uuid} {content : Stream} {phase : Upload.Phase} {held? : Option Bytes}

/-- The upload of an object, in some phase. -/
def uploading (root : Path) (r : Ref) (id : Uuid) (phase : Upload.Phase) : Upload :=
  ⟨pathOf root r, tempOf root r id, phase⟩

/-- What the temporary file of an upload holds in a phase.  What has been copied and what is left
make up the content that the upload began with. -/
inductive Stage (content : Stream) (files : Files) (shelf : Path) :
    Upload.Phase → Option Bytes → Prop
  | preparing : Stage content files shelf (.preparing content) none
  | creating (hshelf : files.look? shelf = some .folder) :
      Stage content files shelf (.creating content) none
  | copying {rest : Stream} {held : Bytes}
      (hrest : content.content = rest.content.map (held ++ ·)) :
      Stage content files shelf (.copying rest) (some held)
  | syncing {held : Bytes} (hheld : content.content = .ok held) :
      Stage content files shelf .syncing (some held)
  | publishing {held : Bytes} (hheld : content.content = .ok held) :
      Stage content files shelf .publishing (some held)
  | discarding {held : Bytes} {fault : IoFault} (hfault : content.content = .error fault) :
      Stage content files shelf (.discarding fault) (some held)
  | finished {outcome : Except IoFault Unit}
      (houtcome : outcome = content.content.map fun _ => ()) :
      Stage content files shelf (.finished outcome) none

/-- Other uploads do not take the folder away. -/
theorem Stage.mono {shelf : Path} (h : Stage content files shelf phase held?)
    (hkeeps : Files.KeepsFolders files files') : Stage content files' shelf phase held? := by
  cases h with
  | preparing => exact .preparing
  | creating hshelf => exact .creating (hkeeps shelf hshelf)
  | copying hrest => exact .copying hrest
  | syncing hheld => exact .syncing hheld
  | publishing hheld => exact .publishing hheld
  | discarding hfault => exact .discarding hfault
  | finished houtcome => exact .finished houtcome

/-- The objects once an upload has come to a phase: its content counts when it has succeeded. -/
def landed (objects : Objects) (r : Ref) (content : Stream) (phase : Upload.Phase) : Objects :=
  match phase, content.content with
  | .finished (.ok ()), .ok bs => Function.update objects r (some bs)
  | _, _ => objects

theorem landed_of_outcome?_eq_none (h : phase.outcome? = none) :
    landed objects r content phase = objects := by
  unfold landed
  split
  · cases h
  · rfl

/-- One step of an upload has come to a phase, and its temporary file holds something else. -/
structure Advanced (objects : Objects) (drafts : Drafts) (files files' : Files) (root : Path)
    (r : Ref) (id : Uuid) (content : Stream) (phase : Upload.Phase) (held? : Option Bytes) :
    Prop where
  denotes : Denotes files' root (landed objects r content phase)
    (Function.update drafts (tempOf root r id) held?)
  stage : Stage content files' (shelfOf root r) phase held?
  keeps : Files.KeepsFolders files files'

/-- The step did not touch the files. -/
theorem advanced_of_same (h : Denotes files root objects drafts)
    (hheld : drafts (tempOf root r id) = held?) (hopen : phase.outcome? = none)
    (hstage : Stage content files (shelfOf root r) phase held?) :
    Advanced objects drafts files files root r id content phase held? := by
  refine ⟨?_, hstage, fun _ hpath => hpath⟩
  rw [landed_of_outcome?_eq_none hopen, ← hheld, Function.update_eq_self]
  exact h

theorem keepsFolders_putDraft (h : Denotes files root objects drafts) (bs : Bytes) :
    Files.KeepsFolders files (files.put (tempOf root r id) (.file bs)) :=
  Files.keepsFolders_put (h.look?_ne_folder (prefix_tempOf root r id) (length_tempOf root r id))

theorem keepsFolders_dropDraft (h : Denotes files root objects drafts) (r : Ref) (id : Uuid) :
    Files.KeepsFolders files (files.drop (tempOf root r id)) :=
  Files.keepsFolders_drop (h.look?_ne_folder (prefix_tempOf root r id) (length_tempOf root r id))

/-- Reading on: the temporary file holds what was copied, and the rest is as it was. -/
theorem step_copying (h : Denotes files root objects drafts) {rest : Stream} {held : Bytes}
    (hheld : drafts (tempOf root r id) = some held)
    (hrest : content.content = rest.content.map (held ++ ·)) :
    ∃ phase' files' held', (uploading root r id (.copying rest)).step files =
        (uploading root r id phase', files') ∧
      Advanced objects drafts files files' root r id content phase' held' := by
  cases rest with
  | nil =>
    refine ⟨.syncing, files, some held, rfl, advanced_of_same h hheld rfl (.syncing ?_)⟩
    simpa [Stream.content, Stream.drain, Except.map] using hrest
  | cons piece rest =>
    cases piece with
    | fail fault =>
      exact ⟨.discarding fault, files, some held, rfl,
        advanced_of_same h hheld rfl (.discarding hrest)⟩
    | bytes bs =>
      cases hbs : bs.isEmpty with
      | true =>
        -- an empty piece is the end of the file
        refine ⟨.syncing, files, some held, ?_, advanced_of_same h hheld rfl (.syncing ?_)⟩
        · simp [uploading, Upload.step, Upload.advance, Upload.copyPiece, hbs]
        · simpa [Stream.content, Stream.drain, Except.map, hbs] using hrest
      | false =>
        refine ⟨.copying rest, _, some (held ++ bs), ?_, h.putDraft r id (held ++ bs),
          .copying ?_, keepsFolders_putDraft h _⟩
        · simp [uploading, Upload.step, Upload.advance, Upload.copyPiece, hbs, h.append hheld]
        · rw [hrest, Stream.content_cons_bytes hbs]
          cases Stream.content rest with
          | error fault => rfl
          | ok more => simp [Except.map]

/-- **One step of an upload.** -/
theorem step_of_stage (h : Denotes files root objects drafts)
    (hs : Stage content files (shelfOf root r) phase (drafts (tempOf root r id)))
    (hopen : phase.outcome? = none) :
    ∃ phase' files' held', (uploading root r id phase).step files =
        (uploading root r id phase', files') ∧
      Advanced objects drafts files files' root r id content phase' held' := by
  generalize hheld : drafts (tempOf root r id) = held? at hs
  cases hs with
  | preparing =>
    obtain ⟨files', hmade, hdenotes, hkeeps, hshelf⟩ := h.createFolders r
    refine ⟨.creating content, files', none, ?_, ?_, .creating hshelf, hkeeps⟩
    · simp [uploading, Upload.step, Upload.advance, Upload.after, dropLast_pathOf, hmade]
    · rw [← hheld, Function.update_eq_self]
      exact hdenotes
  | creating hshelf =>
    refine ⟨.copying content, _, some [], ?_, h.putDraft r id [], .copying ?_,
      keepsFolders_putDraft h []⟩
    · simp [uploading, Upload.step, Upload.advance, Upload.after, h.create hshelf id]
    · cases content.content <;> rfl
  | copying hrest => exact step_copying h hheld hrest
  | @syncing held hcontent =>
    exact ⟨.publishing, files, some held, rfl, advanced_of_same h hheld rfl (.publishing hcontent)⟩
  | @publishing held hcontent =>
    have hdropped := h.dropDraft r id
    have hdone : .ok () = content.content.map (fun _ => ()) := by rw [hcontent]; rfl
    have hkeeps : Files.KeepsFolders (files.drop (tempOf root r id))
        ((files.drop (tempOf root r id)).put (pathOf root r) (.file held)) :=
      Files.keepsFolders_put
        (hdropped.look?_ne_folder (prefix_pathOf root r) (length_pathOf root r))
    refine ⟨.finished (.ok ()), _, none, ?_, ?_, .finished hdone,
      (keepsFolders_dropDraft h r id).trans hkeeps⟩
    · simp [uploading, Upload.step, Upload.advance, Upload.after, h.rename hheld]
    · simp only [landed, hcontent]
      exact hdropped.putObject r held
  | @discarding held fault hfault =>
    have hdone : .error fault = content.content.map (fun _ => ()) := by rw [hfault]; rfl
    refine ⟨.finished (.error fault), _, none, ?_, ?_, .finished hdone,
      keepsFolders_dropDraft h r id⟩
    · simp [uploading, Upload.step, Upload.advance, h.remove hheld]
    · exact h.dropDraft r id
  | finished => cases hopen

/-! ### A whole store -/

/-- An upload that nothing comes between ends as its content does. -/
theorem run_of_stage (h : Denotes files root objects drafts)
    (hs : Stage content files (shelfOf root r) phase (drafts (tempOf root r id)))
    (hopen : phase.outcome? = none) :
    ∃ outcome files', outcome = content.content.map (fun _ => ()) ∧
      (uploading root r id phase).run files = (outcome, files') ∧
      Denotes files' root (landed objects r content (.finished outcome))
        (Function.update drafts (tempOf root r id) none) := by
  induction hn : phase.distance using Nat.strongRecOn generalizing phase files drafts with
  | ind n ih =>
    obtain ⟨phase', files', held?, hstep, hadvanced⟩ := step_of_stage h hs hopen
    have hnearer : phase'.distance < phase.distance := by
      have hdistance := Upload.distance_step (uploading root r id phase) files hopen
      rwa [hstep] at hdistance
    rw [Upload.run_step hopen, hstep]
    obtain ⟨hdenotes, hstage, -⟩ := hadvanced
    cases hnext : phase'.outcome? with
    | none =>
      rw [landed_of_outcome?_eq_none hnext] at hdenotes
      have hheld : Function.update drafts (tempOf root r id) held? (tempOf root r id) = held? :=
        Function.update_self _ _ _
      obtain ⟨outcome, files'', houtcome, hrun, hdone⟩ :=
        ih _ (hn ▸ hnearer) hdenotes (hheld.symm ▸ hstage) hnext rfl
      rw [Function.update_idem] at hdone
      exact ⟨outcome, files'', houtcome, hrun, hdone⟩
    | some outcome =>
      cases hstage with
      | @finished outcome' houtcome =>
        obtain rfl := Option.some.inj hnext
        exact ⟨outcome', files', houtcome, Upload.run_of_outcome? rfl _, hdenotes⟩
      | _ => cases hnext

/-- **A whole store keeps the content, or fails as the content does and changes no object**; either
way it leaves no temporary file. -/
theorem store_of_denotes (h : Denotes files root objects fun _ => none) (r : Ref) (id : Uuid)
    (content : Stream) :
    match content.content with
    | .ok bs => ∃ files', store files root r id content = (.ok (), files') ∧
        Denotes files' root (Function.update objects r (some bs)) fun _ => none
    | .error fault => ∃ files', store files root r id content = (.error (.ofIo fault), files') ∧
        Denotes files' root objects fun _ => none := by
  have hstage : Stage content files (shelfOf root r) (.preparing content) none := .preparing
  obtain ⟨outcome, files', houtcome, hrun, hdenotes⟩ := run_of_stage h hstage rfl
  rw [Function.update_eq_self] at hdenotes
  have hupload : (upload root r id content).run files = (outcome, files') := hrun
  cases hcontent : content.content with
  | ok bs =>
    rw [hcontent] at houtcome
    obtain rfl : outcome = .ok () := houtcome
    simp only [landed, hcontent] at hdenotes
    exact ⟨files', by rw [store, hupload], hdenotes⟩
  | error fault =>
    rw [hcontent] at houtcome
    obtain rfl : outcome = .error fault := houtcome
    simp only [landed] at hdenotes
    exact ⟨files', by rw [store, hupload], hdenotes⟩

/-! ### Stores that take turns -/

variable {ι : Type} [DecidableEq ι]

/-- One of the uploads takes a step. -/
def turn (us : ι → Upload) (files : Files) (i : ι) : (ι → Upload) × Files :=
  (Function.update us i ((us i).step files).1, ((us i).step files).2)

/-- The uploads take steps in turns. -/
def turns (us : ι → Upload) (files : Files) (schedule : List ι) : (ι → Upload) × Files :=
  schedule.foldl (fun x i => turn x.1 x.2 i) (us, files)

variable {rs : ι → Ref} {ids : ι → Uuid} {cs : ι → Stream} {us : ι → Upload} {objects₀ : Objects}

/-- The uploads are on their way, and each object is what it was or the content of one of them. -/
structure Racing (objects₀ : Objects) (root : Path) (rs : ι → Ref) (ids : ι → Uuid)
    (cs : ι → Stream) (us : ι → Upload) (files : Files) (objects : Objects) (drafts : Drafts) :
    Prop where
  denotes : Denotes files root objects drafts
  stages : ∀ i, ∃ phase, us i = uploading root (rs i) (ids i) phase ∧
    Stage (cs i) files (shelfOf root (rs i)) phase (drafts (tempOf root (rs i) (ids i)))
  complete : ∀ r, objects r = objects₀ r ∨
    ∃ i bs, rs i = r ∧ (cs i).content = .ok bs ∧ objects r = some bs

theorem landed_cases (objects : Objects) (r : Ref) (content : Stream) (phase : Upload.Phase)
    (r' : Ref) : landed objects r content phase r' = objects r' ∨
      ∃ bs, r = r' ∧ content.content = .ok bs ∧ landed objects r content phase r' = some bs := by
  unfold landed
  cases phase with
  | finished outcome =>
    cases outcome with
    | error fault => exact .inl rfl
    | ok u =>
      cases hcontent : content.content with
      | error fault => exact .inl rfl
      | ok bs =>
        by_cases hr : r' = r
        · subst hr
          exact .inr ⟨bs, rfl, rfl, Function.update_self _ _ _⟩
        · exact .inl (Function.update_of_ne hr _ _)
  | _ => exact .inl rfl

/-- An upload that has come to its end stays there. -/
theorem step_of_finished {outcome : Except IoFault Unit} :
    (uploading root r id (.finished outcome)).step files =
      (uploading root r id (.finished outcome), files) := rfl

/-- Every turn keeps the race fair. -/
theorem Racing.turn (h : Racing objects₀ root rs ids cs us files objects drafts)
    (hids : Function.Injective ids) (i : ι) : ∃ objects' drafts',
      Racing objects₀ root rs ids cs (turn us files i).1 (turn us files i).2 objects' drafts' := by
  obtain ⟨phase, hui, hstage⟩ := h.stages i
  cases hopen : phase.outcome? with
  | some outcome =>
    refine ⟨objects, drafts, ?_⟩
    cases phase with
    | finished outcome' =>
      rw [Folder.turn, hui, step_of_finished, ← hui, Function.update_eq_self]
      exact h
    | _ => cases hopen
  | none =>
    obtain ⟨phase', files', held?, hstep, hadvanced⟩ := step_of_stage h.denotes hstage hopen
    rw [Folder.turn, hui, hstep]
    dsimp only
    refine ⟨_, _, hadvanced.denotes, fun i' => ?_, fun r => ?_⟩
    · by_cases hi : i' = i
      · subst hi
        rw [Function.update_self, Function.update_self]
        exact ⟨phase', rfl, hadvanced.stage⟩
      · -- the others have other temporary files
        obtain ⟨phase'', hui', hstage'⟩ := h.stages i'
        have hne : tempOf root (rs i') (ids i') ≠ tempOf root (rs i) (ids i) := fun heq =>
          hi (hids (tempOf_injective heq))
        rw [Function.update_of_ne hi, Function.update_of_ne hne]
        exact ⟨phase'', hui', hstage'.mono hadvanced.keeps⟩
    · rcases landed_cases objects (rs i) (cs i) phase' r with hsame | ⟨bs, hr, hbs, hlanded⟩
      · rw [hsame]
        exact h.complete r
      · exact .inr ⟨i, bs, hr, hbs, hlanded⟩

theorem Racing.turns (h : Racing objects₀ root rs ids cs us files objects drafts)
    (hids : Function.Injective ids) (schedule : List ι) : ∃ objects' drafts',
      Racing objects₀ root rs ids cs (turns us files schedule).1 (turns us files schedule).2
        objects' drafts' := by
  induction schedule generalizing us files objects drafts with
  | nil => exact ⟨objects, drafts, h⟩
  | cons i schedule ih =>
    obtain ⟨objects', drafts', hturn⟩ := h.turn hids i
    exact ih hturn

/-- **Whatever turns uploads take, an object is at every moment what it was or the whole content of
one of them.** -/
theorem fileAt?_turns (h : Denotes files root objects fun _ => none)
    (hids : Function.Injective ids) (schedule : List ι) (r : Ref) :
    let files' := (turns (fun i => upload root (rs i) (ids i) (cs i)) files schedule).2
    files'.fileAt? (pathOf root r) = objects r ∨ ∃ i bs, rs i = r ∧
      (cs i).content = .ok bs ∧ files'.fileAt? (pathOf root r) = some bs := by
  have hstart : Racing objects root rs ids cs (fun i => upload root (rs i) (ids i) (cs i)) files
      objects (fun _ => none) :=
    ⟨h, fun i => ⟨.preparing (cs i), rfl, .preparing⟩, fun r => .inl rfl⟩
  obtain ⟨objects', drafts', hracing⟩ := hstart.turns hids schedule
  intro files'
  rw [hracing.denotes.fileAt?_pathOf r]
  exact hracing.complete r

end Folder

end BlobVault
