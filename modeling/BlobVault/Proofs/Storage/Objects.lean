import BlobVault.Backend.Storage
import BlobVault.Proofs.Files.Upload
import BlobVault.Proofs.Stream.Content
import BlobVault.Proofs.Text.Hex

/-!
# The objects of a storage

What the backends hold, whatever they are made of, and what fetching and storing do to it.

* `Storage.object?` : what a backend holds under a reference;
* `Storage.object?_fetch` : a fetch changes no object;
* `Storage.fetch_of_object`, `Storage.fetch_of_no_object` : the answers of a plain backend;
* `Storage.object?_store` : a store that succeeds changes one object, and one that fails none,
  whatever the backend is made of;
* `Storage.store_of_fault` : a backend refuses every content, or fails with a content that fails.

Two folders in different places have no object in common (`Folder.pathOf_injective`), so backends
that are `Apart` do not disturb each other.
-/

namespace BlobVault

namespace Folder

/-- An object belongs to one folder and one reference. -/
theorem pathOf_injective {root root' : Path} {r r' : Ref} (h : pathOf root r = pathOf root' r') :
    root = root' ∧ r = r' := by
  obtain ⟨hroot, hrest⟩ := List.append_inj' h rfl
  simp only [List.cons.injEq, and_true, true_and] at hrest
  exact ⟨hroot, Ref.toHex_injective hrest.2⟩

theorem getLast?_pathOf (root : Path) (r : Ref) : (pathOf root r).getLast? = some r.toHex := by
  simp [pathOf]

theorem getLast?_tempOf (root : Path) (r : Ref) (id : Uuid) :
    (tempOf root r id).getLast? = some ("." ++ r.toHex ++ tempMark ++ id.toText) := by
  simp [tempOf]

/-- No object stands where an upload keeps its temporary file: the name is too long. -/
theorem pathOf_ne_tempOf (root root' : Path) (r r' : Ref) (id : Uuid) :
    pathOf root' r' ≠ tempOf root r id := by
  intro h
  have hlast := congrArg List.getLast? h
  rw [getLast?_pathOf, getLast?_tempOf] at hlast
  have hlen := congrArg String.length (Option.some.inj hlast)
  simp only [String.length_append, Ref.length_toHex] at hlen
  have : ".".length = 1 := rfl
  omega

end Folder

/-- The backend answers as it should. -/
def Backend.isPlain : Backend → Bool
  | .rigged _ _ => false
  | _ => true

/-- The folder that a backend keeps its objects in. -/
def Backend.place? : Backend → Option Path
  | .folder root _ => some root
  | _ => none

namespace Storage

/-- What a backend holds under a reference. -/
def object? (st : Storage) (b : BackendId) (r : Ref) : Option Bytes :=
  match st.backend b with
  | .memory shelf => shelf.raw? r
  | .rigged shelf _ => shelf.raw? r
  | .folder root _ => st.files.fileAt? (Folder.pathOf root r)

/-- Two backends are not the same folder. -/
def Apart (st : Storage) (b b' : BackendId) : Prop :=
  ∀ root, (st.backend b).place? = some root → (st.backend b').place? ≠ some root

/-- Two storages have the same backends, in the same places. -/
structure SameLayout (st st' : Storage) : Prop where
  plain : ∀ b, (st'.backend b).isPlain = (st.backend b).isPlain
  place : ∀ b, (st'.backend b).place? = (st.backend b).place?

namespace SameLayout

variable {st st' st'' : Storage}

theorem refl (st : Storage) : SameLayout st st := ⟨fun _ => rfl, fun _ => rfl⟩

theorem trans (h : SameLayout st st') (h' : SameLayout st' st'') : SameLayout st st'' :=
  ⟨fun b => (h'.plain b).trans (h.plain b), fun b => (h'.place b).trans (h.place b)⟩

theorem apart (h : SameLayout st st') {b b' : BackendId} (ha : st.Apart b b') :
    st'.Apart b b' := by
  intro root hb
  rw [h.place] at hb ⊢
  exact ha root hb

end SameLayout

theorem backend_setBackend (st : Storage) (id : BackendId) (b : Backend) (id' : BackendId) :
    (st.setBackend id b).backend id' = if id' = id then b else st.backend id' := by
  simp only [setBackend, backend, OrderedMap.get?_insert, Std.LawfulEqCmp.compare_eq_iff_eq]
  split <;> rfl

/-- The layout stays if a backend is replaced by one of its kind and place. -/
theorem sameLayout_setBackend {st : Storage} {id : BackendId} {b : Backend}
    (hplain : b.isPlain = (st.backend id).isPlain) (hplace : b.place? = (st.backend id).place?) :
    SameLayout st (st.setBackend id b) := by
  constructor <;> intro id' <;> rw [backend_setBackend] <;> split
  · rename_i h
    rw [hplain, h]
  · rfl
  · rename_i h
    rw [hplace, h]
  · rfl

/-- A backend that is replaced keeps the objects of all others. -/
theorem object?_setBackend_of_ne {st : Storage} {id id' : BackendId} {b : Backend}
    (h : id' ≠ id) (r : Ref) : (st.setBackend id b).object? id' r = st.object? id' r := by
  rw [object?, backend_setBackend, if_neg h]
  rfl

/-- A backend with a memory holds what is there, rigged or not. -/
theorem object?_of_shelf {st : Storage} {b : BackendId} {shelf : Shelf}
    (h : (st.backend b).shelf? = some shelf) (r : Ref) : st.object? b r = shelf.raw? r := by
  unfold object?
  cases hb : st.backend b with
  | folder root cost =>
    rw [hb] at h
    cases h
  | memory shelf' =>
    rw [hb] at h
    obtain rfl := Option.some.inj h
    rfl
  | rigged shelf' rig =>
    rw [hb] at h
    obtain rfl := Option.some.inj h
    rfl

theorem object?_setBackend_of_shelf {st : Storage} {id : BackendId} {b : Backend} {shelf : Shelf}
    (h : b.shelf? = some shelf) (r : Ref) : (st.setBackend id b).object? id r = shelf.raw? r := by
  refine object?_of_shelf ?_ r
  rwa [backend_setBackend, if_pos rfl]

/-- A backend that is replaced by one with the same memory keeps its objects too. -/
theorem object?_setBackend_of_raw? {st : Storage} {id : BackendId} {b : Backend}
    {shelf shelf' : Shelf} (h : (st.backend id).shelf? = some shelf) (h' : b.shelf? = some shelf')
    (hraw : ∀ r, shelf'.raw? r = shelf.raw? r) (id' : BackendId) (r : Ref) :
    (st.setBackend id b).object? id' r = st.object? id' r := by
  by_cases hid : id' = id
  · subst hid
    rw [object?_setBackend_of_shelf h', hraw, object?_of_shelf h]
  · exact object?_setBackend_of_ne hid r

theorem object?_memory {st : Storage} {b : BackendId} {shelf : Shelf}
    (h : st.backend b = .memory shelf) (r : Ref) : st.object? b r = shelf.raw? r :=
  object?_of_shelf (by rw [h]; rfl) r

theorem object?_folder {st : Storage} {b : BackendId} {root : Path} {cost : Nat}
    (h : st.backend b = .folder root cost) (r : Ref) :
    st.object? b r = st.files.fileAt? (Folder.pathOf root r) := by
  rw [object?, h]

/-! ### Fetching -/

/-- A fetch changes no object. -/
theorem object?_trueAnswer (st : Storage) (b : BackendId) (r : Ref) (b' : BackendId) (r' : Ref) :
    (st.trueAnswer b r).2.object? b' r' = st.object? b' r' := by
  unfold trueAnswer
  cases h : st.backend b with
  | folder root cost => rfl
  | memory shelf =>
    have hshelf : (st.backend b).shelf? = some shelf := by rw [h]; rfl
    refine object?_setBackend_of_raw? hshelf rfl ?_ b' r'
    exact fun _ => rfl
  | rigged shelf rig =>
    have hshelf : (st.backend b).shelf? = some shelf := by rw [h]; rfl
    refine object?_setBackend_of_raw? hshelf rfl ?_ b' r'
    exact fun _ => rfl

theorem sameLayout_trueAnswer (st : Storage) (b : BackendId) (r : Ref) :
    SameLayout st (st.trueAnswer b r).2 := by
  unfold trueAnswer
  cases h : st.backend b with
  | folder root cost => exact .refl st
  | memory shelf =>
    exact sameLayout_setBackend (by rw [h]; rfl) (by rw [h]; rfl)
  | rigged shelf rig =>
    exact sameLayout_setBackend (by rw [h]; rfl) (by rw [h]; rfl)

theorem fetch_snd (st : Storage) (b : BackendId) (r : Ref) :
    (st.fetch b r).2 = (st.trueAnswer b r).2 := by
  unfold fetch answer approach
  cases st.backend b with
  | rigged shelf rig => by_cases hd : r.isDescriptor = true <;> simp [hd]
  | _ => rfl

theorem object?_fetch (st : Storage) (b : BackendId) (r : Ref) (b' : BackendId) (r' : Ref) :
    (st.fetch b r).2.object? b' r' = st.object? b' r' := by
  rw [fetch_snd, object?_trueAnswer]

theorem sameLayout_fetch (st : Storage) (b : BackendId) (r : Ref) :
    SameLayout st (st.fetch b r).2 := by
  rw [fetch_snd]
  exact sameLayout_trueAnswer st b r

theorem fetch_fst_of_plain {st : Storage} {b : BackendId} (h : (st.backend b).isPlain = true)
    (r : Ref) : (st.fetch b r).1 = (st.trueAnswer b r).1 := by
  unfold fetch answer approach
  cases hb : st.backend b with
  | rigged shelf rig => simp [hb, Backend.isPlain] at h
  | _ => rfl

/-- A plain backend gives what it holds. -/
theorem fetch_of_object {st : Storage} {b : BackendId} (h : (st.backend b).isPlain = true)
    {r : Ref} {bs : Bytes} (ho : st.object? b r = some bs) :
    (st.fetch b r).1 = .ok (.ofBytes bs) := by
  rw [fetch_fst_of_plain h, trueAnswer]
  cases hb : st.backend b with
  | rigged shelf rig => simp [hb, Backend.isPlain] at h
  | memory shelf =>
    rw [object?_memory hb] at ho
    simp [Shelf.fetch, ho]
  | folder root cost =>
    rw [object?_folder hb, Files.fileAt?_eq_some] at ho
    simp [Folder.fetch, Files.resolve, ho]

/-- A plain backend that holds nothing gives a fault, at once or when its answer is read. -/
theorem fetch_of_no_object {st : Storage} {b : BackendId} (h : (st.backend b).isPlain = true)
    {r : Ref} (ho : st.object? b r = none) {s : Stream} (hs : (st.fetch b r).1 = .ok s) :
    ∃ fault, s.content = .error fault := by
  rw [fetch_fst_of_plain h, trueAnswer] at hs
  cases hb : st.backend b with
  | rigged shelf rig => simp [hb, Backend.isPlain] at h
  | memory shelf =>
    rw [object?_memory hb] at ho
    simp [hb, Shelf.fetch, ho] at hs
  | folder root cost =>
    rw [object?_folder hb] at ho
    simp only [hb, Folder.fetch] at hs
    split at hs
    · rename_i content hres
      rw [Files.fileAt?_eq_some.2 (Files.resolve_eq_ok.1 hres)] at ho
      cases ho
    · obtain rfl := Except.ok.inj hs
      exact ⟨_, rfl⟩
    · cases hs
    · cases hs

/-! ### Storing -/

/-- The objects after a store: the content under its reference, and all others as they were. -/
def Stored (st st' : Storage) (b : BackendId) (r : Ref) (bs : Bytes) : Prop :=
  ∀ b' r', b' = b ∨ st.Apart b b' →
    st'.object? b' r' = if b' = b ∧ r' = r then some bs else st.object? b' r'

theorem sameLayout_store (st : Storage) (b : BackendId) (r : Ref) (content : Stream) :
    SameLayout st (st.store b r content).2 := by
  unfold store
  cases h : st.backend b with
  | folder root cost => exact ⟨fun _ => rfl, fun _ => rfl⟩
  | memory shelf =>
    exact sameLayout_setBackend (by rw [h]; rfl) (by rw [h]; rfl)
  | rigged shelf rig =>
    cases hf : rig.storeFault? with
    | some fault => simpa only [hf] using .refl st
    | none =>
      simp only [hf]
      exact sameLayout_setBackend (by rw [h]; rfl) (by rw [h]; rfl)

theorem raw?_store (shelf : Shelf) (r : Ref) (content : Stream) :
    match (shelf.store r content).1 with
    | .ok () => ∃ bs, content.content = .ok bs ∧
        ∀ r', (shelf.store r content).2.raw? r' = if r' = r then some bs else shelf.raw? r'
    | .error _ => ∀ r', (shelf.store r content).2.raw? r' = shelf.raw? r' := by
  unfold Shelf.store
  cases hc : content.content with
  | error fault => exact fun _ => rfl
  | ok bs =>
    refine ⟨bs, rfl, fun r' => ?_⟩
    simp [Shelf.raw?, OrderedMap.get?_insert]

/-- A store in a folder, seen through the files. -/
theorem fileAt?_store (files : Files) (root : Path) (r : Ref) (id : Uuid) (content : Stream) :
    match (Folder.store files root r id content).1 with
    | .ok () => ∃ bs, content.content = .ok bs ∧ ∀ root' r',
        (Folder.store files root r id content).2.fileAt? (Folder.pathOf root' r') =
          if root' = root ∧ r' = r then some bs else files.fileAt? (Folder.pathOf root' r')
    | .error _ => ∀ root' r',
        (Folder.store files root r id content).2.fileAt? (Folder.pathOf root' r') =
          files.fileAt? (Folder.pathOf root' r') := by
  have hland := Upload.run_start (Folder.pathOf_ne_tempOf root root r r id) content files
  have hother : ∀ root' r', ¬ (root' = root ∧ r' = r) →
      ((Folder.upload root r id content).run files).2.fileAt? (Folder.pathOf root' r')
        = files.fileAt? (Folder.pathOf root' r') := fun root' r' h =>
    hland.1 _ (Folder.pathOf_ne_tempOf root root' r r' id) fun he => h (Folder.pathOf_injective he)
  have htarget := hland.2
  rw [← Folder.upload] at htarget
  unfold Folder.store
  cases hrun : (Folder.upload root r id content).run files with
  | mk outcome files' =>
    rw [hrun] at hother htarget
    cases outcome with
    | ok u =>
      obtain ⟨bs, hbs, hfile⟩ := htarget
      refine ⟨bs, hbs, fun root' r' => ?_⟩
      by_cases h : root' = root ∧ r' = r
      · rw [if_pos h, h.1, h.2]
        exact hfile
      · rw [if_neg h]
        exact hother root' r' h
    | error fault =>
      intro root' r'
      by_cases h : root' = root ∧ r' = r
      · rw [h.1, h.2]
        exact htarget
      · exact hother root' r' h

/-- Other files are seen by the folders alone. -/
theorem object?_files (st : Storage) (files : Files) (b : BackendId) (r : Ref) :
    ({ st.drawUuid.2 with files := files } : Storage).object? b r =
      match st.backend b with
      | .folder root _ => files.fileAt? (Folder.pathOf root r)
      | _ => st.object? b r := by
  unfold object?
  show (match st.backend b with | .memory _ => _ | .rigged _ _ => _ | .folder _ _ => _) = _
  cases st.backend b <;> rfl

theorem store_folder {st : Storage} {b : BackendId} {root : Path} {cost : Nat}
    (hb : st.backend b = .folder root cost) (r : Ref) (content : Stream) :
    st.store b r content = ((Folder.store st.files root r st.drawUuid.1 content).1,
      { st.drawUuid.2 with
        files := (Folder.store st.files root r st.drawUuid.1 content).2 }) := by
  unfold store
  rw [hb]
  rfl

/-- A store in memory is one on the shelf, unless a rig refuses it. -/
theorem store_of_shelf {st : Storage} {b : BackendId} {shelf : Shelf}
    (h : (st.backend b).shelf? = some shelf) (r : Ref) (content : Stream) :
    (∃ fault, st.store b r content = (.error fault, st)) ∨
      ∃ backend, backend.shelf? = some (shelf.store r content).2 ∧
        st.store b r content = ((shelf.store r content).1, st.setBackend b backend) := by
  unfold store
  cases hb : st.backend b with
  | folder root cost =>
    rw [hb] at h
    cases h
  | memory shelf' =>
    rw [hb] at h
    obtain rfl := Option.some.inj h
    exact .inr ⟨_, rfl, rfl⟩
  | rigged shelf' rig =>
    rw [hb] at h
    obtain rfl := Option.some.inj h
    cases hf : rig.storeFault? with
    | some fault => exact .inl ⟨fault, by simp only [hf]⟩
    | none => exact .inr ⟨.rigged (shelf'.store r content).2 rig, rfl, by simp only [hf]⟩

theorem object?_store_shelf {st : Storage} {b : BackendId} {shelf : Shelf}
    (hb : (st.backend b).shelf? = some shelf) (r : Ref) (content : Stream) :
    match (st.store b r content).1 with
    | .ok () => ∃ bs, content.content = .ok bs ∧ Stored st (st.store b r content).2 b r bs
    | .error _ => ∀ b' r', (st.store b r content).2.object? b' r' = st.object? b' r' := by
  rcases store_of_shelf hb r content with ⟨fault, hst⟩ | ⟨backend, hbackend, hst⟩
  · rw [hst]
    exact fun _ _ => rfl
  · have hshelf := raw?_store shelf r content
    rw [hst]
    dsimp only
    cases ha : (shelf.store r content).1 with
    | error fault =>
      rw [ha] at hshelf
      exact object?_setBackend_of_raw? hb hbackend hshelf
    | ok u =>
      rw [ha] at hshelf
      obtain ⟨bs, hbs, hraw⟩ := hshelf
      refine ⟨bs, hbs, fun b' r' _ => ?_⟩
      by_cases hbb : b' = b
      · subst hbb
        rw [object?_setBackend_of_shelf hbackend, object?_of_shelf hb, hraw]
        simp
      · rw [object?_setBackend_of_ne hbb, if_neg fun h => hbb h.1]

theorem object?_store_folder {st : Storage} {b : BackendId} {root : Path} {cost : Nat}
    (hb : st.backend b = .folder root cost) (r : Ref) (content : Stream) :
    match (st.store b r content).1 with
    | .ok () => ∃ bs, content.content = .ok bs ∧ Stored st (st.store b r content).2 b r bs
    | .error _ => ∀ b' r', (st.store b r content).2.object? b' r' = st.object? b' r' := by
  -- the object of another backend is not in this folder
  have hroot : ∀ {b' root' cost' r'}, b' = b ∨ st.Apart b b' →
      st.backend b' = .folder root' cost' → (root' = root ∧ r' = r ↔ b' = b ∧ r' = r) := by
    intro b' root' cost' r' hap hb'
    constructor
    · rintro ⟨rfl, hr⟩
      refine ⟨hap.resolve_right fun hne => ?_, hr⟩
      exact hne _ (by rw [hb]; rfl) (by rw [hb']; rfl)
    · rintro ⟨rfl, hr⟩
      rw [hb] at hb'
      injection hb' with hroot
      exact ⟨hroot.symm, hr⟩
  have hfiles := fileAt?_store st.files root r st.drawUuid.1 content
  rw [store_folder hb]
  dsimp only
  cases ha : (Folder.store st.files root r st.drawUuid.1 content).1 with
  | error fault =>
    rw [ha] at hfiles
    intro b' r'
    rw [object?_files]
    cases hb' : st.backend b' with
    | folder root' cost' => exact (hfiles root' r').trans (object?_folder hb' r').symm
    | _ => rfl
  | ok u =>
    rw [ha] at hfiles
    obtain ⟨bs, hbs, hfile⟩ := hfiles
    refine ⟨bs, hbs, fun b' r' hap => ?_⟩
    rw [object?_files]
    cases hb' : st.backend b' with
    | folder root' cost' =>
      rw [object?_folder hb']
      refine (hfile root' r').trans ?_
      simp only [hroot hap hb']
    | _ =>
      have hne : b' ≠ b := by
        rintro rfl
        rw [hb] at hb'
        cases hb'
      simp [hne]

/-- A store that succeeds changes one object, and one that fails none. -/
theorem object?_store (st : Storage) (b : BackendId) (r : Ref) (content : Stream) :
    match (st.store b r content).1 with
    | .ok () => ∃ bs, content.content = .ok bs ∧ Stored st (st.store b r content).2 b r bs
    | .error _ => ∀ b' r', (st.store b r content).2.object? b' r' = st.object? b' r' := by
  cases hb : st.backend b with
  | folder root cost => exact object?_store_folder hb r content
  | memory shelf => exact object?_store_shelf (by rw [hb]; rfl) r content
  | rigged shelf rig => exact object?_store_shelf (by rw [hb]; rfl) r content

theorem object?_store_of_error {st : Storage} {b : BackendId} {r : Ref} {content : Stream}
    {fault : Fault} (h : (st.store b r content).1 = .error fault) (b' : BackendId) (r' : Ref) :
    (st.store b r content).2.object? b' r' = st.object? b' r' := by
  have hstore := object?_store st b r content
  rw [h] at hstore
  exact hstore b' r'

/-! ### Contents that fail -/

/-- The backend answers every store under a reference with this fault, whatever the content. -/
def Refuses (st : Storage) (b : BackendId) (r : Ref) (fault : Fault) : Prop :=
  ∀ content, (st.store b r content).1 = .error fault

theorem fst_store_folder (files : Files) (root : Path) (r : Ref) (id : Uuid) (content : Stream) :
    (Folder.store files root r id content).1 =
      match ((Folder.upload root r id content).run files).1 with
      | .ok () => .ok ()
      | .error fault => .error (.ofIo fault) := by
  unfold Folder.store
  obtain ⟨outcome, files'⟩ := (Folder.upload root r id content).run files
  cases outcome <;> rfl

/-- A backend that does not refuse every content fails if the content does, and in the same way. -/
theorem store_of_fault (st : Storage) (b : BackendId) (r : Ref) :
    (∃ fault, st.Refuses b r fault) ∨
      ∀ content fault, content.content = .error fault →
        (st.store b r content).1 = .error (.ofIo fault) := by
  unfold Refuses store
  cases hb : st.backend b with
  | memory shelf =>
    refine .inr fun content fault h => ?_
    simp only [Shelf.store, h]
  | rigged shelf rig =>
    cases hf : rig.storeFault? with
    | some fault => exact .inl ⟨fault, fun content => by simp only [hf]⟩
    | none =>
      refine .inr fun content fault h => ?_
      simp only [hf, Shelf.store, h]
  | folder root cost =>
    rcases Upload.run_start_of_fault (Folder.pathOf root r) (Folder.tempOf root r st.drawUuid.1)
      st.files with ⟨refusal, hrefused⟩ | hfails
    · refine .inl ⟨.ofIo refusal.fault, fun content => ?_⟩
      refine (fst_store_folder st.files root r st.drawUuid.1 content).trans ?_
      rw [Folder.upload, hrefused content]
    · refine .inr fun content fault h => ?_
      refine (fst_store_folder st.files root r st.drawUuid.1 content).trans ?_
      rw [Folder.upload, hfails content fault h]

theorem fst_store_setBackend_of_ne {st : Storage} {b b' : BackendId} (h : b' ≠ b)
    (backend : Backend) (r : Ref) (content : Stream) :
    ((st.setBackend b backend).store b' r content).1 = (st.store b' r content).1 := by
  unfold store
  rw [backend_setBackend, if_neg h]
  cases st.backend b' with
  | folder root cost => rfl
  | memory shelf => rfl
  | rigged shelf rig => cases hf : rig.storeFault? <;> simp only [hf]

theorem fst_shelf_store (shelf shelf' : Shelf) (r : Ref) (content : Stream) :
    (shelf'.store r content).1 = (shelf.store r content).1 := by
  unfold Shelf.store
  cases content.content <;> rfl

/-- That somebody has asked for an object makes no difference to a store. -/
theorem fst_store_fetch (st : Storage) (b : BackendId) (r : Ref) (b' : BackendId) (r' : Ref)
    (content : Stream) :
    ((st.fetch b r).2.store b' r' content).1 = (st.store b' r' content).1 := by
  rw [fetch_snd, trueAnswer]
  cases hb : st.backend b with
  | folder root cost => rfl
  | memory shelf =>
    by_cases h : b' = b
    · subst h
      unfold store
      simp only [backend_setBackend, if_true, hb]
      exact fst_shelf_store shelf _ r' content
    · exact fst_store_setBackend_of_ne h _ r' content
  | rigged shelf rig =>
    by_cases h : b' = b
    · subst h
      unfold store
      simp only [backend_setBackend, if_true, hb]
      cases rig.storeFault? with
      | some fault => rfl
      | none => exact fst_shelf_store shelf _ r' content
    · exact fst_store_setBackend_of_ne h _ r' content

/-- The storage after some contents were stored under one reference, one after another. -/
def storeAll (st : Storage) (b : BackendId) (r : Ref) (contents : List Bytes) : Storage :=
  contents.foldl (fun st bs => (st.store b r (.ofBytes bs)).2) st

/-- A backend takes whatever is stored under a reference. -/
def Takes (st : Storage) (b : BackendId) (r : Ref) : Prop :=
  ∀ contents bs, ((st.storeAll b r contents).store b r (.ofBytes bs)).1 = .ok ()

/-- Memory takes everything. -/
theorem takes_memory {st : Storage} {b : BackendId} {shelf : Shelf}
    (h : st.backend b = .memory shelf) (r : Ref) : st.Takes b r := by
  intro contents bs
  induction contents generalizing st shelf with
  | nil => simp [storeAll, store, h, Shelf.store]
  | cons content contents ih =>
    have hnext : (st.store b r (.ofBytes content)).2.backend b =
        .memory (shelf.store r (.ofBytes content)).2 := by
      simp only [store, h]
      rw [backend_setBackend, if_pos rfl]
    exact ih hnext

end Storage

end BlobVault
