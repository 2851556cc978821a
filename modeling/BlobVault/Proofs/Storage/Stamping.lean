import BlobVault.Proofs.Catalog.Descriptor
import BlobVault.Proofs.Storage.Effects

/-!
# Backends that are given a descriptor

To stamp a backend is to write its first descriptor.  All backends in one folder are stamped
together, also those that are added later.

* `Storage.Stamped` : some backends were stamped, and nothing else has changed;
* `Storage.stamped_fetch`, `Storage.stamped_store` : a fetch stamps nothing, and a descriptor that
  is stored where there is none stamps its backend;
* `Storage.addBackends` : the backends that a list of setups describes are added in order;
* `Storage.Stamped.addBackends` : **it makes no difference whether backends are added before others
  are stamped or after that.**
-/

namespace BlobVault

/-- The bytes of the descriptor of an identifier. -/
def Uuid.stamp (uuid : Uuid) : Bytes := Utf8.encode (Descriptor.toJson ⟨uuid⟩).render

namespace Storage

/-- An object is what it was before, or it is a first descriptor of one of these identifiers. -/
def Kept (r : Ref) (whose : Uuid → Prop) (before after : Option Bytes) : Prop :=
  after = before ∨
    r = .descriptor ∧ before = none ∧ ∃ uuid, whose uuid ∧ after = some uuid.stamp

namespace Kept

variable {r : Ref} {whose whose' : Uuid → Prop} {before between after : Option Bytes}

theorem mono (h : Kept r whose before after) (hwhose : ∀ uuid, whose uuid → whose' uuid) :
    Kept r whose' before after :=
  h.imp_right fun ⟨hr, hnone, uuid, huuid, hafter⟩ => ⟨hr, hnone, uuid, hwhose uuid huuid, hafter⟩

theorem trans (h : Kept r whose before between) (h' : Kept r whose between after) :
    Kept r whose before after := by
  rcases h with rfl | ⟨hr, hnone, uuid, huuid, rfl⟩
  · exact h'
  · -- what has been stamped is not stamped again
    rcases h' with rfl | ⟨-, hblank, -⟩
    · exact .inr ⟨hr, hnone, uuid, huuid, rfl⟩
    · cases hblank

theorem some_of_some {bs : Bytes} (h : Kept r whose (some bs) after) : after = some bs := by
  rcases h with rfl | ⟨-, hblank, -⟩
  · rfl
  · cases hblank

end Kept

/-- Some backends were stamped with some identifiers, and nothing else has changed: there are the
same backends, and every object, in all folders there could be, is what it was or is a first
descriptor. -/
structure Stamped (stamps : BackendId → Uuid → Prop) (st st' : Storage) : Prop where
  known : ∀ b, st'.backends.contains b = st.backends.contains b
  backends : ∀ b, (st'.backend b).bare = (st.backend b).bare
  objects : ∀ b r, Kept r (fun uuid => ∃ b₀, stamps b₀ uuid ∧ st.Shares b₀ b)
    (st.object? b r) (st'.object? b r)
  files : ∀ root r, Kept r (fun uuid => ∃ b₀, stamps b₀ uuid ∧ (st.backend b₀).place? = some root)
    (st.files.fileAt? (Folder.pathOf root r)) (st'.files.fileAt? (Folder.pathOf root r))

namespace Stamped

variable {stamps stamps' : BackendId → Uuid → Prop} {st st' st'' : Storage} {b : BackendId}

theorem refl (st : Storage) : Stamped stamps st st :=
  ⟨fun _ => rfl, fun _ => rfl, fun _ _ => .inl rfl, fun _ _ => .inl rfl⟩

theorem mono (h : Stamped stamps st st') (hstamps : ∀ b uuid, stamps b uuid → stamps' b uuid) :
    Stamped stamps' st st' where
  known := h.known
  backends := h.backends
  objects b r := (h.objects b r).mono fun uuid ⟨b₀, hb₀, hplace⟩ =>
    ⟨b₀, hstamps b₀ uuid hb₀, hplace⟩
  files root r := (h.files root r).mono fun uuid ⟨b₀, hb₀, hplace⟩ =>
    ⟨b₀, hstamps b₀ uuid hb₀, hplace⟩

theorem trans (h : Stamped stamps st st') (h' : Stamped stamps st' st'') :
    Stamped stamps st st'' where
  known b := (h'.known b).trans (h.known b)
  backends b := (h'.backends b).trans (h.backends b)
  objects b r := by
    refine (h.objects b r).trans ((h'.objects b r).mono fun uuid ⟨b₀, hb₀, hplace⟩ => ?_)
    exact ⟨b₀, hb₀, (shares_congr h.backends).1 hplace⟩
  files root r := by
    refine (h.files root r).trans ((h'.files root r).mono fun uuid ⟨b₀, hb₀, hplace⟩ => ?_)
    exact ⟨b₀, hb₀, (place?_of_bare (h.backends b₀)).symm.trans hplace⟩

/-- What is there stays. -/
theorem object?_of_some (h : Stamped stamps st st') {r : Ref} {bs : Bytes}
    (hobject : st.object? b r = some bs) : st'.object? b r = some bs := by
  have hkept := h.objects b r
  rw [hobject] at hkept
  exact hkept.some_of_some

theorem numbered (h : Stamped stamps st st') (hn : st.Numbered) :
    st'.Numbered ∧ st'.backends.size = st.backends.size := by
  have hbelow : ∀ b, st'.backends.contains b = true ↔ b < st.backends.size := fun b => by
    rw [h.known, hn]
  have hsize : st'.backends.size = st.backends.size := OrderedMap.size_eq_of_contains hbelow
  exact ⟨fun b => by rw [hbelow, hsize], hsize⟩

end Stamped

variable {st st' : Storage} {b : BackendId}

/-! ### Fetches and stores -/

theorem stamped_fetch {stamps : BackendId → Uuid → Prop} (hb : st.backends.contains b = true)
    (r : Ref) : Stamped stamps st (st.fetch b r).2 where
  known := (keeps_fetch hb r).contains
  backends := (same_fetch st b r).backends
  objects b' r' := .inl (object?_fetch st b r b' r')
  files root r' := .inl (by
    rw [fetch_snd, trueAnswer]
    cases st.backend b <;> rfl)

/-- Where a folder could have an object, a store changes it only if it is in the store's place. -/
theorem fileAt?_store_any (st : Storage) (b : BackendId) (r : Ref) (content : Stream) :
    match (st.store b r content).1 with
    | .ok () => ∃ bs, content.content = .ok bs ∧ ∀ root' r',
        (st.store b r content).2.files.fileAt? (Folder.pathOf root' r') =
          if (st.backend b).place? = some root' ∧ r' = r then some bs
          else st.files.fileAt? (Folder.pathOf root' r')
    | .error _ => ∀ root' r', (st.store b r content).2.files.fileAt? (Folder.pathOf root' r') =
        st.files.fileAt? (Folder.pathOf root' r') := by
  cases hb : st.backend b with
  | memory shelf =>
    simp only [store, hb, Shelf.store]
    cases content.content with
    | ok bs => exact ⟨bs, rfl, fun root' r' => (if_neg fun h => by cases h.1).symm⟩
    | error fault => exact fun _ _ => rfl
  | rigged shelf rig =>
    simp only [store, hb, Shelf.store]
    cases rig.storeFault? with
    | some fault => exact fun _ _ => rfl
    | none =>
      cases content.content with
      | ok bs => exact ⟨bs, rfl, fun root' r' => (if_neg fun h => by cases h.1).symm⟩
      | error fault => exact fun _ _ => rfl
  | folder root cost =>
    have hfiles := fileAt?_store st.files root r st.drawUuid.1 content
    rw [store_folder hb]
    cases ha : (Folder.store st.files root r st.drawUuid.1 content).1 with
    | error fault =>
      rw [ha] at hfiles
      exact hfiles
    | ok u =>
      rw [ha] at hfiles
      obtain ⟨bs, hbs, hfile⟩ := hfiles
      refine ⟨bs, hbs, fun root' r' => ?_⟩
      have hplace : (Backend.folder root cost).place? = some root' ↔ root' = root :=
        ⟨fun h => (Option.some.inj h).symm, fun h => by rw [h]; rfl⟩
      simp only [hplace]
      exact hfile root' r'

/-- A descriptor that is stored where there is none stamps its backend, if it does anything. -/
theorem stamped_store (hb : st.backends.contains b = true)
    (hblank : st.object? b .descriptor = none) (uuid : Uuid) :
    Stamped (fun b' uuid' => b' = b ∧ uuid' = uuid) st
      (st.store b .descriptor (.ofBytes uuid.stamp)).2 := by
  have hknown := (keeps_store (r := .descriptor) hb (.inr hblank) (.ofBytes uuid.stamp)).contains
  have heffect := store_effect st b .descriptor (.ofBytes uuid.stamp)
  have hfiles := fileAt?_store_any st b .descriptor (.ofBytes uuid.stamp)
  cases hanswer : (st.store b .descriptor (.ofBytes uuid.stamp)).1 with
  | error fault =>
    rw [hanswer] at heffect hfiles
    exact ⟨hknown, heffect.backends, fun b' r => .inl (heffect.objects b' r),
      fun root r => .inl (hfiles root r)⟩
  | ok u =>
    rw [hanswer] at heffect hfiles
    obtain ⟨bs, hbs, hputs⟩ := heffect
    obtain rfl := Except.ok.inj ((Stream.content_ofBytes _).symm.trans hbs)
    obtain ⟨bs', hbs', hfile⟩ := hfiles
    obtain rfl := Except.ok.inj ((Stream.content_ofBytes _).symm.trans hbs')
    refine ⟨hknown, hputs.backends, fun b' r => ?_, fun root r => ?_⟩
    · by_cases hplace : st.Shares b b' ∧ r = .descriptor
      · obtain ⟨hshares, rfl⟩ := hplace
        exact .inr ⟨rfl, (object?_of_shares hshares _).trans hblank, uuid,
          ⟨b, ⟨rfl, rfl⟩, hshares⟩, hputs.placed b' hshares⟩
      · exact .inl (hputs.others b' r hplace)
    · rw [hfile]
      split
      · rename_i hplace
        obtain ⟨hroot, rfl⟩ := hplace
        exact .inr ⟨rfl, (fileAt?_of_place hroot _).trans hblank, uuid, ⟨b, ⟨rfl, rfl⟩, hroot⟩, rfl⟩
      · exact .inl rfl

/-! ### More backends -/

/-- The backends that some setups describe are added. -/
def addBackends (st : Storage) (setups : List BackendSetup) : Storage :=
  setups.foldl (fun st setup => (st.addBackend setup.build).2) st

theorem backend_addBackend_self (st : Storage) (backend : Backend) :
    (st.addBackend backend).2.backend st.backends.size = backend :=
  (backend_setBackend ..).trans (if_pos rfl)

/-- Backends that are added leave the others as they were. -/
theorem Numbered.backend_addBackends (h : st.Numbered) (setups : List BackendSetup)
    (hb : st.backends.contains b = true) : (st.addBackends setups).backend b = st.backend b := by
  induction setups generalizing st with
  | nil => rfl
  | cons setup setups ih =>
    refine (ih (h.addBackend setup.build) ?_).trans (h.backend_addBackend setup.build hb)
    exact (contains_addBackend _ _ b).2 (.inr hb)

theorem Numbered.object?_addBackends (h : st.Numbered) (setups : List BackendSetup) {r : Ref}
    {bs : Bytes} (hobject : st.object? b r = some bs) :
    (st.addBackends setups).object? b r = some bs := by
  induction setups generalizing st with
  | nil => exact hobject
  | cons setup setups ih =>
    exact ih (h.addBackend setup.build) (h.object?_addBackend setup.build hobject)

namespace Stamped

variable {stamps : BackendId → Uuid → Prop}

/-- A backend that is added after others were stamped might as well have been there before. -/
theorem addBackend (h : Stamped stamps st st') (hn : st.Numbered)
    (hstamps : ∀ b uuid, stamps b uuid → st.backends.contains b = true) (backend : Backend) :
    Stamped stamps (st.addBackend backend).2 (st'.addBackend backend).2 := by
  obtain ⟨-, hsize⟩ := h.numbered hn
  have hnew : ∀ b, (st.addBackend backend).2.backend b =
      if b = st.backends.size then backend else st.backend b := fun b => backend_setBackend ..
  have hnew' : ∀ b, (st'.addBackend backend).2.backend b =
      if b = st.backends.size then backend else st'.backend b := fun b => by
    rw [← hsize]
    exact backend_setBackend ..
  have hold : ∀ b uuid, stamps b uuid → (st.addBackend backend).2.backend b = st.backend b :=
    fun b uuid hb => hn.backend_addBackend backend (hstamps b uuid hb)
  have hbackends : ∀ b, ((st'.addBackend backend).2.backend b).bare =
      ((st.addBackend backend).2.backend b).bare := fun b => by
    rw [hnew, hnew']
    split
    · rfl
    · exact h.backends b
  have hfiles : ∀ root r, Kept r (fun uuid => ∃ b₀, stamps b₀ uuid ∧
      ((st.addBackend backend).2.backend b₀).place? = some root)
      (st.files.fileAt? (Folder.pathOf root r)) (st'.files.fileAt? (Folder.pathOf root r)) :=
    fun root r => (h.files root r).mono fun uuid ⟨b₀, hb₀, hplace⟩ =>
      ⟨b₀, hb₀, by rwa [hold b₀ uuid hb₀]⟩
  refine ⟨fun b => ?_, hbackends, fun b r => ?_, hfiles⟩
  · rw [Bool.eq_iff_iff, contains_addBackend, contains_addBackend, hsize, h.known]
  · by_cases hb : b = st.backends.size
    · have hself : (st.addBackend backend).2.backend b = backend := by rw [hnew, if_pos hb]
      have hself' : (st'.addBackend backend).2.backend b = backend := by rw [hnew', if_pos hb]
      have hshelf : ∀ shelf, backend.shelf? = some shelf →
          (st'.addBackend backend).2.object? b r = (st.addBackend backend).2.object? b r := by
        intro shelf h
        rw [object?_of_shelf (hself'.symm ▸ h), object?_of_shelf (hself.symm ▸ h)]
      cases backend with
      | memory shelf => exact .inl (hshelf shelf rfl)
      | rigged shelf rig => exact .inl (hshelf shelf rfl)
      | folder root cost =>
        -- the new folder may be one in which a backend was stamped
        rw [object?_folder hself, object?_folder hself']
        refine (hfiles root r).mono fun uuid ⟨b₀, hb₀, hplace⟩ => ⟨b₀, hb₀, .inr fun hap => ?_⟩
        exact hap root hplace (by rw [hself]; rfl)
    · have hobject : (st.addBackend backend).2.object? b r = st.object? b r :=
        object?_setBackend_of_ne hb r
      have hobject' : (st'.addBackend backend).2.object? b r = st'.object? b r :=
        object?_setBackend_of_ne (by rwa [hsize]) r
      rw [hobject, hobject']
      refine (h.objects b r).mono fun uuid ⟨b₀, hb₀, hshares⟩ => ⟨b₀, hb₀, ?_⟩
      have hsame : (st.addBackend backend).2.backend b = st.backend b := by rw [hnew, if_neg hb]
      simpa only [Shares, Apart, hold b₀ uuid hb₀, hsame] using hshares

/-- **Backends that are added after others were stamped might as well have been there before.** -/
theorem addBackends (h : Stamped stamps st st') (hn : st.Numbered)
    (hstamps : ∀ b uuid, stamps b uuid → st.backends.contains b = true)
    (setups : List BackendSetup) :
    Stamped stamps (st.addBackends setups) (st'.addBackends setups) := by
  induction setups generalizing st st' with
  | nil => exact h
  | cons setup setups ih =>
    refine ih (h.addBackend hn hstamps setup.build) (hn.addBackend setup.build) fun b uuid hb => ?_
    exact (contains_addBackend _ _ b).2 (.inr (hstamps b uuid hb))

end Stamped

end Storage

end BlobVault
