import BlobVault.Proofs.Storage.Confinement

/-!
# The whole storage, before and after

What a fetch and a store do to all backends at once, and to all files.  Two backends may keep their
objects in one folder; then they have the same objects before and after.

* `Storage.Same` : nothing has changed but what was asked for;
* `Storage.Puts` : one object has been put in its place, and nothing else has changed;
* `Storage.same_fetch` : a fetch changes nothing;
* `Storage.store_effect` : **a store puts its content in place or changes nothing**, on every kind of
  backend and whatever else is there.
-/

namespace BlobVault

namespace Backend

/-- The backend, without its objects and without what was asked of it. -/
def bare : Backend → Backend
  | memory shelf => memory (.empty shelf.cost)
  | folder root cost => folder root cost
  | rigged shelf rig => rigged (.empty shelf.cost) rig

theorem memory_of_bare {backend : Backend} {shelf : Shelf}
    (h : backend.bare = (memory shelf).bare) : ∃ shelf', backend = memory shelf' := by
  cases backend with
  | memory shelf' => exact ⟨shelf', rfl⟩
  | folder root cost => cases h
  | rigged shelf' rig => cases h

end Backend

namespace Storage

variable {st st' st'' : Storage} {b b' : BackendId} {r : Ref} {bs : Bytes}

/-- The two are one backend, or keep their objects in one folder. -/
def Shares (st : Storage) (b b' : BackendId) : Prop := b' = b ∨ ¬ st.Apart b b'

/-- Nothing has changed between the two storages but what was asked for: the backends are the same,
they have the same objects, and no file has appeared. -/
structure Same (st st' : Storage) : Prop where
  backends : ∀ b, (st'.backend b).bare = (st.backend b).bare
  objects : ∀ b r, st'.object? b r = st.object? b r
  files : ∀ path bs, st'.files.fileAt? path = some bs → st.files.fileAt? path = some bs

/-- One object has been put in its place between the two storages, and nothing else has changed. -/
structure Puts (st st' : Storage) (b : BackendId) (r : Ref) (bs : Bytes) : Prop where
  backends : ∀ b', (st'.backend b').bare = (st.backend b').bare
  placed : ∀ b', st.Shares b b' → st'.object? b' r = some bs
  others : ∀ b' r', ¬ (st.Shares b b' ∧ r' = r) → st'.object? b' r' = st.object? b' r'
  files : ∀ path bs', st'.files.fileAt? path = some bs' → st.files.fileAt? path = some bs' ∨
    ∃ root, (st.backend b).place? = some root ∧ path = Folder.pathOf root r ∧ bs' = bs

/-! ### Places -/

theorem place?_of_bare {backend backend' : Backend} (h : backend'.bare = backend.bare) :
    backend'.place? = backend.place? := by
  have hbare : ∀ backend : Backend, backend.bare.place? = backend.place? := fun backend => by
    cases backend <;> rfl
  rw [← hbare, h, hbare]

theorem isPlain_of_bare {backend backend' : Backend} (h : backend'.bare = backend.bare) :
    backend'.isPlain = backend.isPlain := by
  have hbare : ∀ backend : Backend, backend.bare.isPlain = backend.isPlain := fun backend => by
    cases backend <;> rfl
  rw [← hbare, h, hbare]

/-- A backend with a place keeps its objects in files. -/
theorem fileAt?_of_place {root : Path} (h : (st.backend b).place? = some root) (r : Ref) :
    st.files.fileAt? (Folder.pathOf root r) = st.object? b r := by
  cases hb : st.backend b with
  | memory shelf => rw [hb] at h; cases h
  | rigged shelf rig => rw [hb] at h; cases h
  | folder root' cost =>
    rw [hb] at h
    rw [object?_folder hb, Option.some.inj h]

/-- Which backends share a folder depends on the backends alone. -/
theorem shares_congr (h : ∀ b, (st'.backend b).bare = (st.backend b).bare) :
    st'.Shares b b' ↔ st.Shares b b' := by
  simp only [Shares, Apart, place?_of_bare (h _)]

/-- Backends that share a folder have the same objects. -/
theorem object?_of_shares (h : st.Shares b b') (r : Ref) : st.object? b' r = st.object? b r := by
  rcases h with rfl | h
  · rfl
  · exact object?_of_not_apart h r

namespace Same

theorem refl (st : Storage) : Same st st := ⟨fun _ => rfl, fun _ _ => rfl, fun _ _ h => h⟩

theorem trans (h : Same st st') (h' : Same st' st'') : Same st st'' where
  backends b := (h'.backends b).trans (h.backends b)
  objects b r := (h'.objects b r).trans (h.objects b r)
  files path bs hfile := h.files path bs (h'.files path bs hfile)

theorem puts (h : Same st st') (h' : Puts st' st'' b r bs) : Puts st st'' b r bs where
  backends b' := (h'.backends b').trans (h.backends b')
  placed b' hb' := h'.placed b' ((shares_congr h.backends).2 hb')
  others b' r' hother := by
    rw [h'.others b' r' fun hb' => hother ⟨(shares_congr h.backends).1 hb'.1, hb'.2⟩, h.objects]
  files path bs' hfile := by
    rw [← place?_of_bare (h.backends b)]
    exact (h'.files path bs' hfile).imp_left (h.files path bs')

end Same

/-! ### Backends that are replaced -/

/-- The backends are the same if one is replaced by itself with other objects. -/
theorem bare_setBackend {backend : Backend} (h : backend.bare = (st.backend b).bare)
    (b' : BackendId) : ((st.setBackend b backend).backend b').bare = (st.backend b').bare := by
  rw [backend_setBackend]
  split
  · rename_i hb
    rw [h, hb]
  · rfl

/-- A fetch changes nothing. -/
theorem same_fetch (st : Storage) (b : BackendId) (r : Ref) : Same st (st.fetch b r).2 where
  backends b' := by
    rw [fetch_snd, trueAnswer]
    cases hb : st.backend b with
    | folder root cost => rfl
    | memory shelf => exact bare_setBackend (by rw [hb]; rfl) b'
    | rigged shelf rig => exact bare_setBackend (by rw [hb]; rfl) b'
  objects := object?_fetch st b r
  files path bs hfile := by
    rw [fetch_snd, trueAnswer] at hfile
    cases hb : st.backend b <;> simp only [hb] at hfile <;> exact hfile

/-! ### Stores -/

theorem cost_store (shelf : Shelf) (r : Ref) (content : Stream) :
    (shelf.store r content).2.cost = shelf.cost := by
  unfold Shelf.store
  cases content.content <;> rfl

theorem bare_store (st : Storage) (b : BackendId) (r : Ref) (content : Stream) (b' : BackendId) :
    ((st.store b r content).2.backend b').bare = (st.backend b').bare := by
  unfold store
  cases hb : st.backend b with
  | folder root cost => rfl
  | memory shelf => exact bare_setBackend (by rw [hb, Backend.bare, Backend.bare, cost_store]) b'
  | rigged shelf rig =>
    cases hf : rig.storeFault? with
    | some fault => simp only [hf]
    | none =>
      simp only [hf]
      exact bare_setBackend (by rw [hb, Backend.bare, Backend.bare, cost_store]) b'

/-- A store does not add to what was asked for. -/
theorem asked_store (st : Storage) (b : BackendId) (r : Ref) (content : Stream) (b' : BackendId) :
    ((st.store b r content).2.shelf? b').map (·.asked) = (st.shelf? b').map (·.asked) := by
  have hshelf : ∀ shelf : Shelf, (shelf.store r content).2.asked = shelf.asked := fun shelf => by
    unfold Shelf.store
    cases content.content <;> rfl
  by_cases hb' : b' = b
  · subst hb'
    unfold shelf? store
    cases hb : st.backend b' with
    | folder root cost =>
      show ((st.backend b').shelf?).map (·.asked) = _
      rw [hb]
    | memory shelf => simp [backend_setBackend, Backend.shelf?, hshelf]
    | rigged shelf rig =>
      cases hf : rig.storeFault? with
      | some fault => simp [hb, hf]
      | none => simp [hf, backend_setBackend, Backend.shelf?, hshelf]
  · rw [shelf?, backend_store_of_ne content hb', shelf?]

/-- A store on any kind of backend that succeeds has kept its content. -/
theorem object?_store_of_ok (hok : (st.store b r content).1 = .ok ()) :
    ∃ bs, content.content = .ok bs ∧ (st.store b r content).2.object? b r = some bs := by
  have hstore := object?_store st b r content
  rw [hok] at hstore
  obtain ⟨bs, hbs, hstored⟩ := hstore
  exact ⟨bs, hbs, (hstored b r (.inl rfl)).trans (if_pos ⟨rfl, rfl⟩)⟩

/-- The only file that a store can make is that of its object. -/
theorem fileAt?_of_store {content : Stream} {path : Path}
    (h : (st.store b r content).2.files.fileAt? path = some bs) :
    st.files.fileAt? path = some bs ∨
      ∃ root, (st.backend b).place? = some root ∧ path = Folder.pathOf root r := by
  cases hb : st.backend b with
  | memory shelf =>
    simp only [store, hb] at h
    exact .inl h
  | rigged shelf rig =>
    refine .inl ?_
    cases hf : rig.storeFault? with
    | some fault =>
      simp only [store, hb, hf] at h
      exact h
    | none =>
      simp only [store, hb, hf] at h
      exact h
  | folder root cost =>
    by_cases hpath : path = Folder.pathOf root r
    · exact .inr ⟨root, rfl, hpath⟩
    · refine .inl ?_
      have hne := Folder.pathOf_ne_tempOf root root r r st.drawUuid.1
      have hfiles : (st.store b r content).2.files =
          ((Folder.upload root r st.drawUuid.1 content).run st.files).2 := by
        rw [store_folder hb, Folder.store]
        obtain ⟨outcome, files⟩ := (Folder.upload root r st.drawUuid.1 content).run st.files
        cases outcome <;> rfl
      rw [hfiles, Folder.upload] at h
      by_cases htemp : path = Folder.tempOf root r st.drawUuid.1
      · subst htemp
        rcases Upload.fileAt?_temp_run_start hne content st.files with hgone | hsame
        · rw [hgone] at h
          cases h
        · rwa [hsame] at h
      · rwa [(Upload.run_start hne content st.files).1 path htemp hpath] at h

/-- **A store puts its content in place or changes nothing.** -/
theorem store_effect (st : Storage) (b : BackendId) (r : Ref) (content : Stream) :
    match (st.store b r content).1 with
    | .ok () => ∃ bs, content.content = .ok bs ∧ Puts st (st.store b r content).2 b r bs
    | .error _ => Same st (st.store b r content).2 := by
  have hbare := bare_store st b r content
  have hplace : ∀ {root}, (st.backend b).place? = some root →
      ((st.store b r content).2.backend b).place? = some root :=
    fun h => (place?_of_bare (hbare b)).trans h
  cases hanswer : (st.store b r content).1 with
  | error fault =>
    have hobjects := object?_store_of_error hanswer
    refine ⟨hbare, hobjects, fun path bs hfile => ?_⟩
    rcases fileAt?_of_store hfile with hold | ⟨root, hroot, rfl⟩
    · exact hold
    · rwa [fileAt?_of_place (hplace hroot), hobjects, ← fileAt?_of_place hroot] at hfile
  | ok u =>
    obtain ⟨bs, hbs, hobject⟩ := object?_store_of_ok hanswer
    refine ⟨bs, hbs, hbare, fun b' hb' => ?_, fun b' r' hother => ?_, fun path bs' hfile => ?_⟩
    · rw [object?_of_shares ((shares_congr hbare).2 hb'), hobject]
    · refine object?_store_of_other content fun hr => ?_
      have hapart : ¬ st.Shares b b' := fun hb' => hother ⟨hb', hr⟩
      exact ⟨fun hb' => hapart (.inl hb'), Classical.byContradiction fun h => hapart (.inr h)⟩
    · rcases fileAt?_of_store hfile with hold | ⟨root, hroot, rfl⟩
      · exact .inl hold
      · refine .inr ⟨root, hroot, rfl, ?_⟩
        rw [fileAt?_of_place (hplace hroot), hobject] at hfile
        exact (Option.some.inj hfile).symm

end Storage

end BlobVault
