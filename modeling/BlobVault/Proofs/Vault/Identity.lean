import BlobVault.Proofs.Vault.Mounting

/-!
# Who a volume is

A node is a vault under any calls, whether they succeed or not.  Whoever mounts a volume expects an
identifier; that the volume's backend carries it is so when the volume is bound, and stays so.

* `Node` : a vault, and what its mounts have bound;
* `Node.Sound` : the invariant, with one lemma for each kind of call;
* `Node.identified_performAll` : **whatever is called, descriptors and mounts stay, and every
  mounted volume has a backend that carries the identifier which its mount expected.**
-/

namespace BlobVault

/-! ### Any calls -/

/-- A volume was bound to a backend, by a mount that expected this identifier. -/
structure Binding where
  volume : VolumeId
  uuid : Uuid
  backend : BackendId
  deriving DecidableEq

/-- A vault, and what the mounts so far have bound, latest first. -/
structure Node where
  vault : Vault
  bindings : List Binding

/-- What can be called.  What is called with a backend needs one that is there. -/
inductive NodeCall where
  | addBackend (backend : Backend)
  | prepare (uuid : Uuid) (b : BackendId)
  | mount (id : VolumeId) (uuid : Uuid) (b : BackendId)
  | mountOrPrepare (volume : Volume) (b : BackendId)
  | mountConfigured (node : String) (mounts : List Mount)
  | write (volume : VolumeId) (collection : String) (r : Ref) (content : Stream) (hint : Bool)
  | fetch (r : Ref) (volume : VolumeId)
  | replicate (source target : VolumeId) (r : Ref)
  | scrub (r : Ref) (volume : VolumeId)
  /-- The catalog and the ring change otherwise. -/
  | learn (catalog : Catalog) (ring : KeyRing)

/-- Backends answer as they should, and no blob has the reference of descriptors. -/
def NodeCall.Allowed : NodeCall → Prop
  | .addBackend backend => backend.isPlain = true
  | .write _ _ _ content _ => ∀ plain, content.content = .ok plain →
      Ref.ofContent plain ≠ .descriptor
  | .learn catalog _ => catalog.records.get? .descriptor = none
  | _ => True

namespace Node

/-- Nothing has been mounted. -/
def start (v : Vault) : Node := ⟨v, []⟩

/-- The node after a mount. -/
def afterMount {α : Type} (s : Node) (x : Binding) (result : Except Fault α × Vault) : Node :=
  ⟨result.2, match result.1 with
    | .ok _ => x :: s.bindings
    | .error _ => s.bindings⟩

/-- The node after configured volumes were mounted, up to the first that cannot be. -/
def afterMountAll (s : Node) : List Mount → Node
  | [] => s
  | m :: ms =>
    match s.vault.catalog.findVolume m.volumeId with
    | .error _ => s
    | .ok volume =>
      let s' := s.afterMount ⟨volume.id, volume.uuid, s.vault.nextBackend⟩
        (s.vault.mountConfiguredOne m)
      match (s.vault.mountConfiguredOne m).1 with
      | .error _ => s'
      | .ok _ => s'.afterMountAll ms

/-- The node after a call. -/
def perform (s : Node) : NodeCall → Node
  | .addBackend backend =>
    { s with vault := { s.vault with storage := (s.vault.storage.addBackend backend).2 } }
  | .prepare uuid b =>
    if s.vault.storage.backends.contains b then { s with vault := (s.vault.prepare uuid b).2 }
    else s
  | .mount id uuid b =>
    if s.vault.storage.backends.contains b then
      s.afterMount ⟨id, uuid, b⟩ (s.vault.mount id uuid b)
    else s
  | .mountOrPrepare volume b =>
    if s.vault.storage.backends.contains b then
      s.afterMount ⟨volume.id, volume.uuid, b⟩ (s.vault.mountOrPrepare volume b)
    else s
  | .mountConfigured node mounts => s.afterMountAll (mounts.filter fun m => m.node == node)
  | .write volume collection r content hint =>
    { s with vault := (s.vault.write volume collection r content hint).2 }
  | .fetch r volume => { s with vault := (s.vault.fetch r volume).2 }
  | .replicate source target r => { s with vault := (s.vault.replicate source target r).2 }
  | .scrub r volume => { s with vault := (s.vault.scrub r volume).2 }
  | .learn catalog ring => { s with vault := { s.vault with catalog := catalog, ring := ring } }

/-- The node after some calls. -/
def performAll (s : Node) (calls : List NodeCall) : Node := calls.foldl perform s

/-- It is the configured mounting that is followed. -/
theorem vault_afterMountAll (s : Node) (ms : List Mount) :
    (s.afterMountAll ms).vault = (s.vault.mountAll ms).2 := by
  induction ms generalizing s with
  | nil => rfl
  | cons m ms ih =>
    rw [afterMountAll, Vault.mountAll]
    cases hvolume : s.vault.catalog.findVolume m.volumeId with
    | error fault => rw [Vault.mountConfiguredOne, hvolume]
    | ok volume =>
      dsimp only
      cases hone : s.vault.mountConfiguredOne m with
      | mk answer v =>
        cases answer with
        | error fault => rfl
        | ok id =>
          dsimp only
          rw [ih]
          show (v.mountAll ms).2 = _
          cases v.mountAll ms with
          | mk rest v' => cases rest <;> rfl

/-- What is known of a node, whatever was called. -/
structure Sound (s : Node) : Prop where
  regular : s.vault.Regular
  bound : ∀ x ∈ s.bindings,
    s.vault.mounts.get? x.volume = some x.backend ∧ s.vault.Carries x.backend x.uuid
  mounted : ∀ id b, s.vault.mounts.get? id = some b →
    ∃ x ∈ s.bindings, x.volume = id ∧ x.backend = b

/-- Descriptors, mounts and bindings are kept. -/
structure Upholds (s s' : Node) : Prop where
  vault : Vault.Upholds s.vault s'.vault
  bindings : ∀ x ∈ s.bindings, x ∈ s'.bindings

variable {s s' s'' : Node}

theorem Upholds.trans (h : Upholds s s') (h' : Upholds s' s'') : Upholds s s'' :=
  ⟨h.vault.trans h'.vault, fun x hx => h'.bindings x (h.bindings x hx)⟩

theorem Upholds.refl (h : s.Sound) : Upholds s s := ⟨.refl h.regular, fun _ => id⟩

/-- What binds nothing. -/
theorem Sound.of_spares (h : s.Sound) {v : Vault} (hs : Vault.Spares s.vault v) :
    Sound { s with vault := v } ∧ Upholds s { s with vault := v } := by
  refine ⟨⟨hs.regular, fun x hx => ?_, ?_⟩, hs.toUpholds, fun _ => id⟩
  · exact ⟨hs.mounts _ _ (h.bound x hx).1, (h.bound x hx).2.of_upholds hs.toUpholds⟩
  · rw [hs.unbound]
    exact h.mounted

theorem Sound.afterMount {α : Type} (h : s.Sound) {x : Binding} {result : Except Fault α × Vault}
    (hb : Vault.Binds s.vault x.volume x.uuid x.backend result) :
    (s.afterMount x result).Sound ∧ Upholds s (s.afterMount x result) := by
  rw [Node.afterMount]
  cases ha : result.1 with
  | error fault => exact h.of_spares ⟨hb.upholds, hb.refused fault ha⟩
  | ok a =>
    obtain ⟨hmounts, hcarries⟩ := hb.bound a ha
    refine ⟨⟨hb.upholds.regular, fun y hy => ?_, fun id b hget => ?_⟩, hb.upholds,
      fun y hy => List.mem_cons_of_mem _ hy⟩
    · rcases List.mem_cons.1 hy with rfl | hold
      · refine ⟨?_, hcarries⟩
        rw [hmounts]
        exact OrderedMap.get?_insert_self _ _ _
      · exact ⟨hb.upholds.mounts _ _ (h.bound y hold).1, (h.bound y hold).2.of_upholds hb.upholds⟩
    · rw [hmounts, OrderedMap.get?_insert] at hget
      split at hget
      · rename_i hid
        exact ⟨x, List.mem_cons_self, (Std.LawfulEqCmp.compare_eq_iff_eq.1 hid).symm,
          Option.some.inj hget⟩
      · obtain ⟨y, hy, hyid, hyb⟩ := h.mounted id b hget
        exact ⟨y, List.mem_cons_of_mem _ hy, hyid, hyb⟩

theorem Sound.afterMountAll (h : s.Sound) (ms : List Mount) :
    (s.afterMountAll ms).Sound ∧ Upholds s (s.afterMountAll ms) := by
  induction ms generalizing s with
  | nil => exact ⟨h, .refl h⟩
  | cons m ms ih =>
    rw [Node.afterMountAll]
    cases hvolume : s.vault.catalog.findVolume m.volumeId with
    | error fault => exact ⟨h, .refl h⟩
    | ok volume =>
      obtain ⟨hsound, hupholds⟩ := h.afterMount
        (x := ⟨volume.id, volume.uuid, s.vault.nextBackend⟩)
        (h.regular.mountConfiguredOne hvolume)
      dsimp only
      split
      · exact ⟨hsound, hupholds⟩
      · obtain ⟨hsound', hupholds'⟩ := ih hsound
        exact ⟨hsound', hupholds.trans hupholds'⟩

/-- Whatever is called, the node stays sound. -/
theorem Sound.perform (h : s.Sound) {c : NodeCall} (hc : c.Allowed) :
    (s.perform c).Sound ∧ Upholds s (s.perform c) := by
  cases c with
  | addBackend backend => exact h.of_spares (h.regular.addBackend hc)
  | prepare uuid b =>
    rw [Node.perform]
    split
    · exact h.of_spares (h.regular.prepare ‹_› uuid)
    · exact ⟨h, .refl h⟩
  | mount id uuid b =>
    rw [Node.perform]
    split
    · exact h.afterMount (x := ⟨id, uuid, b⟩) (h.regular.mount ‹_› id uuid)
    · exact ⟨h, .refl h⟩
  | mountOrPrepare volume b =>
    rw [Node.perform]
    split
    · exact h.afterMount (x := ⟨volume.id, volume.uuid, b⟩) (h.regular.mountOrPrepare ‹_› volume)
    · exact ⟨h, .refl h⟩
  | mountConfigured node mounts => exact h.afterMountAll _
  | write volume collection r content hint =>
    exact h.of_spares (h.regular.write volume collection r hc hint)
  | fetch r volume => exact h.of_spares (h.regular.fetch r volume)
  | replicate source target r => exact h.of_spares (h.regular.replicate source target r)
  | scrub r volume => exact h.of_spares (h.regular.scrub r volume)
  | learn catalog ring => exact h.of_spares (h.regular.of_knowledge hc ring)

theorem Sound.performAll (h : s.Sound) {calls : List NodeCall} (hc : ∀ c ∈ calls, c.Allowed) :
    (s.performAll calls).Sound ∧ Upholds s (s.performAll calls) := by
  induction calls generalizing s with
  | nil => exact ⟨h, .refl h⟩
  | cons c calls ih =>
    obtain ⟨hsound, hupholds⟩ := h.perform (hc c List.mem_cons_self)
    obtain ⟨hsound', hupholds'⟩ := ih hsound fun c' hc' => hc c' (List.mem_cons_of_mem _ hc')
    exact ⟨hsound', hupholds.trans hupholds'⟩

theorem sound_start {v : Vault} (h : v.Regular) (hfree : ∀ id, v.mounts.get? id = none) :
    (start v).Sound where
  regular := h
  bound _ hx := by cases hx
  mounted id b hb := by
    rw [start, hfree] at hb
    cases hb

/-! ### Who is mounted -/

/-- Every mounted volume has the backend to which it was bound, and this one carries the identifier
that was expected. -/
structure Identified (s : Node) : Prop where
  mounted : ∀ id b, s.vault.mounts.get? id = some b ↔
    ∃ x ∈ s.bindings, x.volume = id ∧ x.backend = b
  carried : ∀ x ∈ s.bindings, s.vault.Carries x.backend x.uuid
  once : ∀ x ∈ s.bindings, ∀ y ∈ s.bindings, x.volume = y.volume → x = y
  apart : ∀ x ∈ s.bindings, ∀ y ∈ s.bindings, x.uuid ≠ y.uuid →
    x.backend ≠ y.backend ∧ s.vault.storage.Apart x.backend y.backend

theorem Sound.identified (h : s.Sound) : s.Identified where
  mounted id b := by
    refine ⟨h.mounted id b, ?_⟩
    rintro ⟨x, hx, rfl, rfl⟩
    exact (h.bound x hx).1
  carried x hx := (h.bound x hx).2
  once x hx y hy hvolume := by
    obtain ⟨hxb, hxc⟩ := h.bound x hx
    obtain ⟨hyb, hyc⟩ := h.bound y hy
    have hbackend : x.backend = y.backend := by
      rw [hvolume, hyb] at hxb
      exact (Option.some.inj hxb).symm
    have huuid : y.uuid = x.uuid := hxc.eq hyc (.inl hbackend.symm)
    cases x
    cases y
    simp_all only
  apart x hx y hy huuid := by
    have heq := fun hplace => huuid ((h.bound x hx).2.eq (h.bound y hy).2 hplace).symm
    exact ⟨fun hb => heq (.inl hb.symm), Classical.byContradiction fun hap => heq (.inr hap)⟩

/-- From any vault with nothing mounted, whatever is called: every mounted volume is the one that
its mount expected; and whatever is called then, descriptors and mounts stay. -/
theorem identified_performAll {v : Vault} (hv : v.Regular)
    (hfree : ∀ id, v.mounts.get? id = none) {calls later : List NodeCall}
    (hcalls : ∀ c ∈ calls ++ later, c.Allowed) :
    ((start v).performAll calls).Identified ∧
      Upholds ((start v).performAll calls) ((start v).performAll (calls ++ later)) := by
  obtain ⟨hsound, -⟩ := (sound_start hv hfree).performAll
    fun c hc => hcalls c (List.mem_append_left _ hc)
  obtain ⟨-, hupholds⟩ := hsound.performAll fun c hc => hcalls c (List.mem_append_right _ hc)
  refine ⟨hsound.identified, ?_⟩
  rw [show (start v).performAll (calls ++ later) = _ from List.foldl_append]
  exact hupholds

namespace Sample

/-- A backend whose descriptor cannot be read. -/
def scrawled : Shelf :=
  { Shelf.empty 10 with objects := OrderedMap.empty.insert .descriptor [0x7B] }

/-- A backend is prepared and, after a mount that expects another identifier, mounted. -/
def calls : List NodeCall :=
  [.addBackend (.memory (.empty 10)), .addBackend (.memory scrawled), .mount 1 ⟨7⟩ 0,
    .prepare ⟨7⟩ 0, .mount 1 ⟨8⟩ 0, .mount 1 ⟨7⟩ 0]

/-- It is written to, and the other backend is treated as a new one, then as the same one. -/
def later : List NodeCall :=
  [.write 1 "photos" (.repeated 1) (.ofBytes [1, 2, 3]) false, .prepare ⟨9⟩ 1, .mount 1 ⟨7⟩ 1]

theorem allowed_calls : ∀ c ∈ calls ++ later, c.Allowed := by
  have hwrite : Ref.ofContent [1, 2, 3] ≠ .descriptor := by decide +kernel
  simp [calls, later, NodeCall.Allowed, Backend.isPlain, hwrite]

def node : Node := (start (.empty 1)).performAll calls

theorem bindings_node : node.bindings = [⟨1, ⟨7⟩, 0⟩] := by decide +kernel

theorem scrawled_node : node.vault.storage.object? 1 .descriptor = some [0x7B] := by
  decide +kernel

end Sample

theorem identified_performAll_sample :
    (Vault.empty 1).Regular ∧ (∀ c ∈ Sample.calls ++ Sample.later, c.Allowed) ∧
      Sample.node.bindings = [⟨1, ⟨7⟩, 0⟩] ∧
      (Sample.node.performAll Sample.later).vault.mounts.get? 1 = some 0 ∧
      (Sample.node.performAll Sample.later).vault.Carries 0 ⟨7⟩ ∧
      (Sample.node.performAll Sample.later).vault.storage.object? 1 .descriptor =
        some [0x7B] := by
  obtain ⟨hidentified, hupholds⟩ := identified_performAll (Vault.regular_empty 1)
    OrderedMap.get?_empty Sample.allowed_calls
  rw [show (start (.empty 1)).performAll (Sample.calls ++ Sample.later) =
    Sample.node.performAll Sample.later from List.foldl_append] at hupholds
  have hbound : (⟨1, ⟨7⟩, 0⟩ : Binding) ∈ Sample.node.bindings := by
    rw [Sample.bindings_node]
    exact List.mem_singleton_self _
  exact ⟨Vault.regular_empty 1, Sample.allowed_calls, Sample.bindings_node,
    hupholds.vault.mounts _ _ ((hidentified.mounted 1 0).2 ⟨_, hbound, rfl, rfl⟩),
    (hidentified.carried _ hbound).of_upholds hupholds.vault,
    hupholds.vault.descriptors _ _ Sample.scrawled_node⟩

end Node

end BlobVault
