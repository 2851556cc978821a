import BlobVault.Proofs.Catalog.Records
import BlobVault.Proofs.History
import Mathlib.Algebra.GroupWithZero.Nat

/-!
# Records and counters

The counters of a volume are kept up by the operations that list it in a record, one at a time.
Whatever these operations are given, and whichever of them fail, the counters stay those of a count
over all records.

* `BlobRecord.Placed` : where the copies of a blob are and where they are still wanted;
* `Books.Step` : an operation of the catalog, whose volumes were added with counters of their own;
* `Books.Sound.step` : every operation keeps the books;
* `Books.balanced_of_history` : **after every history the counters of a volume are those it was
  opened with, and what the records that list it add to them.**
-/

namespace BlobVault

/-! ### Where copies are -/

/-- The volumes of a record are known, each is listed once, and none of them is waited for. -/
structure BlobRecord.Placed (b : BlobRecord) (volumes : OrderedMap VolumeId Volume) : Prop where
  nodup : b.volumes.Nodup
  ne_nil : b.volumes ≠ []
  apart : ∀ id ∈ b.volumes, id ∉ b.pending
  known : ∀ id ∈ b.volumes, volumes.contains id = true

namespace BlobRecord.Placed

variable {b : BlobRecord} {volumes volumes' : OrderedMap VolumeId Volume}

theorem mono (h : b.Placed volumes)
    (hknown : ∀ id, volumes.contains id = true → volumes'.contains id = true) :
    b.Placed volumes' :=
  ⟨h.nodup, h.ne_nil, h.apart, fun id hid => hknown id (h.known id hid)⟩

/-- A volume is not waited for any more once it is listed. -/
theorem arrived_listed (h : b.Placed volumes) {id : VolumeId}
    (hknown : volumes.contains id = true) : ((b.arrived id).listed id).Placed volumes := by
  have hpending : ∀ id' ∈ (b.arrived id).pending, id' ∈ b.pending ∧ id' ≠ id := fun id' hid' => by
    simpa [arrived] using hid'
  unfold listed
  split
  · exact ⟨h.nodup, h.ne_nil, fun id' hid' hwaits => h.apart id' hid' (hpending id' hwaits).1,
      h.known⟩
  · rename_i hnew
    have hnew : id ∉ b.volumes := by simpa [isOn, arrived] using hnew
    refine ⟨?_, by simp, fun id' hid' hwaits => ?_, fun id' hid' => ?_⟩
    · exact List.nodup_append.2 ⟨h.nodup, List.pairwise_singleton _ id, fun x hx y hy hxy => by
        rw [List.mem_singleton.1 hy] at hxy
        exact hnew (hxy ▸ hx)⟩
    · rcases List.mem_append.1 hid' with hold | hid
      · exact h.apart id' hold (hpending id' hwaits).1
      · exact (hpending id' hwaits).2 (List.mem_singleton.1 hid)
    · rcases List.mem_append.1 hid' with hold | hid
      · exact h.known id' hold
      · rw [List.mem_singleton.1 hid]
        exact hknown

theorem committed (h : b.Placed volumes) (desired : List VolumeId) :
    (b.committed desired).Placed volumes := by
  refine ⟨h.nodup, h.ne_nil, fun id hid hwaits => ?_, h.known⟩
  have hnot := (List.mem_filter.1 hwaits).2
  simp only [isOn, Bool.not_eq_true', List.contains_eq_mem, decide_eq_false_iff_not] at hnot
  exact hnot hid

end BlobRecord.Placed

/-! ### What the records add up to -/

/-- The sizes of the blobs on a volume. -/
def sizesOn (records : OrderedMap Ref BlobRecord) (id : VolumeId) : List Nat :=
  (records.values.filter (·.isOn id)).map (·.sizeOnDisk)

theorem perm_sizesOn_insert (records : OrderedMap Ref BlobRecord) (r : Ref) (b : BlobRecord)
    (id : VolumeId) : (sizesOn (records.insert r b) id).Perm
      ((if b.isOn id then [b.sizeOnDisk] else []) ++ sizesOn (records.erase r) id) := by
  have hperm := ((OrderedMap.perm_values_insert records r b).filter (·.isOn id)).map (·.sizeOnDisk)
  refine hperm.trans ?_
  rw [List.filter_cons]
  split <;> exact .refl _

/-- A commit moves no copies. -/
theorem sizesOn_foldl_committed (refs : List Ref) (desired : List VolumeId)
    (records : OrderedMap Ref BlobRecord) (id : VolumeId) :
    sizesOn (refs.foldl (fun records r => records.modify r (·.committed desired)) records) id =
      sizesOn records id := by
  induction refs generalizing records with
  | nil => rfl
  | cons r refs ih =>
    rw [List.foldl_cons, ih]
    exact OrderedMap.map_filter_values_modify records r (fun _ => rfl) (fun _ => rfl)

/-- A volume that was opened and now holds blobs of these sizes. -/
def Volume.filled (v : Volume) (sizes : List Nat) : Volume :=
  { v with blobCount := v.blobCount + sizes.length, blobSizeTotal := v.blobSizeTotal + sizes.sum }

theorem Volume.filled_perm (v : Volume) {sizes sizes' : List Nat} (h : sizes.Perm sizes') :
    v.filled sizes = v.filled sizes' := by
  rw [filled, filled, h.length_eq, h.sum_nat]

theorem Volume.filled_nil (v : Volume) : v.filled [] = v := rfl

theorem Volume.filled_filled (v : Volume) (sizes sizes' : List Nat) :
    (v.filled sizes).filled sizes' = v.filled (sizes' ++ sizes) := by
  simp only [filled, List.length_append, List.sum_append_nat]
  congr 1 <;> omega

theorem Volume.holding_filled (v : Volume) (sizes : List Nat) (b : BlobRecord) :
    (v.filled sizes).holding b = v.filled (b.sizeOnDisk :: sizes) := by
  simp only [filled, holding, List.length_cons, List.sum_cons]
  congr 1
  omega

/-! ### The books -/

/-- A catalog, and its volumes as they were when they were added. -/
structure Books where
  catalog : Catalog
  opened : OrderedMap VolumeId Volume

namespace Books

/-- No volume was added. -/
def empty : Books := ⟨.empty, .empty⟩

/-- The books after an operation, which changes nothing if it fails. -/
def after (x : Books) (answer : Except CatalogFault Catalog) : Books :=
  match answer with
  | .ok c => { x with catalog := c }
  | .error _ => x

/-- The operations.  A volume is added once, and a record is made for a blob that is on one volume
and wanted on no other; all other arguments can be anything. -/
inductive Step : Books → Books → Prop
  | addVolume (x : Books) (volume : Volume) (hnew : x.catalog.volumes.contains volume.id = false) :
      Step x ⟨x.catalog.addVolume volume, x.opened.insert volume.id volume⟩
  | create (x : Books) (b : BlobRecord) (id : VolumeId) (hvolumes : b.volumes = [id])
      (hpending : b.pending = []) : Step x (x.after (x.catalog.create b id))
  | confirm (x : Books) (r : Ref) (id : VolumeId) : Step x (x.after (x.catalog.confirm r id))
  | commit (x : Books) (refs : List Ref) (desired : List VolumeId) :
      Step x (x.after (x.catalog.commit refs desired))

/-- The counters of the volumes are those that they were opened with, and the sizes of the records
on top. -/
def Counted (opened volumes : OrderedMap VolumeId Volume) (records : OrderedMap Ref BlobRecord) :
    Prop :=
  ∀ id, volumes.get? id = (opened.get? id).map (·.filled (sizesOn records id))

/-- What every operation keeps. -/
structure Sound (x : Books) : Prop where
  placed : ∀ r b, x.catalog.records.get? r = some b → b.Placed x.catalog.volumes
  counted : Counted x.opened x.catalog.volumes x.catalog.records

variable {x y : Books} {opened volumes : OrderedMap VolumeId Volume}
  {records records' : OrderedMap Ref BlobRecord}

theorem sound_empty : empty.Sound where
  placed r b hb := by cases hb
  counted _ := rfl

/-! ### Counters -/

theorem Counted.of_perm (h : Counted opened volumes records)
    (hperm : ∀ id, (sizesOn records' id).Perm (sizesOn records id)) :
    Counted opened volumes records' := by
  intro id
  rw [h id]
  exact congrArg (fun f => (opened.get? id).map f)
    (funext fun v => v.filled_perm (hperm id).symm)

/-- One record more lists a volume, and its size is added to the counters. -/
theorem Counted.holding {id : VolumeId} {volume : Volume} {b : BlobRecord}
    (h : Counted opened volumes records) (hvolume : volumes.get? id = some volume)
    (hself : (sizesOn records' id).Perm (b.sizeOnDisk :: sizesOn records id))
    (hother : ∀ id', id' ≠ id → (sizesOn records' id').Perm (sizesOn records id')) :
    Counted opened (volumes.insert id (volume.holding b)) records' := by
  intro id'
  by_cases hid : id' = id
  · subst hid
    rw [h id', Option.map_eq_some_iff] at hvolume
    obtain ⟨v, hv, rfl⟩ := hvolume
    rw [OrderedMap.get?_insert_self, hv, Option.map_some, Volume.holding_filled,
      v.filled_perm hself]
  · rw [OrderedMap.get?_insert_of_ne _ hid, h id']
    exact congrArg (fun f => (opened.get? id').map f)
      (funext fun v => v.filled_perm (hother id' hid).symm)

/-- A volume that no record lists has nothing on top of what it was opened with. -/
theorem sizesOn_eq_nil {id : VolumeId}
    (h : ∀ r b, records.get? r = some b → b.isOn id = false) : sizesOn records id = [] := by
  rw [sizesOn, List.map_eq_nil_iff, List.filter_eq_nil_iff]
  intro b hb
  obtain ⟨r, hr⟩ := OrderedMap.mem_values.1 hb
  rw [h r b hr]
  exact Bool.false_ne_true

/-- What a record that is listed on one more volume adds up to, apart from the other records. -/
theorem perm_sizesOn_listed (records : OrderedMap Ref BlobRecord) (r : Ref) (b : BlobRecord)
    (id id' : VolumeId) :
    (sizesOn (records.insert r ((b.arrived id).listed id)) id').Perm
      ((if b.isOn id' || id' == id then [b.sizeOnDisk] else []) ++
        sizesOn (records.erase r) id') := by
  have hperm := perm_sizesOn_insert records r ((b.arrived id).listed id) id'
  rwa [BlobRecord.isOn_arrived_listed, BlobRecord.sizeOnDisk_arrived_listed] at hperm

/-- A copy that is confirmed adds the size of its blob to those on its volume, unless it was
confirmed before. -/
theorem perm_sizesOn_confirm {r : Ref} {b : BlobRecord} (hb : records.get? r = some b)
    (id id' : VolumeId) : (sizesOn (records.insert r ((b.arrived id).listed id)) id').Perm
      ((if b.isOn id = false ∧ id' = id then [b.sizeOnDisk] else []) ++ sizesOn records id') := by
  have hafter := perm_sizesOn_listed records r b id id'
  have hbefore := perm_sizesOn_insert records r b id'
  rw [OrderedMap.insert_of_get? hb] at hbefore
  by_cases hid : id' = id
  · subst hid
    cases hon : b.isOn id' with
    | true =>
      simp only [hon, Bool.true_or, if_true] at hafter hbefore
      simpa [hon] using hafter.trans hbefore.symm
    | false =>
      simp only [hon, Bool.false_eq_true, if_false, List.nil_append] at hbefore
      simp only [beq_self_eq_true, Bool.or_true, if_true] at hafter
      simpa [hon] using hafter.trans (hbefore.symm.cons b.sizeOnDisk)
  · simp only [beq_eq_false_iff_ne.2 hid, Bool.or_false] at hafter
    simpa [hid] using hafter.trans hbefore.symm

/-! ### Every operation keeps the books -/

theorem Sound.addVolume (h : x.Sound) {volume : Volume}
    (hnew : x.catalog.volumes.contains volume.id = false) :
    Sound ⟨x.catalog.addVolume volume, x.opened.insert volume.id volume⟩ := by
  refine ⟨fun r b hb => (h.placed r b hb).mono fun id hid => ?_, fun id => ?_⟩
  · exact (OrderedMap.contains_insert _ _ _ _).2 (.inr hid)
  · show (x.catalog.volumes.insert volume.id volume).get? id =
      ((x.opened.insert volume.id volume).get? id).map (·.filled (sizesOn x.catalog.records id))
    by_cases hid : id = volume.id
    · subst hid
      have hnone : sizesOn x.catalog.records volume.id = [] := sizesOn_eq_nil fun r b hb => by
        refine Bool.eq_false_iff.2 fun hon => ?_
        rw [BlobRecord.isOn, List.contains_iff_mem] at hon
        rw [(h.placed r b hb).known _ hon] at hnew
        cases hnew
      rw [OrderedMap.get?_insert_self, OrderedMap.get?_insert_self, hnone]
      rfl
    · rw [OrderedMap.get?_insert_of_ne _ hid, OrderedMap.get?_insert_of_ne _ hid]
      exact h.counted id

/-- A record goes on, or is made, with one volume more on its list. -/
theorem Sound.of_listed (h : x.Sound) {r : Ref} {b : BlobRecord} {id : VolumeId}
    (hb : b.Placed x.catalog.volumes) (hknown : x.catalog.volumes.contains id = true)
    (hvolumes : ∀ id, x.catalog.volumes.contains id = true → volumes.contains id = true)
    (hcounted : Counted x.opened volumes
      (x.catalog.records.insert r ((b.arrived id).listed id))) :
    Sound { x with catalog := { x.catalog with
      records := x.catalog.records.insert r ((b.arrived id).listed id), volumes := volumes } } := by
  refine ⟨fun r' b' hb' => ?_, hcounted⟩
  by_cases hr : r' = r
  · subst hr
    rw [OrderedMap.get?_insert_self] at hb'
    rw [← Option.some.inj hb']
    exact (hb.arrived_listed hknown).mono hvolumes
  · rw [OrderedMap.get?_insert_of_ne _ hr] at hb'
    exact (h.placed r' b' hb').mono hvolumes

theorem Sound.create (h : x.Sound) {b : BlobRecord} {id : VolumeId} (hvolumes : b.volumes = [id])
    (hpending : b.pending = []) : (x.after (x.catalog.create b id)).Sound := by
  cases hc : x.catalog.create b id with
  | error fault => exact h
  | ok c =>
    obtain ⟨hfresh, volume, hvolume, rfl⟩ := Catalog.create_eq_ok hc
    have hknown : x.catalog.volumes.contains id = true := OrderedMap.contains_of_get? hvolume
    have hb : b.Placed x.catalog.volumes := by
      refine ⟨?_, ?_, ?_, ?_⟩ <;> simp [hvolumes, hpending, hknown]
    have hon : ∀ id', b.isOn id' = (id' == id) := fun id' => by
      rw [BlobRecord.isOn, hvolumes, List.contains_cons, List.contains_nil, Bool.or_false]
    refine h.of_listed hb hknown (fun id' hid' =>
      (OrderedMap.contains_insert _ _ _ _).2 (.inr hid')) (h.counted.holding hvolume ?_ ?_)
    · have hperm := perm_sizesOn_listed x.catalog.records b.ref b id id
      rw [OrderedMap.erase_of_get?_eq_none hfresh] at hperm
      simpa using hperm
    · intro id' hid
      have hperm := perm_sizesOn_listed x.catalog.records b.ref b id id'
      rw [OrderedMap.erase_of_get?_eq_none hfresh] at hperm
      simpa [hon, hid] using hperm

theorem Sound.confirm (h : x.Sound) (r : Ref) (id : VolumeId) :
    (x.after (x.catalog.confirm r id)).Sound := by
  cases hc : x.catalog.confirm r id with
  | error fault => exact h
  | ok c =>
    obtain ⟨b, volume, hb, hvolume, rfl⟩ := Catalog.confirm_eq_ok hc
    have hknown : x.catalog.volumes.contains id = true := OrderedMap.contains_of_get? hvolume
    have hsizes := perm_sizesOn_confirm hb id
    cases hon : b.isOn id with
    | true =>
      -- a copy that was confirmed before changes nothing
      refine h.of_listed (h.placed r b hb) hknown (fun _ hid' => hid') (h.counted.of_perm ?_)
      exact fun id' => by simpa [hon] using hsizes id'
    | false =>
      refine h.of_listed (h.placed r b hb) hknown (fun id' hid' =>
        (OrderedMap.contains_insert _ _ _ _).2 (.inr hid')) (h.counted.holding hvolume ?_ ?_)
      · simpa [hon] using hsizes id
      · exact fun id' hid => by simpa [hid] using hsizes id'

theorem Sound.commit (h : x.Sound) (refs : List Ref) (desired : List VolumeId) :
    (x.after (x.catalog.commit refs desired)).Sound := by
  cases hc : x.catalog.commit refs desired with
  | error fault => exact h
  | ok c =>
    obtain rfl := Catalog.commit_eq_ok hc
    refine ⟨fun r b hb => ?_, h.counted.of_perm fun id => ?_⟩
    · dsimp only [after] at hb ⊢
      rw [Catalog.get?_foldl_committed, Option.map_eq_some_iff] at hb
      obtain ⟨old, hold, rfl⟩ := hb
      split
      · exact (h.placed r old hold).committed desired
      · exact h.placed r old hold
    · dsimp only [after]
      rw [sizesOn_foldl_committed]

theorem Sound.step (h : x.Sound) (hstep : Step x y) : y.Sound := by
  cases hstep with
  | addVolume volume hnew => exact h.addVolume hnew
  | create b id hvolumes hpending => exact h.create hvolumes hpending
  | confirm r id => exact h.confirm r id
  | commit refs desired => exact h.commit refs desired

/-! ### After every history -/

/-- The records and the counters agree. -/
structure Balanced (x : Books) : Prop where
  /-- A record lists each of its volumes once, and waits for none of them. -/
  listed : ∀ r b, x.catalog.records.get? r = some b →
    b.volumes.Nodup ∧ b.volumes ≠ [] ∧ ∀ id ∈ b.volumes, id ∉ b.pending
  /-- A volume has its counters from when it was added, and the records that list it. -/
  counted : ∀ id volume, x.catalog.volumes.get? id = some volume →
    ∃ v, x.opened.get? id = some v ∧
      volume.blobCount = v.blobCount + (x.catalog.records.values.filter (·.isOn id)).length ∧
      volume.blobSizeTotal = v.blobSizeTotal +
        ((x.catalog.records.values.filter (·.isOn id)).map (·.sizeOnDisk)).sum

theorem Sound.balanced (h : x.Sound) : x.Balanced where
  listed r b hb := ⟨(h.placed r b hb).nodup, (h.placed r b hb).ne_nil, (h.placed r b hb).apart⟩
  counted id volume hvolume := by
    rw [h.counted id, Option.map_eq_some_iff] at hvolume
    obtain ⟨v, hv, rfl⟩ := hvolume
    refine ⟨v, hv, ?_, rfl⟩
    rw [← List.length_map]
    rfl

/-- **After every history the books are balanced**, however often copies were confirmed, whatever
was committed, and whichever operations failed. -/
theorem balanced_of_history (h : Relation.ReflTransGen Step empty x) : x.Balanced := by
  have hsound : x.Sound := by
    induction h with
    | refl => exact sound_empty
    | tail _ hstep ih => exact ih.step hstep
  exact hsound.balanced

namespace Sample

def first : Volume := ⟨1, ⟨1⟩, "first", 0, 0, 0⟩

/-- A volume that held blobs before it was added. -/
def second : Volume := ⟨2, ⟨2⟩, "second", 0, 5, 100⟩

def ref : Ref := .repeated 1

def blob : BlobRecord := .written ref

def twoVolumes : Books :=
  ⟨(Catalog.empty.addVolume first).addVolume second,
    (OrderedMap.empty.insert 1 first).insert 2 second⟩

def created : Books := twoVolumes.after (twoVolumes.catalog.create blob 1)

/-- The second volume is wanted twice, and a volume that nobody knows. -/
def wanted : Books := created.after (created.catalog.commit [ref] [2, 9, 2])

def confirmed : Books := wanted.after (wanted.catalog.confirm ref 2)

/-- The copy is confirmed once more. -/
def confirmedAgain : Books := confirmed.after (confirmed.catalog.confirm ref 2)

theorem history : Relation.ReflTransGen Step empty confirmedAgain := by
  have hadded : Relation.ReflTransGen Step empty twoVolumes :=
    .tail (.single (.addVolume empty first rfl)) (.addVolume _ second (by decide))
  have hwanted : Relation.ReflTransGen Step twoVolumes wanted :=
    .tail (.single (.create twoVolumes blob 1 rfl rfl)) (.commit created [ref] [2, 9, 2])
  have hconfirmed : Relation.ReflTransGen Step wanted confirmedAgain :=
    .tail (.single (.confirm wanted ref 2)) (.confirm confirmed ref 2)
  exact (hadded.trans hwanted).trans hconfirmed

end Sample

/-- The copy is counted once. -/
theorem balanced_of_history_sample :
    Relation.ReflTransGen Step empty Sample.confirmedAgain ∧
      Sample.confirmedAgain.catalog.volumes.get? 2 =
        some { Sample.second with blobCount := 6, blobSizeTotal := 103 } ∧
      Sample.confirmedAgain.catalog.records.get? Sample.ref =
        some { Sample.blob with volumes := [1, 2], pending := [9], referenced := true } ∧
      Sample.confirmedAgain.Balanced :=
  ⟨Sample.history, by decide, by decide, balanced_of_history Sample.history⟩

end Books

end BlobVault
