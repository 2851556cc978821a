import BlobVault.Proofs.Catalog.Bookkeeping

/-!
# Confirmations in any order

Copies are confirmed by workers that finish in any order, and a copy can be confirmed more than
once.  The catalog comes to the same, but for the order in which a record lists its volumes.

* `BlobRecord.confirmedOn` : a record whose copies have been confirmed, one after another;
* `BlobRecord.alike_confirmedOn` : it depends on the set of volumes, up to the order of its list;
* `Catalog.confirmEach` : some confirmations, of which those that fail change nothing;
* `Catalog.records_confirmEach`, `Catalog.filled_confirmEach` : what they do to records and to
  counters;
* `Catalog.confirmEach_alike` : **confirmations of the same copies come to the same, in any order
  and with any repetitions, whatever unknown copies are among them.**
-/

namespace BlobVault

namespace BlobRecord

/-- The record after copies on these volumes were confirmed, one after another. -/
def confirmedOn (b : BlobRecord) (ids : List VolumeId) : BlobRecord :=
  ids.foldl (fun b id => (b.arrived id).listed id) b

/-- Two records list the same volumes, each as often as the other, and agree in everything else. -/
structure Alike (b b' : BlobRecord) : Prop where
  volumes : b'.volumes.Perm b.volumes
  rest : b' = { b with volumes := b'.volumes }

theorem Alike.isOn {b b' : BlobRecord} (h : b.Alike b') (id : VolumeId) :
    b'.isOn id = b.isOn id :=
  h.volumes.contains_eq

theorem Alike.sizeOnDisk {b b' : BlobRecord} (h : b.Alike b') : b'.sizeOnDisk = b.sizeOnDisk := by
  rw [h.rest]

variable {ids ids' : List VolumeId}

/-- A volume is listed once more if it was not listed. -/
theorem count_arrived_listed (b : BlobRecord) (id volume : VolumeId) :
    ((b.arrived id).listed id).volumes.count volume =
      if b.isOn volume = false ∧ volume = id then 1 else b.volumes.count volume := by
  rw [arrived_listed_eq]
  cases hon : b.isOn id with
  | true => by_cases hv : volume = id <;> simp [hv, hon]
  | false =>
    by_cases hv : volume = id
    · subst hv
      have hzero : b.volumes.count volume = 0 := by
        simpa [isOn, List.count_eq_zero] using hon
      simp [hon, hzero]
    · simp [hv, Ne.symm hv]

/-- A volume that was listed stays listed as often as it was.  One that was not is listed once. -/
theorem count_confirmedOn (b : BlobRecord) (ids : List VolumeId) (volume : VolumeId) :
    (b.confirmedOn ids).volumes.count volume =
      if b.isOn volume = false ∧ volume ∈ ids then 1 else b.volumes.count volume := by
  induction ids generalizing b with
  | nil => simp [confirmedOn]
  | cons id ids ih =>
    rw [confirmedOn, List.foldl_cons, ← confirmedOn, ih, isOn_arrived_listed, count_arrived_listed]
    cases hon : b.isOn volume with
    | true => simp
    | false => by_cases hv : volume = id <;> simp [hv]

/-- What confirmations do not touch. -/
theorem confirmedOn_eq (b : BlobRecord) (ids : List VolumeId) :
    b.confirmedOn ids = { b with
      volumes := (b.confirmedOn ids).volumes
      pending := b.pending.filter fun id => !ids.contains id } := by
  induction ids generalizing b with
  | nil =>
    have hall : b.pending.filter (fun id => !([] : List VolumeId).contains id) = b.pending :=
      List.filter_eq_self.2 fun _ _ => rfl
    rw [hall]
    rfl
  | cons id ids ih =>
    rw [confirmedOn, List.foldl_cons, ← confirmedOn, ih]
    simp only [arrived_listed_eq, List.filter_filter, List.contains_cons, Bool.not_or, bne,
      Bool.and_comm]

theorem alike_confirmedOn (b : BlobRecord) (h : ∀ id, id ∈ ids ↔ id ∈ ids') :
    (b.confirmedOn ids).Alike (b.confirmedOn ids') where
  volumes := List.perm_iff_count.2 fun id => by
    simp only [count_confirmedOn, h]
  rest := by
    have hcontains : ∀ id, ids.contains id = ids'.contains id := fun id => by
      rw [Bool.eq_iff_iff, List.contains_iff_mem, List.contains_iff_mem, h]
    rw [b.confirmedOn_eq ids, b.confirmedOn_eq ids']
    simp only [hcontains]

end BlobRecord

/-- What is on a volume does not depend on the order in which records list their volumes. -/
theorem sizesOn_mapVal_congr {records : OrderedMap Ref BlobRecord}
    {f g : Ref → BlobRecord → BlobRecord}
    (h : ∀ r b, records.get? r = some b → (f r b).Alike (g r b)) (id : VolumeId) :
    sizesOn (records.mapVal g) id = sizesOn (records.mapVal f) id := by
  have hentries : ∀ f : Ref → BlobRecord → BlobRecord, sizesOn (records.mapVal f) id =
      (records.entries.filter fun p => (f p.1 p.2).isOn id).map fun p =>
        (f p.1 p.2).sizeOnDisk := by
    intro f
    simp only [sizesOn, OrderedMap.values, OrderedMap.mapVal, List.map_map, List.filter_map]
    rfl
  have halike : ∀ p ∈ records.entries, (f p.1 p.2).Alike (g p.1 p.2) := fun p hp =>
    h p.1 p.2 (OrderedMap.mem_entries.1 hp)
  rw [hentries, hentries, List.filter_congr fun p hp => (halike p hp).isOn id]
  exact List.map_congr_left fun p hp => (halike p (List.mem_filter.1 hp).1).sizeOnDisk

namespace Catalog

/-- The catalog after the copy of a blob on a volume was confirmed. -/
def confirmed (c : Catalog) (p : Ref × VolumeId) : Catalog := c.after (c.confirm p.1 p.2)

/-- The catalog after some copies were confirmed, one after another. -/
def confirmEach (c : Catalog) (ps : List (Ref × VolumeId)) : Catalog := ps.foldl confirmed c

/-- The blob and the volume are known. -/
def Knows (c : Catalog) (p : Ref × VolumeId) : Prop :=
  c.hasRecord p.1 = true ∧ c.volumes.contains p.2 = true

/-- The volumes, among those of known copies, on which copies of a blob are confirmed. -/
def arrivals (c : Catalog) (ps : List (Ref × VolumeId)) (r : Ref) : List VolumeId :=
  (ps.filter fun p => p.1 == r && c.volumes.contains p.2).map (·.2)

/-- Two catalogs agree in everything but the order in which records list their volumes. -/
structure Alike (c c' : Catalog) : Prop where
  records : ∀ r, Option.Rel BlobRecord.Alike (c.records.get? r) (c'.records.get? r)
  /-- Volumes, collections, envelopes and jobs are the same. -/
  rest : c' = { c with records := c'.records }

variable {c : Catalog} {p q : Ref × VolumeId} {ps qs : List (Ref × VolumeId)} {r : Ref}
  {id : VolumeId}

/-! ### One confirmation -/

/-- The fault names the blob, or the volume if only that is unknown. -/
theorem confirm_of_not_knows (h : ¬ c.Knows p) : c.confirm p.1 p.2 =
    .error (.notFound (if c.hasRecord p.1 then .volume p.2 else .blob p.1)) := by
  unfold confirm
  cases hrecord : c.records.get? p.1 with
  | none => simp [findRecord, hasRecord, OrderedMap.contains_eq_isSome, hrecord]
  | some b =>
    have hknown : c.hasRecord p.1 = true := OrderedMap.contains_of_get? hrecord
    cases hvolume : c.volumes.get? p.2 with
    | none => simp [findRecord, findVolume, hrecord, hvolume, hknown]
    | some volume => exact absurd ⟨hknown, OrderedMap.contains_of_get? hvolume⟩ h

/-- A copy that is known is listed, and counted if it was not listed. -/
theorem confirmed_of_knows (h : c.Knows p) : ∃ b volume, c.records.get? p.1 = some b ∧
    c.volumes.get? p.2 = some volume ∧ c.confirm p.1 p.2 = .ok (c.confirmed p) ∧
    c.confirmed p = { c with
      records := c.records.insert p.1 ((b.arrived p.2).listed p.2)
      volumes := if b.isOn p.2 then c.volumes else c.volumes.insert p.2 (volume.holding b) } := by
  obtain ⟨b, hb⟩ := Option.isSome_iff_exists.1 h.1
  obtain ⟨volume, hvolume⟩ := Option.isSome_iff_exists.1 h.2
  refine ⟨b, volume, hb, hvolume, ?_⟩
  simp [confirmed, after, confirm, findRecord_eq_ok.2 hb, findVolume_eq_ok.2 hvolume]

theorem confirmed_of_not_knows (h : ¬ c.Knows p) : c.confirmed p = c := by
  rw [confirmed, confirm_of_not_knows h]
  rfl

theorem get?_confirmed (c : Catalog) (p : Ref × VolumeId) (r : Ref) :
    (c.confirmed p).records.get? r = (c.records.get? r).map fun b =>
      if p.1 = r ∧ c.volumes.contains p.2 = true then (b.arrived p.2).listed p.2 else b := by
  by_cases hknows : c.Knows p
  · obtain ⟨b, volume, hb, -, -, heq⟩ := confirmed_of_knows hknows
    rw [heq]
    by_cases hr : r = p.1
    · subst hr
      rw [OrderedMap.get?_insert_self, hb]
      simp [hknows.2]
    · rw [OrderedMap.get?_insert_of_ne _ hr]
      simp [Ne.symm hr]
  · rw [confirmed_of_not_knows hknows]
    by_cases hr : p.1 = r ∧ c.volumes.contains p.2 = true
    · obtain ⟨rfl, hvolume⟩ := hr
      have hnone : c.records.get? p.1 = none :=
        OrderedMap.contains_eq_false.1 (Bool.eq_false_iff.2 fun hr => hknows ⟨hr, hvolume⟩)
      rw [hnone]
      rfl
    · simp [hr]

/-- A confirmation makes no volume known. -/
theorem contains_volumes_confirmed (c : Catalog) (p : Ref × VolumeId) (id : VolumeId) :
    (c.confirmed p).volumes.contains id = c.volumes.contains id := by
  by_cases hknows : c.Knows p
  · obtain ⟨b, volume, -, -, -, heq⟩ := confirmed_of_knows hknows
    rw [heq]
    dsimp only
    split
    · rfl
    · rw [Bool.eq_iff_iff, OrderedMap.contains_insert]
      constructor
      · rintro (rfl | hid)
        · exact hknows.2
        · exact hid
      · exact .inr
  · rw [confirmed_of_not_knows hknows]

theorem rest_confirmed (c : Catalog) (p : Ref × VolumeId) :
    c.confirmed p = { c with
      records := (c.confirmed p).records
      volumes := (c.confirmed p).volumes } := by
  by_cases hknows : c.Knows p
  · obtain ⟨b, volume, -, -, -, heq⟩ := confirmed_of_knows hknows
    rw [heq]
  · rw [confirmed_of_not_knows hknows]

/-- What a confirmation adds to the counters of a volume is what it adds to the records there. -/
theorem filled_confirmed (c : Catalog) (p : Ref × VolumeId) (id : VolumeId) :
    ∃ sizes, (c.confirmed p).volumes.get? id = (c.volumes.get? id).map (·.filled sizes) ∧
      (sizesOn (c.confirmed p).records id).Perm (sizes ++ sizesOn c.records id) := by
  by_cases hknows : c.Knows p
  · obtain ⟨b, volume, hb, hvolume, -, heq⟩ := confirmed_of_knows hknows
    have hsizes := Books.perm_sizesOn_confirm hb p.2 id
    rw [heq]
    refine ⟨_, ?_, hsizes⟩
    cases hon : b.isOn p.2 with
    | true => simp [Volume.filled_nil]
    | false =>
      by_cases hid : id = p.2
      · subst hid
        simp [hvolume, ← Volume.holding_filled, Volume.filled_nil]
      · simp [OrderedMap.get?_insert_of_ne _ hid, hid, Volume.filled_nil]
  · rw [confirmed_of_not_knows hknows]
    exact ⟨[], by simp [Volume.filled_nil], .refl _⟩

/-! ### Any confirmations -/

theorem confirmEach_cons (c : Catalog) (p : Ref × VolumeId) (ps : List (Ref × VolumeId)) :
    c.confirmEach (p :: ps) = (c.confirmed p).confirmEach ps := rfl

theorem confirmEach_append (c : Catalog) (ps qs : List (Ref × VolumeId)) :
    c.confirmEach (ps ++ qs) = (c.confirmEach ps).confirmEach qs :=
  List.foldl_append

theorem knows_confirmEach (c : Catalog) (ps : List (Ref × VolumeId)) (p : Ref × VolumeId) :
    (c.confirmEach ps).hasRecord p.1 = c.hasRecord p.1 ∧
      ((c.confirmEach ps).Knows p ↔ c.Knows p) := by
  induction ps generalizing c with
  | nil => exact ⟨rfl, .rfl⟩
  | cons q ps ih =>
    have hrecord : (c.confirmed q).hasRecord p.1 = c.hasRecord p.1 := by
      rw [hasRecord, hasRecord, OrderedMap.contains_eq_isSome, OrderedMap.contains_eq_isSome,
        get?_confirmed, Option.isSome_map]
    obtain ⟨hrecord', hknows⟩ := ih (c.confirmed q)
    rw [confirmEach_cons, hrecord', hknows, Knows, Knows, hrecord, contains_volumes_confirmed]
    exact ⟨rfl, .rfl⟩

theorem mem_arrivals : id ∈ c.arrivals ps r ↔ (r, id) ∈ ps ∧ c.volumes.contains id = true := by
  simp only [arrivals, List.mem_map, List.mem_filter, Bool.and_eq_true, beq_iff_eq]
  constructor
  · rintro ⟨p, ⟨hp, rfl, hvolume⟩, rfl⟩
    exact ⟨hp, hvolume⟩
  · rintro ⟨hp, hvolume⟩
    exact ⟨(r, id), ⟨hp, rfl, hvolume⟩, rfl⟩

/-- Every record has the copies confirmed that are its own. -/
theorem records_confirmEach (c : Catalog) (ps : List (Ref × VolumeId)) :
    (c.confirmEach ps).records = c.records.mapVal fun r b => b.confirmedOn (c.arrivals ps r) := by
  refine OrderedMap.ext_get? fun r => ?_
  rw [OrderedMap.get?_mapVal]
  induction ps generalizing c with
  | nil => simp [confirmEach, arrivals, BlobRecord.confirmedOn]
  | cons p ps ih =>
    rw [confirmEach_cons, ih, get?_confirmed, Option.map_map]
    refine congrArg (fun f => (c.records.get? r).map f) (funext fun b => ?_)
    have harrivals : (c.confirmed p).arrivals ps r = c.arrivals ps r := by
      simp only [arrivals, contains_volumes_confirmed]
    rw [Function.comp_apply, harrivals]
    by_cases hp : p.1 = r ∧ c.volumes.contains p.2 = true
    · rw [if_pos hp]
      simp [arrivals, hp, BlobRecord.confirmedOn]
    · rw [if_neg hp]
      simp [arrivals, hp]

/-- What confirmations add to the counters of a volume is what they add to the records there. -/
theorem filled_confirmEach (c : Catalog) (ps : List (Ref × VolumeId)) (id : VolumeId) :
    ∃ sizes, (c.confirmEach ps).volumes.get? id = (c.volumes.get? id).map (·.filled sizes) ∧
      (sizesOn (c.confirmEach ps).records id).Perm (sizes ++ sizesOn c.records id) := by
  induction ps generalizing c with
  | nil => exact ⟨[], by simp [confirmEach, Volume.filled_nil], .refl _⟩
  | cons p ps ih =>
    obtain ⟨sizes, hvolume, hperm⟩ := filled_confirmed c p id
    obtain ⟨sizes', hvolume', hperm'⟩ := ih (c.confirmed p)
    refine ⟨sizes' ++ sizes, ?_, ?_⟩
    · rw [confirmEach_cons, hvolume', hvolume, Option.map_map]
      simp only [Function.comp_def, Volume.filled_filled]
    · rw [List.append_assoc]
      exact hperm'.trans (hperm.append_left sizes')

theorem rest_confirmEach (c : Catalog) (ps : List (Ref × VolumeId)) :
    c.confirmEach ps = { c with
      records := (c.confirmEach ps).records
      volumes := (c.confirmEach ps).volumes } := by
  induction ps generalizing c with
  | nil => rfl
  | cons p ps ih =>
    rw [confirmEach_cons, ih, rest_confirmed]

/-- Confirmations that agree in the known copies come to the same. -/
theorem alike_confirmEach (h : ∀ p, c.Knows p → (p ∈ ps ↔ p ∈ qs)) :
    (c.confirmEach ps).Alike (c.confirmEach qs) := by
  have halike : ∀ r b, c.records.get? r = some b →
      (b.confirmedOn (c.arrivals ps r)).Alike (b.confirmedOn (c.arrivals qs r)) := by
    intro r b hb
    refine b.alike_confirmedOn fun id => ?_
    rw [mem_arrivals, mem_arrivals, and_congr_left_iff]
    exact fun hvolume => h (r, id) ⟨OrderedMap.contains_of_get? hb, hvolume⟩
  have hvolumes : (c.confirmEach qs).volumes = (c.confirmEach ps).volumes := by
    refine OrderedMap.ext_get? fun id => ?_
    obtain ⟨sizes, hvolume, hperm⟩ := filled_confirmEach c ps id
    obtain ⟨sizes', hvolume', hperm'⟩ := filled_confirmEach c qs id
    -- what was on the volume before is the same in both
    have hsizes : sizes'.Perm sizes := by
      rw [← List.perm_append_right_iff (sizesOn c.records id)]
      refine hperm'.symm.trans (.trans (.of_eq ?_) hperm)
      rw [records_confirmEach, records_confirmEach]
      exact sizesOn_mapVal_congr halike id
    rw [hvolume, hvolume']
    exact congrArg (fun f => (c.volumes.get? id).map f) (funext fun v => v.filled_perm hsizes)
  constructor
  · intro r
    rw [records_confirmEach, records_confirmEach, OrderedMap.get?_mapVal, OrderedMap.get?_mapVal]
    cases hb : c.records.get? r with
    | none => exact .none
    | some b => exact .some (halike r b hb)
  · rw [rest_confirmEach c qs, rest_confirmEach c ps, hvolumes]

/-- **Confirmations of the same copies come to the same,** in any order and with any repetitions.  A
copy that is known is confirmed whenever its turn comes; one that is not is refused whenever its
turn comes, and changes nothing. -/
theorem confirmEach_alike (c : Catalog) :
    (∀ ps qs, (∀ p, c.Knows p → (p ∈ ps ↔ p ∈ qs)) → (c.confirmEach ps).Alike (c.confirmEach qs)) ∧
    ∀ before p after,
      (c.Knows p →
        (c.confirmEach before).confirm p.1 p.2 = .ok (c.confirmEach (before ++ [p]))) ∧
      (¬ c.Knows p →
        (c.confirmEach before).confirm p.1 p.2 =
          .error (.notFound (if c.hasRecord p.1 then .volume p.2 else .blob p.1)) ∧
        c.confirmEach (before ++ p :: after) = c.confirmEach (before ++ after)) := by
  refine ⟨fun ps qs h => alike_confirmEach h, fun before p after => ?_⟩
  obtain ⟨hrecord, hknows⟩ := knows_confirmEach c before p
  constructor
  · intro hp
    obtain ⟨-, -, -, -, hok, -⟩ := confirmed_of_knows (hknows.2 hp)
    rw [hok, confirmEach_append]
    rfl
  · intro hp
    have hp' : ¬ (c.confirmEach before).Knows p := fun hp' => hp (hknows.1 hp')
    rw [confirm_of_not_knows hp', hrecord]
    refine ⟨rfl, ?_⟩
    rw [confirmEach_append, confirmEach_append, confirmEach_cons, confirmed_of_not_knows hp']

namespace Workers

def first : Ref := .repeated 1

def second : Ref := .repeated 2

/-- Two blobs that were written to the first of three volumes. -/
def catalog : Catalog :=
  { (((Catalog.empty.addVolume ⟨1, ⟨1⟩, "first", 0, 2, 6⟩).addVolume
      ⟨2, ⟨2⟩, "second", 0, 0, 0⟩).addVolume ⟨3, ⟨3⟩, "third", 0, 0, 0⟩) with
    records := (OrderedMap.empty.insert first
      { BlobRecord.written first with pending := [2, 3] }).insert second
      { BlobRecord.written second with pending := [2] } }

def inOneOrder : List (Ref × VolumeId) := [(first, 2), (first, 3), (second, 2)]

/-- The other order, with a repetition, an unknown blob and an unknown volume. -/
def inAnother : List (Ref × VolumeId) :=
  [(first, 3), (.repeated 3, 2), (second, 2), (first, 2), (second, 9), (first, 3)]

end Workers

/-- The orders show only in the list of volumes of the first blob. -/
theorem confirmEach_alike_sample :
    (Workers.catalog.confirmEach Workers.inOneOrder).Alike
      (Workers.catalog.confirmEach Workers.inAnother) ∧
    ((Workers.catalog.confirmEach Workers.inOneOrder).records.get? Workers.first).map (·.volumes) =
      some [1, 2, 3] ∧
    ((Workers.catalog.confirmEach Workers.inAnother).records.get? Workers.first).map (·.volumes) =
      some [1, 3, 2] ∧
    (Workers.catalog.confirmEach [(Workers.first, 3)]).confirm Workers.second 9 =
      .error (.notFound (.volume 9)) := by
  obtain ⟨halike, hturn⟩ := confirmEach_alike Workers.catalog
  have hunknown : ¬ Workers.catalog.Knows (Workers.second, 9) := fun h => absurd h.2 (by decide)
  refine ⟨halike _ _ fun p hp => ?_, by decide, by decide, ?_⟩
  · -- the two copies that only the other order has are not known
    have hblob : p.1 ≠ .repeated 3 := fun h => absurd hp.1 (by rw [h]; decide)
    have hvolume : p.2 ≠ 9 := fun h => absurd hp.2 (by rw [h]; decide)
    obtain ⟨r, id⟩ := p
    simp only [Workers.inOneOrder, Workers.inAnother, List.mem_cons, Prod.mk.injEq,
      List.not_mem_nil, or_false]
    grind
  · exact ((hturn [(Workers.first, 3)] (Workers.second, 9) []).2 hunknown).1

end Catalog

end BlobVault
