import BlobVault.Yaml.Read
import Mathlib.Data.List.Forall2
import Mathlib.Data.List.Nodup

/-!
# What is read has its shape

* `Shape.Holds` : a datum has a shape: its parts without parts were accepted, and the fields of its
  records were accepted or stand for fields that were left out;
* `Yaml.Gives` : whatever a reader gives has a property, with one lemma for each way to put readers
  together;
* `Yaml.holds_of_read` : **what is read off a document of a shape has the shape.**
-/

namespace BlobVault

/-- The datum is accepted as a value without parts. -/
def Plain.Holds (p : Plain) (d : Datum) : Prop := ∃ found, p.accept found = .ok d

mutual

/-- The datum has the shape.  Of a tagged record only the form is told. -/
def Shape.Holds : Shape → Datum → Prop
  | .plain p, d => p.Holds d
  | .optional s, d => d = .absent ∨ s.Holds d
  | .list s, d => ∃ ds, d = .list ds ∧ ∀ e ∈ ds, s.Holds e
  | .record _ fields, d => ∃ ds, d = .record ds ∧ FieldsHold fields ds
  | .tagged _ _ variants, d => ∃ v ∈ variants, ∃ ds, d = .variant v.name ds

/-- The data are those of the fields of a record, in order. -/
def FieldsHold : List (Field Shape) → List Datum → Prop
  | [], ds => ds = []
  | ⟨_, s, missing⟩ :: fs, ds =>
    ∃ e es, ds = e :: es ∧ (s.Holds e ∨ missing.inMap? = some e) ∧ FieldsHold fs es

end

theorem fieldsHold_cons {f : Field Shape} {fs : List (Field Shape)} {ds : List Datum} :
    FieldsHold (f :: fs) ds ↔
      ∃ e es, ds = e :: es ∧ (f.shape.Holds e ∨ f.missing.inMap? = some e) ∧ FieldsHold fs es := by
  obtain ⟨name, s, missing⟩ := f
  rw [FieldsHold]

mutual

/-- No two fields of a record have the same name. -/
def Shape.Distinct : Shape → Prop
  | .plain _ => True
  | .optional s => s.Distinct
  | .list s => s.Distinct
  | .record _ fields => (fields.map Field.name).Nodup ∧ FieldsDistinct fields
  | .tagged _ _ _ => True

/-- The same of the shapes of some fields. -/
def FieldsDistinct : List (Field Shape) → Prop
  | [] => True
  | ⟨_, s, _⟩ :: fs => s.Distinct ∧ FieldsDistinct fs

end

namespace Yaml

/-- Whatever the reader gives has the property. -/
def Gives {α : Type} (r : Reading α) (P : α → Prop) : Prop :=
  ∀ jumps a jumps', r jumps = .ok (a, jumps') → P a

namespace Gives

open Reading

variable {α β : Type} {P : α → Prop} {Q : β → Prop}

theorem pure {a : α} (h : P a) : Gives (Pure.pure a) P := by
  intro jumps a' jumps' ha
  obtain rfl := congrArg Prod.fst (Except.ok.inj ha)
  exact h

theorem bind {r : Reading α} {f : α → Reading β} (h : Gives r P) (h' : ∀ a, P a → Gives (f a) Q) :
    Gives (r >>= f) Q := by
  intro jumps b jumps'' hb
  change (do let x ← r jumps; f x.1 x.2 : Except Fault (β × Nat)) = _ at hb
  cases hr : r jumps with
  | error fault =>
    rw [hr] at hb
    cases hb
  | ok x =>
    rw [hr] at hb
    exact h' x.1 (h jumps x.1 x.2 hr) x.2 b jumps'' hb

theorem trivial (r : Reading α) : Gives r fun _ => True := fun _ _ _ _ => True.intro

theorem mono {r : Reading α} {P' : α → Prop} (h : Gives r P) (himp : ∀ a, P a → P' a) :
    Gives r P' := fun jumps a jumps' ha => himp a (h jumps a jumps' ha)

theorem refuse (why : Misfit) : Gives (Reading.refuse why) P := by
  intro jumps a jumps' ha
  cases ha

theorem malformed : Gives Reading.malformed P := by
  intro jumps a jumps' ha
  cases ha

theorem fit {x : Except Misfit α} (h : ∀ a, x = .ok a → P a) : Gives (Reading.fit x) P := by
  cases x with
  | error why => exact refuse why
  | ok a => exact pure (h a rfl)

theorem located {r : Reading α} {path : List Step} (h : Gives r P) :
    Gives (Reading.located path r) P := by
  intro jumps a jumps' ha
  rw [Reading.located] at ha
  split at ha
  · cases ha
  · exact h jumps a jumps' ha

theorem wrongType (n : Node) (expecting : String) : Gives (Reading.wrongType n expecting) P := by
  rw [Reading.wrongType]
  split <;> exact refuse _

/-! ### Readers -/

variable {anchors : Anchors}

theorem plain (path : List Step) (p : Plain) (n : Node) :
    Gives (Reading.plain anchors path p n) p.Holds := by
  have hwrong : ∀ n, Gives (Reading.located path (Reading.wrongType n p.expecting)) p.Holds :=
    fun n => (wrongType n _).located
  have haccept : ∀ found, Gives (Reading.fit (p.accept found)) p.Holds := fun found =>
    fit fun d hd => ⟨found, hd⟩
  refine (trivial _).bind fun n _ => ?_
  split
  · cases p with
    | text expecting refusal => exact (haccept _).located
    | natural bits expecting =>
      dsimp only
      split
      · split
        · exact (haccept _).located
        · exact hwrong _
      · exact hwrong _
    | boolean =>
      dsimp only
      split
      · exact (haccept _).located
      · exact hwrong _
    | seconds =>
      dsimp only
      split
      · exact haccept _
      · exact hwrong _
  · exact hwrong _

theorem items {s : Shape} {item : List Step → Node → Reading Datum}
    (h : ∀ path n, Gives (item path n) s.Holds) (path : List Step) (index : Nat)
    (ns : List Node) : Gives (Reading.items item path index ns) fun ds => ∀ e ∈ ds, s.Holds e := by
  induction ns generalizing index with
  | nil => exact pure fun e he => by cases he
  | cons n ns ih =>
    refine (h _ n).bind fun d hd => (ih (index + 1)).bind fun ds hds => pure ?_
    exact List.forall_mem_cons.2 ⟨hd, hds⟩

theorem listOf {s : Shape} {item : List Step → Node → Reading Datum}
    (h : ∀ path n, Gives (item path n) s.Holds) (depth : Nat) (path : List Step) (n : Node) :
    Gives (Reading.listOf anchors depth item path n) (Shape.list s).Holds := by
  refine ((trivial _).bind fun n _ => ?_).located
  split
  · split
    · exact malformed
    · refine (items h path 0 _).bind fun ds hds => ?_
      split
      · exact pure (by rw [Shape.Holds]; exact ⟨ds, rfl, hds⟩)
      · exact malformed
  · split
    · exact pure (by rw [Shape.Holds]; exact ⟨[], rfl, fun e he => by cases he⟩)
    · exact wrongType _ _

theorem optional {s : Shape} {value : List Step → Node → Reading Datum}
    (h : ∀ path n, Gives (value path n) s.Holds) (path : List Step) (n : Node) :
    Gives (Reading.optional anchors value path n) (Shape.optional s).Holds := by
  have hvalue : ∀ n, Gives (value path n) (Shape.optional s).Holds := fun n =>
    (h path n).mono fun d hd => by rw [Shape.Holds]; exact .inr hd
  refine (trivial _).bind fun m _ => ?_
  split
  · split
    · exact pure (by rw [Shape.Holds]; exact .inl rfl)
    · exact hvalue n
  · exact hvalue n

/-! ### Records -/

/-- The reader reads what the field is due. -/
structure Serves (field : Field Shape) (f : FieldReader) : Prop where
  name : f.name = field.name
  missing : f.missing = field.missing
  read : ∀ path n, Gives (f.read path n) field.shape.Holds

variable {fields : List (Field Shape)} {fs : List FieldReader}

theorem exists_of_mem (h : List.Forall₂ Serves fields fs) {f : FieldReader} (hf : f ∈ fs) :
    ∃ field ∈ fields, Serves field f := by
  induction h with
  | nil => cases hf
  | cons hserves _ ih =>
    rcases List.mem_cons.1 hf with rfl | hf
    · exact ⟨_, List.mem_cons_self, hserves⟩
    · obtain ⟨field, hfield, hserves⟩ := ih hf
      exact ⟨field, List.mem_cons_of_mem _ hfield, hserves⟩

/-- The data were read for fields of these names. -/
def Seen (fields : List (Field Shape)) (seen : List (String × Datum)) : Prop :=
  ∀ name d, (name, d) ∈ seen → ∃ field ∈ fields, field.name = name ∧ field.shape.Holds d

theorem fieldEntries (h : List.Forall₂ Serves fields fs) (path : List Step)
    {seen : List (String × Datum)} (hseen : Seen fields seen) (entries : List (Node × Node)) :
    Gives (Reading.fieldEntries anchors fs path seen entries) (Seen fields) := by
  induction entries generalizing seen with
  | nil => exact pure hseen
  | cons entry entries ih =>
    refine (trivial _).bind fun name _ => ?_
    split
    · exact (trivial _).bind fun _ _ => ih hseen
    · rename_i f hfind
      split
      · exact refuse _
      · obtain ⟨field, hfield, hserves⟩ := exists_of_mem h (List.mem_of_find?_eq_some hfind)
        have hname : f.name = name := by simpa using List.find?_some hfind
        refine (hserves.read _ _).bind fun d hd => ih fun name' d' hmem => ?_
        rcases List.mem_cons.1 hmem with heq | hmem
        · obtain ⟨rfl, rfl⟩ := Prod.mk.inj heq
          exact ⟨field, hfield, hserves.name.symm.trans hname, hd⟩
        · exact hseen name' d' hmem

theorem mem_of_lookup {name : String} {d : Datum} {seen : List (String × Datum)}
    (h : seen.lookup name = some d) : (name, d) ∈ seen := by
  induction seen with
  | nil => cases h
  | cons entry seen ih =>
    rw [List.lookup_cons] at h
    split at h
    · rename_i heq
      obtain rfl := Option.some.inj h
      rw [beq_iff_eq.1 heq]
      exact List.mem_cons_self
    · exact List.mem_cons_of_mem _ (ih h)

/-- The data of the fields are placed in order. -/
theorem fieldsHold_of_fieldsOfMap {all : List (Field Shape)} {seen : List (String × Datum)}
    (hseen : Seen all seen) (hnodup : (all.map Field.name).Nodup)
    (h : List.Forall₂ Serves fields fs) (hsub : ∀ field ∈ fields, field ∈ all) {ds : List Datum}
    (hds : fieldsOfMap (fs.map fun f => ⟨f.name, (), f.missing⟩) seen = .ok ds) :
    FieldsHold fields ds := by
  induction h generalizing ds with
  | nil =>
    obtain rfl := Except.ok.inj hds
    rw [FieldsHold]
  | @cons field f fields fs hserves _ ih =>
    simp only [List.map_cons, fieldsOfMap] at hds
    split at hds
    · cases hds
    · rename_i d hd
      split at hds
      · rename_i ds' hds'
        obtain rfl := Except.ok.inj hds
        refine ⟨d, ds', rfl, ?_, ih (fun field' hf => hsub field' (List.mem_cons_of_mem _ hf)) hds'⟩
        rw [hserves.name, hserves.missing] at hd
        cases hlookup : seen.lookup field.name with
        | none =>
          rw [hlookup] at hd
          exact .inr hd
        | some e =>
          rw [hlookup] at hd
          obtain rfl := Option.some.inj hd
          obtain ⟨field', hfield', hname, hholds⟩ := hseen _ _ (mem_of_lookup hlookup)
          have heq := List.inj_on_of_nodup_map hnodup hfield' (hsub field List.mem_cons_self) hname
          exact .inl (heq ▸ hholds)
      · cases hds

theorem record (h : List.Forall₂ Serves fields fs) (hnodup : (fields.map Field.name).Nodup)
    (depth : Nat) (title : String) (path : List Step) (n : Node) :
    Gives (Reading.record anchors depth title fs path n) (Shape.record title fields).Holds := by
  have hfields : ∀ seen, Seen fields seen → Gives (do
      let ds ← Reading.fit (fieldsOfMap (fs.map fun f => ⟨f.name, (), f.missing⟩) seen)
      Pure.pure (.record ds)) (Shape.record title fields).Holds := fun seen hseen =>
    (fit fun ds hds => fieldsHold_of_fieldsOfMap hseen hnodup h (fun _ hf => hf) hds).bind
      fun ds hds => pure (by rw [Shape.Holds]; exact ⟨ds, rfl, hds⟩)
  refine ((trivial _).bind fun n _ => ?_).located
  split
  · split
    · exact malformed
    · refine (fieldEntries h path (fun _ _ hmem => by cases hmem) _).bind fun seen hseen => ?_
      split
      · exact hfields seen hseen
      · exact malformed
  · split
    · exact hfields [] fun _ _ hmem => by cases hmem
    · exact wrongType _ _

/-! ### Tagged records -/

theorem formOf (variants : List Variant) (path : List Step) (n : Node) :
    Gives (Reading.formOf anchors variants path n) fun v => v ∈ variants :=
  ((trivial _).bind fun name _ => fit fun v hv => by
    rw [variantOf] at hv
    split at hv
    · rename_i v' hfind
      obtain rfl := Except.ok.inj hv
      exact List.mem_of_find?_eq_some hfind
    · cases hv).located

theorem taggedEntries {variants : List Variant} {v? : Option Variant}
    (hv : ∀ v, v? = some v → v ∈ variants) (depth : Nat) (tagName : String) (path : List Step)
    (done : List (Content × Content)) (entries : List (Node × Node)) :
    Gives (Reading.taggedEntries anchors depth tagName variants path v? done entries)
      fun found => ∀ v, found.1 = some v → v ∈ variants := by
  induction entries generalizing v? done with
  | nil => exact pure hv
  | cons entry entries ih =>
    refine (trivial _).bind fun key _ => ?_
    split
    · split
      · split
        · exact refuse _
        · refine (formOf variants _ _).bind fun form hform => ih ?_ done
          intro v hform'
          obtain rfl := Option.some.inj hform'
          exact hform
      · exact (trivial _).bind fun value _ => ih hv _
    · exact (trivial _).bind fun value _ => ih hv _

theorem tagged (depth : Nat) (title tagName : String) (variants : List Variant)
    (path : List Step) (n : Node) :
    Gives (Reading.tagged anchors depth title tagName variants path n)
      (Shape.tagged title tagName variants).Holds := by
  have hform : ∀ found : Variant × Content, found.1 ∈ variants → Gives (do
      let ds ← Reading.fit (found.2.readVariant found.1)
      Pure.pure (.variant found.1.name ds)) (Shape.tagged title tagName variants).Holds :=
    fun found hfound => (trivial _).bind fun ds _ => pure (by
      rw [Shape.Holds]
      exact ⟨found.1, hfound, ds, rfl⟩)
  refine Gives.bind (P := fun found : Variant × Content => found.1 ∈ variants)
    (located ((trivial _).bind fun n _ => ?_)) hform
  split
  · exact refuse _
  · split
    · split
      · exact malformed
      · split
        · split
          · exact refuse _
          · exact malformed
        · refine (formOf variants _ _).bind fun form hform => (trivial _).bind fun cs _ => ?_
          split
          · exact pure hform
          · exact malformed
    · split
      · exact malformed
      · refine (taggedEntries (fun v hv => by cases hv) _ _ _ _ _).bind ?_
        rintro ⟨v?, cs⟩ hfound
        dsimp only
        split
        · cases v? with
          | some form => exact pure (hfound form rfl)
          | none => exact refuse _
        · exact malformed
    · exact wrongType _ _

end Gives

open Gives Reading

mutual

/-- Whatever is read for a shape has it. -/
theorem gives_shaped {anchors : Anchors} : ∀ (s : Shape), s.Distinct → ∀ depth path n,
    Gives (shaped anchors depth s path n) s.Holds
  | .plain p, _, depth, path, n => by
    rw [shaped]
    exact (Gives.plain path p n).mono fun d hd => by rwa [Shape.Holds]
  | .optional s, hs, depth, path, n => by
    rw [shaped]
    exact Gives.optional (gives_shaped s (by rwa [Shape.Distinct] at hs) depth) path n
  | .list s, hs, depth, path, n => by
    rw [shaped]
    exact Gives.listOf (gives_shaped s (by rwa [Shape.Distinct] at hs) (depth - 1)) depth path n
  | .record title fields, hs, depth, path, n => by
    rw [Shape.Distinct] at hs
    rw [shaped]
    exact Gives.record (serves_fieldReaders fields hs.2 (depth - 1)) hs.1 depth title path n
  | .tagged title tagName variants, _, depth, path, n => by
    rw [shaped]
    exact Gives.tagged depth title tagName variants path n

theorem serves_fieldReaders {anchors : Anchors} : ∀ (fields : List (Field Shape)),
    FieldsDistinct fields → ∀ depth,
      List.Forall₂ Serves fields (fieldReaders anchors depth fields)
  | [], _, depth => by rw [fieldReaders]; exact .nil
  | ⟨name, s, missing⟩ :: fields, hs, depth => by
    rw [FieldsDistinct] at hs
    rw [fieldReaders]
    exact .cons ⟨rfl, rfl, gives_shaped s hs.1 depth⟩ (serves_fieldReaders fields hs.2 depth)

end

/-- **What is read off a document of a shape has the shape.** -/
theorem holds_of_read {s : Shape} (hs : s.Distinct) {text : String} {d : Datum}
    (h : read s text = .ok d) : s.Holds d := by
  rw [read] at h
  split at h
  · cases h
  · rename_i d' jumps hread
    split at h
    · obtain rfl := Except.ok.inj h
      exact gives_shaped s hs _ _ _ _ _ _ hread
    · cases h

end Yaml

end BlobVault
