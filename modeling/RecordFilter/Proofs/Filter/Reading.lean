import RecordFilter.Proofs.Filter.Typing
import RecordFilter.Proofs.Order.Atom
import RecordFilter.Value.Basic

/-!
# What predicates read

A compiled predicate is typed by the description of a type, and it is evaluated on the view of a
value.  The two agree: what is read at a path is null only where the description says so, and is
otherwise of the kind that the path leads to.

* `HasType.absent_or_ofKind`: through whatever options and boxes, a value of a type is absent or of
  its kind.
* `OfKind.field?`, `Leads.value`: what is read at a field, and at a path.
* `reads_of_compile`: what every single condition of a compiled predicate reads.
-/

namespace RecordFilter

variable {F : TypeFamily} {element t : TypeExpr} {v : Value} {name : String}

/-! ### Values of a kind -/

namespace Value

/-- The values of a kind: those of a type that are not absent. -/
inductive OfKind (F : TypeFamily) : Value → Kind → Prop where
  | atom {a : Atom} : OfKind F (.atom a) (.atomic a.category)
  | enum {name : String} {names : List String} :
    name ∈ names → OfKind F (.enum name) (.enumeration names)
  | list {items : List Value} {item : TypeExpr} :
    (∀ v ∈ items, v.HasType F item) → OfKind F (.list items) (.collection item)
  | record {fields : List (String × Value)} {descriptors : List FieldDescriptor} :
    fields.map Prod.fst = descriptors.map FieldDescriptor.name →
    (∀ p ∈ fields.zip descriptors, p.1.2.HasType F p.2.type) →
    OfKind F (.record fields) (.composite descriptors)

/-- A value of a type is absent, which the type then allows, or of its kind. -/
theorem HasType.absent_or_ofKind (h : v.HasType F t) :
    v = .absent ∧ (F.describe t).nullable ∨ v.OfKind F (F.describe t).kind := by
  induction h with
  | atomic => exact .inr .atom
  | definedAtomic hkey =>
      rw [TypeFamily.describe, hkey]
      exact .inr .atom
  | enumeration hkey hmem =>
      rw [TypeFamily.describe, hkey]
      exact .inr (.enum hmem)
  | composite hkey hnames hfields =>
      rw [TypeFamily.describe, hkey]
      exact .inr (.record hnames hfields)
  | absent => exact .inl ⟨rfl, rfl⟩
  -- an option is nullable whatever it is an option of; a box is described as its content
  | present _ ih => exact ih.imp (fun h => ⟨h.1, rfl⟩) id
  | boxed _ ih => exact ih
  | list hitems => exact .inr (.list hitems)

/-- A value of a kind shows something. -/
theorem OfKind.view_ne_null {k : Kind} (h : v.OfKind F k) : v.view ≠ .null := by
  cases h <;> exact nofun

/-- A value of an atomic type is an atom of the category. -/
theorem OfKind.atom_of_atomic {c : Category} (h : v.OfKind F (.atomic c)) :
    ∃ a, v = .atom a ∧ a.category = c := by
  cases h with
  | atom => exact ⟨_, rfl, rfl⟩

/-! ### Fields -/

theorem field?_viewFields (fields : List (String × Value)) :
    Record.field? (viewFields fields) name = (fields.lookup name).map view := by
  induction fields with
  | nil => rfl
  | cons entry fields ih =>
      obtain ⟨key, v⟩ := entry
      unfold viewFields Record.field?
      rw [List.lookup_cons, List.lookup_cons]
      cases name == key with
      | true => rfl
      | false => exact ih

/-- Among fields in the order of their descriptors, the first with a name has the type of the first
descriptor with that name. -/
theorem hasType_of_find? {fields : List (String × Value)} {descriptors : List FieldDescriptor}
    {f : FieldDescriptor} (hnames : fields.map Prod.fst = descriptors.map FieldDescriptor.name)
    (htypes : ∀ p ∈ fields.zip descriptors, p.1.2.HasType F p.2.type)
    (hf : descriptors.find? (·.name = name) = some f) :
    ∃ v, fields.lookup name = some v ∧ v.HasType F f.type := by
  induction fields generalizing descriptors with
  | nil =>
      rw [List.map_nil, eq_comm, List.map_eq_nil_iff] at hnames
      subst hnames
      cases hf
  | cons entry fields ih =>
      cases descriptors with
      | nil => cases hf
      | cons d descriptors =>
          obtain ⟨key, v⟩ := entry
          obtain ⟨hkey, hnames⟩ := List.cons.inj hnames
          have hkey : key = d.name := hkey
          rw [List.lookup_cons, hkey]
          by_cases hd : d.name = name
          · rw [List.find?_cons_of_pos (by simpa using hd)] at hf
            cases hf
            exact ⟨v, by rw [beq_iff_eq.mpr hd.symm], htypes _ List.mem_cons_self⟩
          · rw [List.find?_cons_of_neg (by simpa using hd)] at hf
            obtain ⟨w, hw, htype⟩ := ih hnames (fun p hp => htypes p (List.mem_cons_of_mem _ hp)) hf
            exact ⟨w, by rw [beq_false_of_ne (Ne.symm hd)]; exact hw, htype⟩

/-- A composite shows each of its fields, with a value of the type of the field. -/
theorem OfKind.field? {d : Descriptor} {f : FieldDescriptor} (h : v.OfKind F d.kind)
    (hf : d.field? name = some f) :
    ∃ w : Value, v.asRecord.field? name = some w.view ∧ w.HasType F f.type := by
  obtain ⟨descriptors, hd, hf⟩ := Option.bind_eq_some_iff.mp hf
  generalize d.kind = k at h hd
  cases h with
  | record hnames htypes =>
      cases hd
      obtain ⟨w, hw, htype⟩ := hasType_of_find? hnames htypes hf
      exact ⟨w, (field?_viewFields _).trans (by rw [hw]; rfl), htype⟩
  | _ => cases hd

end Value

/-! ### Paths -/

namespace FieldPath

/-- The paths at which a value may be absent: the field, or the composite field that it is a field
of, is of a nullable type. -/
inductive Nullable (F : TypeFamily) (element : TypeExpr) : FieldPath → Prop where
  | outer {name : String} {f : FieldDescriptor} {tail : Option String} :
      (F.describe element).field? name = some f → (F.describe f.type).nullable →
      Nullable F element ⟨name, tail⟩
  | inner {outer inner : String} {f g : FieldDescriptor} :
      (F.describe element).field? outer = some f → (F.describe f.type).field? inner = some g →
      (F.describe g.type).nullable → Nullable F element ⟨outer, some inner⟩

theorem value_direct {r : Record} {v : FieldValue} (h : r.field? name = some v) :
    value ⟨name, none⟩ r = v := by
  rw [value, h]

/-- A path of two segments reads null where the first field is no record. -/
theorem value_nested {r : Record} {w : Value} {inner : String}
    (h : r.field? name = some w.view) :
    value ⟨name, some inner⟩ r = (w.asRecord.field? inner).getD .null := by
  rw [value, h, Value.asRecord]
  cases w <;> rfl

/-- What a value of a composite type shows at a path: nothing, where the path is nullable, or a
value of the kind of the type that the path leads to. -/
theorem Leads.value {p : FieldPath} (hp : p.Leads F element t)
    (hv : v.OfKind F (F.describe element).kind) :
    p.value v.asRecord = .null ∧ p.Nullable F element ∨
      ∃ w : Value, p.value v.asRecord = w.view ∧ w.OfKind F (F.describe t).kind := by
  cases hp with
  | direct hf =>
      obtain ⟨w, hw, htype⟩ := hv.field? hf
      rw [value_direct hw]
      rcases htype.absent_or_ofKind with ⟨rfl, hnull⟩ | hkind
      · exact .inl ⟨rfl, .outer hf hnull⟩
      · exact .inr ⟨w, rfl, hkind⟩
  | nested hf _ hg =>
      obtain ⟨w, hw, htype⟩ := hv.field? hf
      rw [value_nested hw]
      rcases htype.absent_or_ofKind with ⟨rfl, hnull⟩ | hkind
      · exact .inl ⟨rfl, .outer hf hnull⟩
      · obtain ⟨u, hu, htype⟩ := hkind.field? hg
        rw [hu, Option.getD_some]
        rcases htype.absent_or_ofKind with ⟨rfl, hnull⟩ | hkind
        · exact .inl ⟨rfl, .inner hf hg hnull⟩
        · exact .inr ⟨u, rfl, hkind⟩

end FieldPath

/-! ### Predicates -/

namespace Predicate

/-- The single conditions of a predicate, from left to right. -/
def leaves : Predicate → List Predicate
  | and left right | or left right => leaves left ++ leaves right
  | leaf => [leaf]

/-- What a single condition asks of the value that it reads, where there is one. -/
def Suits (F : TypeFamily) (element : TypeExpr) : Predicate → FieldValue → Prop
  | compare _ _ (.atom a), v => ∃ b : Atom, v = .atom b ∧ b.category = a.category
  | compare path _ (.enum _), v => ∃ t names name, path.Leads F element t ∧
      (F.describe t).kind = .enumeration names ∧ name ∈ names ∧ v = .enum name
  | contains .., v => ∃ s, v = .atom (.string s)
  | count .., v => ∃ length, v = .collection length
  | isNull _, v | isNotNull _, v => v ≠ .null
  | and .., _ | or .., _ => False

/-- What a single condition finds in a record: null, where its path is nullable, or what it asks
for. -/
def Finds (F : TypeFamily) (element : TypeExpr) (r : Record) (leaf : Predicate) : Prop :=
  ∃ p, leaf.path? = some p ∧
    (p.value r = .null ∧ p.Nullable F element ∨ leaf.Suits F element (p.value r))

variable {q leaf : Predicate} {p : FieldPath}

/-- A condition that suits all values of the kind that its path leads to finds what it asks for. -/
theorem finds_of_leads {k : Kind} (hpath : leaf.path? = some p) (hp : p.Leads F element t)
    (hk : (F.describe t).kind = k) (hv : v.OfKind F (F.describe element).kind)
    (hsuits : ∀ w : Value, w.OfKind F k → leaf.Suits F element w.view) :
    leaf.Finds F element v.asRecord := by
  refine ⟨p, hpath, (hp.value hv).imp id ?_⟩
  rintro ⟨w, hw, hkind⟩
  rw [hw]
  exact hsuits w (hk ▸ hkind)

/-- The single conditions of a predicate that fits a type find what they ask for in the values of
the type. -/
theorem WellTyped.finds (h : q.WellTyped F element) (hv : v.OfKind F (F.describe element).kind)
    (hleaf : leaf ∈ q.leaves) : leaf.Finds F element v.asRecord := by
  induction h with
  | and _ _ ih ih' | or _ _ ih ih' => exact (List.mem_append.mp hleaf).elim ih ih'
  | isNull hp | isNotNull hp =>
      cases List.mem_singleton.mp hleaf
      exact finds_of_leads rfl hp rfl hv fun w hkind => hkind.view_ne_null
  | atom hp hk =>
      cases List.mem_singleton.mp hleaf
      refine finds_of_leads rfl hp hk hv fun w hkind => ?_
      obtain ⟨b, rfl, hb⟩ := hkind.atom_of_atomic
      exact ⟨b, rfl, hb⟩
  | enum hp hk =>
      cases List.mem_singleton.mp hleaf
      refine finds_of_leads rfl hp hk hv fun w hkind => ?_
      cases hkind with
      | enum hmem => exact ⟨_, _, _, hp, hk, hmem, rfl⟩
  | contains hp hk =>
      cases List.mem_singleton.mp hleaf
      refine finds_of_leads rfl hp hk hv fun w hkind => ?_
      obtain ⟨b, rfl, hb⟩ := hkind.atom_of_atomic
      cases b with
      | string s => exact ⟨s, rfl⟩
      | _ => cases hb
  | count hp hk =>
      cases List.mem_singleton.mp hleaf
      refine finds_of_leads rfl hp hk hv fun w hkind => ?_
      cases hkind with
      | list => exact ⟨_, rfl⟩

/-- Where a comparison finds what it asks for, only null and `nan` cannot be compared. -/
theorem Suits.null_or_nan {op : Comparison} {operand : Operand} {u : FieldValue}
    (h : (compare p op operand).Suits F element u) (hnone : u.compare? operand = none) :
    (∃ a, u = .atom a ∧ a.IsNaN) ∨ ∃ b, operand = .atom b ∧ b.IsNaN := by
  cases operand with
  | atom a =>
      obtain ⟨b, rfl, hb⟩ := h
      exact (Atom.isNaN_of_compare?_eq_none hb hnone).imp (⟨b, rfl, ·⟩) (⟨a, rfl, ·⟩)
  | enum name =>
      obtain ⟨-, -, name', -, -, -, rfl⟩ := h
      cases hnone

end Predicate

namespace FilterContext

open Predicate

/-- **Predicates read what they are typed for.**  Let a tree be compiled for a composite type.  In
every value of the type, each single condition reads null, and then the field that it reads or the
one that this is a field of is nullable; or it reads what it asks for, an atom of the category of
its operand, a declared name, a text or a collection.  So a comparison cannot be carried out for the
sake of null or `nan` only. -/
theorem reads_of_compile {key separator : String} {tree : FilterTree} {q : Predicate}
    (hv : v.HasType F (.defined key))
    (h : compile ⟨F, .defined key, separator⟩ tree = .ok q) :
    ∀ leaf ∈ q.leaves, ∃ p, leaf.path? = some p ∧
      (p.value v.asRecord = .null ∧ p.Nullable F (.defined key) ∨
        leaf.Suits F (.defined key) (p.value v.asRecord)) ∧
      ∀ op operand, leaf = .compare p op operand →
        (p.value v.asRecord).compare? operand = none →
        p.value v.asRecord = .null ∨ (∃ a, p.value v.asRecord = .atom a ∧ a.IsNaN) ∨
          ∃ b, operand = .atom b ∧ b.IsNaN := by
  intro leaf hleaf
  have htyped : q.WellTyped F (.defined key) :=
    compile_closed (fun _ _ _ => wellTyped_join) (fun _ _ => wellTyped_of_predicate) h
  have hkind : v.OfKind F (F.describe (.defined key)).kind := by
    refine hv.absent_or_ofKind.resolve_left ?_
    rintro ⟨rfl, -⟩
    cases hv
  obtain ⟨p, hp, hfinds⟩ := htyped.finds hkind hleaf
  refine ⟨p, hp, hfinds, ?_⟩
  rintro op operand rfl hnone
  exact hfinds.imp And.left fun hsuits => hsuits.null_or_nan hnone

/-- Categories, with commas between the elements of a sequence. -/
def categoryContext : FilterContext := ⟨Sample.family, Sample.category.type, ","⟩

/-- A category without children, below another one or at the top. -/
def childless (name : String) (parent : Value) : Value :=
  .record [("id", .atom (.integer .int64 ⟨1, by decide⟩)), ("name", .atom (.string name)),
    ("parent", parent), ("children", .list [])]

theorem hasType_childless (name : String) {parent : Value}
    (h : parent.HasType Sample.family (.optional (.boxed Sample.category.type))) :
    (childless name parent).HasType Sample.family Sample.category.type := by
  refine .composite (show Sample.family "Category" = _ from rfl) rfl ?_
  simp only [Sample.categoryFields, List.zip_cons_cons, List.zip_nil_left, List.forall_mem_cons]
  exact ⟨.atomic, .atomic, h, .list nofun, nofun⟩

/-- Pines are below trees, and trees at the top: what is read through the optional and boxed parent
is a text for pines and null for trees. -/
theorem pines_read :
    ∃ tree q, categoryContext.compile tree = .ok q ∧
      (∀ v ∈ [childless "trees" .absent, childless "pines" (childless "trees" .absent)],
        v.HasType Sample.family Sample.category.type ∧
        ∀ leaf ∈ q.leaves, leaf.Finds Sample.family Sample.category.type v.asRecord) ∧
      q.leaves = [.contains ⟨"parent", some "name"⟩ "tree", .count ⟨"children", none⟩ .gt 0] ∧
      FieldPath.value ⟨"parent", some "name"⟩ (childless "trees" .absent).asRecord = .null ∧
      FieldPath.value ⟨"parent", some "name"⟩
        (childless "pines" (childless "trees" .absent)).asRecord = .atom (.string "trees") := by
  have htrees := hasType_childless "trees" .absent
  have hpines := hasType_childless "pines" (.present (.boxed htrees))
  have hcompile : categoryContext.compile
      (.node ⟨"parent.name", .stringContains, [.scalar (.text "tree")]⟩ (some .or)
        [.single ⟨"children", .collectionIsNotEmpty, []⟩]) =
      .ok (.or (.contains ⟨"parent", some "name"⟩ "tree") (.count ⟨"children", none⟩ .gt 0)) := rfl
  refine ⟨_, _, hcompile, ?_, rfl, rfl, rfl⟩
  simp only [List.forall_mem_cons]
  refine ⟨⟨htrees, fun leaf hleaf => ?_⟩, ⟨hpines, fun leaf hleaf => ?_⟩, nofun⟩
  · obtain ⟨p, hp, hfinds, -⟩ := reads_of_compile htrees hcompile leaf hleaf
    exact ⟨p, hp, hfinds⟩
  · obtain ⟨p, hp, hfinds, -⟩ := reads_of_compile hpines hcompile leaf hleaf
    exact ⟨p, hp, hfinds⟩

end FilterContext

end RecordFilter
