import Mathlib.Data.List.Nodup
import RecordFilter.Proofs.Filter.Typing
import RecordFilter.Proofs.Schema.Visibility

/-!
# Paths in schemas and in types

A path is looked up twice: by a client in a schema (`Schema.find?`), and by a filter in the type
itself (`FieldPath.resolve`).  Between the two stands `TypeFamily.typeAlong?`, which follows names
through the visible fields of types.  A schema has a node at the end of the names where there is
such a type, as far as its budget goes; a filter follows the names when all fields count as visible.

* `follow?_of_schemaAt`: a schema followed along names.
* `resolve_eq_ok`: a text resolved along its segments.
* `typeAlong?_of_hidden`: what is visible with the markers is what the filter finds, if names tell
  fields apart.
* `find?_iff_resolve`: discovery and filters agree.
-/

namespace RecordFilter

/-- The names that a path consists of. -/
def FieldPath.names (p : FieldPath) : List String := p.head :: p.tail.toList

namespace TypeFamily

/-- The first visible field with a name. -/
def shownField? (F : TypeFamily) (o : Bool) (t : TypeExpr) (name : String) :
    Option FieldDescriptor :=
  (F.shown? o t).bind fun fields => fields.find? fun f => f.name = name

/-- The type at the end of a list of names, among the visible fields. -/
def typeAlong? (F : TypeFamily) (o : Bool) : TypeExpr → List String → Option TypeExpr
  | t, [] => some t
  | t, name :: names => (F.shownField? o t name).bind fun f => typeAlong? F o f.type names

/-- A property of the fields of a type, of the types of these fields, and so on for a number of
levels. -/
def FieldsWithin (F : TypeFamily) (P : List FieldDescriptor → Prop) : Nat → TypeExpr → Prop
  | 0, _ => True
  | levels + 1, t =>
    P ((F.describe t).kind.fields?.getD []) ∧
      ∀ f ∈ (F.describe t).kind.fields?.getD [], FieldsWithin F P levels f.type

instance decidableFieldsWithin (F : TypeFamily) (P : List FieldDescriptor → Prop)
    [DecidablePred P] : (levels : Nat) → (t : TypeExpr) → Decidable (F.FieldsWithin P levels t)
  | 0, _ => .isTrue trivial
  | levels + 1, t =>
    let _ (f : FieldDescriptor) := decidableFieldsWithin F P levels f.type
    inferInstanceAs (Decidable (P ((F.describe t).kind.fields?.getD []) ∧
      ∀ f ∈ (F.describe t).kind.fields?.getD [], F.FieldsWithin P levels f.type))

/-- No field has the empty name. -/
def NamesNonempty (fields : List FieldDescriptor) : Prop := ∀ f ∈ fields, f.name ≠ ""

/-- No two fields share a name. -/
def NamesDistinct (fields : List FieldDescriptor) : Prop := (fields.map FieldDescriptor.name).Nodup

instance : DecidablePred NamesNonempty := fun fields =>
  inferInstanceAs (Decidable (∀ f ∈ fields, f.name ≠ ""))

instance : DecidablePred NamesDistinct := fun _ => inferInstanceAs (Decidable (List.Nodup _))

variable {F : TypeFamily} {o : Bool} {depth : Nat} {t : TypeExpr} {s : Schema}

/-! ### Schemas along names -/

/-- A node has a property where the field is shown and there is depth left for it. -/
theorem property?_of_schemaAt {name : String} (h : F.schemaAt o (depth + 1) name t = some s)
    (field : String) :
    ((depth = 0 ∨ F.shownField? o t field = none) ∧ s.property? field = none) ∨
    ∃ f s', 0 < depth ∧ F.shownField? o t field = some f ∧ s.property? field = some s' ∧
      F.schemaAt o depth f.name f.type = some s' := by
  unfold shownField? Schema.property?
  obtain ⟨hd | hf, hs⟩ | ⟨fields, ss, hd, hf, hs, hfields⟩ := properties_of_schemaAt h
  · exact .inl ⟨.inl hd, by rw [hs]; rfl⟩
  · exact .inl ⟨.inr (by rw [hf]; rfl), by rw [hs]; rfl⟩
  · rw [hf, hs]
    -- a schema has the name of its field, so the first fields with the name stand side by side
    have hname : ∀ (f : FieldDescriptor) s', F.schemaAt o depth f.name f.type = some s' →
        decide (f.name = field) = decide (s'.name = field) := by
      intro f s' hfs
      obtain ⟨depth, rfl⟩ := Nat.exists_eq_succ_of_ne_zero (Nat.pos_iff_ne_zero.mp hd)
      rw [name_of_schemaAt hfs]
    obtain ⟨hf, hs⟩ | ⟨f, s', hf, hs, hfs⟩ := find?_of_forall₂ hfields hname
    · exact .inl ⟨.inr hf, hs⟩
    · exact .inr ⟨f, s', hd, hf, hs, hfs⟩

/-- Within its budget, a schema has a node at the end of names where there is a type among the
visible fields; the node is the schema of this type. -/
theorem follow?_of_schemaAt {name : String} (h : F.schemaAt o (depth + 1) name t = some s)
    {names : List String} (hd : names.length ≤ depth) :
    (F.typeAlong? o t names = none ∧ s.follow? names = none) ∨
    ∃ t' name' n, F.typeAlong? o t names = some t' ∧ s.follow? names = some n ∧
      F.schemaAt o (depth - names.length + 1) name' t' = some n := by
  induction names generalizing depth name t s with
  | nil => exact .inr ⟨t, name, s, rfl, rfl, h⟩
  | cons field names ih =>
      rw [typeAlong?, Schema.follow?]
      obtain ⟨hnone | hf, hs⟩ | ⟨f, s', hpos, hf, hs, hfs⟩ := property?_of_schemaAt h field
      · rw [hnone] at hd
        cases hd
      · rw [hf, hs]
        exact .inl ⟨rfl, rfl⟩
      · obtain ⟨depth, rfl⟩ := Nat.exists_eq_succ_of_ne_zero (Nat.pos_iff_ne_zero.mp hpos)
        rw [hf, hs, List.length_cons, Nat.succ_sub_succ]
        exact ih hfs (Nat.le_of_succ_le_succ hd)

/-! ### Markers -/

/-- Nothing is hidden where marks are overridden. -/
theorem not_hidden_true (t : TypeExpr) : ¬ F.Hidden true t := by
  intro h
  induction h with
  | marked ho => cases ho
  | element _ _ ih => exact ih

theorem visible_true (f : FieldDescriptor) : F.Visible true f :=
  ⟨fun _ => rfl, not_hidden_true f.type⟩

/-- Without markers the visible field with a name is the field with the name. -/
theorem shownField?_true (t : TypeExpr) (name : String) :
    F.shownField? true t name = (F.describe t).field? name := by
  have hall : ∀ fields : List FieldDescriptor,
      (fields.filter fun f => F.Visible true f) = fields := fun fields =>
    List.filter_eq_self.mpr fun f _ => decide_eq_true (visible_true f)
  unfold shownField? shown? Descriptor.field?
  cases (F.describe t).kind.fields? with
  | none => rfl
  | some fields => rw [Option.map_some, Option.bind_some, Option.bind_some, hall]

theorem mem_of_field? {name : String} {f : FieldDescriptor}
    (h : (F.describe t).field? name = some f) :
    f ∈ (F.describe t).kind.fields?.getD [] ∧ f.name = name := by
  obtain ⟨fields, hfields, hf⟩ := Option.bind_eq_some_iff.mp h
  rw [hfields]
  exact ⟨List.mem_of_find?_eq_some hf, Descriptor.name_of_field? h⟩

/-- Of fields with distinct names, a visible one is the field with its name. -/
theorem field?_of_shownField? (hdistinct : NamesDistinct ((F.describe t).kind.fields?.getD []))
    {name : String} {f : FieldDescriptor} (h : F.shownField? o t name = some f) :
    (F.describe t).field? name = some f := by
  unfold shownField? shown? at h
  unfold Descriptor.field?
  cases hfields : (F.describe t).kind.fields? with
  | none => rw [hfields] at h; cases h
  | some fields =>
      rw [hfields] at h hdistinct
      rw [Option.map_some, Option.bind_some] at h
      have hmem : f ∈ fields := List.mem_of_mem_filter (List.mem_of_find?_eq_some h)
      have hname : f.name = name := by simpa using List.find?_some h
      -- whatever is found under the name has the name of `f`, and so it is `f`
      cases hg : fields.find? (·.name = name) with
      | none => exact absurd hname (by simpa using List.find?_eq_none.mp hg f hmem)
      | some g =>
          have hgname : g.name = name := by simpa using List.find?_some hg
          have heq : g = f := List.inj_on_of_nodup_map hdistinct (List.mem_of_find?_eq_some hg) hmem
            (hgname.trans hname.symm)
          rw [Option.bind_some, hg, heq]

/-- Where names tell fields apart, the type at the end of names among the visible fields is the type
at their end among all fields. -/
theorem typeAlong?_of_hidden {names : List String} {t' : TypeExpr}
    (hdistinct : F.FieldsWithin NamesDistinct names.length t)
    (h : F.typeAlong? o t names = some t') : F.typeAlong? true t names = some t' := by
  induction names generalizing t with
  | nil => exact h
  | cons name names ih =>
      obtain ⟨f, hf, h⟩ := Option.bind_eq_some_iff.mp h
      have hfield := field?_of_shownField? hdistinct.1 hf
      rw [typeAlong?, shownField?_true, hfield]
      exact ih (hdistinct.2 f (mem_of_field? hfield).1) h

/-- Names that lead to a type are not empty, where no field has the empty name. -/
theorem not_mem_of_typeAlong? {names : List String} {t' : TypeExpr}
    (hnamed : F.FieldsWithin NamesNonempty names.length t)
    (h : F.typeAlong? true t names = some t') : "" ∉ names := by
  induction names generalizing t with
  | nil => exact List.not_mem_nil
  | cons name names ih =>
      obtain ⟨f, hf, h⟩ := Option.bind_eq_some_iff.mp h
      rw [shownField?_true] at hf
      obtain ⟨hmem, hname⟩ := mem_of_field? hf
      rw [List.mem_cons, not_or, ← hname]
      exact ⟨(hnamed.1 f hmem).symm, ih (hnamed.2 f hmem) h⟩

theorem FieldsWithin.mono {P : List FieldDescriptor → Prop} {levels levels' : Nat}
    (h : F.FieldsWithin P levels' t) (hle : levels ≤ levels') : F.FieldsWithin P levels t := by
  induction levels generalizing levels' t with
  | zero => trivial
  | succ levels ih =>
      cases levels' with
      | zero => cases hle
      | succ levels' => exact ⟨h.1, fun f hf => ih (h.2 f hf) (Nat.le_of_succ_le_succ hle)⟩

/-! ### Texts along segments -/

theorem shape_of_field? {name : String} {f : FieldDescriptor}
    (h : (F.describe t).field? name = some f) : (F.describe t).shape = .composite := by
  obtain ⟨fields, hfields, -⟩ := Option.bind_eq_some_iff.mp h
  unfold Descriptor.shape
  cases hkind : (F.describe t).kind with
  | composite => rfl
  | _ => rw [hkind] at hfields; cases hfields

/-- A path of one segment resolves where the field is there, hidden or not. -/
theorem resolveDirect_eq_ok {name : String} {p : FieldPath} {t' : TypeExpr} :
    FieldPath.resolveDirect F t name = .ok (p, t') ↔
      p = ⟨name, none⟩ ∧ F.typeAlong? true t [name] = some t' := by
  rw [typeAlong?, shownField?_true]
  unfold FieldPath.resolveDirect
  cases hf : (F.describe t).field? name with
  | none => simp [hf]
  | some f => simp [hf, typeAlong?, Descriptor.name_of_field? hf, eq_comm]

theorem resolveNested_eq_ok {outer inner : String} {p : FieldPath} {t' : TypeExpr} :
    FieldPath.resolveNested F t outer inner = .ok (p, t') ↔
      p = ⟨outer, some inner⟩ ∧ F.typeAlong? true t [outer, inner] = some t' := by
  rw [typeAlong?, shownField?_true]
  unfold FieldPath.resolveNested
  cases hf : (F.describe t).field? outer with
  | none => simp [hf]
  | some f =>
      rw [Option.bind_some, typeAlong?, shownField?_true]
      cases hg : (F.describe f.type).field? inner with
      | none =>
          by_cases hshape : (F.describe f.type).shape = .composite
          · simp [hf, hg, hshape]
          · simp [hf, hshape]
      | some g =>
          simp [hf, hg, shape_of_field? hg, typeAlong?, Descriptor.name_of_field? hf,
            Descriptor.name_of_field? hg, eq_comm]

/-- A text resolves to the path of its segments, if none of them is empty and they lead to a
type. -/
theorem resolve_eq_ok {text : String} {p : FieldPath} {t' : TypeExpr} :
    FieldPath.resolve F t text = .ok (p, t') ↔ p.names = FieldPath.segments text ∧
      "" ∉ FieldPath.segments text ∧ F.typeAlong? true t (FieldPath.segments text) = some t' := by
  unfold FieldPath.resolve
  by_cases hblank : "" ∈ FieldPath.segments text
  · simp [hblank]
  · rw [if_neg hblank]
    obtain ⟨head, tail⟩ := p
    match hnames : FieldPath.segments text with
    | [] => exact absurd (List.map_eq_nil_iff.mp hnames) (List.splitOn_ne_nil _ _)
    | [name] =>
        rw [hnames] at hblank
        cases tail <;> simp [FieldPath.names, hblank, resolveDirect_eq_ok]
    | [outer, inner] =>
        rw [hnames] at hblank
        cases tail <;> simp [FieldPath.names, hblank, resolveNested_eq_ok, and_assoc]
    | _ :: _ :: _ :: _ => cases tail <;> simp [FieldPath.names]

/-- One or two segments are the names of a path. -/
theorem exists_names_eq_segments {text : String} (hlength : (FieldPath.segments text).length ≤ 2) :
    ∃ p : FieldPath, p.names = FieldPath.segments text := by
  match hnames : FieldPath.segments text with
  | [] => exact absurd (List.map_eq_nil_iff.mp hnames) (List.splitOn_ne_nil _ _)
  | [name] => exact ⟨⟨name, none⟩, rfl⟩
  | [outer, inner] => exact ⟨⟨outer, some inner⟩, rfl⟩
  | _ :: _ :: _ :: _ =>
      rw [hnames] at hlength
      simp at hlength

end TypeFamily

/-! ### Discovery and filters -/

/-- A node of a schema says of the type at a path what a filter on the path finds there: what the
type is, and which operators suit it. -/
structure Schema.AgreesAt (n : Schema) (ctx : FilterContext) (text : String) (t : TypeExpr) :
    Prop where
  declaredType : n.declaredType = ctx.family.declaredName t
  nullable : n.nullable = (ctx.family.describe t).nullable
  shape : n.shape = (ctx.family.describe t).shape.tag
  category : n.category = (ctx.family.describe t).shape.category?
  operators : n.operators = (ctx.family.describe t).shape.operators
  refuses : ∀ (o : Operator) (arguments : List Raw), o.accepts arguments.length →
    (∀ raw ∈ arguments, raw.isNull = false) →
    ((∃ e, ctx.predicate ⟨text, o, arguments⟩ = .error e ∧ e.code = "UNSUPPORTED_OPERATOR") ↔
      o ∉ n.operators)

namespace FilterContext

open TypeFamily

variable {ctx : FilterContext} {depth : Nat} {text : String}

/-- A node that describes a place agrees with the path that leads there. -/
theorem agreesAt_of_describes {o : Bool} {budget : Nat} {place : Place} {n : Schema}
    {path : FieldPath} (hn : n.Describes ctx.family o budget place)
    (hr : FieldPath.resolve ctx.family ctx.element text = .ok (path, place.type)) :
    n.AgreesAt ctx text place.type where
  declaredType := hn.declaredType
  nullable := hn.nullable
  shape := hn.shape
  category := hn.category
  operators := hn.operators
  refuses o arguments ha hnonnull := by
    rw [hn.operators]
    exact unsupportedOperator_iff hr ha hnonnull

/-- A node that is found at a path describes a type that the segments of the path lead to. -/
theorem exists_of_find? {o : Bool} {s n : Schema}
    (hs : ctx.family.schema? ctx.element (depth + 1) o = some s)
    (hlength : (FieldPath.segments text).length ≤ depth) (hn : s.find? text = some n) :
    ∃ budget place, ctx.family.typeAlong? o ctx.element (FieldPath.segments text) =
      some place.type ∧ n.Describes ctx.family o budget place := by
  obtain ⟨-, hnone⟩ | ⟨t, name, n', ht, hn', hnode⟩ := follow?_of_schemaAt hs hlength
  · rw [Schema.find?] at hn
    exact absurd (hn.symm.trans hnone) (Option.some_ne_none n)
  · have heq : n' = n := Option.some.inj (hn'.symm.trans hn)
    subst heq
    exact ⟨_, ⟨name, t⟩, ht, describes_of_schemaAt hnode⟩

/-- **Discovery and filters agree.**  Take a depth of at least three, and a type in which no field
of the first two levels has the empty name.  Its schema with markers overridden has a node at a path
of at most two segments exactly when the path resolves, and the node says of the type at the path
what a filter finds there, down to the operators it refuses.  If moreover the fields of each type
have distinct names, what the schema that honours markers has a node for resolves too, and the node
agrees with the filter in the same way. -/
theorem find?_iff_resolve (ctx : FilterContext) {depth : Nat} (hdepth : 3 ≤ depth)
    (hnames : ctx.family.FieldsWithin NamesNonempty 2 ctx.element) :
    (∃ s, ctx.family.schema? ctx.element depth true = some s ∧
      ∀ text, (FieldPath.segments text).length ≤ 2 →
        ((s.find? text).isSome ↔
          ∃ path t, FieldPath.resolve ctx.family ctx.element text = .ok (path, t)) ∧
        ∀ n path t, s.find? text = some n →
          FieldPath.resolve ctx.family ctx.element text = .ok (path, t) →
          n.AgreesAt ctx text t) ∧
    (ctx.family.FieldsWithin NamesDistinct 2 ctx.element →
      ∀ s, ctx.family.schema? ctx.element depth false = some s →
        ∀ text n, (FieldPath.segments text).length ≤ 2 → s.find? text = some n →
          ∃ path t, FieldPath.resolve ctx.family ctx.element text = .ok (path, t) ∧
            n.AgreesAt ctx text t) := by
  obtain ⟨depth, rfl⟩ := Nat.exists_eq_add_of_le' (Nat.le_of_succ_le hdepth)
  have hbudget : ∀ {text}, (FieldPath.segments text).length ≤ 2 →
      (FieldPath.segments text).length ≤ depth + 1 := by omega
  -- a type that the segments lead to is one that the text resolves to
  have hresolve : ∀ {text t}, (FieldPath.segments text).length ≤ 2 →
      ctx.family.typeAlong? true ctx.element (FieldPath.segments text) = some t →
      ∃ path, FieldPath.resolve ctx.family ctx.element text = .ok (path, t) := by
    intro text t hlength ht
    obtain ⟨path, hpath⟩ := exists_names_eq_segments hlength
    exact ⟨path, resolve_eq_ok.mpr ⟨hpath, not_mem_of_typeAlong? (hnames.mono hlength) ht, ht⟩⟩
  constructor
  · obtain ⟨s, hs⟩ := exists_schemaAt (F := ctx.family) (ctx.family.describe ctx.element).name
      (Nat.succ_pos (depth + 1)) (not_hidden_true ctx.element)
    refine ⟨s, hs, fun text hlength => ⟨⟨fun hsome => ?_, ?_⟩, fun n path t hn hr => ?_⟩⟩
    · obtain ⟨n, hn⟩ := Option.isSome_iff_exists.mp hsome
      obtain ⟨_, place, ht, -⟩ := exists_of_find? hs (hbudget hlength) hn
      obtain ⟨path, hr⟩ := hresolve hlength ht
      exact ⟨path, place.type, hr⟩
    · rintro ⟨path, t, hr⟩
      have ht := (resolve_eq_ok.mp hr).2.2
      obtain ⟨hnone, -⟩ | ⟨_, _, n, -, hn, -⟩ := follow?_of_schemaAt hs (hbudget hlength)
      · rw [hnone] at ht
        cases ht
      · exact Option.isSome_iff_exists.mpr ⟨n, hn⟩
    · obtain ⟨_, place, hplace, hdescribes⟩ := exists_of_find? hs (hbudget hlength) hn
      have ht := (resolve_eq_ok.mp hr).2.2
      cases hplace.symm.trans ht
      exact agreesAt_of_describes hdescribes hr
  · intro hdistinct s hs text n hlength hn
    obtain ⟨_, place, hplace, hdescribes⟩ := exists_of_find? hs (hbudget hlength) hn
    have ht := typeAlong?_of_hidden (hdistinct.mono hlength) hplace
    obtain ⟨path, hr⟩ := hresolve hlength ht
    exact ⟨path, place.type, hr, agreesAt_of_describes hdescribes hr⟩

/-- The schema of people with markers overridden has a node for the city of an address and for the
hash of a manager's password, as both paths resolve, and none below tags. -/
theorem people_paths :
    3 ≤ 3 ∧ peopleContext.family.FieldsWithin NamesNonempty 2 peopleContext.element ∧
      peopleContext.family.FieldsWithin NamesDistinct 2 peopleContext.element ∧
      (∃ s, peopleContext.family.schema? peopleContext.element 3 true = some s ∧
        (s.find? "address.city").isSome ∧ (s.find? "manager.passwordHash").isSome ∧
        ¬ (s.find? "tags.city").isSome) ∧
      ∀ s, peopleContext.family.schema? peopleContext.element 3 false = some s →
        ∀ n, s.find? "address.city" = some n → n.operators = Shape.operators (.atomic .string) := by
  have hnames : peopleContext.family.FieldsWithin NamesNonempty 2 peopleContext.element := by decide
  have hdistinct : peopleContext.family.FieldsWithin NamesDistinct 2 peopleContext.element := by
    decide
  obtain ⟨⟨s, hs, hfind⟩, hhonoured⟩ := find?_iff_resolve peopleContext (Nat.le_refl 3) hnames
  refine ⟨Nat.le_refl 3, hnames, hdistinct, ⟨s, hs, ?_, ?_, ?_⟩, fun s hs n hn => ?_⟩
  · exact (hfind "address.city" (by decide)).1.mpr ⟨_, _, rfl⟩
  · exact (hfind "manager.passwordHash" (by decide)).1.mpr ⟨_, _, rfl⟩
  · refine mt (hfind "tags.city" (by decide)).1.mp ?_
    rintro ⟨path, t, h⟩
    cases h
  · obtain ⟨path, t, hr, hagrees⟩ := hhonoured hdistinct s hs "address.city" n (by decide) hn
    cases hr
    exact hagrees.operators

end FilterContext

end RecordFilter
