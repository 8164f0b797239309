import RecordFilter.Proofs.Schema.Visibility

/-!
# A greater depth adds detail only

`Schema.truncate` takes the properties off the nodes that lie a number of property levels below the
root, and everything further down with them.  A schema compiled at a depth is the truncation of the
schema compiled at any greater depth.

* `at?_truncate`: which nodes a truncated schema has, and what they are.
* `schemaNode_eq_truncate`: a node whose properties are truncated is truncated itself.
* `schemaAt_eq_truncate`: the schemas of one type at two depths.
* `compile_eq_truncate`: the same for compiled schemas, whatever has been compiled before.
-/

namespace RecordFilter

namespace Schema

/-! ### Truncation -/

mutual

/-- A schema without the properties of the nodes that lie so many property levels below it; the
step to an element leads to no lower level. -/
def truncate : Nat → Schema → Schema
  | levels, node name declaredType nullable shape category values properties element operators =>
    node name declaredType nullable shape category values
      (match levels, properties with
        | levels + 1, some properties => some (truncateAll levels properties)
        | _, _ => none)
      (match element with
        | some element => some (truncate levels element)
        | none => none)
      operators

/-- Schemas, each truncated. -/
def truncateAll : Nat → List Schema → List Schema
  | _, [] => []
  | levels, s :: rest => truncate levels s :: truncateAll levels rest

end

/-- What is left of the properties of a node that has so many levels below it. -/
def propertiesWithin : Nat → Option (List Schema) → Option (List Schema)
  | 0, _ => none
  | levels + 1, properties => properties.map (·.map (truncate levels))

variable {s : Schema} {levels : Nat}

@[simp]
theorem propertiesWithin_zero (properties : Option (List Schema)) :
    propertiesWithin 0 properties = none := rfl

@[simp]
theorem propertiesWithin_succ (properties : Option (List Schema)) :
    propertiesWithin (levels + 1) properties = properties.map (·.map (truncate levels)) := rfl

@[simp]
theorem propertiesWithin_none : propertiesWithin levels none = none := by
  cases levels <;> rfl

theorem truncateAll_eq_map (ss : List Schema) :
    truncateAll levels ss = ss.map (truncate levels) := by
  induction ss with
  | nil => rw [truncateAll, List.map_nil]
  | cons s ss ih => rw [truncateAll, ih, List.map_cons]

/-- Truncation leaves a node as it is, but for its properties and its element. -/
theorem truncate_node (name declaredType : String) (nullable : Bool) (shape : ShapeTag)
    (category : Option Category) (values : Option (List String))
    (properties : Option (List Schema)) (element : Option Schema) (operators : OperatorSet) :
    (node name declaredType nullable shape category values properties element operators).truncate
        levels =
      node name declaredType nullable shape category values (propertiesWithin levels properties)
        (element.map (truncate levels)) operators := by
  unfold truncate
  cases levels with
  | zero => cases element <;> rfl
  | succ levels =>
      cases properties with
      | none => cases element <;> rfl
      | some properties => cases element <;> simp [truncateAll_eq_map]

@[simp]
theorem properties_truncate :
    (s.truncate levels).properties = propertiesWithin levels s.properties := by
  cases s with
  | node => rw [truncate_node]; rfl

/-- An element costs no level, so that it is truncated to as many as its collection. -/
@[simp]
theorem element_truncate : (s.truncate levels).element = s.element.map (truncate levels) := by
  cases s with
  | node => rw [truncate_node]; rfl

/-- A truncated schema has the nodes that lie no lower than its levels reach, each truncated where
they end. -/
theorem at?_truncate (a : List Step) :
    (s.truncate levels).at? a =
      if Step.cost a ≤ levels then (s.at? a).map (truncate (levels - Step.cost a)) else none := by
  -- a step to a property takes one of the levels, a step to the element takes none
  induction a generalizing levels s with
  | nil =>
      rw [Step.cost_nil, if_pos (Nat.zero_le _)]
      rfl
  | cons step a ih =>
      cases step with
      | field i =>
          rw [at?, at?, Step.cost_field, properties_truncate]
          cases levels with
          | zero =>
              rw [propertiesWithin_zero, if_neg (Nat.not_succ_le_zero _)]
              rfl
          | succ levels =>
              rw [propertiesWithin_succ, if_congr Nat.add_le_add_iff_right rfl rfl,
                Nat.add_sub_add_right]
              cases s.properties with
              | none => exact (ite_self none).symm
              | some properties =>
                  simp only [Option.map_some, Option.bind_some, List.getElem?_map]
                  cases properties[i]? with
                  | none => exact (ite_self none).symm
                  | some p => exact ih
      | element =>
          rw [at?, at?, element_truncate, Step.cost_element]
          cases s.element with
          | none => exact (ite_self none).symm
          | some e => exact ih

/-- A node may be truncated before or after it is made nullable. -/
theorem truncate_asNullable (baseName : String) :
    (s.asNullable baseName).truncate levels = (s.truncate levels).asNullable baseName := by
  cases s with
  | node => rw [asNullable, truncate_node, truncate_node, asNullable]

end Schema

/-! ### Two depths -/

namespace TypeFamily

open Schema

variable {F : TypeFamily} {o : Bool} {levels : Nat}

theorem truncate_bareNode (name : String) (t : TypeExpr) (values : Option (List String))
    (properties : Option (List Schema)) (element : Option Schema) :
    (F.bareNode name t values properties element).truncate levels =
      F.bareNode name t values (propertiesWithin levels properties)
        (element.map (truncate levels)) :=
  truncate_node ..

/-- The schemas of fields are truncated if the schema of each is. -/
theorem fieldSchemas_eq_truncate {below below' : String → TypeExpr → Option Schema}
    (hbelow : ∀ name t, below name t = (below' name t).map (truncate levels))
    (fields : List FieldDescriptor) :
    fieldSchemas o below fields = (fieldSchemas o below' fields).map (truncate levels) := by
  unfold fieldSchemas
  rw [List.map_filterMap]
  exact List.filterMap_congr fun f _ => hbelow f.name f.type

/-- A node whose properties are truncated is truncated itself. -/
theorem schemaNode_eq_truncate {below below' : Option (String → TypeExpr → Option Schema)}
    (hbelow : ∀ fields, below.map (fieldSchemas o · fields) =
      propertiesWithin levels (below'.map (fieldSchemas o · fields)))
    (name : String) (t : TypeExpr) :
    F.schemaNode o below name t = (F.schemaNode o below' name t).map (truncate levels) := by
  induction t generalizing name with
  | atomic c =>
      rw [schemaNode, schemaNode, Option.map_some, truncate_bareNode, propertiesWithin_none]
      rfl
  | defined key =>
      rw [schemaNode, schemaNode]
      cases F key with
      | atomic c =>
          simp only [Option.map_some, truncate_bareNode, propertiesWithin_none, Option.map_none]
      | enumeration name' ignored values =>
          simp only [apply_ite (Option.map (truncate levels)), Option.map_some, Option.map_none,
            truncate_bareNode, propertiesWithin_none]
      | composite name' ignored fields =>
          simp only [apply_ite (Option.map (truncate levels)), Option.map_some, Option.map_none,
            truncate_bareNode, hbelow]
  | optional t ih =>
      rw [schemaNode, schemaNode, ih, Option.map_map, Option.map_map]
      exact congrArg (Option.map · _) (funext fun s => (truncate_asNullable _).symm)
  | boxed t ih => exact ih name
  | list t ih =>
      rw [schemaNode, schemaNode, ih, Option.map_map, Option.map_map]
      refine congrArg (Option.map · _) (funext fun s => ?_)
      rw [Function.comp_apply, Function.comp_apply, truncate_bareNode, propertiesWithin_none]
      rfl

/-- The schema of a type at a depth is the one at a greater depth, truncated. -/
theorem schemaAt_eq_truncate {depth depth' : Nat} (h : depth ≤ depth') (name : String)
    (t : TypeExpr) :
    F.schemaAt o (depth + 1) name t =
      (F.schemaAt o (depth' + 1) name t).map (truncate depth) := by
  -- the depth pays for the properties; within one depth, elements are reached by the type itself
  induction depth generalizing depth' name t with
  | zero =>
      rw [schemaAt_succ, schemaAt_succ]
      exact schemaNode_eq_truncate (fun _ => rfl) name t
  | succ depth ih =>
      obtain ⟨depth', rfl⟩ := Nat.exists_eq_add_of_le' (Nat.le_trans (Nat.le_add_left 1 depth) h)
      refine schemaNode_eq_truncate (fun fields => ?_) name t
      exact congrArg some (fieldSchemas_eq_truncate (ih (Nat.le_of_succ_le_succ h)) fields)

/-- **A greater depth adds detail only.**  Whatever has been compiled before, the schema compiled at
a depth of at least one is the schema compiled at any greater depth, truncated; so one is absent
exactly when the other is.  The two have the same nodes above the level where the smaller depth
ends, and there each node of the one is the truncation of the node of the other. -/
theorem compile_eq_truncate {c c' : SchemaCache} (hc : c.Reached F) (hc' : c'.Reached F)
    (t : TypeExpr) {depth depth' : Nat} (hdepth : 1 ≤ depth) (hle : depth ≤ depth') (o : Bool) :
    (c.compile F t depth o).1.map StoredSchema.schema =
        ((c'.compile F t depth' o).1.map StoredSchema.schema).map (truncate (depth - 1)) ∧
      ((c.compile F t depth o).1 = none ↔ (c'.compile F t depth' o).1 = none) ∧
      ∀ stored stored', (c.compile F t depth o).1 = some stored →
        (c'.compile F t depth' o).1 = some stored' → ∀ a,
        stored.schema.at? a = if Step.cost a < depth then
          (stored'.schema.at? a).map (truncate (depth - 1 - Step.cost a)) else none := by
  obtain ⟨depth, rfl⟩ := Nat.exists_eq_add_of_le' hdepth
  obtain ⟨depth', rfl⟩ := Nat.exists_eq_add_of_le' (Nat.le_trans hdepth hle)
  have hschema : (c.compile F t (depth + 1) o).1.map StoredSchema.schema =
      ((c'.compile F t (depth' + 1) o).1.map StoredSchema.schema).map (truncate depth) := by
    rw [(SchemaCache.Sound.of_reached hc).compile_schema,
      (SchemaCache.Sound.of_reached hc').compile_schema]
    exact schemaAt_eq_truncate (Nat.le_of_succ_le_succ hle) _ t
  refine ⟨hschema, ?_, fun stored stored' hstored hstored' a => ?_⟩
  · rw [← Option.map_eq_none_iff (f := StoredSchema.schema), hschema, Option.map_eq_none_iff,
      Option.map_eq_none_iff]
  · rw [hstored, hstored'] at hschema
    rw [Option.some.inj hschema, at?_truncate]
    exact if_congr Nat.lt_succ_iff.symm rfl rfl

/-- Four levels of categories show the name of a child of a child, which two levels do not; the two
schemas agree on the children. -/
theorem categories_truncated :
    SchemaCache.Reached Sample.family .empty ∧ 1 ≤ 2 ∧ 2 ≤ 4 ∧
      ∃ stored stored',
        (SchemaCache.empty.compile Sample.family Sample.category.type 2 false).1 = some stored ∧
        (SchemaCache.empty.compile Sample.family Sample.category.type 4 false).1 = some stored' ∧
        stored.schema = stored'.schema.truncate 1 ∧
        stored.schema.at? [.field 3, .element] =
          (stored'.schema.at? [.field 3, .element]).map (truncate 0) ∧
        (stored'.schema.at? [.field 3, .element, .field 3, .element, .field 1]).isSome ∧
        stored.schema.at? [.field 3, .element, .field 3, .element, .field 1] = none := by
  have hc : SchemaCache.Reached Sample.family .empty := .empty
  have hone : 1 ≤ 2 := by decide
  have htwo : 2 ≤ 4 := by decide
  obtain ⟨hschema, -, hnodes⟩ := compile_eq_truncate hc hc Sample.category.type hone htwo false
  refine ⟨hc, hone, htwo, _, _, rfl, rfl, Option.some.inj hschema, ?_, rfl, ?_⟩
  · exact hnodes _ _ rfl rfl [.field 3, .element]
  · exact hnodes _ _ rfl rfl [.field 3, .element, .field 3, .element, .field 1]

end TypeFamily

end RecordFilter
