import Mathlib.Data.List.Perm.Subperm
import RecordFilter.Proofs.Json.Ordered
import RecordFilter.Schema.Data

/-!
# Schemas as data

A schema is written as a data value and read back.  What is read need not be what is written: the
operators may stand in any order and more than once, what a node does not have may be null or left
out, and an object may hold more than what is asked for (`StandsFor`).  What is written is one such
value.

* `held?`: what the object of a node holds under each key.
* `get?_toJson`: a schema is written that way.
* `ofDocument?_of_standsFor`: what stands for a schema is read as the schema.
* `data_roundTrip`: schemas and their data values.
-/

namespace RecordFilter

open Json Json.Document

/-! ### Sets of operators -/

theorem Operator.nodup_all : Operator.all.Nodup := by decide

namespace OperatorSet

/-- The operators of a set stand in their fixed order, each once. -/
theorem toList_eq_filter (s : OperatorSet) : s.toList = Operator.all.filter (· ∈ s) := by
  have hself : s.toList.filter (· ∈ s) = s.toList :=
    List.filter_eq_self.mpr fun o ho => decide_eq_true ho
  have hsublist : s.toList.Sublist (Operator.all.filter (· ∈ s)) :=
    hself ▸ s.ordered.filter (· ∈ s)
  have hsubset : Operator.all.filter (· ∈ s) ⊆ s.toList := fun o ho =>
    of_decide_eq_true (List.mem_filter.mp ho).2
  exact hsublist.eq_of_length_le
    (List.Nodup.subperm (Operator.nodup_all.filter _) hsubset).length_le

/-- A set is the set of any list with its operators. -/
theorem ofList_eq {ops : List Operator} {s : OperatorSet} (h : ∀ o, o ∈ ops ↔ o ∈ s) :
    ofList ops = s := by
  have hlist : (ofList ops).toList = s.toList := by
    rw [s.toList_eq_filter]
    exact List.filter_congr fun o _ => decide_eq_decide.mpr (h o)
  cases s
  cases hlist
  rfl

end OperatorSet

namespace Schema

/-- Induction over schemas: what holds of a node whenever it holds of its properties and of its
element holds of every schema. -/
@[elab_as_elim]
theorem induct {P : Schema → Prop}
    (step : ∀ name declaredType nullable shape category values properties element operators,
      (∀ ps ∈ properties, ∀ s ∈ ps, P s) → (∀ s ∈ element, P s) →
        P (.node name declaredType nullable shape category values properties element operators)) :
    ∀ s, P s
  | .node name declaredType nullable shape category values properties element operators =>
    step name declaredType nullable shape category values properties element operators
      (fun _ps _hps s _hs => induct step s) (fun s _hs => induct step s)
termination_by s => sizeOf s
decreasing_by
  · cases _hps
    have hlt := List.sizeOf_lt_of_mem _hs
    simp only [node.sizeOf_spec, Option.some.sizeOf_spec]
    omega
  · cases _hs
    simp only [node.sizeOf_spec, Option.some.sizeOf_spec]
    omega

/-! ### What is written -/

theorem listToJson_eq_map (ss : List Schema) : listToJson ss = ss.map toJson := by
  induction ss with
  | nil => rfl
  | cons s ss ih => rw [listToJson, ih, List.map_cons]

/-- The operators of a set, in their fixed order. -/
def operatorsJson (operators : OperatorSet) : Json :=
  .array ((Operator.all.filter (· ∈ operators)).map fun o => .string o.name)

/-- What the object of a node holds under a key: of the fields that a node need not have, those that
it has. -/
def held? (s : Schema) : String → Option Json
  | "name" => some (.string s.name)
  | "declaredTypeName" => some (.string s.declaredType)
  | "nullable" => some (.bool s.nullable)
  | "shape" => some (.string s.shape.name)
  | "category" => s.category.map fun c => .string c.name
  | "enumValues" => s.values.map fun vs => .array (vs.map .string)
  | "properties" => s.properties.map fun ps => .array (ps.map toJson)
  | "collectionElement" => s.element.map toJson
  | "allowedOperators" => some (operatorsJson s.operators)
  | _ => none

/-- A field of an object, if there is something to write. -/
def optionalField (key : String) (value : Option Json) : List (String × Json) :=
  (value.map fun v => (key, v)).toList

/-- A field that may be left out is held under its own key, if at all. -/
theorem lookup_optionalField (name key : String) (value : Option Json) :
    (optionalField key value).reverse.lookup name = if name = key then value else none := by
  cases value with
  | none => exact (ite_self none).symm
  | some v => exact lookup_cons_eq name key v []

theorem toJson_node (name declaredType : String) (nullable : Bool) (shape : ShapeTag)
    (category : Option Category) (values : Option (List String))
    (properties : Option (List Schema)) (element : Option Schema) (operators : OperatorSet) :
    (node name declaredType nullable shape category values properties element operators).toJson =
      .ofFields
        ([("name", .string name), ("declaredTypeName", .string declaredType),
          ("nullable", .bool nullable), ("shape", .string shape.name),
          ("allowedOperators", operatorsJson operators)] ++
          optionalField "category" (category.map fun c => .string c.name) ++
          optionalField "enumValues" (values.map fun vs => .array (vs.map .string)) ++
          optionalField "properties" (properties.map fun ps => .array (ps.map toJson)) ++
          optionalField "collectionElement" (element.map toJson)) := by
  rw [operatorsJson, ← operators.toList_eq_filter]
  cases category <;> cases values <;> cases properties <;> cases element <;>
    simp [toJson, optionalField, listToJson_eq_map]

/-- A schema is written as an object that holds what its root says. -/
theorem get?_toJson (s : Schema) (key : String) : s.toJson.get? key = s.held? key := by
  cases s with
  | node =>
      rw [toJson_node, get?_ofFields]
      simp only [List.reverse_append, List.lookup_append, lookup_optionalField]
      fun_cases held?
      case case10 => simp_all [lookup_cons_eq]
      all_goals
        simp [lookup_cons_eq, Schema.name, declaredType, nullable, shape, category, values,
          properties, element, operators]

theorem ordered_optionalField {α : Type} {encode : α → Json} {o : Option α}
    (h : ∀ a ∈ o, (encode a).Ordered) (key : String) :
    ∀ f ∈ optionalField key (o.map encode), f.2.Ordered := by
  cases o with
  | none => exact List.forall_mem_nil _
  | some a => exact List.forall_mem_singleton.mpr (h a rfl)

theorem ordered_map {α : Type} {encode : α → Json} {xs : List α}
    (h : ∀ x ∈ xs, (encode x).Ordered) : (Json.array (xs.map encode)).Ordered :=
  .array (List.forall_mem_map.mpr h)

/-- The data value of a schema has its keys in order, at every level. -/
theorem ordered_toJson (s : Schema) : s.toJson.Ordered := by
  induction s using Schema.induct with
  | step name declaredType nullable shape category values properties element operators ihp ihe =>
      have hoperators : (operatorsJson operators).Ordered := ordered_map fun _ _ => .string _
      rw [toJson_node]
      refine ordered_ofFields ?_
      simp only [List.forall_mem_append, List.forall_mem_cons]
      refine ⟨⟨⟨⟨⟨.string _, .string _, .bool _, .string _, hoperators, List.forall_mem_nil _⟩,
        ordered_optionalField (fun _ _ => .string _) _⟩, ordered_optionalField ?_ _⟩,
        ordered_optionalField ?_ _⟩, ordered_optionalField ihe _⟩
      · exact fun vs _ => ordered_map fun _ _ => .string _
      · exact fun ps hps => ordered_map (ihp ps hps)

/-! ### What is read -/

/-- An object holds for a field that a node need not have its value, or holds nothing or null if
there is none. -/
def HoldsOptional (v : Json) (key : String) (value : Option Json) : Prop :=
  v.get? key = value ∨ value = none ∧ v.get? key = some .null

/-- A data value stands for a schema: it is an object that holds what the root says and an array for
its operators, each at least once; and so on for the properties and the element, which are given
here beside the values that stand for them. -/
inductive StandsFor : Json → Schema → Prop
  | node {v : Json} {name declaredType : String} {nullable : Bool} {shape : ShapeTag}
      {category : Option Category} {values : Option (List String)}
      {properties : Option (List (Json × Schema))} {element : Option (Json × Schema)}
      {operators : OperatorSet} {ops : List Operator}
      (hobject : ∃ fields, v = .ofFields fields)
      (hname : v.get? "name" = some (.string name))
      (hdeclaredType : v.get? "declaredTypeName" = some (.string declaredType))
      (hnullable : v.get? "nullable" = some (.bool nullable))
      (hshape : v.get? "shape" = some (.string shape.name))
      (hcategory : HoldsOptional v "category" (category.map fun c => .string c.name))
      (hvalues : HoldsOptional v "enumValues" (values.map fun vs => .array (vs.map .string)))
      (hproperties : HoldsOptional v "properties"
        (properties.map fun ps => .array (ps.map Prod.fst)))
      (helement : HoldsOptional v "collectionElement" (element.map Prod.fst))
      (hoperators : v.get? "allowedOperators" = some (.array (ops.map fun o => .string o.name)))
      (hops : ∀ o, o ∈ ops ↔ o ∈ operators)
      (hproperty : ∀ ps ∈ properties, ∀ p ∈ ps, StandsFor p.1 p.2)
      (hchild : ∀ e ∈ element, StandsFor e.1 e.2) :
      StandsFor v (.node name declaredType nullable shape category values
        (properties.map (·.map Prod.snd)) (element.map Prod.snd) operators)

/-- Null stands for no schema. -/
theorem StandsFor.isNull {v : Json} {s : Schema} (h : StandsFor v s) : v.isNull = false := by
  cases h with
  | node hobject =>
      obtain ⟨fields, rfl⟩ := hobject
      rfl

theorem HoldsOptional.get? {v : Json} {key : String} {value : Option Json}
    (h : HoldsOptional v key value) {w : Json} (hw : w ∈ value) : v.get? key = some w := by
  rcases h with h | ⟨rfl, -⟩
  · exact h.trans hw
  · cases hw

/-- A field that a node need not have is read if its value is. -/
theorem HoldsOptional.withDefault {α β : Type} {decode : Document → Option β} {encode : α → Json}
    {g : α → β} {o : Option α} {v : Json} {key : String} (h : HoldsOptional v key (o.map encode))
    (hnull : ∀ a ∈ o, (encode a).isNull = false)
    (hread : ∀ a ∈ o, decode (ofValue (encode a)) = some (g a)) :
    (Slot.ofValue? (v.get? key)).withDefault (option? decode) none = some (o.map g) := by
  rcases h with h | ⟨hnone, h⟩
  · rw [h]
    exact Slot.withDefault_map hnull hread
  · rw [h, Option.map_eq_none_iff.mp hnone]
    rfl

/-- A node is read from an object by what it holds under the names of the fields. -/
theorem decodeNode_of_get? {self : Document → Option Schema} {v : Json}
    {name declaredType : String} {nullable : Bool} {shape : ShapeTag}
    {category : Option Category} {values : Option (List String)}
    {properties : Option (List Schema)} {element : Option Schema} {ops : List Operator}
    (hobject : ∃ fields, v = .ofFields fields)
    (hname : v.get? "name" = some (.string name))
    (hdeclaredType : v.get? "declaredTypeName" = some (.string declaredType))
    (hnullable : v.get? "nullable" = some (.bool nullable))
    (hshape : v.get? "shape" = some (.string shape.name))
    (hcategory : (Slot.ofValue? (v.get? "category")).withDefault
      (option? (named? Category.ofName?)) none = some category)
    (hvalues : (Slot.ofValue? (v.get? "enumValues")).withDefault
      (option? (list? string?)) none = some values)
    (hproperties : (Slot.ofValue? (v.get? "properties")).withDefault
      (option? (list? self)) none = some properties)
    (helement : (Slot.ofValue? (v.get? "collectionElement")).withDefault
      (option? self) none = some element)
    (hoperators : v.get? "allowedOperators" = some (.array (ops.map fun o => .string o.name))) :
    decodeNode self (ofValue v) = some (.node name declaredType nullable shape category values
      properties element (.ofList ops)) := by
  have hops : list? (named? Operator.ofName?)
      (ofValue (.array (ops.map fun o => .string o.name))) = some ops :=
    list?_map fun o _ => o.ofName?_name
  have hbool : Document.bool? (ofValue (.bool nullable)) = some nullable := rfl
  rw [decodeNode, slots?_ofValue v hobject]
  simp [fieldNames, hname, hdeclaredType, hnullable, hshape, hcategory, hvalues, hproperties,
    helement, hoperators, hops, hbool, Slot.required_some, string?_ofValue, named?_ofValue,
    ShapeTag.ofName?_name]

/-- What is written for a schema stands for it. -/
theorem standsFor_toJson (s : Schema) : StandsFor s.toJson s := by
  induction s using Schema.induct with
  | step name declaredType nullable shape category values properties element operators ihp ihe =>
      -- the properties and the element, each beside what is written for it
      let written (s : Schema) : Json × Schema := (s.toJson, s)
      have hproperties : (properties.map (·.map written)).map (·.map Prod.snd) = properties := by
        simp [written, Function.comp_def]
      have helement : (element.map written).map Prod.snd = element := by
        simp [written, Function.comp_def]
      have hheld := get?_toJson (node name declaredType nullable shape category values properties
        element operators)
      have hstands : StandsFor
          (node name declaredType nullable shape category values properties element
            operators).toJson
          (node name declaredType nullable shape category values
            ((properties.map (·.map written)).map (·.map Prod.snd))
            ((element.map written).map Prod.snd) operators) := by
        refine .node ⟨_, toJson_node ..⟩ (hheld "name") (hheld "declaredTypeName")
          (hheld "nullable") (hheld "shape") (.inl (hheld "category")) (.inl (hheld "enumValues"))
          (.inl ?_) (.inl ?_) (hheld "allowedOperators") (fun o => ?_) ?_ ?_
        · rw [hheld, Option.map_map]
          simp [held?, Schema.properties, written, Function.comp_def]
        · rw [hheld, Option.map_map]
          rfl
        · rw [List.mem_filter, decide_eq_true_iff]
          exact and_iff_right o.mem_all
        · intro ps hps p hp
          obtain ⟨ss, hss, rfl⟩ := Option.map_eq_some_iff.mp hps
          obtain ⟨s, hs, rfl⟩ := List.mem_map.mp hp
          exact ihp ss hss s hs
        · intro p hp
          obtain ⟨s, hs, rfl⟩ := Option.map_eq_some_iff.mp hp
          exact ihe s hs
      rwa [hproperties, helement] at hstands

/-- What stands for a schema is read with as many levels as its document has. -/
theorem unfoldDecoder_of_standsFor {v : Json} {s : Schema} (h : StandsFor v s) :
    ∀ levels, (ofValue v).height ≤ levels →
      unfoldDecoder decodeNode levels (ofValue v) = some s := by
  induction h with
  | @node v name declaredType nullable shape category values properties element operators ops
      hobject hname hdeclaredType hnullable hshape hcategory hvalues hproperties helement
      hoperators hops hproperty hchild ihproperty ihchild =>
      intro levels hlevels
      cases levels with
      | zero => exact absurd hlevels (Nat.not_le.mpr (height_pos _))
      | succ levels =>
          rw [← OperatorSet.ofList_eq hops]
          refine decodeNode_of_get? hobject hname hdeclaredType hnullable hshape ?_ ?_ ?_ ?_
            hoperators
          · rw [hcategory.withDefault (g := id) (fun _ _ => rfl) fun c _ => c.ofName?_name,
              Option.map_id, id]
          · rw [hvalues.withDefault (g := id) (fun _ _ => rfl) fun vs _ => list?_map fun _ _ => rfl,
              Option.map_id, id]
          · refine hproperties.withDefault (fun _ _ => rfl) fun ps hps => ?_
            refine list?_map_eq fun p hp => ?_
            refine ihproperty ps hps p hp levels ?_
            have hlt := height_lt_of_get?_array (hproperties.get? (Option.mem_map_of_mem _ hps))
              (List.mem_map_of_mem hp)
            omega
          · refine helement.withDefault (fun e he => (hchild e he).isNull) fun e he => ?_
            refine ihchild e he levels ?_
            have hlt := height_lt_of_get? (helement.get? (Option.mem_map_of_mem _ he))
            omega

/-- What stands for a schema is read as the schema. -/
theorem ofDocument?_of_standsFor {v : Json} {s : Schema} (h : StandsFor v s) :
    ofDocument? (ofValue v) = some s :=
  unfoldDecoder_of_standsFor h _ (Nat.le_refl _)

/-- **Schemas and their data values.**  A schema is read back from what is written for it: an object
with its keys in order that holds what the root says, the operators in their fixed order and each
once, and of the fields that a node need not have those that it has.  Whatever a schema is read
from, it is read from what is then written for it too; and it is read from every value that stands
for it. -/
theorem data_roundTrip :
    (∀ s : Schema, ofDocument? (ofValue s.toJson) = some s ∧ s.toJson.Ordered ∧
      (∃ fields, s.toJson = .object fields) ∧ ∀ key, s.toJson.get? key = s.held? key) ∧
    (∀ d s, ofDocument? d = some s → ofDocument? (ofValue s.toJson) = some s) ∧
    ∀ v s, StandsFor v s → ofDocument? (ofValue v) = some s := by
  have hread (s : Schema) : ofDocument? (ofValue s.toJson) = some s :=
    ofDocument?_of_standsFor s.standsFor_toJson
  refine ⟨fun s => ⟨hread s, s.ordered_toJson, ?_, s.get?_toJson⟩, fun _ s _ => hread s,
    fun _ _ => ofDocument?_of_standsFor⟩
  cases s with
  | node => exact ⟨_, toJson_node ..⟩

/-- The schema of a label. -/
def label : Schema :=
  .node "label" "String" true .atomic (some .string) none none none (.ofList [.isNull, .equalTo])

/-- The schema of a parcel, which has a label. -/
def parcel : Schema :=
  .node "Parcel" "Parcel" false .composite none none (some [label]) none (.ofList [.isNull])

/-- A label: the operators stand in the other order and one of them twice, and some of what there is
not is null. -/
def looseLabel : Json :=
  .object [("allowedOperators", .array [.string "equalTo", .string "isNull", .string "equalTo"]),
    ("category", .string "string"), ("collectionElement", .null),
    ("declaredTypeName", .string "String"), ("name", .string "label"), ("nullable", .bool true),
    ("shape", .string "atomic")]

/-- A parcel with such a label, of which more is said than a schema says. -/
def looseParcel : Json :=
  .object [("allowedOperators", .array [.string "isNull"]), ("category", .null),
    ("declaredTypeName", .string "Parcel"), ("name", .string "Parcel"), ("nullable", .bool false),
    ("properties", .array [looseLabel]), ("shape", .string "composite"),
    ("version", .array [.null])]

theorem looseLabel_standsFor : StandsFor looseLabel label :=
  @StandsFor.node looseLabel "label" "String" true .atomic (some .string) none none none
    (.ofList [.isNull, .equalTo]) [.equalTo, .isNull, .equalTo]
    ⟨_, (ofFields_of_ascending (by decide)).symm⟩ rfl rfl rfl rfl (.inl rfl) (.inl rfl) (.inl rfl)
    (.inr ⟨rfl, rfl⟩) rfl (fun o => by cases o <;> decide) nofun nofun

/-- The loose parcel has a key too many, and the loose label inside stands for the label. -/
theorem looseParcel_standsFor : StandsFor looseParcel parcel := by
  refine @StandsFor.node looseParcel "Parcel" "Parcel" false .composite none none
    (some [(looseLabel, label)]) none (.ofList [.isNull]) [.isNull]
    ⟨_, (ofFields_of_ascending (by decide)).symm⟩ rfl rfl rfl rfl (.inr ⟨rfl, rfl⟩) (.inl rfl)
    (.inl rfl) (.inl rfl) rfl (fun o => by cases o <;> decide) ?_ nofun
  rintro _ ⟨⟩ p hp
  cases List.mem_singleton.mp hp
  exact looseLabel_standsFor

/-- It is read, and what is written for it then is something else and is read as well. -/
theorem looseParcel_read :
    StandsFor looseParcel parcel ∧ ofDocument? (ofValue looseParcel) = some parcel ∧
      ofDocument? (ofValue parcel.toJson) = some parcel ∧ parcel.toJson ≠ looseParcel := by
  have hread := data_roundTrip.2.2 looseParcel parcel looseParcel_standsFor
  refine ⟨looseParcel_standsFor, hread, data_roundTrip.2.1 _ _ hread, fun h => ?_⟩
  have hversion := congrArg (Json.get? "version") h
  rw [get?_toJson] at hversion
  cases hversion

end Schema

end RecordFilter
