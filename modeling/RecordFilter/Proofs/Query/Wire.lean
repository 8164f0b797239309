import RecordFilter.Proofs.Filter.Tree
import RecordFilter.Proofs.Json.Ordered
import RecordFilter.Query.Request

/-!
# Requests as data

A request is written as a data value and read back.  Data has no form of its own for bytes, atomic
values and numbers that are not finite, and says of an integer only what it is; so an argument is
read back if it has none of the former and each integer in the form that its size asks for
(`Raw.IsWire`).  What is not there is left out, and what is left out is read as not there.

* `Raw.toJson_ofJson`, `Raw.ofJson_toJson`: data values and arguments.
* `FilterTree.ofDocument?_toJson`: a filter tree is read back.
* `ordered_of_ofText?`, `Request.isWire_of_ofDocument?`: what is read has the form of data.
* `Request.wire_codec`: data values and requests.
-/

namespace RecordFilter

open Json Json.Document

/-! ### Arguments -/

/-- A number is the data value of the scalar that it is, signed or not. -/
theorem Scalar.toJson_ofNumber (n : Json.Number) : (Scalar.ofNumber n).toJson = .number n := by
  cases n with
  | integer i =>
      rw [Scalar.ofNumber]
      split <;> rfl
  | float x => exact dif_pos x.2

/-- An integer without sign has no signed form, and a binary number is finite. -/
def Scalar.IsWire : Scalar → Prop
  | .uint i => IntKind.int64.greatest < i.1
  | .float x => x.isFinite = true
  | .bool _ | .int _ | .text _ => True

namespace Raw

/-- The argument is read back from data: no bytes, no atomic values, keys that ascend. -/
inductive IsWire : Raw → Prop where
  | null : IsWire .null
  | scalar {s : Scalar} (h : s.IsWire) : IsWire (.scalar s)
  | sequence {items : List Raw} (h : ∀ r ∈ items, IsWire r) : IsWire (.sequence items)
  | map {fields : List (String × Raw)} (h : Ascending fields) (h' : ∀ f ∈ fields, IsWire f.2) :
      IsWire (.map fields)

theorem itemsToJson_eq_map (rs : List Raw) : itemsToJson rs = rs.map toJson := by
  induction rs with
  | nil => rfl
  | cons r rs ih => rw [itemsToJson, ih, List.map_cons]

theorem fieldsToJson_eq_map (fields : List (String × Raw)) :
    fieldsToJson fields = fields.map fun f => (f.1, f.2.toJson) := by
  induction fields with
  | nil => rfl
  | cons f rest ih => rw [fieldsToJson, ih, List.map_cons]

theorem ofItems_eq_map (vs : List Json) : ofItems vs = vs.map ofJson := by
  induction vs with
  | nil => rfl
  | cons v vs ih => rw [ofItems, ih, List.map_cons]

theorem ofJsonFields_eq_map (fields : List (String × Json)) :
    ofJsonFields fields = fields.map fun f => (f.1, ofJson f.2) := by
  induction fields with
  | nil => rfl
  | cons f rest ih => rw [ofJsonFields, ih, List.map_cons]

theorem map_map_eq_self {α β : Type} {f : α → β} {g : β → α} {xs : List α}
    (h : ∀ x ∈ xs, g (f x) = x) : (xs.map f).map g = xs := by
  rw [List.map_map]
  exact (List.map_congr_left h).trans (List.map_id xs)

/-- A data value is the data value of the argument that it is. -/
theorem toJson_ofJson {v : Json} (h : v.Ordered) : (ofJson v).toJson = v := by
  induction h with
  | null | bool _ | string _ => rfl
  | number n => exact Scalar.toJson_ofNumber n
  | array _ ih =>
      rw [ofJson, toJson, itemsToJson_eq_map, ofItems_eq_map, map_map_eq_self ih]
  | object hasc _ ih =>
      rw [ofJson, toJson, fieldsToJson_eq_map, ofJsonFields_eq_map,
        map_map_eq_self fun f hf => by rw [ih f hf], ofFields_of_ascending hasc]

/-- A scalar is the one that its data value is, if data has its form. -/
theorem ofJson_scalar {s : Scalar} (h : s.IsWire) : ofJson s.toJson = .scalar s := by
  cases s with
  | bool _ | text _ => rfl
  | int i =>
      rw [Scalar.toJson, IntKind.Value.toJson, ofJson, Scalar.ofNumber, dif_pos i.2.2]
  | uint i =>
      rw [Scalar.toJson, IntKind.Value.toJson, ofJson, Scalar.ofNumber,
        dif_neg (Int.not_le.mpr h)]
  | float x =>
      have hfinite : ofDouble x = .number (.float ⟨x, h⟩) := dif_pos h
      rw [Scalar.toJson, hfinite]
      rfl

/-- An argument is the one that its data value is, if data has its form. -/
theorem ofJson_toJson {r : Raw} (h : r.IsWire) : ofJson r.toJson = r := by
  induction h with
  | null => rfl
  | scalar h => exact ofJson_scalar h
  | sequence _ ih =>
      rw [toJson, ofJson, ofItems_eq_map, itemsToJson_eq_map, map_map_eq_self ih]
  | @map fields hasc _ ih =>
      have hascending : Ascending (fields.map fun f => (f.1, f.2.toJson)) :=
        List.pairwise_map.mpr hasc
      rw [toJson, fieldsToJson_eq_map, ofFields_of_ascending hascending, ofJson,
        ofJsonFields_eq_map, map_map_eq_self fun f hf => by rw [ih f hf]]

theorem ordered_integer {k : IntKind} (i : k.Value) : i.toJson.Ordered := .number _

mutual

/-- The data value of an argument is ordered. -/
theorem ordered_toJson : ∀ r : Raw, r.toJson.Ordered
  | .null => .null
  | .scalar (.bool b) => .bool b
  | .scalar (.int i) | .scalar (.uint i) => ordered_integer i
  | .scalar (.float x) => ordered_ofDouble x
  | .scalar (.text s) => .string s
  | .bytes bs => by
      rw [toJson]
      refine .array fun v hv => ?_
      obtain ⟨b, -, rfl⟩ := List.mem_map.mp hv
      exact ordered_ofNat b.toNat
  | .sequence items => .array (ordered_itemsToJson items)
  | .map fields => ordered_ofFields (ordered_fieldsToJson fields)
  | .native a => by
      cases a with
      | boolean b => exact .bool b
      | integer _ i => exact ordered_integer i
      | float32 x => exact ordered_ofDouble _
      | float64 x => exact ordered_ofDouble x
      | _ => exact .string _

/-- So are the data values of a list. -/
theorem ordered_itemsToJson : ∀ rs : List Raw, ∀ v ∈ itemsToJson rs, v.Ordered
  | [], _, hv => by cases hv
  | r :: rs, v, hv => by
      rcases List.mem_cons.mp hv with rfl | hv
      · exact ordered_toJson r
      · exact ordered_itemsToJson rs v hv

/-- So are those of the fields of a map. -/
theorem ordered_fieldsToJson : ∀ fields : List (String × Raw),
    ∀ f ∈ fieldsToJson fields, f.2.Ordered
  | [], _, hf => by cases hf
  | (_, r) :: rest, f, hf => by
      rcases List.mem_cons.mp hf with rfl | hf
      · exact ordered_toJson r
      · exact ordered_fieldsToJson rest f hf

end

end Raw

/-! ### Names and numbers -/

theorem Direction.ofName?_name (d : Direction) : Direction.ofName? d.name = some d := by
  cases d <;> decide

theorem Connective.ofName?_name (c : Connective) : Connective.ofName? c.name = some c := by
  cases c <;> decide

theorem inBounds_toNat (n : UInt64) : InBounds n.toNat := by
  have hlt := n.toNat_lt
  simp only [InBounds]
  omega

theorem ofWord_eq (n : UInt64) :
    Json.ofWord n = .number (.integer ⟨n.toNat, inBounds_toNat n⟩) := by
  rw [ofWord, ofNat_of_inBounds (inBounds_toNat n)]

/-- A number of 64 bits is read back. -/
theorem word?_ofWord (n : UInt64) : word? (ofValue (.ofWord n)) = some n := by
  rw [ofWord_eq, word?, Document.nat?, ofValue, int?, Option.bind_some,
    if_pos (Int.natCast_nonneg _)]
  simp

theorem isNull_ofWord (n : UInt64) : (Json.ofWord n).isNull = false := by
  rw [ofWord_eq]
  rfl

/-! ### Page requests -/

/-- A sort key is read back. -/
theorem SortSpec.ofDocument?_toJson (s : SortSpec) :
    SortSpec.ofDocument? (ofValue s.toJson) = some s := by
  have hpath : s.toJson.get? "path" = some (.string s.path) := by
    simp [SortSpec.toJson, get?_ofFields, lookup_cons_eq]
  have hdirection : s.toJson.get? "direction" = some (.string s.direction.name) := by
    simp [SortSpec.toJson, get?_ofFields]
  rw [SortSpec.ofDocument?, slots?_ofValue s.toJson ⟨_, rfl⟩]
  simp [hpath, hdirection, Slot.required_some, Slot.withDefault_some, string?_ofValue,
    named?_ofValue, Direction.ofName?_name]

/-- A page request is read from an object by what it holds under the three names. -/
theorem PageRequest.ofDocument?_of_get? {v : Json} {p : PageRequest}
    (h : ∃ fields, v = .ofFields fields)
    (hindex : (Slot.ofValue? (v.get? "pageIndex")).withDefault word? 0 = some p.pageIndex)
    (hsize : (Slot.ofValue? (v.get? "pageSize")).withDefault (option? word?) none =
      some p.pageSize)
    (hspecs : (Slot.ofValue? (v.get? "orderBy")).withDefault (list? SortSpec.ofDocument?) [] =
      some p.orderBy) :
    PageRequest.ofDocument? (ofValue v) = some p := by
  rw [PageRequest.ofDocument?, slots?_ofValue v h]
  simp [hindex, hsize, hspecs]

/-- What the object of a page request holds. -/
theorem PageRequest.get?_toJson (p : PageRequest) :
    p.toJson.get? "pageIndex" = some (.ofWord p.pageIndex) ∧
      p.toJson.get? "pageSize" = p.pageSize.map Json.ofWord ∧
      p.toJson.get? "orderBy" =
        if p.orderBy.isEmpty then none else some (.array (p.orderBy.map SortSpec.toJson)) := by
  rw [PageRequest.toJson, get?_ofFields, get?_ofFields, get?_ofFields]
  cases p.pageSize <;> cases p.orderBy <;> simp [lookup_cons_eq]

/-- A page request is read back. -/
theorem PageRequest.ofDocument?_toJson (p : PageRequest) :
    PageRequest.ofDocument? (ofValue p.toJson) = some p := by
  obtain ⟨hindex, hsize, hspecs⟩ := p.get?_toJson
  refine ofDocument?_of_get? ⟨_, rfl⟩ ?_ ?_ ?_
  · rw [hindex, Slot.withDefault_some, word?_ofWord]
  · rw [hsize]
    exact Slot.withDefault_option (fun size _ => isNull_ofWord size) fun size _ => word?_ofWord size
  · rw [hspecs]
    exact Slot.withDefault_list fun spec _ => spec.ofDocument?_toJson

/-! ### Filters -/

/-- A filter is read back if its arguments are. -/
theorem PropertyFilter.ofDocument?_toJson {f : PropertyFilter} (h : ∀ r ∈ f.arguments, r.IsWire) :
    PropertyFilter.ofDocument? (ofValue f.toJson) = some f := by
  have hpath : f.toJson.get? "path" = some (.string f.path) := by
    simp [PropertyFilter.toJson, get?_ofFields, lookup_cons_eq]
  have hoperator : f.toJson.get? "operator" = some (.string f.operator.name) := by
    simp [PropertyFilter.toJson, get?_ofFields, lookup_cons_eq]
  have harguments : f.toJson.get? "arguments" = some (.array (f.arguments.map Raw.toJson)) := by
    simp [PropertyFilter.toJson, get?_ofFields]
  have hread : list? (fun d => d.value?.map Raw.ofJson)
      (ofValue (.array (f.arguments.map Raw.toJson))) = some f.arguments :=
    list?_map fun r hr => by
      rw [value?_ofValue (Raw.ordered_toJson r), Option.map_some, Raw.ofJson_toJson (h r hr)]
  rw [PropertyFilter.ofDocument?, slots?_ofValue f.toJson ⟨_, rfl⟩]
  simp [hpath, hoperator, harguments, hread, Slot.required_some, Slot.withDefault_some,
    string?_ofValue, named?_ofValue, Operator.ofName?_name]

namespace FilterTree

/-- All arguments of a tree are read back from data. -/
inductive IsWire : FilterTree → Prop where
  | node {first : PropertyFilter} {connective : Option Connective} {others : List FilterTree}
      (h : ∀ r ∈ first.arguments, r.IsWire) (h' : ∀ t ∈ others, IsWire t) :
      IsWire (.node first connective others)

theorem listToJson_eq_map (ts : List FilterTree) : listToJson ts = ts.map toJson := by
  induction ts with
  | nil => rfl
  | cons t ts ih => rw [listToJson, ih, List.map_cons]

theorem toJson_node (first : PropertyFilter) (connective : Option Connective)
    (others : List FilterTree) : (node first connective others).toJson = .ofFields
      ([("first", first.toJson)] ++
        (connective.map fun c => ("logicalOperator", .string c.name)).toList ++
        if others.isEmpty then [] else [("others", .array (others.map toJson))]) := by
  cases others <;> cases connective <;> simp [toJson, listToJson_eq_map]

theorem isNull_toJson (t : FilterTree) : t.toJson.isNull = false := by
  cases t with
  | node first connective others =>
      rw [toJson_node]
      rfl

/-- A node is read from an object by what it holds under the three names. -/
theorem decodeNode_of_get? {self : Document → Option FilterTree} {v : Json}
    {first : PropertyFilter} {connective : Option Connective} {others : List FilterTree}
    (h : ∃ fields, v = .ofFields fields)
    (hfirst : (Slot.ofValue? (v.get? "first")).required PropertyFilter.ofDocument? = some first)
    (hconnective : (Slot.ofValue? (v.get? "logicalOperator")).withDefault
      (option? (named? Connective.ofName?)) none = some connective)
    (hothers : (Slot.ofValue? (v.get? "others")).withDefault (list? self) [] = some others) :
    decodeNode self (ofValue v) = some (.node first connective others) := by
  rw [decodeNode, slots?_ofValue v h]
  simp [hfirst, hconnective, hothers]

/-- What the object of a node holds. -/
theorem get?_toJson_node (first : PropertyFilter) (connective : Option Connective)
    (others : List FilterTree) :
    (node first connective others).toJson.get? "first" = some first.toJson ∧
      (node first connective others).toJson.get? "logicalOperator" =
        connective.map (fun c => .string c.name) ∧
      (node first connective others).toJson.get? "others" =
        if others.isEmpty then none else some (.array (others.map toJson)) := by
  rw [toJson_node, get?_ofFields, get?_ofFields, get?_ofFields]
  cases connective <;> cases others <;> simp [lookup_cons_eq]

/-- A further tree lies two levels below, in the array under the key. -/
theorem height_of_mem_others (first : PropertyFilter) (connective : Option Connective)
    {others : List FilterTree} {t : FilterTree} (ht : t ∈ others) :
    (ofValue t.toJson).height + 1 < (ofValue (node first connective others).toJson).height := by
  obtain ⟨-, -, hothers⟩ := get?_toJson_node first connective others
  have hne : ¬others.isEmpty = true := by
    rw [List.isEmpty_iff]
    exact List.ne_nil_of_mem ht
  rw [if_neg hne] at hothers
  exact height_lt_of_get?_array hothers (List.mem_map_of_mem ht)

/-- A tree is read back with as many levels as its document has. -/
theorem unfoldDecoder_toJson {t : FilterTree} (h : t.IsWire) :
    ∀ levels, (ofValue t.toJson).height ≤ levels →
      unfoldDecoder decodeNode levels (ofValue t.toJson) = some t := by
  induction h with
  | @node first connective others hwire _ ih =>
      intro levels hlevels
      obtain ⟨hfirst, hconnective, hothers⟩ := get?_toJson_node first connective others
      cases levels with
      | zero => exact absurd hlevels (Nat.not_le.mpr (height_pos _))
      | succ levels =>
          refine decodeNode_of_get? ⟨_, toJson_node first connective others⟩ ?_ ?_ ?_
          · rw [hfirst, Slot.required_some]
            exact PropertyFilter.ofDocument?_toJson hwire
          · rw [hconnective]
            exact Slot.withDefault_option (fun _ _ => rfl) fun c _ => c.ofName?_name
          · rw [hothers]
            refine Slot.withDefault_list fun t ht => ih t ht levels ?_
            have hlt := height_of_mem_others first connective ht
            omega

/-- A tree is read back if its arguments are. -/
theorem ofDocument?_toJson {t : FilterTree} (h : t.IsWire) :
    FilterTree.ofDocument? (ofValue t.toJson) = some t :=
  unfoldDecoder_toJson h _ (Nat.le_refl _)

end FilterTree

/-! ### What is read has the form of data -/

/-- Every value that is read from a text is ordered. -/
theorem Json.ordered_of_ofText? {s : String} {v : Json} (h : Json.ofText? s = some v) :
    v.Ordered := by
  obtain ⟨d, -, hd⟩ := Option.bind_eq_some_iff.mp h
  exact ordered_of_value? hd

/-- A number is read as unsigned only where it is above the signed range. -/
theorem Scalar.isWire_ofNumber (n : Json.Number) : (Scalar.ofNumber n).IsWire := by
  cases n with
  | integer i =>
      rw [Scalar.ofNumber]
      split
      · trivial
      · rename_i hlt
        exact Int.not_le.mp hlt
  | float x => exact x.2

/-- The argument that an ordered value is has the form of data. -/
theorem Raw.isWire_ofJson {v : Json} (h : v.Ordered) : (ofJson v).IsWire := by
  induction h with
  | null => exact .null
  | bool _ | string _ => exact .scalar trivial
  | number n => exact .scalar (Scalar.isWire_ofNumber n)
  | array _ ih =>
      rw [ofJson, ofItems_eq_map]
      exact .sequence (List.forall_mem_map.mpr ih)
  | object hasc _ ih =>
      rw [ofJson, ofJsonFields_eq_map]
      exact .map (List.pairwise_map.mpr hasc) (List.forall_mem_map.mpr ih)

namespace Json.Document

variable {α : Type} {decode : Document → Option α} {P : α → Prop}

/-- Whatever a decoder takes has a property. -/
def Gives (decode : Document → Option α) (P : α → Prop) : Prop :=
  ∀ d a, decode d = some a → P a

theorem Gives.option? (h : Gives decode P) : Gives (option? decode) fun o => ∀ a ∈ o, P a := by
  intro d o hd
  cases d with
  | null =>
      cases hd
      exact fun _ ha => by cases ha
  | _ =>
      obtain ⟨a, ha, rfl⟩ := Option.map_eq_some_iff.mp hd
      rintro _ ⟨⟩
      exact h _ a ha

/-- Every item of a list that is read was read by the decoder of the items. -/
theorem Gives.list? (h : Gives decode P) : Gives (list? decode) fun xs => ∀ x ∈ xs, P x := by
  intro d xs hxs
  cases d with
  | array items =>
      change items.mapM decode = some xs at hxs
      induction items generalizing xs with
      | nil =>
          cases hxs
          exact List.forall_mem_nil _
      | cons d items ih =>
          rw [List.mapM_cons] at hxs
          obtain ⟨a, ha, hxs⟩ := Option.bind_eq_some_iff.mp hxs
          obtain ⟨as, has, hxs⟩ := Option.bind_eq_some_iff.mp hxs
          cases hxs
          exact List.forall_mem_cons.mpr ⟨h d a ha, ih as has⟩
  | _ => cases hxs

theorem Gives.required (h : Gives decode P) {s : Slot} {a : α} (ha : s.required decode = some a) :
    P a := by
  cases s with
  | given d => exact h d a ha
  | _ => cases ha

theorem Gives.withDefault (h : Gives decode P) {default : α} (hdefault : P default) {s : Slot}
    {a : α} (ha : s.withDefault decode default = some a) : P a := by
  cases s with
  | given d => exact h d a ha
  | _ =>
      cases ha
      exact hdefault

end Json.Document

/-- The arguments of a filter that is read have the form of data. -/
theorem PropertyFilter.ofDocument?_gives :
    Gives PropertyFilter.ofDocument? fun f => ∀ r ∈ f.arguments, r.IsWire := by
  have hargument : Gives (fun d => d.value?.map Raw.ofJson) Raw.IsWire := by
    intro d r hr
    obtain ⟨v, hv, rfl⟩ := Option.map_eq_some_iff.mp hr
    exact Raw.isWire_ofJson (ordered_of_value? hv)
  intro d f h
  obtain ⟨slots, -, h⟩ := Option.bind_eq_some_iff.mp h
  split at h
  · obtain ⟨path, -, h⟩ := Option.bind_eq_some_iff.mp h
    obtain ⟨operator, -, h⟩ := Option.bind_eq_some_iff.mp h
    obtain ⟨arguments, harguments, h⟩ := Option.bind_eq_some_iff.mp h
    cases h
    exact hargument.list?.withDefault (List.forall_mem_nil _) harguments
  · cases h

/-- So have those of a tree that is read, by induction on the levels that are read. -/
theorem FilterTree.ofDocument?_gives : Gives FilterTree.ofDocument? FilterTree.IsWire := by
  suffices h : ∀ levels, Gives (unfoldDecoder decodeNode levels) IsWire from fun d => h d.height d
  intro levels
  induction levels with
  | zero => exact fun _ _ h => by cases h
  | succ levels ih =>
      intro d t h
      obtain ⟨slots, -, h⟩ := Option.bind_eq_some_iff.mp h
      split at h
      · obtain ⟨leaf, hleaf, h⟩ := Option.bind_eq_some_iff.mp h
        obtain ⟨connective, -, h⟩ := Option.bind_eq_some_iff.mp h
        obtain ⟨trees, htrees, h⟩ := Option.bind_eq_some_iff.mp h
        cases h
        exact .node (PropertyFilter.ofDocument?_gives.required hleaf)
          (ih.list?.withDefault (List.forall_mem_nil _) htrees)
      · cases h

/-! ### Requests -/

namespace Request

/-- All arguments of the filter are read back from data. -/
def IsWire (r : Request) : Prop := ∀ t ∈ r.filter, t.IsWire

theorem ofDocument?_of_get? {v : Json} {r : Request} (h : ∃ fields, v = .ofFields fields)
    (hfilter : (Slot.ofValue? (v.get? "filter")).withDefault (option? FilterTree.ofDocument?) none =
      some r.filter)
    (hpage : (Slot.ofValue? (v.get? "page")).withDefault PageRequest.ofDocument? .default =
      some r.page) :
    Request.ofDocument? (ofValue v) = some r := by
  rw [Request.ofDocument?, slots?_ofValue v h]
  simp [hfilter, hpage]

/-- A request is read back. -/
theorem ofDocument?_toJson {r : Request} (h : r.IsWire) :
    Request.ofDocument? (ofValue r.toJson) = some r := by
  have hfilter : r.toJson.get? "filter" = r.filter.map FilterTree.toJson := by
    rw [toJson, get?_ofFields]
    cases r.filter <;> simp [lookup_cons_eq]
  have hpage : r.toJson.get? "page" = some r.page.toJson := by
    rw [toJson, get?_ofFields]
    cases r.filter <;> simp
  refine ofDocument?_of_get? ⟨_, rfl⟩ ?_ ?_
  · rw [hfilter]
    exact Slot.withDefault_option (fun t _ => t.isNull_toJson) fun t ht =>
      FilterTree.ofDocument?_toJson (h t ht)
  · rw [hpage, Slot.withDefault_some]
    exact r.page.ofDocument?_toJson

/-- All arguments of a request that is read have the form of data. -/
theorem isWire_of_ofDocument? {d : Document} {r : Request} (h : Request.ofDocument? d = some r) :
    r.IsWire := by
  obtain ⟨slots, -, h⟩ := Option.bind_eq_some_iff.mp h
  split at h
  · obtain ⟨filter, hfilter, h⟩ := Option.bind_eq_some_iff.mp h
    obtain ⟨page, -, h⟩ := Option.bind_eq_some_iff.mp h
    cases h
    exact FilterTree.ofDocument?_gives.option?.withDefault (fun _ ht => by cases ht) hfilter
  · cases h

/-- A request that is read once, from however loose a document, is read back from its data value. -/
theorem ofDocument?_toJson_of_ofDocument? {d : Document} {r : Request}
    (h : Request.ofDocument? d = some r) : Request.ofDocument? (ofValue r.toJson) = some r :=
  ofDocument?_toJson (isWire_of_ofDocument? h)

/-- Every data value is that of the argument that it is, and every request whose arguments have the
form of data is read back from its data value.  A value that is read from a text is ordered
(`ordered_of_ofText?`), and a request that is read has arguments of that form
(`isWire_of_ofDocument?`). -/
theorem wire_codec :
    (∀ v : Json, v.Ordered → (Raw.ofJson v).toJson = v) ∧
      ∀ r : Request, r.IsWire → Request.ofDocument? (ofValue r.toJson) = some r :=
  ⟨fun _ => Raw.toJson_ofJson, fun _ => ofDocument?_toJson⟩

/-- An argument with integers at both bounds, a negative zero and an empty object inside. -/
def boundsArgument : Raw :=
  .map [("above", .scalar (.uint ⟨18446744073709551615, by decide⟩)),
    ("below", .sequence [.null, .scalar (.int ⟨-9223372036854775808, by decide⟩),
      .scalar (.float (Binary.zero .double true))]),
    ("within", .map [])]

theorem boundsArgument_isWire : boundsArgument.IsWire := by
  have habove : IntKind.int64.greatest < 18446744073709551615 := by decide
  have hbelow : ∀ r ∈ [Raw.null, .scalar (.int ⟨-9223372036854775808, by decide⟩),
      .scalar (.float (Binary.zero .double true))], r.IsWire := by
    simp only [List.forall_mem_cons]
    exact ⟨.null, .scalar trivial, .scalar rfl, List.forall_mem_nil _⟩
  refine .map (by decide) ?_
  simp only [List.forall_mem_cons]
  exact ⟨.scalar habove, .sequence hbelow, .map (by decide) (List.forall_mem_nil _),
    List.forall_mem_nil _⟩

/-- A filter beside which another stands without a connective. -/
def siblings : Request :=
  ⟨some (.node ⟨"name", .equalTo, [boundsArgument]⟩ none [.single ⟨"age", .isNull, []⟩]),
    ⟨2, some 10, [⟨"name", .descending⟩]⟩⟩

/-- The request is read back, sibling and bounds included, and so is the argument on its own. -/
theorem siblings_read :
    siblings.IsWire ∧ Request.ofDocument? (ofValue siblings.toJson) = some siblings ∧
      boundsArgument.toJson.Ordered ∧
      (Raw.ofJson boundsArgument.toJson).toJson = boundsArgument.toJson := by
  have hwire : siblings.IsWire := by
    rintro t ⟨⟩
    refine .node (List.forall_mem_singleton.mpr boundsArgument_isWire) ?_
    refine List.forall_mem_singleton.mpr (.node ?_ ?_) <;> simp
  have hordered : boundsArgument.toJson.Ordered := Raw.ordered_toJson boundsArgument
  exact ⟨hwire, wire_codec.2 siblings hwire, hordered, wire_codec.1 _ hordered⟩

end Request

end RecordFilter
