import RecordFilter.Json.Decode

/-!
# Objects with ascending keys

An object has its keys in ascending order, each once, at every level (`Json.Ordered`); so has every
value that a document stands for.  Of the fields that an object is made of the last with a key
counts, and fields that ascend already are left as they are.

* `get?_ofFields`: what an object of fields holds under a key.
* `ordered_of_value?`: a document stands for an ordered value.
* `value?_ofValue`: an ordered value is read back from the document it is written as.
* `slots?_ofValue`: so are the fields of a record.
* `list?_map`: so are the items of a list.
-/

namespace RecordFilter.Json

/-- The keys ascend, so that each stands once. -/
def Ascending {α : Type} (fields : List (String × α)) : Prop :=
  fields.Pairwise fun f g => f.1 < g.1

instance {α : Type} (fields : List (String × α)) : Decidable (Ascending fields) :=
  inferInstanceAs (Decidable (List.Pairwise _ fields))

/-- Keys ascend at every level. -/
inductive Ordered : Json → Prop where
  | null : Ordered .null
  | bool (b : Bool) : Ordered (.bool b)
  | number (n : Number) : Ordered (.number n)
  | string (s : String) : Ordered (.string s)
  | array {items : List Json} (h : ∀ v ∈ items, Ordered v) : Ordered (.array items)
  | object {fields : List (String × Json)} (h : Ascending fields)
      (h' : ∀ f ∈ fields, Ordered f.2) : Ordered (.object fields)

/-! ### Numbers -/

theorem ofNat_of_inBounds {n : Nat} (h : InBounds n) :
    Json.ofNat n = .number (.integer ⟨n, h⟩) := dif_pos h

theorem ordered_ofNat (n : Nat) : (Json.ofNat n).Ordered := by
  by_cases h : InBounds n
  · rw [ofNat_of_inBounds h]
    exact .number _
  · have hnumber : Json.ofNat n = .number (.integer ⟨18446744073709551615, by decide⟩) := dif_neg h
    rw [hnumber]
    exact .number _

theorem ordered_ofDouble (x : Double) : (Json.ofDouble x).Ordered := by
  rw [ofDouble]
  split
  · exact .number _
  · exact .null

/-! ### Insertion -/

theorem mem_insert {key : String} {value : Json} {fields : List (String × Json)}
    {f : String × Json} (h : f ∈ insert key value fields) : f = (key, value) ∨ f ∈ fields := by
  induction fields with
  | nil => exact .inl (List.mem_singleton.mp h)
  | cons g rest ih =>
      rw [insert] at h
      split at h
      · exact List.mem_cons.mp h
      · split at h
        · exact (List.mem_cons.mp h).imp_right (List.mem_cons_of_mem g)
        · rcases List.mem_cons.mp h with rfl | h
          · exact .inr List.mem_cons_self
          · exact (ih h).imp_right (List.mem_cons_of_mem g)

/-- An insertion keeps the keys ascending. -/
theorem Ascending.insert {fields : List (String × Json)} (h : Ascending fields) (key : String)
    (value : Json) : Ascending (insert key value fields) := by
  induction fields with
  | nil => exact List.pairwise_singleton _ _
  | cons g rest ih =>
      obtain ⟨hg, hrest⟩ := List.pairwise_cons.mp h
      rw [Json.insert]
      split
      · rename_i hlt
        refine List.pairwise_cons.mpr ⟨fun f hf => ?_, h⟩
        rcases List.mem_cons.mp hf with rfl | hf
        · exact hlt
        · exact String.lt_trans hlt (hg f hf)
      · rename_i hlt
        split
        · rename_i heq
          exact List.pairwise_cons.mpr ⟨fun f hf => heq ▸ hg f hf, hrest⟩
        · rename_i hne
          refine List.pairwise_cons.mpr ⟨fun f hf => ?_, ih hrest⟩
          rcases mem_insert hf with rfl | hf
          · exact Std.lt_of_le_of_ne (String.not_lt.mp hlt) (Ne.symm hne)
          · exact hg f hf

/-- A key above all others comes last. -/
theorem insert_last {key : String} {value : Json} {fields : List (String × Json)}
    (h : ∀ f ∈ fields, f.1 < key) : insert key value fields = fields ++ [(key, value)] := by
  induction fields with
  | nil => rfl
  | cons g rest ih =>
      have hg := h g List.mem_cons_self
      rw [insert, if_neg (String.lt_asymm hg), if_neg (String.ne_of_lt hg).symm,
        ih fun f hf => h f (List.mem_cons_of_mem g hf)]
      rfl

theorem lookup_cons_eq {α : Type} (name key : String) (value : α) (rest : List (String × α)) :
    ((key, value) :: rest).lookup name = if name = key then some value else rest.lookup name := by
  by_cases h : name = key
  · rw [if_pos h, List.lookup_cons, beq_iff_eq.mpr h]
  · rw [if_neg h, List.lookup_cons, beq_eq_false_iff_ne.mpr h]

/-- An insertion changes what is held under its key and under no other. -/
theorem lookup_insert (key name : String) (value : Json) (fields : List (String × Json)) :
    (insert key value fields).lookup name =
      if name = key then some value else fields.lookup name := by
  induction fields with
  | nil => exact lookup_cons_eq name key value []
  | cons g rest ih =>
      rw [insert]
      split
      · exact lookup_cons_eq name key value _
      · split
        · rename_i heq
          rw [lookup_cons_eq, lookup_cons_eq, heq]
          split <;> rfl
        · rename_i hne
          rw [lookup_cons_eq, lookup_cons_eq, ih]
          split
          · rename_i hname
            rw [if_neg fun h => hne (h.symm.trans hname)]
          · rfl

/-! ### Objects of fields -/

/-- Fields whose keys ascend are left as they are. -/
theorem ofFields_of_ascending {fields : List (String × Json)} (h : Ascending fields) :
    ofFields fields = .object fields := by
  have hfold : ∀ (fields acc : List (String × Json)), Ascending (acc ++ fields) →
      fields.foldl (fun acc f => insert f.1 f.2 acc) acc = acc ++ fields := by
    intro fields
    induction fields with
    | nil => exact fun acc _ => (List.append_nil acc).symm
    | cons f rest ih =>
        intro acc h
        have hlast : ∀ g ∈ acc, g.1 < f.1 := fun g hg =>
          (List.pairwise_append.mp h).2.2 g hg f List.mem_cons_self
        rw [List.foldl_cons, insert_last hlast, ih, List.append_assoc]
        · rfl
        · rw [List.append_assoc]
          exact h
  rw [ofFields, hfold fields [] h]
  rfl

/-- An object of ordered fields is ordered. -/
theorem ordered_ofFields {fields : List (String × Json)} (h : ∀ f ∈ fields, Ordered f.2) :
    Ordered (ofFields fields) := by
  refine List.foldlRecOn fields _ (motive := fun acc => Ordered (.object acc))
    (.object List.Pairwise.nil fun _ hf => by cases hf) fun acc hacc f hf => ?_
  cases hacc with
  | object hasc hvalues =>
      refine .object (hasc.insert f.1 f.2) fun g hg => ?_
      rcases mem_insert hg with rfl | hg
      · exact h f hf
      · exact hvalues g hg

/-- An object of fields has ascending keys, in whatever order the fields were given. -/
theorem exists_ascending (fields : List (String × Json)) :
    ∃ sorted, ofFields fields = .object sorted ∧ Ascending sorted :=
  ⟨_, rfl, List.foldlRecOn fields _ (motive := Ascending) List.Pairwise.nil
    fun _ hacc f _ => hacc.insert f.1 f.2⟩

/-- Of the fields that an object is made of the last with a key counts. -/
theorem get?_ofFields (name : String) (fields : List (String × Json)) :
    (ofFields fields).get? name = fields.reverse.lookup name := by
  have hfold : ∀ (fields acc : List (String × Json)),
      (fields.foldl (fun acc f => insert f.1 f.2 acc) acc).lookup name =
        (fields.reverse.lookup name).or (acc.lookup name) := by
    intro fields
    induction fields with
    | nil => exact fun acc => rfl
    | cons f rest ih =>
        intro acc
        rw [List.foldl_cons, ih, lookup_insert, List.reverse_cons, List.lookup_append,
          lookup_cons_eq, List.lookup_nil, Option.or_assoc]
        congr 1
        split <;> rfl
  rw [ofFields, get?, hfold fields [], List.lookup_nil, Option.or_none]

/-! ### Documents of values -/

namespace Document

theorem ofValues_eq_map (vs : List Json) : ofValues vs = vs.map ofValue := by
  induction vs with
  | nil => rfl
  | cons v vs ih => rw [ofValues, ih, List.map_cons]

theorem ofFields_eq_map (fields : List (String × Json)) :
    ofFields fields = fields.map fun f => (some f.1, ofValue f.2) := by
  induction fields with
  | nil => rfl
  | cons f rest ih => rw [ofFields, ih, List.map_cons]

theorem values?_ofValues {vs : List Json} (h : ∀ v ∈ vs, value? (ofValue v) = some v) :
    values? (ofValues vs) = some vs := by
  induction vs with
  | nil => rfl
  | cons v vs ih =>
      rw [ofValues, values?, h v List.mem_cons_self,
        ih fun w hw => h w (List.mem_cons_of_mem v hw)]
      rfl

theorem fieldValues?_ofFields {fields : List (String × Json)}
    (h : ∀ f ∈ fields, value? (ofValue f.2) = some f.2) :
    fieldValues? (ofFields fields) = some fields := by
  induction fields with
  | nil => rfl
  | cons f rest ih =>
      rw [ofFields, fieldValues?, h f List.mem_cons_self,
        ih fun g hg => h g (List.mem_cons_of_mem f hg)]
      rfl

/-- An ordered value is read back from the document it is written as. -/
theorem value?_ofValue {v : Json} (h : v.Ordered) : value? (ofValue v) = some v := by
  induction h with
  | null | bool _ | number _ | string _ => rfl
  | array _ ih => rw [ofValue, value?, values?_ofValues ih, Option.map_some]
  | object hasc _ ih =>
      rw [ofValue, value?, fieldValues?_ofFields ih, Option.map_some, ofFields_of_ascending hasc]

mutual

/-- A document stands for an ordered value. -/
theorem ordered_of_value? : ∀ {d : Document} {v : Json}, value? d = some v → v.Ordered
  | .null, _, rfl => .null
  | .bool b, _, rfl => .bool b
  | .number n, _, rfl => .number n
  | .string s, _, rfl => .string s
  | .array items, v, h => by
      obtain ⟨vs, hvs, rfl⟩ := Option.map_eq_some_iff.mp h
      exact .array (ordered_of_values? hvs)
  | .object fields, v, h => by
      obtain ⟨fs, hfs, rfl⟩ := Option.map_eq_some_iff.mp h
      exact ordered_ofFields (ordered_of_fieldValues? hfs)

/-- A list of documents stands for ordered values. -/
theorem ordered_of_values? : ∀ {ds : List Document} {vs : List Json}, values? ds = some vs →
    ∀ v ∈ vs, v.Ordered
  | [], _, rfl => fun _ hv => by cases hv
  | d :: ds, vs, h => by
      obtain ⟨w, hw, h⟩ := Option.bind_eq_some_iff.mp h
      obtain ⟨ws, hws, h⟩ := Option.bind_eq_some_iff.mp h
      cases h
      intro v hv
      rcases List.mem_cons.mp hv with rfl | hv
      · exact ordered_of_value? hw
      · exact ordered_of_values? hws v hv

/-- So do the values of the fields of an object. -/
theorem ordered_of_fieldValues? : ∀ {ds : List (Option String × Document)}
    {fields : List (String × Json)}, fieldValues? ds = some fields → ∀ f ∈ fields, f.2.Ordered
  | [], _, rfl => fun _ hf => by cases hf
  | (k, d) :: ds, fields, h => by
      obtain ⟨name, -, h⟩ := Option.bind_eq_some_iff.mp h
      obtain ⟨w, hw, h⟩ := Option.bind_eq_some_iff.mp h
      obtain ⟨ws, hws, h⟩ := Option.bind_eq_some_iff.mp h
      cases h
      intro f hf
      rcases List.mem_cons.mp hf with rfl | hf
      · exact ordered_of_value? hw
      · exact ordered_of_fieldValues? hws f hf

end

/-! ### Records and lists -/

theorem string?_ofValue (s : String) : string? (ofValue (.string s)) = some s := rfl

theorem named?_ofValue {α : Type} (ofName? : String → Option α) (s : String) :
    named? ofName? (ofValue (.string s)) = ofName? s := rfl

/-- What stands for a field that has a value, or none. -/
def Slot.ofValue? : Option Json → Slot
  | some v => .given (ofValue v)
  | none => .noKey

/-- An object whose keys ascend holds a key at most once. -/
theorem slot?_of_ascending {fields : List (String × Json)} (h : Ascending fields) (name : String) :
    slot? (fields.map fun f => (f.1, ofValue f.2)) name =
      some (Slot.ofValue? (fields.lookup name)) := by
  induction fields with
  | nil => rfl
  | cons f rest ih =>
      obtain ⟨hf, hrest⟩ := List.pairwise_cons.mp h
      obtain ⟨key, value⟩ := f
      rw [lookup_cons_eq, List.map_cons, slot?]
      by_cases hkey : name = key
      · have hnone : (rest.map fun f => (f.1, ofValue f.2)).filter (·.1 = name) = [] := by
          refine List.filter_eq_nil_iff.mpr fun g hg => ?_
          obtain ⟨g', hg', rfl⟩ := List.mem_map.mp hg
          have hlt : key < g'.1 := hf g' hg'
          simp [hkey, (String.ne_of_lt hlt).symm]
        rw [if_pos hkey, List.filter_cons_of_pos (by simp [hkey]), hnone]
        rfl
      · rw [if_neg hkey, List.filter_cons_of_neg (by simp [Ne.symm hkey]), ← slot?, ih hrest]

theorem mapM_eq_some {α β : Type} {f : α → Option β} {g : α → β} {xs : List α}
    (h : ∀ x ∈ xs, f x = some (g x)) : xs.mapM f = some (xs.map g) := by
  induction xs with
  | nil => rfl
  | cons x xs ih =>
      rw [List.mapM_cons, h x List.mem_cons_self, ih fun y hy => h y (List.mem_cons_of_mem x hy)]
      rfl

/-- The fields of a record are found in the object that it is written as. -/
theorem slots?_ofValue (v : Json) (h : ∃ fields, v = .ofFields fields) (names : List String) :
    slots? names (ofValue v) = some (names.map fun name => Slot.ofValue? (v.get? name)) := by
  obtain ⟨fields, rfl⟩ := h
  obtain ⟨sorted, hsorted, hasc⟩ := exists_ascending fields
  have hkeys : (ofFields sorted).mapM (fun f => f.1.map (·, f.2)) =
      some (sorted.map fun f => (f.1, ofValue f.2)) := by
    rw [ofFields_eq_map, List.mapM_map]
    exact mapM_eq_some fun _ _ => rfl
  rw [hsorted, ofValue, slots?, hkeys]
  exact mapM_eq_some fun name _ => slot?_of_ascending hasc name

namespace Slot

variable {α : Type} (decode : Document → Option α)

theorem required_some (v : Json) : (ofValue? (some v)).required decode = decode (ofValue v) := rfl

theorem withDefault_some (default : α) (v : Json) :
    (ofValue? (some v)).withDefault decode default = decode (ofValue v) := rfl

end Slot

/-- The items of a list are read if each is. -/
theorem list?_map_eq {α β : Type} {decode : Document → Option β} {encode : α → Json} {g : α → β}
    {xs : List α} (h : ∀ x ∈ xs, decode (ofValue (encode x)) = some (g x)) :
    list? decode (ofValue (.array (xs.map encode))) = some (xs.map g) := by
  rw [ofValue, ofValues_eq_map, List.map_map, list?, List.mapM_map]
  exact mapM_eq_some h

/-- The items of a list are read back if each is. -/
theorem list?_map {α : Type} {decode : Document → Option α} {encode : α → Json} {xs : List α}
    (h : ∀ x ∈ xs, decode (ofValue (encode x)) = some x) :
    list? decode (ofValue (.array (xs.map encode))) = some xs :=
  (list?_map_eq h).trans (congrArg some (List.map_id xs))

/-- A field that is left out if there is nothing to write is read if its value is. -/
theorem Slot.withDefault_map {α β : Type} {decode : Document → Option β} {encode : α → Json}
    {g : α → β} {o : Option α} (hnull : ∀ a ∈ o, (encode a).isNull = false)
    (h : ∀ a ∈ o, decode (ofValue (encode a)) = some (g a)) :
    (ofValue? (o.map encode)).withDefault (option? decode) none = some (o.map g) := by
  cases o with
  | none => rfl
  | some a =>
      have hnull := hnull a rfl
      have hread := h a rfl
      rw [Option.map_some, withDefault_some]
      cases hvalue : encode a with
      | null => rw [hvalue] at hnull; cases hnull
      | _ => rw [hvalue] at hread; exact congrArg (Option.map some) hread

/-- A field that is left out if there is nothing to write is read back. -/
theorem Slot.withDefault_option {α : Type} {decode : Document → Option α} {encode : α → Json}
    {o : Option α} (hnull : ∀ a ∈ o, (encode a).isNull = false)
    (h : ∀ a ∈ o, decode (ofValue (encode a)) = some a) :
    (ofValue? (o.map encode)).withDefault (option? decode) none = some o :=
  (withDefault_map hnull h).trans (congrArg some Option.map_id')

/-- So is a list that is left out if it is empty. -/
theorem Slot.withDefault_list {α : Type} {decode : Document → Option α}
    {encode : α → Json} {xs : List α} (h : ∀ x ∈ xs, decode (ofValue (encode x)) = some x) :
    (ofValue? (if xs.isEmpty then none else some (.array (xs.map encode)))).withDefault
      (list? decode) [] = some xs := by
  cases xs with
  | nil => rfl
  | cons x xs => exact list?_map h

theorem height_pos (d : Document) : 0 < d.height := by
  cases d <;> simp [height]

/-- The values of an object are written with fewer levels than the object. -/
theorem height_lt_of_get? {v w : Json} {name : String} (h : v.get? name = some w) :
    (ofValue w).height < (ofValue v).height := by
  cases v with
  | object fields =>
      obtain ⟨before, after, hfields, -⟩ := List.lookup_eq_some_iff.mp h
      refine height_lt_of_mem_fields (k := some name) ?_
      rw [ofFields_eq_map, hfields]
      simp
  | _ => cases h

/-- The values of an array that an object holds are two levels below the object. -/
theorem height_lt_of_get?_array {v w : Json} {name : String} {ws : List Json}
    (h : v.get? name = some (.array ws)) (hw : w ∈ ws) :
    (ofValue w).height + 1 < (ofValue v).height := by
  have hmem : ofValue w ∈ ofValues ws := by
    rw [ofValues_eq_map]
    exact List.mem_map_of_mem hw
  have hlt := height_lt_of_mem hmem
  have hlt' := height_lt_of_get? h
  rw [ofValue] at hlt'
  omega

end Document

end RecordFilter.Json
