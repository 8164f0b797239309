import Mathlib.Data.List.Forall2
import RecordFilter.Schema.Basic

/-!
# Hidden types and visible fields

Ignore markers hide types and fields, unless they are overridden.  A schema of a type is built from
what its descriptor says: the schemas of its visible fields in the order of their declaration, and
the schema of its elements.

* `Hidden`, `Visible`: which types and fields the markers hide.
* `schemaNode_eq`: a schema node in terms of the descriptor of its type.
* `schemaAt_eq_none`, `schemaAt_eq_some`: the schema of a type, one level deep.
-/

namespace RecordFilter

/-! ### Lists side by side -/

/-- What has an image, beside its image. -/
theorem forall₂_filterMap {α β : Type} (g : α → Option β) (xs : List α) :
    List.Forall₂ (fun x y => g x = some y) (xs.filter fun x => (g x).isSome) (xs.filterMap g) := by
  induction xs with
  | nil => exact .nil
  | cons x xs ih =>
      cases h : g x with
      | none =>
          rw [List.filter_cons_of_neg (by simp [h]), List.filterMap_cons_none h]
          exact ih
      | some y =>
          rw [List.filter_cons_of_pos (by simp [h]), List.filterMap_cons_some h]
          exact .cons h ih

theorem getElem?_of_forall₂ {α β : Type} {R : α → β → Prop} {xs : List α} {ys : List β}
    (h : List.Forall₂ R xs ys) (i : Nat) :
    xs[i]? = none ∧ ys[i]? = none ∨ ∃ x y, xs[i]? = some x ∧ ys[i]? = some y ∧ R x y := by
  induction h generalizing i with
  | nil => exact .inl ⟨rfl, rfl⟩
  | cons hxy _ ih =>
      cases i with
      | zero => exact .inr ⟨_, _, rfl, rfl, hxy⟩
      | succ i => exact ih i

/-- Lists side by side have their first members with a property side by side, if what stands side
by side has the property together. -/
theorem find?_of_forall₂ {α β : Type} {R : α → β → Prop} {xs : List α} {ys : List β} {p : α → Bool}
    {q : β → Bool} (h : List.Forall₂ R xs ys) (hpq : ∀ x y, R x y → p x = q y) :
    xs.find? p = none ∧ ys.find? q = none ∨
      ∃ x y, xs.find? p = some x ∧ ys.find? q = some y ∧ R x y := by
  induction h with
  | nil => exact .inl ⟨rfl, rfl⟩
  | @cons x y _ _ hxy _ ih =>
      by_cases hx : p x = true
      · have hy : q y = true := (hpq x y hxy).symm.trans hx
        exact .inr ⟨x, y, List.find?_cons_of_pos hx, List.find?_cons_of_pos hy, hxy⟩
      · have hy : ¬ q y = true := fun hq => hx ((hpq x y hxy).trans hq)
        rw [List.find?_cons_of_neg hx, List.find?_cons_of_neg hy]
        exact ih

/-! ### Hidden types -/

theorem Kind.element?_eq_some {k : Kind} {e : TypeExpr} :
    k.element? = some e ↔ k = .collection e := by
  cases k with
  | collection => rw [element?, Option.some_inj, collection.injEq]
  | _ => exact ⟨nofun, nofun⟩

/-- The type inside of all options, boxes and lists. -/
def TypeExpr.innermost : TypeExpr → TypeExpr
  | .atomic c => .atomic c
  | .defined key => .defined key
  | .optional t | .boxed t | .list t => t.innermost

namespace TypeFamily

variable {F : TypeFamily} {o : Bool}

/-- A type is hidden by its own ignore marker, unless markers are overridden, or is a collection of
hidden elements. -/
inductive Hidden (F : TypeFamily) (o : Bool) : TypeExpr → Prop
  | marked {t : TypeExpr} (ho : o = false) (h : (F.describe t).ignored = true) : Hidden F o t
  | element {t e : TypeExpr} (he : (F.describe t).kind = .collection e) (h : Hidden F o e) :
    Hidden F o t

/-- A type is hidden by its own mark or, a collection, by that of its elements. -/
theorem hidden_iff {t : TypeExpr} :
    F.Hidden o t ↔ (o = false ∧ (F.describe t).ignored = true) ∨
      ∃ e, (F.describe t).kind = .collection e ∧ F.Hidden o e := by
  constructor
  · rintro (⟨ho, h⟩ | ⟨he, h⟩)
    · exact .inl ⟨ho, h⟩
    · exact .inr ⟨_, he, h⟩
  · rintro (⟨ho, h⟩ | ⟨e, he, h⟩)
    · exact .marked ho h
    · exact .element he h

theorem hidden_optional {t : TypeExpr} : F.Hidden o (.optional t) ↔ F.Hidden o t := by
  rw [hidden_iff, describe_optional, hidden_iff (t := t)]

theorem hidden_boxed {t : TypeExpr} : F.Hidden o (.boxed t) ↔ F.Hidden o t := by
  rw [hidden_iff, describe_boxed, hidden_iff (t := t)]

theorem not_hidden_atomic (c : Category) : ¬ F.Hidden o (.atomic c) := by
  rw [hidden_iff]
  rintro (⟨-, h⟩ | ⟨e, h, -⟩) <;> cases h

/-- A list is hidden with its elements, as no list carries a mark. -/
theorem hidden_list {t : TypeExpr} : F.Hidden o (.list t) ↔ F.Hidden o t := by
  rw [hidden_iff]
  constructor
  · rintro (⟨-, h⟩ | ⟨e, h, he⟩)
    · cases h
    · cases h
      exact he
  · exact fun h => .inr ⟨t, rfl, h⟩

/-- A defined type is hidden by its own mark only. -/
theorem hidden_defined {key : String} :
    F.Hidden o (.defined key) ↔ (F.describe (.defined key)).ignored = true ∧ o = false := by
  rw [hidden_iff]
  constructor
  · rintro (⟨ho, h⟩ | ⟨e, h, -⟩)
    · exact ⟨h, ho⟩
    · rw [describe] at h
      split at h <;> cases h
  · exact fun ⟨h, ho⟩ => .inl ⟨ho, h⟩

instance decidableHidden (F : TypeFamily) (o : Bool) : (t : TypeExpr) → Decidable (F.Hidden o t)
  | .atomic c => .isFalse (not_hidden_atomic c)
  | .defined _ => decidable_of_iff _ hidden_defined.symm
  | .optional t => @decidable_of_iff _ _ hidden_optional.symm (decidableHidden F o t)
  | .boxed t => @decidable_of_iff _ _ hidden_boxed.symm (decidableHidden F o t)
  | .list t => @decidable_of_iff _ _ hidden_list.symm (decidableHidden F o t)

/-- A type is hidden by the marker of the type inside of all its lists, if markers count. -/
theorem hidden_iff_innermost {t : TypeExpr} :
    F.Hidden o t ↔ o = false ∧ (F.describe t.innermost).ignored = true := by
  induction t with
  | atomic c => exact iff_of_false (not_hidden_atomic c) fun h => nomatch h.2
  | defined key => exact hidden_defined.trans and_comm
  | optional t ih => exact hidden_optional.trans ih
  | boxed t ih => exact hidden_boxed.trans ih
  | list t ih => exact hidden_list.trans ih

/-- A field is visible unless its marker or its type hides it. -/
def Visible (F : TypeFamily) (o : Bool) (f : FieldDescriptor) : Prop :=
  (f.ignored = true → o = true) ∧ ¬ F.Hidden o f.type

instance (F : TypeFamily) (o : Bool) : DecidablePred (F.Visible o) :=
  fun _ => inferInstanceAs (Decidable (_ ∧ _))

/-- The visible fields of a composite, in the order of their declaration. -/
def shown? (F : TypeFamily) (o : Bool) (t : TypeExpr) : Option (List FieldDescriptor) :=
  (F.describe t).kind.fields?.map fun fields => fields.filter fun f => F.Visible o f

/-! ### One level -/

/-- A schema node in terms of the descriptor of its type. -/
theorem schemaNode_eq (below : Option (String → TypeExpr → Option Schema)) (name : String)
    (t : TypeExpr) :
    F.schemaNode o below name t =
      if F.Hidden o t then none
      else some (F.bareNode name t (F.describe t).kind.values?
        (below.bind fun below => (F.describe t).kind.fields?.map (fieldSchemas o below))
        ((F.describe t).kind.element?.bind fun e =>
          F.schemaNode o below (F.describe e).name e)) := by
  induction t generalizing name with
  | atomic c =>
      rw [if_neg (not_hidden_atomic c)]
      cases below <;> rfl
  | defined key =>
      rw [schemaNode, if_congr hidden_defined rfl rfl, describe]
      cases F key with
      | atomic c => cases below <;> rfl
      | enumeration name' ignored values =>
          cases ignored <;> cases o <;> cases below <;> rfl
      | composite name' ignored fields =>
          cases ignored <;> cases o <;> cases below <;> rfl
  | optional t ih =>
      -- the node of the content says all but the declared name and that it may be absent
      rw [schemaNode, ih, if_congr hidden_optional rfl rfl]
      by_cases h : F.Hidden o t
      · rw [if_pos h, if_pos h]; rfl
      · rw [if_neg h, if_neg h]; rfl
  | boxed t ih =>
      rw [schemaNode, ih, if_congr hidden_boxed rfl rfl]
      rfl
  | list t ih =>
      rw [schemaNode, if_congr hidden_list rfl rfl]
      by_cases h : F.Hidden o t
      · rw [ih, if_pos h, if_pos h]; rfl
      · have he := ih (F.describe t).name
        rw [if_neg h] at he
        rw [if_neg h, he]
        have hnode := congrArg (fun e => some (F.bareNode name (.list t) none none e)) he.symm
        cases below <;> exact hnode

/-- The schemas of the fields, for a depth. -/
theorem schemaAt_succ (depth : Nat) (name : String) (t : TypeExpr) :
    F.schemaAt o (depth + 1) name t =
      F.schemaNode o (if depth = 0 then none else some (F.schemaAt o depth)) name t := by
  cases depth <;> rfl

/-- A type without a depth budget has no schema, nor has a hidden one, but any other has. -/
theorem schemaAt_eq_none {depth : Nat} {name : String} {t : TypeExpr} :
    F.schemaAt o depth name t = none ↔ depth = 0 ∨ F.Hidden o t := by
  cases depth with
  | zero => exact iff_of_true rfl (.inl rfl)
  | succ depth =>
      rw [schemaAt_succ, schemaNode_eq]
      by_cases h : F.Hidden o t
      · rw [if_pos h]; exact iff_of_true rfl (.inr h)
      · rw [if_neg h]; exact iff_of_false (by simp) (by simp [h])

/-- Above depth zero a type has a schema unless it is hidden. -/
theorem exists_schemaAt {depth : Nat} (name : String) {t : TypeExpr} (hd : 0 < depth)
    (ht : ¬ F.Hidden o t) : ∃ s, F.schemaAt o depth name t = some s := by
  refine Option.ne_none_iff_exists'.mp fun h => ?_
  rcases schemaAt_eq_none.mp h with h0 | hh
  · exact Nat.ne_of_gt hd h0
  · exact ht hh

/-- What the schema of a type says, one level deep. -/
theorem schemaAt_eq_some {depth : Nat} {name : String} {t : TypeExpr} {s : Schema}
    (h : F.schemaAt o (depth + 1) name t = some s) :
    ¬ F.Hidden o t ∧
      s = F.bareNode name t (F.describe t).kind.values?
        (if depth = 0 then none
          else (F.describe t).kind.fields?.map (fieldSchemas o (F.schemaAt o depth)))
        ((F.describe t).kind.element?.bind fun e =>
          F.schemaAt o (depth + 1) (F.describe e).name e) := by
  simp only [schemaAt_succ] at h ⊢
  rw [schemaNode_eq] at h
  by_cases ht : F.Hidden o t
  · rw [if_pos ht] at h; cases h
  · rw [if_neg ht] at h
    refine ⟨ht, (Option.some.inj h).symm.trans ?_⟩
    cases depth <;> rfl

/-- A visible field is one without a marker that counts, the type of which has a schema. -/
theorem visible_iff_isSome (depth : Nat) (f : FieldDescriptor) :
    F.Visible o f ↔ (F.schemaAt o (depth + 1) f.name f.type).isSome = true ∧
      (!f.ignored || o) = true := by
  have htype : (F.schemaAt o (depth + 1) f.name f.type).isSome = true ↔ ¬ F.Hidden o f.type := by
    rw [Option.isSome_iff_ne_none, ne_eq, schemaAt_eq_none]
    exact not_congr (or_iff_right (Nat.succ_ne_zero depth))
  have hmarker : (!f.ignored || o) = true ↔ (f.ignored = true → o = true) := by
    cases f.ignored <;> cases o <;> decide
  rw [htype, hmarker, and_comm]
  rfl

/-- The visible fields have schemas, and no others. -/
theorem forall₂_fieldSchemas (depth : Nat) (fields : List FieldDescriptor) :
    List.Forall₂ (fun f s => F.schemaAt o (depth + 1) f.name f.type = some s)
      (fields.filter fun f => F.Visible o f)
      (fieldSchemas o (F.schemaAt o (depth + 1)) fields) := by
  have hvisible : (fields.filter fun f => F.Visible o f) =
      (fields.filter fun f => !f.ignored || o).filter fun f =>
        (F.schemaAt o (depth + 1) f.name f.type).isSome := by
    rw [List.filter_filter]
    refine List.filter_congr fun f _ => ?_
    rw [decide_eq_decide.mpr (visible_iff_isSome depth f), Bool.decide_and, Bool.decide_eq_true,
      Bool.decide_eq_true]
  rw [hvisible]
  exact forall₂_filterMap (fun f : FieldDescriptor => F.schemaAt o (depth + 1) f.name f.type) _

/-- A node has properties if its type is composite and the budget reaches below it: the schemas of
the visible fields. -/
theorem properties_of_schemaAt {depth : Nat} {name : String} {t : TypeExpr} {s : Schema}
    (h : F.schemaAt o (depth + 1) name t = some s) :
    ((depth = 0 ∨ F.shown? o t = none) ∧ s.properties = none) ∨
    ∃ fields ss, 0 < depth ∧ F.shown? o t = some fields ∧ s.properties = some ss ∧
      List.Forall₂ (fun f s => F.schemaAt o depth f.name f.type = some s) fields ss := by
  obtain ⟨-, rfl⟩ := schemaAt_eq_some h
  simp only [bareNode, Schema.properties, shown?]
  cases depth with
  | zero => exact .inl ⟨.inl rfl, rfl⟩
  | succ depth =>
      rw [if_neg (Nat.succ_ne_zero depth)]
      cases (F.describe t).kind.fields? with
      | none => exact .inl ⟨.inr rfl, rfl⟩
      | some fields =>
          exact .inr ⟨_, _, Nat.succ_pos depth, rfl, rfl, F.forall₂_fieldSchemas depth fields⟩

end TypeFamily

end RecordFilter
