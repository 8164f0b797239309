import Mathlib.Data.ENat.Lattice
import Mathlib.Data.List.Chain
import Mathlib.Logic.Relation
import Mathlib.Order.CompletePartialOrder
import RecordFilter.Proofs.Schema.Cache
import RecordFilter.Proofs.Schema.Hidden
import RecordFilter.Samples

/-!
# How deep schemas are

Definitions may refer to each other and to themselves, so it is the depth budget that ends a
compilation.  A field takes one from the budget.  An element takes nothing, but there are only so
many collections one in another (`TypeExpr.elementDepth`).

* `Builds`: the runs of a compilation, one rule for each way in which a node is made.
* `builds_iff`: each compilation has one finite run, and `schemaAt` gives its result.
* `compositeHeight`: the greatest number of composite types on a chain of visible fields and
  elements.
* `compile_nestingDepth`: a schema is as deep as the budget and the chains from its type allow.
-/

namespace RecordFilter

/-- How often an element can be taken in turn without going through a field. -/
def TypeExpr.elementDepth : TypeExpr → Nat
  | atomic _ | defined _ => 0
  | optional t | boxed t => t.elementDepth
  | list t => t.elementDepth + 1

namespace Schema

variable {s : Schema} {ss : List Schema}

theorem nestingDepth_le_greatestDepth (h : s ∈ ss) : s.nestingDepth ≤ greatestDepth ss := by
  induction ss with
  | nil => cases h
  | cons s' ss ih =>
      rw [greatestDepth]
      rcases List.mem_cons.mp h with rfl | h
      · exact Nat.le_max_left _ _
      · exact Nat.le_trans (ih h) (Nat.le_max_right _ _)

/-- The greatest depth is that of a schema in the list, unless it is zero. -/
theorem greatestDepth_attained (ss : List Schema) :
    greatestDepth ss = 0 ∨ ∃ s ∈ ss, greatestDepth ss = s.nestingDepth := by
  induction ss with
  | nil => exact .inl rfl
  | cons s ss ih =>
      rw [greatestDepth]
      rcases Nat.le_total (greatestDepth ss) s.nestingDepth with hle | hle
      · exact .inr ⟨s, List.mem_cons_self, Nat.max_eq_left hle⟩
      · rw [Nat.max_eq_right hle]
        obtain h0 | ⟨s', hs', heq⟩ := ih
        · exact .inl h0
        · exact .inr ⟨s', List.mem_cons_of_mem _ hs', heq⟩

end Schema

namespace TypeFamily

variable {F : TypeFamily} {o : Bool} {depth : Nat} {name : String} {t u : TypeExpr}
  {r : Option Schema} {s : Schema} {ts us : List TypeExpr}

/-! ### Elements -/

/-- The depth of elements, step by step along the described elements. -/
theorem elementDepth_eq (F : TypeFamily) (t : TypeExpr) :
    t.elementDepth = (F.describe t).kind.element?.elim 0 fun e => e.elementDepth + 1 := by
  induction t with
  | atomic => rfl
  | defined key =>
      rw [describe]
      cases F key <;> rfl
  | optional t ih => exact ih
  | boxed t ih => exact ih
  | list t => rfl

theorem elementDepth_of_element {e : TypeExpr} (hk : (F.describe t).kind = .collection e) :
    t.elementDepth = e.elementDepth + 1 := by
  rw [elementDepth_eq F t, hk]
  rfl

/-! ### Runs of a compilation -/

/-- A run that makes the node of a type under a name.  The run on a collection holds one on the
element, for the same budget; the run on a composite holds one on each field without a marker that
counts, for one less. -/
inductive Builds (F : TypeFamily) (o : Bool) : Nat → String → TypeExpr → Option Schema → Prop
  | exhausted (name : String) (t : TypeExpr) : Builds F o 0 name t none
  | marked {depth : Nat} {name : String} {t : TypeExpr} (ho : o = false)
      (hm : (F.describe t).ignored = true) : Builds F o (depth + 1) name t none
  | atomic {depth : Nat} {name : String} {t : TypeExpr} {c : Category}
      (hm : (F.describe t).ignored = true → o = true) (hk : (F.describe t).kind = .atomic c) :
    Builds F o (depth + 1) name t (some (F.bareNode name t none none none))
  | enumeration {depth : Nat} {name : String} {t : TypeExpr} {values : List String}
      (hm : (F.describe t).ignored = true → o = true)
      (hk : (F.describe t).kind = .enumeration values) :
    Builds F o (depth + 1) name t (some (F.bareNode name t (some values) none none))
  /-- Without a node for the element there is none for the collection. -/
  | collection {depth : Nat} {name : String} {t e : TypeExpr} {child : Option Schema}
      (hm : (F.describe t).ignored = true → o = true) (hk : (F.describe t).kind = .collection e)
      (he : Builds F o (depth + 1) (F.describe e).name e child) :
    Builds F o (depth + 1) name t (child.map fun s => F.bareNode name t none none (some s))
  /-- There is no budget for the fields. -/
  | childless {name : String} {t : TypeExpr} {fields : List FieldDescriptor}
      (hm : (F.describe t).ignored = true → o = true)
      (hk : (F.describe t).kind = .composite fields) :
    Builds F o 1 name t (some (F.bareNode name t none none none))
  | composite {depth : Nat} {name : String} {t : TypeExpr} {fields : List FieldDescriptor}
      (hm : (F.describe t).ignored = true → o = true)
      (hk : (F.describe t).kind = .composite fields) (below : String → TypeExpr → Option Schema)
      (hf : ∀ f ∈ fields, (f.ignored = true → o = true) →
        Builds F o (depth + 1) f.name f.type (below f.name f.type)) :
    Builds F o (depth + 2) name t
      (some (F.bareNode name t none (some (fieldSchemas o below fields)) none))

/-- The schemas of fields are those of the fields without a marker that counts. -/
theorem mem_fieldSchemas {below : String → TypeExpr → Option Schema}
    {fields : List FieldDescriptor} :
    s ∈ fieldSchemas o below fields ↔
      ∃ f ∈ fields, (f.ignored = true → o = true) ∧ below f.name f.type = some s := by
  rw [fieldSchemas, List.mem_filterMap]
  refine exists_congr fun f => ?_
  rw [List.mem_filter, and_assoc, Bool.or_eq_true, Bool.not_eq_true', ← Bool.not_eq_true,
    ← imp_iff_not_or]

/-- A collection whose mark does not count is hidden with its elements. -/
theorem hidden_of_element {e : TypeExpr} (hm : (F.describe t).ignored = true → o = true)
    (hk : (F.describe t).kind = .collection e) : F.Hidden o t ↔ F.Hidden o e := by
  rw [hidden_iff, or_iff_right]
  · refine ⟨?_, fun h => ⟨e, hk, h⟩⟩
    rintro ⟨e', hk', h⟩
    cases hk.symm.trans hk'
    exact h
  · rintro ⟨rfl, h⟩
    cases hm h

theorem not_hidden_of_unmarked (hm : (F.describe t).ignored = true → o = true)
    (hk : (F.describe t).kind.element? = none) : ¬ F.Hidden o t := by
  rw [hidden_iff]
  rintro (⟨rfl, h⟩ | ⟨e, he, -⟩)
  · cases hm h
  · rw [he] at hk
    cases hk

/-- The node of a type that is not hidden, in full. -/
theorem schemaAt_of_not_hidden (ht : ¬ F.Hidden o t) :
    F.schemaAt o (depth + 1) name t = some (F.bareNode name t (F.describe t).kind.values?
      (if depth = 0 then none
        else (F.describe t).kind.fields?.map (fieldSchemas o (F.schemaAt o depth)))
      ((F.describe t).kind.element?.bind fun e =>
        F.schemaAt o (depth + 1) (F.describe e).name e)) := by
  obtain ⟨s, hs⟩ := exists_schemaAt name (Nat.succ_pos depth) ht
  rw [← (schemaAt_eq_some hs).2]
  exact hs

/-- What a run gives is the schema. -/
theorem schemaAt_of_builds (h : F.Builds o depth name t r) : F.schemaAt o depth name t = r := by
  induction h with
  | exhausted => rfl
  | marked ho hm => exact schemaAt_eq_none.mpr (.inr (.marked ho hm))
  | @atomic depth name t c hm hk =>
      rw [schemaAt_of_not_hidden (not_hidden_of_unmarked hm (by rw [hk]; rfl)), hk]
      exact congrArg (fun ps => some (F.bareNode name t none ps none)) (ite_self none)
  | @enumeration depth name t values hm hk =>
      rw [schemaAt_of_not_hidden (not_hidden_of_unmarked hm (by rw [hk]; rfl)), hk]
      exact congrArg (fun ps => some (F.bareNode name t (some values) ps none)) (ite_self none)
  | @collection depth name t e child hm hk he ih =>
      by_cases hh : F.Hidden o e
      · have hchild : child = none := ih.symm.trans (schemaAt_eq_none.mpr (.inr hh))
        rw [hchild]
        exact schemaAt_eq_none.mpr (.inr (.element hk hh))
      · obtain ⟨s, hs⟩ := exists_schemaAt (F.describe e).name (Nat.succ_pos depth) hh
        have hchild : child = some s := ih.symm.trans hs
        have helement : ((Kind.collection e).element?.bind fun e =>
            F.schemaAt o (depth + 1) (F.describe e).name e) = some s := hs
        rw [schemaAt_of_not_hidden (mt (hidden_of_element hm hk).mp hh), hk, helement, hchild]
        exact congrArg (fun ps => some (F.bareNode name t none ps (some s))) (ite_self none)
  | @childless name t fields hm hk =>
      rw [schemaAt_of_not_hidden (not_hidden_of_unmarked hm (by rw [hk]; rfl)), hk]
      rfl
  | @composite depth name t fields hm hk below hf ih =>
      have hbelow : fieldSchemas o (F.schemaAt o (depth + 1)) fields =
          fieldSchemas o below fields := by
        refine List.filterMap_congr fun f hmem => ?_
        obtain ⟨hmem, hmarker⟩ := List.mem_filter.mp hmem
        refine ih f hmem fun hi => ?_
        rw [hi] at hmarker
        exact hmarker
      rw [schemaAt_of_not_hidden (not_hidden_of_unmarked hm (by rw [hk]; rfl)), hk, ← hbelow]
      rfl

/-- Every compilation has a run. -/
theorem exists_builds (F : TypeFamily) (o : Bool) (depth : Nat) (name : String) (t : TypeExpr) :
    ∃ r, F.Builds o depth name t r := by
  induction depth generalizing name t with
  | zero => exact ⟨none, .exhausted name t⟩
  | succ depth ih =>
      -- an element has the same budget, but there are fewer collections to take elements of
      induction hd : t.elementDepth using Nat.strong_induction_on generalizing name t with
      | _ n ihe =>
        by_cases hm : (F.describe t).ignored = true → o = true
        · cases hk : (F.describe t).kind with
          | atomic c => exact ⟨_, .atomic hm hk⟩
          | enumeration values => exact ⟨_, .enumeration hm hk⟩
          | collection e =>
              have hlt : e.elementDepth < n := by
                rw [← hd, elementDepth_of_element hk]
                exact Nat.lt_succ_self _
              obtain ⟨child, he⟩ := ihe e.elementDepth hlt (F.describe e).name e rfl
              exact ⟨_, .collection hm hk he⟩
          | composite fields =>
              cases depth with
              | zero => exact ⟨_, .childless hm hk⟩
              | succ depth =>
                  refine ⟨_, .composite hm hk (F.schemaAt o (depth + 1)) fun f _ _ => ?_⟩
                  obtain ⟨r, hr⟩ := ih f.name f.type
                  rw [schemaAt_of_builds hr]
                  exact hr
        · rw [Classical.not_imp, Bool.not_eq_true] at hm
          exact ⟨none, .marked hm.2 hm.1⟩

/-- Each compilation has one run. -/
theorem builds_iff : F.Builds o depth name t r ↔ F.schemaAt o depth name t = r := by
  refine ⟨schemaAt_of_builds, ?_⟩
  rintro rfl
  obtain ⟨r, hr⟩ := exists_builds F o depth name t
  rw [schemaAt_of_builds hr]
  exact hr

/-! ### Chains -/

/-- One step of a chain: to the type of a visible field, or to the element of a collection. -/
inductive Follows (F : TypeFamily) (o : Bool) : TypeExpr → TypeExpr → Prop
  | field {t : TypeExpr} {fields : List FieldDescriptor} {f : FieldDescriptor}
      (hk : (F.describe t).kind = .composite fields) (hf : f ∈ fields) (hv : F.Visible o f) :
    Follows F o t f.type
  | element {t e : TypeExpr} (hk : (F.describe t).kind = .collection e) (hv : ¬ F.Hidden o e) :
    Follows F o t e

/-- The number of composite types in a list. -/
def compositesOn (F : TypeFamily) (ts : List TypeExpr) : Nat :=
  ts.countP fun t => (F.describe t).kind.fields?.isSome

/-- The greatest number of composite types on a chain from a type, infinite if there is none. -/
noncomputable def compositeHeight (F : TypeFamily) (o : Bool) (t : TypeExpr) : ℕ∞ :=
  ⨆ (ts : List TypeExpr) (_ : List.IsChain (F.Follows o) (t :: ts)), (F.compositesOn (t :: ts) : ℕ∞)

/-- A chain has at most as many composites as the height says. -/
theorem le_compositeHeight (h : List.IsChain (F.Follows o) (t :: ts)) :
    (F.compositesOn (t :: ts) : ℕ∞) ≤ F.compositeHeight o t :=
  le_iSup₂ (f := fun ts _ => (F.compositesOn (t :: ts) : ℕ∞)) ts h

theorem compositesOn_of_composite {fields : List FieldDescriptor}
    (hk : (F.describe t).kind = .composite fields) :
    F.compositesOn (t :: ts) = F.compositesOn ts + 1 :=
  List.countP_cons_of_pos (by rw [hk]; rfl)

theorem compositesOn_of_not_composite (hk : (F.describe t).kind.fields? = none) :
    F.compositesOn (t :: ts) = F.compositesOn ts :=
  List.countP_cons_of_neg (by rw [hk]; exact Bool.false_ne_true)

/-- A step counts a composite type, or takes an element. -/
theorem Follows.counts (h : F.Follows o t u) (ts : List TypeExpr) :
    F.compositesOn (t :: ts) = F.compositesOn ts + 1 ∨
      F.compositesOn (t :: ts) = F.compositesOn ts ∧ t.elementDepth = u.elementDepth + 1 := by
  cases h with
  | field hk => exact .inl (compositesOn_of_composite hk)
  | element hk =>
      exact .inr ⟨compositesOn_of_not_composite (by rw [hk]; rfl), elementDepth_of_element hk⟩

/-- Types of one kind begin the same chains. -/
theorem Follows.of_kind (h : F.Follows o t u) {t' : TypeExpr}
    (hk : (F.describe t').kind = (F.describe t).kind) : F.Follows o t' u := by
  cases h with
  | field hk' hf hv => exact .field (hk.trans hk') hf hv
  | element hk' hv => exact .element (hk.trans hk') hv

/-- A chain may begin with another type of the same kind. -/
theorem isChain_of_kind {t' : TypeExpr} (hk : (F.describe t').kind = (F.describe t).kind)
    (h : List.IsChain (F.Follows o) (t :: ts)) : List.IsChain (F.Follows o) (t' :: ts) := by
  cases h with
  | singleton => exact .singleton _
  | cons_cons hu h => exact .cons_cons (hu.of_kind hk) h

/-- Neither an atomic type nor an enumeration begins a chain. -/
theorem compositesOn_of_leaf (hf : (F.describe t).kind.fields? = none)
    (he : (F.describe t).kind.element? = none) (h : List.IsChain (F.Follows o) (t :: ts)) :
    F.compositesOn (t :: ts) = 0 := by
  rw [compositesOn_of_not_composite hf]
  cases h with
  | singleton => rfl
  | cons_cons hu _ =>
      cases hu with
      | field hk => rw [hk] at hf; cases hf
      | element hk => rw [hk] at he; cases he

/-! ### Levels -/

/-- A collection is as deep as its elements. -/
theorem nestingDepth_of_element (values : Option (List String)) (ps : Option (List Schema)) :
    (F.bareNode name t values ps (some s)).nestingDepth = s.nestingDepth := rfl

/-- A composite is one deeper than the deepest of its properties. -/
theorem nestingDepth_of_properties (values : Option (List String)) (ps : List Schema) :
    (F.bareNode name t values (some ps) none).nestingDepth = 1 + Schema.greatestDepth ps := rfl

/-- A schema is as deep as each chain demands, within the budget. -/
theorem le_nestingDepth (h : F.Builds o depth name t r) (hr : r = some s)
    (hts : List.IsChain (F.Follows o) (t :: ts)) :
    min (depth - 1) (F.compositesOn (t :: ts)) ≤ s.nestingDepth := by
  induction h generalizing s ts with
  | exhausted | marked => cases hr
  | atomic _ hk | enumeration _ hk =>
      rw [compositesOn_of_leaf (by rw [hk]; rfl) (by rw [hk]; rfl) hts, Nat.min_zero]
      exact Nat.zero_le _
  | @collection depth name t e child hm hk he ih =>
      obtain ⟨s', rfl, rfl⟩ := Option.map_eq_some_iff.mp hr
      rw [compositesOn_of_not_composite (by rw [hk]; rfl)]
      cases hts with
      | singleton => exact Nat.le_trans (Nat.min_le_right _ _) (Nat.zero_le _)
      | cons_cons hu hts =>
          cases hu with
          | field hk' => cases hk.symm.trans hk'
          | element hk' =>
              cases hk.symm.trans hk'
              rw [nestingDepth_of_element]
              exact ih rfl hts
  | childless => exact Nat.le_trans (Nat.min_le_left _ _) (Nat.zero_le _)
  | @composite depth name t fields hm hk below hf ih =>
      cases hr
      rw [compositesOn_of_composite hk]
      cases hts with
      | singleton => exact Nat.le_trans (Nat.min_le_right _ _) (Nat.le_add_right 1 _)
      | cons_cons hu hts =>
          cases hu with
          | element hk' => cases hk.symm.trans hk'
          | @field fields' f hk' hmem hv =>
              cases hk.symm.trans hk'
              -- the field is visible, so it has a schema among the properties
              obtain ⟨s', hs'⟩ := exists_schemaAt f.name (Nat.succ_pos depth) hv.2
              have hbelow : below f.name f.type = some s' :=
                (schemaAt_of_builds (hf f hmem hv.1)).symm.trans hs'
              have hle : s'.nestingDepth ≤ Schema.greatestDepth (fieldSchemas o below fields) :=
                Schema.nestingDepth_le_greatestDepth
                  (mem_fieldSchemas.mpr ⟨f, hmem, hv.1, hbelow⟩)
              have hih := ih f hmem hv.1 hbelow hts
              rw [nestingDepth_of_properties]
              omega

/-- A schema is no deeper than the budget, and some chain is as long. -/
theorem nestingDepth_attained (h : F.Builds o depth name t r) (hr : r = some s) :
    s.nestingDepth ≤ depth - 1 ∧ ∃ ts, List.IsChain (F.Follows o) (t :: ts) ∧
      s.nestingDepth ≤ F.compositesOn (t :: ts) := by
  induction h generalizing s with
  | exhausted | marked => cases hr
  | atomic | enumeration | childless =>
      cases hr
      exact ⟨Nat.zero_le _, [], .singleton _, Nat.zero_le _⟩
  | @collection depth name t e child hm hk he ih =>
      obtain ⟨s', rfl, rfl⟩ := Option.map_eq_some_iff.mp hr
      obtain ⟨hdepth, ts, hts, hle⟩ := ih rfl
      have hv : ¬ F.Hidden o e := (schemaAt_eq_some (schemaAt_of_builds he)).1
      refine ⟨hdepth, e :: ts, .cons_cons (.element hk hv) hts, ?_⟩
      rw [compositesOn_of_not_composite (by rw [hk]; rfl)]
      exact hle
  | @composite depth name t fields hm hk below hf ih =>
      cases hr
      rw [nestingDepth_of_properties]
      obtain h0 | ⟨s', hs', heq⟩ := Schema.greatestDepth_attained (fieldSchemas o below fields)
      · rw [h0]
        refine ⟨Nat.le_add_left 1 depth, [], .singleton _, ?_⟩
        rw [compositesOn_of_composite hk]
        exact Nat.le_add_left 1 _
      · obtain ⟨f, hmem, hmarker, hbelow⟩ := mem_fieldSchemas.mp hs'
        obtain ⟨hdepth, ts, hts, hle⟩ := ih f hmem hmarker hbelow
        have hfield : F.schemaAt o (depth + 1) f.name f.type = some s' :=
          (schemaAt_of_builds (hf f hmem hmarker)).trans hbelow
        have hv : F.Visible o f := ⟨hmarker, (schemaAt_eq_some hfield).1⟩
        refine ⟨by omega, f.type :: ts, .cons_cons (.field hk hmem hv) hts, ?_⟩
        rw [compositesOn_of_composite hk]
        omega

/-- A schema has as many levels as the longest chain, within the budget. -/
theorem nestingDepth_eq (h : F.schemaAt o depth name t = some s) :
    (s.nestingDepth : ℕ∞) = min ((depth - 1 : ℕ) : ℕ∞) (F.compositeHeight o t) := by
  have hb : F.Builds o depth name t (some s) := builds_iff.mpr h
  obtain ⟨hdepth, ts, hts, hle⟩ := nestingDepth_attained hb rfl
  refine le_antisymm (le_min (Nat.cast_le.mpr hdepth) ?_) ?_
  · exact le_trans (Nat.cast_le.mpr hle) (le_compositeHeight hts)
  · rcases Nat.lt_or_ge s.nestingDepth (depth - 1) with hlt | hge
    · refine min_le_of_right_le (iSup₂_le fun ts hts => Nat.cast_le.mpr ?_)
      have hmin := le_nestingDepth hb rfl hts
      omega
    · exact min_le_of_left_le (Nat.cast_le.mpr hge)

/-! ### Cycles -/

/-- A way from one type to another goes through a composite type, or takes elements only. -/
theorem exists_chain_of_transGen (h : Relation.TransGen (F.Follows o) t u)
    (hus : List.IsChain (F.Follows o) (u :: us)) :
    ∃ ts, List.IsChain (F.Follows o) (t :: ts) ∧
      (F.compositesOn (u :: us) < F.compositesOn (t :: ts) ∨
        F.compositesOn (u :: us) = F.compositesOn (t :: ts) ∧ u.elementDepth < t.elementDepth) := by
  induction h using Relation.TransGen.head_induction_on with
  | single h =>
      refine ⟨u :: us, .cons_cons h hus, ?_⟩
      rcases h.counts (u :: us) with hc | ⟨hc, hd⟩ <;> omega
  | @head t v h _ ih =>
      obtain ⟨ts, hts, hor⟩ := ih
      refine ⟨v :: ts, .cons_cons h hts, ?_⟩
      rcases h.counts (v :: ts) with hc | ⟨hc, hd⟩ <;> omega

/-- A type that leads to one of its own kind begins chains of any length. -/
theorem compositeHeight_of_cycle (h : Relation.TransGen (F.Follows o) t u)
    (hk : (F.describe t).kind = (F.describe u).kind) : F.compositeHeight o t = ⊤ := by
  have hlong : ∀ n : ℕ, ∃ ts, List.IsChain (F.Follows o) (t :: ts) ∧
      n ≤ F.compositesOn (t :: ts) := by
    intro n
    induction n with
    | zero => exact ⟨[], .singleton _, Nat.zero_le _⟩
    | succ n ih =>
        obtain ⟨us, hus, hn⟩ := ih
        obtain ⟨ts, hts, hor⟩ := exists_chain_of_transGen h (isChain_of_kind hk.symm hus)
        have hd : t.elementDepth = u.elementDepth := by
          rw [elementDepth_eq F t, hk, elementDepth_eq F u]
        have hc : F.compositesOn (u :: us) = F.compositesOn (t :: us) := by
          simp only [compositesOn, List.countP_cons, hk]
        exact ⟨ts, hts, by omega⟩
  refine ENat.eq_top_iff_forall_ge.mpr fun n => ?_
  obtain ⟨ts, hts, hn⟩ := hlong n
  exact le_trans (Nat.cast_le.mpr hn) (le_compositeHeight hts)

/-- **Depths.**  Whatever has been compiled before, the compilation of a type has one finite run,
which ends with the schema or without one.  The schema has one level less than the depth, or one for
each composite type on the longest chain of visible fields and elements, if these are fewer.  A type
that leads to itself, or to an option or box of itself, uses the depth up. -/
theorem compile_nestingDepth {c : SchemaCache} (hc : c.Reached F) (t : TypeExpr) (depth : Nat)
    (o : Bool) :
    (∀ r, F.Builds o depth (F.describe t).name t r ↔
      r = (c.compile F t depth o).1.map StoredSchema.schema) ∧
    ∀ stored, (c.compile F t depth o).1 = some stored →
      (stored.schema.nestingDepth : ℕ∞) = min ((depth - 1 : ℕ) : ℕ∞) (F.compositeHeight o t) ∧
      ∀ u, Relation.TransGen (F.Follows o) t u → (F.describe t).kind = (F.describe u).kind →
        stored.schema.nestingDepth = depth - 1 := by
  have hcompile : (c.compile F t depth o).1.map StoredSchema.schema =
      F.schemaAt o depth (F.describe t).name t :=
    (SchemaCache.Sound.of_reached hc).compile_schema t depth o
  refine ⟨fun r => ?_, fun stored hstored => ?_⟩
  · rw [hcompile, builds_iff, eq_comm]
  · have hschema : F.schemaAt o depth (F.describe t).name t = some stored.schema := by
      rw [← hcompile, hstored]
      rfl
    refine ⟨nestingDepth_eq hschema, fun u hu hk => ?_⟩
    have heq := nestingDepth_eq hschema
    rw [compositeHeight_of_cycle hu hk, min_top_right] at heq
    exact Nat.cast_inj.mp heq

/-- The manager of a person is a person, so that four levels of depth show three of managers. -/
theorem person_levels :
    SchemaCache.Reached Sample.family .empty ∧ ∃ stored,
      (SchemaCache.empty.compile Sample.family Sample.person.type 4 false).1 = some stored ∧
      stored.schema.nestingDepth = 3 := by
  have hc : SchemaCache.Reached Sample.family .empty := .empty
  have hmanager : Sample.family.Follows false Sample.person.type
      (.optional (.boxed Sample.person.type)) :=
    .field (f := Sample.perhaps "manager" (.boxed Sample.person.type)) rfl (by decide) (by decide)
  obtain ⟨-, hlevels⟩ := compile_nestingDepth hc Sample.person.type 4 false
  obtain ⟨-, hcycle⟩ := hlevels _ rfl
  exact ⟨hc, _, rfl, hcycle _ (.single hmanager) rfl⟩

end TypeFamily

end RecordFilter
