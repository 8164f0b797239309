import RecordFilter.Proofs.Schema.Cache
import RecordFilter.Proofs.Schema.Hidden
import RecordFilter.Samples

/-!
# What a schema shows

A schema unfolds a type along its visible fields and its elements, as far as the depth budget goes.
A node of it has an address, a list of steps each of which takes a property by its position or goes
to the element.  `Schema.at?` follows an address in a schema, and `TypeFamily.at?` in the types
themselves, which are finite only as expressions: no budget bounds the addresses there.

* `at?_of_schemaAt`: the node at an address is the schema of the type at the address.
* `compile_visibility`: which types have a schema, which nodes it has, and what each node says.
-/

namespace RecordFilter

/-- A step from a node to one of its properties, or to its element. -/
inductive Step where
  | field (position : Nat)
  | element
deriving Repr, DecidableEq

namespace Step

/-- The number of steps that the depth budget pays for. -/
def cost : List Step → Nat
  | [] => 0
  | field _ :: a => cost a + 1
  | element :: a => cost a

@[simp]
theorem cost_nil : cost [] = 0 := rfl

/-- A field costs one level. -/
@[simp]
theorem cost_field (i : Nat) (a : List Step) : cost (field i :: a) = cost a + 1 := rfl

/-- An element costs none. -/
@[simp]
theorem cost_element (a : List Step) : cost (element :: a) = cost a := rfl

end Step

/-- The node at an address. -/
def Schema.at? : Schema → List Step → Option Schema
  | s, [] => some s
  | s, .field i :: a => (s.properties.bind (·[i]?)).bind fun p => p.at? a
  | s, .element :: a => s.element.bind fun e => e.at? a

/-- A type under the name it has as a field, or its short name. -/
structure Place where
  name : String
  type : TypeExpr

namespace TypeFamily

/-- A type under its short name. -/
def place (F : TypeFamily) (t : TypeExpr) : Place := ⟨(F.describe t).name, t⟩

/-- The type at an address below a type, among the visible fields. -/
def at? (F : TypeFamily) (o : Bool) : Place → List Step → Option Place
  | p, [] => some p
  | p, .field i :: a =>
    ((F.shown? o p.type).bind (·[i]?)).bind fun f => at? F o ⟨f.name, f.type⟩ a
  | p, .element :: a => (F.describe p.type).kind.element?.bind fun e => at? F o (F.place e) a

end TypeFamily

/-- A schema node says what the descriptor of its type says.  Its properties are there if the type
is composite and the budget reaches below it. -/
structure Schema.Describes (F : TypeFamily) (o : Bool) (budget : Nat) (p : Place) (n : Schema) :
    Prop where
  name : n.name = p.name
  declaredType : n.declaredType = F.declaredName p.type
  nullable : n.nullable = (F.describe p.type).nullable
  shape : n.shape = (F.describe p.type).shape.tag
  category : n.category = (F.describe p.type).shape.category?
  values : n.values = (F.describe p.type).kind.values?
  operators : n.operators = (F.describe p.type).shape.operators
  properties : n.properties.map (·.map Schema.name) =
    if 0 < budget then (F.shown? o p.type).map (·.map FieldDescriptor.name) else none
  element : n.element.map Schema.name = (F.describe p.type).kind.element?.map (F.describe · |>.name)

namespace TypeFamily

variable {F : TypeFamily} {o : Bool} {depth : Nat} {p : Place} {s : Schema}

/-! ### Following addresses -/

/-- A node has a property at a position if the type has a visible field there, and the budget
reaches below the node. -/
theorem property_of_schemaAt (h : F.schemaAt o (depth + 1) p.name p.type = some s) (i : Nat) :
    ((depth = 0 ∨ (F.shown? o p.type).bind (·[i]?) = none) ∧ s.properties.bind (·[i]?) = none) ∨
    ∃ f s', 0 < depth ∧ (F.shown? o p.type).bind (·[i]?) = some f ∧
      s.properties.bind (·[i]?) = some s' ∧ F.schemaAt o depth f.name f.type = some s' := by
  obtain ⟨hf | hf, hs⟩ | ⟨fields, ss, hd, hf, hs, hfields⟩ := properties_of_schemaAt h
  · exact .inl ⟨.inl hf, by rw [hs]; rfl⟩
  · exact .inl ⟨.inr (by rw [hf]; rfl), by rw [hs]; rfl⟩
  · rw [hf, hs]
    obtain ⟨hf, hs⟩ | ⟨f, s', hf, hs, hfs⟩ := getElem?_of_forall₂ hfields i
    · exact .inl ⟨.inr hf, hs⟩
    · exact .inr ⟨f, s', hd, hf, hs, hfs⟩

/-- A node has an element if the type has elements. -/
theorem element_of_schemaAt (h : F.schemaAt o (depth + 1) p.name p.type = some s) :
    ((F.describe p.type).kind.element? = none ∧ s.element = none) ∨
    ∃ e s', (F.describe p.type).kind.element? = some e ∧ s.element = some s' ∧
      F.schemaAt o (depth + 1) (F.describe e).name e = some s' := by
  obtain ⟨ht, rfl⟩ := schemaAt_eq_some h
  simp only [bareNode, Schema.element]
  cases he : (F.describe p.type).kind.element? with
  | none => exact .inl ⟨rfl, rfl⟩
  | some e =>
      have hne : ¬ F.Hidden o e := fun hh => ht (.element (Kind.element?_eq_some.mp he) hh)
      obtain ⟨s', hs'⟩ := exists_schemaAt (F.describe e).name (Nat.succ_pos depth) hne
      exact .inr ⟨e, s', rfl, hs', hs'⟩

/-- The node at an address is the schema of the type at the address, for what the address leaves of
the depth. -/
theorem at?_of_schemaAt (h : F.schemaAt o (depth + 1) p.name p.type = some s) (a : List Step) :
    s.at? a =
      if Step.cost a ≤ depth then
        (F.at? o p a).bind fun q => F.schemaAt o (depth + 1 - Step.cost a) q.name q.type
      else none := by
  -- a step to a property takes one from the depth, a step to the element leaves it
  induction a generalizing depth p s with
  | nil =>
      rw [Step.cost_nil, if_pos (Nat.zero_le _)]
      exact h.symm
  | cons step a ih =>
      cases step with
      | field i =>
          rw [Schema.at?, TypeFamily.at?, Step.cost_field, Nat.succ_sub_succ]
          obtain ⟨hd | hf, hs⟩ | ⟨f, s', hd, hf, hs, hfs⟩ := property_of_schemaAt h i
          · rw [hs, if_neg (by rw [hd]; exact Nat.not_succ_le_zero _)]
            rfl
          · rw [hs, hf]
            exact (ite_self none).symm
          · obtain ⟨depth, rfl⟩ := Nat.exists_eq_succ_of_ne_zero (Nat.pos_iff_ne_zero.mp hd)
            rw [hs, hf]
            simp only [Option.bind_some, ih (p := ⟨f.name, f.type⟩) hfs, Nat.succ_le_succ_iff]
      | element =>
          rw [Schema.at?, TypeFamily.at?, Step.cost_element]
          obtain ⟨he, hs⟩ | ⟨e, s', he, hs, hes⟩ := element_of_schemaAt h
          · rw [he, hs]
            exact (ite_self none).symm
          · rw [he, hs]
            exact ih hes

/-! ### What nodes say -/

theorem name_of_schemaAt {name : String} {t : TypeExpr}
    (h : F.schemaAt o (depth + 1) name t = some s) : s.name = name := by
  obtain ⟨-, rfl⟩ := schemaAt_eq_some h
  rfl

theorem names_of_forall₂ {fields : List FieldDescriptor} {ss : List Schema}
    (h : List.Forall₂ (fun f s => F.schemaAt o (depth + 1) f.name f.type = some s) fields ss) :
    ss.map Schema.name = fields.map FieldDescriptor.name := by
  induction h with
  | nil => rfl
  | cons hfs _ ih => rw [List.map_cons, List.map_cons, ih, name_of_schemaAt hfs]

/-- The schema of a type says what its descriptor says. -/
theorem describes_of_schemaAt (h : F.schemaAt o (depth + 1) p.name p.type = some s) :
    s.Describes F o depth p := by
  have helement : s.element.map Schema.name =
      (F.describe p.type).kind.element?.map (F.describe · |>.name) := by
    obtain ⟨he, hs⟩ | ⟨e, s', he, hs, hes⟩ := element_of_schemaAt h
    · rw [he, hs]; rfl
    · rw [he, hs, Option.map_some, Option.map_some, name_of_schemaAt hes]
  have hproperties : s.properties.map (·.map Schema.name) =
      if 0 < depth then (F.shown? o p.type).map (·.map FieldDescriptor.name) else none := by
    obtain ⟨hd | hf, hs⟩ | ⟨fields, ss, hd, hf, hs, hfields⟩ := properties_of_schemaAt h
    · rw [hs, hd]; rfl
    · rw [hs, hf]; exact (ite_self none).symm
    · obtain ⟨depth, rfl⟩ := Nat.exists_eq_succ_of_ne_zero (Nat.pos_iff_ne_zero.mp hd)
      rw [hs, hf, if_pos hd]
      exact congrArg some (names_of_forall₂ hfields)
  obtain ⟨-, rfl⟩ := schemaAt_eq_some h
  exact ⟨rfl, rfl, rfl, rfl, rfl, rfl, rfl, hproperties, helement⟩

/-! ### Visibility -/

/-- No address leads to a hidden type. -/
theorem not_hidden_of_at? {q : Place} (hp : ¬ F.Hidden o p.type) {a : List Step}
    (h : F.at? o p a = some q) : ¬ F.Hidden o q.type := by
  induction a generalizing p with
  | nil => cases h; exact hp
  | cons step a ih =>
      cases step with
      | field i =>
          obtain ⟨f, hf, h⟩ := Option.bind_eq_some_iff.mp h
          obtain ⟨shown, hshown, hf⟩ := Option.bind_eq_some_iff.mp hf
          obtain ⟨fields, -, rfl⟩ := Option.map_eq_some_iff.mp hshown
          have hv : F.Visible o f :=
            of_decide_eq_true (List.mem_filter.mp (List.mem_of_getElem? hf)).2
          exact ih hv.2 h
      | element =>
          obtain ⟨e, he, h⟩ := Option.bind_eq_some_iff.mp h
          exact ih (fun hh => hp (.element (Kind.element?_eq_some.mp he) hh)) h

/-- A schema has a node where the types have one, as far as the depth goes. -/
theorem isSome_at? (h : F.schemaAt o (depth + 1) p.name p.type = some s) (a : List Step) :
    (s.at? a).isSome ↔ Step.cost a ≤ depth ∧ (F.at? o p a).isSome := by
  rw [at?_of_schemaAt h]
  by_cases hc : Step.cost a ≤ depth
  · rw [if_pos hc]
    cases hq : F.at? o p a with
    | none => simp
    | some q =>
        -- the type at the address is not hidden, and the address leaves it some depth
        obtain ⟨n, hn⟩ := exists_schemaAt q.name (Nat.sub_pos_of_lt (Nat.lt_succ_of_le hc))
          (not_hidden_of_at? (schemaAt_eq_some h).1 hq)
        exact iff_of_true (Option.isSome_iff_exists.mpr ⟨n, hn⟩) ⟨hc, rfl⟩
  · rw [if_neg hc]
    exact iff_of_false nofun fun hh => hc hh.1

/-- A node of a schema says what the descriptor of the type at its address says. -/
theorem describes_of_at? (h : F.schemaAt o (depth + 1) p.name p.type = some s) {a : List Step}
    {n : Schema} (hn : s.at? a = some n) :
    ∃ q, F.at? o p a = some q ∧ n.Describes F o (depth - Step.cost a) q := by
  rw [at?_of_schemaAt h] at hn
  split at hn
  · rename_i hc
    obtain ⟨q, hq, hn⟩ := Option.bind_eq_some_iff.mp hn
    rw [Nat.succ_sub hc] at hn
    exact ⟨q, hq, describes_of_schemaAt hn⟩
  · cases hn

/-- **Visibility.**  Whatever has been compiled before, a type has a schema unless the depth is
none or the type is hidden.  The schema has a node at an address if there is a type at the address
among the visible fields, at a cost below the depth; and the node says what the descriptor of this
type says, down to the names of its visible fields in order, if the cost leaves budget for them. -/
theorem compile_visibility {c : SchemaCache} (hc : c.Reached F) (t : TypeExpr) (depth : Nat)
    (o : Bool) :
    ((c.compile F t depth o).1 = none ↔ depth = 0 ∨ F.Hidden o t) ∧
    ∀ stored, (c.compile F t depth o).1 = some stored → ∀ a,
      ((stored.schema.at? a).isSome ↔
        Step.cost a < depth ∧ (F.at? o (F.place t) a).isSome) ∧
      ∀ n, stored.schema.at? a = some n → ∃ p, F.at? o (F.place t) a = some p ∧
        n.Describes F o (depth - 1 - Step.cost a) p := by
  have hschema := (SchemaCache.Sound.of_reached hc).compile_schema t depth o
  refine ⟨?_, fun stored hstored a => ?_⟩
  · rw [← Option.map_eq_none_iff, hschema]
    exact schemaAt_eq_none
  · rw [hstored] at hschema
    cases depth with
    | zero => cases hschema
    | succ depth =>
        have h : F.schemaAt o (depth + 1) (F.place t).name (F.place t).type =
            some stored.schema := hschema.symm
        refine ⟨?_, fun n hn => describes_of_at? h hn⟩
        rw [isSome_at? h, Nat.lt_succ_iff]

/-- The schema of a list of people has a node for the manager of each, and none for the hash of a
password or the manager of a manager. -/
theorem people_visibility :
    SchemaCache.Reached Sample.family .empty ∧
      ∃ stored,
        (SchemaCache.empty.compile Sample.family (.list Sample.person.type) 2 false).1 =
          some stored ∧
        (stored.schema.at? [.element, .field 8]).isSome ∧
        ¬ (stored.schema.at? [.element, .field 9]).isSome ∧
        ¬ (stored.schema.at? [.element, .field 8, .field 8]).isSome := by
  obtain ⟨hnone, hsome⟩ :=
    compile_visibility .empty (F := Sample.family) (.list Sample.person.type) 2 false
  obtain ⟨stored, h⟩ := Option.ne_none_iff_exists'.mp (mt hnone.mp (by decide))
  refine ⟨.empty, stored, h, (hsome stored h _).1.mpr (by decide), ?_, ?_⟩
  · exact mt (hsome stored h _).1.mp (by decide)
  · exact mt (hsome stored h _).1.mp (by decide)

end TypeFamily

end RecordFilter
