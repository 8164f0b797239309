import RecordFilter.Schema.Registry

/-!
# A cache keeps what is compiled

Whatever has been compiled before, a cache answers with the schema that is compiled without it.  A
schema is kept under the identity of its type, and types of one identity have one schema
(`schema?_id`).

* `get?_insertIfAbsent`: what is kept after one more schema, entry by entry.
* `Sound.of_reached`: the caches that compilations lead to keep compiled schemas only.
* `Sound.compile_schema`: such a cache answers with the schema of the type.
-/

namespace RecordFilter

variable {F : TypeFamily} {c : SchemaCache} {o : Bool}

/-! ### Identities -/

namespace TypeFamily

theorem id_describe_defined (key : String) :
    (F.describe (.defined key)).id = .defined key := by
  rw [describe]
  split <;> rfl

/-- A box has the node of its content. -/
theorem schemaNode_boxed (below : Option (String → TypeExpr → Option Schema)) (name : String)
    (t : TypeExpr) : F.schemaNode o below name (.boxed t) = F.schemaNode o below name t := rfl

/-- A node depends on the identity of its type only. -/
theorem schemaNode_id (below : Option (String → TypeExpr → Option Schema)) (name : String)
    (t : TypeExpr) :
    F.schemaNode o below name (F.describe t).id = F.schemaNode o below name t := by
  induction t with
  | atomic => rfl
  | defined key => rw [id_describe_defined]
  | optional => rfl
  | boxed t ih => rw [describe_boxed, ih, schemaNode_boxed]
  | list => rfl

/-- A description is that of the identity that it holds. -/
theorem describe_id (t : TypeExpr) : F.describe (F.describe t).id = F.describe t := by
  induction t with
  | atomic => rfl
  | defined key => rw [id_describe_defined]
  | optional => rfl
  | boxed t ih => rw [describe_boxed, ih]
  | list => rfl

/-- The identity of a type has the schema of the type. -/
theorem schema?_id (t : TypeExpr) (depth : Nat) :
    F.schema? (F.describe t).id depth o = F.schema? t depth o := by
  rw [schema?, schema?, describe_id]
  match depth with
  | 0 => rfl
  | 1 => exact schemaNode_id none _ t
  | depth + 2 => exact schemaNode_id _ _ t

end TypeFamily

/-! ### Entries -/

namespace SchemaCache

/-- What is in the cache is not replaced. -/
theorem insertIfAbsent_of_get? {key : SchemaKey} {stored : StoredSchema}
    (h : c.get? key = some stored) (s : Schema) : c.insertIfAbsent key s = (stored, c) := by
  rw [insertIfAbsent, h]

/-- What is not is added under the next number. -/
theorem insertIfAbsent_of_absent {key : SchemaKey} (h : c.get? key = none) (s : Schema) :
    c.insertIfAbsent key s =
      (⟨c.nextNumber, s⟩, ⟨c.entries ++ [(key, ⟨c.nextNumber, s⟩)], c.nextNumber + 1⟩) := by
  rw [insertIfAbsent, h]

/-- Only the key itself gains an entry, and only if it has none. -/
theorem get?_insertIfAbsent (key key' : SchemaKey) (s : Schema) :
    (c.insertIfAbsent key s).2.get? key' =
      if key' = key then some (c.insertIfAbsent key s).1 else c.get? key' := by
  cases h : c.get? key with
  | some stored =>
      rw [insertIfAbsent_of_get? h]
      split
      · rename_i hk
        rw [hk, h]
      · rfl
  | none =>
      rw [insertIfAbsent_of_absent h, get?, List.lookup_append]
      by_cases hk : key' = key
      · subst hk
        rw [if_pos rfl, List.lookup_cons_self, show c.entries.lookup key' = none from h]
        rfl
      · rw [if_neg hk, List.lookup_cons, beq_false_of_ne hk]
        exact Option.or_none

/-- What a type is kept under. -/
def keyOf (F : TypeFamily) (t : TypeExpr) (depth : Nat) (o : Bool) : SchemaKey :=
  ⟨(F.describe t).id, depth, o⟩

/-- A compilation finds an entry, or has nothing to keep, or keeps the schema of the type. -/
theorem compile_cases (c : SchemaCache) (F : TypeFamily) (t : TypeExpr) (depth : Nat) (o : Bool) :
    (∃ stored, c.get? (keyOf F t depth o) = some stored ∧
      c.compile F t depth o = (some stored, c)) ∨
    (c.get? (keyOf F t depth o) = none ∧ F.schema? t depth o = none ∧
      c.compile F t depth o = (none, c)) ∨
    (∃ s, c.get? (keyOf F t depth o) = none ∧ F.schema? t depth o = some s ∧
      c.compile F t depth o = (some (c.insertIfAbsent (keyOf F t depth o) s).1,
        (c.insertIfAbsent (keyOf F t depth o) s).2)) := by
  rw [compile, ← keyOf]
  cases hk : c.get? (keyOf F t depth o) with
  | some stored => exact .inl ⟨stored, rfl, rfl⟩
  | none =>
      cases hs : F.schema? t depth o with
      | none => exact .inr (.inl ⟨rfl, rfl, rfl⟩)
      | some s => exact .inr (.inr ⟨s, rfl, rfl, rfl⟩)

/-- What keeping the schema of a type keeps is kept by compiling the type. -/
theorem compile_kept {P : SchemaCache → Prop} {t : TypeExpr} {depth : Nat} (h : P c)
    (hinsert : ∀ s, F.schema? t depth o = some s →
      P (c.insertIfAbsent (keyOf F t depth o) s).2) : P (c.compile F t depth o).2 := by
  obtain ⟨stored, -, heq⟩ | ⟨-, -, heq⟩ | ⟨s, -, hs, heq⟩ := compile_cases c F t depth o
  · rw [heq]; exact h
  · rw [heq]; exact h
  · rw [heq]; exact hinsert s hs

/-! ### Sound caches -/

/-- What is kept under a key is the schema of its type. -/
def Sound (F : TypeFamily) (c : SchemaCache) : Prop :=
  ∀ key stored, c.get? key = some stored →
    F.schema? key.type key.depth key.overrideIgnores = some stored.schema

/-- The caches that compilations and clearings lead to from the empty one. -/
inductive Reached (F : TypeFamily) : SchemaCache → Prop
  | empty : Reached F .empty
  | compile {c : SchemaCache} (h : Reached F c) (t : TypeExpr) (depth : Nat) (o : Bool) :
    Reached F (c.compile F t depth o).2
  | clear {c : SchemaCache} (h : Reached F c) : Reached F c.clear

theorem Sound.empty : Sound F .empty := fun _ _ h => nomatch h

theorem Sound.clear : Sound F c.clear := fun _ _ h => nomatch h

/-- A cache stays sound if the schema of the key is added. -/
theorem Sound.insertIfAbsent (h : Sound F c) {key : SchemaKey} {s : Schema}
    (hs : F.schema? key.type key.depth key.overrideIgnores = some s) :
    Sound F (c.insertIfAbsent key s).2 := by
  intro key' stored hk
  rw [get?_insertIfAbsent] at hk
  split at hk
  · rename_i heq
    cases hk
    subst heq
    -- what was there already is sound, and what is new is the schema given
    cases hkey : c.get? key' with
    | some stored => rw [insertIfAbsent_of_get? hkey]; exact h _ _ hkey
    | none => rw [insertIfAbsent_of_absent hkey]; exact hs
  · exact h _ _ hk

/-- Compilation keeps a cache sound, both where it finds and where it adds a schema. -/
theorem Sound.compile (h : Sound F c) (t : TypeExpr) (depth : Nat) (o : Bool) :
    Sound F (c.compile F t depth o).2 := by
  refine compile_kept h fun s hs => ?_
  exact h.insertIfAbsent ((TypeFamily.schema?_id t depth).trans hs)

/-- Compilations keep compiled schemas only. -/
theorem Sound.of_reached (h : Reached F c) : Sound F c := by
  induction h with
  | empty => exact .empty
  | compile _ t depth o ih => exact ih.compile t depth o
  | clear => exact .clear

/-- **A cache answers with the schema of the type**, whether it was kept or is compiled now. -/
theorem Sound.compile_schema (h : Sound F c) (t : TypeExpr) (depth : Nat) (o : Bool) :
    (c.compile F t depth o).1.map StoredSchema.schema = F.schema? t depth o := by
  obtain ⟨stored, hk, heq⟩ | ⟨-, hs, heq⟩ | ⟨s, hk, hs, heq⟩ := compile_cases c F t depth o
  · rw [heq, ← TypeFamily.schema?_id]
    exact (h _ _ hk).symm
  · rw [heq, hs]; rfl
  · rw [heq, hs, insertIfAbsent_of_absent hk]; rfl

end SchemaCache

end RecordFilter
