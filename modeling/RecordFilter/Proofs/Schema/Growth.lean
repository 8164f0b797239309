import Mathlib.Data.List.Nodup
import RecordFilter.Proofs.Schema.Cache

/-!
# Caches grow by compilations

A compilation adds an entry to a cache or leaves it as it is.  So entries stay under their keys and
keep their numbers, and what is added later has greater numbers.  Compilations in order answer with
what is kept in the end.

* `Grown`: what a cache has in common with one that it has grown from.
* `isSome_get?_compile`: under which keys there is an entry after a compilation.
* `Numbered`: entries have keys of their own and numbers below the next one.
* `compileAll_closed`: what single compilations keep is kept by compilations in order.
* `compileAll_eq_filterMap`, `compileAll_schemas`: what compilations in order answer with.
-/

namespace RecordFilter

variable {F : TypeFamily} {o : Bool} {depth : Nat}

/-- The schema that is compiled for a key. -/
def SchemaKey.schema? (F : TypeFamily) (key : SchemaKey) : Option Schema :=
  F.schema? key.type key.depth key.overrideIgnores

/-! ### Growing caches -/

namespace SchemaCache

variable {c c' c'' : SchemaCache}

/-- A cache that has grown keeps its entries, and numbers the new ones from where it stopped. -/
structure Grown (c c' : SchemaCache) : Prop where
  kept : ∀ {key stored}, c.get? key = some stored → c'.get? key = some stored
  added : ∀ {key stored}, c'.get? key = some stored →
    c.get? key = some stored ∨ c.nextNumber ≤ stored.number
  next : c.nextNumber ≤ c'.nextNumber

theorem Grown.refl (c : SchemaCache) : Grown c c := ⟨id, .inl, Nat.le_refl _⟩

theorem Grown.trans (h : Grown c c') (h' : Grown c' c'') : Grown c c'' where
  kept hk := h'.kept (h.kept hk)
  added {key stored} hk := by
    rcases h'.added hk with hk | hnumber
    · exact h.added hk
    · exact .inr (Nat.le_trans h.next hnumber)
  next := Nat.le_trans h.next h'.next

/-- The schema of a key is that of the type that it is the key of. -/
theorem schema?_keyOf (t : TypeExpr) : (keyOf F t depth o).schema? F = F.schema? t depth o :=
  TypeFamily.schema?_id t depth

/-- An insertion keeps every entry under its key. -/
theorem grown_insertIfAbsent (key : SchemaKey) (s : Schema) :
    Grown c (c.insertIfAbsent key s).2 := by
  cases hkey : c.get? key with
  | some stored =>
      rw [insertIfAbsent_of_get? hkey]
      exact .refl c
  | none =>
      have hget := fun key' => get?_insertIfAbsent (c := c) key key' s
      rw [insertIfAbsent_of_absent hkey] at hget ⊢
      refine ⟨fun {key' stored} hk => ?_, fun {key' stored} hk => ?_, Nat.le_succ _⟩
      · have hne : key' ≠ key := by
          rintro rfl
          rw [hkey] at hk
          cases hk
        rw [hget, if_neg hne, hk]
      · rw [hget] at hk
        split at hk
        · cases hk
          exact .inr (Nat.le_refl _)
        · exact .inl hk

/-- So does a compilation. -/
theorem grown_compile (t : TypeExpr) : Grown c (c.compile F t depth o).2 :=
  compile_kept (.refl c) fun s _ => grown_insertIfAbsent _ s

/-- A compilation answers with what is kept afterwards. -/
theorem compile_eq_get? (t : TypeExpr) :
    (c.compile F t depth o).1 = (c.compile F t depth o).2.get? (keyOf F t depth o) := by
  obtain ⟨stored, hk, heq⟩ | ⟨hk, -, heq⟩ | ⟨s, -, -, heq⟩ := compile_cases c F t depth o
  · rw [heq, hk]
  · rw [heq, hk]
  · rw [heq, get?_insertIfAbsent, if_pos rfl]

theorem compile_of_get? {t : TypeExpr} {stored : StoredSchema}
    (h : c.get? (keyOf F t depth o) = some stored) : (c.compile F t depth o).1 = some stored :=
  (compile_eq_get? t).trans ((grown_compile t).kept h)

/-- A compilation that answers with nothing keeps nothing. -/
theorem compile_of_none {t : TypeExpr} (h : (c.compile F t depth o).1 = none) :
    (c.compile F t depth o).2 = c := by
  obtain ⟨stored, -, heq⟩ | ⟨-, -, heq⟩ | ⟨s, -, -, heq⟩ := compile_cases c F t depth o
  · rw [heq] at h
    cases h
  · rw [heq]
  · rw [heq] at h
    cases h

/-- After a compilation there is an entry under its key, if there is a schema, and under each key
that had one. -/
theorem isSome_get?_compile (t : TypeExpr) (key : SchemaKey) :
    ((c.compile F t depth o).2.get? key).isSome ↔
      (c.get? key).isSome ∨ key = keyOf F t depth o ∧ (key.schema? F).isSome := by
  constructor
  · intro h
    obtain ⟨stored, hk, heq⟩ | ⟨hk, -, heq⟩ | ⟨s, -, hs, heq⟩ := compile_cases c F t depth o
    · rw [heq] at h; exact .inl h
    · rw [heq] at h; exact .inl h
    · rw [heq, get?_insertIfAbsent] at h
      split at h
      · rename_i hkey
        rw [hkey, schema?_keyOf, hs]
        exact .inr ⟨rfl, rfl⟩
      · exact .inl h
  · rintro (h | ⟨rfl, hs⟩)
    · obtain ⟨stored, hk⟩ := Option.isSome_iff_exists.mp h
      rw [(grown_compile t).kept hk]
      rfl
    · rw [schema?_keyOf] at hs
      obtain ⟨stored, hk, heq⟩ | ⟨-, hnone, -⟩ | ⟨s, -, -, heq⟩ := compile_cases c F t depth o
      · rw [heq, hk]; rfl
      · rw [hnone] at hs; cases hs
      · rw [heq, get?_insertIfAbsent, if_pos rfl]; rfl

/-- The entries have keys of their own, and numbers below the next one. -/
structure Numbered (c : SchemaCache) : Prop where
  distinct : (c.entries.map Prod.fst).Nodup
  below : ∀ {key stored}, c.get? key = some stored → stored.number < c.nextNumber

theorem mem_keys {key : SchemaKey} : key ∈ c.entries.map Prod.fst ↔ (c.get? key).isSome := by
  rw [get?, List.lookup_isSome_iff, List.mem_map]
  exact exists_congr fun entry => and_congr_right fun _ => by rw [beq_iff_eq, eq_comm]

theorem Numbered.empty : Numbered .empty := ⟨.nil, nofun⟩

theorem Numbered.clear : Numbered c.clear := ⟨.nil, nofun⟩

/-- A new entry takes a number above all others. -/
theorem Numbered.insertIfAbsent (h : Numbered c) (key : SchemaKey) (s : Schema) :
    Numbered (c.insertIfAbsent key s).2 := by
  cases hkey : c.get? key with
  | some stored =>
      rw [insertIfAbsent_of_get? hkey]
      exact h
  | none =>
      have hget := fun key' => get?_insertIfAbsent (c := c) key key' s
      rw [insertIfAbsent_of_absent hkey] at hget ⊢
      refine ⟨?_, fun {key' stored} hk => ?_⟩
      · have hnew : key ∉ c.entries.map Prod.fst := by
          rw [mem_keys, hkey]
          exact Bool.false_ne_true
        have hdistinct := h.distinct.concat hnew
        rw [List.concat_eq_append] at hdistinct
        rw [List.map_append]
        exact hdistinct
      · rw [hget] at hk
        split at hk
        · cases hk
          exact Nat.lt_succ_self _
        · exact Nat.lt_succ_of_lt (h.below hk)

theorem Numbered.compile (h : Numbered c) (t : TypeExpr) : Numbered (c.compile F t depth o).2 :=
  compile_kept h fun s _ => h.insertIfAbsent _ s

/-- Every cache that is reached has its entries numbered apart. -/
theorem Numbered.of_reached (h : Reached F c) : Numbered c := by
  induction h with
  | empty => exact .empty
  | compile _ t _ _ ih => exact ih.compile t
  | clear => exact .clear

end SchemaCache

namespace Registry

open SchemaCache

variable {r : Registry}

/-! ### Compilations in order -/

/-- What compilations keep is kept by compilations in order. -/
theorem compileAll_closed {P : SchemaCache → Prop} {ts : List TypeExpr}
    (hP : ∀ c t, P c → P (c.compile F t depth o).2) (h : P r.cache) :
    P (r.compileAll F depth o ts).2.cache := by
  induction ts generalizing r with
  | nil => exact h
  | cons t ts ih => exact ih (r := (r.compile F t depth o).2) (hP r.cache t h)

/-- Compiling ahead changes neither settings nor marks. -/
theorem compileAll_settings (ts : List TypeExpr) :
    (r.compileAll F depth o ts).2.settings = r.settings ∧
      (r.compileAll F depth o ts).2.marked = r.marked := by
  induction ts generalizing r with
  | nil => exact ⟨rfl, rfl⟩
  | cons t ts ih => exact ih (r := (r.compile F t depth o).2)

theorem grown_compileAll (ts : List TypeExpr) :
    Grown r.cache (r.compileAll F depth o ts).2.cache :=
  compileAll_closed (P := Grown r.cache) (fun _ t h => h.trans (grown_compile t)) (.refl _)

/-- Compiling ahead adds the keys of its types that have a schema. -/
theorem isSome_get?_compileAll (ts : List TypeExpr) (key : SchemaKey) :
    ((r.compileAll F depth o ts).2.cache.get? key).isSome ↔
      (r.cache.get? key).isSome ∨
        key ∈ ts.map (keyOf F · depth o) ∧ (key.schema? F).isSome := by
  induction ts generalizing r with
  | nil => simp [compileAll]
  | cons t ts ih =>
      rw [compileAll]
      dsimp only
      rw [ih, compile]
      dsimp only
      rw [isSome_get?_compile, List.map_cons, List.mem_cons, or_and_right, or_assoc]

/-- Compilations in order answer with what is kept afterwards, in their order. -/
theorem compileAll_eq_filterMap (hsound : Sound F r.cache) (ts : List TypeExpr) :
    (r.compileAll F depth o ts).1 =
      ts.filterMap fun t => (r.compileAll F depth o ts).2.cache.get? (keyOf F t depth o) := by
  induction ts generalizing r with
  | nil => rfl
  | cons t ts ih =>
      have hsound' : Sound F (r.compile F t depth o).2.cache := hsound.compile t depth o
      have hgrown : Grown (r.compile F t depth o).2.cache
          ((r.compile F t depth o).2.compileAll F depth o ts).2.cache := grown_compileAll ts
      have hanswer : (r.compile F t depth o).1 =
          (r.compile F t depth o).2.cache.get? (keyOf F t depth o) := compile_eq_get? t
      have hschema : (r.compile F t depth o).1.map StoredSchema.schema = F.schema? t depth o :=
        hsound.compile_schema t depth o
      rw [compileAll]
      dsimp only
      rw [ih hsound', List.filterMap_cons]
      cases h : (r.compile F t depth o).1 with
      | some stored =>
          rw [hgrown.kept (hanswer.symm.trans h)]
          rfl
      | none =>
          -- no later compilation gives a schema to a type that has none
          have hlast : ((r.compile F t depth o).2.compileAll F depth o ts).2.cache.get?
              (keyOf F t depth o) = none := by
            have hsoundAll : Sound F ((r.compile F t depth o).2.compileAll F depth o ts).2.cache :=
              compileAll_closed (fun c t hc => hc.compile t depth o) hsound'
            rw [h, ← schema?_keyOf] at hschema
            cases hlast : ((r.compile F t depth o).2.compileAll F depth o ts).2.cache.get?
                (keyOf F t depth o) with
            | none => rfl
            | some stored => exact absurd (hschema.trans (hsoundAll _ _ hlast)) nofun
          rw [hlast]
          rfl

/-- Compilations in order answer with the schemas of the types that have one. -/
theorem compileAll_schemas (hsound : Sound F r.cache) (ts : List TypeExpr) :
    (r.compileAll F depth o ts).1.map StoredSchema.schema =
      ts.filterMap fun t => F.schema? t depth o := by
  induction ts generalizing r with
  | nil => rfl
  | cons t ts ih =>
      have hschema : (r.compile F t depth o).1.map StoredSchema.schema = F.schema? t depth o :=
        hsound.compile_schema t depth o
      have hrest := ih (r := (r.compile F t depth o).2) (hsound.compile t depth o)
      rw [compileAll]
      dsimp only
      rw [List.map_append, hrest, List.filterMap_cons, ← hschema]
      cases (r.compile F t depth o).1 with
      | none => rfl
      | some stored => rfl

end Registry

end RecordFilter
