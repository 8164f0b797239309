import RecordFilter.Proofs.Schema.History
import RecordFilter.Samples

/-!
# Under which type a schema is found again

A schema is kept under the identity in the descriptor of its type, and looked up under the type
itself.  The two are the same unless the type is a box: a box describes its content, identity and
all (`TypeExpr.unboxed`), while a lookup of the box asks for the box.

* `id_describe`: the identity in a descriptor is the type without the boxes around it.
* `keyedByIdentity_after`: a registry keeps nothing under a box, whatever its history.
* `compile_lookedUp`: what lookups of a type find after it has been compiled.
* `boxedPerson_missed`: a boxed person is compiled, and not found.
-/

namespace RecordFilter

/-- A type without the boxes around it. -/
def TypeExpr.unboxed : TypeExpr → TypeExpr
  | boxed t => t.unboxed
  | t => t

theorem TypeExpr.unboxed_unboxed (t : TypeExpr) : t.unboxed.unboxed = t.unboxed := by
  induction t with
  | boxed t ih => exact ih
  | _ => rfl

/-- Without its boxes a type is no box. -/
theorem TypeExpr.unboxed_ne_boxed (t content : TypeExpr) : t.unboxed ≠ .boxed content := by
  induction t with
  | boxed t ih => exact ih
  | _ => nofun

theorem TypeExpr.unboxed_of_ne_boxed {t : TypeExpr} (h : ∀ content, t ≠ .boxed content) :
    t.unboxed = t := by
  cases t with
  | boxed content => exact absurd rfl (h content)
  | _ => rfl

/-- The identity in a descriptor is the type without the boxes around it. -/
theorem TypeFamily.id_describe (F : TypeFamily) (t : TypeExpr) :
    (F.describe t).id = t.unboxed := by
  induction t with
  | defined key => exact F.id_describe_defined key
  | boxed t ih => exact ih
  | _ => rfl

variable {F : TypeFamily} {c : SchemaCache} {t : TypeExpr} {depth : Nat} {o : Bool}

/-! ### Keys of caches -/

namespace SchemaCache

/-- A compilation leaves what is kept under other keys. -/
theorem get?_compile_of_ne {key : SchemaKey} (h : key ≠ keyOf F t depth o) :
    (c.compile F t depth o).2.get? key = c.get? key :=
  compile_kept (P := fun c' => c'.get? key = c.get? key) rfl fun s _ => by
    rw [get?_insertIfAbsent, if_neg h]

/-- Entries are kept under identities, none of which is a box. -/
def KeyedByIdentity (c : SchemaCache) : Prop :=
  ∀ key, (c.get? key).isSome → key.type.unboxed = key.type

theorem KeyedByIdentity.empty : KeyedByIdentity .empty := fun _ h => nomatch h

theorem KeyedByIdentity.clear : KeyedByIdentity c.clear := fun _ h => nomatch h

/-- Compilation stores under identities only. -/
theorem KeyedByIdentity.compile (h : KeyedByIdentity c) (t : TypeExpr) :
    KeyedByIdentity (c.compile F t depth o).2 := by
  intro key hkey
  obtain hkey | ⟨rfl, -⟩ := (isSome_get?_compile t key).mp hkey
  · exact h key hkey
  · rw [keyOf, F.id_describe]
    exact t.unboxed_unboxed

end SchemaCache

namespace Registry

open SchemaCache

variable {r : Registry} {settings : Settings} {stored : StoredSchema}

/-- So does every operation. -/
theorem keyedByIdentity_step (h : KeyedByIdentity r.cache) (op : Operation) :
    KeyedByIdentity (step F r op).cache := by
  obtain ⟨-, hcache⟩ | ⟨-, depth, o, ts, hcache, -⟩ := cache_step (F := F) (r := r) op
  · rw [hcache]
    exact .clear
  · rw [hcache]
    exact compileAll_closed (fun c t hc => hc.compile t) h

/-- Whatever the history of a registry, its entries are kept under identities. -/
theorem keyedByIdentity_after (h : KeyedByIdentity r.cache) (ops : List Operation) :
    KeyedByIdentity (after F r ops).cache := by
  induction ops generalizing r with
  | nil => exact h
  | cons op ops ih => exact ih (keyedByIdentity_step h op)

/-! ### Lookups -/

/-- A type that is not an identity has no entry in such a cache. -/
theorem isCompiled_of_keyedByIdentity (h : KeyedByIdentity r.cache) (ht : t.unboxed ≠ t) :
    r.isCompiled t depth = false := by
  have hnone : ∀ o, r.cache.get? ⟨t, depth, o⟩ = none := fun o =>
    Option.not_isSome_iff_eq_none.mp (mt (h ⟨t, depth, o⟩) ht)
  rw [isCompiled, getCompiled?, hnone, hnone]
  rfl

/-- A compilation that is answered is found under the identity of its type, behind the entry that
honours ignore markers if it is not that entry itself. -/
theorem getCompiled?_unboxed (h : (r.compile F t depth o).1 = some stored) :
    (r.compile F t depth o).2.getCompiled? t.unboxed depth =
      some (if o then (r.cache.get? ⟨t.unboxed, depth, false⟩).getD stored else stored) := by
  have hkey : keyOf F t depth o = ⟨t.unboxed, depth, o⟩ := by rw [keyOf, F.id_describe]
  have hkept : (r.compile F t depth o).2.cache.get? ⟨t.unboxed, depth, o⟩ = some stored := by
    rw [← hkey]
    exact (compile_eq_get? t).symm.trans h
  cases o with
  | false => rw [getCompiled?, hkept]; rfl
  | true =>
      have hne : (⟨t.unboxed, depth, false⟩ : SchemaKey) ≠ keyOf F t depth true := fun heq =>
        Bool.false_ne_true (congrArg SchemaKey.overrideIgnores heq)
      have hother : (r.compile F t depth true).2.cache.get? ⟨t.unboxed, depth, false⟩ =
          r.cache.get? ⟨t.unboxed, depth, false⟩ := get?_compile_of_ne hne
      rw [getCompiled?, hother, hkept]
      cases r.cache.get? ⟨t.unboxed, depth, false⟩ <;> rfl

/-- A compilation of a box leaves what lookups of the box find. -/
theorem getCompiled?_of_boxed (ht : t.unboxed ≠ t) :
    (r.compile F t depth o).2.getCompiled? t depth = r.getCompiled? t depth := by
  have hkey : ∀ o', (⟨t, depth, o'⟩ : SchemaKey) ≠ keyOf F t depth o := by
    intro o' heq
    rw [keyOf, F.id_describe] at heq
    exact ht (congrArg SchemaKey.type heq).symm
  have hget : ∀ o', (r.compile F t depth o).2.cache.get? ⟨t, depth, o'⟩ =
      r.cache.get? ⟨t, depth, o'⟩ := fun o' => get?_compile_of_ne (hkey o')
  rw [getCompiled?, getCompiled?, hget, hget]

/-- **Lookups.**  Let a compilation in any registry be answered by an entry.  Then the type without
the boxes around it, which is the type itself unless that is a box, is found to be compiled: with
this entry, or with one that honours ignore markers if there was one and this does not.  What
lookups of a box find stays as it was, and is nothing in a registry that operations have led to. -/
theorem compile_lookedUp (h : (r.compile F t depth o).1 = some stored) :
    ((r.compile F t depth o).2.isCompiled t.unboxed depth = true ∧
      (r.compile F t depth o).2.getCompiled? t.unboxed depth =
        some (if o then (r.cache.get? ⟨t.unboxed, depth, false⟩).getD stored else stored)) ∧
    ((∀ content, t ≠ .boxed content) → t.unboxed = t) ∧
    ∀ content, t = .boxed content →
      (r.compile F t depth o).2.getCompiled? t depth = r.getCompiled? t depth ∧
      ∀ settings ops, r = after F (.withSettings settings) ops →
        (r.compile F t depth o).2.isCompiled t depth = false := by
  have hfound := getCompiled?_unboxed h
  refine ⟨⟨?_, hfound⟩, TypeExpr.unboxed_of_ne_boxed, ?_⟩
  · rw [isCompiled, hfound]
    rfl
  · rintro content rfl
    have hbox : (TypeExpr.boxed content).unboxed ≠ .boxed content :=
      TypeExpr.unboxed_ne_boxed _ content
    refine ⟨getCompiled?_of_boxed hbox, ?_⟩
    rintro settings ops rfl
    have hkeyed : KeyedByIdentity (after F (.withSettings settings) ops).cache :=
      keyedByIdentity_after .empty ops
    exact isCompiled_of_keyedByIdentity (hkeyed.compile _) hbox

/-- An optional box of a person is found with the entry that its compilation gives. -/
theorem optionalPerson_found :
    ∃ stored, ((Registry.withSettings .default).compile Sample.family
        (.optional (.boxed Sample.person.type)) 2 true).1 = some stored ∧
      ((Registry.withSettings .default).compile Sample.family
        (.optional (.boxed Sample.person.type)) 2 true).2.getCompiled?
          (.optional (.boxed Sample.person.type)) 2 = some stored :=
  ⟨_, rfl, (compile_lookedUp rfl).1.2⟩

/-- A boxed person is compiled and is not found to be, though the person in it is. -/
theorem boxedPerson_missed :
    ∃ stored, ((Registry.withSettings .default).compile Sample.family
        (.boxed Sample.person.type) 2 true).1 = some stored ∧
      ((Registry.withSettings .default).compile Sample.family
        (.boxed Sample.person.type) 2 true).2.isCompiled (.boxed Sample.person.type) 2 = false ∧
      ((Registry.withSettings .default).compile Sample.family
        (.boxed Sample.person.type) 2 true).2.getCompiled? Sample.person.type 2 = some stored :=
  ⟨_, rfl, rfl, rfl⟩

end Registry

end RecordFilter
