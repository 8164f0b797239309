import Mathlib.Data.List.Induction
import RecordFilter.Proofs.Schema.Growth

/-!
# Histories of a registry

A history is a list of operations (`Registry.Operation`), and `Registry.after` is the registry that
they lead to.  What a registry answers depends on little of its history: on the marks, and on the
keys that have been compiled since the cache was last cleared (`CompiledSince`).

* `cache_step`: an operation clears the cache, or compiles types in order and does nothing else.
* `Recorded.run`: the invariant that ties a registry to its history is kept by further operations.
* `number_of_cleared`: after a clearing, entries have numbers that no entry had before.
* `historyIndependent_after`: what every registry that is reached answers.
-/

namespace RecordFilter.Registry

open SchemaCache

variable {F : TypeFamily} {r : Registry}

/-! ### Operations -/

/-- The operations on a registry. -/
inductive Operation where
  | mark (t : TypeExpr)
  | compile (t : TypeExpr) (depth : Nat) (overrideIgnores : Bool)
  | compileDefault (t : TypeExpr)
  | compileMarked (depth : Nat)
  | getCompiled (t : TypeExpr) (depth : Nat)
  | isCompiled (t : TypeExpr) (depth : Nat)
  | scan
  | size
  | clear

/-- The registry after an operation. -/
def step (F : TypeFamily) (r : Registry) : Operation → Registry
  | .mark t => r.mark F t
  | .compile t depth o => (r.compile F t depth o).2
  | .compileDefault t => (r.compileDefault F t).2
  | .compileMarked depth => (r.compileMarked F depth).2
  | .getCompiled .. | .isCompiled .. | .scan | .size => r
  | .clear => { r with cache := r.cache.clear }

/-- The registry after a history. -/
def after (F : TypeFamily) (r : Registry) (ops : List Operation) : Registry := ops.foldl (step F) r

theorem after_append (h h' : List Operation) : after F r (h ++ h') = after F (after F r h) h' :=
  List.foldl_append

/-- The keys that an operation compiles, given the settings and the identities marked. -/
def Operation.keys (F : TypeFamily) (settings : Settings) (marked : List TypeExpr) :
    Operation → List SchemaKey
  | .compile t depth o => [keyOf F t depth o]
  | .compileDefault t =>
    [keyOf F t settings.defaultDepth.toNat settings.overrideIgnores]
  | .compileMarked depth => marked.map fun t => ⟨t, depth, settings.overrideIgnores⟩
  | _ => []

/-- The identities of the marked types. -/
def markedIds (F : TypeFamily) (r : Registry) : List TypeExpr :=
  r.marked.map fun t => (F.describe t).id

/-- An operation clears the cache, or compiles types in order and does nothing else to it. -/
theorem cache_step (op : Operation) :
    (op = .clear ∧ (step F r op).cache = r.cache.clear) ∨
    (op ≠ .clear ∧ ∃ depth o ts, (step F r op).cache = (r.compileAll F depth o ts).2.cache ∧
      op.keys F r.settings (r.markedIds F) = ts.map (keyOf F · depth o)) := by
  cases op with
  | clear => exact .inl ⟨rfl, rfl⟩
  | compile t depth o => exact .inr ⟨nofun, depth, o, [t], rfl, rfl⟩
  | compileDefault t =>
      exact .inr ⟨nofun, r.settings.defaultDepth.toNat, r.settings.overrideIgnores, [t], rfl, rfl⟩
  | compileMarked depth =>
      refine .inr ⟨nofun, depth, r.settings.overrideIgnores, r.marked, rfl, ?_⟩
      rw [Operation.keys, markedIds, List.map_map]
      rfl
  | mark t =>
      refine .inr ⟨nofun, 0, false, [], ?_, rfl⟩
      rw [step, mark]
      split <;> rfl
  | getCompiled | isCompiled | scan | size => exact .inr ⟨nofun, 0, false, [], rfl, rfl⟩

/-- No operation changes the settings. -/
theorem step_settings (op : Operation) : (step F r op).settings = r.settings := by
  cases op with
  | mark t =>
      rw [step, mark]
      split <;> rfl
  | compileMarked depth => exact (compileAll_settings r.marked).1
  | _ => rfl

/-! ### Marks -/

variable {settings : Settings} {h : List Operation}

/-- The identity that an operation marks. -/
def Operation.markedId? (F : TypeFamily) : Operation → Option TypeExpr
  | .mark t => some (F.describe t).id
  | _ => none

/-- The identities that a history has marked, each where it is marked first. -/
def historyIds (F : TypeFamily) (h : List Operation) : List TypeExpr :=
  (h.filterMap (Operation.markedId? F)).eraseDups

theorem eraseDups_concat {α : Type} [DecidableEq α] (xs : List α) (x : α) :
    (xs ++ [x]).eraseDups = if x ∈ xs then xs.eraseDups else xs.eraseDups ++ [x] := by
  rw [List.eraseDups_append]
  by_cases hx : x ∈ xs
  · simp [List.removeAll, hx]
  · simp [List.removeAll, hx, List.eraseDups_cons]

theorem nodup_eraseDups {α : Type} [DecidableEq α] (xs : List α) : xs.eraseDups.Nodup := by
  induction xs using List.reverseRecOn with
  | nil => exact .nil
  | append_singleton xs x ih =>
      rw [eraseDups_concat]
      by_cases hx : x ∈ xs
      · rw [if_pos hx]
        exact ih
      · rw [if_neg hx, ← List.concat_eq_append]
        exact ih.concat (mt List.mem_eraseDups.mp hx)

/-- The last operation adds its mark, unless the type is marked already. -/
theorem historyIds_concat (op : Operation) :
    historyIds F (h ++ [op]) = match op.markedId? F with
      | none => historyIds F h
      | some id => if id ∈ historyIds F h then historyIds F h else historyIds F h ++ [id] := by
  unfold historyIds
  rw [List.filterMap_append, List.filterMap_cons, List.filterMap_nil]
  cases op.markedId? F with
  | none => rw [List.append_nil]
  | some id =>
      rw [eraseDups_concat]
      simp only [List.mem_eraseDups]

/-- Marking adds an identity that is not marked yet. -/
theorem markedIds_mark (t : TypeExpr) :
    (r.mark F t).markedIds F = if (F.describe t).id ∈ r.markedIds F then r.markedIds F
      else r.markedIds F ++ [(F.describe t).id] := by
  have hany : (r.marked.any fun m => (F.describe m).id = (F.describe t).id) = true ↔
      (F.describe t).id ∈ r.markedIds F := by
    simp [markedIds]
  rw [mark, if_congr hany rfl rfl]
  by_cases hmem : (F.describe t).id ∈ r.markedIds F
  · rw [if_pos hmem, if_pos hmem]
  · rw [if_neg hmem, if_neg hmem]
    simp [markedIds]

/-! ### Compiled keys -/

/-- A key has been compiled to a schema by an operation of a history, after which the cache has not
been cleared. -/
def CompiledSince (F : TypeFamily) (settings : Settings) (h : List Operation) (key : SchemaKey) :
    Prop :=
  ∃ before op after, h = before ++ op :: after ∧ .clear ∉ after ∧
    key ∈ op.keys F settings (historyIds F before) ∧ (key.schema? F).isSome

theorem not_compiledSince_nil (key : SchemaKey) : ¬ CompiledSince F settings [] key := by
  rintro ⟨before, op, after, heq, -⟩
  exact List.append_ne_nil_of_right_ne_nil before (List.cons_ne_nil op after) heq.symm

/-- What the last operation does to the keys that are compiled since the last clear. -/
theorem compiledSince_concat (op : Operation) (key : SchemaKey) :
    CompiledSince F settings (h ++ [op]) key ↔
      (op ≠ .clear ∧ CompiledSince F settings h key) ∨
        key ∈ op.keys F settings (historyIds F h) ∧ (key.schema? F).isSome := by
  constructor
  · rintro ⟨before, op', after, heq, hclear, hkey, hs⟩
    rcases List.eq_nil_or_concat after with rfl | ⟨after, last, rfl⟩
    · obtain ⟨rfl, hop⟩ := List.append_inj' heq rfl
      cases hop
      exact .inr ⟨hkey, hs⟩
    · rw [List.concat_eq_append] at heq hclear
      rw [← List.cons_append, ← List.append_assoc] at heq
      obtain ⟨rfl, hop⟩ := List.append_inj' heq rfl
      cases hop
      rw [List.mem_append, not_or, List.mem_singleton] at hclear
      exact .inl ⟨Ne.symm hclear.2, before, op', after, rfl, hclear.1, hkey, hs⟩
  · rintro (⟨hop, before, op', after, rfl, hclear, hkey, hs⟩ | ⟨hkey, hs⟩)
    · refine ⟨before, op', after ++ [op], by simp, ?_, hkey, hs⟩
      rw [List.mem_append, not_or, List.mem_singleton]
      exact ⟨hclear, Ne.symm hop⟩
    · exact ⟨h, op, [], rfl, List.not_mem_nil, hkey, hs⟩

/-! ### The invariant -/

/-- A registry as its history has left it. -/
structure Recorded (F : TypeFamily) (settings : Settings) (h : List Operation) (r : Registry) :
    Prop where
  settings_eq : r.settings = settings
  marked : r.markedIds F = historyIds F h
  sound : Sound F r.cache
  numbered : Numbered r.cache
  present : ∀ key, (r.cache.get? key).isSome ↔ CompiledSince F settings h key

theorem Recorded.withSettings (settings : Settings) :
    Recorded F settings [] (.withSettings settings) where
  settings_eq := rfl
  marked := rfl
  sound := .empty
  numbered := .empty
  present key := iff_of_false Bool.false_ne_true (not_compiledSince_nil key)

/-- One operation marks what the history says it marks. -/
theorem markedIds_step (hmarked : r.markedIds F = historyIds F h) (op : Operation) :
    (step F r op).markedIds F = historyIds F (h ++ [op]) := by
  rw [historyIds_concat]
  cases op with
  | mark t => rw [step, markedIds_mark, hmarked]; rfl
  | compileMarked depth =>
      rw [← hmarked]
      exact congrArg (List.map fun t => (F.describe t).id) (compileAll_settings r.marked).2
  | _ => exact hmarked

/-- Each operation leaves a registry as the longer history has left it. -/
theorem Recorded.step (hr : Recorded F settings h r) (op : Operation) :
    Recorded F settings (h ++ [op]) (step F r op) where
  settings_eq := (step_settings op).trans hr.settings_eq
  marked := markedIds_step hr.marked op
  sound := by
    obtain ⟨-, hcache⟩ | ⟨-, depth, o, ts, hcache, -⟩ := cache_step (F := F) (r := r) op
    · rw [hcache]; exact .clear
    · rw [hcache]; exact compileAll_closed (fun c t hc => hc.compile t depth o) hr.sound
  numbered := by
    obtain ⟨-, hcache⟩ | ⟨-, depth, o, ts, hcache, -⟩ := cache_step (F := F) (r := r) op
    · rw [hcache]; exact .clear
    · rw [hcache]; exact compileAll_closed (fun c t hc => hc.compile t) hr.numbered
  present key := by
    rw [compiledSince_concat, ← hr.present]
    obtain ⟨rfl, hcache⟩ | ⟨hop, depth, o, ts, hcache, hkeys⟩ := cache_step (F := F) (r := r) op
    · rw [hcache]
      refine iff_of_false Bool.false_ne_true ?_
      rintro (⟨hop, -⟩ | ⟨hkey, -⟩)
      · exact hop rfl
      · cases hkey
    · rw [hr.settings_eq, hr.marked] at hkeys
      rw [hcache, isSome_get?_compileAll, hkeys]
      simp only [hop, ne_eq, not_false_eq_true, true_and]

/-- Further operations leave a registry as the whole history has left it. -/
theorem Recorded.run (hr : Recorded F settings h r) (ops : List Operation) :
    Recorded F settings (h ++ ops) (after F r ops) := by
  induction ops generalizing h r with
  | nil => rwa [List.append_nil]
  | cons op ops ih =>
      rw [List.append_cons]
      exact ih (hr.step op)

/-! ### Numbers -/

/-- Operations without a clear keep every entry. -/
theorem grown_after {ops : List Operation} (hclear : .clear ∉ ops) :
    Grown r.cache (after F r ops).cache := by
  induction ops generalizing r with
  | nil => exact .refl _
  | cons op ops ih =>
      rw [List.mem_cons, not_or] at hclear
      obtain ⟨rfl, -⟩ | ⟨-, depth, o, ts, hcache, -⟩ := cache_step (F := F) (r := r) op
      · exact absurd rfl hclear.1
      · refine .trans ?_ (ih hclear.2)
        rw [hcache]
        exact grown_compileAll ts

/-- Numbers are not given again, not even after a clear. -/
theorem nextNumber_le_step (op : Operation) :
    r.cache.nextNumber ≤ (step F r op).cache.nextNumber := by
  obtain ⟨-, hcache⟩ | ⟨-, depth, o, ts, hcache, -⟩ := cache_step (F := F) (r := r) op
  · rw [hcache]
    exact Nat.le_refl _
  · rw [hcache]
    exact (grown_compileAll ts).next

/-- After a clearing, entries have numbers that no entry had before. -/
theorem number_of_cleared {ops : List Operation} (hclear : .clear ∈ ops) {key : SchemaKey}
    {stored : StoredSchema} (hk : (after F r ops).cache.get? key = some stored) :
    r.cache.nextNumber ≤ stored.number := by
  induction ops generalizing r with
  | nil => cases hclear
  | cons op ops ih =>
      by_cases hlater : .clear ∈ ops
      · exact Nat.le_trans (nextNumber_le_step op) (ih hlater hk)
      · -- nothing is kept by the last clearing, so the entry has been added since
        have hop : op = .clear := by
          rcases List.mem_cons.mp hclear with heq | hmem
          · exact heq.symm
          · exact absurd hmem hlater
        subst hop
        rcases (grown_after hlater).added hk with hkept | hnumber
        · cases hkept
        · exact hnumber

/-! ### Answers -/

/-- What a registry answers, in terms of its history. -/
structure HistoryIndependent (F : TypeFamily) (settings : Settings) (h : List Operation)
    (r : Registry) : Prop where
  /-- Each entry is what an empty cache compiles for its key. -/
  entry : ∀ key stored, r.cache.get? key = some stored →
    (SchemaCache.empty.compile F key.type key.depth key.overrideIgnores).1.map
      StoredSchema.schema = some stored.schema
  /-- A compilation answers with what an empty cache compiles. -/
  compile : ∀ t depth o, (r.compile F t depth o).1.map StoredSchema.schema =
    (SchemaCache.empty.compile F t depth o).1.map StoredSchema.schema
  /-- A compilation that answers with nothing leaves the registry as it is. -/
  absent : ∀ t depth o, (r.compile F t depth o).1 = none → (r.compile F t depth o).2 = r
  /-- What is compiled again, after whatever operations, is the entry that was kept, unless the
  cache has been cleared; then it is an entry with a new number. -/
  again : ∀ t depth o stored, (r.compile F t depth o).1 = some stored →
    ∀ (ops : List Operation) t', (F.describe t').id = (F.describe t).id →
      ∃ stored', ((after F (r.compile F t depth o).2 ops).compile F t' depth o).1 = some stored' ∧
        (.clear ∉ ops → stored' = stored) ∧ (.clear ∈ ops → stored'.number ≠ stored.number)
  /-- There are entries for the keys compiled since the cache was last cleared. -/
  present : ∀ key, (r.cache.get? key).isSome ↔ CompiledSince F settings h key
  /-- Looked up at a depth, the entry that honours ignore markers is preferred. -/
  preferred : ∀ t depth, CompiledSince F settings h ⟨t, depth, false⟩ →
    r.getCompiled? t depth = r.cache.get? ⟨t, depth, false⟩
  fallback : ∀ t depth, ¬ CompiledSince F settings h ⟨t, depth, false⟩ →
    r.getCompiled? t depth = r.cache.get? ⟨t, depth, true⟩
  isCompiled : ∀ t depth, r.isCompiled t depth ↔
    CompiledSince F settings h ⟨t, depth, false⟩ ∨ CompiledSince F settings h ⟨t, depth, true⟩
  /-- The cache has as many entries as there are such keys. -/
  size : ∃ keys : List SchemaKey, keys.Nodup ∧
    (∀ key, key ∈ keys ↔ CompiledSince F settings h key) ∧ r.cache.size = keys.length
  /-- Each identity that was marked is there once, in the order of the first marks. -/
  marked : r.markedIds F = historyIds F h ∧ (r.markedIds F).Nodup
  /-- The marked types are compiled in their order and answered with what is kept of them; what has
  no schema is left out. -/
  compileMarked : ∀ depth,
    ((r.compileMarked F depth).1 = (historyIds F h).filterMap fun t =>
      (r.compileMarked F depth).2.cache.get? ⟨t, depth, settings.overrideIgnores⟩) ∧
    (r.compileMarked F depth).1.map StoredSchema.schema = (historyIds F h).filterMap fun t =>
      (SchemaCache.empty.compile F t depth settings.overrideIgnores).1.map StoredSchema.schema

/-- What is compiled again is the entry that was kept, or one with a new number after a
clearing. -/
theorem Recorded.compile_again (hr : Recorded F settings h r) {t t' : TypeExpr} {depth : Nat}
    {o : Bool} {stored : StoredSchema} (hstored : (r.compile F t depth o).1 = some stored)
    (ops : List Operation) (hid : (F.describe t').id = (F.describe t).id) :
    ∃ stored', ((after F (r.compile F t depth o).2 ops).compile F t' depth o).1 = some stored' ∧
      (.clear ∉ ops → stored' = stored) ∧ (.clear ∈ ops → stored'.number ≠ stored.number) := by
  have hr' : Recorded F settings (h ++ [.compile t depth o]) (r.compile F t depth o).2 :=
    hr.step (.compile t depth o)
  have hkey : keyOf F t' depth o = keyOf F t depth o := by rw [keyOf, keyOf, hid]
  have hkept : (r.compile F t depth o).2.cache.get? (keyOf F t depth o) = some stored :=
    (compile_eq_get? t).symm.trans hstored
  by_cases hclear : .clear ∈ ops
  · -- the schema is compiled once more, under a number that no entry had before the clearing
    have hschema : ((after F (r.compile F t depth o).2 ops).compile F t' depth o).1.map
        StoredSchema.schema = F.schema? t' depth o := (hr'.run ops).sound.compile_schema t' depth o
    have hpresent : F.schema? t' depth o = some stored.schema := by
      rw [← schema?_keyOf, hkey]
      exact hr'.sound _ _ hkept
    obtain ⟨stored', hstored', -⟩ := Option.map_eq_some_iff.mp (hschema.trans hpresent)
    refine ⟨stored', hstored', fun hnot => absurd hclear hnot, fun _ => ?_⟩
    have hkept' : (after F (r.compile F t depth o).2 (ops ++ [.compile t' depth o])).cache.get?
        (keyOf F t depth o) = some stored' := by
      rw [after_append, ← hkey]
      exact (compile_eq_get? t').symm.trans hstored'
    have hle := number_of_cleared (List.mem_append_left _ hclear) hkept'
    exact Nat.ne_of_gt (Nat.lt_of_lt_of_le (hr'.numbered.below hkept) hle)
  · refine ⟨stored, ?_, fun _ => rfl, fun hmem => absurd hmem hclear⟩
    rw [← hkey] at hkept
    exact compile_of_get? ((grown_after hclear).kept hkept)

/-- A schema is found where one of its two keys is in the cache. -/
theorem isSome_getCompiled? (t : TypeExpr) (depth : Nat) :
    (r.getCompiled? t depth).isSome ↔
      (r.cache.get? ⟨t, depth, false⟩).isSome ∨ (r.cache.get? ⟨t, depth, true⟩).isSome := by
  unfold getCompiled?
  cases r.cache.get? ⟨t, depth, false⟩ <;> simp

/-- **Histories.**  After whatever operations on an empty registry, entries and answers are what an
empty cache compiles; instances, the number of entries and the marked types depend on the marks and
on the keys compiled since the cache was last cleared, and on nothing else. -/
theorem historyIndependent_after (F : TypeFamily) (settings : Settings) (h : List Operation) :
    HistoryIndependent F settings h (after F (.withSettings settings) h) := by
  have hr : Recorded F settings h (after F (.withSettings settings) h) :=
    (Recorded.withSettings settings).run h
  generalize after F (.withSettings settings) h = r at hr ⊢
  have hempty : ∀ t depth o, (SchemaCache.empty.compile F t depth o).1.map StoredSchema.schema =
      F.schema? t depth o := fun t depth o => Sound.empty.compile_schema t depth o
  constructor
  case entry =>
    intro key stored hk
    rw [hempty]
    exact hr.sound key stored hk
  case compile =>
    intro t depth o
    rw [hempty]
    exact hr.sound.compile_schema t depth o
  case absent =>
    intro t depth o hnone
    have hcache : (r.compile F t depth o).2.cache = r.cache := compile_of_none hnone
    exact congrArg (Registry.mk r.settings · r.marked) hcache
  case again =>
    intro t depth o stored hstored ops t' hid
    exact hr.compile_again hstored ops hid
  case present => exact hr.present
  case preferred =>
    intro t depth hfirst
    obtain ⟨stored, hk⟩ := Option.isSome_iff_exists.mp ((hr.present _).mpr hfirst)
    rw [getCompiled?, hk]
    rfl
  case fallback =>
    intro t depth hfirst
    have hk := Option.not_isSome_iff_eq_none.mp (mt (hr.present _).mp hfirst)
    rw [getCompiled?, hk]
    rfl
  case isCompiled =>
    intro t depth
    rw [Registry.isCompiled, isSome_getCompiled?, hr.present, hr.present]
  case size =>
    refine ⟨r.cache.entries.map Prod.fst, hr.numbered.distinct, fun key => ?_, ?_⟩
    · rw [mem_keys, hr.present]
    · exact (List.length_map Prod.fst).symm
  case marked =>
    refine ⟨hr.marked, ?_⟩
    rw [hr.marked]
    exact nodup_eraseDups _
  case compileMarked =>
    intro depth
    rw [← hr.marked, markedIds, List.filterMap_map, List.filterMap_map, ← hr.settings_eq]
    refine ⟨compileAll_eq_filterMap hr.sound r.marked, ?_⟩
    refine (compileAll_schemas hr.sound r.marked).trans (List.filterMap_congr fun t _ => ?_)
    rw [Function.comp_apply, hempty, TypeFamily.schema?_id]

end RecordFilter.Registry
