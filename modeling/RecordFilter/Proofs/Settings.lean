import RecordFilter.Command.Run
import RecordFilter.Proofs.Filter.Active
import RecordFilter.Proofs.Filter.Refusal
import RecordFilter.Proofs.Query.Pages
import RecordFilter.Proofs.Schema.Cache
import RecordFilter.Proofs.Schema.Hidden

/-!
# Settings that pass their check

What the check asks of settings is what the other parts need of them: a depth for schemas that
are asked for without one, a separator for sequences that name none, and a page size for requests
that name none.

* `check_eq_ok`: what the check asks.
* `separator_of_predicate`, `refusedForPageSize_iff`: what a filter or a request is refused for,
  whatever the settings are.
* `Sufficient`: what settings ensure for every type and every request.
* `check_sufficient`: settings that pass the check ensure all of it, and no others do.
-/

namespace RecordFilter

open Outcome

/-! ### The check -/

namespace Settings

variable {s : Settings}

/-- The greatest page size is checked by itself, but follows from the default one. -/
theorem check_eq_ok : s.check = .ok () ↔
    s.defaultDepth ≠ 0 ∧ s.separator ≠ "" ∧ 1 ≤ s.defaultPerPage ∧
      s.defaultPerPage ≤ s.mostPerPage := by
  have hmost (h : 1 ≤ s.defaultPerPage) (hle : s.defaultPerPage ≤ s.mostPerPage) :
      s.mostPerPage ≠ 0 :=
    one_le_iff_ne_zero.mp (UInt64.le_trans h hle)
  unfold check
  constructor
  · intro h
    split_ifs at h with hdepth hseparator hmost hdefault
    rw [not_or, UInt64.not_lt] at hdefault
    exact ⟨hdepth, hseparator, one_le_iff_ne_zero.mpr hdefault.1, hdefault.2⟩
  · rintro ⟨hdepth, hseparator, hpos, hle⟩
    rw [if_neg hdepth, if_neg hseparator, if_neg (hmost hpos hle), if_neg]
    rw [not_or, UInt64.not_lt]
    exact ⟨one_le_iff_ne_zero.mp hpos, hle⟩

/-- Settings are loaded only if they pass the check. -/
theorem check_of_load {content : Except String String} {refusal : String → String}
    (h : load content refusal = .ok s) : s.check = .ok () := by
  unfold load at h
  split at h
  · cases h
  · split at h
    · cases h
    · split at h
      · cases h
      · rename_i hcheck
        cases h
        exact hcheck

end Settings

/-! ### What requests are refused for -/

/-- A request is refused for a page size. -/
def RefusedForPageSize {β : Type} (x : Except FilterError β) : Prop :=
  ∃ path size most, x = .error ⟨path, .pageSize size most⟩

/-- A request is refused for a separator that is empty. -/
def RefusedForSeparator {β : Type} (x : Except FilterError β) : Prop :=
  ∃ path, x = .error ⟨path, .emptySeparator⟩

namespace FilterContext

open Objection

variable {ctx : FilterContext} {f : PropertyFilter}

/-- A refused coercion does not speak of the separator. -/
theorem emptySeparator_notMem_ofCoercion {α : Type} (x : Except CoercionError α) :
    Objection.emptySeparator ∉ ofCoercion x := by
  intro h
  obtain ⟨e, -, he⟩ := List.mem_map.mp h
  cases he

theorem emptySeparator_notMem_textObjections (raw : Raw) :
    Objection.emptySeparator ∉ textObjections raw :=
  emptySeparator_notMem_ofCoercion _

/-- Neither does an operand that its type refuses. -/
theorem emptySeparator_notMem_operandObjections (F : TypeFamily) (t : TypeExpr) (raw : Raw) :
    Objection.emptySeparator ∉ operandObjections F t raw := by
  unfold operandObjections
  split
  · exact emptySeparator_notMem_ofCoercion _
  · exact emptySeparator_notMem_ofCoercion _
  · exact List.not_mem_nil
  · exact List.not_mem_nil

/-- Only the operator that splits its argument can object to an empty separator. -/
theorem operator_of_mem_argumentObjections {F : TypeFamily} {default : String} {t : TypeExpr}
    {o : Operator} {arguments : List Raw}
    (h : Objection.emptySeparator ∈ argumentObjections F default t o arguments) :
    o = .inSequence := by
  cases o with
  | inSequence => rfl
  | isNull | isNotNull | collectionIsEmpty | collectionIsNotEmpty => cases h
  | stringContains =>
      obtain ⟨raw, -, h⟩ := List.mem_flatMap.mp h
      exact (emptySeparator_notMem_textObjections raw h).elim
  | equalTo | notEqualTo | lessThan | lessOrEqual | greaterThan | greaterOrEqual | inRange =>
      obtain ⟨raw, -, h⟩ := List.mem_flatMap.mp h
      exact (emptySeparator_notMem_operandObjections F t raw h).elim

/-- A null test takes the place of an equality only. -/
theorem operator_of_nullTestOr {o : Operator} {arguments : List Raw}
    (h : nullTestOr o arguments = .inSequence) : o = .inSequence := by
  obtain h' | h' | h' := nullTestOr_eq o arguments
  · rw [h'] at h; cases h
  · rw [h'] at h; cases h
  · exact h'.symm.trans h

/-- An empty separator is objected to where a sequence names it, or names none and the one for all
sequences is empty. -/
theorem emptySeparator_mem_objections (h : Objection.emptySeparator ∈ ctx.objections f) :
    f.operator = .inSequence ∧
      ((f.arguments[1]?.filter fun raw => !raw.isNull).map textOf).getD ctx.separator = "" := by
  simp only [objections, pathObjections, List.mem_append, mem_unlessMet, reduceCtorEq, and_false,
    or_false, false_or, List.mem_flatMap] at h
  obtain ⟨t, -, h⟩ := h
  have ho := operator_of_mem_argumentObjections h
  refine ⟨operator_of_nullTestOr ho, ?_⟩
  rw [ho] at h
  cases harguments : f.arguments with
  | nil => rw [harguments] at h; cases h
  | cons list rest =>
      rw [harguments] at h
      simp only [argumentObjections, sequenceObjections, List.mem_append, mem_unlessMet,
        List.mem_flatMap, emptySeparator_notMem_textObjections, reduceCtorEq, and_true, and_false,
        emptySeparator_notMem_operandObjections, exists_false, or_false, false_or] at h
      rw [List.getElem?_cons_succ, ← List.head?_eq_getElem?]
      exact not_not.mp h

/-- A filter is never refused for a page size. -/
theorem not_refusedForPageSize_predicate : ¬ RefusedForPageSize (ctx.predicate f) := by
  rintro ⟨path, size, most, h⟩
  obtain ⟨-, ob, -, hob⟩ := exists_objection h
  cases hob

/-- A filter is refused for an empty separator only if it is a sequence that names a separator, or
one that is left to an empty separator. -/
theorem separator_of_predicate (h : RefusedForSeparator (ctx.predicate f)) :
    f.operator = .inSequence ∧
      ((f.arguments[1]?.filter fun raw => !raw.isNull).map textOf).getD ctx.separator = "" := by
  obtain ⟨path, h⟩ := h
  obtain ⟨-, ob, hmem, hob⟩ := exists_objection h
  cases hob
  exact emptySeparator_mem_objections hmem

/-- A tree is refused for what one of its active filters is refused for. -/
theorem exists_active_of_compile {t : FilterTree} {e : FilterError} (h : ctx.compile t = .error e) :
    ∃ u, t.Active u ∧ ctx.predicate u.first = .error e := by
  rw [← fault?_eq_some, fault?_compile] at h
  obtain ⟨u, hu, h⟩ := List.exists_of_findSome?_eq_some h
  exact ⟨u, FilterTree.mem_activeNodes.mp hu, fault?_eq_some.mp h⟩

end FilterContext

/-- A sort key is refused for its path only. -/
theorem SortKey.path_of_resolve {F : TypeFamily} {element : TypeExpr} {specs : List SortSpec}
    {e : FilterError} (h : resolve F element specs = .error e) :
    ∃ spec ∈ specs, ∃ fault, e = ⟨spec.path, .path fault⟩ := by
  obtain ⟨spec, hspec, h⟩ := exists_of_mapM_eq_error h
  split at h
  · cases h
  · cases h
    exact ⟨spec, hspec, _, rfl⟩

namespace Engine

variable {α : Type} {e : Engine} {view : α → Record} {items : List α} {r : Request}

/-- The error of a filter is that of one of its active nodes. -/
theorem exists_active_of_predicate {error : FilterError}
    (h : e.predicate r.filter = .error error) :
    ∃ tree u, r.filter = some tree ∧ tree.Active u ∧
      e.context.predicate u.first = .error error := by
  cases hfilter : r.filter with
  | none => rw [hfilter] at h; cases h
  | some tree =>
      rw [hfilter] at h
      obtain ⟨u, hu, h⟩ := FilterContext.exists_active_of_compile (map_eq_error.mp h)
      exact ⟨tree, u, rfl, hu, h⟩

/-- A page size is accepted where the one asked for, or else the default, is within the limits. -/
theorem exists_pageSize_iff {p : PageRequest} :
    (∃ size, e.pageSize p = .ok size) ↔
      1 ≤ p.pageSize.getD e.settings.defaultPerPage ∧
        p.pageSize.getD e.settings.defaultPerPage ≤ e.settings.mostPerPage := by
  rw [pageSize_eq]
  split
  · exact iff_of_true ⟨_, rfl⟩ ‹_›
  · exact iff_of_false nofun ‹_›

/-- A request whose filter has a predicate is refused for a page size outside the limits, and no
other request is refused for one. -/
theorem refusedForPageSize_iff :
    RefusedForPageSize (e.execute view items r) ↔
      (∃ predicate, e.predicate r.filter = .ok predicate) ∧
        ¬ (1 ≤ r.page.pageSize.getD e.settings.defaultPerPage ∧
          r.page.pageSize.getD e.settings.defaultPerPage ≤ e.settings.mostPerPage) := by
  constructor
  · rintro ⟨path, size, most, h⟩
    rcases execute_eq_error.mp h with h | ⟨hp, h | ⟨-, h⟩⟩
    · obtain ⟨tree, u, -, -, h⟩ := exists_active_of_predicate h
      exact (FilterContext.not_refusedForPageSize_predicate ⟨path, size, most, h⟩).elim
    · refine ⟨hp, fun hbounds => ?_⟩
      rw [pageSize_eq, if_pos hbounds] at h
      cases h
    · obtain ⟨spec, -, fault, he⟩ := SortKey.path_of_resolve h
      cases he
  · rintro ⟨hp, hbounds⟩
    have hsize := (e.pageSize_eq r.page).trans (if_neg hbounds)
    exact ⟨_, _, _, execute_eq_error.mpr (.inr ⟨hp, .inl hsize⟩)⟩

/-- A request is refused for an empty separator only if one of its active filters is. -/
theorem exists_active_of_refusedForSeparator (h : RefusedForSeparator (e.execute view items r)) :
    ∃ tree u, r.filter = some tree ∧ tree.Active u ∧
      RefusedForSeparator (e.context.predicate u.first) := by
  obtain ⟨path, h⟩ := h
  rcases execute_eq_error.mp h with h | ⟨-, h | ⟨-, h⟩⟩
  · obtain ⟨tree, u, htree, hu, h⟩ := exists_active_of_predicate h
    exact ⟨tree, u, htree, hu, path, h⟩
  · rw [pageSize_eq] at h
    split at h <;> cases h
  · obtain ⟨spec, -, fault, he⟩ := SortKey.path_of_resolve h
    cases he

end Engine

/-! ### The schema under the settings -/

namespace Registry

variable {r : Registry} {F : TypeFamily} {t : TypeExpr}

/-- Whatever has been kept, a type without an entry has no schema. -/
theorem schema?_of_compile {depth : Nat} {o : Bool} (h : (r.compile F t depth o).1 = none) :
    F.schema? t depth o = none := by
  obtain ⟨stored, -, heq⟩ | ⟨-, hs, -⟩ | ⟨s, -, -, heq⟩ :=
    SchemaCache.compile_cases r.cache F t depth o
  · rw [compile, heq] at h; cases h
  · exact hs
  · rw [compile, heq] at h; cases h

/-- With a depth in the settings, only a type that is hidden has no schema under them. -/
theorem hidden_of_compileDefault (hdepth : r.settings.defaultDepth ≠ 0)
    (h : (r.compileDefault F t).1 = none) : F.Hidden r.settings.overrideIgnores t := by
  refine (TypeFamily.schemaAt_eq_none.mp (schema?_of_compile h)).resolve_left fun h0 => hdepth ?_
  exact UInt64.toNat_inj.mp h0

/-- A command refuses a type only for want of a schema under the settings. -/
theorem ensureFilterable_eq_error {s : Sample} {e : CommandError}
    (h : r.ensureFilterable s = .error e) :
    e = .noSchema s.typeName ∧ (r.compileDefault Sample.family s.type).1 = none := by
  have hs := map_eq_error.mp h
  unfold sampleSchema at hs
  split at hs
  · cases hs
  · rename_i hnone
    cases hs
    exact ⟨rfl, hnone⟩

end Registry

namespace Settings

/-! ### What settings ensure -/

/-- What settings ensure for all types, filters and requests. -/
structure Sufficient (s : Settings) : Prop where
  /-- Without a page size, the default one is taken, -/
  pageSize_default : ∀ e : Engine, e.settings = s → ∀ p : PageRequest, p.pageSize = none →
    e.pageSize p = .ok s.defaultPerPage
  /-- and the request is not refused for it. -/
  request_default : ∀ e : Engine, e.settings = s → ∀ {α : Type} (view : α → Record) (items : List α)
    (r : Request), r.page.pageSize = none → ¬ RefusedForPageSize (e.execute view items r)
  /-- A page size that is named is taken if it is within the limits, and only then, -/
  pageSize_named : ∀ e : Engine, e.settings = s → ∀ (p : PageRequest) (n : UInt64),
    p.pageSize = some n → ((∃ size, e.pageSize p = .ok size) ↔ 1 ≤ n ∧ n ≤ s.mostPerPage)
  /-- and the request is refused for it otherwise, unless its filter is. -/
  request_named : ∀ e : Engine, e.settings = s → ∀ {α : Type} (view : α → Record) (items : List α)
    (r : Request) (n : UInt64), r.page.pageSize = some n →
      (RefusedForPageSize (e.execute view items r) ↔
        (∃ predicate, e.predicate r.filter = .ok predicate) ∧ ¬ (1 ≤ n ∧ n ≤ s.mostPerPage))
  /-- Some page size is within the limits. -/
  exists_pageSize : ∃ n : UInt64, 1 ≤ n ∧ n ≤ s.mostPerPage
  /-- A sequence without a separator, or with null in its place, is not refused for it. -/
  separator_default : ∀ ctx : FilterContext, ctx.separator = s.separator → ∀ f : PropertyFilter,
    f.arguments[1]? = none ∨ f.arguments[1]? = some .null →
      ¬ RefusedForSeparator (ctx.predicate f)
  /-- Nor is a request, unless a sequence of its filter names a separator. -/
  request_separator : ∀ e : Engine, e.settings = s → ∀ {α : Type} (view : α → Record)
    (items : List α) (r : Request), RefusedForSeparator (e.execute view items r) →
      ∃ tree u, r.filter = some tree ∧ tree.Active u ∧ u.first.operator = .inSequence ∧
        ∃ raw, u.first.arguments[1]? = some raw ∧ raw.isNull = false ∧
          FilterContext.textOf raw = ""
  /-- Only a type that carries an ignore marker, or whose innermost elements do, has no schema, and
  only if markers count. -/
  schema : ∀ r : Registry, r.settings = s → ∀ (F : TypeFamily) (t : TypeExpr),
    (r.compileDefault F t).1 = none →
      s.overrideIgnores = false ∧ (F.describe t.innermost).ignored = true
  /-- Commands refuse no other type. -/
  filterable : ∀ r : Registry, r.settings = s → ∀ (sample : Sample) (e : CommandError),
    r.ensureFilterable sample = .error e →
      e = .noSchema sample.typeName ∧ s.overrideIgnores = false ∧
        (Sample.family.describe sample.type.innermost).ignored = true

variable {s : Settings}

/-- A separator that is named and not null is taken in place of the one for all sequences. -/
theorem named_of_refusedForSeparator {ctx : FilterContext} {f : PropertyFilter}
    (hseparator : ctx.separator ≠ "") (h : RefusedForSeparator (ctx.predicate f)) :
    f.operator = .inSequence ∧
      ∃ raw, f.arguments[1]? = some raw ∧ raw.isNull = false ∧ FilterContext.textOf raw = "" := by
  obtain ⟨ho, h⟩ := FilterContext.separator_of_predicate h
  refine ⟨ho, ?_⟩
  cases hgiven : f.arguments[1]?.filter fun raw => !raw.isNull with
  | none => rw [hgiven] at h; exact (hseparator h).elim
  | some raw =>
      rw [hgiven] at h
      obtain ⟨hraw, hnull⟩ := Option.filter_eq_some_iff.mp hgiven
      exact ⟨raw, hraw, by simpa using hnull, h⟩

/-- Settings that pass the check suffice for everything that takes them for granted. -/
theorem sufficient_of_check (h : s.check = .ok ()) : s.Sufficient := by
  obtain ⟨hdepth, hseparator, hpos, hle⟩ := check_eq_ok.mp h
  constructor
  case pageSize_default =>
    rintro e rfl p hp
    rw [e.pageSize_eq, hp]
    exact if_pos ⟨hpos, hle⟩
  case request_default =>
    rintro e rfl α view items r hp
    rw [Engine.refusedForPageSize_iff, hp]
    exact fun ⟨_, hbounds⟩ => hbounds ⟨hpos, hle⟩
  case pageSize_named =>
    rintro e rfl p n hp
    rw [Engine.exists_pageSize_iff, hp]
    rfl
  case request_named =>
    rintro e rfl α view items r n hp
    rw [Engine.refusedForPageSize_iff, hp]
    rfl
  case exists_pageSize => exact ⟨s.defaultPerPage, hpos, hle⟩
  case separator_default =>
    intro ctx hctx f hf hrefused
    obtain ⟨-, raw, hraw, hnull, -⟩ := named_of_refusedForSeparator (hctx ▸ hseparator) hrefused
    rcases hf with hf | hf
    · rw [hf] at hraw; cases hraw
    · rw [hf] at hraw; cases hraw; cases hnull
  case request_separator =>
    rintro e rfl α view items r hrefused
    obtain ⟨tree, u, htree, hu, hrefused⟩ := Engine.exists_active_of_refusedForSeparator hrefused
    exact ⟨tree, u, htree, hu, named_of_refusedForSeparator hseparator hrefused⟩
  case schema =>
    rintro r rfl F t hnone
    exact TypeFamily.hidden_iff_innermost.mp (Registry.hidden_of_compileDefault hdepth hnone)
  case filterable =>
    rintro r rfl sample e he
    obtain ⟨rfl, hnone⟩ := Registry.ensureFilterable_eq_error he
    exact ⟨rfl, TypeFamily.hidden_iff_innermost.mp (Registry.hidden_of_compileDefault hdepth hnone)⟩

/-- Settings that do not pass the check leave a type, a sequence or a request without what it
needs. -/
theorem check_of_sufficient (h : s.Sufficient) : s.check = .ok () := by
  -- the people of the samples have a name, which may be looked up in a sequence
  let e : Engine := ⟨Sample.family, Sample.person.type, s⟩
  refine check_eq_ok.mpr ⟨fun hdepth => ?_, fun hseparator => ?_, ?_⟩
  · have hnone : ((Registry.withSettings s).compileDefault Sample.family (.atomic .string)).1 =
        none := by
      have hsettings : (Registry.withSettings s).settings.defaultDepth = 0 := hdepth
      rw [Registry.compileDefault, hsettings]
      rfl
    cases (h.schema (.withSettings s) rfl Sample.family (.atomic .string) hnone).2
  · have hrefused : RefusedForSeparator
        (e.context.predicate ⟨"name", .inSequence, [.scalar (.text "a")]⟩) := by
      have hcontext : e.context = ⟨Sample.family, Sample.person.type, ""⟩ :=
        congrArg (FilterContext.mk Sample.family Sample.person.type) hseparator
      rw [hcontext]
      exact ⟨"name", rfl⟩
    exact h.separator_default e.context rfl _ (.inl rfl) hrefused
  · have hsize := h.pageSize_default e rfl ⟨0, none, []⟩ rfl
    exact Engine.exists_pageSize_iff.mp ⟨_, hsize⟩

/-- **The check of settings is exact.**  Settings that are loaded, and all that pass the check,
ensure what requests need of them; settings that ensure it pass the check. -/
theorem check_sufficient :
    (∀ (content : Except String String) (refusal : String → String) (s : Settings),
      load content refusal = .ok s → s.Sufficient) ∧
      ∀ s : Settings, s.check = .ok () ↔ s.Sufficient :=
  ⟨fun _ _ _ h => sufficient_of_check (check_of_load h),
    fun _ => ⟨sufficient_of_check, check_of_sufficient⟩⟩

/-- Settings under which a page holds no more than it does without being asked. -/
def narrow : Settings := ⟨1, false, ";", 2, 2⟩

/-- The text of these settings. -/
def narrowText : String :=
  "\x7b\"default_max_depth\":1,\"sequence_separator\":\";\"," ++
    "\"max_page_size\":2,\"default_page_size\":2\x7d"

/-- Under these settings, requests get a page of two, sequences are cut at semicolons, and a list of
audit entries has no schema for the marker of its elements. -/
theorem narrow_sufficient :
    load (.ok narrowText) (fun _ => "malformed document") = .ok narrow ∧
    Engine.pageSize ⟨Sample.family, Sample.person.type, narrow⟩ ⟨0, none, []⟩ = .ok 2 ∧
    ¬ RefusedForSeparator (FilterContext.predicate ⟨Sample.family, Sample.person.type, ";"⟩
      ⟨"name", .inSequence, [.scalar (.text "a;b"), .null]⟩) ∧
    ((Registry.withSettings narrow).compileDefault Sample.family
      (.list (.optional Sample.audit.type))).1 = none ∧
    (Sample.family.describe (TypeExpr.list (.optional Sample.audit.type)).innermost).ignored =
      true := by
  have hload : load (.ok narrowText) (fun _ => "malformed document") = .ok narrow :=
    eq_ok_of_toOption (by decide +kernel)
  have hnarrow := check_sufficient.1 _ _ narrow hload
  have hnone : ((Registry.withSettings narrow).compileDefault Sample.family
      (.list (.optional Sample.audit.type))).1 = none := rfl
  exact ⟨hload, hnarrow.pageSize_default _ rfl _ rfl,
    hnarrow.separator_default ⟨Sample.family, Sample.person.type, ";"⟩ rfl _ (.inr rfl), hnone,
    (hnarrow.schema _ rfl _ _ hnone).2⟩

end Settings

end RecordFilter
