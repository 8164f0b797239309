import RecordFilter.Proofs.Outcome
import RecordFilter.Proofs.Query.StableSort
import RecordFilter.Query.Execute
import RecordFilter.Samples

/-!
# The pages of an answer

An answered request counts the items that satisfy its predicate and cuts one page out of their
stable order (`SortKey.StableOrder`).  The first item of a page is found in the arithmetic of 64
bits, where a product that is too great becomes the greatest number; no list of items reaches that
far.

* `execute_eq_ok`: what an answered request has gone through.
* `pageOf_saturatingMul`: the page cut out is the one of the exact product.
* `flatMap_take_drop`: the first `n` pages of a list, put together, are its beginning.
* `execute_page_of_stableSort`: the answer to a request, and all its pages.
-/

namespace RecordFilter

open Outcome

variable {α : Type}

/-! ### Cutting pages -/

theorem one_le_iff_ne_zero {n : UInt64} : 1 ≤ n ↔ n ≠ 0 := by
  rw [UInt64.le_iff_toNat_le, ne_eq, ← UInt64.toNat_inj]
  exact Nat.one_le_iff_ne_zero

theorem toNat_saturatingMul_of_lt {a b : UInt64} (h : a.toNat * b.toNat < UInt64.size) :
    (saturatingMul a b).toNat = a.toNat * b.toNat := by
  rw [saturatingMul, if_pos h]
  exact UInt64.toNat_ofNat_of_lt' h

/-- A product that is not below the bound stops at the greatest number. -/
theorem toNat_saturatingMul_of_not_lt {a b : UInt64} (h : ¬ a.toNat * b.toNat < UInt64.size) :
    (saturatingMul a b).toNat = UInt64.size - 1 := by
  rw [saturatingMul, if_neg h]
  exact UInt64.toNat_ofNat_of_lt' (by decide)

/-- The page cut out of a list is the one of the exact product, too great or not. -/
theorem pageOf_saturatingMul (i p : UInt64) {xs : List α} (h : xs.length < UInt64.size) :
    pageOf (saturatingMul i p) p xs = (xs.drop (i.toNat * p.toNat)).take p.toNat := by
  rw [pageOf]
  by_cases hlt : i.toNat * p.toNat < UInt64.size
  · rw [toNat_saturatingMul_of_lt hlt]
  · rw [toNat_saturatingMul_of_not_lt hlt, List.drop_eq_nil_of_le (Nat.le_sub_one_of_lt h),
      List.drop_eq_nil_of_le (Nat.le_trans (Nat.le_of_lt h) (Nat.not_lt.mp hlt))]

/-- The first `n` pages of a list, put together, are its beginning. -/
theorem flatMap_take_drop (p n : Nat) (xs : List α) :
    ((List.range n).flatMap fun i => (xs.drop (i * p)).take p) = xs.take (n * p) := by
  induction n with
  | zero => rw [Nat.zero_mul]; rfl
  | succ n ih =>
      rw [List.range_succ, List.flatMap_append, ih, List.flatMap_singleton, Nat.succ_mul,
        List.take_add]

/-! ### Answers -/

namespace Engine

variable {e : Engine} {view : α → Record} {items : List α} {r : Request} {page : Page α}

/-- The answer once the predicate, the page size and the keys are known. -/
def pageFor (view : α → Record) (items : List α) (predicate : Option Predicate) (size : UInt64)
    (keys : List SortKey) (index : UInt64) : Page α where
  items := pageOf (saturatingMul index size) size
    (sortItems view keys (matching view predicate items))
  totalCount := UInt64.ofNat (matching view predicate items).length
  pageIndex := index
  pageSize := size

/-- A request is answered when its filter is compiled, its page size is within the limits and its
sort paths resolve. -/
theorem execute_eq_ok :
    e.execute view items r = .ok page ↔ ∃ predicate size keys,
      e.predicate r.filter = .ok predicate ∧ e.pageSize r.page = .ok size ∧
      SortKey.resolve e.family e.element r.page.orderBy = .ok keys ∧
      pageFor view items predicate size keys r.page.pageIndex = page := by
  rw [execute, bind_eq_ok]
  refine exists_congr fun predicate => ?_
  rw [apply, bind_eq_ok]
  constructor
  · rintro ⟨hp, size, hs, h⟩
    obtain ⟨keys, hk, h⟩ := bind_eq_ok.mp h
    exact ⟨size, keys, hp, hs, hk, Except.ok.inj h⟩
  · rintro ⟨size, keys, hp, hs, hk, rfl⟩
    exact ⟨hp, size, hs, bind_eq_ok.mpr ⟨keys, hk, rfl⟩⟩

/-- A request that is not answered fails for its filter, or else for its page size, or else for its
sort paths. -/
theorem execute_eq_error {error : FilterError} :
    e.execute view items r = .error error ↔ e.predicate r.filter = .error error ∨
      (∃ predicate, e.predicate r.filter = .ok predicate) ∧ (e.pageSize r.page = .error error ∨
        (∃ size, e.pageSize r.page = .ok size) ∧
          SortKey.resolve e.family e.element r.page.orderBy = .error error) := by
  rw [execute, bind_eq_error]
  refine or_congr_right ⟨?_, ?_⟩
  · rintro ⟨predicate, hp, h⟩
    refine ⟨⟨predicate, hp⟩, ?_⟩
    rcases bind_eq_error.mp h with hs | ⟨size, hs, h⟩
    · exact .inl hs
    · rcases bind_eq_error.mp h with hk | ⟨keys, -, h⟩
      · exact .inr ⟨⟨size, hs⟩, hk⟩
      · cases h
  · rintro ⟨⟨predicate, hp⟩, h⟩
    refine ⟨predicate, hp, bind_eq_error.mpr ?_⟩
    exact h.imp id fun ⟨⟨size, hs⟩, hk⟩ => ⟨size, hs, bind_eq_error.mpr (.inl hk)⟩

theorem length_matching_le (predicate : Option Predicate) :
    (matching view predicate items).length ≤ items.length := by
  cases predicate with
  | none => exact Nat.le_refl _
  | some p => exact List.length_filter_le _ _

theorem length_matching_some (p : Predicate) :
    (matching view (some p) items).length = count view p items :=
  List.countP_eq_length_filter.symm

/-- Without a filter all items match, with one those that satisfy it. -/
theorem length_matching (predicate : Option Predicate) :
    (matching view predicate items).length =
      predicate.elim items.length fun p => count view p items := by
  cases predicate with
  | none => rfl
  | some p => exact length_matching_some p

/-- A page counts the items that satisfy the predicate; fewer than `2 ^ 64` items are counted
exactly. -/
theorem totalCount_of_execute {predicate : Option Predicate} (hlen : items.length < UInt64.size)
    (hp : e.predicate r.filter = .ok predicate) (h : e.execute view items r = .ok page) :
    page.totalCount.toNat = predicate.elim items.length fun p => count view p items := by
  obtain ⟨predicate', size, keys, hp', -, -, rfl⟩ := execute_eq_ok.mp h
  cases hp.symm.trans hp'
  have hle : (matching view predicate items).length < UInt64.size :=
    Nat.lt_of_le_of_lt (length_matching_le predicate) hlen
  exact (UInt64.toNat_ofNat_of_lt' hle).trans (length_matching predicate)

/-- The size of a page is the one asked for, or else the default, if it is within the limits. -/
theorem pageSize_eq (e : Engine) (p : PageRequest) :
    e.pageSize p =
      if 1 ≤ p.pageSize.getD e.settings.defaultPerPage ∧
          p.pageSize.getD e.settings.defaultPerPage ≤ e.settings.mostPerPage then
        .ok (p.pageSize.getD e.settings.defaultPerPage)
      else .error ⟨"pageSize",
        .pageSize (p.pageSize.getD e.settings.defaultPerPage) e.settings.mostPerPage⟩ := by
  rw [pageSize, ← ite_not]
  refine if_congr ?_ rfl rfl
  rw [not_or, UInt64.not_lt, one_le_iff_ne_zero]

/-- An accepted page size is at least one. -/
theorem pageSize_pos {p : PageRequest} {size : UInt64} (h : e.pageSize p = .ok size) :
    0 < size.toNat := by
  rw [pageSize_eq] at h
  split at h
  · rename_i hs
    cases h
    exact UInt64.le_iff_toNat_le.mp hs.1
  · cases h

/-- The first pages of a request. -/
def pages (e : Engine) (view : α → Record) (items : List α) (r : Request) (n : Nat) :
    Except FilterError (List (Page α)) :=
  (List.range n).mapM fun i =>
    e.execute view items { r with page := { r.page with pageIndex := UInt64.ofNat i } }

theorem pages_eq_ok {predicate : Option Predicate} {size : UInt64} {keys : List SortKey}
    (hp : e.predicate r.filter = .ok predicate) (hs : e.pageSize r.page = .ok size)
    (hk : SortKey.resolve e.family e.element r.page.orderBy = .ok keys) (n : Nat) :
    e.pages view items r n = .ok ((List.range n).map fun i =>
      pageFor view items predicate size keys (UInt64.ofNat i)) := by
  refine mapM_eq_ok.mpr (List.forall₂_map_right_iff.mpr (List.forall₂_same.mpr fun i _ => ?_))
  exact execute_eq_ok.mpr ⟨predicate, size, keys, hp, hs, hk, rfl⟩

/-- The items of a page are a slice of the sorted items. -/
theorem items_pageFor {predicate : Option Predicate} {size index : UInt64} {keys : List SortKey}
    {L : List α} (hlen : L.length < UInt64.size)
    (hL : sortItems view keys (matching view predicate items) = L) :
    (pageFor view items predicate size keys index).items =
      (L.drop (index.toNat * size.toNat)).take size.toNat := by
  rw [pageFor, hL, pageOf_saturatingMul index size hlen]

/-- **Answers.**  Let a request over fewer than `2 ^ 64` items be answered by a page.  The page
counts all items that satisfy the predicate of the request, without a predicate all items.  If
these can be compared at every sort key, they have one stable order by what the keys say stands
before what; the page is cut out of it at the exact product of its index and size, and the pages of
the request, put together, are it. -/
theorem execute_page_of_stableSort (hlen : items.length < UInt64.size)
    (h : e.execute view items r = .ok page) :
    ∃ predicate keys, e.predicate r.filter = .ok predicate ∧
      SortKey.resolve e.family e.element r.page.orderBy = .ok keys ∧
      e.pageSize r.page = .ok page.pageSize ∧ page.pageIndex = r.page.pageIndex ∧
      (∀ p, predicate = some p → page.totalCount.toNat = count view p items) ∧
      (predicate = none → page.totalCount.toNat = items.length) ∧
      (SortKey.ComparableItems view keys (matching view predicate items) →
        ∃ L, SortKey.StableOrder view keys (matching view predicate items) L ∧
          (∀ L', SortKey.StableOrder view keys (matching view predicate items) L' → L' = L) ∧
          page.items =
            (L.drop (page.pageIndex.toNat * page.pageSize.toNat)).take page.pageSize.toNat ∧
          L.length ≤ UInt64.size * page.pageSize.toNat ∧
          ∀ n ≤ UInt64.size, ∃ ps, e.pages view items r n = .ok ps ∧
            ps.flatMap Page.items = L.take (n * page.pageSize.toNat)) := by
  obtain ⟨predicate, size, keys, hp, hs, hk, rfl⟩ := execute_eq_ok.mp h
  have hle : (matching view predicate items).length < UInt64.size :=
    Nat.lt_of_le_of_lt (length_matching_le predicate) hlen
  have htotal : (UInt64.ofNat (matching view predicate items).length).toNat =
      (matching view predicate items).length := UInt64.toNat_ofNat_of_lt' hle
  refine ⟨predicate, keys, hp, hk, hs, rfl, ?_, ?_, fun hc => ?_⟩
  · rintro p rfl
    exact htotal.trans (length_matching_some p)
  · rintro rfl
    exact htotal
  · have hL := isStableSort_sortItems hc
    have hlenL : (sortItems view keys (matching view predicate items)).length < UInt64.size := by
      rw [hL.perm.length_eq]; exact hle
    refine ⟨_, (stableOrder_iff hc).mpr hL, fun L' hL' =>
      ((stableOrder_iff hc).mp hL').unique (preorderOn_orderItems hc) hL, items_pageFor hlenL rfl,
      Nat.le_trans (Nat.le_of_lt hlenL) (Nat.le_mul_of_pos_right _ (pageSize_pos hs)),
      fun n hn => ?_⟩
    refine ⟨_, pages_eq_ok hp hs hk n, ?_⟩
    rw [List.flatMap_map, ← flatMap_take_drop]
    refine List.flatMap_congr fun i hi => ?_
    have hi' : i < UInt64.size := Nat.lt_of_lt_of_le (List.mem_range.mp hi) hn
    rw [items_pageFor hlenL rfl, UInt64.toNat_ofNat_of_lt' hi']
    rfl

/-- A person of an age, with a name. -/
def aged (name : String) (age : IntKind.int32.Value) : Record :=
  [("name", .atom (.string name)), ("age", .atom (.integer .int32 age))]

/-- The adults among the guests, two of one age. -/
def adults : List Record :=
  [aged "Ann" ⟨30, by decide⟩, aged "Cid" ⟨41, by decide⟩, aged "Dan" ⟨30, by decide⟩,
    aged "Eve" ⟨22, by decide⟩]

/-- The adults, and a child. -/
def guests : List Record := aged "Bob" ⟨9, by decide⟩ :: adults

/-- The first page of two adults each, the eldest first. -/
def firstPage : Request where
  filter := some (.single ⟨"age", .greaterOrEqual, [.scalar (.int ⟨21, by decide⟩)]⟩)
  page := ⟨0, some 2, [⟨"age", .descending⟩]⟩

/-- The second page of them. -/
def secondPage : Request := { firstPage with page := { firstPage.page with pageIndex := 1 } }

/-- The adults in this order. -/
def eldestFirst : List Record :=
  [aged "Cid" ⟨41, by decide⟩, aged "Ann" ⟨30, by decide⟩, aged "Dan" ⟨30, by decide⟩,
    aged "Eve" ⟨22, by decide⟩]

/-- People under the settings that hold when nothing else is said. -/
def peopleEngine : Engine := ⟨Sample.family, Sample.person.type, .default⟩

/-- Every adult has an age, so that no two of them are incomparable. -/
theorem age_of_mem_adults {r : Record} (h : r ∈ adults) :
    ∃ n, FieldPath.value ⟨"age", none⟩ r = .atom (.integer .int32 n) := by
  simp only [adults, List.mem_cons, List.not_mem_nil, or_false] at h
  rcases h with rfl | rfl | rfl | rfl <;> exact ⟨_, rfl⟩

/-- The first page has the eldest of the adults and the first of two of one age.  They come out of
the stable order of the adults, in which these do not stand already. -/
theorem guests_firstPage :
    peopleEngine.execute id guests firstPage = .ok ⟨eldestFirst.take 2, 4, 0, 2⟩ ∧
      SortKey.StableOrder id [⟨⟨"age", none⟩, .descending⟩] adults eldestFirst ∧
      ¬ SortKey.StableOrder id [⟨⟨"age", none⟩, .descending⟩] adults adults := by
  have h : peopleEngine.execute id guests firstPage = .ok ⟨eldestFirst.take 2, 4, 0, 2⟩ := rfl
  refine ⟨h, ?_, fun hsorted => ?_⟩
  · obtain ⟨predicate, keys, hp, hk, -, -, -, -, hL⟩ :=
      execute_page_of_stableSort (show guests.length < UInt64.size by decide) h
    cases hp
    cases hk
    obtain ⟨L, hsort, -, -, -, hpages⟩ := hL <| by
      rintro k hk _ _ ⟨x, hx, rfl⟩ ⟨y, hy, rfl⟩ a b ha hb
      cases List.mem_singleton.mp hk
      obtain ⟨m, hm⟩ := age_of_mem_adults (r := x) hx
      obtain ⟨n, hn⟩ := age_of_mem_adults (r := y) hy
      cases hm.symm.trans ha
      cases hn.symm.trans hb
      rfl
    -- the two pages together are all of the order
    obtain ⟨ps, hps, htake⟩ := hpages 2 (by decide)
    cases hps
    have hall : eldestFirst = L.take 4 := htake
    have hlength : L.length = 4 := hsort.perm.length_eq
    rw [hall, List.take_of_length_le (Nat.le_of_eq hlength)]
    exact hsort
  · -- the first of the adults is younger than the second
    have hAnn := (List.pairwise_cons.mp hsorted.ordered).1 (aged "Cid" ⟨41, by decide⟩)
      (List.mem_cons_self ..)
    have hage : (30 : Int) < 41 := by decide
    exact hAnn (.here (show FieldValue.Less _ _ from .atom (.integer hage)))

end Engine

end RecordFilter
