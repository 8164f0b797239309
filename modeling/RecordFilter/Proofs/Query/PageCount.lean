import Mathlib.Algebra.Order.Floor.Div
import RecordFilter.Proofs.Query.Pages

/-!
# How many pages there are

The number of pages is the total divided by the page size, rounded up.  It is computed from the sum
of the two, which can go beyond 64 bits: a page size may be as great as the settings allow.  Then
the computation fails.

* `pageCount_of_fits`, `pageCount_of_overflow`: the number is right where the sum has 64 bits, and
  there is none where it has not.
* `take_drop_ne_nil_iff`: which slices of a list have items.
* `pageCount_of_answer`: the number of pages against the pages of an answered request.
* `widePage_uncounted`: a page of two items whose pages cannot be counted.
-/

namespace RecordFilter

variable {α : Type}

/-! ### Counting pages -/

/-- A sum that has 64 bits is the sum of the numbers. -/
theorem checkedAdd_of_lt {a b : UInt64} (h : a.toNat + b.toNat < UInt64.size) :
    ∃ sum, checkedAdd a b = some sum ∧ sum.toNat = a.toNat + b.toNat := by
  refine ⟨a + b, if_pos h, ?_⟩
  rw [UInt64.toNat_add]
  exact Nat.mod_eq_of_lt h

/-- A greater sum is none. -/
theorem checkedAdd_eq_none_iff {a b : UInt64} :
    checkedAdd a b = none ↔ UInt64.size ≤ a.toNat + b.toNat := by
  rw [checkedAdd, ← Nat.not_lt]
  split
  · exact iff_of_false (Option.some_ne_none _) (not_not.mpr ‹_›)
  · exact iff_of_true rfl ‹_›

namespace Page

variable {p : Page α}

/-- A page size of zero gives no pages, without any addition. -/
theorem pageCount_of_pageSize_zero (h : p.pageSize = 0) : p.pageCount = some 0 := by
  rw [pageCount, if_pos h]

theorem pageCount_of_pageSize_ne_zero (h : p.pageSize ≠ 0) :
    p.pageCount = (checkedAdd p.totalCount p.pageSize).map fun sum => (sum - 1) / p.pageSize := by
  rw [pageCount, if_neg h]
  exact (Option.map_eq_bind ..).symm

/-- The number of pages is exact where the sum has 64 bits. -/
theorem pageCount_of_fits (h : p.totalCount.toNat + p.pageSize.toNat < UInt64.size) :
    ∃ n, p.pageCount = some n ∧ n.toNat = p.totalCount.toNat ⌈/⌉ p.pageSize.toNat := by
  by_cases hzero : p.pageSize = 0
  · refine ⟨0, pageCount_of_pageSize_zero hzero, ?_⟩
    rw [hzero, Nat.ceilDiv_eq_add_pred_div]
    exact (Nat.div_zero _).symm
  · obtain ⟨sum, hsum, hvalue⟩ := checkedAdd_of_lt h
    have hpos : 0 < p.pageSize.toNat := Nat.pos_of_ne_zero fun h0 =>
      hzero (UInt64.toNat_inj.mp h0)
    have hone : (1 : UInt64) ≤ sum := by
      rw [UInt64.le_iff_toNat_le, hvalue]
      exact Nat.le_add_left_of_le hpos
    refine ⟨_, (pageCount_of_pageSize_ne_zero hzero).trans (congrArg _ hsum), ?_⟩
    rw [UInt64.toNat_div, UInt64.toNat_sub_of_le _ _ hone, hvalue, Nat.ceilDiv_eq_add_pred_div]
    rfl

/-- Beyond that there is no number, though there are items. -/
theorem pageCount_of_overflow (h : UInt64.size ≤ p.totalCount.toNat + p.pageSize.toNat) :
    p.pageCount = none ∧ 0 < p.totalCount.toNat ⌈/⌉ p.pageSize.toNat := by
  have htotal := p.totalCount.toNat_lt_size
  have hsize := p.pageSize.toNat_lt_size
  have hpos : 0 < p.pageSize.toNat := by omega
  have hzero : p.pageSize ≠ 0 := fun h0 => Nat.ne_of_gt hpos (congrArg UInt64.toNat h0)
  constructor
  · rw [pageCount_of_pageSize_ne_zero hzero, checkedAdd_eq_none_iff.mpr h]
    rfl
  · rw [Nat.ceilDiv_eq_add_pred_div]
    exact Nat.div_pos (by omega) hpos

/-- Where there is a number of pages, it is right. -/
theorem toNat_of_pageCount {n : UInt64} (h : p.pageCount = some n) :
    n.toNat = p.totalCount.toNat ⌈/⌉ p.pageSize.toNat := by
  rcases Nat.lt_or_ge (p.totalCount.toNat + p.pageSize.toNat) UInt64.size with hfits | hover
  · obtain ⟨n', hn', hvalue⟩ := pageCount_of_fits hfits
    cases h.symm.trans hn'
    exact hvalue
  · cases h.symm.trans (pageCount_of_overflow hover).1

end Page

/-! ### Pages with items -/

/-- Insertion one after the other moves items and loses none. -/
theorem foldl_insertBack_perm (cmp : α → α → Ordering) (rest back : List α) :
    (rest.foldl (fun back x => insertBack (precedes cmp) x back) back).Perm (rest ++ back) := by
  induction rest generalizing back with
  | nil => exact .refl _
  | cons x rest ih =>
      have hinsert : (rest ++ insertBack (precedes cmp) x back).Perm (rest ++ x :: back) :=
        (insertBack_perm x back).append_left rest
      exact (ih _).trans (hinsert.trans List.perm_middle)

/-- Sorting neither drops items nor adds any, whether they can be compared or not. -/
theorem sortItems_perm (view : α → Record) (keys : List SortKey) (items : List α) :
    (sortItems view keys items).Perm items := by
  have hback := foldl_insertBack_perm (SortKey.orderItems view keys) items []
  rw [List.append_nil] at hback
  rw [sortItems_eq_foldl]
  exact (List.reverse_perm _).trans hback

/-- A page cut out of a list has items if it begins before the end. -/
theorem take_drop_ne_nil_iff {xs : List α} {i size : Nat} (h : 0 < size) :
    (xs.drop (i * size)).take size ≠ [] ↔ i < xs.length ⌈/⌉ size := by
  rw [← Nat.not_le, ceilDiv_le_iff_le_mul h, Nat.not_le, Nat.mul_comm size, ne_eq,
    List.take_eq_nil_iff, List.drop_eq_nil_iff, not_or, Nat.not_le]
  exact and_iff_right (Nat.ne_of_gt h)

namespace Engine

/-- **Numbers of pages.**  For whatever numbers are in a page, no pages are counted if the page size
is zero.  The number is the total divided by the size, rounded up, if the two add up to less than
`2 ^ 64`; otherwise the computation fails, though there are items.  Let a request over fewer than
`2 ^ 64` items be answered by a page.  Then it is answered at any other index too, with a page that
has items if the index is below the total divided by the size, rounded up: if it is below the number
of pages, as long as there is one. -/
theorem pageCount_of_answer (e : Engine) (view : α → Record) (items : List α) (r : Request) :
    (∀ p : Page α, (p.pageSize = 0 → p.pageCount = some 0) ∧
      (p.totalCount.toNat + p.pageSize.toNat < UInt64.size →
        ∃ n, p.pageCount = some n ∧ n.toNat = p.totalCount.toNat ⌈/⌉ p.pageSize.toNat) ∧
      (UInt64.size ≤ p.totalCount.toNat + p.pageSize.toNat →
        p.pageCount = none ∧ 0 < p.totalCount.toNat ⌈/⌉ p.pageSize.toNat)) ∧
    ∀ page, items.length < UInt64.size → e.execute view items r = .ok page → ∀ i, ∃ page',
      e.execute view items { r with page := { r.page with pageIndex := i } } = .ok page' ∧
      page'.pageCount = page.pageCount ∧
      (page'.items ≠ [] ↔ i.toNat < page.totalCount.toNat ⌈/⌉ page.pageSize.toNat) ∧
      ∀ n, page.pageCount = some n → (page'.items ≠ [] ↔ i < n) := by
  refine ⟨fun p => ⟨Page.pageCount_of_pageSize_zero, Page.pageCount_of_fits,
    Page.pageCount_of_overflow⟩, fun page hlen h i => ?_⟩
  obtain ⟨predicate, size, keys, hp, hs, hk, rfl⟩ := execute_eq_ok.mp h
  have hle : (matching view predicate items).length < UInt64.size :=
    Nat.lt_of_le_of_lt (length_matching_le predicate) hlen
  have htotal : (UInt64.ofNat (matching view predicate items).length).toNat =
      (sortItems view keys (matching view predicate items)).length := by
    rw [(sortItems_perm view keys _).length_eq]
    exact UInt64.toNat_ofNat_of_lt' hle
  have hitems : (pageFor view items predicate size keys i).items ≠ [] ↔
      i.toNat < (pageFor view items predicate size keys r.page.pageIndex).totalCount.toNat ⌈/⌉
        size.toNat := by
    rw [items_pageFor (by rw [← htotal]; exact UInt64.toNat_lt_size _) rfl,
      take_drop_ne_nil_iff (pageSize_pos hs), pageFor, htotal]
  refine ⟨_, execute_eq_ok.mpr ⟨predicate, size, keys, hp, hs, hk, rfl⟩, rfl, hitems, ?_⟩
  intro n hn
  rw [hitems, UInt64.lt_iff_toNat_lt, Page.toNat_of_pageCount hn]
  rfl

/-- A page of two items each counts two pages for four adults: the second has items, and the third
has none. -/
theorem guests_pageCount :
    (∃ page, peopleEngine.execute id guests secondPage = .ok page ∧ page.pageCount = some 2 ∧
      page.items ≠ []) ∧
    ∃ page, peopleEngine.execute id guests
        { secondPage with page := { secondPage.page with pageIndex := 2 } } = .ok page ∧
      page.items = [] := by
  have h : peopleEngine.execute id guests secondPage = .ok ⟨eldestFirst.drop 2, 4, 1, 2⟩ := rfl
  obtain ⟨hcount, hanswer⟩ := pageCount_of_answer peopleEngine id guests secondPage
  obtain ⟨n, hn, hvalue⟩ := (hcount ⟨eldestFirst.drop 2, 4, 1, 2⟩).2.1 (by decide)
  obtain rfl : n = 2 := UInt64.toNat_inj.mp hvalue
  obtain ⟨page', hpage', -, -, hiff⟩ := hanswer _ (by decide) h 2
  refine ⟨⟨_, h, hn, List.cons_ne_nil _ _⟩, page', hpage', ?_⟩
  exact not_not.mp (mt (hiff 2 hn).mp (by decide))

/-- People under settings that allow the greatest page size there is. -/
def unlimited : Engine :=
  ⟨Sample.family, Sample.person.type,
    { Settings.default with mostPerPage := UInt64.ofNat (UInt64.size - 1) }⟩

/-- The settings are in order and two people are on one page of the greatest size, but the
number of its pages cannot be computed. -/
theorem widePage_uncounted :
    unlimited.settings.check = .ok () ∧
    ∃ page, unlimited.execute id [aged "Ann" ⟨30, by decide⟩, aged "Cid" ⟨41, by decide⟩]
        ⟨none, ⟨0, some (UInt64.ofNat (UInt64.size - 1)), []⟩⟩ = .ok page ∧
      page.items.length = 2 ∧ page.totalCount = 2 ∧ page.pageCount = none :=
  ⟨rfl, _, rfl, rfl, rfl, rfl⟩

end Engine

end RecordFilter
