import Mathlib.Data.List.Basic
import RecordFilter.Proofs.Order.Value

/-!
# Sorting is stable

`IsStableSort` says that one list is another in order, where items that compare equal keep their
order.  On items that are totally preordered there is at most one such list
(`IsStableSort.unique`), and `sortItems` is it.

* `BackSorted.insertBack`: inserting one more item keeps the list so far in order.
* `isStableSort_sortItems`: sorting by keys gives the one stable order, wherever the items can be
  compared at every key.
* `stableOrder_iff`: what this order is without comparisons, by what stands before what.
-/

namespace RecordFilter

open Std

variable {α : Type} {cmp : α → α → Ordering} {S : α → Prop}

/-- `ys` is `xs` in order, and items of `xs` that compare equal keep their order. -/
structure IsStableSort (cmp : α → α → Ordering) (xs ys : List α) : Prop where
  perm : ys.Perm xs
  sorted : ys.Pairwise fun x y => (cmp x y).isLE
  stable : ∀ z ∈ xs, (ys.filter fun y => cmp z y = .eq) = xs.filter fun x => cmp z x = .eq

/-! ### Uniqueness -/

variable {xs : List α}

/-- Items of which neither stands after the other are ties. -/
theorem PreorderOn.eq_of_isLE (h : PreorderOn S cmp) {a b : α} (ha : S a) (hb : S b)
    (hab : (cmp a b).isLE) (hba : (cmp b a).isLE) : cmp a b = .eq := by
  rw [h.swap hb ha] at hba
  revert hab hba
  cases cmp a b <;> decide

theorem PreorderOn.refl (h : PreorderOn S cmp) {a : α} (ha : S a) : cmp a a = .eq := by
  have hs := h.swap ha ha
  revert hs
  cases cmp a a <;> decide

/-- Ties of one item are ties of each other. -/
theorem PreorderOn.eq_of_eq_of_eq (h : PreorderOn S cmp) {a b c : α} (ha : S a) (hb : S b)
    (hc : S c) (hab : cmp a b = .eq) (hac : cmp a c = .eq) : cmp b c = .eq := by
  have hbc := h.congr_left (a := ⟨a, ha⟩) (b := ⟨b, hb⟩) (c := ⟨c, hc⟩) hab
  exact hbc.symm.trans hac

/-- A list in order is told by its members and, among equal ones, by their order. -/
theorem eq_of_sorted (h : PreorderOn S cmp) {ys zs : List α} (hS : ∀ y ∈ ys, S y)
    (perm : ys.Perm zs) (hys : ys.Pairwise fun x y => (cmp x y).isLE)
    (hzs : zs.Pairwise fun x y => (cmp x y).isLE)
    (stable : ∀ x, S x → (ys.filter fun y => cmp x y = .eq) = zs.filter fun y => cmp x y = .eq) :
    ys = zs := by
  induction ys generalizing zs with
  | nil => exact perm.nil_eq
  | cons y ys ih =>
      cases zs with
      | nil => exact absurd perm.symm.nil_eq (List.cons_ne_nil _ _).symm
      | cons z zs =>
          have hy : S y := hS y List.mem_cons_self
          have hz : S z := hS z (perm.mem_iff.mpr List.mem_cons_self)
          have hyz : (cmp y z).isLE := by
            rcases List.mem_cons.mp (perm.mem_iff.mpr (List.mem_cons_self (a := z))) with rfl | hm
            · rw [h.refl hz]; rfl
            · exact (List.pairwise_cons.mp hys).1 z hm
          have hzy : (cmp z y).isLE := by
            rcases List.mem_cons.mp (perm.mem_iff.mp (List.mem_cons_self (a := y))) with rfl | hm
            · rw [h.refl hy]; rfl
            · exact (List.pairwise_cons.mp hzs).1 y hm
          -- Both heads belong to the least class, whose members stand in the same order.
          have hhead := stable y hy
          rw [List.filter_cons_of_pos (by simp [h.refl hy]),
            List.filter_cons_of_pos (by simp [h.eq_of_isLE hy hz hyz hzy])] at hhead
          obtain ⟨rfl, -⟩ := List.cons_eq_cons.mp hhead
          refine congrArg _ (ih (fun x hx => hS x (List.mem_cons_of_mem _ hx)) perm.cons_inv
            (List.pairwise_cons.mp hys).2 (List.pairwise_cons.mp hzs).2 fun x hx => ?_)
          have hx' := stable x hx
          by_cases hxy : cmp x y = .eq
          · rw [List.filter_cons_of_pos (by simp [hxy]), List.filter_cons_of_pos (by simp [hxy])]
              at hx'
            exact (List.cons_eq_cons.mp hx').2
          · rwa [List.filter_cons_of_neg (by simp [hxy]), List.filter_cons_of_neg (by simp [hxy])]
              at hx'

/-- Items that compare equal keep their order exactly if every selection of such items is one of the
list in order too. -/
theorem filter_eq_iff_sublist (h : PreorderOn (· ∈ xs) cmp) {ys : List α} (perm : ys.Perm xs) :
    (∀ z ∈ xs, (ys.filter fun y => cmp z y = .eq) = xs.filter fun x => cmp z x = .eq) ↔
      ∀ zs : List α, zs.Sublist xs → (zs.Pairwise fun x y => cmp x y = .eq) → zs.Sublist ys := by
  constructor
  · intro hfilter zs hsub hties
    cases zs with
    | nil => exact List.nil_sublist ys
    | cons z zs =>
        have hz : z ∈ xs := hsub.subset List.mem_cons_self
        have hself : ((z :: zs).filter fun y => cmp z y = .eq) = z :: zs := by
          refine List.filter_eq_self.mpr fun y hy => decide_eq_true ?_
          rcases List.mem_cons.mp hy with rfl | hy
          · exact h.refl hz
          · exact (List.pairwise_cons.mp hties).1 y hy
        have hselect := hsub.filter fun y => cmp z y = .eq
        rw [hself, ← hfilter z hz] at hselect
        exact hselect.trans List.filter_sublist
  · intro hsub z hz
    -- the class of `z` is a selection of items that compare equal
    have hclass : ∀ y ∈ xs.filter fun x => cmp z x = .eq, y ∈ xs ∧ cmp z y = .eq := fun y hy =>
      (List.mem_filter.mp hy).imp_right of_decide_eq_true
    have hties : (xs.filter fun x => cmp z x = .eq).Pairwise fun x y => cmp x y = .eq :=
      List.pairwise_of_forall_mem_list fun x hx y hy =>
        h.eq_of_eq_of_eq hz (hclass x hx).1 (hclass y hy).1 (hclass x hx).2 (hclass y hy).2
    have hselect := (hsub _ List.filter_sublist hties).filter fun y => cmp z y = .eq
    rw [List.filter_filter, List.filter_congr (fun _ _ => Bool.and_self _)] at hselect
    exact (hselect.eq_of_length (perm.symm.filter _).length_eq).symm

/-- There is one stable sort of a list. -/
theorem IsStableSort.unique {ys zs : List α} (h : PreorderOn (· ∈ xs) cmp)
    (hy : IsStableSort cmp xs ys) (hz : IsStableSort cmp xs zs) : ys = zs :=
  eq_of_sorted h (fun _ hm => hy.perm.mem_iff.mp hm) (hy.perm.trans hz.perm.symm) hy.sorted
    hz.sorted fun x hx => (hy.stable x hx).trans (hz.stable x hx).symm

/-! ### Insertion -/

/-- An item stands before another when it compares less. -/
def precedes (cmp : α → α → Ordering) (a b : α) : Bool := cmp a b = .lt

theorem insertBack_perm (x : α) (ys : List α) :
    (insertBack (precedes cmp) x ys).Perm (x :: ys) := by
  induction ys with
  | nil => exact .refl _
  | cons y ys ih =>
      rw [insertBack]
      split
      · exact (ih.cons y).trans (.swap x y ys)
      · exact .refl _

/-- An insertion into a sorted list leaves it sorted. -/
theorem insertBack_pairwise (h : PreorderOn S cmp) {x : α} {ys : List α} (hx : S x)
    (hys : ∀ y ∈ ys, S y) (sorted : ys.Pairwise fun y z => (cmp z y).isLE) :
    (insertBack (precedes cmp) x ys).Pairwise fun y z => (cmp z y).isLE := by
  induction ys with
  | nil => exact List.pairwise_singleton _ _
  | cons y ys ih =>
      obtain ⟨hy, hsorted⟩ := List.pairwise_cons.mp sorted
      have hSy : S y := hys y List.mem_cons_self
      have hSys : ∀ z ∈ ys, S z := fun z hz => hys z (List.mem_cons_of_mem _ hz)
      rw [insertBack]
      split
      · rename_i hlt
        refine List.pairwise_cons.mpr ⟨fun z hz => ?_, ih hSys hsorted⟩
        rcases List.mem_cons.mp ((insertBack_perm x ys).mem_iff.mp hz) with rfl | hz
        · rw [of_decide_eq_true hlt]; rfl
        · exact hy z hz
      · rename_i hlt
        have hyx : (cmp y x).isLE := by
          rw [h.swap hSy hx]
          have hne : cmp x y ≠ .lt := fun e => hlt (decide_eq_true e)
          revert hne
          cases cmp x y <;> decide
        refine List.pairwise_cons.mpr ⟨fun z hz => ?_, sorted⟩
        rcases List.mem_cons.mp hz with rfl | hz
        · exact hyx
        · exact h.trans (hSys z hz) hSy hx (hy z hz) hyx

/-- An item moves in front of none that compares equal to it. -/
theorem insertBack_filter (h : PreorderOn S cmp) {x z : α} {ys : List α} (hx : S x) (hz : S z)
    (hys : ∀ y ∈ ys, S y) :
    ((insertBack (precedes cmp) x ys).filter fun y => cmp z y = .eq) =
      (x :: ys).filter fun y => cmp z y = .eq := by
  induction ys with
  | nil => rfl
  | cons y ys ih =>
      have hSy : S y := hys y List.mem_cons_self
      rw [insertBack]
      split
      · rename_i hlt
        rw [List.filter_cons, ih fun w hw => hys w (List.mem_cons_of_mem _ hw)]
        by_cases hzy : cmp z y = .eq
        · -- an item of the class of `y` cannot have moved in front of `y`
          have hzx : cmp z x ≠ .eq := fun hzx => by
            have hxy := h.eq_of_eq_of_eq hz hx hSy hzx hzy
            rw [of_decide_eq_true hlt] at hxy
            cases hxy
          simp [hzy, hzx]
        · simp [List.filter_cons, hzy]
      · rfl

/-- What a list, last item first, is to the items that have been put into it so far. -/
structure BackSorted (cmp : α → α → Ordering) (S : α → Prop) (done back : List α) : Prop where
  perm : back.Perm done
  sorted : back.Pairwise fun y z => (cmp z y).isLE
  stable : ∀ z, S z → (back.filter fun y => cmp z y = .eq) =
    (done.filter fun x => cmp z x = .eq).reverse

theorem BackSorted.nil : BackSorted cmp S [] [] :=
  ⟨.refl _, .nil, fun _ _ => rfl⟩

/-- Inserting one more item keeps the list so far in order. -/
theorem BackSorted.insertBack (h : PreorderOn S cmp) {done back : List α} {x : α}
    (hb : BackSorted cmp S done back) (hS : ∀ y ∈ done, S y) (hx : S x) :
    BackSorted cmp S (done ++ [x]) (insertBack (precedes cmp) x back) where
  perm := (insertBack_perm x back).trans
    ((hb.perm.cons x).trans (List.perm_append_singleton x done).symm)
  sorted := insertBack_pairwise h hx (fun y hy => hS y (hb.perm.mem_iff.mp hy)) hb.sorted
  stable z hz := by
    rw [insertBack_filter h hx hz fun y hy => hS y (hb.perm.mem_iff.mp hy), List.filter_append,
      List.reverse_append, ← hb.stable z hz]
    by_cases hzx : cmp z x = .eq <;> simp [hzx]

/-- Inserting items one after the other leaves a list in order. -/
theorem BackSorted.foldl (h : PreorderOn S cmp) {rest done back : List α}
    (hb : BackSorted cmp S done back) (hS : ∀ y ∈ done ++ rest, S y) :
    BackSorted cmp S (done ++ rest)
      (rest.foldl (fun back x => RecordFilter.insertBack (precedes cmp) x back) back) := by
  induction rest generalizing done back with
  | nil => rwa [List.append_nil]
  | cons x rest ih =>
      rw [List.foldl_cons, List.append_cons]
      rw [List.append_cons] at hS
      refine ih (hb.insertBack h (fun y hy => hS y ?_) (hS x ?_)) hS
      · exact List.mem_append_left _ (List.mem_append_left _ hy)
      · exact List.mem_append_left _ (List.mem_append_right _ List.mem_cons_self)

/-! ### Sorting by keys -/

/-- The order of items under keys. -/
def SortKey.orderItems (view : α → Record) (keys : List SortKey) (x y : α) : Ordering :=
  SortKey.lexicographic keys (view x) (view y)

/-- The items show records that can be compared at every key. -/
def SortKey.ComparableItems (view : α → Record) (keys : List SortKey) (items : List α) : Prop :=
  SortKey.Comparable keys fun r => ∃ x ∈ items, view x = r

variable {view : α → Record} {keys : List SortKey} {items : List α}

/-- Comparable items are preordered by their keys. -/
theorem preorderOn_orderItems (h : SortKey.ComparableItems view keys items) :
    PreorderOn (· ∈ items) (SortKey.orderItems view keys) :=
  (SortKey.preorderOn_lexicographic h).comap view fun x hx => ⟨x, hx, rfl⟩

theorem sortItems_eq_foldl :
    sortItems view keys items = (items.foldl (fun back x =>
      insertBack (precedes (SortKey.orderItems view keys)) x back) []).reverse := rfl

/-- Sorting by keys puts items in their stable order, wherever they can be compared. -/
theorem isStableSort_sortItems (h : SortKey.ComparableItems view keys items) :
    IsStableSort (SortKey.orderItems view keys) items (sortItems view keys items) := by
  have hb : BackSorted _ (· ∈ items) ([] ++ items) _ :=
    BackSorted.nil.foldl (preorderOn_orderItems h) fun y hy => hy
  rw [List.nil_append] at hb
  rw [sortItems_eq_foldl]
  refine ⟨(List.reverse_perm _).trans hb.perm, List.pairwise_reverse.mpr hb.sorted, fun z hz => ?_⟩
  rw [List.filter_reverse, hb.stable z hz, List.reverse_reverse]

/-! ### The order without comparisons -/

/-- `ys` is `xs` in the order of sort keys: no item stands behind one that it is to stand before,
and items of which none is to stand before the other keep their order. -/
structure SortKey.StableOrder (view : α → Record) (keys : List SortKey) (xs ys : List α) :
    Prop where
  perm : ys.Perm xs
  ordered : ys.Pairwise fun x y => ¬ Before keys (view y) (view x)
  stable : ∀ zs : List α, zs.Sublist xs →
    (zs.Pairwise fun x y => ¬ Before keys (view x) (view y) ∧ ¬ Before keys (view y) (view x)) →
      zs.Sublist ys

/-- An item may stand before another unless that one has to come first. -/
theorem isLE_orderItems_iff {x y : α} :
    (SortKey.orderItems view keys x y).isLE ↔ ¬ SortKey.Before keys (view y) (view x) := by
  rw [SortKey.before_iff, SortKey.orderItems, SortKey.lexicographic_swap keys (view x) (view y)]
  cases SortKey.lexicographic keys (view x) (view y) <;> decide

theorem orderItems_eq_eq_iff {x y : α} :
    SortKey.orderItems view keys x y = .eq ↔
      ¬ SortKey.Before keys (view x) (view y) ∧ ¬ SortKey.Before keys (view y) (view x) := by
  rw [SortKey.before_iff, SortKey.before_iff, SortKey.orderItems,
    SortKey.lexicographic_swap keys (view x) (view y)]
  cases SortKey.lexicographic keys (view x) (view y) <;> decide

/-- Where items can be compared at every key, the stable order of the comparison is the one that
says which records stand before which. -/
theorem stableOrder_iff (h : SortKey.ComparableItems view keys items) {L : List α} :
    SortKey.StableOrder view keys items L ↔
      IsStableSort (SortKey.orderItems view keys) items L := by
  have hsorted : (L.Pairwise fun x y => ¬ SortKey.Before keys (view y) (view x)) ↔
      L.Pairwise fun x y => (SortKey.orderItems view keys x y).isLE :=
    List.Pairwise.iff fun _ _ => isLE_orderItems_iff.symm
  have hties (zs : List α) : (zs.Pairwise fun x y => ¬ SortKey.Before keys (view x) (view y) ∧
        ¬ SortKey.Before keys (view y) (view x)) ↔
      zs.Pairwise fun x y => SortKey.orderItems view keys x y = .eq :=
    List.Pairwise.iff fun _ _ => orderItems_eq_eq_iff.symm
  constructor
  · rintro ⟨perm, ordered, stable⟩
    refine ⟨perm, hsorted.mp ordered, ?_⟩
    refine (filter_eq_iff_sublist (preorderOn_orderItems h) perm).mpr fun zs hsub heq => ?_
    exact stable zs hsub ((hties zs).mpr heq)
  · rintro ⟨perm, sorted, stable⟩
    refine ⟨perm, hsorted.mpr sorted, fun zs hsub heq => ?_⟩
    exact (filter_eq_iff_sublist (preorderOn_orderItems h) perm).mp stable zs hsub
      ((hties zs).mp heq)

end RecordFilter
