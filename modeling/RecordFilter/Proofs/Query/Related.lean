import Mathlib.Data.List.Forall2
import RecordFilter.Proofs.Query.Pages

/-!
# One request over two lists

The answer to a request depends on the items only through the predicate and the sort keys.  Take
two lists with related items side by side, where the predicate holds of related items together and
the keys order them alike: then the request has one error over both, or two pages with related items
side by side.

The positions of the selected items (`Engine.positions`) come from the answer over the items with
their positions.  They tell more than the items of a page, which may stand in the list repeatedly.

* `execute_related`: the answers over two lists with related items.
* `execute_eq_pick`: the answer over a list is the page of the items at the positions.
* `positions_eq_of_related`: related items are selected at the same positions.
-/

namespace RecordFilter

open Outcome

variable {α β : Type} {R : α → β → Prop}

/-! ### Steps over related items -/

/-- Items are inserted at the same place among related items. -/
theorem forall₂_insertBack {precedes : α → α → Bool} {precedes' : β → β → Bool}
    (hprecedes : ∀ x y x' y', R x x' → R y y' → precedes x y = precedes' x' y') {x : α} {x' : β}
    (hx : R x x') {ys : List α} {ys' : List β} (h : List.Forall₂ R ys ys') :
    List.Forall₂ R (insertBack precedes x ys) (insertBack precedes' x' ys') := by
  induction h with
  | nil => exact .cons hx .nil
  | @cons y y' ys ys' hy hys ih =>
      rw [insertBack, insertBack, hprecedes x y x' y' hx hy]
      by_cases hlt : precedes' x' y' = true
      · rw [if_pos hlt, if_pos hlt]
        exact .cons hy ih
      · rw [if_neg hlt, if_neg hlt]
        exact .cons hx (.cons hy hys)

variable {view : α → Record} {view' : β → Record}

/-- Lists that are related item by item, with keys that compare alike, are sorted alike. -/
theorem forall₂_sortItems {keys : List SortKey}
    (hkeys : ∀ x y x' y', R x x' → R y y' → SortKey.lexicographic keys (view x) (view y) =
      SortKey.lexicographic keys (view' x') (view' y'))
    {xs : List α} {xs' : List β} (h : List.Forall₂ R xs xs') :
    List.Forall₂ R (sortItems view keys xs) (sortItems view' keys xs') := by
  unfold sortItems
  refine List.rel_reverse (List.rel_foldl (P := List.Forall₂ R) (R := R) ?_ .nil h)
  intro back back' hback x x' hx
  refine forall₂_insertBack (fun x y x' y' hx hy => ?_) hx hback
  rw [hkeys x y x' y' hx hy]

/-- They are cut alike. -/
theorem forall₂_pageOf {skip take : UInt64} {xs : List α} {xs' : List β}
    (h : List.Forall₂ R xs xs') : List.Forall₂ R (pageOf skip take xs) (pageOf skip take xs') :=
  List.forall₂_take _ (List.forall₂_drop _ h)

/-- Pages with related items side by side, which are alike in all else. -/
structure Page.Related (R : α → β → Prop) (p : Page α) (q : Page β) : Prop where
  items : List.Forall₂ R p.items q.items
  totalCount : p.totalCount = q.totalCount
  pageIndex : p.pageIndex = q.pageIndex
  pageSize : p.pageSize = q.pageSize

namespace Engine

variable {e : Engine} {r : Request}

/-- They are filtered alike by a filter that tells no item from its partner. -/
theorem forall₂_matching {predicate : Option Predicate}
    (hholds : ∀ q, predicate = some q → ∀ x x', R x x' → q.holds (view x) = q.holds (view' x'))
    {xs : List α} {xs' : List β} (h : List.Forall₂ R xs xs') :
    List.Forall₂ R (matching view predicate xs) (matching view' predicate xs') := by
  cases predicate with
  | none => exact h
  | some q =>
      refine List.rel_filter (fun x x' hx => ?_) h
      simp only [hholds q rfl x x' hx]

/-- One request over two lists with related items: if its predicate holds of related items together
and its keys order them alike, it has one error, or two pages with related items. -/
theorem execute_related
    (hholds : ∀ q, e.predicate r.filter = .ok (some q) →
      ∀ x x', R x x' → q.holds (view x) = q.holds (view' x'))
    (hkeys : ∀ keys, SortKey.resolve e.family e.element r.page.orderBy = .ok keys →
      ∀ x y x' y', R x x' → R y y' → SortKey.lexicographic keys (view x) (view y) =
        SortKey.lexicographic keys (view' x') (view' y'))
    {xs : List α} {xs' : List β} (h : List.Forall₂ R xs xs') :
    Both (Page.Related R) (e.execute view xs r) (e.execute view' xs' r) := by
  unfold execute apply
  -- the filter, the page size and the keys do not depend on the items
  cases hp : e.predicate r.filter with
  | error err => exact .error err
  | ok predicate =>
      cases hs : e.pageSize r.page with
      | error err => exact .error err
      | ok size =>
          cases hk : SortKey.resolve e.family e.element r.page.orderBy with
          | error err => exact .error err
          | ok keys =>
              have hmatching : List.Forall₂ R (matching view predicate xs)
                  (matching view' predicate xs') :=
                forall₂_matching (fun q hq => hholds q (by rw [hp, hq])) h
              refine .ok ⟨?_, ?_, rfl, rfl⟩
              · exact forall₂_pageOf (forall₂_sortItems (hkeys keys hk) hmatching)
              · exact congrArg UInt64.ofNat hmatching.length_eq

end Engine

/-! ### Positions -/

/-- A page with its items mapped. -/
def Page.map (f : α → β) (p : Page α) : Page β :=
  ⟨p.items.map f, p.totalCount, p.pageIndex, p.pageSize⟩

/-- The page of the items of a list at the positions of a page. -/
def Page.pick (items : List α) (p : Page Nat) : Page α :=
  ⟨p.items.filterMap fun i => items[i]?, p.totalCount, p.pageIndex, p.pageSize⟩

/-- The answer to a request by the positions of the selected items. -/
def Engine.positions (e : Engine) (view : α → Record) (items : List α) (r : Request) :
    Except FilterError (Page Nat) :=
  (e.execute (fun x : α × Nat => view x.1) items.zipIdx r).map (Page.map Prod.snd)

theorem forall₂_zipIdx_self (xs : List α) :
    List.Forall₂ (fun p x => p.1 = x ∧ xs[p.2]? = some x) xs.zipIdx xs := by
  have h : List.Forall₂ (fun (p : α × Nat) x => p.1 = x ∧ xs[p.2]? = some x) xs.zipIdx
      (xs.zipIdx.map Prod.fst) := by
    refine List.forall₂_map_right_iff.mpr (List.forall₂_same.mpr fun p hp => ⟨rfl, ?_⟩)
    exact List.mem_zipIdx_iff_getElem?.mp hp
  rwa [List.zipIdx_map_fst] at h

theorem forall₂_zipIdx {xs : List α} {ys : List β} (h : List.Forall₂ R xs ys) (n : Nat) :
    List.Forall₂ (fun p q => p.2 = q.2 ∧ R p.1 q.1) (xs.zipIdx n) (ys.zipIdx n) := by
  induction h generalizing n with
  | nil => exact .nil
  | cons hxy _ ih =>
      rw [List.zipIdx_cons, List.zipIdx_cons]
      exact .cons ⟨rfl, hxy⟩ (ih (n + 1))

/-- Items that stand in a list at the positions beside them are picked by these positions. -/
theorem pick_of_forall₂ {items : List α} {ps : List (α × Nat)} {xs : List α}
    (h : List.Forall₂ (fun p x => p.1 = x ∧ items[p.2]? = some x) ps xs) :
    (ps.map Prod.snd).filterMap (fun i => items[i]?) = xs := by
  induction h with
  | nil => rfl
  | cons hp _ ih => rw [List.map_cons, List.filterMap_cons_some hp.2, ih]

theorem map_snd_of_forall₂ {ps : List (α × Nat)} {qs : List (β × Nat)}
    (h : List.Forall₂ (fun p q => p.2 = q.2 ∧ R p.1 q.1) ps qs) :
    ps.map Prod.snd = qs.map Prod.snd := by
  induction h with
  | nil => rfl
  | cons hpq _ ih => rw [List.map_cons, List.map_cons, hpq.1, ih]

namespace Engine

variable {e : Engine} {r : Request}

/-- The answer over a list is the page of its items at the positions. -/
theorem execute_eq_pick (items : List α) :
    e.execute view items r = (e.positions view items r).map (Page.pick items) := by
  have hboth : Both (Page.Related fun p x => p.1 = x ∧ items[p.2]? = some x)
      (e.execute (fun p : α × Nat => view p.1) items.zipIdx r) (e.execute view items r) := by
    refine execute_related (fun q _ p x hp => ?_) (fun keys _ p q x y hp hq => ?_)
      (forall₂_zipIdx_self items)
    · rw [hp.1]
    · rw [hp.1, hq.1]
  have hpick := hboth.map_eq (f := fun p => Page.pick items (p.map Prod.snd)) (g := id) ?_
  · rw [Except.map_id] at hpick
    exact hpick.symm.trans (map_map ..).symm
  · rintro p ⟨_, _, _, _⟩ ⟨hitems, rfl, rfl, rfl⟩
    exact congrArg (Page.mk · _ _ _) (pick_of_forall₂ hitems)

/-- Related items are selected at the same positions. -/
theorem positions_eq_of_related
    (hholds : ∀ q, e.predicate r.filter = .ok (some q) →
      ∀ x x', R x x' → q.holds (view x) = q.holds (view' x'))
    (hkeys : ∀ keys, SortKey.resolve e.family e.element r.page.orderBy = .ok keys →
      ∀ x y x' y', R x x' → R y y' → SortKey.lexicographic keys (view x) (view y) =
        SortKey.lexicographic keys (view' x') (view' y'))
    {xs : List α} {xs' : List β} (h : List.Forall₂ R xs xs') :
    e.positions view xs r = e.positions view' xs' r := by
  refine Both.map_eq (execute_related (R := fun p q => p.2 = q.2 ∧ R p.1 q.1) ?_ ?_
    (forall₂_zipIdx h 0)) ?_
  · rintro q hq p p' ⟨-, hp⟩
    exact hholds q hq p.1 p'.1 hp
  · rintro keys hk p q p' q' ⟨-, hp⟩ ⟨-, hq⟩
    exact hkeys keys hk p.1 q.1 p'.1 q'.1 hp hq
  · rintro ⟨_, _, _, _⟩ ⟨_, _, _, _⟩ ⟨hitems, rfl, rfl, rfl⟩
    exact congrArg (Page.mk · _ _ _) (map_snd_of_forall₂ hitems)

end Engine

end RecordFilter
