import RecordFilter.Proofs.Order.Atom
import RecordFilter.Query.Order

/-!
# The order of records under sort keys

Field values that cannot be compared count as equal, so the order of field values is no preorder
on all of them: `nan` equals every number.  This is all that goes wrong: it is a preorder wherever
no atom goes astray of two others, equal to both of them while they differ
(`FieldValue.Astray`).  So it is one wherever the atoms can be compared (`SortKey.Comparable`).

* `PreorderOn`: a comparison that is a total preorder on the members of a set, with the ways to
  build one (`comap`, `reverse`, `lex`).
* `FieldValue.preorderOn_order_iff`: field values are totally preordered where none goes astray.
* `preorderOn_lexicographic`: records that can be compared at every key are totally preordered.
* `lexicographic_laws`: which laws the order of three records obeys, and where.
-/

namespace RecordFilter

open Std

/-! ### Preorders on a set -/

/-- A comparison that is a total preorder on the members of a set. -/
def PreorderOn {α : Type} (S : α → Prop) (cmp : α → α → Ordering) : Prop :=
  TransCmp fun a b : Subtype S => cmp a b

namespace PreorderOn

variable {α β : Type} {S : α → Prop} {cmp cmp' : α → α → Ordering}

theorem of_swap_of_trans (swap : ∀ a b, cmp b a = (cmp a b).swap)
    (trans : ∀ a b c, S a → S b → S c → (cmp a b).isLE → (cmp b c).isLE → (cmp a c).isLE) :
    PreorderOn S cmp where
  eq_swap := swap _ _
  isLE_trans := fun {a b c} h h' => trans a b c a.2 b.2 c.2 h h'

theorem swap (h : PreorderOn S cmp) {a b : α} (ha : S a) (hb : S b) :
    cmp a b = (cmp b a).swap :=
  h.eq_swap (a := ⟨a, ha⟩) (b := ⟨b, hb⟩)

theorem trans (h : PreorderOn S cmp) {a b c : α} (ha : S a) (hb : S b) (hc : S c)
    (hab : (cmp a b).isLE) (hbc : (cmp b c).isLE) : (cmp a c).isLE :=
  h.isLE_trans (a := ⟨a, ha⟩) (b := ⟨b, hb⟩) (c := ⟨c, hc⟩) hab hbc

theorem eq_trans (h : PreorderOn S cmp) {a b c : α} (ha : S a) (hb : S b) (hc : S c)
    (hab : cmp a b = .eq) (hbc : cmp b c = .eq) : cmp a c = .eq :=
  @TransCmp.eq_trans _ _ h ⟨a, ha⟩ ⟨b, hb⟩ ⟨c, hc⟩ hab hbc

/-- Members that are mapped into the set are compared by their images. -/
theorem comap (h : PreorderOn S cmp) {R : β → Prop} (f : β → α) (hf : ∀ b, R b → S (f b)) :
    PreorderOn R fun a b => cmp (f a) (f b) where
  eq_swap {a b} := h.swap (hf a a.2) (hf b b.2)
  isLE_trans {a b c} hab hbc := h.trans (hf a a.2) (hf b b.2) (hf c c.2) hab hbc

theorem reverse (h : PreorderOn S cmp) : PreorderOn S fun a b => (cmp a b).swap where
  eq_swap {a b} := congrArg Ordering.swap (h.swap a.2 b.2)
  isLE_trans {a b c} hab hbc := by
    dsimp only at hab hbc ⊢
    rw [← h.swap b.2 a.2] at hab
    rw [← h.swap c.2 b.2] at hbc
    rw [← h.swap c.2 a.2]
    exact h.trans c.2 b.2 a.2 hbc hab

/-- Two comparisons, the second where the first tells nothing apart. -/
theorem lex (h : PreorderOn S cmp) (h' : PreorderOn S cmp') :
    PreorderOn S fun a b => (cmp a b).then (cmp' a b) :=
  letI : TransCmp fun a b : Subtype S => cmp a b := h
  letI : TransCmp fun a b : Subtype S => cmp' a b := h'
  inferInstanceAs (TransCmp
    (compareLex (fun a b : Subtype S => cmp a b) (fun a b : Subtype S => cmp' a b)))

theorem eq : PreorderOn S fun _ _ => .eq :=
  of_swap_of_trans (fun _ _ => rfl) fun _ _ _ _ _ _ _ _ => rfl

end PreorderOn

/-! ### Field values -/

namespace FieldValue

/-- If both are atoms, they can be compared. -/
def Comparable (v w : FieldValue) : Prop :=
  ∀ a b, v = .atom a → w = .atom b → (a.compare? b).isSome

/-- Values of one kind in their order, all others equal. -/
def orderWithin : FieldValue → FieldValue → Ordering
  | atom a, atom b => (a.compare? b).getD .eq
  | enum a, enum b => Ord.compare a b
  | collection a, collection b => Ord.compare a b
  | _, _ => .eq

/-- Values are ordered by rank and then within their rank. -/
theorem order_eq_then (v w : FieldValue) :
    v.order w = (compare v.rank w.rank).then (orderWithin v w) := by
  cases v <;> cases w <;> rfl

theorem orderWithin_swap (v w : FieldValue) : orderWithin w v = (orderWithin v w).swap := by
  cases v <;> cases w
  case atom.atom a b =>
    rw [orderWithin, orderWithin, Atom.compare?_swap a b]
    cases a.compare? b <;> rfl
  case enum.enum a b => exact (OrientedOrd.eq_swap : compare b a = _)
  case collection.collection m n => exact (OrientedOrd.eq_swap : compare n m = _)
  all_goals rfl

/-- The order of values is turned round with its sides. -/
theorem order_swap (v w : FieldValue) : w.order v = (v.order w).swap := by
  rw [order_eq_then, order_eq_then, orderWithin_swap v w, Ordering.swap_then,
    ← (OrientedOrd.eq_swap : compare w.rank v.rank = _)]

/-- An atom that can be compared with neither of two that differ. -/
inductive Astray : FieldValue → FieldValue → FieldValue → Prop where
  | intro {x a b : Atom} {o : Ordering} : x.compare? a = none → x.compare? b = none →
      a.compare? b = some o → o ≠ .eq → Astray (.atom x) (.atom a) (.atom b)

/-- Equal to both of two atoms that differ is what an atom astray of them is. -/
theorem Astray.order {x v w : FieldValue} (h : Astray x v w) :
    v.order x = .eq ∧ x.order w = .eq ∧ v.order w ≠ .eq := by
  cases h with
  | intro ha hb hab ho =>
      rw [FieldValue.order, FieldValue.order, FieldValue.order, Atom.compare?_swap, ha, hb, hab]
      exact ⟨rfl, rfl, ho⟩

/-- An atom that can be compared with one of two is not astray of them. -/
theorem not_astray_of_comparable {x v w : FieldValue} (h : Comparable x v) : ¬ Astray x v w := by
  rintro ⟨ha, -, -, -⟩
  have hsome := h _ _ rfl rfl
  rw [ha] at hsome
  cases hsome

/-- What goes astray is `nan`, or of another category. -/
theorem Astray.isNaN_or_category_ne {x v w : FieldValue} (h : Astray x v w) :
    ∃ a b, x = .atom a ∧ v = .atom b ∧ (a.IsNaN ∨ a.category ≠ b.category) := by
  cases h with
  | @intro x a b o ha _ hab =>
      refine ⟨x, a, rfl, rfl, ?_⟩
      by_cases hcategory : x.category = a.category
      · exact .inl ((Atom.isNaN_of_compare?_eq_none hcategory ha).resolve_right
          (Atom.stands_of_compare? hab).not_isNaN)
      · exact .inr hcategory

/-- Unless the atom between goes astray, the order of atoms is transitive. -/
theorem orderWithin_atoms_trans {a b c : Atom} (h : ¬ Astray (.atom b) (.atom a) (.atom c))
    (hab : (orderWithin (.atom a) (.atom b)).isLE) (hbc : (orderWithin (.atom b) (.atom c)).isLE) :
    (orderWithin (.atom a) (.atom c)).isLE := by
  simp only [orderWithin] at hab hbc ⊢
  cases hac : a.compare? c with
  | none => rfl
  | some o =>
      -- what can be compared with one of the outer atoms can be compared with the other
      cases hab' : a.compare? b with
      | some o' =>
          obtain ⟨o'', hbc'⟩ :=
            (Atom.stands_of_compare? hab').swap.exists_trans (Atom.stands_of_compare? hac)
          rw [hab'] at hab
          rw [hbc'.compare?_eq] at hbc
          exact Atom.compare?_trans hab' hbc'.compare?_eq hac hab hbc
      | none =>
          have hba : b.compare? a = none := by rw [Atom.compare?_swap, hab']; rfl
          have hbc' : b.compare? c = none := by
            refine Option.eq_none_iff_forall_ne_some.mpr fun o' hbc' => ?_
            obtain ⟨o'', hba'⟩ :=
              (Atom.stands_of_compare? hbc').exists_trans (Atom.stands_of_compare? hac).swap
            cases hba.symm.trans hba'.compare?_eq
          by_cases ho : o = .eq
          · subst ho; rfl
          · exact absurd (.intro hba hbc' hac ho) h

/-- Within a rank the order is transitive but across a value that leads astray. -/
theorem orderWithin_trans {u v w : FieldValue} (huv : u.rank = v.rank) (hvw : v.rank = w.rank)
    (hastray : ¬ Astray v u w) (h : (orderWithin u v).isLE) (h' : (orderWithin v w).isLE) :
    (orderWithin u w).isLE := by
  cases u with
  | null => rfl
  | record => rfl
  | enum a =>
      cases v <;> cases huv
      cases w <;> cases hvw
      exact TransOrd.isLE_trans h h'
  | collection m =>
      cases v <;> cases huv
      cases w <;> cases hvw
      exact TransOrd.isLE_trans h h'
  | atom a =>
      cases v <;> cases huv
      cases w <;> cases hvw
      exact orderWithin_atoms_trans hastray h h'

theorem order_isLE_iff {v w : FieldValue} :
    (v.order w).isLE ↔ v.rank < w.rank ∨ v.rank = w.rank ∧ (orderWithin v w).isLE := by
  rw [order_eq_then]
  rcases Nat.lt_trichotomy v.rank w.rank with h | h | h
  · simp [Nat.compare_eq_lt.mpr h, h]
  · simp [h]
  · simp only [Nat.compare_eq_gt.mpr h, Ordering.then, Ordering.isLE, Bool.false_eq_true, false_iff]
    omega

/-- Field values are totally preordered exactly where none goes astray. -/
theorem preorderOn_order_iff {S : FieldValue → Prop} :
    PreorderOn S order ↔ ∀ x v w, S x → S v → S w → ¬ Astray x v w := by
  constructor
  · intro h x v w hx hv hw hastray
    obtain ⟨hvx, hxw, hne⟩ := hastray.order
    exact hne (h.eq_trans hv hx hw hvx hxw)
  · intro h
    refine .of_swap_of_trans order_swap fun u v w hu hv hw huv hvw => ?_
    -- only values of one kind are compared as values, so only three of one kind matter
    rcases order_isLE_iff.mp huv with huv | ⟨huv, wuv⟩
    · rcases order_isLE_iff.mp hvw with hvw | ⟨hvw, -⟩
      · exact order_isLE_iff.mpr (.inl (Nat.lt_trans huv hvw))
      · exact order_isLE_iff.mpr (.inl (hvw ▸ huv))
    · rcases order_isLE_iff.mp hvw with hvw | ⟨hvw, wvw⟩
      · exact order_isLE_iff.mpr (.inl (huv ▸ hvw))
      · exact order_isLE_iff.mpr (.inr ⟨huv.trans hvw,
          orderWithin_trans huv hvw (h v u w hv hu hw) wuv wvw⟩)

end FieldValue

/-! ### Records -/

namespace SortKey

/-- The atoms that records of a set show at one key can be compared. -/
def Comparable (keys : List SortKey) (S : Record → Prop) : Prop :=
  ∀ k ∈ keys, ∀ r s, S r → S s → (k.path.value r).Comparable (k.path.value s)

/-- Records of a set of which one shows at the key what goes astray of what two others show. -/
def Tangled (k : SortKey) (S : Record → Prop) : Prop :=
  ∃ r s t, S r ∧ S s ∧ S t ∧
    (k.path.value r).Astray (k.path.value s) (k.path.value t)

variable {k : SortKey} {keys : List SortKey} {S : Record → Prop}

theorem order_eq_eq_iff {r s : Record} :
    k.order r s = .eq ↔ (k.path.value r).order (k.path.value s) = .eq := by
  rw [SortKey.order]
  cases k.direction with
  | ascending => exact Iff.rfl
  | descending => exact Ordering.swap_eq_eq

/-- One key preorders records totally exactly where they are not tangled at it. -/
theorem preorderOn_order_iff : PreorderOn S k.order ↔ ¬ k.Tangled S := by
  constructor
  · rintro h ⟨r, s, t, hr, hs, ht, hastray⟩
    obtain ⟨hsr, hrt, hne⟩ := hastray.order
    refine hne (order_eq_eq_iff.mp (h.eq_trans hs hr ht ?_ ?_))
    · exact order_eq_eq_iff.mpr hsr
    · exact order_eq_eq_iff.mpr hrt
  · intro h
    have hk : PreorderOn S fun r s => (k.path.value r).order (k.path.value s) := by
      refine (FieldValue.preorderOn_order_iff (S := fun v => ∃ r, S r ∧ k.path.value r = v)).mpr ?_
        |>.comap k.path.value fun r hr => ⟨r, hr, rfl⟩
      rintro _ _ _ ⟨r, hr, rfl⟩ ⟨s, hs, rfl⟩ ⟨t, ht, rfl⟩ hastray
      exact h ⟨r, s, t, hr, hs, ht, hastray⟩
    unfold SortKey.order
    cases k.direction with
    | ascending => exact hk
    | descending => exact hk.reverse

/-- Where each key preorders records totally, so do all of them one after the other. -/
theorem preorderOn_lexicographic_of_forall (h : ∀ k ∈ keys, PreorderOn S k.order) :
    PreorderOn S (lexicographic keys) := by
  induction keys with
  | nil => exact .eq
  | cons k rest ih =>
      exact (h k List.mem_cons_self).lex (ih fun k' hk' => h k' (List.mem_cons_of_mem _ hk'))

/-- Records that can be compared at every key are totally preordered. -/
theorem preorderOn_lexicographic (h : Comparable keys S) : PreorderOn S (lexicographic keys) := by
  refine preorderOn_lexicographic_of_forall fun k hk => preorderOn_order_iff.mpr ?_
  rintro ⟨r, s, t, hr, hs, -, hastray⟩
  exact FieldValue.not_astray_of_comparable (h k hk r s hr hs) hastray

theorem order_swap (k : SortKey) (r s : Record) : k.order s r = (k.order r s).swap := by
  rw [SortKey.order, SortKey.order]
  cases k.direction with
  | ascending => exact FieldValue.order_swap _ _
  | descending => exact congrArg Ordering.swap (FieldValue.order_swap _ _)

/-- The order by keys is turned round with its sides. -/
theorem lexicographic_swap (keys : List SortKey) (r s : Record) :
    lexicographic keys s r = (lexicographic keys r s).swap := by
  induction keys with
  | nil => rfl
  | cons k rest ih => rw [lexicographic, lexicographic, ih, order_swap, Ordering.swap_then]

/-- A record is a tie with itself. -/
theorem lexicographic_self (keys : List SortKey) (r : Record) : lexicographic keys r r = .eq := by
  have h := lexicographic_swap keys r r
  cases hr : lexicographic keys r r with
  | eq => rfl
  | lt | gt => rw [hr] at h; cases h

/-- **The order of records.**  Under any keys, and whatever the records hold, a record is equal to
itself, and comparing the other way round gives the reverse.  A key preorders three records totally
exactly where none of them goes astray at it of the two others; and where none does at any key, the
order is transitive, and so is equality.  What goes astray shows `nan`, or an atom of another
category than a second record. -/
theorem lexicographic_laws (keys : List SortKey) (a b c : Record) :
    lexicographic keys a a = .eq ∧ lexicographic keys b a = (lexicographic keys a b).swap ∧
    (∀ k : SortKey, PreorderOn (· ∈ [a, b, c]) k.order ↔ ¬ k.Tangled (· ∈ [a, b, c])) ∧
    ((∀ k ∈ keys, ¬ k.Tangled (· ∈ [a, b, c])) →
      ((lexicographic keys a b).isLE → (lexicographic keys b c).isLE →
        (lexicographic keys a c).isLE) ∧
      (lexicographic keys a b = .eq → lexicographic keys b c = .eq →
        lexicographic keys a c = .eq)) ∧
    ∀ k : SortKey, k.Tangled (· ∈ [a, b, c]) → ∃ r ∈ [a, b, c], ∃ s ∈ [a, b, c], ∃ x y : Atom,
      k.path.value r = .atom x ∧ k.path.value s = .atom y ∧
        (x.IsNaN ∨ x.category ≠ y.category) := by
  refine ⟨lexicographic_self keys a, lexicographic_swap keys a b, fun k => preorderOn_order_iff,
    fun h => ?_, ?_⟩
  · have hpreorder : PreorderOn (· ∈ [a, b, c]) (lexicographic keys) :=
      preorderOn_lexicographic_of_forall fun k hk => preorderOn_order_iff.mpr (h k hk)
    have ha : a ∈ [a, b, c] := by simp
    have hb : b ∈ [a, b, c] := by simp
    have hc : c ∈ [a, b, c] := by simp
    exact ⟨hpreorder.trans ha hb hc, hpreorder.eq_trans ha hb hc⟩
  · rintro k ⟨r, s, t, hr, hs, -, hastray⟩
    obtain ⟨x, y, hx, hy, h⟩ := hastray.isNaN_or_category_ne
    exact ⟨r, hr, s, hs, x, y, hx, hy, h⟩

/-- A record of one number. -/
def measured (x : Double) : Record := [("x", .atom (.float64 x))]

/-- Two is equal to `nan` and `nan` to one, yet two is greater than one; and with `nan` between them
two and one are not sorted. -/
theorem nan_between :
    let keys := [⟨⟨"x", none⟩, .ascending⟩]
    let two := measured (.ofInt .double 2)
    let one := measured (.ofInt .double 1)
    lexicographic keys two (measured .nan) = .eq ∧ lexicographic keys (measured .nan) one = .eq ∧
      lexicographic keys two one = .gt ∧
      (sortItems Prod.snd keys [(0, two), (1, measured .nan), (2, one)]).map Prod.fst =
        [0, 1, 2] := by
  decide +kernel

end SortKey

end RecordFilter
