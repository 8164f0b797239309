import Mathlib.Data.List.Forall2

/-!
# Outcomes of steps that can fail

When a chain of steps, or one step taken at each member of a list, gives a result, and which error
it gives otherwise.
-/

namespace RecordFilter.Outcome

variable {ε α β : Type}

theorem ok_bind (a : α) (f : α → Except ε β) : (Except.ok a >>= f) = f a := rfl

/-- Two steps in a row give a result when both do. -/
theorem bind_eq_ok {x : Except ε α} {f : α → Except ε β} {b : β} :
    (x >>= f) = .ok b ↔ ∃ a, x = .ok a ∧ f a = .ok b := by
  cases x with
  | error e =>
      refine ⟨fun h => ?_, fun ⟨_, h, _⟩ => ?_⟩ <;> cases h
  | ok a =>
      refine ⟨fun h => ⟨a, rfl, h⟩, fun ⟨a', h, hb⟩ => ?_⟩
      cases h
      exact hb

/-- A mapped outcome is a success where the outcome was one. -/
theorem map_eq_ok {x : Except ε α} {f : α → β} {b : β} :
    x.map f = .ok b ↔ ∃ a, x = .ok a ∧ f a = b := by
  cases x with
  | error e =>
      refine ⟨fun h => ?_, fun ⟨_, h, _⟩ => ?_⟩ <;> cases h
  | ok a =>
      refine ⟨fun h => ?_, fun ⟨a', h, hb⟩ => ?_⟩
      · cases h; exact ⟨a, rfl, rfl⟩
      · cases h; exact congrArg _ hb

theorem map_map {γ : Type} (x : Except ε α) (f : α → β) (g : β → γ) :
    (x.map f).map g = x.map fun a => g (f a) := by
  cases x with
  | error e => rfl
  | ok a => rfl

theorem map_eq_bind (x : Except ε α) (f : α → β) : x.map f = x >>= fun a => pure (f a) := by
  cases x with
  | error e => rfl
  | ok a => rfl

/-- Other words for errors leave the successes as they are. -/
theorem mapError_eq_ok {ε' : Type} {x : Except ε α} {f : ε → ε'} {a : α} :
    x.mapError f = .ok a ↔ x = .ok a := by
  cases x with
  | error e => refine ⟨fun h => ?_, fun h => ?_⟩ <;> cases h
  | ok b => refine ⟨fun h => ?_, fun h => ?_⟩ <;> cases h <;> rfl

/-- The error of a step that gives no result. -/
def fault? : Except ε α → Option ε
  | .error e => some e
  | .ok _ => none

theorem fault?_eq_some {x : Except ε α} {e : ε} : fault? x = some e ↔ x = .error e := by
  cases x with
  | error e' => simp [fault?]
  | ok a => simp [fault?]

theorem fault?_eq_none {x : Except ε α} : fault? x = none ↔ ∃ a, x = .ok a := by
  cases x with
  | error e => simp [fault?]
  | ok a => simp [fault?]

theorem toOption_eq_some {x : Except ε α} {a : α} : x.toOption = some a ↔ x = .ok a := by
  cases x with
  | error e => refine ⟨fun h => ?_, fun h => ?_⟩ <;> cases h
  | ok b => refine ⟨fun h => ?_, fun h => ?_⟩ <;> cases h <;> rfl

theorem eq_ok_of_toOption {x : Except ε α} {a : α} (h : x.toOption = some a) : x = .ok a :=
  toOption_eq_some.mp h

/-- A step taken at each member of a list gives the list of its results when it gives each. -/
theorem mapM_eq_ok {f : α → Except ε β} {xs : List α} {ys : List β} :
    xs.mapM f = .ok ys ↔ List.Forall₂ (fun x y => f x = .ok y) xs ys := by
  induction xs generalizing ys with
  | nil =>
      rw [List.mapM_nil, List.forall₂_nil_left_iff]
      exact ⟨fun h => by cases h; rfl, fun h => by rw [h]; rfl⟩
  | cons x xs ih =>
      rw [List.mapM_cons, bind_eq_ok, List.forall₂_cons_left_iff]
      refine exists_congr fun y => ?_
      rw [bind_eq_ok]
      constructor
      · rintro ⟨hy, ys', hys, h⟩
        cases h
        exact ⟨ys', hy, ih.mp hys, rfl⟩
      · rintro ⟨ys', hy, hys, rfl⟩
        exact ⟨hy, ys', ih.mpr hys, rfl⟩

/-- Two steps in a row fail when the first does, or the second on the result of the first. -/
theorem bind_eq_error {x : Except ε α} {f : α → Except ε β} {e : ε} :
    (x >>= f) = .error e ↔ x = .error e ∨ ∃ a, x = .ok a ∧ f a = .error e := by
  cases x with
  | error e' =>
      constructor
      · intro h
        exact .inl (by cases h; rfl)
      · rintro (h | ⟨_, h, _⟩) <;> cases h
        rfl
  | ok a =>
      constructor
      · intro h
        exact .inr ⟨a, rfl, h⟩
      · rintro (h | ⟨_, h, hf⟩) <;> cases h
        exact hf

/-- A mapped outcome fails where the outcome did, with the same error. -/
theorem map_eq_error {x : Except ε α} {f : α → β} {e : ε} : x.map f = .error e ↔ x = .error e := by
  cases x with
  | error e' => simp [Except.map]
  | ok a => simp [Except.map]

/-- A step taken at each member of a list fails as it does at the first member at which it fails. -/
theorem mapM_eq_error {f : α → Except ε β} {xs : List α} {e : ε} :
    xs.mapM f = .error e ↔ ∃ before x after, xs = before ++ x :: after ∧
      (∀ y ∈ before, ∃ b, f y = .ok b) ∧ f x = .error e := by
  constructor
  · intro h
    induction xs with
    | nil => cases h
    | cons x xs ih =>
        rw [List.mapM_cons] at h
        rcases bind_eq_error.mp h with hx | ⟨b, hb, h⟩
        · exact ⟨[], x, xs, rfl, nofun, hx⟩
        · rcases bind_eq_error.mp h with hxs | ⟨bs, -, h⟩
          · obtain ⟨before, x', after, rfl, hbefore, hx'⟩ := ih hxs
            exact ⟨x :: before, x', after, rfl, List.forall_mem_cons.mpr ⟨⟨b, hb⟩, hbefore⟩, hx'⟩
          · cases h
  · rintro ⟨before, x, after, rfl, hbefore, hx⟩
    induction before with
    | nil => rw [List.nil_append, List.mapM_cons, hx]; rfl
    | cons y before ih =>
        obtain ⟨⟨b, hb⟩, hbefore⟩ := List.forall_mem_cons.mp hbefore
        rw [List.cons_append, List.mapM_cons, hb]
        exact bind_eq_error.mpr (.inr ⟨b, rfl, bind_eq_error.mpr (.inl (ih hbefore))⟩)

/-- A step taken at each member of a list fails only if it fails at a member. -/
theorem exists_of_mapM_eq_error {f : α → Except ε β} {xs : List α} {e : ε}
    (h : xs.mapM f = .error e) : ∃ x ∈ xs, f x = .error e := by
  obtain ⟨before, x, after, rfl, -, hx⟩ := mapM_eq_error.mp h
  exact ⟨x, List.mem_append_right before List.mem_cons_self, hx⟩

/-- Each of the results comes from a member of the list. -/
theorem exists_of_mapM {f : α → Except ε β} {xs : List α} {ys : List β} (h : xs.mapM f = .ok ys)
    {y : β} (hy : y ∈ ys) : ∃ x ∈ xs, f x = .ok y := by
  have hall := mapM_eq_ok.mp h
  clear h
  induction hall with
  | nil => cases hy
  | cons hx _ ih =>
      rcases List.mem_cons.mp hy with rfl | hy
      · exact ⟨_, List.mem_cons_self, hx⟩
      · obtain ⟨x', hx', hf⟩ := ih hy
        exact ⟨x', List.mem_cons_of_mem _ hx', hf⟩

/-! ### Errors in another form -/

/-- Errors can be put into other words before or after a further step. -/
theorem mapError_bind {ε' : Type} (x : Except ε α) (f : α → Except ε β) (g : ε → ε') :
    (x >>= f).mapError g = x.mapError g >>= fun a => (f a).mapError g := by
  cases x with
  | error e => rfl
  | ok a => rfl

/-- So they can before or after a list is gone through. -/
theorem mapError_mapM {ε' : Type} (f : α → Except ε β) (g : ε → ε') (xs : List α) :
    (xs.mapM f).mapError g = xs.mapM fun x => (f x).mapError g := by
  induction xs with
  | nil => rfl
  | cons x xs ih =>
      rw [List.mapM_cons, List.mapM_cons, mapError_bind]
      refine congrArg _ (funext fun b => ?_)
      rw [mapError_bind, ih]
      rfl

/-! ### The first of several failures -/

/-- What is wrong unless a condition is met. -/
def unlessMet {ω : Type} (p : Prop) [Decidable p] (o : ω) : List ω := if p then [] else [o]

theorem unlessMet_pos {ω : Type} {p : Prop} [Decidable p] (h : p) (o : ω) : unlessMet p o = [] :=
  if_pos h

theorem unlessMet_neg {ω : Type} {p : Prop} [Decidable p] (h : ¬p) (o : ω) : unlessMet p o = [o] :=
  if_neg h

theorem mem_unlessMet {ω : Type} {p : Prop} [Decidable p] {o o' : ω} :
    o' ∈ unlessMet p o ↔ ¬p ∧ o' = o := by
  by_cases h : p
  · rw [unlessMet_pos h]
    exact iff_of_false List.not_mem_nil fun h' => h'.1 h
  · rw [unlessMet_neg h, List.mem_singleton]
    exact (and_iff_right h).symm

/-- A step succeeds where nothing is wrong, and fails for the first thing that is wrong otherwise,
with an error that `R` puts beside it. -/
inductive FailsFor {ω : Type} (R : ε → ω → Prop) : Except ε α → List ω → Prop where
  | ok (a : α) : FailsFor R (.ok a) []
  | error {e : ε} {o : ω} (rest : List ω) : R e o → FailsFor R (.error e) (o :: rest)

namespace FailsFor

variable {ω : Type} {R : ε → ω → Prop} {x : Except ε α} {os os' : List ω}

/-- A fault found earlier is not changed by what is done with a success. -/
theorem map (h : FailsFor R x os) (f : α → β) : FailsFor R (x.map f) os := by
  cases h with
  | ok a => exact .ok (f a)
  | error rest h => exact .error rest h

/-- Of two steps in a row, what is wrong with the first comes before what is wrong with the
second. -/
theorem bind {f : α → Except ε β} (h : FailsFor R x os)
    (hf : ∀ a, x = .ok a → FailsFor R (f a) os') : FailsFor R (x >>= f) (os ++ os') := by
  cases h with
  | ok a => exact hf a rfl
  | error rest h => exact .error (rest ++ os') h

/-- A step taken at each member of a list fails for what is wrong with the members in order. -/
theorem mapM {f : β → Except ε α} {g : β → List ω} (h : ∀ b, FailsFor R (f b) (g b))
    (bs : List β) : FailsFor R (bs.mapM f) (bs.flatMap g) := by
  induction bs with
  | nil => exact .ok []
  | cons b bs ih =>
      rw [List.mapM_cons, List.flatMap_cons]
      refine (h b).bind fun a _ => ?_
      rw [← List.append_nil (bs.flatMap g)]
      exact ih.bind fun as _ => .ok (a :: as)

/-- A step that is taken unless a condition holds. -/
theorem guard {p q : Prop} [Decidable p] [Decidable q] {e : ε} {o : ω} (hq : q ↔ ¬p) (he : R e o)
    (h : q → FailsFor R x os) : FailsFor R (if p then .error e else x) (unlessMet q o ++ os) := by
  by_cases hp : p
  · rw [if_pos hp, unlessMet_neg fun h => hq.mp h hp]
    exact .error os he
  · rw [if_neg hp, unlessMet_pos (hq.mpr hp)]
    exact h (hq.mpr hp)

/-- What is wrong with a step is wrong with it in another form. -/
theorem mapError {ε' : Type} {es : List ε} (h : FailsFor Eq x es) (g : ε → ε') :
    FailsFor Eq (x.mapError g) (es.map g) := by
  cases h with
  | ok a => exact .ok a
  | error rest h => exact .error _ (congrArg g h)

end FailsFor

/-- A step that fails for the first of some errors. -/
theorem failsFor_eq_iff {x : Except ε α} {es : List ε} :
    FailsFor Eq x es ↔ fault? x = es.head? := by
  constructor
  · rintro (a | ⟨rest, rfl⟩)
    · rfl
    · rfl
  · intro h
    cases x with
    | ok a =>
        rw [List.head?_eq_none_iff.mp h.symm]
        exact .ok a
    | error e =>
        obtain ⟨rest, rfl⟩ := List.head?_eq_some_iff.mp h.symm
        exact .error rest rfl

/-! ### Outcomes side by side -/

/-- Two outcomes with one error, or with related results. -/
inductive Both (P : α → β → Prop) : Except ε α → Except ε β → Prop where
  | error (e : ε) : Both P (.error e) (.error e)
  | ok {a : α} {b : β} : P a b → Both P (.ok a) (.ok b)

/-- Related results that are mapped to one value leave one outcome. -/
theorem Both.map_eq {γ : Type} {P : α → β → Prop} {x : Except ε α} {y : Except ε β} {f : α → γ}
    {g : β → γ} (h : Both P x y) (hP : ∀ a b, P a b → f a = g b) : x.map f = y.map g := by
  cases h with
  | error e => rfl
  | ok hab => exact congrArg Except.ok (hP _ _ hab)

end RecordFilter.Outcome
