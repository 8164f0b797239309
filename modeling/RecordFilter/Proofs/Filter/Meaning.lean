import RecordFilter.Proofs.Filter.Tree
import RecordFilter.Samples

/-!
# What a filter tree says of a record

`FilterTree.meaning` reads a tree without compiling it: a node says what its first filter says,
and all or some of its further trees, as its connective tells; without a connective they say
nothing.  Compilation instead runs through the further trees from left to right and joins each to
what it has so far.

* `compileOthers_holds`: joining from left to right folds the connective over what the trees say.
* `holds_eq_meaning_of_compile`: a compiled tree holds of a record exactly when the tree says so.
  So the connective of a further tree reaches neither the node above it nor the trees after it.
-/

namespace RecordFilter

/-- Whether a record satisfies the predicate of a filter, if it has one. -/
def FilterContext.satisfied (ctx : FilterContext) (r : Record) (f : PropertyFilter) : Bool :=
  match ctx.predicate f with
  | .ok p => p.holds r
  | .error _ => false

namespace FilterTree

variable (ctx : FilterContext) (r : Record)

mutual

/-- What a tree says of a record. -/
def meaning : FilterTree → Bool
  | .node first none _ => ctx.satisfied r first
  | .node first (some .and) others => ctx.satisfied r first && everyMeaning others
  | .node first (some .or) others => ctx.satisfied r first || someMeaning others

/-- Whether every tree of a list says so. -/
def everyMeaning : List FilterTree → Bool
  | [] => true
  | t :: rest => meaning t && everyMeaning rest

/-- Whether some tree of a list says so. -/
def someMeaning : List FilterTree → Bool
  | [] => false
  | t :: rest => meaning t || someMeaning rest

end

theorem everyMeaning_eq_all (ts : List FilterTree) :
    everyMeaning ctx r ts = ts.all (meaning ctx r) := by
  induction ts with
  | nil => rfl
  | cons t ts ih => rw [everyMeaning, ih, List.all_cons]

theorem someMeaning_eq_any (ts : List FilterTree) :
    someMeaning ctx r ts = ts.any (meaning ctx r) := by
  induction ts with
  | nil => rfl
  | cons t ts ih => rw [someMeaning, ih, List.any_cons]

end FilterTree

/-! ### Folding a connective -/

namespace Connective

/-- A connective on truth values. -/
def apply : Connective → Bool → Bool → Bool
  | .and, a, b => a && b
  | .or, a, b => a || b

theorem foldl_and (bs : List Bool) (b : Bool) : bs.foldl and.apply b = (b && bs.all id) := by
  induction bs generalizing b with
  | nil => simp
  | cons c bs ih => rw [List.foldl_cons, ih, List.all_cons, apply, id, Bool.and_assoc]

theorem foldl_or (bs : List Bool) (b : Bool) : bs.foldl or.apply b = (b || bs.any id) := by
  induction bs generalizing b with
  | nil => simp
  | cons c bs ih => rw [List.foldl_cons, ih, List.any_cons, apply, id, Bool.or_assoc]

end Connective

namespace FilterContext

variable {ctx : FilterContext} {r : Record}

theorem holds_join (c : Connective) (p q : Predicate) :
    (join c p q).holds r = c.apply (p.holds r) (q.holds r) := by
  cases c <;> rfl

/-- A leaf is satisfied where the predicate built from it holds. -/
theorem satisfied_eq_holds {f : PropertyFilter} {p : Predicate} (h : ctx.predicate f = .ok p) :
    ctx.satisfied r f = p.holds r := by
  rw [satisfied, h]

/-- Joining from left to right folds the connective over what the trees say. -/
theorem compileOthers_holds {c : Connective} {ts : List FilterTree}
    (ih : ∀ t ∈ ts, ∀ p, ctx.compile t = .ok p → p.holds r = t.meaning ctx r) {p q : Predicate}
    (h : ctx.compileOthers c p ts = .ok q) :
    q.holds r = (ts.map (FilterTree.meaning ctx r)).foldl c.apply (p.holds r) := by
  induction ts generalizing p with
  | nil => cases h; rfl
  | cons t ts ihs =>
      obtain ⟨p', ht, hts⟩ := compileOthers_cons h
      rw [ihs (fun u hu => ih u (List.mem_cons_of_mem _ hu)) hts, holds_join,
        ih t List.mem_cons_self p' ht, List.map_cons, List.foldl_cons]

/-- **Meaning of a compiled tree.**  If a tree is compiled to a predicate, the predicate holds of
a record, whatever its fields, exactly when the tree says so. -/
theorem holds_eq_meaning_of_compile (r : Record) {t : FilterTree} {q : Predicate}
    (h : ctx.compile t = .ok q) : q.holds r = t.meaning ctx r := by
  induction t using FilterTree.induct generalizing q with
  | node first c others ih =>
      cases c with
      | none =>
          rw [compile_node_none] at h
          rw [FilterTree.meaning, satisfied_eq_holds h]
      | some c =>
          obtain ⟨p, hp, hq⟩ := compile_node_some h
          rw [compileOthers_holds (fun t ht p => ih t ht) hq]
          cases c with
          | and =>
              rw [Connective.foldl_and, FilterTree.meaning, satisfied_eq_holds hp,
                FilterTree.everyMeaning_eq_all, List.all_map, Function.id_comp]
          | or =>
              rw [Connective.foldl_or, FilterTree.meaning, satisfied_eq_holds hp,
                FilterTree.someMeaning_eq_any, List.any_map, Function.id_comp]

/-- People, with commas between the elements of a sequence. -/
def peopleContext : FilterContext := ⟨Sample.family, Sample.person.type, ","⟩

/-- Both connectives on three levels, and a further tree on an unknown field below a node without
connective. -/
def nestedTree : FilterTree :=
  .node ⟨"age", .greaterOrEqual, [.scalar (.int ⟨18, by decide⟩)]⟩ (some .and)
    [.node ⟨"status", .inSequence, [.scalar (.text "Active, Closed")]⟩ (some .or)
        [.node ⟨"address.city", .stringContains, [.scalar (.text "burg")]⟩ (some .and)
          [.single ⟨"tags", .collectionIsNotEmpty, []⟩]],
      .node ⟨"manager", .equalTo, [.null]⟩ none [.single ⟨"nowhere", .isNull, []⟩]]

/-- The predicate of `nestedTree`. -/
def nestedPredicate : Predicate :=
  .and
    (.and (.compare ⟨"age", none⟩ .ge (.atom (.integer .int32 ⟨18, by decide⟩)))
      (.or
        (.or (.compare ⟨"status", none⟩ .eq (.enum "Active"))
          (.compare ⟨"status", none⟩ .eq (.enum "Closed")))
        (.and (.contains ⟨"address", some "city"⟩ "burg") (.count ⟨"tags", none⟩ .gt 0))))
    (.isNull ⟨"manager", none⟩)

/-- A person of twenty in Hamburg with one tag. -/
def hamburger : Record :=
  [("age", .atom (.integer .int32 ⟨20, by decide⟩)), ("status", .enum "Suspended"),
    ("address", .record [("city", .atom (.string "Hamburg"))]), ("tags", .collection 1)]

/-- The mixed nest compiles to the joined predicates, which hold of the record as the tree means. -/
theorem nestedTree_meaning :
    peopleContext.compile nestedTree = .ok nestedPredicate ∧
      nestedPredicate.holds hamburger = nestedTree.meaning peopleContext hamburger ∧
      nestedTree.meaning peopleContext hamburger = true :=
  ⟨rfl, holds_eq_meaning_of_compile hamburger rfl, rfl⟩

end FilterContext

end RecordFilter
