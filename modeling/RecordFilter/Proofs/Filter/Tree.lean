import RecordFilter.Filter.Compile

/-!
# Filter trees under compilation

A tree is compiled from its first filter on: each further tree is compiled by itself and joined to
what stands before it.

* `FilterTree.induct`: induction over trees, with a hypothesis for each further tree.
* `compile_node_some`, `compileOthers_cons`: what a compiled node has gone through.
-/

namespace RecordFilter

/-- Induction over trees: what holds of a node whenever it holds of all its further trees holds of
every tree. -/
@[elab_as_elim]
theorem FilterTree.induct {P : FilterTree → Prop}
    (node : ∀ first c others, (∀ t ∈ others, P t) → P (.node first c others)) : ∀ t, P t
  | .node first c others => node first c others fun t _ => FilterTree.induct node t

namespace FilterContext

variable {ctx : FilterContext}

/-- A node without connective is compiled as its first filter. -/
theorem compile_node_none (first : PropertyFilter) (others : List FilterTree) :
    ctx.compile (.node first none others) = ctx.predicate first := by
  rw [compile]

/-- A node with a connective has a predicate only if its first filter has one, to which its
further trees are joined. -/
theorem compile_node_some {first : PropertyFilter} {c : Connective} {others : List FilterTree}
    {q : Predicate} (h : ctx.compile (.node first (some c) others) = .ok q) :
    ∃ p, ctx.predicate first = .ok p ∧ ctx.compileOthers c p others = .ok q := by
  rw [compile] at h
  cases hp : ctx.predicate first with
  | error e => rw [hp] at h; cases h
  | ok p => rw [hp] at h; exact ⟨p, rfl, h⟩

/-- A tree is compiled by itself before it is joined to what stands before it. -/
theorem compileOthers_cons {c : Connective} {p q : Predicate} {t : FilterTree}
    {ts : List FilterTree} (h : ctx.compileOthers c p (t :: ts) = .ok q) :
    ∃ p', ctx.compile t = .ok p' ∧ ctx.compileOthers c (join c p p') ts = .ok q := by
  rw [compileOthers] at h
  cases ht : ctx.compile t with
  | error e => rw [ht] at h; cases h
  | ok p' => rw [ht] at h; exact ⟨p', rfl, h⟩

end FilterContext

end RecordFilter
