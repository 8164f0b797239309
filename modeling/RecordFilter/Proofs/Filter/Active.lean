import RecordFilter.Proofs.Filter.Tree
import RecordFilter.Proofs.Outcome

/-!
# Active nodes and the first fault

Compilation visits the nodes of a tree in pre-order and skips what stands below a node without
connective.  The nodes that it visits are *active* (`FilterTree.Active`), and
`FilterTree.activeNodes` lists them in the order of the visit.

* `mem_activeNodes`: the nodes listed are the active ones.
* `compile_closed_active`: what holds of the predicates of the active filters and is kept by joining
  holds of the compiled tree.
* `fault?_compile`: the error of a tree is the first error among the filters of its active nodes.
* `compile_pruned`: what stands below a node without connective makes no difference.
* `compile_firstFault`: when a tree has a predicate, and which error it gives otherwise.
-/

namespace RecordFilter

namespace FilterTree

/-- The filter that a node starts with. -/
def first : FilterTree → PropertyFilter
  | .node first _ _ => first

@[simp]
theorem first_node (f : PropertyFilter) (c : Option Connective) (others : List FilterTree) :
    (node f c others).first = f := rfl

/-! ### Active nodes -/

/-- The active nodes of a tree: its root, and the further trees of an active node that has a
connective. -/
inductive Active (t : FilterTree) : FilterTree → Prop where
  | root : Active t t
  | further {first : PropertyFilter} {c : Connective} {others : List FilterTree} {u : FilterTree} :
      Active t (.node first (some c) others) → u ∈ others → Active t u

mutual

/-- The active nodes in pre-order: a node, then those of its further trees from left to right. -/
def activeNodes : FilterTree → List FilterTree
  | .node first none others => [.node first none others]
  | .node first (some c) others => .node first (some c) others :: activeNodesOf others

/-- The active nodes of trees, one tree after the other. -/
def activeNodesOf : List FilterTree → List FilterTree
  | [] => []
  | t :: rest => activeNodes t ++ activeNodesOf rest

end

/-- The active nodes of a list are those of its members. -/
theorem mem_activeNodesOf {ts : List FilterTree} {u : FilterTree} :
    u ∈ activeNodesOf ts ↔ ∃ t ∈ ts, u ∈ t.activeNodes := by
  induction ts with
  | nil => simp [activeNodesOf]
  | cons t ts ih => simp [activeNodesOf, ih]

/-- Without a connective only the node itself is active. -/
theorem active_node_none {first : PropertyFilter} {others : List FilterTree} {u : FilterTree} :
    Active (.node first none others) u ↔ u = .node first none others := by
  constructor
  · intro h
    induction h with
    | root => rfl
    | further _ _ ih => cases ih
  · rintro rfl
    exact .root

/-- With one the nodes of the further trees are active too. -/
theorem active_node_some {first : PropertyFilter} {c : Connective} {others : List FilterTree}
    {u : FilterTree} :
    Active (.node first (some c) others) u ↔
      u = .node first (some c) others ∨ ∃ t ∈ others, Active t u := by
  constructor
  · intro h
    induction h with
    | root => exact .inl rfl
    | further _ hu ih =>
        rcases ih with heq | ⟨t, ht, hactive⟩
        · cases heq
          exact .inr ⟨_, hu, .root⟩
        · exact .inr ⟨t, ht, .further hactive hu⟩
  · rintro (rfl | ⟨t, ht, hactive⟩)
    · exact .root
    · induction hactive with
      | root => exact .further .root ht
      | further _ hu ih => exact .further ih hu

/-- The nodes listed are the active ones. -/
theorem mem_activeNodes {t u : FilterTree} : u ∈ t.activeNodes ↔ Active t u := by
  induction t using FilterTree.induct with
  | node first c others ih =>
      cases c with
      | none => rw [activeNodes, active_node_none, List.mem_singleton]
      | some c =>
          rw [activeNodes, active_node_some, List.mem_cons, mem_activeNodesOf]
          exact or_congr_right (exists_congr fun t => and_congr_right fun ht => ih t ht)

/-! ### Pruning -/

mutual

/-- A tree without what stands below its nodes without connective. -/
def pruned : FilterTree → FilterTree
  | .node first none _ => .node first none []
  | .node first (some c) others => .node first (some c) (prunedAll others)

/-- Trees without what stands below their nodes without connective. -/
def prunedAll : List FilterTree → List FilterTree
  | [] => []
  | t :: rest => pruned t :: prunedAll rest

end

end FilterTree

namespace FilterContext

open Outcome FilterTree

variable {ctx : FilterContext}

/-! ### Closed properties -/

section Closed

variable {P : Predicate → Prop} (join_closed : ∀ c p q, P p → P q → P (join c p q))
include join_closed

/-- What joining keeps holds of trees joined to a predicate. -/
theorem compileOthers_closed {c : Connective} {ts : List FilterTree}
    (ih : ∀ t ∈ ts, ∀ q, ctx.compile t = .ok q → P q) {p q : Predicate} (hp : P p)
    (h : ctx.compileOthers c p ts = .ok q) : P q := by
  -- the predicate joined so far changes with each tree
  induction ts generalizing p with
  | nil => cases h; exact hp
  | cons t ts ihs =>
      obtain ⟨p', ht, hts⟩ := compileOthers_cons h
      have hp' : P p' := ih t List.mem_cons_self p' ht
      exact ihs (fun u hu => ih u (List.mem_cons_of_mem _ hu)) (join_closed c p p' hp hp') hts

/-- What holds of the predicates of the active filters and is kept by joining holds of the compiled
tree. -/
theorem compile_closed_active {t : FilterTree}
    (predicate_closed : ∀ u, t.Active u → ∀ q, ctx.predicate u.first = .ok q → P q)
    {q : Predicate} (h : ctx.compile t = .ok q) : P q := by
  induction t using FilterTree.induct generalizing q with
  | node first c others ih =>
      cases c with
      | none =>
          rw [compile_node_none] at h
          exact predicate_closed _ .root q h
      | some c =>
          obtain ⟨p, hp, hq⟩ := compile_node_some h
          refine compileOthers_closed join_closed (fun t ht q hq => ?_)
            (predicate_closed _ .root p hp) hq
          exact ih t ht (fun u hu => predicate_closed u (active_node_some.mpr (.inr ⟨t, ht, hu⟩)))
            hq

/-- What holds of the predicates of single filters and is kept by joining holds of every compiled
tree. -/
theorem compile_closed (predicate_closed : ∀ f q, ctx.predicate f = .ok q → P q) {t : FilterTree}
    {q : Predicate} (h : ctx.compile t = .ok q) : P q :=
  compile_closed_active join_closed (fun u _ q hq => predicate_closed u.first q hq) h

end Closed

/-! ### The first fault -/

/-- Trees joined to a predicate fail for the first of their active nodes that does. -/
theorem fault?_compileOthers {c : Connective} {ts : List FilterTree}
    (ih : ∀ t ∈ ts, fault? (ctx.compile t) =
      t.activeNodes.findSome? fun u => fault? (ctx.predicate u.first)) (p : Predicate) :
    fault? (ctx.compileOthers c p ts) =
      (activeNodesOf ts).findSome? fun u => fault? (ctx.predicate u.first) := by
  -- the predicate joined so far changes with each tree, and no fault depends on it
  induction ts generalizing p with
  | nil => rfl
  | cons t ts ihs =>
      have ht := ih t List.mem_cons_self
      rw [compileOthers, activeNodesOf, List.findSome?_append, ← ht]
      cases ctx.compile t with
      | error e => rfl
      | ok q => exact ihs (fun u hu => ih u (List.mem_cons_of_mem _ hu)) (join c p q)

/-- The error of a tree is the first error among the filters of its active nodes. -/
theorem fault?_compile (t : FilterTree) :
    fault? (ctx.compile t) =
      t.activeNodes.findSome? fun u => fault? (ctx.predicate u.first) := by
  induction t using FilterTree.induct with
  | node first c others ih =>
      cases c with
      | none =>
          rw [compile_node_none, activeNodes, List.findSome?_singleton, first_node]
      | some c =>
          rw [compile, activeNodes, List.findSome?_cons, first_node]
          cases ctx.predicate first with
          | error e => rfl
          | ok p => exact fault?_compileOthers ih p

/-! ### What is not active -/

/-- Trees that are never looked at may be cut off before joining. -/
theorem compileOthers_prunedAll {c : Connective} {ts : List FilterTree}
    (ih : ∀ t ∈ ts, ctx.compile t.pruned = ctx.compile t) (p : Predicate) :
    ctx.compileOthers c p (prunedAll ts) = ctx.compileOthers c p ts := by
  induction ts generalizing p with
  | nil => rfl
  | cons t ts ihs =>
      rw [prunedAll, compileOthers, compileOthers, ih t List.mem_cons_self]
      cases ctx.compile t with
      | error e => rfl
      | ok q => exact ihs (fun u hu => ih u (List.mem_cons_of_mem _ hu)) (join c p q)

/-- What stands below a node without connective makes no difference. -/
theorem compile_pruned (t : FilterTree) : ctx.compile t.pruned = ctx.compile t := by
  induction t using FilterTree.induct with
  | node first c others ih =>
      cases c with
      | none => rw [pruned, compile_node_none, compile_node_none]
      | some c =>
          rw [pruned, compile, compile]
          cases ctx.predicate first with
          | error e => rfl
          | ok p => exact compileOthers_prunedAll ih p

/-- **The first fault rejects the whole tree.**  A tree has a predicate exactly when the first
filter of each active node has one.  Otherwise its error, with path and message, is the one of the
first active node in pre-order whose filter has none.  Trees that differ only below nodes without
connective have the same predicate or the same error. -/
theorem compile_firstFault (ctx : FilterContext) (t : FilterTree) :
    ((∃ q, ctx.compile t = .ok q) ↔ ∀ u, t.Active u → ∃ q, ctx.predicate u.first = .ok q) ∧
    (∀ e, ctx.compile t = .error e ↔
      ∃ before u after, t.activeNodes = before ++ u :: after ∧
        (∀ v ∈ before, ∃ q, ctx.predicate v.first = .ok q) ∧ ctx.predicate u.first = .error e) ∧
    ∀ t', t'.pruned = t.pruned → ctx.compile t' = ctx.compile t := by
  refine ⟨?_, fun e => ?_, fun t' h => ?_⟩
  · rw [← fault?_eq_none, fault?_compile, List.findSome?_eq_none_iff]
    simp only [mem_activeNodes, fault?_eq_none]
  · rw [← fault?_eq_some, fault?_compile, List.findSome?_eq_some_iff]
    simp only [fault?_eq_none, fault?_eq_some]
    constructor
    · rintro ⟨before, u, after, hnodes, hu, hbefore⟩
      exact ⟨before, u, after, hnodes, hbefore, hu⟩
    · rintro ⟨before, u, after, hnodes, hbefore, hu⟩
      exact ⟨before, u, after, hnodes, hu, hbefore⟩
  · rw [← compile_pruned t', h, compile_pruned t]

end FilterContext

end RecordFilter
