import RecordFilter.Proofs.Filter.Active
import RecordFilter.Proofs.Filter.Build
import RecordFilter.Proofs.Query.Related
import RecordFilter.Proofs.Schema.Lookup

/-!
# What an answer can give away

Requests resolve their paths in the type itself, where ignore markers do not count.  So an answer
can depend on a hidden field, but only if the request names the field: a predicate sees a record at
the paths of its active filters, and the sort keys at their own paths.  Of a record that stands in a
field they see only that it is one.

* `dependsOn_of_compile`: a compiled predicate depends on the paths of its active filters.
* `positions_eq_of_agree`: items that agree on what the schema shows, and on the hidden fields that
  a request names, are selected alike.
* `passwordHash_selects`: a request that names a hidden field tells such items apart.
-/

namespace RecordFilter

open Outcome

/-! ### Surfaces -/

namespace FieldValue

/-- What predicates and sort keys see of a field value: of a record, only that it is one. -/
def surface : FieldValue → FieldValue
  | record _ => record []
  | v => v

/-- Values with one surface differ inside records at most. -/
theorem eq_or_records_of_surface {v w : FieldValue} (h : v.surface = w.surface) :
    v = w ∨ ∃ f g, v = record f ∧ w = record g := by
  cases v with
  | record f =>
      cases w with
      | record g => exact .inr ⟨f, g, rfl, rfl⟩
      | _ => cases h
  | _ =>
      cases w with
      | record g => cases h
      | _ => exact .inl h

/-- The order of values does not look inside records. -/
theorem order_surface (v w : FieldValue) : v.surface.order w.surface = v.order w := by
  cases v <;> cases w <;> rfl

end FieldValue

/-- Two records look alike at the paths of a set. -/
def AlikeAt (S : FieldPath → Prop) (r r' : Record) : Prop :=
  ∀ p, S p → (p.value r).surface = (p.value r').surface

/-- Records that agree at some paths agree at fewer. -/
theorem AlikeAt.mono {S S' : FieldPath → Prop} {r r' : Record} (h : AlikeAt S r r')
    (hle : ∀ p, S' p → S p) : AlikeAt S' r r' :=
  fun p hp => h p (hle p hp)

/-! ### What predicates depend on -/

/-- A predicate depends on the paths of a set: it holds of records together that look alike
there. -/
def Predicate.DependsOn (S : FieldPath → Prop) (q : Predicate) : Prop :=
  ∀ r r', AlikeAt S r r' → q.holds r = q.holds r'

namespace Predicate

variable {S : FieldPath → Prop} {q q' : Predicate} {path : FieldPath}

/-- A single condition depends on the path that it reads. -/
theorem dependsOn_of_path? (hq : q.path? = some path) (hpath : S path) : q.DependsOn S := by
  intro r r' halike
  rcases FieldValue.eq_or_records_of_surface (halike path hpath) with heq | ⟨f, g, hf, hg⟩
  · cases q <;> cases hq <;> simp only [holds, heq]
  · -- no condition tells one record from another
    cases q <;> cases hq <;> simp only [holds, hf, hg] <;> rfl

theorem DependsOn.and (h : q.DependsOn S) (h' : q'.DependsOn S) : (and q q').DependsOn S := by
  intro r r' hr
  rw [holds, holds, h r r' hr, h' r r' hr]

theorem DependsOn.or (h : q.DependsOn S) (h' : q'.DependsOn S) : (or q q').DependsOn S := by
  intro r r' hr
  rw [holds, holds, h r r' hr, h' r r' hr]

end Predicate

namespace FilterContext

open Predicate

variable {ctx : FilterContext} {F : TypeFamily} {S : FieldPath → Prop} {path : FieldPath}
  {t : TypeExpr} {q : Predicate}

/-- Whatever the operator, a predicate depends on the path of its filter. -/
theorem dependsOn_of_apply {separator : String} {o : Operator} {arguments : List Raw}
    (hpath : S path) (h : apply F separator path t o arguments = .ok q) : q.DependsOn S := by
  refine apply_closed (fun _ _ hp hq => hp.or hq) (fun _ _ hp hq => hp.and hq)
    (dependsOn_of_path? rfl hpath) (dependsOn_of_path? rfl hpath)
    (fun op raw p _ hcomparison => ?_) (fun _ _ => dependsOn_of_path? rfl hpath)
    (fun _ _ => dependsOn_of_path? rfl hpath) h
  obtain ⟨operand, -, rfl⟩ := map_eq_ok.mp hcomparison
  exact dependsOn_of_path? rfl hpath

/-- A compiled predicate depends on the paths of its active filters. -/
theorem dependsOn_of_compile {tree : FilterTree} (h : ctx.compile tree = .ok q) :
    q.DependsOn fun p => ∃ u t, tree.Active u ∧
      FieldPath.resolve ctx.family ctx.element u.first.path = .ok (p, t) := by
  refine compile_closed_active (fun c p q hp hq => ?_) (fun u hu q hq => ?_) h
  · cases c with
    | and => exact hp.and hq
    | or => exact hp.or hq
  · obtain ⟨path, t, hr, -, -, happly⟩ := build_eq_ok.mp (predicate_eq_ok.mp hq)
    exact dependsOn_of_apply ⟨u, t, hu, hr⟩ happly

end FilterContext

/-! ### What sort keys depend on -/

namespace SortKey

variable {keys : List SortKey}

/-- Every sort key comes from a path that the request names. -/
theorem exists_of_resolve {F : TypeFamily} {element : TypeExpr} {specs : List SortSpec}
    (h : resolve F element specs = .ok keys) {k : SortKey} (hk : k ∈ keys) :
    ∃ s ∈ specs, ∃ t, FieldPath.resolve F element s.path = .ok (k.path, t) := by
  obtain ⟨s, hs, hkey⟩ := exists_of_mapM h hk
  refine ⟨s, hs, ?_⟩
  cases hr : FieldPath.resolve F element s.path with
  | error fault => rw [hr] at hkey; cases hkey
  | ok found =>
      rw [hr] at hkey
      cases hkey
      exact ⟨found.2, rfl⟩

/-- Keys order records that look alike at their paths alike. -/
theorem lexicographic_congr {S : FieldPath → Prop} (hkeys : ∀ k ∈ keys, S k.path)
    {r s r' s' : Record} (hr : AlikeAt S r r') (hs : AlikeAt S s s') :
    lexicographic keys r s = lexicographic keys r' s' := by
  induction keys with
  | nil => rfl
  | cons k keys ih =>
      have hk : S k.path := hkeys k List.mem_cons_self
      have horder : k.order r s = k.order r' s' := by
        unfold order
        rw [← FieldValue.order_surface (k.path.value r), hr k.path hk, hs k.path hk,
          FieldValue.order_surface]
      rw [lexicographic, lexicographic, horder, ih fun k hk => hkeys k (List.mem_cons_of_mem _ hk)]

end SortKey

/-! ### What is shown, and what is named -/

/-- The schema that honours ignore markers has a node at a path. -/
def TypeFamily.Shows (F : TypeFamily) (element : TypeExpr) (depth : Nat) (text : String) : Prop :=
  ∃ s, F.schema? element depth false = some s ∧ (s.find? text).isSome

/-- A request names a path, in an active filter or in a sort key. -/
def Request.Names (r : Request) (text : String) : Prop :=
  (∃ tree u, r.filter = some tree ∧ tree.Active u ∧ u.first.path = text) ∨
    ∃ s ∈ r.page.orderBy, s.path = text

/-- Two records look alike wherever texts of a set resolve. -/
def AgreeOn (F : TypeFamily) (element : TypeExpr) (T : String → Prop) : Record → Record → Prop :=
  AlikeAt fun p => ∃ text t, T text ∧ FieldPath.resolve F element text = .ok (p, t)

/-- What a path reads depends on the field at its head only. -/
theorem FieldPath.value_congr {p : FieldPath} {r r' : Record}
    (h : r.field? p.head = r'.field? p.head) : p.value r = p.value r' := by
  unfold value
  rw [h]

namespace TypeFamily

variable {F : TypeFamily} {element : TypeExpr} {depth : Nat}

/-- What is shown is a visible field, or stands in one. -/
theorem Shows.exists_shownField? {text name : String} {names : List String}
    (h : F.Shows element depth text) (hnames : FieldPath.segments text = name :: names) :
    ∃ f, F.shownField? false element name = some f := by
  obtain ⟨s, hs, hfind⟩ := h
  cases depth with
  | zero => cases hs
  | succ depth =>
      obtain ⟨n, hn⟩ := Option.isSome_iff_exists.mp hfind
      have hfollow : s.follow? (name :: names) = some n := by rw [← hnames]; exact hn
      obtain ⟨-, hnone⟩ | ⟨f, s', -, hf, -, -⟩ := property?_of_schemaAt hs name
      · rw [Schema.follow?, hnone] at hfollow
        cases hfollow
      · exact ⟨f, hf⟩

/-- Records that differ in a hidden field only agree on everything that is shown. -/
theorem agreeOn_shows (name : String) (hhidden : F.shownField? false element name = none)
    {r r' : Record} (h : ∀ name' ≠ name, r.field? name' = r'.field? name') :
    AgreeOn F element (F.Shows element depth) r r' := by
  rintro p ⟨text, t, hshows, hr⟩
  obtain ⟨f, hf⟩ := hshows.exists_shownField? (resolve_eq_ok.mp hr).1.symm
  have hne : p.head ≠ name := by
    rintro rfl
    rw [hhidden] at hf
    cases hf
  rw [FieldPath.value_congr (h p.head hne)]

end TypeFamily

namespace Engine

variable {e : Engine} {r : Request} {α : Type} {view : α → Record} {xs ys : List α}

/-- Items of two lists agree position by position wherever texts of a set resolve. -/
def ItemsAgree (e : Engine) (view : α → Record) (T : String → Prop) (xs ys : List α) : Prop :=
  List.Forall₂ (fun x y => AgreeOn e.family e.element T (view x) (view y)) xs ys

/-- The schema that honours ignore markers has a node at a path. -/
def Shows (e : Engine) (depth : Nat) (text : String) : Prop := e.family.Shows e.element depth text

/-- The positions of an answer depend on the paths that the request names. -/
theorem positions_eq_of_names (h : e.ItemsAgree view r.Names xs ys) :
    e.positions view xs r = e.positions view ys r := by
  refine positions_eq_of_related (fun q hq x y hxy => ?_) (fun keys hkeys x y x' y' hx hy => ?_) h
  · unfold predicate at hq
    cases hfilter : r.filter with
    | none => rw [hfilter] at hq; cases hq
    | some tree =>
        rw [hfilter] at hq
        obtain ⟨q', hcompile, heq⟩ := map_eq_ok.mp hq
        cases heq
        refine FilterContext.dependsOn_of_compile hcompile _ _ (hxy.mono ?_)
        rintro p ⟨u, t, hu, hr⟩
        exact ⟨u.first.path, t, .inl ⟨tree, u, hfilter, hu, rfl⟩, hr⟩
  · refine SortKey.lexicographic_congr (fun k hk => ?_) hx hy
    obtain ⟨s, hs, t, hr⟩ := SortKey.exists_of_resolve hkeys hk
    exact ⟨s.path, t, .inr ⟨s, hs, rfl⟩, hr⟩

/-- **What a request does not name it does not give away.**  Take two lists, the items of which
agree position by position on everything that the schema shows which honours ignore markers, and on
the hidden fields that a request names.  Over both lists the request has one answer: the same error,
or pages that count the same number of items and select the same positions in the same order. -/
theorem positions_eq_of_agree (e : Engine) (depth : Nat) (r : Request)
    (hshown : e.ItemsAgree view (e.Shows depth) xs ys)
    (hnamed : e.ItemsAgree view (fun text => r.Names text ∧ ¬ e.Shows depth text) xs ys) :
    ∃ answer, e.positions view xs r = answer ∧ e.positions view ys r = answer ∧
      e.execute view xs r = answer.map (Page.pick xs) ∧
      e.execute view ys r = answer.map (Page.pick ys) := by
  have hagree : e.ItemsAgree view r.Names xs ys := by
    refine List.Forall₂.mp (fun x y hs => ?_) hshown hnamed
    intro hn p
    rintro ⟨text, t, hnames, hr⟩
    by_cases hshows : e.Shows depth text
    · exact hs p ⟨text, t, hshows, hr⟩
    · exact hn p ⟨text, t, ⟨hnames, hshows⟩, hr⟩
  have heq := positions_eq_of_names hagree
  refine ⟨e.positions view xs r, rfl, heq.symm, execute_eq_pick xs, ?_⟩
  rw [heq]
  exact execute_eq_pick ys

/-- A person with the hash of a password. -/
def member (hash : String) : Value :=
  .record [("id", .atom (.uuid ⟨1, by decide⟩)), ("name", .atom (.string "Ann")),
    ("age", .atom (.integer .int32 ⟨36, by decide⟩)), ("externalId", .absent),
    ("status", .enum "Active"), ("address", .absent), ("tags", .list []), ("bornOn", .absent),
    ("manager", .absent), ("passwordHash", .atom (.string hash))]

/-- A member is a person, whatever its hash. -/
theorem hasType_member (hash : String) :
    (member hash).HasType Sample.family Sample.person.type := by
  refine .composite (show Sample.family "Person" = _ from rfl) rfl ?_
  simp only [Sample.personFields, List.zip_cons_cons, List.zip_nil_left, List.forall_mem_cons]
  refine ⟨.atomic, .atomic, .atomic, .absent, .enumeration rfl (by decide), .absent, .list nofun,
    .absent, .absent, .atomic, nofun⟩

/-- Members differ in the hash at most. -/
theorem field?_member {hash hash' name : String} (h : name ≠ "passwordHash") :
    (member hash).asRecord.field? name = (member hash').asRecord.field? name := by
  have hlast : (name == "passwordHash") = false := beq_false_of_ne h
  simp [member, Value.asRecord, Value.view, Value.viewFields, Record.field?, List.lookup_cons,
    hlast]

/-- Members that differ in the hash only agree on everything that is shown. -/
theorem agreeOn_member (depth : Nat) (hash hash' : String) :
    AgreeOn Sample.family Sample.person.type (Sample.family.Shows Sample.person.type depth)
      (member hash).asRecord (member hash').asRecord :=
  TypeFamily.agreeOn_shows "passwordHash" (by decide) fun _ => field?_member

/-- The second page names no path but the age. -/
theorem eq_of_names_secondPage {text : String} (h : secondPage.Names text) : text = "age" := by
  rcases h with ⟨tree, u, htree, hu, rfl⟩ | ⟨s, hs, rfl⟩
  · cases htree
    rw [FilterTree.active_node_none.mp hu]
    rfl
  · rw [List.mem_singleton.mp hs]

/-- Three members with hashes of their own. -/
def members (hash hash' hash'' : String) : List Value := [member hash, member hash', member hash'']

/-- Whatever the hashes, the second page of two members is the third of three. -/
theorem members_secondPage :
    peopleEngine.ItemsAgree Value.asRecord (peopleEngine.Shows 3) (members "h1" "h2" "h3")
        (members "h4" "h5" "h6") ∧
      peopleEngine.ItemsAgree Value.asRecord
        (fun text => secondPage.Names text ∧ ¬ peopleEngine.Shows 3 text) (members "h1" "h2" "h3")
        (members "h4" "h5" "h6") ∧
      peopleEngine.positions Value.asRecord (members "h1" "h2" "h3") secondPage =
        .ok ⟨[2], 3, 1, 2⟩ ∧
      peopleEngine.positions Value.asRecord (members "h4" "h5" "h6") secondPage =
        .ok ⟨[2], 3, 1, 2⟩ := by
  have hshown : peopleEngine.ItemsAgree Value.asRecord (peopleEngine.Shows 3)
      (members "h1" "h2" "h3") (members "h4" "h5" "h6") :=
    .cons (agreeOn_member 3 _ _) (.cons (agreeOn_member 3 _ _) (.cons (agreeOn_member 3 _ _) .nil))
  have hnamed : peopleEngine.ItemsAgree Value.asRecord
      (fun text => secondPage.Names text ∧ ¬ peopleEngine.Shows 3 text)
      (members "h1" "h2" "h3") (members "h4" "h5" "h6") := by
    refine hshown.imp fun x y _ => ?_
    rintro p ⟨text, t, ⟨hnames, hhidden⟩, -⟩
    -- the page is asked for by age alone, and that is shown
    have hage : peopleEngine.Shows 3 "age" := ⟨_, rfl, rfl⟩
    rw [eq_of_names_secondPage hnames] at hhidden
    exact absurd hage hhidden
  obtain ⟨answer, hx, hy, -⟩ := positions_eq_of_agree peopleEngine 3 secondPage hshown hnamed
  have hanswer : peopleEngine.positions Value.asRecord (members "h1" "h2" "h3") secondPage =
      .ok ⟨[2], 3, 1, 2⟩ := rfl
  exact ⟨hshown, hnamed, hanswer, hy.trans (hx.symm.trans hanswer)⟩

/-- Members whose hash is a text that the client has chosen. -/
def byHash : Request :=
  ⟨some (.single ⟨"passwordHash", .equalTo, [.scalar (.text "h1")]⟩), .default⟩

/-- A request that names a hidden field tells people apart who agree on everything that is shown:
the hash of a password is read out by asking for it. -/
theorem passwordHash_selects :
    peopleEngine.settings.overrideIgnores = false ∧
      (member "h1").HasType peopleEngine.family peopleEngine.element ∧
      (member "h2").HasType peopleEngine.family peopleEngine.element ∧
      peopleEngine.ItemsAgree Value.asRecord (peopleEngine.Shows 3) [member "h1"] [member "h2"] ∧
      peopleEngine.positions Value.asRecord [member "h1"] byHash = .ok ⟨[0], 1, 0, 50⟩ ∧
      peopleEngine.positions Value.asRecord [member "h2"] byHash ≠
        peopleEngine.positions Value.asRecord [member "h1"] byHash := by
  have hfound : peopleEngine.positions Value.asRecord [member "h1"] byHash =
      .ok ⟨[0], 1, 0, 50⟩ := rfl
  have hmissed : peopleEngine.positions Value.asRecord [member "h2"] byHash =
      .ok ⟨[], 0, 0, 50⟩ := rfl
  refine ⟨rfl, hasType_member "h1", hasType_member "h2", .cons (agreeOn_member 3 "h1" "h2") .nil,
    hfound, ?_⟩
  rw [hfound, hmissed]
  intro heq
  cases heq

end Engine

end RecordFilter
