import RecordFilter.Proofs.Filter.Terms

/-!
# Predicates told apart by their texts

A predicate without parts is written as a clause: what it speaks of, a word, and what follows the
word.  Neither of the first two has a blank in it, so a clause can be read from the left; the path
in it tells how the operand is written.  Parts stand between parentheses, and no clause begins with
one.

* `Legible.form?_eq`: the form of a predicate shows in its clause.
* `Legible.chars_append_inj`: clauses are told apart, whatever stops them.
* `Legible.text_append_inj`: predicates are told apart, whatever stops them.
* `text_eq_iff_of_compile`: compiled predicates with the same text are the same.
-/

namespace RecordFilter

open Text

/-! ### Words -/

/-- No two comparisons have one symbol. -/
theorem Comparison.symbol_inj {op op' : Comparison} (h : op.symbol.toList = op'.symbol.toList) :
    op = op' := by
  cases op <;> cases op' <;> first | rfl | exact absurd h (by decide)

theorem Comparison.not_mem_symbol (op : Comparison) : ' ' ∉ op.symbol.toList := by
  cases op <;> decide

/-- The word between two parts. -/
def Connective.word : Connective → List Char
  | .and => "AND".toList
  | .or => "OR".toList

/-- A connective is read off in front of a blank. -/
theorem Connective.word_append_inj {c c' : Connective} {rest rest' : List Char}
    (h : c.word ++ ' ' :: rest = c'.word ++ ' ' :: rest') : c = c' ∧ rest = rest' := by
  cases c <;> cases c' <;> cases h <;> exact ⟨rfl, rfl⟩

/-! ### Clauses -/

namespace Predicate

open FilterContext (join)

/-- The text of a predicate without parts: what it speaks of, a word, and what follows the word. -/
structure Clause where
  subject : List Char
  keyword : List Char
  object : List Char

/-- The text of a clause. -/
def Clause.chars (w : Clause) : List Char := w.subject ++ ' ' :: (w.keyword ++ ' ' :: w.object)

/-- The clause of a predicate without parts. -/
def clause? : Predicate → Option Clause
  | isNull path => some ⟨path.text.toList, "IS".toList, "NULL".toList⟩
  | isNotNull path => some ⟨path.text.toList, "IS".toList, "NOT NULL".toList⟩
  | compare path op operand => some ⟨path.text.toList, op.symbol.toList, operand.text.toList⟩
  | contains path needle => some ⟨path.text.toList, "CONTAINS".toList, (quoted needle).toList⟩
  | count path op number =>
    some ⟨"COUNT(".toList ++ path.text.toList ++ [')'], op.symbol.toList, (toString number).toList⟩
  | and _ _ | or _ _ => none

/-- The operands in a predicate. -/
def operands : Predicate → List Operand
  | compare _ _ operand => [operand]
  | and left right | or left right => operands left ++ operands right
  | isNull _ | isNotNull _ | contains _ _ | count _ _ _ => []

/-- The predicates whose texts can be read: paths consist of identifiers, and operands fit the type
that the path leads to. -/
inductive Legible (F : TypeFamily) (element : TypeExpr) : Predicate → Prop
  | isNull {p : FieldPath} (hp : p.IsPlain) : Legible F element (.isNull p)
  | isNotNull {p : FieldPath} (hp : p.IsPlain) : Legible F element (.isNotNull p)
  | compare {p : FieldPath} {t : TypeExpr} {op : Comparison} {v : Operand} (hp : p.IsPlain)
      (ht : p.Leads F element t) (hv : v.Fits (F.describe t).kind) :
    Legible F element (.compare p op v)
  | contains {p : FieldPath} {needle : String} (hp : p.IsPlain) :
    Legible F element (.contains p needle)
  | count {p : FieldPath} {op : Comparison} (hp : p.IsPlain) : Legible F element (.count p op 0)
  | and {q q' : Predicate} (hq : Legible F element q) (hq' : Legible F element q') :
    Legible F element (.and q q')
  | or {q q' : Predicate} (hq : Legible F element q) (hq' : Legible F element q') :
    Legible F element (.or q q')

/-- The forms of predicates without parts. -/
inductive Form where
  | isNull | isNotNull | compare | contains | count
deriving DecidableEq

/-- The form of a predicate without parts. -/
def form? : Predicate → Option Form
  | isNull _ => some .isNull
  | isNotNull _ => some .isNotNull
  | compare _ _ _ => some .compare
  | contains _ _ => some .contains
  | count _ _ _ => some .count
  | and _ _ | or _ _ => none

/-- The form that a clause shows, whatever follows its object. -/
def formOf (subject keyword object : List Char) : Form :=
  if '(' ∈ subject then .count
  else if keyword = "CONTAINS".toList then .contains
  else if keyword = "IS".toList then (if object.take 2 = ['N', 'U'] then .isNull else .isNotNull)
  else .compare

variable {F : TypeFamily} {element : TypeExpr} {p q : Predicate} {w w' : Clause}
  {rest rest' : List Char}

theorem toList_text_of_clause? (h : p.clause? = some w) : p.text.toList = w.chars := by
  cases p with
  | and | or => cases h
  | _ =>
      cases h
      simp [text, Clause.chars, String.toList_append, List.append_assoc]

/-- The form of a predicate without parts shows in its clause. -/
theorem Legible.form?_eq (hp : p.Legible F element) (hw : p.clause? = some w) (rest : List Char) :
    p.form? = some (formOf w.subject w.keyword (w.object ++ rest)) := by
  cases hp with
  | and | or => cases hw
  | isNull hp => cases hw; rw [formOf, if_neg hp.not_mem_paren]; rfl
  | isNotNull hp => cases hw; rw [formOf, if_neg hp.not_mem_paren]; rfl
  | @compare _ _ op _ hp => cases hw; rw [formOf, if_neg hp.not_mem_paren]; cases op <;> rfl
  | contains hp => cases hw; rw [formOf, if_neg hp.not_mem_paren]; rfl
  | count hp => cases hw; rw [formOf, if_pos (by simp)]; rfl

/-- A clause stands for one predicate, whatever follows it. -/
theorem Legible.clause_inj (hp : p.Legible F element) (hq : q.Legible F element)
    (hw : p.clause? = some w) (hw' : q.clause? = some w') (hsubject : w.subject = w'.subject)
    (hkeyword : w.keyword = w'.keyword) (hrest : Stops rest) (hrest' : Stops rest')
    (hobject : w.object ++ rest = w'.object ++ rest') : p = q ∧ rest = rest' := by
  have hform : p.form? = q.form? := by
    rw [hp.form?_eq hw rest, hq.form?_eq hw' rest', hsubject, hkeyword, hobject]
  cases hp with
  | and | or => cases hw
  | isNull hp =>
      cases hq with
      | isNull hq =>
          cases hw
          cases hw'
          rw [hp.text_inj hq hsubject]
          exact ⟨rfl, List.append_cancel_left hobject⟩
      | _ => cases hform
  | isNotNull hp =>
      cases hq with
      | isNotNull hq =>
          cases hw
          cases hw'
          rw [hp.text_inj hq hsubject]
          exact ⟨rfl, List.append_cancel_left hobject⟩
      | _ => cases hform
  | compare hp ht hv =>
      cases hq with
      | compare hq ht' hv' =>
          cases hw
          cases hw'
          -- the path is the same, so the operands belong to the same type
          obtain rfl := hp.text_inj hq hsubject
          obtain rfl := ht.unique ht'
          obtain rfl := Comparison.symbol_inj hkeyword
          obtain ⟨rfl, hrests⟩ := Operand.text_append_inj hv hv' hrest hrest' hobject
          exact ⟨rfl, hrests⟩
      | _ => cases hform
  | contains hp =>
      cases hq with
      | contains hq =>
          cases hw
          cases hw'
          dsimp only at hobject
          obtain rfl := hp.text_inj hq hsubject
          obtain ⟨rfl, hrests⟩ := quoted_append_inj hobject
          exact ⟨rfl, hrests⟩
      | _ => cases hform
  | count hp =>
      cases hq with
      | count hq =>
          cases hw
          cases hw'
          have htext := List.append_cancel_left (List.append_cancel_right hsubject)
          obtain rfl := hp.text_inj hq htext
          obtain rfl := Comparison.symbol_inj hkeyword
          exact ⟨rfl, List.append_cancel_left hobject⟩
      | _ => cases hform

theorem not_mem_keyword (hw : p.clause? = some w) : ' ' ∉ w.keyword := by
  have his : ' ' ∉ "IS".toList := by decide
  have hcontains : ' ' ∉ "CONTAINS".toList := by decide
  cases p with
  | and | or => cases hw
  | isNull | isNotNull => cases hw; exact his
  | compare _ op | count _ op => cases hw; exact op.not_mem_symbol
  | contains => cases hw; exact hcontains

theorem Legible.not_mem_subject (hp : p.Legible F element) (hw : p.clause? = some w) :
    ' ' ∉ w.subject := by
  cases hp with
  | and | or => cases hw
  | isNull hp | isNotNull hp | compare hp | contains hp => cases hw; exact hp.not_mem_blank
  | count hp =>
      have hblank := hp.not_mem_blank
      cases hw
      simp [hblank]

/-- A clause does not begin with a parenthesis. -/
theorem Legible.head_chars (hp : p.Legible F element) (hw : p.clause? = some w) :
    ∃ c cs, w.chars = c :: cs ∧ c ≠ '(' := by
  have hpath : ∀ {path : FieldPath} {keyword object : List Char}, path.IsPlain →
      ∃ c cs, (⟨path.text.toList, keyword, object⟩ : Clause).chars = c :: cs ∧ c ≠ '(' := by
    intro path keyword object hpath
    obtain ⟨c, cs, htext⟩ := List.exists_cons_of_ne_nil hpath.text_ne_nil
    have hmem : c ∈ path.text.toList := by
      rw [htext]
      exact List.mem_cons_self
    refine ⟨c, cs ++ ' ' :: (keyword ++ ' ' :: object), by rw [Clause.chars, htext]; rfl, ?_⟩
    rintro rfl
    exact hpath.not_mem_paren hmem
  cases hp with
  | and | or => cases hw
  | isNull hp | isNotNull hp | compare hp | contains hp => cases hw; exact hpath hp
  | count hp => cases hw; exact ⟨'C', _, rfl, by decide⟩

/-- Clauses are told apart, whatever stops them. -/
theorem Legible.chars_append_inj (hp : p.Legible F element) (hq : q.Legible F element)
    (hw : p.clause? = some w) (hw' : q.clause? = some w') (hrest : Stops rest)
    (hrest' : Stops rest') (h : w.chars ++ rest = w'.chars ++ rest') : p = q ∧ rest = rest' := by
  have hblank : ∀ {xs : List Char}, ' ' ∉ xs → ∀ c ∈ xs, ¬ c = ' ' := by
    rintro xs hxs c hc rfl
    exact hxs hc
  have hhead : ∀ xs : List Char, ∀ c ∈ (' ' :: xs).head?, c = ' ' := by
    intro xs c hc
    cases hc
    rfl
  simp only [Clause.chars, List.append_assoc, List.cons_append] at h
  obtain ⟨hsubject, h⟩ := append_inj_of_stop (hblank (hp.not_mem_subject hw))
    (hblank (hq.not_mem_subject hw')) (hhead _) (hhead _) h
  obtain ⟨hkeyword, h⟩ := append_inj_of_stop (hblank (not_mem_keyword hw))
    (hblank (not_mem_keyword hw')) (hhead _) (hhead _) (List.cons.inj h).2
  exact hp.clause_inj hq hw hw' hsubject hkeyword hrest hrest' (List.cons.inj h).2

/-! ### Parts -/

/-- A joined predicate is written in parentheses, the connective between blanks. -/
theorem toList_text_join (c : Connective) (left right : Predicate) :
    (join c left right).text.toList =
      '(' :: (left.text.toList ++ ' ' :: (c.word ++ ' ' :: (right.text.toList ++ [')']))) := by
  cases c <;> simp [join, text, Connective.word, String.toList_append, List.append_assoc]

/-- A predicate has a clause, or it has two parts. -/
theorem clause_or_join (p : Predicate) :
    (∃ w, p.clause? = some w) ∨ ∃ c left right, p = join c left right := by
  cases p with
  | and left right => exact .inr ⟨.and, left, right, rfl⟩
  | or left right => exact .inr ⟨.or, left, right, rfl⟩
  | _ => exact .inl ⟨_, rfl⟩

/-- What holds of predicates with a clause, and of two parts joined if of each, holds of every
predicate. -/
theorem induct_join {P : Predicate → Prop} (hclause : ∀ p w, p.clause? = some w → P p)
    (hjoin : ∀ c left right, P left → P right → P (join c left right)) (p : Predicate) : P p := by
  induction p with
  | and left right ihl ihr => exact hjoin .and left right ihl ihr
  | or left right ihl ihr => exact hjoin .or left right ihl ihr
  | _ => exact hclause _ _ rfl

/-- Both sides of a legible predicate are legible. -/
theorem Legible.of_join {c : Connective} {left right : Predicate}
    (h : (join c left right).Legible F element) :
    left.Legible F element ∧ right.Legible F element := by
  cases c with
  | and => cases h with | and hl hr => exact ⟨hl, hr⟩
  | or => cases h with | or hl hr => exact ⟨hl, hr⟩

/-- A clause does not look like parts between parentheses. -/
theorem Legible.chars_ne_join (hp : p.Legible F element) (hw : p.clause? = some w)
    (c : Connective) (left right : Predicate) :
    w.chars ++ rest ≠ (join c left right).text.toList ++ rest' := by
  obtain ⟨d, ds, hchars, hd⟩ := hp.head_chars hw
  rw [hchars, toList_text_join]
  exact fun h => hd (List.cons.inj h).1

/-- Legible predicates are told apart by their texts, whatever stops them. -/
theorem Legible.text_append_inj (hp : p.Legible F element) (hq : q.Legible F element)
    (hrest : Stops rest) (hrest' : Stops rest')
    (h : p.text.toList ++ rest = q.text.toList ++ rest') : p = q ∧ rest = rest' := by
  have hstops : ∀ xs : List Char, Stops (' ' :: xs) ∧ Stops (')' :: xs) := fun xs =>
    ⟨fun c hc => .inl (Option.some.inj hc).symm, fun c hc => .inr (Option.some.inj hc).symm⟩
  induction p using induct_join generalizing q rest rest' with
  | hclause p w hw =>
      rcases q.clause_or_join with ⟨w', hw'⟩ | ⟨c', left', right', rfl⟩
      · rw [toList_text_of_clause? hw, toList_text_of_clause? hw'] at h
        exact hp.chars_append_inj hq hw hw' hrest hrest' h
      · rw [toList_text_of_clause? hw] at h
        exact absurd h (hp.chars_ne_join hw c' left' right')
  | hjoin c left right ihl ihr =>
      rcases q.clause_or_join with ⟨w', hw'⟩ | ⟨c', left', right', rfl⟩
      · rw [toList_text_of_clause? hw'] at h
        exact absurd h.symm (hq.chars_ne_join hw' c left right)
      · obtain ⟨hleft, hright⟩ := hp.of_join
        obtain ⟨hleft', hright'⟩ := hq.of_join
        simp only [toList_text_join, List.cons_append, List.append_assoc, List.nil_append] at h
        -- the left part ends at a blank, and the right one at a parenthesis
        obtain ⟨rfl, hword⟩ := ihl hleft hleft' (hstops _).1 (hstops _).1 (List.cons.inj h).2
        obtain ⟨rfl, htail⟩ := Connective.word_append_inj (List.cons.inj hword).2
        obtain ⟨rfl, hrests⟩ := ihr hright hright' (hstops _).2 (hstops _).2 htail
        exact ⟨rfl, (List.cons.inj hrests).2⟩

end Predicate

/-! ### Compiled predicates -/

namespace FilterContext

variable {F : TypeFamily} {element : TypeExpr}

/-- A predicate that fits a type is legible, if the names in the type are identifiers and the
operands of the predicate are names, truth values, characters, texts and integers. -/
theorem legible_of_wellTyped (hnames : F.FieldsWithin F.NamedByIdentifiers 2 element)
    {p : Predicate} (hp : p.WellTyped F element)
    (hplain : ∀ a, .atom a ∈ p.operands → a.category.isPlain = true) :
    p.Legible F element := by
  induction hp with
  | isNull hp => exact .isNull (hp.identifiers hnames).1
  | isNotNull hp => exact .isNotNull (hp.identifiers hnames).1
  | @atom _ _ _ a hp hk =>
      refine .compare (hp.identifiers hnames).1 hp ?_
      rw [hk]
      exact .atom (hplain a List.mem_cons_self)
  | @enum _ _ _ name names hp hk hmem =>
      obtain ⟨hpath, hvalues⟩ := hp.identifiers hnames
      rw [hk] at hvalues
      refine .compare hpath hp ?_
      rw [hk]
      exact .enum (hvalues name hmem)
  | contains hp => exact .contains (hp.identifiers hnames).1
  | count hp => exact .count (hp.identifiers hnames).1
  | and _ _ ih ih' =>
      exact .and (ih fun a ha => hplain a (List.mem_append_left _ ha))
        (ih' fun a ha => hplain a (List.mem_append_right _ ha))
  | or _ _ ih ih' =>
      exact .or (ih fun a ha => hplain a (List.mem_append_left _ ha))
        (ih' fun a ha => hplain a (List.mem_append_right _ ha))

/-- **Texts of predicates.**  Let the names of the fields in a type, and of the values of
enumerations among them, be identifiers.  Two predicates compiled for the type, the operands of
which are names, truth values, characters, texts and integers, have the same text only if they are
the same, whatever the characters and texts are and whatever is searched for. -/
theorem text_eq_iff_of_compile (hnames : F.FieldsWithin F.NamedByIdentifiers 2 element)
    {separator separator' : String} {tree tree' : FilterTree} {p q : Predicate}
    (hp : (⟨F, element, separator⟩ : FilterContext).compile tree = .ok p)
    (hq : (⟨F, element, separator'⟩ : FilterContext).compile tree' = .ok q)
    (hplain : ∀ a, .atom a ∈ p.operands → a.category.isPlain = true)
    (hplain' : ∀ a, .atom a ∈ q.operands → a.category.isPlain = true) :
    p.text = q.text ↔ p = q := by
  have hwell : ∀ {separator : String} {tree : FilterTree} {p : Predicate},
      (⟨F, element, separator⟩ : FilterContext).compile tree = .ok p → p.WellTyped F element :=
    fun h => compile_closed (P := fun p => p.WellTyped F element)
      (fun _ _ _ => wellTyped_join) (fun _ _ => wellTyped_of_predicate) h
  have hlegible := legible_of_wellTyped hnames (hwell hp) hplain
  have hlegible' := legible_of_wellTyped hnames (hwell hq) hplain'
  have hnil : Stops [] := nofun
  constructor
  · intro h
    have htexts : p.text.toList ++ [] = q.text.toList ++ [] := by rw [h]
    exact (hlegible.text_append_inj hlegible' hnil hnil htexts).1
  · rintro rfl
    rfl

/-- A name that looks like the rest of one filter and the beginning of another. -/
def quotingTree : FilterTree :=
  .single ⟨"name", .equalTo, [.scalar (.text "Ann\" AND name = \"Bob")]⟩

/-- Two filters on names. -/
def twoNamesTree : FilterTree :=
  .node ⟨"name", .equalTo, [.scalar (.text "Ann")]⟩ (some .and)
    [.single ⟨"name", .equalTo, [.scalar (.text "Bob")]⟩]

/-- Both compile, and the quotation marks in the name are escaped, so that the texts differ. -/
theorem quotingTree_text :
    ∃ p q, peopleContext.compile quotingTree = .ok p ∧
      peopleContext.compile twoNamesTree = .ok q ∧ p.text ≠ q.text := by
  have hp : peopleContext.compile quotingTree =
      .ok (.compare ⟨"name", none⟩ .eq (.atom (.string "Ann\" AND name = \"Bob"))) := rfl
  have hq : peopleContext.compile twoNamesTree =
      .ok (.and (.compare ⟨"name", none⟩ .eq (.atom (.string "Ann")))
        (.compare ⟨"name", none⟩ .eq (.atom (.string "Bob")))) := rfl
  refine ⟨_, _, hp, hq, mt (text_eq_iff_of_compile (by decide) hp hq ?_ ?_).mp nofun⟩
  · intro a ha
    cases List.mem_singleton.mp ha
    rfl
  · intro a ha
    simp only [Predicate.operands, List.singleton_append, List.mem_cons, List.not_mem_nil, or_false]
      at ha
    rcases ha with ha | ha <;> cases ha <;> rfl

end FilterContext

end RecordFilter
