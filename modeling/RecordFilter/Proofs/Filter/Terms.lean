import RecordFilter.Proofs.Number.Reading
import RecordFilter.Proofs.Schema.Lookup
import RecordFilter.Proofs.Text.Quoted

/-!
# Paths and operands told apart by their texts

A path of identifiers has neither blanks nor parentheses in its text.  It leads to one type, which
tells how an operand is written, and so where its text ends: a name, a number or a truth value at a
blank or a parenthesis, a character after its quote, and a text at the quote that is not escaped.

* `FieldPath.IsPlain.text_inj`: paths of identifiers are told apart.
* `FieldPath.Leads.identifiers`: what is an identifier where a type has identifiers for names.
* `Operand.text_append_inj`: operands of one kind are told apart, whatever stops them.
-/

namespace RecordFilter

open Text

/-! ### Identifiers -/

/-- One or more letters, digits and underscores. -/
def IsIdentifier (s : String) : Prop :=
  s ≠ "" ∧ (s.toList.all fun c => c.isAlphanum || c == '_') = true

instance : DecidablePred IsIdentifier := fun _ => inferInstanceAs (Decidable (_ ∧ _))

/-- The fields are named by identifiers, and so are the values of enumerations among them. -/
def TypeFamily.NamedByIdentifiers (F : TypeFamily) (fields : List FieldDescriptor) : Prop :=
  ∀ f ∈ fields, IsIdentifier f.name ∧
    ∀ value ∈ (F.describe f.type).kind.values?.getD [], IsIdentifier value

instance (F : TypeFamily) : DecidablePred F.NamedByIdentifiers := fun fields =>
  inferInstanceAs (Decidable (∀ f ∈ fields, _ ∧ _))

/-- Nothing but letters, digits and underscores stands in an identifier. -/
theorem IsIdentifier.not_mem {s : String} (h : IsIdentifier s) {c : Char}
    (halphanum : c.isAlphanum = false) (hunderscore : c ≠ '_') : c ∉ s.toList := by
  intro hmem
  have hc := List.all_eq_true.mp h.2 c hmem
  rw [halphanum, Bool.false_or, beq_iff_eq] at hc
  exact hunderscore hc

/-! ### Paths -/

namespace FieldPath

variable {F : TypeFamily} {element t : TypeExpr} {p q : FieldPath}

/-- All names of a path are identifiers. -/
def IsPlain (p : FieldPath) : Prop := ∀ name ∈ p.names, IsIdentifier name

theorem toList_text (p : FieldPath) :
    p.text.toList = p.head.toList ++ p.tail.elim [] fun tail => '.' :: tail.toList := by
  unfold text
  cases p.tail with
  | none => exact (List.append_nil _).symm
  | some tail =>
      rw [String.toList_append, String.toList_append, List.append_assoc]
      rfl

/-- A path has in its text letters, digits, underscores and points. -/
theorem IsPlain.not_mem_text (h : p.IsPlain) {c : Char} (halphanum : c.isAlphanum = false)
    (hunderscore : c ≠ '_') (hpoint : c ≠ '.') : c ∉ p.text.toList := by
  rw [toList_text, List.mem_append, not_or]
  refine ⟨(h p.head List.mem_cons_self).not_mem halphanum hunderscore, ?_⟩
  cases htail : p.tail with
  | none => exact List.not_mem_nil
  | some tail =>
      have hmem : tail ∈ p.names := by
        rw [names, htail]
        exact List.mem_cons_of_mem _ List.mem_cons_self
      rw [Option.elim_some, List.mem_cons, not_or]
      exact ⟨hpoint, (h tail hmem).not_mem halphanum hunderscore⟩

theorem IsPlain.text_ne_nil (h : p.IsPlain) : p.text.toList ≠ [] := by
  rw [toList_text]
  refine List.append_ne_nil_of_left_ne_nil (fun hnil => ?_) _
  exact (h p.head List.mem_cons_self).1 (String.toList_eq_nil_iff.mp hnil)

theorem IsPlain.not_mem_blank (h : p.IsPlain) : ' ' ∉ p.text.toList :=
  h.not_mem_text (by decide) (by decide) (by decide)

theorem IsPlain.not_mem_paren (h : p.IsPlain) : '(' ∉ p.text.toList :=
  h.not_mem_text (by decide) (by decide) (by decide)

/-- Paths of identifiers are told apart by their texts. -/
theorem IsPlain.text_inj (hp : p.IsPlain) (hq : q.IsPlain) (h : p.text.toList = q.text.toList) :
    p = q := by
  have hhead : ∀ {p : FieldPath}, p.IsPlain → ∀ c ∈ p.head.toList, c ≠ '.' := by
    rintro p hp c hc rfl
    exact (hp p.head List.mem_cons_self).not_mem (by decide) (by decide) hc
  have htail : ∀ (p : FieldPath),
      ∀ c ∈ (p.tail.elim [] fun tail => '.' :: tail.toList).head?, c = '.' := by
    intro p c hc
    cases htail : p.tail with
    | none => rw [htail] at hc; cases hc
    | some tail => rw [htail] at hc; cases hc; rfl
  rw [toList_text, toList_text] at h
  obtain ⟨hheads, htails⟩ := append_inj_of_stop (hhead hp) (hhead hq) (htail p) (htail q) h
  obtain ⟨head, tail⟩ := p
  obtain ⟨head', tail'⟩ := q
  obtain rfl : head = head' := String.toList_inj.mp hheads
  cases tail with
  | none =>
      cases tail' with
      | none => rfl
      | some => cases htails
  | some tail =>
      cases tail' with
      | none => cases htails
      | some tail' => rw [String.toList_inj.mp (List.cons.inj htails).2]

/-- A path leads to one type. -/
theorem Leads.unique {t' : TypeExpr} (h : p.Leads F element t) (h' : p.Leads F element t') :
    t = t' := by
  cases h with
  | direct hf =>
      cases h' with
      | direct hf' => cases hf.symm.trans hf'; rfl
  | nested hf _ hg =>
      cases h' with
      | nested hf' _ hg' =>
          cases hf.symm.trans hf'
          cases hg.symm.trans hg'
          rfl

/-- Where names are identifiers, so are the names of paths that lead somewhere, and the values of
enumerations that they lead to. -/
theorem Leads.identifiers (hnames : F.FieldsWithin F.NamedByIdentifiers 2 element)
    (h : p.Leads F element t) :
    p.IsPlain ∧ ∀ value ∈ (F.describe t).kind.values?.getD [], IsIdentifier value := by
  cases h with
  | direct hf =>
      obtain ⟨hmem, rfl⟩ := TypeFamily.mem_of_field? hf
      obtain ⟨hname, hvalues⟩ := hnames.1 _ hmem
      refine ⟨fun name hname' => ?_, hvalues⟩
      cases List.mem_singleton.mp hname'
      exact hname
  | nested hf _ hg =>
      obtain ⟨hmem, rfl⟩ := TypeFamily.mem_of_field? hf
      obtain ⟨hmem', rfl⟩ := TypeFamily.mem_of_field? hg
      obtain ⟨houter, -⟩ := hnames.1 _ hmem
      obtain ⟨hinner, hvalues⟩ := (hnames.2 _ hmem).1 _ hmem'
      refine ⟨fun name hname => ?_, hvalues⟩
      rcases List.mem_cons.mp hname with rfl | hname
      · exact houter
      · cases List.mem_singleton.mp hname
        exact hinner

end FieldPath

/-! ### Operands -/

/-- What may stand behind the text of an operand: nothing, or what begins with a blank or a closing
parenthesis. -/
def Stops (rest : List Char) : Prop := ∀ c ∈ rest.head?, c = ' ' ∨ c = ')'

/-- Truth values, characters, texts and integers. -/
def Category.isPlain : Category → Bool
  | .boolean | .char | .string | .integer _ => true
  | _ => false

/-- The operands that a kind of types is compared with, where texts show which they are. -/
inductive Operand.Fits : Kind → Operand → Prop
  | atom {a : Atom} (h : a.category.isPlain = true) : Fits (.atomic a.category) (.atom a)
  | enum {names : List String} {name : String} (h : IsIdentifier name) :
    Fits (.enumeration names) (.enum name)

/-- A text with neither blank nor parenthesis in it. -/
def IsWord (xs : List Char) : Prop := ∀ c ∈ xs, ¬ (c = ' ' ∨ c = ')')

theorem IsIdentifier.isWord {s : String} (h : IsIdentifier s) : IsWord s.toList := by
  rintro c hc (rfl | rfl)
  · exact h.not_mem (by decide) (by decide) hc
  · exact h.not_mem (by decide) (by decide) hc

theorem isWord_signedDigits (i : Int) : IsWord (signedDigits i) := by
  have hdigits : IsWord (digits i.natAbs) := by
    rintro c hc (rfl | rfl)
    · exact absurd (isDigit_of_mem_digits hc) (by decide)
    · exact absurd (isDigit_of_mem_digits hc) (by decide)
  rw [signedDigits]
  split
  · intro c hc
    rcases List.mem_cons.mp hc with rfl | hc
    · decide
    · exact hdigits c hc
  · exact hdigits

theorem isWord_boolean (b : Bool) : IsWord (Atom.boolean b).chars := by
  cases b <;> simp [IsWord, Atom.chars]

theorem Atom.shown_boolean (b : Bool) :
    (Atom.boolean b).shown.toList = (Atom.boolean b).chars := String.toList_ofList

theorem Atom.shown_integer {k : IntKind} (i : k.Value) :
    (Atom.integer k i).shown.toList = signedDigits i.1 := String.toList_ofList

theorem Atom.shown_char (c : Char) : (Atom.char c).shown.toList = ['\'', c, '\''] :=
  String.toList_ofList

/-- Atoms of one category are told apart by their texts, in front of whatever stops them. -/
theorem Atom.shown_append_inj {a b : Atom} {rest rest' : List Char}
    (ha : a.category.isPlain = true) (hcategory : b.category = a.category) (hrest : Stops rest)
    (hrest' : Stops rest') (h : a.shown.toList ++ rest = b.shown.toList ++ rest') :
    a = b ∧ rest = rest' := by
  cases a with
  | boolean x =>
      cases b with
      | boolean y =>
          rw [shown_boolean, shown_boolean] at h
          obtain ⟨hchars, hrests⟩ :=
            append_inj_of_stop (isWord_boolean x) (isWord_boolean y) hrest hrest' h
          refine ⟨?_, hrests⟩
          cases x <;> cases y <;> first | rfl | cases hchars
      | _ => cases hcategory
  | char c =>
      cases b with
      | char d =>
          rw [shown_char, shown_char] at h
          cases h
          exact ⟨rfl, rfl⟩
      | _ => cases hcategory
  | integer k i =>
      cases b with
      | integer l j =>
          cases hcategory
          rw [shown_integer, shown_integer] at h
          obtain ⟨hdigits, hrests⟩ :=
            append_inj_of_stop (isWord_signedDigits i.1) (isWord_signedDigits j.1) hrest hrest' h
          have hread : k.read (signedDigits i.1) = .ok j := by
            rw [hdigits]
            exact IntKind.read_signedDigits j
          cases (IntKind.read_signedDigits i).symm.trans hread
          exact ⟨rfl, hrests⟩
      | _ => cases hcategory
  | string s =>
      cases b with
      | string t =>
          obtain ⟨rfl, hrests⟩ := quoted_append_inj h
          exact ⟨rfl, hrests⟩
      | _ => cases hcategory
  | _ => cases ha

/-- Operands of one kind are told apart by their texts, in front of whatever stops them. -/
theorem Operand.text_append_inj {k : Kind} {v w : Operand} {rest rest' : List Char}
    (hv : v.Fits k) (hw : w.Fits k) (hrest : Stops rest) (hrest' : Stops rest')
    (h : v.text.toList ++ rest = w.text.toList ++ rest') : v = w ∧ rest = rest' := by
  cases hv with
  | @atom a ha =>
      generalize hk : Kind.atomic a.category = k at hw
      cases hw with
      | @atom b hb =>
          obtain ⟨rfl, hrests⟩ :=
            Atom.shown_append_inj ha (Kind.atomic.inj hk).symm hrest hrest' h
          exact ⟨rfl, hrests⟩
      | enum => cases hk
  | @enum names name hname =>
      generalize hk : Kind.enumeration names = k at hw
      cases hw with
      | atom => cases hk
      | enum hname' =>
          obtain ⟨htext, hrests⟩ := append_inj_of_stop hname.isWord hname'.isWord hrest hrest' h
          exact ⟨congrArg Operand.enum (String.toList_inj.mp htext), hrests⟩

end RecordFilter
