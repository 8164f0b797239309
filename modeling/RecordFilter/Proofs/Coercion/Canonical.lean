import RecordFilter.Coercion
import RecordFilter.Proofs.Calendar.Reading
import RecordFilter.Proofs.Coercion.Category
import RecordFilter.Proofs.Number.Reading
import RecordFilter.Proofs.Order.Atom
import RecordFilter.Proofs.Outcome
import RecordFilter.Proofs.Uuid

/-!
# Canonical texts as arguments

The canonical text of a value, given as an argument, is read in the form of the category of the
value.  No canonical text has a blank that matters there, so each reader sees the text as it was
written.  Two times can have one text: a leap second within a minute has that of the second after
(`Atom.IsRegular`).

* `ofText_text`: the value that a canonical text is read as.
* `coerce_canonicalText`: a canonical text becomes the value it was written for, unless that has a
  leap second within a minute.
* `innerLeap_misread`: such a time, and what its text becomes.
* `coerce_momentText`: the texts of moments with an offset are refused but for years of four digits.
-/

namespace RecordFilter

open Text

/-- The categories whose canonical texts name every value. -/
def Category.hasCodec : Category → Bool
  | .char | .boolean | .integer _ | .decimal | .string | .uuid | .date | .dateTime | .time => true
  | .float32 | .float64 | .dateTimeOffset | .timeSpan => false

namespace Atom

/-- A value that is or has a time has no leap second within a minute. -/
def IsRegular : Atom → Prop
  | dateTime t => t.IsRegular
  | dateTimeOffset v => v.IsRegular
  | time t => t.IsRegular
  | _ => True

instance : DecidablePred IsRegular := fun a => by
  unfold IsRegular
  split <;> infer_instance

/-- The value that a canonical text names: a decimal zero has no sign, and a leap second within a
minute is the second after. -/
def named : Atom → Atom
  | decimal d => decimal d.unsignedZero
  | dateTime t => dateTime t.named
  | dateTimeOffset v => dateTimeOffset v.named
  | time t => time t.named
  | a => a

theorem same_iff {a b : Atom} : a.same b = true ↔ a.compare? b = some .eq := decide_eq_true_iff

/-- A value is the same as the value that its text names, unless it has a leap second within a
minute. -/
theorem same_named_iff {a : Atom} (h : a.category.hasCodec = true) :
    a.named.same a = true ↔ a.IsRegular := by
  rw [same_iff]
  cases a with
  | decimal d => exact iff_of_true (congrArg some d.compare_unsignedZero) trivial
  | char c => exact iff_of_true (congrArg some Std.ReflCmp.compare_self) trivial
  | boolean b => exact iff_of_true (congrArg some Std.ReflCmp.compare_self) trivial
  | integer k i =>
      exact iff_of_true ((if_pos rfl).trans (congrArg some Std.ReflCmp.compare_self)) trivial
  | string s => exact iff_of_true (congrArg some Std.ReflCmp.compare_self) trivial
  | uuid u =>
      exact iff_of_true (congrArg some (Std.ReflCmp.compare_self : Uuid.compare u u = .eq)) trivial
  | date d =>
      exact iff_of_true (congrArg some (Std.ReflCmp.compare_self : Date.compare d d = .eq)) trivial
  | dateTime t => exact Option.some_inj.trans DateTime.compare_named_eq_iff
  | time t => exact Option.some_inj.trans TimeOfDay.compare_named_eq_iff
  | float32 _ | float64 _ | dateTimeOffset _ | timeSpan _ => cases h

/-- It is the very value then, but for the sign of a decimal zero. -/
theorem named_of_isRegular {a : Atom} (h : a.IsRegular) (hdecimal : a.category ≠ .decimal) :
    a.named = a := by
  cases a with
  | decimal d => exact absurd rfl hdecimal
  | dateTime t => exact congrArg dateTime (DateTime.named_of_isRegular h)
  | dateTimeOffset v => exact congrArg dateTimeOffset (OffsetDateTime.named_of_isRegular h)
  | time t => exact congrArg time (TimeOfDay.named_of_isRegular h)
  | _ => rfl

/-- Nothing is trimmed from a text without blanks. -/
theorem trim_text {a : Atom} (h : ∀ c ∈ a.chars, isVisible c = true) :
    trimChars a.text.toList = a.chars := by
  rw [text, String.toList_ofList, trimChars_of_visible h]

end Atom

namespace Scalar

/-- A canonical text is read as the value it names. -/
theorem ofText_text {a : Atom} (h : a.category.hasCodec = true) :
    ofText a.text a.category = .ok a.named := by
  cases a with
  | char c => rw [Atom.text, Atom.category, ofText, String.toList_ofList]; rfl
  | boolean b =>
      have hvisible : ∀ c ∈ (Atom.boolean b).chars, isVisible c = true :=
        List.all_eq_true.mp (by cases b <;> rfl)
      rw [Atom.category, ofText, Atom.trim_text hvisible]
      cases b <;> rfl
  | string s => rw [Atom.text, Atom.chars, String.ofList_toList]; rfl
  | integer k i =>
      rw [Atom.category, ofText, Atom.trim_text fun _ => IntKind.isVisible_of_mem_signedDigits,
        Atom.chars, IntKind.read_signedDigits]
      rfl
  | decimal d =>
      rw [Atom.category, ofText, Atom.trim_text fun _ => Decimal.isVisible_of_mem_text,
        Atom.chars, Decimal.read_text]
      rfl
  | uuid u =>
      rw [Atom.category, ofText, Atom.trim_text fun _ => Uuid.isVisible_of_mem_text,
        Atom.chars, Uuid.read_text]
      rfl
  | date d =>
      rw [Atom.category, ofText, Atom.trim_text fun _ => Date.isVisible_of_mem_text,
        Atom.chars, Date.read_text]
      rfl
  | dateTime t =>
      rw [Atom.category, ofText, Atom.trim_text fun _ => DateTime.isVisible_of_mem_text,
        Atom.chars, DateTime.read_text]
      rfl
  | time t =>
      rw [Atom.category, ofText, Atom.trim_text fun _ => TimeOfDay.isVisible_of_mem_text,
        Atom.chars, TimeOfDay.read_text]
      rfl
  | float32 _ | float64 _ | dateTimeOffset _ | timeSpan _ => cases h

/-- The canonical text of a moment is read if its year has four digits. -/
theorem ofText_momentText (v : OffsetDateTime) :
    ofText (Atom.dateTimeOffset v).text .dateTimeOffset =
      if 0 ≤ v.clock.date.year ∧ v.clock.date.year ≤ 9999 then .ok (.dateTimeOffset v.named)
      else .error .notAMoment := by
  rw [ofText, Atom.trim_text fun _ => OffsetDateTime.isVisible_of_mem_text, Atom.chars,
    OffsetDateTime.read_text_eq]
  split <;> rfl

theorem orReason_eq_ok {α : Type} {make : α → Atom} {reason : CoercionReason} {x : Option α}
    {a : Atom} (h : orReason make reason x = .ok a) : ∃ v, x = some v ∧ make v = a := by
  cases x with
  | none => cases h
  | some v => exact ⟨v, rfl, Except.ok.inj h⟩

/-- No value that a text names has a leap second within a minute. -/
theorem isRegular_of_ofText {s : String} {c : Category} {a : Atom} (h : ofText s c = .ok a) :
    a.IsRegular := by
  have hcategory : a.category = c := yields_ofText s c a h
  cases a with
  | dateTime t =>
      cases hcategory
      obtain ⟨v, hread, ⟨⟩⟩ := orReason_eq_ok h
      exact DateTime.isRegular_of_read hread
  | dateTimeOffset t =>
      cases hcategory
      obtain ⟨v, hread, ⟨⟩⟩ := orReason_eq_ok h
      exact OffsetDateTime.isRegular_of_read hread
  | time t =>
      cases hcategory
      obtain ⟨v, hread, ⟨⟩⟩ := orReason_eq_ok h
      exact TimeOfDay.isRegular_of_read hread
  | _ => trivial

end Scalar

namespace Raw

/-- A text that stands for an atom is coerced to it, required or not. -/
theorem coerce_of_ofText {s : String} {c : Category} {a : Atom} (h : Scalar.ofText s c = .ok a)
    (required : Bool) : (scalar (.text s)).coerce c required = .ok (some a) := by
  rw [coerce, Scalar.coerce, Scalar.convert?, h]
  rfl

/-- What a text is coerced to is what it names. -/
theorem isRegular_of_coerce {s : String} {c : Category} {required : Bool} {a : Atom}
    (h : (scalar (.text s)).coerce c required = .ok (some a)) : a.IsRegular := by
  obtain ⟨b, hb, ⟨⟩⟩ := Outcome.map_eq_ok.mp h
  exact Scalar.isRegular_of_ofText (Option.some.inj (Scalar.coerce_eq_ok hb))

/-- **Canonical texts.**  The canonical text of a value becomes a value that is the same, unless the
value has a leap second within a minute, which no text names: its text becomes another value.
Otherwise it becomes the very value, but for the sign of a decimal zero. -/
theorem coerce_canonicalText {a : Atom} (h : a.category.hasCodec = true) (required : Bool) :
    (∃ w, (scalar (.text a.text)).coerce a.category required = .ok (some w) ∧
      (w.same a = true ↔ a.IsRegular) ∧ (a.IsRegular → a.category ≠ .decimal → w = a)) ∧
    ∀ s c required', (scalar (.text s)).coerce c required' = .ok (some a) → a.IsRegular :=
  ⟨⟨a.named, coerce_of_ofText (Scalar.ofText_text h) required, Atom.same_named_iff h,
    Atom.named_of_isRegular⟩, fun _ _ _ => isRegular_of_coerce⟩

/-- A leap second in the first year, with all its digits. -/
def earliestLeap : Atom :=
  .dateTime ⟨⟨-262143, 1, 1, by decide⟩, ⟨23, 59, 59, 1000000001, by decide⟩⟩

/-- It stands at the end of a minute, and so it is read back. -/
theorem earliestLeap_text :
    earliestLeap.text = "-262143-01-01T23:59:60.000000001" ∧
      ∃ w, (scalar (.text earliestLeap.text)).coerce .dateTime true = .ok (some w) ∧
        w.same earliestLeap = true ∧ w = earliestLeap := by
  have hregular : earliestLeap.IsRegular := .inr rfl
  obtain ⟨⟨w, hread, hsame, heq⟩, -⟩ := coerce_canonicalText (a := earliestLeap) rfl true
  exact ⟨by decide, w, hread, hsame.mpr hregular, heq hregular (by decide)⟩

/-- A leap second at four seconds past the minute. -/
def innerLeap : TimeOfDay := ⟨23, 56, 4, 1333333333, by decide⟩

/-- Its text becomes a third of a second past the second after, which is another time: this is later
than the second after, and the leap second is before it. -/
theorem innerLeap_misread :
    Category.time.hasCodec = true ∧ (Atom.time innerLeap).text = "23:56:05.333333333" ∧
      ∀ required, ∃ t : TimeOfDay,
        (scalar (.text (Atom.time innerLeap).text)).coerce .time required = .ok (some (.time t)) ∧
        (Atom.time t).same (.time innerLeap) = false ∧
        t.compare ⟨23, 56, 5, 0, by decide⟩ = .gt ∧
        innerLeap.compare ⟨23, 56, 5, 0, by decide⟩ = .lt := by
  refine ⟨rfl, by decide, fun required => ?_⟩
  have hread := coerce_of_ofText (Scalar.ofText_text (a := .time innerLeap) rfl) required
  exact ⟨innerLeap.named, hread, by decide, by decide, by decide⟩

/-- **Texts of moments.**  The canonical text of a moment with an offset becomes that moment if its
year has four digits.  Of any other year the text is refused, though the moment may have been named
by another text.  Moments with a leap second within a minute, which become others, have not been
named by any. -/
theorem coerce_momentText (v : OffsetDateTime) (required : Bool) :
    ((scalar (.text (Atom.dateTimeOffset v).text)).coerce .dateTimeOffset required =
      if 0 ≤ v.clock.date.year ∧ v.clock.date.year ≤ 9999 then .ok (some (.dateTimeOffset v.named))
      else .error (.conversion (Scalar.text (Atom.dateTimeOffset v).text).toJson.text
        Category.dateTimeOffset.typeName .notAMoment)) ∧
    (v.IsRegular → v.named = v) ∧
    ∀ s required', (scalar (.text s)).coerce .dateTimeOffset required' =
      .ok (some (.dateTimeOffset v)) → v.IsRegular := by
  refine ⟨?_, OffsetDateTime.named_of_isRegular, fun _ _ => isRegular_of_coerce⟩
  have hread := Scalar.ofText_momentText v
  rw [coerce, Scalar.coerce, Scalar.convert?, hread]
  by_cases hyear : 0 ≤ v.clock.date.year ∧ v.clock.date.year ≤ 9999
  · simp only [if_pos hyear]
    rfl
  · simp only [if_neg hyear]
    rfl

/-- The first moment whose year has five digits. -/
def fiveDigitYear : OffsetDateTime :=
  ⟨⟨⟨10000, 1, 1, by decide⟩, .midnight⟩, 0, by decide⟩

/-- With a blank between date and time it is named, but its canonical text names nothing. -/
theorem fiveDigitYear_unread :
    (scalar (.text "+10000-01-01 00:00:00+00:00")).coerce .dateTimeOffset true =
        .ok (some (.dateTimeOffset fiveDigitYear)) ∧
      (Atom.dateTimeOffset fiveDigitYear).text = "+10000-01-01T00:00:00+00:00" ∧
      ∀ w, (scalar (.text (Atom.dateTimeOffset fiveDigitYear).text)).coerce .dateTimeOffset true ≠
        .ok w := by
  have hread : OffsetDateTime.read (trimChars "+10000-01-01 00:00:00+00:00".toList) =
      some fiveDigitYear := by decide
  refine ⟨coerce_of_ofText ?_ true, by decide, fun w => ?_⟩
  · rw [Scalar.ofText, hread]
    rfl
  · have htext := Scalar.ofText_momentText fiveDigitYear
    rw [if_neg (by decide)] at htext
    rw [coerce, Scalar.coerce, Scalar.convert?, htext]
    rintro ⟨⟩

end Raw

end RecordFilter
