import RecordFilter.Proofs.Calendar.SpanBounds

/-!
# The grammar of spans

A span is written as an optional minus sign and one of three forms: a number of days, hours and
minutes, or hours, minutes and seconds.  Days may stand in front of the hours and a fraction after
the seconds.  `Spelling` has just these parts, so its texts and the span it names are written down
without running through a text.

* `readMagnitude_iff`, `read_iff`: exactly the spellings within bounds are read.
* `read_grammar`: which texts name which spans.
-/

namespace RecordFilter

namespace Text

/-- A numeral: one or more decimal digits. -/
structure Numeral where
  chars : List Char
  ne_nil : chars ≠ []
  isDigit : ∀ c ∈ chars, c.isDigit = true

/-- The number that a numeral stands for. -/
def Numeral.value (n : Numeral) : Nat := number n.chars

theorem Numeral.not_mem {c : Char} (n : Numeral) (hc : c.isDigit = false) : c ∉ n.chars :=
  not_mem_of_digits hc n.isDigit

theorem Numeral.number?_chars (n : Numeral) : number? n.chars = some n.value :=
  number?_of_isDigit n.ne_nil n.isDigit

/-- Digits are read as a number where they spell one. -/
theorem number?_iff {cs : List Char} {v : Nat} :
    number? cs = some v ↔ ∃ n : Numeral, cs = n.chars ∧ v = n.value := by
  constructor
  · intro h
    obtain ⟨⟨hne, hdigits⟩, rfl⟩ := number?_eq_some.mp h
    exact ⟨⟨cs, hne, hdigits⟩, rfl, rfl⟩
  · rintro ⟨n, rfl, rfl⟩
    exact n.number?_chars

end Text

namespace TimeSpan

open Text

/-! ### Spellings -/

/-- Hours, with days in front of them or not. -/
def headChars : Option Numeral → Numeral → List Char
  | none, hours => hours.chars
  | some days, hours => days.chars ++ '.' :: hours.chars

/-- Seconds, with a fraction after them or not. -/
def secondsChars : Numeral → Option Numeral → List Char
  | seconds, none => seconds.chars
  | seconds, some fraction => seconds.chars ++ '.' :: fraction.chars

/-- The days in front of the hours. -/
def daysValue : Option Numeral → Nat
  | none => 0
  | some days => days.value

/-- The nanoseconds of a fraction: its digits stand in front of others, up to nine. -/
def fractionNanos : Option Numeral → Nat
  | none => 0
  | some fraction => fraction.value * tenTo (9 - fraction.chars.length)

/-- The forms in which a span is written, but for its sign. -/
inductive Form where
  | days (days : Numeral)
  | minutes (days : Option Numeral) (hours minutes : Numeral)
  | seconds (days : Option Numeral) (hours minutes seconds : Numeral) (fraction : Option Numeral)

namespace Form

/-- The text of a form. -/
def chars : Form → List Char
  | days d => d.chars
  | minutes d h m => headChars d h ++ ':' :: m.chars
  | seconds d h m s f => headChars d h ++ ':' :: (m.chars ++ ':' :: secondsChars s f)

/-- The bounds of the numerals in a form. -/
def InBounds : Form → Prop
  | days d => d.value ≤ 10675199
  | minutes d h m => daysValue d ≤ 10675199 ∧ h.value ≤ 23 ∧ m.value ≤ 59
  | seconds d h m s f =>
    daysValue d ≤ 10675199 ∧ h.value ≤ 23 ∧ m.value ≤ 59 ∧ s.value ≤ 59 ∧
      ∀ n ∈ f, n.chars.length ≤ 9

/-- The nanoseconds that a form names. -/
def nanos : Form → Nat
  | days d => d.value * 86400000000000
  | minutes d h m =>
    daysValue d * 86400000000000 + h.value * 3600000000000 + m.value * 60000000000
  | seconds d h m s f =>
    daysValue d * 86400000000000 + h.value * 3600000000000 + m.value * 60000000000 +
      s.value * 1000000000 + fractionNanos f

end Form

/-- How a span is written: a form, with a minus sign in front of it or not. -/
structure Spelling where
  negative : Bool
  form : Form

namespace Spelling

/-- The text of a spelling. -/
def chars (w : Spelling) : List Char := (if w.negative then ['-'] else []) ++ w.form.chars

/-- The nanoseconds that a spelling names. -/
def nanos (w : Spelling) : Int := if w.negative then -(w.form.nanos : Int) else w.form.nanos

/-- A text that consists of a spelling and blanks around it. -/
def IsText (w : Spelling) (cs : List Char) : Prop :=
  ∃ before after, (∀ c ∈ before, isBlank c = true) ∧ (∀ c ∈ after, isBlank c = true) ∧
    cs = before ++ w.chars ++ after

end Spelling

/-! ### Fields -/

/-- A text that is cut at a point is the two parts with the point between them. -/
theorem cutAtPoint_eq_some {cs whole rest : List Char} (h : cutAtPoint cs = some (whole, rest)) :
    cs = whole ++ '.' :: rest := by
  have hsplit := List.takeWhile_append_dropWhile (p := (· != '.')) (l := cs)
  rw [cutAtPoint] at h
  split at h
  · cases h
  · rename_i c _ hdrop
    cases h
    have hc := List.head?_dropWhile_not (· != '.') cs
    rw [hdrop] at hsplit hc
    have hpoint : c = '.' := by simpa using hc
    rw [hpoint] at hsplit
    exact hsplit.symm

/-- The first field: hours, with days in front of them or not. -/
theorem readHead_iff {cs : List Char} {d h : Nat} :
    readHead cs = some (d, h) ↔
      ∃ days hours, cs = headChars days hours ∧ d = daysValue days ∧ h = hours.value := by
  constructor
  · intro hread
    rw [readHead] at hread
    split at hread
    · rename_i whole rest hcut
      obtain ⟨_, hdays, hread⟩ := Option.bind_eq_some_iff.mp hread
      obtain ⟨_, hhours, hread⟩ := Option.bind_eq_some_iff.mp hread
      cases hread
      obtain ⟨days, rfl, rfl⟩ := number?_iff.mp hdays
      obtain ⟨hours, rfl, rfl⟩ := number?_iff.mp hhours
      exact ⟨some days, hours, cutAtPoint_eq_some hcut, rfl, rfl⟩
    · obtain ⟨_, hhours, hread⟩ := Option.bind_eq_some_iff.mp hread
      cases hread
      obtain ⟨hours, rfl, rfl⟩ := number?_iff.mp hhours
      exact ⟨none, hours, rfl, rfl, rfl⟩
  · rintro ⟨_ | days, hours, rfl, rfl, rfl⟩
    · rw [headChars, readHead, cutAtPoint_of_not_mem (hours.not_mem (by decide))]
      simp [hours.number?_chars, daysValue]
    · rw [headChars, readHead, cutAtPoint_append (days.not_mem (by decide))]
      simp [hours.number?_chars, days.number?_chars, daysValue]

/-- The last field: seconds, with a fraction of at most nine digits or without. -/
theorem readSeconds_iff {cs : List Char} {s nanos : Nat} :
    readSeconds cs = some (s, nanos) ↔
      ∃ seconds fraction, cs = secondsChars seconds fraction ∧
        (∀ n ∈ fraction, n.chars.length ≤ 9) ∧ s = seconds.value ∧
        nanos = fractionNanos fraction := by
  constructor
  · intro hread
    rw [readSeconds] at hread
    split at hread
    · rename_i whole rest hcut
      split at hread
      · cases hread
      · rename_i hlength
        obtain ⟨_, hseconds, hread⟩ := Option.bind_eq_some_iff.mp hread
        obtain ⟨_, hfraction, hread⟩ := Option.bind_eq_some_iff.mp hread
        cases hread
        obtain ⟨seconds, rfl, rfl⟩ := number?_iff.mp hseconds
        obtain ⟨fraction, rfl, rfl⟩ := number?_iff.mp hfraction
        refine ⟨seconds, some fraction, cutAtPoint_eq_some hcut, ?_, rfl, rfl⟩
        rintro n ⟨⟩
        exact Nat.not_lt.mp hlength
    · obtain ⟨_, hseconds, hread⟩ := Option.bind_eq_some_iff.mp hread
      cases hread
      obtain ⟨seconds, rfl, rfl⟩ := number?_iff.mp hseconds
      refine ⟨seconds, none, rfl, ?_, rfl, rfl⟩
      rintro n ⟨⟩
  · rintro ⟨seconds, _ | fraction, rfl, hlength, rfl, rfl⟩
    · rw [secondsChars, readSeconds, cutAtPoint_of_not_mem (seconds.not_mem (by decide))]
      simp [seconds.number?_chars, fractionNanos]
    · rw [secondsChars, readSeconds, cutAtPoint_append (seconds.not_mem (by decide))]
      simp [seconds.number?_chars, fraction.number?_chars, fractionNanos,
        Nat.not_lt.mpr (hlength fraction rfl)]

/-- The parts of a span add up where each is within its bound. -/
theorem assemble_iff {d h m s nanos n : Nat} :
    assemble d h m s nanos = some n ↔
      (d ≤ 10675199 ∧ h ≤ 23 ∧ m ≤ 59 ∧ s ≤ 59) ∧
        n = d * 86400000000000 + h * 3600000000000 + m * 60000000000 + s * 1000000000 + nanos := by
  rw [assemble, mostDays]
  split
  · rename_i hbounds
    rw [Option.some_inj, and_iff_right hbounds]
    omega
  · rename_i hbounds
    constructor
    · rintro ⟨⟩
    · rintro ⟨h, -⟩
      exact absurd h hbounds

/-! ### Texts -/

/-- The characters of hours and seconds with what stands beside them. -/
theorem headChars_chars {days : Option Numeral} {hours : Numeral} {c : Char}
    (h : c ∈ headChars days hours) : c.isDigit = true ∨ c = '.' := by
  cases days with
  | none => exact .inl (hours.isDigit c h)
  | some days =>
      rcases List.mem_append.mp h with h | h
      · exact .inl (days.isDigit c h)
      · rcases List.mem_cons.mp h with rfl | h
        · exact .inr rfl
        · exact .inl (hours.isDigit c h)

/-- Seconds with a fraction have the form of days with hours. -/
theorem secondsChars_eq (seconds : Numeral) (fraction : Option Numeral) :
    ∃ days hours, secondsChars seconds fraction = headChars days hours := by
  cases fraction with
  | none => exact ⟨none, seconds, rfl⟩
  | some fraction => exact ⟨some seconds, fraction, rfl⟩

theorem secondsChars_chars {seconds : Numeral} {fraction : Option Numeral} {c : Char}
    (h : c ∈ secondsChars seconds fraction) : c.isDigit = true ∨ c = '.' := by
  obtain ⟨days, hours, heq⟩ := secondsChars_eq seconds fraction
  exact headChars_chars (heq ▸ h)

namespace Form

/-- The characters of a form. -/
theorem chars_chars {form : Form} {c : Char} (h : c ∈ form.chars) :
    c.isDigit = true ∨ c = '.' ∨ c = ':' := by
  have hpoint : c.isDigit = true ∨ c = '.' → c.isDigit = true ∨ c = '.' ∨ c = ':' :=
    fun h => h.imp_right .inl
  cases form with
  | days d => exact .inl (d.isDigit c h)
  | minutes d h' m =>
      rcases List.mem_append.mp h with h | h
      · exact hpoint (headChars_chars h)
      · rcases List.mem_cons.mp h with rfl | h
        · exact .inr (.inr rfl)
        · exact .inl (m.isDigit c h)
  | seconds d h' m s f =>
      rcases List.mem_append.mp h with h | h
      · exact hpoint (headChars_chars h)
      · rcases List.mem_cons.mp h with rfl | h
        · exact .inr (.inr rfl)
        · rcases List.mem_append.mp h with h | h
          · exact .inl (m.isDigit c h)
          · rcases List.mem_cons.mp h with rfl | h
            · exact .inr (.inr rfl)
            · exact hpoint (secondsChars_chars h)

theorem chars_ne_nil (form : Form) : form.chars ≠ [] := by
  cases form with
  | days d => exact d.ne_nil
  | minutes _ _ _ | seconds _ _ _ _ _ => simp [chars]

/-- The fields of a form are cut apart at the colons. -/
theorem fields_chars (form : Form) :
    fields form.chars =
      match form with
      | .days d => [d.chars]
      | .minutes d h m => [headChars d h, m.chars]
      | .seconds d h m s f => [headChars d h, m.chars, secondsChars s f] := by
  have hnumeral : ∀ n : Numeral, ':' ∉ n.chars := fun n => n.not_mem (by decide)
  have hhead : ∀ days hours, ':' ∉ headChars days hours := fun days hours h => by
    rcases headChars_chars h with h | h <;> exact absurd h (by decide)
  have hseconds : ∀ seconds fraction, ':' ∉ secondsChars seconds fraction :=
    fun seconds fraction h => by
      rcases secondsChars_chars h with h | h <;> exact absurd h (by decide)
  cases form with
  | days d => exact List.splitOn_eq_singleton (hnumeral d)
  | minutes d h m =>
      rw [fields, chars, List.splitOn_append_cons_self_of_not_mem (hhead d h),
        List.splitOn_eq_singleton (hnumeral m)]
  | seconds d h m s f =>
      rw [fields, chars, List.splitOn_append_cons_self_of_not_mem (hhead d h),
        List.splitOn_append_cons_self_of_not_mem (hnumeral m),
        List.splitOn_eq_singleton (hseconds s f)]

end Form

/-- The fields of a text, put together again. -/
theorem eq_intercalate_fields {cs : List Char} {parts : List (List Char)}
    (h : fields cs = parts) : cs = [':'].intercalate parts := by
  rw [← h, fields, List.intercalate_splitOn]

/-- A magnitude is read from exactly the forms within bounds. -/
theorem readMagnitude_iff {cs : List Char} {n : Nat} :
    readMagnitude cs = some n ↔
      ∃ form : Form, form.InBounds ∧ cs = form.chars ∧ n = form.nanos := by
  constructor
  · intro hread
    rw [readMagnitude] at hread
    split at hread
    · rename_i days hfields
      obtain ⟨_, hdays, hread⟩ := Option.bind_eq_some_iff.mp hread
      obtain ⟨d, rfl, rfl⟩ := number?_iff.mp hdays
      obtain ⟨hbounds, rfl⟩ := assemble_iff.mp hread
      refine ⟨.days d, hbounds.1, ?_, ?_⟩
      · simpa [Form.chars] using eq_intercalate_fields hfields
      · rw [Form.nanos]
        omega
    · rename_i head minutes hfields
      obtain ⟨⟨_, _⟩, hhead, hread⟩ := Option.bind_eq_some_iff.mp hread
      obtain ⟨_, hminutes, hread⟩ := Option.bind_eq_some_iff.mp hread
      obtain ⟨d, h, rfl, rfl, rfl⟩ := readHead_iff.mp hhead
      obtain ⟨m, rfl, rfl⟩ := number?_iff.mp hminutes
      obtain ⟨⟨hd, hh, hm, -⟩, rfl⟩ := assemble_iff.mp hread
      refine ⟨.minutes d h m, ⟨hd, hh, hm⟩, ?_, ?_⟩
      · simpa [Form.chars, List.intercalate] using eq_intercalate_fields hfields
      · rw [Form.nanos]
        omega
    · rename_i head minutes seconds hfields
      obtain ⟨⟨_, _⟩, hhead, hread⟩ := Option.bind_eq_some_iff.mp hread
      obtain ⟨⟨_, _⟩, hseconds, hread⟩ := Option.bind_eq_some_iff.mp hread
      obtain ⟨_, hminutes, hread⟩ := Option.bind_eq_some_iff.mp hread
      obtain ⟨d, h, rfl, rfl, rfl⟩ := readHead_iff.mp hhead
      obtain ⟨m, rfl, rfl⟩ := number?_iff.mp hminutes
      obtain ⟨s, f, rfl, hlength, rfl, rfl⟩ := readSeconds_iff.mp hseconds
      obtain ⟨⟨hd, hh, hm, hs⟩, rfl⟩ := assemble_iff.mp hread
      refine ⟨.seconds d h m s f, ⟨hd, hh, hm, hs, hlength⟩, ?_, ?_⟩
      · simpa [Form.chars, List.intercalate] using eq_intercalate_fields hfields
      · rw [Form.nanos]
    · cases hread
  · rintro ⟨form, hbounds, rfl, rfl⟩
    have hfields := form.fields_chars
    cases form with
    | days d =>
        have hread : assemble d.value 0 0 0 0 = some (Form.days d).nanos :=
          assemble_iff.mpr ⟨⟨hbounds, by decide⟩, by rw [Form.nanos]; omega⟩
        rw [readMagnitude, hfields]
        simp [d.number?_chars, hread]
    | minutes d h m =>
        obtain ⟨hd, hh, hm⟩ := hbounds
        have hhead := readHead_iff.mpr ⟨d, h, rfl, rfl, rfl⟩
        have hread : assemble (daysValue d) h.value m.value 0 0 = some (Form.minutes d h m).nanos :=
          assemble_iff.mpr ⟨⟨hd, hh, hm, by decide⟩, by rw [Form.nanos]; omega⟩
        rw [readMagnitude, hfields]
        simp [hhead, m.number?_chars, hread]
    | seconds d h m s f =>
        obtain ⟨hd, hh, hm, hs, hlength⟩ := hbounds
        have hhead := readHead_iff.mpr ⟨d, h, rfl, rfl, rfl⟩
        have hseconds := readSeconds_iff.mpr ⟨s, f, rfl, hlength, rfl, rfl⟩
        have hread : assemble (daysValue d) h.value m.value s.value (fractionNanos f) =
            some (Form.seconds d h m s f).nanos :=
          assemble_iff.mpr ⟨⟨hd, hh, hm, hs⟩, by rw [Form.nanos]⟩
        rw [readMagnitude, hfields]
        simp [hhead, hseconds, m.number?_chars, hread]

/-! ### Signs and blanks -/

/-- No blank stands inside a form, so that blanks can be trimmed around it only. -/
theorem Form.isVisible_of_mem {form : Form} {c : Char} (h : c ∈ form.chars) :
    isVisible c = true := by
  rcases Form.chars_chars h with h | rfl | rfl
  · exact isVisible_of_isDigit h
  · decide
  · decide

/-- A form begins with a digit, so not with a sign. -/
theorem Form.exists_cons (form : Form) : ∃ c cs, form.chars = c :: cs ∧ c ≠ '-' := by
  cases hform : form.chars with
  | nil => exact absurd hform form.chars_ne_nil
  | cons c cs =>
      refine ⟨c, cs, rfl, ?_⟩
      have hc : c ∈ form.chars := hform ▸ List.mem_cons_self
      rcases Form.chars_chars hc with h | rfl | rfl
      · exact ne_of_isDigit h (by decide)
      · decide
      · decide

/-- A text that consists of a spelling and blanks is the spelling when trimmed. -/
theorem Spelling.isText_iff {w : Spelling} {cs : List Char} :
    w.IsText cs ↔ trimChars cs = w.chars := by
  constructor
  · rintro ⟨before, after, hbefore, hafter, rfl⟩
    refine trimChars_append hbefore hafter ?_ fun c hc => ?_
    · exact List.append_ne_nil_of_right_ne_nil _ w.form.chars_ne_nil
    · rcases List.mem_append.mp hc with hc | hc
      · split at hc
        · rw [List.mem_singleton.mp hc]; decide
        · cases hc
      · exact Form.isVisible_of_mem hc
  · intro h
    rw [IsText, ← h]
    exact exists_trimChars cs

/-- Exactly the spellings within bounds are read. -/
theorem read_iff {cs : List Char} {s : TimeSpan} :
    read cs = some s ↔
      ∃ w : Spelling, w.form.InBounds ∧ w.IsText cs ∧ s.nanos = w.nanos := by
  constructor
  · intro hread
    rw [read] at hread
    split at hread
    · rename_i body htrim
      obtain ⟨_, hbody, hread⟩ := Option.bind_eq_some_iff.mp hread
      obtain ⟨form, hbounds, rfl, rfl⟩ := readMagnitude_iff.mp hbody
      exact ⟨⟨true, form⟩, hbounds, Spelling.isText_iff.mpr htrim, ofNanos?_eq_some.mp hread⟩
    · obtain ⟨_, hbody, hread⟩ := Option.bind_eq_some_iff.mp hread
      obtain ⟨form, hbounds, htrim, rfl⟩ := readMagnitude_iff.mp hbody
      exact ⟨⟨false, form⟩, hbounds, Spelling.isText_iff.mpr htrim, ofNanos?_eq_some.mp hread⟩
  · rintro ⟨⟨negative, form⟩, hbounds, htext, hnanos⟩
    have hbody := readMagnitude_iff.mpr ⟨form, hbounds, rfl, rfl⟩
    have htrim := Spelling.isText_iff.mp htext
    rw [read, htrim]
    cases negative with
    | true =>
        refine Option.bind_eq_some_iff.mpr ⟨form.nanos, hbody, ?_⟩
        exact ofNanos?_eq_some.mpr hnanos
    | false =>
        -- A form without a sign is not mistaken for one: its first character is a digit.
        obtain ⟨c, rest, hcons, hc⟩ := form.exists_cons
        have hplain : (Spelling.mk false form).chars = c :: rest := hcons
        rw [hcons] at hbody
        rw [hplain]
        split
        · rename_i h
          cases h
          exact absurd rfl hc
        · refine Option.bind_eq_some_iff.mpr ⟨form.nanos, hbody, ?_⟩
          exact ofNanos?_eq_some.mpr hnanos

/-- No spelling within bounds names what is no span. -/
theorem exists_read {w : Spelling} {cs : List Char} (hbounds : w.form.InBounds)
    (htext : w.IsText cs) : ∃ s, read cs = some s := by
  have hlt := lt_of_readMagnitude (readMagnitude_iff.mpr ⟨w.form, hbounds, rfl, rfl⟩)
  have hbound : bound = 9223372036854775807000000 := rfl
  have hnanos : w.nanos.natAbs ≤ bound := by
    rw [Spelling.nanos]
    split <;> omega
  exact ⟨⟨w.nanos, hnanos⟩, read_iff.mpr ⟨w, hbounds, htext, rfl⟩⟩

/-- **Which texts name which spans.**  A text names a span exactly if it is a spelling within
bounds with nothing but blanks around it, and the span has the sum of the spelling's parts, with
its sign; every such text names a span, any other is refused, and no step of the reading leaves
the bounds of spans or of 64 bits. -/
theorem read_grammar (cs : List Char) :
    (∀ s, read cs = some s ↔
      ∃ w : Spelling, w.form.InBounds ∧ w.IsText cs ∧ s.nanos = w.nanos) ∧
    (read cs = none ↔ ∀ w : Spelling, w.form.InBounds → ¬ w.IsText cs) ∧
    checkedRead cs = orRefused (read cs) := by
  refine ⟨fun s => read_iff, ⟨fun hnone w hbounds htext => ?_, fun hno => ?_⟩, checkedRead_eq cs⟩
  · obtain ⟨s, hs⟩ := exists_read hbounds htext
    rw [hnone] at hs
    cases hs
  · cases hread : read cs with
    | none => rfl
    | some s =>
        obtain ⟨w, hbounds, htext, -⟩ := read_iff.mp hread
        exact absurd htext (hno w hbounds)

end TimeSpan

end RecordFilter
