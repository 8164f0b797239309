import RecordFilter.Calendar.Text
import RecordFilter.Proofs.Calendar.LeapSecond
import RecordFilter.Proofs.Text.Digits

/-!
# Dates and times read back

A reader *takes* a text with a value (`Reader.Takes`) if in front of any rest it reads the value and
leaves the rest; what is taken one after the other is taken together (`Takes.bind`).  So each text
of the calendar is taken part by part, in the order of the writer.  What is read is the value that
the text names, which is the one it was written for unless that has a leap second within a minute.

* `takes_calendarDate`, `takes_secondTime`: the texts of dates and times of day are taken.
* `Date.read_text`, `TimeOfDay.read_text`, `DateTime.read_text`: so they are read.
* `OffsetDateTime.read_text_eq`: the text of a moment with an offset is read if its year has four
  digits, and refused otherwise.
-/

namespace RecordFilter

open Text

/-- No digit stands in front. -/
def NoDigitFirst (cs : List Char) : Prop := ∀ c ∈ cs.head?, c.isDigit = false

theorem noDigitFirst_nil : NoDigitFirst [] := by
  rintro c ⟨⟩

theorem noDigitFirst_cons {c : Char} {cs : List Char} (h : c.isDigit = false) :
    NoDigitFirst (c :: cs) := by
  rintro _ ⟨⟩; exact h

/-! ### Parts within their widths -/

/-- Month and day have two digits. -/
theorem Date.parts_lt (d : Date) : d.month < tenTo 2 ∧ d.day < tenTo 2 := by
  have h : tenTo 2 = 100 := rfl
  have hvalid := d.valid
  have hdays : Date.daysInMonth d.year d.month ≤ 31 := by
    rw [Date.daysInMonth]
    split
    · split <;> decide
    · split <;> decide
  simp only [Date.IsValid] at hvalid
  omega

/-- So have hour, minute and second. -/
theorem TimeOfDay.parts_lt (t : TimeOfDay) :
    t.hour < tenTo 2 ∧ t.minute < tenTo 2 ∧ t.second + t.nano / 1000000000 < tenTo 2 := by
  have h : tenTo 2 = 100 := rfl
  have hvalid := t.valid
  simp only [TimeOfDay.IsValid] at hvalid
  omega

namespace Reader

variable {α β : Type}

/-- A reader takes a text from in front of a rest, with a value. -/
def Takes (r : Reader α) (cs : List Char) (a : α) (rest : List Char) : Prop :=
  r.run (cs ++ rest) = some (a, rest)

/-- Readers in sequence take their texts in sequence, the first one in front of what follows it. -/
theorem Takes.bind {r : Reader α} {f : α → Reader β} {cs ds rest : List Char} {a : α} {b : β}
    (h : Takes r cs a (ds ++ rest)) (h' : Takes (f a) ds b rest) :
    Takes (r >>= f) (cs ++ ds) b rest := by
  rw [Takes, StateT.run_bind, List.append_assoc, h]
  exact h'

/-- After the last part nothing is left to take. -/
theorem Takes.bind_last {r : Reader α} {f : α → Reader β} {cs rest : List Char} {a : α} {b : β}
    (h : Takes r cs a rest) (h' : Takes (f a) [] b rest) : Takes (r >>= f) cs b rest := by
  rw [Takes, StateT.run_bind, h]
  exact h'

theorem Takes.map {r : Reader α} {cs rest : List Char} {a : α} (f : α → β)
    (h : Takes r cs a rest) : Takes (f <$> r) cs (f a) rest := by
  rw [Takes, StateT.run_map, h]
  rfl

theorem takes_pure (a : α) (rest : List Char) : Takes (pure a) [] a rest := rfl

/-- A reader that leaves nothing over reads the whole text. -/
theorem Takes.whole {r : Reader α} {cs : List Char} {a : α} (h : Takes r cs a []) :
    r.whole cs = some a := by
  rw [Takes, List.append_nil] at h
  rw [Reader.whole, h]

/-! ### Single characters -/

theorem takes_literal (c : Char) (rest : List Char) : Takes (literal c) [c] () rest := if_pos rfl

theorem takes_satisfying {p : Char → Bool} {c : Char} (h : p c = true) (rest : List Char) :
    Takes (satisfying p) [c] c rest := if_pos h

/-- No blanks are skipped before a character that is not one. -/
theorem takes_blanks {rest : List Char} (h : ∀ c ∈ rest.head?, isVisible c = true) :
    Takes blanks [] () rest := by
  rw [Takes, List.nil_append]
  cases rest with
  | nil => rfl
  | cons c rest =>
      have hc : isBlank c = false := not_isBlank_of_isVisible (h c rfl)
      change some ((), (c :: rest).dropWhile isBlank) = _
      rw [List.dropWhile_cons_of_neg (by simp [hc])]

/-! ### Numbers -/

/-- As many digits as may be taken are taken, whatever follows. -/
theorem takes_digitsBetween {least most : Nat} {ds : List Char} (hlo : least ≤ ds.length)
    (hhi : ds.length = most) (h : ∀ c ∈ ds, c.isDigit = true) (rest : List Char) :
    Takes (digitsBetween least most) ds ds rest := by
  have htake : ((ds ++ rest).take most).takeWhile Char.isDigit = ds := by
    rw [← hhi, List.take_left, List.takeWhile_eq_self_iff.mpr h]
  change (if least ≤ (((ds ++ rest).take most).takeWhile Char.isDigit).length then _ else none) = _
  rw [htake, if_pos hlo, List.drop_left]

/-- All digits are taken, so none may follow. -/
theorem takes_someDigits {ds rest : List Char} (hne : ds ≠ []) (h : ∀ c ∈ ds, c.isDigit = true)
    (hrest : NoDigitFirst rest) : Takes someDigits ds ds rest := by
  have hstop : rest.takeWhile Char.isDigit = [] := by
    cases rest with
    | nil => rfl
    | cons c rest => exact List.takeWhile_cons_of_neg (by simp [hrest c rfl])
  have htake : (ds ++ rest).takeWhile Char.isDigit = ds := by
    rw [List.takeWhile_append_of_pos h, hstop, List.append_nil]
  change (if (ds ++ rest).takeWhile Char.isDigit = [] then none else _) = _
  rw [htake, if_neg hne, List.drop_left]

/-- A padded numeral is taken where its width is the most that may be taken. -/
theorem takes_padded {least w n : Nat} (hle : least ≤ w) (hw : 0 < w) (h : n < tenTo w)
    (rest : List Char) : Takes (digitsBetween least w) (padded w n) (padded w n) rest :=
  takes_digitsBetween (by rw [length_padded hw h]; exact hle) (length_padded hw h)
    (fun _ => isDigit_of_mem_padded) rest

/-- A number that is padded to a width is taken at that width. -/
theorem takes_exactly {w n : Nat} (hw : 0 < w) (h : n < tenTo w) (rest : List Char) :
    Takes (exactly w) (padded w n) n rest := by
  have htakes := (takes_padded (Nat.le_refl w) hw h rest).map number
  rwa [number_padded] at htakes

theorem isDigit_head_padded (w n : Nat) (rest : List Char) :
    ∀ c ∈ (padded w n ++ rest).head?, c.isDigit = true := by
  obtain ⟨c, cs, hcons, hdigit⟩ :=
    head_isDigit (padded_ne_nil w n) (fun _ => isDigit_of_mem_padded) rest
  rw [hcons]
  rintro _ ⟨⟩
  exact hdigit

theorem takes_field {w n : Nat} (hw : 0 < w) (h : n < tenTo w) (rest : List Char) :
    Takes (field w) (padded w n) n rest := by
  have htakes := (takes_padded hw hw h rest).map number
  rw [number_padded] at htakes
  exact (takes_blanks fun c hc =>
    isVisible_of_isDigit (isDigit_head_padded w n rest c hc)).bind htakes

/-! ### Dates -/

theorem takes_lift {o : Option α} {a : α} (h : o = some a) (rest : List Char) :
    Takes (liftM o) [] a rest := by
  rw [h]; rfl

theorem year_minus (cs : List Char) :
    year.run ('-' :: cs) = ((fun ds => -(number ds : Int)) <$> someDigits).run cs := rfl

theorem year_plus (cs : List Char) :
    year.run ('+' :: cs) = ((fun ds => (number ds : Int)) <$> someDigits).run cs := rfl

theorem year_digit {c : Char} (h : c.isDigit = true) (cs : List Char) :
    year.run (c :: cs) = ((fun ds => (number ds : Int)) <$> digitsBetween 1 4).run (c :: cs) := by
  have hblanks : blanks.run (c :: cs) = some ((), c :: cs) :=
    takes_blanks (by rintro _ ⟨⟩; exact isVisible_of_isDigit h)
  rw [year, StateT.run_bind, hblanks, Option.bind_eq_bind, Option.bind_some, StateT.run]
  split
  · rename_i heq; cases heq; cases h
  · rename_i heq; cases heq; cases h
  · rfl

/-- A year is taken if no digit follows, whatever its sign and length. -/
theorem takes_year {y : Int} {rest : List Char} (hrest : NoDigitFirst rest) :
    Takes year (Date.yearText y) y rest := by
  have hdigits : ∀ c ∈ padded 4 y.natAbs, c.isDigit = true := fun _ => isDigit_of_mem_padded
  have hsome : Takes someDigits (padded 4 y.natAbs) (padded 4 y.natAbs) rest :=
    takes_someDigits (padded_ne_nil _ _) hdigits hrest
  rw [Date.yearText]
  split
  · rename_i hrange
    have hlt : y.natAbs < tenTo 4 := by
      have h : tenTo 4 = 10000 := rfl
      omega
    obtain ⟨c, cs, hcons, hc⟩ := head_isDigit (padded_ne_nil 4 y.natAbs) hdigits rest
    have hread := (takes_padded (by decide : 1 ≤ 4) (by decide) hlt rest).map
      fun ds => (number ds : Int)
    rw [Takes, hcons] at hread ⊢
    rw [year_digit hc, hread, number_padded]
    simp only [Option.some.injEq, Prod.mk.injEq, and_true]
    omega
  · split
    · have hread := hsome.map (fun ds => -(number ds : Int))
      rw [Takes, List.cons_append, year_minus, hread, number_padded]
      simp only [Option.some.injEq, Prod.mk.injEq, and_true]
      omega
    · have hread := hsome.map (fun ds => (number ds : Int))
      rw [Takes, List.cons_append, year_plus, hread, number_padded]
      simp only [Option.some.injEq, Prod.mk.injEq, and_true]
      omega

/-- A date is taken in front of any rest. -/
theorem takes_calendarDate (d : Date) (rest : List Char) :
    Takes (calendarDate .before) d.text d rest := by
  have htext : d.text = Date.yearText d.year ++ (['-'] ++ (padded 2 d.month ++
      (['-'] ++ padded 2 d.day))) := by
    simp [Date.text]
  have hdate : Date.of? d.year d.month d.day = some d := dif_pos d.valid
  rw [htext]
  exact (takes_year (noDigitFirst_cons (by decide))).bind <|
    (takes_literal '-' _).bind <|
    (takes_field (by decide) d.parts_lt.1 _).bind <|
    (takes_literal '-' _).bind <|
    (takes_field (by decide) d.parts_lt.2 _).bind_last <|
    takes_lift hdate rest

/-! ### Times of day -/

/-- Up to nine digits after a point are taken as nanoseconds. -/
theorem takes_point {w k n : Nat} (hw : 0 < w) (hw' : w ≤ 9) (hk : k < tenTo w)
    (hn : k * tenTo (9 - w) = n) {rest : List Char} (hrest : NoDigitFirst rest) :
    Takes fraction ('.' :: padded w k) n rest := by
  have hlen := length_padded hw hk
  have hread : Takes someDigits (padded w k) (padded w k) rest :=
    takes_someDigits (padded_ne_nil w k) (fun _ => isDigit_of_mem_padded) hrest
  have htakes := hread.map fun ds => number (ds.take 9) * tenTo (9 - ds.length)
  rw [List.take_of_length_le (by omega), number_padded, hlen, hn] at htakes
  exact htakes

/-- Without a point there is no fraction. -/
theorem takes_noFraction {rest : List Char} (h : rest.head? ≠ some '.') :
    Takes fraction [] 0 rest := by
  change fraction rest = some (0, rest)
  rw [fraction]
  rintro cs rfl
  exact h rfl

/-- A fraction is taken as the nanoseconds that it was written for. -/
theorem takes_fraction {n : Nat} (hn : n < 1000000000) {rest : List Char}
    (hrest : NoDigitFirst rest) (hpoint : rest.head? ≠ some '.') :
    Takes fraction (TimeOfDay.fractionText n) n rest := by
  have h3 : tenTo 3 = 1000 := rfl
  have h6 : tenTo 6 = 1000000 := rfl
  rw [TimeOfDay.fractionText]
  split
  · rename_i h; rw [h]; exact takes_noFraction hpoint
  · split
    · rename_i hmilli
      exact takes_point (w := 3) (k := n / 1000000) (by decide) (by decide) (by omega)
        (Nat.div_mul_cancel (Nat.dvd_of_mod_eq_zero hmilli)) hrest
    · split
      · rename_i hmicro
        exact takes_point (w := 6) (k := n / 1000) (by decide) (by decide) (by omega)
          (Nat.div_mul_cancel (Nat.dvd_of_mod_eq_zero hmicro)) hrest
      · exact takes_point (by decide) (by decide) hn (Nat.mul_one n) hrest

/-- The text of a time of day is taken if neither a digit nor a point follows. -/
theorem takes_secondTime (t : TimeOfDay) {rest : List Char} (hrest : NoDigitFirst rest)
    (hpoint : rest.head? ≠ some '.') : Takes (secondTime .before) t.text t.named rest := by
  have htext : t.text = (padded 2 t.hour ++ ([':'] ++ padded 2 t.minute)) ++
      ([':'] ++ (padded 2 (t.second + t.nano / 1000000000) ++
        TimeOfDay.fractionText (t.nano % 1000000000))) := by
    simp [TimeOfDay.text]
  have hnano : t.nano % 1000000000 < 1000000000 := Nat.mod_lt _ (by decide)
  have hourMinute_takes : ∀ rest, Takes (hourMinute .before)
      (padded 2 t.hour ++ ([':'] ++ padded 2 t.minute)) (t.hour, t.minute) rest :=
    fun rest => (takes_field (by decide) t.parts_lt.1 _).bind <|
      (takes_literal ':' _).bind <|
      (takes_field (by decide) t.parts_lt.2.1 _).bind_last (takes_pure _ rest)
  rw [htext]
  exact (hourMinute_takes _).bind <|
    (takes_literal ':' _).bind <|
    (takes_field (by decide) t.parts_lt.2.2 _).bind <|
    (takes_fraction hnano hrest hpoint).bind_last <|
    takes_lift t.of?_parts rest

/-! ### Offsets -/

theorem takes_skip (separator : OffsetSeparator) {rest : List Char}
    (h : ∀ c ∈ rest.head?, c.isDigit = true) : Takes separator.skip [':'] () rest := by
  cases separator with
  | colon => exact takes_literal ':' rest
  | loose =>
      change some ((), (':' :: rest).dropWhile fun c => c == ':' || isBlank c) = some ((), rest)
      rw [List.dropWhile_cons_of_pos (by decide)]
      cases rest with
      | nil => rfl
      | cons c rest =>
          have hdigit : c.isDigit = true := h c rfl
          have hblank : isBlank c = false := not_isBlank_of_isVisible (isVisible_of_isDigit hdigit)
          have hcolon : c ≠ ':' := ne_of_isDigit hdigit (by decide)
          rw [List.dropWhile_cons_of_neg (by simp [hblank, hcolon])]

/-- An offset is taken with either separator, in front of any rest. -/
theorem takes_utcOffset (separator : OffsetSeparator) {offset : Int}
    (h : -1440 < offset ∧ offset < 1440) (rest : List Char) :
    Takes (utcOffset separator) (OffsetDateTime.offsetText offset) offset rest := by
  have htext : OffsetDateTime.offsetText offset = [if offset < 0 then '-' else '+'] ++
      (padded 2 (offset.natAbs / 60) ++ ([':'] ++ padded 2 (offset.natAbs % 60))) := by
    simp [OffsetDateTime.offsetText]
  have hsign : ∀ rest, Takes (satisfying fun c => c == '+' || c == '-' || c == '\u2212')
      [if offset < 0 then '-' else '+'] (if offset < 0 then '-' else '+') rest := by
    intro rest
    split
    · exact takes_satisfying (by decide) rest
    · exact takes_satisfying (by decide) rest
  have h2 : tenTo 2 = 100 := rfl
  have hhours : offset.natAbs / 60 < tenTo 2 := by omega
  have hminutes : offset.natAbs % 60 < tenTo 2 := by omega
  have htotal : (if (if offset < 0 then '-' else '+') == '+'
      then ((offset.natAbs / 60 : Nat) : Int) * 60 + (offset.natAbs % 60 : Nat)
      else -(((offset.natAbs / 60 : Nat) : Int) * 60 + (offset.natAbs % 60 : Nat))) = offset := by
    by_cases hneg : offset < 0
    · rw [if_pos hneg, if_neg (by decide)]
      omega
    · rw [if_neg hneg, if_pos (by decide)]
      omega
  rw [htext, utcOffset]
  refine (hsign _).bind ?_
  refine (takes_exactly (by decide) hhours _).bind ?_
  refine (takes_skip separator (isDigit_head_padded 2 (offset.natAbs % 60) rest)).bind ?_
  refine (takes_exactly (by decide) hminutes _).bind_last ?_
  rw [if_neg (by omega)]
  exact congrArg (fun o => some (o, rest)) htotal

/-- An offset of whole minutes is taken with its sign and colon. -/
theorem takes_offsetOrZulu {offset : Int} (h : -1440 < offset ∧ offset < 1440)
    (rest : List Char) :
    Takes (offsetOrZulu .colon) (OffsetDateTime.offsetText offset) offset rest := by
  have htakes := takes_utcOffset .colon h rest
  rw [Takes, OffsetDateTime.offsetText] at htakes ⊢
  split at htakes
  · rename_i hneg; rw [if_pos hneg]; exact htakes
  · rename_i hneg; rw [if_neg hneg]; exact htakes

end Reader

open Reader

/-! ### Whole texts -/

/-- A date is read back. -/
theorem Date.read_text (d : Date) : Date.read d.text = some d := (takes_calendarDate d []).whole

/-- The text of a time of day is read as the time that it names. -/
theorem TimeOfDay.read_text (t : TimeOfDay) : TimeOfDay.read t.text = some t.named := by
  have h := (takes_secondTime t noDigitFirst_nil (by decide)).whole
  rw [TimeOfDay.read, h]
  rfl

/-- The text of a date and time is read as the date and time that it names. -/
theorem DateTime.read_text (t : DateTime) : DateTime.read t.text = some t.named := by
  have htakes : Takes (DateTime.form (literal 'T') (secondTime .before))
      (t.date.text ++ (['T'] ++ t.time.text)) t.named [] :=
    (takes_calendarDate t.date _).bind <|
      (takes_literal 'T' _).bind <|
      (takes_secondTime t.time noDigitFirst_nil (by decide)).bind_last <| takes_pure t.named []
  have h : (DateTime.form (literal 'T') (secondTime .before)).whole t.text = some t.named :=
    htakes.whole
  rw [DateTime.read, h]
  rfl

namespace OffsetDateTime

/-- The clock that a text names and the offset make up the moment that it names. -/
theorem of?_parts (v : OffsetDateTime) : of? v.clock.named v.offset = some v.named :=
  dif_pos v.isValid_named

/-- An offset begins with a sign or a Z, so that the seconds before it end there. -/
theorem noDigitFirst_offsetText (offset : Int) (rest : List Char) :
    NoDigitFirst (offsetText offset ++ rest) ∧ (offsetText offset ++ rest).head? ≠ some '.' := by
  rw [offsetText]
  split
  · exact ⟨noDigitFirst_cons (by decide), by simp⟩
  · exact ⟨noDigitFirst_cons (by decide), by simp⟩

/-- The strict form takes a year of four digits. -/
theorem takes_strict (v : OffsetDateTime)
    (h : 0 ≤ v.clock.date.year ∧ v.clock.date.year ≤ 9999) :
    Takes strict v.text v.named [] := by
  have hyear : v.clock.date.year.natAbs < tenTo 4 := by
    have h4 : tenTo 4 = 10000 := rfl
    omega
  have hcast : ((v.clock.date.year.natAbs : Nat) : Int) = v.clock.date.year := by omega
  have hdate : Date.of? (v.clock.date.year.natAbs : Nat) v.clock.date.month v.clock.date.day =
      some v.clock.date := by
    rw [hcast]
    exact dif_pos v.clock.date.valid
  have hoffset := v.valid
  obtain ⟨hdigit, hpoint⟩ := noDigitFirst_offsetText v.offset []
  have hnano : v.clock.time.nano % 1000000000 < 1000000000 := Nat.mod_lt _ (by decide)
  have htext : v.text = padded 4 v.clock.date.year.natAbs ++ (['-'] ++
      (padded 2 v.clock.date.month ++ (['-'] ++ (padded 2 v.clock.date.day ++ (['T'] ++
      (padded 2 v.clock.time.hour ++ ([':'] ++ (padded 2 v.clock.time.minute ++ ([':'] ++
      (padded 2 (v.clock.time.second + v.clock.time.nano / 1000000000) ++
      (TimeOfDay.fractionText (v.clock.time.nano % 1000000000) ++
      offsetText v.offset))))))))))) := by
    simp [text, DateTime.text, Date.text, Date.yearText, TimeOfDay.text, h]
  rw [htext, strict]
  refine (takes_exactly (by decide) hyear _).bind ?_
  refine (takes_literal '-' _).bind ?_
  refine (takes_exactly (by decide) v.clock.date.parts_lt.1 _).bind ?_
  refine (takes_literal '-' _).bind ?_
  refine (takes_exactly (by decide) v.clock.date.parts_lt.2 _).bind ?_
  refine (takes_satisfying (by decide) _).bind ?_
  refine (takes_exactly (by decide) v.clock.time.parts_lt.1 _).bind ?_
  refine (takes_literal ':' _).bind ?_
  refine (takes_exactly (by decide) v.clock.time.parts_lt.2.1 _).bind ?_
  refine (takes_literal ':' _).bind ?_
  refine (takes_exactly (by decide) v.clock.time.parts_lt.2.2 _).bind ?_
  refine (takes_fraction hnano hdigit hpoint).bind ?_
  refine (takes_offsetOrZulu ⟨hoffset.1, hoffset.2.1⟩ _).bind_last ?_
  refine (takes_lift hdate _).bind_last ?_
  refine (takes_lift v.clock.time.of?_parts _).bind_last ?_
  exact takes_lift v.of?_parts _

/-- The strict form refuses a year with a sign. -/
theorem strict_refuses (v : OffsetDateTime)
    (h : ¬(0 ≤ v.clock.date.year ∧ v.clock.date.year ≤ 9999)) : strict.run v.text = none := by
  have hsigned : ∀ y rest, ¬(0 ≤ y ∧ y ≤ 9999) → strict.run (Date.yearText y ++ rest) = none := by
    intro y rest hy
    rw [Date.yearText, if_neg hy]
    split <;> rfl
  rw [text, DateTime.text, Date.text]
  simp only [List.append_assoc]
  exact hsigned _ _ h

/-- The spaced form refuses the `T` of every text. -/
theorem spaced_refuses (v : OffsetDateTime) : spaced.run v.text = none := by
  have htext : v.text =
      v.clock.date.text ++ ('T' :: (v.clock.time.text ++ offsetText v.offset)) := by
    simp [text, DateTime.text]
  have hdate := takes_calendarDate v.clock.date ('T' :: (v.clock.time.text ++ offsetText v.offset))
  rw [htext, spaced, DateTime.form, StateT.run_bind, StateT.run_bind, hdate]
  rfl

/-- The text of a moment with an offset is read as the moment that it names if its year has four
digits; otherwise it is refused. -/
theorem read_text_eq (v : OffsetDateTime) :
    read v.text =
      if 0 ≤ v.clock.date.year ∧ v.clock.date.year ≤ 9999 then some v.named else none := by
  rw [read]
  split
  · rename_i hyear
    rw [(takes_strict v hyear).whole]
    rfl
  · rename_i hyear
    have hstrict : strict.whole v.text = none := by rw [whole, strict_refuses v hyear]
    have hspaced : spaced.whole v.text = none := by rw [whole, spaced_refuses v]
    rw [hstrict, hspaced]
    rfl

end OffsetDateTime

/-! ### Characters -/

theorem Date.isVisible_of_mem_text {d : Date} {c : Char} (h : c ∈ d.text) :
    isVisible c = true := by
  have hyear : ∀ y, c ∈ Date.yearText y → isVisible c = true := by
    intro y h
    rw [Date.yearText] at h
    split at h
    · exact isVisible_of_mem_padded h
    · rcases List.mem_cons.mp h with rfl | h
      · split <;> decide
      · exact isVisible_of_mem_padded h
  simp only [Date.text, List.mem_append, List.mem_cons] at h
  rcases h with (h | rfl | h) | rfl | h
  · exact hyear _ h
  · decide
  · exact isVisible_of_mem_padded h
  · decide
  · exact isVisible_of_mem_padded h

theorem TimeOfDay.isVisible_of_mem_text {t : TimeOfDay} {c : Char} (h : c ∈ t.text) :
    isVisible c = true := by
  have hfraction : ∀ n, c ∈ TimeOfDay.fractionText n → isVisible c = true := by
    intro n h
    rw [TimeOfDay.fractionText] at h
    split at h
    · cases h
    · split at h
      · rcases List.mem_cons.mp h with rfl | h
        · decide
        · exact isVisible_of_mem_padded h
      · split at h
        all_goals
          rcases List.mem_cons.mp h with rfl | h
          · decide
          · exact isVisible_of_mem_padded h
  simp only [TimeOfDay.text, List.mem_append, List.mem_cons] at h
  rcases h with ((h | rfl | h) | rfl | h) | h
  · exact isVisible_of_mem_padded h
  · decide
  · exact isVisible_of_mem_padded h
  · decide
  · exact isVisible_of_mem_padded h
  · exact hfraction _ h

/-- The text of a date with a time has a T between them and no blank. -/
theorem DateTime.isVisible_of_mem_text {t : DateTime} {c : Char} (h : c ∈ t.text) :
    isVisible c = true := by
  rcases List.mem_append.mp h with h | h
  · exact Date.isVisible_of_mem_text h
  · rcases List.mem_cons.mp h with rfl | h
    · decide
    · exact TimeOfDay.isVisible_of_mem_text h

theorem OffsetDateTime.isVisible_of_mem_text {t : OffsetDateTime} {c : Char} (h : c ∈ t.text) :
    isVisible c = true := by
  rcases List.mem_append.mp h with h | h
  · exact DateTime.isVisible_of_mem_text h
  · simp only [OffsetDateTime.offsetText, List.mem_append, List.mem_cons] at h
    rcases h with (rfl | h) | rfl | h
    · split <;> decide
    · exact isVisible_of_mem_padded h
    · decide
    · exact isVisible_of_mem_padded h

end RecordFilter
