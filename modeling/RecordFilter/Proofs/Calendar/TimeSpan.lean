import RecordFilter.Calendar.TimeSpan
import RecordFilter.Number.Integer
import RecordFilter.Proofs.Text.Digits

/-!
# Spans and their texts

The text of a span is a sign and the text of its magnitude, three fields with colons between: days
and hours, minutes, seconds with their fraction.  Each field is read back by itself, and from the
fields the magnitude is put together again, unless it has more days than a text may name.

* `readHead_append`, `readSeconds_append`: the first and the last field are read back.
* `readMagnitude_magnitudeText`: so is the magnitude.
* `checkedText_eq`: the text is reckoned without leaving the bounds of spans and of 64 bits.
* `read_text_eq`: which spans are read back.
* `text_codec`: spans and their texts.
-/

namespace RecordFilter.TimeSpan

open Text

/-! ### Fields -/

theorem isDigit_of_mem_twoDigits {n : Nat} {c : Char} (h : c ∈ twoDigits n) : c.isDigit = true :=
  isDigit_of_mem_padded h

theorem number?_twoDigits (n : Nat) : number? (twoDigits n) = some n := number?_padded 2 n

theorem cutAtPoint_of_not_mem {cs : List Char} (h : '.' ∉ cs) : cutAtPoint cs = none := by
  have hdrop : cs.dropWhile (· != '.') = [] :=
    List.dropWhile_eq_nil_iff.mpr fun c hc => bne_iff_ne.mpr fun heq => h (heq ▸ hc)
  rw [cutAtPoint, hdrop]

/-- A text is cut at its first point. -/
theorem cutAtPoint_append {cs : List Char} (h : '.' ∉ cs) (rest : List Char) :
    cutAtPoint (cs ++ '.' :: rest) = some (cs, rest) := by
  have hall : ∀ c ∈ cs, (c != '.') = true :=
    fun c hc => bne_iff_ne.mpr fun heq => h (heq ▸ hc)
  rw [cutAtPoint, List.dropWhile_append_of_pos hall, List.takeWhile_append_of_pos hall]
  simp

/-- The days in front of the hours; none are written for less than one day. -/
def daysText (days : Nat) : List Char := if days = 0 then [] else digits days ++ ['.']

/-- Days and hours are read back. -/
theorem readHead_append (days hours : Nat) :
    readHead (daysText days ++ twoDigits hours) = some (days, hours) := by
  by_cases hd : days = 0
  · have hpoint : '.' ∉ twoDigits hours :=
      not_mem_of_digits (by decide) fun _ => isDigit_of_mem_twoDigits
    rw [daysText, if_pos hd, List.nil_append, readHead, cutAtPoint_of_not_mem hpoint, hd]
    simp [number?_twoDigits]
  · have hpoint : '.' ∉ digits days :=
      not_mem_of_digits (by decide) fun _ => isDigit_of_mem_digits
    rw [daysText, if_neg hd, List.append_assoc, List.singleton_append, readHead,
      cutAtPoint_append hpoint]
    simp [number?_twoDigits, number?_digits]

/-- A fraction without its trailing zeros still names its nanoseconds. -/
theorem fraction_read {nanos : Nat} (hpos : nanos ≠ 0) (h : nanos < 1000000000) :
    ∃ ds, fractionText nanos = '.' :: ds ∧ ds.length ≤ 9 ∧ number? ds = some (number ds) ∧
      number ds * tenTo (9 - ds.length) = nanos := by
  have hlen : (padded 9 nanos).length = 9 := length_padded (by decide) h
  have hnum := number_stripZeros (padded 9 nanos)
  have hle := length_stripZeros_le (padded 9 nanos)
  rw [hlen] at hnum hle
  rw [number_padded] at hnum
  have hne : stripZeros (padded 9 nanos) ≠ [] := by
    intro hnil
    rw [hnil] at hnum
    exact hpos (hnum.symm.trans (Nat.zero_mul _))
  refine ⟨stripZeros (padded 9 nanos), if_neg hpos, hle, number?_of_isDigit hne fun c hc => ?_,
    hnum⟩
  exact isDigit_of_mem_padded (mem_of_mem_stripZeros hc)

/-- Seconds and their fraction are read back. -/
theorem readSeconds_append {nanos : Nat} (seconds : Nat) (h : nanos < 1000000000) :
    readSeconds (twoDigits seconds ++ fractionText nanos) = some (seconds, nanos) := by
  have hpoint : '.' ∉ twoDigits seconds :=
    not_mem_of_digits (by decide) fun _ => isDigit_of_mem_twoDigits
  by_cases hn : nanos = 0
  · rw [fractionText, if_pos hn, List.append_nil, readSeconds, cutAtPoint_of_not_mem hpoint, hn]
    simp [number?_twoDigits]
  · obtain ⟨ds, htext, hlen, hread, hnum⟩ := fraction_read hn h
    rw [htext, readSeconds, cutAtPoint_append hpoint]
    simp [Nat.not_lt.mpr hlen, number?_twoDigits, hread, hnum]

/-! ### Magnitudes -/

/-- The text of a number of nanoseconds. -/
def magnitudeText (n : Nat) : List Char :=
  (daysText (n / 1000000000 / 86400) ++ twoDigits (n / 1000000000 % 86400 / 3600)) ++
    ':' :: (twoDigits (n / 1000000000 % 3600 / 60) ++
      ':' :: (twoDigits (n / 1000000000 % 60) ++ fractionText (n % 1000000000)))

theorem text_eq (s : TimeSpan) :
    s.text = (if s.nanos < 0 then ['-'] else []) ++ magnitudeText s.nanos.natAbs := by
  simp [text, magnitudeText, daysText]

/-- The characters of a fraction. -/
theorem fractionText_chars {n : Nat} {c : Char} (h : c ∈ fractionText n) :
    c.isDigit = true ∨ c = '.' := by
  rw [fractionText] at h
  split at h
  · cases h
  · rcases List.mem_cons.mp h with rfl | h
    · exact .inr rfl
    · exact .inl (isDigit_of_mem_padded (mem_of_mem_stripZeros h))

/-- The characters of days. -/
theorem daysText_chars {n : Nat} {c : Char} (h : c ∈ daysText n) :
    c.isDigit = true ∨ c = '.' := by
  rw [daysText] at h
  split at h
  · cases h
  · rcases List.mem_append.mp h with h | h
    · exact .inl (isDigit_of_mem_digits h)
    · exact .inr (List.mem_singleton.mp h)

/-- The three fields are cut apart at the colons. -/
theorem fields_magnitudeText (n : Nat) :
    fields (magnitudeText n) =
      [daysText (n / 1000000000 / 86400) ++ twoDigits (n / 1000000000 % 86400 / 3600),
        twoDigits (n / 1000000000 % 3600 / 60),
        twoDigits (n / 1000000000 % 60) ++ fractionText (n % 1000000000)] := by
  have htwo : ∀ n, ':' ∉ twoDigits n :=
    fun n => not_mem_of_digits (by decide) fun _ => isDigit_of_mem_twoDigits
  have hdays : ∀ n, ':' ∉ daysText n := fun n h => by
    rcases daysText_chars h with h | h <;> exact absurd h (by decide)
  have hfraction : ∀ n, ':' ∉ fractionText n := fun n h => by
    rcases fractionText_chars h with h | h <;> exact absurd h (by decide)
  rw [fields, magnitudeText, List.splitOn_append_cons_self_of_not_mem (by simp [htwo, hdays]),
    List.splitOn_append_cons_self_of_not_mem (htwo _),
    List.splitOn_eq_singleton (by simp [htwo, hfraction])]

/-- A magnitude is read back, unless it has too many days. -/
theorem readMagnitude_magnitudeText (n : Nat) :
    readMagnitude (magnitudeText n) =
      if n < 10675200 * 86400 * 1000000000 then some n else none := by
  have hseconds := readSeconds_append (n / 1000000000 % 60)
    (Nat.mod_lt n (by decide : 0 < 1000000000))
  rw [readMagnitude, fields_magnitudeText]
  simp only [readHead_append, hseconds, number?_twoDigits, Option.bind_eq_bind, Option.bind_some,
    assemble, mostDays]
  have hparts : (((n / 1000000000 / 86400 * 24 + n / 1000000000 % 86400 / 3600) * 60 +
      n / 1000000000 % 3600 / 60) * 60 + n / 1000000000 % 60) * 1000000000 +
        n % 1000000000 = n := by
    omega
  rw [hparts]
  -- hours, minutes and seconds are always within their bounds, so the days decide
  exact if_congr (by omega) rfl rfl

/-! ### Reading a span -/

theorem ofNanos?_eq_some {i : Int} {s : TimeSpan} : ofNanos? i = some s ↔ s.nanos = i := by
  constructor
  · intro h
    rw [ofNanos?] at h
    split at h
    · cases h; rfl
    · cases h
  · rintro rfl
    exact dif_pos s.bounded

theorem isVisible_of_mem_magnitudeText {n : Nat} {c : Char} (h : c ∈ magnitudeText n) :
    isVisible c = true := by
  have hpoint : c.isDigit = true ∨ c = '.' → isVisible c = true := by
    rintro (h | rfl)
    · exact isVisible_of_isDigit h
    · decide
  have htwo : ∀ k, c ∈ twoDigits k → isVisible c = true := fun _ h => isVisible_of_mem_padded h
  simp only [magnitudeText, List.mem_append, List.mem_cons] at h
  rcases h with (h | h) | rfl | h | rfl | h | h
  · exact hpoint (daysText_chars h)
  · exact htwo _ h
  · decide
  · exact htwo _ h
  · decide
  · exact htwo _ h
  · exact hpoint (fractionText_chars h)

/-- A magnitude begins with a digit. -/
theorem magnitudeText_head (n : Nat) :
    ∃ c cs, magnitudeText n = c :: cs ∧ c.isDigit = true := by
  rw [magnitudeText, daysText]
  split
  · rw [List.nil_append]
    exact head_isDigit (padded_ne_nil _ _) (fun _ => isDigit_of_mem_twoDigits) _
  · rw [List.append_assoc, List.append_assoc]
    exact head_isDigit (digits_ne_nil _) (fun _ => isDigit_of_mem_digits) _

/-- Which spans are read back. -/
theorem read_text_eq (s : TimeSpan) :
    read s.text = if s.nanos.natAbs < 10675200 * 86400 * 1000000000 then some s else none := by
  have hvisible : ∀ c ∈ s.text, isVisible c = true := by
    intro c hc
    rw [text_eq] at hc
    rcases List.mem_append.mp hc with h | h
    · split at h
      · rw [List.mem_singleton.mp h]; decide
      · cases h
    · exact isVisible_of_mem_magnitudeText h
  have hmagnitude := readMagnitude_magnitudeText s.nanos.natAbs
  rw [read, trimChars_of_visible hvisible, text_eq]
  by_cases hneg : s.nanos < 0
  · rw [if_pos hneg, List.singleton_append]
    simp only [hmagnitude]
    split
    · exact ofNanos?_eq_some.mpr (by omega)
    · rfl
  · obtain ⟨c, cs, hcons, hdigit⟩ := magnitudeText_head s.nanos.natAbs
    have hminus : ∀ rest, c :: cs = '-' :: rest → False := by
      rintro rest ⟨⟩
      cases hdigit
    rw [if_neg hneg, List.nil_append, hcons]
    split
    · rename_i h; exact (hminus _ h).elim
    · rw [← hcons, hmagnitude]
      split
      · exact ofNanos?_eq_some.mpr (by omega)
      · rfl

/-! ### Spans that texts name -/

/-- Parts within their bounds stay below 10675200 days. -/
theorem assemble_lt {d h m s nanos n : Nat} (hn : assemble d h m s nanos = some n)
    (hnanos : nanos < 1000000000) : n < 10675200 * 86400 * 1000000000 := by
  rw [assemble, mostDays] at hn
  split at hn
  · cases hn; omega
  · cases hn

/-- At most nine digits, filled up to nine, stand for less than a second. -/
theorem scaled_lt {ds : List Char} (hdigits : ∀ c ∈ ds, c.isDigit = true) (hlen : ds.length ≤ 9) :
    number ds * tenTo (9 - ds.length) < 1000000000 := by
  have hsplit : tenTo ds.length * tenTo (9 - ds.length) = 1000000000 := by
    calc tenTo ds.length * tenTo (9 - ds.length)
        = tenTo (ds.length + (9 - ds.length)) := (Nat.pow_add 10 _ _).symm
      _ = tenTo 9 := by rw [Nat.add_sub_cancel' hlen]
  rw [← hsplit]
  exact Nat.mul_lt_mul_of_pos_right (number_lt hdigits) (tenTo_pos _)

/-- A fraction is less than a second. -/
theorem lt_of_readSeconds {cs : List Char} {p : Nat × Nat} (h : readSeconds cs = some p) :
    p.2 < 1000000000 := by
  rw [readSeconds] at h
  split at h
  · split at h
    · cases h
    · rename_i hlen
      obtain ⟨_, -, h⟩ := Option.bind_eq_some_iff.mp h
      obtain ⟨m, hm, h⟩ := Option.bind_eq_some_iff.mp h
      cases h
      obtain ⟨⟨-, hdigits⟩, rfl⟩ := number?_eq_some.mp hm
      exact scaled_lt hdigits (Nat.not_lt.mp hlen)
  · obtain ⟨_, -, h⟩ := Option.bind_eq_some_iff.mp h
    cases h
    exact (by decide : 0 < 1000000000)

/-- Whatever magnitude is read stays below 10675200 days. -/
theorem lt_of_readMagnitude {cs : List Char} {n : Nat} (h : readMagnitude cs = some n) :
    n < 10675200 * 86400 * 1000000000 := by
  rw [readMagnitude] at h
  split at h
  · obtain ⟨_, -, h⟩ := Option.bind_eq_some_iff.mp h
    exact assemble_lt h (by decide)
  · obtain ⟨_, -, h⟩ := Option.bind_eq_some_iff.mp h
    obtain ⟨_, -, h⟩ := Option.bind_eq_some_iff.mp h
    exact assemble_lt h (by decide)
  · obtain ⟨_, -, h⟩ := Option.bind_eq_some_iff.mp h
    obtain ⟨_, hseconds, h⟩ := Option.bind_eq_some_iff.mp h
    obtain ⟨_, -, h⟩ := Option.bind_eq_some_iff.mp h
    exact assemble_lt h (lt_of_readSeconds hseconds)
  · cases h

/-- A span that a text names has no more days than a text may name. -/
theorem lt_of_read {cs : List Char} {s : TimeSpan} (h : read cs = some s) :
    s.nanos.natAbs < 10675200 * 86400 * 1000000000 := by
  rw [read] at h
  split at h
  all_goals
    obtain ⟨n, hn, h⟩ := Option.bind_eq_some_iff.mp h
    rw [ofNanos?_eq_some.mp h]
    have hlt := lt_of_readMagnitude hn
    omega

/-! ### Bounds -/

/-- A number of 64 bits, if it is one. -/
def word? (i : Int) : Option IntKind.int64.Value := (IntKind.int64.fit i).toOption

/-- The magnitude of a span, if that is a span. -/
def magnitude? (s : TimeSpan) : Option TimeSpan :=
  if s.nanos < 0 then ofNanos? (-s.nanos) else some s

/-- Days, hours, minutes, seconds and nanoseconds in numbers of 64 bits. -/
structure Parts where
  days : IntKind.int64.Value
  hours : IntKind.int64.Value
  minutes : IntKind.int64.Value
  seconds : IntKind.int64.Value
  nanos : IntKind.int64.Value

/-- The parts of a magnitude, reckoned with spans and numbers of 64 bits alone; nothing where a
step leaves their bounds. -/
def parts? (magnitude : TimeSpan) : Option Parts := do
  let total ← word? (magnitude.nanos.tdiv 1000000000)
  let whole ← ofNanos? (total.1 * 1000000000)
  let rest ← ofNanos? (magnitude.nanos - whole.nanos)
  return ⟨← word? (total.1.tdiv 86400), ← word? ((total.1.tmod 86400).tdiv 3600),
    ← word? ((total.1.tmod 3600).tdiv 60), ← word? (total.1.tmod 60), ← word? rest.nanos⟩

/-- The text of parts. -/
def Parts.text (p : Parts) : List Char :=
  (if 0 < p.days.1 then signedDigits p.days.1 ++ ['.'] else []) ++ twoDigits p.hours.1.toNat ++
    ':' :: twoDigits p.minutes.1.toNat ++ ':' :: twoDigits p.seconds.1.toNat ++
    if 0 < p.nanos.1 then fractionText p.nanos.1.toNat else []

/-- The text of a span, reckoned with checks; nothing where a step leaves its bounds. -/
def checkedText (s : TimeSpan) : Option (List Char) := do
  let magnitude ← s.magnitude?
  let parts ← magnitude.parts?
  return (if s.nanos < 0 then ['-'] else []) ++ parts.text

theorem word?_natCast {n : Nat} (h : n ≤ 9223372036854775807) :
    ∃ w : IntKind.int64.Value, word? n = some w ∧ w.1 = n := by
  have hbounds : IntKind.int64.least ≤ (n : Int) ∧ (n : Int) ≤ IntKind.int64.greatest := by
    simp only [IntKind.least, IntKind.greatest]
    omega
  have hfit : IntKind.int64.fit n = .ok ⟨n, hbounds⟩ := IntKind.fit_eq_ok_iff.mpr rfl
  exact ⟨⟨n, hbounds⟩, by rw [word?, hfit]; rfl, rfl⟩

theorem ofNanos?_natCast {n : Nat} (h : n ≤ bound) :
    ∃ s, ofNanos? n = some s ∧ s.nanos = n :=
  ⟨⟨n, by rw [Int.natAbs_natCast]; exact h⟩, ofNanos?_eq_some.mpr rfl, rfl⟩

/-- The magnitude of a span is a span, as the least span is the negation of the greatest. -/
theorem magnitude?_eq_some (s : TimeSpan) :
    ∃ m, s.magnitude? = some m ∧ m.nanos = s.nanos.natAbs := by
  rw [magnitude?]
  by_cases hneg : s.nanos < 0
  · have hneg' : -s.nanos = s.nanos.natAbs := by omega
    rw [if_pos hneg, hneg']
    exact ofNanos?_natCast s.bounded
  · exact ⟨s, if_neg hneg, by omega⟩

/-- The parts of a magnitude are natural numbers within their bounds. -/
theorem parts?_eq_some {m : TimeSpan} {n : Nat} (hm : m.nanos = n) :
    ∃ p, m.parts? = some p ∧ p.days.1 = (n / 1000000000 / 86400 : Nat) ∧
      p.hours.1 = (n / 1000000000 % 86400 / 3600 : Nat) ∧
      p.minutes.1 = (n / 1000000000 % 3600 / 60 : Nat) ∧
      p.seconds.1 = (n / 1000000000 % 60 : Nat) ∧ p.nanos.1 = (n % 1000000000 : Nat) := by
  have hbounded : n ≤ 9223372036854775807000000 := by
    have h := m.bounded
    rw [hm, Int.natAbs_natCast] at h
    exact h
  have hbound : bound = 9223372036854775807000000 := rfl
  -- none of the numbers is greater than the magnitude in seconds
  obtain ⟨total, htotal, htotal'⟩ := word?_natCast (n := n / 1000000000) (by omega)
  obtain ⟨whole, hwhole, hwhole'⟩ :=
    ofNanos?_natCast (n := n / 1000000000 * 1000000000) (by omega)
  obtain ⟨rest, hrest, hrest'⟩ := ofNanos?_natCast (n := n % 1000000000) (by omega)
  obtain ⟨days, hdays, hdays'⟩ := word?_natCast (n := n / 1000000000 / 86400) (by omega)
  obtain ⟨hours, hhours, hhours'⟩ :=
    word?_natCast (n := n / 1000000000 % 86400 / 3600) (by omega)
  obtain ⟨minutes, hminutes, hminutes'⟩ :=
    word?_natCast (n := n / 1000000000 % 3600 / 60) (by omega)
  obtain ⟨seconds, hseconds, hseconds'⟩ := word?_natCast (n := n / 1000000000 % 60) (by omega)
  obtain ⟨nanos, hnanos, hnanos'⟩ := word?_natCast (n := n % 1000000000) (by omega)
  have hfloor : m.nanos.tdiv 1000000000 = (n / 1000000000 : Nat) := by rw [hm]; rfl
  have hback : total.1 * 1000000000 = (n / 1000000000 * 1000000000 : Nat) := by omega
  have hleft : m.nanos - whole.nanos = (n % 1000000000 : Nat) := by omega
  have hday : total.1.tdiv 86400 = (n / 1000000000 / 86400 : Nat) := by rw [htotal']; rfl
  have hhour : (total.1.tmod 86400).tdiv 3600 = (n / 1000000000 % 86400 / 3600 : Nat) := by
    rw [htotal']; rfl
  have hminute : (total.1.tmod 3600).tdiv 60 = (n / 1000000000 % 3600 / 60 : Nat) := by
    rw [htotal']; rfl
  have hsecond : total.1.tmod 60 = (n / 1000000000 % 60 : Nat) := by rw [htotal']; rfl
  refine ⟨⟨days, hours, minutes, seconds, nanos⟩, ?_, hdays', hhours', hminutes', hseconds',
    hnanos'⟩
  simp only [parts?, hfloor, htotal, hback, hwhole, hleft, hrest, hday, hdays, hhour, hhours,
    hminute, hminutes, hsecond, hseconds, hrest', hnanos, Option.bind_eq_bind, Option.bind_some,
    Option.pure_def]

/-- Natural numbers in the parts give the text of a magnitude. -/
theorem Parts.text_eq {p : Parts} {n : Nat} (hdays : p.days.1 = (n / 1000000000 / 86400 : Nat))
    (hhours : p.hours.1 = (n / 1000000000 % 86400 / 3600 : Nat))
    (hminutes : p.minutes.1 = (n / 1000000000 % 3600 / 60 : Nat))
    (hseconds : p.seconds.1 = (n / 1000000000 % 60 : Nat))
    (hnanos : p.nanos.1 = (n % 1000000000 : Nat)) : p.text = magnitudeText n := by
  have hday : ∀ k : Nat, (if (0 : Int) < k then signedDigits k ++ ['.'] else []) = daysText k := by
    intro k
    rcases Nat.eq_zero_or_pos k with rfl | hpos
    · rfl
    · rw [if_pos (by omega), daysText, if_neg (by omega), signedDigits, if_neg (by omega),
        Int.natAbs_natCast]
  have hnano : ∀ k : Nat, (if (0 : Int) < k then fractionText k else []) = fractionText k := by
    intro k
    rcases Nat.eq_zero_or_pos k with rfl | hpos
    · rfl
    · exact if_pos (by omega)
  rw [Parts.text, hdays, hhours, hminutes, hseconds, hnanos, hday]
  simp only [Int.toNat_natCast, hnano, magnitudeText, List.append_assoc, List.cons_append]

/-- No step of the text leaves its bounds. -/
theorem checkedText_eq (s : TimeSpan) : s.checkedText = some s.text := by
  obtain ⟨m, hm, hnanos⟩ := s.magnitude?_eq_some
  obtain ⟨p, hp, hdays, hhours, hminutes, hseconds, hnano⟩ := parts?_eq_some hnanos
  rw [checkedText, hm, TimeSpan.text_eq, ← Parts.text_eq hdays hhours hminutes hseconds hnano]
  simp [hp]

/-! ### Spans and texts -/

/-- The text of a span is reckoned within bounds, and names the span unless that has more days than
a text may name; so spans that texts name differ in their texts, and what a text names is read back
from its own text. -/
theorem text_codec :
    (∀ s : TimeSpan, s.checkedText = some s.text ∧
      read s.text = if s.nanos.natAbs < 10675200 * 86400 * 1000000000 then some s else none) ∧
    (∀ (cs cs' : List Char) (s s' : TimeSpan), read cs = some s → read cs' = some s' →
      s.text = s'.text → s = s') ∧
    ∀ (cs : List Char) (s : TimeSpan), read cs = some s → read s.text = some s := by
  have hback : ∀ (cs : List Char) (s : TimeSpan), read cs = some s → read s.text = some s := by
    intro cs s h
    rw [read_text_eq, if_pos (lt_of_read h)]
  refine ⟨fun s => ⟨s.checkedText_eq, s.read_text_eq⟩, fun cs cs' s s' h h' htext => ?_, hback⟩
  have hs := hback cs s h
  rw [htext, hback cs' s' h'] at hs
  exact (Option.some.inj hs).symm

/-- The least span that a text names. -/
def leastNamed : TimeSpan := ⟨-922337279999999999999, by decide⟩

/-- The greatest span that a text names. -/
def greatestNamed : TimeSpan := ⟨922337279999999999999, by decide⟩

/-- Named with zeros and blanks, the least span is read back from its own text, which differs from
that of the greatest. -/
theorem leastNamed_text :
    read " -0010675199.23:59:59.999999999".toList = some leastNamed ∧
      read "10675199.23:59:59.999999999".toList = some greatestNamed ∧
      read leastNamed.text = some leastNamed ∧ leastNamed.text ≠ greatestNamed.text := by
  have hleast : read " -0010675199.23:59:59.999999999".toList = some leastNamed := by decide
  have hgreatest : read "10675199.23:59:59.999999999".toList = some greatestNamed := by decide
  exact ⟨hleast, hgreatest, text_codec.2.2 _ _ hleast, fun htext =>
    absurd (text_codec.2.1 _ _ _ _ hleast hgreatest htext) (by decide)⟩

end RecordFilter.TimeSpan
