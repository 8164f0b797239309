import RecordFilter.Number.Decimal
import RecordFilter.Number.Integer
import RecordFilter.Proofs.Text.Digits

/-!
# Integers and decimals read back

Both readers keep the number of the digits read so far.  That number never passes the one that the
whole numeral stands for, so a reader that stops where a bound is passed reads the numeral of every
number within the bound to its end.

* `IntKind.read_signedDigits_iff`: the digits of an integer are read as it, in the kinds it belongs
  to.
* `Decimal.read_text`: a decimal is read back with all its places; a zero loses its sign.
* `Decimal.exists_ofInt?`: the digits of an integer are read as the decimal that it is.
-/

namespace RecordFilter

open Text

/-- More digits never make a numeral stand for less. -/
theorem le_ofDigitChars (n : Nat) (ds : List Char) : n ≤ Nat.ofDigitChars 10 ds n := by
  rw [Nat.ofDigitChars_eq_ofDigitChars_zero]
  have h : 1 * n ≤ 10 ^ ds.length * n := Nat.mul_le_mul_right n (Nat.pow_pos (by decide))
  omega

/-- What bounds a numeral bounds the number of its first digits. -/
theorem lt_of_ofDigitChars_cons {c : Char} {ds : List Char} {n b : Nat}
    (h : Nat.ofDigitChars 10 (c :: ds) n < b) : 10 * n + (c.toNat - '0'.toNat) < b := by
  rw [Nat.ofDigitChars_cons] at h
  exact Nat.lt_of_le_of_lt (le_ofDigitChars _ ds) h

/-! ### Integers -/

namespace IntKind

variable {k : IntKind}

/-- An integer by its sign and its magnitude. -/
def withSign (negative : Bool) (n : Nat) : Int := if negative then -(n : Int) else n

/-- A further digit moves the number away from zero, whatever the sign. -/
theorem withSign_step (negative : Bool) (n d : Nat) :
    (if negative then withSign negative n * 10 - d else withSign negative n * 10 + d) =
      withSign negative (10 * n + d) := by
  cases negative with
  | false => simp only [withSign, Bool.false_eq_true, if_false]; omega
  | true => simp only [withSign, if_true]; omega

/-- What lies between zero and a value of a kind belongs to the kind. -/
theorem bounds_of_le {i : k.Value} {negative : Bool} {m n : Nat}
    (hi : i.1 = withSign negative n) (h : m ≤ n) :
    k.least ≤ withSign negative m ∧ withSign negative m ≤ k.greatest := by
  have hzero : k.least ≤ 0 ∧ 0 ≤ k.greatest := k.zero.2
  have hbounds := i.2
  cases negative with
  | false => simp only [withSign, Bool.false_eq_true, if_false] at hi ⊢; omega
  | true => simp only [withSign, if_true] at hi ⊢; omega

/-- Digits are read to their end if the number they lead to belongs to the kind. -/
theorem readDigits_eq {negative : Bool} {i : k.Value} :
    ∀ {ds : List Char} {value : k.Value} {n : Nat}, (∀ c ∈ ds, c.isDigit = true) →
      value.1 = withSign negative n → i.1 = withSign negative (Nat.ofDigitChars 10 ds n) →
      k.readDigits negative value ds = .ok i := by
  intro ds
  induction ds with
  | nil =>
      intro value n _ hvalue hi
      rw [readDigits, Subtype.ext (hvalue.trans hi.symm)]
  | cons c ds ih =>
      intro value n hdigits hvalue hi
      rw [Nat.ofDigitChars_cons] at hi
      let next : k.Value := ⟨_, bounds_of_le hi (le_ofDigitChars _ ds)⟩
      have hfit : k.fit (if negative then value.1 * 10 - ((c.toNat - '0'.toNat : Nat) : Int)
          else value.1 * 10 + ((c.toNat - '0'.toNat : Nat) : Int)) = .ok next := by
        rw [hvalue, withSign_step]
        exact fit_eq_ok_iff.mpr rfl
      rw [readDigits, digit?_of_isDigit (hdigits c List.mem_cons_self)]
      simp only [hfit]
      exact ih (fun d hd => hdigits d (List.mem_cons_of_mem c hd)) rfl hi

theorem read_of_isDigit {c : Char} (h : c.isDigit = true) (cs : List Char) :
    k.read (c :: cs) = k.readDigits false k.zero (c :: cs) := by
  have hplus : c ≠ '+' := ne_of_isDigit h (by decide)
  have hminus : c ≠ '-' := ne_of_isDigit h (by decide)
  rw [read] <;> simp [hplus, hminus]

/-- What digits are read as is the number they lead to. -/
theorem readDigits_sound {negative : Bool} {i : k.Value} :
    ∀ {ds : List Char} {value : k.Value} {n : Nat}, (∀ c ∈ ds, c.isDigit = true) →
      value.1 = withSign negative n → k.readDigits negative value ds = .ok i →
      i.1 = withSign negative (Nat.ofDigitChars 10 ds n) := by
  intro ds
  induction ds with
  | nil =>
      intro value n _ hvalue h
      cases h
      exact hvalue
  | cons c ds ih =>
      intro value n hdigits hvalue h
      rw [readDigits, digit?_of_isDigit (hdigits c List.mem_cons_self)] at h
      dsimp only at h
      split at h
      · cases h
      · rename_i next hfit
        rw [hvalue, withSign_step] at hfit
        rw [Nat.ofDigitChars_cons]
        exact ih (fun d hd => hdigits d (List.mem_cons_of_mem c hd)) (fit_eq_ok_iff.mp hfit) h

/-- Digits are read with a sign where the signed number is in the range of the kind. -/
theorem readDigits_eq_ok_iff {negative : Bool} {ds : List Char} {i : k.Value}
    (hdigits : ∀ c ∈ ds, c.isDigit = true) :
    k.readDigits negative k.zero ds = .ok i ↔ i.1 = withSign negative (number ds) := by
  have hzero : k.zero.1 = withSign negative 0 := by cases negative <;> rfl
  exact ⟨readDigits_sound hdigits hzero, readDigits_eq hdigits hzero⟩

/-- Digits are read as the number they stand for, if that belongs to the kind. -/
theorem read_eq_ok_iff_of_isDigit {ds : List Char} {i : k.Value} (hne : ds ≠ [])
    (hdigits : ∀ c ∈ ds, c.isDigit = true) : k.read ds = .ok i ↔ i.1 = number ds := by
  obtain ⟨c, cs, hcons, hc⟩ := head_isDigit hne hdigits []
  rw [List.append_nil] at hcons
  rw [hcons] at hdigits ⊢
  rw [read_of_isDigit hc]
  exact readDigits_eq_ok_iff hdigits

/-- The digits of an integer are read as that integer, if it belongs to the kind. -/
theorem read_signedDigits_iff {n : Int} {i : k.Value} :
    k.read (signedDigits n) = .ok i ↔ i.1 = n := by
  have hdigits : ∀ c ∈ digits n.natAbs, c.isDigit = true := fun _ => isDigit_of_mem_digits
  have hne : digits n.natAbs ≠ [] := digits_ne_nil _
  rw [signedDigits]
  by_cases hneg : n < 0
  · obtain ⟨c, cs, hcons, hc⟩ := head_isDigit hne hdigits []
    rw [List.append_nil] at hcons
    have hread : k.read ('-' :: digits n.natAbs) =
        if k.isSigned then k.readDigits true k.zero (digits n.natAbs) else .error .notADigit := by
      rw [hcons, read]
      rintro ⟨⟩
    rw [if_pos hneg, hread]
    split
    · rw [readDigits_eq_ok_iff hdigits, number_digits, withSign, if_pos rfl]
      omega
    · rename_i hunsigned
      have hleast : k.least = 0 := by cases k <;> first | rfl | exact absurd rfl hunsigned
      have hnonneg := i.2.1
      refine ⟨nofun, fun h => ?_⟩
      omega
  · rw [if_neg hneg, read_eq_ok_iff_of_isDigit hne hdigits, number_digits]
    omega

/-- An integer is read back. -/
theorem read_signedDigits (i : k.Value) : k.read (signedDigits i.1) = .ok i :=
  read_signedDigits_iff.mpr rfl

theorem isVisible_of_mem_signedDigits {i : Int} {c : Char} (h : c ∈ signedDigits i) :
    isVisible c = true := by
  rw [signedDigits] at h
  split at h
  · rcases List.mem_cons.mp h with rfl | h
    · decide
    · exact isVisible_of_isDigit (isDigit_of_mem_digits h)
  · exact isVisible_of_isDigit (isDigit_of_mem_digits h)

end IntKind

/-! ### Decimals -/

namespace Decimal

/-- Digits in front of the point are read to their end if the coefficient has room for them. -/
theorem readDigits_whole {negative : Bool} {rest : List Char} :
    ∀ {ds : List Char} {seen : Bool} {n : Nat}, (∀ c ∈ ds, c.isDigit = true) →
      Nat.ofDigitChars 10 ds n < bound →
      readDigits negative seen false n 0 (ds ++ rest) =
        readDigits negative (seen || !ds.isEmpty) false (Nat.ofDigitChars 10 ds n) 0 rest := by
  intro ds
  induction ds with
  | nil =>
      intro seen n _ _
      simp
  | cons c ds ih =>
      intro seen n hdigits hlt
      have hstep := lt_of_ofDigitChars_cons hlt
      rw [Nat.ofDigitChars_cons] at hlt
      rw [List.cons_append, readDigits, if_neg (by simp),
        digit?_of_isDigit (hdigits c List.mem_cons_self)]
      simp only [Nat.mul_comm n 10, hstep, if_true, Bool.false_eq_true, if_false]
      rw [ih (fun d hd => hdigits d (List.mem_cons_of_mem c hd)) hlt, Nat.ofDigitChars_cons]
      simp

/-- So are digits after the point if there are places for them. -/
theorem readDigits_fraction {negative : Bool} :
    ∀ {ds : List Char} {n scale : Nat}, (∀ c ∈ ds, c.isDigit = true) →
      Nat.ofDigitChars 10 ds n < bound → scale + ds.length ≤ 28 →
      readDigits negative true true n scale ds =
        finish negative (Nat.ofDigitChars 10 ds n) (scale + ds.length) := by
  intro ds
  induction ds with
  | nil =>
      intro n scale _ _ _
      rfl
  | cons c ds ih =>
      intro n scale hdigits hlt hscale
      have hstep := lt_of_ofDigitChars_cons hlt
      rw [Nat.ofDigitChars_cons] at hlt
      rw [List.length_cons] at hscale
      rw [readDigits, if_neg (by omega), digit?_of_isDigit (hdigits c List.mem_cons_self)]
      simp only [Nat.mul_comm n 10, hstep, if_true]
      rw [ih (fun d hd => hdigits d (List.mem_cons_of_mem c hd)) hlt (by omega),
        Nat.ofDigitChars_cons, List.length_cons]
      congr 1
      omega

/-- The decimal without the sign of a zero. -/
def unsignedZero (d : Decimal) : Decimal := { d with negative := d.negative && d.coefficient != 0 }

/-- A zero compares alike with and without a sign. -/
theorem compare_unsignedZero (d : Decimal) : d.unsignedZero.compare d = .eq := by
  have hsigned : d.unsignedZero.signed = d.signed := by
    simp only [signed, unsignedZero]
    by_cases hzero : d.coefficient = 0
    · simp [hzero]
    · simp [hzero]
  rw [compare_eq_iff, hsigned]
  rfl

/-- The parts of a decimal make it up again, but for the sign of a zero. -/
theorem finish_eq (d : Decimal) : finish d.negative d.coefficient d.scale = .ok d.unsignedZero := by
  rw [finish, ofParts?, dif_pos ⟨d.coefficient_lt, d.scale_le⟩]
  rfl

/-- The digits of a decimal: those in front of the point, at least one, and those of its places. -/
theorem text_parts (d : Decimal) : ∃ whole fraction : List Char,
    d.text = (if d.negative then ['-'] else []) ++
      (whole ++ if d.scale = 0 then [] else '.' :: fraction) ∧
    whole ≠ [] ∧ fraction.length = d.scale ∧ (∀ c ∈ whole, c.isDigit = true) ∧
    (∀ c ∈ fraction, c.isDigit = true) ∧
    Nat.ofDigitChars 10 fraction (Nat.ofDigitChars 10 whole 0) = d.coefficient := by
  have hlen : d.scale + 1 ≤ (padded (d.scale + 1) d.coefficient).length := by
    rw [padded, List.length_append, List.length_replicate]
    omega
  have hdigits : ∀ c ∈ padded (d.scale + 1) d.coefficient, c.isDigit = true :=
    fun _ => isDigit_of_mem_padded
  refine ⟨(padded (d.scale + 1) d.coefficient).take
      ((padded (d.scale + 1) d.coefficient).length - d.scale),
    (padded (d.scale + 1) d.coefficient).drop
      ((padded (d.scale + 1) d.coefficient).length - d.scale), ?_, ?_, ?_, ?_, ?_, ?_⟩
  · rw [text, List.append_assoc]
  · intro hnil
    have hzero := congrArg List.length hnil
    rw [List.length_take, List.length_nil] at hzero
    omega
  · rw [List.length_drop]
    omega
  · exact fun c hc => hdigits c (List.mem_of_mem_take hc)
  · exact fun c hc => hdigits c (List.mem_of_mem_drop hc)
  · rw [← Nat.ofDigitChars_append, List.take_append_drop]
    exact number_padded _ _

/-- The digits of a decimal are read back. -/
theorem readDigits_parts {d : Decimal} {whole fraction : List Char} (hne : whole ≠ [])
    (hlen : fraction.length = d.scale) (hwhole : ∀ c ∈ whole, c.isDigit = true)
    (hfraction : ∀ c ∈ fraction, c.isDigit = true)
    (hnumber : Nat.ofDigitChars 10 fraction (Nat.ofDigitChars 10 whole 0) = d.coefficient) :
    readDigits d.negative false false 0 0
      (whole ++ if d.scale = 0 then [] else '.' :: fraction) = .ok d.unsignedZero := by
  have hlt := d.coefficient_lt
  have hle := le_ofDigitChars (Nat.ofDigitChars 10 whole 0) fraction
  rw [readDigits_whole hwhole (by omega)]
  have hseen : (false || !whole.isEmpty) = true := by simp [hne]
  rw [hseen, ← finish_eq]
  split
  · rename_i hscale
    rw [hscale] at hlen
    rw [List.length_eq_zero_iff.mp hlen, Nat.ofDigitChars_nil] at hnumber
    rw [hnumber, hscale]
    rfl
  · have hstep : readDigits d.negative true false (Nat.ofDigitChars 10 whole 0) 0
        ('.' :: fraction) =
          readDigits d.negative true true (Nat.ofDigitChars 10 whole 0) 0 fraction := by
      rw [readDigits, if_neg (by simp)]
      rfl
    have hscale := d.scale_le
    rw [hstep, readDigits_fraction hfraction (by omega) (by omega), hnumber, hlen, Nat.zero_add]

theorem text_chars {d : Decimal} {c : Char} (h : c ∈ d.text) :
    c.isDigit = true ∨ c = '-' ∨ c = '.' := by
  obtain ⟨whole, fraction, htext, -, -, hwhole, hfraction, -⟩ := d.text_parts
  rw [htext] at h
  rcases List.mem_append.mp h with h | h
  · split at h
    · exact .inr (.inl (List.mem_singleton.mp h))
    · cases h
  · rcases List.mem_append.mp h with h | h
    · exact .inl (hwhole c h)
    · split at h
      · cases h
      · rcases List.mem_cons.mp h with rfl | h
        · exact .inr (.inr rfl)
        · exact .inl (hfraction c h)

theorem isVisible_of_mem_text {d : Decimal} {c : Char} (h : c ∈ d.text) :
    isVisible c = true := by
  rcases text_chars h with h | rfl | rfl
  · exact isVisible_of_isDigit h
  · decide
  · decide

/-- A decimal is read back, with all its places; a zero loses its sign. -/
theorem read_text (d : Decimal) : read d.text = .ok d.unsignedZero := by
  have hmark : ∀ c ∈ d.text, (!(c == 'e' || c == 'E')) = true := by
    intro c hc
    rcases text_chars hc with h | rfl | rfl
    · have he : c ≠ 'e' := ne_of_isDigit h (by decide)
      have hE : c ≠ 'E' := ne_of_isDigit h (by decide)
      simp [he, hE]
    · decide
    · decide
  have hplain : read d.text = readPlain d.text := by
    rw [read, List.dropWhile_eq_nil_iff.mpr hmark]
  obtain ⟨whole, fraction, htext, hne, hlen, hwhole, hfraction, hnumber⟩ := d.text_parts
  have hread := readDigits_parts hne hlen hwhole hfraction hnumber
  rw [hplain, htext]
  cases hneg : d.negative with
  | true =>
      rw [hneg] at hread
      exact hread
  | false =>
      obtain ⟨c, cs, hcons, hc⟩ := head_isDigit hne hwhole
        (if d.scale = 0 then [] else '.' :: fraction)
      have hplus : c ≠ '+' := ne_of_isDigit hc (by decide)
      have hminus : c ≠ '-' := ne_of_isDigit hc (by decide)
      rw [hneg, hcons] at hread
      rw [if_neg (by decide), List.nil_append, hcons, ← hread, readPlain] <;> simp [hplus, hminus]

/-- The decimal that an integer of at most 96 bits is has no places, and is read from the digits of
the integer. -/
theorem exists_ofInt? {n : Int} (h : n.natAbs < bound) :
    ∃ d, ofInt? n = some d ∧ d.signed = n ∧ d.scale = 0 ∧ read (signedDigits n) = .ok d := by
  let d : Decimal := ⟨decide (n < 0), n.natAbs, 0, h, by decide⟩
  have hsigned : d.signed = n := by
    simp only [signed, d, decide_eq_true_eq]
    split <;> omega
  have hplain : d.unsignedZero = d := by
    by_cases hneg : n < 0
    · have hne : n.natAbs ≠ 0 := by omega
      simp [unsignedZero, d, hneg, hne]
    · simp [unsignedZero, d, hneg]
  have htext : d.text = signedDigits n := by
    have hpos : 0 < (digits n.natAbs).length := List.length_pos_iff.mpr (digits_ne_nil _)
    have hpad : padded 1 n.natAbs = digits n.natAbs := by
      rw [padded, Nat.sub_eq_zero_of_le hpos, List.replicate_zero, List.nil_append]
    simp only [text, d, hpad, Nat.sub_zero, List.take_length, if_true, List.append_nil,
      decide_eq_true_eq, Nat.zero_add, signedDigits]
    split <;> rfl
  have hread := read_text d
  rw [htext, hplain] at hread
  exact ⟨d, dif_pos ⟨h, by decide⟩, hsigned, rfl, hread⟩

end Decimal

end RecordFilter
