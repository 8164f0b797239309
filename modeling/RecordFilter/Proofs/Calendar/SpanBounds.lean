import RecordFilter.Proofs.Calendar.TimeSpan
import RecordFilter.Proofs.Number.Reading
import RecordFilter.Proofs.Outcome

/-!
# Spans read within bounds

`checkedRead` reads a span with numbers of 64 bits and checks each operation on them: a numeral that
is too great is refused like a text of another form, and an operation that leaves the bounds of
numbers or spans is an overflow.  Parts are checked before they are multiplied and added, so nothing
overflows, and the reader refuses what `read` refuses.

* `checkedSeconds_eq`: fractions are counted and scaled within bounds.
* `checkedSpan_eq`: parts are added within bounds.
* `checkedRead_eq`: a span is read within bounds.
-/

namespace RecordFilter.TimeSpan

open Text

/-! ### Steps that may stop -/

/-- Why a reading that is reckoned with checks stops. -/
inductive Stop where
  /-- The text names no span. -/
  | refused
  /-- A number or a span left its bounds. -/
  | overflow

variable {α β : Type}

/-- What a reader finds; where it finds nothing the text is refused. -/
def orRefused : Option α → Except Stop α
  | some a => .ok a
  | none => .error .refused

/-- The result of a step that may leave its bounds. -/
def orOverflow : Option α → Except Stop α
  | some a => .ok a
  | none => .error .overflow

@[simp]
theorem orRefused_some_bind (a : α) (f : α → Except Stop β) :
    (orRefused (some a) >>= f) = f a := rfl

@[simp]
theorem orOverflow_some_bind (a : α) (f : α → Except Stop β) :
    (orOverflow (some a) >>= f) = f a := rfl

/-! ### Fields and spans -/

/-- The number of 64 bits that digits stand for; a greater one is refused, as other characters
are. -/
def wordNumber? (cs : List Char) : Option IntKind.int64.Value :=
  if cs ≠ [] ∧ cs.all Char.isDigit then (IntKind.int64.read cs).toOption else none

/-- The first field in numbers of 64 bits. -/
def wordHead? (cs : List Char) : Option (IntKind.int64.Value × IntKind.int64.Value) :=
  match cutAtPoint cs with
  | some (days, hours) => do return (← wordNumber? days, ← wordNumber? hours)
  | none => do return (IntKind.int64.zero, ← wordNumber? cs)

/-- The last field in numbers of 64 bits; the places that a fraction leaves are counted in 32 bits,
and the power of ten that fills them has 64. -/
def checkedSeconds (cs : List Char) :
    Except Stop (IntKind.int64.Value × IntKind.int64.Value) :=
  match cutAtPoint cs with
  | some (whole, fraction) =>
    if fraction = [] ∨ 9 < fraction.length then .error .refused
    else do
      let places ← orOverflow (IntKind.uint32.fit (9 - (fraction.length : Int))).toOption
      let scale ← orOverflow (word? (tenTo places.1.toNat))
      let seconds ← orRefused (wordNumber? whole)
      let count ← orRefused (wordNumber? fraction)
      let nanos ← orOverflow (word? (count.1 * scale.1))
      return (seconds, nanos)
  | none => do return (← orRefused (wordNumber? cs), IntKind.int64.zero)

/-- The span of so many units of so many seconds. -/
def ofUnits? (count : IntKind.int64.Value) (unit : Nat) : Option TimeSpan := do
  let seconds ← word? (count.1 * unit)
  ofNanos? (seconds.1 * 1000000000)

/-- The sum of two spans. -/
def add? (a b : TimeSpan) : Option TimeSpan := ofNanos? (a.nanos + b.nanos)

/-- The span of days, hours, minutes, seconds and nanoseconds, each within its bounds. -/
def checkedSpan (days hours minutes seconds nanos : IntKind.int64.Value) : Except Stop TimeSpan :=
  if mostDays < days.1 ∨ 23 < hours.1 ∨ 59 < minutes.1 ∨ 59 < seconds.1 then .error .refused
  else orOverflow do
    let sum ← add? (← ofUnits? days 86400) (← ofUnits? hours 3600)
    let sum ← add? sum (← ofUnits? minutes 60)
    let sum ← add? sum (← ofUnits? seconds 1)
    add? sum (← ofNanos? nanos.1)

/-- The span that an unsigned text names, reckoned with spans and numbers of 64 bits alone. -/
def checkedMagnitude (cs : List Char) : Except Stop TimeSpan :=
  let zero := IntKind.int64.zero
  match fields cs with
  | [days] => do checkedSpan (← orRefused (wordNumber? days)) zero zero zero zero
  | [head, minutes] => do
    let (days, hours) ← orRefused (wordHead? head)
    checkedSpan days hours (← orRefused (wordNumber? minutes)) zero zero
  | [head, minutes, seconds] => do
    let (days, hours) ← orRefused (wordHead? head)
    let (seconds, nanos) ← checkedSeconds seconds
    checkedSpan days hours (← orRefused (wordNumber? minutes)) seconds nanos
  | _ => .error .refused

/-- Reads a span with a check at each step. -/
def checkedRead (cs : List Char) : Except Stop TimeSpan :=
  match trimChars cs with
  | '-' :: body => do orOverflow (ofNanos? (-(← checkedMagnitude body).nanos))
  | body => checkedMagnitude body

/-! ### Numbers of 64 bits -/

/-- A number is read digit by digit as the number that the digits stand for, if it fits. -/
theorem wordNumber?_eq (cs : List Char) :
    wordNumber? cs = (number? cs).bind fun n => word? n := by
  rw [wordNumber?, number?]
  split
  · rename_i h
    obtain ⟨hne, hdigits⟩ := h
    have hread : ∀ i, IntKind.int64.read cs = .ok i ↔ IntKind.int64.fit (number cs) = .ok i :=
      fun i => (IntKind.read_eq_ok_iff_of_isDigit hne (List.all_eq_true.mp hdigits)).trans
        IntKind.fit_eq_ok_iff.symm
    rw [Option.bind_some, word?]
    ext i
    simp only [Outcome.toOption_eq_some, hread]
  · rfl

/-- Two numbers of 64 bits. -/
def words? (p : Nat × Nat) : Option (IntKind.int64.Value × IntKind.int64.Value) := do
  return (← word? p.1, ← word? p.2)

/-- An integer fits a word as the word that is that integer. -/
theorem word?_eq_some {i : Int} {w : IntKind.int64.Value} : word? i = some w ↔ w.1 = i :=
  Outcome.toOption_eq_some.trans IntKind.fit_eq_ok_iff

theorem word?_zero : word? 0 = some IntKind.int64.zero := word?_eq_some.mpr rfl

theorem lt_of_word?_eq_none {n : Nat} (h : word? n = none) : 9223372036854775807 < n := by
  by_contra hle
  obtain ⟨w, hw, -⟩ := word?_natCast (Nat.not_lt.mp hle)
  rw [h] at hw
  cases hw

/-- The head of a span is read into words as it is read into numbers, if these fit. -/
theorem wordHead?_eq (cs : List Char) : wordHead? cs = (readHead cs).bind words? := by
  rw [wordHead?, readHead]
  cases cutAtPoint cs with
  | none =>
      dsimp only
      rw [wordNumber?_eq]
      cases number? cs with
      | none => rfl
      | some h => simp [words?, word?_zero]
  | some cut =>
      dsimp only
      rw [wordNumber?_eq, wordNumber?_eq]
      cases number? cut.1 with
      | none => rfl
      | some d =>
          cases number? cut.2 with
          | none => simp
          | some h => simp [words?]

/-! ### No step leaves its bounds -/

/-- The places that a fraction leaves are counted within bounds. -/
theorem places_eq {n : Nat} (h : n ≤ 9) :
    ∃ places, (IntKind.uint32.fit (9 - (n : Int))).toOption = some places ∧
      places.1.toNat = 9 - n := by
  have hbounds : IntKind.uint32.least ≤ 9 - (n : Int) ∧
      9 - (n : Int) ≤ IntKind.uint32.greatest := by
    simp only [IntKind.least, IntKind.greatest]
    omega
  exact ⟨⟨_, hbounds⟩, Outcome.toOption_eq_some.mpr (IntKind.fit_eq_ok_iff.mpr rfl), by
    dsimp only
    omega⟩

theorem tenTo_le_of_le {m n : Nat} (h : m ≤ n) : tenTo m ≤ tenTo n :=
  Nat.pow_le_pow_right (by decide) h

/-- A fraction is counted and scaled within bounds. -/
theorem fraction_words {ds : List Char} {f : Nat} {scale : IntKind.int64.Value}
    (hread : number? ds = some f) (hlength : ds.length ≤ 9)
    (hscale : scale.1 = tenTo (9 - ds.length)) :
    ∃ count nanos, word? f = some count ∧ word? (count.1 * scale.1) = some nanos ∧
      word? (f * tenTo (9 - ds.length) : Nat) = some nanos := by
  obtain ⟨⟨-, hdigits⟩, rfl⟩ := number?_eq_some.mp hread
  have hlt := scaled_lt hdigits hlength
  have hle : number ds ≤ number ds * tenTo (9 - ds.length) :=
    Nat.le_mul_of_pos_right _ (tenTo_pos _)
  obtain ⟨count, hcount, hcount'⟩ := word?_natCast (n := number ds) (by omega)
  obtain ⟨nanos, hnanos, -⟩ :=
    word?_natCast (n := number ds * tenTo (9 - ds.length)) (by omega)
  refine ⟨count, nanos, hcount, ?_, hnanos⟩
  rw [hcount', hscale, ← Int.natCast_mul, hnanos]

/-- The last field is reckoned within bounds. -/
theorem checkedSeconds_eq (cs : List Char) :
    checkedSeconds cs = orRefused ((readSeconds cs).bind words?) := by
  rw [checkedSeconds, readSeconds]
  rcases cutAtPoint cs with _ | ⟨whole, fraction⟩
  · dsimp only
    rw [wordNumber?_eq]
    cases number? cs with
    | none => rfl
    | some s =>
        cases hs : word? s with
        | none => simp [hs, words?]; rfl
        | some seconds => simp [hs, words?, word?_zero]; rfl
  · dsimp only
    by_cases hlong : 9 < fraction.length
    · rw [if_pos (.inr hlong), if_pos hlong]
      rfl
    · rw [if_neg hlong]
      by_cases hnil : fraction = []
      · rw [if_pos (.inl hnil), hnil]
        cases number? whole <;> rfl
      · have hlength := Nat.not_lt.mp hlong
        obtain ⟨places, hplaces, hplaces'⟩ := places_eq hlength
        have hten : tenTo (9 - fraction.length) ≤ 1000000000 :=
          tenTo_le_of_le (Nat.sub_le 9 fraction.length)
        obtain ⟨scale, hscale, hscale'⟩ :=
          word?_natCast (n := tenTo (9 - fraction.length)) (by omega)
        rw [if_neg (not_or.mpr ⟨hnil, hlong⟩), hplaces, wordNumber?_eq, wordNumber?_eq]
        simp only [orOverflow_some_bind, hplaces', hscale]
        cases number? whole with
        | none => rfl
        | some s =>
            cases hs : word? s with
            | none => cases number? fraction <;> simp [words?, hs] <;> rfl
            | some seconds =>
                cases hfraction : number? fraction with
                | none => simp [hs]; rfl
                | some f =>
                    obtain ⟨count, nanos, hcount, hproduct, hnanos⟩ :=
                      fraction_words hfraction hlength hscale'
                    simp only [Option.bind_some, hs, hcount, orRefused_some_bind, hproduct,
                      orOverflow_some_bind, Option.bind_eq_bind, Option.pure_def, words?, hnanos]
                    rfl

/-- A count of units below the bound is a span of so many nanoseconds. -/
theorem ofUnits?_eq_some {count : IntKind.int64.Value} {n : Nat} (hcount : count.1 = n)
    (unit : Nat) (h : n * unit ≤ 1000000000000) :
    ∃ s, ofUnits? count unit = some s ∧ s.nanos = (n * unit * 1000000000 : Nat) := by
  have hbound : bound = 9223372036854775807000000 := rfl
  obtain ⟨seconds, hseconds, hseconds'⟩ := word?_natCast (n := n * unit) (by omega)
  obtain ⟨s, hs, hs'⟩ := ofNanos?_natCast (n := n * unit * 1000000000) (by omega)
  refine ⟨s, ?_, hs'⟩
  rw [ofUnits?, hcount, ← Int.natCast_mul, hseconds]
  exact (congrArg ofNanos? (by rw [hseconds']; rfl)).trans hs

theorem add?_eq_some {a b : TimeSpan} {m n : Nat} (ha : a.nanos = m) (hb : b.nanos = n)
    (h : m + n ≤ bound) : ∃ s, add? a b = some s ∧ s.nanos = (m + n : Nat) := by
  rw [add?, ha, hb, ← Int.natCast_add]
  exact ofNanos?_natCast h

/-- The sum of days, hours, minutes, seconds and nanoseconds is reckoned within bounds. -/
theorem checkedSpan_eq {days hours minutes seconds nanos : IntKind.int64.Value}
    {d h m s n : Nat} (hdays : days.1 = d) (hhours : hours.1 = h) (hminutes : minutes.1 = m)
    (hseconds : seconds.1 = s) (hnanos : nanos.1 = n) (hn : n < 1000000000) :
    checkedSpan days hours minutes seconds nanos =
      orRefused ((assemble d h m s n).bind fun t => ofNanos? t) := by
  have htotal : d * 86400 * 1000000000 + h * 3600 * 1000000000 + m * 60 * 1000000000 +
      s * 1 * 1000000000 + n = (((d * 24 + h) * 60 + m) * 60 + s) * 1000000000 + n := by
    omega
  have hbound : bound = 9223372036854775807000000 := rfl
  have hmost : mostDays = 10675199 := rfl
  by_cases hparts : d ≤ mostDays ∧ h ≤ 23 ∧ m ≤ 59 ∧ s ≤ 59
  · obtain ⟨spanD, hD, hD'⟩ := ofUnits?_eq_some hdays 86400 (by omega)
    obtain ⟨spanH, hH, hH'⟩ := ofUnits?_eq_some hhours 3600 (by omega)
    obtain ⟨spanM, hM, hM'⟩ := ofUnits?_eq_some hminutes 60 (by omega)
    obtain ⟨spanS, hS, hS'⟩ := ofUnits?_eq_some hseconds 1 (by omega)
    obtain ⟨spanN, hN, hN'⟩ := ofNanos?_natCast (n := n) (by omega)
    obtain ⟨sum₁, h₁, h₁'⟩ := add?_eq_some hD' hH' (by omega)
    obtain ⟨sum₂, h₂, h₂'⟩ := add?_eq_some h₁' hM' (by omega)
    obtain ⟨sum₃, h₃, h₃'⟩ := add?_eq_some h₂' hS' (by omega)
    obtain ⟨sum, hsum, hsum'⟩ := add?_eq_some h₃' hN' (by omega)
    have hassemble : ofNanos? (((((d * 24 + h) * 60 + m) * 60 + s) * 1000000000 + n : Nat) : Int) =
        some sum := ofNanos?_eq_some.mpr (hsum'.trans (congrArg Nat.cast htotal))
    rw [checkedSpan, if_neg (by omega), assemble, if_pos hparts, Option.bind_some, hassemble]
    simp only [hD, hH, hM, hS, hnanos, hN, h₁, h₂, h₃, hsum, Option.bind_eq_bind, Option.bind_some]
    rfl
  · rw [checkedSpan, if_pos (by omega), assemble, if_neg hparts]
    rfl

/-- Parts within their bounds are numbers of 64 bits, so it does not matter which of the two is
asked first. -/
theorem checked_assemble (d h m s : Nat) {n : Nat} (hn : n < 1000000000) :
    (do
      let (days, hours) ← orRefused (words? (d, h))
      let (seconds, nanos) ← orRefused (words? (s, n))
      let minutes ← orRefused (word? m)
      checkedSpan days hours minutes seconds nanos) =
      orRefused ((assemble d h m s n).bind fun t => ofNanos? t) := by
  have hmost : mostDays = 10675199 := rfl
  have hrefused : ∀ k : Nat, word? k = none → ¬(k ≤ mostDays ∨ k ≤ 23 ∨ k ≤ 59) := by
    intro k hk
    have hlt := lt_of_word?_eq_none hk
    omega
  obtain ⟨nanos, hnanos, hnanos'⟩ := word?_natCast (n := n) (by omega)
  -- A part too great for 64 bits stops the left side where it is read, the right at its bound.
  cases hd : word? d with
  | none =>
      rw [assemble, if_neg fun hparts => hrefused d hd (.inl hparts.1), words?, hd]
      rfl
  | some days =>
      cases hh : word? h with
      | none =>
          rw [assemble, if_neg fun hparts => hrefused h hh (.inr (.inl hparts.2.1)), words?, hd, hh]
          rfl
      | some hours =>
          cases hs : word? s with
          | none =>
              rw [assemble, if_neg fun hparts => hrefused s hs (.inr (.inr hparts.2.2.2)),
                words?, words?, hd, hh, hs]
              rfl
          | some seconds =>
              cases hm : word? m with
              | none =>
                  rw [assemble, if_neg fun hparts => hrefused m hm (.inr (.inr hparts.2.2.1)),
                    words?, words?, hd, hh, hs, hnanos]
                  rfl
              | some minutes =>
                  rw [words?, words?, hd, hh, hs, hnanos]
                  exact checkedSpan_eq (word?_eq_some.mp hd) (word?_eq_some.mp hh)
                    (word?_eq_some.mp hm) (word?_eq_some.mp hs) hnanos' hn

/-- The span that an unsigned text names is reckoned within bounds. -/
theorem checkedMagnitude_eq (cs : List Char) :
    checkedMagnitude cs = orRefused ((readMagnitude cs).bind fun n => ofNanos? n) := by
  rw [checkedMagnitude, readMagnitude]
  rcases fields cs with _ | ⟨head, _ | ⟨minutes, _ | ⟨seconds, _ | _⟩⟩⟩
  · rfl
  · dsimp only
    rw [wordNumber?_eq]
    cases number? head with
    | none => rfl
    | some d =>
        refine Eq.trans ?_ (checked_assemble d 0 0 0 (by decide : 0 < 1000000000))
        rw [words?, Option.bind_some]
        cases word? d <;> rfl
  · dsimp only
    rw [wordHead?_eq, wordNumber?_eq]
    cases readHead head with
    | none => rfl
    | some p =>
        cases number? minutes with
        | none => rw [Option.bind_some]; cases words? p <;> rfl
        | some m => exact checked_assemble p.1 p.2 m 0 (by decide : 0 < 1000000000)
  · dsimp only
    rw [wordHead?_eq, wordNumber?_eq, checkedSeconds_eq]
    cases readHead head with
    | none => rfl
    | some p =>
        cases hseconds : readSeconds seconds with
        | none => rw [Option.bind_some]; cases words? p <;> rfl
        | some q =>
            cases number? minutes with
            | none =>
                rw [Option.bind_some, Option.bind_some]
                cases words? p <;> cases words? q <;> rfl
            | some m => exact checked_assemble p.1 p.2 m q.1 (lt_of_readSeconds hseconds)
  · rfl

/-- No step of a reading leaves its bounds. -/
theorem checkedRead_eq (cs : List Char) : checkedRead cs = orRefused (read cs) := by
  rw [checkedRead]
  split
  · rename_i body htrim
    rw [read, htrim, checkedMagnitude_eq]
    change _ = orRefused ((readMagnitude body).bind fun n => ofNanos? (-(n : Int)))
    cases hbody : readMagnitude body with
    | none => rfl
    | some n =>
        have hlt := lt_of_readMagnitude hbody
        have hbound : bound = 9223372036854775807000000 := rfl
        obtain ⟨s, hs, hnanos⟩ := ofNanos?_natCast (n := n) (by omega)
        obtain ⟨t, ht⟩ : ∃ t, ofNanos? (-(n : Int)) = some t :=
          ⟨⟨-n, by omega⟩, ofNanos?_eq_some.mpr rfl⟩
        simp only [Option.bind_some, hs, orRefused_some_bind, hnanos, ht]
        rfl
  · rename_i hplain
    rw [read]
    split
    · rename_i body htrim
      exact (hplain body htrim).elim
    · exact checkedMagnitude_eq _

end RecordFilter.TimeSpan
