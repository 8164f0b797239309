import Mathlib.Algebra.Order.Field.Power
import Mathlib.Algebra.Order.Field.Rat
import Mathlib.Data.List.Lex
import RecordFilter.Proofs.Order.Keys

/-!
# Less by value

What it is for one value to be less than another, said without comparing: numbers stand for
rational numbers, dates and times are taken part by part, and texts are in the order of their
characters.  Field values of different kinds are in the order of the kinds, and of two records under
sort keys that one stands before the other for which the first key that tells them apart says so.

* `Atom.less_iff`: one atomic value is less than another when it compares so.
* `FieldValue.less_iff`: the same of field values.
* `SortKey.before_iff`: the same of records under sort keys.
-/

namespace RecordFilter

/-! ### Dates and times -/

namespace Date

/-- Year, month and day. -/
def parts (d : Date) : List Int := [d.year, d.month, d.day]

/-- A month begins after the months before it have passed. -/
theorem daysBeforeMonth_le (y : Int) {m n : Nat} (hm : 1 ≤ m) (h : m < n) :
    daysBeforeMonth y m + daysInMonth y m ≤ daysBeforeMonth y n := by
  induction n with
  | zero => exact absurd h (Nat.not_lt_zero m)
  | succ n ih =>
      obtain ⟨k, rfl⟩ : ∃ k, n = k + 1 := ⟨n - 1, by omega⟩
      have hstep : daysBeforeMonth y (k + 2) =
          daysBeforeMonth y (k + 1) + daysInMonth y (k + 1) := rfl
      rcases Nat.lt_succ_iff_lt_or_eq.mp h with hlt | rfl
      · exact Nat.le_trans (ih hlt) (hstep ▸ Nat.le_add_right _ _)
      · exact Nat.le_of_eq hstep.symm

/-- A year has the days of its twelve months. -/
theorem daysBeforeYear_succ (year : Int) :
    daysBeforeYear (year + 1) =
      daysBeforeYear year + (daysBeforeMonth year 12 + daysInMonth year 12 : Nat) := by
  have hleap : (isLeapYear year = true ↔ year % 4 = 0 ∧ (year % 100 ≠ 0 ∨ year % 400 = 0)) := by
    simp [isLeapYear]
  have hmonths : daysBeforeMonth year 12 + daysInMonth year 12 =
      if isLeapYear year then 366 else 365 := by
    cases h : isLeapYear year <;> simp [daysBeforeMonth, daysInMonth, h]
  rw [hmonths]
  simp only [daysBeforeYear]
  split
  · have h := hleap.mp ‹_›
    omega
  · have h := mt hleap.mpr ‹_›
    omega

/-- Later years begin on later days. -/
theorem daysBeforeYear_mono {x y : Int} (h : x ≤ y) : daysBeforeYear x ≤ daysBeforeYear y := by
  simp only [daysBeforeYear]
  omega

/-- A day that is earlier by its parts is earlier in time. -/
theorem dayNumber_lt_of_parts {a b : Date} (h : a.parts < b.parts) : a.dayNumber < b.dayNumber := by
  obtain ⟨-, -, hm, hm', hd, hd'⟩ := a.valid
  obtain ⟨-, -, hn, hn', he, he'⟩ := b.valid
  simp only [parts, List.cons_lt_cons_iff, List.not_lt_nil, and_false, or_false, Int.ofNat_lt,
    Int.natCast_inj] at h
  unfold dayNumber
  rcases h with hyear | ⟨hyear, hmonth | ⟨hmonth, hday⟩⟩
  · -- the year of the first is over before the year of the second begins
    have hend : daysBeforeMonth a.year a.month + a.day ≤
        daysBeforeMonth a.year 12 + daysInMonth a.year 12 := by
      rcases Nat.lt_or_eq_of_le hm' with hlt | heq
      · have hle := daysBeforeMonth_le a.year hm hlt
        omega
      · rw [heq] at hd' ⊢
        omega
    have hyears := daysBeforeYear_mono (show a.year + 1 ≤ b.year by omega)
    rw [daysBeforeYear_succ] at hyears
    omega
  · have hle := daysBeforeMonth_le a.year hm hmonth
    rw [hyear] at hd' hle ⊢
    omega
  · rw [hyear, hmonth]
    omega

theorem eq_of_parts {a b : Date} (h : a.parts = b.parts) : a = b := by
  obtain ⟨y, m, d, _⟩ := a
  obtain ⟨y', m', d', _⟩ := b
  simp only [parts, List.cons.injEq, Int.natCast_inj] at h
  obtain ⟨rfl, rfl, rfl, -⟩ := h
  rfl

/-- Two days have one number only if they have the same parts. -/
theorem parts_eq_iff {a b : Date} : a.parts = b.parts ↔ a.dayNumber = b.dayNumber := by
  refine ⟨fun h => congrArg dayNumber (eq_of_parts h), fun h => ?_⟩
  rcases lt_trichotomy a.parts b.parts with hlt | heq | hgt
  · exact absurd h (Int.ne_of_lt (dayNumber_lt_of_parts hlt))
  · exact heq
  · exact absurd h.symm (Int.ne_of_lt (dayNumber_lt_of_parts hgt))

/-- Days are in the order of their parts. -/
theorem parts_lt_iff {a b : Date} : a.parts < b.parts ↔ a.dayNumber < b.dayNumber := by
  refine ⟨dayNumber_lt_of_parts, fun h => ?_⟩
  have hne : a.parts ≠ b.parts := mt parts_eq_iff.mp (Int.ne_of_lt h)
  refine (lt_or_gt_of_ne hne).resolve_right fun hgt => ?_
  exact absurd (dayNumber_lt_of_parts hgt) (Int.not_lt.mpr (Int.le_of_lt h))

end Date

namespace TimeOfDay

/-- Hour, minute, second and nanoseconds. -/
def parts (t : TimeOfDay) : List Int := [t.hour, t.minute, t.second, t.nano]

/-- A day has 86400 seconds, a leap second being the fraction of one. -/
theorem seconds_lt (t : TimeOfDay) : t.seconds < 86400 := by
  have hvalid := t.valid
  simp only [IsValid] at hvalid
  unfold seconds
  omega

/-- Times are in the order of their parts. -/
theorem parts_lt_iff {a b : TimeOfDay} :
    a.parts < b.parts ↔ a.seconds < b.seconds ∨ a.seconds = b.seconds ∧ a.nano < b.nano := by
  have ha := a.valid
  have hb := b.valid
  simp only [IsValid] at ha hb
  simp only [parts, List.cons_lt_cons_iff, List.not_lt_nil, and_false, or_false, seconds]
  omega

/-- Times are compared by their parts. -/
theorem less_iff {a b : TimeOfDay} : a.parts < b.parts ↔ a.compare b = .lt := by
  rw [parts_lt_iff, compare, Ordering.then_eq_lt, Std.compare_eq_lt, Std.compare_eq_iff_eq,
    Nat.compare_eq_lt]

end TimeOfDay

namespace DateTime

/-- The parts of the date, then those of the time. -/
def parts (t : DateTime) : List Int := t.date.parts ++ t.time.parts

/-- Dates with times are in the order of their parts. -/
theorem parts_lt_iff {a b : DateTime} :
    a.parts < b.parts ↔
      a.seconds < b.seconds ∨ a.seconds = b.seconds ∧ a.time.nano < b.time.nano := by
  have hparts : a.parts < b.parts ↔ a.date.parts < b.date.parts ∨
      a.date.parts = b.date.parts ∧ a.time.parts < b.time.parts := by
    simp only [parts, Date.parts, List.cons_append, List.nil_append, List.cons_lt_cons_iff,
      List.cons.injEq, List.not_lt_nil, and_false, or_false, and_true]
    tauto
  have ha := a.time.seconds_lt
  have hb := b.time.seconds_lt
  rw [hparts, Date.parts_lt_iff, Date.parts_eq_iff, TimeOfDay.parts_lt_iff]
  unfold seconds
  omega

/-- Dates with times are compared by the date and then by the time. -/
theorem less_iff {a b : DateTime} : a.parts < b.parts ↔ a.compare b = .lt := by
  rw [parts_lt_iff, compare, Ordering.then_eq_lt, Std.compare_eq_lt, Std.compare_eq_iff_eq,
    Nat.compare_eq_lt]

end DateTime

namespace OffsetDateTime

/-- The minutes of universal time, the seconds and the nanoseconds. -/
def instant (v : OffsetDateTime) : List Int :=
  [v.clock.date.dayNumber * 1440 + v.clock.time.hour * 60 + v.clock.time.minute - v.offset,
    v.clock.time.second, v.clock.time.nano]

/-- Moments are in the order of universal time, whatever their offsets. -/
theorem less_iff {a b : OffsetDateTime} : a.instant < b.instant ↔ a.compare b = .lt := by
  have ha := a.clock.time.valid
  have hb := b.clock.time.valid
  simp only [TimeOfDay.IsValid] at ha hb
  rw [compare, Ordering.then_eq_lt, Std.compare_eq_lt, Std.compare_eq_iff_eq, Nat.compare_eq_lt]
  simp only [instant, List.cons_lt_cons_iff, List.not_lt_nil, and_false, or_false, seconds,
    DateTime.seconds, TimeOfDay.seconds]
  omega

end OffsetDateTime

/-! ### Numbers -/

/-- The rational number that a decimal stands for. -/
def Decimal.value (d : Decimal) : ℚ := d.signed / 10 ^ d.scale

/-- Decimals are compared as rational numbers, whatever their scales. -/
theorem Decimal.value_lt_iff {d e : Decimal} : d.value < e.value ↔ d.compare e = .lt := by
  have hpos : ∀ n : Nat, (0 : ℚ) < 10 ^ n := pow_pos (by decide)
  rw [value, value, div_lt_div_iff₀ (hpos _) (hpos _), Decimal.compare, Std.compare_eq_lt]
  exact_mod_cast Iff.rfl

namespace Binary

variable {F : FloatFormat}

/-- The rational number that a sign, a significand and an exponent stand for. -/
def scaled (negative : Bool) (significand : Nat) (exponent : Int) : ℚ :=
  (if negative then -(significand : ℚ) else significand) * 2 ^ exponent

/-- One number is less than another; `nan` is neither less nor greater than any. -/
inductive Less : Binary F → Binary F → Prop where
  | infinite : Less (.infinite true) (.infinite false)
  | infinite_finite {s m e h} : Less (.infinite true) (.finite s m e h)
  | finite_infinite {s m e h} : Less (.finite s m e h) (.infinite false)
  | finite {s m e h t n f k} :
      scaled s m e < scaled t n f → Less (.finite s m e h) (.finite t n f k)

/-- A finite number is its multiple of the least one. -/
theorem scaled_eq {s : Bool} {m : Nat} {e : Int} (h : F.Canonical m e) :
    scaled s m e = (if s then -((m * twoTo (e - F.leastExponent).toNat : Nat) : Int)
      else (m * twoTo (e - F.leastExponent).toNat : Nat) : Int) * 2 ^ F.leastExponent := by
  have hpow : (2 : ℚ) ^ e = 2 ^ (e - F.leastExponent).toNat * 2 ^ F.leastExponent := by
    rw [← zpow_natCast, ← zpow_add₀ (by decide : (2 : ℚ) ≠ 0)]
    congr 1
    have hle := h.2.1
    omega
  have htwo : twoTo (e - F.leastExponent).toNat = 2 ^ (e - F.leastExponent).toNat := rfl
  rw [scaled, hpow, htwo]
  cases s <;> push_cast <;> simp [mul_assoc]

/-- Finite numbers of one format are in the order of their multiples of the least one. -/
theorem scaled_lt_iff {s t : Bool} {m n : Nat} {e f : Int} (h : F.Canonical m e)
    (k : F.Canonical n f) : scaled s m e < scaled t n f ↔
      (finite s m e h).compare? (finite t n f k) = some .lt := by
  have hpos : (0 : ℚ) < 2 ^ F.leastExponent := zpow_pos (by decide) _
  have hcompare : (finite s m e h).compare? (finite t n f k) = some (compare
      (if s then -((m * twoTo (e - F.leastExponent).toNat : Nat) : Int)
        else (m * twoTo (e - F.leastExponent).toNat : Nat) : Int)
      (if t then -((n * twoTo (f - F.leastExponent).toNat : Nat) : Int)
        else (n * twoTo (f - F.leastExponent).toNat : Nat) : Int)) := rfl
  rw [scaled_eq h, scaled_eq k, mul_lt_mul_iff_left₀ hpos, Int.cast_lt, hcompare, Option.some_inj,
    Std.compare_eq_lt]

/-- Floating-point numbers are compared as numbers, a NaN with nothing. -/
theorem less_iff {x y : Binary F} : x.Less y ↔ x.compare? y = some .lt := by
  constructor
  · intro h
    cases h with
    | infinite | infinite_finite | finite_infinite => rfl
    | finite h => exact (scaled_lt_iff _ _).mp h
  · intro h
    cases x with
    | nan => cases h
    | infinite s =>
        cases y with
        | nan => cases h
        | infinite t => cases s <;> cases t <;> first | exact .infinite | cases h
        | finite => cases s <;> first | exact .infinite_finite | cases h
    | finite s m e hx =>
        cases y with
        | nan => cases h
        | infinite t => cases t <;> first | exact .finite_infinite | cases h
        | finite t n f hy => exact .finite ((scaled_lt_iff hx hy).mpr h)

end Binary

/-! ### Atoms -/

namespace Atom

/-- One value is less than another of its category. -/
inductive Less : Atom → Atom → Prop where
  | char {a b : Char} : a < b → Less (.char a) (.char b)
  | boolean : Less (.boolean false) (.boolean true)
  | integer {k : IntKind} {i j : k.Value} : i.1 < j.1 → Less (.integer k i) (.integer k j)
  | float32 {x y : Single} : x.Less y → Less (.float32 x) (.float32 y)
  | float64 {x y : Double} : x.Less y → Less (.float64 x) (.float64 y)
  | decimal {d e : Decimal} : d.value < e.value → Less (.decimal d) (.decimal e)
  | string {s t : String} : s < t → Less (.string s) (.string t)
  | uuid {u v : Uuid} : u.value < v.value → Less (.uuid u) (.uuid v)
  | date {a b : Date} : a.parts < b.parts → Less (.date a) (.date b)
  | dateTime {a b : DateTime} : a.parts < b.parts → Less (.dateTime a) (.dateTime b)
  | dateTimeOffset {a b : OffsetDateTime} :
      a.instant < b.instant → Less (.dateTimeOffset a) (.dateTimeOffset b)
  | time {a b : TimeOfDay} : a.parts < b.parts → Less (.time a) (.time b)
  | timeSpan {s t : TimeSpan} : s.nanos < t.nanos → Less (.timeSpan s) (.timeSpan t)

/-- One value is less than another when it compares so. -/
theorem less_iff {a b : Atom} : a.Less b ↔ a.compare? b = some .lt := by
  constructor
  · intro h
    cases h with
    | char h => exact congrArg some (compareOfLessAndEq_eq_lt.mpr h)
    | boolean => rfl
    | integer h => exact (if_pos rfl).trans (congrArg some (Std.compare_eq_lt.mpr h))
    | float32 h | float64 h => exact Binary.less_iff.mp h
    | decimal h => exact congrArg some (Decimal.value_lt_iff.mp h)
    | string h => exact congrArg some (compareOfLessAndEq_eq_lt.mpr h)
    | uuid h => exact congrArg some (Nat.compare_eq_lt.mpr h)
    | date h => exact congrArg some (Std.compare_eq_lt.mpr (Date.parts_lt_iff.mp h))
    | dateTime h => exact congrArg some (DateTime.less_iff.mp h)
    | dateTimeOffset h => exact congrArg some (OffsetDateTime.less_iff.mp h)
    | time h => exact congrArg some (TimeOfDay.less_iff.mp h)
    | timeSpan h => exact congrArg some (Std.compare_eq_lt.mpr h)
  · intro h
    generalize ho : Ordering.lt = o at h
    cases stands_of_compare? h with
    | char a b => exact .char (compareOfLessAndEq_eq_lt.mp ho.symm)
    | boolean a b => cases a <;> cases b <;> first | exact .boolean | cases ho
    | integer i j => exact .integer (Std.compare_eq_lt.mp ho.symm)
    | float32 h => exact .float32 (Binary.less_iff.mpr (ho ▸ h))
    | float64 h => exact .float64 (Binary.less_iff.mpr (ho ▸ h))
    | decimal d e => exact .decimal (Decimal.value_lt_iff.mpr ho.symm)
    | string s t => exact .string (compareOfLessAndEq_eq_lt.mp ho.symm)
    | uuid u v => exact .uuid (Nat.compare_eq_lt.mp ho.symm)
    | date a b => exact .date (Date.parts_lt_iff.mpr (Std.compare_eq_lt.mp ho.symm))
    | dateTime a b => exact .dateTime (DateTime.less_iff.mpr ho.symm)
    | dateTimeOffset a b => exact .dateTimeOffset (OffsetDateTime.less_iff.mpr ho.symm)
    | time a b => exact .time (TimeOfDay.less_iff.mpr ho.symm)
    | timeSpan s t => exact .timeSpan (Std.compare_eq_lt.mp ho.symm)

end Atom

/-! ### Field values -/

namespace FieldValue

/-- One field value is less than another: null before atoms, these before enumerations, collections
and records; atoms by value, enumerations by name, collections by length. -/
inductive Less : FieldValue → FieldValue → Prop where
  | null_atom {a} : Less .null (.atom a)
  | null_enum {s} : Less .null (.enum s)
  | null_collection {n} : Less .null (.collection n)
  | null_record {r} : Less .null (.record r)
  | atom_enum {a s} : Less (.atom a) (.enum s)
  | atom_collection {a n} : Less (.atom a) (.collection n)
  | atom_record {a r} : Less (.atom a) (.record r)
  | enum_collection {s n} : Less (.enum s) (.collection n)
  | enum_record {s r} : Less (.enum s) (.record r)
  | collection_record {n r} : Less (.collection n) (.record r)
  | atom {a b : Atom} : a.Less b → Less (.atom a) (.atom b)
  | enum {s t : String} : s < t → Less (.enum s) (.enum t)
  | collection {m n : Nat} : m < n → Less (.collection m) (.collection n)

/-- One field value is less than another when it compares so. -/
theorem less_iff {v w : FieldValue} : v.Less w ↔ v.order w = .lt := by
  constructor
  · intro h
    cases h with
    | atom h => rw [order, Atom.less_iff.mp h]; rfl
    | enum h => exact compareOfLessAndEq_eq_lt.mpr h
    | collection h => exact Nat.compare_eq_lt.mpr h
    | _ => rfl
  · intro h
    cases v <;> cases w
    case atom.atom a b =>
      rw [order] at h
      cases hab : a.compare? b with
      | none => rw [hab] at h; cases h
      | some o => rw [hab] at h; exact .atom (Atom.less_iff.mpr (hab.trans (congrArg some h)))
    case enum.enum s t => exact .enum (compareOfLessAndEq_eq_lt.mp h)
    case collection.collection m n => exact .collection (Nat.compare_eq_lt.mp h)
    -- of two kinds one comes first, whatever the values are
    all_goals first | constructor | cases h

end FieldValue

/-! ### Sort keys -/

namespace SortKey

/-- A key tells that the first of two records stands before the second: it shows less there, or more
where the key is descending. -/
def Tells (k : SortKey) (r s : Record) : Prop :=
  match k.direction with
  | .ascending => (k.path.value r).Less (k.path.value s)
  | .descending => (k.path.value s).Less (k.path.value r)

/-- One record stands before another: the first key that tells the two apart tells so. -/
inductive Before : List SortKey → Record → Record → Prop where
  | here {k : SortKey} {rest : List SortKey} {r s : Record} :
      k.Tells r s → Before (k :: rest) r s
  | later {k : SortKey} {rest : List SortKey} {r s : Record} :
      ¬ k.Tells r s → ¬ k.Tells s r → Before rest r s → Before (k :: rest) r s

theorem tells_iff {k : SortKey} {r s : Record} : k.Tells r s ↔ k.order r s = .lt := by
  unfold Tells order
  cases k.direction with
  | ascending => exact FieldValue.less_iff
  | descending => exact FieldValue.less_iff.trans (by rw [FieldValue.order_swap])

/-- A key tells two records apart or compares them as equal. -/
theorem order_eq_eq_iff_not_tells {k : SortKey} {r s : Record} :
    k.order r s = .eq ↔ ¬ k.Tells r s ∧ ¬ k.Tells s r := by
  rw [tells_iff, tells_iff, k.order_swap r s]
  cases k.order r s <;> decide

/-- One record stands before another when it compares less. -/
theorem before_iff {keys : List SortKey} {r s : Record} :
    Before keys r s ↔ lexicographic keys r s = .lt := by
  induction keys with
  | nil => exact iff_of_false nofun nofun
  | cons k rest ih =>
      rw [lexicographic, Ordering.then_eq_lt, ← tells_iff, order_eq_eq_iff_not_tells, ← ih]
      constructor
      · intro h
        cases h with
        | here h => exact .inl h
        | later h h' hrest => exact .inr ⟨⟨h, h'⟩, hrest⟩
      · rintro (h | ⟨⟨h, h'⟩, hrest⟩)
        · exact .here h
        · exact .later h h' hrest

end SortKey

end RecordFilter
