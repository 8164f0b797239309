import Mathlib.Data.List.TakeWhile
import RecordFilter.Number.Power
import RecordFilter.Text.Blank
import RecordFilter.Text.Digits

/-!
# Numerals read back

What a reader of a numeral needs to know of one that was written: it consists of digits, a padded
one has a known length, and numerals that stand side by side are one numeral.

* `length_padded`: a padded numeral fills its width and no more.
* `number_append`: the number of two numerals side by side.
* `stripZeros_append`: zeros dropped at the end can be put back.
* `trimChars_append`, `exists_trimChars`: what is trimmed from a text are the blanks around it.
-/

namespace RecordFilter.Text

/-! ### Digits -/

theorem isDigit_zero : Char.isDigit '0' = true := by decide

theorem isDigit_of_mem_padded {w n : Nat} {c : Char} (h : c ∈ padded w n) : c.isDigit = true := by
  rcases List.mem_append.mp h with h | h
  · rw [List.eq_of_mem_replicate h]
    exact isDigit_zero
  · exact isDigit_of_mem_digits h

theorem padded_ne_nil (w n : Nat) : padded w n ≠ [] := by
  simp [padded, digits_ne_nil]

/-- A padded numeral fills its width and no more, if the number has room in it. -/
theorem length_padded {w n : Nat} (hw : 0 < w) (h : n < tenTo w) : (padded w n).length = w := by
  have hle : (digits n).length ≤ w := (Nat.length_toDigits_le_iff (by decide) hw).mpr h
  rw [padded, List.length_append, List.length_replicate]
  omega

/-- A text that begins with a numeral begins with a digit. -/
theorem head_isDigit {ds : List Char} (hne : ds ≠ []) (h : ∀ c ∈ ds, c.isDigit = true)
    (rest : List Char) : ∃ c cs, ds ++ rest = c :: cs ∧ c.isDigit = true := by
  cases ds with
  | nil => exact absurd rfl hne
  | cons d ds => exact ⟨d, ds ++ rest, rfl, h d List.mem_cons_self⟩

theorem ne_of_isDigit {c d : Char} (h : c.isDigit = true) (hd : d.isDigit = false) : c ≠ d := by
  rintro rfl
  rw [h] at hd
  cases hd

theorem not_mem_of_digits {c : Char} {ds : List Char} (hc : c.isDigit = false)
    (h : ∀ d ∈ ds, d.isDigit = true) : c ∉ ds :=
  fun hmem => ne_of_isDigit (h c hmem) hc rfl

theorem digit?_of_isDigit {c : Char} (h : c.isDigit = true) :
    digit? c = some (c.toNat - '0'.toNat) := if_pos h

theorem number?_of_isDigit {cs : List Char} (hne : cs ≠ []) (h : ∀ c ∈ cs, c.isDigit = true) :
    number? cs = some (number cs) :=
  if_pos ⟨hne, List.all_eq_true.mpr h⟩

theorem number?_eq_some {cs : List Char} {n : Nat} :
    number? cs = some n ↔ (cs ≠ [] ∧ ∀ c ∈ cs, c.isDigit = true) ∧ number cs = n := by
  rw [number?]
  split
  · rename_i h
    constructor
    · rintro ⟨⟩
      exact ⟨⟨h.1, List.all_eq_true.mp h.2⟩, rfl⟩
    · rintro ⟨-, rfl⟩
      rfl
  · rename_i h
    constructor
    · rintro ⟨⟩
    · rintro ⟨hdigits, -⟩
      exact absurd ⟨hdigits.1, List.all_eq_true.mpr hdigits.2⟩ h

/-- A padded number is read back. -/
theorem number?_padded (w n : Nat) : number? (padded w n) = some n := by
  rw [number?_of_isDigit (padded_ne_nil w n) fun _ h => isDigit_of_mem_padded h, number_padded]

/-- Numerals side by side are one numeral. -/
theorem number_append (ds es : List Char) :
    number (ds ++ es) = number ds * tenTo es.length + number es := by
  rw [number, number, number, Nat.ofDigitChars_append, Nat.ofDigitChars_eq_ofDigitChars_zero,
    Nat.mul_comm]
  rfl

/-- A numeral of `n` digits stands for less than `10 ^ n`. -/
theorem number_lt {ds : List Char} (h : ∀ c ∈ ds, c.isDigit = true) :
    number ds < tenTo ds.length := by
  induction ds with
  | nil => decide
  | cons c ds ih =>
      have hc : c.toNat - '0'.toNat ≤ 9 := by
        have hle := (Char.isDigit_iff_toNat.mp (h c List.mem_cons_self)).2
        have h9 : '9'.toNat = '0'.toNat + 9 := rfl
        omega
      have hds := ih fun d hd => h d (List.mem_cons_of_mem c hd)
      have hsum : number (c :: ds) = (c.toNat - '0'.toNat) * tenTo ds.length + number ds := by
        rw [← List.singleton_append, number_append]
        simp [number, Nat.ofDigitChars_cons, Nat.ofDigitChars_nil]
      have hmul := Nat.mul_le_mul_right (tenTo ds.length) hc
      rw [hsum, List.length_cons, tenTo_succ]
      omega

theorem number_replicate_zero (n : Nat) : number (List.replicate n '0') = 0 := by
  rw [number, Nat.ofDigitChars_replicate_zero, Nat.mul_zero]

/-! ### Trailing zeros -/

/-- A numeral without the zeros at its end. -/
def stripZeros (ds : List Char) : List Char := (ds.reverse.dropWhile (· == '0')).reverse

/-- Zeros dropped at the end can be put back. -/
theorem stripZeros_append (ds : List Char) :
    stripZeros ds ++ List.replicate (ds.length - (stripZeros ds).length) '0' = ds := by
  have hsplit := List.takeWhile_append_dropWhile (p := (· == '0')) (l := ds.reverse)
  have hzeros : (ds.reverse.takeWhile (· == '0')).reverse =
      List.replicate (ds.reverse.takeWhile (· == '0')).length '0' := by
    rw [← List.length_reverse]
    exact List.eq_replicate_of_mem fun c hc => by
      simpa using List.mem_takeWhile_imp (List.mem_reverse.mp hc)
  have hlen : ds.length - (stripZeros ds).length = (ds.reverse.takeWhile (· == '0')).length := by
    have hsum := congrArg List.length hsplit
    rw [List.length_append, List.length_reverse] at hsum
    rw [stripZeros, List.length_reverse]
    omega
  calc stripZeros ds ++ List.replicate (ds.length - (stripZeros ds).length) '0'
      = (ds.reverse.dropWhile (· == '0')).reverse ++
          (ds.reverse.takeWhile (· == '0')).reverse := by
        rw [hlen, hzeros, stripZeros]
    _ = (ds.reverse.takeWhile (· == '0') ++ ds.reverse.dropWhile (· == '0')).reverse :=
        List.reverse_append.symm
    _ = ds := by rw [hsplit, List.reverse_reverse]

theorem length_stripZeros_le (ds : List Char) : (stripZeros ds).length ≤ ds.length := by
  have hle := (List.dropWhile_sublist (fun c => c == '0') (l := ds.reverse)).length_le
  rw [List.length_reverse] at hle
  rwa [stripZeros, List.length_reverse]

theorem mem_of_mem_stripZeros {c : Char} {ds : List Char} (h : c ∈ stripZeros ds) : c ∈ ds := by
  have h' := List.mem_reverse.mp h
  exact List.mem_reverse.mp ((List.dropWhile_sublist _).subset h')

/-- The zeros at the end of a fraction do not matter. -/
theorem number_stripZeros (ds : List Char) :
    number (stripZeros ds) * tenTo (ds.length - (stripZeros ds).length) = number ds := by
  have h := congrArg number (stripZeros_append ds)
  rw [number_append, number_replicate_zero, List.length_replicate, Nat.add_zero] at h
  exact h

/-! ### Blanks -/

/-- A character of ASCII that leaves a mark. -/
def isVisible (c : Char) : Bool := 0x21 ≤ c.toNat && c.toNat ≤ 0x7E

theorem isVisible_of_isDigit {c : Char} (h : c.isDigit = true) : isVisible c = true := by
  obtain ⟨hlo, hhi⟩ := Char.isDigit_iff_toNat.mp h
  have h0 : '0'.toNat = 0x30 := rfl
  have h9 : '9'.toNat = 0x39 := rfl
  simp only [isVisible, Bool.and_eq_true, decide_eq_true_eq]
  omega

theorem isVisible_of_mem_padded {w n : Nat} {c : Char} (h : c ∈ padded w n) :
    isVisible c = true := isVisible_of_isDigit (isDigit_of_mem_padded h)

theorem not_isBlank_of_isVisible {c : Char} (h : isVisible c = true) : isBlank c = false := by
  simp only [isVisible, Bool.and_eq_true, decide_eq_true_eq] at h
  simp only [isBlank, Bool.or_eq_false_iff, Bool.and_eq_false_iff, decide_eq_false_iff_not,
    beq_eq_false_iff_ne, ne_eq]
  omega

/-- Blanks in front of a text without blanks are dropped. -/
theorem dropWhile_isBlank_append {before cs : List Char} (rest : List Char)
    (hbefore : ∀ c ∈ before, isBlank c = true) (hne : cs ≠ [])
    (h : ∀ c ∈ cs, isVisible c = true) :
    (before ++ (cs ++ rest)).dropWhile isBlank = cs ++ rest := by
  cases cs with
  | nil => exact absurd rfl hne
  | cons c cs =>
      have hc := not_isBlank_of_isVisible (h c List.mem_cons_self)
      rw [List.dropWhile_append_of_pos hbefore, List.cons_append,
        List.dropWhile_cons_of_neg (by simp [hc])]

/-- Blanks around a text without blanks are trimmed. -/
theorem trimChars_append {before cs after : List Char} (hbefore : ∀ c ∈ before, isBlank c = true)
    (hafter : ∀ c ∈ after, isBlank c = true) (hne : cs ≠ [])
    (h : ∀ c ∈ cs, isVisible c = true) : trimChars (before ++ cs ++ after) = cs := by
  have hblank : ∀ c ∈ after.reverse, isBlank c = true :=
    fun c hc => hafter c (List.mem_reverse.mp hc)
  have hvisible : ∀ c ∈ cs.reverse, isVisible c = true := fun c hc => h c (List.mem_reverse.mp hc)
  have hback := dropWhile_isBlank_append [] hblank (by simpa using hne) hvisible
  rw [List.append_nil] at hback
  rw [trimChars, trimEnd, trimStart, List.append_assoc,
    dropWhile_isBlank_append after hbefore hne h, List.reverse_append, hback, List.reverse_reverse]

/-- A text without blanks has nothing to trim. -/
theorem trimChars_of_visible {cs : List Char} (h : ∀ c ∈ cs, isVisible c = true) :
    trimChars cs = cs := by
  cases cs with
  | nil => rfl
  | cons c cs =>
      have htrim : trimChars ([] ++ (c :: cs) ++ []) = c :: cs :=
        trimChars_append nofun nofun (List.cons_ne_nil c cs) h
      rwa [List.nil_append, List.append_nil] at htrim

/-- What is trimmed from a text are blanks. -/
theorem exists_trimChars (cs : List Char) :
    ∃ before after, (∀ c ∈ before, isBlank c = true) ∧ (∀ c ∈ after, isBlank c = true) ∧
      cs = before ++ trimChars cs ++ after := by
  refine ⟨cs.takeWhile isBlank, ((trimStart cs).reverse.takeWhile isBlank).reverse,
    fun c hc => List.mem_takeWhile_imp hc,
    fun c hc => List.mem_takeWhile_imp (List.mem_reverse.mp hc), ?_⟩
  have hend : trimChars cs ++ ((trimStart cs).reverse.takeWhile isBlank).reverse =
      trimStart cs := by
    rw [trimChars, trimEnd, ← List.reverse_append, List.takeWhile_append_dropWhile,
      List.reverse_reverse]
  rw [List.append_assoc, hend, trimStart, List.takeWhile_append_dropWhile]

/-- Nothing is left of a text of blanks, and of no other. -/
theorem trim_eq_empty_iff {s : String} : trim s = "" ↔ ∀ c ∈ s.toList, isBlank c = true := by
  rw [trim, String.ofList_eq_empty_iff]
  constructor
  · intro h
    obtain ⟨before, after, hbefore, hafter, hs⟩ := exists_trimChars s.toList
    rw [h, List.append_nil] at hs
    rw [hs]
    exact List.forall_mem_append.mpr ⟨hbefore, hafter⟩
  · intro h
    rw [trimChars, trimStart, List.dropWhile_eq_nil_iff.mpr h]
    rfl

end RecordFilter.Text
