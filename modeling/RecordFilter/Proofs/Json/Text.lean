import RecordFilter.Json.Text
import RecordFilter.Proofs.Number.Reading
import RecordFilter.Proofs.Uuid

/-!
# Data text is one line

In strings the control characters are escaped, and nothing else of a data text has any: numbers are
digits, signs, points and the mark of an exponent.

* `printed_dataText?`: the text of a binary number has no control characters.
* `printed_chars`: nor has that of any value, by recursion on the value.
* `newline_notMem_text`: the text of a value is one line.
-/

namespace RecordFilter

open Text

/-! ### Characters that are printed -/

/-- There are no control characters in a text. -/
def Printed (cs : List Char) : Prop := ∀ c ∈ cs, 0x20 ≤ c.toNat

@[simp]
theorem printed_nil : Printed [] := nofun

@[simp]
theorem printed_cons {c : Char} {cs : List Char} :
    Printed (c :: cs) ↔ 0x20 ≤ c.toNat ∧ Printed cs := List.forall_mem_cons

@[simp]
theorem printed_append {cs ds : List Char} : Printed (cs ++ ds) ↔ Printed cs ∧ Printed ds :=
  List.forall_mem_append

theorem Printed.of_subset {cs ds : List Char} (h : Printed cs) (hsub : ds ⊆ cs) : Printed ds :=
  fun c hc => h c (hsub hc)

theorem printed_of_isVisible {cs : List Char} (h : ∀ c ∈ cs, isVisible c = true) : Printed cs := by
  intro c hc
  have hvisible := h c hc
  simp only [isVisible, Bool.and_eq_true, decide_eq_true_eq] at hvisible
  exact Nat.le_of_succ_le hvisible.1

@[simp]
theorem printed_zeros (n : Nat) : Printed (List.replicate n '0') :=
  printed_of_isVisible fun c hc => by rw [List.eq_of_mem_replicate hc]; rfl

@[simp]
theorem printed_digits (n : Nat) : Printed (digits n) :=
  printed_of_isVisible fun _ hc => isVisible_of_isDigit (isDigit_of_mem_digits hc)

@[simp]
theorem printed_hex (n : Nat) : Printed (hex n) :=
  printed_of_isVisible fun _ hc => (Uuid.isHexDigit_of_mem_hex hc).chars.2.2.2.2

/-! ### Numbers -/

namespace Scientific

theorem printed_positional (x : Scientific) {tail : List Char} (h : Printed tail) :
    Printed (x.positional tail) := by
  simp only [positional]
  split
  · simp
  · split
    · simp [h]
    · have htake := (printed_digits x.digits).of_subset (List.take_subset x.pointPlace.toNat _)
      have hdrop := (printed_digits x.digits).of_subset (List.drop_subset x.pointPlace.toNat _)
      simp [htake, hdrop]

theorem printed_exponential (x : Scientific) : Printed x.exponential := by
  have hdigits := printed_digits x.digits
  have hsign : 0x20 ≤ (if x.pointPlace - 1 < 0 then '-' else '+').toNat := by split <;> decide
  simp only [exponential]
  generalize (if x.pointPlace - 1 < 0 then '-' else '+') = sign at hsign ⊢
  match hd : Text.digits x.digits with
  | [] => simp [hsign]
  | [d] =>
      rw [hd, printed_cons] at hdigits
      simp [hdigits.1, hsign]
  | d :: d' :: ds =>
      rw [hd, printed_cons] at hdigits
      have hrest := printed_cons.mp hdigits.2
      simp [hdigits.1, hrest, hsign]

end Scientific

/-- Nothing in the text of a binary number is a control character. -/
theorem Binary.printed_dataText? {F : FloatFormat} {x : Binary F} {cs : List Char}
    (h : x.dataText? = some cs) : Printed cs := by
  cases x with
  | nan | infinite => cases h
  | finite s m e hm =>
      have hsign : Printed (if s then ['-'] else []) := by split <;> simp
      have hbody : Printed (if m = 0 then ['0', '.', '0']
          else if -5 < (shortest F .even m e).pointPlace ∧ (shortest F .even m e).pointPlace ≤ 16
            then (shortest F .even m e).positional ['.', '0']
          else (shortest F .even m e).exponential) := by
        split
        · simp
        · split
          · exact Scientific.printed_positional _ (by simp)
          · exact Scientific.printed_exponential _
      cases h
      exact printed_append.mpr ⟨hsign, hbody⟩

namespace Json

/-- The text of a number has no control characters. -/
theorem Number.printed_text (n : Number) : Printed n.text := by
  cases n with
  | integer i => exact printed_of_isVisible fun _ => IntKind.isVisible_of_mem_signedDigits
  | float x =>
      rw [Number.text]
      cases h : Binary.dataText? x.1 with
      | none => exact printed_nil
      | some cs => exact Binary.printed_dataText? h

/-! ### Strings and values -/

/-- An escape is written in printed characters, whatever it stands for. -/
theorem printed_unicodeEscape (n : Nat) : Printed (unicodeEscape n) := by
  simp [unicodeEscape]

/-- Control characters are escaped. -/
theorem printed_escapedChar (c : Char) : Printed (escapedChar c) := by
  unfold escapedChar
  by_cases hcontrol : c.toNat < 0x20
  · rw [if_pos hcontrol]
    split_ifs <;> simp [printed_unicodeEscape]
  · rw [if_neg hcontrol]
    split_ifs <;> simp [Nat.not_lt.mp hcontrol]

/-- A control character in a string is escaped, so that none stands in its text. -/
theorem printed_stringText (s : String) : Printed (stringText escapedChar s) := by
  have hbody : Printed (s.toList.flatMap escapedChar) := by
    intro c hc
    obtain ⟨d, -, hc⟩ := List.mem_flatMap.mp hc
    exact printed_escapedChar d c hc
  simp [stringText, hbody]

mutual

/-- Nothing in the text of a value is a control character. -/
theorem printed_chars : ∀ v : Json, Printed (chars escapedChar v)
  | .null | .bool true | .bool false => by simp [chars]
  | .number n => n.printed_text
  | .string s => printed_stringText s
  | .array items => by simp [chars, printed_itemsChars items]
  | .object fields => by simp [chars, printed_fieldsChars fields]

theorem printed_itemsChars : ∀ items : List Json, Printed (itemsChars escapedChar items)
  | [] => by simp [itemsChars]
  | [v] => by simp [itemsChars, printed_chars v]
  | v :: w :: rest => by simp [itemsChars, printed_chars v, printed_itemsChars (w :: rest)]

theorem printed_fieldsChars : ∀ fields : List (String × Json),
    Printed (fieldsChars escapedChar fields)
  | [] => by simp [fieldsChars]
  | [(k, v)] => by simp [fieldsChars, printed_stringText k, printed_chars v]
  | (k, v) :: f :: rest => by
      simp [fieldsChars, printed_stringText k, printed_chars v, printed_fieldsChars (f :: rest)]

end

/-- The text of a value is one line. -/
theorem newline_notMem_text (v : Json) : '\n' ∉ v.text.toList := by
  intro h
  rw [text, String.toList_ofList] at h
  exact absurd (printed_chars v '\n' h) (by decide)

end Json

end RecordFilter
