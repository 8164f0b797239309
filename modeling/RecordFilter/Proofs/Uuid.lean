import RecordFilter.Proofs.Text.Digits
import RecordFilter.Uuid

/-!
# Identifiers read back

The text of an identifier is its 32 digits cut into groups.  A digit is no hyphen, so the groups
are found again; and it begins neither braces nor the mark, so the text is a body itself.

* `hexNumber?_hexDigits`: the digits stand for the number of the identifier.
* `readGroups_text`: the groups are found again.
* `read_text`: an identifier is read back.
-/

namespace RecordFilter.Uuid

open Text

/-! ### Digits -/

/-- A lower-case hexadecimal digit. -/
def IsHexDigit (c : Char) : Prop := ∃ d < 16, c = Nat.digitChar d

/-- A digit to base 16 is read back; the sixteen of them are gone through one by one. -/
theorem hexDigit?_digitChar : ∀ d < 16, hexDigit? (Nat.digitChar d) = some d := by decide

/-- What digits are not mistaken for. -/
theorem IsHexDigit.chars {c : Char} (h : IsHexDigit c) :
    c ≠ '-' ∧ c ≠ '\x7b' ∧ c.toLower ≠ 'u' ∧ c.utf8Size = 1 ∧ isVisible c = true := by
  obtain ⟨d, hd, rfl⟩ := h
  have hall : ∀ d < 16, Nat.digitChar d ≠ '-' ∧ Nat.digitChar d ≠ '\x7b' ∧
      (Nat.digitChar d).toLower ≠ 'u' ∧ (Nat.digitChar d).utf8Size = 1 ∧
      isVisible (Nat.digitChar d) = true := by decide
  exact hall d hd

theorem isHexDigit_of_mem_hex {n : Nat} {c : Char} (h : c ∈ hex n) : IsHexDigit c := by
  induction n using Nat.strongRecOn with
  | ind n ih =>
      rw [hex, Nat.toDigits_eq_if (by decide)] at h
      split at h
      · rename_i hlt
        exact ⟨n, hlt, List.mem_singleton.mp h⟩
      · rcases List.mem_append.mp h with h | h
        · exact ih (n / 16) (by omega) h
        · exact ⟨n % 16, Nat.mod_lt _ (by decide), List.mem_singleton.mp h⟩

theorem isHexDigit_of_mem_hexDigits {u : Uuid} {c : Char} (h : c ∈ u.hexDigits) :
    IsHexDigit c := by
  rcases List.mem_append.mp h with h | h
  · exact ⟨0, by decide, List.eq_of_mem_replicate h⟩
  · exact isHexDigit_of_mem_hex h

theorem length_hexDigits (u : Uuid) : u.hexDigits.length = 32 := by
  have hle : (hex u.value).length ≤ 32 :=
    (Nat.length_toDigits_le_iff (by decide) (by decide)).mpr u.value_lt
  rw [hexDigits, List.length_append, List.length_replicate]
  omega

/-- A numeral is read digit by digit. -/
theorem hexNumber?_hex (n : Nat) : hexNumber? (hex n) = some n := by
  induction n using Nat.strongRecOn with
  | ind n ih =>
      rw [hex, Nat.toDigits_eq_if (by decide)]
      split
      · rename_i hlt
        simp [hexNumber?, hexDigit?_digitChar n hlt]
      · have hinit : hexNumber? (Nat.toDigits 16 (n / 16)) = some (n / 16) := ih (n / 16) (by omega)
        have hlast := hexDigit?_digitChar (n % 16) (Nat.mod_lt _ (by decide))
        rw [hexNumber?, List.foldlM_append]
        rw [hexNumber?] at hinit
        rw [hinit]
        simp [hlast, Nat.div_add_mod]

/-- Leading zeros are read as nothing. -/
theorem hexNumber?_replicate_append (k : Nat) (cs : List Char) :
    hexNumber? (List.replicate k '0' ++ cs) = hexNumber? cs := by
  induction k with
  | zero => rfl
  | succ k ih =>
      rw [← ih]
      rfl

/-- The digits stand for the number. -/
theorem hexNumber?_hexDigits (u : Uuid) : hexNumber? u.hexDigits = some u.value := by
  rw [hexDigits, hexNumber?_replicate_append, hexNumber?_hex]

/-- The form without hyphens is read back. -/
theorem readSimple_hexDigits (u : Uuid) : readSimple u.hexDigits = some u := by
  rw [readSimple, if_pos u.length_hexDigits, hexNumber?_hexDigits]
  exact dif_pos u.value_lt

/-! ### Groups -/

theorem map_length_pieces {α : Type} {ns : List Nat} {xs : List α}
    (h : xs.length = ns.foldr (· + ·) 0) : (pieces ns xs).map List.length = ns := by
  induction ns generalizing xs with
  | nil => rfl
  | cons n ns ih =>
      rw [List.foldr_cons] at h
      rw [pieces, List.map_cons, List.length_take, ih (by rw [List.length_drop]; omega)]
      congr 1
      omega

/-- The pieces of a list put together are the list, if their lengths add up to its own. -/
theorem flatten_pieces {α : Type} {ns : List Nat} {xs : List α}
    (h : xs.length = ns.foldr (· + ·) 0) : (pieces ns xs).flatten = xs := by
  induction ns generalizing xs with
  | nil => exact (List.length_eq_zero_iff.mp h).symm
  | cons n ns ih =>
      rw [List.foldr_cons] at h
      rw [pieces, List.flatten_cons, ih (by rw [List.length_drop]; omega), List.take_append_drop]

theorem mem_of_mem_pieces {α : Type} {ns : List Nat} {xs ys : List α} {x : α}
    (h : ys ∈ pieces ns xs) (hx : x ∈ ys) : x ∈ xs := by
  induction ns generalizing xs with
  | nil => cases h
  | cons n ns ih =>
      rcases List.mem_cons.mp h with rfl | h
      · exact List.mem_of_mem_take hx
      · exact List.mem_of_mem_drop (ih h)

/-- The groups of the text are found again. -/
theorem readGroups_text (u : Uuid) : readGroups u.text = some u := by
  have hsum : u.hexDigits.length = groupLengths.foldr (· + ·) 0 := u.length_hexDigits
  have hyphen : ∀ group ∈ pieces groupLengths u.hexDigits, '-' ∉ group := fun group hgroup hmem =>
    (isHexDigit_of_mem_hexDigits (mem_of_mem_pieces hgroup hmem)).chars.1 rfl
  have hsplit : u.text.splitOn '-' = pieces groupLengths u.hexDigits :=
    List.splitOn_intercalate '-' hyphen (by simp [groupLengths, pieces])
  simp only [readGroups, hsplit, map_length_pieces hsum, flatten_pieces hsum, if_true,
    readSimple_hexDigits]

/-! ### Whole texts -/

theorem mem_of_mem_intercalate {groups : List (List Char)} {c : Char}
    (h : c ∈ ['-'].intercalate groups) : c = '-' ∨ ∃ group ∈ groups, c ∈ group := by
  induction groups with
  | nil => cases h
  | cons group groups ih =>
      cases groups with
      | nil =>
          rw [List.intercalate_singleton] at h
          exact .inr ⟨group, List.mem_cons_self, h⟩
      | cons next rest =>
          rw [List.intercalate_cons_cons] at h
          rcases List.mem_append.mp h with h | h
          · rcases List.mem_append.mp h with h | h
            · exact .inr ⟨group, List.mem_cons_self, h⟩
            · exact .inl (List.mem_singleton.mp h)
          · exact (ih h).imp_right fun ⟨found, hfound, hc⟩ =>
              ⟨found, List.mem_cons_of_mem group hfound, hc⟩

/-- The canonical text has hexadecimal digits and hyphens only. -/
theorem text_chars {u : Uuid} {c : Char} (h : c ∈ u.text) : c = '-' ∨ IsHexDigit c :=
  (mem_of_mem_intercalate h).imp_right fun ⟨_, hgroup, hc⟩ =>
    isHexDigit_of_mem_hexDigits (mem_of_mem_pieces hgroup hc)

/-- No blank stands in the canonical text, so that trimming leaves it as it is. -/
theorem isVisible_of_mem_text {u : Uuid} {c : Char} (h : c ∈ u.text) : isVisible c = true := by
  rcases text_chars h with rfl | h
  · decide
  · exact h.chars.2.2.2.2

/-- The length tells the canonical text from the forms with braces or a prefix. -/
theorem length_text (u : Uuid) : u.text.length = 36 := by
  have h := u.length_hexDigits
  simp [text, groupLengths, pieces, List.intercalate, h]

/-- Each character of a text takes one byte. -/
theorem byteLength_text (u : Uuid) : byteLength u.text = 36 := by
  have hone : ∀ cs : List Char, (∀ c ∈ cs, c.utf8Size = 1) → byteLength cs = cs.length := by
    intro cs
    induction cs with
    | nil => exact fun _ => rfl
    | cons c cs ih =>
        intro h
        have hrest := ih fun d hd => h d (List.mem_cons_of_mem c hd)
        have hc := h c List.mem_cons_self
        rw [byteLength, List.foldr_cons, hc, ← byteLength, hrest, List.length_cons, Nat.add_comm]
  rw [hone, length_text]
  intro c hc
  rcases text_chars hc with rfl | h
  · rfl
  · exact h.chars.2.2.2.1

/-- A text begins with a digit, so it stands in no braces and after no mark. -/
theorem body_text (u : Uuid) : body u.text = u.text := by
  have hlen := u.length_hexDigits
  cases hdigits : u.hexDigits with
  | nil =>
      rw [hdigits] at hlen
      cases hlen
  | cons c ds =>
      have hc : IsHexDigit c :=
        isHexDigit_of_mem_hexDigits (u := u) (by rw [hdigits]; exact List.mem_cons_self)
      obtain ⟨-, hbrace, hmark, -, -⟩ := hc.chars
      have htext : ∃ cs, u.text = c :: cs := by
        rw [text, hdigits]
        exact ⟨_, rfl⟩
      obtain ⟨cs, hcons⟩ := htext
      have hunwrap : unwrap (c :: cs) = none := by
        rw [unwrap, if_neg]
        · intro h
          exact hmark (List.cons.inj h).1
        · intro rest heq
          exact hbrace (List.cons.inj heq).1
      rw [hcons, body, hunwrap]

/-- An identifier is read back. -/
theorem read_text (u : Uuid) : read u.text = .ok u := by
  rw [read, body_text, readBody, byteLength_text, if_neg (by decide), if_pos rfl,
    readGroups_text]

end RecordFilter.Uuid
