import RecordFilter.Proofs.Uuid
import RecordFilter.Text.Quoted

/-!
# Texts in front of others

Where a text is followed by another, it can be told where the first one ends: where a stop follows,
if it has none itself; or, if it stands between quotes, at the first quote that is not escaped.

* `append_inj_of_stop`: texts without stops, each in front of a stop or of nothing.
* `readQuotedChar_append`: a character inside quotes is read back.
* `quoted_append_inj`: quoted texts, each in front of anything.
-/

namespace RecordFilter.Text

/-! ### Up to a stop -/

/-- Texts without stops are the same if they are so in front of what is empty or begins with a
stop. -/
theorem append_inj_of_stop {stop : Char → Prop} {xs ys rest rest' : List Char}
    (hxs : ∀ c ∈ xs, ¬ stop c) (hys : ∀ c ∈ ys, ¬ stop c) (hrest : ∀ c ∈ rest.head?, stop c)
    (hrest' : ∀ c ∈ rest'.head?, stop c) (h : xs ++ rest = ys ++ rest') :
    xs = ys ∧ rest = rest' := by
  induction xs generalizing ys with
  | nil =>
      cases ys with
      | nil => exact ⟨rfl, h⟩
      | cons y ys =>
          rw [List.nil_append, List.cons_append] at h
          rw [h] at hrest
          exact absurd (hrest y rfl) (hys y List.mem_cons_self)
  | cons x xs ih =>
      cases ys with
      | nil =>
          rw [List.nil_append, List.cons_append] at h
          rw [← h] at hrest'
          exact absurd (hrest' x rfl) (hxs x List.mem_cons_self)
      | cons y ys =>
          obtain ⟨rfl, htail⟩ := List.cons.inj h
          obtain ⟨rfl, hrests⟩ := ih (fun c hc => hxs c (List.mem_cons_of_mem _ hc))
            (fun c hc => hys c (List.mem_cons_of_mem _ hc)) htail
          exact ⟨rfl, hrests⟩

/-! ### Quotes -/

/-- The character that a letter after a backslash stands for. -/
def escaped? : Char → Option Char
  | '0' => some '\x00'
  | 't' => some '\t'
  | 'r' => some '\r'
  | 'n' => some '\n'
  | '"' => some '"'
  | '\\' => some '\\'
  | _ => none

/-- Reads one character inside quotes, and gives what is left. -/
def readQuotedChar : List Char → Option (Char × List Char)
  | [] => none
  | '\\' :: 'u' :: '\x7b' :: rest =>
    (Uuid.hexNumber? (rest.takeWhile (· ≠ '\x7d'))).map fun n =>
      (Char.ofNat n, (rest.dropWhile (· ≠ '\x7d')).drop 1)
  | '\\' :: c :: rest => (escaped? c).map fun d => (d, rest)
  | c :: rest => if c = '"' then none else some (c, rest)

/-- An escape by code point is read up to its closing brace. -/
theorem readQuotedChar_hex (n : Nat) (rest : List Char) :
    readQuotedChar (['\\', 'u', '\x7b'] ++ hex n ++ ['\x7d'] ++ rest) =
      some (Char.ofNat n, rest) := by
  have hdigits : ∀ c ∈ hex n, decide (c ≠ '\x7d') = true := by
    intro c hc
    obtain ⟨d, hd, rfl⟩ := Uuid.isHexDigit_of_mem_hex hc
    exact (by decide : ∀ d < 16, decide (Nat.digitChar d ≠ '\x7d') = true) d hd
  have htake : ('\x7d' :: rest).takeWhile (· ≠ '\x7d') = [] :=
    List.takeWhile_cons_of_neg (by decide)
  have hdrop : ('\x7d' :: rest).dropWhile (· ≠ '\x7d') = '\x7d' :: rest :=
    List.dropWhile_cons_of_neg (by decide)
  rw [List.append_assoc, List.append_assoc, List.cons_append, List.cons_append, List.cons_append,
    List.nil_append, readQuotedChar, List.takeWhile_append_of_pos hdigits,
    List.dropWhile_append_of_pos hdigits, List.cons_append, List.nil_append,
    htake, hdrop, List.append_nil, Uuid.hexNumber?_hex]
  rfl

/-- A character inside quotes is read back. -/
theorem readQuotedChar_append (c : Char) (rest : List Char) :
    readQuotedChar (quotedChar c ++ rest) = some (c, rest) := by
  unfold quotedChar
  split_ifs with h0 ht hr hn hquote hslash hinvisible
  · rw [h0]; rfl
  · rw [ht]; rfl
  · rw [hr]; rfl
  · rw [hn]; rfl
  · rw [hquote]; rfl
  · rw [hslash]; rfl
  · rw [readQuotedChar_hex, Char.ofNat_toNat]
  · rw [List.singleton_append, readQuotedChar, if_neg hquote]
    · rintro rest rfl
      exact absurd rfl hslash
    · rintro d rest rfl
      exact absurd rfl hslash

/-- Quoted texts are the same if they are so in front of anything. -/
theorem flatMap_quotedChar_inj {cs cs' rest rest' : List Char}
    (h : cs.flatMap quotedChar ++ '"' :: rest = cs'.flatMap quotedChar ++ '"' :: rest') :
    cs = cs' ∧ rest = rest' := by
  induction cs generalizing cs' with
  | nil =>
      cases cs' with
      | nil => exact ⟨rfl, (List.cons.inj h).2⟩
      | cons c' cs' =>
          have hread := congrArg readQuotedChar h
          rw [List.flatMap_cons, List.append_assoc, readQuotedChar_append] at hread
          cases hread
  | cons c cs ih =>
      have hread := congrArg readQuotedChar h
      rw [List.flatMap_cons, List.append_assoc, readQuotedChar_append] at hread
      cases cs' with
      | nil => cases hread
      | cons c' cs' =>
          rw [List.flatMap_cons, List.append_assoc, readQuotedChar_append] at hread
          obtain ⟨rfl, htail⟩ := Prod.mk.inj (Option.some.inj hread)
          obtain ⟨rfl, hrests⟩ := ih htail
          exact ⟨rfl, hrests⟩

/-- A quoted text shows where it ends, whatever follows. -/
theorem quoted_append_inj {s s' : String} {rest rest' : List Char}
    (h : (quoted s).toList ++ rest = (quoted s').toList ++ rest') : s = s' ∧ rest = rest' := by
  have htext : ∀ (s : String) (rest : List Char), (quoted s).toList ++ rest =
      '"' :: (s.toList.flatMap quotedChar ++ '"' :: rest) := by
    intro s rest
    rw [quoted, String.toList_ofList, List.cons_append, List.cons_append, List.append_assoc,
      List.singleton_append]
  rw [htext, htext] at h
  obtain ⟨hs, hrest⟩ := flatMap_quotedChar_inj (List.cons.inj h).2
  exact ⟨String.toList_inj.mp hs, hrest⟩

end RecordFilter.Text
