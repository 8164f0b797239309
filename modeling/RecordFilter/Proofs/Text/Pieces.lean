import Mathlib.Data.List.Infix
import RecordFilter.Filter.Compile

/-!
# Pieces of a text

A separator cuts a text at its occurrences, which are found from left to right and do not overlap.
`Text.Pieces` says so without running through the text, and `cutAt` finds the pieces in one run.

* `exists_first`: where a separator occurs in a text, it occurs for a first time.
* `pieces_iff`: a text has exactly the pieces that `cutAt` finds.
* `sequenceElements_eq`: the elements of a sequence are its pieces, trimmed, empty ones left out.
-/

namespace RecordFilter

namespace Text

/-- The pieces of a text between the occurrences of a separator. -/
inductive Pieces (separator : List Char) : List Char → List (List Char) → Prop where
  /-- A text in which the separator does not occur is one piece. -/
  | whole {cs : List Char} : ¬ separator <:+: cs → Pieces separator cs [cs]
  /-- A piece ends before the separator that is complete first. -/
  | cut {piece rest : List Char} {pieces : List (List Char)} :
      ¬ separator <:+: (piece ++ separator).dropLast → Pieces separator rest pieces →
      Pieces separator (piece ++ separator ++ rest) (piece :: pieces)

variable {separator cs rest piece back : List Char} {pieces : List (List Char)} {c : Char}

/-- One more character in front: the separator is first complete at the same place as before, unless
it stands at that character. -/
theorem not_infix_dropLast_cons (hne : separator ≠ []) (rest : List Char) :
    ¬ separator <:+: (c :: piece ++ separator).dropLast ↔
      ¬ separator <+: c :: (piece ++ separator ++ rest) ∧
        ¬ separator <:+: (piece ++ separator).dropLast := by
  have hpiece : piece ++ separator ≠ [] := List.append_ne_nil_of_right_ne_nil _ hne
  have hstart : c :: (piece ++ separator).dropLast <+: c :: (piece ++ separator ++ rest) := by
    rw [List.cons_prefix_cons]
    exact ⟨rfl, (List.dropLast_prefix _).trans (List.prefix_append _ _)⟩
  rw [List.cons_append, List.dropLast_cons_of_ne_nil hpiece, List.infix_cons_iff, not_or]
  refine and_congr_left fun _ => not_congr ⟨fun h => h.trans hstart, fun h => ?_⟩
  -- what stands at the character is no longer than the text up to the end of the first occurrence
  refine List.prefix_of_prefix_length_le h hstart ?_
  rw [List.length_cons, List.length_dropLast, List.length_append]
  omega

/-- A separator does not stand in what is left of it without its last character. -/
theorem not_infix_dropLast_self (hne : separator ≠ []) : ¬ separator <:+: separator.dropLast := by
  intro h
  have hle := h.length_le
  have hpos := List.length_pos_of_ne_nil hne
  rw [List.length_dropLast] at hle
  omega

/-- Where a separator occurs in a text, it occurs for a first time. -/
theorem exists_first (hne : separator ≠ []) (h : separator <:+: cs) :
    ∃ piece rest, cs = piece ++ separator ++ rest ∧
      ¬ separator <:+: (piece ++ separator).dropLast := by
  induction cs with
  | nil => exact absurd (List.infix_nil.mp h) hne
  | cons c cs ih =>
      by_cases hstart : separator <+: c :: cs
      · obtain ⟨rest, hrest⟩ := hstart
        exact ⟨[], rest, hrest.symm, not_infix_dropLast_self hne⟩
      · obtain ⟨piece, rest, rfl, hfirst⟩ := ih ((List.infix_cons_iff.mp h).resolve_left hstart)
        exact ⟨c :: piece, rest, rfl, (not_infix_dropLast_cons hne rest).mpr ⟨hstart, hfirst⟩⟩

/-- Every text has pieces. -/
theorem exists_pieces (hne : separator ≠ []) (cs : List Char) :
    ∃ pieces, Pieces separator cs pieces := by
  induction hlength : cs.length using Nat.strongRecOn generalizing cs with
  | ind n ih =>
      by_cases h : separator <:+: cs
      · obtain ⟨piece, rest, rfl, hfirst⟩ := exists_first hne h
        have hshorter : rest.length < n := by
          have hpos := List.length_pos_of_ne_nil hne
          rw [List.length_append, List.length_append] at hlength
          omega
        obtain ⟨pieces, hpieces⟩ := ih _ hshorter rest rfl
        exact ⟨piece :: pieces, .cut hfirst hpieces⟩
      · exact ⟨[cs], .whole h⟩

/-! ### Cutting in one run -/

theorem cutAt_skip (n : Nat) (back cs : List Char) :
    cutAt separator n back cs = cutAt separator 0 back (cs.drop n) := by
  induction cs generalizing n with
  | nil => rw [List.drop_nil]; rfl
  | cons c cs ih =>
      cases n with
      | zero => rfl
      | succ n => exact ih n

theorem cutAt_found (h : separator <+: c :: cs) :
    cutAt separator 0 back (c :: cs) =
      back.reverse :: cutAt separator 0 [] (cs.drop (separator.length - 1)) := by
  rw [cutAt, if_pos (List.isPrefixOf_iff_prefix.mpr h), cutAt_skip]

theorem cutAt_passed (h : ¬ separator <+: c :: cs) :
    cutAt separator 0 back (c :: cs) = cutAt separator 0 (c :: back) cs := by
  rw [cutAt, if_neg (mt List.isPrefixOf_iff_prefix.mp h)]

theorem cutAt_whole (h : ¬ separator <:+: cs) :
    cutAt separator 0 back cs = [back.reverse ++ cs] := by
  induction cs generalizing back with
  | nil => rw [List.append_nil]; rfl
  | cons c cs ih =>
      rw [List.infix_cons_iff, not_or] at h
      rw [cutAt_passed h.1, ih h.2, List.reverse_cons, List.append_assoc,
        List.singleton_append]

theorem cutAt_separator (hne : separator ≠ []) :
    cutAt separator 0 back (separator ++ rest) = back.reverse :: cutAt separator 0 [] rest := by
  cases separator with
  | nil => exact absurd rfl hne
  | cons c cs =>
      have hstart : c :: cs <+: c :: (cs ++ rest) := List.prefix_append (c :: cs) rest
      rw [List.cons_append, cutAt_found hstart, List.length_cons, Nat.add_sub_cancel,
        List.drop_left]

/-- The first piece ends where the separator stands for the first time. -/
theorem cutAt_first (hne : separator ≠ [])
    (hfirst : ¬ separator <:+: (piece ++ separator).dropLast) :
    cutAt separator 0 back (piece ++ separator ++ rest) =
      (back.reverse ++ piece) :: cutAt separator 0 [] rest := by
  induction piece generalizing back with
  | nil => rw [List.nil_append, List.append_nil, cutAt_separator hne]
  | cons c piece ih =>
      obtain ⟨hstart, hfirst⟩ := (not_infix_dropLast_cons hne rest).mp hfirst
      rw [List.cons_append, List.cons_append, cutAt_passed hstart, ih hfirst,
        List.reverse_cons, List.append_assoc, List.singleton_append]

/-- Cutting gives the pieces, of which there is one list. -/
theorem Pieces.cutAt_eq (h : Pieces separator cs pieces) (hne : separator ≠ []) :
    cutAt separator 0 [] cs = pieces := by
  induction h with
  | whole h => exact cutAt_whole h
  | cut hfirst _ ih => rw [cutAt_first hne hfirst, ih]; rfl

/-- A text has exactly the pieces that are found in one run. -/
theorem pieces_iff (hne : separator ≠ []) :
    Pieces separator cs pieces ↔ cutAt separator 0 [] cs = pieces := by
  refine ⟨fun h => h.cutAt_eq hne, ?_⟩
  rintro rfl
  obtain ⟨pieces, h⟩ := exists_pieces hne cs
  rw [h.cutAt_eq hne]
  exact h

/-- The elements that pieces hold: the pieces without blanks around them, empty ones left out. -/
def elements (pieces : List (List Char)) : List String :=
  ((pieces.map trimChars).filter (· ≠ [])).map String.ofList

end Text

/-- The elements of a sequence are those that its pieces hold. -/
theorem sequenceElements_eq {separator list : String} {pieces : List (List Char)}
    (hne : separator ≠ "") (h : Text.Pieces separator.toList list.toList pieces) :
    sequenceElements separator list = Text.elements pieces := by
  rw [sequenceElements, h.cutAt_eq (by simpa using hne), Text.elements]

end RecordFilter
