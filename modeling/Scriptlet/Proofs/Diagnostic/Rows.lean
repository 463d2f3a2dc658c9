import Scriptlet.Diagnostic
import Scriptlet.Proofs.Diagnostic.Lines
import Scriptlet.Proofs.Number.Numeral

/-!
# Rows of Diagnostics

A diagnostic shows the line of the script that an issue is on, and a caret in the row
below it. The line stands behind a gutter with its number, which is three characters
wide or as wide as the number is, and the caret row has a gutter of its own. This
module says which characters of the two rows belong to the issue.

The line has the character at the position of the issue at the column of its
location, so in the row of the line the character stands that far behind the gutter.
The caret stands as far behind the other gutter. That one is shorter, by one
character for numbers of up to three digits and by one more for each further digit,
so the caret is left of the character by that much, and never below it.

## Main definitions

* `Diagnostic.gutter`: What stands in front of the line.
* `Diagnostic.above`, `Diagnostic.below`: What stands around the two rows.

## Theorems

* `Diagnostic.render_eq`: The text of a diagnostic, row by row.
* `Diagnostic.getElem?_line`: The character of the issue on its line.
* `Diagnostic.getElem?_caretRow`: The one place of the caret.
* `location_names_shown_character`: Locations are exact, and lead to the character on the line that
  is shown.
* `caret_left_of_character`: How far the caret is left of the character.
-/

namespace Scriptlet

namespace Diagnostic

variable (d : Diagnostic)

/-- The gutter in front of the line. -/
def gutter : List Char :=
  lineNumber d.location.line ++ [' ', '|', ' ']

/-- The rows above the line. -/
def above : List Char :=
  d.headline.toList ++ '\n' :: (d.placeRow.toList ++ '\n' :: "   |\n".toList)

/-- The rows below the caret. -/
def below : List Char :=
  d.helpRows.flatMap fun row => row.toList ++ ['\n']

/-- The row of the line is a row, and right below it stands the row of the caret. -/
theorem render_eq : d.render.toList =
    d.above ++ (d.sourceRow ++ '\n' :: (d.caretRow ++ '\n' :: d.below)) := by
  have hhelp : (String.join (d.helpRows.map (· ++ "\n"))).toList = d.below := by
    rw [String.toList_join, List.flatMap_map, below]
    simp
  simp only [render, List.map_append, String.join_append, String.toList_append, hhelp]
  simp [above]

theorem sourceRow_eq : d.sourceRow = d.gutter ++ d.line := rfl

theorem length_lineNumber (n : Nat) :
    (lineNumber n).length = max 3 (Decimal.digitsOf n).length := by
  simp only [lineNumber, List.length_append, List.length_replicate]
  omega

theorem length_gutter :
    d.gutter.length = max 3 (Decimal.digitsOf d.location.line).length + 3 := by
  rw [gutter, List.length_append, length_lineNumber]
  rfl

/-! ### Characters of the rows -/

theorem newline_not_mem_line : '\n' ∉ d.line := by
  rw [line]
  cases hline : (textLines d.script)[d.location.line - 1]? with
  | none => simp
  | some line => exact newline_not_mem_textLines _ line (List.mem_of_getElem? hline)

theorem newline_not_mem_sourceRow : '\n' ∉ d.sourceRow := by
  have hdigits : '\n' ∉ Decimal.digitsOf d.location.line := fun hmem =>
    absurd (List.all_eq_true.mp (Number.all_isDigit_digitsOf d.location.line) _ hmem) (by decide)
  rw [sourceRow_eq, gutter, lineNumber]
  simp [hdigits, d.newline_not_mem_line, List.mem_replicate]

theorem newline_not_mem_caretRow : '\n' ∉ d.caretRow := by
  simp [caretRow, List.mem_replicate]

/-- The caret row has one caret. -/
theorem getElem?_caretRow (i : Nat) :
    d.caretRow[i]? = some '^' ↔ i = 5 + d.location.column := by
  have hfront : ∀ c ∈ [' ', ' ', ' ', '|', ' '] ++ List.replicate d.location.column ' ',
      c ≠ '^' := by
    simp [List.mem_replicate]
  have hlength : ([' ', ' ', ' ', '|', ' '] ++ List.replicate d.location.column ' ').length =
      5 + d.location.column := by
    simp
    omega
  rw [caretRow, List.getElem?_append, hlength]
  split
  · next hlt =>
    refine ⟨fun h => absurd rfl (hfront _ (List.mem_of_getElem? h)), fun h => ?_⟩
    exact absurd hlt (by omega)
  · next hge =>
    rw [List.getElem?_singleton]
    split
    · simp only [true_iff]
      omega
    · simp only [reduceCtorEq, false_iff]
      omega

variable {d}

/-- The line has the character of the issue at the column of its location. -/
theorem getElem?_line {c : Char} (hc : d.script[d.issue.position]? = some c)
    (hends : ¬ endsLine d.script d.issue.position) : d.line[d.location.column]? = some c :=
  charIn?_textLines d.script hc hends

theorem getElem?_sourceRow {c : Char} (hc : d.script[d.issue.position]? = some c)
    (hends : ¬ endsLine d.script d.issue.position) :
    d.sourceRow[d.gutter.length + d.location.column]? = some c := by
  rw [sourceRow_eq, List.getElem?_append_right (Nat.le_add_right _ _), Nat.add_sub_cancel_left]
  exact getElem?_line hc hends

end Diagnostic

/-- Locations are exact. The line of an offset is one of the lines of the text, its column
    counts from where that line begins, up to the offset or the end of the text, and
    there is no newline on the way. If the offset has a character that does more than to
    end a line, a diagnostic with the offset as its position shows a line that has the
    character at the column. -/
theorem location_names_shown_character (text : List Char) (offset : Nat) :
    let l := Location.ofOffset text offset
    (0 < l.line ∧ l.line ≤ (text.splitOn '\n').length ∧
      lineStart text l.line + l.column = min offset text.length ∧
      '\n' ∉ (text.take offset).drop (lineStart text l.line)) ∧
    ∀ d : Diagnostic, d.script = text → d.issue.position = offset →
      ∀ c, text[offset]? = some c → ¬ endsLine text offset →
        ∃ shown, d.render.toList =
            d.above ++ (d.gutter ++ shown ++ '\n' :: (d.caretRow ++ '\n' :: d.below)) ∧
          '\n' ∉ shown ∧ shown[l.column]? = some c := by
  refine ⟨⟨Location.line_pos text offset, Location.line_le text offset,
    Location.lineStart_add_column text offset, Location.newline_not_mem_line text offset⟩, ?_⟩
  rintro d rfl rfl c hc hends
  exact ⟨d.line, d.render_eq, d.newline_not_mem_line, Diagnostic.getElem?_line hc hends⟩

/-- An issue at the end of the second line of a script, which is behind a return and a
    newline. -/
theorem shown_character_behind_return :
    let text := ['é', '\r', '\n', 'x', '=', 'y', '\n']
    let d : Diagnostic := ⟨"f", text, ⟨.reference, "m", 5, none⟩⟩
    text[5]? = some 'y' ∧ ¬ endsLine text 5 ∧ Location.ofOffset text 5 = ⟨2, 2⟩ ∧
    lineStart text 2 + 2 = 5 ∧
    ∃ shown, d.render.toList =
        d.above ++ (d.gutter ++ shown ++ '\n' :: (d.caretRow ++ '\n' :: d.below)) ∧
      '\n' ∉ shown ∧ shown[2]? = some 'y' := by
  intro text d
  have hends : ¬ endsLine text 5 := by
    rintro (h | ⟨h, _⟩) <;> exact absurd h (by decide)
  rcases location_names_shown_character text 5 with ⟨⟨_, _, hcolumn, _⟩, hshown⟩
  exact ⟨rfl, hends, rfl, hcolumn, hshown d rfl rfl 'y' rfl hends⟩

/-- The caret is left of the character of the issue. The rows of the line and of the caret
    stand one below the other. If the position of the issue has a character that does more
    than to end a line, it stands on the line as far behind the gutter as its column says,
    and the caret, of which there is one, as many columns to the left of it as the number
    of the line has digits, but at least three, less two. -/
theorem caret_left_of_character (d : Diagnostic) {c : Char}
    (hc : d.script[d.issue.position]? = some c) (hends : ¬ endsLine d.script d.issue.position) :
    (∃ rows, d.render.toList =
      rows ++ '\n' :: (d.sourceRow ++ '\n' :: (d.caretRow ++ '\n' :: d.below))) ∧
    '\n' ∉ d.sourceRow ∧ '\n' ∉ d.caretRow ∧
    ∃ caret place, (∀ i, d.caretRow[i]? = some '^' ↔ i = caret) ∧
      place = d.gutter.length + d.location.column ∧ d.sourceRow[place]? = some c ∧
      place = caret + (max 3 (Decimal.digitsOf d.location.line).length - 2) ∧ caret < place := by
  have hgutter := d.length_gutter
  refine ⟨⟨d.headline.toList ++ '\n' :: (d.placeRow.toList ++ '\n' :: "   |".toList), ?_⟩,
    d.newline_not_mem_sourceRow, d.newline_not_mem_caretRow,
    5 + d.location.column, d.gutter.length + d.location.column, d.getElem?_caretRow, rfl,
    Diagnostic.getElem?_sourceRow hc hends, by omega, by omega⟩
  rw [d.render_eq, Diagnostic.above]
  simp

/-- A division by zero on the first line. The caret is one column left of the division. -/
theorem caret_left_of_division :
    let d : Diagnostic := ⟨"inline", "x = 1 / 0".toList, ⟨.runtime, "Divide by 0", 6, none⟩⟩
    d.script[d.issue.position]? = some '/' ∧ ¬ endsLine d.script d.issue.position ∧
    d.caretRow[11]? = some '^' ∧ d.sourceRow[12]? = some '/' := by
  intro d
  have hends : ¬ endsLine d.script d.issue.position := by
    rintro (h | ⟨h, _⟩) <;> exact absurd h (by decide)
  rcases caret_left_of_character d rfl hends with
    ⟨_, _, _, caret, place, hcaret, hplace, hcharacter, hdistance, _⟩
  have hdigits : (Decimal.digitsOf d.location.line).length = 1 := by decide
  have hcolumn : d.location.column = 6 := by decide
  rw [hdigits] at hdistance
  have hwidth : place = 12 := by rw [hplace, d.length_gutter, hdigits, hcolumn]; rfl
  exact ⟨rfl, hends, (hcaret 11).mpr (by omega), hwidth ▸ hcharacter⟩

end Scriptlet
