import Mathlib.Algebra.Ring.Nat
import Scriptlet.Location

/-!
# Locations and Lines

A location comes from counting characters and newlines in front of an offset. The
lines of a text come from cutting it, and the cut leaves out returns in front of
newlines and an empty last line. The two never look at each other. Here they are
shown to name the same characters.

What a location means is said with the plainest lines there are, the pieces
between newlines with all of their characters. They begin where the lines in front
of them and a newline for each of those end, and the column counts from there. The
lines that are shown have the same characters at the same columns, except for the
ends that they leave out.

All inductions are along the text, with a character taken off its front. A newline
there is a line less for everything behind it. Any other character is a column
less, but only for what is on the first line.

## Main definitions

* `lineStart`: The offset at which a line begins.
* `endsLine`: Characters that only end a line.
* `Location.charIn?`: What the shown line of a location has at its column.

## Theorems

* `Location.ofOffset_newline`, `Location.ofOffset_other`: A character in front of a text.
* `Location.lineStart_add_column`: Where the column of an offset counts from.
* `Location.newline_not_mem_line`: The offset is on the line of its location.
* `Location.charIn?_textLines`: It is the character at the offset.
* `newline_not_mem_textLines`: Lines are without newlines.
-/

namespace Scriptlet

/-- The offset at which a line begins: the characters of the lines in front of it, and a newline
    for each of them. -/
def lineStart (text : List Char) (line : Nat) : Nat :=
  let before := (text.splitOn '\n').take (line - 1)
  (before.map List.length).sum + before.length

/-- The character at an offset only ends a line: a newline, or a return right in front of one. -/
def endsLine (text : List Char) (offset : Nat) : Prop :=
  text[offset]? = some '\n' ∨ text[offset]? = some '\r' ∧ text[offset + 1]? = some '\n'

namespace Location

/-! ### Counting -/

/-- A location in a text, seen from the start of a longer text in which the text begins at `l`. -/
def behind (l k : Location) : Location :=
  ⟨l.line + (k.line - 1), if k.line = 1 then l.column + k.column else k.column⟩

theorem line_pos_foldl (text : List Char) : ∀ l : Location, 0 < l.line →
    0 < (text.foldl advance l).line := by
  induction text with
  | nil => exact fun l hl => hl
  | cons c text ih =>
      intro l hl
      refine ih _ ?_
      unfold advance
      split
      · exact Nat.succ_pos _
      · exact hl

theorem line_pos (text : List Char) (offset : Nat) : 0 < (ofOffset text offset).line :=
  line_pos_foldl _ start Nat.one_pos

/-- Going on behind a character comes to the same as going on behind `l`, from behind the
    character at the start. -/
theorem behind_advance {k : Location} (hk : 0 < k.line) (l : Location) (c : Char) :
    behind (advance l c) k = behind l (behind (advance start c) k) := by
  rcases k with ⟨line, column⟩
  by_cases hc : c = '\n'
  · simp only [behind, advance, start, if_pos hc]
    grind
  · simp only [behind, advance, start, if_neg hc]
    grind

theorem foldl_advance (text : List Char) : ∀ l : Location,
    text.foldl advance l = behind l (text.foldl advance start) := by
  induction text with
  | nil => exact fun l => rfl
  | cons c text ih =>
      intro l
      rw [List.foldl_cons, List.foldl_cons, ih, ih (advance start c)]
      exact behind_advance (line_pos_foldl text start Nat.one_pos) l c

theorem ofOffset_zero (text : List Char) : ofOffset text 0 = start := rfl

theorem ofOffset_cons (c : Char) (text : List Char) (offset : Nat) :
    ofOffset (c :: text) (offset + 1) = behind (advance start c) (ofOffset text offset) := by
  rw [ofOffset, List.take_succ_cons, List.foldl_cons, foldl_advance, ofOffset]

/-- A newline in front of a text adds a line. -/
theorem ofOffset_newline (text : List Char) (offset : Nat) :
    (ofOffset ('\n' :: text) (offset + 1)).line = (ofOffset text offset).line + 1 ∧
      (ofOffset ('\n' :: text) (offset + 1)).column = (ofOffset text offset).column := by
  have hpos := line_pos text offset
  rw [ofOffset_cons]
  simp only [advance, behind, start, if_true]
  grind

/-- Any other character in front of a text adds a column to what is on the first line. -/
theorem ofOffset_other {c : Char} (hc : c ≠ '\n') (text : List Char) (offset : Nat) :
    (ofOffset (c :: text) (offset + 1)).line = (ofOffset text offset).line ∧
      (ofOffset (c :: text) (offset + 1)).column =
        if (ofOffset text offset).line = 1 then (ofOffset text offset).column + 1
        else (ofOffset text offset).column := by
  have hpos := line_pos text offset
  rw [ofOffset_cons]
  simp only [advance, behind, start, if_neg hc]
  grind

/-- Only the first line is moved by a character in front of it. -/
theorem ofOffset_eq_of_line_ne {c : Char} (hc : c ≠ '\n') {text : List Char} {offset : Nat}
    (hline : (ofOffset text offset).line ≠ 1) :
    ofOffset (c :: text) (offset + 1) = ofOffset text offset := by
  rcases ofOffset_other hc text offset with ⟨hsame, hcolumn⟩
  rw [if_neg hline] at hcolumn
  exact (mk.injEq ..).mpr ⟨hsame, hcolumn⟩

end Location

/-! ### Where lines begin -/

@[simp] theorem lineStart_one (text : List Char) : lineStart text 1 = 0 := rfl

theorem lineStart_newline (text : List Char) {line : Nat} (h : 0 < line) :
    lineStart ('\n' :: text) (line + 1) = lineStart text line + 1 := by
  rcases line with _ | line
  · exact absurd h (Nat.lt_irrefl 0)
  · simp only [lineStart, List.splitOn_cons_eq_if_modifyHead, beq_self_eq_true, if_true,
      Nat.add_sub_cancel, List.take_succ_cons, List.map_cons, List.sum_cons, List.length_nil,
      List.length_cons]
    omega

theorem lineStart_other {c : Char} (hc : c ≠ '\n') (text : List Char) {line : Nat}
    (h : 1 < line) : lineStart (c :: text) line = lineStart text line + 1 := by
  rcases line with _ | _ | line
  · exact absurd h (by decide)
  · exact absurd h (by decide)
  · have hcut := List.splitOn_cons_eq_if_modifyHead (a := '\n') c text
    rw [if_neg (by simpa using hc)] at hcut
    rcases hlines : text.splitOn '\n' with _ | ⟨first, others⟩
    · exact absurd hlines (List.splitOn_ne_nil _ _)
    · simp only [lineStart, hcut, hlines, List.modifyHead_cons, Nat.add_sub_cancel,
        List.take_succ_cons, List.map_cons, List.sum_cons, List.length_cons]
      omega

namespace Location

/-- The column of an offset counts from the start of its line. -/
theorem lineStart_add_column (text : List Char) : ∀ offset,
    lineStart text (ofOffset text offset).line + (ofOffset text offset).column =
      min offset text.length := by
  induction text with
  | nil => simp [ofOffset, start]
  | cons c text ih =>
      rintro (_ | offset)
      · simp [ofOffset_zero, start]
      · have hpos := line_pos text offset
        have hih := ih offset
        rw [List.length_cons]
        by_cases hc : c = '\n'
        · subst hc
          rcases ofOffset_newline text offset with ⟨hline, hcolumn⟩
          rw [hline, hcolumn, lineStart_newline text hpos]
          omega
        · rcases ofOffset_other hc text offset with ⟨hline, hcolumn⟩
          rw [hline, hcolumn]
          by_cases hfirst : (ofOffset text offset).line = 1
          · simp only [hfirst, if_true, lineStart_one] at hih ⊢
            omega
          · rw [lineStart_other hc text (by omega), if_neg hfirst]
            omega

/-- Between the start of its line and an offset there is no newline. -/
theorem newline_not_mem_line (text : List Char) : ∀ offset,
    '\n' ∉ (text.take offset).drop (lineStart text (ofOffset text offset).line) := by
  induction text with
  | nil => simp
  | cons c text ih =>
      rintro (_ | offset)
      · simp
      · have hpos := line_pos text offset
        have hih := ih offset
        by_cases hc : c = '\n'
        · subst hc
          rw [(ofOffset_newline text offset).1, lineStart_newline text hpos]
          exact hih
        · rw [(ofOffset_other hc text offset).1]
          by_cases hfirst : (ofOffset text offset).line = 1
          · simp only [hfirst, lineStart_one, List.drop_zero] at hih ⊢
            rw [List.take_succ_cons, List.mem_cons, not_or]
            exact ⟨Ne.symm hc, hih⟩
          · rw [lineStart_other hc text (by omega)]
            exact hih

/-- The line of a location is one of the lines. -/
theorem line_le (text : List Char) : ∀ offset,
    (ofOffset text offset).line ≤ (text.splitOn '\n').length := by
  induction text with
  | nil => simp [ofOffset, start]
  | cons c text ih =>
      rintro (_ | offset)
      · exact List.length_pos_iff.mpr (List.splitOn_ne_nil _ _)
      · have hih := ih offset
        rw [List.splitOn_cons_eq_if_modifyHead]
        by_cases hc : c = '\n'
        · rw [if_pos (by simpa using hc), List.length_cons, hc, (ofOffset_newline text offset).1]
          omega
        · rw [if_neg (by simpa using hc), List.length_modifyHead, (ofOffset_other hc text offset).1]
          exact hih

end Location

/-! ### The lines that are shown -/

theorem textLines_eq_nil_iff {text : List Char} : textLines text = [] ↔ text = [] := by
  fun_cases textLines text <;> simp

/-- What a list of lines has at a location. -/
def Location.charIn? (l : Location) (lines : List (List Char)) : Option Char :=
  (lines[l.line - 1]?.getD [])[l.column]?

namespace Location

/-- A line in front of the others is passed by a newline. -/
theorem charIn?_newline (text : List Char) (offset : Nat) (first : List Char)
    (lines : List (List Char)) :
    (ofOffset ('\n' :: text) (offset + 1)).charIn? (first :: lines) =
      (ofOffset text offset).charIn? lines := by
  have hpos := line_pos text offset
  rcases ofOffset_newline text offset with ⟨hline, hcolumn⟩
  have hindex : (ofOffset text offset).line = (ofOffset text offset).line - 1 + 1 := by omega
  rw [charIn?, charIn?, hline, hcolumn, Nat.add_sub_cancel, hindex, List.getElem?_cons_succ,
    Nat.add_sub_cancel]

/-- A character in front of the first line moves that line, and no other. -/
theorem charIn?_other {c : Char} (hc : c ≠ '\n') (text : List Char) (offset : Nat)
    (first : List Char) (lines : List (List Char)) :
    (ofOffset (c :: text) (offset + 1)).charIn? ((c :: first) :: lines) =
      (ofOffset text offset).charIn? (first :: lines) := by
  have hpos := line_pos text offset
  rcases ofOffset_other hc text offset with ⟨hline, hcolumn⟩
  rw [charIn?, charIn?, hline, hcolumn]
  by_cases hfirst : (ofOffset text offset).line = 1
  · simp [hfirst]
  · have hindex : (ofOffset text offset).line - 1 = (ofOffset text offset).line - 2 + 1 := by omega
    rw [if_neg hfirst, hindex, List.getElem?_cons_succ, List.getElem?_cons_succ]

end Location

/-- The line of a location has the character of the text at its column. -/
theorem charIn?_textLines (text : List Char) : ∀ {offset : Nat} {c : Char},
    text[offset]? = some c → ¬ endsLine text offset →
    (Location.ofOffset text offset).charIn? (textLines text) = some c := by
  fun_induction textLines text with
  | case1 => simp
  | case2 cs ih =>
      rintro (_ | offset) c hc hends
      · exact absurd (.inl rfl) hends
      · rw [Location.charIn?_newline]
        exact ih hc hends
  | case3 cs ih =>
      rintro (_ | _ | offset) c hc hends
      · exact absurd (.inr ⟨rfl, rfl⟩) hends
      · exact absurd (.inl rfl) hends
      · have hpos := Location.line_pos cs offset
        have hline : (Location.ofOffset ('\n' :: cs) (offset + 1)).line ≠ 1 := by
          rw [(Location.ofOffset_newline cs offset).1]
          omega
        rw [Location.ofOffset_eq_of_line_ne (by decide) hline, Location.charIn?_newline]
        exact ih hc hends
  | case4 c cs hnewline hreturn hnone =>
      cases textLines_eq_nil_iff.mp hnone
      rintro (_ | offset) d hd hends
      · exact hd
      · exact absurd hd (by simp)
  | case5 c cs hnewline hreturn first lines hlines ih =>
      rintro (_ | offset) d hd hends
      · exact hd
      · rw [Location.charIn?_other (by simpa using hnewline), ← hlines]
        exact ih hd hends

/-- Lines are without newlines. -/
theorem newline_not_mem_textLines (text : List Char) : ∀ line ∈ textLines text, '\n' ∉ line := by
  fun_induction textLines text with
  | case1 => simp
  | case2 cs ih => simpa using ih
  | case3 cs ih => simpa using ih
  | case4 c cs hnewline hreturn hnone =>
      simpa using Ne.symm (by simpa using hnewline)
  | case5 c cs hnewline hreturn first lines hlines ih =>
      have hc : '\n' ≠ c := Ne.symm (by simpa using hnewline)
      rw [hlines] at ih
      rintro line (_ | ⟨_, hline⟩)
      · rw [List.mem_cons, not_or]
        exact ⟨hc, ih first List.mem_cons_self⟩
      · exact ih line (List.mem_cons_of_mem _ hline)

end Scriptlet
