/-!
# Searching in Texts

Where a text occurs in another, and the two operations that follow from it:
replacing the first occurrence and cutting at every one. All three look for the
leftmost occurrence through `find?`, so they cannot disagree about where it is,
and all count in characters.

Texts are searched as bytes by others, who then count the characters in front of
the byte that they found. `findByte?` and `charactersBefore` are these two steps.

## Main definitions

* `Text.find?`: Where a text first occurs in another.
* `Text.findByte?`: The byte at which it does.
* `Text.charactersBefore`: The number of characters in front of a byte.
* `Text.replaceFirst`: The first occurrence replaced.
* `Text.cut`: The pieces between the occurrences of a delimiter.
* `Text.joinWith`: Pieces with a separator between them.

## Theorems

* `Text.find?_add_length_le`: An occurrence lies within the text.
* `Text.length_drop_find?_lt`: What follows an occurrence is shorter than the text.
-/

namespace Scriptlet

namespace Text

/-- The least index at which `needle` occurs. The empty text occurs at the start of every text. -/
def find? (needle : List Char) : List Char → Option Nat
  | [] => if needle = [] then some 0 else none
  | c :: cs => if needle.isPrefixOf (c :: cs) then some 0 else (find? needle cs).map (· + 1)

/-- The byte at which the first character of the first occurrence of `needle` begins. -/
def findByte? (needle : List Char) : List Char → Option Nat
  | [] => if needle = [] then some 0 else none
  | c :: cs =>
    if needle.isPrefixOf (c :: cs) then some 0 else (findByte? needle cs).map (· + c.utf8Size)

/-- The number of characters that begin in front of a byte. -/
def charactersBefore : List Char → Nat → Nat
  | [], _ => 0
  | _ :: _, 0 => 0
  | c :: cs, byte => charactersBefore cs (byte - c.utf8Size) + 1

theorem find?_add_length_le {needle text : List Char} {i : Nat} (h : find? needle text = some i) :
    i + needle.length ≤ text.length := by
  induction text generalizing i with
  | nil =>
    simp only [find?] at h
    split at h
    · next hn =>
      obtain rfl : 0 = i := by simpa using h
      simp [hn]
    · simp at h
  | cons c cs ih =>
    simp only [find?] at h
    split at h
    · next hp =>
      obtain rfl : 0 = i := by simpa using h
      simpa using (List.isPrefixOf_iff_prefix.1 hp).length_le
    · obtain ⟨j, hj, rfl⟩ := Option.map_eq_some_iff.1 h
      have := ih hj
      simp only [List.length_cons]
      omega

/-- Cutting off an occurrence of a text that is not empty leaves less than there was. -/
theorem length_drop_find?_lt {needle text : List Char} {i : Nat} (h : find? needle text = some i)
    (hn : needle ≠ []) : (text.drop (i + needle.length)).length < text.length := by
  have := find?_add_length_le h
  have := List.length_pos_iff.2 hn
  simp only [List.length_drop]
  omega

/-- The text with the first occurrence of `needle` replaced, or as it is where there is none. -/
def replaceFirst (needle replacement text : List Char) : List Char :=
  match find? needle text with
  | none => text
  | some i => text.take i ++ replacement ++ text.drop (i + needle.length)

/-- The pieces of a text between the occurrences of a delimiter, taken from the left without
    overlap. The empty delimiter cuts nowhere. -/
def cut (delimiter text : List Char) : List (List Char) :=
  match h : find? delimiter text with
  | none => [text]
  | some i =>
    if hd : delimiter = [] then
      [text]
    else
      have := length_drop_find?_lt h hd
      text.take i :: cut delimiter (text.drop (i + delimiter.length))
termination_by text.length
decreasing_by assumption

/-- The pieces one after another with a separator between them. -/
def joinWith (separator : List Char) (pieces : List (List Char)) : List Char :=
  (pieces.intersperse separator).flatten

/-- Whether a text ends in another. -/
def endsIn (ending text : List Char) : Bool :=
  ending.isSuffixOf text

end Text

end Scriptlet
