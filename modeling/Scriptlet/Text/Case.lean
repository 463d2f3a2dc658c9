import Scriptlet.Text.CaseTable

/-!
# Upper and Lower Case

Full case mapping as Unicode defines it: a letter may become several letters,
and the one mapping that looks at its surroundings is the lower case of the
Greek capital sigma. At the end of a word it is the final form: a letter with
a case stands before it and none stands behind it, where characters that case
ignores are passed over on both sides.

## Main definitions

* `Text.toUpper`: The upper case of a text.
* `Text.toLower`: The lower case of a text.
* `Text.endsWord`: Whether a sigma between two texts is final.
-/

namespace Scriptlet

namespace Text

/-- The image of a character in the first run that has it; other characters stay. -/
def mapByRuns (runs : List CaseRun) (c : Char) : Char :=
  match runs.findSome? (CaseRun.imageOf? · c.toNat) with
  | some n => Char.ofNat n
  | none => c

/-- The upper case of a character. -/
def upperOf (c : Char) : List Char :=
  match upperExpansions.lookup c.toNat with
  | some ns => ns.map Char.ofNat
  | none => [mapByRuns upperRuns c]

/-- Whether the first character that case does not ignore has a case. -/
def meetsCased (cs : List Char) : Bool :=
  match cs.dropWhile fun c => inRanges caseIgnorableRanges c.toNat with
  | c :: _ => inRanges casedRanges c.toNat
  | [] => false

/-- Whether a letter with `before` in front of it, nearest first, and `after` behind it ends a
    word. -/
def endsWord (before after : List Char) : Bool :=
  meetsCased before && !meetsCased after

/-- The capital sigma. -/
def capitalSigma : Char := Char.ofNat 0x3a3

/-- The small sigma that ends a word. -/
def finalSigma : Char := Char.ofNat 0x3c2

/-- The capital `I` with a dot, whose lower case keeps the dot as a mark of its own. -/
def dottedCapital : Char := Char.ofNat 0x130

/-- The lower case of a character between two texts. -/
def lowerOf (before : List Char) (c : Char) (after : List Char) : List Char :=
  if c = capitalSigma ∧ endsWord before after then [finalSigma]
  else if c = dottedCapital then ['i', Char.ofNat 0x307]
  else [mapByRuns lowerRuns c]

/-- The upper case of a text. -/
def toUpper (cs : List Char) : List Char :=
  cs.flatMap upperOf

/-- The lower case of a text that follows `before`, of which the nearest character comes first. -/
def lowerAfter (before : List Char) : List Char → List Char
  | [] => []
  | c :: cs => lowerOf before c cs ++ lowerAfter (c :: before) cs

/-- The lower case of a text. -/
def toLower (cs : List Char) : List Char :=
  lowerAfter [] cs

end Text

end Scriptlet
