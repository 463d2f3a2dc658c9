import Scriptlet.Json

/-!
# Reading JSON Documents

A document is read off the front of a text. Containers may be nested to a
limit, on which the definitions recurse; the entries of one container are
counted by the characters that are left, since every entry takes at least one.

Whole numbers that fit a machine word stay integers. All other numbers are
computed in double arithmetic: the leading digits that fit into 64 bits are
scaled by a power of ten, which rounds once for the digits and once for the
scaling. A number that leaves the range is refused.

## Main definitions

* `Json.Read.number?`: A number off the front of a text.
* `Json.Read.string?`: The rest of a quoted text.
* `Json.Read.value?`: A document off the front of a text.
* `Json.ofText?`: The document that a text is.
-/

namespace Scriptlet

namespace Json

namespace Read

-- Powers of natural numbers are the built-in ones, also where other powers are known.
attribute [local instance(high)] instPowNat

/-- The characters between tokens. -/
def isGap (c : Char) : Bool :=
  c == ' ' || c == '\n' || c == '\r' || c == '\t'

/-- The text past the gap at its front. -/
def skipGap (cs : List Char) : List Char :=
  cs.dropWhile isGap

/-! ### Numbers -/

/-- The largest significand. -/
def significandMax : Nat := 2 ^ (64 : Nat) - 1

/-- The largest exponent that is counted. -/
def exponentMax : Nat := 2 ^ (31 : Nat) - 1

/-- The largest power of ten that is a number. -/
def powerMax : Nat := 308

/-- Appends digits to a significand while it fits, and counts them. -/
def absorb (significand : Nat) : List Char → Nat × Nat
  | [] => (significand, 0)
  | c :: cs =>
    let appended := 10 * significand + (c.toNat - '0'.toNat)
    if appended ≤ significandMax then
      let (result, count) := absorb appended cs
      (result, count + 1)
    else
      (significand, 0)

/-- A power of ten as a number. -/
def powerOfTen (k : Nat) : Float :=
  Float.ofScientific 1 false k

/-- Divides by a power of ten beyond the largest number, in steps, until nothing is left. -/
def divideDown : (rounds : Nat) → Float → Nat → Float
  | 0, x, _ => x
  | rounds + 1, x, k =>
    if k ≤ powerMax then x / powerOfTen k
    else if x == 0.0 then x
    else divideDown rounds (x / powerOfTen powerMax) (k - powerMax)

/-- Scales a number by a power of ten, unless it becomes too large. -/
def scale? (x : Float) : Int → Option Float
  | .ofNat k =>
    if powerMax < k then
      if x == 0.0 then some x else none
    else
      let scaled := x * powerOfTen k
      if scaled.isInf then none else some scaled
  | .negSucc k => some (divideDown (k / powerMax + 2) x (k + 1))

/-- Takes the digits off the front of a text, which has to have at least one. -/
def digits? (cs : List Char) : Option (List Char × List Char) :=
  let ds := cs.takeWhile Char.isDigit
  if ds = [] then none else some (ds, cs.dropWhile Char.isDigit)

/-- Takes the whole part of a number off the front of a text. It has no needless zeros. -/
def whole? (cs : List Char) : Option (List Char × List Char) := do
  let (ds, rest) ← digits? cs
  if ds.head? = some '0' ∧ 1 < ds.length then none else some (ds, rest)

/-- Takes the digits behind a point off the front of a text; without a point there are none. -/
def fraction? : List Char → Option (Option (List Char) × List Char)
  | '.' :: cs => do
    let (ds, rest) ← digits? cs
    some (some ds, rest)
  | cs => some (none, cs)

/-- Takes an exponent off the front of a text, as a sign and its digits. -/
def exponent? : List Char → Option (Option (Bool × List Char) × List Char)
  | [] => some (none, [])
  | c :: cs =>
    if c = 'e' ∨ c = 'E' then do
      let (negative, cs) := Decimal.takeSign cs
      let (ds, rest) ← digits? cs
      some (some (negative, ds), rest)
    else
      some (none, c :: cs)

/-- A whole number as a document. Negative zero and what fits no machine word are not integers. -/
def wholeNumber (negative : Bool) (n : Nat) : Json :=
  if negative then
    if n = 0 ∨ 2 ^ (63 : Nat) < n then .float (-(Number.ofNat n)) else .integer (-(n : Int))
  else
    .integer n

/-- The number with the given significand and power of ten, as a document. An exponent too long to
    count leaves zero or leaves the range. -/
def scaledNumber? (negative : Bool) (significand : Nat) (power : Int)
    (exponent : Option (Bool × List Char)) : Option Json :=
  match exponent with
  | none => (scale? (Number.ofNat significand) power).map fun x => .float (Number.signed negative x)
  | some (below, ds) =>
    let e := Decimal.ofDigits ds
    if exponentMax < e then
      if significand ≠ 0 ∧ !below then none else some (.float (Number.signed negative 0.0))
    else
      (scale? (Number.ofNat significand) (power + if below then -(e : Int) else e)).map fun x =>
        .float (Number.signed negative x)

/-- A number off the front of a text. -/
def number? (cs : List Char) : Option (Json × List Char) := do
  let negative := cs.head? = some '-'
  let (ds, rest) ← whole? (if negative then cs.tail else cs)
  let (fraction, rest) ← fraction? rest
  let (exponent, rest) ← exponent? rest
  let (significand, used) := absorb 0 ds
  let dropped := ds.length - used
  if fraction = none ∧ exponent = none ∧ dropped = 0 then
    some (wholeNumber negative significand, rest)
  else
    let (significand, places) := absorb significand (fraction.getD [])
    let document ← scaledNumber? negative significand ((dropped : Int) - places) exponent
    some (document, rest)

/-! ### Texts -/

/-- The value of a hexadecimal digit. -/
def hexDigit? (c : Char) : Option Nat :=
  if c.isDigit then some (c.toNat - '0'.toNat)
  else if 'a' ≤ c ∧ c ≤ 'f' then some (c.toNat - 'a'.toNat + 10)
  else if 'A' ≤ c ∧ c ≤ 'F' then some (c.toNat - 'A'.toNat + 10)
  else none

/-- The value of four hexadecimal digits. -/
def hexCode? (a b c d : Char) : Option Nat := do
  return 4096 * (← hexDigit? a) + 256 * (← hexDigit? b) + 16 * (← hexDigit? c) + (← hexDigit? d)

/-- Whether a code is the first half of a pair. -/
def isLeading (n : Nat) : Bool :=
  0xd800 ≤ n && n < 0xdc00

/-- Whether a code is the second half of a pair. -/
def isTrailing (n : Nat) : Bool :=
  0xdc00 ≤ n && n < 0xe000

/-- The character of a pair of codes. -/
def pairChar (leading trailing : Nat) : Char :=
  Char.ofNat (0x10000 + 1024 * (leading - 0xd800) + (trailing - 0xdc00))

/-- The character of a short escape. -/
def escape? : Char → Option Char
  | '"' => some '"'
  | '\\' => some '\\'
  | '/' => some '/'
  | 'b' => some '\x08'
  | 'f' => some '\x0c'
  | 'n' => some '\n'
  | 'r' => some '\r'
  | 't' => some '\t'
  | _ => none

/-- The rest of a quoted text, behind its opening quote. Control characters have to be escaped, and
    the halves of a pair stand together. -/
def string? : List Char → Option (List Char × List Char)
  | [] => none
  | '"' :: cs => some ([], cs)
  | '\\' :: 'u' :: a :: b :: c :: d :: '\\' :: 'u' :: e :: f :: g :: h :: cs => do
    let n ← hexCode? a b c d
    if isLeading n then
      let m ← hexCode? e f g h
      if isTrailing m then
        let (more, rest) ← string? cs
        some (pairChar n m :: more, rest)
      else
        none
    else if isTrailing n then
      none
    else
      let (more, rest) ← string? ('\\' :: 'u' :: e :: f :: g :: h :: cs)
      some (Char.ofNat n :: more, rest)
  | '\\' :: 'u' :: a :: b :: c :: d :: cs => do
    let n ← hexCode? a b c d
    if isLeading n || isTrailing n then
      none
    else
      let (more, rest) ← string? cs
      some (Char.ofNat n :: more, rest)
  | '\\' :: c :: cs => do
    let c ← escape? c
    let (more, rest) ← string? cs
    some (c :: more, rest)
  | c :: cs =>
    if c.toNat < 0x20 then
      none
    else do
      let (more, rest) ← string? cs
      some (c :: more, rest)

/-! ### Documents -/

/-- How to read a document off the front of a text. -/
abbrev Reader := List Char → Option (Json × List Char)

/-- The items of an array up to its closing bracket, each read behind a gap. -/
def items? (read : Reader) : (rounds : Nat) → List Char → Option (List Json × List Char)
  | 0, _ => none
  | rounds + 1, cs => do
    let (item, rest) ← read (skipGap cs)
    match skipGap rest with
    | ',' :: rest => do
      let (items, rest) ← items? read rounds rest
      some (item :: items, rest)
    | ']' :: rest => some ([item], rest)
    | _ => none

/-- The fields of an object up to its closing bracket, each read behind a gap. -/
def fields? (read : Reader) :
    (rounds : Nat) → List Char → Option (List (String × Json) × List Char)
  | 0, _ => none
  | rounds + 1, cs => do
    let '"' :: rest := skipGap cs | none
    let (key, rest) ← string? rest
    let ':' :: rest := skipGap rest | none
    let (value, rest) ← read (skipGap rest)
    match skipGap rest with
    | ',' :: rest => do
      let (fields, rest) ← fields? read rounds rest
      some ((String.ofList key, value) :: fields, rest)
    | '\x7d' :: rest => some ([(String.ofList key, value)], rest)
    | _ => none

/-- A container off the front of a text, behind its opening bracket. -/
def container? (read : Reader) (opener : Char) (cs : List Char) : Option (Json × List Char) :=
  match opener, skipGap cs with
  | '[', ']' :: rest => some (.array [], rest)
  | '[', cs => (items? read (cs.length + 1) cs).map fun (items, rest) => (.array items, rest)
  | _, '\x7d' :: rest => some (.object [], rest)
  | _, cs => (fields? read (cs.length + 1) cs).map fun (fields, rest) => (.object fields, rest)

/-- A document off the front of a text, with at most `levels` containers inside one another. -/
def value? (levels : Nat) (cs : List Char) : Option (Json × List Char) :=
  match cs with
  | 'n' :: 'u' :: 'l' :: 'l' :: rest => some (.null, rest)
  | 't' :: 'r' :: 'u' :: 'e' :: rest => some (.truth true, rest)
  | 'f' :: 'a' :: 'l' :: 's' :: 'e' :: rest => some (.truth false, rest)
  | '"' :: rest => (string? rest).map fun (s, rest) => (.text (String.ofList s), rest)
  | c :: rest =>
    if c = '[' ∨ c = '\x7b' then
      match levels with
      | 0 => none
      | levels + 1 => container? (value? levels) c rest
    else
      number? (c :: rest)
  | [] => none

end Read

/-- How many containers may stand inside one another. -/
def maxDepth : Nat := 127

/-- The document that a text is. Only a gap may follow it. -/
def ofText? (text : String) : Option Json := do
  let (document, rest) ← Read.value? maxDepth (Read.skipGap text.toList)
  if Read.skipGap rest = [] then some document else none

end Json

end Scriptlet
