import Scriptlet.Fault
import Scriptlet.Text.Blank
import Scriptlet.Token

/-!
# Scanning

A statement is scanned from left to right. What a character begins depends on
a little of what surrounds it: a point is a decimal point only before a digit
and not behind an operand, and an operator only between an operand and a name;
a name is a function before an opening bracket, a text constant right behind a
point, and a variable otherwise. `Scanner` holds exactly that much of the past.
A closing bracket has to match the innermost open one. `Lexer` keeps the places
of the open brackets, and looks at the text again for the shape of the innermost.

Scanning stops at the first fault, but the tokens in front of it are kept.
Whoever reads them meets their own faults first, so a statement is blamed for
what is wrong with it earliest.

## Main definitions

* `Scanner`: Where scanning stands.
* `Scanner.lexeme`: The token that begins with a given character.
* `Scanner.next`: One step of scanning.
* `Lexer`: Scanning as it runs through a text.
* `Scan`: The tokens of a statement and how scanning ended.
* `Scan.ofText`: The scan of a statement.
* `tokenize`: The tokens of a statement without a lexical fault.

## Theorems

* `Scanner.length_rest_lt_of_next`: Every token takes characters off the text.
-/

namespace Scriptlet

/-- The characters that only separate tokens. -/
def isLayout (c : Char) : Bool :=
  c == ' ' || c == '\n' || c == '\r' || c == '\t'

/-- Where scanning stands: the characters to come, the offset of the first of them, the character
    in front of it, the open brackets with the innermost first, and whether the last token ended an
    operand. -/
structure Scanner where
  rest : List Char
  position : Nat
  before : Option Char
  brackets : List Bracket
  afterOperand : Bool

namespace Scanner

/-- The scanner at the start of a text. -/
def start (text : List Char) : Scanner where
  rest := text
  position := 0
  before := none
  brackets := []
  afterOperand := false

/-- What a name is, by the character in front of it and the characters behind it. -/
def nameKind (before : Option Char) (name : String) (behind : List Char) : TokenKind :=
  if (behind.dropWhile isLayout).head? = some '(' then .function name
  else if before = some '.' then .constant (.text name)
  else if name = "true" then .constant (.truth true)
  else if name = "false" then .constant (.truth false)
  else .name name

/-- The digits before and behind the decimal point of the number that a text begins with. Behind an
    operand there is no decimal point, and a point without a digit behind it is none. -/
def numeral (afterOperand : Bool) (cs : List Char) : List Char × List Char :=
  let whole := cs.takeWhile Char.isDigit
  match cs.dropWhile Char.isDigit with
  | '.' :: d :: more =>
    if !afterOperand && d.isDigit then (whole, d :: more.takeWhile Char.isDigit) else (whole, [])
  | _ => (whole, [])

/-- The value of a number with the given digits before and behind its point. -/
def numeralValue (whole fraction : List Char) : Float :=
  Decimal.toNumber ⟨false, Decimal.ofDigits (whole ++ fraction), -(fraction.length : Int)⟩

/-- The number of characters of a number with the given digits before and behind its point. -/
def numeralLength (whole fraction : List Char) : Nat :=
  whole.length + (if fraction = [] then 0 else fraction.length + 1)

/-- The operators written with two characters. -/
def doubled? : Char → Option Char → Option Operator
  | '>', some '=' => some .atLeast
  | '<', some '=' => some .atMost
  | '!', some '=' => some .unequal
  | '=', some '=' => some .equal
  | '+', some '=' => some .addAssign
  | '-', some '=' => some .subtractAssign
  | '+', some '+' => some .increment
  | '-', some '-' => some .decrement
  | _, _ => none

/-- Whether a point joins an operand to a name: something other than a blank stands right in front
    of it and a letter right behind it. -/
def joinsMember (before next : Option Char) : Bool :=
  before.any (fun c => !Text.isBlank c) && next.any Char.isAlpha

/-- The operators written with one character. -/
def single? (before next : Option Char) : Char → Option Operator
  | '.' => if joinsMember before next then some .dot else none
  | '!' => some .not
  | '*' => some .multiply
  | '/' => some .divide
  | '%' => some .remainder
  | '+' => some .add
  | '-' => some .subtract
  | '>' => some .greater
  | '<' => some .less
  | '&' => some .and
  | '|' => some .or
  | '=' => some .assign
  | ';' => some .sequence
  | _ => none

/-- The punctuation that a character is. -/
def punctuation? : Char → Option TokenKind
  | ',' => some .comma
  | '(' => some (.opening .round)
  | '[' => some (.opening .square)
  | ')' => some (.closing .round)
  | ']' => some (.closing .square)
  | _ => none

/-- Whether the open brackets allow a piece of punctuation: a closing bracket has to match the
    innermost open one. -/
def allows (brackets : List Bracket) : TokenKind → Bool
  | .closing b => brackets.head? = some b
  | _ => true

/-- The open brackets behind a token. -/
def bracketsBehind (brackets : List Bracket) : TokenKind → List Bracket
  | .opening b => b :: brackets
  | .closing _ => brackets.tail
  | _ => brackets

/-- Whether a number begins with the character `c` in front of `cs`. -/
def beginsNumber (afterOperand : Bool) (c : Char) (cs : List Char) : Bool :=
  c.isDigit || (c == '.' && !afterOperand && cs.head?.any Char.isDigit)

/-- The token that begins with the character `c` in front of `cs`, and how many characters of `cs`
    belong to it. -/
def lexeme (s : Scanner) (c : Char) (cs : List Char) : Except Fault (TokenKind × Nat) :=
  if c.isAlpha then
    let more := cs.takeWhile Char.isAlphanum
    .ok (nameKind s.before (String.ofList (c :: more)) (cs.drop more.length), more.length)
  else if beginsNumber s.afterOperand c cs then
    let (whole, fraction) := numeral s.afterOperand (c :: cs)
    .ok (.constant (.number (numeralValue whole fraction)), numeralLength whole fraction - 1)
  else if c = '"' then
    let text := cs.takeWhile (· ≠ '"')
    if text.length < cs.length then
      .ok (.constant (.text (String.ofList text)), text.length + 1)
    else
      .error ⟨.lexical, .unterminatedText, s.position⟩
  else
    match punctuation? c with
    | some kind =>
      if allows s.brackets kind then .ok (kind, 0)
      else .error ⟨.lexical, .strayCharacter, s.position⟩
    | none =>
      match doubled? c cs.head? with
      | some op => .ok (.operator op, 1)
      | none =>
        match single? s.before cs.head? c with
        | some op => .ok (.operator op, 0)
        | none => .error ⟨.lexical, .strayCharacter, s.position⟩

/-- The scanner past the layout in front of the next token. -/
def skipLayout (s : Scanner) : Scanner :=
  let gap := s.rest.takeWhile isLayout
  { s with
    rest := s.rest.dropWhile isLayout
    position := s.position + gap.length
    before := gap.getLast?.or s.before }

/-- The scanner behind a token that takes the character `c` and `more` characters of `cs`. -/
def advance (s : Scanner) (kind : TokenKind) (c : Char) (cs : List Char) (more : Nat) :
    Scanner where
  rest := cs.drop more
  position := s.position + 1 + more
  before := (c :: cs.take more).getLast?
  brackets := bracketsBehind s.brackets kind
  afterOperand := kind.isOperandEnd

/-- A step of scanning: the end of the text, a fault, or a token and where scanning goes on. -/
inductive Step where
  | done (stop : Nat)
  | fault (error : Fault) (depth : Nat)
  | token (t : Token) (next : Scanner)

/-- The offset at which scanning goes on behind a token that begins with `c`. Names take the layout
    behind them along, which was looked through for an opening bracket. -/
def stopBehind (c : Char) (behind : Scanner) : Nat :=
  if c.isAlpha then behind.skipLayout.position else behind.position

/-- The number of brackets open behind a character that begins no token. A closing bracket that
    does not match counts as closed. -/
def depthAtFault (s : Scanner) (c : Char) : Nat :=
  match punctuation? c with
  | some kind => (bracketsBehind s.brackets kind).length
  | none => s.brackets.length

/-- Scans the token that begins right here. -/
def nextHere (s : Scanner) : Step :=
  match s.rest with
  | [] => .done s.position
  | c :: cs =>
    match s.lexeme c cs with
    | .error e => .fault e (s.depthAtFault c)
    | .ok (kind, more) =>
      let behind := s.advance kind c cs more
      .token ⟨kind, s.position, stopBehind c behind, s.brackets.length⟩ behind

/-- Scans one token, past the layout in front of it. -/
def next (s : Scanner) : Step :=
  s.skipLayout.nextHere

theorem length_rest_lt_of_nextHere {s s' : Scanner} {t : Token} (h : s.nextHere = .token t s') :
    s'.rest.length < s.rest.length := by
  unfold nextHere at h
  split at h
  · simp at h
  · next c cs hrest =>
    split at h
    · simp at h
    · next kind more _ =>
      simp only [Step.token.injEq] at h
      rw [← h.2, hrest]
      simp only [advance, List.length_drop, List.length_cons]
      omega

theorem length_rest_lt_of_next {s s' : Scanner} {t : Token} (h : s.next = .token t s') :
    s'.rest.length < s.rest.length :=
  Nat.lt_of_lt_of_le (length_rest_lt_of_nextHere h) (List.dropWhile_sublist isLayout).length_le

end Scanner

/-- Scanning as it runs through a text. The open brackets are known by their places alone, with the
    innermost first. The scanner knows of the innermost one only, whose shape was read off the text
    again. -/
structure Lexer where
  text : Array Char
  opened : List Nat
  scanner : Scanner

namespace Lexer

/-- The lexer at the start of a text. -/
def start (text : List Char) : Lexer where
  text := text.toArray
  opened := []
  scanner := .start text

/-- The shape of the bracket that opens at a place of a text. -/
def shape? (text : Array Char) (place : Nat) : Option Bracket :=
  text[place]?.bind Bracket.ofOpener?

/-- The places of the open brackets behind a token. -/
def openedBehind (opened : List Nat) (t : Token) : List Nat :=
  match t.kind with
  | .opening _ => t.position :: opened
  | .closing _ => opened.tail
  | _ => opened

/-- The number of open brackets around the innermost one. -/
def around (l : Lexer) : Nat :=
  l.opened.tail.length

/-- The lexer behind a token, where the scanner stands at `s`. -/
def behind (l : Lexer) (t : Token) (s : Scanner) : Lexer :=
  let opened := openedBehind l.opened t
  { l with
    opened := opened
    scanner := { s with brackets := (opened.head?.bind (shape? l.text)).toList } }

end Lexer

/-- How scanning ended: at the end of the text, or at a fault. Either way some brackets may still be
    open. -/
inductive Ending where
  | complete (stop : Nat) (depth : Nat)
  | broken (error : Fault) (depth : Nat)
deriving DecidableEq

/-- The tokens of a text up to its end or its first lexical fault. -/
structure Scan where
  tokens : List Token
  ending : Ending
deriving DecidableEq

namespace Scan

/-- The scan of what is left. -/
def ofLexer (l : Lexer) : Scan :=
  match h : l.scanner.next with
  | .done stop => ⟨[], .complete stop l.opened.length⟩
  | .fault e depth => ⟨[], .broken e (depth + l.around)⟩
  | .token t s =>
    have := Scanner.length_rest_lt_of_next h
    let more := ofLexer (l.behind t s)
    ⟨{ t with depth := t.depth + l.around } :: more.tokens, more.ending⟩
termination_by l.scanner.rest.length

/-- The scan of a text. -/
def ofText (text : List Char) : Scan :=
  ofLexer (.start text)

end Scan

/-- The tokens of a text, or its first lexical fault. -/
def tokenize (text : List Char) : Except Fault (List Token) :=
  let scan := Scan.ofText text
  match scan.ending with
  | .complete _ _ => .ok scan.tokens
  | .broken e _ => .error e

end Scriptlet
