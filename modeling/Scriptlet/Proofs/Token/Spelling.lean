import Scriptlet.Proofs.Number.Numeral
import Scriptlet.Proofs.Token.Lexer

/-!
# Spelling Tokens

Which tokens a piece of text is scanned to. Scanning a piece is not a function
of the piece: a name runs on into whatever letters follow it and is a function
in front of a bracket, and a point is one thing behind a name and another behind
an operator. So the statements here are about scanners, with the characters to
come behind the piece still in them, and pieces are put together by running
from one scanner to the next.

Of the past a scanner keeps very little, and less than that matters. At the
start of an operand a number may begin and a name is no member (`Ahead`);
behind one a point may stand (`Behind`). Every token leads from one of these to
one of these.

## Main definitions

* `Steps`: From one scanner to another, past tokens of the given kinds.
* `Ahead`: Scanners at the start of an operand.
* `Behind`: Scanners behind an operand.
* `EndsWord`: What ends a word in front of it and does not make it a function.
* `Follows`: What ends a constant or a name in front of it.

## Theorems

* `run_of_steps`: What is stepped past is scanned.
* `ofText_of_steps`: A text that is stepped past to its end has those tokens.
* `steps_of_lexeme`: A step past one token.
* `steps_opening`, `steps_closing`, `steps_comma`: Punctuation.
* `steps_name`, `steps_member`, `steps_function`: Names, by what is around them.
* `steps_truth`, `steps_text`, `steps_number`: Constants.
* `steps_suffix`, `steps_not`, `steps_operator`, `steps_dot`: Operators.
-/

namespace Scriptlet

namespace Scanner

/-- The scanner past one character of layout. -/
def pass (s : Scanner) (c : Char) (cs : List Char) : Scanner :=
  { s with rest := cs, position := s.position + 1, before := some c }

/-- From one scanner to another, past tokens of the given kinds. -/
inductive Steps : Scanner → List TokenKind → Scanner → Prop where
  | refl (s : Scanner) : Steps s [] s
  | skip {s s' : Scanner} {c : Char} {cs : List Char} {ks : List TokenKind}
      (rest : s.rest = c :: cs) (layout : isLayout c = true) (more : Steps (s.pass c cs) ks s') :
      Steps s ks s'
  | token {s s' s'' : Scanner} {t : Token} {ks : List TokenKind} (next : s.next = .token t s')
      (more : Steps s' ks s'') : Steps s (t.kind :: ks) s''

theorem Steps.append {s s' s'' : Scanner} {ks ks' : List TokenKind} (h : Steps s ks s')
    (h' : Steps s' ks' s'') : Steps s (ks ++ ks') s'' := by
  induction h with
  | refl _ => exact h'
  | skip hrest hlayout _ ih => exact .skip hrest hlayout (ih h')
  | token hnext _ ih => exact .token hnext (ih h')

theorem next_pass {s : Scanner} {c : Char} {cs : List Char} (hrest : s.rest = c :: cs)
    (hlayout : isLayout c = true) : (s.pass c cs).next = s.next := by
  have hskip : (s.pass c cs).skipLayout = s.skipLayout := by
    cases s
    simp only at hrest
    subst hrest
    simp only [skipLayout, pass, List.takeWhile_cons, List.dropWhile_cons, hlayout, if_true,
      List.getLast?_cons, List.length_cons, Scanner.mk.injEq, and_true, true_and]
    -- The character in front of the token is the last of the layout, wherever skipping begins.
    refine ⟨by omega, ?_⟩
    cases (cs.takeWhile isLayout).getLast? <;> rfl
  rw [next, next, hskip]

/-- A step past one token. -/
theorem steps_of_lexeme {s : Scanner} {c : Char} {cs : List Char} {kind : TokenKind} {more : Nat}
    (hrest : s.rest = c :: cs) (hc : isLayout c = false)
    (hlexeme : s.lexeme c cs = .ok (kind, more)) :
    Steps s [kind] (s.advance kind c cs more) := by
  have hnext : s.next = .token
      ⟨kind, s.position, stopBehind c (s.advance kind c cs more), s.brackets.length⟩
      (s.advance kind c cs more) := by
    rw [next, skipLayout_of_head hrest hc]
    simp only [nextHere, hrest, hlexeme]
  exact .token hnext (.refl _)

/-! ### The starts and ends of operands -/

/-- A scanner at the start of an operand. -/
structure Ahead (text : List Char) (brackets : List Bracket) (s : Scanner) : Prop where
  rest : s.rest = text
  brackets : s.brackets = brackets
  before : s.before ≠ some '.'
  fresh : s.afterOperand = false

/-- A scanner behind an operand. -/
structure Behind (text : List Char) (brackets : List Bracket) (s : Scanner) : Prop where
  rest : s.rest = text
  brackets : s.brackets = brackets
  before : s.before.any (fun c => !Text.isBlank c) = true

variable {s : Scanner} {brackets : List Bracket} {cs : List Char}

/-- A character that is neither a letter, nor can begin a number or a text. -/
def IsSymbol (c : Char) : Prop :=
  c.isAlpha = false ∧ c.isDigit = false ∧ c ≠ '.' ∧ c ≠ '"'

instance (c : Char) : Decidable (IsSymbol c) :=
  inferInstanceAs (Decidable (_ ∧ _))

theorem IsSymbol.beginsNumber {c : Char} (hc : IsSymbol c) (afterOperand : Bool) (cs : List Char) :
    Scanner.beginsNumber afterOperand c cs = false := by
  rcases hc with ⟨_, hdigit, hpoint, _⟩
  simp [Scanner.beginsNumber, hdigit, hpoint]

theorem lexeme_of_punctuation {c : Char} {kind : TokenKind} (hc : IsSymbol c)
    (hkind : punctuation? c = some kind) (hallows : allows s.brackets kind = true) :
    s.lexeme c cs = .ok (kind, 0) := by
  have hnumber := hc.beginsNumber s.afterOperand cs
  rcases hc with ⟨halpha, _, _, hquote⟩
  simp only [lexeme, halpha, hnumber, hquote, hkind, hallows, Bool.false_eq_true, if_false, if_true]

theorem lexeme_of_doubled {c : Char} {op : Operator} (hc : IsSymbol c)
    (hkind : punctuation? c = none) (hop : doubled? c cs.head? = some op) :
    s.lexeme c cs = .ok (.operator op, 1) := by
  have hnumber := hc.beginsNumber s.afterOperand cs
  rcases hc with ⟨halpha, _, _, hquote⟩
  simp only [lexeme, halpha, hnumber, hquote, hkind, hop, Bool.false_eq_true, if_false]

theorem lexeme_of_single {c : Char} {op : Operator} (hc : IsSymbol c)
    (hkind : punctuation? c = none) (hdoubled : doubled? c cs.head? = none)
    (hop : single? s.before cs.head? c = some op) :
    s.lexeme c cs = .ok (.operator op, 0) := by
  have hnumber := hc.beginsNumber s.afterOperand cs
  rcases hc with ⟨halpha, _, _, hquote⟩
  simp only [lexeme, halpha, hnumber, hquote, hkind, hdoubled, hop, Bool.false_eq_true, if_false]

/-! ### Punctuation -/

theorem steps_opening (bracket : Bracket) (hrest : s.rest = bracket.opener :: cs)
    (hbrackets : s.brackets = brackets) :
    ∃ s', Steps s [.opening bracket] s' ∧ Ahead cs (bracket :: brackets) s' := by
  have hlexeme : s.lexeme bracket.opener cs = .ok (.opening bracket, 0) := by
    cases bracket <;> exact lexeme_of_punctuation (by decide) rfl rfl
  have hlayout : isLayout bracket.opener = false := by cases bracket <;> decide
  subst hbrackets
  refine ⟨_, steps_of_lexeme hrest hlayout hlexeme, rfl, rfl, ?_, rfl⟩
  cases bracket <;> simp [advance, Bracket.opener]

theorem steps_closing (bracket : Bracket) (hrest : s.rest = bracket.closer :: cs)
    (hbrackets : s.brackets = bracket :: brackets) :
    ∃ s', Steps s [.closing bracket] s' ∧ Behind cs brackets s' := by
  have hallows : allows s.brackets (.closing bracket) = true := by simp [allows, hbrackets]
  have hlexeme : s.lexeme bracket.closer cs = .ok (.closing bracket, 0) := by
    cases bracket <;> exact lexeme_of_punctuation (by decide) rfl hallows
  have hlayout : isLayout bracket.closer = false := by cases bracket <;> decide
  refine ⟨_, steps_of_lexeme hrest hlayout hlexeme, rfl, ?_, ?_⟩
  · simp [advance, bracketsBehind, hbrackets]
  · cases bracket <;> rfl

/-- A comma with the blank behind it. -/
theorem steps_comma (hrest : s.rest = ',' :: ' ' :: cs) (hbrackets : s.brackets = brackets) :
    ∃ s', Steps s [.comma] s' ∧ Ahead cs brackets s' := by
  have hlexeme : s.lexeme ',' (' ' :: cs) = .ok (.comma, 0) :=
    lexeme_of_punctuation (by decide) rfl rfl
  -- The blank does not matter to the scanner but for being no point.
  have hblank := Steps.skip (s := s.advance .comma ',' (' ' :: cs) 0) rfl rfl (.refl _)
  refine ⟨_, (steps_of_lexeme hrest (by decide) hlexeme).append hblank, rfl, hbrackets, ?_, rfl⟩
  simp [pass]

/-! ### Words -/

/-- The last of characters that are not blank is not blank. -/
theorem any_getLast? {p : Char → Bool} {word : List Char} (hword : word.all p = true)
    (hne : word ≠ []) : word.getLast?.any p = true := by
  rw [List.getLast?_eq_some_getLast hne, Option.any_some]
  exact List.all_eq_true.mp hword _ (List.getLast_mem hne)

theorem isDigit_of_isAlpha {c : Char} (hc : c.isAlpha = true) : c.isDigit = false := by
  delta Char.isAlpha Char.isUpper Char.isLower at hc
  simp only [Bool.or_eq_true, Bool.and_eq_true, decide_eq_true_eq, ge_iff_le,
    UInt32.le_iff_toNat_le] at hc
  simp only [Char.isDigit, Bool.and_eq_false_iff, decide_eq_false_iff_not, ge_iff_le,
    UInt32.le_iff_toNat_le]
  simp at hc ⊢
  omega

/-- A name, up to where it ends. What it is depends on what is around it. -/
theorem steps_word {name : String} (hname : isIdentifier name = true)
    (hrest : s.rest = name.toList ++ cs) (hends : cs.head?.any Char.isAlphanum = false)
    (hbrackets : s.brackets = brackets) :
    ∃ s', Steps s [nameKind s.before name cs] s' ∧ Behind cs brackets s' := by
  rcases toList_of_isIdentifier hname with ⟨c, word, hword, hc, hall⟩
  have hofList : String.ofList (c :: word) = name := by rw [← hword, String.ofList_toList]
  have htake := Text.takeWhile_word hall hends
  have hlexeme : s.lexeme c (word ++ cs) = .ok (nameKind s.before name cs, word.length) := by
    simp only [lexeme, hc, if_true, htake, hofList, List.drop_left]
  rw [hword, List.cons_append] at hrest
  refine ⟨_, steps_of_lexeme hrest (isLayout_of_isAlpha hc) hlexeme, by simp [advance], ?_, ?_⟩
  · -- Whatever a name is, it is no bracket.
    rcases nameKind_cases s.before name cs with ⟨hk, _⟩ | hk | ⟨_, b, hk⟩ | ⟨_, hk, _⟩ <;>
      simp [advance, hk, bracketsBehind, hbrackets]
  · -- The character in front of what follows is the last of the name.
    simp only [advance, List.take_left]
    refine any_getLast? ?_ (by simp)
    simp only [List.all_cons, Bool.and_eq_true, Bool.not_eq_true', List.all_eq_true] at hall ⊢
    refine ⟨Text.isBlank_of_isAlphanum ?_, fun d hd => Text.isBlank_of_isAlphanum (hall d hd)⟩
    simp only [Char.isAlphanum, hc, Bool.true_or]

/-- What ends a word in front of it and does not make it a function. -/
def EndsWord (cs : List Char) : Prop :=
  cs.head?.any Char.isAlphanum = false ∧ (cs.dropWhile isLayout).head? ≠ some '('

theorem endsWord_nil : EndsWord [] :=
  ⟨rfl, by simp⟩

theorem endsWord_cons {c : Char} (hword : c.isAlphanum = false) (hlayout : isLayout c = false)
    (hopener : c ≠ '(') (cs : List Char) : EndsWord (c :: cs) := by
  refine ⟨by simpa using hword, ?_⟩
  simpa [List.dropWhile_cons, hlayout] using hopener

/-- A variable. -/
theorem steps_name (name : String) (h : Ahead (name.toList ++ cs) brackets s)
    (hname : isIdentifier name = true ∧ name ≠ "true" ∧ name ≠ "false") (hends : EndsWord cs) :
    ∃ s', Steps s [.name name] s' ∧ Behind cs brackets s' := by
  rcases hname with ⟨hname, htrue, hfalse⟩
  have hkind : nameKind s.before name cs = .name name := by
    simp only [nameKind, if_neg hends.2, if_neg h.before, if_neg htrue, if_neg hfalse]
  rw [← hkind]
  exact steps_word hname h.rest hends.1 h.brackets

/-- The name of a member, right behind its point. -/
theorem steps_member (name : String) (hname : isIdentifier name = true)
    (hrest : s.rest = name.toList ++ cs) (hbrackets : s.brackets = brackets)
    (hbefore : s.before = some '.') (hends : EndsWord cs) :
    ∃ s', Steps s [.constant (.text name)] s' ∧ Behind cs brackets s' := by
  have hkind : nameKind s.before name cs = .constant (.text name) := by
    simp only [nameKind, if_neg hends.2, if_pos hbefore]
  rw [← hkind]
  exact steps_word hname hrest hends.1 hbrackets

/-- The name of a function and the bracket behind it. A point in front of the
    name makes no difference. -/
theorem steps_function (name : String) (hname : isIdentifier name = true)
    (hrest : s.rest = name.toList ++ '(' :: cs) (hbrackets : s.brackets = brackets) :
    ∃ s', Steps s [.function name, .opening .round] s' ∧ Ahead cs (.round :: brackets) s' := by
  have hkind : nameKind s.before name ('(' :: cs) = .function name := by
    simp [nameKind, isLayout]
  -- The bracket ends the name, and is a token of its own behind it.
  rcases steps_word hname hrest rfl hbrackets with ⟨s₁, hsteps, hbehind⟩
  rw [hkind] at hsteps
  rcases steps_opening .round hbehind.rest hbehind.brackets with ⟨s₂, hopening, hahead⟩
  exact ⟨s₂, hsteps.append hopening, hahead⟩

/-! ### Constants -/

theorem steps_truth (b : Bool) (h : Ahead ((Literal.truthWord b).toList ++ cs) brackets s)
    (hends : EndsWord cs) :
    ∃ s', Steps s [.constant (.truth b)] s' ∧ Behind cs brackets s' := by
  have hname : isIdentifier (Literal.truthWord b) = true := by cases b <;> rfl
  have hkind : nameKind s.before (Literal.truthWord b) cs = .constant (.truth b) := by
    simp only [nameKind, if_neg hends.2, if_neg h.before]
    cases b <;> rfl
  rw [← hkind]
  exact steps_word hname h.rest hends.1 h.brackets

/-- A text ends with the first quote behind its beginning. -/
theorem lexeme_of_text {text : List Char} (htext : '"' ∉ text) :
    s.lexeme '"' (text ++ '"' :: cs) =
      .ok (.constant (.text (String.ofList text)), text.length + 1) := by
  have hall : text.all (fun c => decide (c ≠ '"')) = true :=
    List.all_eq_true.mpr fun c hc => decide_eq_true fun heq => htext (heq ▸ hc)
  have htake := Text.takeWhile_word hall (show ('"' :: cs).head?.any _ = false from rfl)
  have hnumber : beginsNumber s.afterOperand '"' (text ++ '"' :: cs) = false := rfl
  have hlength : text.length < (text ++ '"' :: cs).length := by simp
  simp only [lexeme, hnumber, htake, if_pos hlength]
  rfl

theorem steps_text {text : String} (htext : '"' ∉ text.toList)
    (hrest : s.rest = '"' :: (text.toList ++ '"' :: cs)) (hbrackets : s.brackets = brackets) :
    ∃ s', Steps s [.constant (.text text)] s' ∧ Behind cs brackets s' := by
  have hlexeme : s.lexeme '"' (text.toList ++ '"' :: cs) =
      .ok (.constant (.text text), text.toList.length + 1) := by
    rw [lexeme_of_text htext, String.ofList_toList]
  refine ⟨_, steps_of_lexeme hrest (by decide) hlexeme, ?_, hbrackets, ?_⟩
  · simp [advance]
  · -- The last character of the token is its closing quote.
    have htoken : (text.toList ++ '"' :: cs).take (text.toList.length + 1) =
        text.toList ++ ['"'] := List.take_length_add_append 1
    rw [advance, htoken]
    simp only [List.getLast?_cons, List.getLast?_append, Option.some_or]
    rfl

/-- What ends a constant or a name in front of it. -/
def Follows (cs : List Char) : Prop :=
  EndsWord cs ∧ ∀ d ds, cs = '.' :: d :: ds → d.isDigit = false

theorem follows_nil : Follows [] :=
  ⟨endsWord_nil, by simp⟩

theorem follows_cons {c : Char} (hword : c.isAlphanum = false) (hlayout : isLayout c = false)
    (hc : c ≠ '(' ∧ c ≠ '.') (cs : List Char) : Follows (c :: cs) := by
  refine ⟨endsWord_cons hword hlayout hc.1 cs, ?_⟩
  intro d ds heq
  simp only [List.cons.injEq] at heq
  exact absurd heq.1 hc.2

theorem follows_closer (bracket : Bracket) (cs : List Char) : Follows (bracket.closer :: cs) := by
  cases bracket <;> exact follows_cons (by decide) (by decide) (by decide) cs

theorem numeral_of_digits {whole fraction : List Char} (hdigits : Number.Digits whole fraction)
    (hcs : Follows cs) :
    numeral false (Number.numeral whole fraction ++ cs) = (whole, fraction) := by
  have hends : cs.head?.any Char.isDigit = false := by
    have hword := hcs.1.1
    cases cs with
    | nil => rfl
    | cons c cs =>
        simp only [List.head?_cons, Option.any_some, Char.isAlphanum, Bool.or_eq_false_iff] at hword
        exact hword.2
  by_cases hnil : fraction = []
  -- Without a point of its own, a numeral could only go on with one that follows it.
  · rw [hnil, Number.numeral, if_pos rfl, List.append_nil, numeral,
      Text.takeWhile_word hdigits.whole hends, Text.dropWhile_word hdigits.whole hends]
    split
    · next d more => simp [hcs.2 d more rfl]
    · rfl
  · have hpoint : ('.' :: (fraction ++ cs)).head?.any Char.isDigit = false := rfl
    rw [Number.numeral, if_neg hnil, List.append_assoc, List.cons_append, numeral,
      Text.takeWhile_word hdigits.whole hpoint, Text.dropWhile_word hdigits.whole hpoint]
    have hfraction := hdigits.fraction
    rcases fraction with _ | ⟨d, ds⟩
    · exact absurd rfl hnil
    · simp only [List.all_cons, Bool.and_eq_true] at hfraction
      simp only [List.cons_append, hfraction.1, Bool.not_false, Bool.and_self, if_true,
        Text.takeWhile_word hfraction.2 hends]

theorem steps_number {whole fraction : List Char} (hdigits : Number.Digits whole fraction)
    (h : Ahead (Number.numeral whole fraction ++ cs) brackets s) (hcs : Follows cs) :
    ∃ s', Steps s [.constant (.number (numeralValue whole fraction))] s' ∧
      Behind cs brackets s' := by
  rcases hdigits.cons_eq with ⟨d, ds, hd, hwhole⟩
  -- The numeral begins with a digit, which is what the scanner goes by.
  obtain ⟨more, hmore⟩ : ∃ more, Number.numeral whole fraction = d :: more := by
    rw [Number.numeral, hwhole]
    exact ⟨_, rfl⟩
  have hlength : numeralLength whole fraction - 1 = more.length := by
    have hcount : (Number.numeral whole fraction).length = numeralLength whole fraction := by
      rw [Number.numeral, numeralLength, List.length_append]
      split <;> rfl
    rw [← hcount, hmore]
    rfl
  have halpha : d.isAlpha = false := by
    refine Bool.eq_false_iff.mpr fun halpha => ?_
    rw [isDigit_of_isAlpha halpha] at hd
    simp at hd
  have hlexeme : s.lexeme d (more ++ cs) =
      .ok (.constant (.number (numeralValue whole fraction)), more.length) := by
    have hnumber : beginsNumber false d (more ++ cs) = true := by
      rw [beginsNumber, hd, Bool.true_or]
    simp only [lexeme, halpha, h.fresh, hnumber, Bool.false_eq_true, if_false, if_true]
    rw [← List.cons_append, ← hmore, numeral_of_digits hdigits hcs, ← hlength]
  have hrest := h.rest
  rw [hmore, List.cons_append] at hrest
  have hlayout : isLayout d = false := by
    refine Bool.eq_false_iff.mpr fun hlayout => ?_
    simp only [isLayout, Bool.or_eq_true, beq_iff_eq] at hlayout
    rcases hlayout with ((rfl | rfl) | rfl) | rfl <;> exact absurd hd (by decide)
  refine ⟨_, steps_of_lexeme hrest hlayout hlexeme, by simp [advance], h.brackets, ?_⟩
  -- No character of a numeral is blank, so neither is the last.
  rw [advance, List.take_left, ← hmore]
  exact any_getLast? (Number.all_not_isBlank_numeral hdigits) (by simp [hmore])

/-! ### Operators -/

/-- An operator behind its operand. -/
theorem steps_suffix {op : Operator} (hop : op = .increment ∨ op = .decrement)
    (hrest : s.rest = op.symbol.toList ++ cs) (hbrackets : s.brackets = brackets) :
    ∃ s', Steps s [.operator op] s' ∧ Behind cs brackets s' := by
  rcases hop with rfl | rfl
  · have hlexeme : s.lexeme '+' ('+' :: cs) = .ok (.operator .increment, 1) :=
      lexeme_of_doubled (by decide) rfl rfl
    exact ⟨_, steps_of_lexeme hrest (by decide) hlexeme, rfl, hbrackets, rfl⟩
  · have hlexeme : s.lexeme '-' ('-' :: cs) = .ok (.operator .decrement, 1) :=
      lexeme_of_doubled (by decide) rfl rfl
    exact ⟨_, steps_of_lexeme hrest (by decide) hlexeme, rfl, hbrackets, rfl⟩

/-- An operator in front of its operand. An equals sign behind it would make it
    another operator. -/
theorem steps_not (hrest : s.rest = '!' :: cs) (hbrackets : s.brackets = brackets)
    (hhead : cs.head? ≠ some '=') :
    ∃ s', Steps s [.operator .not] s' ∧ Ahead cs brackets s' := by
  have hdoubled : doubled? '!' cs.head? = none := by
    unfold doubled?
    split <;> simp_all
  have hlexeme : s.lexeme '!' cs = .ok (.operator .not, 0) :=
    lexeme_of_single (by decide) rfl hdoubled rfl
  exact ⟨_, steps_of_lexeme hrest (by decide) hlexeme, rfl, hbrackets, by simp [advance], rfl⟩

/-- Between blanks a symbol is the operator that it writes. -/
theorem lexeme_of_symbol {op : Operator} (hsuffix : op ≠ .increment ∧ op ≠ .decrement)
    (hmember : op.isMember = false) (s : Scanner) (cs : List Char) :
    ∃ c ds, op.symbol.toList = c :: ds ∧ isLayout c = false ∧ c ≠ '(' ∧
      s.lexeme c (ds ++ ' ' :: cs) = .ok (.operator op, ds.length) := by
  cases op with
  | dot | index => simp [Operator.isMember] at hmember
  | increment | decrement => simp at hsuffix
  | atLeast | atMost | equal | unequal | addAssign | subtractAssign =>
      exact ⟨_, [_], rfl, by decide, by decide, lexeme_of_doubled (by decide) rfl rfl⟩
  | _ => exact ⟨_, [], rfl, by decide, by decide, lexeme_of_single (by decide) rfl rfl rfl⟩

/-- An operator between its operands, with the blanks around it. -/
theorem steps_operator {op : Operator} (hsuffix : op ≠ .increment ∧ op ≠ .decrement)
    (hmember : op.isMember = false) (hrest : s.rest = ' ' :: (op.symbol.toList ++ ' ' :: cs))
    (hbrackets : s.brackets = brackets) :
    ∃ s', Steps s [.operator op] s' ∧ Ahead cs brackets s' := by
  rcases lexeme_of_symbol hsuffix hmember (s.pass ' ' (op.symbol.toList ++ ' ' :: cs)) cs with
    ⟨c, ds, hsymbol, hc, _, hlexeme⟩
  rw [hsymbol, List.cons_append] at hrest hlexeme
  -- One blank in front of the symbol and one behind it are skipped.
  have hop := Steps.skip hrest (by decide) (steps_of_lexeme rfl hc hlexeme)
  have hbehind : ∀ s' : Scanner, s'.rest = ' ' :: cs → Steps s' [] (s'.pass ' ' cs) :=
    fun s' hs' => .skip hs' (by decide) (.refl _)
  refine ⟨_, hop.append (hbehind _ (by simp [advance])), rfl, hbrackets, by simp [pass], rfl⟩

theorem follows_operator {op : Operator} (hsuffix : op ≠ .increment ∧ op ≠ .decrement)
    (hmember : op.isMember = false) (cs : List Char) :
    Follows (' ' :: (op.symbol.toList ++ ' ' :: cs)) := by
  rcases lexeme_of_symbol hsuffix hmember (.start []) cs with ⟨c, ds, hsymbol, hc, hopener, _⟩
  refine ⟨⟨rfl, ?_⟩, by simp⟩
  have hblank : isLayout ' ' = true := rfl
  rw [hsymbol, List.dropWhile_cons_of_pos hblank, List.cons_append,
    List.dropWhile_cons_of_neg (by simp [hc])]
  simpa using hopener

theorem follows_suffix {op : Operator} (hop : op = .increment ∨ op = .decrement)
    (cs : List Char) : Follows (op.symbol.toList ++ cs) := by
  rcases hop with rfl | rfl <;> exact follows_cons (by decide) (by decide) (by decide) _

theorem follows_dot {c : Char} (hc : c.isAlpha = true) (cs : List Char) :
    Follows ('.' :: c :: cs) := by
  refine ⟨endsWord_cons (by decide) (by decide) (by decide) _, ?_⟩
  intro d ds heq
  simp only [List.cons.injEq, true_and] at heq
  rw [← heq.1]
  exact isDigit_of_isAlpha hc

/-- A point between an operand and a name. -/
theorem steps_dot {c : Char} (h : Behind ('.' :: c :: cs) brackets s) (hc : c.isAlpha = true) :
    ∃ s', Steps s [.operator .dot] s' ∧ s'.rest = c :: cs ∧ s'.brackets = brackets ∧
      s'.before = some '.' := by
  have hdigit : c.isDigit = false := isDigit_of_isAlpha hc
  have hlexeme : s.lexeme '.' (c :: cs) = .ok (.operator .dot, 0) := by
    -- With a letter behind it the point begins no number, even where one could begin.
    have hnumber : beginsNumber s.afterOperand '.' (c :: cs) = false := by
      simp [beginsNumber, hdigit]
    have hjoins : joinsMember s.before (some c) = true := by
      rw [joinsMember, h.before, Option.any_some, hc, Bool.and_self]
    have hsingle : single? s.before (some c) '.' = some .dot := by
      simp only [single?, hjoins, if_true]
    have hdoubled : doubled? '.' (some c) = none := rfl
    simp only [lexeme, hnumber, List.head?_cons, hdoubled, hsingle, punctuation?,
      Bool.false_eq_true, if_false]
    rfl
  exact ⟨_, steps_of_lexeme h.rest (by decide) hlexeme, rfl, h.brackets, rfl⟩

end Scanner

namespace Scan

open Scanner

theorem run_pass {s : Scanner} {c : Char} {cs : List Char} (hrest : s.rest = c :: cs)
    (hlayout : isLayout c = true) : run (s.pass c cs) = run s := by
  have hnext := next_pass hrest hlayout
  cases hs : s.next with
  | done stop =>
      rw [run_of_done hs, run_of_done (hnext.trans hs)]
      rfl
  | fault e depth =>
      rw [run_of_fault hs, run_of_fault (hnext.trans hs)]
  | token t s' =>
      rw [run_of_token hs, run_of_token (hnext.trans hs)]

/-- What is stepped past is scanned. -/
theorem run_of_steps {s s' : Scanner} {ks : List TokenKind} (h : Steps s ks s') :
    ∃ ts, kinds ts = ks ∧ run s = ⟨ts ++ (run s').tokens, (run s').ending⟩ := by
  induction h with
  | refl s => exact ⟨[], rfl, rfl⟩
  | skip hrest hlayout _ ih =>
      -- Layout is skipped by the next step anyway.
      rcases ih with ⟨ts, hts, hrun⟩
      exact ⟨ts, hts, by rw [← run_pass hrest hlayout, hrun]⟩
  | @token s s' s'' t ks hnext _ ih =>
      rcases ih with ⟨ts, hts, hrun⟩
      refine ⟨t :: ts, by rw [kinds_cons, hts], ?_⟩
      rw [run_of_token hnext, hrun]
      rfl

/-- A text that is stepped past to its end has those tokens. -/
theorem ofText_of_steps {text : List Char} {s : Scanner} {ks : List TokenKind}
    (h : Steps (.start text) ks s) (hrest : s.rest = []) :
    ∃ ts stop depth, kinds ts = ks ∧ ofText text = ⟨ts, .complete stop depth⟩ := by
  rcases run_of_steps h with ⟨ts, hts, hrun⟩
  have hdone : s.next = .done s.skipLayout.position := by
    simp only [next, nextHere, skipLayout, hrest, List.dropWhile_nil]
  rw [run_of_done hdone] at hrun
  exact ⟨ts, _, _, hts, by rw [ofText_eq_run, hrun, List.append_nil]⟩

end Scan

end Scriptlet
