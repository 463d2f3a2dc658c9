import Scriptlet.Proofs.Number.Numeral
import Scriptlet.Proofs.Token.Extent

/-!
# The Cover of a Text

A text that has tokens consists of them and of layout, and of nothing else. Each
token takes a piece of the text, from its place on, and the piece spells the
token. The pieces stand one behind the other without sharing a character, and
what is not in a piece is layout.

What spells a token is said without a look at scanning (`Spells`). Most tokens
are spelled in one way wherever they stand. The exception is the name of a
member, which is a text without quotes, and which is one only right behind a
point. So the character in front of a piece belongs to the statement.

The places where scanning goes on are no help here. Behind a name it goes on
behind the layout that follows, which was looked through for a bracket. The end
of a piece is therefore stated for the cover, as the second component of a span,
and not taken from the token.

## Main definitions

* `Spells`: What the characters of a token are.
* `Covers`: Spans that make up a text from some offset on, but for layout.

## Theorems

* `spells_of_lexeme`: The characters that a token takes spell it.
* `covers_cons`: A token in front of what is covered.
* `covers_run`: A complete scan covers what it reads.
* `tokenize_covers_text`: The tokens of a text cover it.
-/

namespace Scriptlet

/-- The characters that spell a token of some kind, given the character in front
    of them. -/
inductive Spells : (before : Option Char) → List Char → TokenKind → Prop where
  /-- Digits with at most one point among them, and the number that they mean. -/
  | number {before : Option Char} {whole fraction : List Char}
      (some_digit : whole ≠ [] ∨ fraction ≠ []) (whole_digits : whole.all Char.isDigit = true)
      (fraction_digits : fraction.all Char.isDigit = true) :
      Spells before (Number.numeral whole fraction)
        (.constant (.number (Number.ofText (String.ofList (Number.numeral whole fraction)))))
  /-- A text between quotes. -/
  | text {before : Option Char} {text : List Char} (unquoted : '"' ∉ text) :
      Spells before ('"' :: (text ++ ['"'])) (.constant (.text (String.ofList text)))
  /-- The name of a member, right behind a point. -/
  | member {name : String} (identifier : isIdentifier name = true) :
      Spells (some '.') name.toList (.constant (.text name))
  | truth {before : Option Char} (value : Bool) :
      Spells before (Literal.truthWord value).toList (.constant (.truth value))
  | name {before : Option Char} {name : String} (identifier : isIdentifier name = true) :
      Spells before name.toList (.name name)
  | function {before : Option Char} {name : String} (identifier : isIdentifier name = true) :
      Spells before name.toList (.function name)
  | operator {before : Option Char} (op : Operator) :
      Spells before op.symbol.toList (.operator op)
  | comma {before : Option Char} : Spells before [','] .comma
  | opening {before : Option Char} (bracket : Bracket) :
      Spells before [bracket.opener] (.opening bracket)
  | closing {before : Option Char} (bracket : Bracket) :
      Spells before [bracket.closer] (.closing bracket)

namespace Number

/-- A numeral may begin with its point. -/
theorem ofText_point {fraction : List Char} (hne : fraction ≠ [])
    (hdigits : fraction.all Char.isDigit = true) :
    ofText (String.ofList ('.' :: fraction)) = Scanner.numeralValue [] fraction := by
  have hnone : ([] : List Char).head?.any Char.isDigit = false := rfl
  have htake := Text.takeWhile_word hdigits hnone
  have hdrop := Text.dropWhile_word hdigits hnone
  rw [List.append_nil] at htake hdrop
  have htrim : Text.trim ('.' :: fraction) = '.' :: fraction := by
    refine Text.trim_of_all ?_
    have hpoint : (!Text.isBlank '.') = true := rfl
    rw [List.all_cons, hpoint, Bool.true_and]
    refine List.all_eq_true.mpr fun c hc => ?_
    have hdigit := List.all_eq_true.mp hdigits c hc
    rw [Text.isBlank_of_isAlphanum (by simp [Char.isAlphanum, hdigit])]
    rfl
  have hsign : Decimal.takeSign ('.' :: fraction) = (false, '.' :: fraction) := rfl
  have hwhole : ('.' :: fraction).takeWhile Char.isDigit = [] := rfl
  have hrest : ('.' :: fraction).dropWhile Char.isDigit = '.' :: fraction := rfl
  have hread : Decimal.read? ('.' :: fraction) =
      some ⟨false, Decimal.ofDigits fraction, -(fraction.length : Int)⟩ := by
    simp only [Decimal.read?, hsign, hwhole, hrest, Decimal.takeFraction, htake, hdrop, hne,
      and_false, if_false, Decimal.readExponent?, Option.map_some, Int.zero_sub, List.nil_append]
  simp only [ofText, String.toList_ofList, htrim, hread]
  -- The words for infinity do not begin with a point.
  rw [if_neg (by simp), if_neg (by simp), if_neg (by simp)]
  rfl

end Number

namespace Scanner

/-! ### The characters of a token -/

theorem spells_nameKind {name : String} (hname : isIdentifier name = true)
    (before : Option Char) (behind : List Char) :
    Spells before name.toList (nameKind before name behind) := by
  unfold nameKind
  by_cases hopener : (behind.dropWhile isLayout).head? = some '('
  · rw [if_pos hopener]
    exact .function hname
  rw [if_neg hopener]
  by_cases hbefore : before = some '.'
  · rw [if_pos hbefore, hbefore]
    exact .member hname
  rw [if_neg hbefore]
  by_cases htrue : name = "true"
  · rw [if_pos htrue, htrue]
    exact .truth true
  rw [if_neg htrue]
  by_cases hfalse : name = "false"
  · rw [if_pos hfalse, hfalse]
    exact .truth false
  rw [if_neg hfalse]
  exact .name hname

/-- A number begins with a digit, or with a point that has a digit behind it. -/
theorem digits_of_beginsNumber {afterOperand : Bool} {c : Char} {cs whole fraction : List Char}
    (hnumber : beginsNumber afterOperand c cs = true)
    (h : numeral afterOperand (c :: cs) = (whole, fraction)) :
    whole ≠ [] ∨ whole = [] ∧ fraction ≠ [] := by
  by_cases hc : c.isDigit = true
  · left
    rw [(take_numeral h).1, List.takeWhile_cons_of_pos hc]
    simp
  · right
    rw [beginsNumber, Bool.eq_false_iff.mpr hc, Bool.false_or] at hnumber
    simp only [Bool.and_eq_true, beq_iff_eq, Bool.not_eq_true'] at hnumber
    rcases hnumber with ⟨⟨rfl, hoperand⟩, hdigit⟩
    rcases cs with _ | ⟨d, ds⟩
    · simp at hdigit
    · simp only [List.head?_cons, Option.any_some] at hdigit
      have hpoint : numeral afterOperand ('.' :: d :: ds) =
          ([], d :: ds.takeWhile Char.isDigit) := by
        simp [numeral, hoperand, hdigit]
      rw [hpoint] at h
      simp only [Prod.mk.injEq] at h
      exact ⟨h.1.symm, by rw [← h.2]; simp⟩

/-- A number takes the characters of its numeral. -/
theorem spells_numeral {afterOperand : Bool} {c : Char} {cs whole fraction : List Char}
    (hnumber : beginsNumber afterOperand c cs = true)
    (h : numeral afterOperand (c :: cs) = (whole, fraction)) (before : Option Char) :
    Spells before (c :: cs.take (numeralLength whole fraction - 1))
      (.constant (.number (numeralValue whole fraction))) := by
  rcases take_numeral h with ⟨hwhole, hfraction, htake⟩
  have hdigits : whole.all Char.isDigit = true := by
    rw [hwhole]
    exact List.all_takeWhile
  have hsome := digits_of_beginsNumber hnumber h
  have htaken : c :: cs.take (numeralLength whole fraction - 1) =
      Number.numeral whole fraction := by
    have hlength : numeralLength whole fraction - 1 + 1 = numeralLength whole fraction := by
      have hpos : 0 < numeralLength whole fraction := by
        unfold numeralLength
        rcases hsome with hne | ⟨_, hne⟩
        · have hlength := List.length_pos_iff.mpr hne
          omega
        · rw [if_neg hne]
          omega
      omega
    rw [Number.numeral, ← htake, ← hlength, List.take_succ_cons, Nat.add_sub_cancel]
  have hvalue : numeralValue whole fraction =
      Number.ofText (String.ofList (Number.numeral whole fraction)) := by
    rcases hsome with hne | ⟨rfl, hne⟩
    · exact (Number.ofText_numeral ⟨hne, hdigits, hfraction⟩).symm
    · rw [Number.numeral, if_neg hne, List.nil_append]
      exact (Number.ofText_point hne hfraction).symm
  rw [htaken, hvalue]
  exact .number (hsome.imp_right And.right) hdigits hfraction

theorem spells_of_punctuation {c : Char} {kind : TokenKind} (h : punctuation? c = some kind)
    (before : Option Char) : Spells before [c] kind := by
  unfold punctuation? at h
  split at h <;> simp only [Option.some.injEq, reduceCtorEq] at h <;> subst h
  · exact .comma
  · exact .opening .round
  · exact .opening .square
  · exact .closing .round
  · exact .closing .square

theorem symbol_of_doubled {c : Char} {cs : List Char} {op : Operator}
    (h : doubled? c cs.head? = some op) : op.symbol.toList = c :: cs.take 1 := by
  rcases second_of_doubled h with ⟨d, ds, rfl, _⟩
  unfold doubled? at h
  split at h <;> simp_all <;> subst h <;> rfl

theorem symbol_of_single {before next : Option Char} {c : Char} {op : Operator}
    (h : single? before next c = some op) : op.symbol.toList = [c] := by
  unfold single? at h
  split at h
  · split at h <;> simp only [Option.some.injEq, reduceCtorEq] at h
    subst h
    rfl
  all_goals simp only [Option.some.injEq, reduceCtorEq] at h <;> subst h <;> rfl

/-- The characters that a token takes spell it. -/
theorem spells_of_lexeme {s : Scanner} {c : Char} {cs : List Char} {kind : TokenKind} {more : Nat}
    (h : s.lexeme c cs = .ok (kind, more)) : Spells s.before (c :: cs.take more) kind := by
  unfold lexeme at h
  -- The order is that in which the scanner tries: names, numbers, texts, punctuation, operators.
  split at h
  · next hc =>
    simp only [Except.ok.injEq, Prod.mk.injEq] at h
    rcases h with ⟨rfl, rfl⟩
    rw [take_takeWhile]
    have hspells := spells_nameKind (isIdentifier_takeWhile hc cs) s.before
      (cs.drop (cs.takeWhile Char.isAlphanum).length)
    rwa [String.toList_ofList] at hspells
  split at h
  · next hnumber =>
    rcases hnumeral : numeral s.afterOperand (c :: cs) with ⟨whole, fraction⟩
    rw [hnumeral] at h
    simp only [Except.ok.injEq, Prod.mk.injEq] at h
    rcases h with ⟨rfl, rfl⟩
    exact spells_numeral hnumber hnumeral s.before
  split at h
  · next hquote =>
    subst hquote
    simp only at h
    split at h
    · next hclosed =>
      simp only [Except.ok.injEq, Prod.mk.injEq] at h
      rcases h with ⟨rfl, rfl⟩
      rw [take_text hclosed]
      exact .text (quote_not_mem_takeWhile (by simp) cs)
    · simp at h
  split at h
  · next hpunctuation =>
    split at h
    · simp only [Except.ok.injEq, Prod.mk.injEq] at h
      rcases h with ⟨rfl, rfl⟩
      exact spells_of_punctuation hpunctuation s.before
    · simp at h
  split at h
  · next op hop =>
    simp only [Except.ok.injEq, Prod.mk.injEq] at h
    rcases h with ⟨rfl, rfl⟩
    rw [← symbol_of_doubled hop]
    exact .operator op
  split at h
  · next op hop =>
    simp only [Except.ok.injEq, Prod.mk.injEq] at h
    rcases h with ⟨rfl, rfl⟩
    rw [List.take_zero, ← symbol_of_single hop]
    exact .operator op
  · simp at h

end Scanner

/-! ### Spans -/

/-- Spans that make up a text from some offset on, but for layout. A span is a
    token and the offset behind the last of its characters. -/
structure Covers (start : Nat) (text : List Char) (spans : List (Token × Nat)) : Prop where
  /-- Every span has a character, and ends inside of the text. -/
  inside : ∀ span ∈ spans, start ≤ span.1.position ∧ span.1.position < span.2 ∧
    span.2 ≤ text.length
  /-- A span ends before the next one begins. -/
  ordered : spans.Pairwise fun span next => span.2 ≤ next.1.position
  /-- The characters of a span spell its token. -/
  spelled : ∀ span ∈ spans, Spells (text.take span.1.position).getLast?
    (text.extract span.1.position span.2) span.1.kind
  /-- The characters outside of all spans are layout. -/
  layout : ∀ place c, start ≤ place → text[place]? = some c →
    (∀ span ∈ spans, ¬ (span.1.position ≤ place ∧ place < span.2)) → isLayout c = true

/-- Nothing but layout is covered by nothing. -/
theorem covers_nil {start : Nat} {text : List Char} (hgap : (text.drop start).all isLayout = true) :
    Covers start text [] where
  inside := by simp
  ordered := List.Pairwise.nil
  spelled := by simp
  layout := by
    intro place c hplace hc _
    refine List.all_eq_true.mp hgap c (List.mem_of_getElem? (i := place - start) ?_)
    rw [List.getElem?_drop, ← hc]
    congr 1
    omega

/-- Layout and a token in front of what is covered. -/
theorem covers_cons {seen gap word rest : List Char} {t : Token} {spans : List (Token × Nat)}
    (hgap : gap.all isLayout = true) (hword : word ≠ [])
    (hposition : t.position = seen.length + gap.length)
    (hspells : Spells (seen ++ gap).getLast? word t.kind)
    (hrest : Covers (seen.length + gap.length + word.length) (seen ++ gap ++ word ++ rest) spans) :
    Covers seen.length (seen ++ gap ++ word ++ rest)
      ((t, seen.length + gap.length + word.length) :: spans) := by
  have hlength := List.length_pos_iff.mpr hword
  refine ⟨?_, ?_, ?_, ?_⟩
  · intro span hspan
    rcases List.mem_cons.mp hspan with rfl | hspan
    · simp only [List.length_append]
      omega
    · have hinside := hrest.inside span hspan
      omega
  · refine List.pairwise_cons.mpr ⟨fun span hspan => ?_, hrest.ordered⟩
    exact (hrest.inside span hspan).1
  · intro span hspan
    rcases List.mem_cons.mp hspan with rfl | hspan
    · have hfront : (seen ++ gap).length = t.position := by rw [List.length_append, hposition]
      have htake : (seen ++ gap ++ word ++ rest).take t.position = seen ++ gap := by
        rw [List.append_assoc, ← hfront, List.take_left]
      have hextract : (seen ++ gap ++ word ++ rest).extract t.position
          (seen.length + gap.length + word.length) = word := by
        rw [List.extract_eq_take_drop, List.append_assoc, ← hfront, List.drop_left,
          List.length_append, Nat.add_sub_cancel_left, List.take_left]
      rw [htake, hextract]
      exact hspells
    · exact hrest.spelled span hspan
  · intro place c hplace hc houtside
    have hhere := houtside _ (List.mem_cons_self ..)
    simp only [hposition] at hhere
    by_cases hbehind : seen.length + gap.length + word.length ≤ place
    · exact hrest.layout place c hbehind hc fun span hspan =>
        houtside span (List.mem_cons_of_mem _ hspan)
    · -- Before the end of the token, only the layout in front of it is outside.
      have hgapped : place - seen.length < gap.length := by omega
      refine List.all_eq_true.mp hgap c (List.mem_of_getElem? (i := place - seen.length) ?_)
      rw [List.append_assoc, List.append_assoc, List.getElem?_append_right hplace,
        List.getElem?_append_left hgapped] at hc
      exact hc

namespace Scan

open Scanner

/-- A complete scan covers what it reads, wherever it begins. What was read before
    gives the offset and the character in front. -/
theorem covers_run (s : Scanner) {stop depth : Nat} (h : (run s).ending = .complete stop depth) :
    ∀ seen : List Char, s.position = seen.length → s.before = seen.getLast? →
      ∃ spans, spans.map Prod.fst = (run s).tokens ∧ Covers seen.length (seen ++ s.rest) spans := by
  fun_induction run s with
  | case1 s stop' hnext =>
      intro seen _ _
      have hrest : s.rest.dropWhile isLayout = [] := (next_eq_done hnext).1
      have hall : s.rest.takeWhile isLayout = s.rest := by
        have hsplit := List.takeWhile_append_dropWhile (p := isLayout) (l := s.rest)
        rwa [hrest, List.append_nil] at hsplit
      refine ⟨[], rfl, covers_nil ?_⟩
      rw [List.drop_left, ← hall]
      exact List.all_takeWhile
  | case2 => simp at h
  | case3 s t s' hnext _ _ ih =>
      intro seen hposition hbefore
      have hplace := position_eq_of_next hnext
      rcases next_eq_token hnext with ⟨c, cs, more, hrest, hlexeme, _, hs'⟩
      have hmore := length_le_of_lexeme hlexeme
      have htaken : (c :: cs.take more).length = 1 + more := by
        rw [List.length_cons, List.length_take]
        omega
      have htext : seen ++ s.rest =
          seen ++ s.rest.takeWhile isLayout ++ (c :: cs.take more) ++ cs.drop more := by
        have hgap : s.rest = s.rest.takeWhile isLayout ++ c :: cs := by
          have hskipped : s.rest.dropWhile isLayout = c :: cs := hrest
          rw [← hskipped, List.takeWhile_append_dropWhile]
        nth_rewrite 1 [hgap]
        simp
      have hspells : Spells (seen ++ s.rest.takeWhile isLayout).getLast? (c :: cs.take more)
          t.kind := by
        have hfront : s.skipLayout.before = (seen ++ s.rest.takeWhile isLayout).getLast? := by
          rw [List.getLast?_append, ← hbefore]
          rfl
        rw [← hfront]
        exact spells_of_lexeme hlexeme
      -- The scanner behind the token has read the layout and the token besides.
      have hposition' : s'.position =
          (seen ++ s.rest.takeWhile isLayout ++ (c :: cs.take more)).length := by
        rw [List.length_append, List.length_append, htaken, hs', ← hposition]
        simp only [advance, skipLayout]
        omega
      have hbefore' : s'.before =
          (seen ++ s.rest.takeWhile isLayout ++ (c :: cs.take more)).getLast? := by
        rw [List.getLast?_append, hs', advance, List.getLast?_cons, Option.some_or]
      have hrest' : s'.rest = cs.drop more := by rw [hs']; rfl
      rcases ih h _ hposition' hbefore' with ⟨spans, hspans, hcovers⟩
      rw [List.length_append, List.length_append, hrest'] at hcovers
      rw [htext]
      exact ⟨(t, _) :: spans, congrArg (t :: ·) hspans,
        covers_cons List.all_takeWhile (by simp) (by rw [hplace, hposition]) hspells hcovers⟩

end Scan

/-- The tokens of a text cover it. Each of them takes characters from its place on
    that spell it, one behind the other, and all other characters are layout. -/
theorem tokenize_covers_text {text : List Char} {tokens : List Token}
    (h : tokenize text = .ok tokens) :
    ∃ spans : List (Token × Nat), spans.map Prod.fst = tokens ∧ Covers 0 text spans := by
  rcases tokenize_eq_ok_iff.mp h with ⟨⟨stop, depth, hcomplete⟩, htokens⟩
  rw [Scan.ofText_eq_run] at hcomplete htokens
  rcases Scan.covers_run (.start text) hcomplete [] rfl rfl with ⟨spans, hspans, hcovers⟩
  exact ⟨spans, hspans.trans htokens, hcovers⟩

/-- A name with layout behind it, the name of a method with layout behind it, and
    a text with a blank in it. -/
theorem cover_of_method_call :
    ∃ (tokens : List Token) (spans : List (Token × Nat)),
      tokenize "n \n+= o.f (\"a b\")\t".toList = .ok tokens ∧
      kinds tokens = [.name "n", .operator .addAssign, .name "o", .operator .dot, .function "f",
        .opening .round, .constant (.text "a b"), .closing .round] ∧
      spans.map Prod.fst = tokens ∧ Covers 0 "n \n+= o.f (\"a b\")\t".toList spans := by
  have htokens : tokenize "n \n+= o.f (\"a b\")\t".toList =
      .ok [⟨.name "n", 0, 3, 0⟩, ⟨.operator .addAssign, 3, 5, 0⟩, ⟨.name "o", 6, 7, 0⟩,
        ⟨.operator .dot, 7, 8, 0⟩, ⟨.function "f", 8, 10, 0⟩, ⟨.opening .round, 10, 11, 0⟩,
        ⟨.constant (.text "a b"), 11, 16, 1⟩, ⟨.closing .round, 16, 17, 1⟩] := by
    with_unfolding_all rfl
  rcases tokenize_covers_text htokens with ⟨spans, hspans, hcovers⟩
  exact ⟨_, spans, htokens, rfl, hspans, hcovers⟩

end Scriptlet
