import Scriptlet.Expr.Source
import Scriptlet.Token.Scan

/-!
# Token Streams

What is always true of the tokens that scanning gives, whatever the text. Four
things are, and whoever reads tokens relies on all of them:

* a token stands at the depth of the brackets open in front of it, and a
  closing bracket matches the innermost of them;
* names are spelled like names, and text constants have no quote in them;
* a function is followed by its opening bracket, which is why reading a call
  may step over that bracket without a look;
* a point between operands is followed by the name of a member.

They are kept together in one predicate, `Scanned`, because they hold for the
same reason and are needed in the same inductions. The open brackets are its
parameter, so it speaks about any stretch of tokens and not only about whole
texts.

The last two are about two tokens at a time, yet scanning makes one token in a
step. What carries over is in the scanner between the steps: the characters to
come were looked at when the function or the point was made, and
`nextHere_of_opener` and `nextHere_of_letter` say what they have to become.

## Main definitions

* `TokenKind.IsMember`: Tokens that name a member.
* `TokenKind.Spelled`: What the characters of a token allow it to be.
* `TokenKind.Leads`: What has to follow a token.
* `kinds`: What the tokens are.
* `Scanned`: Tokens that come from scanning inside some open brackets.
* `Scan.run`: Scanning with the shapes of all open brackets at hand.

## Theorems

* `Scanned.opener_of_function`: The arguments of a function are inside one more bracket.
* `Scanned.lt_priority`, `Scanned.priority_le`: Between which priorities the brackets put a token.
* `lexeme_cases`, `lexeme_error_cases`: The ways in which a token can begin, and can fail to.
* `next_eq_token`, `next_eq_done`, `next_eq_fault`: The three kinds of step, taken apart.
* `scanned_run`: The tokens of a scan are scanned.
* `kind_of_broken_run`: A scan breaks off at a fault of characters.
-/

namespace Scriptlet

namespace TokenKind

/-- A token that names a member: a name that is taken as a text, or the name of
    a method. -/
def IsMember (kind : TokenKind) : Prop :=
  ∃ name, isIdentifier name = true ∧ (kind = .constant (.text name) ∨ kind = .function name)

/-- What the characters of a token allow it to be. -/
def Spelled : TokenKind → Prop
  | constant (.number x) => ∃ whole fraction, x = Scanner.numeralValue whole fraction
  | constant (.text s) => '"' ∉ s.toList
  | name s => isIdentifier s = true ∧ s ≠ "true" ∧ s ≠ "false"
  | function s => isIdentifier s = true
  | _ => True

/-- What has to follow a token. -/
def Leads : TokenKind → (rest : List Token) → Prop
  | function _, rest => ∃ opener more, rest = opener :: more ∧ opener.kind = .opening .round
  | operator .dot, rest => ∃ member more, rest = member :: more ∧ member.kind.IsMember
  | _, _ => True

end TokenKind

/-- What the tokens are. -/
def kinds (tokens : List Token) : List TokenKind :=
  tokens.map Token.kind

theorem kinds_append (u v : List Token) : kinds (u ++ v) = kinds u ++ kinds v :=
  List.map_append

theorem kinds_cons (t : Token) (u : List Token) : kinds (t :: u) = t.kind :: kinds u :=
  rfl

/-- Tokens that come from scanning inside some open brackets. -/
def Scanned : (brackets : List Bracket) → List Token → Prop
  | _, [] => True
  | brackets, t :: rest =>
    t.depth = brackets.length ∧ Scanner.allows brackets t.kind = true ∧ t.kind.Spelled ∧
      t.kind.Leads rest ∧ Scanned (Scanner.bracketsBehind brackets t.kind) rest

namespace Scanned

variable {brackets : List Bracket} {t : Token} {rest : List Token} {kind : TokenKind}

theorem tail_of_kind (h : Scanned brackets (t :: rest)) (hkind : t.kind = kind) :
    Scanned (Scanner.bracketsBehind brackets kind) rest :=
  hkind ▸ h.2.2.2.2

theorem leads_of_kind (h : Scanned brackets (t :: rest)) (hkind : t.kind = kind) :
    kind.Leads rest :=
  hkind ▸ h.2.2.2.1

theorem spelled_of_kind (h : Scanned brackets (t :: rest)) (hkind : t.kind = kind) :
    kind.Spelled :=
  hkind ▸ h.2.2.1

/-- The token behind a function opens the bracket of its arguments. -/
theorem opener_of_function {opener : Token} {name : String}
    (h : Scanned brackets (t :: opener :: rest)) (hkind : t.kind = .function name) :
    opener.kind = .opening .round ∧ Scanned (.round :: brackets) rest := by
  rcases h.leads_of_kind hkind with ⟨opener', more, heq, hopener⟩
  simp only [List.cons.injEq] at heq
  rcases heq with ⟨rfl, rfl⟩
  exact ⟨hopener, (h.tail_of_kind hkind).tail_of_kind hopener⟩

/-- How tightly a token binds, by its kind and the brackets that are open. -/
theorem priority_of_kind (h : Scanned brackets (t :: rest)) (hkind : t.kind = kind) :
    t.priority = kind.basePriority + 10 * brackets.length := by
  rw [Token.priority, Token.depthBoost, hkind, h.1]

/-- No token binds tighter than the tokens inside one more bracket. -/
theorem priority_le (h : Scanned brackets (t :: rest)) :
    t.priority ≤ 10 * brackets.length + 10 := by
  have hbase : t.kind.basePriority ≤ 10 := by
    cases t.kind with
    | operator op => cases op <;> decide
    | _ => simp [TokenKind.basePriority]
  rw [h.priority_of_kind rfl]
  omega

/-- Operators and opening brackets bind tighter than whatever is around the
    brackets that they stand in. -/
theorem lt_priority (h : Scanned brackets (t :: rest))
    (hkind : (∃ op, t.kind = .operator op) ∨ ∃ bracket, t.kind = .opening bracket) :
    10 * brackets.length < t.priority := by
  have hbase : 0 < t.kind.basePriority := by
    rcases hkind with ⟨op, hop⟩ | ⟨bracket, hop⟩
    · rw [hop]
      cases op <;> decide
    · rw [hop, TokenKind.basePriority]
      omega
  rw [h.priority_of_kind rfl]
  omega

end Scanned

namespace Scanner

/-! ### The tokens that a character can begin -/

theorem isIdentifier_ofList {c : Char} {cs : List Char} (hc : c.isAlpha = true)
    (hcs : cs.all Char.isAlphanum = true) : isIdentifier (String.ofList (c :: cs)) = true := by
  simp only [isIdentifier, String.toList_ofList, hc, hcs, Bool.and_self]

/-- A name that the scanner takes as one piece. -/
theorem isIdentifier_takeWhile {c : Char} (hc : c.isAlpha = true) (cs : List Char) :
    isIdentifier (String.ofList (c :: cs.takeWhile Char.isAlphanum)) = true :=
  isIdentifier_ofList hc List.all_takeWhile

/-- The ways in which a token can begin. -/
theorem lexeme_cases {s : Scanner} {c : Char} {cs : List Char} {kind : TokenKind} {more : Nat}
    (h : s.lexeme c cs = .ok (kind, more)) :
    (c.isAlpha = true ∧ more = (cs.takeWhile Char.isAlphanum).length ∧
      kind = nameKind s.before (String.ofList (c :: cs.takeWhile Char.isAlphanum))
        (cs.drop more)) ∨
    (∃ whole fraction, kind = .constant (.number (numeralValue whole fraction))) ∨
    (∃ text, kind = .constant (.text (String.ofList text)) ∧ '"' ∉ text) ∨
    (punctuation? c = some kind ∧ allows s.brackets kind = true) ∨
    (∃ op, kind = .operator op ∧
      (doubled? c cs.head? = some op ∨ more = 0 ∧ single? s.before cs.head? c = some op)) := by
  unfold lexeme at h
  -- The splits come in the order in which the scanner tries: names, numbers, texts, punctuation,
  -- operators of two characters and of one.
  split at h
  · next hc =>
    simp only [Except.ok.injEq, Prod.mk.injEq] at h
    rcases h with ⟨rfl, rfl⟩
    exact .inl ⟨hc, rfl, rfl⟩
  · split at h
    · simp only [Except.ok.injEq, Prod.mk.injEq] at h
      exact .inr (.inl ⟨_, _, h.1.symm⟩)
    · split at h
      · simp only at h
        split at h
        · simp only [Except.ok.injEq, Prod.mk.injEq] at h
          -- A text is taken up to the first quote.
          refine .inr (.inr (.inl ⟨_, h.1.symm, fun hmem => ?_⟩))
          simpa using List.all_eq_true.mp List.all_takeWhile _ hmem
        · simp at h
      · split at h
        · next hpunctuation =>
          split at h
          · next hallows =>
            simp only [Except.ok.injEq, Prod.mk.injEq] at h
            rcases h with ⟨rfl, rfl⟩
            exact .inr (.inr (.inr (.inl ⟨hpunctuation, hallows⟩)))
          · simp at h
        · split at h
          · next op hop =>
            simp only [Except.ok.injEq, Prod.mk.injEq] at h
            exact .inr (.inr (.inr (.inr ⟨op, h.1.symm, .inl hop⟩)))
          · split at h
            · next op hop =>
              simp only [Except.ok.injEq, Prod.mk.injEq] at h
              exact .inr (.inr (.inr (.inr ⟨op, h.1.symm, .inr ⟨h.2.symm, hop⟩⟩)))
            · simp at h

theorem toList_of_isIdentifier {name : String} (hname : isIdentifier name = true) :
    ∃ c word, name.toList = c :: word ∧ c.isAlpha = true ∧ word.all Char.isAlphanum = true := by
  unfold isIdentifier at hname
  split at hname
  · next c word hword =>
    simp only [Bool.and_eq_true] at hname
    exact ⟨c, word, hword, hname⟩
  · simp at hname

/-- Names have no quote in them. -/
theorem quote_not_mem_of_isIdentifier {s : String} (h : isIdentifier s = true) :
    '"' ∉ s.toList := by
  rcases toList_of_isIdentifier h with ⟨c, word, hs, hc, hword⟩
  rw [hs]
  intro hmem
  rcases List.mem_cons.mp hmem with rfl | hmem
  · exact absurd hc (by decide)
  · exact absurd (List.all_eq_true.mp hword _ hmem) (by decide)

theorem nameKind_cases (before : Option Char) (name : String) (behind : List Char) :
    (nameKind before name behind = .function name ∧
      (behind.dropWhile isLayout).head? = some '(') ∨
    nameKind before name behind = .constant (.text name) ∨
    (before ≠ some '.' ∧ ∃ b, nameKind before name behind = .constant (.truth b)) ∨
    (before ≠ some '.' ∧ nameKind before name behind = .name name ∧
      name ≠ "true" ∧ name ≠ "false") := by
  unfold nameKind
  by_cases hopener : (behind.dropWhile isLayout).head? = some '('
  · exact .inl ⟨if_pos hopener, hopener⟩
  rw [if_neg hopener]
  by_cases hbefore : before = some '.'
  · exact .inr (.inl (if_pos hbefore))
  rw [if_neg hbefore]
  by_cases htrue : name = "true"
  · exact .inr (.inr (.inl ⟨hbefore, true, if_pos htrue⟩))
  rw [if_neg htrue]
  by_cases hfalse : name = "false"
  · exact .inr (.inr (.inl ⟨hbefore, false, if_pos hfalse⟩))
  exact .inr (.inr (.inr ⟨hbefore, if_neg hfalse, htrue, hfalse⟩))

theorem spelled_nameKind {name : String} (h : isIdentifier name = true) (before : Option Char)
    (behind : List Char) : (nameKind before name behind).Spelled := by
  rcases nameKind_cases before name behind with ⟨hk, _⟩ | hk | ⟨_, b, hk⟩ | ⟨_, hk, htrue, hfalse⟩
  · rw [hk]; exact h
  · rw [hk]; exact quote_not_mem_of_isIdentifier h
  · rw [hk]; trivial
  · rw [hk]; exact ⟨h, htrue, hfalse⟩

/-- Punctuation is a comma or a bracket. -/
theorem punctuation?_cases {c : Char} {kind : TokenKind} (h : punctuation? c = some kind) :
    kind = .comma ∨ (∃ b, kind = .opening b) ∨ ∃ b, kind = .closing b := by
  unfold punctuation? at h
  split at h <;> simp only [Option.some.injEq, reduceCtorEq] at h <;> subst h <;> simp

theorem spelled_of_lexeme {s : Scanner} {c : Char} {cs : List Char} {kind : TokenKind} {more : Nat}
    (h : s.lexeme c cs = .ok (kind, more)) : kind.Spelled := by
  rcases lexeme_cases h with ⟨hc, _, rfl⟩ | ⟨whole, fraction, rfl⟩ | ⟨text, rfl, htext⟩ |
    ⟨hp, _⟩ | ⟨op, rfl, _⟩
  · exact spelled_nameKind (isIdentifier_takeWhile hc cs) _ _
  · exact ⟨whole, fraction, rfl⟩
  · simpa only [TokenKind.Spelled, String.toList_ofList] using htext
  · rcases punctuation?_cases hp with rfl | ⟨b, rfl⟩ | ⟨b, rfl⟩ <;> trivial
  · trivial

theorem allows_of_lexeme {s : Scanner} {c : Char} {cs : List Char} {kind : TokenKind} {more : Nat}
    (h : s.lexeme c cs = .ok (kind, more)) : allows s.brackets kind = true := by
  rcases lexeme_cases h with ⟨_, _, rfl⟩ | ⟨_, _, rfl⟩ | ⟨_, rfl, _⟩ | ⟨_, hallows⟩ | ⟨_, rfl, _⟩
  · rcases nameKind_cases s.before (String.ofList (c :: cs.takeWhile Char.isAlphanum))
      (cs.drop more) with ⟨hk, _⟩ | hk | ⟨_, b, hk⟩ | ⟨_, hk, _⟩ <;> rw [hk] <;> rfl
  · rfl
  · rfl
  · exact hallows
  · rfl

/-! ### What follows a token -/

theorem drop_takeWhile (p : Char → Bool) (cs : List Char) :
    cs.drop (cs.takeWhile p).length = cs.dropWhile p := by
  have hdrop : (cs.takeWhile p ++ cs.dropWhile p).drop (cs.takeWhile p).length = cs.dropWhile p :=
    List.drop_left
  rwa [List.takeWhile_append_dropWhile] at hdrop

theorem skipLayout_of_head {s : Scanner} {c : Char} {cs : List Char} (hrest : s.rest = c :: cs)
    (hc : isLayout c = false) : s.skipLayout = s := by
  cases s
  simp only at hrest
  subst hrest
  simp [skipLayout, hc]

theorem isLayout_of_isAlpha {c : Char} (hc : c.isAlpha = true) : isLayout c = false := by
  cases hl : isLayout c with
  | false => rfl
  | true =>
      simp only [isLayout, Bool.or_eq_true, beq_iff_eq] at hl
      rcases hl with ((rfl | rfl) | rfl) | rfl <;> exact absurd hc (by decide)

/-- An opening bracket is a token wherever it stands. -/
theorem nextHere_of_opener {s : Scanner} {cs : List Char} (hrest : s.rest = '(' :: cs) :
    ∃ t s', s.nextHere = .token t s' ∧ t.kind = .opening .round := by
  have hlexeme : s.lexeme '(' cs = .ok (.opening .round, 0) := by
    unfold lexeme
    rw [if_neg (by decide), if_neg (by simp [beginsNumber]), if_neg (by decide)]
    rfl
  simp only [nextHere, hrest, hlexeme]
  exact ⟨_, _, rfl, rfl⟩

/-- A letter right behind a point begins the name of a member. -/
theorem nextHere_of_letter {s : Scanner} {c : Char} {cs : List Char} (hrest : s.rest = c :: cs)
    (hc : c.isAlpha = true) (hbefore : s.before = some '.') :
    ∃ t s', s.nextHere = .token t s' ∧ t.kind.IsMember := by
  have hlexeme : s.lexeme c cs =
      .ok (nameKind s.before (String.ofList (c :: cs.takeWhile Char.isAlphanum))
        (cs.drop (cs.takeWhile Char.isAlphanum).length),
        (cs.takeWhile Char.isAlphanum).length) := by
    unfold lexeme
    rw [if_pos hc]
  simp only [nextHere, hrest, hlexeme]
  refine ⟨_, _, rfl, _, isIdentifier_takeWhile hc cs, ?_⟩
  rcases nameKind_cases s.before (String.ofList (c :: cs.takeWhile Char.isAlphanum))
    (cs.drop (cs.takeWhile Char.isAlphanum).length) with ⟨hk, _⟩ | hk | ⟨hb, _⟩ | ⟨hb, _⟩
  · exact .inr hk
  · exact .inl hk
  -- Right behind a point a name is neither a truth value nor a variable.
  · exact absurd hbefore hb
  · exact absurd hbefore hb

/-- A function is made only where an opening bracket follows. -/
theorem opener_of_lexeme {s : Scanner} {c : Char} {cs : List Char} {name : String} {more : Nat}
    (h : s.lexeme c cs = .ok (.function name, more)) :
    ((cs.drop more).dropWhile isLayout).head? = some '(' := by
  rcases lexeme_cases h with ⟨_, _, hk⟩ | ⟨_, _, hk⟩ | ⟨_, hk, _⟩ | ⟨hp, _⟩ | ⟨_, hk, _⟩
  · rcases nameKind_cases s.before (String.ofList (c :: cs.takeWhile Char.isAlphanum))
      (cs.drop more) with ⟨_, hopener⟩ | hk' | ⟨_, b, hk'⟩ | ⟨_, hk', _⟩
    · exact hopener
    -- No other name is a function.
    · rw [hk'] at hk; simp at hk
    · rw [hk'] at hk; simp at hk
    · rw [hk'] at hk; simp at hk
  · simp at hk
  · simp at hk
  · rcases punctuation?_cases hp with hk | ⟨b, hk⟩ | ⟨b, hk⟩ <;> simp at hk
  · simp at hk

/-- The characters of an operator. -/
theorem operator_of_lexeme {s : Scanner} {c : Char} {cs : List Char} {op : Operator} {more : Nat}
    (h : s.lexeme c cs = .ok (.operator op, more)) :
    doubled? c cs.head? = some op ∨ more = 0 ∧ single? s.before cs.head? c = some op := by
  rcases lexeme_cases h with ⟨_, _, hk⟩ | ⟨_, _, hk⟩ | ⟨_, hk, _⟩ | ⟨hp, _⟩ | ⟨op', hk, hop⟩
  · rcases nameKind_cases s.before (String.ofList (c :: cs.takeWhile Char.isAlphanum))
      (cs.drop more) with ⟨hk', _⟩ | hk' | ⟨_, b, hk'⟩ | ⟨_, hk', _⟩ <;>
      rw [hk'] at hk <;> simp at hk
  · simp at hk
  · simp at hk
  · rcases punctuation?_cases hp with hk | ⟨b, hk⟩ | ⟨b, hk⟩ <;> simp at hk
  · simp only [TokenKind.operator.injEq] at hk
    rw [hk]
    exact hop

/-- The only character that can be the operator of a member access is a point
    with a letter right behind it. -/
theorem letter_of_lexeme {s : Scanner} {c : Char} {cs : List Char} {more : Nat}
    (h : s.lexeme c cs = .ok (.operator .dot, more)) :
    c = '.' ∧ more = 0 ∧ ∃ d ds, cs = d :: ds ∧ d.isAlpha = true := by
  rcases operator_of_lexeme h with hop | ⟨rfl, hop⟩
  -- The point is not among the operators of two characters.
  · unfold doubled? at hop
    split at hop <;> simp at hop
  · unfold single? at hop
    split at hop
    · refine ⟨rfl, rfl, ?_⟩
      split at hop
      -- It joins a member only with a letter behind it.
      · next hjoins =>
        rcases cs with _ | ⟨d, ds⟩
        · simp [joinsMember] at hjoins
        · simp only [joinsMember, Bool.and_eq_true] at hjoins
          exact ⟨d, ds, rfl, by simpa using hjoins.2⟩
      · simp at hop
    all_goals simp at hop

/-- A step of scanning, taken apart: the token comes from a lexeme at the first
    character past the layout. -/
theorem next_eq_token {s s' : Scanner} {t : Token} (h : s.next = .token t s') :
    ∃ c cs more, s.skipLayout.rest = c :: cs ∧
      s.skipLayout.lexeme c cs = .ok (t.kind, more) ∧ t.depth = s.brackets.length ∧
      s' = s.skipLayout.advance t.kind c cs more := by
  simp only [next, nextHere] at h
  split at h
  · simp at h
  · next c cs hrest =>
    split at h
    · simp at h
    · next kind more hlexeme =>
      simp only [Step.token.injEq] at h
      rcases h with ⟨rfl, rfl⟩
      exact ⟨c, cs, more, hrest, hlexeme, rfl, rfl⟩

/-- A token stands where the layout in front of it ends. -/
theorem position_eq_of_next {s s' : Scanner} {t : Token} (h : s.next = .token t s') :
    t.position = s.position + (s.rest.takeWhile isLayout).length := by
  simp only [next, nextHere] at h
  split at h
  · simp at h
  · split at h
    · simp at h
    · simp only [Step.token.injEq] at h
      rw [← h.1]
      rfl

/-- Scanning is done where nothing but layout is left. -/
theorem next_eq_done {s : Scanner} {stop : Nat} (h : s.next = .done stop) :
    s.skipLayout.rest = [] ∧ stop = s.skipLayout.position := by
  simp only [next, nextHere] at h
  split at h
  · next hrest =>
    simp only [Step.done.injEq] at h
    exact ⟨hrest, h.symm⟩
  · split at h <;> simp at h

/-- A fault of scanning is that of the first character past the layout. -/
theorem next_eq_fault {s : Scanner} {e : Fault} {depth : Nat} (h : s.next = .fault e depth) :
    ∃ c cs, s.skipLayout.rest = c :: cs ∧ s.skipLayout.lexeme c cs = .error e := by
  simp only [next, nextHere] at h
  split at h
  · simp at h
  · next c cs hrest =>
    split at h
    · next e' hlexeme =>
      simp only [Step.fault.injEq] at h
      rcases h with ⟨rfl, _⟩
      exact ⟨c, cs, hrest, hlexeme⟩
    · simp at h

/-- The faults of scanning: a text that does not end, or a character that begins
    no token. -/
theorem lexeme_error_cases {s : Scanner} {c : Char} {cs : List Char} {e : Fault}
    (h : s.lexeme c cs = .error e) :
    e = ⟨.lexical, .unterminatedText, s.position⟩ ∧ c = '"' ∧ cs.takeWhile (· ≠ '"') = cs ∨
      e = ⟨.lexical, .strayCharacter, s.position⟩ := by
  unfold lexeme at h
  split at h
  · simp at h
  split at h
  · simp at h
  split at h
  · next hquote =>
    simp only at h
    split at h
    · simp at h
    · next hopen =>
      cases h
      exact .inl ⟨rfl, hquote, (List.takeWhile_prefix _).eq_of_length_le (by omega)⟩
  · split at h
    · split at h
      · simp at h
      · cases h
        exact .inr rfl
    · split at h
      · simp at h
      · split at h
        · simp at h
        · cases h
          exact .inr rfl

/-- A fault of scanning is a lexical one, at the character that begins no token. -/
theorem kind_and_position_of_lexeme {s : Scanner} {c : Char} {cs : List Char} {e : Fault}
    (h : s.lexeme c cs = .error e) : e.kind = .lexical ∧ e.position = s.position := by
  rcases lexeme_error_cases h with ⟨rfl, _⟩ | rfl <;> exact ⟨rfl, rfl⟩

end Scanner

namespace Scan

open Scanner

/-- The scan of what is left, by a scanner that has the shapes of all open brackets at hand. -/
def run (s : Scanner) : Scan :=
  match h : s.next with
  | .done stop => ⟨[], .complete stop s.brackets.length⟩
  | .fault e depth => ⟨[], .broken e depth⟩
  | .token t s' =>
    have := length_rest_lt_of_next h
    let more := run s'
    ⟨t :: more.tokens, more.ending⟩
termination_by s.rest.length

theorem run_of_token {s s' : Scanner} {t : Token} (h : s.next = .token t s') :
    run s = ⟨t :: (run s').tokens, (run s').ending⟩ := by
  rw [run]
  split
  · next h' => rw [h] at h'; simp at h'
  · next h' => rw [h] at h'; simp at h'
  · next h' =>
    rw [h] at h'
    simp only [Step.token.injEq] at h'
    rcases h' with ⟨rfl, rfl⟩
    rfl

theorem run_of_done {s : Scanner} {stop : Nat} (h : s.next = .done stop) :
    run s = ⟨[], .complete stop s.brackets.length⟩ := by
  rw [run]
  split
  · next h' =>
    rw [h] at h'
    simp only [Step.done.injEq] at h'
    rw [h']
  · next h' => rw [h] at h'; simp at h'
  · next h' => rw [h] at h'; simp at h'

theorem run_of_fault {s : Scanner} {e : Fault} {depth : Nat} (h : s.next = .fault e depth) :
    run s = ⟨[], .broken e depth⟩ := by
  rw [run]
  split
  · next h' => rw [h] at h'; simp at h'
  · next h' =>
    rw [h] at h'
    simp only [Step.fault.injEq] at h'
    rcases h' with ⟨rfl, rfl⟩
    rfl
  · next h' => rw [h] at h'; simp at h'

/-- The tokens behind a token are what it leads to. -/
theorem leads_run {s s' : Scanner} {t : Token} (h : s.next = .token t s') :
    t.kind.Leads (run s').tokens := by
  rcases next_eq_token h with ⟨c, cs, more, hrest, hlexeme, _, rfl⟩
  unfold TokenKind.Leads
  split
  · next name hkind =>
    -- Past the layout there is the opening bracket that made the name a function.
    rw [hkind] at hlexeme
    have hopener := opener_of_lexeme hlexeme
    rcases hbehind : (cs.drop more).dropWhile isLayout with _ | ⟨d, ds⟩
    · rw [hbehind] at hopener; simp at hopener
    · rw [hbehind] at hopener
      simp only [List.head?_cons, Option.some.injEq] at hopener
      subst hopener
      rcases nextHere_of_opener (s := (s.skipLayout.advance t.kind c cs more).skipLayout) hbehind
        with ⟨u, s', hnext, hu⟩
      rw [run_of_token hnext]
      exact ⟨u, _, rfl, hu⟩
  · next hkind =>
    -- The letter stands right behind the point, so there is no layout to skip.
    rw [hkind] at hlexeme
    rcases letter_of_lexeme hlexeme with ⟨rfl, rfl, d, ds, rfl, hd⟩
    have hskip : (s.skipLayout.advance t.kind '.' (d :: ds) 0).skipLayout =
        s.skipLayout.advance t.kind '.' (d :: ds) 0 :=
      skipLayout_of_head rfl (isLayout_of_isAlpha hd)
    rcases nextHere_of_letter (s := s.skipLayout.advance t.kind '.' (d :: ds) 0) rfl hd rfl
      with ⟨u, s', hnext, hu⟩
    rw [run_of_token (by rw [next, hskip]; exact hnext)]
    exact ⟨u, _, rfl, hu⟩
  · trivial

/-- The tokens of a scan are scanned inside the brackets that are open at its start. -/
theorem scanned_run (s : Scanner) : Scanned s.brackets (run s).tokens := by
  -- The scanner behind a token has open just the brackets that `Scanned` asks for.
  fun_induction run s with
  | case1 => trivial
  | case2 => trivial
  | case3 s t s' hnext _ _ ih =>
      rcases next_eq_token hnext with ⟨c, cs, more, _, hlexeme, hdepth, rfl⟩
      have hallows := allows_of_lexeme hlexeme
      exact ⟨hdepth, hallows, spelled_of_lexeme hlexeme, leads_run hnext, ih⟩

theorem kind_of_broken_run (s : Scanner) {e : Fault} {depth : Nat}
    (h : (run s).ending = .broken e depth) : e.kind = .lexical := by
  fun_induction run s with
  | case1 => simp at h
  | case2 s e' depth' hnext =>
      simp only [Ending.broken.injEq] at h
      rcases next_eq_fault hnext with ⟨c, cs, _, hlexeme⟩
      rw [← h.1]
      exact (kind_and_position_of_lexeme hlexeme).1
  | case3 _ _ _ _ _ _ ih => exact ih h

end Scan

end Scriptlet
