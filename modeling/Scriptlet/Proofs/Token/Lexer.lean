import Scriptlet.Proofs.Token.Stream

/-!
# Brackets Known by Their Places

Scanning as it runs keeps the places of the open brackets and looks at the text
again for the shape of the innermost one. What it needs of the others is their
number. Here it is compared with a scanner that has all the shapes at hand, which
is the one that statements about scanning speak of: the two go through a text in
the same steps, with the same tokens and the same fault.

That rests on what the lexer keeps: an opening bracket stands at every place that
it remembers. It does when the place is put on the stack, since a bracket opens at
the place of its token, and the text never changes.

## Main definitions

* `Lexer.view`: The scanner that has the shapes of all open brackets.
* `Lexer.Sound`: What a lexer keeps.

## Theorems

* `Scanner.next_withBrackets`: A step depends on the innermost bracket and the number of others.
* `Lexer.Sound.next_view`, `Lexer.Sound.behind`: A step of the lexer is a step of its view.
* `Scan.ofText_eq_run`: The scan of a text is that of the scanner at its start.
* `scanned_ofText`: The tokens of a text are scanned.
* `tokenize_eq_ok_iff`, `tokenize_eq_error_iff`: A text has tokens if its scan is complete, and
  otherwise the fault of the scan.
* `kind_of_tokenize`: That fault is one of characters.
-/

namespace Scriptlet

/-! ### What a step looks at -/

namespace Scanner

variable {s s' : Scanner} {brackets : List Bracket}

/-- The scanner with other brackets open. -/
def withBrackets (s : Scanner) (brackets : List Bracket) : Scanner :=
  { s with brackets }

/-- Of the open brackets only the innermost one has a say in what a token is. -/
theorem lexeme_withBrackets (h : brackets.head? = s.brackets.head?) (c : Char) (cs : List Char) :
    (s.withBrackets brackets).lexeme c cs = s.lexeme c cs := by
  have hallows : allows brackets = allows s.brackets := by
    funext kind
    cases kind with
    | closing bracket => simp only [allows, h]
    | _ => rfl
  simp only [lexeme, withBrackets, hallows]

/-- The number of open brackets behind a piece of punctuation, counted from the innermost. -/
theorem length_bracketsBehind (brackets : List Bracket) (kind : TokenKind) :
    (bracketsBehind brackets kind).length =
      (bracketsBehind brackets.head?.toList kind).length + brackets.tail.length := by
  cases brackets with
  | nil => cases kind <;> rfl
  | cons bracket around => cases kind <;> simp [bracketsBehind] <;> omega

theorem depthAtFault_withBrackets (h : s.brackets = brackets.head?.toList) (c : Char) :
    (s.withBrackets brackets).depthAtFault c = s.depthAtFault c + brackets.tail.length := by
  unfold depthAtFault
  rw [h]
  cases punctuation? c with
  | none => cases brackets <;> simp [withBrackets, Nat.add_comm]
  | some kind => exact length_bracketsBehind brackets kind

/-- What the brackets around the innermost one add to a step. -/
def Step.inside (brackets : List Bracket) : Step → Step
  | .done stop => .done stop
  | .fault e depth => .fault e (depth + brackets.tail.length)
  | .token t s =>
    .token { t with depth := t.depth + brackets.tail.length }
      (s.withBrackets (bracketsBehind brackets t.kind))

/-- A step depends on the innermost bracket, and the others only add to what is counted. -/
theorem next_withBrackets (h : s.brackets = brackets.head?.toList) :
    (s.withBrackets brackets).next = s.next.inside brackets := by
  have hhead : brackets.head? = s.brackets.head? := by
    rw [h]
    cases brackets <;> rfl
  have hlength : s.brackets.length + brackets.tail.length = brackets.length := by
    rw [h]
    cases brackets <;> simp [Nat.add_comm]
  have hrest : (s.withBrackets brackets).skipLayout.rest = s.skipLayout.rest := rfl
  unfold next nextHere
  rw [hrest]
  cases s.skipLayout.rest with
  | nil => rfl
  | cons c cs =>
      have hlexeme : (s.withBrackets brackets).skipLayout.lexeme c cs = s.skipLayout.lexeme c cs :=
        lexeme_withBrackets (s := s.skipLayout) hhead c cs
      simp only [hlexeme]
      cases s.skipLayout.lexeme c cs with
      | error e =>
          exact congrArg (Step.fault e) (depthAtFault_withBrackets (s := s.skipLayout) h c)
      | ok lexeme =>
          have hdepth : (s.withBrackets brackets).skipLayout.brackets.length =
              s.skipLayout.brackets.length + brackets.tail.length := hlength.symm
          simp only [hdepth]
          rfl

/-- A bracket opens at the character that it is. -/
theorem opener_of_next {t : Token} {bracket : Bracket} (h : s.next = .token t s')
    (hkind : t.kind = .opening bracket) : s.skipLayout.rest.head? = some bracket.opener := by
  rcases next_eq_token h with ⟨c, cs, more, hrest, hlexeme, _⟩
  rw [hrest, List.head?_cons, Option.some.injEq]
  rw [hkind] at hlexeme
  rcases lexeme_cases hlexeme with ⟨_, _, hname⟩ | ⟨_, _, hother⟩ | ⟨_, hother, _⟩ | ⟨hopens, _⟩ |
    ⟨_, hother, _⟩
  · rcases nameKind_cases s.skipLayout.before
      (String.ofList (c :: cs.takeWhile Char.isAlphanum)) (cs.drop more) with
      ⟨hk, _⟩ | hk | ⟨_, b, hk⟩ | ⟨_, hk, _⟩ <;> rw [hk] at hname <;> cases hname
  · cases hother
  · cases hother
  · unfold punctuation? at hopens
    split at hopens <;> cases hopens <;> rfl
  · cases hother

end Scanner

/-! ### What a lexer keeps -/

namespace Lexer

variable {l : Lexer} {s : Scanner} {t : Token}

/-- The scanner at the same place that has the shapes of all open brackets at hand. -/
def view (l : Lexer) : Scanner :=
  l.scanner.withBrackets (l.opened.filterMap (shape? l.text))

/-- What a lexer keeps: the scanner goes through the text and knows the innermost bracket, and
    brackets open at the places that the lexer remembers. -/
structure Sound (l : Lexer) : Prop where
  rest : l.text.toList.drop l.scanner.position = l.scanner.rest
  innermost : l.scanner.brackets = (l.opened.head?.bind (shape? l.text)).toList
  opens : ∀ place ∈ l.opened, ∃ bracket, shape? l.text place = some bracket

theorem sound_start (text : List Char) : (start text).Sound where
  rest := rfl
  innermost := rfl
  opens := by simp [start]

namespace Sound

theorem view_of_opened (h : l.Sound) {place : Nat} {places : List Nat}
    (hopened : l.opened = place :: places) :
    ∃ bracket, shape? l.text place = some bracket ∧
      l.view.brackets = bracket :: places.filterMap (shape? l.text) := by
  rcases h.opens place (by simp [hopened]) with ⟨bracket, hbracket⟩
  exact ⟨bracket, hbracket, by simp [view, Scanner.withBrackets, hopened, hbracket]⟩

/-- The innermost bracket of the view is the one that the lexer knows. -/
theorem head?_view (h : l.Sound) : l.scanner.brackets = l.view.brackets.head?.toList := by
  rw [h.innermost]
  cases hopened : l.opened with
  | nil => simp [view, Scanner.withBrackets, hopened]
  | cons place places =>
      rcases h.view_of_opened hopened with ⟨bracket, hbracket, hview⟩
      simp [hview, hbracket]

/-- No bracket that the lexer remembers is missing from the view. -/
theorem length_view (h : l.Sound) : l.view.brackets.length = l.opened.length :=
  List.filterMap_length_eq_length.mpr fun place hplace => by
    rcases h.opens place hplace with ⟨bracket, hbracket⟩
    simp [hbracket]

theorem length_tail_view (h : l.Sound) : l.view.brackets.tail.length = l.around := by
  rw [List.length_tail, h.length_view, around, List.length_tail]

/-- A step of the lexer is a step of its view. -/
theorem next_view (h : l.Sound) {step : Scanner.Step} (hnext : l.scanner.next = step) :
    l.view.next = step.inside l.view.brackets :=
  hnext ▸ Scanner.next_withBrackets h.head?_view

theorem drop_skipLayout (h : l.Sound) :
    l.text.toList.drop l.scanner.skipLayout.position = l.scanner.skipLayout.rest := by
  unfold Scanner.skipLayout
  rw [← List.drop_drop, h.rest, Scanner.drop_takeWhile]

/-- Behind a bracket that opens, the place of its token is where it does. -/
theorem shape?_of_opening (h : l.Sound) (hnext : l.scanner.next = .token t s) {bracket : Bracket}
    (hkind : t.kind = .opening bracket) : shape? l.text t.position = some bracket := by
  have hplace : t.position = l.scanner.skipLayout.position := Scanner.position_eq_of_next hnext
  have hopener := Scanner.opener_of_next hnext hkind
  rw [← h.drop_skipLayout, List.head?_drop, Array.getElem?_toList] at hopener
  rw [shape?, hplace, hopener]
  cases bracket <;> rfl

/-- The places behind a token are those of the brackets that are open there. -/
theorem filterMap_openedBehind (h : l.Sound) (hnext : l.scanner.next = .token t s) :
    (openedBehind l.opened t).filterMap (shape? l.text) =
      Scanner.bracketsBehind l.view.brackets t.kind := by
  unfold openedBehind
  split
  · next bracket hkind =>
    rw [List.filterMap_cons_some (h.shape?_of_opening hnext hkind), hkind]
    rfl
  · next bracket hkind =>
    rw [hkind]
    cases hopened : l.opened with
    | nil => simp [view, Scanner.withBrackets, hopened, Scanner.bracketsBehind]
    | cons place places =>
        rcases h.view_of_opened hopened with ⟨innermost, _, hview⟩
        rw [hview]
        rfl
  · next hopening hclosing =>
    generalize t.kind = kind at hopening hclosing
    cases kind with
    | opening bracket => exact absurd rfl (hopening bracket)
    | closing bracket => exact absurd rfl (hclosing bracket)
    | constant _ | name _ | function _ | operator _ | comma => rfl

/-- Only a bracket that opens adds a place. -/
theorem opens_behind (h : l.Sound) (hnext : l.scanner.next = .token t s) :
    ∀ place ∈ openedBehind l.opened t, ∃ bracket, shape? l.text place = some bracket := by
  intro place hplace
  unfold openedBehind at hplace
  split at hplace
  · next bracket hkind =>
    rcases List.mem_cons.mp hplace with rfl | hbefore
    · exact ⟨bracket, h.shape?_of_opening hnext hkind⟩
    · exact h.opens place hbefore
  · exact h.opens place (List.mem_of_mem_tail hplace)
  · exact h.opens place hplace

/-- What one token keeps. The view behind the token is the one that the view of before leads to. -/
theorem behind (h : l.Sound) (hnext : l.scanner.next = .token t s) :
    (l.behind t s).Sound ∧
      (l.behind t s).view = s.withBrackets (Scanner.bracketsBehind l.view.brackets t.kind) := by
  refine ⟨⟨?_, rfl, ?_⟩, ?_⟩
  · rcases Scanner.next_eq_token hnext with ⟨c, cs, more, hrest, _, _, rfl⟩
    have hdrop := h.drop_skipLayout
    rw [hrest] at hdrop
    show l.text.toList.drop (l.scanner.skipLayout.position + 1 + more) = cs.drop more
    rw [Nat.add_assoc, ← List.drop_drop, hdrop, Nat.add_comm 1, List.drop_succ_cons]
  · exact h.opens_behind hnext
  · rw [← h.filterMap_openedBehind hnext]
    rfl

end Sound

end Lexer

/-! ### The scan of a text -/

namespace Scan

/-- A lexer that is sound scans what its view scans. -/
theorem ofLexer_eq_run (l : Lexer) (h : l.Sound) : ofLexer l = run l.view := by
  fun_induction ofLexer l with
  | case1 l stop hnext =>
      rw [run_of_done (h.next_view hnext), h.length_view]
  | case2 l e depth hnext =>
      rw [run_of_fault (h.next_view hnext), h.length_tail_view]
  | case3 l t s hnext _ _ ih =>
      rcases h.behind hnext with ⟨hbehind, hview⟩
      rw [run_of_token (h.next_view hnext), ← hview, h.length_tail_view, ← ih hbehind]

theorem ofText_eq_run (text : List Char) : ofText text = run (.start text) :=
  ofLexer_eq_run (.start text) (Lexer.sound_start text)

theorem scanned_ofText (text : List Char) : Scanned [] (ofText text).tokens :=
  ofText_eq_run text ▸ scanned_run (.start text)

end Scan

theorem tokenize_eq_ok_iff {text : List Char} {tokens : List Token} :
    tokenize text = .ok tokens ↔
      (∃ stop depth, (Scan.ofText text).ending = .complete stop depth) ∧
        (Scan.ofText text).tokens = tokens := by
  unfold tokenize
  cases hending : (Scan.ofText text).ending <;> simp [hending]

theorem tokenize_eq_error_iff {text : List Char} {e : Fault} :
    tokenize text = .error e ↔ ∃ depth, (Scan.ofText text).ending = .broken e depth := by
  unfold tokenize
  cases hending : (Scan.ofText text).ending <;> simp [hending]

/-- A text without tokens is at fault for its characters. -/
theorem kind_of_tokenize {text : List Char} {e : Fault} (h : tokenize text = .error e) :
    e.kind = .lexical := by
  rcases tokenize_eq_error_iff.mp h with ⟨depth, hending⟩
  rw [Scan.ofText_eq_run] at hending
  exact Scan.kind_of_broken_run (.start text) hending

end Scriptlet
