import Scriptlet.Proofs.Token.Extent
import Scriptlet.Proofs.Token.Spelling

/-!
# Brackets

Scanning keeps the open brackets in a list, and all that it ever does with the
list is to look at its head. Here the list is tied to what it stands for. Tokens
are well bracketed if every bracket that they open is closed by one of the same
shape, the inner before the outer. The list of a scanner has the brackets that
the tokens behind it opened and did not close, so what stands between the
innermost of them and the scanner is well bracketed.

That gives the two things that readers of tokens rely on. A closing bracket
closes the bracket that it seems to close, and priorities count the brackets
that are really open: those opened, less those closed.

A closing bracket of the wrong shape is no token. Scanning stops right there.

## Main definitions

* `WellBracketed`: Tokens that close all brackets that they open.
* `Innermost`: The bracket that tokens leave open last.
* `Leaves`: The brackets that tokens leave open.
* `openings`, `closings`: How many brackets tokens open and close.

## Theorems

* `Leaves.step`: What one token does to the brackets that are open.
* `Leaves.wellBracketed`: Closing what is open makes tokens well bracketed.
* `Leaves.openings_eq`: The number of brackets that are open.
* `leaves_of_steps`: Scanners know which brackets are open.
* `tokenize_brackets`: The brackets and priorities of the tokens of a text, and the closing bracket
  at which a text has none.
-/

namespace Scriptlet

namespace TokenKind

/-- Whether a token opens a bracket. -/
def isOpening : TokenKind → Bool
  | opening _ => true
  | _ => false

/-- Whether a token closes a bracket. -/
def isClosing : TokenKind → Bool
  | closing _ => true
  | _ => false

/-- Whether a token is an operator or punctuation. -/
def isSymbol : TokenKind → Bool
  | constant _ | name _ | function _ => false
  | operator _ | comma | opening _ | closing _ => true

/-- What is not a symbol has no priority of its own. -/
theorem basePriority_of_not_isSymbol {kind : TokenKind} (h : kind.isSymbol = false) :
    kind.basePriority = 0 := by
  cases kind with
  | constant _ | name _ | function _ => rfl
  | operator _ | comma | opening _ | closing _ => cases h

/-- Symbols have the priority that they stand for in the table. -/
theorem symbolPriority?_text {kind : TokenKind} (h : kind.isSymbol = true) :
    symbolPriority? kind.text = some kind.basePriority := by
  cases kind with
  | constant _ | name _ | function _ => cases h
  | operator op => cases op <;> decide
  | comma => decide
  | opening bracket | closing bracket => cases bracket <;> decide

end TokenKind

/-! ### Priorities -/

theorem TokenKind.basePriority_le (kind : TokenKind) : kind.basePriority ≤ 10 := by
  cases kind with
  | operator op => cases op <;> decide
  | constant _ | name _ | function _ | closing _ => exact Nat.zero_le _
  | comma | opening _ => exact Nat.le_of_ble_eq_true rfl

namespace Token

theorem priority_le {t : Token} {depth : Nat} (h : t.depth ≤ depth) :
    t.priority ≤ topPriority depth := by
  have hbase := t.kind.basePriority_le
  have hboost : depthBoost * t.depth ≤ depthBoost * depth := Nat.mul_le_mul_left _ h
  unfold Token.priority topPriority
  omega

theorem toNat_wordBoost {depth : Nat} (h : topPriority depth < UInt32.size) :
    (wordBoost depth).toNat = depthBoost * depth := by
  have hlt : depthBoost * depth < UInt32.size := Nat.lt_of_le_of_lt (Nat.le_add_right _ _) h
  rw [wordBoost, UInt32.toNat_mul, UInt32.toNat_ofNat', UInt32.toNat_ofNat', ← Nat.mul_mod,
    Nat.mul_comm]
  exact Nat.mod_eq_of_lt hlt

/-- Priorities fit a word as long as the highest one does. -/
theorem toNat_wordPriority {t : Token} (h : topPriority t.depth < UInt32.size) :
    t.wordPriority.toNat = t.priority := by
  have hlt : t.priority < UInt32.size := Nat.lt_of_le_of_lt (priority_le (Nat.le_refl _)) h
  rw [wordPriority, UInt32.toNat_add, toNat_wordBoost h, UInt32.toNat_ofNat', Nat.add_mod_mod,
    Nat.add_comm]
  exact Nat.mod_eq_of_lt hlt

/-- With more brackets open than a word can count, priorities begin at zero again. -/
example : (⟨.name "a", 429496730, 429496731, 429496730⟩ : Token).wordPriority = 4 := by
  decide

end Token

/-- The number of brackets that tokens open. -/
def openings (ks : List TokenKind) : Nat :=
  ks.countP TokenKind.isOpening

/-- The number of brackets that tokens close. -/
def closings (ks : List TokenKind) : Nat :=
  ks.countP TokenKind.isClosing

/-! ### Well bracketed tokens -/

/-- Tokens that close every bracket that they open, with the shape of the opening
    one, and the inner before the outer. -/
inductive WellBracketed : List TokenKind → Prop where
  | nil : WellBracketed []
  | other {kind : TokenKind} {rest : List TokenKind} (unopened : kind.isOpening = false)
      (unclosed : kind.isClosing = false) (more : WellBracketed rest) : WellBracketed (kind :: rest)
  | group {bracket : Bracket} {inner rest : List TokenKind} (inside : WellBracketed inner)
      (more : WellBracketed rest) :
      WellBracketed (.opening bracket :: (inner ++ .closing bracket :: rest))

/-- The innermost bracket that tokens leave open has a shape: whatever stands
    behind it is well bracketed. -/
def Innermost (bracket : Bracket) (ks : List TokenKind) : Prop :=
  ∃ front inner, ks = front ++ .opening bracket :: inner ∧ WellBracketed inner

namespace WellBracketed

theorem append {u v : List TokenKind} (hu : WellBracketed u) (hv : WellBracketed v) :
    WellBracketed (u ++ v) := by
  induction hu with
  | nil => exact hv
  | other hopening hclosing _ ih => exact .other hopening hclosing ih
  | group hinside _ _ ih =>
      rw [List.cons_append, List.append_assoc, List.cons_append]
      exact .group hinside ih

theorem openings_eq {ks : List TokenKind} (h : WellBracketed ks) : openings ks = closings ks := by
  unfold openings closings
  induction h with
  | nil => rfl
  | other hopening hclosing _ ih => simp [hopening, hclosing, ih]
  | group _ _ ih ih' =>
      simp only [List.countP_cons, List.countP_append, ih, ih', TokenKind.isOpening,
        TokenKind.isClosing]
      simp only [if_true, Bool.false_eq_true, if_false]
      omega

/-- Behind well bracketed tokens the same brackets are open as in front of them. -/
theorem foldl_bracketsBehind {ks : List TokenKind} (h : WellBracketed ks) :
    ∀ brackets, ks.foldl Scanner.bracketsBehind brackets = brackets := by
  induction h with
  | nil => exact fun _ => rfl
  | @other kind rest hopening hclosing _ ih =>
      intro brackets
      have hkept : Scanner.bracketsBehind brackets kind = brackets := by
        cases kind with
        | opening _ => cases hopening
        | closing _ => cases hclosing
        | constant _ | name _ | function _ | operator _ | comma => rfl
      rw [List.foldl_cons, hkept, ih]
  | group _ _ ih ih' =>
      intro brackets
      rw [List.foldl_cons, List.foldl_append, ih, List.foldl_cons]
      exact ih' brackets

end WellBracketed

/-- Only one bracket is the innermost: the one that a stack of brackets has on top. -/
theorem Innermost.head?_foldl {bracket : Bracket} {ks : List TokenKind}
    (h : Innermost bracket ks) :
    (ks.foldl Scanner.bracketsBehind []).head? = some bracket := by
  rcases h with ⟨front, inner, rfl, hinner⟩
  rw [List.foldl_append, List.foldl_cons, hinner.foldl_bracketsBehind]
  rfl

/-! ### Open brackets -/

/-- Tokens leave brackets open, the innermost first. What stands between two of
    them, and what stands behind the last, is well bracketed. -/
inductive Leaves : List TokenKind → List Bracket → Prop where
  | none {ks : List TokenKind} (closed : WellBracketed ks) : Leaves ks []
  | one {front inner : List TokenKind} {bracket : Bracket} {brackets : List Bracket}
      (outside : Leaves front brackets) (inside : WellBracketed inner) :
      Leaves (front ++ .opening bracket :: inner) (bracket :: brackets)

namespace Leaves

variable {ks : List TokenKind} {brackets : List Bracket}

/-- Well bracketed tokens change nothing. -/
theorem append (h : Leaves ks brackets) {more : List TokenKind} (hmore : WellBracketed more) :
    Leaves (ks ++ more) brackets := by
  cases h with
  | none hclosed => exact .none (hclosed.append hmore)
  | one houtside hinside =>
      rw [List.append_assoc, List.cons_append]
      exact .one houtside (hinside.append hmore)

theorem innermost {bracket : Bracket} (h : Leaves ks brackets)
    (hhead : brackets.head? = some bracket) : Innermost bracket ks := by
  cases h with
  | none _ => cases hhead
  | one _ hinside =>
      cases hhead
      exact ⟨_, _, rfl, hinside⟩

/-- One more token opens a bracket, closes the innermost one or does neither. -/
theorem step (h : Leaves ks brackets) {kind : TokenKind}
    (hallows : Scanner.allows brackets kind = true) :
    Leaves (ks ++ [kind]) (Scanner.bracketsBehind brackets kind) := by
  cases kind with
  | opening bracket => exact .one h .nil
  | closing bracket =>
      have hhead : brackets.head? = some bracket := by simpa [Scanner.allows] using hallows
      cases h with
      | none _ => cases hhead
      | one houtside hinside =>
          cases hhead
          -- The bracket and all that stands behind it becomes a group of the tokens outside.
          rw [List.append_assoc, List.cons_append]
          exact houtside.append (.group hinside .nil)
  | constant _ | name _ | function _ | operator _ | comma =>
      exact h.append (.other rfl rfl .nil)

/-- Closing what is open makes tokens well bracketed, also behind more of them
    that are. By induction from the innermost bracket outwards. -/
theorem wellBracketed (h : Leaves ks brackets) : ∀ {more : List TokenKind}, WellBracketed more →
    WellBracketed (ks ++ more ++ brackets.map .closing) := by
  induction h with
  | none hclosed =>
      intro more hmore
      rw [List.map_nil, List.append_nil]
      exact hclosed.append hmore
  | @one front inner bracket brackets _ hinside ih =>
      intro more hmore
      have hgroup : WellBracketed (.opening bracket :: (inner ++ more ++ [.closing bracket])) :=
        .group (hinside.append hmore) .nil
      simpa using ih hgroup

theorem openings_eq (h : Leaves ks brackets) :
    openings ks = closings ks + brackets.length := by
  induction h with
  | none hclosed => exact hclosed.openings_eq
  | one _ hinside ih =>
      have hinner := hinside.openings_eq
      unfold openings closings at *
      simp only [List.countP_append, List.countP_cons, ih, hinner, TokenKind.isOpening,
        TokenKind.isClosing, List.length_cons]
      simp only [if_true, Bool.false_eq_true, if_false]
      omega

end Leaves

/-! ### Scanning -/

namespace Scanner

variable {s s' : Scanner} {ks : List TokenKind}

/-- A token is allowed by the brackets in front of it, and is what changes them. -/
theorem brackets_of_next {t : Token} (h : s.next = .token t s') :
    t.depth = s.brackets.length ∧ allows s.brackets t.kind = true ∧
      s'.brackets = bracketsBehind s.brackets t.kind := by
  rcases next_eq_token h with ⟨c, cs, more, _, hlexeme, hdepth, rfl⟩
  have hallows : allows s.skipLayout.brackets t.kind = true := allows_of_lexeme hlexeme
  exact ⟨hdepth, hallows, rfl⟩

/-- Scanners know which brackets are open. -/
theorem leaves_of_steps (h : Steps s ks s') : ∀ {front : List TokenKind},
    Leaves front s.brackets → Leaves (front ++ ks) s'.brackets := by
  induction h with
  | refl s =>
      intro front hfront
      rwa [List.append_nil]
  | skip _ _ _ ih => exact ih
  | @token s s' s'' t ks hnext _ ih =>
      intro front hfront
      rcases brackets_of_next hnext with ⟨_, hallows, hbehind⟩
      have hstep := hfront.step hallows
      rw [← hbehind] at hstep
      simpa using ih hstep

/-- Steps take characters off the front, and the place moves by their number. -/
theorem rest_of_steps (h : Steps s ks s') :
    s'.position + s'.rest.length = s.position + s.rest.length ∧ s'.rest <:+ s.rest := by
  induction h with
  | refl s => exact ⟨rfl, List.suffix_rfl⟩
  | @skip s s' c cs ks hrest _ _ ih =>
      refine ⟨?_, ih.2.trans ⟨[c], by rw [hrest]; rfl⟩⟩
      rw [ih.1, hrest]
      simp only [pass, List.length_cons]
      omega
  | @token s s' s'' t ks hnext _ ih =>
      rcases rest_of_next hnext with ⟨taken, hrest, _⟩
      exact ⟨ih.1.trans (finish_of_next hnext).2.2, ih.2.trans ⟨taken, hrest.symm⟩⟩

/-- What is left to scan is the text from the place of the scanner on. -/
theorem drop_position {text : List Char} (h : Steps (.start text) ks s) :
    text.drop s.position = s.rest := by
  rcases rest_of_steps h with ⟨hlength, taken, htaken⟩
  have hsplit : taken ++ s.rest = text := htaken
  have htotal : s.position + s.rest.length = text.length := by
    simpa [start] using hlength
  have hposition : s.position = taken.length := by
    rw [← hsplit, List.length_append] at htotal
    omega
  rw [hposition, ← hsplit, List.drop_left]

/-- A closing bracket that the open brackets do not allow begins no token. -/
theorem next_of_closer {bracket : Bracket} {behind : List Char}
    (hrest : s.rest = bracket.closer :: behind) (hopen : s.brackets.head? ≠ some bracket) :
    ∃ depth, s.next = .fault ⟨.lexical, .strayCharacter, s.position⟩ depth := by
  have hlayout : isLayout bracket.closer = false := by cases bracket <;> decide
  have hsymbol : IsSymbol bracket.closer := by cases bracket <;> decide
  have hkind : punctuation? bracket.closer = some (.closing bracket) := by cases bracket <;> rfl
  have hallows : allows s.brackets (.closing bracket) = false := by simpa [allows] using hopen
  have hnumber := hsymbol.beginsNumber s.afterOperand behind
  rcases hsymbol with ⟨halpha, _, _, hquote⟩
  have hlexeme : s.lexeme bracket.closer behind =
      .error ⟨.lexical, .strayCharacter, s.position⟩ := by
    simp only [lexeme, halpha, hnumber, hquote, hkind, hallows, Bool.false_eq_true, if_false]
  refine ⟨s.depthAtFault bracket.closer, ?_⟩
  rw [next, skipLayout_of_head hrest hlayout]
  simp only [nextHere, hrest, hlexeme]

end Scanner

namespace Scan

open Scanner

/-- The tokens of a scan are steps to one place after another. -/
theorem steps_of_run (s : Scanner) :
    (∃ s', Steps s (kinds (run s).tokens) s') ∧
      ∀ before t after, (run s).tokens = before ++ t :: after →
        ∃ s' s'', Steps s (kinds before) s' ∧ s'.next = .token t s'' := by
  fun_induction run s with
  | case1 s => exact ⟨⟨s, .refl s⟩, by simp⟩
  | case2 s => exact ⟨⟨s, .refl s⟩, by simp⟩
  | case3 s t s' hnext _ _ ih =>
      rcases ih with ⟨⟨last, hlast⟩, hsteps⟩
      refine ⟨⟨last, .token hnext hlast⟩, fun before u after hsplit => ?_⟩
      rcases before with _ | ⟨v, before⟩
      · simp only [List.nil_append, List.cons.injEq] at hsplit
        exact ⟨s, s', .refl s, hsplit.1 ▸ hnext⟩
      · simp only [List.cons_append, List.cons.injEq] at hsplit
        rcases hsteps before u after hsplit.2 with ⟨s₁, s₂, hbefore, hu⟩
        exact ⟨s₁, s₂, hsplit.1 ▸ .token hnext hbefore, hu⟩

end Scan

open Scanner (Steps)

/-- Brackets and priorities. If a text has tokens, closing what they leave open makes
    them well bracketed, a closing bracket among them closes the innermost open one,
    and the priority of a token is its own plus ten for each bracket that the tokens
    in front of it opened and did not close. The sum is one of words, and where so few
    brackets are open that the highest priority fits a word, it is one of numbers. If
    scanning a text comes to a closing bracket of another shape than the innermost open
    one, or with none open, that is its lexical fault. -/
theorem tokenize_brackets (text : List Char) :
    (∀ tokens, tokenize text = .ok tokens →
      (∃ brackets : List Bracket, WellBracketed (kinds tokens ++ brackets.map .closing)) ∧
      ∀ (before : List Token) (t : Token) (after : List Token), tokens = before ++ t :: after →
        (∀ bracket, t.kind = .closing bracket → Innermost bracket (kinds before)) ∧
        (∃ depth, openings (kinds before) = closings (kinds before) + depth ∧
          t.wordPriority = UInt32.ofNat t.kind.basePriority + 10 * UInt32.ofNat depth ∧
          (Token.topPriority depth < UInt32.size →
            t.wordPriority.toNat = t.kind.basePriority + 10 * depth)) ∧
        (t.kind.isSymbol = false → t.kind.basePriority = 0) ∧
        (t.kind.isSymbol = true → symbolPriority? t.kind.text = some t.kind.basePriority)) ∧
    ∀ ks s bracket behind, Steps (.start text) ks s → s.rest = bracket.closer :: behind →
      ¬ Innermost bracket ks →
      text.drop s.position = bracket.closer :: behind ∧
        ∃ e, tokenize text = .error e ∧ e.position = s.position ∧ e.issue.kind = .lexical ∧
          e.issue.message = "Unexpected char" := by
  have hstart : Leaves [] (Scanner.start text).brackets := .none .nil
  refine ⟨fun tokens h => ?_, fun ks s bracket behind hsteps hrest hopen => ?_⟩
  · rcases tokenize_eq_ok_iff.mp h with ⟨_, rfl⟩
    rw [Scan.ofText_eq_run]
    rcases Scan.steps_of_run (.start text) with ⟨⟨last, hlast⟩, hsteps⟩
    refine ⟨⟨last.brackets, ?_⟩, fun before t after hsplit => ?_⟩
    · simpa using (Scanner.leaves_of_steps hlast hstart).wellBracketed .nil
    · rcases hsteps before t after hsplit with ⟨s, s', hbefore, hnext⟩
      have hleaves := Scanner.leaves_of_steps hbefore hstart
      rcases Scanner.brackets_of_next hnext with ⟨hdepth, hallows, _⟩
      refine ⟨fun bracket hkind => ?_, ⟨s.brackets.length, hleaves.openings_eq, ?_, fun htop => ?_⟩,
        TokenKind.basePriority_of_not_isSymbol, TokenKind.symbolPriority?_text⟩
      · rw [hkind] at hallows
        exact hleaves.innermost (by simpa [Scanner.allows] using hallows)
      · rw [Token.wordPriority, Token.wordBoost, hdepth, UInt32.add_comm, UInt32.mul_comm]
        rfl
      · rw [← hdepth] at htop ⊢
        exact Token.toNat_wordPriority htop
  · have hleaves := Scanner.leaves_of_steps hsteps hstart
    have hhead : s.brackets.head? ≠ some bracket := fun hhead => hopen (hleaves.innermost hhead)
    rcases Scanner.next_of_closer hrest hhead with ⟨depth, hnext⟩
    rcases Scan.run_of_steps hsteps with ⟨ts, _, hrun⟩
    rw [Scan.run_of_fault hnext] at hrun
    refine ⟨hrest ▸ Scanner.drop_position hsteps, ⟨.lexical, .strayCharacter, s.position⟩, ?_, rfl,
      rfl, rfl⟩
    exact tokenize_eq_error_iff.mpr ⟨depth, by rw [Scan.ofText_eq_run, hrun]⟩

/-- Brackets inside of a text constant do not count. Without its last character the
    text has tokens that leave two brackets open, and that last one closes the outer
    of them. -/
theorem brackets_of_crossed_groups :
    (∃ tokens before t after, tokenize "(\")\", [a".toList = .ok tokens ∧
      tokens = before ++ t :: after ∧ t.kind = .name "a" ∧
      (∃ brackets : List Bracket, WellBracketed (kinds tokens ++ brackets.map .closing)) ∧
      ∃ depth, openings (kinds before) = closings (kinds before) + depth ∧
        t.wordPriority.toNat = t.kind.basePriority + 10 * depth) ∧
    ∃ ks s, Steps (.start "(\")\", [)".toList) ks s ∧ s.rest = [')'] ∧ ¬ Innermost .round ks ∧
      ∃ e, tokenize "(\")\", [)".toList = .error e ∧ e.position = s.position ∧
        e.issue.kind = .lexical := by
  have htokens : tokenize "(\")\", [a".toList = .ok ([⟨.opening .round, 0, 1, 0⟩,
      ⟨.constant (.text ")"), 1, 4, 1⟩, ⟨.comma, 4, 5, 1⟩, ⟨.opening .square, 6, 7, 1⟩] ++
        ⟨.name "a", 7, 8, 2⟩ :: []) := by
    with_unfolding_all rfl
  have hsteps : Steps (.start "(\")\", [)".toList)
      [.opening .round, .constant (.text ")"), .comma, .opening .square]
      ⟨[')'], 7, some '[', [.square, .round], false⟩ :=
    .token (t := ⟨_, 0, 1, 0⟩) rfl <| .token (t := ⟨_, 1, 4, 1⟩) rfl <|
      .token (t := ⟨_, 4, 5, 1⟩) rfl <| .token (t := ⟨_, 6, 7, 1⟩) rfl <| .refl _
  have hcrossed : ¬ Innermost .round
      [.opening .round, .constant (.text ")"), .comma, .opening .square] :=
    fun h => absurd h.head?_foldl (by decide)
  refine ⟨?_, _, _, hsteps, rfl, hcrossed, ?_⟩
  · rcases (tokenize_brackets _).1 _ htokens with ⟨hclosed, hplaces⟩
    rcases (hplaces _ _ _ rfl).2.1 with ⟨depth, hdepth, _, hplain⟩
    have hopen : openings (kinds [⟨.opening .round, 0, 1, 0⟩, ⟨.constant (.text ")"), 1, 4, 1⟩,
        ⟨.comma, 4, 5, 1⟩, ⟨.opening .square, 6, 7, 1⟩]) = 2 := rfl
    have htwo : depth = 2 := by
      rw [hopen] at hdepth
      simpa [closings, kinds, TokenKind.isClosing] using hdepth.symm
    exact ⟨_, _, _, _, htokens, rfl, rfl, hclosed, depth, hdepth, hplain (by rw [htwo]; decide)⟩
  · rcases (tokenize_brackets _).2 _ _ _ _ hsteps rfl hcrossed with
      ⟨_, e, he, hposition, hkind, _⟩
    exact ⟨e, he, hposition, hkind⟩

end Scriptlet
