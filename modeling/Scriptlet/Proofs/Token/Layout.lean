import Scriptlet.Proofs.Token.Cover
import Scriptlet.Proofs.Token.Spelling

/-!
# Layout

How much layout stands between two tokens, and of which characters it is made,
does not matter to scanning. Whether there is any does: a point behind a blank
joins nothing, and two names with a blank between them are not one.

Two texts are relaid from one another (`Relaid`) if they are the same but for
their runs of layout outside of quotes, each of which is some other run in the
other text, and none of which is empty. Scanning both goes in step. At every
step the scanners have relaid texts before them and the same brackets open, and
they look back at the same character, or both at layout. No decision needs more
than that: what looks at a character that may be layout asks only whether it is
a letter, a digit, a point or the second half of an operator, and all layout
gives the same answer.

## Main definitions

* `Relaid`: Texts that differ in their layout only.
* `SameOrLayout`: The same character, or layout on both sides.
* `Token.Alike`: Tokens of the same kind inside as many brackets.
* `Scanner.InStep`: Scanners that go in step.

## Theorems

* `Relaid.append_word`: Relaid texts begin with the same token.
* `lexeme_of_inStep`: The same character begins the same token in both.
* `token_of_inStep`, `done_of_inStep`: One step in both.
* `Scan.alike_of_inStep`: All steps in both.
* `alike_of_relaid`: Relaid texts have alike tokens.
-/

namespace Scriptlet

/-- Texts that differ in their layout only. Every run of layout outside of quotes
    is a run of layout in the other text, and neither is empty. -/
inductive Relaid : List Char → List Char → Prop where
  | nil : Relaid [] []
  | same {c : Char} {cs ds : List Char} (visible : isLayout c = false) (unquoted : c ≠ '"')
      (more : Relaid cs ds) : Relaid (c :: cs) (c :: ds)
  | quoted {text cs ds : List Char} (closed : '"' ∉ text) (more : Relaid cs ds) :
      Relaid ('"' :: (text ++ '"' :: cs)) ('"' :: (text ++ '"' :: ds))
  | layout {gap gap' cs ds : List Char} (some_left : gap ≠ []) (some_right : gap' ≠ [])
      (layout_left : gap.all isLayout = true) (layout_right : gap'.all isLayout = true)
      (more : Relaid cs ds) : Relaid (gap ++ cs) (gap' ++ ds)

/-- The same character, or layout on both sides. -/
def SameOrLayout (a b : Option Char) : Prop :=
  a = b ∨ a.any isLayout = true ∧ b.any isLayout = true

namespace SameOrLayout

variable {a b : Option Char}

/-- A test that fails on layout does not tell them apart. -/
theorem any_eq (h : SameOrLayout a b) {p : Char → Bool}
    (hp : ∀ c, isLayout c = true → p c = false) : b.any p = a.any p := by
  have hnone : ∀ {x : Option Char}, x.any isLayout = true → x.any p = false := by
    intro x hx
    rcases x with _ | c
    · rfl
    · exact hp c hx
  rcases h with rfl | ⟨ha, hb⟩
  · rfl
  · rw [hnone ha, hnone hb]

theorem eq_some_iff (h : SameOrLayout a b) {c : Char} (hc : isLayout c = false) :
    b = some c ↔ a = some c := by
  have hnone : ∀ {x : Option Char}, x.any isLayout = true → x ≠ some c := by
    rintro x hx rfl
    rw [Option.any_some, hc] at hx
    simp at hx
  rcases h with rfl | ⟨ha, hb⟩
  · rfl
  · simp only [hnone ha, hnone hb]

end SameOrLayout

/-- The characters of layout, one by one. -/
theorem isLayout_cases {c : Char} (hc : isLayout c = true) :
    c = ' ' ∨ c = '\n' ∨ c = '\r' ∨ c = '\t' := by
  simp only [isLayout, Bool.or_eq_true, beq_iff_eq] at hc
  rcases hc with ((hc | hc) | hc) | hc <;> simp [hc]

theorem isAlphanum_of_isLayout {c : Char} (hc : isLayout c = true) : c.isAlphanum = false := by
  rcases isLayout_cases hc with rfl | rfl | rfl | rfl <;> decide

theorem isDigit_of_isLayout {c : Char} (hc : isLayout c = true) : c.isDigit = false := by
  rcases isLayout_cases hc with rfl | rfl | rfl | rfl <;> decide

theorem isAlpha_of_isLayout {c : Char} (hc : isLayout c = true) : c.isAlpha = false := by
  rcases isLayout_cases hc with rfl | rfl | rfl | rfl <;> decide

theorem isBlank_of_isLayout {c : Char} (hc : isLayout c = true) : Text.isBlank c = true := by
  rcases isLayout_cases hc with rfl | rfl | rfl | rfl <;> decide

namespace Relaid

variable {cs ds : List Char}

/-! ### The front of relaid texts -/

theorem head_of_layout {gap : List Char} (hne : gap ≠ []) (hall : gap.all isLayout = true)
    (cs : List Char) : (gap ++ cs).head?.any isLayout = true := by
  rcases gap with _ | ⟨c, gap⟩
  · exact absurd rfl hne
  · simp only [List.all_cons, Bool.and_eq_true] at hall
    exact hall.1

theorem head (h : Relaid cs ds) : SameOrLayout cs.head? ds.head? := by
  cases h with
  | nil | same _ _ _ | quoted _ _ => exact .inl rfl
  | layout hne hne' hall hall' _ =>
      exact .inr ⟨head_of_layout hne hall _, head_of_layout hne' hall' _⟩

/-- What is visible in front is the same in both texts. -/
theorem cons_cases {c : Char} (h : Relaid (c :: cs) ds) (hc : isLayout c = false) :
    (c ≠ '"' ∧ ∃ ds', ds = c :: ds' ∧ Relaid cs ds') ∨
    (c = '"' ∧ ∃ text cs' ds', '"' ∉ text ∧ cs = text ++ '"' :: cs' ∧
      ds = '"' :: (text ++ '"' :: ds') ∧ Relaid cs' ds') := by
  generalize hfront : c :: cs = front at h
  cases h with
  | nil => simp at hfront
  | same _ hquote hmore =>
      simp only [List.cons.injEq] at hfront
      rcases hfront with ⟨rfl, rfl⟩
      exact .inl ⟨hquote, _, rfl, hmore⟩
  | quoted hclosed hmore =>
      simp only [List.cons.injEq] at hfront
      rcases hfront with ⟨rfl, rfl⟩
      exact .inr ⟨rfl, _, _, _, hclosed, rfl, rfl, hmore⟩
  | @layout _ _ behind _ hne _ hall _ _ =>
      have hhead := head_of_layout hne hall behind
      rw [← hfront, List.head?_cons, Option.any_some, hc] at hhead
      simp at hhead

/-- Layout is skipped in both. -/
theorem dropLayout (h : Relaid cs ds) :
    Relaid (cs.dropWhile isLayout) (ds.dropWhile isLayout) := by
  induction h with
  | nil => exact .nil
  | same hvisible hquote hmore _ =>
      rw [List.dropWhile_cons_of_neg (by simp [hvisible]),
        List.dropWhile_cons_of_neg (by simp [hvisible])]
      exact .same hvisible hquote hmore
  | quoted hclosed hmore _ => exact .quoted hclosed hmore
  | layout _ _ hall hall' _ ih =>
      rw [List.dropWhile_append_of_pos (List.all_eq_true.mp hall),
        List.dropWhile_append_of_pos (List.all_eq_true.mp hall')]
      exact ih

/-- Behind the layout the same character comes first. -/
theorem head_dropLayout (h : Relaid cs ds) :
    (ds.dropWhile isLayout).head? = (cs.dropWhile isLayout).head? := by
  have hvisible := List.head?_dropWhile_not isLayout cs
  rcases h.dropLayout.head with heq | ⟨hlayout, _⟩
  · exact heq.symm
  · rcases hhead : (cs.dropWhile isLayout).head? with _ | c
    · rw [hhead] at hlayout
      simp at hlayout
    · rw [hhead] at hlayout hvisible
      simp_all

/-- A word of visible characters is taken off both. -/
theorem takeWhile_word (h : Relaid cs ds) {p : Char → Bool}
    (hp : ∀ c, isLayout c = true → p c = false) (hquote : p '"' = false) :
    ds.takeWhile p = cs.takeWhile p ∧ Relaid (cs.dropWhile p) (ds.dropWhile p) := by
  induction h with
  | nil => exact ⟨rfl, .nil⟩
  | @same c cs ds hvisible hunquoted hmore ih =>
      by_cases hc : p c = true
      · rw [List.takeWhile_cons_of_pos hc, List.takeWhile_cons_of_pos hc,
          List.dropWhile_cons_of_pos hc, List.dropWhile_cons_of_pos hc, ih.1]
        exact ⟨rfl, ih.2⟩
      · rw [List.takeWhile_cons_of_neg hc, List.takeWhile_cons_of_neg hc,
          List.dropWhile_cons_of_neg hc, List.dropWhile_cons_of_neg hc]
        exact ⟨rfl, .same hvisible hunquoted hmore⟩
  | quoted hclosed hmore _ =>
      have hnot : ¬ p '"' = true := by simp [hquote]
      rw [List.takeWhile_cons_of_neg hnot, List.takeWhile_cons_of_neg hnot,
        List.dropWhile_cons_of_neg hnot, List.dropWhile_cons_of_neg hnot]
      exact ⟨rfl, .quoted hclosed hmore⟩
  | @layout gap gap' cs ds hne hne' hall hall' hmore _ =>
      -- Neither word goes into the layout.
      have hnone : ∀ {gap : List Char}, gap ≠ [] → gap.all isLayout = true → ∀ cs : List Char,
          (gap ++ cs).takeWhile p = [] ∧ (gap ++ cs).dropWhile p = gap ++ cs := by
        intro gap hne hall cs
        rcases gap with _ | ⟨c, gap⟩
        · exact absurd rfl hne
        · simp only [List.all_cons, Bool.and_eq_true] at hall
          have hnot : ¬ p c = true := by simp [hp c hall.1]
          exact ⟨List.takeWhile_cons_of_neg hnot, List.dropWhile_cons_of_neg hnot⟩
      rw [(hnone hne hall cs).1, (hnone hne' hall' ds).1, (hnone hne hall cs).2,
        (hnone hne' hall' ds).2]
      exact ⟨rfl, .layout hne hne' hall hall' hmore⟩

end Relaid

/-- No layout is inside of a token, but for the blanks inside of quotes. -/
theorem Spells.visible {before : Option Char} {word : List Char} {kind : TokenKind}
    (h : Spells before word kind) :
    (∀ c ∈ word, isLayout c = false ∧ c ≠ '"') ∨
      ∃ text, '"' ∉ text ∧ word = '"' :: (text ++ ['"']) := by
  have hvisible : ∀ {c : Char}, c.isAlphanum = true → isLayout c = false ∧ c ≠ '"' := by
    intro c hc
    refine ⟨Bool.eq_false_iff.mpr fun hlayout => ?_, ?_⟩
    · rw [isAlphanum_of_isLayout hlayout] at hc
      simp at hc
    · rintro rfl
      exact absurd hc (by decide)
  have hname : ∀ {name : String}, isIdentifier name = true →
      ∀ c ∈ name.toList, isLayout c = false ∧ c ≠ '"' := by
    intro name hname c hc
    rcases Scanner.toList_of_isIdentifier hname with ⟨d, more, heq, hd, hmore⟩
    rw [heq] at hc
    rcases List.mem_cons.mp hc with rfl | hc
    · exact hvisible (by simp [Char.isAlphanum, hd])
    · exact hvisible (List.all_eq_true.mp hmore c hc)
  have hsymbol : ∀ {word : List Char}, word.all (fun c => !isLayout c && c != '"') = true →
      ∀ c ∈ word, isLayout c = false ∧ c ≠ '"' := by
    intro word hall c hc
    simpa using List.all_eq_true.mp hall c hc
  cases h with
  | number _ hwhole hfraction =>
      left
      have hdigit : ∀ {digits : List Char}, digits.all Char.isDigit = true →
          ∀ c ∈ digits, isLayout c = false ∧ c ≠ '"' := fun hall c hc =>
        hvisible (by simp [Char.isAlphanum, List.all_eq_true.mp hall c hc])
      intro c hc
      rw [Number.numeral, List.mem_append] at hc
      rcases hc with hc | hc
      · exact hdigit hwhole c hc
      · split at hc
        · simp at hc
        · rcases List.mem_cons.mp hc with rfl | hc
          · decide
          · exact hdigit hfraction c hc
  | text htext => exact .inr ⟨_, htext, rfl⟩
  | member hidentifier | name hidentifier | function hidentifier => exact .inl (hname hidentifier)
  | truth value => exact .inl (hname (by cases value <;> rfl))
  | operator op => exact .inl (hsymbol (by cases op <;> decide))
  | comma => exact .inl (hsymbol (by decide))
  | opening bracket | closing bracket => exact .inl (hsymbol (by cases bracket <;> decide))

namespace Relaid

/-- Relaid texts begin with the same word of visible characters. -/
theorem append_visible {word : List Char} (hword : ∀ c ∈ word, isLayout c = false ∧ c ≠ '"') :
    ∀ {rest ds : List Char}, Relaid (word ++ rest) ds →
      ∃ rest', ds = word ++ rest' ∧ Relaid rest rest' := by
  induction word with
  | nil => exact fun h => ⟨_, rfl, h⟩
  | cons c word ih =>
      intro rest ds h
      have hc := hword c (List.mem_cons_self ..)
      rcases h.cons_cases hc.1 with ⟨_, ds', rfl, hmore⟩ | ⟨hquote, _⟩
      · rcases ih (fun d hd => hword d (List.mem_cons_of_mem _ hd)) hmore with ⟨rest', rfl, hrest⟩
        exact ⟨rest', rfl, hrest⟩
      · exact absurd hquote hc.2

/-- Relaid texts begin with the same token. -/
theorem append_word {before : Option Char} {word rest ds : List Char} {kind : TokenKind}
    (hword : Spells before word kind) (h : Relaid (word ++ rest) ds) :
    ∃ rest', ds = word ++ rest' ∧ Relaid rest rest' := by
  rcases hword.visible with hvisible | ⟨text, htext, rfl⟩
  · exact append_visible hvisible h
  · rw [List.cons_append, List.append_assoc, List.singleton_append] at h
    rcases h.cons_cases rfl with ⟨hquote, _⟩ | ⟨_, text', cs', ds', htext', hcs, rfl, hmore⟩
    · exact absurd rfl hquote
    · -- Both texts go up to the first quote.
      have hword : ∀ {text : List Char}, '"' ∉ text → ∀ cs : List Char,
          (text ++ '"' :: cs).takeWhile (· ≠ '"') = text := fun htext cs =>
        Text.takeWhile_word (List.all_eq_true.mpr fun c hc =>
          decide_eq_true fun heq => htext (heq ▸ hc)) rfl
      have heq := congrArg (List.takeWhile (· ≠ '"')) hcs
      rw [hword htext, hword htext'] at heq
      subst heq
      have hrest := List.append_cancel_left hcs
      simp only [List.cons.injEq, true_and] at hrest
      rw [hrest]
      exact ⟨ds', by simp, hmore⟩

end Relaid

/-- Tokens of the same kind inside as many brackets. -/
def Token.Alike (t t' : Token) : Prop :=
  t'.kind = t.kind ∧ t'.depth = t.depth

namespace Scanner

variable {cs ds : List Char}

/-! ### One token -/

theorem nameKind_of_relaid {before before' : Option Char} (hbefore : SameOrLayout before before')
    (h : Relaid cs ds) (name : String) : nameKind before' name ds = nameKind before name cs := by
  simp only [nameKind, h.head_dropLayout, hbefore.eq_some_iff (c := '.') rfl]

theorem numeral_of_point {tail : List Char} (h : cs.dropWhile Char.isDigit = '.' :: tail)
    (afterOperand : Bool) :
    numeral afterOperand cs = (cs.takeWhile Char.isDigit,
      if !afterOperand && tail.head?.any Char.isDigit then tail.takeWhile Char.isDigit
      else []) := by
  rcases tail with _ | ⟨d, ds⟩
  · simp [numeral, h]
  · by_cases hd : d.isDigit = true
    · cases afterOperand <;> simp [numeral, h, hd]
    · simp [numeral, h, hd]

theorem numeral_of_no_point (h : (cs.dropWhile Char.isDigit).head? ≠ some '.')
    (afterOperand : Bool) : numeral afterOperand cs = (cs.takeWhile Char.isDigit, []) := by
  unfold numeral
  split
  · next hbehind => simp [hbehind] at h
  · rfl

theorem numeral_of_relaid (h : Relaid cs ds) (afterOperand : Bool) :
    numeral afterOperand ds = numeral afterOperand cs := by
  rcases h.takeWhile_word (fun _ => isDigit_of_isLayout) rfl with ⟨hwhole, hbehind⟩
  by_cases hpoint : (cs.dropWhile Char.isDigit).head? = some '.'
  · rcases hcs : cs.dropWhile Char.isDigit with _ | ⟨c, tail⟩
    · simp [hcs] at hpoint
    rw [hcs, List.head?_cons, Option.some.injEq] at hpoint
    subst hpoint
    rw [hcs] at hbehind
    rcases hbehind.cons_cases rfl with ⟨_, tail', hds, htail⟩ | ⟨hquote, _⟩
    · -- The digits behind the point are the same, and so is whether there are any.
      rw [numeral_of_point hcs, numeral_of_point hds, hwhole,
        htail.head.any_eq fun _ => isDigit_of_isLayout,
        (htail.takeWhile_word (fun _ => isDigit_of_isLayout) rfl).1]
    · simp at hquote
  · have hpoint' : (ds.dropWhile Char.isDigit).head? ≠ some '.' := by
      rwa [ne_eq, hbehind.head.eq_some_iff rfl]
    rw [numeral_of_no_point hpoint, numeral_of_no_point hpoint', hwhole]

theorem beginsNumber_of_relaid (h : Relaid cs ds) (afterOperand : Bool) (c : Char) :
    beginsNumber afterOperand c ds = beginsNumber afterOperand c cs := by
  rw [beginsNumber, beginsNumber, h.head.any_eq fun _ => isDigit_of_isLayout]

theorem doubled?_of_layout {next : Option Char} (h : next.any isLayout = true) (c : Char) :
    doubled? c next = none := by
  unfold doubled?
  split <;> first | rfl | simp [isLayout] at h

theorem doubled?_of_sameOrLayout {next next' : Option Char} (h : SameOrLayout next next')
    (c : Char) : doubled? c next' = doubled? c next := by
  rcases h with rfl | ⟨hnext, hnext'⟩
  · rfl
  · rw [doubled?_of_layout hnext, doubled?_of_layout hnext']

theorem single?_of_sameOrLayout {before before' next next' : Option Char}
    (hbefore : SameOrLayout before before') (hnext : SameOrLayout next next') (c : Char) :
    single? before' next' c = single? before next c := by
  have hjoins : joinsMember before' next' = joinsMember before next := by
    rw [joinsMember, joinsMember, hnext.any_eq fun _ => isAlpha_of_isLayout,
      hbefore.any_eq fun _ hc => by rw [isBlank_of_isLayout hc]; rfl]
  unfold single?
  rw [hjoins]

/-- Scanners that go in step. -/
structure InStep (s s' : Scanner) : Prop where
  rest : Relaid s.rest s'.rest
  before : SameOrLayout s.before s'.before
  brackets : s'.brackets = s.brackets
  afterOperand : s'.afterOperand = s.afterOperand

theorem InStep.skipLayout {s s' : Scanner} (h : InStep s s') :
    InStep s.skipLayout s'.skipLayout := by
  refine ⟨h.rest.dropLayout, ?_, h.brackets, h.afterOperand⟩
  have hfront : ∀ {cs : List Char}, cs.takeWhile isLayout = [] ↔ cs.head?.any isLayout = false := by
    intro cs
    rcases cs with _ | ⟨c, cs⟩
    · simp
    · by_cases hc : isLayout c = true <;> simp [hc]
  have hlast : ∀ {cs : List Char} {before : Option Char}, cs.takeWhile isLayout ≠ [] →
      ((cs.takeWhile isLayout).getLast?.or before).any isLayout = true := by
    intro cs before hne
    have hany := any_getLast? List.all_takeWhile hne
    rw [List.getLast?_eq_some_getLast hne] at hany ⊢
    exact hany
  have hsame : s'.rest.head?.any isLayout = s.rest.head?.any isLayout := by
    rcases h.rest.head with heq | ⟨hlayout, hlayout'⟩
    · rw [heq]
    · rw [hlayout, hlayout']
  -- With a gap both look back at layout, and without one at what they looked back at before.
  by_cases hgap : s.rest.takeWhile isLayout = []
  · have hgap' : s'.rest.takeWhile isLayout = [] := by
      rwa [hfront, hsame, ← hfront]
    simp only [Scanner.skipLayout, hgap, hgap', List.getLast?_nil, Option.none_or]
    exact h.before
  · have hgap' : s'.rest.takeWhile isLayout ≠ [] := by
      rwa [ne_eq, hfront, hsame, ← hfront]
    exact .inr ⟨hlast hgap, hlast hgap'⟩

/-- What a character begins does not depend on where it stands. Only a fault has a place. -/
theorem toOption_lexeme (s : Scanner) (position : Nat) (c : Char) (cs : List Char) :
    ({ s with position }.lexeme c cs).toOption = (s.lexeme c cs).toOption := by
  unfold lexeme
  cases punctuation? c with
  | some kind =>
      simp only [apply_ite Except.toOption]
      rfl
  | none =>
      cases doubled? c cs.head? with
      | some op =>
          simp only [apply_ite Except.toOption]
          rfl
      | none =>
          cases single? s.before cs.head? c <;>
            · simp only [apply_ite Except.toOption]
              rfl

/-- The same character begins the same token in both, or none in either. -/
theorem lexeme_of_inStep {s s' : Scanner} (hs : InStep s s') {c : Char}
    (hrest : s.rest = c :: cs) (hrest' : s'.rest = c :: ds) (hc : isLayout c = false) :
    (s'.lexeme c ds).toOption = (s.lexeme c cs).toOption := by
  rw [← toOption_lexeme s' s.position]
  have hrelaid := hs.rest
  rw [hrest, hrest'] at hrelaid
  have hnumeral := numeral_of_relaid hrelaid s.afterOperand
  rcases hrelaid.cons_cases hc with
    ⟨hquote, ds', heq, h⟩ | ⟨rfl, text, cs', ds', htext, hcs, hds, _⟩
  · simp only [List.cons.injEq, true_and] at heq
    subst heq
    rcases h.takeWhile_word (fun _ => isAlphanum_of_isLayout) rfl with ⟨hword, hbehind⟩
    have hname := nameKind_of_relaid hs.before hbehind
      (String.ofList (c :: cs.takeWhile Char.isAlphanum))
    have hdrop := drop_takeWhile Char.isAlphanum ds
    rw [hword] at hdrop
    simp only [lexeme, hword, hdrop, drop_takeWhile, hname, hs.afterOperand, hs.brackets,
      beginsNumber_of_relaid h, hnumeral, if_neg hquote, doubled?_of_sameOrLayout h.head,
      single?_of_sameOrLayout hs.before h.head]
  · -- A text that is closed in both is the same text.
    simp only [List.cons.injEq, true_and] at hds
    rw [hcs, hds, lexeme_of_text htext, lexeme_of_text htext]

/-- Where one finds a token, so does the other, and they stay in step. -/
theorem token_of_inStep {s s' s₁ : Scanner} {t : Token} (h : InStep s s')
    (hnext : s.next = .token t s₁) :
    ∃ t' s₁', s'.next = .token t' s₁' ∧ t.Alike t' ∧ InStep s₁ s₁' := by
  rcases next_eq_token hnext with ⟨c, cs, more, hrest, hlexeme, hdepth, rfl⟩
  have hskip := h.skipLayout
  have hvisible : isLayout c = false := by
    have hhead := List.head?_dropWhile_not isLayout s.rest
    have hskipped : s.rest.dropWhile isLayout = c :: cs := hrest
    rw [hskipped] at hhead
    simpa using hhead
  -- Both begin with the characters of the token, and are relaid behind them.
  have hrelaid := hskip.rest
  have hsplit : s.skipLayout.rest = (c :: cs.take more) ++ cs.drop more := by
    rw [hrest, List.cons_append, List.take_append_drop]
  rw [hsplit] at hrelaid
  rcases hrelaid.append_word (spells_of_lexeme hlexeme) with ⟨behind, hrest', hbehind⟩
  rw [List.cons_append] at hrest'
  have hlength : (cs.take more).length = more := by
    have hmore := length_le_of_lexeme hlexeme
    rw [List.length_take]
    omega
  have htake : (cs.take more ++ behind).take more = cs.take more := List.take_left' hlength
  have hdrop : (cs.take more ++ behind).drop more = behind := List.drop_left' hlength
  have hlexeme' : s'.skipLayout.lexeme c (cs.take more ++ behind) = .ok (t.kind, more) := by
    have hsame := lexeme_of_inStep hskip hrest hrest' hvisible
    rw [hlexeme] at hsame
    cases hother : s'.skipLayout.lexeme c (cs.take more ++ behind) with
    | error e => rw [hother] at hsame; cases hsame
    | ok lexeme => rw [hother] at hsame; cases hsame; rfl
  have hnext' : s'.next = .token
      ⟨t.kind, s'.skipLayout.position,
        stopBehind c (s'.skipLayout.advance t.kind c (cs.take more ++ behind) more),
        s'.brackets.length⟩ (s'.skipLayout.advance t.kind c (cs.take more ++ behind) more) := by
    simp only [next, nextHere, hrest', hlexeme']
    rfl
  refine ⟨_, _, hnext', ⟨rfl, ?_⟩, ?_, .inl ?_, ?_, rfl⟩
  · rw [hdepth, h.brackets]
  · simp only [advance, hdrop]
    exact hbehind
  · simp only [advance, htake]
  · simp only [advance, hskip.brackets]

theorem done_of_inStep {s s' : Scanner} {stop : Nat} (h : InStep s s')
    (hnext : s.next = .done stop) : ∃ stop', s'.next = .done stop' := by
  have hrest := h.skipLayout.rest.head
  rw [(next_eq_done hnext).1] at hrest
  -- There is no layout in front of nothing.
  have hnil : s'.skipLayout.rest = [] := by
    rcases hrest with hhead | ⟨hlayout, _⟩
    · exact List.head?_eq_none_iff.mp hhead.symm
    · simp at hlayout
  exact ⟨s'.skipLayout.position, by simp only [next, nextHere, hnil]⟩

end Scanner

open Scanner in
/-- Scanners in step find alike tokens, and if one comes to the end of its text so
    does the other. -/
theorem Scan.alike_of_inStep (s : Scanner) {stop depth : Nat}
    (hcomplete : (run s).ending = .complete stop depth) : ∀ s', InStep s s' →
      List.Forall₂ Token.Alike (run s).tokens (run s').tokens ∧
        ∃ stop', (run s').ending = .complete stop' depth := by
  fun_induction run s with
  | case1 s stop' hnext =>
      intro s' h
      rcases done_of_inStep h hnext with ⟨stop', hnext'⟩
      simp only [Ending.complete.injEq] at hcomplete
      rw [run_of_done hnext', h.brackets, hcomplete.2]
      exact ⟨.nil, stop', rfl⟩
  | case2 => simp at hcomplete
  | case3 s t s₁ hnext _ _ ih =>
      intro s' h
      rcases token_of_inStep h hnext with ⟨t', s₁', hnext', ht, hstep⟩
      rcases ih hcomplete s₁' hstep with ⟨htokens, stop', hending⟩
      rw [run_of_token hnext']
      exact ⟨.cons ht htokens, stop', hending⟩

/-- Relaid texts have alike tokens. -/
theorem alike_of_relaid {text text' : List Char} {tokens : List Token} (h : Relaid text text')
    (htokens : tokenize text = .ok tokens) :
    ∃ tokens', tokenize text' = .ok tokens' ∧ List.Forall₂ Token.Alike tokens tokens' := by
  rcases tokenize_eq_ok_iff.mp htokens with ⟨⟨stop, depth, hcomplete⟩, rfl⟩
  rw [Scan.ofText_eq_run] at hcomplete
  rcases Scan.alike_of_inStep (.start text) hcomplete (.start text') ⟨h, .inl rfl, rfl, rfl⟩ with
    ⟨halike, stop', hcomplete'⟩
  rw [← Scan.ofText_eq_run] at hcomplete'
  rw [← Scan.ofText_eq_run, ← Scan.ofText_eq_run] at halike
  exact ⟨_, tokenize_eq_ok_iff.mpr ⟨⟨stop', depth, hcomplete'⟩, rfl⟩, halike⟩

end Scriptlet
