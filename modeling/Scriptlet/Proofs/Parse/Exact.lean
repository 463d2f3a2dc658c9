import Scriptlet.Proofs.Parse.Reads

/-!
# Exact Readings

How many levels a reading takes, to the last one. `Reads` says that some number
of levels is enough, and `Reads.mono` that more are. Here the rules are turned
into equivalences: on given tokens there is one result, and one number of levels
from which on it is the answer. Below that number there is no answer at all, so
by `parse_settles` what the reader reports is that the levels ran out.

Each rule asks for the kind of the token that decides between the rules. The
exact number follows from the parts: brackets and operands in front of nothing
pass it on, and one more is needed for an expression and for an operator that is
added.

## Main definitions

* `ReadsAs`: Tokens have one reading, from a number of levels on.

## Theorems

* `readsAs_expression`, `readsAs_group`, `readsAs_comma` and others: The rules for what stands on
  its own.
* `reads_stop_iff`, `reads_suffix_iff`, `reads_binary_iff`, `reads_index_iff`: The rules for what
  is added to an operand.
* `readsAs_of_reads`: What is read at all is read from some number of levels on.
* `parse_of_readsAs`: A statement is read exactly if there are enough levels.
-/

namespace Scriptlet

namespace Parse

/-- The tokens are read as `a` in front of `rest` and not otherwise, and that
    takes `needed` levels and not fewer. -/
def ReadsAs {α : Type} (needed : Nat) (goal : α → Goal) (a : α) (tokens rest : List Token) : Prop :=
  ∀ levels x behind, Reads levels (goal x) tokens behind ↔ needed ≤ levels ∧ x = a ∧ behind = rest

variable {needed levels above : Nat} {e left right : Expr} {es : List Expr} {bracket : Bracket}
  {t closer : Token} {tokens behind rest : List Token}

theorem ReadsAs.reads {α : Type} {goal : α → Goal} {a : α} (h : ReadsAs needed goal a tokens rest) :
    Reads needed (goal a) tokens rest :=
  (h needed a rest).mpr ⟨Nat.le_refl _, rfl, rfl⟩

/-! ### Operands -/

theorem readsAs_constant {value : Literal} (hkind : t.kind = .constant value) :
    ReadsAs 0 .operand (.literal value t.mark) (t :: rest) rest := by
  intro levels x behind
  constructor
  · intro h
    cases h with
    | constant hkind' =>
        rw [hkind, TokenKind.constant.injEq] at hkind'
        exact ⟨Nat.zero_le _, by rw [hkind'], rfl⟩
    | name h | call h _ | not h _ | sign h _ _ | group h _ _ | array h _ => simp [hkind] at h
  · rintro ⟨-, rfl, rfl⟩
    exact .constant hkind

theorem readsAs_name {name : String} (hkind : t.kind = .name name) :
    ReadsAs 0 .operand (.var name t.mark) (t :: rest) rest := by
  intro levels x behind
  constructor
  · intro h
    cases h with
    | name hkind' =>
        rw [hkind, TokenKind.name.injEq] at hkind'
        exact ⟨Nat.zero_le _, by rw [hkind'], rfl⟩
    | constant h | call h _ | not h _ | sign h _ _ | group h _ _ | array h _ => simp [hkind] at h
  · rintro ⟨-, rfl, rfl⟩
    exact .name hkind

theorem readsAs_call {name : String} {opener : Token} (hkind : t.kind = .function name)
    (hlist : ReadsAs needed (.elements .round t.priority) es tokens rest) :
    ReadsAs needed .operand (.call name es t.mark) (t :: opener :: tokens) rest := by
  intro levels x behind
  constructor
  · intro h
    cases h with
    | call hkind' hargs =>
        rw [hkind, TokenKind.function.injEq] at hkind'
        rcases (hlist _ _ _).mp hargs with ⟨hlevels, rfl, rfl⟩
        exact ⟨hlevels, by rw [hkind'], rfl⟩
    | constant h | name h | not h _ | sign h _ _ | group h _ _ | array h _ => simp [hkind] at h
  · rintro ⟨hlevels, rfl, rfl⟩
    exact .call hkind ((hlist _ _ _).mpr ⟨hlevels, rfl, rfl⟩)

theorem readsAs_not (hkind : t.kind = .operator .not)
    (hinner : ReadsAs needed (.expression t.priority) e tokens rest) :
    ReadsAs needed .operand (.unary .not e t.mark) (t :: tokens) rest := by
  intro levels x behind
  constructor
  · intro h
    cases h with
    | not _ h =>
        rcases (hinner _ _ _).mp h with ⟨hlevels, rfl, rfl⟩
        exact ⟨hlevels, rfl, rfl⟩
    | sign hkind' hsign _ =>
        rw [hkind, TokenKind.operator.injEq] at hkind'
        subst hkind'
        simp [isSign] at hsign
    | constant h | name h | call h _ | group h _ _ | array h _ => simp [hkind] at h
  · rintro ⟨hlevels, rfl, rfl⟩
    exact .not hkind ((hinner _ _ _).mpr ⟨hlevels, rfl, rfl⟩)

theorem readsAs_group (hkind : t.kind = .opening .round)
    (hinner : ReadsAs needed (.expression t.priority) e tokens (closer :: rest))
    (hclosed : closer.kind = .closing .round) :
    ReadsAs needed .operand e (t :: tokens) rest := by
  intro levels x behind
  constructor
  · intro h
    cases h with
    | group _ h _ =>
        rcases (hinner _ _ _).mp h with ⟨hlevels, rfl, hrest⟩
        exact ⟨hlevels, rfl, (List.cons.inj hrest).2⟩
    | constant h | name h | call h _ | not h _ | sign h _ _ | array h _ => simp [hkind] at h
  · rintro ⟨hlevels, rfl, rfl⟩
    exact .group hkind ((hinner _ _ _).mpr ⟨hlevels, rfl, rfl⟩) hclosed

theorem readsAs_array (hkind : t.kind = .opening .square)
    (hlist : ReadsAs needed (.elements .square t.priority) es tokens rest) :
    ReadsAs needed .operand (.array es t.mark) (t :: tokens) rest := by
  intro levels x behind
  constructor
  · intro h
    cases h with
    | array _ h =>
        rcases (hlist _ _ _).mp h with ⟨hlevels, rfl, rfl⟩
        exact ⟨hlevels, rfl, rfl⟩
    | constant h | name h | call h _ | not h _ | sign h _ _ | group h _ _ => simp [hkind] at h
  · rintro ⟨hlevels, rfl, rfl⟩
    exact .array hkind ((hlist _ _ _).mpr ⟨hlevels, rfl, rfl⟩)

/-! ### What is added to an operand -/

theorem reads_stop_iff (hstops : ∀ t ∈ rest.head?, t.continues above = false) :
    Reads levels (.extend above left e) rest behind ↔ e = left ∧ behind = rest := by
  constructor
  · intro h
    cases h with
    | stop _ => exact ⟨rfl, rfl⟩
    | suffix goes _ _ _ | binary goes _ _ _ _ | index goes _ _ _ _ =>
        rw [hstops _ rfl] at goes
        simp at goes
  · rintro ⟨rfl, rfl⟩
    exact .stop hstops

theorem reads_suffix_iff {op : Operator} (hgoes : t.continues above = true)
    (hkind : t.kind = .operator op) (hshape : isSuffix op = true) :
    Reads levels (.extend above left e) (t :: tokens) rest ↔
      0 + 1 ≤ levels ∧
        Reads (levels - 1) (.extend above (.unary op left t.mark) e) tokens rest := by
  constructor
  · intro h
    cases h with
    | suffix _ hkind' _ hmore =>
        rw [hkind, TokenKind.operator.injEq] at hkind'
        subst hkind'
        exact ⟨by omega, hmore⟩
    | binary _ hkind' hshape' _ _ =>
        rw [hkind, TokenKind.operator.injEq] at hkind'
        subst hkind'
        simp [hshape] at hshape'
    | stop hstops => simp [hstops t rfl] at hgoes
    | index _ hkind' _ _ _ => simp [hkind] at hkind'
  · rintro ⟨hlevels, hmore⟩
    obtain ⟨k, rfl⟩ : ∃ k, levels = k + 1 := ⟨levels - 1, by omega⟩
    exact .suffix hgoes hkind hshape hmore

theorem reads_binary_iff {op : Operator} (hgoes : t.continues above = true)
    (hkind : t.kind = .operator op) (hshape : isSuffix op = false)
    (hright : ReadsAs needed (.expression t.priority) right tokens behind) :
    Reads levels (.extend above left e) (t :: tokens) rest ↔
      needed + 1 ≤ levels ∧
        Reads (levels - 1) (.extend above (.binary op left right t.mark) e) behind rest := by
  constructor
  · intro h
    cases h with
    | binary _ hkind' _ second hmore =>
        rw [hkind, TokenKind.operator.injEq] at hkind'
        subst hkind'
        rcases (hright _ _ _).mp second with ⟨hlevels, rfl, rfl⟩
        exact ⟨by omega, hmore⟩
    | suffix _ hkind' hshape' _ =>
        rw [hkind, TokenKind.operator.injEq] at hkind'
        subst hkind'
        simp [hshape] at hshape'
    | stop hstops => simp [hstops t rfl] at hgoes
    | index _ hkind' _ _ _ => simp [hkind] at hkind'
  · rintro ⟨hlevels, hmore⟩
    obtain ⟨k, rfl⟩ : ∃ k, levels = k + 1 := ⟨levels - 1, by omega⟩
    exact .binary hgoes hkind hshape ((hright _ _ _).mpr ⟨by omega, rfl, rfl⟩) hmore

theorem reads_index_iff (hgoes : t.continues above = true) (hkind : t.kind = .opening .square)
    (hinner : ReadsAs needed (.expression t.priority) right tokens (closer :: behind))
    (hclosed : closer.kind = .closing .square) :
    Reads levels (.extend above left e) (t :: tokens) rest ↔
      needed + 1 ≤ levels ∧
        Reads (levels - 1) (.extend above (.binary .index left right t.mark) e) behind rest := by
  constructor
  · intro h
    cases h with
    | index _ _ h _ hmore =>
        rcases (hinner _ _ _).mp h with ⟨hlevels, rfl, hrest⟩
        obtain ⟨-, rfl⟩ := List.cons.inj hrest
        exact ⟨by omega, hmore⟩
    | stop hstops => simp [hstops t rfl] at hgoes
    | suffix _ hkind' _ _ | binary _ hkind' _ _ _ => simp [hkind] at hkind'
  · rintro ⟨hlevels, hmore⟩
    obtain ⟨k, rfl⟩ : ∃ k, levels = k + 1 := ⟨levels - 1, by omega⟩
    exact .index hgoes hkind ((hinner _ _ _).mpr ⟨by omega, rfl, rfl⟩) hclosed hmore

/-! ### Expressions and lists -/

/-- An operand and what is added to it. -/
theorem reads_expression_iff (hfirst : ReadsAs needed .operand left tokens behind) :
    Reads (levels + 1) (.expression above e) tokens rest ↔
      needed ≤ levels ∧ Reads levels (.extend above left e) behind rest := by
  constructor
  · intro h
    cases h with
    | expression first more =>
        rcases (hfirst _ _ _).mp first with ⟨hlevels, rfl, rfl⟩
        exact ⟨hlevels, more⟩
  · rintro ⟨hlevels, more⟩
    exact .expression ((hfirst _ _ _).mpr ⟨hlevels, rfl, rfl⟩) more

/-- Without levels there is no expression. -/
theorem pos_of_reads_expression (h : Reads levels (.expression above e) tokens rest) :
    0 < levels := by
  cases h with
  | expression _ _ => exact Nat.succ_pos _

/-- An operand that nothing is added to is an expression, one level further
    out. -/
theorem readsAs_expression (hfirst : ReadsAs needed .operand e tokens rest)
    (hstops : ∀ t ∈ rest.head?, t.continues above = false) :
    ReadsAs (needed + 1) (.expression above) e tokens rest := by
  intro levels x behind
  cases levels with
  | zero =>
      refine ⟨fun h => absurd (pos_of_reads_expression h) (Nat.lt_irrefl _), fun h => ?_⟩
      exact absurd h.1 (Nat.not_succ_le_zero _)
  | succ levels => rw [reads_expression_iff hfirst, reads_stop_iff hstops, Nat.succ_le_succ_iff]

theorem readsAs_closed (hclosed : closer.kind = .closing bracket) :
    ReadsAs 0 (.elements bracket above) [] (closer :: rest) rest := by
  -- No element begins with a closing bracket.
  have hhead : ∀ {levels e more}, ¬ Reads levels (.expression above e) (closer :: rest) more := by
    intro levels e more h
    rcases head_of_reads_expression h with ⟨_, _, heq, hopen⟩
    obtain ⟨rfl, -⟩ := List.cons.inj heq
    exact hopen bracket hclosed
  intro levels x behind
  constructor
  · intro h
    cases h with
    | closed _ => exact ⟨Nat.zero_le _, rfl, rfl⟩
    | last h _ | comma h _ _ => exact (hhead h).elim
  · rintro ⟨-, rfl, rfl⟩
    exact .closed hclosed

/-- Behind the first element a list ends or goes on. -/
theorem reads_elements_iff (hfirst : ReadsAs needed (.expression above) e tokens (t :: behind)) :
    Reads levels (.elements bracket above es) tokens rest ↔
      needed ≤ levels ∧ (t.kind = .closing bracket ∧ es = [e] ∧ rest = behind ∨
        t.kind = .comma ∧ ∃ more, es = e :: more ∧
          Reads levels (.elements bracket above more) behind rest) := by
  constructor
  · intro h
    cases h with
    | closed hclosed =>
        rcases head_of_reads_expression hfirst.reads with ⟨_, _, heq, hopen⟩
        obtain ⟨rfl, -⟩ := List.cons.inj heq
        exact absurd hclosed (hopen bracket)
    | last h hclosed =>
        rcases (hfirst _ _ _).mp h with ⟨hlevels, rfl, heq⟩
        obtain ⟨rfl, rfl⟩ := List.cons.inj heq
        exact ⟨hlevels, .inl ⟨hclosed, rfl, rfl⟩⟩
    | comma h hcomma hmore =>
        rcases (hfirst _ _ _).mp h with ⟨hlevels, rfl, heq⟩
        obtain ⟨rfl, rfl⟩ := List.cons.inj heq
        exact ⟨hlevels, .inr ⟨hcomma, _, rfl, hmore⟩⟩
  · rintro ⟨hlevels, ⟨hclosed, rfl, rfl⟩ | ⟨hcomma, more, rfl, hmore⟩⟩
    · exact .last ((hfirst _ _ _).mpr ⟨hlevels, rfl, rfl⟩) hclosed
    · exact .comma ((hfirst _ _ _).mpr ⟨hlevels, rfl, rfl⟩) hcomma hmore

theorem readsAs_last (hfirst : ReadsAs needed (.expression above) e tokens (closer :: rest))
    (hclosed : closer.kind = .closing bracket) :
    ReadsAs needed (.elements bracket above) [e] tokens rest := by
  intro levels x behind
  rw [reads_elements_iff hfirst]
  simp [hclosed]

theorem readsAs_comma {comma : Token} {needed' : Nat}
    (hfirst : ReadsAs needed (.expression above) e tokens (comma :: behind))
    (hcomma : comma.kind = .comma)
    (hlist : ReadsAs needed' (.elements bracket above) es behind rest) :
    ReadsAs (max needed needed') (.elements bracket above) (e :: es) tokens rest := by
  intro levels x more
  rw [reads_elements_iff hfirst, Nat.max_le]
  simp only [hcomma, reduceCtorEq, false_and, true_and, false_or, hlist levels _ more]
  constructor
  · rintro ⟨hlevels, _, rfl, hlevels', rfl, rfl⟩
    exact ⟨⟨hlevels, hlevels'⟩, rfl, rfl⟩
  · rintro ⟨⟨hlevels, hlevels'⟩, rfl, rfl⟩
    exact ⟨hlevels, es, rfl, hlevels', rfl, rfl⟩

/-! ### Statements -/

/-- Tokens do not have two readings, whatever the levels. -/
theorem reads_unique {levels' : Nat} {e' : Expr} {rest' : List Token}
    (h : Reads levels (.expression above e) tokens rest)
    (h' : Reads levels' (.expression above e') tokens rest') : e' = e ∧ rest' = rest := by
  -- With enough levels for both, the reader answers with either.
  let ending : Ending := .complete 0 0
  rcases answered_of_reads ending h (max levels levels') 0 with hanswer | ⟨hfew, _⟩
  · rcases answered_of_reads ending h' (max levels levels') 0 with hanswer' | ⟨hfew, _⟩
    · rw [hanswer] at hanswer'
      simp only [Except.ok.injEq, Prod.mk.injEq] at hanswer'
      exact ⟨hanswer'.1.symm, hanswer'.2.symm⟩
    · omega
  · omega

/-- What is read at all has one reading, from the fewest levels on that it can be
    read with. -/
theorem readsAs_of_reads (h : Reads levels (.expression above e) tokens rest) :
    ∃ needed, ReadsAs needed (.expression above) e tokens rest := by
  induction levels using Nat.strongRecOn with
  | ind levels ih =>
      by_cases hless : ∃ fewer, fewer < levels ∧ Reads fewer (.expression above e) tokens rest
      · rcases hless with ⟨fewer, hlt, hfewer⟩
        exact ih fewer hlt hfewer
      · refine ⟨levels, fun levels' x behind => ⟨fun h' => ?_, ?_⟩⟩
        · rcases reads_unique h h' with ⟨rfl, rfl⟩
          exact ⟨Nat.le_of_not_lt fun hlt => hless ⟨levels', hlt, h'⟩, rfl, rfl⟩
        · rintro ⟨hle, rfl, rfl⟩
          exact h.mono hle

/-- A statement whose tokens have one reading is read if there are levels for it,
    and otherwise refused because there are not. -/
theorem parse_of_readsAs {text : List Char} {stop depth : Nat}
    (hending : (Scan.ofText text).ending = .complete stop depth)
    (h : ReadsAs needed (.expression 0) e (Scan.ofText text).tokens []) :
    needed ≤ maxNesting ∧ Expr.parse text = .ok e ∨
      maxNesting < needed ∧
        ∃ position, Expr.parse text = .error ⟨.grammatical, .nestedTooDeeply, position⟩ := by
  rcases parse_settles hending h.reads with hok | ⟨hlevels, herror⟩
  · exact .inl ⟨((h _ _ _).mp (reads_of_parse hok).2).1, hok⟩
  · exact .inr ⟨by omega, herror⟩

end Parse

end Scriptlet
