import Scriptlet.Expr.Parse
import Scriptlet.Proofs.Token.Lexer

/-!
# Readings

What the reader of expressions does when it succeeds, as a relation. The
definitions in `Expr.Parse` pass results along by cases on errors, and an
argument about trees would have to walk through all of them each time.
`Reads` has one rule for each way in which a piece of the tokens can be read,
so such an argument is one induction with the reader's own cases.

The relation keeps the levels, because they are what bounds a tree, and it
leaves out everything that only matters for errors: where the text ends and
which place is to blame.

`expression_settles` is the way back. A reading says what the reader answers
at *any* number of levels: the same tree where they suffice, and otherwise the
one error for using them up. The second half is why a text that has a reading
is never refused for its grammar, and it is stated together with the first
because both need the same induction.

## Main definitions

* `Goal`: What is being read.
* `Reads`: How it is read.
* `Ends`: What ends every expression in front of it.
* `Settles`: The answer, unless the levels run out.
* `Goal.Answered`: What a reading says about the reader.
* `Goal.inside`: The brackets that are open where a goal is read.

## Theorems

* `reads_of_expression`: What the reader answers has a reading.
* `Reads.mono`: More levels do not hurt.
* `stops_of_reads`: Reading stops where the next token does not bind tightly enough.
* `length_of_reads`: A reading takes tokens off the front.
* `expression_settles`: The reader answers what has a reading.
* `scanned_of_reads`: Behind a reading the same brackets are open as in front of it.
* `reads_of_parse`: The tree of a statement has a reading of all its tokens.
* `parse_settles`: A statement whose tokens have a reading is answered by its tree.
-/

namespace Scriptlet

namespace Parse

/-- What is being read, with the tree or trees that come out. -/
inductive Goal where
  /-- An expression above a priority. -/
  | expression (above : Nat) (e : Expr)
  /-- The operand that an expression begins with. -/
  | operand (e : Expr)
  /-- The operators behind an operand. -/
  | extend (above : Nat) (left e : Expr)
  /-- The elements of a list and its closing bracket. -/
  | elements (bracket : Bracket) (above : Nat) (es : List Expr)

/-- Whether an operator stands behind its operand. -/
def isSuffix (op : Operator) : Bool :=
  op = .increment || op = .decrement

/-- Whether an operator can be the sign of an operand. -/
def isSign (op : Operator) : Bool :=
  op = .add || op = .subtract

/-- How a goal is read off the front of the tokens within a number of levels. -/
inductive Reads : (levels : Nat) → Goal → (tokens rest : List Token) → Prop where
  | expression {levels above : Nat} {left e : Expr} {tokens behind rest : List Token}
      (first : Reads levels (.operand left) tokens behind)
      (more : Reads levels (.extend above left e) behind rest) :
      Reads (levels + 1) (.expression above e) tokens rest
  | constant {levels : Nat} {value : Literal} {t : Token} {rest : List Token}
      (kind : t.kind = .constant value) :
      Reads levels (.operand (.literal value t.mark)) (t :: rest) rest
  | name {levels : Nat} {name : String} {t : Token} {rest : List Token}
      (kind : t.kind = .name name) :
      Reads levels (.operand (.var name t.mark)) (t :: rest) rest
  | call {levels : Nat} {name : String} {args : List Expr} {t opener : Token}
      {tokens rest : List Token} (kind : t.kind = .function name)
      (list : Reads levels (.elements .round t.priority args) tokens rest) :
      Reads levels (.operand (.call name args t.mark)) (t :: opener :: tokens) rest
  | not {levels : Nat} {e : Expr} {t : Token} {tokens rest : List Token}
      (kind : t.kind = .operator .not)
      (inner : Reads levels (.expression t.priority e) tokens rest) :
      Reads levels (.operand (.unary .not e t.mark)) (t :: tokens) rest
  | sign {levels : Nat} {op : Operator} {e : Expr} {t : Token} {tokens rest : List Token}
      (kind : t.kind = .operator op) (sign : isSign op = true)
      (inner : Reads levels (.expression t.priority e) tokens rest) :
      Reads levels (.operand (.binary op (zeroAt t) e t.mark)) (t :: tokens) rest
  | group {levels : Nat} {e : Expr} {t closer : Token} {tokens rest : List Token}
      (kind : t.kind = .opening .round)
      (inner : Reads levels (.expression t.priority e) tokens (closer :: rest))
      (closed : closer.kind = .closing .round) :
      Reads levels (.operand e) (t :: tokens) rest
  | array {levels : Nat} {es : List Expr} {t : Token} {tokens rest : List Token}
      (kind : t.kind = .opening .square)
      (list : Reads levels (.elements .square t.priority es) tokens rest) :
      Reads levels (.operand (.array es t.mark)) (t :: tokens) rest
  | stop {levels above : Nat} {left : Expr} {rest : List Token}
      (stops : ∀ t ∈ rest.head?, t.continues above = false) :
      Reads levels (.extend above left left) rest rest
  | suffix {levels above : Nat} {op : Operator} {left e : Expr} {t : Token}
      {tokens rest : List Token} (goes : t.continues above = true)
      (kind : t.kind = .operator op) (shape : isSuffix op = true)
      (more : Reads levels (.extend above (.unary op left t.mark) e) tokens rest) :
      Reads (levels + 1) (.extend above left e) (t :: tokens) rest
  | binary {levels above : Nat} {op : Operator} {left right e : Expr} {t : Token}
      {tokens behind rest : List Token} (goes : t.continues above = true)
      (kind : t.kind = .operator op) (shape : isSuffix op = false)
      (second : Reads levels (.expression t.priority right) tokens behind)
      (more : Reads levels (.extend above (.binary op left right t.mark) e) behind rest) :
      Reads (levels + 1) (.extend above left e) (t :: tokens) rest
  | index {levels above : Nat} {left i e : Expr} {t closer : Token}
      {tokens behind rest : List Token} (goes : t.continues above = true)
      (kind : t.kind = .opening .square)
      (inner : Reads levels (.expression t.priority i) tokens (closer :: behind))
      (closed : closer.kind = .closing .square)
      (more : Reads levels (.extend above (.binary .index left i t.mark) e) behind rest) :
      Reads (levels + 1) (.extend above left e) (t :: tokens) rest
  | closed {levels above : Nat} {bracket : Bracket} {closer : Token} {rest : List Token}
      (closed : closer.kind = .closing bracket) :
      Reads levels (.elements bracket above []) (closer :: rest) rest
  | last {levels above : Nat} {bracket : Bracket} {e : Expr} {closer : Token}
      {tokens rest : List Token}
      (inner : Reads levels (.expression above e) tokens (closer :: rest))
      (closed : closer.kind = .closing bracket) :
      Reads levels (.elements bracket above [e]) tokens rest
  | comma {levels above : Nat} {bracket : Bracket} {e : Expr} {es : List Expr} {comma : Token}
      {tokens behind rest : List Token}
      (inner : Reads levels (.expression above e) tokens (comma :: behind))
      (separated : comma.kind = .comma)
      (list : Reads levels (.elements bracket above es) behind rest) :
      Reads levels (.elements bracket above (e :: es)) tokens rest

/-! ### From the reader to readings -/

theorem bind_eq_ok {ε α β : Type} {x : Except ε α} {f : α → Except ε β} {b : β}
    (h : (x >>= f) = .ok b) : ∃ a, x = .ok a ∧ f a = .ok b := by
  cases x with
  | error e => exact absurd h (by simp [bind, Except.bind])
  | ok a => exact ⟨a, rfl, h⟩

variable {ending : Ending} {levels : Nat} {read : Reader}

/-- A reader of expressions whose answers have readings within `levels`. -/
def Backed (levels : Nat) (read : Reader) : Prop :=
  ∀ {above position : Nat} {tokens rest : List Token} {e : Expr},
    read above position tokens = .ok (e, rest) → Reads levels (.expression above e) tokens rest

theorem reads_of_group {bracket : Bracket} {t : Token} {tokens rest : List Token} {e : Expr}
    (hread : Backed levels read) (h : group ending read bracket t tokens = .ok (e, rest)) :
    ∃ closer, Reads levels (.expression t.priority e) tokens (closer :: rest) ∧
      closer.kind = .closing bracket := by
  rcases bind_eq_ok h with ⟨⟨inner, behind⟩, hinner, h⟩
  -- Behind the inner expression only the closing bracket is accepted.
  rcases behind with _ | ⟨closer, behind⟩
  · simp at h
  · simp only at h
    split at h
    · next hclosed =>
      simp only [Except.ok.injEq, Prod.mk.injEq] at h
      rcases h with ⟨rfl, rfl⟩
      exact ⟨closer, hread hinner, hclosed⟩
    · simp at h

theorem reads_of_elements {bracket : Bracket} {above : Nat} (hread : Backed levels read) :
    ∀ (rounds : Nat) {tokens rest : List Token} {es : List Expr},
      elements ending read bracket above rounds tokens = .ok (es, rest) →
        Reads levels (.elements bracket above es) tokens rest := by
  intro rounds
  induction rounds with
  | zero =>
      intro tokens rest es h
      cases tokens <;> simp [elements] at h
  | succ rounds ih =>
      intro tokens rest es h
      rcases tokens with _ | ⟨t, tokens⟩
      · simp [elements] at h
      simp only [elements] at h
      split at h
      · next hclosed =>
        simp only [Except.ok.injEq, Prod.mk.injEq] at h
        rcases h with ⟨rfl, rfl⟩
        exact Reads.closed hclosed
      -- An element, and then a comma or the closing bracket behind it.
      rcases bind_eq_ok h with ⟨⟨e, behind⟩, he, h⟩
      rcases behind with _ | ⟨u, more⟩
      · simp at h
      simp only at h
      split at h
      · next hcomma =>
        rcases bind_eq_ok h with ⟨⟨es', more'⟩, hes, h⟩
        simp only [Except.ok.injEq, Prod.mk.injEq] at h
        rcases h with ⟨rfl, rfl⟩
        exact Reads.comma (hread he) hcomma (ih hes)
      · split at h
        · next hclosed =>
          simp only [Except.ok.injEq, Prod.mk.injEq] at h
          rcases h with ⟨rfl, rfl⟩
          exact Reads.last (hread he) hclosed
        · simp at h

theorem reads_of_operand {t : Token} {tokens rest : List Token} {e : Expr}
    (hread : Backed levels read) (h : operand ending read t tokens = .ok (e, rest)) :
    Reads levels (.operand e) (t :: tokens) rest := by
  unfold operand at h
  -- One case for each kind of token that begins an operand, and each is a rule.
  split at h
  · next value hkind =>
    simp only [Except.ok.injEq, Prod.mk.injEq] at h
    rcases h with ⟨rfl, rfl⟩
    exact Reads.constant hkind
  · next name hkind =>
    simp only [Except.ok.injEq, Prod.mk.injEq] at h
    rcases h with ⟨rfl, rfl⟩
    exact Reads.name hkind
  · next name hkind =>
    rcases bind_eq_ok h with ⟨⟨args, behind⟩, hargs, h⟩
    simp only [Except.ok.injEq, Prod.mk.injEq] at h
    rcases h with ⟨rfl, rfl⟩
    -- Without a token behind the name there is no list to read.
    rcases tokens with _ | ⟨opener, tokens⟩
    · simp [list, elements] at hargs
    · exact Reads.call hkind (reads_of_elements hread _ hargs)
  · next hkind =>
    rcases bind_eq_ok h with ⟨⟨inner, behind⟩, hinner, h⟩
    simp only [Except.ok.injEq, Prod.mk.injEq] at h
    rcases h with ⟨rfl, rfl⟩
    exact Reads.not hkind (hread hinner)
  · next hkind =>
    rcases bind_eq_ok h with ⟨⟨inner, behind⟩, hinner, h⟩
    simp only [Except.ok.injEq, Prod.mk.injEq] at h
    rcases h with ⟨rfl, rfl⟩
    exact Reads.sign hkind rfl (hread hinner)
  · next hkind =>
    rcases bind_eq_ok h with ⟨⟨inner, behind⟩, hinner, h⟩
    simp only [Except.ok.injEq, Prod.mk.injEq] at h
    rcases h with ⟨rfl, rfl⟩
    exact Reads.sign hkind rfl (hread hinner)
  · next hkind =>
    rcases reads_of_group hread h with ⟨closer, hinner, hclosed⟩
    exact Reads.group hkind hinner hclosed
  · next hkind =>
    rcases bind_eq_ok h with ⟨⟨es, behind⟩, hes, h⟩
    simp only [Except.ok.injEq, Prod.mk.injEq] at h
    rcases h with ⟨rfl, rfl⟩
    exact Reads.array hkind (reads_of_elements hread _ hes)
  · simp at h

/-- What continues an operand is an operator or an indexing bracket. -/
theorem kind_of_continues {t : Token} {above : Nat} (h : t.continues above = true) :
    above < t.priority ∧ ((∃ op, t.kind = .operator op) ∨ t.kind = .opening .square) := by
  simp only [Token.continues, Bool.and_eq_true, decide_eq_true_eq] at h
  refine ⟨h.1, ?_⟩
  have hkind := h.2
  split at hkind
  · next op hop => exact .inl ⟨op, hop⟩
  · next hop => exact .inr hop
  · simp at hkind

theorem continues_of_kind {t : Token} {above : Nat} (hlt : above < t.priority)
    (hkind : (∃ op, t.kind = .operator op) ∨ t.kind = .opening .square) :
    t.continues above = true := by
  rcases hkind with ⟨op, hop⟩ | hop <;>
    simp only [Token.continues, hop, hlt, decide_true, Bool.and_self]

/-- What ends every expression in front of it, at whatever priority. -/
def Ends (rest : List Token) : Prop :=
  ∀ t ∈ rest.head?, ∀ above, t.continues above = false

theorem ends_of_kind {t : Token} {rest : List Token}
    (h : t.kind = .comma ∨ ∃ bracket, t.kind = .closing bracket) : Ends (t :: rest) := by
  intro u hu above
  simp only [List.head?_cons, Option.mem_def, Option.some.injEq] at hu
  subst hu
  rcases h with h | ⟨bracket, h⟩ <;> simp only [Token.continues, h, Bool.and_false]

theorem reads_of_addTo {above : Nat} {left e e' : Expr} {t : Token}
    {tokens behind rest : List Token} (hread : Backed levels read)
    (hgoes : t.continues above = true)
    (h : addTo ending read left t tokens = .ok (e', behind))
    (hmore : Reads levels (.extend above e' e) behind rest) :
    Reads (levels + 1) (.extend above left e) (t :: tokens) rest := by
  unfold addTo at h
  split at h
  · next hkind =>
    simp only [Except.ok.injEq, Prod.mk.injEq] at h
    rcases h with ⟨rfl, rfl⟩
    exact Reads.suffix hgoes hkind rfl hmore
  · next hkind =>
    simp only [Except.ok.injEq, Prod.mk.injEq] at h
    rcases h with ⟨rfl, rfl⟩
    exact Reads.suffix hgoes hkind rfl hmore
  · next op hinc hdec hkind =>
    rcases bind_eq_ok h with ⟨⟨right, behind'⟩, hright, h⟩
    simp only [Except.ok.injEq, Prod.mk.injEq] at h
    rcases h with ⟨rfl, rfl⟩
    have hshape : isSuffix op = false := by
      simp only [isSuffix, Bool.or_eq_false_iff, decide_eq_false_iff_not]
      exact ⟨hinc, hdec⟩
    exact Reads.binary hgoes hkind hshape (hread hright) hmore
  · next hnot =>
    rcases bind_eq_ok h with ⟨⟨i, behind'⟩, hi, h⟩
    simp only [Except.ok.injEq, Prod.mk.injEq] at h
    rcases h with ⟨rfl, rfl⟩
    rcases reads_of_group hread hi with ⟨closer, hinner, hclosed⟩
    -- What continues an operand and is no operator is an indexing bracket.
    rcases (kind_of_continues hgoes).2 with ⟨op, hop⟩ | hop
    · exact absurd hop (hnot op)
    · exact Reads.index hgoes hop hinner hclosed hmore

/-- What the reader answers has a reading. Expressions and the operators behind
    an operand call one another, so the induction on levels is over both. -/
theorem reads_of_expression_and_extend (ending : Ending) (levels : Nat) :
    Backed levels (expression ending levels) ∧
      ∀ {above : Nat} {left e : Expr} {tokens rest : List Token},
        extend ending levels above left tokens = .ok (e, rest) →
          Reads levels (.extend above left e) tokens rest := by
  induction levels with
  | zero =>
      -- Without levels nothing is added to an operand, but it can be left as it is.
      refine ⟨fun h => by simp [expression] at h, fun {above left e tokens rest} h => ?_⟩
      rcases tokens with _ | ⟨t, tokens⟩
      · simp only [extend, Except.ok.injEq, Prod.mk.injEq] at h
        rcases h with ⟨rfl, rfl⟩
        exact Reads.stop (by simp)
      · simp only [extend] at h
        split at h
        · simp at h
        · next hstop =>
          simp only [Except.ok.injEq, Prod.mk.injEq] at h
          rcases h with ⟨rfl, rfl⟩
          exact Reads.stop (by simpa using hstop)
  | succ levels ih =>
      rcases ih with ⟨hexpression, hextend⟩
      refine ⟨fun {above position tokens rest e} h => ?_, fun {above left e tokens rest} h => ?_⟩
      · rcases tokens with _ | ⟨t, tokens⟩
        · simp [expression] at h
        · simp only [expression] at h
          rcases bind_eq_ok h with ⟨⟨left, behind⟩, hleft, h⟩
          exact Reads.expression (reads_of_operand hexpression hleft) (hextend h)
      · rcases tokens with _ | ⟨t, tokens⟩
        · simp only [extend, Except.ok.injEq, Prod.mk.injEq] at h
          rcases h with ⟨rfl, rfl⟩
          exact Reads.stop (by simp)
        · simp only [extend] at h
          split at h
          · next hgoes =>
            rcases bind_eq_ok h with ⟨⟨left', behind⟩, hleft, h⟩
            exact reads_of_addTo hexpression hgoes hleft (hextend h)
          · next hstop =>
            simp only [Except.ok.injEq, Prod.mk.injEq] at h
            rcases h with ⟨rfl, rfl⟩
            exact Reads.stop (by simpa using hstop)

theorem reads_of_expression {above position : Nat} {e : Expr} {tokens rest : List Token}
    (h : expression ending levels above position tokens = .ok (e, rest)) :
    Reads levels (.expression above e) tokens rest :=
  (reads_of_expression_and_extend ending levels).1 h

/-- More levels do not hurt. -/
theorem Reads.mono {goal : Goal} {tokens rest : List Token} (h : Reads levels goal tokens rest) :
    ∀ {levels' : Nat}, levels ≤ levels' → Reads levels' goal tokens rest := by
  -- The rules that use up a level need one in `levels'` as well; the others pass it on.
  induction h with
  | expression _ _ ihfirst ihmore =>
      intro levels' hle
      obtain ⟨k, rfl⟩ : ∃ k, levels' = k + 1 := ⟨levels' - 1, by omega⟩
      exact .expression (ihfirst (by omega)) (ihmore (by omega))
  | constant hkind => intro _ _; exact .constant hkind
  | name hkind => intro _ _; exact .name hkind
  | call hkind _ ih => intro _ hle; exact .call hkind (ih hle)
  | not hkind _ ih => intro _ hle; exact .not hkind (ih hle)
  | sign hkind hsign _ ih => intro _ hle; exact .sign hkind hsign (ih hle)
  | group hkind _ hclosed ih => intro _ hle; exact .group hkind (ih hle) hclosed
  | array hkind _ ih => intro _ hle; exact .array hkind (ih hle)
  | stop hstops => intro _ _; exact .stop hstops
  | suffix hgoes hkind hshape _ ih =>
      intro levels' hle
      obtain ⟨k, rfl⟩ : ∃ k, levels' = k + 1 := ⟨levels' - 1, by omega⟩
      exact .suffix hgoes hkind hshape (ih (by omega))
  | binary hgoes hkind hshape _ _ ihsecond ihmore =>
      intro levels' hle
      obtain ⟨k, rfl⟩ : ∃ k, levels' = k + 1 := ⟨levels' - 1, by omega⟩
      exact .binary hgoes hkind hshape (ihsecond (by omega)) (ihmore (by omega))
  | index hgoes hkind _ hclosed _ ihinner ihmore =>
      intro levels' hle
      obtain ⟨k, rfl⟩ : ∃ k, levels' = k + 1 := ⟨levels' - 1, by omega⟩
      exact .index hgoes hkind (ihinner (by omega)) hclosed (ihmore (by omega))
  | closed hclosed => intro _ _; exact .closed hclosed
  | last _ hclosed ih => intro _ hle; exact .last (ih hle) hclosed
  | comma _ hcomma _ ihinner ihlist =>
      intro _ hle
      exact .comma (ihinner hle) hcomma (ihlist hle)

/-- Reading an expression stops where the next token does not bind tightly enough. -/
theorem stops_of_reads {goal : Goal} {tokens rest : List Token}
    (h : Reads levels goal tokens rest) :
    ∀ {above : Nat}, (∃ e, goal = .expression above e) ∨ (∃ left e, goal = .extend above left e) →
      ∀ t ∈ rest.head?, t.continues above = false := by
  -- Every expression ends with the rule `stop`, reached through its operators.
  induction h with
  | expression _ _ _ ihmore =>
      rintro above (⟨e, hgoal⟩ | ⟨left, e, hgoal⟩)
      · simp only [Goal.expression.injEq] at hgoal
        rcases hgoal with ⟨rfl, rfl⟩
        exact ihmore (.inr ⟨_, _, rfl⟩)
      · simp at hgoal
  | stop hstops =>
      rintro above (⟨e, hgoal⟩ | ⟨left, e, hgoal⟩)
      · simp at hgoal
      · simp only [Goal.extend.injEq] at hgoal
        rcases hgoal with ⟨rfl, _⟩
        exact hstops
  | suffix _ _ _ _ ihmore | binary _ _ _ _ _ _ ihmore | index _ _ _ _ _ _ ihmore =>
      rintro above (⟨e, hgoal⟩ | ⟨left, e, hgoal⟩)
      · simp at hgoal
      · simp only [Goal.extend.injEq] at hgoal
        rcases hgoal with ⟨rfl, _⟩
        exact ihmore (.inr ⟨_, _, rfl⟩)
  | _ => rintro above (⟨e, hgoal⟩ | ⟨left, e, hgoal⟩) <;> simp at hgoal

/-! ### From readings to the reader -/

/-- Whether a goal takes at least one token. All but the operators behind an
    operand do. -/
def Goal.takesToken : Goal → Bool
  | .extend _ _ _ => false
  | _ => true

theorem length_of_reads {goal : Goal} {tokens rest : List Token}
    (h : Reads levels goal tokens rest) :
    rest.length + (if goal.takesToken then 1 else 0) ≤ tokens.length := by
  induction h <;> simp only [Goal.takesToken, List.length_cons, if_true, Bool.false_eq_true,
    if_false] at * <;> omega

theorem length_lt_of_reads_expression {above : Nat} {e : Expr} {tokens rest : List Token}
    (h : Reads levels (.expression above e) tokens rest) : rest.length < tokens.length :=
  length_of_reads h

/-- No expression begins with a closing bracket. -/
theorem head_of_reads_expression {above : Nat} {e : Expr} {tokens rest : List Token}
    (h : Reads levels (.expression above e) tokens rest) :
    ∃ t more, tokens = t :: more ∧ ∀ bracket, t.kind ≠ .closing bracket := by
  cases h with
  | expression first _ =>
      -- Every rule for operands says what their first token is.
      cases first <;> exact ⟨_, _, rfl, by simp_all⟩

/-- The answer `a`, unless the levels do not suffice and run out. -/
def Settles {α : Type} (suffice : Prop) (a : α) (answer : Except Fault α) : Prop :=
  answer = .ok a ∨
    ¬ suffice ∧ ∃ position, answer = .error ⟨.grammatical, .nestedTooDeeply, position⟩

theorem Settles.bind {α β : Type} {suffice : Prop} {a : α} {b : β} {x : Except Fault α}
    {f : α → Except Fault β} (hx : Settles suffice a x) (hf : Settles suffice b (f a)) :
    Settles suffice b (x >>= f) := by
  rcases hx with rfl | ⟨hlevels, position, rfl⟩
  · exact hf
  · exact .inr ⟨hlevels, position, rfl⟩

theorem Settles.mono {α : Type} {p q : Prop} {a : α} {answer : Except Fault α}
    (h : Settles p a answer) (hpq : q → p) : Settles q a answer :=
  h.imp_right fun ⟨hp, herror⟩ => ⟨fun hq => hp (hpq hq), herror⟩

/-- What a reading within `needed` levels says about the reader with any number
    of them. -/
def Goal.Answered (ending : Ending) (needed : Nat) : Goal → (tokens rest : List Token) → Prop
  | .expression above e, tokens, rest => ∀ levels position,
      Settles (needed ≤ levels) (e, rest) (Parse.expression ending levels above position tokens)
  | .operand e, tokens, rest => ∃ t more, tokens = t :: more ∧ ∀ levels,
      Settles (needed ≤ levels) (e, rest)
        (Parse.operand ending (Parse.expression ending levels) t more)
  | .extend above left e, tokens, rest => ∀ levels,
      Settles (needed ≤ levels) (e, rest) (Parse.extend ending levels above left tokens)
  | .elements bracket above es, tokens, rest => ∀ levels rounds, tokens.length ≤ rounds →
      Settles (needed ≤ levels) (es, rest)
        (Parse.elements ending (Parse.expression ending levels) bracket above rounds tokens)

/-- Operators go on while there is a level for them. The first part of the
    argument about each of the three ways to go on is the same: at zero levels
    the reader refuses, and otherwise it adds to the operand and goes on. -/
theorem extend_settles {needed above : Nat} {left left' e : Expr} {t : Token}
    {tokens behind rest : List Token} (hgoes : t.continues above = true)
    (hadd : ∀ levels, Settles (needed ≤ levels) (left', behind)
      (addTo ending (expression ending levels) left t tokens))
    (hmore : Goal.Answered ending needed (.extend above left' e) behind rest) :
    Goal.Answered ending (needed + 1) (.extend above left e) (t :: tokens) rest := by
  intro levels
  cases levels with
  | zero =>
      refine .inr ⟨by omega, t.position, ?_⟩
      simp only [extend, hgoes, if_true]
  | succ levels =>
      simp only [extend, hgoes, if_true]
      exact ((hadd levels).bind (hmore levels)).mono (by omega)

theorem addTo_of_operator {op : Operator} (left : Expr) (t : Token) (tokens : List Token)
    (hkind : t.kind = .operator op) (hshape : isSuffix op = false) :
    addTo ending read left t tokens = (do
      let (right, rest) ← read t.priority t.stop tokens
      .ok (.binary op left right t.mark, rest)) := by
  simp only [isSuffix, Bool.or_eq_false_iff, decide_eq_false_iff_not] at hshape
  unfold addTo
  rw [hkind]
  split
  -- The two operators that stand behind their operand are ruled out.
  · next h => exact absurd (by simpa using h) hshape.1
  · next h => exact absurd (by simpa using h) hshape.2
  · next op' _ _ h =>
    simp only [TokenKind.operator.injEq] at h
    rw [h]
  · next h => exact absurd rfl (h op)

theorem group_settles {needed : Nat} {bracket : Bracket} {e : Expr} {t closer : Token}
    {tokens rest : List Token}
    (hinner : Goal.Answered ending needed (.expression t.priority e) tokens (closer :: rest))
    (hclosed : closer.kind = .closing bracket) (levels : Nat) :
    Settles (needed ≤ levels) (e, rest)
      (group ending (expression ending levels) bracket t tokens) := by
  refine (hinner levels t.stop).bind ?_
  simp only [hclosed, if_true]
  exact .inl rfl

/-- A reading says what the reader answers, at any number of levels. -/
theorem answered_of_reads (ending : Ending) {needed : Nat} {goal : Goal}
    {tokens rest : List Token} (h : Reads needed goal tokens rest) :
    goal.Answered ending needed tokens rest := by
  -- By induction on the reading. Where it has parts, the answers to them are bound together, and
  -- the first part that runs out of levels decides.
  induction h with
  | @expression needed above left e tokens behind rest _ _ hfirst hmore =>
      intro levels position
      rcases hfirst with ⟨t, more, rfl, hfirst⟩
      cases levels with
      | zero => exact .inr ⟨by omega, position, by simp only [expression]⟩
      | succ levels =>
          simp only [expression]
          exact ((hfirst levels).bind (hmore levels)).mono (by omega)
  | constant hkind =>
      refine ⟨_, _, rfl, fun levels => .inl ?_⟩
      simp only [operand, hkind]
  | name hkind =>
      refine ⟨_, _, rfl, fun levels => .inl ?_⟩
      simp only [operand, hkind]
  | call hkind _ hlist =>
      refine ⟨_, _, rfl, fun levels => ?_⟩
      simp only [operand, hkind]
      exact (hlist levels _ (Nat.le_refl _)).bind (.inl rfl)
  | not hkind _ hinner =>
      refine ⟨_, _, rfl, fun levels => ?_⟩
      simp only [operand, hkind]
      exact (hinner levels _).bind (.inl rfl)
  | @sign needed op e t tokens rest hkind hsign _ hinner =>
      refine ⟨_, _, rfl, fun levels => ?_⟩
      simp only [isSign, Bool.or_eq_true, decide_eq_true_eq] at hsign
      rcases hsign with rfl | rfl
      · simp only [operand, hkind]
        exact (hinner levels _).bind (.inl rfl)
      · simp only [operand, hkind]
        exact (hinner levels _).bind (.inl rfl)
  | group hkind _ hclosed hinner =>
      refine ⟨_, _, rfl, fun levels => ?_⟩
      simp only [operand, hkind]
      exact group_settles hinner hclosed levels
  | array hkind _ hlist =>
      refine ⟨_, _, rfl, fun levels => ?_⟩
      simp only [operand, hkind]
      exact (hlist levels _ (Nat.le_refl _)).bind (.inl rfl)
  | @stop needed above left rest hstops =>
      intro levels
      left
      rcases rest with _ | ⟨t, rest⟩
      · cases levels <;> simp only [extend]
      · cases levels <;> simp only [extend, hstops t rfl, Bool.false_eq_true, if_false]
  | @suffix needed above op left e t tokens rest hgoes hkind hshape _ hmore =>
      refine extend_settles hgoes (fun levels => .inl ?_) hmore
      simp only [isSuffix, Bool.or_eq_true, decide_eq_true_eq] at hshape
      rcases hshape with rfl | rfl <;> simp only [addTo, hkind]
  | @binary needed above op left right e t tokens behind rest hgoes hkind hshape _ _ hright hmore =>
      refine extend_settles hgoes (fun levels => ?_) hmore
      rw [addTo_of_operator left t tokens hkind hshape]
      exact (hright levels _).bind (.inl rfl)
  | @index needed above left i e t closer tokens behind rest hgoes hkind _ hclosed _ hinner hmore =>
      refine extend_settles hgoes (fun levels => ?_) hmore
      simp only [addTo, hkind]
      exact (group_settles hinner hclosed levels).bind (.inl rfl)
  | closed hclosed =>
      intro levels rounds hrounds
      cases rounds with
      | zero => simp at hrounds
      | succ rounds => exact .inl (by simp only [elements, hclosed, if_true])
  | @last needed above bracket e closer tokens rest hreads hclosed hinner =>
      intro levels rounds hrounds
      rcases head_of_reads_expression hreads with ⟨t, more, rfl, hopen⟩
      cases rounds with
      | zero => simp at hrounds
      | succ rounds =>
          simp only [elements, hopen bracket, if_false]
          refine (hinner levels t.position).bind (.inl ?_)
          simp [hclosed]
  | @comma needed above bracket e es comma tokens behind rest hreads hcomma hlist hinner hmore =>
      intro levels rounds hrounds
      -- The element takes a token, so one round less is enough for the tokens behind it.
      have hlength := length_lt_of_reads_expression hreads
      rcases head_of_reads_expression hreads with ⟨t, more, rfl, hopen⟩
      cases rounds with
      | zero => simp at hrounds
      | succ rounds =>
          simp only [List.length_cons] at hrounds hlength
          simp only [elements, hopen bracket, if_false]
          refine (hinner levels t.position).bind ?_
          simp only [hcomma, if_true]
          exact (hmore levels rounds (by omega)).bind (.inl rfl)

theorem expression_settles {needed above : Nat} {e : Expr} {tokens rest : List Token}
    (h : Reads needed (.expression above e) tokens rest) (levels position : Nat) :
    Settles (needed ≤ levels) (e, rest) (expression ending levels above position tokens) :=
  answered_of_reads ending h levels position

/-! ### Readings of scanned tokens -/

theorem continues_of_priority_le {t : Token} {above : Nat} (h : t.priority ≤ above) :
    t.continues above = false := by
  simp only [Token.continues, Bool.and_eq_false_iff, decide_eq_false_iff_not]
  exact .inl (by omega)

/-- Nothing is added to what binds as tightly as anything inside one more bracket. -/
theorem stops_of_scanned {brackets : List Bracket} {rest : List Token} {above : Nat}
    (hs : Scanned brackets rest) (habove : 10 * brackets.length + 10 ≤ above) :
    ∀ t ∈ rest.head?, t.continues above = false := by
  intro t ht
  rcases rest with _ | ⟨u, rest⟩
  · simp at ht
  · simp only [List.head?_cons, Option.mem_def, Option.some.injEq] at ht
    subst ht
    have hle := hs.priority_le
    exact continues_of_priority_le (by omega)

/-- Whatever can be added to an operand binds tighter than what is around the
    brackets that it stands in. -/
theorem continues_of_scanned {brackets : List Bracket} {t : Token} {rest : List Token} {above : Nat}
    (hs : Scanned brackets (t :: rest))
    (hkind : (∃ op, t.kind = .operator op) ∨ t.kind = .opening .square)
    (habove : above ≤ 10 * brackets.length) : t.continues above = true := by
  have hlow := hs.lt_priority (hkind.imp_right fun hop => ⟨_, hop⟩)
  exact continues_of_kind (by omega) hkind

/-- The brackets that are open where a goal is read, if `brackets` are open
    behind it. Only the elements of a list close one. -/
def Goal.inside (brackets : List Bracket) : Goal → List Bracket
  | .elements bracket _ _ => bracket :: brackets
  | _ => brackets

/-- Behind a reading the same brackets are open as in front of it, those apart
    that it closes. -/
theorem scanned_of_reads {goal : Goal} {tokens rest : List Token}
    (h : Reads levels goal tokens rest) :
    ∀ (brackets : List Bracket), Scanned (goal.inside brackets) tokens →
      Scanned brackets rest := by
  induction h with
  | expression _ _ hfirst hmore =>
      intro brackets hs
      exact hmore _ (hfirst _ hs)
  | constant hkind =>
      intro brackets hs
      exact hs.tail_of_kind hkind
  | name hkind =>
      intro brackets hs
      exact hs.tail_of_kind hkind
  | call hkind _ hlist =>
      intro brackets hs
      -- The token that is stepped over opens the bracket of the list.
      exact hlist _ (hs.opener_of_function hkind).2
  | not hkind _ hinner =>
      intro brackets hs
      exact hinner _ (hs.tail_of_kind hkind)
  | sign hkind _ _ hinner =>
      intro brackets hs
      exact hinner _ (hs.tail_of_kind hkind)
  | group hkind _ hclosed hinner =>
      intro brackets hs
      -- Inside the group one more bracket is open, and its closing bracket ends that.
      exact (hinner (.round :: brackets) (hs.tail_of_kind hkind)).tail_of_kind hclosed
  | array hkind _ hlist =>
      intro brackets hs
      exact hlist _ (hs.tail_of_kind hkind)
  | stop _ =>
      intro brackets hs
      exact hs
  | suffix _ hkind _ _ hmore =>
      intro brackets hs
      exact hmore _ (hs.tail_of_kind hkind)
  | binary _ hkind _ _ _ hright hmore =>
      intro brackets hs
      exact hmore _ (hright _ (hs.tail_of_kind hkind))
  | index _ hkind _ hclosed _ hinner hmore =>
      intro brackets hs
      exact hmore _ ((hinner (.square :: brackets)
        (hs.tail_of_kind hkind)).tail_of_kind hclosed)
  | closed hclosed =>
      intro brackets hs
      exact hs.tail_of_kind hclosed
  | @last _ _ bracket _ _ _ _ _ hclosed hinner =>
      intro brackets hs
      exact (hinner (bracket :: brackets) hs).tail_of_kind hclosed
  | @comma _ _ bracket _ _ _ _ _ _ _ hcomma _ hinner hlist =>
      intro brackets hs
      exact hlist _ ((hinner (bracket :: brackets) hs).tail_of_kind hcomma)

/-! ### Statements -/

/-- The tree of a statement has a reading of all its tokens. -/
theorem reads_of_parse {text : List Char} {e : Expr} (h : Expr.parse text = .ok e) :
    (∃ stop depth, (Scan.ofText text).ending = .complete stop depth) ∧
      Reads maxNesting (.expression 0 e) (Scan.ofText text).tokens [] := by
  rcases bind_eq_ok h with ⟨⟨e', rest⟩, he, h⟩
  -- A tree is the answer only with no token left and no fault at the end.
  rcases rest with _ | ⟨t, rest⟩
  · cases hending : (Scan.ofText text).ending with
    | complete stop depth =>
        rw [hending] at h
        simp only [Except.ok.injEq] at h
        subst h
        exact ⟨⟨stop, depth, rfl⟩, reads_of_expression he⟩
    | broken fault depth =>
        rw [hending] at h
        simp at h
  · simp at h

/-- A statement whose tokens have a reading is answered by its tree, unless the
    reading takes more levels than there are. -/
theorem parse_settles {text : List Char} {needed stop depth : Nat} {e : Expr}
    (hending : (Scan.ofText text).ending = .complete stop depth)
    (h : Reads needed (.expression 0 e) (Scan.ofText text).tokens []) :
    Settles (needed ≤ maxNesting) e (Expr.parse text) := by
  simp only [Expr.parse, statement, hending]
  exact (expression_settles h maxNesting 0).bind (.inl rfl)

end Parse

end Scriptlet
