import Scriptlet.Proofs.Source.Printed

/-!
# Operators and Their Operands

How many operands the operators of a statement have. `!`, `++` and `--` are meant
for one and all others for two. The reader keeps to that with one exception:
whatever operator stands behind an operand and binds tightly enough is added to
it, and only `++` and `--` are looked at by name. A `!` behind an operand is thus
given a second one.

The exception has no other source, so it shows in the tokens already. A `!`
joins two operands exactly if the token right in front of it ends one.

## Main definitions

* `Operator.takesOne`: The operators for one operand.
* `Expr.hasArity`: A node with as many operands as its operator takes.
* `TokenKind.endsOperand`: The tokens that an operand can end with.
* `JoinsAt`: A `!` behind an operand, at a place.
* `Expr.InvertsAt`: A node that gives two operands to a `!`, at a place.

## Theorems

* `arity_of_printed`: Only `!` can have the wrong number of operands.
* `joinsAt_iff_infix`: What a `!` stands behind is the token before it.
* `inverts_of_reads`: A `!` behind an operand has two operands, and no other has.
* `arity_of_parse`: Which operators of a statement have the wrong number of operands.
-/

namespace Scriptlet

open Parse

/-- Whether an operator is meant for one operand. -/
def Operator.takesOne (op : Operator) : Bool :=
  op = .not || isSuffix op

/-- Whether a node has as many operands as its operator takes. -/
def Expr.hasArity : Expr → Bool
  | unary op _ _ => op.takesOne
  | binary op _ _ _ => !op.takesOne
  | _ => true

/-- Whether an operand can end with a token, so that what follows stands behind
    an operand. -/
def TokenKind.endsOperand : TokenKind → Bool
  | constant _ | name _ | closing _ => true
  | operator op => isSuffix op
  | _ => false

/-- A `!` at the given place stands behind an operand, where `ended` says whether
    one ends in front of the tokens. -/
def JoinsAt (position : Nat) : (ended : Bool) → List Token → Prop
  | _, [] => False
  | ended, t :: tokens =>
    ended = true ∧ t.kind = .operator .not ∧ t.position = position ∨
      JoinsAt position t.kind.endsOperand tokens

/-- A node at the given place gives two operands to a `!`. -/
def Expr.InvertsAt (position : Nat) (e : Expr) : Prop :=
  ∃ left right m, .binary .not left right m ∈ e.nodes ∧ m.position = position

/-! ### Trees -/

/-- Only `!` can have the wrong number of operands. -/
theorem arity_of_printed {form : Form} {ks : List TokenKind} (h : Printed form ks) :
    ∀ n ∈ form.nodes, n.hasArity = true ∨ ∃ left right m, n = .binary .not left right m := by
  induction h with
  | literal _ | var _ =>
      simp only [Form.nodes, Expr.nodes, List.forall_mem_singleton]
      exact .inl rfl
  | not _ ih => exact List.forall_mem_cons.mpr ⟨.inl rfl, ih⟩
  | suffix shape _ ih =>
      refine List.forall_mem_cons.mpr ⟨.inl ?_, ih⟩
      simp only [Expr.hasArity, Operator.takesOne, shape, Bool.or_true]
  | member _ _ ih =>
      refine List.forall_mem_cons.mpr ⟨.inl rfl, List.forall_mem_append.mpr ⟨ih, ?_⟩⟩
      exact List.forall_mem_singleton.mpr (.inl rfl)
  | method _ _ _ ih ihlist =>
      refine List.forall_mem_cons.mpr ⟨.inl rfl, List.forall_mem_append.mpr ⟨ih, ?_⟩⟩
      exact List.forall_mem_cons.mpr ⟨.inl rfl, ihlist⟩
  | index _ _ ih ihright =>
      exact List.forall_mem_cons.mpr ⟨.inl rfl, List.forall_mem_append.mpr ⟨ih, ihright⟩⟩
  | @binary op left right m _ _ shape _ _ _ ih ihright =>
      refine List.forall_mem_cons.mpr ⟨?_, List.forall_mem_append.mpr ⟨ih, ihright⟩⟩
      by_cases hnot : op = .not
      · exact .inr ⟨left, right, m, by rw [hnot]⟩
      · exact .inl (by simp [Expr.hasArity, Operator.takesOne, hnot, shape])
  | array _ ih | call _ _ ih => exact List.forall_mem_cons.mpr ⟨.inl rfl, ih⟩
  | bare _ _ ih | grouped _ _ ih => exact ih
  | none => simp [Form.nodes, Expr.nodesOf]
  | last _ ih => simpa [Form.nodes, Expr.nodesOf] using ih
  | comma _ _ ih ihlist => exact List.forall_mem_append.mpr ⟨ih, ihlist⟩

namespace Expr

variable {position : Nat} {op : Operator} {e left right : Expr} {es : List Expr} {m : Mark}

theorem invertsAt_unary : InvertsAt position (unary op e m) ↔ InvertsAt position e := by
  simp [InvertsAt, nodes]

theorem invertsAt_binary :
    InvertsAt position (binary op left right m) ↔
      op = .not ∧ m.position = position ∨ InvertsAt position left ∨ InvertsAt position right := by
  constructor
  · rintro ⟨l, r, k, hmem, hk⟩
    simp only [nodes, List.mem_cons, List.mem_append, binary.injEq] at hmem
    rcases hmem with ⟨rfl, -, -, rfl⟩ | hmem | hmem
    · exact .inl ⟨rfl, hk⟩
    · exact .inr (.inl ⟨l, r, k, hmem, hk⟩)
    · exact .inr (.inr ⟨l, r, k, hmem, hk⟩)
  · rintro (⟨rfl, hm⟩ | ⟨l, r, k, hmem, hk⟩ | ⟨l, r, k, hmem, hk⟩)
    · exact ⟨left, right, m, List.mem_cons_self, hm⟩
    · exact ⟨l, r, k, List.mem_cons_of_mem _ (List.mem_append_left _ hmem), hk⟩
    · exact ⟨l, r, k, List.mem_cons_of_mem _ (List.mem_append_right _ hmem), hk⟩

theorem not_invertsAt_literal {value : Literal} : ¬ InvertsAt position (literal value m) := by
  simp [InvertsAt, nodes]

theorem not_invertsAt_var {name : String} : ¬ InvertsAt position (var name m) := by
  simp [InvertsAt, nodes]

/-- A node that is no operator hands down to the trees below it. -/
theorem invertsAt_of_elements (hnodes : e.nodes = e :: nodesOf es) (hop : e.operator? = none) :
    InvertsAt position e ↔ ∃ d ∈ es, InvertsAt position d := by
  constructor
  · rintro ⟨l, r, k, hmem, hk⟩
    rw [hnodes] at hmem
    rcases List.mem_cons.mp hmem with rfl | hmem
    · simp [operator?] at hop
    · rcases mem_nodesOf.mp hmem with ⟨d, hd, hmem⟩
      exact ⟨d, hd, l, r, k, hmem, hk⟩
  · rintro ⟨d, hd, l, r, k, hmem, hk⟩
    refine ⟨l, r, k, ?_, hk⟩
    rw [hnodes]
    exact List.mem_cons_of_mem _ (mem_nodesOf.mpr ⟨d, hd, hmem⟩)

end Expr

/-! ### Tokens -/

section Tokens

variable {position : Nat} {ended : Bool} {t : Token} {tokens : List Token} {kind : TokenKind}

/-- Anything but a `!` only says whether an operand ends in front of the next
    token. -/
theorem joinsAt_cons (hkind : t.kind = kind) (hnot : kind ≠ .operator .not) :
    JoinsAt position ended (t :: tokens) ↔ JoinsAt position kind.endsOperand tokens := by
  subst hkind
  simp [JoinsAt, hnot]

/-- In front of an operand a `!` joins nothing. -/
theorem joinsAt_begin :
    JoinsAt position false (t :: tokens) ↔ JoinsAt position t.kind.endsOperand tokens := by
  simp [JoinsAt]

/-- What a `!` stands behind is the token before it. -/
theorem joinsAt_iff_infix :
    JoinsAt position false tokens ↔ ∃ u t, [u, t] <:+: tokens ∧ u.kind.endsOperand = true ∧
      t.kind = .operator .not ∧ t.position = position := by
  induction tokens with
  | nil => simp [JoinsAt]
  | cons u tokens ih =>
      rw [joinsAt_begin]
      cases tokens with
      | nil => simp [JoinsAt, List.infix_cons_iff]
      | cons t rest =>
          -- Either the first two tokens are the pair, or it is further on.
          rw [joinsAt_begin] at ih
          rw [JoinsAt, ih]
          constructor
          · rintro (hpair | ⟨v, w, hinfix, hpair⟩)
            · exact ⟨u, t, ⟨[], rest, rfl⟩, hpair⟩
            · exact ⟨v, w, List.infix_cons hinfix, hpair⟩
          · rintro ⟨v, w, hinfix, hpair⟩
            rcases List.infix_cons_iff.mp hinfix with hprefix | hinfix
            · simp only [List.cons_prefix_cons, List.nil_prefix, and_true] at hprefix
              rcases hprefix with ⟨rfl, rfl⟩
              exact .inl hpair
            · exact .inr ⟨v, w, hinfix, hpair⟩

end Tokens

namespace Parse

/-- What a goal makes of every `!` in the tokens that it takes. Behind all of
    them an operand has ended. -/
def Goal.Joined (position : Nat) : Goal → (tokens rest : List Token) → Prop
  | .expression _ e, tokens, rest | .operand e, tokens, rest =>
      e.InvertsAt position ∨ JoinsAt position true rest ↔ JoinsAt position false tokens
  | .extend _ left e, tokens, rest =>
      e.InvertsAt position ∨ JoinsAt position true rest ↔
        left.InvertsAt position ∨ JoinsAt position true tokens
  | .elements _ _ es, tokens, rest =>
      (∃ e ∈ es, e.InvertsAt position) ∨ JoinsAt position true rest ↔ JoinsAt position false tokens

section Joined

variable {position levels above : Nat} {op : Operator} {bracket : Bracket} {e left right : Expr}
  {es : List Expr} {t closer : Token} {tokens behind rest : List Token}

/-- A sign is no `!`, and its zero has no operators. -/
theorem joined_sign (hkind : t.kind = .operator op) (hsign : isSign op = true)
    (hinner : Goal.Joined position (.expression above e) tokens rest) :
    Goal.Joined position (.operand (.binary op (zeroAt t) e t.mark)) (t :: tokens) rest := by
  have hop : op ≠ .not ∧ isSuffix op = false := by
    simp only [isSign, Bool.or_eq_true, decide_eq_true_eq] at hsign
    rcases hsign with rfl | rfl <;> simp [isSuffix]
  simp only [Goal.Joined, Expr.invertsAt_binary, zeroAt, Expr.not_invertsAt_literal, hop.1,
    false_and, false_or, joinsAt_begin, hkind, TokenKind.endsOperand, hop.2]
  exact hinner

/-- What stands behind its operand is no `!`, and an operand ends with it. -/
theorem joined_suffix (hkind : t.kind = .operator op) (hshape : isSuffix op = true)
    (hmore : Goal.Joined position (.extend above (.unary op left t.mark) e) tokens rest) :
    Goal.Joined position (.extend above left e) (t :: tokens) rest := by
  have hop : op ≠ .not := by
    rintro rfl
    simp [isSuffix] at hshape
  simp only [Goal.Joined, Expr.invertsAt_unary] at hmore
  simp only [Goal.Joined, joinsAt_cons hkind (by simpa using hop), TokenKind.endsOperand, hshape]
  exact hmore

/-- This is the one place where a `!` gets a second operand. -/
theorem joined_binary (hkind : t.kind = .operator op) (hshape : isSuffix op = false)
    (hright : Goal.Joined position (.expression t.priority right) tokens behind)
    (hmore : Goal.Joined position (.extend above (.binary op left right t.mark) e) behind rest) :
    Goal.Joined position (.extend above left e) (t :: tokens) rest := by
  simp only [Goal.Joined, Expr.invertsAt_binary, Token.mark] at hright hmore
  simp only [Goal.Joined, JoinsAt, hkind, TokenKind.operator.injEq, TokenKind.endsOperand, hshape,
    true_and]
  rw [hmore, ← hright, or_assoc, or_assoc, or_left_comm]

/-- An index is no `!`, and an operand ends with its closing bracket. -/
theorem joined_index (hkind : t.kind = .opening .square) (hclosed : closer.kind = .closing .square)
    (hinner : Goal.Joined position (.expression t.priority right) tokens (closer :: behind))
    (hmore : Goal.Joined position (.extend above (.binary .index left right t.mark) e) behind
      rest) :
    Goal.Joined position (.extend above left e) (t :: tokens) rest := by
  simp only [Goal.Joined, joinsAt_cons hclosed (by simp), TokenKind.endsOperand] at hinner
  simp only [Goal.Joined, Expr.invertsAt_binary, reduceCtorEq, false_and, false_or] at hmore
  simp only [Goal.Joined, joinsAt_cons hkind (by simp), TokenKind.endsOperand]
  rw [hmore, ← hinner, or_assoc]

/-- Behind a comma an operand begins. -/
theorem joined_comma (hcomma : t.kind = .comma)
    (hfirst : Goal.Joined position (.expression above e) tokens (t :: behind))
    (hlist : Goal.Joined position (.elements bracket above es) behind rest) :
    Goal.Joined position (.elements bracket above (e :: es)) tokens rest := by
  simp only [Goal.Joined, joinsAt_cons hcomma (by simp), TokenKind.endsOperand] at hfirst hlist
  simp only [Goal.Joined, List.mem_cons, exists_eq_or_imp]
  rw [← hfirst, ← hlist, or_assoc]

end Joined

/-- A `!` behind an operand has two operands, and no other has. -/
theorem inverts_of_reads (position : Nat) {levels : Nat} {goal : Goal} {tokens rest : List Token}
    (h : Reads levels goal tokens rest) :
    ∀ (brackets : List Bracket), Scanned (goal.inside brackets) tokens →
      goal.Joined position tokens rest := by
  induction h with
  | expression hfirst _ ihfirst ihmore =>
      intro brackets hs
      have hmore := ihmore brackets (scanned_of_reads hfirst brackets hs)
      exact Iff.trans hmore (ihfirst brackets hs)
  | constant hkind =>
      intro brackets _
      simp only [Goal.Joined, Expr.not_invertsAt_literal, false_or]
      exact (joinsAt_cons hkind (by simp)).symm
  | name hkind =>
      intro brackets _
      simp only [Goal.Joined, Expr.not_invertsAt_var, false_or]
      exact (joinsAt_cons hkind (by simp)).symm
  | @call _ _ args t opener tokens _ hkind _ ih =>
      intro brackets hs
      rcases hs.opener_of_function hkind with ⟨hopener, hinside⟩
      simp only [Goal.Joined, Expr.invertsAt_of_elements (e := .call _ args t.mark) rfl rfl,
        joinsAt_cons hkind (by simp), joinsAt_cons hopener (by simp)]
      exact ih brackets hinside
  | not hkind _ ih =>
      intro brackets hs
      simp only [Goal.Joined, Expr.invertsAt_unary, joinsAt_begin, hkind]
      exact ih brackets (hs.tail_of_kind hkind)
  | sign hkind hsign _ ih =>
      intro brackets hs
      exact joined_sign hkind hsign (ih brackets (hs.tail_of_kind hkind))
  | group hkind _ hclosed ih =>
      intro brackets hs
      have hinner := ih (.round :: brackets) (hs.tail_of_kind hkind)
      simp only [Goal.Joined, joinsAt_cons hclosed (by simp)] at hinner
      simp only [Goal.Joined, joinsAt_cons hkind (by simp)]
      exact hinner
  | @array _ es t _ _ hkind _ ih =>
      intro brackets hs
      simp only [Goal.Joined, Expr.invertsAt_of_elements (e := .array es t.mark) rfl rfl,
        joinsAt_cons hkind (by simp)]
      exact ih brackets (hs.tail_of_kind hkind)
  | stop _ =>
      intro brackets _
      exact Iff.rfl
  | suffix _ hkind hshape _ ih =>
      intro brackets hs
      exact joined_suffix hkind hshape (ih brackets (hs.tail_of_kind hkind))
  | binary _ hkind hshape hright _ ihright ihmore =>
      intro brackets hs
      have hinside := hs.tail_of_kind hkind
      exact joined_binary hkind hshape (ihright brackets hinside)
        (ihmore brackets (scanned_of_reads hright brackets hinside))
  | index _ hkind hinner hclosed _ ihinner ihmore =>
      intro brackets hs
      have hinside := hs.tail_of_kind hkind
      have hbehind := (scanned_of_reads hinner (.square :: brackets) hinside).tail_of_kind hclosed
      exact joined_index hkind hclosed (ihinner (.square :: brackets) hinside)
        (ihmore brackets hbehind)
  | closed hclosed =>
      intro brackets _
      simp [Goal.Joined, joinsAt_cons hclosed, TokenKind.endsOperand]
  | @last _ _ bracket _ _ _ _ _ hclosed ih =>
      intro brackets hs
      have hinner := ih (bracket :: brackets) hs
      simp only [Goal.Joined, joinsAt_cons hclosed (by simp)] at hinner
      simp only [Goal.Joined, List.mem_singleton, exists_eq_left]
      exact hinner
  | @comma _ _ bracket _ _ _ _ _ _ hinner hcomma _ ihinner ihlist =>
      intro brackets hs
      have hbehind := (scanned_of_reads hinner (bracket :: brackets) hs).tail_of_kind hcomma
      exact joined_comma hcomma (ihinner (bracket :: brackets) hs) (ihlist brackets hbehind)

/-- An operator of a statement has the number of operands that it takes, except
    that a `!` may have two. Which ones do is seen from the tokens: those right
    behind a token that ends an operand. -/
theorem arity_of_parse {text : List Char} {e : Expr} (h : Expr.parse text = .ok e) :
    (∀ n ∈ e.nodes, n.hasArity = true ∨ ∃ left right m, n = .binary .not left right m) ∧
      ∃ tokens, tokenize text = .ok tokens ∧ ∀ position,
        (∃ left right m, .binary .not left right m ∈ e.nodes ∧ m.position = position) ↔
          ∃ u t, [u, t] <:+: tokens ∧ u.kind.endsOperand = true ∧ t.kind = .operator .not ∧
            t.position = position := by
  rcases printed_of_parse h with ⟨ks, hprinted⟩
  rcases reads_of_parse h with ⟨hending, hreads⟩
  refine ⟨arity_of_printed hprinted, _, tokenize_eq_ok_iff.mpr ⟨hending, rfl⟩, fun position => ?_⟩
  have hjoined := inverts_of_reads position hreads [] (Scan.scanned_ofText text)
  simp only [Goal.Joined, JoinsAt, or_false] at hjoined
  rw [← joinsAt_iff_infix, ← hjoined]
  rfl

/-- In `a ! !b` the first `!` has two operands and the second has one. -/
theorem arity_of_joining_not :
    ∃ e tokens, Expr.parse "a ! !b".toList = .ok e ∧ tokenize "a ! !b".toList = .ok tokens ∧
      (∃ n ∈ e.nodes, n.hasArity = false) ∧ ∀ position,
        (∃ left right m, .binary .not left right m ∈ e.nodes ∧ m.position = position) ↔
          ∃ u t, [u, t] <:+: tokens ∧ u.kind.endsOperand = true ∧ t.kind = .operator .not ∧
            t.position = position := by
  have hscan : Scan.ofText "a ! !b".toList =
      ⟨[⟨.name "a", 0, 2, 0⟩, ⟨.operator .not, 2, 3, 0⟩, ⟨.operator .not, 4, 5, 0⟩,
        ⟨.name "b", 5, 6, 0⟩], .complete 6 0⟩ := by
    with_unfolding_all rfl
  have hparse : Expr.parse "a ! !b".toList =
      .ok (.binary .not (.var "a" ⟨0, 0⟩) (.unary .not (.var "b" ⟨5, 0⟩) ⟨4, 8⟩) ⟨2, 8⟩) := by
    rw [Expr.parse, hscan]
    rfl
  rcases arity_of_parse hparse with ⟨_, tokens, htokens, hplaces⟩
  exact ⟨_, tokens, hparse, htokens, ⟨_, List.mem_cons_self, rfl⟩, hplaces⟩

end Parse

end Scriptlet
