import Mathlib.Data.List.Forall2
import Scriptlet.Proofs.Parse.Precedence
import Scriptlet.Proofs.Token.Extent

/-!
# Traversals

The tree of a statement, traversed from left to right, gives back the tokens of
the statement: none is lost, none is there twice, and none has moved. The only
tokens that the tree does not show are those that say how the others belong
together, and the only nodes without a token are the zeros that signs are
applied to.

Such a zero is told from one of the text by its place, which is the place of its
sign. That is why the order of the tokens matters here: a tree that is read
stands in front of all tokens behind it, so an operator between two operands
never has its left operand at its own place.

What is read so far need not be a subtree of the result, since an operator may
take only the end of it. So the invariant is not about tokens in front of a
place but about tokens from there on: whatever becomes of those behind, these
become the nodes of what is read followed by that.

## Main definitions

* `Expr.inOrder`: The nodes of a tree from left to right.
* `Token.Becomes`: That a node is made of a token.
* `Goal.Traversed`: What becomes of the tokens that a goal takes.

## Theorems

* `before_of_mark`: A node stands in front of all tokens behind its own.
* `inOrder_binary`: An operator between operands is not taken for a sign.
* `traversed_of_reads`: The tokens that are read become the nodes of the result.
* `tokens_of_parse`: The tokens of a statement are the nodes of its tree.
-/

namespace Scriptlet

namespace Expr

open Parse

mutual

/-- The nodes of a tree in the order in which their tokens stand in the text.
    The zero that a sign is applied to has no token, and is left out. -/
def inOrder : Expr → List Expr
  | literal value m => [literal value m]
  | var name m => [var name m]
  | unary op operand m =>
    if isSuffix op then operand.inOrder ++ [unary op operand m]
    else unary op operand m :: operand.inOrder
  | binary op left right m =>
    if isSigned (binary op left right m) then binary op left right m :: right.inOrder
    else left.inOrder ++ binary op left right m :: right.inOrder
  | array elements m => array elements m :: inOrderOf elements
  | call name args m => call name args m :: inOrderOf args

/-- The nodes of several trees, one tree after the other. -/
def inOrderOf : List Expr → List Expr
  | [] => []
  | e :: es => e.inOrder ++ inOrderOf es

end

end Expr

/-- Whether a token shows in the tree. Commas, round brackets and closing
    brackets only say how the others belong together. -/
def TokenKind.isShown : TokenKind → Bool
  | comma | opening .round | closing _ => false
  | _ => true

/-- A node is what a token became, at the place of the token. -/
def Token.Becomes (t : Token) (n : Expr) : Prop :=
  match t.kind with
  | .constant value => n = .literal value t.mark
  | .name name => n = .var name t.mark
  | .function name => ∃ args, n = .call name args t.mark
  | .operator op => (∃ e, n = .unary op e t.mark) ∨ ∃ left right, n = .binary op left right t.mark
  | .opening .square => (∃ es, n = .array es t.mark) ∨ ∃ left i, n = .binary .index left i t.mark
  | _ => False

/-- The tokens that show, one by one, became the nodes. -/
def Become (tokens : List Token) (nodes : List Expr) : Prop :=
  List.Forall₂ Token.Becomes (tokens.filter (·.kind.isShown)) nodes

namespace Become

variable {t : Token} {tokens : List Token} {n : Expr} {ns : List Expr} {kind : TokenKind}

theorem hidden (h : Become tokens ns) (hkind : t.kind = kind) (hhidden : kind.isShown = false) :
    Become (t :: tokens) ns := by
  unfold Become
  rw [List.filter_cons_of_neg (by simp [hkind, hhidden])]
  exact h

theorem shown (h : Become tokens ns) (hbecomes : t.Becomes n) : Become (t :: tokens) (n :: ns) := by
  have hshown : t.kind.isShown = true := by
    unfold Token.Becomes at hbecomes
    split at hbecomes <;> simp_all [TokenKind.isShown]
  unfold Become
  rw [List.filter_cons_of_pos (by simpa using hshown)]
  exact .cons hbecomes h

end Become

namespace Parse

open Scriptlet.Expr

/-- A node that stands in front of all of some tokens. -/
def Before (e : Expr) (tokens : List Token) : Prop :=
  ∀ t ∈ tokens, e.position < t.position

/-- What becomes of the tokens that a goal takes. An operand is also in front of
    all the others, as is what an operator made of it. -/
def Goal.Traversed : Goal → (tokens rest : List Token) → Prop
  | .expression _ e, tokens, rest | .operand e, tokens, rest =>
      Before e rest ∧ ∀ ns, Become rest ns → Become tokens (e.inOrder ++ ns)
  | .extend _ left e, tokens, rest => Before left tokens →
      Before e rest ∧ ∃ more, e.inOrder = left.inOrder ++ more ∧
        ∀ ns, Become rest ns → Become tokens (more ++ ns)
  | .elements _ _ es, tokens, rest => ∀ ns, Become rest ns → Become tokens (inOrderOf es ++ ns)

theorem suffix_of_reads {levels : Nat} {goal : Goal} {tokens rest : List Token}
    (h : Reads levels goal tokens rest) : rest <:+ tokens := by
  induction h with
  | expression _ _ ihfirst ihmore => exact ihmore.trans ihfirst
  | constant _ | name _ | closed _ => exact List.suffix_cons _ _
  | call _ _ ih => exact ih.trans ((List.suffix_cons _ _).trans (List.suffix_cons _ _))
  | not _ _ ih | sign _ _ _ ih | array _ _ ih | suffix _ _ _ _ ih =>
      exact ih.trans (List.suffix_cons _ _)
  | group _ _ _ ih => exact ((List.suffix_cons _ _).trans ih).trans (List.suffix_cons _ _)
  | stop _ => exact List.suffix_rfl
  | binary _ _ _ _ _ ihright ihmore =>
      exact (ihmore.trans ihright).trans (List.suffix_cons _ _)
  | index _ _ _ _ _ ihinner ihmore =>
      exact (ihmore.trans ((List.suffix_cons _ _).trans ihinner)).trans (List.suffix_cons _ _)
  | last _ _ ih => exact (List.suffix_cons _ _).trans ih
  | comma _ _ _ ihinner ihlist => exact ihlist.trans ((List.suffix_cons _ _).trans ihinner)

theorem Before.of_suffix {e : Expr} {tokens rest : List Token} (h : Before e tokens)
    (hsuffix : rest <:+ tokens) : Before e rest :=
  fun t ht => h t (hsuffix.mem ht)

/-- What is built from a token stands in front of all tokens behind that. -/
theorem before_of_mark {e : Expr} {t : Token} {tokens : List Token} (hmark : e.mark = t.mark)
    (hordered : Ordered (t :: tokens)) : Before e tokens := by
  intro u hu
  unfold Expr.position
  rw [hmark]
  exact List.rel_of_pairwise_cons hordered hu

/-- What is read before an operator is never the zero of a sign. -/
theorem isSigned_of_before {op : Operator} {left right : Expr} {t : Token} {tokens : List Token}
    (h : Before left (t :: tokens)) : isSigned (.binary op left right t.mark) = false := by
  have hlt := h t List.mem_cons_self
  cases left with
  | literal value m =>
      have hne : m.position ≠ t.position := Nat.ne_of_lt hlt
      cases value <;> simp [isSigned, Token.mark, hne]
  | _ => rfl

theorem inOrder_binary {op : Operator} {left right : Expr} {t : Token} {tokens : List Token}
    (h : Before left (t :: tokens)) :
    (Expr.binary op left right t.mark).inOrder =
      left.inOrder ++ .binary op left right t.mark :: right.inOrder := by
  rw [inOrder, isSigned_of_before h]
  simp

/-- An operand whose first token became its first node. -/
theorem traversed_of_token {e : Expr} {inner : List Expr} {t : Token} {tokens rest : List Token}
    (horder : e.inOrder = e :: inner) (hmark : e.mark = t.mark) (hbecomes : t.Becomes e)
    (hordered : Ordered (t :: tokens)) (hsuffix : rest <:+ tokens)
    (hinner : ∀ ns, Become rest ns → Become tokens (inner ++ ns)) :
    Goal.Traversed (.operand e) (t :: tokens) rest := by
  refine ⟨(before_of_mark hmark hordered).of_suffix hsuffix, fun ns hns => ?_⟩
  rw [horder, List.cons_append]
  exact (hinner ns hns).shown hbecomes

/-- What an operator makes of an operand has the operand first, then the operator,
    and then what else it takes. More may be added to it. -/
theorem traversed_of_added {above : Nat} {left added e : Expr} {inner : List Expr} {t : Token}
    {tokens behind rest : List Token} (horder : added.inOrder = left.inOrder ++ added :: inner)
    (hmark : added.mark = t.mark) (hbecomes : t.Becomes added) (hordered : Ordered (t :: tokens))
    (hsuffix : behind <:+ tokens) (hinner : ∀ ns, Become behind ns → Become tokens (inner ++ ns))
    (hmore : Goal.Traversed (.extend above added e) behind rest) :
    Before e rest ∧ ∃ more, e.inOrder = left.inOrder ++ more ∧
      ∀ ns, Become rest ns → Become (t :: tokens) (more ++ ns) := by
  -- What was added is in front of what follows it, as the left side was of the operator.
  rcases hmore ((before_of_mark hmark hordered).of_suffix hsuffix) with ⟨hbefore, more, he, hmore⟩
  refine ⟨hbefore, added :: (inner ++ more), ?_, fun ns hns => ?_⟩
  · rw [he, horder, List.append_assoc, List.cons_append]
  · rw [List.cons_append, List.append_assoc]
    exact (hinner _ (hmore ns hns)).shown hbecomes

/-- The zero is at the place of the sign, so the traversal leaves it out. -/
theorem inOrder_sign (op : Operator) (e : Expr) (t : Token) :
    (Expr.binary op (zeroAt t) e t.mark).inOrder =
      .binary op (zeroAt t) e t.mark :: e.inOrder := by
  have hsigned : isSigned (.binary op (zeroAt t) e t.mark) = true := by
    simp [isSigned, zeroAt, Token.mark]
  rw [inOrder, if_pos hsigned]

/-- The tokens that are read become the nodes of the result, in their order. -/
theorem traversed_of_reads {levels : Nat} {goal : Goal} {tokens rest : List Token}
    (h : Reads levels goal tokens rest) :
    ∀ (brackets : List Bracket), Scanned (goal.inside brackets) tokens → Ordered tokens →
      goal.Traversed tokens rest := by
  induction h with
  | @expression _ _ _ _ _ _ _ hfirst _ ihfirst ihmore =>
      intro brackets hs hordered
      rcases ihfirst brackets hs hordered with ⟨hbefore, hleft⟩
      have hbehind := hordered.sublist (suffix_of_reads hfirst).sublist
      rcases ihmore brackets (scanned_of_reads hfirst brackets hs) hbehind hbefore with
        ⟨hbefore', more, he, hmore⟩
      refine ⟨hbefore', fun ns hns => ?_⟩
      rw [he, List.append_assoc]
      exact hleft _ (hmore ns hns)
  | @constant _ value t rest hkind =>
      intro brackets _ hordered
      exact traversed_of_token rfl rfl (by simp [Token.Becomes, hkind]) hordered List.suffix_rfl
        fun _ hns => hns
  | @name _ name t rest hkind =>
      intro brackets _ hordered
      exact traversed_of_token rfl rfl (by simp [Token.Becomes, hkind]) hordered List.suffix_rfl
        fun _ hns => hns
  | @call _ name args t opener tokens rest hkind hlist ih =>
      intro brackets hs hordered
      rcases hs.opener_of_function hkind with ⟨hopener, hinside⟩
      have hargs := ih brackets hinside hordered.of_cons.of_cons
      exact traversed_of_token rfl rfl (by simp [Token.Becomes, hkind]) hordered
        ((suffix_of_reads hlist).trans (List.suffix_cons _ _))
        fun ns hns => (hargs ns hns).hidden hopener rfl
  | @not _ e t tokens rest hkind hinner ih =>
      intro brackets hs hordered
      exact traversed_of_token rfl rfl (by simp [Token.Becomes, hkind]) hordered
        (suffix_of_reads hinner) (ih brackets (hs.tail_of_kind hkind) hordered.of_cons).2
  | @sign _ op e t tokens rest hkind _ hinner ih =>
      intro brackets hs hordered
      exact traversed_of_token (inOrder_sign op e t) rfl (by simp [Token.Becomes, hkind]) hordered
        (suffix_of_reads hinner) (ih brackets (hs.tail_of_kind hkind) hordered.of_cons).2
  | @group _ e t closer tokens rest hkind hinner hclosed ih =>
      -- Neither bracket shows, and the node stays where it is.
      intro brackets hs hordered
      rcases ih (.round :: brackets) (hs.tail_of_kind hkind) hordered.of_cons with ⟨hbefore, he⟩
      refine ⟨hbefore.of_suffix (List.suffix_cons _ _), fun ns hns => ?_⟩
      exact (he ns (hns.hidden hclosed rfl)).hidden hkind rfl
  | @array _ es t tokens rest hkind hlist ih =>
      intro brackets hs hordered
      exact traversed_of_token rfl rfl (by simp [Token.Becomes, hkind]) hordered
        (suffix_of_reads hlist) (ih brackets (hs.tail_of_kind hkind) hordered.of_cons)
  | stop _ =>
      intro brackets _ _ hbefore
      exact ⟨hbefore, [], by simp, fun ns hns => hns⟩
  | @suffix _ above op left e t tokens rest _ hkind hshape _ ih =>
      intro brackets hs hordered _
      have horder : (Expr.unary op left t.mark).inOrder =
          left.inOrder ++ .unary op left t.mark :: [] := by
        rw [inOrder, if_pos hshape]
      exact traversed_of_added horder rfl (by simp [Token.Becomes, hkind]) hordered
        List.suffix_rfl (fun _ hns => hns) (ih brackets (hs.tail_of_kind hkind) hordered.of_cons)
  | @binary _ above op left right e t tokens behind rest _ hkind _ hright _ ihright ihmore =>
      intro brackets hs hordered hleft
      have hinside := hs.tail_of_kind hkind
      have hbehind := hordered.of_cons.sublist (suffix_of_reads hright).sublist
      exact traversed_of_added (inOrder_binary hleft) rfl (by simp [Token.Becomes, hkind]) hordered
        (suffix_of_reads hright) (ihright brackets hinside hordered.of_cons).2
        (ihmore brackets (scanned_of_reads hright brackets hinside) hbehind)
  | @index _ above left i e t closer tokens behind rest _ hkind hinner hclosed _ ihinner ihmore =>
      intro brackets hs hordered hleft
      have hinside := hs.tail_of_kind hkind
      have hsuffix : behind <:+ tokens := (List.suffix_cons _ _).trans (suffix_of_reads hinner)
      have hbehind := hordered.of_cons.sublist hsuffix.sublist
      have hscanned := (scanned_of_reads hinner (.square :: brackets) hinside).tail_of_kind hclosed
      have hi := (ihinner (.square :: brackets) hinside hordered.of_cons).2
      exact traversed_of_added (inOrder_binary hleft) rfl (by simp [Token.Becomes, hkind]) hordered
        hsuffix (fun ns hns => hi ns (hns.hidden hclosed rfl)) (ihmore brackets hscanned hbehind)
  | closed hclosed =>
      intro brackets _ _ ns hns
      exact hns.hidden hclosed rfl
  | @last _ above bracket e closer tokens rest _ hclosed ih =>
      intro brackets hs hordered ns hns
      rcases ih (bracket :: brackets) hs hordered with ⟨_, he⟩
      simp only [inOrderOf, List.append_nil]
      exact he ns (hns.hidden hclosed rfl)
  | @comma _ above bracket e es comma tokens behind rest hinner hcomma _ ihinner ihlist =>
      intro brackets hs hordered ns hns
      rcases ihinner (bracket :: brackets) hs hordered with ⟨_, he⟩
      have hsuffix : behind <:+ tokens := (List.suffix_cons _ _).trans (suffix_of_reads hinner)
      have hbehind := (scanned_of_reads hinner (bracket :: brackets) hs).tail_of_kind hcomma
      have hes := ihlist brackets hbehind (hordered.sublist hsuffix.sublist) ns hns
      rw [inOrderOf, List.append_assoc]
      exact he _ (hes.hidden hcomma rfl)

/-- The tokens of a statement, without those that only group others, are the
    nodes of its tree from left to right, each at its place. The zeros that signs
    are applied to are the only nodes that this leaves out. -/
theorem tokens_of_parse {text : List Char} {e : Expr} (h : Expr.parse text = .ok e) :
    ∃ tokens, tokenize text = .ok tokens ∧
      List.Forall₂ Token.Becomes (tokens.filter (·.kind.isShown)) e.inOrder := by
  rcases reads_of_parse h with ⟨hending, hreads⟩
  refine ⟨_, tokenize_eq_ok_iff.mpr ⟨hending, rfl⟩, ?_⟩
  rcases traversed_of_reads hreads [] (Scan.scanned_ofText text) (Scan.ordered_ofText text) with
    ⟨_, he⟩
  have hall := he [] List.Forall₂.nil
  rwa [List.append_nil] at hall

/-- A sign, an increment, an index, a call and an array at once. Ten of the
    fifteen tokens show, and the zero of the sign is the eleventh node. -/
theorem tokens_of_signed_product :
    ∃ e tokens, Expr.parse "-a[b]++ * f(!c, [])".toList = .ok e ∧ e.nodes.length = 11 ∧
      tokenize "-a[b]++ * f(!c, [])".toList = .ok tokens ∧ tokens.length = 15 ∧
      List.Forall₂ Token.Becomes (tokens.filter (·.kind.isShown)) e.inOrder := by
  have hscan : Scan.ofText "-a[b]++ * f(!c, [])".toList =
      ⟨[⟨.operator .subtract, 0, 1, 0⟩, ⟨.name "a", 1, 2, 0⟩, ⟨.opening .square, 2, 3, 0⟩,
        ⟨.name "b", 3, 4, 1⟩, ⟨.closing .square, 4, 5, 1⟩, ⟨.operator .increment, 5, 7, 0⟩,
        ⟨.operator .multiply, 8, 9, 0⟩, ⟨.function "f", 10, 11, 0⟩, ⟨.opening .round, 11, 12, 0⟩,
        ⟨.operator .not, 12, 13, 1⟩, ⟨.name "c", 13, 14, 1⟩, ⟨.comma, 14, 15, 1⟩,
        ⟨.opening .square, 16, 17, 1⟩, ⟨.closing .square, 17, 18, 2⟩,
        ⟨.closing .round, 18, 19, 1⟩], .complete 19 0⟩ := by
    with_unfolding_all rfl
  have hparse : Expr.parse "-a[b]++ * f(!c, [])".toList =
      .ok (.binary .subtract (.literal (.number 0.0) ⟨0, 0⟩)
        (.binary .multiply
          (.unary .increment (.binary .index (.var "a" ⟨1, 0⟩) (.var "b" ⟨3, 10⟩) ⟨2, 10⟩) ⟨5, 9⟩)
          (.call "f" [.unary .not (.var "c" ⟨13, 10⟩) ⟨12, 18⟩, .array [] ⟨16, 20⟩] ⟨10, 0⟩)
          ⟨8, 7⟩) ⟨0, 6⟩) := by
    rw [Expr.parse, hscan]
    rfl
  rcases tokens_of_parse hparse with ⟨tokens, htokens, hbecome⟩
  refine ⟨_, tokens, hparse, rfl, htokens, ?_, hbecome⟩
  rw [← (tokenize_eq_ok_iff.mp htokens).2, hscan]
  rfl

end Parse

end Scriptlet
