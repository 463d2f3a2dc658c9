import Scriptlet.Proofs.Expr.Shape
import Scriptlet.Proofs.Parse.Reads

/-!
# Printed Trees

The tokens that the source text of a tree is made of. Only some trees have
source text that can be read at all: an operator named after its symbol may
stand where no text puts it, and a name may be no name. `Printed` gives tokens
to exactly the trees that come from texts, so it says two things at once, that
a tree is one of those and what it is printed as.

Source text leaves most brackets out, and the rule for it depends on where a
tree stands. `Form` is the tree together with that place: a whole expression,
an operand that a tight operator is attached to, or the elements of a list.

## Main definitions

* `Form`: What is printed.
* `Form.text`: Its source text.
* `Printed`: Its tokens.

## Theorems

* `Printed.inner`: Whatever is printed is also printed as an operand.
* `member_of_reads`: What is read behind a point is a name or a call.
* `printed_of_reads`: Whatever is read is printed.
* `printed_of_parse`: Statements are printed.
-/

namespace Scriptlet

open Parse

/-- What is printed. -/
inductive Form where
  /-- An expression on its own. -/
  | whole (e : Expr)
  /-- An operand, in brackets if it needs them. -/
  | inner (e : Expr)
  /-- The elements of a list. -/
  | list (es : List Expr)

namespace Form

/-- The source text of a form. -/
def text : Form → List Char
  | whole e => e.source.toList
  | inner e => (e.bracketed e.source).toList
  | list es => (Expr.commaSeparated (Expr.sources es)).toList

/-- The nodes of a form. -/
def nodes : Form → List Expr
  | whole e | inner e => e.nodes
  | list es => Expr.nodesOf es

end Form

/-- Whether a tree is an operator with one operand. -/
def Expr.isUnary : Expr → Bool
  | unary _ _ _ => true
  | _ => false

/-- The tokens of a form, for the trees that texts can be read as. -/
inductive Printed : Form → List TokenKind → Prop where
  | literal {value : Literal} {m : Mark} (spelled : (TokenKind.constant value).Spelled) :
      Printed (.whole (.literal value m)) [.constant value]
  | var {name : String} {m : Mark} (spelled : (TokenKind.name name).Spelled) :
      Printed (.whole (.var name m)) [.name name]
  | not {e : Expr} {m : Mark} {ks : List TokenKind} (operand : Printed (.inner e) ks) :
      Printed (.whole (.unary .not e m)) (.operator .not :: ks)
  | suffix {op : Operator} {e : Expr} {m : Mark} {ks : List TokenKind} (shape : isSuffix op = true)
      (operand : Printed (.inner e) ks) :
      Printed (.whole (.unary op e m)) (ks ++ [.operator op])
  | member {l : Expr} {name : String} {m m' : Mark} {ks : List TokenKind}
      (left : Printed (.inner l) ks) (isName : isIdentifier name = true) :
      Printed (.whole (.binary .dot l (.literal (.text name) m') m))
        (ks ++ [.operator .dot, .constant (.text name)])
  | method {l : Expr} {name : String} {args : List Expr} {m m' : Mark} {ks ks' : List TokenKind}
      (left : Printed (.inner l) ks) (isName : isIdentifier name = true)
      (list : Printed (.list args) ks') :
      Printed (.whole (.binary .dot l (.call name args m') m))
        (ks ++ .operator .dot :: .function name :: .opening .round :: (ks' ++ [.closing .round]))
  | index {l r : Expr} {m : Mark} {ks ks' : List TokenKind} (left : Printed (.inner l) ks)
      (right : Printed (.whole r) ks') :
      Printed (.whole (.binary .index l r m))
        (ks ++ .opening .square :: (ks' ++ [.closing .square]))
  | binary {op : Operator} {l r : Expr} {m : Mark} {ks ks' : List TokenKind}
      (shape : isSuffix op = false) (between : op.isMember = false)
      (left : Printed (.whole l) ks) (right : Printed (.whole r) ks') :
      Printed (.whole (.binary op l r m))
        (.opening .round :: (ks ++ .operator op :: (ks' ++ [.closing .round])))
  | array {es : List Expr} {m : Mark} {ks : List TokenKind} (list : Printed (.list es) ks) :
      Printed (.whole (.array es m)) (.opening .square :: (ks ++ [.closing .square]))
  | call {name : String} {args : List Expr} {m : Mark} {ks : List TokenKind}
      (isName : isIdentifier name = true) (list : Printed (.list args) ks) :
      Printed (.whole (.call name args m))
        (.function name :: .opening .round :: (ks ++ [.closing .round]))
  | bare {e : Expr} {ks : List TokenKind} (shape : e.isUnary = false)
      (whole : Printed (.whole e) ks) : Printed (.inner e) ks
  | grouped {e : Expr} {ks : List TokenKind} (shape : e.isUnary = true)
      (whole : Printed (.whole e) ks) :
      Printed (.inner e) (.opening .round :: (ks ++ [.closing .round]))
  | none : Printed (.list []) []
  | last {e : Expr} {ks : List TokenKind} (whole : Printed (.whole e) ks) : Printed (.list [e]) ks
  | comma {e e' : Expr} {es : List Expr} {ks ks' : List TokenKind} (whole : Printed (.whole e) ks)
      (list : Printed (.list (e' :: es)) ks') :
      Printed (.list (e :: e' :: es)) (ks ++ .comma :: ks')

namespace Form

variable {e l r : Expr} {es : List Expr} {m m' : Mark} {name : String} {op : Operator}

theorem text_not : (whole (.unary .not e m)).text = '!' :: (inner e).text := by
  simp only [text, Expr.source, String.toList_append]
  rfl

theorem text_suffix (hshape : isSuffix op = true) :
    (whole (.unary op e m)).text = (inner e).text ++ op.symbol.toList := by
  simp only [isSuffix, Bool.or_eq_true, decide_eq_true_eq] at hshape
  rcases hshape with rfl | rfl <;> simp only [text, Expr.source, String.toList_append]

theorem text_member (hname : isIdentifier name = true) :
    (whole (.binary .dot l (.literal (.text name) m') m)).text =
      (inner l).text ++ '.' :: name.toList := by
  simp only [text, Expr.source, Operator.isMember, Expr.memberSource, hname, if_true,
    String.toList_append, List.append_assoc]
  rfl

theorem text_call :
    (whole (.call name es m)).text = name.toList ++ '(' :: ((list es).text ++ [')']) := by
  simp only [text, Expr.source, String.toList_append, List.append_assoc]
  rfl

theorem text_method :
    (whole (.binary .dot l (.call name es m') m)).text =
      (inner l).text ++ '.' :: (name.toList ++ '(' :: ((list es).text ++ [')'])) := by
  rw [← text_call (m := m')]
  simp only [text, Expr.source, Operator.isMember, Expr.memberSource, if_true,
    String.toList_append, List.append_assoc]
  rfl

theorem text_index :
    (whole (.binary .index l r m)).text = (inner l).text ++ '[' :: ((whole r).text ++ [']']) := by
  simp only [text, Expr.source, Operator.isMember, Expr.memberSource, if_true,
    String.toList_append, List.append_assoc]
  rfl

theorem text_binary (hbetween : op.isMember = false) :
    (whole (.binary op l r m)).text = '(' :: ((whole l).text ++
      ' ' :: (op.symbol.toList ++ ' ' :: ((whole r).text ++ [')']))) := by
  simp only [text, Expr.source, hbetween, Bool.false_eq_true, if_false, String.toList_append,
    List.append_assoc]
  rfl

theorem text_array : (whole (.array es m)).text = '[' :: ((list es).text ++ [']']) := by
  simp only [text, Expr.source, String.toList_append, List.append_assoc]
  rfl

theorem text_bare (hshape : e.isUnary = false) : (inner e).text = (whole e).text := by
  cases e with
  | unary _ _ _ => simp [Expr.isUnary] at hshape
  | _ => rfl

theorem text_grouped (hshape : e.isUnary = true) :
    (inner e).text = '(' :: ((whole e).text ++ [')']) := by
  cases e with
  | unary _ _ _ =>
      simp only [text, Expr.bracketed, String.toList_append, List.append_assoc]
      rfl
  | _ => simp [Expr.isUnary] at hshape

theorem text_last : (list [e]).text = (whole e).text := by
  simp only [text, Expr.sources, Expr.commaSeparated, String.intercalate_singleton]

theorem text_comma {e' : Expr} :
    (list (e :: e' :: es)).text = (whole e).text ++ ',' :: ' ' :: (list (e' :: es)).text := by
  simp only [text, Expr.sources, Expr.commaSeparated, String.intercalate_cons_cons,
    String.toList_append, List.append_assoc]
  rfl

end Form

/-- Whether a form has tokens. -/
def Printable (form : Form) : Prop :=
  ∃ ks, Printed form ks

namespace Printable

/-- Whatever is printed is also printed as an operand. -/
theorem inner {e : Expr} (h : Printable (.whole e)) : Printable (.inner e) := by
  rcases h with ⟨ks, h⟩
  cases hshape : e.isUnary with
  | true => exact ⟨_, .grouped hshape h⟩
  | false => exact ⟨_, .bare hshape h⟩

theorem cons {e : Expr} {es : List Expr} (h : Printable (.whole e)) (hes : Printable (.list es)) :
    Printable (.list (e :: es)) := by
  rcases h with ⟨ks, h⟩
  rcases hes with ⟨ks', hes⟩
  cases es with
  | nil => exact ⟨_, .last h⟩
  | cons e' es => exact ⟨_, .comma h hes⟩

end Printable

namespace Parse

variable {levels : Nat}

/-- What is read behind a point is the name of a member or a call. Nothing binds
    tighter than the point, so neither has anything added to it. -/
theorem member_of_reads {brackets : List Bracket} {right : Expr} {t : Token}
    {tokens behind : List Token} (hs : Scanned brackets (t :: tokens))
    (hkind : t.kind = .operator .dot)
    (h : Reads levels (.expression t.priority right) tokens behind) :
    ∃ name m, isIdentifier name = true ∧
      (right = .literal (.text name) m ∨ ∃ args, right = .call name args m) := by
  rcases hs.leads_of_kind hkind with ⟨u, more, rfl, name, hname, hu⟩
  have hpriority := hs.priority_of_kind hkind
  have htokens : Scanned brackets (u :: more) := hs.tail_of_kind hkind
  cases h with
  | @expression _ _ left _ _ middle _ first extended =>
      have hmiddle := scanned_of_reads first brackets htokens
      -- Whatever stands behind the operand, it does not bind tighter than the point.
      have hleft : right = left := by
        have htight : ∀ v rest, middle = v :: rest → v.continues t.priority = true → False := by
          intro v rest heq hgoes
          subst heq
          have hle := hmiddle.priority_le
          have hlt := (kind_of_continues hgoes).1
          simp only [TokenKind.basePriority, Operator.priority] at hpriority
          omega
        cases extended with
        | stop _ => rfl
        | suffix goes _ _ _ => exact (htight _ _ rfl goes).elim
        | binary goes _ _ _ _ => exact (htight _ _ rfl goes).elim
        | index goes _ _ _ _ => exact (htight _ _ rfl goes).elim
      subst hleft
      -- The operand is what its first token says, and only two kinds of token are left.
      rcases hu with hu | hu
      · cases first with
        | constant kind =>
            rw [hu, TokenKind.constant.injEq] at kind
            exact ⟨name, _, hname, .inl (by rw [← kind])⟩
        | name kind | call kind _ | not kind _ | sign kind _ _ | group kind _ _ | array kind _ =>
            rw [hu] at kind
            simp at kind
      · cases first with
        | @call _ name' args _ _ _ _ kind _ =>
            rw [hu, TokenKind.function.injEq] at kind
            exact ⟨name, _, hname, .inr ⟨args, by rw [← kind]⟩⟩
        | constant kind | name kind | not kind _ | sign kind _ _ | group kind _ _ | array kind _ =>
            rw [hu] at kind
            simp at kind

/-- What a goal says about the trees that come out: they are printed. The
    operators behind an operand are added to a tree that was printed already. -/
def Goal.IsPrinted : Goal → Prop
  | .expression _ e | .operand e => Printable (.whole e)
  | .extend _ left e => Printable (.whole left) → Printable (.whole e)
  | .elements _ _ es => Printable (.list es)

theorem printable_zeroAt (t : Token) : Printable (.whole (zeroAt t)) := by
  have hzero : (0.0 : Float) = Scanner.numeralValue ['0'] [] := by decide +kernel
  exact ⟨_, .literal ⟨['0'], [], hzero⟩⟩

theorem printable_binary {op : Operator} {left right : Expr} {m : Mark}
    (hshape : isSuffix op = false) (hbetween : op.isMember = false)
    (hleft : Printable (.whole left)) (hright : Printable (.whole right)) :
    Printable (.whole (.binary op left right m)) := by
  rcases hleft with ⟨ks, hleft⟩
  rcases hright with ⟨ks', hright⟩
  exact ⟨_, .binary hshape hbetween hleft hright⟩

theorem printable_index {left right : Expr} {m : Mark} (hleft : Printable (.whole left))
    (hright : Printable (.whole right)) : Printable (.whole (.binary .index left right m)) := by
  rcases hleft.inner with ⟨ks, hleft⟩
  rcases hright with ⟨ks', hright⟩
  exact ⟨_, .index hleft hright⟩

/-- A member or a call behind a point. -/
theorem printable_dot {left right : Expr} {name : String} {m m' : Mark}
    (hname : isIdentifier name = true)
    (hshape : right = .literal (.text name) m' ∨ ∃ args, right = .call name args m')
    (hleft : Printable (.whole left)) (hright : Printable (.whole right)) :
    Printable (.whole (.binary .dot left right m)) := by
  rcases hleft.inner with ⟨ks, hleft⟩
  rcases hshape with rfl | ⟨args, rfl⟩
  · exact ⟨_, .member hleft hname⟩
  · rcases hright with ⟨ks', hright⟩
    -- The call is printed by its own rule, and its arguments are taken from there.
    cases hright with
    | call _ list => exact ⟨_, .method hleft hname list⟩

/-- Whatever is read is printed. -/
theorem printed_of_reads {goal : Goal} {tokens rest : List Token}
    (h : Reads levels goal tokens rest) :
    ∀ (brackets : List Bracket), Scanned (goal.inside brackets) tokens → goal.IsPrinted := by
  induction h with
  | expression first _ ihfirst ihmore =>
      intro brackets hs
      exact ihmore brackets (scanned_of_reads first brackets hs) (ihfirst brackets hs)
  | constant kind =>
      intro brackets hs
      exact ⟨_, .literal (hs.spelled_of_kind kind)⟩
  | name kind =>
      intro brackets hs
      exact ⟨_, .var (hs.spelled_of_kind kind)⟩
  | call kind _ ih =>
      intro brackets hs
      rcases ih brackets (hs.opener_of_function kind).2 with ⟨ks, hargs⟩
      exact ⟨_, .call (hs.spelled_of_kind kind) hargs⟩
  | not kind _ ih =>
      intro brackets hs
      rcases Printable.inner (ih brackets (hs.tail_of_kind kind)) with ⟨ks, he⟩
      exact ⟨_, .not he⟩
  | @sign _ op e t _ _ kind sign _ ih =>
      intro brackets hs
      -- A sign is printed as the difference or sum that it is in the tree.
      have he := ih brackets (hs.tail_of_kind kind)
      simp only [isSign, Bool.or_eq_true, decide_eq_true_eq] at sign
      rcases sign with rfl | rfl
      · exact printable_binary rfl rfl (printable_zeroAt t) he
      · exact printable_binary rfl rfl (printable_zeroAt t) he
  | group kind _ _ ih =>
      intro brackets hs
      -- Brackets leave no trace in the tree.
      exact ih (.round :: brackets) (hs.tail_of_kind kind)
  | array kind _ ih =>
      intro brackets hs
      rcases ih brackets (hs.tail_of_kind kind) with ⟨ks, hes⟩
      exact ⟨_, .array hes⟩
  | stop _ =>
      intro brackets hs hleft
      exact hleft
  | suffix _ kind shape _ ih =>
      intro brackets hs hleft
      rcases hleft.inner with ⟨ks, hleft⟩
      exact ih brackets (hs.tail_of_kind kind) ⟨_, .suffix shape hleft⟩
  | @binary _ _ op left right e t tokens behind _ _ kind shape second _ ihsecond ihmore =>
      intro brackets hs hleft
      have htokens : Scanned brackets tokens := hs.tail_of_kind kind
      refine ihmore brackets (scanned_of_reads second brackets htokens) ?_
      have hright := ihsecond brackets htokens
      -- What is to the right of a point is not any expression.
      by_cases hdot : op = .dot
      · subst hdot
        rcases member_of_reads hs kind second with ⟨name, m, hname, hshape⟩
        exact printable_dot hname hshape hleft hright
      by_cases hindex : op = .index
      · subst hindex
        exact printable_index hleft hright
      have hbetween : op.isMember = false := by
        cases op with
        | dot => exact absurd rfl hdot
        | index => exact absurd rfl hindex
        | _ => rfl
      exact printable_binary shape hbetween hleft hright
  | index _ kind inner closed _ ihinner ihmore =>
      intro brackets hs hleft
      have htokens := hs.tail_of_kind kind
      have hbehind := scanned_of_reads inner (.square :: brackets) htokens
      refine ihmore brackets (hbehind.tail_of_kind closed) ?_
      exact printable_index hleft (ihinner (.square :: brackets) htokens)
  | closed _ =>
      intro brackets hs
      exact ⟨_, .none⟩
  | @last _ _ bracket _ _ _ _ _ _ ih =>
      intro brackets hs
      rcases ih (bracket :: brackets) hs with ⟨ks, he⟩
      exact ⟨_, .last he⟩
  | @comma _ _ bracket _ _ _ _ _ _ inner separated _ ihinner ihlist =>
      intro brackets hs
      have hbehind := scanned_of_reads inner (bracket :: brackets) hs
      exact Printable.cons (ihinner (bracket :: brackets) hs)
        (ihlist brackets (hbehind.tail_of_kind separated))

/-- Statements are printed. -/
theorem printed_of_parse {text : List Char} {e : Expr} (h : Expr.parse text = .ok e) :
    Printable (.whole e) :=
  printed_of_reads (reads_of_parse h).2 [] (Scan.scanned_ofText text)

end Parse

end Scriptlet
