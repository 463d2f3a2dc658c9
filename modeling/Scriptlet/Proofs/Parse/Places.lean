import Mathlib.Data.List.Forall2
import Scriptlet.Proofs.Parse.Reads
import Scriptlet.Proofs.Token.Layout

/-!
# Places

Reading an expression looks at what tokens are and at how deep in brackets they
stand. Where they stand goes into the marks of the tree and into errors, and
nothing depends on it. So tokens that are alike have readings that are alike:
one tree is the other with its nodes at other places.

With what scanning says about layout this makes layout meaningless to statements
as a whole. A statement that is laid out in another way has the same tree but
for the places of its nodes, or is still not a statement.

## Main definitions

* `Expr.unplaced`: A tree with all its nodes at the start of the text.
* `Parse.Goal.Elsewhere`: What a reading says about tokens at other places.

## Theorems

* `reads_elsewhere`: Alike tokens have alike readings.
* `parse_of_alike`: Texts with alike tokens have trees that are the same but for places.
* `layout_keeps_meaning`: Relaid texts have alike tokens, and the same tree or none.
-/

namespace Scriptlet

/-- A mark at the start of the text. -/
def Mark.unplaced (m : Mark) : Mark :=
  ⟨0, m.priority⟩

namespace Expr

mutual

/-- A tree with all its nodes at the start of the text. -/
def unplaced : Expr → Expr
  | literal value m => literal value m.unplaced
  | var name m => var name m.unplaced
  | unary op operand m => unary op operand.unplaced m.unplaced
  | binary op left right m => binary op left.unplaced right.unplaced m.unplaced
  | array elements m => array (unplacedAll elements) m.unplaced
  | call name args m => call name (unplacedAll args) m.unplaced

/-- Trees with all their nodes at the start of the text. -/
def unplacedAll : List Expr → List Expr
  | [] => []
  | e :: es => e.unplaced :: unplacedAll es

end

end Expr

namespace Token.Alike

variable {t t' : Token}

theorem kind_eq (h : t.Alike t') {kind : TokenKind} (hkind : t.kind = kind) : t'.kind = kind :=
  h.1.trans hkind

theorem priority_eq (h : t.Alike t') : t'.priority = t.priority := by
  rw [priority, priority, h.1, h.2]

theorem mark_eq (h : t.Alike t') : t'.mark.unplaced = t.mark.unplaced := by
  simp only [Mark.unplaced, mark, h.priority_eq]

theorem continues_eq (h : t.Alike t') (above : Nat) : t'.continues above = t.continues above := by
  rw [continues, continues, h.priority_eq, h.1]

theorem symm (h : t.Alike t') : t'.Alike t :=
  ⟨h.1.symm, h.2.symm⟩

/-- What is the same for alike tokens is the same all along. -/
theorem map_eq {α : Type} {f : Token → α} (hf : ∀ {t t' : Token}, t.Alike t' → f t' = f t)
    {tokens tokens' : List Token} (h : List.Forall₂ Token.Alike tokens tokens') :
    tokens'.map f = tokens.map f := by
  have hsame : List.Forall₂ Eq (tokens.map f) (tokens'.map f) := by
    rw [List.forall₂_map_left_iff, List.forall₂_map_right_iff]
    exact h.imp fun _ _ ht => (hf ht).symm
  rw [List.forall₂_eq_eq_eq] at hsame
  exact hsame.symm

end Token.Alike

namespace Parse

open Scriptlet.Expr (unplaced unplacedAll)

/-- What a reading says about tokens at other places: the same is read, but for
    the places of the nodes. -/
def Goal.Elsewhere (levels : Nat) : Goal → (tokens rest : List Token) → Prop
  | .expression above e, tokens, rest =>
    ∃ e', e'.unplaced = e.unplaced ∧ Reads levels (.expression above e') tokens rest
  | .operand e, tokens, rest =>
    ∃ e', e'.unplaced = e.unplaced ∧ Reads levels (.operand e') tokens rest
  | .extend above left e, tokens, rest =>
    ∀ left', left'.unplaced = left.unplaced →
      ∃ e', e'.unplaced = e.unplaced ∧ Reads levels (.extend above left' e') tokens rest
  | .elements bracket above es, tokens, rest =>
    ∃ es', unplacedAll es' = unplacedAll es ∧ Reads levels (.elements bracket above es') tokens rest

section Elsewhere

variable {levels above : Nat} {op : Operator} {bracket : Bracket} {left right e : Expr}
  {es : List Expr} {t t' closer closer' : Token} {tokens behind rest : List Token}

/-- The bracket behind the name is stepped over, whatever it is. -/
theorem elsewhere_call {name : String} {opener : Token} (ht : t.Alike t')
    (hkind : t.kind = .function name)
    (hlist : Goal.Elsewhere levels (.elements .round t.priority es) tokens rest) :
    Goal.Elsewhere levels (.operand (.call name es t.mark)) (t' :: opener :: tokens) rest := by
  rcases hlist with ⟨es', hes, hreads⟩
  rw [← ht.priority_eq] at hreads
  exact ⟨.call name es' t'.mark, by simp only [unplaced, ht.mark_eq, hes],
    .call (ht.kind_eq hkind) hreads⟩

theorem elsewhere_not (ht : t.Alike t') (hkind : t.kind = .operator .not)
    (hinner : Goal.Elsewhere levels (.expression t.priority e) tokens rest) :
    Goal.Elsewhere levels (.operand (.unary .not e t.mark)) (t' :: tokens) rest := by
  rcases hinner with ⟨e', he, hreads⟩
  rw [← ht.priority_eq] at hreads
  exact ⟨.unary .not e' t'.mark, by simp only [unplaced, ht.mark_eq, he],
    .not (ht.kind_eq hkind) hreads⟩

theorem elsewhere_sign (ht : t.Alike t') (hkind : t.kind = .operator op)
    (hsign : isSign op = true)
    (hinner : Goal.Elsewhere levels (.expression t.priority e) tokens rest) :
    Goal.Elsewhere levels (.operand (.binary op (zeroAt t) e t.mark)) (t' :: tokens) rest := by
  rcases hinner with ⟨e', he, hreads⟩
  rw [← ht.priority_eq] at hreads
  refine ⟨.binary op (zeroAt t') e' t'.mark, ?_, .sign (ht.kind_eq hkind) hsign hreads⟩
  simp only [unplaced, zeroAt, Mark.unplaced, Token.mark, ht.priority_eq, ht.2, he]

theorem elsewhere_group (ht : t.Alike t') (hkind : t.kind = .opening .round)
    (hcloser : closer.Alike closer') (hclosed : closer.kind = .closing .round)
    (hinner : Goal.Elsewhere levels (.expression t.priority e) tokens (closer' :: rest)) :
    Goal.Elsewhere levels (.operand e) (t' :: tokens) rest := by
  rcases hinner with ⟨e', he, hreads⟩
  rw [← ht.priority_eq] at hreads
  exact ⟨e', he, .group (ht.kind_eq hkind) hreads (hcloser.kind_eq hclosed)⟩

theorem elsewhere_array (ht : t.Alike t') (hkind : t.kind = .opening .square)
    (hlist : Goal.Elsewhere levels (.elements .square t.priority es) tokens rest) :
    Goal.Elsewhere levels (.operand (.array es t.mark)) (t' :: tokens) rest := by
  rcases hlist with ⟨es', hes, hreads⟩
  rw [← ht.priority_eq] at hreads
  exact ⟨.array es' t'.mark, by simp only [unplaced, ht.mark_eq, hes],
    .array (ht.kind_eq hkind) hreads⟩

theorem elsewhere_suffix (ht : t.Alike t') (hgoes : t.continues above = true)
    (hkind : t.kind = .operator op) (hshape : isSuffix op = true)
    (hmore : Goal.Elsewhere levels (.extend above (.unary op left t.mark) e) tokens rest) :
    Goal.Elsewhere (levels + 1) (.extend above left e) (t' :: tokens) rest := by
  intro left' hleft
  rcases hmore (.unary op left' t'.mark) (by simp only [unplaced, ht.mark_eq, hleft]) with
    ⟨e', he, hreads⟩
  exact ⟨e', he, .suffix (by rw [ht.continues_eq, hgoes]) (ht.kind_eq hkind) hshape hreads⟩

theorem elsewhere_binary (ht : t.Alike t') (hgoes : t.continues above = true)
    (hkind : t.kind = .operator op) (hshape : isSuffix op = false)
    (hsecond : Goal.Elsewhere levels (.expression t.priority right) tokens behind)
    (hmore : Goal.Elsewhere levels (.extend above (.binary op left right t.mark) e) behind rest) :
    Goal.Elsewhere (levels + 1) (.extend above left e) (t' :: tokens) rest := by
  intro left' hleft
  rcases hsecond with ⟨right', hright, hreads⟩
  rw [← ht.priority_eq] at hreads
  rcases hmore (.binary op left' right' t'.mark)
    (by simp only [unplaced, ht.mark_eq, hleft, hright]) with ⟨e', he, hreads'⟩
  exact ⟨e', he, .binary (by rw [ht.continues_eq, hgoes]) (ht.kind_eq hkind) hshape hreads hreads'⟩

theorem elsewhere_index (ht : t.Alike t') (hgoes : t.continues above = true)
    (hkind : t.kind = .opening .square) (hcloser : closer.Alike closer')
    (hclosed : closer.kind = .closing .square)
    (hinner : Goal.Elsewhere levels (.expression t.priority right) tokens (closer' :: behind))
    (hmore : Goal.Elsewhere levels (.extend above (.binary .index left right t.mark) e)
      behind rest) :
    Goal.Elsewhere (levels + 1) (.extend above left e) (t' :: tokens) rest := by
  intro left' hleft
  rcases hinner with ⟨right', hright, hreads⟩
  rw [← ht.priority_eq] at hreads
  rcases hmore (.binary .index left' right' t'.mark)
    (by simp only [unplaced, ht.mark_eq, hleft, hright]) with ⟨e', he, hreads'⟩
  exact ⟨e', he, .index (by rw [ht.continues_eq, hgoes]) (ht.kind_eq hkind) hreads
    (hcloser.kind_eq hclosed) hreads'⟩

theorem elsewhere_comma (ht : t.Alike t') (hcomma : t.kind = .comma)
    (hfirst : Goal.Elsewhere levels (.expression above e) tokens (t' :: behind))
    (hlist : Goal.Elsewhere levels (.elements bracket above es) behind rest) :
    Goal.Elsewhere levels (.elements bracket above (e :: es)) tokens rest := by
  rcases hfirst with ⟨e', he, hreads⟩
  rcases hlist with ⟨es', hes, hreads'⟩
  exact ⟨e' :: es', by simp only [unplacedAll, he, hes],
    .comma hreads (ht.kind_eq hcomma) hreads'⟩

end Elsewhere

/-- Alike tokens have alike readings. -/
theorem reads_elsewhere {levels : Nat} {goal : Goal} {tokens rest : List Token}
    (h : Reads levels goal tokens rest) :
    ∀ {tokens' : List Token}, List.Forall₂ Token.Alike tokens tokens' →
      ∃ rest', List.Forall₂ Token.Alike rest rest' ∧ goal.Elsewhere levels tokens' rest' := by
  -- By induction on the reading: what is read in front leaves alike tokens behind it.
  induction h with
  | expression _ _ ihfirst ihmore =>
      intro tokens' htokens
      rcases ihfirst htokens with ⟨behind, hbehind, left', hleft, hfirst⟩
      rcases ihmore hbehind with ⟨rest', hrest, hextend⟩
      rcases hextend left' hleft with ⟨e', he, hmore⟩
      exact ⟨rest', hrest, e', he, .expression hfirst hmore⟩
  | constant hkind =>
      rintro _ (_ | ⟨ht, hrest⟩)
      exact ⟨_, hrest, _, by simp only [unplaced, ht.mark_eq], .constant (ht.kind_eq hkind)⟩
  | name hkind =>
      rintro _ (_ | ⟨ht, hrest⟩)
      exact ⟨_, hrest, _, by simp only [unplaced, ht.mark_eq], .name (ht.kind_eq hkind)⟩
  | call hkind _ ih =>
      rintro _ (_ | ⟨ht, _ | ⟨_, htokens⟩⟩)
      rcases ih htokens with ⟨rest', hrest, hlist⟩
      exact ⟨rest', hrest, elsewhere_call ht hkind hlist⟩
  | not hkind _ ih =>
      rintro _ (_ | ⟨ht, htokens⟩)
      rcases ih htokens with ⟨rest', hrest, hinner⟩
      exact ⟨rest', hrest, elsewhere_not ht hkind hinner⟩
  | sign hkind hsign _ ih =>
      rintro _ (_ | ⟨ht, htokens⟩)
      rcases ih htokens with ⟨rest', hrest, hinner⟩
      exact ⟨rest', hrest, elsewhere_sign ht hkind hsign hinner⟩
  | group hkind _ hclosed ih =>
      rintro _ (_ | ⟨ht, htokens⟩)
      rcases ih htokens with ⟨_, _ | ⟨hcloser, hrest⟩, hinner⟩
      exact ⟨_, hrest, elsewhere_group ht hkind hcloser hclosed hinner⟩
  | array hkind _ ih =>
      rintro _ (_ | ⟨ht, htokens⟩)
      rcases ih htokens with ⟨rest', hrest, hlist⟩
      exact ⟨rest', hrest, elsewhere_array ht hkind hlist⟩
  | stop hstops =>
      intro tokens' htokens
      refine ⟨tokens', htokens, fun left' hleft => ⟨left', hleft, .stop ?_⟩⟩
      cases htokens with
      | nil => simp
      | cons ht _ =>
          simp only [List.head?_cons, Option.mem_def, Option.some.injEq, forall_eq'] at hstops ⊢
          rw [ht.continues_eq, hstops]
  | suffix hgoes hkind hshape _ ih =>
      rintro _ (_ | ⟨ht, htokens⟩)
      rcases ih htokens with ⟨rest', hrest, hmore⟩
      exact ⟨rest', hrest, elsewhere_suffix ht hgoes hkind hshape hmore⟩
  | binary hgoes hkind hshape _ _ ihsecond ihmore =>
      rintro _ (_ | ⟨ht, htokens⟩)
      rcases ihsecond htokens with ⟨behind, hbehind, hsecond⟩
      rcases ihmore hbehind with ⟨rest', hrest, hmore⟩
      exact ⟨rest', hrest, elsewhere_binary ht hgoes hkind hshape hsecond hmore⟩
  | index hgoes hkind _ hclosed _ ihinner ihmore =>
      rintro _ (_ | ⟨ht, htokens⟩)
      rcases ihinner htokens with ⟨_, _ | ⟨hcloser, hbehind⟩, hinner⟩
      rcases ihmore hbehind with ⟨rest', hrest, hmore⟩
      exact ⟨rest', hrest, elsewhere_index ht hgoes hkind hcloser hclosed hinner hmore⟩
  | closed hclosed =>
      rintro _ (_ | ⟨hcloser, hrest⟩)
      exact ⟨_, hrest, [], rfl, .closed (hcloser.kind_eq hclosed)⟩
  | last _ hclosed ih =>
      intro tokens' htokens
      rcases ih htokens with ⟨_, _ | ⟨hcloser, hrest⟩, e', he, hinner⟩
      exact ⟨_, hrest, [e'], by simp only [unplacedAll, he],
        .last hinner (hcloser.kind_eq hclosed)⟩
  | comma _ hcomma _ ihinner ihlist =>
      intro tokens' htokens
      rcases ihinner htokens with ⟨_, _ | ⟨hseparator, hbehind⟩, hinner⟩
      rcases ihlist hbehind with ⟨rest', hrest, hlist⟩
      exact ⟨rest', hrest, elsewhere_comma hseparator hcomma hinner hlist⟩

/-- A statement has the same tree as any text with alike tokens, but for the
    places of its nodes. -/
theorem parse_of_alike {text text' : List Char} {tokens tokens' : List Token} {e : Expr}
    (htokens : tokenize text = .ok tokens) (htokens' : tokenize text' = .ok tokens')
    (halike : List.Forall₂ Token.Alike tokens tokens') (h : Expr.parse text = .ok e) :
    ∃ e', Expr.parse text' = .ok e' ∧ e'.unplaced = e.unplaced := by
  have hreads := (reads_of_parse h).2
  rw [(tokenize_eq_ok_iff.mp htokens).2] at hreads
  rcases tokenize_eq_ok_iff.mp htokens' with ⟨⟨stop, depth, hcomplete⟩, hscan⟩
  rcases reads_elsewhere hreads halike with ⟨_, _ | _, e', he, hreads'⟩
  rw [← hscan] at hreads'
  -- The reading takes no more levels than there are, since the first one did not.
  rcases parse_settles hcomplete hreads' with hparse | ⟨hlevels, _⟩
  · exact ⟨e', hparse, he⟩
  · exact absurd (Nat.le_refl maxNesting) hlevels

end Parse

/-- A text that has tokens keeps them when it is laid out in another way: the
    tokens have the same kinds and bind as tightly as before. It keeps its tree
    as well, but for the places of the nodes, and what was no statement is still
    none. -/
theorem layout_keeps_meaning {text text' : List Char} {tokens : List Token}
    (h : Relaid text text') (htokens : tokenize text = .ok tokens) :
    (∃ tokens', tokenize text' = .ok tokens' ∧ kinds tokens' = kinds tokens ∧
      tokens'.map Token.priority = tokens.map Token.priority) ∧
    ((∃ error error', Expr.parse text = .error error ∧ Expr.parse text' = .error error') ∨
      ∃ e e', Expr.parse text = .ok e ∧ Expr.parse text' = .ok e' ∧
        e'.unplaced = e.unplaced) := by
  rcases alike_of_relaid h htokens with ⟨tokens', htokens', halike⟩
  have hback : List.Forall₂ Token.Alike tokens' tokens :=
    (halike.imp fun _ _ ht => ht.symm).flip
  refine ⟨⟨tokens', htokens', Token.Alike.map_eq And.left halike,
    Token.Alike.map_eq Token.Alike.priority_eq halike⟩, ?_⟩
  cases hparse : Expr.parse text with
  | ok e =>
      rcases Parse.parse_of_alike htokens htokens' halike hparse with ⟨e', hparse', he⟩
      exact .inr ⟨e, e', rfl, hparse', he⟩
  | error error =>
      cases hparse' : Expr.parse text' with
      | error error' => exact .inl ⟨error, error', rfl, rfl⟩
      | ok e' =>
          -- A tree of the other text would be one of this text.
          rcases Parse.parse_of_alike htokens' htokens hback hparse' with ⟨e, hok, _⟩
          rw [hparse] at hok
          simp at hok

/-- A line that is broken in another way, with a text and a member in it. -/
theorem meaning_of_broken_line :
    ∃ (tokens : List Token) (e e' : Expr),
      Relaid "a.b + \"x  y\"".toList "a.b\n\t+\n\"x  y\"".toList ∧
      tokenize "a.b + \"x  y\"".toList = .ok tokens ∧
      Expr.parse "a.b + \"x  y\"".toList = .ok e ∧
      Expr.parse "a.b\n\t+\n\"x  y\"".toList = .ok e' ∧
      e.position = 4 ∧ e'.position = 5 ∧ e'.unplaced = e.unplaced := by
  have htokens : tokenize "a.b + \"x  y\"".toList =
      .ok [⟨.name "a", 0, 1, 0⟩, ⟨.operator .dot, 1, 2, 0⟩, ⟨.constant (.text "b"), 2, 4, 0⟩,
        ⟨.operator .add, 4, 5, 0⟩, ⟨.constant (.text "x  y"), 6, 12, 0⟩] := by
    with_unfolding_all rfl
  have hscan : Scan.ofText "a.b + \"x  y\"".toList =
      ⟨[⟨.name "a", 0, 1, 0⟩, ⟨.operator .dot, 1, 2, 0⟩, ⟨.constant (.text "b"), 2, 4, 0⟩,
        ⟨.operator .add, 4, 5, 0⟩, ⟨.constant (.text "x  y"), 6, 12, 0⟩], .complete 12 0⟩ := by
    with_unfolding_all rfl
  have hparse : Expr.parse "a.b + \"x  y\"".toList =
      .ok (.binary .add (.binary .dot (.var "a" ⟨0, 0⟩) (.literal (.text "b") ⟨2, 0⟩) ⟨1, 10⟩)
        (.literal (.text "x  y") ⟨6, 0⟩) ⟨4, 6⟩) := by
    rw [Expr.parse, hscan]
    rfl
  have hscan' : Scan.ofText "a.b\n\t+\n\"x  y\"".toList =
      ⟨[⟨.name "a", 0, 1, 0⟩, ⟨.operator .dot, 1, 2, 0⟩, ⟨.constant (.text "b"), 2, 5, 0⟩,
        ⟨.operator .add, 5, 6, 0⟩, ⟨.constant (.text "x  y"), 7, 13, 0⟩], .complete 13 0⟩ := by
    with_unfolding_all rfl
  have hparse' : Expr.parse "a.b\n\t+\n\"x  y\"".toList =
      .ok (.binary .add (.binary .dot (.var "a" ⟨0, 0⟩) (.literal (.text "b") ⟨2, 0⟩) ⟨1, 10⟩)
        (.literal (.text "x  y") ⟨7, 0⟩) ⟨5, 6⟩) := by
    rw [Expr.parse, hscan']
    rfl
  have hrelaid : Relaid "a.b + \"x  y\"".toList "a.b\n\t+\n\"x  y\"".toList := by
    have hquoted : Relaid ['"', 'x', ' ', ' ', 'y', '"'] ['"', 'x', ' ', ' ', 'y', '"'] :=
      @Relaid.quoted ['x', ' ', ' ', 'y'] _ _ (by decide) .nil
    have hbehind := @Relaid.layout [' '] ['\n'] _ _ (by simp) (by simp) rfl rfl hquoted
    have hsum := @Relaid.layout [' '] ['\n', '\t'] _ _ (by simp) (by simp) rfl rfl
      (.same rfl (show '+' ≠ '"' by decide) hbehind)
    exact .same rfl (by decide) (.same rfl (by decide) (.same rfl (by decide) hsum))
  refine ⟨_, _, _, hrelaid, htokens, hparse, hparse', rfl, rfl, ?_⟩
  rcases layout_keeps_meaning hrelaid htokens with ⟨_, ⟨_, _, herror, _⟩ | ⟨e, e', he, he', hsame⟩⟩
  · rw [hparse] at herror
    simp at herror
  · rw [hparse, Except.ok.injEq] at he
    rw [hparse', Except.ok.injEq] at he'
    rw [he, he']
    exact hsame

end Scriptlet
