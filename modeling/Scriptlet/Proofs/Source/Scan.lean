import Scriptlet.Proofs.Number.ReadBack
import Scriptlet.Proofs.Source.Printed
import Scriptlet.Proofs.Token.Spelling

/-!
# Scanning Source Text

The source text of a tree is scanned to its tokens. Where one piece of it ends
and the next begins, the characters around the seam decide: a number in front of
a point would swallow digits behind it, a name in front of a bracket would be a
function, and `!` in front of an equals sign would be another operator. None of
that happens in source text. What follows a piece always ends it (`Follows`),
and no piece begins with an equals sign (`beginsOther_text`).

Numbers are the one thing that is not decided by characters. A finite number is
written by digits that single it out among all numbers and read by rounding
them. A numeral too long for any finite number is the exception: it is read as
infinity, and the word that infinity is written with is a variable. So a tree
is `Legible` if all its numbers are finite.

## Main definitions

* `Form.Legible`: All numbers of a form are finite.
* `Form.Scans`: The text of a form is scanned to given tokens.

## Theorems

* `beginsOther_text`: Source text does not begin with an equals sign.
* `scans_of_printed`: Source text is scanned to the tokens that it is made of.
* `ofText_source`: So the source text of a whole tree has those tokens.
-/

namespace Scriptlet

open Parse Scanner

namespace Form

/-- All numbers of a form are finite. -/
def Legible (form : Form) : Prop :=
  ∀ x m, .literal (.number x) m ∈ form.nodes → x.isFinite = true

section Parts

variable {e l r : Expr} {es : List Expr} {m : Mark} {name : String} {op : Operator}

theorem Legible.of_subset {form form' : Form} (h : form.Legible)
    (hsub : ∀ n ∈ form'.nodes, n ∈ form.nodes) : form'.Legible :=
  fun x m hx => h x m (hsub _ hx)

theorem Legible.operand (h : (whole (.unary op e m)).Legible) : (inner e).Legible :=
  h.of_subset fun _ hn => List.mem_cons_of_mem _ hn

theorem Legible.left (h : (whole (.binary op l r m)).Legible) : (inner l).Legible :=
  h.of_subset fun _ hn => List.mem_cons_of_mem _ (List.mem_append_left _ hn)

theorem Legible.right (h : (whole (.binary op l r m)).Legible) : (whole r).Legible :=
  h.of_subset fun _ hn => List.mem_cons_of_mem _ (List.mem_append_right _ hn)

theorem Legible.elements (h : (whole (.array es m)).Legible) : (list es).Legible :=
  h.of_subset fun _ hn => List.mem_cons_of_mem _ hn

theorem Legible.args (h : (whole (.call name es m)).Legible) : (list es).Legible :=
  h.of_subset fun _ hn => List.mem_cons_of_mem _ hn

theorem Legible.first (h : (list (e :: es)).Legible) : (whole e).Legible :=
  h.of_subset fun _ hn => List.mem_append_left _ hn

theorem Legible.others (h : (list (e :: es)).Legible) : (list es).Legible :=
  h.of_subset fun _ hn => List.mem_append_right _ hn

end Parts

/-- The text of a form is scanned to the given tokens, whatever ends it. Behind
    a list without elements nothing is known but what is still to come. -/
def Scans (ks : List TokenKind) : Form → Prop
  | list es => ∀ {brackets : List Bracket} {s : Scanner} {more : List Char},
      Ahead ((list es).text ++ more) brackets s → Follows more →
        ∃ s', Steps s ks s' ∧ s'.rest = more ∧ s'.brackets = brackets
  | form => ∀ {brackets : List Bracket} {s : Scanner} {more : List Char},
      Ahead (form.text ++ more) brackets s → Follows more →
        ∃ s', Steps s ks s' ∧ Behind more brackets s'

end Form

/-- The text of a number from a script. -/
theorem source_of_number {x : Float} {m : Mark}
    (hspelled : (TokenKind.constant (.number x)).Spelled) (hfinite : x.isFinite = true) :
    ∃ whole fraction, Number.Digits whole fraction ∧ numeralValue whole fraction = x ∧
      (Form.whole (.literal (.number x) m)).text = Number.numeral whole fraction := by
  -- Numbers come from numerals, and those have no sign.
  have hplus : Number.isPlus x.toModel.unpack = true := by
    rcases hspelled with ⟨whole, fraction, rfl⟩
    exact Number.isPlus_numeralValue whole fraction
  rcases Number.toText_of_isPlus hplus hfinite with ⟨whole, fraction, hdigits, htext⟩
  refine ⟨whole, fraction, hdigits, ?_, ?_⟩
  · rw [← Number.ofText_numeral hdigits, ← htext, String.ofList_toList]
    exact Number.ofText_toText hplus hfinite
  · rw [← htext, Form.text, Expr.source, Expr.literalSource,
      if_neg (Number.not_lt_zero_of_isPlus hplus)]

/-- A text that begins with anything but an equals sign. -/
def BeginsOther (text : List Char) : Prop :=
  ∃ c cs, text = c :: cs ∧ c ≠ '='

theorem BeginsOther.append {text : List Char} (h : BeginsOther text) (more : List Char) :
    BeginsOther (text ++ more) := by
  rcases h with ⟨c, cs, rfl, hc⟩
  exact ⟨c, cs ++ more, rfl, hc⟩

theorem BeginsOther.head? {text : List Char} (h : BeginsOther text) : text.head? ≠ some '=' := by
  rcases h with ⟨c, cs, rfl, hc⟩
  simpa using hc

theorem beginsOther_name {name : String} (hname : isIdentifier name = true) :
    BeginsOther name.toList := by
  rcases toList_of_isIdentifier hname with ⟨c, word, hword, hc, _⟩
  refine ⟨c, word, hword, ?_⟩
  rintro rfl
  exact absurd hc (by decide)

theorem beginsOther_literal {value : Literal} {m : Mark}
    (hspelled : (TokenKind.constant value).Spelled)
    (hlegible : (Form.whole (.literal value m)).Legible) :
    BeginsOther (Form.whole (.literal value m)).text := by
  cases value with
  | number x =>
      have hx : x.isFinite = true := hlegible x m (by simp [Form.nodes, Expr.nodes])
      rcases source_of_number (m := m) hspelled hx with ⟨whole, fraction, hdigits, _, htext⟩
      rcases hdigits.cons_eq with ⟨d, ds, hd, hwhole⟩
      rw [htext, Number.numeral, hwhole]
      refine BeginsOther.append ⟨d, ds, rfl, ?_⟩ _
      rintro rfl
      exact absurd hd (by decide)
  | text s =>
      simp only [Form.text, Expr.source, Expr.literalSource, Literal.source, String.toList_append,
        List.append_assoc]
      exact ⟨'"', _, rfl, by decide⟩
  | truth b =>
      have hword : isIdentifier (Literal.truthWord b) = true := by cases b <;> rfl
      exact beginsOther_name hword

/-- The source text of a tree does not begin with an equals sign. -/
theorem beginsOther_text {form : Form} {ks : List TokenKind} (h : Printed form ks)
    (hlegible : form.Legible) (htree : ∀ es, form ≠ .list es) : BeginsOther form.text := by
  induction h with
  | literal spelled => exact beginsOther_literal spelled hlegible
  | var spelled => exact beginsOther_name spelled.1
  | not _ _ =>
      rw [Form.text_not]
      exact ⟨'!', _, rfl, by decide⟩
  | suffix shape _ ih =>
      rw [Form.text_suffix shape]
      exact (ih hlegible.operand (by simp)).append _
  | member _ isName ih =>
      rw [Form.text_member isName]
      exact (ih hlegible.left (by simp)).append _
  | method _ _ _ ih _ =>
      rw [Form.text_method]
      exact (ih hlegible.left (by simp)).append _
  | index _ _ ih _ =>
      rw [Form.text_index]
      exact (ih hlegible.left (by simp)).append _
  | binary _ between _ _ _ _ =>
      rw [Form.text_binary between]
      exact ⟨'(', _, rfl, by decide⟩
  | array _ _ =>
      rw [Form.text_array]
      exact ⟨'[', _, rfl, by decide⟩
  | call isName _ _ =>
      rw [Form.text_call]
      exact (beginsOther_name isName).append _
  | bare shape _ ih =>
      rw [Form.text_bare shape]
      exact ih hlegible (by simp)
  | grouped shape _ _ =>
      rw [Form.text_grouped shape]
      exact ⟨'(', _, rfl, by decide⟩
  | none | last _ _ | comma _ _ _ _ => exact absurd rfl (htree _)

/-! ### Piece by piece -/

section Pieces

variable {s : Scanner} {brackets : List Bracket} {more : List Char} {ks ks' : List TokenKind}
  {e e' l r : Expr} {es : List Expr} {m m' : Mark} {name : String} {op : Operator}

theorem scans_literal {value : Literal} (hspelled : (TokenKind.constant value).Spelled)
    (hlegible : (Form.whole (.literal value m)).Legible) :
    Form.Scans [.constant value] (.whole (.literal value m)) := by
  intro brackets s more hs hmore
  cases value with
  | number x =>
      have hx : x.isFinite = true := hlegible x m (by simp [Form.nodes, Expr.nodes])
      rcases source_of_number (m := m) hspelled hx with ⟨whole, fraction, hdigits, hvalue, htext⟩
      rw [htext] at hs
      rw [← hvalue]
      exact steps_number hdigits hs hmore
  | text s =>
      refine steps_text hspelled ?_ hs.brackets
      rw [hs.rest]
      simp only [Form.text, Expr.source, Expr.literalSource, Literal.source, String.toList_append,
        List.append_assoc]
      rfl
  | truth b => exact steps_truth b hs hmore.1

/-- A list between its brackets, from behind the opening one. -/
theorem scans_closed (bracket : Bracket) (hes : Form.Scans ks (.list es))
    (hs : Ahead ((Form.list es).text ++ bracket.closer :: more) (bracket :: brackets) s) :
    ∃ s', Steps s (ks ++ [.closing bracket]) s' ∧ Behind more brackets s' := by
  rcases hes hs (follows_closer bracket more) with ⟨s₁, hsteps, hrest, hbrackets⟩
  rcases steps_closing bracket hrest hbrackets with ⟨s₂, hclosing, hbehind⟩
  exact ⟨s₂, hsteps.append hclosing, hbehind⟩

/-- A tree between brackets, from behind the opening one. -/
theorem scans_enclosed (bracket : Bracket) (he : Form.Scans ks (.whole e))
    (hs : Ahead ((Form.whole e).text ++ bracket.closer :: more) (bracket :: brackets) s) :
    ∃ s', Steps s (ks ++ [.closing bracket]) s' ∧ Behind more brackets s' := by
  rcases he hs (follows_closer bracket more) with ⟨s₁, hsteps, hbehind⟩
  rcases steps_closing bracket hbehind.rest hbehind.brackets with ⟨s₂, hclosing, hbehind⟩
  exact ⟨s₂, hsteps.append hclosing, hbehind⟩

/-- A call, also one behind a point. -/
theorem scans_call (hname : isIdentifier name = true) (hes : Form.Scans ks (.list es))
    (hrest : s.rest = name.toList ++ '(' :: ((Form.list es).text ++ ')' :: more))
    (hbrackets : s.brackets = brackets) :
    ∃ s', Steps s (.function name :: .opening .round :: (ks ++ [.closing .round])) s' ∧
      Behind more brackets s' := by
  rcases steps_function name hname hrest hbrackets with ⟨s₁, hsteps, hahead⟩
  rcases scans_closed .round hes hahead with ⟨s₂, hlist, hbehind⟩
  exact ⟨s₂, hsteps.append hlist, hbehind⟩

theorem scans_not (hhead : BeginsOther (Form.inner e).text) (he : Form.Scans ks (.inner e)) :
    Form.Scans (.operator .not :: ks) (.whole (.unary .not e m)) := by
  intro brackets s more hs hmore
  -- With an equals sign behind it, `!` would be scanned as another operator.
  rw [Form.text_not, List.cons_append] at hs
  rcases steps_not hs.rest hs.brackets (hhead.append more).head? with ⟨s₁, hnot, hahead⟩
  rcases he hahead hmore with ⟨s₂, hsteps, hbehind⟩
  exact ⟨s₂, hnot.append hsteps, hbehind⟩

theorem scans_suffix (hshape : isSuffix op = true) (he : Form.Scans ks (.inner e)) :
    Form.Scans (ks ++ [.operator op]) (.whole (.unary op e m)) := by
  intro brackets s more hs hmore
  rw [Form.text_suffix hshape, List.append_assoc] at hs
  simp only [isSuffix, Bool.or_eq_true, decide_eq_true_eq] at hshape
  rcases he hs (follows_suffix hshape more) with ⟨s₁, hsteps, hbehind⟩
  rcases steps_suffix hshape hbehind.rest hbehind.brackets with ⟨s₂, hop, hbehind⟩
  exact ⟨s₂, hsteps.append hop, hbehind⟩

/-- A tree and the point behind it, in front of a name. -/
theorem scans_dot (hname : isIdentifier name = true) (hl : Form.Scans ks (.inner l))
    (hs : Ahead ((Form.inner l).text ++ '.' :: (name.toList ++ more)) brackets s) :
    ∃ s', Steps s (ks ++ [.operator .dot]) s' ∧ s'.rest = name.toList ++ more ∧
      s'.brackets = brackets ∧ s'.before = some '.' := by
  rcases toList_of_isIdentifier hname with ⟨c, word, hword, hc, _⟩
  rw [hword, List.cons_append] at hs ⊢
  rcases hl hs (follows_dot hc _) with ⟨s₁, hsteps, hbehind⟩
  rcases steps_dot hbehind hc with ⟨s₂, hdot, hpoint⟩
  exact ⟨s₂, hsteps.append hdot, hpoint⟩

theorem scans_member (hname : isIdentifier name = true) (hl : Form.Scans ks (.inner l)) :
    Form.Scans (ks ++ [.operator .dot, .constant (.text name)])
      (.whole (.binary .dot l (.literal (.text name) m') m)) := by
  intro brackets s more hs hmore
  rw [Form.text_member hname, List.append_assoc, List.cons_append] at hs
  rcases scans_dot hname hl hs with ⟨s₁, hsteps, hrest, hbrackets, hbefore⟩
  -- Behind the point the name is taken as a text, because the point is right in front of it.
  rcases steps_member name hname hrest hbrackets hbefore hmore.1 with ⟨s₂, hmember, hbehind⟩
  exact ⟨s₂, by simpa using hsteps.append hmember, hbehind⟩

theorem scans_method (hname : isIdentifier name = true) (hl : Form.Scans ks (.inner l))
    (hes : Form.Scans ks' (.list es)) :
    Form.Scans
      (ks ++ .operator .dot :: .function name :: .opening .round :: (ks' ++ [.closing .round]))
      (.whole (.binary .dot l (.call name es m') m)) := by
  intro brackets s more hs hmore
  simp only [Form.text_method, List.append_assoc, List.cons_append, List.nil_append] at hs
  rcases scans_dot hname hl hs with ⟨s₁, hsteps, hrest, hbrackets, _⟩
  rcases scans_call hname hes hrest hbrackets with ⟨s₂, hcall, hbehind⟩
  exact ⟨s₂, by simpa using hsteps.append hcall, hbehind⟩

theorem scans_index (hl : Form.Scans ks (.inner l)) (hr : Form.Scans ks' (.whole r)) :
    Form.Scans (ks ++ .opening .square :: (ks' ++ [.closing .square]))
      (.whole (.binary .index l r m)) := by
  intro brackets s more hs hmore
  simp only [Form.text_index, List.append_assoc, List.cons_append, List.nil_append] at hs
  rcases hl hs (follows_cons (by decide) (by decide) (by decide) _) with ⟨s₁, hsteps, hbehind⟩
  rcases steps_opening .square hbehind.rest hbehind.brackets with ⟨s₂, hopening, hahead⟩
  rcases scans_enclosed .square hr hahead with ⟨s₃, hinner, hbehind⟩
  exact ⟨s₃, hsteps.append (hopening.append hinner), hbehind⟩

theorem scans_binary (hshape : isSuffix op = false) (hbetween : op.isMember = false)
    (hl : Form.Scans ks (.whole l)) (hr : Form.Scans ks' (.whole r)) :
    Form.Scans (.opening .round :: (ks ++ .operator op :: (ks' ++ [.closing .round])))
      (.whole (.binary op l r m)) := by
  intro brackets s more hs hmore
  simp only [isSuffix, Bool.or_eq_false_iff, decide_eq_false_iff_not] at hshape
  simp only [Form.text_binary hbetween, List.append_assoc, List.cons_append, List.nil_append]
    at hs
  rcases steps_opening .round hs.rest hs.brackets with ⟨s₁, hopening, hahead⟩
  rcases hl hahead (follows_operator hshape hbetween _) with ⟨s₂, hleft, hbehind⟩
  -- The blanks around the operator keep it apart from both operands.
  rcases steps_operator hshape hbetween hbehind.rest hbehind.brackets with ⟨s₃, hop, hahead⟩
  rcases scans_enclosed .round hr hahead with ⟨s₄, hright, hbehind⟩
  exact ⟨s₄, hopening.append (hleft.append (hop.append hright)), hbehind⟩

theorem scans_array (hes : Form.Scans ks (.list es)) :
    Form.Scans (.opening .square :: (ks ++ [.closing .square])) (.whole (.array es m)) := by
  intro brackets s more hs hmore
  simp only [Form.text_array, List.append_assoc, List.cons_append, List.nil_append] at hs
  rcases steps_opening .square hs.rest hs.brackets with ⟨s₁, hopening, hahead⟩
  rcases scans_closed .square hes hahead with ⟨s₂, hlist, hbehind⟩
  exact ⟨s₂, hopening.append hlist, hbehind⟩

theorem scans_grouped (hshape : e.isUnary = true) (he : Form.Scans ks (.whole e)) :
    Form.Scans (.opening .round :: (ks ++ [.closing .round])) (.inner e) := by
  intro brackets s more hs hmore
  simp only [Form.text_grouped hshape, List.append_assoc, List.cons_append, List.nil_append] at hs
  rcases steps_opening .round hs.rest hs.brackets with ⟨s₁, hopening, hahead⟩
  rcases scans_enclosed .round he hahead with ⟨s₂, hinner, hbehind⟩
  exact ⟨s₂, hopening.append hinner, hbehind⟩

theorem scans_comma (he : Form.Scans ks (.whole e)) (hes : Form.Scans ks' (.list (e' :: es))) :
    Form.Scans (ks ++ .comma :: ks') (.list (e :: e' :: es)) := by
  intro brackets s more hs hmore
  simp only [Form.text_comma, List.append_assoc, List.cons_append] at hs
  rcases he hs (follows_cons (by decide) (by decide) (by decide) _) with ⟨s₁, hsteps, hbehind⟩
  rcases steps_comma hbehind.rest hbehind.brackets with ⟨s₂, hcomma, hahead⟩
  rcases hes hahead hmore with ⟨s₃, hlist, hrest⟩
  exact ⟨s₃, hsteps.append (hcomma.append hlist), hrest⟩

end Pieces

/-- Source text is scanned to the tokens that it is made of. -/
theorem scans_of_printed {form : Form} {ks : List TokenKind} (h : Printed form ks)
    (hlegible : form.Legible) : form.Scans ks := by
  -- Each piece is followed by something that ends it: the next piece, or what ends the whole.
  induction h with
  | literal spelled => exact scans_literal spelled hlegible
  | @var name m spelled =>
      intro brackets s more hs hmore
      exact steps_name name hs spelled hmore.1
  | not operand ih =>
      exact scans_not (beginsOther_text operand hlegible.operand (by simp)) (ih hlegible.operand)
  | suffix shape _ ih => exact scans_suffix shape (ih hlegible.operand)
  | member _ isName ih => exact scans_member isName (ih hlegible.left)
  | method _ isName _ ih ihlist =>
      exact scans_method isName (ih hlegible.left) (ihlist hlegible.right.args)
  | index _ _ ihleft ihright => exact scans_index (ihleft hlegible.left) (ihright hlegible.right)
  | binary shape between _ _ ihleft ihright =>
      exact scans_binary shape between (ihleft hlegible.left) (ihright hlegible.right)
  | array _ ih => exact scans_array (ih hlegible.elements)
  | call isName _ ih =>
      intro brackets s more hs hmore
      simp only [Form.text_call, List.append_assoc, List.cons_append, List.nil_append] at hs
      exact scans_call isName (ih hlegible.args) hs.rest hs.brackets
  | bare shape _ ih =>
      intro brackets s more hs hmore
      rw [Form.text_bare shape] at hs
      exact ih hlegible hs hmore
  | grouped shape _ ih => exact scans_grouped shape (ih hlegible)
  | none =>
      intro brackets s more hs hmore
      exact ⟨s, .refl s, hs.rest, hs.brackets⟩
  | last _ ih =>
      intro brackets s more hs hmore
      rw [Form.text_last] at hs
      rcases ih hlegible.first hs hmore with ⟨s₁, hsteps, hbehind⟩
      exact ⟨s₁, hsteps, hbehind.rest, hbehind.brackets⟩
  | comma _ _ ih ihlist => exact scans_comma (ih hlegible.first) (ihlist hlegible.others)

/-- The source text of a tree has the tokens that it is made of. -/
theorem ofText_source {e : Expr} {ks : List TokenKind} (h : Printed (.whole e) ks)
    (hlegible : (Form.whole e).Legible) :
    ∃ ts stop depth, kinds ts = ks ∧ Scan.ofText e.source.toList = ⟨ts, .complete stop depth⟩ := by
  have hstart : Ahead ((Form.whole e).text ++ []) [] (.start e.source.toList) :=
    ⟨by rw [List.append_nil]; rfl, rfl, by simp [start], rfl⟩
  rcases scans_of_printed h hlegible hstart follows_nil with ⟨s, hsteps, hbehind⟩
  exact Scan.ofText_of_steps hsteps hbehind.rest

end Scriptlet
