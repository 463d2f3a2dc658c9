import Scriptlet.Proofs.Parse.Exact
import Scriptlet.Proofs.Parse.Grammar
import Scriptlet.Proofs.Source.Printed

/-!
# Reading Source Text Back

The tokens of a tree's source text are read as that tree. Brackets are where the
reader would need them and nowhere else, so the argument follows the reader: an
operand that stands without brackets binds at least as tightly as anything that
is added to it, and what does not is inside a bracket, where priorities start
over.

An operand is read before what is added to it is known. `Resumes` therefore
leaves the rest open. It says that reading tokens comes down to going on with a
tree in hand, from the place where the tree's own tokens end, and that this
holds at every priority that source text is read above. Trees are put together
by composing such statements, and only at a closing bracket does reading stop.

How many levels all this takes is known to the last one. Brackets use up one
each, and the text has more of them than the text that the tree was read from.
An operator uses up one for all that is added behind it, so what counts is also
how many stand in a row outside brackets. A `Footprint` keeps both numbers.

## Main definitions

* `Footprint`: What it takes to read a text.
* `Expr.footprint`: What it takes to read the source text of a tree.
* `Balanced`: Tokens that close whatever they open.
* `Loose`: What is not added to a tree behind `!`.
* `Resumes`: Reading tokens comes down to going on behind a tree.
* `Form.Rereads`: Tokens of the given kinds are read as a form.

## Theorems

* `balanced_of_printed`: The tokens of source text are balanced.
* `rereads_of_printed`: The tokens of a form are read as that form.
* `readsAs_of_printed`: So the tokens of a whole tree are read as that tree, from a number of
  levels on.
-/

namespace Scriptlet

open Parse

/-! ### Levels -/

/-- What it takes to read a text: how many operators are added to its first
    operand, one after the other and outside all brackets, and how many levels
    the operand and they take. -/
structure Footprint where
  added : Nat
  levels : Nat

namespace Footprint

/-- A text inside brackets or behind a `!`, which is an operand. -/
def enclosed (f : Footprint) : Footprint :=
  ⟨0, f.levels + 1⟩

/-- A text with one more operator, and something behind that which takes `needed`
    levels. -/
def add (f : Footprint) (needed : Nat) : Footprint :=
  ⟨f.added + 1, max f.levels (f.added + 1 + needed)⟩

/-- A text where a tight operator is attached to it, in brackets if it needs
    them. -/
def attached (e : Expr) (f : Footprint) : Footprint :=
  if e.isUnary then f.enclosed else f

end Footprint

namespace Expr

mutual

/-- What it takes to read the source text of a tree. -/
def footprint : Expr → Footprint
  | literal _ _ | var _ _ => ⟨0, 0⟩
  | unary .not e _ => (e.footprint.attached e).enclosed
  | unary _ e _ => (e.footprint.attached e).add 0
  | binary op left right _ =>
    if op.isMember then (left.footprint.attached left).add (right.footprint.levels + 1)
    else (left.footprint.add (right.footprint.levels + 1)).enclosed
  | array elements _ => ⟨0, listLevels elements⟩
  | call _ args _ => ⟨0, listLevels args⟩

/-- The levels that it takes to read the source texts of the elements of a list. -/
def listLevels : List Expr → Nat
  | [] => 0
  | e :: es => max (e.footprint.levels + 1) (listLevels es)

end

end Expr

/-! ### Brackets -/

/-- Tokens behind which the same brackets are open as in front of them. -/
def Balanced (ks : List TokenKind) : Prop :=
  ∀ brackets, ks.foldl Scanner.bracketsBehind brackets = brackets

theorem Scanned.behind {brackets : List Bracket} {u rest : List Token}
    (h : Scanned brackets (u ++ rest)) :
    Scanned ((kinds u).foldl Scanner.bracketsBehind brackets) rest := by
  induction u generalizing brackets with
  | nil => exact h
  | cons t u ih => exact ih (h.tail_of_kind rfl)

theorem Balanced.scanned {ks : List TokenKind} (hks : Balanced ks) {brackets : List Bracket}
    {u rest : List Token} (hu : kinds u = ks) (h : Scanned brackets (u ++ rest)) :
    Scanned brackets rest := by
  have hrest := h.behind
  rwa [hu, hks brackets] at hrest

/-- The tokens of source text are balanced. -/
theorem balanced_of_printed {form : Form} {ks : List TokenKind} (h : Printed form ks) :
    Balanced ks := by
  induction h with
  | literal _ | var _ | none => exact fun _ => rfl
  | not _ ih | bare _ _ ih | last _ ih => exact ih
  | suffix _ _ ih | member _ _ ih =>
      intro brackets
      simp only [List.foldl_append, ih brackets, List.foldl_cons, List.foldl_nil,
        Scanner.bracketsBehind]
  | array _ ih | call _ _ ih | grouped _ _ ih =>
      intro brackets
      simp only [List.foldl_append, List.foldl_cons, List.foldl_nil, Scanner.bracketsBehind,
        ih (_ :: brackets), List.tail_cons]
  | method _ _ _ ih ih' | index _ _ ih ih' =>
      intro brackets
      simp only [List.foldl_append, List.foldl_cons, List.foldl_nil, Scanner.bracketsBehind,
        ih brackets, ih' (_ :: brackets), List.tail_cons]
  | binary _ _ _ _ ih ih' =>
      intro brackets
      simp only [List.foldl_append, List.foldl_cons, List.foldl_nil, Scanner.bracketsBehind,
        ih (_ :: brackets), ih' (_ :: brackets), List.tail_cons]
  | comma _ _ ih ih' =>
      intro brackets
      simp only [List.foldl_append, List.foldl_cons, Scanner.bracketsBehind, ih brackets,
        ih' brackets]

/-! ### Going on -/

/-- What is not added to a tree behind `!`. -/
def Loose (brackets : List Bracket) (rest : List Token) : Prop :=
  ∀ t ∈ rest.head?, t.continues (10 * brackets.length + 8) = false

/-- Reading tokens above a priority up to `limit` comes down to going on with a
    tree like `e` in hand, in front of `rest` and with the levels that are left. -/
def Resumes (f : Footprint) (limit : Nat) (e : Expr) (tokens rest : List Token) : Prop :=
  ∃ e', e'.unmarked = e.unmarked ∧
    ∀ levels above x behind, above ≤ limit →
      (Reads (levels + 1) (.expression above x) tokens behind ↔
        f.levels ≤ levels ∧ Reads (levels - f.added) (.extend above e' x) rest behind)

section Resume

variable {f : Footprint} {limit needed : Nat} {e e' l r : Expr} {m : Mark} {t : Token}
  {tokens middle rest : List Token}

theorem resumes_of_operand (h : ReadsAs needed .operand e' tokens rest)
    (he : e'.unmarked = e.unmarked) : Resumes ⟨0, needed⟩ limit e tokens rest :=
  ⟨e', he, fun _ _ _ _ _ => reads_expression_iff h⟩

theorem Resumes.mono {limit' : Nat} (h : Resumes f limit e tokens rest) (hle : limit' ≤ limit) :
    Resumes f limit' e tokens rest := by
  rcases h with ⟨e', he, h⟩
  exact ⟨e', he, fun levels above x behind habove => h levels above x behind (by omega)⟩

/-- Where nothing is added, the tree in hand is what is read. -/
theorem Resumes.stop (h : Resumes f limit e tokens rest) {above : Nat} (habove : above ≤ limit)
    (hstops : ∀ t ∈ rest.head?, t.continues above = false) :
    ∃ e', e'.unmarked = e.unmarked ∧ ReadsAs (f.levels + 1) (.expression above) e' tokens rest := by
  rcases h with ⟨e', he, h⟩
  refine ⟨e', he, fun levels x behind => ?_⟩
  cases levels with
  | zero =>
      refine ⟨fun h => absurd (pos_of_reads_expression h) (Nat.lt_irrefl _), fun h => ?_⟩
      exact absurd h.1 (Nat.not_succ_le_zero _)
  | succ levels => rw [h levels above x behind habove, reads_stop_iff hstops, Nat.succ_le_succ_iff]

/-- What is added to the tree in hand makes another one. -/
theorem Resumes.add (h : Resumes f limit l tokens middle)
    (hadd : ∀ l', l'.unmarked = l.unmarked → ∃ e', e'.unmarked = e.unmarked ∧
      ∀ levels above x behind, above ≤ limit →
        (Reads levels (.extend above l' x) middle behind ↔
          needed + 1 ≤ levels ∧ Reads (levels - 1) (.extend above e' x) rest behind)) :
    Resumes (f.add needed) limit e tokens rest := by
  rcases h with ⟨l', hl, h⟩
  rcases hadd l' hl with ⟨e', he, hadd⟩
  refine ⟨e', he, fun levels above x behind habove => ?_⟩
  -- The operator stands behind those added before it, which have used up one level each.
  have hlevels : f.levels ≤ levels ∧ needed + 1 ≤ levels - f.added ↔
      (f.add needed).levels ≤ levels := by
    simp only [Footprint.add]
    omega
  rw [h levels above x behind habove, hadd _ above x behind habove, ← and_assoc, hlevels,
    Nat.sub_sub]
  rfl

/-- A point and the member behind it. -/
theorem Resumes.dot {brackets : List Bracket}
    (h : Resumes f (10 * brackets.length + 8) l tokens (t :: middle))
    (hkind : t.kind = .operator .dot) (hs : Scanned brackets (t :: middle))
    (hrest : Scanned brackets rest) (hright : ReadsAs needed .operand e' middle rest)
    (he : e'.unmarked = r.unmarked) :
    Resumes (f.add (needed + 1)) (10 * brackets.length + 8) (.binary .dot l r m) tokens rest := by
  have hpriority := hs.priority_of_kind hkind
  simp only [TokenKind.basePriority, Operator.priority] at hpriority
  -- The member is read above the point, which nothing binds tighter than.
  have hsecond : ReadsAs (needed + 1) (.expression t.priority) e' middle rest :=
    readsAs_expression hright (stops_of_scanned hrest (by omega))
  refine h.add fun l' hl => ⟨.binary .dot l' e' t.mark, ?_, ?_⟩
  · simp only [Expr.unmarked, hl, he]
  · intro levels above x behind habove
    have hgoes : t.continues above = true := continues_of_kind (by omega) (.inl ⟨_, hkind⟩)
    exact reads_binary_iff hgoes hkind rfl hsecond

end Resume

/-! ### Trees -/

/-- Tokens of the given kinds are read as a form. An operator in front of or
    behind its operand stands without brackets only where nothing tighter
    follows. -/
def Form.Rereads (ks : List TokenKind) : Form → Prop
  | whole e => ∀ (brackets : List Bracket) (u rest : List Token), kinds u = ks →
      Scanned brackets (u ++ rest) → (e.isUnary = true → Loose brackets rest) →
        Resumes e.footprint (10 * brackets.length + 8) e (u ++ rest) rest
  | inner e => ∀ (brackets : List Bracket) (u rest : List Token), kinds u = ks →
      Scanned brackets (u ++ rest) →
        Resumes (e.footprint.attached e) (10 * brackets.length + 8) e (u ++ rest) rest
  | list es => ∀ (bracket : Bracket) (brackets : List Bracket) (u rest : List Token)
      (closer : Token) (above : Nat), kinds u = ks →
        Scanned (bracket :: brackets) (u ++ closer :: rest) → closer.kind = .closing bracket →
          above ≤ 10 * brackets.length + 10 →
            ∃ es', Expr.unmarkedAll es' = Expr.unmarkedAll es ∧
              ReadsAs (Expr.listLevels es) (.elements bracket above) es' (u ++ closer :: rest) rest

theorem Loose.of_ends {brackets : List Bracket} {rest : List Token} (h : Ends rest) :
    Loose brackets rest :=
  fun t ht => h t ht _

section Trees

variable {brackets : List Bracket} {e l r : Expr} {es : List Expr} {m : Mark} {name : String}
  {op : Operator} {ks ks' : List TokenKind} {u rest : List Token}

/-- A tree up to something that ends it. -/
theorem Form.Rereads.ends (h : Form.Rereads ks (.whole e)) (hu : kinds u = ks)
    (hs : Scanned brackets (u ++ rest)) (hends : Ends rest) (above : Nat)
    (habove : above ≤ 10 * brackets.length + 8) :
    ∃ e', e'.unmarked = e.unmarked ∧
      ReadsAs (e.footprint.levels + 1) (.expression above) e' (u ++ rest) rest :=
  (h brackets u rest hu hs fun _ => .of_ends hends).stop habove fun t ht => hends t ht above

/-- A call, also one behind a point. -/
theorem readsAs_printed_call (h : Form.Rereads ks (.list es))
    (hu : kinds u = .function name :: .opening .round :: (ks ++ [.closing .round]))
    (hs : Scanned brackets (u ++ rest)) :
    ∃ e', e'.unmarked = (Expr.call name es m).unmarked ∧
      ReadsAs (Expr.listLevels es) .operand e' (u ++ rest) rest := by
  rcases List.map_eq_cons_iff.mp hu with ⟨t, v, rfl, ht, hlist⟩
  rcases bracketed_of_kinds hlist with ⟨opener, v, closer, rfl, _, hcloser, hv⟩
  simp only [List.cons_append, List.append_assoc, List.nil_append] at hs ⊢
  have hpriority := hs.priority_of_kind ht
  simp only [TokenKind.basePriority] at hpriority
  rcases h .round brackets v rest closer t.priority hv (hs.opener_of_function ht).2 hcloser
    (by omega) with ⟨es', hes, hread⟩
  refine ⟨.call name es' t.mark, ?_, readsAs_call ht hread⟩
  simp only [Expr.unmarked, hes]

theorem rereads_array (h : Form.Rereads ks (.list es)) :
    Form.Rereads (.opening .square :: (ks ++ [.closing .square])) (.whole (.array es m)) := by
  intro brackets u rest hu hs _
  rcases bracketed_of_kinds hu with ⟨t, v, closer, rfl, ht, hcloser, hv⟩
  simp only [List.cons_append, List.append_assoc, List.nil_append] at hs ⊢
  have hpriority := hs.priority_of_kind ht
  simp only [TokenKind.basePriority] at hpriority
  rcases h .square brackets v rest closer t.priority hv (hs.tail_of_kind ht) hcloser (by omega)
    with ⟨es', hes, hread⟩
  refine resumes_of_operand (readsAs_array ht hread) ?_
  simp only [Expr.unmarked, hes]

theorem rereads_not (h : Form.Rereads ks (.inner e)) :
    Form.Rereads (.operator .not :: ks) (.whole (.unary .not e m)) := by
  intro brackets u rest hu hs hloose
  rcases List.map_eq_cons_iff.mp hu with ⟨t, v, rfl, ht, hv⟩
  have hpriority := hs.priority_of_kind ht
  simp only [TokenKind.basePriority, Operator.priority] at hpriority
  -- What follows does not bind tighter than `!`, so its operand ends where it was printed to.
  have hstops : ∀ u ∈ rest.head?, u.continues t.priority = false := by
    rw [hpriority, Nat.add_comm]
    exact hloose rfl
  rcases (h brackets v rest hv (hs.tail_of_kind ht)).stop (by omega) hstops with ⟨e', he, hread⟩
  refine resumes_of_operand (readsAs_not ht hread) ?_
  simp only [Expr.unmarked, he]

theorem rereads_suffix (hshape : isSuffix op = true) (hks : Balanced ks)
    (h : Form.Rereads ks (.inner e)) :
    Form.Rereads (ks ++ [.operator op]) (.whole (.unary op e m)) := by
  intro brackets u rest hu hs _
  rcases List.map_eq_append_iff.mp hu with ⟨v, w, rfl, hv, hw⟩
  rcases List.map_eq_singleton_iff.mp hw with ⟨t, rfl, ht⟩
  rw [List.append_assoc, List.singleton_append] at hs ⊢
  have hop : op.priority = 9 ∧
      (Expr.unary op e m).footprint = (e.footprint.attached e).add 0 := by
    simp only [isSuffix, Bool.or_eq_true, decide_eq_true_eq] at hshape
    rcases hshape with rfl | rfl <;> exact ⟨rfl, rfl⟩
  have hpriority := (hks.scanned hv hs).priority_of_kind ht
  simp only [TokenKind.basePriority, hop.1] at hpriority
  rw [hop.2]
  refine (h brackets v (t :: rest) hv hs).add fun e' he => ⟨.unary op e' t.mark, ?_, ?_⟩
  · simp only [Expr.unmarked, he]
  · intro levels above x behind habove
    have hgoes : t.continues above = true := continues_of_kind (by omega) (.inl ⟨_, ht⟩)
    exact reads_suffix_iff hgoes ht hshape

theorem rereads_index (hks : Balanced ks) (hl : Form.Rereads ks (.inner l))
    (hr : Form.Rereads ks' (.whole r)) :
    Form.Rereads (ks ++ .opening .square :: (ks' ++ [.closing .square]))
      (.whole (.binary .index l r m)) := by
  intro brackets u rest hu hs _
  rcases List.map_eq_append_iff.mp hu with ⟨v, w, rfl, hv, hindex⟩
  rcases bracketed_of_kinds hindex with ⟨t, w, closer, rfl, ht, hcloser, hw⟩
  simp only [List.cons_append, List.append_assoc, List.nil_append] at hs ⊢
  have htokens := hks.scanned hv hs
  have hpriority := htokens.priority_of_kind ht
  simp only [TokenKind.basePriority] at hpriority
  have hends : Ends (closer :: rest) := ends_of_kind (.inr ⟨_, hcloser⟩)
  rcases hr.ends hw (htokens.tail_of_kind ht) hends t.priority
    (by simp only [Scanner.bracketsBehind, List.length_cons]; omega) with ⟨r', hr, hread⟩
  refine (hl brackets v _ hv hs).add fun l' hl => ⟨.binary .index l' r' t.mark, ?_, ?_⟩
  · simp only [Expr.unmarked, hl, hr]
  · intro levels above x behind habove
    have hgoes : t.continues above = true := continues_of_kind (by omega) (.inr ht)
    exact reads_index_iff hgoes ht hread hcloser

/-- Inside brackets, a tree up to something that ends it makes an operand. -/
theorem resumes_of_group {t closer : Token} {needed limit : Nat} (ht : t.kind = .opening .round)
    (hcloser : closer.kind = .closing .round)
    (h : ∃ e', e'.unmarked = e.unmarked ∧
      ReadsAs needed (.expression t.priority) e' u (closer :: rest)) :
    Resumes ⟨0, needed⟩ limit e (t :: u) rest := by
  rcases h with ⟨e', he, h⟩
  exact resumes_of_operand (readsAs_group ht h hcloser) he

theorem rereads_grouped (hshape : e.isUnary = true) (h : Form.Rereads ks (.whole e)) :
    Form.Rereads (.opening .round :: (ks ++ [.closing .round])) (.inner e) := by
  intro brackets u rest hu hs
  rcases bracketed_of_kinds hu with ⟨t, v, closer, rfl, ht, hcloser, hv⟩
  simp only [List.cons_append, List.append_assoc, List.nil_append] at hs ⊢
  have hpriority := hs.priority_of_kind ht
  simp only [TokenKind.basePriority] at hpriority
  have hends : Ends (closer :: rest) := ends_of_kind (.inr ⟨_, hcloser⟩)
  rw [Footprint.attached, if_pos hshape]
  refine resumes_of_group ht hcloser (h.ends hv (hs.tail_of_kind ht) hends t.priority ?_)
  simp only [Scanner.bracketsBehind, List.length_cons]
  omega

/-- Between two operands no operator binds tighter than `!`. -/
theorem priority_le_of_between (hshape : isSuffix op = false) (hbetween : op.isMember = false) :
    op.priority ≤ 8 := by
  cases op with
  | dot | index => simp [Operator.isMember] at hbetween
  | increment | decrement => simp [isSuffix] at hshape
  | _ => decide

theorem rereads_binary (hshape : isSuffix op = false) (hbetween : op.isMember = false)
    (hks : Balanced ks) (hl : Form.Rereads ks (.whole l)) (hr : Form.Rereads ks' (.whole r)) :
    Form.Rereads (.opening .round :: (ks ++ .operator op :: (ks' ++ [.closing .round])))
      (.whole (.binary op l r m)) := by
  intro brackets u rest hu hs _
  rcases List.map_eq_cons_iff.mp hu with ⟨t, u, rfl, ht, hinner⟩
  rcases List.map_eq_append_iff.mp hinner with ⟨v, w, rfl, hv, hsecond⟩
  rcases bracketed_of_kinds hsecond with ⟨top, w, closer, rfl, htop, hcloser, hw⟩
  simp only [List.cons_append, List.append_assoc, List.nil_append] at hs ⊢
  have hpriority := hs.priority_of_kind ht
  have hfirst : Scanned (.round :: brackets) (v ++ top :: (w ++ closer :: rest)) :=
    hs.tail_of_kind ht
  have htokens := hks.scanned hv hfirst
  have hbinds := htokens.priority_of_kind htop
  have hbase := priority_le_of_between hshape hbetween
  simp only [TokenKind.basePriority, List.length_cons] at hpriority hbinds
  -- The right operand goes up to the closing bracket.
  have hends : Ends (closer :: rest) := ends_of_kind (.inr ⟨_, hcloser⟩)
  rcases hr.ends hw (htokens.tail_of_kind htop) hends top.priority
    (by simp only [Scanner.bracketsBehind, List.length_cons]; omega) with ⟨r', hr, hright⟩
  -- The left one goes up to the operator, which `!` does not reach past.
  have hloose : Loose (.round :: brackets) (top :: (w ++ closer :: rest)) := by
    intro x hx
    simp only [List.head?_cons, Option.mem_def, Option.some.injEq] at hx
    subst hx
    refine continues_of_priority_le ?_
    simp only [List.length_cons]
    omega
  -- Inside the bracket everything is read above the bracket, so the operator is added.
  have hleft : Resumes l.footprint t.priority l _ _ :=
    (hl _ v _ hv hfirst fun _ => hloose).mono (by simp only [List.length_cons]; omega)
  have hinner : Resumes (l.footprint.add (r.footprint.levels + 1)) t.priority (.binary op l r m)
      (v ++ top :: (w ++ closer :: rest)) (closer :: rest) := by
    refine hleft.add fun l' hl => ⟨.binary op l' r' top.mark, ?_, ?_⟩
    · simp only [Expr.unmarked, hl, hr]
    · intro levels above x behind habove
      have hpos : 0 < op.priority := by cases op <;> decide
      have hgoes : top.continues above = true := continues_of_kind (by omega) (.inl ⟨_, htop⟩)
      exact reads_binary_iff hgoes htop hshape hright
  rw [Expr.footprint, if_neg (by simp [hbetween])]
  exact resumes_of_group ht hcloser (hinner.stop (Nat.le_refl _) fun x hx => hends x hx _)

/-- The tokens of a form are read as that form. -/
theorem rereads_of_printed {form : Form} (h : Printed form ks) : form.Rereads ks := by
  induction h with
  | literal _ =>
      intro brackets u rest hu _ _
      rcases List.map_eq_singleton_iff.mp hu with ⟨t, rfl, ht⟩
      exact resumes_of_operand (readsAs_constant ht) rfl
  | var _ =>
      intro brackets u rest hu _ _
      rcases List.map_eq_singleton_iff.mp hu with ⟨t, rfl, ht⟩
      exact resumes_of_operand (readsAs_name ht) rfl
  | not _ ih => exact rereads_not ih
  | suffix shape operand ih => exact rereads_suffix shape (balanced_of_printed operand) ih
  | member left _ ih =>
      intro brackets u rest hu hs _
      rcases List.map_eq_append_iff.mp hu with ⟨v, w, rfl, hv, hw⟩
      rcases List.map_eq_cons_iff.mp hw with ⟨t, x, rfl, ht, hx⟩
      rcases List.map_eq_singleton_iff.mp hx with ⟨n, rfl, hn⟩
      rw [List.append_assoc] at hs ⊢
      have htokens := (balanced_of_printed left).scanned hv hs
      have hrest := (htokens.tail_of_kind ht).tail_of_kind hn
      exact (ih brackets v _ hv hs).dot ht htokens hrest (readsAs_constant hn) rfl
  | method left isName list ih ihlist =>
      intro brackets u rest hu hs _
      rcases List.map_eq_append_iff.mp hu with ⟨v, w, rfl, hv, hw⟩
      rcases List.map_eq_cons_iff.mp hw with ⟨t, w, rfl, ht, hcall⟩
      rw [List.append_assoc] at hs ⊢
      -- The brackets around the call are those around its receiver.
      have htokens := (balanced_of_printed left).scanned hv hs
      have hmember := htokens.tail_of_kind ht
      have hbalanced := balanced_of_printed (Printed.call (m := Expr.noMark) isName list)
      have hrest := hbalanced.scanned hcall hmember
      rcases readsAs_printed_call ihlist hcall hmember with ⟨e', he, hread⟩
      exact (ih brackets v _ hv hs).dot ht htokens hrest hread he
  | index left _ ih ihright => exact rereads_index (balanced_of_printed left) ih ihright
  | binary shape between left _ ih ihright =>
      exact rereads_binary shape between (balanced_of_printed left) ih ihright
  | array _ ih => exact rereads_array ih
  | call _ _ ih =>
      intro brackets u rest hu hs _
      rcases readsAs_printed_call ih hu hs with ⟨e', he, hread⟩
      exact resumes_of_operand hread he
  | bare shape _ ih =>
      intro brackets u rest hu hs
      -- Without brackets it is no unary operator, so anything may follow.
      rw [Footprint.attached, if_neg (by simp [shape])]
      exact ih brackets u rest hu hs fun h => by simp [shape] at h
  | grouped shape _ ih => exact rereads_grouped shape ih
  | none =>
      intro bracket brackets u rest closer above hu _ hcloser _
      rw [List.map_eq_nil_iff.mp hu]
      exact ⟨[], rfl, readsAs_closed hcloser⟩
  | last _ ih =>
      intro bracket brackets u rest closer above hu hs hcloser habove
      rcases ih.ends hu hs (ends_of_kind (.inr ⟨_, hcloser⟩)) above
        (by simp only [List.length_cons]; omega) with ⟨e', he, hread⟩
      refine ⟨[e'], by simp only [Expr.unmarkedAll, he], ?_⟩
      simp only [Expr.listLevels, Nat.max_zero]
      exact readsAs_last hread hcloser
  | comma whole _ ih ihlist =>
      intro bracket brackets u rest closer above hu hs hcloser habove
      rcases List.map_eq_append_iff.mp hu with ⟨v, w, rfl, hv, hw⟩
      rcases List.map_eq_cons_iff.mp hw with ⟨t, w, rfl, ht, hlist⟩
      simp only [List.append_assoc, List.cons_append] at hs ⊢
      have htokens := (balanced_of_printed whole).scanned hv hs
      rcases ih.ends hv hs (ends_of_kind (.inl ht)) above (by simp only [List.length_cons]; omega)
        with ⟨e', he, hread⟩
      rcases ihlist bracket brackets w rest closer above hlist (htokens.tail_of_kind ht) hcloser
        habove with ⟨es', hes, hmore⟩
      exact ⟨e' :: es', by rw [Expr.unmarkedAll, Expr.unmarkedAll, he, hes],
        readsAs_comma hread ht hmore⟩

/-- The tokens of a whole tree are read as that tree, and it is known how many
    levels that takes. -/
theorem readsAs_of_printed (h : Printed (.whole e) ks) (hu : kinds u = ks) (hs : Scanned [] u) :
    ∃ e', e'.unmarked = e.unmarked ∧
      ReadsAs (e.footprint.levels + 1) (.expression 0) e' u [] := by
  have hends : Ends [] := by simp [Ends]
  rw [← List.append_nil u] at hs ⊢
  exact (rereads_of_printed h).ends hu hs hends 0 (Nat.zero_le _)

end Trees

end Scriptlet
