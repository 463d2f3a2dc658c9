import Scriptlet.Proofs.Expr.Shape
import Scriptlet.Proofs.Parse.Reads

/-!
# Priorities in Trees

How the priorities of the operators show in the tree of a statement. A node
takes what is on its left if it stands behind an operand, and what is on its
right if an operand stands behind it. The law has one half for each: below the
right side of an operator nothing that takes from its left binds as loosely as
the operator, and on its left side nothing that takes from its right binds more
loosely. The difference between the halves is associativity to the left.

Signs and negations are where the halves come apart. What is behind a sign is
read above the *sign's* priority, which may well be lower than that of the
operator in front of it, so a sign on the right of an operator may bind more
loosely than it. On the left side of an operator it may not, because reading
the operand of the sign would have taken the operator.

Reading goes from left to right, so the half about left sides is not a fact
about a finished subtree but about a subtree and the token behind it. That is
`Yields`: the next token does not bind tighter than the root. It is what one
step of adding an operator leaves for the next.

## Main definitions

* `Expr.isSigned`: A sign in front of an operand.
* `Expr.takesLeft`, `Expr.takesRight`: On which sides a node takes operands.
* `Expr.Ranked`: The law for one node.
* `Placed`: What an expression above a priority looks like.
* `Yields`: What the token behind a tree must not do.

## Theorems

* `placed_binary`, `placed_group`, `placed_headed`: What one operator or bracket does.
* `obeys_of_reads`: What is read obeys the law.
* `parse_respects_priority`: The law for the nodes of every statement.
-/

namespace Scriptlet

namespace Expr

/-- A sign in front of an operand: an operator whose left side is a zero at its
    own place. -/
def isSigned : Expr → Bool
  | binary _ (literal (.number x) zero) _ m => x = 0.0 && zero.position = m.position
  | _ => false

/-- Whether a node takes what is in front of it: an operator between operands,
    or one behind its operand. -/
def takesLeft : Expr → Bool
  | binary op left right m => !isSigned (binary op left right m)
  | unary op _ _ => Parse.isSuffix op
  | _ => false

/-- Whether a node takes what is behind it: an operator between operands, a sign
    or a negation. -/
def takesRight : Expr → Bool
  | binary _ _ _ _ => true
  | unary op _ _ => op = .not
  | _ => false

/-- The law of priorities at a node. -/
def Ranked (n : Expr) : Prop :=
  ∀ op left right m, n = binary op left right m → n.isSigned = false →
    (right.takesLeft = true → m.priority < right.mark.priority) ∧
    (left.takesRight = true → m.priority ≤ left.mark.priority)

theorem ranked_of_isSigned {n : Expr} (h : n.isSigned = true) : n.Ranked := by
  intro op left right m _ hsigned
  rw [h] at hsigned
  exact absurd hsigned (by simp)

end Expr

namespace Parse

open Scriptlet.Expr

/-- What an expression above a priority looks like, where `floor` is the highest
    priority outside the open brackets. -/
structure Placed (floor above : Nat) (e : Expr) : Prop where
  ranked : ∀ n ∈ e.nodes, n.Ranked
  floor_lt : e.takesLeft = true ∨ e.takesRight = true → floor < e.mark.priority
  above_lt : e.takesLeft = true → above < e.mark.priority

/-- The token behind a tree does not take an operand from it. -/
def Yields (e : Expr) (rest : List Token) : Prop :=
  e.takesRight = true → ∀ t ∈ rest.head?, t.continues e.mark.priority = false

/-- What a goal makes of the trees that it is given, by the priority outside the
    open brackets. -/
def Goal.Obeys (floor : Nat) : Goal → (tokens rest : List Token) → Prop
  | .expression above e, _, _ => above ≤ floor + 10 → Placed floor above e
  | .operand e, _, rest => Placed floor (floor + 10) e ∧ Yields e rest
  | .extend above left e, tokens, _ =>
      above ≤ floor + 10 → Placed floor above left → Yields left tokens → Placed floor above e
  | .elements _ above es, _, _ =>
      above ≤ floor + 10 → ∀ e ∈ es, ∀ n ∈ e.nodes, n.Ranked

variable {floor above : Nat}

theorem Placed.mono {above' : Nat} {e : Expr} (h : Placed floor above' e) (hle : above ≤ above') :
    Placed floor above e :=
  ⟨h.ranked, h.floor_lt, fun htakes => Nat.lt_of_le_of_lt hle (h.above_lt htakes)⟩

theorem ranked_of_not_binary {n : Expr} (h : ∀ op left right m, n ≠ .binary op left right m) :
    n.Ranked :=
  fun op left right m heq => absurd heq (h op left right m)

/-- A node that is no operator has no priority to obey, and hands the law down
    to the trees below it. -/
theorem placed_of_elements {e : Expr} (es : List Expr) (hnodes : e.nodes = e :: nodesOf es)
    (hleft : e.takesLeft = false) (hright : e.takesRight = false)
    (hes : ∀ e ∈ es, ∀ n ∈ e.nodes, n.Ranked) : Placed floor above e := by
  refine ⟨?_, by simp [hleft, hright], by simp [hleft]⟩
  rw [hnodes]
  intro n hn
  rcases List.mem_cons.mp hn with rfl | hn
  · refine ranked_of_not_binary fun op left right m heq => ?_
    rw [heq] at hright
    simp [takesRight] at hright
  · rcases mem_nodesOf.mp hn with ⟨e, he, hn⟩
    exact hes e he n hn

/-- An operator added to an operand. What stands on its left yielded to it, and
    what stands on its right was read above its priority. -/
theorem placed_binary {brackets : List Bracket} {op : Operator} {left right : Expr} {t : Token}
    {tokens : List Token} {inner : Nat} (hs : Scanned brackets (t :: tokens))
    (hgoes : t.continues above = true) (hleft : Placed (10 * brackets.length) above left)
    (hyields : Yields left (t :: tokens)) (hright : Placed inner t.priority right) :
    Placed (10 * brackets.length) above (.binary op left right t.mark) := by
  rcases kind_of_continues hgoes with ⟨habove, hkind⟩
  have hfloor := hs.lt_priority (hkind.imp_right fun hop => ⟨_, hop⟩)
  refine ⟨?_, fun _ => hfloor, fun _ => habove⟩
  intro n hn
  simp only [nodes, List.mem_cons, List.mem_append] at hn
  rcases hn with rfl | hn | hn
  · rintro op' left' right' m heq _
    simp only [binary.injEq] at heq
    rcases heq with ⟨_, rfl, rfl, rfl⟩
    refine ⟨hright.above_lt, fun htakes => ?_⟩
    -- A left side that binds more loosely would have taken the operator.
    by_cases hle : t.priority ≤ left.mark.priority
    · exact hle
    · have htaken : t.continues left.mark.priority = true := continues_of_kind (by omega) hkind
      rw [hyields htakes t rfl] at htaken
      exact absurd htaken (by simp)
  · exact hleft.ranked n hn
  · exact hright.ranked n hn

/-- Brackets lift what is in them over everything that is around. -/
theorem placed_group {brackets : List Bracket} {e : Expr} {rest : List Token} {inner : Nat}
    (hs : Scanned brackets rest) (he : Placed (10 * brackets.length + 10) inner e) :
    Placed (10 * brackets.length) (10 * brackets.length + 10) e ∧ Yields e rest := by
  refine ⟨⟨he.ranked, fun h => ?_, fun h => he.floor_lt (.inl h)⟩, fun h => ?_⟩
  · have hlt := he.floor_lt h
    omega
  · -- A token behind the closing bracket does not reach over it.
    have hlt := he.floor_lt (.inr h)
    exact stops_of_scanned hs (by omega)

/-- A sign or a negation. Its operand ends in front of the first token that does
    not bind tighter than it, so that token does not take the operand from it. -/
theorem placed_headed {brackets : List Bracket} {e inner : Expr} {t : Token}
    {tokens rest : List Token} {levels : Nat} (hs : Scanned brackets (t :: tokens))
    (hkind : ∃ op, t.kind = .operator op) (hmark : e.mark = t.mark) (hleft : e.takesLeft = false)
    (hranked : ∀ n ∈ e.nodes, n ∈ inner.nodes ∨ n.Ranked)
    (hreads : Reads levels (.expression t.priority inner) tokens rest)
    (hinner : Placed (10 * brackets.length) t.priority inner) :
    Placed (10 * brackets.length) (10 * brackets.length + 10) e ∧ Yields e rest := by
  have hfloor := hs.lt_priority (.inl hkind)
  refine ⟨⟨fun n hn => ?_, fun _ => ?_, by simp [hleft]⟩, fun _ => ?_⟩
  · exact (hranked n hn).elim (hinner.ranked n) id
  · rw [hmark]
    exact hfloor
  · rw [hmark]
    exact stops_of_reads hreads (.inl ⟨_, rfl⟩)

theorem placed_not {brackets : List Bracket} {e : Expr} {t : Token} {tokens rest : List Token}
    {levels : Nat} (hs : Scanned brackets (t :: tokens)) (hkind : t.kind = .operator .not)
    (hreads : Reads levels (.expression t.priority e) tokens rest)
    (he : Placed (10 * brackets.length) t.priority e) :
    Placed (10 * brackets.length) (10 * brackets.length + 10) (.unary .not e t.mark) ∧
      Yields (.unary .not e t.mark) rest := by
  refine placed_headed hs ⟨_, hkind⟩ rfl rfl (fun n hn => ?_) hreads he
  simp only [nodes, List.mem_cons] at hn
  exact hn.symm.imp_right fun heq => ranked_of_not_binary (by simp [heq])

theorem placed_sign {brackets : List Bracket} {op : Operator} {e : Expr} {t : Token}
    {tokens rest : List Token} {levels : Nat} (hs : Scanned brackets (t :: tokens))
    (hkind : t.kind = .operator op) (hreads : Reads levels (.expression t.priority e) tokens rest)
    (he : Placed (10 * brackets.length) t.priority e) :
    Placed (10 * brackets.length) (10 * brackets.length + 10) (.binary op (zeroAt t) e t.mark) ∧
      Yields (.binary op (zeroAt t) e t.mark) rest := by
  have hsigned : isSigned (.binary op (zeroAt t) e t.mark) = true := by
    simp [isSigned, zeroAt, Token.mark]
  have hleft : takesLeft (.binary op (zeroAt t) e t.mark) = false := by
    simp [takesLeft, hsigned]
  refine placed_headed hs ⟨_, hkind⟩ rfl hleft (fun n hn => ?_) hreads he
  simp only [nodes, zeroAt, List.cons_append, List.nil_append, List.mem_cons] at hn
  -- The sign itself is exempt, and its zero is no operator.
  rcases hn with rfl | rfl | hn
  · exact .inr (ranked_of_isSigned hsigned)
  · exact .inr (ranked_of_not_binary (by simp))
  · exact .inl hn

/-- An operator behind its operand, which takes nothing from its right. -/
theorem placed_suffix {brackets : List Bracket} {op : Operator} {left : Expr} {t : Token}
    {tokens : List Token} (hs : Scanned brackets (t :: tokens)) (hgoes : t.continues above = true)
    (hkind : t.kind = .operator op) (hshape : isSuffix op = true)
    (hleft : Placed (10 * brackets.length) above left) :
    Placed (10 * brackets.length) above (.unary op left t.mark) ∧
      Yields (.unary op left t.mark) tokens := by
  have hfloor := hs.lt_priority (.inl ⟨_, hkind⟩)
  refine ⟨⟨fun n hn => ?_, fun _ => hfloor, fun _ => (kind_of_continues hgoes).1⟩, fun hright => ?_⟩
  · simp only [nodes, List.mem_cons] at hn
    rcases hn with rfl | hn
    · exact ranked_of_not_binary (by simp)
    · exact hleft.ranked n hn
  · simp only [takesRight, decide_eq_true_eq] at hright
    rw [hright] at hshape
    exact absurd hshape (by decide)

/-- An index. Nothing outside the bracket binds tighter than the bracket does. -/
theorem placed_index {brackets : List Bracket} {left i : Expr} {t : Token}
    {tokens behind : List Token} (hs : Scanned brackets (t :: tokens))
    (hgoes : t.continues above = true) (hkind : t.kind = .opening .square)
    (hbehind : Scanned brackets behind) (hleft : Placed (10 * brackets.length) above left)
    (hyields : Yields left (t :: tokens))
    (hinner : t.priority ≤ 10 * brackets.length + 20 →
      Placed (10 * brackets.length + 10) t.priority i) :
    Placed (10 * brackets.length) above (.binary .index left i t.mark) ∧
      Yields (.binary .index left i t.mark) behind := by
  have hpriority := hs.priority_of_kind hkind
  simp only [TokenKind.basePriority] at hpriority
  refine ⟨placed_binary hs hgoes hleft hyields (hinner (by omega)), fun _ => ?_⟩
  refine stops_of_scanned hbehind ?_
  show 10 * brackets.length + 10 ≤ t.priority
  omega

/-- What is read obeys the law of priorities. -/
theorem obeys_of_reads {levels : Nat} {goal : Goal} {tokens rest : List Token}
    (h : Reads levels goal tokens rest) :
    ∀ (brackets : List Bracket), Scanned (goal.inside brackets) tokens →
      goal.Obeys (10 * (goal.inside brackets).length) tokens rest := by
  -- By induction on the reading. The invariant for adding operators is that the tree so far is
  -- placed and yields to the next token.
  induction h with
  | expression hfirst _ ihfirst ihmore =>
      intro brackets hs habove
      -- The operand is placed as high as anything inside the brackets can be.
      rcases ihfirst brackets hs with ⟨hplaced, hyields⟩
      exact ihmore brackets (scanned_of_reads hfirst brackets hs) habove (hplaced.mono habove)
        hyields
  | constant _ =>
      intro brackets _
      exact ⟨placed_of_elements [] rfl rfl rfl (by simp), by simp [Yields, takesRight]⟩
  | name _ =>
      intro brackets _
      exact ⟨placed_of_elements [] rfl rfl rfl (by simp), by simp [Yields, takesRight]⟩
  | @call _ name args t opener tokens rest hkind _ ih =>
      intro brackets hs
      have hle := hs.priority_le
      -- The arguments are read above the priority of the name, one bracket further in.
      have hargs := ih brackets (hs.opener_of_function hkind).2
      simp only [Goal.inside, List.length_cons, Goal.Obeys] at hargs hle
      exact ⟨placed_of_elements _ rfl rfl rfl (hargs (by omega)), by simp [Yields, takesRight]⟩
  | @not _ e t tokens rest hkind hreads ih =>
      intro brackets hs
      exact placed_not hs hkind hreads (ih brackets (hs.tail_of_kind hkind) hs.priority_le)
  | @sign _ op e t tokens rest hkind hsign hreads ih =>
      intro brackets hs
      exact placed_sign hs hkind hreads (ih brackets (hs.tail_of_kind hkind) hs.priority_le)
  | @group _ e t closer tokens rest hkind hreads hclosed ih =>
      intro brackets hs
      have hinside := hs.tail_of_kind hkind
      have hle := hs.priority_le
      have hinner := ih (.round :: brackets) hinside
      have hbehind := (scanned_of_reads hreads (.round :: brackets) hinside).tail_of_kind hclosed
      simp only [Goal.inside, List.length_cons, Goal.Obeys, Nat.mul_add] at hinner hle
      exact placed_group hbehind (hinner (by omega))
  | @array _ es t tokens rest hkind _ ih =>
      intro brackets hs
      have hle := hs.priority_le
      have hes := ih brackets (hs.tail_of_kind hkind)
      simp only [Goal.inside, List.length_cons, Goal.Obeys] at hes hle
      exact ⟨placed_of_elements _ rfl rfl rfl (hes (by omega)), by simp [Yields, takesRight]⟩
  | stop _ =>
      intro brackets _ _ hleft _
      exact hleft
  | @suffix _ above op left e t tokens rest hgoes hkind hshape _ ih =>
      intro brackets hs habove hleft _
      rcases placed_suffix hs hgoes hkind hshape hleft with ⟨hplaced, hyields⟩
      exact ih brackets (hs.tail_of_kind hkind) habove hplaced hyields
  | @binary _ above op left right e t tokens behind rest hgoes hkind _ hreads _ ihright ihmore =>
      intro brackets hs habove hleft hyields
      -- The right operand was read above the operator, and stops where that binds as tightly.
      have hbehind := hs.tail_of_kind hkind
      have hright := ihright brackets hbehind hs.priority_le
      exact ihmore brackets (scanned_of_reads hreads brackets hbehind) habove
        (placed_binary hs hgoes hleft hyields hright)
        fun _ => stops_of_reads hreads (.inl ⟨_, rfl⟩)
  | @index _ above left i e t closer tokens behind rest hgoes hkind hreads hclosed _ ihinner
      ihmore =>
      intro brackets hs habove hleft hyields
      have hinside := hs.tail_of_kind hkind
      have hbehind := (scanned_of_reads hreads (.square :: brackets) hinside).tail_of_kind hclosed
      have hinner := ihinner (.square :: brackets) hinside
      simp only [Goal.inside, List.length_cons, Goal.Obeys, Nat.mul_add, Nat.add_assoc] at hinner
      rcases placed_index hs hgoes hkind hbehind hleft hyields hinner with ⟨hplaced, hyields'⟩
      exact ihmore brackets hbehind habove hplaced hyields'
  | closed _ =>
      intro brackets _ _ e he
      simp at he
  | @last _ above bracket e closer tokens rest _ _ ih =>
      intro brackets hs habove e' he'
      simp only [List.mem_singleton] at he'
      subst he'
      exact (ih (bracket :: brackets) hs habove).ranked
  | @comma _ above bracket e es comma tokens behind rest hreads hcomma _ ihinner ihlist =>
      intro brackets hs habove e' he'
      have hbehind := (scanned_of_reads hreads (bracket :: brackets) hs).tail_of_kind hcomma
      rcases List.mem_cons.mp he' with rfl | he'
      · exact (ihinner (bracket :: brackets) hs habove).ranked
      · exact ihlist brackets hbehind habove e' he'

/-- In the tree of a statement the right side of an operator, if it takes what
    is in front of it, binds tighter than the operator; and its left side, if it
    takes what is behind it, binds at least as tightly. -/
theorem parse_respects_priority {text : List Char} {e : Expr} (h : Expr.parse text = .ok e)
    {op : Operator} {left right : Expr} {m : Mark} (hnode : .binary op left right m ∈ e.nodes)
    (hsigned : isSigned (.binary op left right m) = false) :
    (right.takesLeft = true → m.priority < right.mark.priority) ∧
      (left.takesRight = true → m.priority ≤ left.mark.priority) := by
  have hobeys := obeys_of_reads (reads_of_parse h).2 [] (Scan.scanned_ofText text)
  exact (hobeys (Nat.zero_le _)).ranked _ hnode op left right m rfl hsigned

/-- Both halves at work: the second difference of `a - b - c * d` has the first
    one on its left and the product on its right. -/
theorem priority_of_differences :
    ∃ left right m, Expr.parse "a - b - c * d".toList = .ok (.binary .subtract left right m) ∧
      right.takesLeft = true ∧ left.takesRight = true ∧
      m.priority < right.mark.priority ∧ m.priority ≤ left.mark.priority := by
  have hscan : Scan.ofText "a - b - c * d".toList =
      ⟨[⟨.name "a", 0, 2, 0⟩, ⟨.operator .subtract, 2, 3, 0⟩, ⟨.name "b", 4, 6, 0⟩,
        ⟨.operator .subtract, 6, 7, 0⟩, ⟨.name "c", 8, 10, 0⟩, ⟨.operator .multiply, 10, 11, 0⟩,
        ⟨.name "d", 12, 13, 0⟩], .complete 13 0⟩ := by
    with_unfolding_all rfl
  have hparse : Expr.parse "a - b - c * d".toList =
      .ok (.binary .subtract (.binary .subtract (.var "a" ⟨0, 0⟩) (.var "b" ⟨4, 0⟩) ⟨2, 6⟩)
        (.binary .multiply (.var "c" ⟨8, 0⟩) (.var "d" ⟨12, 0⟩) ⟨10, 7⟩) ⟨6, 6⟩) := by
    rw [Expr.parse, hscan]
    rfl
  have hlaw := parse_respects_priority hparse (List.mem_cons_self ..) rfl
  exact ⟨_, _, _, hparse, rfl, rfl, hlaw.1 rfl, hlaw.2 rfl⟩

end Parse

end Scriptlet
