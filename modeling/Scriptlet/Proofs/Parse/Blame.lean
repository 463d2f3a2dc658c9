import Scriptlet.Proofs.Parse.Traversal

/-!
# Places in a Statement

Two ways lead from a statement to a place in its text: an error blames a place,
and a node of its tree stands at one. Either way the place is in the text, and
there is a token or a fault of the scan that it comes from.

For errors this is an invariant of the reader. It answers with what is left of
the tokens, or it finds fault with the grammar at the place of a token that it
was given, behind such a token or at the end of the text, or it comes upon the
fault that ended the scan and passes it on. There is no other source of errors,
so a fault of characters is always one that the scan found.

For nodes it follows from the traversal of the tree, which lists all nodes that
have a token. The only others are the zeros of signs, and they are at the place
of the sign.

## Main definitions

* `Grammatical`: The causes that tokens have for not being read.
* `Founded`: Errors that the scan or one of some places accounts for.
* `Located`: Tokens that begin and stop at some places.
* `Accountable`: Answers of the reader that are located or founded.

## Theorems

* `expression_accountable`: The reader is accountable.
* `founded_of_parse`: The errors of a statement are founded in its text.
* `position_le_of_parse`: They blame no place beyond it.
* `exists_inOrder`: Every node is at the place of one that has a token.
* `token_of_node`: Every node of a statement has its place and its operator from a token.
* `position_lt_of_parse`: No node is beyond the text.
-/

namespace Scriptlet

namespace Parse

/-! ### Errors -/

/-- The causes that tokens have for not being read. -/
def Grammatical : Cause → Bool
  | .expressionMissing | .operandMissing | .closerMissing _ | .strayToken | .nestedTooDeeply => true
  | _ => false

/-- An error that is accounted for: the fault that ended the scan, or a fault of
    grammar at one of some places. -/
def Founded (ending : Ending) (places : Nat → Prop) (e : Fault) : Prop :=
  (∃ depth, ending = .broken e depth) ∨
    e.kind = .grammatical ∧ Grammatical e.cause = true ∧ places e.position

/-- Tokens that begin and stop at some places. -/
def Located (places : Nat → Prop) (tokens : List Token) : Prop :=
  ∀ t ∈ tokens, places t.position ∧ places t.stop

/-- An answer of the reader with located tokens behind it, or a founded error. -/
def Accountable {α : Type} (ending : Ending) (places : Nat → Prop) :
    Except Fault (α × List Token) → Prop
  | .ok (_, rest) => Located places rest
  | .error e => Founded ending places e

theorem Located.tail {places : Nat → Prop} {tokens : List Token} (h : Located places tokens) :
    Located places tokens.tail :=
  fun t ht => h t (List.mem_of_mem_tail ht)

theorem Accountable.bind {α β : Type} {ending : Ending} {places : Nat → Prop}
    {x : Except Fault (α × List Token)}
    {f : α × List Token → Except Fault (β × List Token)} (hx : Accountable ending places x)
    (hf : ∀ a rest, Located places rest → Accountable ending places (f (a, rest))) :
    Accountable ending places (x >>= f) := by
  cases x with
  | error e => exact hx
  | ok answer => exact hf answer.1 answer.2 hx

section Reader

variable {ending : Ending} {places : Nat → Prop} {read : Reader}

/-- Where tokens run out, the end of the text or the fault that ended the scan is
    to blame. -/
theorem founded_blame (hend : places ending.place) {cause : Cause}
    (hcause : Grammatical cause = true) : Founded ending places (ending.blame cause) := by
  cases ending with
  | complete stop depth => exact .inr ⟨rfl, hcause, hend⟩
  | broken e depth => exact .inl ⟨depth, rfl⟩

/-- A reader of expressions that is accountable. -/
def Careful (ending : Ending) (places : Nat → Prop) (read : Reader) : Prop :=
  ∀ above position tokens, places position → Located places tokens →
    Accountable ending places (read above position tokens)

theorem group_accountable (hend : places ending.place) (hread : Careful ending places read)
    (bracket : Bracket) {t : Token} {rest : List Token} (hstop : places t.stop)
    (hrest : Located places rest) :
    Accountable ending places (group ending read bracket t rest) := by
  refine (hread _ _ _ hstop hrest).bind fun inner behind hbehind => ?_
  rcases behind with _ | ⟨u, behind⟩
  · exact founded_blame hend rfl
  · rcases List.forall_mem_cons.mp hbehind with ⟨hu, hmore⟩
    simp only
    split
    · exact hmore
    · exact .inr ⟨rfl, rfl, hu.1⟩

theorem elements_accountable (hend : places ending.place) (hread : Careful ending places read)
    (bracket : Bracket) (above : Nat) : ∀ (rounds : Nat) {tokens : List Token},
      Located places tokens →
        Accountable ending places (elements ending read bracket above rounds tokens) := by
  intro rounds
  induction rounds with
  | zero =>
      intro tokens htokens
      rcases tokens with _ | ⟨t, tokens⟩
      · exact founded_blame hend rfl
      · exact .inr ⟨rfl, rfl, (htokens t List.mem_cons_self).1⟩
  | succ rounds ih =>
      intro tokens htokens
      rcases tokens with _ | ⟨t, tokens⟩
      · exact founded_blame hend rfl
      rcases List.forall_mem_cons.mp htokens with ⟨ht, hrest⟩
      rw [elements]
      split
      · exact hrest
      -- An element, and then a comma or the closing bracket behind it.
      refine (hread _ _ _ ht.1 htokens).bind fun e behind hbehind => ?_
      rcases behind with _ | ⟨u, more⟩
      · exact founded_blame hend rfl
      rcases List.forall_mem_cons.mp hbehind with ⟨hu, hmore⟩
      simp only
      split
      · exact (ih hmore).bind fun es more' hmore' => hmore'
      · split
        · exact hmore
        · exact .inr ⟨rfl, rfl, hu.1⟩

theorem operand_accountable (hend : places ending.place) (hread : Careful ending places read)
    {t : Token} {rest : List Token} (hposition : places t.position) (hstop : places t.stop)
    (hrest : Located places rest) : Accountable ending places (operand ending read t rest) := by
  have hinner := hread t.priority t.stop rest hstop hrest
  unfold operand
  split
  · exact hrest
  · exact hrest
  · exact (elements_accountable hend hread _ _ _ hrest.tail).bind fun _ _ hbehind => hbehind
  · exact hinner.bind fun _ _ hbehind => hbehind
  · exact hinner.bind fun _ _ hbehind => hbehind
  · exact hinner.bind fun _ _ hbehind => hbehind
  · exact group_accountable hend hread _ hstop hrest
  · exact (elements_accountable hend hread _ _ _ hrest).bind fun _ _ hbehind => hbehind
  · exact .inr ⟨rfl, rfl, hposition⟩

theorem addTo_accountable (hend : places ending.place) (hread : Careful ending places read)
    (left : Expr) {t : Token} {rest : List Token} (hstop : places t.stop)
    (hrest : Located places rest) : Accountable ending places (addTo ending read left t rest) := by
  unfold addTo
  split
  · exact hrest
  · exact hrest
  · exact (hread _ _ _ hstop hrest).bind fun _ _ hbehind => hbehind
  · exact (group_accountable hend hread _ hstop hrest).bind fun _ _ hbehind => hbehind

/-- The reader is accountable. Expressions and the operators behind an operand
    call one another, so the induction on levels is over both. -/
theorem expression_accountable (hend : places ending.place) (levels : Nat) :
    Careful ending places (expression ending levels) ∧
      ∀ (above : Nat) (left : Expr) (tokens : List Token), Located places tokens →
        Accountable ending places (extend ending levels above left tokens) := by
  induction levels with
  | zero =>
      refine ⟨fun above position tokens hposition _ => .inr ⟨rfl, rfl, ?_⟩,
        fun above left tokens htokens => ?_⟩
      · exact hposition
      · rcases tokens with _ | ⟨t, tokens⟩
        · exact htokens
        · rw [extend]
          split
          · exact .inr ⟨rfl, rfl, (htokens t List.mem_cons_self).1⟩
          · exact htokens
  | succ levels ih =>
      rcases ih with ⟨hexpression, hextend⟩
      refine ⟨fun above position tokens _ htokens => ?_, fun above left tokens htokens => ?_⟩
      · rcases tokens with _ | ⟨t, tokens⟩
        · exact founded_blame hend rfl
        · rcases List.forall_mem_cons.mp htokens with ⟨ht, hrest⟩
          rw [expression]
          exact (operand_accountable hend hexpression ht.1 ht.2 hrest).bind
            fun left behind hbehind => hextend above left behind hbehind
      · rcases tokens with _ | ⟨t, tokens⟩
        · exact htokens
        · rcases List.forall_mem_cons.mp htokens with ⟨ht, hrest⟩
          rw [extend]
          split
          · exact (addTo_accountable hend hexpression left ht.2 hrest).bind
              fun left' behind hbehind => hextend above left' behind hbehind
          · exact htokens

end Reader

/-- The errors of a statement are founded in its text. -/
theorem founded_of_parse {text : List Char} {e : Fault} (h : Expr.parse text = .error e) :
    Founded (Scan.ofText text).ending (· ≤ text.length) e := by
  have htokens : Located (· ≤ text.length) (Scan.ofText text).tokens :=
    fun t ht => ⟨Nat.le_of_lt (Scan.position_lt_of_mem ht), Scan.stop_le_of_mem ht⟩
  have hcareful : Careful (Scan.ofText text).ending (· ≤ text.length)
      (expression (Scan.ofText text).ending maxNesting) :=
    (expression_accountable (Scan.place_le text) maxNesting).1
  have hanswer := hcareful 0 0 _ (Nat.zero_le _) htokens
  simp only [Expr.parse, statement] at h
  cases hexpression : expression (Scan.ofText text).ending maxNesting 0 0
      (Scan.ofText text).tokens with
  | error e' =>
      rw [hexpression] at h hanswer
      simp only [bind, Except.bind, Except.error.injEq] at h
      subst h
      exact hanswer
  | ok answer =>
      -- One expression was read, and the error is about what is behind it.
      rcases answer with ⟨expr, rest⟩
      rw [hexpression] at h hanswer
      simp only [bind, Except.bind] at h
      rcases rest with _ | ⟨t, rest⟩
      · cases hending : (Scan.ofText text).ending with
        | complete stop depth =>
            rw [hending] at h
            simp at h
        | broken fault depth =>
            rw [hending] at h
            simp only [Except.error.injEq] at h
            subst h
            exact .inl ⟨depth, rfl⟩
      · simp only [Except.error.injEq] at h
        subst h
        exact .inr ⟨rfl, rfl, (hanswer t List.mem_cons_self).1⟩

/-- The errors of a statement blame no place beyond its text. -/
theorem position_le_of_parse {text : List Char} {e : Fault}
    (h : Expr.parse text = .error e) : e.position ≤ text.length := by
  rcases founded_of_parse h with ⟨depth, hending⟩ | ⟨_, _, hplace⟩
  · have hplace := Scan.place_le text
    rwa [hending, Ending.place] at hplace
  · exact hplace

/-! ### Nodes -/

mutual

/-- Every node is at the place of one that has a token, and what has an operator
    has a token itself. -/
theorem exists_inOrder (e : Expr) : ∀ n ∈ e.nodes, ∃ k ∈ e.inOrder,
    k.position = n.position ∧ ∀ op, n.operator? = some op → k.operator? = some op := by
  intro n hn
  cases e with
  | literal value m =>
      refine ⟨n, ?_, rfl, fun _ hop => hop⟩
      simpa [Expr.nodes, Expr.inOrder] using hn
  | var name m =>
      refine ⟨n, ?_, rfl, fun _ hop => hop⟩
      simpa [Expr.nodes, Expr.inOrder] using hn
  | unary op operand m =>
      rw [Expr.inOrder]
      rcases List.mem_cons.mp hn with rfl | hn
      · refine ⟨_, ?_, rfl, fun _ hop => hop⟩
        split <;> simp
      · rcases exists_inOrder operand n hn with ⟨k, hk, hplace⟩
        refine ⟨k, ?_, hplace⟩
        split <;> simp [hk]
  | binary op left right m =>
      rw [Expr.inOrder]
      rcases List.mem_cons.mp hn with rfl | hn
      · refine ⟨_, ?_, rfl, fun _ hop => hop⟩
        split <;> simp
      rcases List.mem_append.mp hn with hn | hn
      · by_cases hsigned : Expr.isSigned (.binary op left right m) = true
        · -- The left side is the zero of the sign, at its place.
          rw [if_pos hsigned]
          refine ⟨_, List.mem_cons_self, ?_⟩
          unfold Expr.isSigned at hsigned
          split at hsigned
          · next hsign =>
            simp only [Expr.binary.injEq] at hsign
            rcases hsign with ⟨rfl, rfl, rfl, rfl⟩
            simp only [Expr.nodes, List.mem_singleton] at hn
            simp only [Bool.and_eq_true, decide_eq_true_eq] at hsigned
            subst hn
            exact ⟨hsigned.2.symm, fun _ hop => by simp [Expr.operator?] at hop⟩
          · simp at hsigned
        · rw [if_neg hsigned]
          rcases exists_inOrder left n hn with ⟨k, hk, hplace⟩
          exact ⟨k, List.mem_append_left _ hk, hplace⟩
      · rcases exists_inOrder right n hn with ⟨k, hk, hplace⟩
        refine ⟨k, ?_, hplace⟩
        split <;> simp [hk]
  | array elements m =>
      rw [Expr.inOrder]
      rcases List.mem_cons.mp hn with rfl | hn
      · exact ⟨_, List.mem_cons_self, rfl, fun _ hop => hop⟩
      · rcases exists_inOrderOf elements n hn with ⟨k, hk, hplace⟩
        exact ⟨k, List.mem_cons_of_mem _ hk, hplace⟩
  | call name args m =>
      rw [Expr.inOrder]
      rcases List.mem_cons.mp hn with rfl | hn
      · exact ⟨_, List.mem_cons_self, rfl, fun _ hop => hop⟩
      · rcases exists_inOrderOf args n hn with ⟨k, hk, hplace⟩
        exact ⟨k, List.mem_cons_of_mem _ hk, hplace⟩

theorem exists_inOrderOf (es : List Expr) : ∀ n ∈ Expr.nodesOf es, ∃ k ∈ Expr.inOrderOf es,
    k.position = n.position ∧ ∀ op, n.operator? = some op → k.operator? = some op := by
  intro n hn
  cases es with
  | nil => simp [Expr.nodesOf] at hn
  | cons e es =>
      rw [Expr.inOrderOf]
      rcases List.mem_append.mp hn with hn | hn
      · rcases exists_inOrder e n hn with ⟨k, hk, hplace⟩
        exact ⟨k, List.mem_append_left _ hk, hplace⟩
      · rcases exists_inOrderOf es n hn with ⟨k, hk, hplace⟩
        exact ⟨k, List.mem_append_right _ hk, hplace⟩

end

theorem token_of_become {tokens : List Token} {ns : List Expr} (h : Become tokens ns) :
    ∀ n ∈ ns, ∃ t ∈ tokens, t.Becomes n := by
  have hshown : ∀ t ∈ tokens.filter (·.kind.isShown), t ∈ tokens := fun t ht =>
    List.mem_of_mem_filter ht
  unfold Become at h
  generalize tokens.filter (·.kind.isShown) = shown at h hshown
  induction h with
  | nil => simp
  | @cons t n ts ns hbecomes _ ih =>
      rcases List.forall_mem_cons.mp hshown with ⟨ht, hts⟩
      exact List.forall_mem_cons.mpr ⟨⟨t, ht, hbecomes⟩, ih hts⟩

/-- What a token became has the place of the token, and its operator unless it
    is an index. -/
theorem mark_of_becomes {t : Token} {n : Expr} (h : t.Becomes n) :
    n.position = t.position ∧
      ∀ op, n.operator? = some op → op = .index ∨ t.kind = .operator op := by
  unfold Token.Becomes at h
  split at h
  · rw [h]
    exact ⟨rfl, fun op hop => by simp [Expr.operator?] at hop⟩
  · rw [h]
    exact ⟨rfl, fun op hop => by simp [Expr.operator?] at hop⟩
  · rcases h with ⟨args, rfl⟩
    exact ⟨rfl, fun op hop => by simp [Expr.operator?] at hop⟩
  · next kind hkind =>
    rcases h with ⟨e, rfl⟩ | ⟨left, right, rfl⟩
    · refine ⟨rfl, fun op hop => .inr ?_⟩
      rw [hkind, Option.some.inj hop]
    · refine ⟨rfl, fun op hop => .inr ?_⟩
      rw [hkind, Option.some.inj hop]
  · rcases h with ⟨es, rfl⟩ | ⟨left, i, rfl⟩
    · exact ⟨rfl, fun op hop => by simp [Expr.operator?] at hop⟩
    · exact ⟨rfl, fun op hop => .inl (Option.some.inj hop).symm⟩
  · exact h.elim

/-- Every node of a statement has its place from a token, and its operator as
    well, unless that is an index. -/
theorem token_of_node {text : List Char} {e : Expr} (h : Expr.parse text = .ok e) :
    ∀ n ∈ e.nodes, ∃ t ∈ (Scan.ofText text).tokens, n.position = t.position ∧
      ∀ op, n.operator? = some op → op = .index ∨ t.kind = .operator op := by
  intro n hn
  rcases traversed_of_reads (reads_of_parse h).2 [] (Scan.scanned_ofText text)
    (Scan.ordered_ofText text) with ⟨_, hall⟩
  have hbecome := hall [] List.Forall₂.nil
  rw [List.append_nil] at hbecome
  rcases exists_inOrder e n hn with ⟨k, hk, hplace, hoperator⟩
  rcases token_of_become hbecome k hk with ⟨t, ht, hbecomes⟩
  rcases mark_of_becomes hbecomes with ⟨hposition, hkind⟩
  exact ⟨t, ht, hplace.symm.trans hposition, fun op hop => hkind op (hoperator op hop)⟩

/-- No node of a statement is beyond its text. -/
theorem position_lt_of_parse {text : List Char} {e n : Expr} (h : Expr.parse text = .ok e)
    (hn : n ∈ e.nodes) : n.position < text.length := by
  rcases token_of_node h n hn with ⟨t, ht, hposition, _⟩
  rw [hposition]
  exact Scan.position_lt_of_mem ht

end Parse

end Scriptlet
