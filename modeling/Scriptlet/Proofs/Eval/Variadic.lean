import Mathlib.Data.List.Induction
import Scriptlet.Proofs.Eval.Kept
import Scriptlet.Proofs.Eval.Levels
import Scriptlet.Proofs.Value.Guarded

/-!
# Functions of Many Arguments

Three functions of the library do with any number of arguments what an operator does
with two operands. They evaluate all arguments first and then go through the values.
A chain of the operator, nested to the left, goes through the same expressions in the
same order, but combines each value with those before it as soon as it is there.

Both are brought to the same form, in which the expressions are evaluated one after
the other and each value is kept with the store right behind it. The two differ in
the levels and the count at which they evaluate an expression, and neither matters
unless levels run out. What is left is a fold over the same list on both sides.

The choices do not look at the store, so the two folds are one. A sum does: an array is
added as its text, and the text is the one that the array has when it is added. In
the chain this is right behind its evaluation, in the sum it is behind that of all
arguments. If nothing changes the text in between, the two folds are one again.

## Main definitions

* `Expr.chain`: Expressions joined by an operator from the left.
* `evalSeen`: The values of several expressions and the stores behind them.
* `Combines`: Operators that evaluate both operands and then combine the values.
* `joined`: The fold of a chain.

## Theorems

* `chain_lifts`, `call_lifts`: Chains and calls, brought to the same form.
* `eval_eq_of_lifts`: An evaluation that does not run out of levels is what it lifts to.
* `eval_call_eq_chain`: Functions and operators that do not look at the store.
* `joined_add_eq_foldl`: Sums of values whose texts stay the same.
* `variadic_agrees_with_chain`: The functions agree with chains of their operators.
* `sum_of_growing_array`: A sum and a chain with different values.
-/

namespace Scriptlet

open Eval (Lifts)

variable {σ : Type}

/-! ### Chains of an operator -/

/-- Expressions joined by an operator from the left, with the marks of its nodes. -/
def Expr.chain (op : Operator) (first : Expr) (rest : List (Mark × Expr)) : Expr :=
  rest.foldl (fun left x => .binary op left x.2 x.1) first

/-- The values of several expressions, each with the store right behind its
    evaluation. -/
def evalSeen (ev : Expr → Eval σ Value) : List Expr → Eval σ (List (Value × Store σ))
  | [] => pure []
  | e :: es => do
    let v ← ev e
    let s ← Eval.store
    let seen ← evalSeen ev es
    pure ((v, s) :: seen)

theorem evalAll_eq_evalSeen (ev : Expr → Eval σ Value) (es : List Expr) :
    evalAll ev es = evalSeen ev es >>= fun seen => pure (seen.map Prod.fst) := by
  induction es with
  | nil => rfl
  | cons e es ih =>
      simp only [evalAll, evalSeen, ih, Eval.bind_assoc]
      rfl

theorem evalSeen_append (ev : Expr → Eval σ Value) (es : List Expr) (e : Expr) :
    evalSeen ev (es ++ [e]) = (do
      let seen ← evalSeen ev es
      let v ← ev e
      let s ← Eval.store
      pure (seen ++ [(v, s)])) := by
  induction es with
  | nil => rfl
  | cons x es ih =>
      simp only [List.cons_append, evalSeen, ih, Eval.bind_assoc]
      rfl

/-- An operator evaluates its operands from the left and combines their values, with a
    look at the store behind both. -/
def Combines [Host σ] (op : Operator) (combine : Store σ → Value → Value → Value) : Prop :=
  ∀ (budget : Nat) (ev : Expr → Eval σ Value) (left right : Expr) (mark : Mark),
    evalNode budget ev (.binary op left right mark) = (do
      let a ← ev left
      let b ← ev right
      let s ← Eval.store
      pure (combine s a b))

theorem combines_or [Host σ] : Combines (σ := σ) .or fun _ => Value.either := by
  intro budget ev left right mark
  simp only [evalNode, evalOperator, evalBoth, Eval.bind_assoc]
  rfl

theorem combines_and [Host σ] : Combines (σ := σ) .and fun _ => Value.both := by
  intro budget ev left right mark
  simp only [evalNode, evalOperator, evalBoth, Eval.bind_assoc]
  rfl

theorem combines_add [Host σ] : Combines (σ := σ) .add Value.add := by
  intro budget ev left right mark
  simp only [evalNode, evalOperator, evalBoth, Eval.bind_assoc]
  rfl

/-- What an operator makes of a value and of others behind it, each in its own store. -/
def joined (combine : Store σ → Value → Value → Value) (v : Value)
    (seen : List (Value × Store σ)) : Value :=
  seen.foldl (fun acc p => combine p.2 acc p.1) v

/-! ### The common form -/

/-- A node that is counted is the same as one that is not. -/
theorem Eval.Lifts.of_nested {α : Type} {x y : Eval σ α} (h : Lifts x y) : Lifts x.nested y := by
  intro m depth
  rcases h m.enter depth with hout | hsame
  · exact .inl hout
  · exact .inr hsame

section Forms

variable [Host σ]

/-- A chain is evaluated operand by operand, and combines each value with those
    before it right away. By induction from the end of the chain, where its root is. -/
theorem chain_lifts {op : Operator} {combine : Store σ → Value → Value → Value}
    (hop : Combines op combine) (budget most : Nat) (first : Expr) (rest : List (Mark × Expr)) :
    ∀ levels ≤ most, Lifts (eval budget levels (Expr.chain op first rest)) (do
      let v ← eval budget most first
      let seen ← evalSeen (eval budget most) (rest.map Prod.snd)
      pure (joined combine v seen)) := by
  induction rest using List.reverseRecOn with
  | nil =>
      intro levels hle
      have hfirst := eval_lifts (σ := σ) budget hle first
      rw [← Eval.bind_pure (eval budget most first)] at hfirst
      exact hfirst
  | append_singleton rest x ih =>
      intro levels hle
      cases levels with
      | zero => exact fun m depth => .inl ⟨_, rfl⟩
      | succ levels =>
          have hroot : Expr.chain op first (rest ++ [x]) =
              .binary op (Expr.chain op first rest) x.2 x.1 := by
            rw [Expr.chain, List.foldl_append]
            rfl
          have hlast : (do
              let v ← eval budget most first
              let seen ← evalSeen (eval budget most) ((rest ++ [x]).map Prod.snd)
              pure (joined combine v seen) : Eval σ Value) = (do
              let a ← (do
                let v ← eval budget most first
                let seen ← evalSeen (eval budget most) (rest.map Prod.snd)
                pure (joined combine v seen))
              let b ← eval budget most x.2
              let s ← Eval.store
              pure (combine s a b)) := by
            simp only [List.map_append, List.map_cons, List.map_nil, evalSeen_append,
              Eval.bind_assoc, Eval.pure_bind, joined, List.foldl_append, List.foldl_cons,
              List.foldl_nil]
          rw [hroot, hlast, eval, hop]
          refine Lifts.of_nested ?_
          refine (ih levels (by omega)).bind fun a => ?_
          exact (eval_lifts budget (by omega) x.2).bind fun b => Lifts.store.bind fun s => .pure _

/-- A call of a library function evaluates all arguments and then applies the
    function. -/
theorem call_lifts {name : String} {native : Native σ} (hname : libraryFunction? name = some native)
    (hif : name ≠ "if") (hforeach : name ≠ "foreach") (budget most : Nat) (args : List Expr)
    (mark : Mark) :
    ∀ levels ≤ most, Lifts (eval budget levels (.call name args mark)) (do
      let seen ← evalSeen (eval budget most) args
      Eval.reply (native (seen.map Prod.fst)) mark.position) := by
  intro levels hle
  cases levels with
  | zero => exact fun m depth => .inl ⟨_, rfl⟩
  | succ levels =>
      have hall : (do
          let seen ← evalSeen (eval budget most) args
          Eval.reply (native (seen.map Prod.fst)) mark.position : Eval σ Value) = (do
          let values ← evalAll (eval budget most) args
          Eval.reply (native values) mark.position) := by
        rw [evalAll_eq_evalSeen, Eval.bind_assoc]
        rfl
      have hcall : evalNode budget (eval budget levels) (.call name args mark) = (do
          let values ← evalAll (eval budget levels) args
          Eval.reply (native values) mark.position) := by
        simp only [evalNode, callFunction, hname]
        rfl
      rw [hall, eval, hcall]
      refine Lifts.of_nested ?_
      exact (evalAll_lifts (eval_lifts budget (by omega)) args).bind fun values => .reply _ _

/-- An evaluation that does not run out of levels is what it lifts to. -/
theorem eval_eq_of_lifts {budget levels : Nat} {e : Expr} {x : Eval σ Value}
    (h : Lifts (eval budget levels e) x) {m : Machine σ}
    (hlevels : ¬ (eval budget levels e).RunsOut m) : eval budget levels e m = x m := by
  rcases h m m.depth with hout | hsame
  · exact absurd hout hlevels
  · -- The count of nodes is what it was.
    have hdepth := (course_of_tree budget levels e m).depth_eq
    have hafter : (eval budget levels e m).2.atDepth m.depth = (eval budget levels e m).2 := by
      rw [← hdepth]
      rfl
    rw [hafter] at hsame
    exact hsame.symm

/-! ### Choices -/

/-- A function that starts from its first argument agrees with its operator, if the
    operator does not look at the store. -/
theorem eval_call_eq_chain {name : String} {native : Native σ} {op : Operator}
    {combine : Value → Value → Value} (hname : libraryFunction? name = some native)
    (hif : name ≠ "if") (hforeach : name ≠ "foreach") (hop : Combines (σ := σ) op fun _ => combine)
    (hnative : ∀ v vs s, native (v :: vs) s = (.ok (vs.foldl combine v), s)) {budget levels : Nat}
    {mark : Mark} {first : Expr} {rest : List (Mark × Expr)} {m : Machine σ}
    (hcall : ¬ (eval budget levels (.call name (first :: rest.map Prod.snd) mark)).RunsOut m)
    (hchain : ¬ (eval budget levels (Expr.chain op first rest)).RunsOut m) :
    eval budget levels (.call name (first :: rest.map Prod.snd) mark) m =
      eval budget levels (Expr.chain op first rest) m := by
  have hreply : ∀ (v : Value) (s : Store σ) (seen : List (Value × Store σ)),
      Eval.reply (native (((v, s) :: seen).map Prod.fst)) mark.position =
        pure (joined (fun _ => combine) v seen) := by
    intro v s seen
    funext m
    simp only [Eval.reply, List.map_cons, hnative, List.foldl_map]
    rfl
  rw [eval_eq_of_lifts (call_lifts hname hif hforeach budget levels _ mark levels (Nat.le_refl _))
      hcall, eval_eq_of_lifts (chain_lifts hop budget levels first rest levels (Nat.le_refl _))
      hchain]
  simp only [evalSeen, Eval.bind_assoc, Eval.pure_bind, hreply]
  rfl

/-! ### Sums -/

/-- The call of a sum adds all values in the store behind the last of them. -/
theorem eval_sum_eq {budget levels : Nat} {mark : Mark} {args : List Expr} {m : Machine σ}
    (hcall : ¬ (eval budget levels (.call "sum" args mark)).RunsOut m) :
    eval budget levels (.call "sum" args mark) m = (do
      let seen ← evalSeen (eval budget levels) args
      let s ← Eval.store
      pure ((seen.map Prod.fst).foldl (Value.add s) (.number 0.0)) : Eval σ Value) m := by
  rw [eval_eq_of_lifts (call_lifts rfl (by decide) (by decide) budget levels args mark levels
    (Nat.le_refl _)) hcall]
  rfl

/-- A chain of additions adds each value in the store behind it. -/
theorem eval_zero_chain_eq {budget levels : Nat} {mark : Mark} {rest : List (Mark × Expr)}
    {m : Machine σ}
    (hchain : ¬ (eval budget levels
      (Expr.chain .add (.literal (.number 0.0) mark) rest)).RunsOut m) :
    eval budget levels (Expr.chain .add (.literal (.number 0.0) mark) rest) m = (do
      let seen ← evalSeen (eval budget levels) (rest.map Prod.snd)
      pure (joined Value.add (.number 0.0) seen) : Eval σ Value) m := by
  rw [eval_eq_of_lifts (chain_lifts combines_add budget levels _ rest levels (Nat.le_refl _))
    hchain]
  cases levels with
  | zero => exact absurd ⟨_, rfl⟩ hchain
  | succ levels => rfl

end Forms

/-! ### Sums of values -/

namespace Value

/-- Only arrays have a text that the store decides. -/
theorem toText_of_not_array {v : Value} (h : ∀ r, v ≠ .array r) (s s' : Store σ) :
    v.toText s = v.toText s' := by
  cases v with
  | array r => exact absurd rfl (h r)
  | _ => rfl

theorem add_ne_array (s : Store σ) (a b : Value) (r : ArrayRef) : a.add s b ≠ .array r := by
  unfold add
  split <;> simp

/-- What is added to a value that is not an array counts by its text only. -/
theorem add_of_toText_eq {a b : Value} {s s' : Store σ} (ha : ∀ r, a ≠ .array r)
    (hb : b.toText s = b.toText s') : a.add s b = a.add s' b := by
  unfold add
  rw [toText_of_not_array ha s s', hb]
  split
  · rfl
  · next hplain =>
    have hnumber : ∀ v : Value, v.isJoined = false → v.toNumber s = v.toNumber s' := by
      intro v hv
      cases v <;> first | rfl | cases hv
    simp only [Bool.or_eq_true, not_or, Bool.not_eq_true] at hplain
    rw [hnumber a hplain.1, hnumber b hplain.2]

end Value

/-- A sum does not depend on when it is made, as long as the texts of what is added
    stay the same. -/
theorem joined_add_eq_foldl {s : Store σ} {seen : List (Value × Store σ)}
    (h : ∀ p ∈ seen, p.1.toText p.2 = p.1.toText s) :
    ∀ {v : Value}, (∀ r, v ≠ .array r) →
      joined Value.add v seen = (seen.map Prod.fst).foldl (Value.add s) v := by
  induction seen with
  | nil => exact fun _ => rfl
  | cons p seen ih =>
      intro v hv
      have hfirst := Value.add_of_toText_eq hv (h p List.mem_cons_self)
      have hrest := ih (fun q hq => h q (List.mem_cons_of_mem _ hq))
        (Value.add_ne_array s v p.1)
      rw [List.map_cons, List.foldl_cons, ← hrest, ← hfirst]
      rfl

/-- Functions of many arguments agree with chains of their operators, on every machine
    on which neither runs out of levels. The choices do the same, whatever the
    arguments do. A sum leaves the same machine, and it has the same outcome unless
    an argument is an array whose text is changed by the evaluation of a later one.
    Then the chain has added the text that the array had, and the sum adds the one that
    it has at the end. -/
theorem variadic_agrees_with_chain [Host σ] (budget levels : Nat) (mark : Mark) (m : Machine σ) :
    (∀ name op, (name, op) = ("or", Operator.or) ∨ (name, op) = ("and", Operator.and) →
      ∀ first rest,
        ¬ (eval budget levels (.call name (first :: rest.map Prod.snd) mark)).RunsOut m →
        ¬ (eval budget levels (Expr.chain op first rest)).RunsOut m →
        eval budget levels (.call name (first :: rest.map Prod.snd) mark) m =
          eval budget levels (Expr.chain op first rest) m) ∧
    ∀ zero rest,
      ¬ (eval budget levels (.call "sum" (rest.map Prod.snd) mark)).RunsOut m →
      ¬ (eval budget levels
        (Expr.chain .add (.literal (.number 0.0) zero) rest)).RunsOut m →
      ∃ outcome outcome' m',
        eval budget levels (.call "sum" (rest.map Prod.snd) mark) m = (outcome, m') ∧
        eval budget levels (Expr.chain .add (.literal (.number 0.0) zero) rest) m =
          (outcome', m') ∧
        (outcome = outcome' ∨
          ∃ seen, evalSeen (eval budget levels) (rest.map Prod.snd) m = (.value seen, m') ∧
            (∃ r s, (.array r, s) ∈ seen ∧
              Value.toText s (.array r) ≠ Value.toText m'.store (.array r)) ∧
            outcome = .value ((seen.map Prod.fst).foldl (Value.add m'.store) (.number 0.0)) ∧
            outcome' = .value (joined Value.add (.number 0.0) seen)) := by
  constructor
  · rintro name op (h | h) first rest hcall hchain <;> cases h
    · exact eval_call_eq_chain rfl (by decide) (by decide) combines_or (fun _ _ _ => rfl) hcall
        hchain
    · exact eval_call_eq_chain rfl (by decide) (by decide) combines_and (fun _ _ _ => rfl) hcall
        hchain
  · intro zero rest hcall hchain
    rw [eval_sum_eq hcall, eval_zero_chain_eq hchain]
    simp only [Bind.bind, Eval.bind]
    rcases hseen : evalSeen (eval budget levels) (rest.map Prod.snd) m with ⟨outcome, m'⟩
    cases outcome with
    | failed e => exact ⟨_, _, m', rfl, rfl, .inl rfl⟩
    | unfinished => exact ⟨_, _, m', rfl, rfl, .inl rfl⟩
    | value seen =>
        refine ⟨_, _, m', rfl, rfl, ?_⟩
        by_cases hkept : ∀ p ∈ seen, p.1.toText p.2 = p.1.toText m'.store
        · rw [joined_add_eq_foldl hkept (by simp)]
          exact .inl rfl
        · right
          simp only [not_forall] at hkept
          rcases hkept with ⟨⟨v, s⟩, hmem, hchanged⟩
          refine ⟨seen, rfl, ?_, rfl, rfl⟩
          cases v with
          | array r => exact ⟨r, s, hmem, hchanged⟩
          | _ => exact absurd rfl hchanged

/-- The evaluation of an outcome other than that error does not run out of levels. -/
theorem Eval.not_runsOut_of_eq {α : Type} {x : Eval σ α} {m : Machine σ} {outcome : Outcome α}
    (h : (x m).1 = outcome)
    (hother : ∀ position, outcome ≠ .failed ⟨.runtime, .nestedTooDeeply, position⟩) :
    ¬ x.RunsOut m := by
  rintro ⟨position, hout⟩
  exact hother position (h.symm.trans hout)

/-- Arguments that take elements off an array, and a sum that fails behind an argument
    that has put one on. -/
theorem variadic_agrees_of_changing_array :
    (∃ (first : Expr) (rest : List (Mark × Expr)) (mark : Mark) (m : Machine Unit),
      Expr.parse "or(a.pop(), a.pop())".toList =
        .ok (.call "or" (first :: rest.map Prod.snd) mark) ∧
      (eval 0 9 (.call "or" (first :: rest.map Prod.snd) mark) m).1 = .value (.text "x") ∧
      eval 0 9 (.call "or" (first :: rest.map Prod.snd) mark) m =
        eval 0 9 (Expr.chain .or first rest) m) ∧
    ∃ (rest : List (Mark × Expr)) (mark : Mark) (m m' : Machine Unit),
      Expr.parse "sum(a.push(\"y\"), b.c)".toList = .ok (.call "sum" (rest.map Prod.snd) mark) ∧
      eval 0 9 (.call "sum" (rest.map Prod.snd) mark) m =
        (.failed ⟨.reference, .objectNotFound "b", 17⟩, m') ∧
      eval 0 9 (Expr.chain .add (.literal (.number 0.0) mark) rest) m =
        (.failed ⟨.reference, .objectNotFound "b", 17⟩, m') := by
  let pop (p : Nat) : Expr :=
    .binary .dot (.var "a" ⟨p, 10⟩) (.call "pop" [] ⟨p + 2, 10⟩) ⟨p + 1, 20⟩
  let push : Expr := .binary .dot (.var "a" ⟨4, 10⟩)
    (.call "push" [.literal (.text "y") ⟨11, 20⟩] ⟨6, 10⟩) ⟨5, 20⟩
  let member : Expr := .binary .dot (.var "b" ⟨17, 10⟩) (.literal (.text "c") ⟨19, 10⟩) ⟨18, 20⟩
  let m : Machine Unit :=
    ⟨⟨#[#[.text "x", .text ""]], #[], 0, ()⟩, .ofList [("a", .array ⟨0⟩)], [], 0⟩
  have hscan : Scan.ofText "or(a.pop(), a.pop())".toList =
      ⟨[⟨.function "or", 0, 2, 0⟩, ⟨.opening .round, 2, 3, 0⟩, ⟨.name "a", 3, 4, 1⟩,
        ⟨.operator .dot, 4, 5, 1⟩, ⟨.function "pop", 5, 8, 1⟩, ⟨.opening .round, 8, 9, 1⟩,
        ⟨.closing .round, 9, 10, 2⟩, ⟨.comma, 10, 11, 1⟩, ⟨.name "a", 12, 13, 1⟩,
        ⟨.operator .dot, 13, 14, 1⟩, ⟨.function "pop", 14, 17, 1⟩, ⟨.opening .round, 17, 18, 1⟩,
        ⟨.closing .round, 18, 19, 2⟩, ⟨.closing .round, 19, 20, 1⟩], .complete 20 0⟩ := by
    with_unfolding_all rfl
  have hscan' : Scan.ofText "sum(a.push(\"y\"), b.c)".toList =
      ⟨[⟨.function "sum", 0, 3, 0⟩, ⟨.opening .round, 3, 4, 0⟩, ⟨.name "a", 4, 5, 1⟩,
        ⟨.operator .dot, 5, 6, 1⟩, ⟨.function "push", 6, 10, 1⟩, ⟨.opening .round, 10, 11, 1⟩,
        ⟨.constant (.text "y"), 11, 14, 2⟩, ⟨.closing .round, 14, 15, 2⟩, ⟨.comma, 15, 16, 1⟩,
        ⟨.name "b", 17, 18, 1⟩, ⟨.operator .dot, 18, 19, 1⟩, ⟨.constant (.text "c"), 19, 20, 1⟩,
        ⟨.closing .round, 20, 21, 1⟩], .complete 21 0⟩ := by
    with_unfolding_all rfl
  constructor
  · have hcall : (eval 0 9 (.call "or" [pop 3, pop 12] ⟨0, 0⟩) m).1 = .value (.text "x") := rfl
    have hchain : (eval 0 9 (Expr.chain .or (pop 3) [(⟨0, 0⟩, pop 12)]) m).1 =
        .value (.text "x") := rfl
    have hparse : Expr.parse "or(a.pop(), a.pop())".toList =
        .ok (.call "or" [pop 3, pop 12] ⟨0, 0⟩) := by
      rw [Expr.parse, hscan]
      rfl
    refine ⟨pop 3, [(⟨0, 0⟩, pop 12)], ⟨0, 0⟩, m, hparse, hcall, ?_⟩
    exact (variadic_agrees_with_chain 0 9 ⟨0, 0⟩ m).1 _ _ (.inl rfl) (pop 3) [(⟨0, 0⟩, pop 12)]
      (Eval.not_runsOut_of_eq hcall (by simp)) (Eval.not_runsOut_of_eq hchain (by simp))
  · have hcall : (eval 0 9 (.call "sum" [push, member] ⟨0, 0⟩) m).1 =
        .failed ⟨.reference, .objectNotFound "b", 17⟩ := rfl
    have hchain : (eval 0 9 (Expr.chain .add (.literal (.number 0.0) ⟨0, 0⟩)
        [(⟨0, 0⟩, push), (⟨0, 0⟩, member)]) m).1 =
          .failed ⟨.reference, .objectNotFound "b", 17⟩ := rfl
    rcases (variadic_agrees_with_chain 0 9 ⟨0, 0⟩ m).2 ⟨0, 0⟩ [(⟨0, 0⟩, push), (⟨0, 0⟩, member)]
      (Eval.not_runsOut_of_eq hcall (by simp)) (Eval.not_runsOut_of_eq hchain (by simp)) with
      ⟨outcome, outcome', m', heval, heval', _⟩
    have hparse : Expr.parse "sum(a.push(\"y\"), b.c)".toList =
        .ok (.call "sum" [push, member] ⟨0, 0⟩) := by
      rw [Expr.parse, hscan']
      rfl
    refine ⟨[(⟨0, 0⟩, push), (⟨0, 0⟩, member)], ⟨0, 0⟩, m, m', hparse, ?_, ?_⟩
    · exact heval.trans (Prod.ext ((congrArg Prod.fst heval).symm.trans hcall) rfl)
    · exact heval'.trans (Prod.ext ((congrArg Prod.fst heval').symm.trans hchain) rfl)

/-- An array and an argument behind it that appends to the array. The chain adds the text
    that the array had, the sum the one that it has afterwards. -/
theorem sum_of_growing_array :
    ∃ (rest : List (Mark × Expr)) (mark : Mark) (m : Machine Unit),
      Expr.parse "sum(a, a.push(\"y\"))".toList = .ok (.call "sum" (rest.map Prod.snd) mark) ∧
      (eval 0 9 (.call "sum" (rest.map Prod.snd) mark) m).1 = .value (.text "0x,y2") ∧
      (eval 0 9 (Expr.chain .add (.literal (.number 0.0) mark) rest) m).1 =
        .value (.text "0x2") := by
  have hscan : Scan.ofText "sum(a, a.push(\"y\"))".toList =
      ⟨[⟨.function "sum", 0, 3, 0⟩, ⟨.opening .round, 3, 4, 0⟩, ⟨.name "a", 4, 5, 1⟩,
        ⟨.comma, 5, 6, 1⟩, ⟨.name "a", 7, 8, 1⟩, ⟨.operator .dot, 8, 9, 1⟩,
        ⟨.function "push", 9, 13, 1⟩, ⟨.opening .round, 13, 14, 1⟩,
        ⟨.constant (.text "y"), 14, 17, 2⟩, ⟨.closing .round, 17, 18, 2⟩,
        ⟨.closing .round, 18, 19, 1⟩], .complete 19 0⟩ := by
    with_unfolding_all rfl
  refine ⟨[(⟨0, 0⟩, .var "a" ⟨4, 10⟩), (⟨0, 0⟩, .binary .dot (.var "a" ⟨7, 10⟩)
    (.call "push" [.literal (.text "y") ⟨14, 20⟩] ⟨9, 10⟩) ⟨8, 20⟩)], ⟨0, 0⟩,
    ⟨⟨#[#[.text "x"]], #[], 0, ()⟩, .ofList [("a", .array ⟨0⟩)], [], 0⟩, ?_, ?_, ?_⟩
  · rw [Expr.parse, hscan]
    rfl
  · have htext : Value.toText (⟨#[#[.text "x", .text "y"]], #[], 0, ()⟩ : Store Unit)
        (.array ⟨0⟩) = "x,y" := by
      change Value.joinIn _ "," [] ⟨0⟩ = "x,y"
      simp [Value.joinIn_eq, Value.textIn_text, Value.element, Store.elements]
    change Outcome.value (Value.text (Number.toText 0.0 ++ Value.toText
      (⟨#[#[.text "x", .text "y"]], #[], 0, ()⟩ : Store Unit) (.array ⟨0⟩) ++
      Number.toText 2.0)) = _
    rw [htext]
    rfl
  · have htext : Value.toText (⟨#[#[.text "x"]], #[], 0, ()⟩ : Store Unit) (.array ⟨0⟩) =
        "x" := by
      change Value.joinIn _ "," [] ⟨0⟩ = "x"
      simp [Value.joinIn_eq, Value.textIn_text, Value.element, Store.elements]
    change Outcome.value (Value.text (Number.toText 0.0 ++ Value.toText
      (⟨#[#[.text "x"]], #[], 0, ()⟩ : Store Unit) (.array ⟨0⟩) ++ Number.toText 2.0)) = _
    rw [htext]
    rfl

end Scriptlet
