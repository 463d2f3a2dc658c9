import Scriptlet.Proofs.Eval.Kept
import Scriptlet.Proofs.Eval.Related

/-!
# The Count of Nodes

A machine counts the nodes that are being evaluated, one inside the other, and
evaluation is limited by that count: a node is refused where the count has come
to the limit. The definition of evaluation does not look at the count. It
recurses on the levels that are left, which is what makes it total.

The two are the same as long as the count and the levels left add up to the
limit, and this is so only because every node that is counted is counted off
again, however its evaluation ends. One node that is not would take a level from
all that is evaluated after it on the same machine, and a run that is long
enough would refuse trees of any height.

So there is one evaluation that goes by the count, and whatever was evaluated on
a machine before, it refuses no tree that is low enough.

## Main definitions

* `GoesByCount`: Evaluations that are limited by the count of the machine.
* `evalCounted`: The one that there is.
* `Machine.after`: The machine behind some evaluations, whatever came of them.

## Theorems

* `goesByCount_evalCounted`: There is an evaluation that goes by the count.
* `GoesByCount.eq_eval`: It has the levels that the count leaves.
* `GoesByCount.depth_after`: Evaluations leave the count as it was.
* `shallow_never_too_deep`: A tree that is low enough is not refused.
-/

namespace Scriptlet

open Eval (Follows)

variable {σ : Type} [Host σ]

/-- Evaluations that are limited by the count of the machine. A node is refused
    where the count has come to the limit. Otherwise it is counted, evaluated with
    its subtrees evaluated in the same way, and counted off. -/
def GoesByCount (budget : Nat) (ev : Expr → Eval σ Value) : Prop :=
  ∀ e m, ev e m =
    if m.depth < maxNesting then (evalNode budget ev e).nested m
    else Eval.fail .runtime .nestedTooDeeply e.position m

/-- Evaluation with the levels that the count of the machine leaves. -/
def evalCounted (budget : Nat) (e : Expr) : Eval σ Value := fun m =>
  eval budget (maxNesting - m.depth) e m

/-! ### The count and the levels left -/

/-- The count lasts as long as an evaluation. -/
theorem upheld_count {allowed : Expr → Prop} (left : Nat) :
    Upheld allowed fun m : Machine σ => m.depth + left = maxNesting where
  course hcourse hm := by rwa [hcourse.depth_eq]
  openFrame := by
    intro m hm
    rcases m.openFrame_eq with ⟨_, hopen⟩
    rw [hopen]
    exact hm

/-- A node has one level more than its subtrees, if these have the levels that
    the count leaves. -/
theorem nested_evalNode_eq_eval {budget left : Nat} {ev : Expr → Eval σ Value}
    (hev : ∀ c m, m.depth + left = maxNesting → ev c m = eval budget left c m) (e : Expr)
    {m : Machine σ} (hm : m.depth + (left + 1) = maxNesting) :
    (evalNode budget ev e).nested m = eval budget (left + 1) e m := by
  -- A subtree may be reached with any machine that a course leads to. All of
  -- them have the same count, so all of them leave the same levels.
  have hsubtree : ∀ c : Expr, c.Allowed (fun _ => True) →
      Follows (fun _ => True) (fun m => m.depth + left = maxNesting) none
        (eval budget left c) (ev c) :=
    fun c _ m' hm' => ⟨hev c m' hm', course_of_tree budget left c m'⟩
  have hnode := evalNode_follows (upheld_count left) hsubtree budget
    (e := e) fun _ _ => trivial
  have henter : m.enter.depth + left = maxNesting := by
    have hdepth : m.enter.depth = m.depth + 1 := rfl
    omega
  rw [eval, Eval.nested_eq, Eval.nested_eq, (hnode m.enter henter).1]

theorem goesByCount_evalCounted (budget : Nat) :
    GoesByCount budget (evalCounted budget : Expr → Eval σ Value) := by
  intro e m
  unfold evalCounted
  by_cases hlimit : m.depth < maxNesting
  · obtain ⟨left, hleft⟩ : ∃ left, m.depth + (left + 1) = maxNesting :=
      ⟨maxNesting - m.depth - 1, by omega⟩
    have hlevels : maxNesting - m.depth = left + 1 := by omega
    rw [if_pos hlimit, hlevels]
    refine (nested_evalNode_eq_eval (fun c m' hm' => ?_) e hleft).symm
    have hlevels' : maxNesting - m'.depth = left := by omega
    rw [hlevels']
  · have hlevels : maxNesting - m.depth = 0 := by omega
    rw [if_neg hlimit, hlevels, eval]

namespace GoesByCount

variable {budget : Nat} {ev : Expr → Eval σ Value}

/-- By induction on the levels that the count leaves. -/
theorem eq_eval_of_left (hev : GoesByCount budget ev) (left : Nat) : ∀ (e : Expr) (m : Machine σ),
    m.depth + left = maxNesting → ev e m = eval budget left e m := by
  induction left with
  | zero =>
      intro e m hm
      rw [hev e m, if_neg (by omega), eval]
  | succ left ih =>
      intro e m hm
      rw [hev e m, if_pos (by omega)]
      exact nested_evalNode_eq_eval ih e hm

/-- What goes by the count has the levels that the count leaves. -/
theorem eq_eval (hev : GoesByCount budget ev) (e : Expr) (m : Machine σ) :
    ev e m = eval budget (maxNesting - m.depth) e m := by
  by_cases hlimit : m.depth < maxNesting
  · exact hev.eq_eval_of_left (maxNesting - m.depth) e m (by omega)
  · have hlevels : maxNesting - m.depth = 0 := by omega
    rw [hev e m, if_neg hlimit, hlevels, eval]

end GoesByCount

/-! ### Evaluations on one machine -/

/-- The machine behind the evaluation of some trees, one after the other. Those
    that fail or are given up are among them. -/
def Machine.after (m : Machine σ) (ev : Expr → Eval σ Value) (earlier : List Expr) : Machine σ :=
  earlier.foldl (fun m e => (ev e m).2) m

namespace GoesByCount

variable {budget : Nat} {ev : Expr → Eval σ Value}

theorem depth_after (hev : GoesByCount budget ev) (earlier : List Expr) :
    ∀ m : Machine σ, (m.after ev earlier).depth = m.depth := by
  induction earlier with
  | nil => intro m; rfl
  | cons e earlier ih =>
      intro m
      have hfirst : (ev e m).2.depth = m.depth := by
        rw [hev.eq_eval e m]
        exact (course_of_tree budget _ e m).depth_eq
      rw [← hfirst]
      exact ih (ev e m).2

/-- A tree is refused only if it is higher than what the count leaves. -/
theorem not_nestedTooDeeply (hev : GoesByCount budget ev) {e : Expr} {m : Machine σ}
    (hheight : m.depth + e.height ≤ maxNesting) {error : Fault}
    (hfailed : (ev e m).1 = .failed error) : error.cause ≠ .nestedTooDeeply := by
  rw [hev.eq_eval e m] at hfailed
  exact not_nestedTooDeeply_of_height_le budget (by omega) hfailed

end GoesByCount

/-- A refusal is put in other words than a tree that is nested too deeply, unless
    a host chooses the same ones. -/
theorem Refusal.eq_of_message {refusal : Refusal}
    (h : refusal.message = "Expression nested too deeply") :
    refusal = .byHost "Expression nested too deeply" := by
  cases refusal with
  | byHost reason => exact congrArg byHost h
  | notText | notArray => exact absurd h (by decide +kernel)
  | notFunction name | wantsText name =>
      -- The words begin with a name, which may be anything, so their end has to tell.
      have h : _ ++ _ = _ := h
      have hlast := congrArg (fun words => words.toList.getLast?) h
      simp [List.getLast?_append] at hlast
  | wantsTextOrArray name =>
      -- They end alike, but what stands behind the name is too long already.
      have h : _ ++ _ = _ := h
      have hlength := congrArg (fun words => words.toList.length) h
      simp at hlength
  | noProperty _ | noProperties _ | noText _ =>
      have h : _ ++ _ = _ := h
      have hfirst := congrArg (fun words => words.toList.head?) h
      simp at hfirst

/-- So is every other cause. -/
theorem Cause.eq_of_message {cause : Cause}
    (h : cause.message = "Expression nested too deeply") :
    cause = .nestedTooDeeply ∨ cause = .refused (.byHost "Expression nested too deeply") := by
  cases cause with
  | nestedTooDeeply => exact .inl rfl
  | refused refusal => exact .inr (congrArg refused (Refusal.eq_of_message h))
  | strayCharacter | strayToken | unterminatedText | expressionMissing | operandMissing
  | divisionByZero | conditionalArguments | loopArguments | loopVariableExpected =>
      exact absurd h (by decide +kernel)
  | closerMissing bracket => cases bracket <;> exact absurd h (by decide +kernel)
  | numbersOnly _ _ =>
      have h : "operator * is applicable for numbers only" = _ := h
      simp at h
  | notIterable _ =>
      have h : "Second parameter must be array" = _ := h
      simp at h
  | _ =>
      -- The words begin with text of their own, and its first letter is not the same.
      have h : _ ++ _ = _ := h
      have hfirst := congrArg (fun words => words.toList.head?) h
      simp at hfirst

/-- On a machine on which nothing is being evaluated, an evaluation that goes by
    the count is the evaluation of the language. Whatever has been evaluated on
    that machine before, it does not refuse a tree that is no higher than 256. If
    the words for such a refusal are seen, a host has chosen them. -/
theorem shallow_never_too_deep {budget : Nat} {ev : Expr → Eval σ Value}
    (hev : GoesByCount budget ev) {m : Machine σ} (hm : m.depth = 0) :
    (∀ e, ev e m = evaluate budget e m) ∧
    ∀ (earlier : List Expr) (e : Expr), e.height ≤ 256 → ∀ error,
      (ev e (m.after ev earlier)).1 = .failed error →
        error.cause ≠ .nestedTooDeeply ∧
        (error.issue.message = "Expression nested too deeply" →
          error.cause = .refused (.byHost "Expression nested too deeply")) := by
  refine ⟨fun e => ?_, fun earlier e hheight error hfailed => ?_⟩
  · rw [hev.eq_eval e m, hm]
    rfl
  · have hdepth := hev.depth_after earlier m
    have hlimit : maxNesting = 256 := rfl
    have hcause : error.cause ≠ .nestedTooDeeply :=
      hev.not_nestedTooDeeply (by omega) hfailed
    exact ⟨hcause, fun hmessage => (Cause.eq_of_message hmessage).resolve_left hcause⟩

/-- A loop that fails inside another one, evaluated for the third time. -/
theorem not_too_deep_of_failing_loop :
    ∃ (e : Expr) (m : Machine Unit) (error : Fault),
      Expr.parse "foreach(x, \"ab\", foreach(x, \"c\", x))".toList = .ok e ∧
      m.depth = 0 ∧ e.height ≤ 256 ∧
      (evalCounted 9 e (m.after (evalCounted 9) [e, e])).1 = .failed error ∧
      error.cause = .loopVariableInUse "x" ∧
      evalCounted 9 e m = evaluate 9 e m ∧
      error.cause ≠ .nestedTooDeeply := by
  have hscan : Scan.ofText "foreach(x, \"ab\", foreach(x, \"c\", x))".toList =
      ⟨[⟨.function "foreach", 0, 7, 0⟩, ⟨.opening .round, 7, 8, 0⟩, ⟨.name "x", 8, 9, 1⟩,
        ⟨.comma, 9, 10, 1⟩, ⟨.constant (.text "ab"), 11, 15, 1⟩, ⟨.comma, 15, 16, 1⟩,
        ⟨.function "foreach", 17, 24, 1⟩, ⟨.opening .round, 24, 25, 1⟩, ⟨.name "x", 25, 26, 2⟩,
        ⟨.comma, 26, 27, 2⟩, ⟨.constant (.text "c"), 28, 31, 2⟩, ⟨.comma, 31, 32, 2⟩,
        ⟨.name "x", 33, 34, 2⟩, ⟨.closing .round, 34, 35, 2⟩, ⟨.closing .round, 35, 36, 1⟩],
        .complete 36 0⟩ := by
    with_unfolding_all rfl
  have hparse : Expr.parse "foreach(x, \"ab\", foreach(x, \"c\", x))".toList =
      .ok (.call "foreach" [.var "x" ⟨8, 10⟩, .literal (.text "ab") ⟨11, 10⟩,
        .call "foreach" [.var "x" ⟨25, 20⟩, .literal (.text "c") ⟨28, 20⟩, .var "x" ⟨33, 20⟩]
          ⟨17, 10⟩] ⟨0, 0⟩) := by
    rw [Expr.parse, hscan]
    rfl
  rcases shallow_never_too_deep (goesByCount_evalCounted 9)
    (m := (⟨.empty 0 (), .empty, [], 0⟩ : Machine Unit)) rfl with ⟨hsame, hshallow⟩
  refine ⟨_, _, ⟨.runtime, .loopVariableInUse "x", 25⟩, hparse, rfl, ?hheight, ?hfailed, rfl,
    hsame _, (hshallow [_, _] _ ?hheight _ ?hfailed).1⟩
  case hheight => decide
  case hfailed => rfl

end Scriptlet
