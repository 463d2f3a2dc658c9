import Scriptlet.Expr.Parse
import Scriptlet.Proofs.Eval.Follows

/-!
# What Evaluation Keeps

Two results about every evaluation, whether it gives a value, fails or is given
up. It restores the scope: frames, their names and the count of nodes are as
they were. And it adds nothing and takes nothing away, neither names of the
context nor keys of objects, and no elements of arrays unless it calls one of
the two methods for that.

Both are properties of courses. Only that there is never a second frame is about
what happens on the way, and not about a course as a whole. It is stated with an
evaluation that watches the machine before and after each node and raises an
alarm if something is wrong. Frames come and go only at the ends of nodes: the
first thing that a loop does with a frame is to evaluate its list, and when it
takes the frame away it is done. So nothing escapes the watch, and evaluation is
the same as the watched one, whatever the alarm does.

## Main definitions

* `Eval.watched`: An evaluation with an alarm.
* `evalWatched`: Evaluation in which every node is watched.

## Theorems

* `eval_follows`: The watched evaluation is the same, and follows a course.
* `course_of_eval`, `course_of_tree`: The course of an evaluation.
* `eval_restores_scope`: Frames, their names and the count of nodes are restored.
* `eval_adds_nothing`: Names, keys and lengths stay the same.
-/

namespace Scriptlet

open Eval (Follows)

variable {σ : Type}

/-! ### The watch -/

/-- An evaluation that is watched. If the machine is not safe both before and
    after it, the alarm is raised instead. -/
def Eval.watched {α : Type} (safe : Machine σ → Prop) [DecidablePred safe] (x alarm : Eval σ α) :
    Eval σ α := fun m =>
  if safe m ∧ safe (x m).2 then x m else alarm m

/-- Evaluation in which every node is watched. What is safe depends on how many
    levels are left. -/
def evalWatched [Host σ] (safe : Nat → Machine σ → Prop) [∀ levels, DecidablePred (safe levels)]
    (alarm : Expr → Eval σ Value) (budget : Nat) : (levels : Nat) → Expr → Eval σ Value
  | 0, e => (Eval.fail .runtime .nestedTooDeeply e.position).watched (safe 0) (alarm e)
  | levels + 1, e =>
    (evalNode budget (evalWatched safe alarm budget levels) e).nested.watched (safe (levels + 1))
      (alarm e)

section Trees

variable [Host σ] {allowed : Expr → Prop}

theorem Eval.Follows.watched {α : Type} {safe : Machine σ → Prop} [DecidablePred safe]
    (hsafe : Upheld allowed safe) {x y : Eval σ α} (h : Follows allowed safe none x y)
    (alarm : Eval σ α) : Follows allowed safe none x (y.watched safe alarm) := by
  intro m hm
  rcases h m hm with ⟨hsame, hcourse⟩
  have hbehind : safe (y m).2 := by
    rw [hsame]
    exact hsafe.course hcourse hm
  refine ⟨?_, hcourse⟩
  rw [Eval.watched, if_pos ⟨hm, hbehind⟩, hsame]

/-- If what is safe lasts as long as an evaluation, and with one node more on one
    level less, there is never a reason for an alarm. -/
theorem eval_follows {safe : Nat → Machine σ → Prop} [∀ levels, DecidablePred (safe levels)]
    (hsafe : ∀ levels, Upheld allowed (safe levels))
    (henter : ∀ levels m, safe (levels + 1) m → safe levels m.enter)
    (alarm : Expr → Eval σ Value) (budget : Nat) : ∀ (levels : Nat) {e : Expr}, e.Allowed allowed →
      Follows allowed (safe levels) none (eval budget levels e)
        (evalWatched safe alarm budget levels e) := by
  intro levels
  induction levels with
  | zero =>
      intro e _
      have hfail : Follows allowed (safe 0) none
          (Eval.fail .runtime .nestedTooDeeply e.position : Eval σ Value) _ := .fail _ _ _
      exact hfail.watched (hsafe 0) (alarm e)
  | succ levels ih =>
      intro e he
      have hnode := evalNode_follows (hsafe levels) (fun c hc => ih hc) budget he
      exact (hnode.nested (henter levels)).watched (hsafe (levels + 1)) (alarm e)

/-- The course of an evaluation, from any machine. -/
theorem course_of_eval (budget levels : Nat) {e : Expr} (he : e.Allowed allowed) (m : Machine σ) :
    Course allowed none m (eval budget levels e m).2 := by
  have hsafe : Upheld allowed (fun _ : Machine σ => True) := ⟨fun _ _ => trivial, fun _ => trivial⟩
  have hfollows : Follows allowed (fun _ => True) none (eval budget levels e)
      (evalWatched (fun _ _ => True) (fun _ => Eval.giveUp) budget levels e) :=
    eval_follows (fun _ => hsafe) (fun _ _ _ => trivial) _ budget levels he
  exact (hfollows m trivial).2

/-- The course of an evaluation, where it does not matter what nodes there are. -/
theorem course_of_tree (budget levels : Nat) (e : Expr) (m : Machine σ) :
    Course (fun _ => True) none m (eval budget levels e m).2 :=
  course_of_eval budget levels (fun _ _ => trivial) m

/-! ### Scopes -/

theorem upheld_scope (left total : Nat) :
    Upheld allowed fun m : Machine σ => m.frameDepth ≤ 1 ∧ m.depth + left = total where
  course hcourse hm := by rwa [hcourse.frameDepth_eq, hcourse.depth_eq]
  openFrame := by
    -- A frame is only made where there is none.
    intro m hm
    rcases m.openFrame_eq with ⟨_, hopen⟩
    have hdepth : m.openFrame.depth = m.depth := by rw [hopen]
    rw [m.frameDepth_openFrame, hdepth]
    omega

/-- However it ends, an evaluation leaves as many frames as there were, with the
    same names, and as many nodes being evaluated. Between its beginning and its
    end there is never more than one frame, and the nodes being evaluated and the
    levels left always add up to the same: an evaluation that is watched for this
    is no different. -/
theorem eval_restores_scope (budget levels : Nat) (e : Expr) {m : Machine σ}
    (h : m.frameDepth ≤ 1) :
    (eval budget levels e m).2.frameDepth = m.frameDepth ∧
    (∀ name, (eval budget levels e m).2.inFrame name = m.inFrame name) ∧
    (eval budget levels e m).2.depth = m.depth ∧
    ∀ alarm : Expr → Eval σ Value,
      evalWatched (fun left m' => m'.frameDepth ≤ 1 ∧ m'.depth + left = m.depth + levels) alarm
        budget levels e m = eval budget levels e m := by
  have he : e.Allowed (· ∈ e.nodes) := fun _ hn => hn
  have hcourse := course_of_eval budget levels he m
  refine ⟨hcourse.frameDepth_eq, Machine.inFrame_of_frameNames_eq hcourse.frameNames_eq,
    hcourse.depth_eq, fun alarm => ?_⟩
  refine (eval_follows (fun left => upheld_scope left (m.depth + levels))
    (fun left m' hsafe => ?_) alarm budget levels he m ⟨h, rfl⟩).1
  have hframes : m'.enter.frameDepth = m'.frameDepth := rfl
  have hdepth : m'.enter.depth = m'.depth + 1 := rfl
  omega

end Trees

/-- Two loops with one variable. The inner one fails while the frame of the outer
    one is there. -/
theorem scope_of_loop_variable_in_use :
    ∃ (e : Expr) (m : Machine Unit),
      Expr.parse "foreach(x, \"ab\", foreach(x, \"c\", x))".toList = .ok e ∧
      m.frameDepth = 0 ∧ (eval 9 3 e m).1 = .failed ⟨.runtime, .loopVariableInUse "x", 25⟩ ∧
      (eval 9 3 e m).2.frameDepth = m.frameDepth ∧
      (∀ name, (eval 9 3 e m).2.inFrame name = m.inFrame name) ∧
      (eval 9 3 e m).2.depth = m.depth ∧
      ∀ alarm : Expr → Eval Unit Value,
        evalWatched (fun left m' => m'.frameDepth ≤ 1 ∧ m'.depth + left = m.depth + 3) alarm
          9 3 e m = eval 9 3 e m := by
  have hscan : Scan.ofText "foreach(x, \"ab\", foreach(x, \"c\", x))".toList =
      ⟨[⟨.function "foreach", 0, 7, 0⟩, ⟨.opening .round, 7, 8, 0⟩, ⟨.name "x", 8, 9, 1⟩,
        ⟨.comma, 9, 10, 1⟩, ⟨.constant (.text "ab"), 11, 15, 1⟩, ⟨.comma, 15, 16, 1⟩,
        ⟨.function "foreach", 17, 24, 1⟩, ⟨.opening .round, 24, 25, 1⟩, ⟨.name "x", 25, 26, 2⟩,
        ⟨.comma, 26, 27, 2⟩, ⟨.constant (.text "c"), 28, 31, 2⟩, ⟨.comma, 31, 32, 2⟩,
        ⟨.name "x", 33, 34, 2⟩, ⟨.closing .round, 34, 35, 2⟩, ⟨.closing .round, 35, 36, 1⟩],
        .complete 36 0⟩ := by
    with_unfolding_all rfl
  have hparse : Expr.parse "foreach(x, \"ab\", foreach(x, \"c\", x))".toList =
      .ok (.call "foreach" [.var "x" ⟨8, 10⟩, .literal (.text "ab") ⟨11, 10⟩,
        .call "foreach" [.var "x" ⟨25, 20⟩, .literal (.text "c") ⟨28, 20⟩, .var "x" ⟨33, 20⟩]
          ⟨17, 10⟩] ⟨0, 0⟩) := by
    rw [Expr.parse, hscan]
    rfl
  refine ⟨_, ⟨.empty 0 (), .empty, [], 0⟩, hparse, rfl, rfl, ?_⟩
  exact eval_restores_scope 9 3 _ (by decide)

section Existing

variable [Host σ]

/-! ### Names, keys and lengths -/

/-- However it ends, an evaluation leaves the context with the names that it had
    and every object with the keys that it had. If no node calls a method by one
    of the two names of those that change the length of an array, every array is as
    long as it was. Hosts are supposed to do nothing of the kind themselves. -/
theorem eval_adds_nothing (hhost : Host.Discreet σ) (budget levels : Nat) (e : Expr)
    (m : Machine σ) :
    (∀ name, (eval budget levels e m).2.context.contains name = m.context.contains name) ∧
    m.store.KeepsKeys (eval budget levels e m).2.store ∧
    ((∀ args mark, .call "push" args mark ∉ e.nodes ∧ .call "pop" args mark ∉ e.nodes) →
      m.store.KeepsLengths (eval budget levels e m).2.store) := by
  have he : e.Allowed (· ∈ e.nodes) := fun _ hn => hn
  have hcourse := course_of_eval budget levels he m
  refine ⟨fun name => congrFun hcourse.contains_context name, hcourse.keepsKeys hhost,
    fun hcalls => ?_⟩
  refine hcourse.keepsLengths hhost ?_ ?_
  · rintro ⟨args, mark, hcall⟩
    exact (hcalls args mark).1 hcall
  · rintro ⟨args, mark, hcall⟩
    exact (hcalls args mark).2 hcall

end Existing

/-- A loop over an array that assigns a new array to a field. -/
theorem nothing_added_by_assigning_loop :
    ∃ (e : Expr) (m : Machine Unit), Expr.parse "foreach(x, a, o.k = [x])".toList = .ok e ∧
      m.store.objects.size = 1 ∧ m.store.arrays.size = 1 ∧
      (eval 9 4 e m).1 = .value .undefined ∧ (eval 9 4 e m).2.store.arrays.size = 2 ∧
      (∀ name, (eval 9 4 e m).2.context.contains name = m.context.contains name) ∧
      m.store.KeepsKeys (eval 9 4 e m).2.store ∧ m.store.KeepsLengths (eval 9 4 e m).2.store := by
  have hscan : Scan.ofText "foreach(x, a, o.k = [x])".toList =
      ⟨[⟨.function "foreach", 0, 7, 0⟩, ⟨.opening .round, 7, 8, 0⟩, ⟨.name "x", 8, 9, 1⟩,
        ⟨.comma, 9, 10, 1⟩, ⟨.name "a", 11, 12, 1⟩, ⟨.comma, 12, 13, 1⟩, ⟨.name "o", 14, 15, 1⟩,
        ⟨.operator .dot, 15, 16, 1⟩, ⟨.constant (.text "k"), 16, 18, 1⟩,
        ⟨.operator .assign, 18, 19, 1⟩, ⟨.opening .square, 20, 21, 1⟩, ⟨.name "x", 21, 22, 2⟩,
        ⟨.closing .square, 22, 23, 2⟩, ⟨.closing .round, 23, 24, 1⟩], .complete 24 0⟩ := by
    with_unfolding_all rfl
  have hparse : Expr.parse "foreach(x, a, o.k = [x])".toList =
      .ok (.call "foreach" [.var "x" ⟨8, 10⟩, .var "a" ⟨11, 10⟩,
        .binary .assign (.binary .dot (.var "o" ⟨14, 10⟩) (.literal (.text "k") ⟨16, 10⟩) ⟨15, 20⟩)
          (.array [.var "x" ⟨21, 20⟩] ⟨20, 20⟩) ⟨18, 12⟩] ⟨0, 0⟩) := by
    rw [Expr.parse, hscan]
    rfl
  refine ⟨_, ⟨⟨#[#[.undefined]], #[Record.empty.insert "k" .undefined], 0, ()⟩,
    .ofList [("a", .array ⟨0⟩), ("o", .object ⟨0⟩)], [], 0⟩, hparse, rfl, rfl, rfl, rfl, ?_⟩
  rcases eval_adds_nothing Host.discreet_unit 9 4 _ _ with ⟨hcontext, hkeys, hlengths⟩
  exact ⟨hcontext, hkeys, hlengths (by simp [Expr.nodes, Expr.nodesOf])⟩

end Scriptlet
