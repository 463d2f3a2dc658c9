import Scriptlet.Proofs.Eval.Law

/-!
# Evaluation without Marks

Evaluation looks at the mark of a node for one purpose, to say where an error
is. So a tree and the same tree without its marks do the same to the machine
and end the same way, with errors at other places.

The statement is made for any relation between errors that lets the place
change. Only one cause is not promised to be related to itself, that of
expressions nested too deeply, because it is the one that no node gives rise to
by itself. Leaving it open is what makes one law answer two questions: whether
evaluation depends on marks, where the relation is having the same cause, and
whether a tree can be too deep at all, where the relation excludes that cause.

## Main definitions

* `Eval.Related`: Evaluations with the same effect and outcomes that are alike.
* `Indifferent`: Relations between errors that do not look at places.
* `Law.related`: Being related, as a law of a tree with its marks and without.

## Theorems

* `evalNode_related`: A node and the same node without marks.
* `eval_unmarked`: The evaluation of a tree does not depend on its marks.
* `eval_of_unmarked_eq`: Trees that differ in their marks are evaluated alike.
* `eval_of_height_le`: A tree is not too deep for as many levels as it is high.
-/

namespace Scriptlet

/-- Outcomes that are alike: the same value, or related errors. -/
def Outcome.Related {α : Type} (R : Fault → Fault → Prop) : Outcome α → Outcome α → Prop
  | .value a, .value b => a = b
  | .failed e, .failed e' => R e e'
  | .unfinished, .unfinished => True
  | _, _ => False

/-- Evaluations that do the same to every machine and whose outcomes are alike. -/
def Eval.Related {σ α : Type} (R : Fault → Fault → Prop) (x y : Eval σ α) : Prop :=
  ∀ m, (x m).2 = (y m).2 ∧ (x m).1.Related R (y m).1

namespace Eval.Related

variable {σ α β : Type} {R : Fault → Fault → Prop}

theorem pure (a : α) : Related R (Pure.pure a : Eval σ α) (Pure.pure a) :=
  fun _ => ⟨rfl, rfl⟩

theorem machine : Related R (Eval.machine : Eval σ (Machine σ)) Eval.machine :=
  fun _ => ⟨rfl, rfl⟩

theorem store : Related R (Eval.store : Eval σ (Store σ)) Eval.store :=
  fun _ => ⟨rfl, rfl⟩

theorem update (f : Machine σ → Machine σ) : Related R (Eval.update f) (Eval.update f) :=
  fun _ => ⟨rfl, rfl⟩

theorem allocate (f : Store σ → α × Store σ) : Related R (Eval.allocate f) (Eval.allocate f) :=
  fun _ => ⟨rfl, rfl⟩

theorem giveUp : Related R (Eval.giveUp : Eval σ α) Eval.giveUp :=
  fun _ => ⟨rfl, trivial⟩

theorem bind_of {x y : Eval σ α} {f g : α → Eval σ β} (hx : Related R x y)
    (hf : ∀ a, (∃ m m', x m = (.value a, m')) → Related R (f a) (g a)) :
    Related R (x >>= f) (y >>= g) := by
  intro m
  rcases hx m with ⟨hmachine, houtcome⟩
  simp only [Bind.bind, Eval.bind]
  rcases hxm : x m with ⟨ox, mx⟩
  rcases hym : y m with ⟨oy, my⟩
  rw [hxm, hym] at hmachine houtcome
  simp only at hmachine
  subst hmachine
  -- Unless both give a value the second parts are not reached.
  cases ox with
  | value a =>
      cases oy with
      | value b =>
          simp only [Outcome.Related] at houtcome
          subst houtcome
          exact hf a ⟨m, mx, hxm⟩ mx
      | failed _ | unfinished => exact houtcome.elim
  | failed e =>
      cases oy with
      | failed e' => exact ⟨rfl, houtcome⟩
      | value _ | unfinished => exact houtcome.elim
  | unfinished =>
      cases oy with
      | unfinished => exact ⟨rfl, trivial⟩
      | value _ | failed _ => exact houtcome.elim

theorem bind {x y : Eval σ α} {f g : α → Eval σ β} (hx : Related R x y)
    (hf : ∀ a, Related R (f a) (g a)) : Related R (x >>= f) (y >>= g) :=
  hx.bind_of fun a _ => hf a

theorem andFinally {x y : Eval σ α} (hx : Related R x y) (f : Machine σ → Machine σ) :
    Related R (x.andFinally f) (y.andFinally f) :=
  fun m => ⟨congrArg f (hx m).1, (hx m).2⟩

theorem nested {x y : Eval σ α} (hx : Related R x y) : Related R x.nested y.nested :=
  (update Machine.enter).bind fun _ => hx.andFinally Machine.leave

end Eval.Related

/-- Relations between errors that do not look at places. That of expressions
    nested too deeply is left open. -/
def Indifferent (R : Fault → Fault → Prop) : Prop :=
  ∀ {kind : IssueKind} {cause : Cause} (p p' : Nat), cause ≠ .nestedTooDeeply →
    R ⟨kind, cause, p⟩ ⟨kind, cause, p'⟩

theorem Indifferent.reply {σ α : Type} {R : Fault → Fault → Prop} (hR : Indifferent R)
    (operation : Store σ → Reply σ α) (p p' : Nat) :
    Eval.Related R (Eval.reply operation p) (Eval.reply operation p') := by
  intro m
  simp only [Eval.reply]
  rcases operation m.store with ⟨result, s⟩
  cases result with
  | ok a => exact ⟨rfl, rfl⟩
  | error refusal => exact ⟨rfl, hR p p' (by simp)⟩

open Eval (Related)

/-! ### Trees -/

section Trees

variable {σ : Type} [Host σ]

section Nodes

variable {R : Fault → Fault → Prop}

/-- Being related is a law of a tree with its marks and the same tree without. -/
def Law.related (σ : Type) [Host σ] (hR : Indifferent R) : Law σ Bool where
  Holds x := Related R (x true) (x false)
  allowed _ := True
  bare := not
  Place _ := True
  place _ := trivial
  pure a := .pure a
  bind_of hx hf := hx.bind_of fun a ha => hf a ⟨true, ha⟩
  fail _ _ hcause := fun _ => ⟨rfl, hR _ _ hcause⟩
  look _ hf := Related.machine.bind hf
  store := .store
  newArray _ := .allocate _
  reply _ _ _ := hR.reply _ _ _

theorem Law.related_free (hR : Indifferent R) : (Law.related σ hR).Free where
  perform operation _ := hR.reply operation _ _
  update _ := .update _
  andFinally hx _ := hx.andFinally _

/-- A node and the same node without marks, given that what is below it is alike. -/
theorem evalNode_related (hR : Indifferent R) {ev ev' : Expr → Eval σ Value} (budget : Nat)
    (e : Expr) (hev : ∀ c ∈ e.nodes.tail, Related R (ev c) (ev' c.unmarked)) :
    Related R (evalNode budget ev e) (evalNode budget ev' e.unmarked) := by
  have hsuits : (Law.related σ hR).Suits (fun _ => budget) fun i => cond i ev ev' :=
    (Law.related_free hR).suits_of_giveUp .giveUp budget
  exact Law.holds_evalNode hsuits trivial fun c hc => ⟨trivial, hev c hc⟩

end Nodes

/-- Errors of the same kind, with the same cause. -/
def SameCause (e e' : Fault) : Prop :=
  e.kind = e'.kind ∧ e.cause = e'.cause

/-- The evaluation of a tree does not depend on its marks. -/
theorem eval_unmarked (budget : Nat) : ∀ (levels : Nat) (e : Expr),
    Related SameCause (eval budget levels e : Eval σ Value) (eval budget levels e.unmarked) := by
  intro levels
  induction levels with
  | zero => intro e m; exact ⟨rfl, rfl, rfl⟩
  | succ levels ih =>
      intro e
      -- The height does not matter here: one level less is alike on all trees.
      exact (evalNode_related (fun _ _ _ => ⟨rfl, rfl⟩) budget e fun c _ => ih c).nested

/-- Outcomes that are like a third one are alike. -/
theorem Outcome.related_of_common {α : Type} {x y z : Outcome α} (hx : x.Related SameCause z)
    (hy : y.Related SameCause z) : x.Related SameCause y := by
  cases z with
  | value c =>
      cases x with
      | value a =>
          cases y with
          | value b => exact Eq.trans hx (Eq.symm hy)
          | failed _ | unfinished => exact hy.elim
      | failed _ | unfinished => exact hx.elim
  | failed c =>
      cases x with
      | failed a =>
          cases y with
          | failed b => exact ⟨hx.1.trans hy.1.symm, hx.2.trans hy.2.symm⟩
          | value _ | unfinished => exact hy.elim
      | value _ | unfinished => exact hx.elim
  | unfinished =>
      cases x with
      | unfinished =>
          cases y with
          | unfinished => trivial
          | value _ | failed _ => exact hy.elim
      | value _ | failed _ => exact hx.elim

/-- Trees that differ in their marks are evaluated alike. -/
theorem eval_of_unmarked_eq {e e' : Expr} (h : e'.unmarked = e.unmarked) (budget levels : Nat) :
    Related SameCause (eval budget levels e : Eval σ Value) (eval budget levels e') := by
  intro m
  -- Both are evaluated like the one tree that they are without marks.
  have he := eval_unmarked (σ := σ) budget levels e m
  have he' := eval_unmarked (σ := σ) budget levels e' m
  rw [h] at he'
  exact ⟨he.1.trans he'.1.symm, Outcome.related_of_common he.2 he'.2⟩

/-- Errors with the same cause that is not that of being nested too deeply. -/
def SameShallowCause (e e' : Fault) : Prop :=
  SameCause e e' ∧ e.cause ≠ .nestedTooDeeply

/-- Evaluation goes one level down for each node at most, so as many levels as
    a tree is high are enough for it. -/
theorem eval_of_height_le (budget : Nat) : ∀ (levels : Nat) (e : Expr), e.height ≤ levels →
    Related SameShallowCause (eval budget levels e : Eval σ Value)
      (eval budget levels e.unmarked) := by
  intro levels
  induction levels with
  | zero =>
      intro e hheight
      have hpositive := e.height_pos
      omega
  | succ levels ih =>
      intro e hheight
      refine (evalNode_related (fun _ _ hcause => ⟨⟨rfl, rfl⟩, hcause⟩) budget e
        fun c hc => ih c ?_).nested
      have hlower := Expr.height_lt_of_mem_tail e hc
      omega

/-- No machine has a tree nested too deeply that is not higher than the levels. -/
theorem not_nestedTooDeeply_of_height_le (budget : Nat) {levels : Nat} {e : Expr}
    (hheight : e.height ≤ levels) {m : Machine σ} {error : Fault}
    (hfailed : (eval budget levels e m).1 = .failed error) : error.cause ≠ .nestedTooDeeply := by
  -- Being related to anything at all excludes the cause.
  have hrelated := (eval_of_height_le budget levels e hheight m).2
  rw [hfailed] at hrelated
  cases houtcome : (eval budget levels e.unmarked m).1 with
  | failed e' =>
      rw [houtcome] at hrelated
      exact hrelated.2
  | value _ | unfinished =>
      rw [houtcome] at hrelated
      exact hrelated.elim

end Trees

end Scriptlet
