import Scriptlet.Proofs.Eval.Law

/-!
# Levels That Are Left

Evaluation is limited twice over. It recurses on the levels that are left, and
the machine counts the nodes that are being evaluated. Neither is there for
anything but the limit: unless it runs out of levels, an evaluation does the
same with more of them, and it does the same whatever the count is.

So a tree means the same wherever it stands in other trees. This is what makes
it possible to compare two trees in which the same subtree stands at different
heights, as long as the one in which it stands lower does not run out.

Running out is an error like any other on the way up, since nothing catches
errors. If a part of an evaluation runs out, all of it does. That is why the
statement needs no condition on parts.

## Main definitions

* `Machine.atDepth`: A machine with another count.
* `Eval.RunsOut`: Evaluations that run out of levels.
* `Eval.Lifts`: Evaluations that are the same as another that does not run out.
* `Law.lifts`: Being the same with more levels, as a law.

## Theorems

* `Eval.RunsOut.bind`, `Eval.RunsOut.of_value`: If a part runs out, the whole does.
* `Eval.Lifts.bind_of`, `Eval.Lifts.machine_bind`: One evaluation after another.
* `eval_lifts`: Trees, with more levels and at any count.
-/

namespace Scriptlet

variable {σ : Type}

/-- A machine with another count. -/
def Machine.atDepth (m : Machine σ) (depth : Nat) : Machine σ :=
  { m with depth }

theorem Machine.alike_atDepth (m : Machine σ) (depth : Nat) {names : String → Prop} :
    m.Alike names (m.atDepth depth) :=
  ⟨rfl, rfl, fun _ _ => rfl⟩

/-- What is done to names has nothing to do with the count. -/
theorem Machine.change_atDepth (m : Machine σ) (depth : Nat) {f : Machine σ → Machine σ}
    (hf : Machine.Change f) : f (m.atDepth depth) = (f m).atDepth depth := by
  cases hf with
  | bindFrame name value => rfl
  | bindContext name value => rfl
  | openFrame =>
      have hframes : (m.atDepth depth).frames = m.frames := rfl
      simp only [Machine.openFrame, hframes]
      split <;> rfl
  | closeLoop outermost name => cases outermost <;> rfl

/-- Whether an evaluation runs out of levels. -/
def Eval.RunsOut {α : Type} (x : Eval σ α) (m : Machine σ) : Prop :=
  ∃ position, (x m).1 = .failed ⟨.runtime, .nestedTooDeeply, position⟩

/-- Whether an evaluation is the same as another at whatever count, on all
    machines on which that other one does not run out of levels. -/
def Eval.Lifts {α : Type} (x y : Eval σ α) : Prop :=
  ∀ (m : Machine σ) (depth : Nat),
    x.RunsOut m ∨ y (m.atDepth depth) = ((x m).1, (x m).2.atDepth depth)

/-- Nothing comes after an error. -/
theorem Eval.RunsOut.bind {α β : Type} {x : Eval σ α} {m : Machine σ} (h : x.RunsOut m)
    (f : α → Eval σ β) : (x >>= f).RunsOut m := by
  rcases h with ⟨position, hout⟩
  refine ⟨position, ?_⟩
  rcases hxm : x m with ⟨outcome, m₁⟩
  rw [hxm] at hout
  simp only at hout
  simp only [Bind.bind, Eval.bind, hxm, hout]

/-- What comes after a value may run out. -/
theorem Eval.RunsOut.of_value {α β : Type} {x : Eval σ α} {f : α → Eval σ β} {m m' : Machine σ}
    {a : α} (hx : x m = (.value a, m')) (h : (f a).RunsOut m') : (x >>= f).RunsOut m := by
  rcases h with ⟨position, hout⟩
  exact ⟨position, by rw [Eval.bind_of_value hx, hout]⟩

namespace Eval.Lifts

variable {α β : Type}

/-- An evaluation that has nothing to do with levels or the count. -/
theorem of_eq {x : Eval σ α}
    (h : ∀ m depth, x (m.atDepth depth) = ((x m).1, (x m).2.atDepth depth)) : Lifts x x :=
  fun m depth => .inr (h m depth)

theorem pure (a : α) : Lifts (Pure.pure a : Eval σ α) (Pure.pure a) :=
  of_eq fun _ _ => rfl

theorem fail (kind : IssueKind) (cause : Cause) (position : Nat) :
    Lifts (Eval.fail kind cause position : Eval σ α) (Eval.fail kind cause position) :=
  of_eq fun _ _ => rfl

theorem giveUp : Lifts (Eval.giveUp : Eval σ α) Eval.giveUp :=
  of_eq fun _ _ => rfl

theorem store : Lifts (Eval.store : Eval σ (Store σ)) Eval.store :=
  of_eq fun _ _ => rfl

theorem allocate (add : Store σ → α × Store σ) : Lifts (Eval.allocate add) (Eval.allocate add) :=
  of_eq fun _ _ => rfl

theorem reply (operation : Store σ → Reply σ α) (position : Nat) :
    Lifts (Eval.reply operation position) (Eval.reply operation position) := by
  refine of_eq fun m depth => ?_
  have hstore : (m.atDepth depth).store = m.store := rfl
  simp only [Eval.reply, hstore]
  rcases operation m.store with ⟨result, s⟩
  cases result <;> rfl

theorem update {f : Machine σ → Machine σ}
    (hf : ∀ m depth, f (m.atDepth depth) = (f m).atDepth depth) :
    Lifts (Eval.update f) (Eval.update f) :=
  of_eq fun m depth => by simp only [Eval.update, hf]

theorem bind_of {x y : Eval σ α} {f g : α → Eval σ β} (hx : Lifts x y)
    (hf : ∀ a, (∃ m m', x m = (.value a, m')) → Lifts (f a) (g a)) :
    Lifts (x >>= f) (y >>= g) := by
  intro m depth
  rcases hx m depth with hout | hsame
  · exact .inl (hout.bind f)
  · rcases hxm : x m with ⟨outcome, m₁⟩
    rw [hxm] at hsame
    simp only [RunsOut, Bind.bind, Eval.bind, hsame, hxm]
    -- The second part starts where the first one ended, at the count of either side.
    cases outcome with
    | value a => exact hf a ⟨m, m₁, hxm⟩ m₁ depth
    | failed _ | unfinished => exact .inr rfl

theorem bind {x y : Eval σ α} {f g : α → Eval σ β} (hx : Lifts x y)
    (hf : ∀ a, Lifts (f a) (g a)) : Lifts (x >>= f) (y >>= g) :=
  hx.bind_of fun a _ => hf a

/-- What follows a look at the machine may see the count. -/
theorem machine_bind {f g : Machine σ → Eval σ β}
    (hf : ∀ m depth, Lifts (f m) (g (m.atDepth depth))) :
    Lifts (Eval.machine >>= f) (Eval.machine >>= g) :=
  fun m depth => hf m depth m depth

theorem andFinally {x y : Eval σ α} (hx : Lifts x y) {f : Machine σ → Machine σ}
    (hf : ∀ m depth, f (m.atDepth depth) = (f m).atDepth depth) :
    Lifts (x.andFinally f) (y.andFinally f) := by
  intro m depth
  rcases hx m depth with hout | hsame
  · exact .inl hout
  · right
    simp only [Eval.andFinally, hsame, hf]

/-- A node is counted on top of what the count is. -/
theorem nested {x y : Eval σ α} (hx : Lifts x y) : Lifts x.nested y.nested := by
  intro m depth
  rcases hx m.enter (depth + 1) with hout | hsame
  · exact .inl hout
  · right
    have henter : (m.atDepth depth).enter = m.enter.atDepth (depth + 1) := rfl
    rw [Eval.nested_eq, Eval.nested_eq, henter, hsame]
    rfl

end Eval.Lifts

/-! ### Trees -/

open Eval (Lifts)

section Trees

variable [Host σ]

/-- Being the same with more levels is a law of two evaluations of the same tree. -/
def Law.lifts (σ : Type) [Host σ] : Law σ Bool where
  Holds x := Lifts (x true) (x false)
  allowed _ := True
  bare _ := false
  Place := SamePlace
  place {n} _ := .of_tree n
  pure a := .pure a
  bind_of hx hf := hx.bind_of fun a ha => hf a ⟨true, ha⟩
  fail hp _ _ := by
    simp only [hp.eq]
    exact .fail _ _ _
  look hsame hf := Lifts.machine_bind fun m depth => by
    rw [hsame false (m.alike_atDepth depth)]
    exact hf m
  store := .store
  newArray _ := .allocate _
  reply _ hp _ := by
    simp only [hp.eq]
    exact .reply _ _

theorem Law.lifts_free : (Law.lifts σ).Free where
  perform operation hp := by
    simp only [Law.lifts, hp.eq]
    exact .reply operation _
  update hf := .update fun m depth => m.change_atDepth depth hf
  andFinally hx hf := hx.andFinally fun m depth => m.change_atDepth depth hf

theorem evalAll_lifts {ev ev' : Expr → Eval σ Value} (hev : ∀ c, Lifts (ev c) (ev' c))
    (es : List Expr) : Lifts (evalAll ev es) (evalAll ev' es) := by
  have hall : (Law.lifts σ).Holds fun i =>
      evalAll (cond i ev ev') (es.map (Expr.unmarkedIf false)) :=
    Law.holds_evalAll fun _ _ n _ => ⟨trivial, hev n⟩
  simp only [Expr.map_unmarkedIf] at hall
  exact hall

/-- A tree means the same with more levels and at any count, unless it runs out of
    the levels that it has. By induction on those. -/
theorem eval_lifts (budget : Nat) {levels : Nat} : ∀ {levels' : Nat}, levels ≤ levels' →
    ∀ e : Expr, Lifts (eval budget levels e : Eval σ Value) (eval budget levels' e) := by
  induction levels with
  | zero => exact fun _ e m depth => .inl ⟨e.position, rfl⟩
  | succ levels ih =>
      intro levels' hle e
      -- More levels than a positive number of them are a positive number too.
      obtain ⟨more, rfl⟩ : ∃ more, levels' = more + 1 := ⟨levels' - 1, by omega⟩
      have hsuits : (Law.lifts σ).Suits (fun _ => budget)
          fun i => cond i (eval budget levels) (eval budget more) :=
        Law.lifts_free.suits_of_giveUp .giveUp budget
      have hnode : Lifts (evalNode budget (eval budget levels) e : Eval σ Value)
          (evalNode budget (eval budget more) e) :=
        Law.holds_evalNode hsuits trivial fun c _ => ⟨trivial, ih (by omega) c⟩
      exact hnode.nested

end Trees

end Scriptlet
