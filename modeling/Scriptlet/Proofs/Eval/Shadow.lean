import Scriptlet.Proofs.Eval.Kept

/-!
# Loop Variables Hide Names

While a loop runs, its variable stands in front of the name of the context that
is spelled the same. Whatever the body does, it cannot get at that name: it
reads and writes the variable instead, and no loop inside it can take the
variable away, since that loop would have to have the same variable. So behind
a loop the name stands for what the list of the loop left it with. The list is
evaluated before there is a variable, and is free to write the name.

That a write cannot pass by a variable is a property of courses. What is left to
show for a loop is that each round begins by giving the variable a value, and so
with the name hidden.

## Main definitions

* `behindList`: The machine that the list of a loop leaves.

## Theorems

* `Course.inFrame_eq`: A course keeps the variables of loops around it.
* `Course.get?_context_of_inFrame`: A name behind a variable is not written.
* `iterate_keeps`: What every round of a loop keeps, the loop keeps.
* `foreach_hides_name`: Behind a loop, its name is as the list left it.
-/

namespace Scriptlet

variable {σ : Type}

/-! ### Variables and courses -/

namespace Machine

theorem inFrame_unbindFrame (m : Machine σ) {name other : String} (h : other ≠ name) :
    (m.unbindFrame name).inFrame other = m.inFrame other := by
  rw [inFrame_eq, inFrame_eq, frameNames_unbindFrame]
  cases m.frameNames with
  | nil => rfl
  | cons has rest => simp [h]

theorem inFrame_bindFrame_self {m : Machine σ} (h : m.frameDepth ≠ 0) (name : String)
    (value : Value) : (m.bindFrame name value).inFrame name = true := by
  rw [inFrame_eq, frameNames_bindFrame]
  unfold frameDepth at h
  unfold frameNames
  cases hframes : m.frames with
  | nil => simp [hframes] at h
  | cons top rest => simp

theorem frameDepth_bindFrame (m : Machine σ) (name : String) (value : Value) :
    (m.bindFrame name value).frameDepth = m.frameDepth :=
  List.length_modifyHead ..

theorem openFrame_of_inFrame {m : Machine σ} {name : String} (h : m.inFrame name = true) :
    m.openFrame = m := by
  unfold inFrame at h
  unfold openFrame
  cases hframes : m.frames with
  | nil => simp [hframes] at h
  | cons top rest => simp

theorem context_closeLoop (outermost : Bool) (name : String) (m : Machine σ) :
    (m.closeLoop outermost name).context = m.context := by
  rcases m.closeLoop_eq outermost name with ⟨_, h⟩
  rw [h]

end Machine

namespace Course

variable [Host σ] {allowed : Expr → Prop} {item? : Option String} {m m' : Machine σ}

/-- A course keeps the variables of loops around it, up to the one whose rounds it is. -/
theorem inFrame_eq (h : Course allowed item? m m') {name : String} (hname : item? ≠ some name) :
    m'.inFrame name = m.inFrame name := by
  have houtside := h.outside_eq
  cases item? with
  | none => exact Machine.inFrame_of_frameNames_eq houtside name
  | some item =>
      have hother : name ≠ item := fun heq => hname (by rw [heq])
      rw [← m'.inFrame_unbindFrame hother, ← m.inFrame_unbindFrame hother]
      exact Machine.inFrame_of_frameNames_eq houtside name

/-- A name of the context that a loop variable hides is not written. -/
theorem get?_context_of_inFrame (h : Course allowed item? m m') {name : String}
    (hname : item? ≠ some name) (hframe : m.inFrame name = true) :
    m'.context.get? name = m.context.get? name := by
  induction h with
  | refl _ => rfl
  | trans first _ ihfirst ihsecond =>
      -- The variable is still there when the second part begins.
      rw [ihsecond hname (by rwa [first.inFrame_eq hname]), ihfirst hname hframe]
  | store _ => rfl
  | @context m written value _ hhidden _ =>
      have hother : name ≠ written := by
        rintro rfl
        rw [hhidden] at hframe
        exact absurd hframe (by simp)
      rw [Machine.bindContext, Record.get?_insert, if_neg hother]
  | frame _ _ _ => rfl
  | nested _ ih => exact ih (by simp) hframe
  | @loop m m' item hfree _ ih =>
      -- The loop needs a variable that is not in use, so it has another one.
      have hother : some item ≠ some name := by
        rintro heq
        rw [Option.some.inj heq, hframe] at hfree
        exact absurd hfree (by simp)
      rw [Machine.openFrame_of_inFrame hframe] at ih
      rw [Machine.context_closeLoop]
      exact ih hother hframe
  | next _ _ => rfl
  | body _ ih => exact ih (by simp) hframe

end Course

/-! ### The rounds of a loop -/

section Rounds

variable {P : Machine σ → Prop} {ev : Expr → Eval σ Value} {name : String} {body : Expr}

theorem Eval.bind_keeps {α β : Type} {x : Eval σ α} {f : α → Eval σ β} {m : Machine σ}
    (hx : P (x m).2) (hf : ∀ a m₁, P m₁ → P (f a m₁).2) : P ((x >>= f) m).2 := by
  simp only [Bind.bind, Eval.bind]
  rcases hxm : x m with ⟨outcome, m₁⟩
  rw [hxm] at hx
  cases outcome with
  | value a => exact hf a m₁ hx
  | failed _ | unfinished => exact hx

theorem loopArray_keeps (hround : ∀ m element, P m → P (ev body (m.bindFrame name element)).2)
    (r : ArrayRef) (budget : Nat) : ∀ (place : Nat) (m : Machine σ), P m →
      P (loopArray ev name r body budget place m).2 := by
  induction budget with
  | zero => intro place m hm; exact hm
  | succ budget ih =>
      intro place m hm
      refine Eval.bind_keeps (x := Eval.store) hm fun s m₁ hm₁ => ?_
      cases (s.elements r)[place]? with
      | none => exact hm₁
      | some element =>
          exact Eval.bind_keeps (x := ev body) (hround m₁ element hm₁) fun _ m₂ hm₂ =>
            ih (place + 1) m₂ hm₂

theorem loopText_keeps (hround : ∀ m element, P m → P (ev body (m.bindFrame name element)).2)
    (cs : List Char) : ∀ m : Machine σ, P m → P (loopText ev name body cs m).2 := by
  induction cs with
  | nil => intro m hm; exact hm
  | cons c cs ih =>
      intro m hm
      exact Eval.bind_keeps (x := ev body) (hround m (.text c.toString) hm) fun _ m₁ hm₁ =>
        ih m₁ hm₁

/-- What holds behind the list of a loop, and is kept by every round, holds
    behind the loop, however it ends. -/
theorem iterate_keeps (hround : ∀ m element, P m → P (ev body (m.bindFrame name element)).2)
    (budget : Nat) (list : Expr) {m : Machine σ} (hlist : P (ev list m).2) :
    P (iterate budget ev name list body m).2 := by
  refine Eval.bind_keeps hlist fun v m₁ hm₁ => ?_
  cases v with
  | array r => exact loopArray_keeps hround r budget 0 m₁ hm₁
  | text t => exact loopText_keeps hround t.toList m₁ hm₁
  | _ => exact hm₁

end Rounds

theorem evalLoop_snd (budget : Nat) (ev : Expr → Eval σ Value) (name : String) (p : Nat)
    (list body : Expr) (m : Machine σ) :
    (evalLoop budget ev name p list body m).2 = if m.inFrame name = true then m else
      (iterate budget ev name list body m.openFrame).2.closeLoop m.frames.isEmpty name := by
  unfold evalLoop
  rw [Eval.bind_of_value (x := Eval.machine) rfl]
  by_cases hframe : m.inFrame name = true
  · rw [if_pos hframe, if_pos hframe]
    rfl
  · rw [if_neg hframe, if_neg hframe, Eval.bind_of_value (x := Eval.update _) rfl]
    exact Eval.bind_keeps (P := (· = _)) rfl fun _ m₁ hm₁ => hm₁

/-! ### Loops -/

section Loops

variable [Host σ]

/-- The machine that the list of a loop leaves, which is the one in front of the
    loop if the list is not reached. -/
def behindList (budget levels : Nat) (name : String) (list : Expr) (m : Machine σ) : Machine σ :=
  match levels with
  | 0 => m
  | levels + 1 =>
    if m.inFrame name then m else (eval budget levels list m.enter.openFrame).2

/-- Evaluating a tree does not write a name that a loop variable hides. -/
theorem get?_context_of_eval (budget levels : Nat) (e : Expr) {m : Machine σ} {name : String}
    (h : m.inFrame name = true) :
    (eval budget levels e m).2.context.get? name = m.context.get? name :=
  (course_of_tree budget levels e m).get?_context_of_inFrame (by simp) h

/-- The rounds of a loop leave the name of its variable alone, if there is a frame
    for the variable. -/
theorem get?_context_of_iterate (budget levels : Nat) (name : String) (list body : Expr)
    {m : Machine σ} (h : m.frameDepth ≠ 0) :
    (iterate budget (eval budget levels) name list body m).2.context.get? name =
      (eval budget levels list m).2.context.get? name := by
  have hround (m' : Machine σ) (element : Value) (hm' : m'.frameDepth ≠ 0 ∧
      m'.context.get? name = (eval budget levels list m).2.context.get? name) :
      (eval budget levels body (m'.bindFrame name element)).2.frameDepth ≠ 0 ∧
        (eval budget levels body (m'.bindFrame name element)).2.context.get? name =
          (eval budget levels list m).2.context.get? name := by
    -- The body begins with the name hidden, whatever the round before has left.
    have hframe := Machine.inFrame_bindFrame_self hm'.1 name element
    rw [(course_of_tree budget levels body _).frameDepth_eq, Machine.frameDepth_bindFrame,
      get?_context_of_eval budget levels body hframe]
    exact hm'
  have hlist : (eval budget levels list m).2.frameDepth ≠ 0 := by
    rwa [(course_of_tree budget levels list m).frameDepth_eq]
  exact (iterate_keeps (P := fun m' => m'.frameDepth ≠ 0 ∧
    m'.context.get? name = (eval budget levels list m).2.context.get? name) hround budget list
      ⟨hlist, rfl⟩).2

/-- Behind a loop, however it ends, the name of its variable stands in the
    context for what the list left it with, and for nothing if it did so in front
    of the loop. The body, evaluated with the variable there, leaves the name
    alone. -/
theorem foreach_hides_name (budget levels : Nat) (name : String) (item mark : Mark)
    (list body : Expr) (m : Machine σ) :
    (eval budget levels (.call "foreach" [.var name item, list, body] mark) m).2.context.get? name =
      (behindList budget levels name list m).context.get? name ∧
    (eval budget levels (.call "foreach" [.var name item, list, body] mark) m).2.context.contains
      name = m.context.contains name ∧
    ∀ m' : Machine σ, m'.inFrame name = true →
      (eval budget levels body m').2.context.get? name = m'.context.get? name := by
  refine ⟨?_, congrFun (course_of_tree budget levels _ m).contains_context name,
    fun m' hframe => get?_context_of_eval budget levels body hframe⟩
  cases levels with
  | zero => rfl
  | succ levels =>
      have hloop : (eval budget (levels + 1) (.call "foreach" [.var name item, list, body] mark)
          m).2.context = (evalLoop budget (eval budget levels) name item.position list body
            m.enter).2.context := rfl
      have henter : m.enter.inFrame name = m.inFrame name := rfl
      rw [hloop, evalLoop_snd, behindList, henter]
      by_cases hframe : m.inFrame name = true
      · rw [if_pos hframe, if_pos hframe]
        rfl
      · rw [if_neg hframe, if_neg hframe, Machine.context_closeLoop]
        -- The frame is there before the list is evaluated.
        exact get?_context_of_iterate budget levels name list body
          (by rw [Machine.frameDepth_openFrame]; omega)

end Loops

/-- A loop whose list and body both assign to the name of its variable. Behind it
    the name stands for what the list assigned. -/
theorem name_hidden_from_body :
    ∃ (e : Expr) (m : Machine Unit),
      Expr.parse "foreach(x, [x = \"b\"], x = \"c\")".toList = .ok e ∧
      m.context.get? "x" = some (.text "a") ∧ (eval 9 4 e m).1 = .value .undefined ∧
      (eval 9 4 e m).2.context.get? "x" = some (.text "b") := by
  have hscan : Scan.ofText "foreach(x, [x = \"b\"], x = \"c\")".toList =
      ⟨[⟨.function "foreach", 0, 7, 0⟩, ⟨.opening .round, 7, 8, 0⟩, ⟨.name "x", 8, 9, 1⟩,
        ⟨.comma, 9, 10, 1⟩, ⟨.opening .square, 11, 12, 1⟩, ⟨.name "x", 12, 14, 2⟩,
        ⟨.operator .assign, 14, 15, 2⟩, ⟨.constant (.text "b"), 16, 19, 2⟩,
        ⟨.closing .square, 19, 20, 2⟩, ⟨.comma, 20, 21, 1⟩, ⟨.name "x", 22, 24, 1⟩,
        ⟨.operator .assign, 24, 25, 1⟩, ⟨.constant (.text "c"), 26, 29, 1⟩,
        ⟨.closing .round, 29, 30, 1⟩], .complete 30 0⟩ := by
    with_unfolding_all rfl
  have hparse : Expr.parse "foreach(x, [x = \"b\"], x = \"c\")".toList =
      .ok (.call "foreach" [.var "x" ⟨8, 10⟩,
        .array [.binary .assign (.var "x" ⟨12, 20⟩) (.literal (.text "b") ⟨16, 20⟩) ⟨14, 22⟩]
          ⟨11, 20⟩,
        .binary .assign (.var "x" ⟨22, 10⟩) (.literal (.text "c") ⟨26, 10⟩) ⟨24, 12⟩] ⟨0, 0⟩) := by
    rw [Expr.parse, hscan]
    rfl
  refine ⟨_, ⟨.empty 0 (), .ofList [("x", .text "a")], [], 0⟩, hparse, rfl, rfl, ?_⟩
  exact (foreach_hides_name 9 4 "x" _ _ _ _ _).1.trans rfl

end Scriptlet
