import Scriptlet.Proofs.Eval.Kept

/-!
# Evaluation Ends

A loop over an array looks at the array afresh in every round, and goes on for
as long as its body appends to it. There is one method that appends. Without it
no array that is there gets longer, whatever is assigned, taken off or aliased,
and so every loop ends: in each round there is one element less ahead.

How many rounds are enough cannot be told from the tree. Arrays are made on the
way, and the length of one that is split from a text depends on what loops
before made of the text. So the bound comes out of the run itself. An evaluation
that takes a budget ends if from some budget on it always has the same result.
This is a law of the evaluations with all the budgets: the larger of two bounds
is enough for one evaluation after another.

Apart from whether a loop is given up, a budget decides nothing. What ends with
one budget ends the same way with a larger one, for every tree.

## Main definitions

* `Store.NoLonger`: Arrays that are there stay there and get no longer.
* `Eval.EndsAt`, `Eval.Ends`: Evaluations that end, given a large enough budget.
* `Law.ends`: Ending, as a law of all budgets.
* `Eval.Settles`, `Law.settles`: Ending the same way with a larger budget.

## Theorems

* `Store.Effect.noLonger`, `Course.noLonger`: Only one method makes an array longer.
* `Eval.EndsAt.bind`: One evaluation after another.
* `loopArray_ends`: A loop ends if its body does not make the array longer.
* `eval_ends_without_push`: Trees that do not call the method.
* `eval_settles`: More steps do not change what has ended.
-/

namespace Scriptlet

open Store (Effect)

variable {σ : Type}

/-! ### Lengths of arrays -/

/-- Arrays that are there stay there and get no longer. -/
def Store.NoLonger (s s' : Store σ) : Prop :=
  ∀ (i : Nat) (a : Array Value), s.arrays[i]? = some a →
    ∃ a', s'.arrays[i]? = some a' ∧ a'.size ≤ a.size

namespace Store

variable {s s' s'' : Store σ}

theorem KeepsLengths.noLonger (h : s.KeepsLengths s') : s.NoLonger s' := by
  intro i a ha
  rcases h i a ha with ⟨a', ha', hsize⟩
  exact ⟨a', ha', Nat.le_of_eq hsize⟩

theorem NoLonger.refl (s : Store σ) : s.NoLonger s :=
  KeepsLengths.noLonger (Keeps.refl s)

theorem NoLonger.trans (h : s.NoLonger s') (h' : s'.NoLonger s'') : s.NoLonger s'' := by
  intro i a ha
  rcases h i a ha with ⟨a', ha', hsize⟩
  rcases h' i a' ha' with ⟨a'', ha'', hsize'⟩
  exact ⟨a'', ha'', Nat.le_trans hsize' hsize⟩

theorem noLonger_pop (s : Store σ) (r : ArrayRef) :
    s.NoLonger (s.setElements r (s.elements r).pop) := by
  intro i a ha
  by_cases hr : r.index = i
  · subst hr
    have hi := (Array.getElem?_eq_some_iff.mp ha).1
    refine ⟨_, Array.getElem?_setIfInBounds_self_of_lt hi, ?_⟩
    rw [Store.elements, ha, Option.getD_some, Array.size_pop]
    omega
  · exact ⟨a, by rw [setElements, Array.getElem?_setIfInBounds_ne hr, ha], Nat.le_refl _⟩

/-- Only one method of arrays makes one longer. -/
theorem Effect.noLonger [Host σ] {called : String → Prop} (hhost : Host.Discreet σ)
    (hpush : ¬ called "push") (h : Effect called s s') : s.NoLonger s' := by
  cases h with
  | pop r _ => exact noLonger_pop s r
  | push _ _ call => exact absurd call hpush
  -- What is left keeps the lengths, adds an array behind the others, or is up to the host.
  | none | seed | field => exact KeepsLengths.noLonger (.of_eq rfl)
  | array elements => exact (keepsLengths_newArray s elements).noLonger
  | element r i value => exact KeepsLengths.noLonger (keepsLengths_setElements (by simp))
  | set r key value => exact KeepsLengths.noLonger (hhost.set r key value s).1.of_id
  | invoke r name args => exact KeepsLengths.noLonger (hhost.invoke r name args s).1.of_id
  | apply f args => exact KeepsLengths.noLonger (hhost.apply f args s).1.of_id

/-- An array with an element is one that is there. -/
theorem NoLonger.size_elements_le (h : s.NoLonger s') {r : ArrayRef} {place : Nat} {element : Value}
    (helement : (s.elements r)[place]? = some element) :
    (s'.elements r).size ≤ (s.elements r).size := by
  unfold elements at helement ⊢
  cases ha : s.arrays[r.index]? with
  | none => simp [ha] at helement
  | some a =>
      rcases h r.index a ha with ⟨a', ha', hsize⟩
      rw [ha', Option.getD_some, Option.getD_some]
      exact hsize

end Store

theorem Course.noLonger [Host σ] {allowed : Expr → Prop} {item? : Option String}
    {m m' : Machine σ} (hhost : Host.Discreet σ) (hpush : ¬ Called allowed "push")
    (h : Course allowed item? m m') : m.store.NoLonger m'.store :=
  h.store_rel Store.NoLonger.refl .trans (·.noLonger hhost hpush)

/-! ### Evaluations that end -/

/-- From a machine, an evaluation ends, and has the same result with every budget
    that is large enough. -/
def Eval.EndsAt {α : Type} (x : Nat → Eval σ α) (m : Machine σ) : Prop :=
  ∃ (enough : Nat) (result : Outcome α × Machine σ), result.1 ≠ .unfinished ∧
    ∀ budget, enough ≤ budget → x budget m = result

/-- From every machine, an evaluation ends. -/
def Eval.Ends {α : Type} (x : Nat → Eval σ α) : Prop :=
  ∀ m, Eval.EndsAt x m

namespace Eval

variable {α β : Type}

/-- What a large enough budget makes the same ends the same way. -/
theorem EndsAt.of_eq {x y : Nat → Eval σ α} {m m' : Machine σ} (hy : EndsAt y m') (least : Nat)
    (h : ∀ budget, least ≤ budget → x budget m = y budget m') : EndsAt x m := by
  rcases hy with ⟨enough, result, hfinished, hresult⟩
  refine ⟨max least enough, result, hfinished, fun budget hbudget => ?_⟩
  rw [h budget (by omega), hresult budget (by omega)]

theorem EndsAt.bind {x : Nat → Eval σ α} {f : Nat → α → Eval σ β} {m : Machine σ}
    (hx : EndsAt x m)
    (hf : ∀ budget a m', x budget m = (.value a, m') → EndsAt (fun b => f b a) m') :
    EndsAt (fun budget => x budget >>= f budget) m := by
  rcases hx with ⟨enough, ⟨outcome, m'⟩, hfinished, hresult⟩
  cases outcome with
  | value a =>
      -- From its bound on the first always leaves the same machine, so the second
      -- has to end from that one only.
      refine (hf enough a m' (hresult enough (Nat.le_refl _))).of_eq enough fun budget hbudget => ?_
      exact Eval.bind_of_value (hresult budget hbudget) (f budget)
  | failed e =>
      refine ⟨enough, (.failed e, m'), by simp, fun budget hbudget => ?_⟩
      simp only [Bind.bind, Eval.bind, hresult budget hbudget]
  | unfinished => exact absurd rfl hfinished

theorem Ends.bind_of {x : Nat → Eval σ α} {f : Nat → α → Eval σ β} (hx : Ends x)
    (hf : ∀ a, Gives x a → Ends fun budget => f budget a) :
    Ends fun budget => x budget >>= f budget :=
  fun m => (hx m).bind fun budget a m' hvalue => hf a ⟨budget, m, m', hvalue⟩ m'

theorem Ends.of_finished {x : Eval σ α} (h : ∀ m, (x m).1 ≠ .unfinished) : Ends fun _ => x :=
  fun m => ⟨0, x m, h m, fun _ _ => rfl⟩

theorem Ends.pure (a : α) : Ends fun _ => (Pure.pure a : Eval σ α) :=
  .of_finished fun _ => by simp [Pure.pure, Eval.pure]

theorem Ends.fail (kind : IssueKind) (cause : Cause) (position : Nat) :
    Ends fun _ => (Eval.fail kind cause position : Eval σ α) :=
  .of_finished fun _ => by simp [Eval.fail]

theorem Ends.store : Ends fun _ => (Eval.store : Eval σ (Store σ)) :=
  .of_finished fun _ => by simp [Eval.store]

theorem Ends.machine : Ends fun _ => (Eval.machine : Eval σ (Machine σ)) :=
  .of_finished fun _ => by simp [Eval.machine]

theorem Ends.update (f : Machine σ → Machine σ) : Ends fun _ => Eval.update f :=
  .of_finished fun _ => by simp [Eval.update]

theorem Ends.allocate (add : Store σ → α × Store σ) : Ends fun _ => Eval.allocate add :=
  .of_finished fun _ => by simp [Eval.allocate]

theorem Ends.reply (operation : Store σ → Reply σ α) (position : Nat) :
    Ends fun _ => Eval.reply operation position := by
  refine .of_finished fun m => ?_
  unfold Eval.reply
  split <;> simp

theorem Ends.andFinally {x : Nat → Eval σ α} (hx : Ends x) (f : Machine σ → Machine σ) :
    Ends fun budget => (x budget).andFinally f := by
  intro m
  rcases hx m with ⟨enough, result, hfinished, hresult⟩
  refine ⟨enough, (result.1, f result.2), hfinished, fun budget hbudget => ?_⟩
  simp only [Eval.andFinally, hresult budget hbudget]

theorem Ends.nested {x : Nat → Eval σ α} (hx : Ends x) : Ends fun budget => (x budget).nested :=
  (Ends.update Machine.enter).bind_of fun _ _ => hx.andFinally Machine.leave

end Eval

open Eval (Ends EndsAt)

/-! ### Loops over arrays -/

section Rounds

variable {ev : Nat → Expr → Eval σ Value}

theorem loopArray_of_none {ev : Expr → Eval σ Value} {r : ArrayRef} {place : Nat} {m : Machine σ}
    (h : (m.store.elements r)[place]? = none) (name : String) (body : Expr) (steps : Nat) :
    loopArray ev name r body (steps + 1) place m = (.value (), m) := by
  simp only [loopArray, Bind.bind, Eval.bind, Eval.store, h]
  rfl

theorem loopArray_of_some {ev : Expr → Eval σ Value} {r : ArrayRef} {place : Nat} {m : Machine σ}
    {element : Value} (h : (m.store.elements r)[place]? = some element) (name : String)
    (body : Expr) (steps : Nat) :
    loopArray ev name r body (steps + 1) place m =
      (ev body >>= fun _ => loopArray ev name r body steps (place + 1))
        (m.bindFrame name element) := by
  simp only [loopArray, Bind.bind, Eval.bind, Eval.store, h]
  rfl

/-- A loop over an array has no more rounds ahead than there are elements from
    its place on. The steps that are left and the place add up to the budget. -/
theorem loopArray_ends {body : Expr} (hbody : Ends fun budget => ev budget body)
    (hshort : ∀ (budget : Nat) (m : Machine σ), m.store.NoLonger (ev budget body m).2.store)
    (name : String) (r : ArrayRef) : ∀ (rounds place : Nat) (m : Machine σ),
      (m.store.elements r).size ≤ place + rounds →
      EndsAt (fun budget => loopArray (ev budget) name r body (budget - place) place) m := by
  have hstep {budget place : Nat} (h : place + 1 ≤ budget) :
      budget - place = budget - (place + 1) + 1 := by omega
  have hdone {place : Nat} {m : Machine σ} (hnone : (m.store.elements r)[place]? = none) :
      EndsAt (fun budget => loopArray (ev budget) name r body (budget - place) place) m := by
    refine (Ends.pure () m).of_eq (place + 1) fun budget hbudget => ?_
    rw [hstep hbudget]
    exact loopArray_of_none hnone name body _
  intro rounds
  induction rounds with
  | zero =>
      intro place m hsize
      exact hdone (Array.getElem?_eq_none (by omega))
  | succ rounds ih =>
      intro place m hsize
      cases helement : (m.store.elements r)[place]? with
      | none => exact hdone helement
      | some element =>
          have hround : EndsAt (fun budget => ev budget body >>= fun _ =>
              loopArray (ev budget) name r body (budget - (place + 1)) (place + 1))
              (m.bindFrame name element) := by
            refine (hbody _).bind fun budget v m' hvalue => ih (place + 1) m' ?_
            -- The body may have taken elements off, but has added none.
            have hlonger := hshort budget (m.bindFrame name element)
            rw [hvalue] at hlonger
            have hsize' : (m'.store.elements r).size ≤ (m.store.elements r).size :=
              hlonger.size_elements_le helement
            omega
          refine hround.of_eq (place + 1) fun budget hbudget => ?_
          rw [hstep hbudget]
          exact loopArray_of_some helement name body _

end Rounds

/-! ### Trees -/

section Trees

variable [Host σ]

/-- Ending is a law of the evaluations with all the budgets. -/
def Law.ends (σ : Type) [Host σ] (allowed : Expr → Prop) : Law σ Nat where
  Holds x := Ends x
  allowed := allowed
  bare _ := false
  Place p := ∀ budget, p budget = p 0
  place _ := fun _ => rfl
  pure a := .pure a
  bind_of hx hf := hx.bind_of hf
  fail hp _ _ := by
    simp only [hp]
    exact .fail _ _ _
  look _ hf := Ends.machine.bind_of fun m _ => hf m
  store := .store
  newArray _ := .allocate _
  reply _ hp _ := by
    simp only [hp]
    exact .reply _ _

theorem Law.ends_free (allowed : Expr → Prop) : (Law.ends σ allowed).Free where
  perform {α p} operation hp := by
    have hplace (budget : Nat) : p budget = p 0 := hp budget
    simp only [Law.ends, hplace]
    exact .reply operation _
  update _ := .update _
  andFinally hx _ := hx.andFinally _

variable {allowed : Expr → Prop}

theorem eval_ends (hhost : Host.Discreet σ) (hpush : ¬ Called allowed "push") :
    ∀ (levels : Nat) {e : Expr}, e.Allowed allowed →
      Ends fun budget => (eval budget levels e : Eval σ Value) := by
  intro levels
  -- Subtrees are evaluated with one level less, and so are those of a member that
  -- is not evaluated itself. This makes it an induction on the levels.
  induction levels with
  | zero => intro e _; exact .fail _ _ _
  | succ levels ih =>
      intro e he
      have hsuits : (Law.ends σ allowed).Suits (fun budget => budget)
          fun budget => eval budget levels := by
        refine (Law.ends_free allowed).suits fun {body} hbody name r m => ?_
        have hallowed : body.Allowed allowed := fun n hn => (hbody n hn).1
        exact loopArray_ends hbody.holds
          (fun budget m => (course_of_eval budget levels hallowed m).noLonger hhost hpush) name r
          (m.store.elements r).size 0 m (by omega)
      have hnode : Ends fun budget => (evalNode budget (eval budget levels) e : Eval σ Value) :=
        Law.holds_evalNode hsuits he.self fun n hn =>
          ⟨he n (List.mem_of_mem_tail hn), ih (he.part (List.mem_of_mem_tail hn))⟩
      exact hnode.nested

end Trees

/-- The evaluation of a tree that does not call the method by which arrays grow
    ends with a value or an error, from every machine: there is a bound such that
    every budget above it has this one result. Hosts, if there are any, are
    supposed to leave the arrays of scripts alone. -/
theorem eval_ends_without_push [Host σ] (hhost : Host.Discreet σ) (levels : Nat) {e : Expr}
    (hpush : ∀ args mark, .call "push" args mark ∉ e.nodes) (m : Machine σ) :
    ∃ (enough : Nat) (outcome : Outcome Value) (m' : Machine σ), outcome ≠ .unfinished ∧
      ∀ budget, enough ≤ budget → eval budget levels e m = (outcome, m') := by
  have hcalled : ¬ Called (· ∈ e.nodes) "push" := by
    rintro ⟨args, mark, hcall⟩
    exact hpush args mark hcall
  have he : e.Allowed (· ∈ e.nodes) := fun _ hn => hn
  rcases eval_ends hhost hcalled levels he m with ⟨enough, ⟨outcome, m'⟩, hfinished, hresult⟩
  exact ⟨enough, outcome, m', hfinished, hresult⟩

/-- A loop over an array that contains itself and loses its last element in every
    round. -/
theorem end_of_popping_loop :
    ∃ (e : Expr) (m : Machine Unit), Expr.parse "foreach(x, a, x.pop())".toList = .ok e ∧
      m.store.arrays = #[#[.array ⟨0⟩, .array ⟨0⟩, .array ⟨0⟩]] ∧
      (∀ args mark, .call "push" args mark ∉ e.nodes) ∧
      ∃ (enough : Nat) (outcome : Outcome Value) (m' : Machine Unit), outcome ≠ .unfinished ∧
        ∀ budget, enough ≤ budget → eval budget 4 e m = (outcome, m') := by
  have hscan : Scan.ofText "foreach(x, a, x.pop())".toList =
      ⟨[⟨.function "foreach", 0, 7, 0⟩, ⟨.opening .round, 7, 8, 0⟩, ⟨.name "x", 8, 9, 1⟩,
        ⟨.comma, 9, 10, 1⟩, ⟨.name "a", 11, 12, 1⟩, ⟨.comma, 12, 13, 1⟩, ⟨.name "x", 14, 15, 1⟩,
        ⟨.operator .dot, 15, 16, 1⟩, ⟨.function "pop", 16, 19, 1⟩, ⟨.opening .round, 19, 20, 1⟩,
        ⟨.closing .round, 20, 21, 2⟩, ⟨.closing .round, 21, 22, 1⟩], .complete 22 0⟩ := by
    with_unfolding_all rfl
  have hparse : Expr.parse "foreach(x, a, x.pop())".toList =
      .ok (.call "foreach" [.var "x" ⟨8, 10⟩, .var "a" ⟨11, 10⟩,
        .binary .dot (.var "x" ⟨14, 10⟩) (.call "pop" [] ⟨16, 10⟩) ⟨15, 20⟩] ⟨0, 0⟩) := by
    rw [Expr.parse, hscan]
    rfl
  refine ⟨_, ⟨⟨#[#[.array ⟨0⟩, .array ⟨0⟩, .array ⟨0⟩]], #[], 0, ()⟩,
    .ofList [("a", .array ⟨0⟩)], [], 0⟩, hparse, rfl, ?_, ?_⟩
  · simp [Expr.nodes, Expr.nodesOf]
  · exact eval_ends_without_push Host.discreet_unit 4 (by simp [Expr.nodes, Expr.nodesOf]) _

/-! ### Larger budgets -/

/-- Two evaluations, of which the second is the same on all machines on which the
    first is not given up. -/
def Eval.Settles {α : Type} (x y : Eval σ α) : Prop :=
  ∀ m, (x m).1 = .unfinished ∨ y m = x m

namespace Eval.Settles

variable {α β : Type}

theorem refl (x : Eval σ α) : Settles x x :=
  fun _ => .inr rfl

theorem bind_of {x y : Eval σ α} {f g : α → Eval σ β} (hx : Settles x y)
    (hf : ∀ a, (∃ m m', x m = (.value a, m')) → Settles (f a) (g a)) :
    Settles (x >>= f) (y >>= g) := by
  intro m
  simp only [Bind.bind, Eval.bind]
  rcases hxm : x m with ⟨outcome, m₁⟩
  rcases hx m with hout | hsame
  · rw [hxm] at hout
    subst hout
    exact .inl rfl
  · rw [hsame, hxm]
    cases outcome with
    | value a => exact hf a ⟨m, m₁, hxm⟩ m₁
    | failed _ | unfinished => exact .inr rfl

theorem andFinally {x y : Eval σ α} (hx : Settles x y) (f : Machine σ → Machine σ) :
    Settles (x.andFinally f) (y.andFinally f) := by
  intro m
  refine (hx m).imp (fun hout => hout) fun hsame => ?_
  simp only [Eval.andFinally, hsame]

theorem nested {x y : Eval σ α} (hx : Settles x y) : Settles x.nested y.nested :=
  (refl (Eval.update Machine.enter)).bind_of fun _ _ => hx.andFinally Machine.leave

theorem shifted {x y : Eval σ α} (hx : Settles x y) (offset : Nat) :
    Settles (x.shifted offset) (y.shifted offset) := by
  intro m
  unfold Eval.shifted
  rcases hx m with hout | hsame
  · rcases hxm : x m with ⟨outcome, m₁⟩
    rw [hxm] at hout
    simp only at hout
    simp [hout]
  · exact .inr (by rw [hsame])

end Eval.Settles

open Eval (Settles)

section Budgets

variable [Host σ]

/-- Ending the same way is a law of two evaluations of the same tree. -/
def Law.settles (σ : Type) [Host σ] : Law σ Bool where
  Holds x := Settles (x true) (x false)
  allowed _ := True
  bare _ := false
  Place := SamePlace
  place {n} _ := .of_tree n
  pure _ := .refl _
  bind_of hx hf := hx.bind_of fun a ha => hf a ⟨true, ha⟩
  fail hp _ _ := by
    simp only [hp.eq]
    exact .refl _
  look _ hf := (Settles.refl Eval.machine).bind_of fun m _ => hf m
  store := .refl _
  newArray _ := .refl _
  reply _ hp _ := by
    simp only [hp.eq]
    exact .refl _

theorem Law.settles_free : (Law.settles σ).Free where
  perform operation hp := by
    simp only [Law.settles, hp.eq]
    exact .refl _
  update _ := .refl _
  andFinally hx _ := hx.andFinally _

/-- With a larger budget a loop goes through the same rounds. By induction on the
    smaller one. -/
theorem loopArray_settles {ev : Bool → Expr → Eval σ Value} {body : Expr}
    (hbody : (Law.settles σ).Keeps ev body) (name : String) (r : ArrayRef) (budget : Nat) :
    ∀ {more : Nat}, budget ≤ more → ∀ place, (Law.settles σ).Holds fun i =>
      loopArray (ev i) name r body (cond i budget more) place := by
  induction budget with
  | zero => exact fun _ _ _ => .inl rfl
  | succ budget ih =>
      intro more hle place
      obtain ⟨more, rfl⟩ : ∃ rest, more = rest + 1 := ⟨more - 1, by omega⟩
      have hsucc (i : Bool) : cond i (budget + 1) (more + 1) = cond i budget more + 1 := by
        cases i <;> rfl
      simp only [hsucc]
      refine (Law.settles σ).bind (Law.settles σ).store fun s => ?_
      cases (s.elements r)[place]? with
      | none => exact (Law.settles σ).pure _
      | some element =>
          exact (Law.settles σ).bind (Law.settles_free.update (.bindFrame name element)) fun _ =>
            (Law.settles σ).bind hbody.holds fun _ => ih (by omega) (place + 1)

/-- What ends with one budget ends the same way with every larger one. -/
theorem eval_settles {budget more : Nat} (hle : budget ≤ more) : ∀ (levels : Nat) (e : Expr),
    Settles (eval budget levels e : Eval σ Value) (eval more levels e) := by
  intro levels
  induction levels with
  | zero => exact fun _ => .refl _
  | succ levels ih =>
      intro e
      have hsuits : (Law.settles σ).Suits (fun i => cond i budget more)
          fun i => cond i (eval budget levels) (eval more levels) :=
        Law.settles_free.suits fun hbody name r => loopArray_settles hbody name r budget hle 0
      have hnode : Settles (evalNode budget (eval budget levels) e : Eval σ Value)
          (evalNode more (eval more levels) e) :=
        Law.holds_evalNode hsuits trivial fun c _ => ⟨trivial, ih c⟩
      exact hnode.nested

end Budgets

end Scriptlet
