import Scriptlet.Proofs.Eval.Course
import Scriptlet.Proofs.Expr.Shape

/-!
# Laws of Evaluation

Properties of evaluation are proved in the same way whatever they are: every
building block has the property, a routine has it if its parts have, and so a
node has it if its subtrees have. Here the routines of the evaluator are gone
through once, for every property of this kind.

What is judged is a family of evaluations. A property of one evaluation is about
families with one member. Others compare two evaluations of the same tree, or of
a tree with its marks and without, and one is about all budgets at once. A law
says which families it holds of, with one clause for each building block. A
clause may have conditions that are known wherever the block is used: that the
nodes at hand are allowed, that a place is the place of one of them, or that an
operation has no effect but those that calls may have.

For two kinds of node the building blocks are not enough for every law. That an
assignment writes to what is there depends on what was found before its right
side was evaluated, and that a loop takes away what it added depends on how it
began. A law says by itself that it suits them. Laws that do not mind any change
of names, whatever the machine, do so by the lemmas about free laws.

## Main definitions

* `Machine.Alike`: Machines that give the same answers to all questions of evaluation.
* `Law`: What holds of families of evaluations, by their building blocks.
* `SamePlace`: Two evaluations of the same tree blame the same place.
* `Law.Keeps`: Trees with allowed nodes, of whose evaluation a law holds.
* `Law.Suits`: Laws that hold of assignments and loops.
* `Law.Free`: Laws that hold of every change of names.

## Theorems

* `Law.holds_evalOperator`, `Law.holds_evalMember`, `Law.holds_callFunction`,
  `Law.holds_resolve`: One lemma for each routine.
* `Law.holds_evalNode`: Nodes, given what is below them.
* `Law.Free.suits`: Free laws hold of assignments and loops.
-/

namespace Scriptlet

open Store (Effect)

variable {σ : Type}

/-! ### One evaluation after another -/

namespace Eval

variable {α β γ : Type}

/-- One evaluation after another gives a value only if both do. -/
theorem bind_eq_value {x : Eval σ α} {f : α → Eval σ β} {m m' : Machine σ} {b : β}
    (h : (x >>= f) m = (.value b, m')) :
    ∃ a m₁, x m = (.value a, m₁) ∧ f a m₁ = (.value b, m') := by
  simp only [Bind.bind, Eval.bind] at h
  rcases hx : x m with ⟨outcome, m₁⟩
  rw [hx] at h
  cases outcome with
  | value a => exact ⟨a, m₁, rfl, h⟩
  | failed _ | unfinished => simp at h

theorem bind_of_value {x : Eval σ α} {m m' : Machine σ} {a : α} (h : x m = (.value a, m'))
    (f : α → Eval σ β) : (x >>= f) m = f a m' := by
  simp only [Bind.bind, Eval.bind, h]

theorem pure_bind (a : α) (f : α → Eval σ β) : (pure a >>= f : Eval σ β) = f a :=
  rfl

theorem bind_pure (x : Eval σ α) : (x >>= fun a => pure a) = x := by
  funext m
  simp only [Bind.bind, Eval.bind]
  rcases x m with ⟨outcome, m'⟩
  cases outcome <;> rfl

theorem bind_assoc (x : Eval σ α) (f : α → Eval σ β) (g : β → Eval σ γ) :
    x >>= f >>= g = x >>= fun a => f a >>= g := by
  funext m
  simp only [Bind.bind, Eval.bind]
  rcases x m with ⟨outcome, m'⟩
  cases outcome <;> rfl

theorem nested_eq (x : Eval σ α) (m : Machine σ) :
    x.nested m = ((x m.enter).1, (x m.enter).2.leave) :=
  rfl

/-- Whether some member of a family gives a value on some machine. -/
def Gives {ι : Type} (x : ι → Eval σ α) (a : α) : Prop :=
  ∃ (i : ι) (m m' : Machine σ), x i m = (.value a, m')

end Eval

/-! ### Questions that evaluation asks -/

/-- The names of the variables and calls among some nodes. -/
def Named (allowed : Expr → Prop) (name : String) : Prop :=
  (∃ mark, allowed (.var name mark)) ∨ Called allowed name

/-- Machines with the same store and the same frames, on which some names of the
    context stand for the same. -/
structure Machine.Alike (names : String → Prop) (m m' : Machine σ) : Prop where
  store : m'.store = m.store
  frames : m'.frames = m.frames
  context : ∀ name, names name → m'.context.get? name = m.context.get? name

namespace Machine.Alike

variable {names : String → Prop} {m m' : Machine σ}

theorem lookup (h : m.Alike names m') {name : String} (hname : names name) :
    m'.lookup name = m.lookup name := by
  rw [Machine.lookup, Machine.lookup, h.frames, h.context name hname]

theorem contains (h : m.Alike names m') {name : String} (hname : names name) :
    m'.context.contains name = m.context.contains name := by
  rw [Record.contains, Record.contains, h.context name hname]

theorem inFrame (h : m.Alike names m') (name : String) : m'.inFrame name = m.inFrame name := by
  rw [Machine.inFrame, Machine.inFrame, h.frames]

theorem call [Host σ] (h : m.Alike names m') {name : String} (hname : names name)
    (args : List Value) :
    (m'.context.call name args : Store σ → Reply σ Value) = m.context.call name args := by
  funext s
  simp only [Context.call, h.context name hname]

/-- What a slot holds, if it is not that of a name of no concern. -/
theorem readSlot [Host σ] (h : m.Alike names m') {slot : Slot}
    (hslot : ∀ name, slot = .frame name ∨ slot = .context name → names name) :
    m'.readSlot slot = m.readSlot slot := by
  cases slot with
  | frame name => exact h.lookup (hslot name (.inl rfl))
  | context name => exact h.lookup (hslot name (.inr rfl))
  | member object key => rw [Machine.readSlot, Machine.readSlot, h.store]

end Machine.Alike

/-! ### Laws -/

/-- A law of evaluation: the families of evaluations that it holds of, with one
    clause for each building block of the evaluator. -/
structure Law (σ ι : Type) [Host σ] where
  Holds : {α : Type} → (ι → Eval σ α) → Prop
  /-- The nodes that trees may have. -/
  allowed : Expr → Prop
  /-- The members of a family that evaluate trees without their marks. -/
  bare : ι → Bool
  /-- The places that may be blamed, one for each member of a family. -/
  Place : (ι → Nat) → Prop
  place : ∀ {n : Expr}, allowed n → Place fun i => (n.unmarkedIf (bare i)).position
  pure : ∀ {α : Type} (a : α), Holds fun _ => (Pure.pure a : Eval σ α)
  bind_of : ∀ {α β : Type} {x : ι → Eval σ α} {f : ι → α → Eval σ β}, Holds x →
    (∀ a, Eval.Gives x a → Holds fun i => f i a) → Holds fun i => x i >>= f i
  fail : ∀ {α : Type} {kind : IssueKind} {cause : Cause} {p : ι → Nat}, Place p →
    kind.isCompileTime = false → cause ≠ .nestedTooDeeply →
      Holds fun i => (Eval.fail kind cause (p i) : Eval σ α)
  /-- What follows a look at the machine has to be the same for machines that are alike. -/
  look : ∀ {α : Type} {f : ι → Machine σ → Eval σ α},
    (∀ (i : ι) {m m' : Machine σ}, m.Alike (Named allowed) m' → f i m' = f i m) →
      (∀ m, Holds fun i => f i m) → Holds fun i => Eval.machine >>= f i
  store : Holds fun _ => (Eval.store : Eval σ (Store σ))
  newArray : ∀ elements : Array Value, Holds fun _ => Eval.allocate (·.newArray elements)
  reply : ∀ {α : Type} {name : String} {operation : Store σ → Reply σ α} {p : ι → Nat},
    Called allowed name → Place p → (∀ s, Effect (Called allowed) s (operation s).2) →
      Holds fun i => Eval.reply operation (p i)

/-- Two evaluations of the same tree blame the same place. -/
def SamePlace (p : Bool → Nat) : Prop :=
  p true = p false

theorem SamePlace.of_tree (n : Expr) : SamePlace fun _ => (n.unmarkedIf false).position :=
  rfl

theorem SamePlace.eq {p : Bool → Nat} (h : SamePlace p) : p true = p false :=
  h

/-- An update by a tree that may have kept its marks. -/
def Update.unmarkedIf (bare : Bool) : Update → Update
  | replace right => replace (right.unmarkedIf bare)
  | add right => add (right.unmarkedIf bare)
  | subtract right => subtract (right.unmarkedIf bare)
  | step change => step change

namespace Law

variable [Host σ] {ι : Type}

/-- All nodes of a tree are allowed, and the law holds of their evaluation. -/
def Keeps (L : Law σ ι) (ev : ι → Expr → Eval σ Value) (e : Expr) : Prop :=
  ∀ n ∈ e.nodes, L.allowed n ∧ L.Holds fun i => ev i (n.unmarkedIf (L.bare i))

/-- Laws that hold of assignments and of loops, given what is below them. -/
structure Suits (L : Law σ ι) (budget : ι → Nat) (ev : ι → Expr → Eval σ Value) : Prop where
  assign : ∀ {n target : Expr} {u : Update} {p : ι → Nat}, L.allowed n →
    n.target? = some target → L.Place p → L.Keeps ev target →
      (L.Holds fun i => (u.unmarkedIf (L.bare i)).right (ev i)) →
        L.Holds fun i => evalAssign (ev i) (target.unmarkedIf (L.bare i))
          (u.unmarkedIf (L.bare i)) (p i)
  loop : ∀ {name : String} {list body : Expr} {p : ι → Nat}, Called L.allowed "foreach" →
    L.Place p → L.Keeps ev list → L.Keeps ev body →
      L.Holds fun i => evalLoop (budget i) (ev i) name (p i) (list.unmarkedIf (L.bare i))
        (body.unmarkedIf (L.bare i))

variable {L : Law σ ι} {ev : ι → Expr → Eval σ Value} {p : ι → Nat}

namespace Keeps

variable {e : Expr}

theorem allowed (h : L.Keeps ev e) : L.allowed e :=
  (h e e.mem_nodes_self).1

theorem holds (h : L.Keeps ev e) : L.Holds fun i => ev i (e.unmarkedIf (L.bare i)) :=
  (h e e.mem_nodes_self).2

theorem place (h : L.Keeps ev e) : L.Place fun i => (e.unmarkedIf (L.bare i)).position :=
  L.place h.allowed

theorem part (h : L.Keeps ev e) {n : Expr} (hn : n ∈ e.nodes) : L.Keeps ev n :=
  fun c hc => h c (Expr.nodes_subset e hn hc)

theorem left {op : Operator} {left right : Expr} {m : Mark}
    (h : L.Keeps ev (.binary op left right m)) : L.Keeps ev left :=
  h.part (List.mem_cons_of_mem _ (List.mem_append_left _ left.mem_nodes_self))

theorem right {op : Operator} {left right : Expr} {m : Mark}
    (h : L.Keeps ev (.binary op left right m)) : L.Keeps ev right :=
  h.part (List.mem_cons_of_mem _ (List.mem_append_right _ right.mem_nodes_self))

theorem args {name : String} {args : List Expr} {m : Mark}
    (h : L.Keeps ev (.call name args m)) : ∀ a ∈ args, L.Keeps ev a :=
  fun a ha => h.part (List.mem_cons_of_mem _ (Expr.mem_nodesOf.mpr ⟨a, ha, a.mem_nodes_self⟩))

end Keeps

theorem bind (L : Law σ ι) {α β : Type} {x : ι → Eval σ α} {f : ι → α → Eval σ β} (hx : L.Holds x)
    (hf : ∀ a, L.Holds fun i => f i a) : L.Holds fun i => x i >>= f i :=
  L.bind_of hx fun a _ => hf a

theorem ite {α : Type} {c : Prop} [Decidable c] {x y : ι → Eval σ α} (hx : L.Holds x)
    (hy : L.Holds y) : L.Holds fun i => if c then x i else y i := by
  by_cases hc : c
  · simp only [if_pos hc]
    exact hx
  · simp only [if_neg hc]
    exact hy

/-! ### Operators and conditionals -/

theorem holds_evalBoth {left right : ι → Expr} (hleft : L.Holds fun i => ev i (left i))
    (hright : L.Holds fun i => ev i (right i)) :
    L.Holds fun i => evalBoth (ev i) (left i) (right i) :=
  L.bind hleft fun _ => L.bind hright fun _ => L.pure _

theorem holds_evalScaling (hp : L.Place p) (op : Operator) (a b : Value) :
    L.Holds fun i => (evalScaling op a b (p i) : Eval σ Value) := by
  unfold evalScaling
  split
  · exact ite (ite (L.fail hp rfl (by simp)) (L.pure _)) (L.pure _)
  · exact L.fail hp rfl (by simp)

/-- Only multiplication and division can fail, and they blame the operator. -/
theorem holds_evalOperator (hp : L.Place p) (op : Operator) {left right : ι → Expr}
    (hleft : L.Holds fun i => ev i (left i)) (hright : L.Holds fun i => ev i (right i)) :
    L.Holds fun i => evalOperator (ev i) op (left i) (right i) (p i) := by
  have hboth := holds_evalBoth hleft hright
  cases op with
  | multiply | divide => exact L.bind hboth fun _ => holds_evalScaling hp _ _ _
  | add | subtract | remainder | greater | less | atLeast | atMost =>
      exact L.bind hboth fun _ => L.bind L.store fun s => L.pure _
  | and | or | equal | unequal => exact L.bind hboth fun _ => L.pure _
  | _ => exact L.fail hp rfl (by simp)

theorem holds_evalIf (hp : L.Place p) {args : List Expr} (hargs : ∀ e ∈ args, L.Keeps ev e) :
    L.Holds fun i => evalIf (ev i) (args.map (Expr.unmarkedIf (L.bare i))) (p i) := by
  rcases args with _ | ⟨condition, _ | ⟨consequence, more⟩⟩
  · exact L.fail hp rfl (by simp)
  · exact L.fail hp rfl (by simp)
  · -- The same branch is taken by all, since the condition has the same value.
    refine L.bind (hargs condition (by simp)).holds fun v => ?_
    refine ite (hargs consequence (by simp)).holds ?_
    rcases more with _ | ⟨otherwise, more⟩
    · exact L.pure _
    · exact (hargs otherwise (by simp)).holds

/-! ### Calls and members -/

theorem holds_evalAll {es : List Expr} (hes : ∀ e ∈ es, L.Keeps ev e) :
    L.Holds fun i => evalAll (ev i) (es.map (Expr.unmarkedIf (L.bare i))) := by
  induction es with
  | nil => exact L.pure _
  | cons e es ih =>
      refine L.bind (hes e (by simp)).holds fun v => ?_
      exact L.bind (ih fun e he => hes e (List.mem_cons_of_mem _ he)) fun vs => L.pure _

theorem holds_callMethod (hp : L.Place p) (object : Value) {name : String}
    (hcalled : Called L.allowed name) {args : List Expr} (hargs : ∀ e ∈ args, L.Keeps ev e) :
    L.Holds fun i =>
      callMethod (ev i) object name (args.map (Expr.unmarkedIf (L.bare i))) (p i) := by
  refine L.bind L.store fun s => ?_
  cases hmethod : findMethod? s object name with
  | none => exact L.fail hp rfl (by simp)
  | some method =>
      exact L.bind (holds_evalAll hargs) fun values =>
        L.reply hcalled hp (effect_call hmethod hcalled values)

theorem holds_evalMember {left right : Expr} (hleft : L.Keeps ev left)
    (hright : L.Keeps ev right) :
    L.Holds fun i => evalMember (ev i) (left.unmarkedIf (L.bare i))
      (right.unmarkedIf (L.bare i)) := by
  simp only [evalMember, Expr.path_unmarkedIf]
  refine L.bind hleft.holds fun object => ite ?_ (L.fail hleft.place rfl (by simp))
  -- A call behind a point is not evaluated itself, but its arguments are.
  cases right with
  | call name args m =>
      have hplace := hright.place
      simp only [Expr.unmarkedIf_call] at hplace ⊢
      exact holds_callMethod hplace object ⟨args, m, hright.allowed⟩ hright.args
  | literal _ _ | var _ _ | unary _ _ _ | binary _ _ _ _ | array _ _ =>
      have hkey := hright.holds
      simp only [Expr.unmarkedIf_literal, Expr.unmarkedIf_var, Expr.unmarkedIf_unary,
        Expr.unmarkedIf_binary, Expr.unmarkedIf_array] at hkey ⊢
      exact L.bind hkey fun key => L.bind L.store fun s => L.pure _

/-- Functions of the library come first, then those of the context. -/
theorem holds_callFunction (hp : L.Place p) {name : String} (hcalled : Called L.allowed name)
    {args : List Expr} (hargs : ∀ e ∈ args, L.Keeps ev e) :
    L.Holds fun i => callFunction (ev i) name (args.map (Expr.unmarkedIf (L.bare i))) (p i) := by
  have hvalues := holds_evalAll hargs
  have hnamed : Named L.allowed name := .inr hcalled
  refine L.look (fun i {m m'} h => ?_) fun m => ?_
  · simp only [h.contains hnamed]
  · cases hf : libraryFunction? (σ := σ) name with
    | some f =>
        exact L.bind hvalues fun values => L.reply hcalled hp (mild_libraryFunction hf values)
    | none =>
        refine ite (L.bind hvalues fun values => ?_) (L.fail hp rfl (by simp))
        -- The function is looked up again, under the same name.
        refine L.look (fun i {m m'} h => ?_) fun m => L.reply hcalled hp fun s => ?_
        · simp only [h.call hnamed]
        · unfold Context.call
          split
          · exact effect_ofHost (.apply s _ values)
          · exact .none s

/-! ### Slots -/

theorem holds_resolveName (hp : L.Place p) {name : String} (hname : Named L.allowed name) :
    L.Holds fun i => (resolveName name (p i) : Eval σ Slot) := by
  refine L.look (fun i {m m'} h => ?_) fun m => ?_
  · simp only [h.inFrame, h.contains hname]
  · exact ite (L.pure _) (ite (L.pure _) (L.fail hp rfl (by simp)))

theorem holds_resolveMember {left right : Expr} (hleft : L.Keeps ev left)
    (hright : L.Keeps ev right) :
    L.Holds fun i => resolveMember (ev i) (left.unmarkedIf (L.bare i))
      (right.unmarkedIf (L.bare i)) := by
  simp only [resolveMember, Expr.path_unmarkedIf]
  refine L.bind hleft.holds fun object => L.bind hright.holds fun key => L.bind L.store fun s => ?_
  exact ite (ite (L.pure _) (L.fail hright.place rfl (by simp))) (L.fail hleft.place rfl (by simp))

theorem holds_resolve {target : Expr} (htarget : L.Keeps ev target) :
    L.Holds fun i => resolve (ev i) (target.unmarkedIf (L.bare i)) := by
  have hplace := htarget.place
  have hnot : L.Holds fun i => (Eval.fail .typing
      (.notAssignable (describeTarget (target.unmarkedIf (L.bare i))))
      (target.unmarkedIf (L.bare i)).position : Eval σ Slot) := by
    -- The message shows the source text of the target, which has no marks in it.
    simp only [describeTarget, Expr.operator?_unmarkedIf, Expr.source_unmarkedIf]
    exact L.fail hplace rfl (by simp)
  cases target with
  | var name m =>
      simp only [Expr.unmarkedIf_var] at hplace ⊢
      exact holds_resolveName hplace (.inl ⟨m, htarget.allowed⟩)
  | binary op left right m =>
      simp only [Expr.unmarkedIf_binary] at hnot ⊢
      cases op with
      | dot | index => exact holds_resolveMember htarget.left htarget.right
      | _ => exact hnot
  | literal _ _ | unary _ _ _ | array _ _ | call _ _ _ =>
      simp only [Expr.unmarkedIf_literal, Expr.unmarkedIf_unary, Expr.unmarkedIf_array,
        Expr.unmarkedIf_call] at hnot ⊢
      exact hnot

/-! ### Nodes -/

theorem holds_evalForeach {budget : ι → Nat} (hsuits : L.Suits budget ev) (hp : L.Place p)
    (hcalled : Called L.allowed "foreach") {args : List Expr}
    (hargs : ∀ e ∈ args, L.Keeps ev e) :
    L.Holds fun i =>
      evalForeach (budget i) (ev i) (args.map (Expr.unmarkedIf (L.bare i))) (p i) := by
  rcases args with _ | ⟨item, _ | ⟨list, _ | ⟨body, _ | ⟨more, args⟩⟩⟩⟩
  · exact L.fail hp rfl (by simp)
  · exact L.fail hp rfl (by simp)
  · exact L.fail hp rfl (by simp)
  · have hitem := (hargs item (by simp)).place
    simp only [evalForeach, List.map_cons, List.map_nil, Expr.name?_unmarkedIf]
    cases item.name? with
    | none => exact L.fail hitem rfl (by simp)
    | some name =>
        exact hsuits.loop hcalled hitem (hargs list (by simp)) (hargs body (by simp))
  · exact L.fail hp rfl (by simp)

/-- A law holds of a node, if the node is allowed and the law holds of all that
    is below it. -/
theorem holds_evalNode {budget : ι → Nat} (hsuits : L.Suits budget ev) {e : Expr}
    (he : L.allowed e) (hbelow : ∀ n ∈ e.nodes.tail,
      L.allowed n ∧ L.Holds fun i => ev i (n.unmarkedIf (L.bare i))) :
    L.Holds fun i => evalNode (budget i) (ev i) (e.unmarkedIf (L.bare i)) := by
  have hplace := L.place he
  cases e with
  | literal value m =>
      simp only [Expr.unmarkedIf_literal]
      exact L.pure _
  | var name m =>
      simp only [Expr.unmarkedIf_var]
      refine L.look (fun i {m m'} h => ?_) fun m => L.pure _
      rw [h.lookup (.inl ⟨_, he⟩)]
  | unary op operand m =>
      have hoperand : L.Keeps ev operand := hbelow
      simp only [Expr.unmarkedIf_unary] at hplace ⊢
      cases op with
      | not => exact L.bind hoperand.holds fun v => L.pure _
      | increment => exact hsuits.assign (u := .step 1.0) he rfl hplace hoperand (L.pure _)
      | decrement => exact hsuits.assign (u := .step (-1.0)) he rfl hplace hoperand (L.pure _)
      | _ => exact L.fail hplace rfl (by simp)
  | binary op left right m =>
      have hleft : L.Keeps ev left := fun n hn => hbelow n (List.mem_append_left _ hn)
      have hright : L.Keeps ev right := fun n hn => hbelow n (List.mem_append_right _ hn)
      simp only [Expr.unmarkedIf_binary] at hplace ⊢
      cases op with
      | assign => exact hsuits.assign (u := .replace right) he rfl hplace hleft hright.holds
      | addAssign => exact hsuits.assign (u := .add right) he rfl hplace hleft hright.holds
      | subtractAssign =>
          exact hsuits.assign (u := .subtract right) he rfl hplace hleft hright.holds
      | dot | index => exact holds_evalMember hleft hright
      | _ =>
          simp only [evalNode]
          exact holds_evalOperator hplace _ hleft.holds hright.holds
  | array elements m =>
      have helements : ∀ e ∈ elements, L.Keeps ev e := fun e he n hn =>
        hbelow n (Expr.mem_nodesOf.mpr ⟨e, he, hn⟩)
      simp only [Expr.unmarkedIf_array]
      exact L.bind (holds_evalAll helements) fun values => L.newArray _
  | call name args m =>
      have hargs : ∀ e ∈ args, L.Keeps ev e := fun e he n hn =>
        hbelow n (Expr.mem_nodesOf.mpr ⟨e, he, hn⟩)
      have hcalled : Called L.allowed name := ⟨args, m, he⟩
      simp only [Expr.unmarkedIf_call] at hplace ⊢
      by_cases hif : name = "if"
      · subst hif
        exact holds_evalIf hplace hargs
      · by_cases hforeach : name = "foreach"
        · subst hforeach
          exact holds_evalForeach hsuits hplace hcalled hargs
        · simp only [evalNode]
          exact holds_callFunction hplace hcalled hargs

end Law

/-! ### Slots that are found -/

section Slots

variable {ev : Expr → Eval σ Value} {m m' : Machine σ} {slot : Slot}

theorem resolveName_eq_value {name : String} {p : Nat}
    (h : resolveName name p m = (.value slot, m')) :
    m' = m ∧ (slot = .frame name ∧ m.inFrame name = true ∨
      slot = .context name ∧ m.inFrame name = false ∧ m.context.contains name = true) := by
  rcases Eval.bind_eq_value h with ⟨m₁, m₂, hmachine, h⟩
  simp only [Eval.machine, Prod.mk.injEq, Outcome.value.injEq] at hmachine
  rcases hmachine with ⟨rfl, rfl⟩
  split at h
  · next hframe =>
    simp only [Pure.pure, Eval.pure, Prod.mk.injEq, Outcome.value.injEq] at h
    exact ⟨h.2.symm, .inl ⟨h.1.symm, hframe⟩⟩
  · next hframe =>
    split at h
    · next hcontains =>
      simp only [Pure.pure, Eval.pure, Prod.mk.injEq, Outcome.value.injEq] at h
      exact ⟨h.2.symm, .inr ⟨h.1.symm, by simpa using hframe, hcontains⟩⟩
    · simp [Eval.fail] at h

variable [Host σ]

/-- The slot of a member that is found, taken apart. -/
theorem resolveMember_eq_value {left right : Expr}
    (h : resolveMember ev left right m = (.value slot, m')) :
    ∃ object key m₁, ev left m = (.value object, m₁) ∧ ev right m₁ = (.value key, m') ∧
      object.isTruthy = true ∧ object.hasMember m'.store (key.toText m'.store) = true ∧
      slot = .member object (key.toText m'.store) := by
  rcases Eval.bind_eq_value h with ⟨object, m₁, hobject, h⟩
  rcases Eval.bind_eq_value h with ⟨key, m₂, hkey, h⟩
  rcases Eval.bind_eq_value h with ⟨s, m₃, hstore, h⟩
  simp only [Eval.store, Prod.mk.injEq, Outcome.value.injEq] at hstore
  rcases hstore with ⟨rfl, rfl⟩
  simp only at h
  split at h
  · next htruthy =>
    split at h
    · next hmember =>
      simp only [Pure.pure, Eval.pure, Prod.mk.injEq, Outcome.value.injEq] at h
      rcases h with ⟨rfl, rfl⟩
      exact ⟨object, key, m₁, hobject, hkey, htruthy, hmember, rfl⟩
    · simp [Eval.fail] at h
  · simp [Eval.fail] at h

/-- A name that is written is that of the variable assigned to. -/
theorem name_of_resolve {target : Expr} (h : resolve ev target m = (.value slot, m'))
    {name : String} (hslot : slot = .frame name ∨ slot = .context name) :
    ∃ mark, target = .var name mark := by
  unfold resolve at h
  split at h
  · next found mark =>
    refine ⟨mark, ?_⟩
    rcases (resolveName_eq_value h).2 with ⟨rfl, _⟩ | ⟨rfl, _, _⟩ <;> simp_all
  · rcases resolveMember_eq_value h with ⟨_, _, _, _, _, _, _, rfl⟩
    simp at hslot
  · rcases resolveMember_eq_value h with ⟨_, _, _, _, _, _, _, rfl⟩
    simp at hslot
  · simp [Eval.fail] at h

end Slots

/-! ### Free laws -/

/-- What assignments and loops do to the names of a machine. -/
inductive Machine.Change : (Machine σ → Machine σ) → Prop where
  | bindFrame (name : String) (value : Value) : Change (·.bindFrame name value)
  | bindContext (name : String) (value : Value) : Change (·.bindContext name value)
  | openFrame : Change Machine.openFrame
  | closeLoop (outermost : Bool) (name : String) : Change (Machine.closeLoop outermost name)

namespace Law

variable [Host σ] {ι : Type}

/-- Laws that hold of every change of names and of every operation on the store. -/
structure Free (L : Law σ ι) : Prop where
  perform : ∀ {α : Type} {p : ι → Nat} (operation : Store σ → Reply σ α), L.Place p →
    L.Holds fun i => Eval.reply operation (p i)
  update : ∀ {f : Machine σ → Machine σ}, Machine.Change f → L.Holds fun _ => Eval.update f
  andFinally : ∀ {α : Type} {x : ι → Eval σ α} {f : Machine σ → Machine σ}, L.Holds x →
    Machine.Change f → L.Holds fun i => (x i).andFinally f

namespace Free

variable {L : Law σ ι} {ev : ι → Expr → Eval σ Value} {p : ι → Nat}

theorem holds_writeSlot (hL : L.Free) (hp : L.Place p) (slot : Slot) (value : Value) :
    L.Holds fun i => (writeSlot slot value (p i) : Eval σ Unit) := by
  cases slot with
  | frame name => exact hL.update (.bindFrame name value)
  | context name =>
      refine L.bind L.store fun s => ?_
      cases Host.guardValue s name value with
      | some reason => exact L.fail hp rfl (by simp)
      | none => exact hL.update (.bindContext name value)
  | member object key => exact hL.perform _ hp

theorem holds_evalAssign (hL : L.Free) (hp : L.Place p) {target : Expr}
    (htarget : L.Keeps ev target) {u : Update}
    (hright : L.Holds fun i => (u.unmarkedIf (L.bare i)).right (ev i)) :
    L.Holds fun i => evalAssign (ev i) (target.unmarkedIf (L.bare i))
      (u.unmarkedIf (L.bare i)) (p i) := by
  refine L.bind_of (holds_resolve htarget) fun slot hslot => L.bind hright fun right => ?_
  have hresult (i : ι) (s : Store σ) (old right : Value) :
      (u.unmarkedIf (L.bare i)).result s old right = u.result s old right := by
    cases u <;> rfl
  -- A name that is read and written is one of the tree.
  have hnamed (name : String) (hname : slot = .frame name ∨ slot = .context name) :
      Named L.allowed name := by
    rcases hslot with ⟨i, m, m', hslot⟩
    rcases name_of_resolve hslot hname with ⟨mark, hvar⟩
    rcases Expr.eq_var_of_unmarkedIf hvar with ⟨mark', rfl⟩
    exact .inl ⟨mark', htarget.allowed⟩
  simp only [hresult]
  refine L.look (fun i {m m'} h => ?_) fun m => ?_
  · simp only [h.store, h.readSlot hnamed]
  · exact L.bind (hL.holds_writeSlot hp slot _) fun _ => L.pure _

theorem holds_loopText (hL : L.Free) {body : Expr} (hbody : L.Keeps ev body) (name : String)
    (cs : List Char) :
    L.Holds fun i => loopText (ev i) name (body.unmarkedIf (L.bare i)) cs := by
  induction cs with
  | nil => exact L.pure _
  | cons c cs ih =>
      exact L.bind (hL.update (.bindFrame name _)) fun _ => L.bind hbody.holds fun _ => ih

/-- The rounds of a loop over an array, if all are given the same budget and may
    give up. -/
theorem holds_loopArray (hL : L.Free) (hgiveUp : L.Holds fun _ => (Eval.giveUp : Eval σ Unit))
    {body : Expr} (hbody : L.Keeps ev body) (name : String) (r : ArrayRef) (budget : Nat) :
    ∀ place, L.Holds fun i =>
      loopArray (ev i) name r (body.unmarkedIf (L.bare i)) budget place := by
  induction budget with
  | zero => exact fun _ => hgiveUp
  | succ budget ih =>
      intro place
      -- The array is looked at afresh in each round.
      refine L.bind L.store fun s => ?_
      cases (s.elements r)[place]? with
      | none => exact L.pure _
      | some element =>
          exact L.bind (hL.update (.bindFrame name element)) fun _ =>
            L.bind hbody.holds fun _ => ih (place + 1)

theorem holds_evalLoop (hL : L.Free) (hp : L.Place p) {budget : ι → Nat} {list body : Expr}
    (hlist : L.Keeps ev list) (hbody : L.Keeps ev body) (name : String)
    (hrounds : ∀ r, L.Holds fun i =>
      loopArray (ev i) name r (body.unmarkedIf (L.bare i)) (budget i) 0) :
    L.Holds fun i => evalLoop (budget i) (ev i) name (p i) (list.unmarkedIf (L.bare i))
      (body.unmarkedIf (L.bare i)) := by
  refine L.look (fun i {m m'} h => ?_) fun m => ite (L.fail hp rfl (by simp)) ?_
  · simp only [h.inFrame, h.frames]
  · refine L.bind (hL.update .openFrame) fun _ => L.bind (hL.andFinally ?_ (.closeLoop _ name))
      fun _ => L.pure _
    refine L.bind hlist.holds fun v => ?_
    cases v with
    | array r => exact hrounds r
    | text t => exact hL.holds_loopText hbody name t.toList
    | _ => exact L.fail hlist.place rfl (by simp)

/-- A free law holds of assignments, and of loops if it holds of their rounds. -/
theorem suits (hL : L.Free) {budget : ι → Nat}
    (hrounds : ∀ {body : Expr}, L.Keeps ev body → ∀ (name : String) (r : ArrayRef),
      L.Holds fun i => loopArray (ev i) name r (body.unmarkedIf (L.bare i)) (budget i) 0) :
    L.Suits budget ev where
  assign _ _ hp htarget hright := hL.holds_evalAssign hp htarget hright
  loop _ hp hlist hbody := hL.holds_evalLoop hp hlist hbody _ (hrounds hbody _)

/-- A free law that lets rounds be given up holds of loops, with any budget. -/
theorem suits_of_giveUp (hL : L.Free) (hgiveUp : L.Holds fun _ => (Eval.giveUp : Eval σ Unit))
    (budget : Nat) : L.Suits (fun _ => budget) ev :=
  hL.suits fun hbody name r => hL.holds_loopArray hgiveUp hbody name r budget 0

end Free

end Law

end Scriptlet
