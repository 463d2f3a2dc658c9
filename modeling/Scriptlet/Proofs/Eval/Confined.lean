import Scriptlet.Proofs.Eval.Kept

/-!
# What Evaluation Looks At

Evaluating a tree is confined to the tree. Of the context it looks only at the
names of variables and calls that are in the tree, and of the places in a text
it blames only those of nodes that are in the tree.

The first is a statement about two runs: on machines that agree on these names,
and differ on all others as they like, evaluation ends the same way and leaves
machines that agree again. The second is about one run, and so is a third: what
is found while a tree is evaluated is never a fault of a kind that is found
before. They make one law together, since all are about what a routine of the
evaluator takes from the node that it is called for.

Only a few routines look at the machine as a whole, and each of them asks it one
question: what a name stands for, whether a name is there, or whether a loop
with some variable is running. Machines that agree are alike in this, so what is
done next is the same.

## Main definitions

* `Blamed`: The places of some nodes.
* `Machine.Agree`: Machines that differ at most in names of no concern.
* `Eval.Confined`: Evaluations that look at nothing but some nodes.
* `Law.confined`: Being confined, as a law.

## Theorems

* `Machine.Agree.alike`: Machines that agree give the same answers.
* `eval_confined`: Trees.
* `blamed_of_eval`, `kind_of_eval`: The place and the kind of what evaluation finds wrong.
* `eval_noninterference`: Evaluation does not depend on names that are not in the tree.
-/

namespace Scriptlet

variable {σ : Type}

/-- The places of some nodes. -/
def Blamed (allowed : Expr → Prop) (position : Nat) : Prop :=
  ∃ n, allowed n ∧ n.position = position

/-! ### Machines that agree -/

/-- Machines that are the same, but for what names of no concern stand for in
    the context. -/
structure Machine.Agree (names : String → Prop) (m m' : Machine σ) : Prop where
  store : m'.store = m.store
  frames : m'.frames = m.frames
  depth : m'.depth = m.depth
  context : ∀ name, names name → m'.context.get? name = m.context.get? name

namespace Machine.Agree

variable {names : String → Prop} {m m' : Machine σ}

theorem refl (m : Machine σ) : m.Agree names m :=
  ⟨rfl, rfl, rfl, fun _ _ => rfl⟩

/-- Machines that agree give the same answers. -/
theorem alike (h : m.Agree names m') : m.Alike names m' :=
  ⟨h.store, h.frames, h.context⟩

/-- What changes frames, by what frames there are, keeps machines in agreement. -/
theorem changeFrames (h : m.Agree names m')
    (change : List (Record Value) → List (Record Value)) :
    Agree names { m with frames := change m.frames } { m' with frames := change m'.frames } :=
  ⟨h.store, congrArg change h.frames, h.depth, h.context⟩

theorem changeStore (h : m.Agree names m') (s : Store σ) :
    Agree names { m with store := s } { m' with store := s } :=
  ⟨rfl, h.frames, h.depth, h.context⟩

theorem bindFrame (h : m.Agree names m') (name : String) (value : Value) :
    (m.bindFrame name value).Agree names (m'.bindFrame name value) :=
  h.changeFrames (·.modifyHead (·.insert name value))

theorem bindContext (h : m.Agree names m') (name : String) (value : Value) :
    (m.bindContext name value).Agree names (m'.bindContext name value) := by
  refine ⟨h.store, h.frames, h.depth, fun other hother => ?_⟩
  simp only [Machine.bindContext, Record.get?_insert, h.context other hother]

theorem openFrame (h : m.Agree names m') : m.openFrame.Agree names m'.openFrame := by
  unfold Machine.openFrame
  rw [h.frames]
  split
  · exact ⟨h.store, rfl, h.depth, h.context⟩
  · exact h

theorem closeLoop (h : m.Agree names m') (outermost : Bool) (name : String) :
    (m.closeLoop outermost name).Agree names (m'.closeLoop outermost name) := by
  cases outermost with
  | true => exact h.changeFrames List.tail
  | false => exact h.changeFrames (·.modifyHead (·.erase name))

theorem change (h : m.Agree names m') {f : Machine σ → Machine σ} (hf : Machine.Change f) :
    (f m).Agree names (f m') := by
  cases hf with
  | bindFrame name value => exact h.bindFrame name value
  | bindContext name value => exact h.bindContext name value
  | openFrame => exact h.openFrame
  | closeLoop outermost name => exact h.closeLoop outermost name

theorem enter (h : m.Agree names m') : m.enter.Agree names m'.enter :=
  ⟨h.store, h.frames, congrArg (· + 1) h.depth, h.context⟩

theorem leave (h : m.Agree names m') : m.leave.Agree names m'.leave :=
  ⟨h.store, h.frames, congrArg (· - 1) h.depth, h.context⟩

end Machine.Agree

/-! ### Confined evaluations -/

/-- An evaluation that looks at nothing but some nodes. On machines that agree on
    their names it ends the same way and leaves machines that agree on them, and
    if it fails one of the nodes is to blame, for something that is found while a
    script runs. -/
def Eval.Confined {α : Type} (allowed : Expr → Prop) (x : Eval σ α) : Prop :=
  ∀ m m', m.Agree (Named allowed) m' →
    (x m').1 = (x m).1 ∧ (x m).2.Agree (Named allowed) (x m').2 ∧
      ∀ e, (x m).1 = .failed e → Blamed allowed e.position ∧ e.kind.isCompileTime = false

namespace Eval.Confined

variable {α β : Type} {allowed : Expr → Prop}

theorem pure (a : α) : Confined allowed (Pure.pure a : Eval σ α) :=
  fun _ _ h => ⟨rfl, h, fun _ he => by simp [Pure.pure, Eval.pure] at he⟩

theorem giveUp : Confined allowed (Eval.giveUp : Eval σ α) :=
  fun _ _ h => ⟨rfl, h, fun _ he => by simp [Eval.giveUp] at he⟩

theorem fail {kind : IssueKind} {position : Nat} (hblamed : Blamed allowed position)
    (hkind : kind.isCompileTime = false) (cause : Cause) :
    Confined allowed (Eval.fail kind cause position : Eval σ α) := by
  intro m m' h
  refine ⟨rfl, h, fun e he => ?_⟩
  simp only [Eval.fail, Outcome.failed.injEq] at he
  rw [← he]
  exact ⟨hblamed, hkind⟩

theorem store : Confined allowed (Eval.store : Eval σ (Store σ)) :=
  fun _ _ h => ⟨congrArg Outcome.value h.store, h, fun _ he => by simp [Eval.store] at he⟩

theorem update {f : Machine σ → Machine σ}
    (hf : ∀ {m m'}, m.Agree (Named allowed) m' → (f m).Agree (Named allowed) (f m')) :
    Confined allowed (Eval.update f) :=
  fun _ _ h => ⟨rfl, hf h, fun _ he => by simp [Eval.update] at he⟩

theorem reply {position : Nat} (hblamed : Blamed allowed position)
    (operation : Store σ → Reply σ α) : Confined allowed (Eval.reply operation position) := by
  intro m m' h
  simp only [Eval.reply, h.store]
  rcases operation m.store with ⟨result, s⟩
  cases result with
  | ok a => exact ⟨rfl, h.changeStore s, fun _ he => by simp at he⟩
  | error refusal =>
      refine ⟨rfl, h.changeStore s, fun e he => ?_⟩
      simp only [Outcome.failed.injEq] at he
      rw [← he]
      exact ⟨hblamed, rfl⟩

theorem allocate (add : Store σ → α × Store σ) : Confined allowed (Eval.allocate add) := by
  intro m m' h
  simp only [Eval.allocate, h.store]
  exact ⟨trivial, h.changeStore _, fun _ he => by simp at he⟩

/-- One evaluation after another. What is known of a value of the first may be
    used for the second. -/
theorem bind_of {x : Eval σ α} {f : α → Eval σ β} (hx : Confined allowed x)
    (hf : ∀ a, (∃ m m₁, x m = (.value a, m₁)) → Confined allowed (f a)) :
    Confined allowed (x >>= f) := by
  intro m m' h
  rcases hx m m' h with ⟨hsame, hagree, hblamed⟩
  simp only [Bind.bind, Eval.bind]
  rcases hxm : x m with ⟨outcome, m₁⟩
  rcases hxm' : x m' with ⟨outcome', m₁'⟩
  rw [hxm, hxm'] at hsame hagree
  rw [hxm] at hblamed
  simp only at hsame hagree hblamed
  subst hsame
  cases outcome' with
  | value a => exact hf a ⟨m, m₁, hxm⟩ m₁ m₁' hagree
  | failed e =>
      refine ⟨rfl, hagree, fun e' he => hblamed e' ?_⟩
      simpa using he
  | unfinished => exact ⟨rfl, hagree, fun _ he => by simp at he⟩

/-- A look at the machine, if what is done next is the same for machines that
    agree. -/
theorem machine {f : Machine σ → Eval σ α}
    (hsame : ∀ {m m'}, m.Agree (Named allowed) m' → f m' = f m)
    (hf : ∀ m, Confined allowed (f m)) : Confined allowed (Eval.machine >>= f) := by
  intro m m' h
  have hnext : (Eval.machine >>= f) m' = f m m' := congrFun (hsame h) m'
  rw [hnext]
  exact hf m m m' h

theorem andFinally {x : Eval σ α} (hx : Confined allowed x) {f : Machine σ → Machine σ}
    (hf : ∀ {m m'}, m.Agree (Named allowed) m' → (f m).Agree (Named allowed) (f m')) :
    Confined allowed (x.andFinally f) := by
  intro m m' h
  rcases hx m m' h with ⟨hsame, hagree, hblamed⟩
  exact ⟨hsame, hf hagree, hblamed⟩

theorem nested {x : Eval σ α} (hx : Confined allowed x) : Confined allowed x.nested :=
  (update Machine.Agree.enter).bind_of fun _ _ => hx.andFinally Machine.Agree.leave

end Eval.Confined

/-! ### Trees -/

open Eval (Confined)

theorem Expr.Allowed.blamed {allowed : Expr → Prop} {e : Expr} (he : e.Allowed allowed) :
    Blamed allowed e.position :=
  ⟨e, he.self, rfl⟩

section Trees

variable [Host σ]

/-- Being confined is a law of one evaluation. -/
def Law.confined (σ : Type) [Host σ] (allowed : Expr → Prop) : Law σ Unit where
  Holds x := Confined allowed (x ())
  allowed := allowed
  bare _ := false
  Place p := Blamed allowed (p ())
  place hn := ⟨_, hn, rfl⟩
  pure a := .pure a
  bind_of hx hf := hx.bind_of fun a ha => hf a ⟨(), ha⟩
  fail hp hkind _ := .fail hp hkind _
  look hsame hf := .machine (fun h => hsame () h.alike) hf
  store := .store
  newArray _ := .allocate _
  reply _ hp _ := .reply hp _

/-- Both machines are written alike, so they go on agreeing, whatever the name. -/
theorem Law.confined_free (allowed : Expr → Prop) : (Law.confined σ allowed).Free where
  perform operation hp := .reply hp operation
  update hf := .update (·.change hf)
  andFinally hx hf := hx.andFinally (·.change hf)

variable {allowed : Expr → Prop}

theorem eval_confined (budget : Nat) : ∀ (levels : Nat) {e : Expr}, e.Allowed allowed →
    Confined allowed (eval budget levels e : Eval σ Value) := by
  intro levels
  induction levels with
  | zero => intro e he; exact .fail he.blamed rfl _
  | succ levels ih =>
      intro e he
      have hsuits : (Law.confined σ allowed).Suits (fun _ => budget) fun _ => eval budget levels :=
        (Law.confined_free allowed).suits_of_giveUp .giveUp budget
      have hnode : Confined allowed (evalNode budget (eval budget levels) e : Eval σ Value) :=
        Law.holds_evalNode hsuits he.self fun n hn =>
          ⟨he n (List.mem_of_mem_tail hn), ih (he.part (List.mem_of_mem_tail hn))⟩
      exact hnode.nested

/-- What fails to be evaluated blames one of its nodes. -/
theorem blamed_of_eval (budget levels : Nat) {e : Expr} {m m' : Machine σ} {error : Fault}
    (h : eval budget levels e m = (.failed error, m')) :
    ∃ n ∈ e.nodes, n.position = error.position := by
  have hself : e.Allowed (· ∈ e.nodes) := fun _ hn => hn
  have hconfined := eval_confined (σ := σ) budget levels hself m m (.refl m)
  exact (hconfined.2.2 error (congrArg Prod.fst h)).1

/-- What fails to be evaluated has a fault that is found while a script runs. -/
theorem kind_of_eval (budget levels : Nat) {e : Expr} {m m' : Machine σ} {error : Fault}
    (h : eval budget levels e m = (.failed error, m')) : error.kind.isCompileTime = false := by
  have hself : e.Allowed (· ∈ e.nodes) := fun _ hn => hn
  have hconfined := eval_confined (σ := σ) budget levels hself m m (.refl m)
  exact (hconfined.2.2 error (congrArg Prod.fst h)).2

/-- Evaluation does not depend on names that are not in the tree. On machines that
    agree on the names of its variables and calls it has the same outcome, and
    they agree again, stores included. And however it ends, a name of the context
    that no node assigns to stands for what it did. -/
theorem eval_noninterference (budget levels : Nat) (e : Expr) :
    (∀ m m' : Machine σ, m.Agree (Named (· ∈ e.nodes)) m' →
      (eval budget levels e m').1 = (eval budget levels e m).1 ∧
      (eval budget levels e m).2.Agree (Named (· ∈ e.nodes)) (eval budget levels e m').2) ∧
    ∀ (m : Machine σ) (name : String), ¬ Assigned (· ∈ e.nodes) name →
      (eval budget levels e m).2.context.get? name = m.context.get? name := by
  have hself : e.Allowed (· ∈ e.nodes) := fun _ hn => hn
  refine ⟨fun m m' h => ?_, fun m name hname => ?_⟩
  · rcases eval_confined budget levels hself m m' h with ⟨hsame, hagree, _⟩
    exact ⟨hsame, hagree⟩
  · exact (course_of_eval budget levels hself m).get?_context hname

end Trees

/-- A loop that adds up a text, run with and without a secret beside it. -/
theorem noninterference_of_secret :
    ∃ (e : Expr) (m m' : Machine Unit),
      Expr.parse "foreach(x, \"ab\", s += x)".toList = .ok e ∧
      m.context.get? "z" = some (.text "secret") ∧ m'.context.get? "z" = none ∧
      m.Agree (Named (· ∈ e.nodes)) m' ∧ (eval 9 4 e m').1 = (eval 9 4 e m).1 ∧
      (eval 9 4 e m).2.Agree (Named (· ∈ e.nodes)) (eval 9 4 e m').2 ∧
      (eval 9 4 e m).2.context.get? "s" = some (.text "ab") ∧
      (eval 9 4 e m).2.context.get? "z" = some (.text "secret") := by
  have hscan : Scan.ofText "foreach(x, \"ab\", s += x)".toList =
      ⟨[⟨.function "foreach", 0, 7, 0⟩, ⟨.opening .round, 7, 8, 0⟩, ⟨.name "x", 8, 9, 1⟩,
        ⟨.comma, 9, 10, 1⟩, ⟨.constant (.text "ab"), 11, 15, 1⟩, ⟨.comma, 15, 16, 1⟩,
        ⟨.name "s", 17, 19, 1⟩, ⟨.operator .addAssign, 19, 21, 1⟩, ⟨.name "x", 22, 23, 1⟩,
        ⟨.closing .round, 23, 24, 1⟩], .complete 24 0⟩ := by
    with_unfolding_all rfl
  have hparse : Expr.parse "foreach(x, \"ab\", s += x)".toList =
      .ok (.call "foreach" [.var "x" ⟨8, 10⟩, .literal (.text "ab") ⟨11, 10⟩,
        .binary .addAssign (.var "s" ⟨17, 10⟩) (.var "x" ⟨22, 10⟩) ⟨19, 12⟩] ⟨0, 0⟩) := by
    rw [Expr.parse, hscan]
    rfl
  have hagree : Machine.Agree (Named (· ∈ Expr.nodes (.call "foreach"
        [.var "x" ⟨8, 10⟩, .literal (.text "ab") ⟨11, 10⟩,
          .binary .addAssign (.var "s" ⟨17, 10⟩) (.var "x" ⟨22, 10⟩) ⟨19, 12⟩] ⟨0, 0⟩)))
      (⟨.empty 0 (), .ofList [("s", .text ""), ("z", .text "secret")], [], 0⟩ : Machine Unit)
      ⟨.empty 0 (), .ofList [("s", .text "")], [], 0⟩ := by
    refine ⟨rfl, rfl, rfl, ?_⟩
    rintro name (⟨mark, hname⟩ | ⟨args, mark, hname⟩)
    · simp [Expr.nodes, Expr.nodesOf] at hname
      rcases hname with ⟨rfl, _⟩ | ⟨rfl, _⟩ | ⟨rfl, _⟩ <;> rfl
    · simp [Expr.nodes, Expr.nodesOf] at hname
      rcases hname with ⟨rfl, _⟩
      rfl
  rcases eval_noninterference (σ := Unit) 9 4 _ with ⟨htwo, hone⟩
  rcases htwo _ _ hagree with ⟨hsame, hbehind⟩
  refine ⟨_, _, _, hparse, rfl, rfl, hagree, hsame, hbehind, rfl, hone _ "z" ?_⟩
  rintro ⟨n, mark, hn, htarget⟩
  simp [Expr.nodes, Expr.nodesOf] at hn
  rcases hn with rfl | rfl | rfl | rfl | rfl | rfl <;> simp [Expr.target?] at htarget

end Scriptlet
