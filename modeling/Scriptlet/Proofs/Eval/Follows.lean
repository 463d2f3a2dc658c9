import Scriptlet.Proofs.Eval.Law

/-!
# Evaluations That Follow a Course

Every evaluation takes its machine on a course. This is a law of two evaluations
at once, of which the second is the same as the first on machines with some
property that courses keep. So it also says that nothing goes wrong in between:
if the second evaluates subtrees like the first on such machines and does
something else on all others, then it never comes to the others.

Assignments need more than the building blocks. Whether there is a slot to write
is found out before the right side is evaluated, and it is written afterwards. A
slot that is there stays there along a course, and this is what makes the write
one of those that a course allows. Loops need more as well, since their rounds
may do what nothing else may, which is to give values to a variable of the frame.

## Main definitions

* `Eval.FollowsAt`, `Eval.Follows`: Two evaluations that are the same and follow a course.
* `Upheld`: Properties of machines that last as long as an evaluation.
* `Law.follows`: Following a course, as a law.
* `Slot.There`: A slot that is there to be written.

## Theorems

* `Eval.Follows.bind`: One evaluation after another.
* `evalLoop_follows`: Loops.
* `there_of_resolve`, `Slot.There.course`: A slot that is found is there, and stays there.
* `evalAssign_follows`: Assignments.
* `evalNode_follows`: Nodes, given their subtrees.
-/

namespace Scriptlet

open Store (Effect)

variable {σ : Type}

/-! ### Evaluations that follow a course -/

/-- On a machine, two evaluations are the same and take it on a course. -/
def Eval.FollowsAt {α : Type} [Host σ] (allowed : Expr → Prop) (item? : Option String)
    (x y : Eval σ α) (m : Machine σ) : Prop :=
  y m = x m ∧ Course allowed item? m (x m).2

/-- A property of machines that every course keeps, and that a loop can be
    begun with. -/
structure Upheld [Host σ] (allowed : Expr → Prop) (S : Machine σ → Prop) : Prop where
  course : ∀ {item? : Option String} {m m' : Machine σ},
    Course allowed item? m m' → S m → S m'
  openFrame : ∀ {m : Machine σ}, S m → S m.openFrame

/-- On the machines with a property, two evaluations are the same and take
    them on a course. -/
def Eval.Follows {α : Type} [Host σ] (allowed : Expr → Prop) (S : Machine σ → Prop)
    (item? : Option String) (x y : Eval σ α) : Prop :=
  ∀ m, S m → Eval.FollowsAt allowed item? x y m

namespace Eval.FollowsAt

variable {α β : Type} [Host σ] {allowed : Expr → Prop} {item? : Option String}
  {m : Machine σ}

theorem bind {x y : Eval σ α} {f g : α → Eval σ β} (hx : FollowsAt allowed item? x y m)
    (hf : ∀ a m', x m = (.value a, m') → FollowsAt allowed item? (f a) (g a) m') :
    FollowsAt allowed item? (x >>= f) (y >>= g) m := by
  rcases hx with ⟨hsame, hcourse⟩
  simp only [FollowsAt, Bind.bind, Eval.bind, hsame]
  rcases hxm : x m with ⟨outcome, m'⟩
  rw [hxm] at hcourse
  cases outcome with
  | value a =>
      rcases hf a m' hxm with ⟨hsame', hcourse'⟩
      exact ⟨hsame', hcourse.trans hcourse'⟩
  | failed _ | unfinished => exact ⟨rfl, hcourse⟩

theorem unchanged {x : Eval σ α} (h : (x m).2 = m) : FollowsAt allowed item? x x m := by
  refine ⟨rfl, ?_⟩
  rw [h]
  exact .refl m

theorem reply {operation : Store σ → Reply σ α}
    (h : Effect (Called allowed) m.store (operation m.store).2) (position : Nat) :
    FollowsAt allowed none (Eval.reply operation position) (Eval.reply operation position) m := by
  refine ⟨rfl, ?_⟩
  have hstore : (Eval.reply operation position m).2 =
      { m with store := (operation m.store).2 } := by
    unfold Eval.reply
    split <;> next heq => rw [heq]
  rw [hstore]
  exact .store h

end Eval.FollowsAt

namespace Eval.Follows

variable {α β : Type} [Host σ] {allowed : Expr → Prop} {S : Machine σ → Prop}
  {item? : Option String}

theorem bind_of (hS : Upheld allowed S) {x y : Eval σ α} {f g : α → Eval σ β}
    (hx : Follows allowed S item? x y)
    (hf : ∀ a, (∃ m m', x m = (.value a, m')) → Follows allowed S item? (f a) (g a)) :
    Follows allowed S item? (x >>= f) (y >>= g) := by
  intro m hm
  refine (hx m hm).bind fun a m' hvalue => hf a ⟨m, m', hvalue⟩ m' ?_
  have hcourse := (hx m hm).2
  rw [hvalue] at hcourse
  exact hS.course hcourse hm

theorem bind (hS : Upheld allowed S) {x y : Eval σ α} {f g : α → Eval σ β}
    (hx : Follows allowed S item? x y) (hf : ∀ a, Follows allowed S item? (f a) (g a)) :
    Follows allowed S item? (x >>= f) (y >>= g) :=
  hx.bind_of hS fun a _ => hf a

theorem unchanged {x : Eval σ α} (h : ∀ m, (x m).2 = m) : Follows allowed S item? x x :=
  fun m _ => .unchanged (h m)

theorem pure (a : α) : Follows allowed S item? (Pure.pure a : Eval σ α) (Pure.pure a) :=
  unchanged fun _ => rfl

theorem fail (kind : IssueKind) (cause : Cause) (position : Nat) :
    Follows allowed S item? (Eval.fail kind cause position : Eval σ α)
      (Eval.fail kind cause position) :=
  unchanged fun _ => rfl

theorem store : Follows allowed S item? (Eval.store : Eval σ (Store σ)) Eval.store :=
  unchanged fun _ => rfl

theorem machine : Follows allowed S item? (Eval.machine : Eval σ (Machine σ)) Eval.machine :=
  unchanged fun _ => rfl

theorem reply {operation : Store σ → Reply σ α}
    (h : ∀ s, Effect (Called allowed) s (operation s).2) (position : Nat) :
    Follows allowed S none (Eval.reply operation position) (Eval.reply operation position) :=
  fun m _ => .reply (h m.store) position

theorem inside {name : String} {x y : Eval σ α} (h : Follows allowed S none x y) :
    Follows allowed S (some name) x y :=
  fun m hm => ⟨(h m hm).1, .body (h m hm).2⟩

theorem nested {S' : Machine σ → Prop} {x y : Eval σ α} (h : Follows allowed S' none x y)
    (henter : ∀ m, S m → S' m.enter) : Follows allowed S none x.nested y.nested := by
  intro m hm
  rcases h m.enter (henter m hm) with ⟨hsame, hcourse⟩
  refine ⟨?_, .nested hcourse⟩
  simp only [Eval.nested, Bind.bind, Eval.bind, Eval.update, Eval.andFinally, hsame]

end Eval.Follows

open Eval (Follows FollowsAt)

section Nodes

variable [Host σ] {allowed : Expr → Prop} {S : Machine σ → Prop} {ev ev' : Expr → Eval σ Value}

/-- Following a course is a law of two evaluations of the same tree. -/
def Law.follows (hS : Upheld allowed S) : Law σ Bool where
  Holds x := Follows allowed S none (x true) (x false)
  allowed := allowed
  bare _ := false
  Place := SamePlace
  place {n} _ := .of_tree n
  pure a := .pure a
  bind_of hx hf := hx.bind_of hS fun a ha => hf a ⟨true, ha⟩
  fail hp _ _ := by
    simp only [hp.eq]
    exact .fail _ _ _
  look _ hf := Follows.machine.bind hS hf
  store := .store
  newArray elements := fun m _ => ⟨rfl, .store (.array m.store elements)⟩
  reply _ hp heffect := by
    simp only [hp.eq]
    exact .reply heffect _

/-! ### Loops -/

theorem next_follows (name : String) (value : Value) :
    Follows allowed S (some name) (Eval.update (·.bindFrame name value) : Eval σ Unit)
      (Eval.update (·.bindFrame name value)) :=
  fun m _ => ⟨rfl, .next m value⟩

theorem loopArray_follows (hS : Upheld allowed S) {body : Expr}
    (hbody : Follows allowed S none (ev body) (ev' body)) (name : String) (r : ArrayRef)
    (budget : Nat) : ∀ place, Follows allowed S (some name)
      (loopArray ev name r body budget place) (loopArray ev' name r body budget place) := by
  induction budget with
  | zero => intro place; exact .unchanged fun _ => rfl
  | succ budget ih =>
      intro place
      refine Follows.store.bind hS fun s => ?_
      cases (s.elements r)[place]? with
      | none => exact .pure _
      | some element =>
          exact (next_follows name element).bind hS fun _ =>
            hbody.inside.bind hS fun _ => ih (place + 1)

theorem loopText_follows (hS : Upheld allowed S) {body : Expr}
    (hbody : Follows allowed S none (ev body) (ev' body)) (name : String) (cs : List Char) :
    Follows allowed S (some name) (loopText ev name body cs) (loopText ev' name body cs) := by
  induction cs with
  | nil => exact .pure _
  | cons c cs ih =>
      exact (next_follows name _).bind hS fun _ => hbody.inside.bind hS fun _ => ih

theorem iterate_follows (hS : Upheld allowed S) (budget : Nat) {list body : Expr}
    (hlist : Follows allowed S none (ev list) (ev' list))
    (hbody : Follows allowed S none (ev body) (ev' body)) (name : String) :
    Follows allowed S (some name) (iterate budget ev name list body)
      (iterate budget ev' name list body) := by
  refine hlist.inside.bind hS fun v => ?_
  cases v with
  | array r => exact loopArray_follows hS hbody name r budget 0
  | text t => exact loopText_follows hS hbody name t.toList
  | _ => exact .fail _ _ _

theorem evalLoop_follows (hS : Upheld allowed S) (budget : Nat) {list body : Expr}
    (hlist : Follows allowed S none (ev list) (ev' list))
    (hbody : Follows allowed S none (ev body) (ev' body)) (name : String) {p p' : Nat}
    (hp : p = p') :
    Follows allowed S none (evalLoop budget ev name p list body)
      (evalLoop budget ev' name p' list body) := by
  subst hp
  intro m hm
  rcases iterate_follows hS budget hlist hbody name m.openFrame (hS.openFrame hm) with
    ⟨hsame, hrounds⟩
  by_cases hframe : m.inFrame name = true
  · simp only [FollowsAt, evalLoop, Bind.bind, Eval.bind, Eval.machine, hframe, if_true]
    exact ⟨trivial, .refl m⟩
  · -- However the rounds end, what the loop added is taken away behind them.
    rw [Bool.not_eq_true] at hframe
    simp only [FollowsAt, evalLoop, Bind.bind, Eval.bind, Eval.machine, Eval.update,
      Eval.andFinally, hframe, Bool.false_eq_true, if_false, hsame]
    rcases hiterate : iterate budget ev name list body m.openFrame with ⟨outcome, m'⟩
    rw [hiterate] at hrounds
    cases outcome with
    | value _ | failed _ | unfinished => exact ⟨trivial, .loop hframe hrounds⟩

/-! ### Assignments -/

/-- A slot that is there to be written. The keys of objects are only there for
    sure if no host takes them away. -/
def Slot.There (allowed : Expr → Prop) (m : Machine σ) : Slot → Prop
  | .frame name => Assigned allowed name ∧ m.inFrame name = true
  | .context name =>
    Assigned allowed name ∧ m.inFrame name = false ∧ m.context.contains name = true
  | .member object key => Host.Discreet σ → ∀ r, object = .object r →
    (m.store.fields r).contains key = true

theorem Slot.There.course {slot : Slot} {m m' : Machine σ} (h : slot.There allowed m)
    (hcourse : Course allowed none m m') : slot.There allowed m' := by
  cases slot with
  | frame name =>
      refine ⟨h.1, ?_⟩
      rw [Machine.inFrame_of_frameNames_eq hcourse.frameNames_eq]
      exact h.2
  | context name =>
      refine ⟨h.1, ?_, ?_⟩
      · rw [Machine.inFrame_of_frameNames_eq hcourse.frameNames_eq]
        exact h.2.1
      · rw [hcourse.contains_context]
        exact h.2.2
  | member object key =>
      intro hhost r hobject
      exact (hcourse.keepsKeys hhost).contains_fields (h hhost r hobject)

theorem there_of_resolveName {name : String} {p : Nat} {m m' : Machine σ} {slot : Slot}
    (hassigned : Assigned allowed name) (h : resolveName name p m = (.value slot, m')) :
    slot.There allowed m' := by
  rcases resolveName_eq_value h with ⟨rfl, ⟨rfl, hframe⟩ | ⟨rfl, hhidden, hcontains⟩⟩
  · exact ⟨hassigned, hframe⟩
  · exact ⟨hassigned, hhidden, hcontains⟩

theorem there_of_resolveMember {left right : Expr} {m m' : Machine σ} {slot : Slot}
    (h : resolveMember ev left right m = (.value slot, m')) : slot.There allowed m' := by
  rcases resolveMember_eq_value h with ⟨object, key, m₁, _, _, _, hmember, rfl⟩
  rintro _ r rfl
  exact hmember

theorem there_of_resolve {n target : Expr} {m m' : Machine σ} {slot : Slot} (hn : allowed n)
    (htarget : n.target? = some target) (h : resolve ev target m = (.value slot, m')) :
    slot.There allowed m' := by
  unfold resolve at h
  split at h
  · exact there_of_resolveName ⟨n, _, hn, htarget⟩ h
  · exact there_of_resolveMember h
  · exact there_of_resolveMember h
  · simp [Eval.fail] at h

theorem writeSlot_follows {slot : Slot} {m : Machine σ} (h : slot.There allowed m) (value : Value)
    (p : Nat) : FollowsAt allowed none (writeSlot slot value p) (writeSlot slot value p) m := by
  refine ⟨rfl, ?_⟩
  cases slot with
  | frame name => exact .frame value h.1 h.2
  | context name =>
      simp only [writeSlot, Bind.bind, Eval.bind, Eval.store]
      cases Host.guardValue m.store name value with
      | some reason => exact .refl m
      | none => exact .context value h.1 h.2.1 h.2.2
  | member object key => exact (FollowsAt.reply (effect_setMember h value) p).2

theorem evalAssign_follows (hS : Upheld allowed S) {n target : Expr} (hn : allowed n)
    (hassigns : n.target? = some target)
    (hresolve : Follows allowed S none (resolve ev target) (resolve ev' target)) {u : Update}
    (hright : Follows allowed S none (u.right ev) (u.right ev')) {p p' : Nat} (hp : p = p') :
    Follows allowed S none (evalAssign ev target u p) (evalAssign ev' target u p') := by
  subst hp
  intro m hm
  refine (hresolve m hm).bind fun slot m₁ hslot => ?_
  -- The slot is there now, and still when the right side has been evaluated.
  have hthere := there_of_resolve hn hassigns hslot
  have hcourse := (hresolve m hm).2
  rw [hslot] at hcourse
  have hright₁ := hright m₁ (hS.course hcourse hm)
  refine hright₁.bind fun right m₂ hvalue => ?_
  have hcourse₁ := hright₁.2
  rw [hvalue] at hcourse₁
  have hthere₂ := hthere.course hcourse₁
  have hmachine : FollowsAt allowed none Eval.machine Eval.machine m₂ := .unchanged rfl
  refine hmachine.bind fun m₃ m₄ heq => ?_
  simp only [Eval.machine, Prod.mk.injEq, Outcome.value.injEq] at heq
  rcases heq with ⟨rfl, rfl⟩
  exact (writeSlot_follows hthere₂ _ p).bind fun _ _ _ => .unchanged rfl

/-! ### Nodes -/

theorem Law.follows_suits (hS : Upheld allowed S) (budget : Nat) :
    (Law.follows hS).Suits (fun _ => budget) fun i => cond i ev ev' where
  assign hn hassigns hp htarget hright :=
    evalAssign_follows hS hn hassigns (Law.holds_resolve htarget) hright hp
  loop _ hp hlist hbody := evalLoop_follows hS budget hlist.holds hbody.holds _ hp

/-- A node, given that its subtrees are evaluated on a course. -/
theorem evalNode_follows (hS : Upheld allowed S)
    (hev : ∀ c : Expr, c.Allowed allowed → Follows allowed S none (ev c) (ev' c)) (budget : Nat)
    {e : Expr} (he : e.Allowed allowed) :
    Follows allowed S none (evalNode budget ev e) (evalNode budget ev' e) :=
  Law.holds_evalNode (Law.follows_suits hS budget) he.self fun n hn =>
    ⟨he n (List.mem_of_mem_tail hn), hev n (he.part (List.mem_of_mem_tail hn))⟩

end Nodes

end Scriptlet
