import Scriptlet.Proofs.Eval.Shadow

/-!
# Evaluation without Writing

A tree that assigns nothing and calls nothing (`Expr.Quiet`) can still change the
machine, because an array that is written out is a new one each time. That is all
that it can do: the machine afterwards is the one before with more arrays behind
those that were there. Nor can it fail to end, having no loops.

A tree of names, constants and members of these (`Expr.isAccess`) does not even
do that. It leaves the machine as it is. What it gives is one of the values that
the machine has somewhere, so it is no host object unless there are some.

## Main definitions

* `Expr.isAccess`, `Expr.Quiet`: Trees that read, and trees that do not write.
* `Machine.GrowsTo`, `Eval.OnlyGrows`: Machines with more arrays, and what leads to them.
* `Law.onlyGrows`: Doing nothing but make arrays, as a law of trees that do not write.
* `Machine.HostFree`: Machines without host objects.

## Theorems

* `eval_onlyGrows`: A quiet tree ends and does nothing but make arrays.
* `Machine.HostFree.getMember`: Members of values that are not host objects.
* `eval_access`: An access leaves the machine alone and gives no host object.
-/

namespace Scriptlet

variable {σ : Type}

/-! ### Trees that do not write -/

/-- Whether a tree is made of names, constants and members of these. -/
def Expr.isAccess : Expr → Bool
  | .literal _ _ | .var _ _ => true
  | .binary op left right _ => op.isMember && left.isAccess && right.isAccess
  | _ => false

/-- Trees that assign nothing and call nothing. -/
def Expr.Quiet (e : Expr) : Prop :=
  e.Allowed fun n => n.target? = none ∧ ∀ name args mark, n ≠ .call name args mark

/-- Reading is quiet. -/
theorem Expr.quiet_of_isAccess : ∀ {t : Expr}, t.isAccess = true → t.Quiet
  | .literal _ _, _ => by simp [Quiet, Allowed, nodes, target?]
  | .var _ _, _ => by simp [Quiet, Allowed, nodes, target?]
  | .binary op left right mark, h => by
      simp only [isAccess, Bool.and_eq_true] at h
      have hleft := quiet_of_isAccess h.1.2
      have hright := quiet_of_isAccess h.2
      intro n hn
      simp only [nodes, List.mem_cons, List.mem_append] at hn
      rcases hn with rfl | hn | hn
      · cases op <;> simp_all [target?, Operator.isMember]
      · exact hleft n hn
      · exact hright n hn

/-- A machine with more arrays in its store. -/
def Machine.GrowsTo (m m' : Machine σ) : Prop :=
  ∃ more, m' = { m with store := { m.store with arrays := m.store.arrays ++ more } }

namespace Machine.GrowsTo

theorem refl (m : Machine σ) : m.GrowsTo m :=
  ⟨#[], by rw [Array.append_empty]⟩

theorem trans {m m' m'' : Machine σ} (h : m.GrowsTo m') (h' : m'.GrowsTo m'') :
    m.GrowsTo m'' := by
  rcases h with ⟨more, rfl⟩
  rcases h' with ⟨more', rfl⟩
  exact ⟨more ++ more', by rw [← Array.append_assoc]⟩

theorem nested {m m' : Machine σ} (h : m.enter.GrowsTo m') : m.GrowsTo m'.leave := by
  rcases h with ⟨more, rfl⟩
  exact ⟨more, rfl⟩

end Machine.GrowsTo

/-- Evaluations that end and do nothing but make arrays. -/
structure Eval.OnlyGrows {α : Type} (x : Eval σ α) : Prop where
  grows : ∀ m : Machine σ, m.GrowsTo (x m).2
  ends : ∀ m : Machine σ, (x m).1 ≠ .unfinished

namespace Eval.OnlyGrows

variable {α β : Type}

/-- Evaluations that give a value and leave the machine alone. -/
theorem reads {x : Eval σ α} (h : ∀ m, ∃ a, x m = (.value a, m)) : OnlyGrows x := by
  refine ⟨fun m => ?_, fun m => ?_⟩ <;> rcases h m with ⟨a, ha⟩ <;> rw [ha]
  · exact .refl m
  · simp

theorem fail (kind : IssueKind) (cause : Cause) (position : Nat) :
    OnlyGrows (Eval.fail kind cause position : Eval σ α) :=
  ⟨.refl, fun m => by simp [Eval.fail]⟩

theorem bind_of {x : Eval σ α} {f : α → Eval σ β} (hx : OnlyGrows x)
    (hf : ∀ a, (∃ m m', x m = (.value a, m')) → OnlyGrows (f a)) : OnlyGrows (x >>= f) := by
  refine ⟨fun m => ?_, fun m => ?_⟩ <;>
    simp only [Bind.bind, Eval.bind] <;> rcases hxm : x m with ⟨outcome, m₁⟩
  · have hgrows := hx.grows m
    rw [hxm] at hgrows
    cases outcome with
    | value a => exact hgrows.trans ((hf a ⟨m, m₁, hxm⟩).grows m₁)
    | failed _ | unfinished => exact hgrows
  · have hends := hx.ends m
    rw [hxm] at hends
    cases outcome with
    | value a => exact (hf a ⟨m, m₁, hxm⟩).ends m₁
    | failed error => simp
    | unfinished => exact absurd rfl hends

theorem bind {x : Eval σ α} {f : α → Eval σ β} (hx : OnlyGrows x) (hf : ∀ a, OnlyGrows (f a)) :
    OnlyGrows (x >>= f) :=
  hx.bind_of fun a _ => hf a

theorem newArray (elements : Array Value) :
    OnlyGrows (Eval.allocate (·.newArray elements) : Eval σ Value) := by
  refine ⟨fun m => ⟨#[elements], ?_⟩, fun m => by simp [Eval.allocate]⟩
  rw [Array.append_singleton]
  rfl

theorem nested {x : Eval σ α} (hx : OnlyGrows x) : OnlyGrows x.nested :=
  ⟨fun m => (hx.grows m.enter).nested, fun m => hx.ends m.enter⟩

end Eval.OnlyGrows

open Eval (OnlyGrows)

section Quiet

variable [Host σ]

/-- Doing nothing but make arrays is a law of one evaluation, for trees that do not
    write. There are no calls in these, so no operation has to be performed. -/
def Law.onlyGrows (σ : Type) [Host σ] : Law σ Unit where
  Holds x := OnlyGrows (x ())
  allowed n := n.target? = none ∧ ∀ name args mark, n ≠ .call name args mark
  bare _ := false
  Place _ := True
  place _ := trivial
  pure _ := .reads fun _ => ⟨_, rfl⟩
  bind_of hx hf := hx.bind_of fun a ha => hf a ⟨(), ha⟩
  fail _ _ _ := .fail _ _ _
  look _ hf := (OnlyGrows.reads fun m => ⟨m, rfl⟩).bind hf
  store := .reads fun _ => ⟨_, rfl⟩
  newArray elements := .newArray elements
  reply hcalled _ _ := by
    rcases hcalled with ⟨args, mark, hcall⟩
    exact absurd rfl (hcall.2 _ args mark)

/-- There are no assignments and no loops in a tree that does not write. -/
theorem Law.onlyGrows_suits (budget : Nat) (ev : Expr → Eval σ Value) :
    (Law.onlyGrows σ).Suits (fun _ => budget) fun _ => ev where
  assign hn htarget _ _ _ := by
    rw [hn.1] at htarget
    exact absurd htarget (by simp)
  loop hcalled _ _ _ := by
    rcases hcalled with ⟨args, mark, hcall⟩
    exact absurd rfl (hcall.2 _ args mark)

/-- A quiet tree does nothing but make arrays. -/
theorem eval_onlyGrows (budget levels : Nat) : ∀ {e : Expr}, e.Quiet →
    OnlyGrows (eval budget levels e : Eval σ Value) := by
  induction levels with
  | zero => exact fun _ => .fail _ _ _
  | succ levels ih =>
      intro e he
      have hnode : OnlyGrows (evalNode budget (eval budget levels) e : Eval σ Value) :=
        Law.holds_evalNode (Law.onlyGrows_suits budget (eval budget levels)) he.self fun n hn =>
          ⟨he n (List.mem_of_mem_tail hn), ih (he.part (List.mem_of_mem_tail hn))⟩
      exact hnode.nested

end Quiet

/-! ### Reading -/

/-- Machines without host objects among their values. -/
structure Machine.HostFree (m : Machine σ) : Prop where
  frames : ∀ frame ∈ m.frames, ∀ name r, frame.get? name ≠ some (.host r)
  context : ∀ name r, m.context.get? name ≠ some (.host r)
  arrays : ∀ elements ∈ m.store.arrays, ∀ r, .host r ∉ elements
  objects : ∀ fields ∈ m.store.objects, ∀ key r, fields.get? key ≠ some (.host r)

namespace Machine.HostFree

variable {m : Machine σ}

theorem enter (h : m.HostFree) : m.enter.HostFree :=
  ⟨h.frames, h.context, h.arrays, h.objects⟩

theorem lookup (h : m.HostFree) (name : String) (r : HostRef) : m.lookup name ≠ .host r := by
  unfold Machine.lookup
  cases hframe : m.frames.head?.bind (·.get? name) with
  | some v =>
      rcases Option.bind_eq_some_iff.mp hframe with ⟨frame, hhead, hv⟩
      rintro rfl
      exact h.frames frame (List.mem_of_mem_head? hhead) name r hv
  | none =>
      cases hcontext : m.context.get? name with
      | some v =>
          rintro rfl
          exact h.context name r hcontext
      | none => simp

/-- No member of a value is a host object, unless the value is one itself. -/
theorem getMember [Host σ] (h : m.HostFree) {object : Value} (hobject : ∀ r, object ≠ .host r)
    (key : String) (r : HostRef) : object.getMember m.store key ≠ .host r := by
  cases object with
  | host q => exact absurd rfl (hobject q)
  | object q =>
      simp only [Value.getMember, Store.fields]
      cases hfields : m.store.objects[q.index]? with
      | none => simp
      | some fields =>
          rw [Option.getD_some]
          cases hv : fields.get? key with
          | none => simp
          | some v =>
              rintro rfl
              exact h.objects fields (Array.mem_of_getElem? hfields) key r hv
  | array q =>
      simp only [Value.getMember, Store.elements]
      split
      · simp
      · cases hplace : arrayIndex? key with
        | none => simp
        | some i =>
            rw [Option.bind_some]
            cases helements : m.store.arrays[q.index]? with
            | none => simp
            | some elements =>
                rw [Option.getD_some]
                cases hv : elements[i]? with
                | none => simp
                | some v =>
                    rintro rfl
                    exact h.arrays elements (Array.mem_of_getElem? helements) r
                      (Array.mem_of_getElem? hv)
  | text t =>
      simp only [Value.getMember]
      split
      · simp
      · cases (arrayIndex? key).bind fun i => t.toList[i]? <;> simp
  | _ => simp [Value.getMember]

end Machine.HostFree

section Access

variable [Host σ]

theorem Expr.isAccess_member {op : Operator} {left right : Expr} {mark : Mark}
    (h : (Expr.binary op left right mark).isAccess = true) :
    (op = .dot ∨ op = .index) ∧ left.isAccess = true ∧ right.isAccess = true ∧
      ∀ name args mark, right ≠ .call name args mark := by
  simp only [isAccess, Bool.and_eq_true] at h
  refine ⟨?_, h.1.2, h.2, ?_⟩
  · cases op <;> simp_all [Operator.isMember]
  · rintro name args mark rfl
    simp [isAccess] at h

/-- A member that is read, taken apart. -/
theorem evalMember_eq_value {ev : Expr → Eval σ Value} {left right : Expr} {m m' : Machine σ}
    {v : Value} (hcall : ∀ name args mark, right ≠ .call name args mark)
    (h : evalMember ev left right m = (.value v, m')) :
    ∃ object key m₁, ev left m = (.value object, m₁) ∧ ev right m₁ = (.value key, m') ∧
      v = object.getMember m'.store (key.toText m'.store) := by
  rcases Eval.bind_eq_value h with ⟨object, m₁, hleft, h⟩
  by_cases htruthy : object.isTruthy = true
  · rw [if_pos htruthy] at h
    have hread : ∃ key, ev right m₁ = (.value key, m') ∧
        v = object.getMember m'.store (key.toText m'.store) := by
      cases right with
      | call name args mark => exact absurd rfl (hcall name args mark)
      | _ =>
          rcases Eval.bind_eq_value h with ⟨key, m₂, hkey, h⟩
          simp only [Bind.bind, Eval.bind, Eval.store, Pure.pure, Eval.pure, Prod.mk.injEq,
            Outcome.value.injEq] at h
          rcases h with ⟨rfl, rfl⟩
          exact ⟨key, hkey, rfl⟩
    rcases hread with ⟨key, hkey, hv⟩
    exact ⟨object, key, m₁, hleft, hkey, hv⟩
  · rw [if_neg htruthy] at h
    simp [Eval.fail] at h

/-- A member that is read with nothing else done. -/
theorem evalMember_unchanged {ev : Expr → Eval σ Value} {left right : Expr} {m : Machine σ}
    (hcall : ∀ name args mark, right ≠ .call name args mark) (hleft : (ev left m).2 = m)
    (hright : (ev right m).2 = m) : (evalMember ev left right m).2 = m := by
  refine Eval.bind_keeps (P := (· = m)) hleft ?_
  rintro object m₁ rfl
  by_cases htruthy : object.isTruthy = true
  · rw [if_pos htruthy]
    cases right with
    | call name args mark => exact absurd rfl (hcall name args mark)
    | _ => exact Eval.bind_keeps (P := (· = m₁)) hright fun key m₂ h => h
  · rw [if_neg htruthy]
    rfl

/-- An access leaves the machine alone, and gives no host object if there is none. -/
theorem eval_access (budget levels : Nat) : ∀ {t : Expr}, t.isAccess = true → ∀ m : Machine σ,
    (eval budget levels t m).2 = m ∧
      (m.HostFree → ∀ r, (eval budget levels t m).1 ≠ .value (.host r)) := by
  induction levels with
  | zero => exact fun _ m => ⟨rfl, fun _ r => by simp [eval, Eval.fail]⟩
  | succ levels ih =>
      intro t ht m
      cases t with
      | literal value mark =>
          refine ⟨rfl, fun _ r => ?_⟩
          cases value <;> rintro ⟨⟩
      | var name mark =>
          refine ⟨rfl, fun hm r heq => ?_⟩
          exact hm.lookup name r (Outcome.value.inj heq)
      | binary op left right mark =>
          rcases Expr.isAccess_member ht with ⟨hop, hleft, hright, hcall⟩
          have hnode : evalNode budget (eval budget levels) (.binary op left right mark) =
              evalMember (σ := σ) (eval budget levels) left right := by
            rcases hop with rfl | rfl <;> rfl
          have hmachine : (evalMember (eval budget levels) left right m.enter).2 = m.enter :=
            evalMember_unchanged hcall (ih hleft m.enter).1 (ih hright m.enter).1
          rw [eval, Eval.nested_eq, hnode]
          refine ⟨by rw [hmachine]; rfl, fun hm r hhost => ?_⟩
          -- The receiver is no host object, and neither is what it has.
          rcases evalMember_eq_value hcall (Prod.ext hhost hmachine) with
            ⟨object, key, m₁, hobject, hkey, hv⟩
          have hreceiver (q : HostRef) : object ≠ .host q := by
            rintro rfl
            exact (ih hleft m.enter).2 hm.enter q (congrArg Prod.fst hobject)
          exact hm.enter.getMember hreceiver _ r hv.symm
      | _ => simp [Expr.isAccess] at ht

end Access

end Scriptlet
