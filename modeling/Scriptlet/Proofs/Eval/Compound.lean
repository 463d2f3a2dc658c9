import Scriptlet.Proofs.Eval.Ending
import Scriptlet.Proofs.Eval.Levels
import Scriptlet.Proofs.Eval.Quiet
import Scriptlet.Proofs.Eval.Related
import Scriptlet.Proofs.Eval.Slots
import Scriptlet.Proofs.Value.Guarded

/-!
# Compound Assignment

An assignment that adds to its target, or takes from it, is short for one that
writes the target out a second time on its right side. The two are not evaluated
alike. The short one finds its slot, evaluates the right side and then reads the
slot. The long one reads the target as an expression, by another routine, before
it comes to the rest of the right side, and it does so two levels further down.

They still come to the same as long as nothing can tell the order. Reading the
target leaves the machine alone, and the rest of the right side is quiet, so that
all it can do is to make new arrays. What was in the slot is then there before
and after. A host can tell the order, as it may look at the arrays of the store
when it is asked for a member, and so there must not be host objects among the
values.

The long form needs more levels than the short one. If it does not run out of
them, neither does the short one.

## Main definitions

* `Slot.Steady`: Slots that hold the same after arrays are made.
* `Operator.expansion?`: The operator that a compound assignment stands for.

## Theorems

* `readSlot_of_growsTo`: More arrays do not change what a slot holds.
* `steady_of_resolve`: The slot of an access is steady.
* `eval_of_resolve`: What is found to be written can be read.
* `eval_second_reading`: The right side of the long form.
* `evalNode_expansion`: The two forms on one machine.
* `compound_assignment_expands`: A compound assignment does what its expansion does.
-/

namespace Scriptlet

open Eval (OnlyGrows)

variable {σ : Type}

/-! ### Slots -/

section Slots

variable [Host σ]

/-- Slots that hold the same after arrays are made: those of names, and those of
    members that are there and not of a host object. -/
def Slot.Steady (m : Machine σ) : Slot → Prop
  | .frame _ | .context _ => True
  | .member object key => object.hasMember m.store key = true ∧ ∀ r, object ≠ .host r

/-- More arrays do not change what a slot holds. -/
theorem readSlot_of_growsTo {m m' : Machine σ} {slot : Slot} (hslot : slot.Steady m)
    (h : m.GrowsTo m') : m'.readSlot slot = m.readSlot slot := by
  rcases h with ⟨more, rfl⟩
  cases slot with
  | frame name | context name => rfl
  | member object key =>
      rcases hslot with ⟨hmember, hobject⟩
      cases object with
      | host r => exact absurd rfl (hobject r)
      | array r =>
          -- A reference past the end would mean the first of the new arrays. An array
          -- with an element is in the store, and so is not one of these.
          have hold : r.index < m.store.arrays.size := by
            refine Nat.lt_of_not_le fun hout => ?_
            rw [← Array.getElem?_eq_none_iff] at hout
            simp [Value.hasMember, Store.elements, hout] at hmember
          have hsame : (m.store.arrays ++ more)[r.index]? = m.store.arrays[r.index]? :=
            Array.getElem?_append_left hold
          simp only [Machine.readSlot, Value.getMember, Store.elements, hsame]
      | _ => rfl

/-- The search for the slot of an access only reads. -/
theorem resolve_onlyGrows (budget levels : Nat) {t : Expr} (ht : t.isAccess = true) :
    OnlyGrows (resolve (eval budget levels) t : Eval σ Slot) := by
  have hquiet := Expr.quiet_of_isAccess ht
  have hkeeps : (Law.onlyGrows σ).Keeps (fun _ => eval budget levels) t := fun n hn =>
    ⟨hquiet n hn, eval_onlyGrows budget levels (hquiet.part hn)⟩
  exact Law.holds_resolve hkeeps

/-- The slot of an access is found with nothing else done, and it is steady. -/
theorem steady_of_resolve (budget levels : Nat) {t : Expr} (ht : t.isAccess = true)
    {m m' : Machine σ} (hm : m.HostFree) {slot : Slot}
    (h : resolve (eval budget levels) t m = (.value slot, m')) : m' = m ∧ slot.Steady m := by
  cases t with
  | var name mark =>
      rcases layer_of_resolveName h with ⟨rfl, rfl, _⟩
      exact ⟨rfl, by cases m'.layerOf name <;> trivial⟩
  | binary op left right mark =>
      rcases Expr.isAccess_member ht with ⟨hop, hleft, hright, _⟩
      have hresolve : resolveMember (eval budget levels) left right m = (.value slot, m') := by
        rcases hop with rfl | rfl <;> exact h
      rcases resolveMember_eq_value hresolve with ⟨object, key, m₁, hobject, hkey, _, hmember, rfl⟩
      -- Neither the receiver nor the key changes the machine.
      have hsame₁ := (eval_access budget levels hleft m).1
      rw [hobject] at hsame₁
      subst hsame₁
      have hsame := (eval_access budget levels hright m₁).1
      rw [hkey] at hsame
      subst hsame
      refine ⟨rfl, hmember, ?_⟩
      rintro r rfl
      exact (eval_access budget levels hleft m').2 hm r (congrArg Prod.fst hobject)
  | _ => exact nomatch congrArg Prod.fst h

/-- What is found to be written can be read. -/
theorem eval_of_resolve (budget levels : Nat) {t : Expr} (ht : t.isAccess = true)
    {m m' : Machine σ} {slot : Slot}
    (h : resolve (eval budget levels) t m.enter = (.value slot, m')) :
    eval budget (levels + 1) t m = (.value (m'.readSlot slot), m'.leave) := by
  cases t with
  | var name mark =>
      rcases layer_of_resolveName h with ⟨rfl, rfl, _⟩
      cases m.enter.layerOf name <;> rfl
  | binary op left right mark =>
      rcases Expr.isAccess_member ht with ⟨hop, _, _, hcall⟩
      have hresolve : resolveMember (eval budget levels) left right m.enter =
          (.value slot, m') := by
        rcases hop with rfl | rfl <;> exact h
      rcases resolveMember_eq_value hresolve with ⟨object, key, m₁, _, _, _, _, rfl⟩
      exact eval_member_of_resolve budget levels hop hcall h
  | _ => exact nomatch congrArg Prod.fst h

end Slots

/-! ### The two forms -/

/-- The operator that a compound assignment stands for. -/
def Operator.expansion? : Operator → Option Operator
  | addAssign => some add
  | subtractAssign => some subtract
  | _ => none

section Forms

variable [Host σ]

/-- The evaluation of a compound assignment and that of the operator that it stands
    for, by the one operation on values that they have in common. -/
theorem forms_of_expansion? {op plain : Operator} (h : op.expansion? = some plain) (budget : Nat)
    (t e : Expr) : ∃ combine : Store σ → Value → Value → Value,
    (∀ ev mark, evalNode budget ev (.binary op t e mark) = (do
      let slot ← resolve ev t
      let right ← ev e
      let m ← Eval.machine
      let value := combine m.store (m.readSlot slot) right
      writeSlot slot value mark.position
      pure value)) ∧
    ∀ ev mark, evalNode budget ev (.binary plain t e mark) = (do
      let (a, b) ← evalBoth ev t e
      let s ← Eval.store
      pure (combine s a b)) := by
  cases op with
  | addAssign =>
      cases h
      exact ⟨fun s a b => a.add s b, fun _ _ => rfl, fun _ _ => rfl⟩
  | subtractAssign =>
      cases h
      exact ⟨fun s a b => a.subtract s b, fun _ _ => rfl, fun _ _ => rfl⟩
  | _ => simp [Operator.expansion?] at h

/-- The right side of the long form, if it does not run out of levels: the target
    gives what it gives in place of the assignment, and the rest is evaluated as
    in the short form. -/
theorem eval_second_reading {plain : Operator} {t e : Expr} {budget : Nat}
    {combine : Store σ → Value → Value → Value}
    (hplain : ∀ ev mark, evalNode budget ev (.binary plain t e mark) = (do
      let (a, b) ← evalBoth ev t e
      let s ← Eval.store
      pure (combine s a b)))
    (ht : t.isAccess = true) (he : e.Quiet) {levels : Nat} {m : Machine σ} {old : Value}
    (hread : (eval budget (levels + 1) t m).1 = .value old) (mark : Mark) :
    (eval budget levels (.binary plain t e mark)).RunsOut m.enter ∨
      eval budget levels (.binary plain t e mark) m.enter = (do
        let right ← eval budget levels e
        let s ← Eval.store
        pure (combine s old right)) m.enter := by
  cases levels with
  | zero => exact .inl ⟨_, rfl⟩
  | succ levels =>
      rw [eval, hplain, Eval.RunsOut, Eval.nested_eq]
      -- The target is two levels further down than it was, with the same value.
      rcases eval_lifts budget (by omega : levels ≤ levels + 2) t m.enter.enter m.depth with
        hout | hsame
      · exact .inl ((hout.bind _).bind _)
      · have htarget : eval budget levels t m.enter.enter = (.value old, m.enter.enter) := by
          refine Prod.ext ?_ (eval_access budget levels ht m.enter.enter).1
          exact (congrArg Prod.fst hsame).symm.trans hread
        -- The rest is one level further down.
        rcases eval_lifts budget (Nat.le_succ levels) e m.enter.enter m.enter.depth with
          hout | hrest
        · exact .inl ((hout.bind _).of_value htarget |>.bind _)
        · right
          -- It leaves the count alone, so leaving the node restores the count of the short form.
          have hgrows := (eval_onlyGrows budget levels he).grows m.enter.enter
          have hrest : eval budget (levels + 1) e m.enter =
              ((eval budget levels e m.enter.enter).1,
                (eval budget levels e m.enter.enter).2.atDepth m.enter.depth) := hrest
          rcases hem : eval budget levels e m.enter.enter with ⟨outcome, m₁⟩
          rw [hem] at hgrows hrest
          rcases hgrows with ⟨more, rfl⟩
          cases outcome <;>
            simp only [evalBoth, Bind.bind, Eval.bind, htarget, hem, hrest, Pure.pure, Eval.pure,
              Eval.store] <;> rfl

theorem writeSlot_finishes (slot : Slot) (value : Value) (p : Nat) (m : Machine σ) :
    (writeSlot slot value p m).1 ≠ .unfinished := by
  have hends : (Law.ends σ fun _ => True).Holds fun _ => (writeSlot slot value p : Eval σ Unit) :=
    (Law.ends_free fun _ => True).holds_writeSlot (fun _ => rfl) slot value
  rcases hends m with ⟨enough, result, hfinished, hresult⟩
  have hwrite : writeSlot slot value p m = result := hresult enough (Nat.le_refl _)
  rw [hwrite]
  exact hfinished

/-- What is left of both forms: the same is written to the same slot. -/
theorem write_alike (slot : Slot) (value : Value) (p p' : Nat) (m : Machine σ) :
    let short := (do writeSlot slot value p; pure value : Eval σ Value) m
    let long := (do writeSlot slot value p'; pure value : Eval σ Value) m
    short.2 = long.2 ∧ short.1.Related SameCause long.1 ∧ short.1 ≠ .unfinished := by
  have hindifferent : Indifferent SameCause := fun _ _ _ => ⟨rfl, rfl⟩
  have hwrite : (Law.related σ hindifferent).Holds fun i =>
      (writeSlot slot value (cond i p p') : Eval σ Unit) :=
    (Law.related_free hindifferent).holds_writeSlot trivial slot value
  have hrelated : Eval.Related (σ := σ) SameCause (do writeSlot slot value p; pure value)
      (do writeSlot slot value p'; pure value) := Eval.Related.bind hwrite fun _ => .pure value
  refine ⟨(hrelated m).1, (hrelated m).2, ?_⟩
  have hfinishes := writeSlot_finishes slot value p m
  rcases hwrite : writeSlot slot value p m with ⟨outcome, m₁⟩
  rw [hwrite] at hfinishes
  simp only [Bind.bind, Eval.bind, hwrite]
  cases outcome with
  | value u => simp [Pure.pure, Eval.pure]
  | failed error => simp
  | unfinished => exact absurd rfl hfinishes

/-- The two forms on one machine. -/
theorem evalNode_expansion {op plain : Operator} (hop : op.expansion? = some plain) {t e : Expr}
    (ht : t.isAccess = true) (he : e.Quiet) (mark mark' mark'' : Mark) (budget levels : Nat)
    {m : Machine σ} (hm : m.HostFree)
    (hlevels : ¬ (evalNode budget (eval budget levels)
      (.binary .assign t (.binary plain t e mark') mark'')).RunsOut m.enter) :
    let short := evalNode budget (eval budget levels) (.binary op t e mark) m.enter
    let long := evalNode budget (eval budget levels)
      (.binary .assign t (.binary plain t e mark') mark'') m.enter
    short.2 = long.2 ∧ short.1.Related SameCause long.1 ∧ short.1 ≠ .unfinished := by
  rcases forms_of_expansion? (σ := σ) hop budget t e with ⟨combine, hshort, hplain⟩
  rw [hshort]
  -- Both forms begin with the search for the slot, and go the same way if it fails.
  rcases hresolve : resolve (eval budget levels) t m.enter with ⟨outcome, m₀⟩
  cases outcome with
  | unfinished =>
      exact absurd (congrArg Prod.fst hresolve) ((resolve_onlyGrows budget levels ht).ends m.enter)
  | failed error =>
      simp only [evalNode, evalAssign, Bind.bind, Eval.bind, hresolve]
      exact ⟨trivial, ⟨rfl, rfl⟩, by simp⟩
  | value slot =>
      rcases steady_of_resolve budget levels ht hm.enter hresolve with ⟨rfl, hsteady⟩
      have hread := eval_of_resolve budget levels ht hresolve
      rcases eval_second_reading hplain ht he (congrArg Prod.fst hread) mark' with hout | hsecond
      · exact absurd ((hout.bind _).of_value hresolve) hlevels
      · have hright := eval_onlyGrows (σ := σ) budget levels he
        have hgrows := hright.grows m.enter
        have hends := hright.ends m.enter
        simp only [evalNode, evalAssign, Update.right, Update.result]
        rw [Eval.bind_of_value hresolve, Eval.bind_of_value hresolve]
        rcases hem : eval budget levels e m.enter with ⟨outcome, m₁⟩
        rw [hem] at hgrows hends
        cases outcome with
        | unfinished => exact absurd rfl hends
        | failed error =>
            -- The target could be read, so the long form fails in the same place.
            simp only [Bind.bind, Eval.bind, hem] at hsecond ⊢
            simp only [hsecond]
            exact ⟨trivial, ⟨rfl, rfl⟩, by simp⟩
        | value right =>
            rw [Eval.bind_of_value hem] at hsecond
            rw [Eval.bind_of_value hem, Eval.bind_of_value hsecond]
            -- The short form reads the slot only now, and finds what was there before.
            rw [← readSlot_of_growsTo hsteady hgrows]
            exact write_alike slot _ _ _ m₁

end Forms

/-- An end that is the same up to places. -/
theorem Outcome.agree_of_related {α : Type} {x y : Outcome α} (h : x.Related SameCause y)
    (hx : x ≠ .unfinished) :
    (∃ a, x = .value a ∧ y = .value a) ∨
      ∃ error error', x = .failed error ∧ y = .failed error' ∧ error.kind = error'.kind ∧
        error.cause = error'.cause := by
  cases x with
  | value a =>
      cases y with
      | value b => exact .inl ⟨a, rfl, congrArg _ (Eq.symm h)⟩
      | failed _ | unfinished => exact h.elim
  | failed error =>
      cases y with
      | failed error' => exact .inr ⟨error, error', rfl, rfl, h⟩
      | value _ | unfinished => exact h.elim
  | unfinished => exact absurd rfl hx

/-- Running out of levels does not depend on places. -/
theorem Eval.Related.runsOut {α : Type} {x y : Eval σ α} (h : Eval.Related SameCause x y)
    {m : Machine σ} (hy : y.RunsOut m) : x.RunsOut m := by
  rcases hy with ⟨position, hout⟩
  have hrelated := (h m).2
  rw [hout] at hrelated
  cases hx : (x m).1 with
  | failed error =>
      rw [hx] at hrelated
      rcases error with ⟨kind, cause, position'⟩
      rcases hrelated with ⟨rfl, rfl⟩
      exact ⟨position', hx⟩
  | value _ | unfinished =>
      rw [hx] at hrelated
      exact hrelated.elim

/-- A compound assignment does what its expansion does. The target is a tree of
    names, constants and members of these, and the right side assigns nothing and
    calls nothing. From every machine without host objects on which the expansion
    does not run out of levels, both leave the same machine, and they give the same
    value or errors of the same kind and cause. Only the places of the errors differ, so the
    marks of the expansion may be any. -/
theorem compound_assignment_expands [Host σ] {op plain : Operator}
    (hop : op.expansion? = some plain) {t e x : Expr} (ht : t.isAccess = true) (he : e.Quiet)
    (hx : x.unmarked = (Expr.binary .assign t (.binary plain t e Expr.noMark) Expr.noMark).unmarked)
    (mark : Mark) (budget levels : Nat) {m : Machine σ} (hm : m.HostFree)
    (hlevels : ¬ (eval budget levels x).RunsOut m) :
    (eval budget levels (.binary op t e mark) m).2 = (eval budget levels x m).2 ∧
      ((∃ v, (eval budget levels (.binary op t e mark) m).1 = .value v ∧
          (eval budget levels x m).1 = .value v) ∨
        ∃ error error', (eval budget levels (.binary op t e mark) m).1 = .failed error ∧
          (eval budget levels x m).1 = .failed error' ∧ error.kind = error'.kind ∧
          error.cause = error'.cause) := by
  -- The expansion is evaluated like the one that is made of the same parts.
  have hsame := eval_of_unmarked_eq (σ := σ) hx.symm budget levels
  cases levels with
  | zero => exact absurd ⟨_, rfl⟩ hlevels
  | succ levels =>
      have hparts : ¬ (evalNode budget (eval budget levels)
          (.binary .assign t (.binary plain t e Expr.noMark) Expr.noMark)).RunsOut m.enter :=
        fun hout => hlevels (hsame.runsOut hout)
      rcases evalNode_expansion hop ht he mark Expr.noMark Expr.noMark budget levels hm hparts with
        ⟨hmachine, houtcome, hends⟩
      have hrelated := Outcome.related_of_common houtcome (hsame m).2
      refine ⟨?_, Outcome.agree_of_related hrelated hends⟩
      exact (congrArg Machine.leave hmachine).trans (hsame m).1.symm

/-- A field that grows by a new array with its own contents. The long form needs
    five levels and has them. -/
theorem expansion_of_growing_field :
    ∃ (short long : Expr) (m : Machine Unit), Expr.parse "o.k += [o.k]".toList = .ok short ∧
      Expr.parse "o.k = o.k + [o.k]".toList = .ok long ∧ m.HostFree ∧
      m.store.fields ⟨0⟩ = Record.empty.insert "k" (.text "a") ∧
      (eval 0 5 long m).1 = .value (.text "aa") ∧
      (eval 0 5 short m).2 = (eval 0 5 long m).2 ∧
      (eval 0 5 short m).1 = .value (.text "aa") := by
  let t : Expr := .binary .dot (.var "o" ⟨0, 0⟩) (.literal (.text "k") ⟨2, 0⟩) ⟨1, 10⟩
  let e : Expr := .array
    [.binary .dot (.var "o" ⟨8, 10⟩) (.literal (.text "k") ⟨10, 10⟩) ⟨9, 20⟩] ⟨7, 10⟩
  have hscan : Scan.ofText "o.k += [o.k]".toList =
      ⟨[⟨.name "o", 0, 1, 0⟩, ⟨.operator .dot, 1, 2, 0⟩, ⟨.constant (.text "k"), 2, 4, 0⟩,
        ⟨.operator .addAssign, 4, 6, 0⟩, ⟨.opening .square, 7, 8, 0⟩, ⟨.name "o", 8, 9, 1⟩,
        ⟨.operator .dot, 9, 10, 1⟩, ⟨.constant (.text "k"), 10, 11, 1⟩,
        ⟨.closing .square, 11, 12, 1⟩], .complete 12 0⟩ := by
    with_unfolding_all rfl
  have hshort : Expr.parse "o.k += [o.k]".toList = .ok (.binary .addAssign t e ⟨4, 2⟩) := by
    rw [Expr.parse, hscan]
    rfl
  have hquiet : e.Quiet := by
    simp [e, Expr.Quiet, Expr.Allowed, Expr.nodes, Expr.nodesOf, Expr.target?]
  let m : Machine Unit := ⟨⟨#[], #[Record.empty.insert "k" (.text "a")], 0, ()⟩,
    Record.empty.insert "o" (.object ⟨0⟩), [], 0⟩
  have hfree : m.HostFree := by
    refine ⟨by simp [m], fun name r => ?_, by simp [m], fun fields hfields key r => ?_⟩
    · rw [Record.get?_insert]
      split <;> simp [Record.get?_empty]
    · rw [List.eq_of_mem_singleton (Array.mem_def.mp hfields), Record.get?_insert]
      split <;> simp [Record.get?_empty]
  have hscan' : Scan.ofText "o.k = o.k + [o.k]".toList =
      ⟨[⟨.name "o", 0, 1, 0⟩, ⟨.operator .dot, 1, 2, 0⟩, ⟨.constant (.text "k"), 2, 4, 0⟩,
        ⟨.operator .assign, 4, 5, 0⟩, ⟨.name "o", 6, 7, 0⟩, ⟨.operator .dot, 7, 8, 0⟩,
        ⟨.constant (.text "k"), 8, 10, 0⟩, ⟨.operator .add, 10, 11, 0⟩,
        ⟨.opening .square, 12, 13, 0⟩, ⟨.name "o", 13, 14, 1⟩, ⟨.operator .dot, 14, 15, 1⟩,
        ⟨.constant (.text "k"), 15, 16, 1⟩, ⟨.closing .square, 16, 17, 1⟩], .complete 17 0⟩ := by
    with_unfolding_all rfl
  have hlong : ∃ long, Expr.parse "o.k = o.k + [o.k]".toList = .ok long ∧
      long.unmarked =
        (Expr.binary .assign t (.binary .add t e Expr.noMark) Expr.noMark).unmarked ∧
      (eval 0 5 long m).1 = .value (.text "aa") := by
    refine ⟨.binary .assign
      (.binary .dot (.var "o" ⟨0, 0⟩) (.literal (.text "k") ⟨2, 0⟩) ⟨1, 10⟩)
      (.binary .add (.binary .dot (.var "o" ⟨6, 0⟩) (.literal (.text "k") ⟨8, 0⟩) ⟨7, 10⟩)
        (.array [.binary .dot (.var "o" ⟨13, 10⟩) (.literal (.text "k") ⟨15, 10⟩) ⟨14, 20⟩]
          ⟨12, 10⟩) ⟨10, 6⟩) ⟨4, 2⟩, ?_, rfl, ?_⟩
    · rw [Expr.parse, hscan']
      rfl
    · have htext : Value.toText
          (⟨#[#[.text "a"]], #[Record.empty.insert "k" (.text "a")], 0, ()⟩ : Store Unit)
          (.array ⟨0⟩) = "a" := by
        change Value.joinIn _ "," [] ⟨0⟩ = "a"
        simp [Value.joinIn_eq, Value.textIn_text, Value.element, Store.elements]
      change Outcome.value (Value.text ("a" ++ Value.toText
        (⟨#[#[.text "a"]], #[Record.empty.insert "k" (.text "a")], 0, ()⟩ : Store Unit)
        (.array ⟨0⟩))) = _
      rw [htext]
      rfl
  rcases hlong with ⟨long, hlong, hx, hvalue⟩
  have hlevels : ¬ (eval 0 5 long).RunsOut m := by
    rintro ⟨position, hout⟩
    rw [hvalue] at hout
    cases hout
  have hop : Operator.addAssign.expansion? = some .add := rfl
  rcases compound_assignment_expands hop rfl hquiet hx ⟨4, 2⟩ 0 5 hfree hlevels with
    ⟨hmachine, ⟨v, hv, hv'⟩ | ⟨_, _, _, hfailed, _⟩⟩
  · exact ⟨_, long, m, hshort, hlong, hfree, rfl, hvalue, hmachine,
      hv.trans (hv'.symm.trans hvalue)⟩
  · rw [hvalue] at hfailed
    cases hfailed

end Scriptlet
