import Mathlib.Data.Finset.Card
import Mathlib.Logic.Relation
import Scriptlet.Store
import Scriptlet.Value.Writing

/-!
# Containment

Arrays and objects are shared, so what contains what is a graph. It is finite,
but it may have cycles, and from a value on a cycle one can go down forever. Two
inductions take the place of one on the structure of a value.

Keeping a set of open containers, one that is not open is opened on the way
down. Only so many are left to open, and this bounds the way down whatever the
graph looks like. Where no cycle is reached, the way down ends by itself, and no
container is met again while it is open, so the open ones do not matter.

## Main definitions

* `Value.Contains`: One value contains another.
* `Value.Acyclic`: No cycle is reached from a value.
* `Value.Clear`: No open container is reached from a value.

## Theorems

* `Value.opened_induction`: Induction along the opening of containers.
* `Value.acyclic_iff_acc`: Where no cycle is reached, every way down ends.
* `Value.clear_induction`: Induction down from a value where no cycle is reached.
-/

namespace Scriptlet

open Relation (ReflTransGen TransGen)

variable {σ : Type}

/-- The values in an array or object. -/
def Store.contents (s : Store σ) : Container → List Value
  | .array r => (s.elements r).toList
  | .object r => (s.fields r).entries.map (·.2)

/-- The arrays and objects of a store. -/
def Store.containers (s : Store σ) : Finset Container :=
  (Finset.range s.arrays.size).image (fun i => .array ⟨i⟩) ∪
    (Finset.range s.objects.size).image (fun i => .object ⟨i⟩)

/-- What is not of the store is empty. -/
theorem Store.mem_containers {s : Store σ} {c : Container} {w : Value} (h : w ∈ s.contents c) :
    c ∈ s.containers := by
  rcases c with ⟨⟨i⟩⟩ | ⟨⟨i⟩⟩
  · have hi : i < s.arrays.size := by
      by_contra hge
      simp [contents, elements, Array.getElem?_eq_none (Nat.not_lt.mp hge)] at h
    simpa [containers] using hi
  · have hi : i < s.objects.size := by
      by_contra hge
      simp [contents, fields, Array.getElem?_eq_none (Nat.not_lt.mp hge), Record.empty] at h
    simpa [containers] using hi

namespace Value

/-- The array or object that a value refers to. -/
def container? : Value → Option Container
  | array r => some (.array r)
  | object r => some (.object r)
  | undefined | null | truth _ | number _ | text _ | host _ | function _ => none

theorem container?_inj {v w : Value} {c : Container} (hv : v.container? = some c)
    (hw : w.container? = some c) : v = w := by
  cases c <;> cases v <;> cases w <;> simp_all [container?]

/-- A value contains what is in the array or object that it refers to. -/
def Contains (s : Store σ) (v w : Value) : Prop :=
  ∃ c, v.container? = some c ∧ w ∈ s.contents c

/-- Nothing that is reached from a value contains itself, directly or further down. -/
def Acyclic (s : Store σ) (v : Value) : Prop :=
  ∀ w, ReflTransGen (Contains s) v w → ¬ TransGen (Contains s) w w

/-- None of the containers `opened` is reached from a value. -/
def Clear (s : Store σ) (opened : List Container) (v : Value) : Prop :=
  ∀ w, ReflTransGen (Contains s) v w → ∀ c ∈ opened, w.container? ≠ some c

variable {s : Store σ} {v w : Value} {c : Container} {opened : List Container}

/-- Induction along the opening of containers: what holds of a value is shown from what holds of
    the contents of its container, which is then open, and only if it was not open before. -/
theorem opened_induction (s : Store σ) {motive : Value → List Container → Prop}
    (step : ∀ v opened, (∀ c, v.container? = some c → c ∉ opened →
      ∀ w ∈ s.contents c, motive w (c :: opened)) → motive v opened)
    (v : Value) (opened : List Container) : motive v opened := by
  -- The induction is on how many containers of the store are left to open.
  induction hleft : (s.containers \ opened.toFinset).card using Nat.strong_induction_on
    generalizing v opened with
  | _ left ih =>
      refine step v opened fun c _ hnew w hw => ih _ ?_ w (c :: opened) rfl
      have hmem : c ∈ s.containers \ opened.toFinset :=
        Finset.mem_sdiff.mpr ⟨Store.mem_containers hw, by simpa using hnew⟩
      rw [← hleft, List.toFinset_cons, Finset.sdiff_insert]
      exact Finset.card_erase_lt_of_mem hmem

theorem Acyclic.below (h : Acyclic s v) (hw : Contains s v w) : Acyclic s w :=
  fun u hu => h u (.head hw hu)

/-- Where no cycle is reached, every way down ends. -/
theorem acc_of_acyclic (s : Store σ) (v : Value) (opened : List Container) (h : Acyclic s v)
    (habove : ∀ c ∈ opened, ∃ u, u.container? = some c ∧ TransGen (Contains s) u v) :
    Acc (Function.swap (Contains s)) v := by
  induction v, opened using opened_induction s with
  | step v opened ih =>
      refine .intro v fun w hw => ?_
      obtain ⟨c, hc, hmem⟩ := id hw
      -- An open container is above the value, so to find it again would be a cycle.
      have hnew : c ∉ opened := by
        intro hopen
        rcases habove c hopen with ⟨u, hu, hdown⟩
        rw [container?_inj hu hc] at hdown
        exact h v .refl hdown
      refine ih c hc hnew w hmem (h.below hw) fun d hd => ?_
      rcases List.mem_cons.mp hd with rfl | hd
      · exact ⟨v, hc, .single hw⟩
      · rcases habove d hd with ⟨u, hu, hdown⟩
        exact ⟨u, hu, hdown.tail hw⟩

theorem acyclic_of_below (h : ∀ w, Contains s v w → Acyclic s w) : Acyclic s v := by
  intro u hu hcycle
  rcases hu.cases_head with rfl | ⟨w, hw, hwu⟩
  -- A cycle through the value is one through something that it contains.
  · rcases TransGen.head'_iff.mp hcycle with ⟨w, hw, hwv⟩
    exact h w hw v hwv hcycle
  · exact h w hw u hwu hcycle

theorem acyclic_iff_acc : Acyclic s v ↔ Acc (Function.swap (Contains s)) v := by
  refine ⟨fun h => acc_of_acyclic s v [] h (by simp), fun h => ?_⟩
  induction h with
  | intro v _ ih => exact acyclic_of_below ih

theorem clear_nil (s : Store σ) (v : Value) : Clear s [] v := by
  simp [Clear]

/-- Going down where no cycle is reached, the container that was left is not reached again. -/
theorem Clear.below (h : Clear s opened v) (hacyclic : Acyclic s v) (hc : v.container? = some c)
    (hw : w ∈ s.contents c) : Clear s (c :: opened) w := by
  have hstep : Contains s v w := ⟨c, hc, hw⟩
  intro u hu d hd hud
  rcases List.mem_cons.mp hd with rfl | hd
  · rw [container?_inj hud hc] at hu
    exact hacyclic v .refl (.head' hstep hu)
  · exact h u (.head hstep hu) d hd hud

/-- Induction down from a value where no cycle is reached: no container is open already. -/
theorem clear_induction {motive : Value → List Container → Prop}
    (step : ∀ v opened, (∀ c, v.container? = some c → c ∉ opened ∧
      ∀ w ∈ s.contents c, motive w (c :: opened)) → motive v opened)
    (h : Acyclic s v) (hclear : Clear s opened v) : motive v opened := by
  induction acyclic_iff_acc.mp h generalizing opened with
  | intro v _ ih =>
      refine step v opened fun c hc => ⟨fun hmem => hclear v .refl c hmem hc, fun w hw => ?_⟩
      have hstep : Contains s v w := ⟨c, hc, hw⟩
      exact ih w hstep (h.below hstep) (hclear.below h hc hw)

end Value

end Scriptlet
