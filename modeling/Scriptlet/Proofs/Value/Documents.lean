import Mathlib.Data.List.Forall2
import Scriptlet.Context
import Scriptlet.Proofs.Number.Whole
import Scriptlet.Proofs.Store.Effect
import Scriptlet.Proofs.Value.Guarded

/-!
# Documents and Values

What goes out as a document and comes in again. The document of a value has
nothing in it that cannot come in: it is finite even where the value contains
itself, its numbers are finite and have one form each, and its objects have
their fields in order. So the value that comes in has the same document.

What comes in is made of new arrays and objects, and later ones do not change
it, so a fact about it has to hold in every store that has more. With this the
parts of a document can be taken one after another, and what is known about each
of them lasts.

Values made of data alone, without cycles, come in as they went out, except for
what was shared and for the sign of a zero.

## Main definitions

* `Value.Yields`: What is so of the value of a document from then on.
* `Value.IsData`: Values made of nothing that documents cannot hold.
* `Value.Alike`: Values that are the same, whatever is shared.

## Theorems

* `Value.yields_document`: The value that comes in has the same document.
* `Value.yields_alike`: Data without cycles comes in as it went out.
* `Value.ofJson_toJson`: Both, for values and for contexts.
-/

namespace Scriptlet

open Relation (ReflTransGen)

variable {σ τ : Type}

/-! ### Growing stores -/

namespace Store

variable {s t u : Store σ}

theorem Extends.trans (h : s.Extends t) (h' : t.Extends u) : s.Extends u :=
  ⟨h.1.trans h'.1, h.2.trans h'.2⟩

theorem extends_newArray (s : Store σ) (elements : Array Value) :
    s.Extends (s.newArray elements).2 :=
  ⟨.of_push rfl, .refl s⟩

theorem extends_newObject (s : Store σ) (fields : Record Value) :
    s.Extends (s.newObject fields).2 :=
  ⟨.refl s, .of_push rfl⟩

theorem Extends.elements_newArray {elements : Array Value}
    (h : (s.newArray elements).2.Extends t) : t.elements ⟨s.arrays.size⟩ = elements := by
  rcases h.1 s.arrays.size elements (by simp [newArray]) with ⟨a, ha, rfl⟩
  simp [Store.elements, ha]

theorem Extends.fields_newObject {fields : Record Value}
    (h : (s.newObject fields).2.Extends t) : t.fields ⟨s.objects.size⟩ = fields := by
  rcases h.2 s.objects.size fields (by simp [newObject]) with ⟨a, ha, rfl⟩
  simp [Store.fields, ha]

end Store

namespace Value

mutual

/-- What comes in from a document is added to a store. -/
theorem extends_ofJson (d : Json) (s : Store σ) : s.Extends (ofJson d s).2 := by
  cases d with
  | array items => exact (extends_ofJsonItems items s).trans (Store.extends_newArray ..)
  | object fields => exact (extends_ofJsonFields fields s).trans (Store.extends_newObject ..)
  | _ => exact .refl s

theorem extends_ofJsonItems (items : List Json) (s : Store σ) :
    s.Extends (ofJsonItems items s).2 := by
  cases items with
  | nil => exact .refl s
  | cons item items => exact (extends_ofJson item s).trans (extends_ofJsonItems items _)

theorem extends_ofJsonFields (fields : List (String × Json)) (s : Store σ) :
    s.Extends (ofJsonFields fields s).2 := by
  cases fields with
  | nil => exact .refl s
  | cons field fields => exact (extends_ofJson field.2 s).trans (extends_ofJsonFields fields _)

end

/-! ### What comes in -/

/-- What is so of the value of a document when it has come in, whatever is added behind it. -/
def Yields (d : Json) (P : Store τ → Value → Prop) : Prop :=
  ∀ s t, (ofJson d s).2.Extends t → P t (ofJson d s).1

theorem Yields.imp {d : Json} {P Q : Store τ → Value → Prop} (h : Yields d P)
    (himp : ∀ t v, P t v → Q t v) : Yields d Q :=
  fun s t ht => himp t _ (h s t ht)

/-- Fields that are in order come in as a record as they are. -/
theorem entries_ofJsonFields {fields : List (String × Json)}
    (h : fields.Pairwise fun a b => a.1 < b.1) (s : Store τ) :
    (Record.ofList (ofJsonFields fields s).1).entries = (ofJsonFields fields s).1 := by
  have hnames : ∀ s : Store τ, (ofJsonFields fields s).1.map (·.1) = fields.map (·.1) := by
    clear h
    induction fields with
    | nil => exact fun _ => rfl
    | cons field fields ih => exact fun s => congrArg (field.1 :: ·) (ih _)
  refine Record.entries_ofList ((List.pairwise_map (R := (· < ·)) (f := Prod.fst)).mp ?_)
  rw [hnames]
  exact List.pairwise_map.mpr h

theorem pairwise_fields {α : Type} (fields : Record α) (f : α → Json) :
    (fields.entries.map fun e => (e.1, f e.2)).Pairwise fun a b => a.1 < b.1 :=
  List.pairwise_map.mpr fields.sorted

section

variable {α : Type} {f : α → Json} {R : α → Store τ → Value → Prop}

/-- What is known about the value of each item lasts while the items behind it come in. -/
theorem forall₂_ofJsonItems {as : List α} (h : ∀ a ∈ as, Yields (f a) (R a)) {s t : Store τ}
    (ht : (ofJsonItems (as.map f) s).2.Extends t) :
    List.Forall₂ (fun a v => R a t v) as (ofJsonItems (as.map f) s).1 := by
  induction as generalizing s with
  | nil => exact .nil
  | cons a as ih =>
      rcases List.forall_mem_cons.mp h with ⟨hfirst, hothers⟩
      -- The items behind the first one only add to the store.
      have hbehind := (extends_ofJsonItems (as.map f) _).trans ht
      exact .cons (hfirst s t hbehind) (ih hothers ht)

theorem forall₂_ofJsonFields {es : List (String × α)}
    (h : ∀ a ∈ es.map (·.2), Yields (f a) (R a)) {s t : Store τ}
    (ht : (ofJsonFields (es.map fun e => (e.1, f e.2)) s).2.Extends t) :
    List.Forall₂ (fun e field => e.1 = field.1 ∧ R e.2 t field.2) es
      (ofJsonFields (es.map fun e => (e.1, f e.2)) s).1 := by
  induction es generalizing s with
  | nil => exact .nil
  | cons e es ih =>
      rcases List.forall_mem_cons.mp h with ⟨hfirst, hothers⟩
      have hbehind := (extends_ofJsonFields (es.map fun e => (e.1, f e.2)) _).trans ht
      exact .cons ⟨rfl, hfirst s t hbehind⟩ (ih hothers ht)

/-- An array comes in as a new one, whose elements are the values of the items. -/
theorem yields_array {as : List α} (h : ∀ a ∈ as, Yields (f a) (R a)) :
    Yields (.array (as.map f)) fun t v =>
      ∃ r, v = array r ∧ List.Forall₂ (fun a w => R a t w) as (t.elements r).toList := by
  intro s t ht
  refine ⟨_, rfl, ?_⟩
  rw [ht.elements_newArray]
  exact forall₂_ofJsonItems h ((Store.extends_newArray ..).trans ht)

/-- An object comes in as a new one, whose fields are those of the document. -/
theorem yields_object {fields : Record α}
    (h : ∀ a ∈ fields.entries.map (·.2), Yields (f a) (R a)) :
    Yields (.object (fields.entries.map fun e => (e.1, f e.2))) fun t v =>
      ∃ r, v = object r ∧ List.Forall₂ (fun e field => e.1 = field.1 ∧ R e.2 t field.2)
        fields.entries (t.fields r).entries := by
  intro s t ht
  refine ⟨_, rfl, ?_⟩
  rw [ht.fields_newObject, entries_ofJsonFields (pairwise_fields fields f)]
  exact forall₂_ofJsonFields h ((Store.extends_newObject ..).trans ht)

end

/-! ### The same document -/

/-- The three ways in which a number goes out. -/
theorem numberJson_cases (x : Float) :
    (∃ i, Number.integer? x = some i ∧ i.natAbs < integerBound ∧ numberJson x = .integer i) ∨
      x.isFinite = true ∧ numberJson x = .float x ∨
      x.isFinite = false ∧ numberJson x = .null := by
  rw [numberJson]
  cases hi : Number.integer? x with
  | some i =>
      by_cases hbound : i.natAbs < integerBound
      · exact .inl ⟨i, rfl, hbound, if_pos hbound⟩
      · exact .inr (.inl ⟨Number.isFinite_of_integer? hi, if_neg hbound⟩)
  | none => cases x.isFinite <;> simp

/-- A number comes in with the document that it went out with. -/
theorem yields_number (x : Float) : Yields (numberJson x) fun (t : Store τ) v =>
    unguardedJson t v = some (numberJson x) := by
  intro s t _
  rcases numberJson_cases x with ⟨i, hi, hbound, hx⟩ | ⟨_, hx⟩ | ⟨_, hx⟩
  -- An integer comes in as the number nearest to it, which is written as that integer again.
  · have hagain : numberJson (Number.ofInt i) = .integer i := by
      simp only [numberJson, Number.integer?_ofInt hi, if_pos hbound]
    rw [hx]
    exact (unguardedJson_plain t rfl).trans (congrArg some hagain)
  · rw [hx]
    exact (unguardedJson_plain t rfl).trans (congrArg some hx)
  · rw [hx]
    exact unguardedJson_plain t rfl

theorem map_eq_of_forall₂ {α β γ : Type} {f : α → γ} {g : β → γ} {as : List α} {bs : List β}
    (h : List.Forall₂ (fun a b => g b = f a) as bs) : bs.map g = as.map f := by
  induction h with
  | nil => rfl
  | cons hab _ ih => rw [List.map_cons, List.map_cons, hab, ih]

/-- The value that comes in has the document that it came from. -/
theorem yields_document (s : Store σ) (v : Value) (opened : List Container) :
    Yields (documentIn s opened v) fun (t : Store τ) w =>
      unguardedJson t w = some (documentIn s opened v) := by
  induction v, opened using opened_induction s with
  | step v opened ih =>
      cases v with
      | array r =>
          rw [documentIn_array]
          split
          -- What is open went out as null, and null comes in.
          · exact fun _ t _ => unguardedJson_plain t rfl
          · next hnew =>
            refine (yields_array (ih _ rfl hnew)).imp ?_
            rintro t _ ⟨q, rfl, hall⟩
            refine unguardedJson_array_iff.mpr ⟨_, ?_, rfl⟩
            rw [List.map_map]
            exact map_eq_of_forall₂ hall
      | object r =>
          rw [documentIn_object]
          split
          · exact fun _ t _ => unguardedJson_plain t rfl
          · next hnew =>
            refine (yields_object (ih _ rfl hnew)).imp ?_
            rintro t _ ⟨q, rfl, hall⟩
            refine unguardedJson_object_iff.mpr ⟨_, ?_, rfl⟩
            rw [List.map_map]
            refine map_eq_of_forall₂ (hall.imp ?_)
            rintro e field ⟨hname, hitem⟩
            rw [hitem, ← hname]
            rfl
      | number x =>
          rw [documentIn_plain s opened rfl]
          exact yields_number x
      | _ =>
          rw [documentIn_plain s opened rfl]
          exact fun _ t _ => unguardedJson_plain t rfl

/-- What is written without a guard is written with one. -/
theorem toJson_of_unguardedJson {t : Store τ} {w : Value} {d : Json}
    (h : unguardedJson t w = some d) : toJson t w = d := by
  have hagree := unguardedJson_of_acyclic (acyclic_of_unguardedJson h) (clear_nil t w)
  exact Option.some.inj (hagree.symm.trans h)

/-! ### The same value -/

/-- Whether a value is one that documents can hold, apart from what it contains. -/
def isDatum : Value → Bool
  | null | truth _ | text _ | array _ | object _ => true
  | number x => x.isFinite
  | undefined | host _ | function _ => false

/-- A value, and everything that it contains, is one that documents can hold. -/
def IsData (s : Store σ) (v : Value) : Prop :=
  ∀ w, ReflTransGen (Contains s) v w → w.isDatum = true

/-- Values that are the same, each in its own store: numbers are equal, the elements of arrays are
    the same one by one, and the fields of objects name by name. -/
inductive Alike (s : Store σ) (t : Store τ) : Value → Value → Prop
  | null : Alike s t null null
  | truth (b : Bool) : Alike s t (truth b) (truth b)
  | number {x y : Float} (h : (x == y) = true) : Alike s t (number x) (number y)
  | text (a : String) : Alike s t (text a) (text a)
  | array {r q : ArrayRef}
      (h : List.Forall₂ (Alike s t) (s.elements r).toList (t.elements q).toList) :
      Alike s t (array r) (array q)
  | object {r q : ObjectRef}
      (h : ∀ name, Option.Rel (Alike s t) ((s.fields r).get? name) ((t.fields q).get? name)) :
      Alike s t (object r) (object q)

variable {s : Store σ} {v w : Value}

theorem IsData.below (h : IsData s v) (hw : Contains s v w) : IsData s w :=
  fun u hu => h u (.head hw hu)

/-- Entries that go together by their names stand for what goes together. -/
theorem rel_get? {α β : Type} {R : α → β → Prop} {a : Record α} {b : Record β}
    (h : List.Forall₂ (fun e g => e.1 = g.1 ∧ R e.2 g.2) a.entries b.entries) (name : String) :
    Option.Rel R (a.get? name) (b.get? name) := by
  unfold Record.get?
  generalize a.entries = es at h ⊢
  generalize b.entries = gs at h ⊢
  induction h with
  | nil => exact .none
  | @cons e g es gs hfirst _ ih =>
      simp only [Record.lookupEntry, ← hfirst.1]
      split
      · exact .some hfirst.2
      · exact ih

/-- A finite number comes in as an equal one. -/
theorem yields_equal {x : Float} (h : x.isFinite = true) (s : Store σ) :
    Yields (numberJson x) fun (t : Store τ) v => Alike s t (number x) v := by
  intro s' t _
  rcases numberJson_cases x with ⟨i, hi, hbound, hx⟩ | ⟨_, hx⟩ | ⟨hnot, _⟩
  · rw [hx]
    exact .number (Number.beq_of_integer? hi (Number.integer?_ofInt hi))
  · rw [hx]
    exact .number (Number.beq_self_of_isFinite h)
  · rw [h] at hnot
    cases hnot

/-- Data without cycles comes in as it went out. -/
theorem yields_alike {opened : List Container} (h : Acyclic s v) (hclear : Clear s opened v)
    (hdata : IsData s v) :
    Yields (documentIn s opened v) fun (t : Store τ) w => Alike s t v w := by
  revert hdata
  refine clear_induction (motive := fun v opened => IsData s v →
    Yields (documentIn s opened v) fun (t : Store τ) w => Alike s t v w) ?_ h hclear
  intro v opened ih hdata
  have hdatum : v.isDatum = true := hdata v .refl
  cases v with
  | array r =>
      rcases ih _ rfl with ⟨hnew, hbelow⟩
      rw [documentIn_array, if_neg hnew]
      refine (yields_array fun w hw => hbelow w hw (hdata.below ⟨_, rfl, hw⟩)).imp ?_
      rintro t _ ⟨q, rfl, hall⟩
      exact .array hall
  | object r =>
      rcases ih _ rfl with ⟨hnew, hbelow⟩
      rw [documentIn_object, if_neg hnew]
      refine (yields_object fun w hw => hbelow w hw (hdata.below ⟨_, rfl, hw⟩)).imp ?_
      rintro t _ ⟨q, rfl, hall⟩
      exact .object (rel_get? hall)
  | number x =>
      rw [documentIn_plain s opened rfl]
      exact yields_equal hdatum s
  | null =>
      rw [documentIn_plain s opened rfl]
      exact fun _ _ _ => .null
  | truth b =>
      rw [documentIn_plain s opened rfl]
      exact fun _ _ _ => .truth b
  | text a =>
      rw [documentIn_plain s opened rfl]
      exact fun _ _ _ => .text a
  | undefined | host | function => cases hdatum

/-! ### Round trips -/

/-- What comes in from the document of a value. -/
theorem yields_value (s : Store σ) (v : Value) : Yields (toJson s v) fun (t : Store τ) w =>
    toJson t w = toJson s v ∧ (Acyclic s v → IsData s v → Alike s t v w) :=
  fun s' t ht => ⟨toJson_of_unguardedJson (yields_document s v [] s' t ht),
    fun h hdata => yields_alike h (clear_nil s v) hdata s' t ht⟩

/-- The document of a context comes in as a context that goes with it name by name. -/
theorem forall₂_ofJson? (s : Store σ) (context : Context) (t : Store τ) :
    ∃ context' t', Context.ofJson? (context.toJson s) t = .ok (context', t') ∧
      List.Forall₂ (fun e g => e.1 = g.1 ∧ toJson t' g.2 = toJson s e.2 ∧
        (Acyclic s e.2 → IsData s e.2 → Alike s t' e.2 g.2)) context.entries context'.entries := by
  refine ⟨_, _, rfl, ?_⟩
  rw [entries_ofJsonFields (pairwise_fields context (toJson s))]
  exact forall₂_ofJsonFields (fun v _ => yields_value s v) (.refl _)

/-- Whatever a value contains, and even if that is itself, the value that comes in from its document
    has the same document; and data without cycles comes in as it went out. Contexts come in
    likewise. -/
theorem ofJson_toJson (s : Store σ) (t : Store τ) (v : Value) (context : Context) :
    toJson (ofJson (toJson s v) t).2 (ofJson (toJson s v) t).1 = toJson s v ∧
    (Acyclic s v → IsData s v →
      Alike s (ofJson (toJson s v) t).2 v (ofJson (toJson s v) t).1) ∧
    ∃ context' t', Context.ofJson? (context.toJson s) t = .ok (context', t') ∧
      context'.toJson t' = context.toJson s ∧
      ((∀ e ∈ context.entries, Acyclic s e.2 ∧ IsData s e.2) →
        ∀ name, Option.Rel (Alike s t') (context.get? name) (context'.get? name)) := by
  rcases yields_value s v t _ (.refl _) with ⟨hdocument, halike⟩
  rcases forall₂_ofJson? s context t with ⟨context', t', hcontext, hall⟩
  refine ⟨hdocument, halike, context', t', hcontext, ?_, fun hdata => rel_get? ?_⟩
  · refine congrArg Json.object (map_eq_of_forall₂ (hall.imp ?_))
    rintro e g ⟨hname, hitem, _⟩
    rw [hname, hitem]
  · refine ((List.forall₂_and_left _ _).mpr ⟨hdata, hall⟩).imp ?_
    rintro e g ⟨⟨hacyclic, hall⟩, hname, _, halike⟩
    exact ⟨hname, halike hacyclic hall⟩

theorem isData_of_below (h : v.isDatum = true) (hbelow : ∀ w, Contains s v w → IsData s w) :
    IsData s v := by
  intro u hu
  rcases hu.cases_head with rfl | ⟨w, hw, hwu⟩
  · exact h
  · exact hbelow w hw u hwu

/-- The context in which one name stands for an array that holds another one twice. -/
def sharingContext : Context where
  entries := [("a", array ⟨1⟩)]
  sorted := .cons (by simp) .nil

theorem ofJson_of_shared_array : Acyclic sharing (array ⟨1⟩) ∧ IsData sharing (array ⟨1⟩) ∧
    Alike sharing (ofJson (toJson sharing (array ⟨1⟩)) (Store.empty 0 ())).2 (array ⟨1⟩)
      (ofJson (toJson sharing (array ⟨1⟩)) (Store.empty 0 ())).1 ∧
    ∃ context' t', Context.ofJson? (sharingContext.toJson sharing) (Store.empty 0 ()) =
        .ok (context', t') ∧
      Option.Rel (Alike sharing t') (some (array ⟨1⟩)) (context'.get? "a") := by
  have hinner : IsData sharing (array ⟨0⟩) := by
    refine isData_of_below rfl ?_
    rintro w ⟨_, ⟨⟩, hw⟩
    cases List.mem_singleton.mp hw
    exact isData_of_below rfl (by rintro w ⟨_, ⟨⟩, _⟩)
  have houter : IsData sharing (array ⟨1⟩) := by
    refine isData_of_below rfl ?_
    rintro w ⟨_, ⟨⟩, hw⟩
    rcases List.mem_pair.mp hw with rfl | rfl
    · exact hinner
    · exact hinner
  rcases ofJson_toJson sharing (Store.empty 0 ()) (array ⟨1⟩) sharingContext with
    ⟨_, halike, context', t', hcontext, _, hnames⟩
  refine ⟨acyclic_sharing, houter, halike acyclic_sharing houter, context', t', hcontext, ?_⟩
  refine hnames (fun e he => ?_) "a"
  cases List.mem_singleton.mp he
  exact ⟨acyclic_sharing, houter⟩

end Value

end Scriptlet
