import Scriptlet.Proofs.Value.Reach
import Scriptlet.Value.Json
import Scriptlet.Value.Text

/-!
# Guarded Writing

Texts and documents of values are written with a set of open containers that
keeps the writing from following a cycle. The set is a state, and a container
that stayed in it would be missing wherever else it is shared. Every writing
ends and leaves the set as it found it, so what is written is a function of the
value and of the containers that are open around it, and has equations without
any state.

With these equations the guard can be compared to none. Where no cycle is
reached, an open container is never met, and unguarded writing gives the same.
Elsewhere unguarded writing of a document does not end.

## Main definitions

* `Writing.Gives`: Writing ends, and leaves the open containers as they were.
* `Writing.given`: What is written inside open containers.
* `Value.textIn`, `Value.joinIn`, `Value.documentIn`: Texts and documents inside
  open containers.
* `ArrayRef.unguardedJoin`, `Value.unguardedText`, `Value.unguardedJson`: Writing
  without open containers.

## Theorems

* `Value.gives_text`, `Value.gives_join`, `Value.gives_json`: All writing ends.
* `Value.joinIn_eq`, `Value.documentIn_array`, `Value.documentIn_object`: What is
  written inside open containers.
* `Value.unguardedText_of_acyclic`, `Value.unguardedJson_of_acyclic`: The guard
  changes nothing where no cycle is reached.
* `Value.acyclic_of_unguardedJson`: Without a guard, documents end only there.
* `Value.writing_ends_and_agrees`: All of this together.
-/

namespace Scriptlet

/-- Going through a list succeeds if it does so everywhere. -/
theorem mapM_eq_some_iff {α β : Type} {f : α → Option β} {as : List α} {bs : List β} :
    as.mapM f = some bs ↔ as.map f = bs.map some := by
  induction as generalizing bs with
  | nil => cases bs <;> simp
  | cons a as ih => cases bs <;> simp [Option.bind_eq_some_iff, ih]

namespace Writing

variable {α β : Type} {opened : List Container} {c : Container}

/-- Writing ends with a result, and leaves the open containers as they were. -/
def Gives (writing : Writing α) (opened : List Container) (a : α) : Prop :=
  writing.run opened = some (a, opened)

/-- What is written inside open containers, or `missing` if that does not end. -/
def given (missing : α) (opened : List Container) (writing : Writing α) : α :=
  (writing.run' opened).getD missing

/-- Writing a container: its contents while it is open, or something in place of it. -/
def enclosed (c : Container) (instead : β) (f : α → β) (contents : Writing α) : Writing β := do
  if ← enter c then
    let a ← contents
    leave c
    pure (f a)
  else
    pure instead

theorem Gives.given_eq {writing : Writing α} {a : α} (h : writing.Gives opened a) (missing : α) :
    writing.given missing opened = a := by
  have hrun : writing opened = some (a, opened) := h
  simp [given, StateT.run', hrun]

theorem gives_pure (a : α) : (pure a : Writing α).Gives opened a := rfl

theorem Gives.map {writing : Writing α} {a : α} (h : writing.Gives opened a) (f : α → β) :
    (f <$> writing).Gives opened (f a) := by
  have hrun : writing.run opened = some (a, opened) := h
  simp [Gives, hrun]

/-- A container that is open is not written. Another one is open during its contents, and closed
    again behind them. -/
theorem gives_enclosed {f : α → β} {instead : β} {contents : Writing α} {a : α}
    (h : c ∉ opened → contents.Gives (c :: opened) a) :
    (enclosed c instead f contents).Gives opened (if c ∈ opened then instead else f a) := by
  by_cases hopen : c ∈ opened
  · simp [Gives, enclosed, enter, hopen]
  · have hrun : contents.run (c :: opened) = some (a, c :: opened) := h hopen
    simp [Gives, enclosed, enter, leave, hopen, hrun]

/-- One after another, all are written inside the same containers. -/
theorem gives_mapM {f : α → Writing β} {g : α → β} {items : List α}
    (h : ∀ a ∈ items, (f a).Gives opened (g a)) :
    (items.mapM f).Gives opened (items.map g) := by
  induction items with
  | nil => rfl
  | cons a items ih =>
      have hfirst : (f a).run opened = some (g a, opened) := h a List.mem_cons_self
      have hothers : (items.mapM f).run opened = some (items.map g, opened) :=
        ih fun b hb => h b (List.mem_cons_of_mem a hb)
      simp [Gives, List.mapM_cons, hfirst, hothers]

end Writing

namespace Value

open Writing
open ArrayRef (joinWithin)

variable {σ : Type} {s : Store σ} {v : Value} {opened : List Container}

/-! ### Texts -/

/-- What an element adds to the text of an array, where `f` gives the text forms of values. -/
def element {α : Type} (empty : α) (f : Value → α) : Value → α
  | undefined | null => empty
  | v => f v

theorem joinWithin_eq (s : Store σ) (separator : String) (r : ArrayRef) :
    joinWithin s separator r = enclosed (.array r) "" (String.intercalate separator)
      ((s.elements r).toList.mapM (element (pure "") (textWithin s))) := by
  rw [joinWithin, enclosed]
  congr! 6 with entered _ w
  cases w <;> rfl

/-- The text form of a value inside open containers. -/
def textIn (s : Store σ) (opened : List Container) (v : Value) : String :=
  (textWithin s v).given "" opened

/-- The texts of the elements of an array, with a separator, inside open containers. -/
def joinIn (s : Store σ) (separator : String) (opened : List Container) (r : ArrayRef) : String :=
  (joinWithin s separator r).given "" opened

theorem gives_element {f : Value → Writing String} {g : Value → String}
    (h : (f v).Gives opened (g v)) :
    (element (pure "") f v).Gives opened (element "" g v) := by
  cases v with
  | undefined | null => rfl
  | _ => exact h

theorem gives_join_of_elements {r : ArrayRef} {g : Value → String} (separator : String)
    (h : .array r ∉ opened → ∀ w ∈ s.contents (.array r),
      (textWithin s w).Gives (.array r :: opened) (g w)) :
    (joinWithin s separator r).Gives opened (if .array r ∈ opened then ""
      else String.intercalate separator ((s.elements r).toList.map (element "" g))) := by
  rw [joinWithin_eq]
  exact gives_enclosed fun hnew => gives_mapM fun w hw => gives_element (h hnew w hw)

theorem gives_text (s : Store σ) (v : Value) (opened : List Container) :
    (textWithin s v).Gives opened (textIn s opened v) := by
  induction v, opened using opened_induction s with
  | step v opened ih =>
      suffices h : ∃ t, (textWithin s v).Gives opened t by
        rcases h with ⟨t, ht⟩
        rwa [textIn, ht.given_eq]
      cases v with
      | array r => exact ⟨_, gives_join_of_elements "," (ih (.array r) rfl)⟩
      | _ => exact ⟨_, gives_pure _⟩

theorem joinIn_eq (s : Store σ) (separator : String) (opened : List Container) (r : ArrayRef) :
    joinIn s separator opened r = if .array r ∈ opened then ""
      else String.intercalate separator
        ((s.elements r).toList.map (element "" (textIn s (.array r :: opened)))) :=
  (gives_join_of_elements separator fun _ w _ => gives_text s w _).given_eq _

theorem gives_join (s : Store σ) (separator : String) (r : ArrayRef) (opened : List Container) :
    (joinWithin s separator r).Gives opened (joinIn s separator opened r) := by
  rw [joinIn_eq]
  exact gives_join_of_elements separator fun _ w _ => gives_text s w _

theorem textIn_array (s : Store σ) (opened : List Container) (r : ArrayRef) :
    textIn s opened (array r) = joinIn s "," opened r := rfl

theorem textIn_text (s : Store σ) (opened : List Container) (t : String) :
    textIn s opened (text t) = t := rfl

/-! ### Documents -/

theorem toJsonWithin_array (s : Store σ) (r : ArrayRef) :
    toJsonWithin s (array r) =
      enclosed (.array r) .null .array ((s.elements r).toList.mapM (toJsonWithin s)) := by
  rw [toJsonWithin, enclosed]

theorem toJsonWithin_object (s : Store σ) (r : ObjectRef) :
    toJsonWithin s (object r) = enclosed (.object r) .null .object
      ((s.fields r).entries.mapM fun e => (e.1, ·) <$> toJsonWithin s e.2) := by
  rw [toJsonWithin, enclosed]
  rfl

/-- The document of a value inside open containers. -/
def documentIn (s : Store σ) (opened : List Container) (v : Value) : Json :=
  (toJsonWithin s v).given .null opened

theorem gives_json_array {r : ArrayRef} {g : Value → Json}
    (h : .array r ∉ opened → ∀ w ∈ s.contents (.array r),
      (toJsonWithin s w).Gives (.array r :: opened) (g w)) :
    (toJsonWithin s (array r)).Gives opened
      (if .array r ∈ opened then .null else .array ((s.elements r).toList.map g)) := by
  rw [toJsonWithin_array]
  exact gives_enclosed fun hnew => gives_mapM (h hnew)

theorem gives_json_object {r : ObjectRef} {g : Value → Json}
    (h : .object r ∉ opened → ∀ w ∈ s.contents (.object r),
      (toJsonWithin s w).Gives (.object r :: opened) (g w)) :
    (toJsonWithin s (object r)).Gives opened
      (if .object r ∈ opened then .null
        else .object ((s.fields r).entries.map fun e => (e.1, g e.2))) := by
  rw [toJsonWithin_object]
  refine gives_enclosed fun hnew => gives_mapM fun e he => ?_
  exact (h hnew e.2 (List.mem_map_of_mem he)).map (e.1, ·)

theorem gives_json_plain (s : Store σ) (h : v.container? = none) :
    (toJsonWithin s v).Gives opened v.plainJson := by
  cases v <;> simp only [container?, reduceCtorEq] at h <;> rw [toJsonWithin] <;> simp [Gives]

theorem gives_json (s : Store σ) (v : Value) (opened : List Container) :
    (toJsonWithin s v).Gives opened (documentIn s opened v) := by
  induction v, opened using opened_induction s with
  | step v opened ih =>
      suffices h : ∃ d, (toJsonWithin s v).Gives opened d by
        rcases h with ⟨d, hd⟩
        rwa [documentIn, hd.given_eq]
      cases v with
      | array r => exact ⟨_, gives_json_array (ih (.array r) rfl)⟩
      | object r => exact ⟨_, gives_json_object (ih (.object r) rfl)⟩
      | _ => exact ⟨_, gives_json_plain s rfl⟩

theorem documentIn_array (s : Store σ) (opened : List Container) (r : ArrayRef) :
    documentIn s opened (array r) = if .array r ∈ opened then .null
      else .array ((s.elements r).toList.map (documentIn s (.array r :: opened))) :=
  (gives_json_array fun _ w _ => gives_json s w _).given_eq _

theorem documentIn_object (s : Store σ) (opened : List Container) (r : ObjectRef) :
    documentIn s opened (object r) = if .object r ∈ opened then .null
      else .object
        ((s.fields r).entries.map fun e => (e.1, documentIn s (.object r :: opened) e.2)) :=
  (gives_json_object fun _ w _ => gives_json s w _).given_eq _

theorem documentIn_plain (s : Store σ) (opened : List Container) (h : v.container? = none) :
    documentIn s opened v = v.plainJson :=
  (gives_json_plain s h).given_eq _

end Value

/-! ### Without a guard -/

/-- The texts of the elements of an array with a separator between them, as if no array contained
    itself. -/
def ArrayRef.unguardedJoin {σ : Type} (s : Store σ) (separator : String) (r : ArrayRef) :
    Option String := do
  let texts ← (s.elements r).toList.mapM fun
    | .undefined | .null => pure ""
    | .array q => q |>.unguardedJoin s ","
    | v => pure v.plainText
  pure (String.intercalate separator texts)
partial_fixpoint

namespace Value

open ArrayRef (joinWithin unguardedJoin)

variable {σ : Type} {s : Store σ} {v : Value} {opened : List Container}

/-- The text form of a value, as if no array contained itself. -/
def unguardedText (s : Store σ) : Value → Option String
  | array r => unguardedJoin s "," r
  | v => pure v.plainText

/-- The document of a value, as if no array or object contained itself. -/
def unguardedJson (s : Store σ) (v : Value) : Option Json := do
  match v with
  | array r =>
    let items ← (s.elements r).toList.mapM fun item => item |>.unguardedJson s
    pure (.array items)
  | object r =>
    let fields ← (s.fields r).entries.mapM fun e => do
      let item ← e.2 |>.unguardedJson s
      pure (e.1, item)
    pure (.object fields)
  | v => pure v.plainJson
partial_fixpoint

theorem unguardedJoin_of_elements {r : ArrayRef} {g : Value → String} (separator : String)
    (h : ∀ w ∈ s.contents (.array r), unguardedText s w = some (g w)) :
    unguardedJoin s separator r =
      some (String.intercalate separator ((s.elements r).toList.map (element "" g))) := by
  have helement : ∀ w ∈ (s.elements r).toList, element (some "") (unguardedText s) w =
      some (element "" g w) := by
    intro w hw
    cases w with
    | undefined | null => rfl
    | _ => exact h _ hw
  have hall : (s.elements r).toList.mapM (element (some "") (unguardedText s)) =
      some ((s.elements r).toList.map (element "" g)) := by
    rw [mapM_eq_some_iff, List.map_map]
    exact List.map_congr_left helement
  rw [unguardedJoin]
  refine Option.bind_eq_some_iff.mpr ⟨_, ?_, rfl⟩
  rw [← hall]
  congr 1
  funext v
  cases v <;> rfl

theorem unguardedJson_array_iff {r : ArrayRef} {d : Json} :
    unguardedJson s (array r) = some d ↔
      ∃ items, (s.elements r).toList.map (unguardedJson s) = items.map some ∧
        .array items = d := by
  rw [unguardedJson]
  simp [Option.bind_eq_some_iff, mapM_eq_some_iff]

theorem unguardedJson_object_iff {r : ObjectRef} {d : Json} :
    unguardedJson s (object r) = some d ↔
      ∃ fields, (s.fields r).entries.map (fun e => (unguardedJson s e.2).map (e.1, ·)) =
        fields.map some ∧ .object fields = d := by
  rw [unguardedJson]
  simp [Option.bind_eq_some_iff, mapM_eq_some_iff, Option.map_eq_bind]

theorem unguardedJson_plain (s : Store σ) (h : v.container? = none) :
    unguardedJson s v = some v.plainJson := by
  cases v <;> simp only [container?, reduceCtorEq] at h <;> rw [unguardedJson] <;> simp

/-- Where no cycle is reached, the guard of texts changes nothing. -/
theorem unguardedText_of_acyclic (h : Acyclic s v) (hclear : Clear s opened v) :
    unguardedText s v = some (textIn s opened v) := by
  refine clear_induction
    (motive := fun v opened => unguardedText s v = some (textIn s opened v)) (fun v opened ih => ?_)
    h hclear
  cases v with
  | array r =>
      rcases ih _ rfl with ⟨hnew, helements⟩
      rw [textIn_array, joinIn_eq, if_neg hnew]
      exact unguardedJoin_of_elements "," helements
  | _ => rfl

theorem unguardedJoin_of_acyclic {r : ArrayRef} (separator : String) (h : Acyclic s (array r)) :
    unguardedJoin s separator r = some (join s separator r) := by
  have hjoin : join s separator r = joinIn s separator [] r := rfl
  rw [hjoin, joinIn_eq, if_neg List.not_mem_nil]
  refine unguardedJoin_of_elements separator fun w hw => ?_
  exact unguardedText_of_acyclic (h.below ⟨_, rfl, hw⟩) ((clear_nil s _).below h rfl hw)

/-- Where no cycle is reached, the guard of documents changes nothing. -/
theorem unguardedJson_of_acyclic (h : Acyclic s v) (hclear : Clear s opened v) :
    unguardedJson s v = some (documentIn s opened v) := by
  refine clear_induction
    (motive := fun v opened => unguardedJson s v = some (documentIn s opened v))
    (fun v opened ih => ?_) h hclear
  cases v with
  | array r =>
      rcases ih _ rfl with ⟨hnew, helements⟩
      rw [documentIn_array, if_neg hnew, unguardedJson_array_iff]
      refine ⟨_, ?_, rfl⟩
      rw [List.map_map]
      exact List.map_congr_left helements
  | object r =>
      rcases ih _ rfl with ⟨hnew, hfields⟩
      rw [documentIn_object, if_neg hnew, unguardedJson_object_iff]
      refine ⟨_, ?_, rfl⟩
      rw [List.map_map]
      refine List.map_congr_left fun e he => ?_
      rw [hfields e.2 (List.mem_map_of_mem he)]
      rfl
  | _ => rw [unguardedJson_plain s rfl, documentIn_plain s opened rfl]

/-- Without a guard, what is contained has a smaller document. -/
theorem unguardedJson_below {w : Value} {d : Json} (h : unguardedJson s v = some d)
    (hw : Contains s v w) : ∃ d', unguardedJson s w = some d' ∧ sizeOf d' < sizeOf d := by
  rcases hw with ⟨c, hc, hw⟩
  cases v with
  | array r =>
      cases hc
      rcases unguardedJson_array_iff.mp h with ⟨items, hitems, rfl⟩
      have hmem : unguardedJson s w ∈ items.map some := hitems ▸ List.mem_map_of_mem hw
      rcases List.mem_map.mp hmem with ⟨d', hd', heq⟩
      have hlt := List.sizeOf_lt_of_mem hd'
      refine ⟨d', heq.symm, ?_⟩
      simp only [Json.array.sizeOf_spec]
      omega
  | object r =>
      cases hc
      rcases unguardedJson_object_iff.mp h with ⟨fields, hfields, rfl⟩
      rcases List.mem_map.mp hw with ⟨e, he, rfl⟩
      have hmem : (unguardedJson s e.2).map (e.1, ·) ∈ fields.map some :=
        hfields ▸ List.mem_map_of_mem (f := fun e => (unguardedJson s e.2).map (e.1, ·)) he
      rcases List.mem_map.mp hmem with ⟨field, hfield, heq⟩
      rcases Option.map_eq_some_iff.mp heq.symm with ⟨d', hd', rfl⟩
      have hlt := List.sizeOf_lt_of_mem hfield
      refine ⟨d', hd', ?_⟩
      simp only [Json.object.sizeOf_spec, Prod.mk.sizeOf_spec] at hlt ⊢
      omega
  | _ => cases hc

/-- Without a guard, documents are written only where no cycle is reached. -/
theorem acyclic_of_unguardedJson {d : Json} (h : unguardedJson s v = some d) : Acyclic s v := by
  rw [acyclic_iff_acc]
  induction hsize : sizeOf d using Nat.strong_induction_on generalizing v d with
  | _ size ih =>
      refine .intro v fun w hw => ?_
      rcases unguardedJson_below h hw with ⟨d', hd', hlt⟩
      exact ih _ (hsize ▸ hlt) hd' rfl

/-- However arrays and objects are shared, and whatever contains itself, texts and documents are
    written to an end, and the open containers are then as they were. Where no cycle is reached
    from a value, its text and its document are those that are written without a guard, and only
    there such a document ends. -/
theorem writing_ends_and_agrees (s : Store σ) (v : Value) (separator : String) (r : ArrayRef) :
    (∀ opened,
      (∃ t, (textWithin s v).run opened = some (t, opened)) ∧
      (∃ t, (joinWithin s separator r).run opened = some (t, opened)) ∧
      ∃ d, (toJsonWithin s v).run opened = some (d, opened)) ∧
    (textWithin s v).run [] = some (toText s v, []) ∧
    (joinWithin s separator r).run [] = some (join s separator r, []) ∧
    (toJsonWithin s v).run [] = some (toJson s v, []) ∧
    (Acyclic s v → unguardedText s v = some (toText s v)) ∧
    (Acyclic s (array r) → unguardedJoin s separator r = some (join s separator r)) ∧
    (Acyclic s v ↔ unguardedJson s v = some (toJson s v)) := by
  refine ⟨fun opened => ⟨⟨_, gives_text s v opened⟩, ⟨_, gives_join s separator r opened⟩,
    _, gives_json s v opened⟩, gives_text s v [], gives_join s separator r [], gives_json s v [],
    ?_, unguardedJoin_of_acyclic separator, ?_⟩
  · exact fun h => unguardedText_of_acyclic h (clear_nil s v)
  · exact ⟨fun h => unguardedJson_of_acyclic h (clear_nil s v), acyclic_of_unguardedJson⟩

/-- A store in which an array holds another one twice, and a third one holds itself. -/
def sharing : Store Unit where
  arrays := #[#[text "x"], #[array ⟨0⟩, array ⟨0⟩], #[array ⟨2⟩, array ⟨1⟩]]
  objects := #[]
  seed := 0
  world := ()

theorem acyclic_sharing : Acyclic sharing (array ⟨1⟩) := by
  have hinner : Acyclic sharing (array ⟨0⟩) := by
    refine acyclic_of_below ?_
    rintro w ⟨_, ⟨⟩, hw⟩
    cases List.mem_singleton.mp hw
    exact acyclic_of_below (by rintro w ⟨_, ⟨⟩, _⟩)
  refine acyclic_of_below ?_
  rintro w ⟨_, ⟨⟩, hw⟩
  rcases List.mem_pair.mp hw with rfl | rfl
  · exact hinner
  · exact hinner

theorem writing_of_shared_array : Acyclic sharing (array ⟨1⟩) ∧
    unguardedText sharing (array ⟨1⟩) = some "x,x" ∧
    unguardedJoin sharing "-" ⟨1⟩ = some "x-x" ∧
    (textWithin sharing (array ⟨2⟩)).run [] = some (",x,x", []) := by
  have h := writing_ends_and_agrees sharing (array ⟨1⟩) "-" ⟨1⟩
  have hcyclic := writing_ends_and_agrees sharing (array ⟨2⟩) "-" ⟨2⟩
  refine ⟨acyclic_sharing, ?_, ?_, ?_⟩
  · have htext : toText sharing (array ⟨1⟩) = joinIn sharing "," [] ⟨1⟩ := rfl
    rw [h.2.2.2.2.1 acyclic_sharing, htext]
    simp [joinIn_eq, textIn_array, textIn_text, element, Store.elements, sharing]
  · have hjoin : join sharing "-" ⟨1⟩ = joinIn sharing "-" [] ⟨1⟩ := rfl
    rw [h.2.2.2.2.2.1 acyclic_sharing, hjoin]
    simp [joinIn_eq, textIn_array, textIn_text, element, Store.elements, sharing]
  · have htext : toText sharing (array ⟨2⟩) = joinIn sharing "," [] ⟨2⟩ := rfl
    rw [hcyclic.2.1, htext]
    simp [joinIn_eq, textIn_array, textIn_text, element, Store.elements, sharing]

end Value

end Scriptlet
