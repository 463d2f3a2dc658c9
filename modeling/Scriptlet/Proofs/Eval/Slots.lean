import Scriptlet.Proofs.Eval.Kept

/-!
# What an Assignment Writes

An assignment finds its slot first, then evaluates its right side, and then
reads and writes the slot. Two questions are answered here about what lies
between the first step and the last.

The first is about members. They are found by one routine if they are assigned
to and by another if they are read. The two agree on every key that is not a
call: what can be assigned to can also be read, with the same effects on the
way, and reading it gives what is in the slot. Behind an access a call is the
call of a method of the object, so there the two mean different things.

The second is about names. A name can have a value in two layers, the frame of
running loops and the context, and the layer is chosen before the right side is
evaluated. The right side may run loops with a variable of that name, and the
old value is read by a lookup that takes the first layer that has one. Nothing
is lost by this, since evaluation leaves the layers with the names that they
had: the old value comes from the chosen layer, the new one goes there, and it
is found there afterwards.

## Main definitions

* `Layer`: Where a name can have a value.
* `Machine.layerOf`, `Machine.read?`, `Machine.write`: The layer of a name, and its value there.
* `Expr.assignment?`: The target and the update of an assignment.
* `Update.stored`: What an assignment has stored, given its value.

## Theorems

* `evalMember_of_resolveMember`: A member that is found to be written is there to be read.
* `eval_member_of_resolve`: The same for an access and what is below it.
* `lookup_write_layerOf`: A name that is written in its layer stands for what was written.
* `layer_of_resolveName`: The slot of a name is its layer.
* `assignment_reaches_layer`: What an assignment to a name reads and writes.
-/

namespace Scriptlet

variable {σ : Type}

/-! ### Members -/

section Members

variable [Host σ]

/-- A member that is found to be written is there to be read. -/
theorem evalMember_of_resolveMember {ev : Expr → Eval σ Value} {left right : Expr}
    (hright : ∀ name args mark, right ≠ .call name args mark) {m m' : Machine σ} {object : Value}
    {key : String} (h : resolveMember ev left right m = (.value (.member object key), m')) :
    evalMember ev left right m = (.value (object.getMember m'.store key), m') := by
  rcases resolveMember_eq_value h with ⟨receiver, k, m₁, hleft, hkey, htruthy, _, hslot⟩
  rcases Slot.member.inj hslot with ⟨rfl, rfl⟩
  -- Reading tests the receiver before it comes to the key, and the test is passed.
  unfold evalMember
  rw [Eval.bind_of_value hleft, if_pos htruthy]
  cases right with
  | call name args mark => exact absurd rfl (hright name args mark)
  | _ => exact Eval.bind_of_value hkey _

/-- If an access to a member can be resolved as the target of an assignment, then
    it can be evaluated in place of the assignment. It gives what is in the slot,
    and leaves the machine as resolving it does. -/
theorem eval_member_of_resolve (budget levels : Nat) {op : Operator}
    (hop : op = .dot ∨ op = .index) {left right : Expr}
    (hright : ∀ name args mark, right ≠ .call name args mark) {mark : Mark} {m m' : Machine σ}
    {object : Value} {key : String}
    (h : resolve (eval budget levels) (.binary op left right mark) m.enter =
      (.value (.member object key), m')) :
    eval budget (levels + 1) (.binary op left right mark) m =
      (.value (object.getMember m'.store key), m'.leave) := by
  have hread : evalNode budget (eval budget levels) (.binary op left right mark) m.enter =
      (.value (object.getMember m'.store key), m') := by
    rcases hop with rfl | rfl <;> exact evalMember_of_resolveMember hright h
  rw [eval, Eval.nested_eq, hread]

end Members

/-- A key that is computed by an assignment. Both ways the assignment is made once. -/
theorem read_of_assigned_key :
    ∃ (e : Expr) (m m' : Machine Unit), Expr.parse "o[k = \"b\"]".toList = .ok e ∧
      m.context.get? "k" = some (.text "a") ∧
      resolve (eval 9 3) e m.enter = (.value (.member (.object ⟨0⟩) "b"), m') ∧
      m'.context.get? "k" = some (.text "b") ∧
      Value.getMember m'.store (.object ⟨0⟩) "b" = .text "z" ∧
      eval 9 4 e m = (.value (Value.getMember m'.store (.object ⟨0⟩) "b"), m'.leave) := by
  have hscan : Scan.ofText "o[k = \"b\"]".toList =
      ⟨[⟨.name "o", 0, 1, 0⟩, ⟨.opening .square, 1, 2, 0⟩, ⟨.name "k", 2, 4, 1⟩,
        ⟨.operator .assign, 4, 5, 1⟩, ⟨.constant (.text "b"), 6, 9, 1⟩,
        ⟨.closing .square, 9, 10, 1⟩], .complete 10 0⟩ := by
    with_unfolding_all rfl
  have hparse : Expr.parse "o[k = \"b\"]".toList =
      .ok (.binary .index (.var "o" ⟨0, 0⟩)
        (.binary .assign (.var "k" ⟨2, 10⟩) (.literal (.text "b") ⟨6, 10⟩) ⟨4, 12⟩) ⟨1, 10⟩) := by
    rw [Expr.parse, hscan]
    rfl
  refine ⟨_, ⟨⟨#[], #[Record.empty.insert "b" (.text "z")], 0, ()⟩,
    .ofList [("k", .text "a"), ("o", .object ⟨0⟩)], [], 0⟩, _, hparse, rfl, rfl, rfl, rfl, ?_⟩
  exact eval_member_of_resolve 9 3 (.inr rfl) (by simp) rfl

/-- A call as the key. Assigned to, it is called for the key of a field. Read, it
    is a method that the object does not have. -/
theorem no_read_of_called_key :
    ∃ (e : Expr) (m m' : Machine Unit), Expr.parse "o[string(\"k\")]".toList = .ok e ∧
      resolve (eval 9 3) e m.enter = (.value (.member (.object ⟨0⟩) "k"), m') ∧
      Value.getMember m'.store (.object ⟨0⟩) "k" = .number 7.0 ∧
      (eval 9 4 e m).1 = .failed ⟨.reference, .methodNotFound "string", 2⟩ := by
  have hscan : Scan.ofText "o[string(\"k\")]".toList =
      ⟨[⟨.name "o", 0, 1, 0⟩, ⟨.opening .square, 1, 2, 0⟩, ⟨.function "string", 2, 8, 1⟩,
        ⟨.opening .round, 8, 9, 1⟩, ⟨.constant (.text "k"), 9, 12, 2⟩, ⟨.closing .round, 12, 13, 2⟩,
        ⟨.closing .square, 13, 14, 1⟩], .complete 14 0⟩ := by
    with_unfolding_all rfl
  have hparse : Expr.parse "o[string(\"k\")]".toList =
      .ok (.binary .index (.var "o" ⟨0, 0⟩)
        (.call "string" [.literal (.text "k") ⟨9, 20⟩] ⟨2, 10⟩) ⟨1, 10⟩) := by
    rw [Expr.parse, hscan]
    rfl
  exact ⟨_, ⟨⟨#[], #[Record.empty.insert "k" (.number 7.0)], 0, ()⟩,
    .ofList [("o", .object ⟨0⟩)], [], 0⟩, _, hparse, rfl, rfl, rfl⟩

/-! ### Layers -/

/-- Where a name can have a value. -/
inductive Layer where
  /-- The variables of running loops. -/
  | frame
  /-- The names of the context. -/
  | context

namespace Machine

/-- The layer in which a name is looked for first and may be found. -/
def layerOf (m : Machine σ) (name : String) : Layer :=
  if m.inFrame name then .frame else .context

/-- What a name stands for in a layer. -/
def read? (m : Machine σ) (layer : Layer) (name : String) : Option Value :=
  match layer with
  | .frame => m.frames.head?.bind (·.get? name)
  | .context => m.context.get? name

/-- Gives a value to a name in a layer. -/
def write (m : Machine σ) (layer : Layer) (name : String) (value : Value) : Machine σ :=
  match layer with
  | .frame => m.bindFrame name value
  | .context => m.bindContext name value

/-- Whether a name has a value in a layer. -/
def hasIn (m : Machine σ) (layer : Layer) (name : String) : Bool :=
  match layer with
  | .frame => m.inFrame name
  | .context => m.context.contains name

theorem isSome_read? (m : Machine σ) (layer : Layer) (name : String) :
    (m.read? layer name).isSome = m.hasIn layer name := by
  cases layer with
  | frame =>
      simp only [read?, hasIn, inFrame]
      cases m.frames <;> rfl
  | context => rfl

theorem read?_eq_none {m : Machine σ} {layer : Layer} {name : String}
    (h : ¬ m.hasIn layer name = true) : m.read? layer name = none := by
  rw [← isSome_read?, Bool.not_eq_true, Option.isSome_eq_false_iff] at h
  exact Option.isNone_iff_eq_none.mp h

theorem lookup_eq_or (m : Machine σ) (name : String) :
    m.lookup name = ((m.read? .frame name).or (m.read? .context name)).getD .undefined :=
  rfl

/-- A lookup finds what the layer of the name has. -/
theorem lookup_eq_read? (m : Machine σ) (name : String) :
    m.lookup name = (m.read? (m.layerOf name) name).getD .undefined := by
  rw [lookup_eq_or, layerOf]
  by_cases h : m.inFrame name = true
  · have hsome : (m.read? .frame name).isSome = true := by
      rw [isSome_read?]
      exact h
    rw [if_pos h, Option.or_of_isSome hsome]
  · have hnone : m.read? .frame name = none := read?_eq_none h
    rw [if_neg h, hnone, Option.none_or]

/-- A name that is written in its layer stands for what was written. -/
theorem lookup_write_layerOf (m : Machine σ) (name : String) (value : Value) :
    (m.write (m.layerOf name) name value).lookup name = value := by
  rw [lookup_eq_or, layerOf]
  by_cases h : m.inFrame name = true
  · rw [if_pos h]
    unfold inFrame at h
    cases hframes : m.frames with
    | nil => simp [hframes] at h
    | cons top rest => simp [write, bindFrame, read?, hframes, Record.get?_insert]
  · -- The frame does not have the name, and is not written.
    have hnone : (m.bindContext name value).read? .frame name = none := read?_eq_none h
    rw [if_neg h, write, hnone, Option.none_or]
    simp [read?, bindContext, Record.get?_insert]

end Machine

/-- The slot of a name in a layer. -/
def Layer.slot (layer : Layer) (name : String) : Slot :=
  match layer with
  | frame => .frame name
  | context => .context name

theorem Course.layerOf_eq [Host σ] {allowed : Expr → Prop} {m m' : Machine σ}
    (h : Course allowed none m m') (name : String) : m'.layerOf name = m.layerOf name := by
  unfold Machine.layerOf
  rw [Machine.inFrame_of_frameNames_eq h.frameNames_eq]

theorem Course.hasIn_eq [Host σ] {allowed : Expr → Prop} {m m' : Machine σ}
    (h : Course allowed none m m') (layer : Layer) (name : String) :
    m'.hasIn layer name = m.hasIn layer name := by
  cases layer with
  | frame => exact Machine.inFrame_of_frameNames_eq h.frameNames_eq name
  | context => exact congrFun h.contains_context name

/-- The slot of a name is that of its layer, and the layer has the name. -/
theorem layer_of_resolveName [Host σ] {name : String} {p : Nat} {m m' : Machine σ} {slot : Slot}
    (h : resolveName name p m = (.value slot, m')) :
    m' = m ∧ slot = (m.layerOf name).slot name ∧ m.hasIn (m.layerOf name) name = true := by
  rcases resolveName_eq_value h with ⟨rfl, ⟨rfl, hframe⟩ | ⟨rfl, hhidden, hcontains⟩⟩
  · simp [Machine.layerOf, Machine.hasIn, Layer.slot, hframe]
  · simp [Machine.layerOf, Machine.hasIn, Layer.slot, hhidden, hcontains]

theorem writeSlot_eq_value [Host σ] {layer : Layer} {name : String} {value : Value} {p : Nat}
    {m m' : Machine σ} {u : Unit} (h : writeSlot (layer.slot name) value p m = (.value u, m')) :
    m' = m.write layer name value := by
  cases layer with
  | frame => exact (congrArg Prod.snd h).symm
  | context =>
      simp only [Layer.slot, writeSlot, Bind.bind, Eval.bind, Eval.store] at h
      cases hguard : Host.guardValue m.store name value with
      | some reason => simp [hguard, Eval.fail] at h
      | none =>
          rw [hguard] at h
          exact (congrArg Prod.snd h).symm

/-! ### Assignments to names -/

/-- The target of an assignment and what it makes of the old value. -/
def Expr.assignment? : Expr → Option (Expr × Update)
  | .unary .increment target _ => some (target, .step 1.0)
  | .unary .decrement target _ => some (target, .step (-1.0))
  | .binary .assign target right _ => some (target, .replace right)
  | .binary .addAssign target right _ => some (target, .add right)
  | .binary .subtractAssign target right _ => some (target, .subtract right)
  | _ => none

theorem evalNode_of_assignment? [Host σ] {n target : Expr} {update : Update}
    (h : n.assignment? = some (target, update)) (budget : Nat) (ev : Expr → Eval σ Value) :
    evalNode budget ev n = evalAssign ev target update n.position := by
  unfold Expr.assignment? at h
  split at h <;> simp only [Option.some.injEq, Prod.mk.injEq, reduceCtorEq] at h <;>
    rcases h with ⟨rfl, rfl⟩ <;> rfl

namespace Update

/-- What an assignment has stored, given its value: the value itself, or the next
    number where the value is the old one. -/
def stored (update : Update) (value : Value) : Value :=
  match update, value with
  | step change, .number old => .number (old + change)
  | _, value => value

theorem eq_stored_of_result {update : Update} {s : Store σ} {old right new value : Value}
    (h : update.result s old right = (new, value)) : new = update.stored value := by
  cases update <;> simp only [result, Prod.mk.injEq] at h <;> rcases h with ⟨rfl, rfl⟩ <;> rfl

theorem course_right [Host σ] (update : Update) (budget levels : Nat) (m : Machine σ) :
    Course (fun _ => True) none m (update.right (eval budget levels) m).2 := by
  cases update with
  | replace e | add e | subtract e => exact course_of_tree budget levels e m
  | step change => exact .refl m

end Update

section Assignments

variable [Host σ]

theorem evalAssign_name_eq_value {budget levels : Nat} {name : String} {mark : Mark}
    {update : Update} {p : Nat} {m m' : Machine σ} {value : Value}
    (h : evalAssign (eval budget levels) (.var name mark) update p m = (.value value, m')) :
    ∃ (right old : Value) (m₁ : Machine σ),
      update.right (eval budget levels) m = (.value right, m₁) ∧
      m₁.read? (m.layerOf name) name = some old ∧
      update.result m₁.store old right = (update.stored value, value) ∧
      m' = m₁.write (m.layerOf name) name (update.stored value) := by
  rcases Eval.bind_eq_value h with ⟨slot, m₀, hslot, h⟩
  rcases layer_of_resolveName hslot with ⟨rfl, rfl, hin⟩
  rcases Eval.bind_eq_value h with ⟨right, m₁, hright, h⟩
  -- However the right side went, the layers have the names that they had.
  have hcourse := update.course_right budget levels m₀
  rw [hright] at hcourse
  have hsome : (m₁.read? (m₀.layerOf name) name).isSome = true := by
    rw [Machine.isSome_read?, hcourse.hasIn_eq, hin]
  rcases Option.isSome_iff_exists.mp hsome with ⟨old, hold⟩
  -- The old value is looked up without regard to the slot. The lookup ends in the
  -- layer of the slot, since that is still the layer of the name.
  have hread : m₁.readSlot ((m₀.layerOf name).slot name) = old := by
    have hlookup : m₁.readSlot ((m₀.layerOf name).slot name) = m₁.lookup name := by
      cases m₀.layerOf name <;> rfl
    rw [hlookup, Machine.lookup_eq_read?, hcourse.layerOf_eq, hold, Option.getD_some]
  rcases Eval.bind_eq_value h with ⟨_, _, hmachine, h⟩
  simp only [Eval.machine, Prod.mk.injEq, Outcome.value.injEq] at hmachine
  rcases hmachine with ⟨rfl, rfl⟩
  rw [hread] at h
  rcases hresult : update.result m₁.store old right with ⟨new, result⟩
  rw [hresult] at h
  rcases Eval.bind_eq_value h with ⟨_, m₂, hwrite, h⟩
  simp only [Pure.pure, Eval.pure, Prod.mk.injEq, Outcome.value.injEq] at h
  rcases h with ⟨rfl, rfl⟩
  rw [← Update.eq_stored_of_result hresult]
  exact ⟨right, old, m₁, hright, hold, hresult, writeSlot_eq_value hwrite⟩

/-- An assignment to a name that gives a value has read the old value of the name
    and written the new one in the layer that the name had before the right side
    was evaluated, and did nothing else after that. The name stands for what was
    stored. -/
theorem assignment_reaches_layer {budget levels : Nat} {n : Expr} {name : String} {mark : Mark}
    {update : Update} (hn : n.assignment? = some (.var name mark, update)) {m m' : Machine σ}
    {value : Value} (h : eval budget levels n m = (.value value, m')) :
    m'.lookup name = update.stored value ∧
    ∃ (below : Nat) (right old : Value) (m₁ : Machine σ), levels = below + 1 ∧
      update.right (eval budget below) m.enter = (.value right, m₁) ∧
      m₁.read? (m.layerOf name) name = some old ∧
      update.result m₁.store old right = (update.stored value, value) ∧
      m' = (m₁.write (m.layerOf name) name (update.stored value)).leave := by
  cases levels with
  | zero => simp [eval, Eval.fail] at h
  | succ below =>
      rw [eval, evalNode_of_assignment? hn, Eval.nested_eq] at h
      rcases hassign : evalAssign (eval budget below) (.var name mark) update n.position m.enter
        with ⟨outcome, m₂⟩
      rw [hassign] at h
      simp only [Prod.mk.injEq] at h
      rcases h with ⟨rfl, rfl⟩
      rcases evalAssign_name_eq_value hassign with ⟨right, old, m₁, hright, hold, hresult, rfl⟩
      have hlayer : m.layerOf name = m₁.layerOf name := by
        have hcourse := update.course_right budget below m.enter
        rw [hright] at hcourse
        exact (hcourse.layerOf_eq name).symm
      refine ⟨?_, below, right, old, m₁, rfl, hright, hold, hresult, rfl⟩
      have hlookup := m₁.lookup_write_layerOf name (update.stored value)
      rwa [← hlayer] at hlookup

end Assignments

/-- An assignment whose right side runs a loop with a variable of the same name.
    The loop is over when the old value is read and the sum is written. -/
theorem assignment_around_loop :
    ∃ (n right : Expr) (m m' : Machine Unit),
      Expr.parse "x += if(foreach(x, \"de\", x = \"c\"), \"n\", \"b\")".toList = .ok n ∧
      n.assignment? = some (.var "x" ⟨0, 0⟩, .add right) ∧
      m.context.get? "x" = some (.text "a") ∧ eval 9 5 n m = (.value (.text "ab"), m') ∧
      m'.lookup "x" = Update.stored (.add right) (.text "ab") ∧
      ∃ (below : Nat) (v old : Value) (m₁ : Machine Unit), 5 = below + 1 ∧
        Update.right (eval 9 below) (.add right) m.enter = (.value v, m₁) ∧
        m₁.read? (m.layerOf "x") "x" = some old ∧
        Update.result (.add right) m₁.store old v =
          (Update.stored (.add right) (.text "ab"), .text "ab") ∧
        m' = (m₁.write (m.layerOf "x") "x" (Update.stored (.add right) (.text "ab"))).leave := by
  have hscan : Scan.ofText "x += if(foreach(x, \"de\", x = \"c\"), \"n\", \"b\")".toList =
      ⟨[⟨.name "x", 0, 2, 0⟩, ⟨.operator .addAssign, 2, 4, 0⟩, ⟨.function "if", 5, 7, 0⟩,
        ⟨.opening .round, 7, 8, 0⟩, ⟨.function "foreach", 8, 15, 1⟩, ⟨.opening .round, 15, 16, 1⟩,
        ⟨.name "x", 16, 17, 2⟩, ⟨.comma, 17, 18, 2⟩, ⟨.constant (.text "de"), 19, 23, 2⟩,
        ⟨.comma, 23, 24, 2⟩, ⟨.name "x", 25, 27, 2⟩, ⟨.operator .assign, 27, 28, 2⟩,
        ⟨.constant (.text "c"), 29, 32, 2⟩, ⟨.closing .round, 32, 33, 2⟩, ⟨.comma, 33, 34, 1⟩,
        ⟨.constant (.text "n"), 35, 38, 1⟩, ⟨.comma, 38, 39, 1⟩, ⟨.constant (.text "b"), 40, 43, 1⟩,
        ⟨.closing .round, 43, 44, 1⟩], .complete 44 0⟩ := by
    with_unfolding_all rfl
  have hparse :
      Expr.parse "x += if(foreach(x, \"de\", x = \"c\"), \"n\", \"b\")".toList =
      .ok (.binary .addAssign (.var "x" ⟨0, 0⟩)
        (.call "if" [.call "foreach" [.var "x" ⟨16, 20⟩, .literal (.text "de") ⟨19, 20⟩,
            .binary .assign (.var "x" ⟨25, 20⟩) (.literal (.text "c") ⟨29, 20⟩) ⟨27, 22⟩] ⟨8, 10⟩,
          .literal (.text "n") ⟨35, 10⟩, .literal (.text "b") ⟨40, 10⟩] ⟨5, 0⟩) ⟨2, 2⟩) := by
    rw [Expr.parse, hscan]
    rfl
  refine ⟨_, _, ⟨.empty 0 (), .ofList [("x", .text "a")], [], 0⟩, _, hparse, rfl, rfl, rfl, ?_⟩
  exact assignment_reaches_layer (n := .binary .addAssign (.var "x" ⟨0, 0⟩) _ ⟨2, 2⟩) rfl rfl

end Scriptlet
