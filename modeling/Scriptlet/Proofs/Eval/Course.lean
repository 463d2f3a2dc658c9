import Scriptlet.Eval
import Scriptlet.Proofs.Store.Effect

/-!
# Courses of Evaluation

What evaluating a tree can do to a machine, said once, so that an invariant of
evaluation need not look at the evaluator. A course is made of effects on the
store, of writes to names that are there, and of loops, and nothing else can
happen. It also says what it is due to: a name is written only if a node of the
tree assigns to it, and a method is called only by a name that a node calls.

Loops are the reason why this is not just a list of steps. A loop makes a frame,
or adds its variable to the frame that is there, and takes away what it added
when it ends, however it ends. So a loop is one step around a course of its own,
in which the variable may be given values. Names of frames are then restored by
induction: during the rounds of a loop the frames are as before, up to the
variable of the loop.

## Main definitions

* `Machine.frameNames`: The names that the frames have.
* `Assigned`, `Called`: The names that some nodes assign to and call.
* `Course`: What evaluation can do to a machine.

## Theorems

* `Course.frameNames_eq`, `Course.frameDepth_eq`: There are the same frames after a course.
* `Course.depth_eq`: As many nodes are being evaluated.
* `Course.contains_context`: The context has the same names.
* `Course.get?_context`: Names that are not assigned to stand for the same.
* `Course.store_rel`: What every effect keeps to, a course keeps to.
* `Course.keepsKeys`, `Course.keepsLengths`: Objects keep their keys, and arrays their lengths.
-/

namespace Scriptlet

open Store (Effect)

variable {σ : Type}

/-! ### Names in frames -/

namespace Machine

/-- The names that each of the frames has. -/
def frameNames (m : Machine σ) : List (String → Bool) :=
  m.frames.map Record.contains

theorem inFrame_eq (m : Machine σ) (name : String) :
    m.inFrame name = m.frameNames.head?.any (· name) := by
  unfold inFrame frameNames
  cases m.frames <;> rfl

theorem inFrame_of_frameNames_eq {m m' : Machine σ} (h : m'.frameNames = m.frameNames)
    (name : String) : m'.inFrame name = m.inFrame name := by
  rw [inFrame_eq, inFrame_eq, h]

theorem frameNames_bindFrame (m : Machine σ) (name : String) (value : Value) :
    (m.bindFrame name value).frameNames =
      m.frameNames.modifyHead fun has other => decide (other = name) || has other := by
  unfold frameNames bindFrame
  cases m.frames with
  | nil => rfl
  | cons top rest =>
      simp only [List.modifyHead_cons, List.map_cons, List.cons.injEq, and_true]
      funext other
      exact top.contains_insert name other value

theorem frameNames_unbindFrame (m : Machine σ) (name : String) :
    (m.unbindFrame name).frameNames =
      m.frameNames.modifyHead fun has other => !decide (other = name) && has other := by
  unfold frameNames unbindFrame
  cases m.frames with
  | nil => rfl
  | cons top rest =>
      simp only [List.modifyHead_cons, List.map_cons, List.cons.injEq, and_true]
      funext other
      exact top.contains_erase name other

theorem frameNames_bindFrame_of_inFrame {m : Machine σ} {name : String}
    (h : m.inFrame name = true) (value : Value) :
    (m.bindFrame name value).frameNames = m.frameNames := by
  rw [inFrame_eq] at h
  rw [frameNames_bindFrame]
  cases hnames : m.frameNames with
  | nil => rfl
  | cons has rest =>
      have hname : has name = true := by simpa [hnames] using h
      simp only [List.modifyHead_cons, List.cons.injEq, and_true]
      funext other
      by_cases hother : other = name
      · rw [hother, hname, Bool.or_true]
      · simp [hother]

theorem frameNames_unbindFrame_of_not_inFrame {m : Machine σ} {name : String}
    (h : m.inFrame name = false) : (m.unbindFrame name).frameNames = m.frameNames := by
  rw [inFrame_eq] at h
  rw [frameNames_unbindFrame]
  cases hnames : m.frameNames with
  | nil => rfl
  | cons has rest =>
      have hname : has name = false := by simpa [hnames] using h
      simp only [List.modifyHead_cons, List.cons.injEq, and_true]
      funext other
      by_cases hother : other = name
      · rw [hother, hname, Bool.and_false]
      · simp [hother]

/-- A loop variable leaves nothing behind, whatever its value. -/
theorem frameNames_unbindFrame_bindFrame (m : Machine σ) (name : String) (value : Value) :
    ((m.bindFrame name value).unbindFrame name).frameNames = (m.unbindFrame name).frameNames := by
  rw [frameNames_unbindFrame, frameNames_bindFrame, frameNames_unbindFrame]
  cases m.frameNames with
  | nil => rfl
  | cons has rest =>
      simp only [List.modifyHead_cons, List.cons.injEq, and_true]
      funext other
      by_cases hother : other = name <;> simp [hother]

/-! ### What loops change -/

/-- Beginning a loop changes nothing but frames. -/
theorem openFrame_eq (m : Machine σ) : ∃ frames, m.openFrame = { m with frames } := by
  unfold openFrame
  split
  · exact ⟨_, rfl⟩
  · exact ⟨m.frames, rfl⟩

theorem frameDepth_openFrame (m : Machine σ) : m.openFrame.frameDepth = max 1 m.frameDepth := by
  unfold openFrame frameDepth
  cases hframes : m.frames with
  | nil => rfl
  | cons top rest =>
      simp only [List.isEmpty_cons, Bool.false_eq_true, if_false, hframes, List.length_cons]
      omega

/-- Ending a loop changes nothing but frames. -/
theorem closeLoop_eq (outermost : Bool) (name : String) (m : Machine σ) :
    ∃ frames, m.closeLoop outermost name = { m with frames } := by
  cases outermost with
  | true => exact ⟨m.frames.tail, rfl⟩
  | false => exact ⟨m.frames.modifyHead (·.erase name), rfl⟩

end Machine

/-! ### Courses -/

/-- What an assignment assigns to. -/
def Expr.target? : Expr → Option Expr
  | .unary .increment target _ | .unary .decrement target _ => some target
  | .binary .assign target _ _ | .binary .addAssign target _ _
  | .binary .subtractAssign target _ _ => some target
  | _ => none

/-- Whether a name is assigned to by one of some nodes. -/
def Assigned (allowed : Expr → Prop) (name : String) : Prop :=
  ∃ n mark, allowed n ∧ n.target? = some (.var name mark)

/-- Whether a name is called by one of some nodes. -/
def Called (allowed : Expr → Prop) (name : String) : Prop :=
  ∃ args mark, allowed (.call name args mark)

/-- What evaluating a tree can do to a machine, if all its nodes are allowed.
    Where a variable is given, the course is that of the rounds of a loop with
    that variable. -/
inductive Course [Host σ] (allowed : Expr → Prop) :
    Option String → Machine σ → Machine σ → Prop where
  | refl {item? : Option String} (m : Machine σ) : Course allowed item? m m
  | trans {item? : Option String} {m m' m'' : Machine σ}
      (first : Course allowed item? m m') (second : Course allowed item? m' m'') :
      Course allowed item? m m''
  | store {m : Machine σ} {s : Store σ} (effect : Effect (Called allowed) m.store s) :
      Course allowed none m { m with store := s }
  | context {m : Machine σ} {name : String} (value : Value) (assigned : Assigned allowed name)
      (hidden : m.inFrame name = false) (bound : m.context.contains name = true) :
      Course allowed none m (m.bindContext name value)
  | frame {m : Machine σ} {name : String} (value : Value) (assigned : Assigned allowed name)
      (bound : m.inFrame name = true) : Course allowed none m (m.bindFrame name value)
  | nested {m m' : Machine σ} (inner : Course allowed none m.enter m') :
      Course allowed none m m'.leave
  | loop {m m' : Machine σ} {name : String} (free : m.inFrame name = false)
      (rounds : Course allowed (some name) m.openFrame m') :
      Course allowed none m (m'.closeLoop m.frames.isEmpty name)
  | next {name : String} (m : Machine σ) (value : Value) :
      Course allowed (some name) m (m.bindFrame name value)
  | body {name : String} {m m' : Machine σ} (course : Course allowed none m m') :
      Course allowed (some name) m m'

namespace Course

variable [Host σ] {allowed : Expr → Prop} {item? : Option String} {m m' : Machine σ}

/-- The frames of a machine without the variable of a loop. -/
def outside (item? : Option String) (m : Machine σ) : List (String → Bool) :=
  match item? with
  | none => m.frameNames
  | some name => (m.unbindFrame name).frameNames

theorem outside_eq (h : Course allowed item? m m') :
    outside item? m' = outside item? m := by
  induction h with
  | refl _ => rfl
  | trans _ _ ihfirst ihsecond => exact ihsecond.trans ihfirst
  | store _ => rfl
  | context _ _ _ _ => rfl
  | frame value _ hbound => exact Machine.frameNames_bindFrame_of_inFrame hbound value
  | nested _ ih => exact ih
  | @loop m m' name hfree _ ih =>
      simp only [outside] at ih ⊢
      cases hframes : m.frames with
      | nil =>
          -- The loop made the only frame, and takes it away.
          have hlength := congrArg List.length ih
          simp only [Machine.frameNames, Machine.unbindFrame, List.length_map,
            List.length_modifyHead] at hlength
          have hone : m.openFrame.frames.length = 1 := by
            simpa [Machine.frameDepth, hframes] using m.frameDepth_openFrame
          simp only [Machine.closeLoop, List.isEmpty_nil, if_true, Machine.frameNames, hframes,
            List.map_nil, List.map_eq_nil_iff]
          exact List.length_eq_zero_iff.mp (by rw [List.length_tail, hlength, hone])
      | cons top rest =>
          -- The loop adds its variable to a frame that does not have it.
          have hopen : m.openFrame = m := by
            simp [Machine.openFrame, hframes]
          rw [hopen, Machine.frameNames_unbindFrame_of_not_inFrame hfree] at ih
          simpa only [Machine.closeLoop, List.isEmpty_cons, Bool.false_eq_true, if_false] using ih
  | next m value => exact m.frameNames_unbindFrame_bindFrame _ value
  | body _ ih =>
      simp only [outside] at ih ⊢
      rw [Machine.frameNames_unbindFrame, Machine.frameNames_unbindFrame, ih]

theorem frameNames_eq (h : Course allowed none m m') : m'.frameNames = m.frameNames :=
  h.outside_eq

theorem frameDepth_eq (h : Course allowed item? m m') : m'.frameDepth = m.frameDepth := by
  have hlength := congrArg List.length h.outside_eq
  cases item? with
  | none => simpa [outside, Machine.frameNames, Machine.frameDepth] using hlength
  | some name =>
      simpa [outside, Machine.frameNames, Machine.unbindFrame, Machine.frameDepth] using hlength

/-- Nodes that begin to be evaluated are counted, and counted off when they end. -/
theorem depth_eq (h : Course allowed item? m m') : m'.depth = m.depth := by
  induction h with
  | refl _ => rfl
  | trans _ _ ihfirst ihsecond => exact ihsecond.trans ihfirst
  | store _ => rfl
  | context _ _ _ _ => rfl
  | frame _ _ _ => rfl
  | nested _ ih =>
      simp only [Machine.enter, Machine.leave] at ih ⊢
      omega
  | @loop m m' name _ _ ih =>
      rcases m.openFrame_eq with ⟨_, hopen⟩
      rcases m'.closeLoop_eq m.frames.isEmpty name with ⟨_, hclose⟩
      rw [hclose]
      rwa [hopen] at ih
  | next _ _ => rfl
  | body _ ih => exact ih

/-- A course keeps to what every operation on the store keeps to. -/
theorem store_rel {R : Store σ → Store σ → Prop} (hrefl : ∀ s, R s s)
    (htrans : ∀ {s s' s''}, R s s' → R s' s'' → R s s'')
    (heffect : ∀ {s s'}, Effect (Called allowed) s s' → R s s')
    (h : Course allowed item? m m') : R m.store m'.store := by
  induction h with
  | refl m => exact hrefl m.store
  | trans _ _ ihfirst ihsecond => exact htrans ihfirst ihsecond
  | store heff => exact heffect heff
  | context _ _ _ _ => exact hrefl _
  | frame _ _ _ => exact hrefl _
  | nested _ ih => exact ih
  | @loop m m' name _ _ ih =>
      rcases m.openFrame_eq with ⟨_, hopen⟩
      rcases m'.closeLoop_eq m.frames.isEmpty name with ⟨_, hclose⟩
      rw [hclose]
      rwa [hopen] at ih
  | next _ _ => exact hrefl _
  | body _ ih => exact ih

/-- Names of the context are written only if they are there. -/
theorem contains_context (h : Course allowed item? m m') :
    m'.context.contains = m.context.contains := by
  induction h with
  | refl _ => rfl
  | trans _ _ ihfirst ihsecond => exact ihsecond.trans ihfirst
  | store _ => rfl
  | context value _ _ hbound => exact Record.contains_insert_of_contains hbound value
  | frame _ _ _ => rfl
  | nested _ ih => exact ih
  | @loop m m' name _ _ ih =>
      rcases m.openFrame_eq with ⟨_, hopen⟩
      rcases m'.closeLoop_eq m.frames.isEmpty name with ⟨_, hclose⟩
      rw [hclose]
      rwa [hopen] at ih
  | next _ _ => rfl
  | body _ ih => exact ih

/-- Names of the context are written only if they are assigned to. -/
theorem get?_context {name : String} (hname : ¬ Assigned allowed name)
    (h : Course allowed item? m m') : m'.context.get? name = m.context.get? name := by
  induction h with
  | refl _ => rfl
  | trans _ _ ihfirst ihsecond => exact ihsecond.trans ihfirst
  | store _ => rfl
  | @context m written value hassigned _ _ =>
      have hother : name ≠ written := by
        rintro rfl
        exact hname hassigned
      rw [Machine.bindContext, Record.get?_insert, if_neg hother]
  | frame _ _ _ => rfl
  | nested _ ih => exact ih
  | @loop m m' loopVariable _ _ ih =>
      rcases m.openFrame_eq with ⟨_, hopen⟩
      rcases m'.closeLoop_eq m.frames.isEmpty loopVariable with ⟨_, hclose⟩
      rw [hclose]
      rwa [hopen] at ih
  | next _ _ => rfl
  | body _ ih => exact ih

theorem keepsKeys (hhost : Host.Discreet σ) (h : Course allowed item? m m') :
    m.store.KeepsKeys m'.store :=
  h.store_rel Store.Keeps.refl .trans (·.keepsKeys hhost)

theorem keepsLengths (hhost : Host.Discreet σ) (hpush : ¬ Called allowed "push")
    (hpop : ¬ Called allowed "pop") (h : Course allowed item? m m') :
    m.store.KeepsLengths m'.store :=
  h.store_rel Store.Keeps.refl .trans (·.keepsLengths hhost hpush hpop)

end Course

end Scriptlet
