import Scriptlet.Expr.Parse
import Scriptlet.Proofs.Eval.Follows

/-!
# Rounds of a Loop

A loop over a text goes through the characters that the text has when the loop begins.
A loop over an array looks at the array again before every round. As long as no round
changes the array, the second is no different from the first: if the array has the
characters of the text as its elements, the two loops do the same.

To say that they do the same, it is not enough to compare how they end. What a loop does
is evaluate its body, again and again, each time from the machine that the round before
has left. So the machines from which the body is evaluated are written down beside the
result, for both kinds of loop and each in the way in which it goes on. The results are
those of the loops themselves, and what is written down is what they went through to get
there.

The induction is over the characters that are left. It needs that the rest of the array is
what they are, and this is handed on from round to round because the array is kept. A round
that does not give a value ends both loops at the same time, and it does not matter what it
has done to the array.

## Main definitions

* `Outcome.instead`: An outcome with another value.
* `Rounds`: The machines that the rounds of a loop start from, and how the loop ends.
* `textRounds`, `arrayRounds`, `listRounds`, `loopRounds`: The rounds of loops.
* `Rounds.EndsBy`: The body gives a value in all rounds, or in all but the last.

## Theorems

* `loopText_eq_result`, `loopArray_eq_result`, `evalLoop_eq_result`: The results are those of
  the loops.
* `arrayRounds_eq_textRounds`: An array with the characters of a text has the same rounds.
* `textRounds_endsBy`: How a loop over a text ends.
* `foreach_text_eq_foreach_array`: Loops over a text and over its characters do the same.
-/

namespace Scriptlet

variable {σ α β : Type}

/-- An outcome with another value, if it has one. -/
def Outcome.instead (b : β) : Outcome α → Outcome β
  | .value _ => .value b
  | .failed e => .failed e
  | .unfinished => .unfinished

/-- The rounds of a loop: the machines from which its body is evaluated, in order, and how the
    loop ends. -/
structure Rounds (σ α : Type) where
  starts : List (Machine σ)
  result : Outcome α × Machine σ

namespace Rounds

/-- A loop that ends without a round. -/
def ended (outcome : Outcome α) (m : Machine σ) : Rounds σ α :=
  ⟨[], (outcome, m)⟩

/-- A round from a machine, and the others behind it if the body gives a value. -/
def first (body : Eval σ Value) (start : Machine σ) (others : Machine σ → Rounds σ Unit) :
    Rounds σ Unit :=
  match body start with
  | (.value _, m) => ⟨start :: (others m).starts, (others m).result⟩
  | (outcome, m) => ⟨[start], (outcome.instead (), m)⟩

theorem first_of_value {body : Eval σ Value} {start m : Machine σ} {v : Value}
    (h : body start = (.value v, m)) (others : Machine σ → Rounds σ Unit) :
    first body start others = ⟨start :: (others m).starts, (others m).result⟩ := by
  rw [first, h]

theorem first_of_no_value {body : Eval σ Value} {start : Machine σ}
    (h : ∀ v, (body start).1 ≠ .value v) (others : Machine σ → Rounds σ Unit) :
    first body start others = ⟨[start], ((body start).1.instead (), (body start).2)⟩ := by
  rw [first]
  rcases hround : body start with ⟨outcome, m⟩
  cases outcome with
  | value v => exact absurd (congrArg Prod.fst hround) (h v)
  | failed e => rfl
  | unfinished => rfl

/-- Only what a value is followed by matters. -/
theorem first_congr {body : Eval σ Value} {start : Machine σ}
    {others others' : Machine σ → Rounds σ Unit}
    (h : ∀ v m, body start = (.value v, m) → others m = others' m) :
    first body start others = first body start others' := by
  by_cases hvalue : ∃ v m, body start = (.value v, m)
  · rcases hvalue with ⟨v, m, hround⟩
    rw [first_of_value hround, first_of_value hround, h v m hround]
  · have hnone : ∀ v, (body start).1 ≠ .value v := fun v hv =>
      hvalue ⟨v, (body start).2, Prod.ext hv rfl⟩
    rw [first_of_no_value hnone, first_of_no_value hnone]

theorem result_first (body : Eval σ Value) (start : Machine σ)
    (others : Machine σ → Rounds σ Unit) {rest : Eval σ Unit}
    (h : ∀ m, (others m).result = rest m) :
    (first body start others).result = (body >>= fun _ => rest) start := by
  simp only [first, Bind.bind, Eval.bind]
  rcases body start with ⟨outcome, m⟩
  cases outcome with
  | value v => exact h m
  | failed e => rfl
  | unfinished => rfl

/-- The loop ends with a value if the body gives one in all rounds, of which there are so many. Or
    the body gives a value in all rounds but the last, and the loop ends as that one does. -/
def EndsBy (body : Eval σ Value) (count : Nat) (value : α) (rounds : Rounds σ α) : Prop :=
  (rounds.result.1 = .value value ∧ rounds.starts.length = count ∧
    ∀ start ∈ rounds.starts, ∃ v, (body start).1 = .value v) ∨
  ∃ before last, rounds.starts = before ++ [last] ∧
    (∀ start ∈ before, ∃ v, (body start).1 = .value v) ∧ (∀ v, (body last).1 ≠ .value v) ∧
    rounds.result.1 = (body last).1.instead value

end Rounds

section Loops

variable (ev : Expr → Eval σ Value) (name : String) (body : Expr)

/-- The rounds of a loop over the characters of a text. -/
def textRounds : List Char → Machine σ → Rounds σ Unit
  | [], m => .ended (.value ()) m
  | c :: cs, m => .first (ev body) (m.bindFrame name (.text c.toString)) (textRounds cs)

/-- The rounds of a loop over an array from a place on, in at most `budget` steps. -/
def arrayRounds (r : ArrayRef) : (budget : Nat) → (place : Nat) → Machine σ → Rounds σ Unit
  | 0, _, m => .ended .unfinished m
  | budget + 1, place, m =>
    match (m.store.elements r)[place]? with
    | none => .ended (.value ()) m
    | some element => .first (ev body) (m.bindFrame name element) (arrayRounds r budget (place + 1))

/-- The rounds of a loop over what its list stands for. -/
def listRounds (budget : Nat) (list : Expr) (m : Machine σ) : Rounds σ Unit :=
  match ev list m with
  | (.value (.array r), m) => arrayRounds ev name body r budget 0 m
  | (.value (.text t), m) => textRounds ev name body t.toList m
  | (.value v, m) => .ended (.failed ⟨.typing, .notIterable v.type, list.position⟩) m
  | (outcome, m) => .ended (outcome.instead ()) m

/-- The rounds of a loop, from before its frame is there until it is gone. -/
def loopRounds (budget position : Nat) (list : Expr) (m : Machine σ) : Rounds σ Value :=
  if m.inFrame name then
    .ended (.failed ⟨.runtime, .loopVariableInUse name, position⟩) m
  else
    let rounds := listRounds ev name body budget list m.openFrame
    ⟨rounds.starts, (rounds.result.1.instead .undefined,
      rounds.result.2.closeLoop m.frames.isEmpty name)⟩

variable {ev name body}

theorem loopRounds_of_inFrame {m : Machine σ} (h : m.inFrame name = true) (budget position : Nat)
    (list : Expr) : loopRounds ev name body budget position list m =
      .ended (.failed ⟨.runtime, .loopVariableInUse name, position⟩) m :=
  if_pos h

theorem loopRounds_of_listRounds {budget : Nat} {list : Expr} {m : Machine σ}
    {rounds : Rounds σ Unit} (hframe : m.inFrame name = false)
    (h : listRounds ev name body budget list m.openFrame = rounds) (position : Nat) :
    loopRounds ev name body budget position list m =
      ⟨rounds.starts, (rounds.result.1.instead .undefined,
        rounds.result.2.closeLoop m.frames.isEmpty name)⟩ := by
  rw [loopRounds, hframe, h]
  rfl

/-! ### The results of loops -/

theorem loopText_eq_result (cs : List Char) (m : Machine σ) :
    loopText ev name body cs m = (textRounds ev name body cs m).result := by
  induction cs generalizing m with
  | nil => rfl
  | cons c cs ih => exact (Rounds.result_first _ _ _ fun m' => (ih m').symm).symm

theorem loopArray_eq_result (r : ArrayRef) (budget place : Nat) (m : Machine σ) :
    loopArray ev name r body budget place m =
      (arrayRounds ev name body r budget place m).result := by
  induction budget generalizing place m with
  | zero => rfl
  | succ budget ih =>
      simp only [loopArray, arrayRounds, Bind.bind, Eval.bind, Eval.store]
      cases (m.store.elements r)[place]? with
      | none => rfl
      | some element =>
          exact (Rounds.result_first _ _ _ fun m' => (ih (place + 1) m').symm).symm

theorem iterate_eq_result (budget : Nat) (list : Expr) (m : Machine σ) :
    iterate budget ev name list body m = (listRounds ev name body budget list m).result := by
  simp only [iterate, listRounds, Bind.bind, Eval.bind]
  rcases ev list m with ⟨outcome, m'⟩
  cases outcome with
  | value v =>
      cases v with
      | array r => exact loopArray_eq_result r budget 0 m'
      | text t => exact loopText_eq_result t.toList m'
      | _ => rfl
  | failed e => rfl
  | unfinished => rfl

theorem evalLoop_eq_result (budget position : Nat) (list : Expr) (m : Machine σ) :
    evalLoop budget ev name position list body m =
      (loopRounds ev name body budget position list m).result := by
  unfold evalLoop loopRounds
  rw [Eval.bind_of_value (x := Eval.machine) rfl]
  by_cases hframe : m.inFrame name = true
  · rw [if_pos hframe, if_pos hframe]
    rfl
  · rw [if_neg hframe, if_neg hframe, Eval.bind_of_value (x := Eval.update _) rfl]
    simp only [Bind.bind, Eval.bind, Eval.andFinally, iterate_eq_result]
    rcases (listRounds ev name body budget list m.openFrame).result with ⟨outcome, m'⟩
    cases outcome <;> rfl

/-! ### Rounds over an array that is kept -/

/-- As long as no round that gives a value changes the array, an array with the characters of a
    text has the rounds of the text. -/
theorem arrayRounds_eq_textRounds {r : ArrayRef} {cs : List Char} :
    ∀ {budget place : Nat} {m : Machine σ}, cs.length < budget →
      (m.store.elements r).toList.drop place = cs.map (fun c => .text c.toString) →
      (∀ start ∈ (textRounds ev name body cs m).starts, ∀ v m', ev body start = (.value v, m') →
        m'.store.elements r = start.store.elements r) →
      arrayRounds ev name body r budget place m = textRounds ev name body cs m := by
  induction cs with
  | nil =>
      intro budget place m hbudget helements _
      have hnone : (m.store.elements r)[place]? = none := by
        rw [← Array.getElem?_toList, List.getElem?_eq_none_iff]
        exact List.drop_eq_nil_iff.mp helements
      cases budget with
      | zero => exact absurd hbudget (by omega)
      | succ budget => rw [arrayRounds, hnone, textRounds]
  | cons c cs ih =>
      intro budget place m hbudget helements hkept
      have hsome : (m.store.elements r)[place]? = some (.text c.toString) := by
        rw [← Array.getElem?_toList, ← Nat.add_zero place, ← List.getElem?_drop, helements]
        rfl
      cases budget with
      | zero => exact absurd hbudget (by omega)
      | succ budget =>
          rw [arrayRounds, hsome, textRounds]
          refine Rounds.first_congr fun v m' hround => ?_
          rw [textRounds, Rounds.first_of_value hround] at hkept
          -- The round has kept the array, so its rest is what is left of the text.
          have harray : m'.store.elements r = m.store.elements r :=
            hkept _ List.mem_cons_self v m' hround
          have hrest : (m'.store.elements r).toList.drop (place + 1) =
              cs.map fun c => .text c.toString := by
            rw [harray, ← List.drop_drop, helements]
            rfl
          exact ih (Nat.lt_of_succ_lt_succ hbudget) hrest fun start hstart =>
            hkept start (List.mem_cons_of_mem _ hstart)

/-! ### How loops end -/

theorem Rounds.endsBy_first {x : Eval σ Value} {start : Machine σ}
    {others : Machine σ → Rounds σ Unit} {count : Nat}
    (h : ∀ v m, x start = (.value v, m) → (others m).EndsBy x count ()) :
    (Rounds.first x start others).EndsBy x (count + 1) () := by
  by_cases hvalue : ∃ v m, x start = (.value v, m)
  · rcases hvalue with ⟨v, m, hround⟩
    have hstart : ∃ v, (x start).1 = .value v := ⟨v, by rw [hround]⟩
    rw [first_of_value hround]
    rcases h v m hround with ⟨hend, hcount, hall⟩ | ⟨before, last, hstarts, hbefore, hlast, hend⟩
    · exact .inl ⟨hend, congrArg (· + 1) hcount, List.forall_mem_cons.mpr ⟨hstart, hall⟩⟩
    · exact .inr ⟨start :: before, last, congrArg (start :: ·) hstarts,
        List.forall_mem_cons.mpr ⟨hstart, hbefore⟩, hlast, hend⟩
  · have hlast : ∀ v, (x start).1 ≠ .value v := fun v hv =>
      hvalue ⟨v, (x start).2, Prod.ext hv rfl⟩
    rw [first_of_no_value hlast]
    exact .inr ⟨[], start, rfl, by simp, hlast, rfl⟩

/-- The value with which a loop ends may be another one. -/
theorem Rounds.EndsBy.instead {x : Eval σ Value} {count : Nat} {rounds : Rounds σ Unit}
    (h : rounds.EndsBy x count ()) (value : α) (f : Machine σ → Machine σ) :
    EndsBy x count value
      ⟨rounds.starts, (rounds.result.1.instead value, f rounds.result.2)⟩ := by
  rcases h with ⟨hend, hcount, hall⟩ | ⟨before, last, hstarts, hbefore, hlast, hend⟩
  · exact .inl ⟨congrArg (Outcome.instead value) hend, hcount, hall⟩
  · refine .inr ⟨before, last, hstarts, hbefore, hlast, ?_⟩
    simp only [hend]
    cases (x last).1 <;> rfl

theorem textRounds_endsBy (cs : List Char) (m : Machine σ) :
    (textRounds ev name body cs m).EndsBy (ev body) cs.length () := by
  induction cs generalizing m with
  | nil => exact .inl ⟨rfl, rfl, by simp [textRounds, Rounds.ended]⟩
  | cons c cs ih => exact Rounds.endsBy_first fun _ m' _ => ih m'

end Loops

/-! ### Loops over a text and over its characters -/

section Calls

variable [Host σ] {budget levels : Nat} {name : String} {letters list body : Expr}
  {m m₁ : Machine σ} {t : String} {r : ArrayRef}

/-- The call of a loop is counted, and apart from that it is its rounds. -/
theorem eval_foreach_eq_result (budget levels : Nat) (name : String) (item mark : Mark)
    (list body : Expr) (m : Machine σ) :
    eval budget (levels + 1) (.call "foreach" [.var name item, list, body] mark) m =
      let rounds := loopRounds (eval budget levels) name body budget item.position list m.enter
      (rounds.result.1, rounds.result.2.leave) := by
  simp only [← evalLoop_eq_result]
  rfl

/-- A loop over a text and a loop over an array with the characters of the text do the same, if no
    round that gives a value changes the array: the body is evaluated from the same machines in the
    same order, and the loops end in the same way with the same machine. The end is undefined after
    one round for each character, or that of the first round without a value. The budget has to
    allow one look at the array more than there are characters, the one that finds its end. -/
theorem foreach_text_eq_foreach_array (item mark : Mark)
    (hletters : eval budget levels letters m.enter.openFrame = (.value (.text t), m₁))
    (hlist : eval budget levels list m.enter.openFrame = (.value (.array r), m₁))
    (helements : (m₁.store.elements r).toList = t.toList.map fun c => .text c.toString)
    (hkept : ∀ start ∈
        (loopRounds (eval budget levels) name body budget item.position letters m.enter).starts,
      ∀ v m', eval budget levels body start = (.value v, m') →
        m'.store.elements r = start.store.elements r)
    (hbudget : t.toList.length < budget) :
    ∃ rounds : Rounds σ Value,
      loopRounds (eval budget levels) name body budget item.position letters m.enter = rounds ∧
      loopRounds (eval budget levels) name body budget item.position list m.enter = rounds ∧
      eval budget (levels + 1) (.call "foreach" [.var name item, letters, body] mark) m =
        (rounds.result.1, rounds.result.2.leave) ∧
      eval budget (levels + 1) (.call "foreach" [.var name item, list, body] mark) m =
        (rounds.result.1, rounds.result.2.leave) ∧
      (m.inFrame name = false →
        rounds.EndsBy (eval budget levels body) t.toList.length .undefined) := by
  have htext : listRounds (eval budget levels) name body budget letters m.enter.openFrame =
      textRounds (eval budget levels) name body t.toList m₁ := by
    rw [listRounds, hletters]
  have harray : listRounds (eval budget levels) name body budget list m.enter.openFrame =
      arrayRounds (eval budget levels) name body r budget 0 m₁ := by
    rw [listRounds, hlist]
  have hsame : loopRounds (eval budget levels) name body budget item.position list m.enter =
      loopRounds (eval budget levels) name body budget item.position letters m.enter := by
    by_cases hframe : m.enter.inFrame name = true
    · -- The name is in use, and neither list is evaluated.
      rw [loopRounds_of_inFrame hframe, loopRounds_of_inFrame hframe]
    · have hfree : m.enter.inFrame name = false := Bool.eq_false_iff.mpr hframe
      rw [loopRounds_of_listRounds hfree htext] at hkept ⊢
      have hrounds : arrayRounds (eval budget levels) name body r budget 0 m₁ =
          textRounds (eval budget levels) name body t.toList m₁ :=
        arrayRounds_eq_textRounds hbudget (by rw [List.drop_zero, helements]) hkept
      rw [loopRounds_of_listRounds hfree harray, hrounds]
  refine ⟨_, rfl, hsame, eval_foreach_eq_result .., ?_, fun hframe => ?_⟩
  · rw [eval_foreach_eq_result, hsame]
  · have hfree : m.enter.inFrame name = false := hframe
    rw [loopRounds_of_listRounds hfree htext]
    exact (textRounds_endsBy t.toList m₁).instead Value.undefined _

end Calls

/-- A loop that gives its variable another value, appends to another array and fails in the second
    round, over a text and over the array of its characters. -/
theorem rounds_of_rebinding_body :
    ∃ (letters list body : Expr) (item mark : Mark) (m : Machine Unit) (rounds : Rounds Unit Value),
      Expr.parse "foreach(x, s, b.push(x = o[x].k))".toList =
        .ok (.call "foreach" [.var "x" item, letters, body] mark) ∧
      Expr.parse "foreach(x, a, b.push(x = o[x].k))".toList =
        .ok (.call "foreach" [.var "x" item, list, body] mark) ∧
      m.lookup "s" = .text "ab" ∧ m.lookup "a" = .array ⟨0⟩ ∧
      m.store.elements ⟨0⟩ = #[.text "a", .text "b"] ∧ rounds.starts.length = 2 ∧
      rounds.result.1 = .failed ⟨.reference, .objectNotFound "o.x", 26⟩ ∧
      eval 9 9 (.call "foreach" [.var "x" item, letters, body] mark) m =
        (rounds.result.1, rounds.result.2.leave) ∧
      eval 9 9 (.call "foreach" [.var "x" item, list, body] mark) m =
        (rounds.result.1, rounds.result.2.leave) := by
  let body : Expr := .binary .dot (.var "b" ⟨14, 10⟩)
    (.call "push" [.binary .assign (.var "x" ⟨21, 20⟩) (.binary .dot
      (.binary .index (.var "o" ⟨25, 20⟩) (.var "x" ⟨27, 30⟩) ⟨26, 30⟩)
      (.literal (.text "k") ⟨30, 20⟩) ⟨29, 30⟩) ⟨23, 22⟩] ⟨16, 10⟩) ⟨15, 20⟩
  let m : Machine Unit := ⟨⟨#[#[.text "a", .text "b"], #[]],
    #[.ofList [("k", .text "c")], .ofList [("a", .object ⟨0⟩)]], 0, ()⟩,
    .ofList [("a", .array ⟨0⟩), ("b", .array ⟨1⟩), ("o", .object ⟨1⟩), ("s", .text "ab")], [], 0⟩
  have hletters : eval 9 8 (.var "s" ⟨11, 10⟩) m.enter.openFrame =
      (.value (.text "ab"), m.enter.openFrame) := rfl
  have hlist : eval 9 8 (.var "a" ⟨11, 10⟩) m.enter.openFrame =
      (.value (.array ⟨0⟩), m.enter.openFrame) := rfl
  have hkept : ∀ start ∈ (loopRounds (eval 9 8) "x" body 9 8 (.var "s" ⟨11, 10⟩) m.enter).starts,
      (eval 9 8 body start).2.store.elements ⟨0⟩ = start.store.elements ⟨0⟩ := by
    decide +kernel
  rcases foreach_text_eq_foreach_array ⟨8, 10⟩ ⟨0, 0⟩ hletters hlist rfl
    (fun start hstart v m' hround => by rw [← hkept start hstart, hround]) (by decide) with
    ⟨rounds, hrounds, _, htext, harray, _⟩
  have hscan : Scan.ofText "foreach(x, s, b.push(x = o[x].k))".toList =
      ⟨[⟨.function "foreach", 0, 7, 0⟩, ⟨.opening .round, 7, 8, 0⟩, ⟨.name "x", 8, 9, 1⟩,
        ⟨.comma, 9, 10, 1⟩, ⟨.name "s", 11, 12, 1⟩, ⟨.comma, 12, 13, 1⟩, ⟨.name "b", 14, 15, 1⟩,
        ⟨.operator .dot, 15, 16, 1⟩, ⟨.function "push", 16, 20, 1⟩, ⟨.opening .round, 20, 21, 1⟩,
        ⟨.name "x", 21, 23, 2⟩, ⟨.operator .assign, 23, 24, 2⟩, ⟨.name "o", 25, 26, 2⟩,
        ⟨.opening .square, 26, 27, 2⟩, ⟨.name "x", 27, 28, 3⟩, ⟨.closing .square, 28, 29, 3⟩,
        ⟨.operator .dot, 29, 30, 2⟩, ⟨.constant (.text "k"), 30, 31, 2⟩,
        ⟨.closing .round, 31, 32, 2⟩, ⟨.closing .round, 32, 33, 1⟩], .complete 33 0⟩ := by
    with_unfolding_all rfl
  have hscan' : Scan.ofText "foreach(x, a, b.push(x = o[x].k))".toList =
      ⟨[⟨.function "foreach", 0, 7, 0⟩, ⟨.opening .round, 7, 8, 0⟩, ⟨.name "x", 8, 9, 1⟩,
        ⟨.comma, 9, 10, 1⟩, ⟨.name "a", 11, 12, 1⟩, ⟨.comma, 12, 13, 1⟩, ⟨.name "b", 14, 15, 1⟩,
        ⟨.operator .dot, 15, 16, 1⟩, ⟨.function "push", 16, 20, 1⟩, ⟨.opening .round, 20, 21, 1⟩,
        ⟨.name "x", 21, 23, 2⟩, ⟨.operator .assign, 23, 24, 2⟩, ⟨.name "o", 25, 26, 2⟩,
        ⟨.opening .square, 26, 27, 2⟩, ⟨.name "x", 27, 28, 3⟩, ⟨.closing .square, 28, 29, 3⟩,
        ⟨.operator .dot, 29, 30, 2⟩, ⟨.constant (.text "k"), 30, 31, 2⟩,
        ⟨.closing .round, 31, 32, 2⟩, ⟨.closing .round, 32, 33, 1⟩], .complete 33 0⟩ := by
    with_unfolding_all rfl
  refine ⟨_, _, _, _, _, m, rounds, ?_, ?_, rfl, rfl, rfl, ?_, ?_, htext, harray⟩
  · rw [Expr.parse, hscan]
    rfl
  · rw [Expr.parse, hscan']
    rfl
  · rw [← hrounds]
    decide +kernel
  · rw [← hrounds]
    decide +kernel

end Scriptlet
