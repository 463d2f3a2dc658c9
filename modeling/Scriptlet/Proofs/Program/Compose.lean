import Scriptlet.Program
import Scriptlet.Proofs.Eval.Kept
import Scriptlet.Proofs.Parse.Reads
import Scriptlet.Proofs.Token.Extent

/-!
# Composing Programs

Two scripts with a semicolon between them are one script, and its program is the
program of the first followed by that of the second, seen from a later place.

Three things have to go together for this. The cut into segments must come out
of the first script outside of quotes, or else the semicolon would not cut. It
does if the first script compiles, since then the quotes of every segment come
in pairs. The faults of a segment must not depend on where the segment is. And
the first program must leave no trace in the scope: the second one, which would
have started with a scope of its own, goes on in that of the first.

## Main definitions

* `Segment.shift`, `Statement.shift`, `CompileError.shift`: The same at a later place.
* `Machine.fresh`: A machine on which nothing is being evaluated.

## Theorems

* `cutStatements_append`, `ofScript_append`: The segments of two scripts.
* `paired_of_compileSegments`: The quotes of what compiles come in pairs.
* `compileSegments_of_parse`, `compileSegments_of_error`: One segment after another.
* `compileSegments_append`, `compileSegments_shift`: The statements of two scripts.
* `runAll_append`, `runAll_shift`: Running the statements of two scripts.
* `fresh_of_runAll`: Running statements leaves a fresh machine fresh.
* `compile_join`: The program of two scripts.
-/

namespace Scriptlet

/-! ### Segments -/

theorem cutStatements_ne_nil (quoted : Bool) (cs : List Char) : cutStatements quoted cs ≠ [] := by
  cases cs with
  | nil => simp [cutStatements]
  | cons c cs =>
      rw [cutStatements]
      split
      · simp
      · unfold consFirst
        split <;> simp

theorem consFirst_append {texts : List (List Char)} (h : texts ≠ []) (c : Char)
    (more : List (List Char)) : consFirst c (texts ++ more) = consFirst c texts ++ more := by
  cases texts with
  | nil => exact absurd rfl h
  | cons text texts => rfl

/-- A quote is counted and also turns the state around, which keeps the sum even. -/
theorem even_turned_iff (quoted : Bool) (c : Char) (cs : List Char) :
    Even ((if c = '"' then !quoted else quoted).toNat + cs.count '"') ↔
      Even (quoted.toNat + (c :: cs).count '"') := by
  by_cases hquote : c = '"'
  · rw [if_pos hquote, hquote, List.count_cons_self]
    cases quoted <;> simp [Nat.even_add]
  · rw [if_neg hquote, List.count_cons_of_ne hquote]

/-- A semicolon behind an even number of quotes cuts, and what is behind it is
    cut as it would be alone. -/
theorem cutStatements_append {quoted : Bool} {cs : List Char}
    (h : Even (quoted.toNat + cs.count '"')) (ds : List Char) :
    cutStatements quoted (cs ++ ';' :: ds) = cutStatements quoted cs ++ cutStatements false ds := by
  induction cs generalizing quoted with
  | nil =>
      cases quoted with
      | false => simp [cutStatements]
      | true => simp at h
  | cons c cs ih =>
      by_cases hcut : c = ';' ∧ quoted = false
      · rcases hcut with ⟨rfl, rfl⟩
        rw [List.count_cons_of_ne (by decide)] at h
        simp only [List.cons_append, cutStatements, and_self, if_true, ih h]
      · simp only [List.cons_append, cutStatements, if_neg hcut, ih ((even_turned_iff _ _ _).mpr h)]
        exact consFirst_append (cutStatements_ne_nil _ _) _ _

theorem flatten_consFirst (c : Char) (texts : List (List Char)) :
    (consFirst c texts).flatten = c :: texts.flatten := by
  cases texts <;> rfl

/-- Cutting loses nothing but semicolons, and in particular no quotes. -/
theorem count_cutStatements (quoted : Bool) (cs : List Char) :
    (cutStatements quoted cs).flatten.count '"' = cs.count '"' := by
  induction cs generalizing quoted with
  | nil => rfl
  | cons c cs ih =>
      rw [cutStatements]
      split
      · next hcut =>
        rw [hcut.1, List.count_cons_of_ne (by decide), List.flatten_cons, List.nil_append]
        exact ih quoted
      · rw [flatten_consFirst, List.count_cons, ih, ← List.count_cons]

theorem paired_flatten {texts : List (List Char)} (h : ∀ text ∈ texts, Paired text) :
    Paired texts.flatten := by
  induction texts with
  | nil => exact paired_of_not_mem (by simp)
  | cons text texts ih =>
      rw [List.flatten_cons]
      exact (h text (by simp)).append (ih fun t ht => h t (List.mem_cons_of_mem _ ht))

/-- The characters that some texts take in a script, with a semicolon behind each. -/
def extent (texts : List (List Char)) : Nat :=
  (texts.map fun text => text.length + 1).sum

theorem extent_cutStatements (quoted : Bool) (cs : List Char) :
    extent (cutStatements quoted cs) = cs.length + 1 := by
  induction cs generalizing quoted with
  | nil => rfl
  | cons c cs ih =>
      rw [cutStatements]
      split
      · have hrest := ih quoted
        simp only [extent, List.map_cons, List.sum_cons, List.length_nil,
          List.length_cons] at hrest ⊢
        omega
      · have hrest := ih (if c = '"' then !quoted else quoted)
        cases hcut : cutStatements (if c = '"' then !quoted else quoted) cs with
        | nil => exact absurd hcut (cutStatements_ne_nil _ _)
        | cons text texts =>
            rw [hcut] at hrest
            simp only [extent, consFirst, List.map_cons, List.sum_cons, List.length_cons] at hrest ⊢
            omega

namespace Segment

/-- The segment at a later place. -/
def shift (n : Nat) (segment : Segment) : Segment :=
  { segment with offset := segment.offset + n }

theorem placed_append (offset : Nat) (texts more : List (List Char)) :
    placed offset (texts ++ more) = placed offset texts ++ placed (offset + extent texts) more := by
  induction texts generalizing offset with
  | nil => rfl
  | cons text texts ih =>
      simp only [List.cons_append, placed, ih, extent, List.map_cons, List.sum_cons]
      rw [show offset + text.length + 1 + (texts.map fun text => text.length + 1).sum =
        offset + (text.length + 1 + (texts.map fun text => text.length + 1).sum) by omega]

theorem placed_shift (offset n : Nat) (texts : List (List Char)) :
    placed (offset + n) texts = (placed offset texts).map (shift n) := by
  induction texts generalizing offset with
  | nil => rfl
  | cons text texts ih =>
      simp only [placed, List.map_cons, ← ih, shift]
      rw [show offset + n + text.length + 1 = offset + text.length + 1 + n by omega]

/-- The segments of two scripts, if the quotes of the first come in pairs. -/
theorem ofScript_append {cs : List Char} (h : Paired cs) (ds : List Char) :
    ofScript (cs ++ ';' :: ds) = ofScript cs ++ (ofScript ds).map (shift (cs.length + 1)) := by
  have heven : Even (false.toNat + cs.count '"') := by simpa [Paired] using h
  unfold ofScript
  rw [cutStatements_append heven, placed_append, extent_cutStatements, placed_shift]

theorem map_text_placed (offset : Nat) (texts : List (List Char)) :
    (placed offset texts).map Segment.text = texts := by
  induction texts generalizing offset with
  | nil => rfl
  | cons text texts ih => simp only [placed, List.map_cons, ih]

end Segment

/-! ### Statements -/

/-- The statement at a later place. -/
def Statement.shift (n : Nat) (statement : Statement) : Statement :=
  { statement with offset := statement.offset + n }

/-- The fault of a segment at a later place. -/
def CompileError.shift (n : Nat) (e : CompileError) : CompileError :=
  { e with segment := e.segment.shift n }

/-- A fault is put in the same words wherever the segment is. -/
theorem CompileError.issue_shift (n : Nat) (e : CompileError) :
    (e.shift n).issue = e.issue.shift n := by
  simp only [issue, shift, Segment.shift, Issue.shift, Nat.add_assoc]

theorem Statement.ofSegment_shift (n : Nat) (segment : Segment) :
    Statement.ofSegment (segment.shift n) =
      ((Statement.ofSegment segment).map (shift n)).mapError (CompileError.shift n) := by
  unfold ofSegment Segment.shift
  cases Expr.parse segment.text <;> rfl

namespace Program

theorem compileSegments_append (xs ys : List Segment) :
    compileSegments (xs ++ ys) = (do
      let first ← compileSegments xs
      let second ← compileSegments ys
      pure (first ++ second)) := by
  induction xs with
  | nil =>
      rw [List.nil_append]
      cases compileSegments ys <;> rfl
  | cons x xs ih =>
      simp only [List.cons_append, compileSegments]
      split
      · exact ih
      · cases Statement.ofSegment x with
        | error e => rfl
        | ok statement =>
            rw [ih]
            cases compileSegments xs with
            | error e => rfl
            | ok first => cases compileSegments ys <;> rfl

theorem compileSegments_shift (n : Nat) (xs : List Segment) :
    compileSegments (xs.map (Segment.shift n)) =
      ((compileSegments xs).map (List.map (Statement.shift n))).mapError
        (CompileError.shift n) := by
  induction xs with
  | nil => rfl
  | cons x xs ih =>
      have htext : (x.shift n).text = x.text := rfl
      simp only [List.map_cons, compileSegments, htext]
      split
      · exact ih
      · rw [ih, Statement.ofSegment_shift]
        cases Statement.ofSegment x with
        | error e => rfl
        | ok statement => cases compileSegments xs <;> rfl

theorem paired_of_isAllBlank {cs : List Char} (h : Text.isAllBlank cs = true) : Paired cs := by
  refine paired_of_not_mem fun hmem => ?_
  exact absurd (List.all_eq_true.mp h _ hmem) (by decide)

/-- The quotes of segments that compile come in pairs: blank segments have none,
    and the others are scanned to their end. -/
theorem paired_of_compileSegments {segments : List Segment} {statements : List Statement}
    (h : compileSegments segments = .ok statements) :
    ∀ segment ∈ segments, Paired segment.text := by
  induction segments generalizing statements with
  | nil => simp
  | cons x xs ih =>
      rw [compileSegments] at h
      split at h
      · next hblank =>
        exact List.forall_mem_cons.mpr ⟨paired_of_isAllBlank hblank, ih h⟩
      · rcases Parse.bind_eq_ok h with ⟨statement, hstatement, h⟩
        rcases Parse.bind_eq_ok h with ⟨rest, hrest, _⟩
        refine List.forall_mem_cons.mpr ⟨?_, ih hrest⟩
        unfold Statement.ofSegment at hstatement
        split at hstatement
        · next hparse =>
          rcases (Parse.reads_of_parse hparse).1 with ⟨stop, depth, hending⟩
          exact Scan.paired_of_complete hending
        · simp at hstatement

theorem paired_of_compile {script : List Char} {program : Program}
    (h : compile script = .ok program) : Paired script := by
  rcases Parse.bind_eq_ok h with ⟨statements, hstatements, _⟩
  have htexts : ∀ text ∈ cutStatements false script, Paired text := by
    intro text htext
    rw [← Segment.map_text_placed 0 (cutStatements false script)] at htext
    rcases List.mem_map.mp htext with ⟨segment, hsegment, rfl⟩
    exact paired_of_compileSegments hstatements segment hsegment
  have hpaired := paired_flatten htexts
  unfold Paired at hpaired ⊢
  rwa [count_cutStatements] at hpaired

theorem compile_eq_ok_iff {script : List Char} {program : Program} :
    compile script = .ok program ↔
      compileSegments (Segment.ofScript script) = .ok program.statements := by
  unfold compile
  cases compileSegments (Segment.ofScript script) with
  | error e => simp [Bind.bind, Except.bind]
  | ok statements =>
      rcases program with ⟨statements'⟩
      simp [Bind.bind, Except.bind, Pure.pure, Except.pure]

theorem compile_eq_error_iff {script : List Char} {e : CompileError} :
    compile script = .error e ↔ compileSegments (Segment.ofScript script) = .error e := by
  unfold compile
  cases compileSegments (Segment.ofScript script) <;>
    simp [Bind.bind, Except.bind, Pure.pure, Except.pure]

section Segments

variable {segment : Segment} {segments : List Segment} {e : Expr} {fault : Fault}

theorem compileSegments_of_isAllBlank (hblank : Text.isAllBlank segment.text = true) :
    compileSegments (segment :: segments) = compileSegments segments := by
  rw [compileSegments, if_pos hblank]

/-- What comes of the segments behind a statement, good or bad, is kept. -/
theorem compileSegments_of_parse {result : Except CompileError (List Statement)}
    (hblank : Text.isAllBlank segment.text = false) (hparse : Expr.parse segment.text = .ok e)
    (h : compileSegments segments = result) :
    compileSegments (segment :: segments) =
      result.map fun statements => ⟨segment.offset, segment.text, e⟩ :: statements := by
  rw [compileSegments, if_neg (by simp [hblank]), Statement.ofSegment, hparse, h]
  cases result <;> rfl

theorem compileSegments_of_error (hblank : Text.isAllBlank segment.text = false)
    (hparse : Expr.parse segment.text = .error fault) :
    compileSegments (segment :: segments) = .error ⟨segment, fault⟩ := by
  rw [compileSegments, if_neg (by simp [hblank]), Statement.ofSegment, hparse]
  rfl

end Segments

end Program

/-! ### Runs -/

namespace Eval

variable {σ α β : Type}

theorem shifted_bind (n : Nat) (x : Eval σ α) (f : α → Eval σ β) :
    (x >>= f).shifted n = x.shifted n >>= fun a => (f a).shifted n := by
  funext m
  simp only [Bind.bind, Eval.bind, shifted]
  rcases x m with ⟨outcome, m'⟩
  cases outcome <;> rfl

theorem shifted_shifted (n k : Nat) (x : Eval σ α) :
    (x.shifted n).shifted k = x.shifted (n + k) := by
  funext m
  simp only [shifted]
  rcases x m with ⟨outcome, m'⟩
  cases outcome with
  | failed e => simp only [Fault.shift, Nat.add_assoc]
  | value _ | unfinished => rfl

theorem snd_shifted (n : Nat) (x : Eval σ α) (m : Machine σ) : (x.shifted n m).2 = (x m).2 := by
  simp only [shifted]
  rcases x m with ⟨outcome, m'⟩
  cases outcome <;> rfl

end Eval

/-- A machine on which nothing is being evaluated, with the same bindings. -/
def Machine.fresh {σ : Type} (m : Machine σ) : Machine σ :=
  { m with frames := [], depth := 0 }

theorem Machine.fresh_of_eq {σ : Type} {m : Machine σ} (hframes : m.frames = [])
    (hdepth : m.depth = 0) : m.fresh = m := by
  rcases m with ⟨store, context, frames, depth⟩
  simp only at hframes hdepth
  rw [fresh, hframes, hdepth]

namespace Program

variable {σ : Type} [Host σ]

theorem runAll_append (budget : Nat) (xs ys : List Statement) :
    (runAll budget (xs ++ ys) : Eval σ Unit) = (do runAll budget xs; runAll budget ys) := by
  induction xs with
  | nil => rfl
  | cons x xs ih =>
      simp only [List.cons_append, runAll, ih, Eval.bind_assoc]

theorem runAll_shift (budget n : Nat) (xs : List Statement) :
    (runAll budget (xs.map (Statement.shift n)) : Eval σ Unit) = (runAll budget xs).shifted n := by
  induction xs with
  | nil => rfl
  | cons x xs ih =>
      simp only [List.map_cons, runAll, ih, Eval.shifted_bind, Eval.shifted_shifted,
        Statement.shift]

theorem course_of_runAll {allowed : Expr → Prop} (budget : Nat) {xs : List Statement}
    (hxs : ∀ x ∈ xs, x.expr.Allowed allowed) (m : Machine σ) :
    Course allowed none m (runAll budget xs m).2 := by
  induction xs generalizing m with
  | nil => exact .refl m
  | cons x xs ih =>
      have hfirst := course_of_eval budget maxNesting (hxs x List.mem_cons_self) m
      rw [← Eval.snd_shifted x.offset] at hfirst
      simp only [runAll, evaluate, Bind.bind, Eval.bind]
      rcases hx : (eval budget maxNesting x.expr).shifted x.offset m with ⟨outcome, m'⟩
      rw [hx] at hfirst
      cases outcome with
      | value _ => exact hfirst.trans (ih (fun y hy => hxs y (List.mem_cons_of_mem _ hy)) m')
      | failed _ | unfinished => exact hfirst

/-- Running statements leaves a fresh machine fresh, however the run ends. -/
theorem fresh_of_runAll (budget : Nat) (xs : List Statement) (m : Machine σ) :
    (runAll budget xs m.fresh).2.fresh = (runAll budget xs m.fresh).2 := by
  have hcourse : Course (fun _ => True) none m.fresh (runAll budget xs m.fresh).2 :=
    course_of_runAll budget (fun _ _ _ _ => trivial) m.fresh
  exact Machine.fresh_of_eq (List.length_eq_zero_iff.mp hcourse.frameDepth_eq) hcourse.depth_eq

/-- The second half of a run goes on as it would on a fresh machine. -/
theorem runAll_join (budget n : Nat) (first second : List Statement) (m : Machine σ) :
    runAll budget (first ++ second.map (Statement.shift n)) m.fresh =
      (do runAll budget first
          Eval.update Machine.fresh
          (runAll budget second).shifted n : Eval σ Unit) m.fresh := by
  have hfresh := fresh_of_runAll budget first m
  rw [runAll_append, runAll_shift]
  simp only [Bind.bind, Eval.bind, Eval.update]
  rcases hfirst : runAll budget first m.fresh with ⟨outcome, m'⟩
  rw [hfirst] at hfresh
  -- Only after a value does the second half run, and then on a machine that is fresh already.
  cases outcome with
  | value _ => simp only [hfresh]
  | failed _ | unfinished => rfl

end Program

/-! ### Two scripts -/

/-- A script that compiles, a semicolon and another script. If the other compiles
    as well, the statements are those of both, and running them is running the
    first program and then, if it did not fail, the second on a fresh machine with
    the bindings that the first left, its errors seen from a later place. If the
    other does not compile, its fault is the fault of both. -/
theorem compile_join {first second : List Char} {program : Program}
    (h : Program.compile first = .ok program) :
    (∀ program', Program.compile second = .ok program' →
      ∃ joined, Program.compile (first ++ ';' :: second) = .ok joined ∧
        joined.statements = program.statements ++
          program'.statements.map (Statement.shift (first.length + 1)) ∧
        ∀ (σ : Type) [Host σ] (budget : Nat) (m : Machine σ),
          joined.run budget m.fresh =
            (do program.run budget
                Eval.update Machine.fresh
                (program'.run budget).shifted (first.length + 1) : Eval σ Unit) m.fresh) ∧
    ∀ e, Program.compile second = .error e →
      ∃ e', Program.compile (first ++ ';' :: second) = .error e' ∧ e'.error = e.error ∧
        e'.issue = e.issue.shift (first.length + 1) := by
  -- From here on the joined script is its segments, and each half of them compiles by itself.
  have hsegments := Segment.ofScript_append (Program.paired_of_compile h) second
  rw [Program.compile_eq_ok_iff] at h
  refine ⟨fun program' h' => ?_, fun e he => ?_⟩
  · rw [Program.compile_eq_ok_iff] at h'
    refine ⟨⟨program.statements ++ program'.statements.map (Statement.shift (first.length + 1))⟩,
      ?_, rfl, fun σ _ budget m => Program.runAll_join budget _ _ _ m⟩
    rw [Program.compile_eq_ok_iff, hsegments, Program.compileSegments_append, h,
      Program.compileSegments_shift, h']
    rfl
  · rw [Program.compile_eq_error_iff] at he
    refine ⟨e.shift (first.length + 1), ?_, rfl, e.issue_shift _⟩
    rw [Program.compile_eq_error_iff, hsegments, Program.compileSegments_append, h,
      Program.compileSegments_shift, he]
    rfl

/-- The semicolon in the text of the first script does not cut. What is behind it
    is found to be wrong at the place that it has in both scripts. -/
theorem join_of_quoted_semicolon :
    ∃ program program' joined,
      Program.compile "a = \"x;y\"".toList = .ok program ∧
      Program.compile "b = a".toList = .ok program' ∧
      Program.compile "a = \"x;y\";b = a".toList = .ok joined ∧
      joined.statements.map Statement.offset = [0, 10] ∧
      (∀ (budget : Nat) (m : Machine Unit), joined.run budget m.fresh =
        (do program.run budget
            Eval.update Machine.fresh
            (program'.run budget).shifted 10 : Eval Unit Unit) m.fresh) ∧
      ∃ e e', Program.compile "b =".toList = .error e ∧
        Program.compile "a = \"x;y\";b =".toList = .error e' ∧ e'.issue = e.issue.shift 10 := by
  have hscan : Scan.ofText "a = \"x;y\"".toList =
      ⟨[⟨.name "a", 0, 2, 0⟩, ⟨.operator .assign, 2, 3, 0⟩, ⟨.constant (.text "x;y"), 4, 9, 0⟩],
        .complete 9 0⟩ := by
    with_unfolding_all rfl
  have hscan' : Scan.ofText "b = a".toList =
      ⟨[⟨.name "b", 0, 2, 0⟩, ⟨.operator .assign, 2, 3, 0⟩, ⟨.name "a", 4, 5, 0⟩],
        .complete 5 0⟩ := by
    with_unfolding_all rfl
  have hscan'' : Scan.ofText "b =".toList =
      ⟨[⟨.name "b", 0, 2, 0⟩, ⟨.operator .assign, 2, 3, 0⟩], .complete 3 0⟩ := by
    with_unfolding_all rfl
  have hfirst : Program.compile "a = \"x;y\"".toList = .ok ⟨[⟨0, "a = \"x;y\"".toList,
      .binary .assign (.var "a" ⟨0, 0⟩) (.literal (.text "x;y") ⟨4, 0⟩) ⟨2, 2⟩⟩]⟩ := by
    have hcut : Segment.ofScript "a = \"x;y\"".toList = [⟨0, "a = \"x;y\"".toList⟩] := rfl
    rw [Program.compile_eq_ok_iff, hcut]
    exact Program.compileSegments_of_parse rfl (by rw [Expr.parse, hscan]; rfl) rfl
  have hsecond : Program.compile "b = a".toList = .ok ⟨[⟨0, "b = a".toList,
      .binary .assign (.var "b" ⟨0, 0⟩) (.var "a" ⟨4, 0⟩) ⟨2, 2⟩⟩]⟩ := by
    have hcut : Segment.ofScript "b = a".toList = [⟨0, "b = a".toList⟩] := rfl
    rw [Program.compile_eq_ok_iff, hcut]
    exact Program.compileSegments_of_parse rfl (by rw [Expr.parse, hscan']; rfl) rfl
  have hwrong : Program.compile "b =".toList =
      .error ⟨⟨0, "b =".toList⟩, ⟨.grammatical, .expressionMissing, 3⟩⟩ := by
    have hcut : Segment.ofScript "b =".toList = [⟨0, "b =".toList⟩] := rfl
    rw [Program.compile_eq_error_iff, hcut]
    exact Program.compileSegments_of_error rfl (by rw [Expr.parse, hscan'']; rfl)
  rcases (compile_join hfirst).1 _ hsecond with ⟨joined, hjoined, hstatements, hrun⟩
  rcases (compile_join hfirst).2 _ hwrong with ⟨e', he', _, hissue⟩
  refine ⟨_, _, joined, hfirst, hsecond, hjoined, ?_, hrun Unit, _, e', hwrong, he', hissue⟩
  rw [hstatements]
  rfl

end Scriptlet
