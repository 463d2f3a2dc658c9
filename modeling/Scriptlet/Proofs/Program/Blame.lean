import Scriptlet.Proofs.Eval.Confined
import Scriptlet.Proofs.Parse.Blame
import Scriptlet.Proofs.Program.Compose

/-!
# Places in a Script

An error of a script, whether of compiling or of running it, is at a place of
the one statement that is at fault. Compiling stops at the first segment that
cannot be read, and running stops at the first statement that fails. The error
of that statement is at a place in its text, and the offset of the statement
moves it to the same place in the script.

## Main definitions

* `Stands`: That a text stands at a place of a script.

## Theorems

* `intercalate_cutStatements`: A script is its segments with semicolons between.
* `stands_of_mem_ofScript`: Segments stand where their offsets say.
* `segment_of_statement`: Statements are read from segments.
* `exists_segment_of_error`: The segment at which compiling stops.
* `exists_statement_of_failed`: The statement at which running stops.
* `blame_within_statement`: Errors are at places of the statement at fault.
-/

namespace Scriptlet

/-- A text stands in a script behind a number of characters. -/
def Stands (script text : List Char) (offset : Nat) : Prop :=
  ∃ front back, script = front ++ text ++ back ∧ front.length = offset

/-! ### Segments -/

theorem intercalate_consFirst (c : Char) (texts : List (List Char)) :
    [';'].intercalate (consFirst c texts) = c :: [';'].intercalate texts := by
  rcases texts with _ | ⟨text, _ | ⟨text', texts⟩⟩ <;> simp [consFirst]

/-- A script is what it is cut into, with semicolons between. -/
theorem intercalate_cutStatements (quoted : Bool) (cs : List Char) :
    [';'].intercalate (cutStatements quoted cs) = cs := by
  induction cs generalizing quoted with
  | nil => rfl
  | cons c cs ih =>
      rw [cutStatements]
      split
      · next hcut =>
        rcases List.exists_cons_of_ne_nil (cutStatements_ne_nil quoted cs) with
          ⟨text, texts, htexts⟩
        rw [htexts, List.intercalate_cons_cons, ← htexts, ih, hcut.1]
        rfl
      · rw [intercalate_consFirst, ih]

namespace Segment

theorem stands_of_mem_placed {texts : List (List Char)} {offset : Nat} {segment : Segment}
    (h : segment ∈ placed offset texts) :
    ∃ place, segment.offset = offset + place ∧
      Stands ([';'].intercalate texts) segment.text place := by
  induction texts generalizing offset with
  | nil => simp [placed] at h
  | cons text texts ih =>
      rcases texts with _ | ⟨text', texts⟩
      · rcases List.mem_singleton.mp h with rfl
        exact ⟨0, rfl, [], [], by simp, rfl⟩
      rw [List.intercalate_cons_cons]
      rcases List.mem_cons.mp h with rfl | h
      · exact ⟨0, rfl, [], _, List.append_assoc _ _ _, rfl⟩
      · rcases ih h with ⟨place, hoffset, front, back, hbehind, hfront⟩
        refine ⟨text.length + 1 + place, ?_, text ++ [';'] ++ front, back, ?_, ?_⟩
        · rw [hoffset]
          omega
        · simp only [hbehind, List.append_assoc]
        · rw [List.length_append, List.length_append, List.length_singleton, hfront]

theorem stands_of_mem_ofScript {script : List Char} {segment : Segment}
    (h : segment ∈ ofScript script) : Stands script segment.text segment.offset := by
  rcases stands_of_mem_placed h with ⟨place, hoffset, hstands⟩
  rwa [intercalate_cutStatements, ← Nat.zero_add place, ← hoffset] at hstands

end Segment

namespace Program

/-- Statements are read from segments. -/
theorem segment_of_statement {segments : List Segment} {statements : List Statement}
    (h : compileSegments segments = .ok statements) : ∀ statement ∈ statements,
      ⟨statement.offset, statement.text⟩ ∈ segments ∧
        Expr.parse statement.text = .ok statement.expr := by
  induction segments generalizing statements with
  | nil =>
      simp only [compileSegments, Except.ok.injEq] at h
      simp [← h]
  | cons x xs ih =>
      rw [compileSegments] at h
      split at h
      · exact fun statement hmem => (ih h statement hmem).imp_left (List.mem_cons_of_mem _)
      · rcases Parse.bind_eq_ok h with ⟨first, hfirst, h⟩
        rcases Parse.bind_eq_ok h with ⟨rest, hrest, h⟩
        cases h
        refine List.forall_mem_cons.mpr ⟨?_, fun statement hmem =>
          (ih hrest statement hmem).imp_left (List.mem_cons_of_mem _)⟩
        unfold Statement.ofSegment at hfirst
        split at hfirst
        · next hparse =>
          cases hfirst
          exact ⟨List.mem_cons_self, hparse⟩
        · simp at hfirst

/-- Compiling stops at the first segment that is not blank and cannot be read. -/
theorem exists_segment_of_error {segments : List Segment} {e : CompileError}
    (h : compileSegments segments = .error e) :
    ∃ before after, segments = before ++ e.segment :: after ∧
      (∀ segment ∈ before, Text.isAllBlank segment.text = true ∨
        ∃ expr, Expr.parse segment.text = .ok expr) ∧
      Text.isAllBlank e.segment.text = false ∧ Expr.parse e.segment.text = .error e.error := by
  induction segments with
  | nil => simp [compileSegments] at h
  | cons x xs ih =>
      rw [compileSegments] at h
      split at h
      · next hblank =>
        rcases ih h with ⟨before, after, rfl, hbefore, hrest⟩
        exact ⟨x :: before, after, rfl, List.forall_mem_cons.mpr ⟨.inl hblank, hbefore⟩, hrest⟩
      · next hblank =>
        unfold Statement.ofSegment at h
        cases hparse : Expr.parse x.text with
        | error error =>
            rw [hparse] at h
            cases h
            exact ⟨[], xs, rfl, by simp, by simpa using hblank, hparse⟩
        | ok expr =>
            rw [hparse] at h
            cases hxs : compileSegments xs with
            | ok statements =>
                rw [hxs] at h
                cases h
            | error e' =>
                rw [hxs] at h
                cases h
                rcases ih hxs with ⟨before, after, rfl, hbefore, hrest⟩
                exact ⟨x :: before, after, rfl,
                  List.forall_mem_cons.mpr ⟨.inr ⟨expr, hparse⟩, hbefore⟩, hrest⟩

/-! ### Runs -/

variable {σ : Type} [Host σ]

/-- Running stops at the first statement that fails. Those in front of it have run. -/
theorem exists_statement_of_failed {budget : Nat} {xs : List Statement} {m m' : Machine σ}
    {e : Fault} (h : runAll budget xs m = (.failed e, m')) :
    ∃ before x after between inner, xs = before ++ x :: after ∧
      runAll budget before m = (.value (), between) ∧
      evaluate budget x.expr between = (.failed inner, m') ∧ e = inner.shift x.offset := by
  induction xs generalizing m with
  | nil => cases h
  | cons x xs ih =>
      simp only [runAll, Bind.bind, Eval.bind, Eval.shifted] at h
      rcases hx : evaluate budget x.expr m with ⟨outcome, m₁⟩
      rw [hx] at h
      cases outcome with
      | unfinished => cases h
      | failed inner =>
          cases h
          exact ⟨[], x, xs, m, inner, rfl, rfl, hx, rfl⟩
      | value v =>
          rcases ih h with ⟨before, y, after, between, inner, rfl, hbefore, hy, he⟩
          refine ⟨x :: before, y, after, between, inner, rfl, ?_, hy, he⟩
          simp only [runAll, Bind.bind, Eval.bind, Eval.shifted, hx]
          exact hbefore

end Program

/-! ### Errors of a script -/

/-- Errors are at places of the statement at fault. If a script does not compile,
    the error is in the first segment that is not blank and cannot be read, or at
    its end. If its program fails, the error is at a node of the first statement
    that fails, and in its text. -/
theorem blame_within_statement (script : List Char) :
    (∀ e, Program.compile script = .error e →
      ∃ before after, Segment.ofScript script = before ++ e.segment :: after ∧
        (∀ segment ∈ before, Text.isAllBlank segment.text = true ∨
          ∃ expr, Expr.parse segment.text = .ok expr) ∧
        Text.isAllBlank e.segment.text = false ∧ Expr.parse e.segment.text = .error e.error ∧
        Stands script e.segment.text e.segment.offset ∧
        e.segment.offset ≤ e.issue.position ∧
        e.issue.position ≤ e.segment.offset + e.segment.text.length) ∧
    ∀ program, Program.compile script = .ok program →
      ∀ (σ : Type) [Host σ] (budget : Nat) (m m' : Machine σ) (e : Fault),
        program.run budget m = (.failed e, m') →
        ∃ before statement after between inner,
          program.statements = before ++ statement :: after ∧
          Program.runAll budget before m = (.value (), between) ∧
          evaluate budget statement.expr between = (.failed inner, m') ∧
          Stands script statement.text statement.offset ∧
          ∃ n ∈ statement.expr.nodes, n.position < statement.text.length ∧
            e.issue.position = statement.offset + n.position := by
  refine ⟨fun e h => ?_, fun program hcompile σ _ budget m m' e h => ?_⟩
  · rw [Program.compile_eq_error_iff] at h
    rcases Program.exists_segment_of_error h with ⟨before, after, hsplit, hbefore, hblank, hparse⟩
    have hmem : e.segment ∈ Segment.ofScript script := by simp [hsplit]
    have hposition : e.issue.position = e.error.position + e.segment.offset := rfl
    have hle := Parse.position_le_of_parse hparse
    refine ⟨before, after, hsplit, hbefore, hblank, hparse,
      Segment.stands_of_mem_ofScript hmem, ?_, ?_⟩ <;> omega
  · rw [Program.compile_eq_ok_iff] at hcompile
    rcases Program.exists_statement_of_failed h with
      ⟨before, statement, after, between, inner, hsplit, hbefore, hfailed, rfl⟩
    have hmem : statement ∈ program.statements := by simp [hsplit]
    rcases Program.segment_of_statement hcompile statement hmem with ⟨hsegment, hparse⟩
    rcases blamed_of_eval budget maxNesting hfailed with ⟨n, hn, hposition⟩
    refine ⟨before, statement, after, between, inner, hsplit, hbefore, hfailed,
      Segment.stands_of_mem_ofScript hsegment, n, hn, Parse.position_lt_of_parse hparse hn, ?_⟩
    rw [hposition]
    exact Nat.add_comm _ _

/-- A bracket that is never closed is blamed on the end of its statement, and an
    unknown name on the place that it has in the script, behind a semicolon that
    does not cut. -/
theorem blame_within_last_statement :
    (∃ e, Program.compile "a = \"x;y\"; b = (a".toList = .error e ∧
      e.segment.offset ≤ e.issue.position ∧
      e.issue.position ≤ e.segment.offset + e.segment.text.length) ∧
    ∃ program e, Program.compile "a = \"x;y\"; b = a".toList = .ok program ∧
      (program.run 9 (⟨.empty 0 (), .ofList [("a", .text "")], [], 0⟩ : Machine Unit)).1 =
        .failed e ∧
      ∃ statement ∈ program.statements, ∃ n ∈ statement.expr.nodes,
        n.position < statement.text.length ∧
          e.issue.position = statement.offset + n.position := by
  have hscan : Scan.ofText "a = \"x;y\"".toList =
      ⟨[⟨.name "a", 0, 2, 0⟩, ⟨.operator .assign, 2, 3, 0⟩, ⟨.constant (.text "x;y"), 4, 9, 0⟩],
        .complete 9 0⟩ := by
    with_unfolding_all rfl
  have hscan' : Scan.ofText " b = (a".toList =
      ⟨[⟨.name "b", 1, 3, 0⟩, ⟨.operator .assign, 3, 4, 0⟩, ⟨.opening .round, 5, 6, 0⟩,
        ⟨.name "a", 6, 7, 1⟩], .complete 7 1⟩ := by
    with_unfolding_all rfl
  have hscan'' : Scan.ofText " b = a".toList =
      ⟨[⟨.name "b", 1, 3, 0⟩, ⟨.operator .assign, 3, 4, 0⟩, ⟨.name "a", 5, 6, 0⟩],
        .complete 6 0⟩ := by
    with_unfolding_all rfl
  have hparse : Expr.parse "a = \"x;y\"".toList =
      .ok (.binary .assign (.var "a" ⟨0, 0⟩) (.literal (.text "x;y") ⟨4, 0⟩) ⟨2, 2⟩) := by
    rw [Expr.parse, hscan]
    rfl
  have hwrong : Program.compile "a = \"x;y\"; b = (a".toList =
      .error ⟨⟨10, " b = (a".toList⟩, ⟨.grammatical, .closerMissing .round, 7⟩⟩ := by
    have hcut : Segment.ofScript "a = \"x;y\"; b = (a".toList =
        [⟨0, "a = \"x;y\"".toList⟩, ⟨10, " b = (a".toList⟩] := rfl
    rw [Program.compile_eq_error_iff, hcut]
    exact Program.compileSegments_of_parse rfl hparse
      (Program.compileSegments_of_error rfl (by rw [Expr.parse, hscan']; rfl))
  have hright : Program.compile "a = \"x;y\"; b = a".toList = .ok ⟨[⟨0, "a = \"x;y\"".toList,
      .binary .assign (.var "a" ⟨0, 0⟩) (.literal (.text "x;y") ⟨4, 0⟩) ⟨2, 2⟩⟩,
      ⟨10, " b = a".toList,
      .binary .assign (.var "b" ⟨1, 0⟩) (.var "a" ⟨5, 0⟩) ⟨3, 2⟩⟩]⟩ := by
    have hcut : Segment.ofScript "a = \"x;y\"; b = a".toList =
        [⟨0, "a = \"x;y\"".toList⟩, ⟨10, " b = a".toList⟩] := rfl
    rw [Program.compile_eq_ok_iff, hcut]
    exact Program.compileSegments_of_parse rfl hparse
      (Program.compileSegments_of_parse rfl (by rw [Expr.parse, hscan'']; rfl) rfl)
  refine ⟨?_, _, ⟨.reference, .targetNotFound "b", 11⟩, hright, rfl, ?_⟩
  · rcases (blame_within_statement _).1 _ hwrong with ⟨_, _, _, _, _, _, _, hfrom, hto⟩
    exact ⟨_, hwrong, hfrom, hto⟩
  · rcases (blame_within_statement _).2 _ hright Unit 9
      ⟨.empty 0 (), .ofList [("a", .text "")], [], 0⟩ _
      ⟨.reference, .targetNotFound "b", 11⟩ rfl with
      ⟨before, statement, after, _, _, hsplit, _, _, _, n, hn, hplace⟩
    have hmem : statement ∈ before ++ statement :: after := by simp
    rw [← hsplit] at hmem
    exact ⟨statement, hmem, n, hn, hplace⟩

end Scriptlet
