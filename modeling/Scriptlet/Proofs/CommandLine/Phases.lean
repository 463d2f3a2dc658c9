import Scriptlet.CommandLine
import Scriptlet.Proofs.Eval.Ending
import Scriptlet.Proofs.Program.Blame

/-!
# Phases

A script is compiled and then run, and the kind of an error tells which of the
two failed. An error has its kind from where it is raised, in the scanner, the
reader or the evaluator, and none of them raises one of another phase. The exit
code of a command goes by that kind alone, so it tells as much: two codes, one
for each phase, and nothing else of a run has either.

The world of a command is left open. It is whatever texts are read from, and
reading may change it, as it does when the standard input is used up. So the
context is read in the world that the script left behind. Left open as well is
what a program takes over from others, how arguments are understood and how
documents are read and written, and how many steps a loop may take. One code is
for runs that are given up for want of steps. All others are the same with more
steps, so they are those of a program that may take as many as it likes.

## Main definitions

* `Report.inWorld`, `Command.runReport`: What is seen of a command line and of a run in a world.
* `Command.Uncompiled`: That a script can be read but does not compile.
* `Command.Ready`: The program and the machine that a run has made ready.
* `Command.conclude`: What comes of a run that is ready.

## Theorems

* `kind_of_parse`, `kind_of_compile`: The kinds of errors before a script runs.
* `kind_of_evaluate`, `kind_of_run`: The kinds of errors while a script runs.
* `exitCode_of_loadContext`: A context that cannot be loaded has an exit code of its own.
* `perform_of_unreadable`, `perform_of_uncompiled`, `perform_of_unloaded`, `perform_of_ready`:
  The ways in which a run can go.
* `runReport_cases`: There are no others.
* `exitCode_eq_two_iff`, `exitCode_eq_three_iff`, `exitCode_eq_zero_iff`,
  `exitCode_eq_five_iff`: What exit codes tell.
* `runReport_of_le`: More steps change nothing unless steps were wanting.
* `exitCode_separates_phases`: The exit code of a run tells which phase failed.
-/

namespace Scriptlet

/-! ### Kinds of errors -/

/-- The fault of a statement is one of characters, and the scan has found it, or
    it is one of grammar. -/
theorem kind_of_parse {text : List Char} {e : Fault} (h : Expr.parse text = .error e) :
    e.issue.kind = .lexical ∧ tokenize text = .error e ∨ e.issue.kind = .grammatical := by
  rcases Parse.founded_of_parse h with ⟨depth, hending⟩ | ⟨hkind, _, _⟩
  · have htokens := tokenize_eq_error_iff.mpr ⟨depth, hending⟩
    exact .inl ⟨kind_of_tokenize htokens, htokens⟩
  · exact .inr hkind

theorem kind_of_compile {script : List Char} {e : CompileError}
    (h : Program.compile script = .error e) :
    e.issue.kind = .lexical ∨ e.issue.kind = .grammatical := by
  rw [Program.compile_eq_error_iff] at h
  rcases Program.exists_segment_of_error h with ⟨_, _, _, _, _, hparse⟩
  exact (kind_of_parse hparse).imp_left And.left

theorem IssueKind.cases_of_isCompileTime {kind : IssueKind} (h : kind.isCompileTime = false) :
    kind = .reference ∨ kind = .typing ∨ kind = .runtime := by
  cases kind <;> simp [isCompileTime] at h ⊢

section Runs

variable {σ : Type} [Host σ] {budget : Nat} {m m' : Machine σ} {error : Fault}

theorem kind_of_evaluate {e : Expr} (h : evaluate budget e m = (.failed error, m')) :
    error.issue.kind.isCompileTime = false :=
  kind_of_eval budget maxNesting h

theorem kind_of_run {program : Program} (h : program.run budget m = (.failed error, m')) :
    error.issue.kind.isCompileTime = false := by
  rcases Program.exists_statement_of_failed h with ⟨_, _, _, _, inner, _, _, hfailed, rfl⟩
  have hkind : inner.issue.kind.isCompileTime = false := kind_of_evaluate hfailed
  exact hkind

/-- A run that ends with one budget ends the same way with every larger one. -/
theorem Program.runAll_settles {more : Nat} (hle : budget ≤ more) (statements : List Statement) :
    Eval.Settles (Program.runAll budget statements : Eval σ Unit)
      (Program.runAll more statements) := by
  induction statements with
  | nil => exact .refl _
  | cons statement statements ih =>
      exact ((eval_settles hle maxNesting statement.expr).shifted statement.offset).bind_of
        fun _ _ => ih

end Runs

/-! ### Courses of a command -/

variable {World : Type}

/-- What is seen of a command line in a world that reading a text may change. -/
def Report.inWorld (platform : Platform) (budget : Nat) (read : TextReader (StateM World))
    (seed : UInt64) (args : List String) (environment : Option String) (world : World) : Report :=
  .ofResult ((CommandLine.perform read seed args environment platform budget).run.run world).1

namespace Command

variable {platform : Platform} {budget : Nat} {read : TextReader (StateM World)} {seed : UInt64}
  {script context : Option String} {world behind : World}

/-- The script can be read but does not compile. -/
def Uncompiled (read : TextReader (StateM World)) (script : Option String) (world : World) : Prop :=
  ∃ text behind e, (read (.ofPath script)).run world = (.ok text, behind) ∧
    Program.compile text.toList = .error e

/-- The script compiles and the context loads, in the world that is left. This is
    the program that runs, and the machine that it runs on. -/
def Ready (platform : Platform) (read : TextReader (StateM World)) (seed : UInt64)
    (script context : Option String) (world : World) (program : Program) (machine : Machine Unit) :
    Prop :=
  ∃ text behind rest bindings store, (read (.ofPath script)).run world = (.ok text, behind) ∧
    Program.compile text.toList = .ok program ∧
    (loadContext platform read context (.empty seed ())).run.run behind =
      (.ok (bindings, store), rest) ∧
    machine = { store, context := bindings }

section Bind

variable {α β : Type} {x : ExceptT Failure (StateM World) α}
  {f : α → ExceptT Failure (StateM World) β}

theorem bind_of_ok {a : α} (h : x.run.run world = (.ok a, behind)) :
    (x >>= f).run.run world = (f a).run.run behind := by
  rw [ExceptT.run_bind, StateT.run_bind, h]
  rfl

theorem bind_of_error {failure : Failure} (h : x.run.run world = (.error failure, behind)) :
    (x >>= f).run.run world = (.error failure, behind) := by
  rw [ExceptT.run_bind, StateT.run_bind, h]
  rfl

end Bind

theorem load_of_ok {source : TextSource} {text : String}
    (h : (read source).run world = (.ok text, behind)) :
    (load read source).run.run world = (.ok text, behind) := by
  rw [load, ExceptT.run_mk, StateT.run_bind, h]
  rfl

theorem load_of_error {source : TextSource} {reason : String}
    (h : (read source).run world = (.error reason, behind)) :
    (load read source).run.run world = (.error (.unreadable reason), behind) := by
  rw [load, ExceptT.run_mk, StateT.run_bind, h]
  rfl

/-- A context that cannot be loaded has an exit code of its own. -/
theorem exitCode_of_loadContext {s : Store Unit} {failure : Failure}
    (h : (loadContext platform read context s).run.run world = (.error failure, behind)) :
    failure.exitCode = 4 := by
  unfold loadContext at h
  cases context with
  | none => cases h
  | some path =>
      rcases hread : (read (.file path)).run world with ⟨answer, world₁⟩
      cases answer with
      | error reason =>
          rw [bind_of_error (load_of_error hread)] at h
          cases h
          rfl
      | ok text =>
          rw [bind_of_ok (load_of_ok hread)] at h
          split at h
          · cases h
            rfl
          · split at h
            · cases h
            · cases h
              rfl

/-! The ways in which a run can go. -/

theorem perform_of_unreadable {reason : String}
    (h : (read (.ofPath script)).run world = (.error reason, behind)) :
    (performRun platform budget read seed script context).run.run world =
      (.error (.unreadable reason), behind) :=
  bind_of_error (bind_of_error (load_of_error h))

theorem perform_of_uncompiled {text : String} {e : CompileError}
    (h : (read (.ofPath script)).run world = (.ok text, behind))
    (hcompile : Program.compile text.toList = .error e) :
    (performRun platform budget read seed script context).run.run world =
      (.error (.script ⟨(TextSource.ofPath script).name, text.toList, e.issue⟩), behind) := by
  refine bind_of_error ?_
  rw [loadProgram, bind_of_ok (load_of_ok h)]
  simp only [hcompile]
  rfl

theorem loadProgram_of_ok {source : TextSource} {text : String} {program : Program}
    (h : (read source).run world = (.ok text, behind))
    (hcompile : Program.compile text.toList = .ok program) :
    (loadProgram read source).run.run world = (.ok (text.toList, program), behind) := by
  rw [loadProgram, bind_of_ok (load_of_ok h)]
  simp only [hcompile]
  rfl

theorem perform_of_unloaded {text : String} {program : Program} {failure : Failure} {rest : World}
    (h : (read (.ofPath script)).run world = (.ok text, behind))
    (hcompile : Program.compile text.toList = .ok program)
    (hload : (loadContext platform read context (.empty seed ())).run.run behind =
      (.error failure, rest)) :
    (performRun platform budget read seed script context).run.run world =
      (.error failure, rest) := by
  rw [performRun, bind_of_ok (loadProgram_of_ok h hcompile)]
  exact bind_of_error hload

/-- What comes of a run that is ready, in words. -/
def conclude (platform : Platform) (source : TextSource) (text : List Char) :
    Outcome Unit × Machine Unit → Except Failure String
  | (.value (), machine) =>
    match platform.pretty? (machine.context.toJson machine.store) with
    | some document => .ok (document ++ "\n")
    | none => .error .notJson
  | (.failed e, _) => .error (.script ⟨source.name, text, e.issue⟩)
  | (.unfinished, _) => .error .unfinished

theorem perform_of_ready {text : String} {program : Program} {bindings : Context}
    {store : Store Unit} {rest : World}
    (h : (read (.ofPath script)).run world = (.ok text, behind))
    (hcompile : Program.compile text.toList = .ok program)
    (hload : (loadContext platform read context (.empty seed ())).run.run behind =
      (.ok (bindings, store), rest)) :
    (performRun platform budget read seed script context).run.run world =
      (conclude platform (.ofPath script) text.toList
        (program.run budget { store, context := bindings }), rest) := by
  rw [performRun, bind_of_ok (loadProgram_of_ok h hcompile)]
  simp only
  rw [bind_of_ok hload]
  simp only
  rcases program.run budget { store, context := bindings } with ⟨outcome, machine⟩
  cases outcome with
  | value _ =>
      simp only [conclude, printDocument]
      cases platform.pretty? (machine.context.toJson machine.store) <;> rfl
  | failed _ | unfinished => rfl

/-! ### Exit codes -/

theorem exitCode_of_compile {text : List Char} {e : CompileError}
    (h : Program.compile text = .error e) (file : String) (script : List Char) :
    (Failure.script ⟨file, script, e.issue⟩).exitCode = 2 := by
  rcases kind_of_compile h with hkind | hkind <;>
    simp [Failure.exitCode, hkind, IssueKind.isCompileTime]

/-- What is seen of a run in a world. -/
def runReport (platform : Platform) (budget : Nat) (read : TextReader (StateM World))
    (seed : UInt64) (script context : Option String) (world : World) : Report :=
  .ofResult ((performRun platform budget read seed script context).run.run world).1

theorem Uncompiled.exitCode (h : Uncompiled read script world) :
    (runReport platform budget read seed script context world).exitCode = 2 := by
  rcases h with ⟨text, behind, e, hread, hcompile⟩
  rw [runReport, perform_of_uncompiled hread hcompile]
  exact exitCode_of_compile hcompile _ _

/-- What is seen of a run that is ready depends on what the program does. -/
theorem Ready.runReport_eq {program : Program} {machine : Machine Unit}
    (h : Ready platform read seed script context world program machine) :
    ∃ text, ∀ budget, runReport platform budget read seed script context world =
      .ofResult (conclude platform (.ofPath script) text (program.run budget machine)) := by
  rcases h with ⟨text, behind, rest, bindings, store, hread, hcompile, hload, rfl⟩
  refine ⟨text.toList, fun budget => ?_⟩
  rw [runReport, perform_of_ready hread hcompile hload]

/-- The exit code that a run ends with once it is ready. -/
def endCode (platform : Platform) : Outcome Unit × Machine Unit → Nat
  | (.value _, machine) =>
    if (platform.pretty? (machine.context.toJson machine.store)).isSome then 0 else 4
  | (.failed _, _) => 3
  | (.unfinished, _) => 5

theorem endCode_ne_two (result : Outcome Unit × Machine Unit) : endCode platform result ≠ 2 := by
  rcases result with ⟨_ | _ | _, machine⟩ <;> simp only [endCode]
  · split <;> decide
  · decide
  · decide

theorem endCode_eq_zero_iff {result : Outcome Unit × Machine Unit} :
    endCode platform result = 0 ↔ ∃ machine document, result = (.value (), machine) ∧
      platform.pretty? (machine.context.toJson machine.store) = some document := by
  rcases result with ⟨_ | _ | _, machine⟩ <;> simp [endCode, Option.isSome_iff_exists]

theorem endCode_eq_three_iff {result : Outcome Unit × Machine Unit} :
    endCode platform result = 3 ↔ ∃ e machine, result = (.failed e, machine) := by
  rcases result with ⟨_ | _ | _, machine⟩ <;> simp [endCode]
  split <;> decide

theorem endCode_eq_five_iff {result : Outcome Unit × Machine Unit} :
    endCode platform result = 5 ↔ result.1 = .unfinished := by
  rcases result with ⟨_ | _ | _, machine⟩ <;> simp [endCode]
  split <;> decide

theorem Ready.exitCode {program : Program} {machine : Machine Unit}
    (h : Ready platform read seed script context world program machine) :
    (runReport platform budget read seed script context world).exitCode =
      endCode platform (program.run budget machine) := by
  rcases h.runReport_eq with ⟨text, hreport⟩
  rw [hreport]
  rcases hrun : program.run budget machine with ⟨outcome, machine'⟩
  cases outcome with
  | value _ =>
      simp only [conclude, endCode]
      cases platform.pretty? (machine'.context.toJson machine'.store) <;> rfl
  -- The kind of the error decides, and it is none of those before a script runs.
  | failed e => simp [conclude, endCode, Report.ofResult, Failure.exitCode, kind_of_run hrun]
  | unfinished => rfl

/-- A run that ends with a value prints the context that it leaves. -/
theorem Ready.output {program : Program} {machine machine' : Machine Unit}
    (h : Ready platform read seed script context world program machine)
    (hrun : program.run budget machine = (.value (), machine')) {document : String}
    (hdocument : platform.pretty? (machine'.context.toJson machine'.store) = some document) :
    (runReport platform budget read seed script context world).output = document ++ "\n" := by
  rcases h.runReport_eq with ⟨text, hreport⟩
  rw [hreport, hrun]
  simp only [conclude, hdocument, Report.ofResult]

/-- A run does not compile, or it is made ready, or a text is missing for that. In
    the first and the last case steps do not matter. -/
theorem runReport_cases (platform : Platform) (read : TextReader (StateM World)) (seed : UInt64)
    (script context : Option String) (world : World) :
    (∃ report : Report, (report.exitCode = 4 ∨ Uncompiled read script world) ∧
      ∀ budget, runReport platform budget read seed script context world = report) ∨
    ∃ program machine, Ready platform read seed script context world program machine := by
  rcases hread : (read (.ofPath script)).run world with ⟨answer, behind⟩
  cases answer with
  | error reason =>
      refine .inl ⟨_, .inl ?_, fun budget => by rw [runReport, perform_of_unreadable hread]⟩
      rfl
  | ok text =>
      cases hcompile : Program.compile text.toList with
      | error e =>
          exact .inl ⟨_, .inr ⟨text, behind, e, hread, hcompile⟩,
            fun budget => by rw [runReport, perform_of_uncompiled hread hcompile]⟩
      | ok program =>
          rcases hload : (loadContext platform read context (.empty seed ())).run.run behind with
            ⟨loaded, rest⟩
          cases loaded with
          | error failure =>
              refine .inl ⟨_, .inl ?_,
                fun budget => by rw [runReport, perform_of_unloaded hread hcompile hload]⟩
              exact exitCode_of_loadContext hload
          | ok loaded =>
              rcases loaded with ⟨bindings, store⟩
              exact .inr ⟨program, _, text, behind, rest, bindings, store, hread, hcompile,
                hload, rfl⟩

theorem exitCode_eq_two_iff :
    (runReport platform budget read seed script context world).exitCode = 2 ↔
      Uncompiled read script world := by
  refine ⟨fun h => ?_, fun h => h.exitCode⟩
  rcases runReport_cases platform read seed script context world with
    ⟨report, hother | hwrong, hreport⟩ | ⟨program, machine, hready⟩
  · rw [hreport budget] at h
    omega
  · exact hwrong
  · exact absurd (hready.exitCode.symm.trans h) (endCode_ne_two _)

/-- With any exit code but those for a missing text and for a script that does not
    compile, a run was ready, and the code tells how it ended. -/
theorem exitCode_eq_iff {code : Nat} (hfour : code ≠ 4) (htwo : code ≠ 2) :
    (runReport platform budget read seed script context world).exitCode = code ↔
      ∃ program machine, Ready platform read seed script context world program machine ∧
        endCode platform (program.run budget machine) = code := by
  constructor
  · intro h
    rcases runReport_cases platform read seed script context world with
      ⟨report, hother | hwrong, hreport⟩ | ⟨program, machine, hready⟩
    · rw [hreport budget] at h
      omega
    · exact absurd (h.symm.trans hwrong.exitCode) htwo
    · exact ⟨program, machine, hready, hready.exitCode.symm.trans h⟩
  · rintro ⟨program, machine, hready, hcode⟩
    exact hready.exitCode.trans hcode

theorem exitCode_eq_three_iff :
    (runReport platform budget read seed script context world).exitCode = 3 ↔
      ∃ program machine, Ready platform read seed script context world program machine ∧
        ∃ e machine', program.run budget machine = (.failed e, machine') := by
  simp only [exitCode_eq_iff (by decide : 3 ≠ 4) (by decide : 3 ≠ 2), endCode_eq_three_iff]

theorem exitCode_eq_five_iff :
    (runReport platform budget read seed script context world).exitCode = 5 ↔
      ∃ program machine, Ready platform read seed script context world program machine ∧
        (program.run budget machine).1 = .unfinished := by
  simp only [exitCode_eq_iff (by decide : 5 ≠ 4) (by decide : 5 ≠ 2), endCode_eq_five_iff]

theorem exitCode_eq_zero_iff :
    (runReport platform budget read seed script context world).exitCode = 0 ↔
      ∃ program machine, Ready platform read seed script context world program machine ∧
        ∃ machine' document, program.run budget machine = (.value (), machine') ∧
          platform.pretty? (machine'.context.toJson machine'.store) = some document ∧
          (runReport platform budget read seed script context world).output =
            document ++ "\n" := by
  rw [exitCode_eq_iff (by decide) (by decide)]
  constructor
  · rintro ⟨program, machine, hready, hcode⟩
    rcases endCode_eq_zero_iff.mp hcode with ⟨machine', document, hrun, hdocument⟩
    exact ⟨program, machine, hready, machine', document, hrun, hdocument,
      hready.output hrun hdocument⟩
  · rintro ⟨program, machine, hready, machine', document, hrun, hdocument, _⟩
    exact ⟨program, machine, hready, endCode_eq_zero_iff.mpr ⟨machine', document, hrun, hdocument⟩⟩

/-- Nothing changes with more steps, unless there were too few of them. -/
theorem runReport_of_le {more : Nat} (hle : budget ≤ more)
    (hfive : (runReport platform budget read seed script context world).exitCode ≠ 5) :
    runReport platform more read seed script context world =
      runReport platform budget read seed script context world := by
  rcases runReport_cases platform read seed script context world with
    ⟨report, _, hreport⟩ | ⟨program, machine, hready⟩
  · rw [hreport, hreport]
  · rcases hready.runReport_eq with ⟨text, hreport⟩
    rcases Program.runAll_settles hle program.statements machine with hout | hsame
    · exact absurd (exitCode_eq_five_iff.mpr ⟨program, machine, hready, hout⟩) hfive
    · rw [hreport, hreport, Program.run, Program.run, hsame]

end Command

/-- A command that fails prints nothing. -/
theorem Report.output_ofResult {result : Except Failure String}
    (h : (Report.ofResult result).exitCode ≠ 0) : (Report.ofResult result).output = "" := by
  cases result with
  | ok output => exact absurd rfl h
  | error failure => rfl

theorem Report.inWorld_of_run {platform : Platform} {read : TextReader (StateM World)}
    {seed : UInt64} {args : List String} {environment script context : Option String}
    (h : platform.command? args environment = some (.run script context)) (budget : Nat)
    (world : World) :
    Report.inWorld platform budget read seed args environment world =
      Command.runReport platform budget read seed script context world := by
  unfold Report.inWorld CommandLine.perform
  rw [h]
  rfl

/-- The kind of an error tells which phase failed. What cannot be scanned is at
    fault for its characters, what cannot be read or compiled for its characters
    or its grammar, and what fails while it runs for neither. So the exit code of
    a run tells it too, however arguments are understood and documents are read
    and written. It is two exactly if the script can be read and does not compile,
    and three exactly if all is ready and the program fails. Only with zero is
    there an output, which is the context that the program left. All this is so
    for any number of steps that loops may take: five is for too few of them, and
    with any other code more of them change nothing. -/
theorem exitCode_separates_phases :
    (∀ text e, tokenize text = .error e → e.issue.kind = .lexical) ∧
    (∀ text e, Expr.parse text = .error e →
      e.issue.kind = .lexical ∧ tokenize text = .error e ∨ e.issue.kind = .grammatical) ∧
    (∀ script e, Program.compile script = .error e →
      e.issue.kind = .lexical ∨ e.issue.kind = .grammatical) ∧
    (∀ (σ : Type) [Host σ] (budget : Nat) (m m' : Machine σ) (error : Fault),
      (∃ e, evaluate budget e m = (.failed error, m')) ∨
        (∃ program : Program, program.run budget m = (.failed error, m')) →
      error.issue.kind = .reference ∨ error.issue.kind = .typing ∨
        error.issue.kind = .runtime) ∧
    ∀ (platform : Platform) (World : Type) (read : TextReader (StateM World)) (seed : UInt64)
      (args : List String) (environment script context : Option String),
      platform.command? args environment = some (.run script context) →
      ∀ (world : World) (budget : Nat),
        ((Report.inWorld platform budget read seed args environment world).exitCode = 2 ↔
          Command.Uncompiled read script world) ∧
        ((Report.inWorld platform budget read seed args environment world).exitCode = 3 ↔
          ∃ program machine, Command.Ready platform read seed script context world program machine ∧
            ∃ e machine', program.run budget machine = (.failed e, machine')) ∧
        ((Report.inWorld platform budget read seed args environment world).exitCode = 0 ↔
          ∃ program machine, Command.Ready platform read seed script context world program machine ∧
            ∃ machine' document, program.run budget machine = (.value (), machine') ∧
              platform.pretty? (machine'.context.toJson machine'.store) = some document ∧
              (Report.inWorld platform budget read seed args environment world).output =
                document ++ "\n") ∧
        ((Report.inWorld platform budget read seed args environment world).exitCode ≠ 0 →
          (Report.inWorld platform budget read seed args environment world).output = "") ∧
        ((Report.inWorld platform budget read seed args environment world).exitCode = 5 ↔
          ∃ program machine, Command.Ready platform read seed script context world program machine ∧
            (program.run budget machine).1 = .unfinished) ∧
        ((Report.inWorld platform budget read seed args environment world).exitCode ≠ 5 →
          ∀ more, budget ≤ more →
            Report.inWorld platform more read seed args environment world =
              Report.inWorld platform budget read seed args environment world) := by
  refine ⟨fun _ _ h => kind_of_tokenize h, fun _ _ h => kind_of_parse h,
    fun _ _ h => kind_of_compile h, fun σ _ budget m m' error h => ?_, ?_⟩
  · refine IssueKind.cases_of_isCompileTime ?_
    rcases h with ⟨e, h⟩ | ⟨program, h⟩
    · exact kind_of_evaluate h
    · exact kind_of_run h
  · intro platform World read seed args environment script context h world budget
    simp only [Report.inWorld_of_run h]
    exact ⟨Command.exitCode_eq_two_iff, Command.exitCode_eq_three_iff,
      Command.exitCode_eq_zero_iff, Report.output_ofResult, Command.exitCode_eq_five_iff,
      fun hfive more hle => Command.runReport_of_le hle hfive⟩

/-- Scripts on the standard input, which reading uses up: one with a bracket that is
    never closed, one that assigns to an unknown name, and one with nothing in it. -/
theorem exitCode_of_standard_input :
    ∃ read : TextReader (StateM String),
      (∀ source world, (read source).run world = (.ok world, "")) ∧
      Platform.stock.command? ["run"] none = some (.run none none) ∧
      (Report.inWorld .stock stepBudget read 0 ["run"] none "a = (").exitCode = 2 ∧
      (Report.inWorld .stock stepBudget read 0 ["run"] none "b = a").exitCode = 3 ∧
      (Report.inWorld .stock stepBudget read 0 ["run"] none "b = a").output = "" ∧
      (Report.inWorld .stock stepBudget read 0 ["run"] none "").exitCode = 0 := by
  have hphases := fun world => exitCode_separates_phases.2.2.2.2 .stock String
    (fun _ => modifyGet fun world => (.ok world, "")) 0 ["run"] none none none rfl world stepBudget
  have hscan : Scan.ofText "a = (".toList =
      ⟨[⟨.name "a", 0, 2, 0⟩, ⟨.operator .assign, 2, 3, 0⟩, ⟨.opening .round, 4, 5, 0⟩],
        .complete 5 1⟩ := by
    with_unfolding_all rfl
  have hscan' : Scan.ofText "b = a".toList =
      ⟨[⟨.name "b", 0, 2, 0⟩, ⟨.operator .assign, 2, 3, 0⟩, ⟨.name "a", 4, 5, 0⟩],
        .complete 5 0⟩ := by
    with_unfolding_all rfl
  have hwrong : Program.compile "a = (".toList =
      .error ⟨⟨0, "a = (".toList⟩, ⟨.grammatical, .expressionMissing, 5⟩⟩ := by
    have hcut : Segment.ofScript "a = (".toList = [⟨0, "a = (".toList⟩] := rfl
    rw [Program.compile_eq_error_iff, hcut]
    exact Program.compileSegments_of_error rfl (by rw [Expr.parse, hscan]; rfl)
  have hright : Program.compile "b = a".toList = .ok ⟨[⟨0, "b = a".toList,
      .binary .assign (.var "b" ⟨0, 0⟩) (.var "a" ⟨4, 0⟩) ⟨2, 2⟩⟩]⟩ := by
    have hcut : Segment.ofScript "b = a".toList = [⟨0, "b = a".toList⟩] := rfl
    rw [Program.compile_eq_ok_iff, hcut]
    exact Program.compileSegments_of_parse rfl (by rw [Expr.parse, hscan']; rfl) rfl
  have hblank : Program.compile "".toList = .ok ⟨[]⟩ := rfl
  have htwo := (hphases "a = (").1.mpr ⟨_, _, _, rfl, hwrong⟩
  have hthree := (hphases "b = a").2.1.mpr ⟨_, _, ⟨_, _, _, _, _, rfl, hright, rfl, rfl⟩,
    ⟨.reference, .targetNotFound "b", 0⟩, _, rfl⟩
  refine ⟨_, fun _ _ => rfl, rfl, htwo, hthree, (hphases "b = a").2.2.2.1 ?_,
    (hphases "").2.2.1.mpr ⟨_, _, ⟨_, _, _, _, _, rfl, hblank, rfl, rfl⟩, _, _, rfl, rfl, ?_⟩⟩
  · rw [hthree]
    decide
  · rfl

end Scriptlet
