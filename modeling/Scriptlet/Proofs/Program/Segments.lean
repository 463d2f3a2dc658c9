import Scriptlet.Proofs.Program.Blame

/-!
# Segments of a Script

Cutting a script loses nothing. Every character of it is in one segment, at the
place that the offset of the segment says, except for the semicolons that cut.
Those are the semicolons with an even number of quotes in front of them, and no
others.

Which characters are in no segment is settled along the script, one character at
a time, just as it is cut. A semicolon that cuts begins a new segment, so it is in
none. Any other character is put in front of the first segment and moves all
others by one place. Whether it is a quote decides from which parity the rest of
the script is counted.

Compiling leaves out the blank segments and keeps all others in their order, so
statements stand in a script one behind the other.

## Main definitions

* `Segment.Covers`: That a character of a script is in a segment.
* `Segment.spelled`: The characters of segments and of the semicolons behind them.
* `Statement.segment`: The segment that a statement was read from.

## Theorems

* `exists_covers_iff`: Which characters are in a segment.
* `ofScript_split`: What stands in front of a segment.
* `pairwise_placed`: Segments stand one behind the other.
* `segment_compileSegments`: Statements are read from the segments that are not blank.
* `segments_make_up_script`: Cutting a script loses nothing.
-/

namespace Scriptlet

/-- A text that stands in a script is a stretch of its characters. -/
theorem Stands.eq_extract {script text : List Char} {offset : Nat} (h : Stands script text offset) :
    text = script.extract offset (offset + text.length) := by
  rcases h with ⟨front, back, rfl, rfl⟩
  rw [List.extract_eq_take_drop, List.append_assoc, List.drop_left, Nat.add_sub_cancel_left,
    List.take_left]

namespace Segment

/-- The character at a place is in a segment. -/
def Covers (place : Nat) (segment : Segment) : Prop :=
  segment.offset ≤ place ∧ place < segment.offset + segment.text.length

/-- The characters of segments, each with the semicolon behind it. -/
def spelled (segments : List Segment) : List Char :=
  segments.flatMap fun segment => segment.text ++ [';']

/-! ### Characters in segments -/

theorem covers_shift {place n : Nat} {segment : Segment} :
    Covers (place + n) (segment.shift n) ↔ Covers place segment := by
  simp only [Covers, shift]
  omega

/-- Places and segments may be moved together. -/
theorem exists_covers_shift (place offset n : Nat) (texts : List (List Char)) :
    (∃ segment ∈ placed (offset + n) texts, Covers (place + n) segment) ↔
      ∃ segment ∈ placed offset texts, Covers place segment := by
  rw [placed_shift]
  simp only [List.mem_map, exists_exists_and_eq_and, covers_shift]

/-- Segments stand at or behind the place where the first of them begins. -/
theorem offset_le_of_mem_placed {offset : Nat} {texts : List (List Char)} {segment : Segment}
    (h : segment ∈ placed offset texts) : offset ≤ segment.offset := by
  induction texts generalizing offset with
  | nil => simp [placed] at h
  | cons text texts ih =>
      rcases List.mem_cons.mp h with rfl | h
      · exact Nat.le_refl _
      · have hle := ih h
        omega

/-- A character in front of the first text is in the first segment, and all others
    are where they were, one place further on. -/
theorem exists_covers_consFirst (c : Char) {texts : List (List Char)} (hne : texts ≠ [])
    (place : Nat) :
    (∃ segment ∈ placed 0 (consFirst c texts), Covers place segment) ↔
      place = 0 ∨ ∃ before, place = before + 1 ∧
        ∃ segment ∈ placed 0 texts, Covers before segment := by
  rcases texts with _ | ⟨text, texts⟩
  · exact absurd rfl hne
  have hfirst : ∀ place, Covers place ⟨0, c :: text⟩ ↔ place < text.length + 1 := by
    intro place
    simp only [Covers, List.length_cons]
    omega
  have htext : ∀ place, Covers place ⟨0, text⟩ ↔ place < text.length := by
    intro place
    simp only [Covers]
    omega
  simp only [consFirst, placed, List.exists_mem_cons_iff, hfirst, htext]
  rcases place with _ | place
  · simp
  · rw [List.length_cons, show 0 + (text.length + 1) + 1 = 0 + text.length + 1 + 1 by omega,
      exists_covers_shift]
    simp

/-- A character is in a segment unless it is a semicolon that cuts. By induction
    along the script, as it is cut. -/
theorem exists_covers_iff (quoted : Bool) (cs : List Char) : ∀ place < cs.length,
    (∃ segment ∈ placed 0 (cutStatements quoted cs), Covers place segment) ↔
      ¬ (cs[place]? = some ';' ∧ Even (quoted.toNat + (cs.take place).count '"')) := by
  induction cs generalizing quoted with
  | nil => simp
  | cons c cs ih =>
      intro place hplace
      rw [cutStatements]
      split
      · next hcut =>
        rcases hcut with ⟨rfl, rfl⟩
        have hempty : ¬ Covers place ⟨0, []⟩ := by simp [Covers]
        simp only [placed, List.exists_mem_cons_iff, hempty, false_or, List.length_nil]
        rcases place with _ | place
        · -- The semicolon itself: all segments behind it begin later.
          simp only [List.getElem?_cons_zero, List.take_zero, List.count_nil, Bool.toNat_false,
            true_and, Nat.add_zero, Even.zero, not_true_eq_false, iff_false]
          rintro ⟨segment, hmem, hcovers, _⟩
          have hle := offset_le_of_mem_placed hmem
          omega
        · rw [exists_covers_shift, ih false place (by simpa using hplace)]
          simp
      · next hcut =>
        rw [exists_covers_consFirst c (cutStatements_ne_nil _ cs)]
        rcases place with _ | place
        · cases quoted <;> simp_all
        · have hrest := ih (if c = '"' then !quoted else quoted) place (by simpa using hplace)
          rw [List.getElem?_cons_succ, List.take_succ_cons, ← even_turned_iff, ← hrest]
          simp

/-! ### Where segments stand -/

theorem length_spelled (segments : List Segment) :
    (spelled segments).length = extent (segments.map Segment.text) := by
  induction segments with
  | nil => rfl
  | cons segment segments ih =>
      simp only [spelled, extent, List.flatMap_cons, List.length_append, List.map_cons,
        List.sum_cons, List.length_singleton] at ih ⊢
      rw [ih]

/-- Texts with semicolons between them begin with the first of them, each with the
    semicolon behind it. -/
theorem spelled_prefix_intercalate (before : List Segment) (text : List Char)
    (after : List (List Char)) :
    spelled before ++ text <+: [';'].intercalate (before.map Segment.text ++ text :: after) := by
  induction before with
  | nil =>
      rcases after with _ | ⟨x, after⟩
      · simp [spelled]
      · rw [List.map_nil, List.nil_append, List.intercalate_cons_cons, List.append_assoc]
        exact List.prefix_append _ _
  | cons x before ih =>
      rcases ih with ⟨back, hback⟩
      refine ⟨back, ?_⟩
      rw [List.map_cons, List.cons_append, List.intercalate_cons_of_ne_nil (by simp), ← hback]
      simp [spelled]

/-- What stands in front of a segment are the segments before it, each with the
    semicolon behind it. -/
theorem ofScript_split {script : List Char} {before after : List Segment} {segment : Segment}
    (h : ofScript script = before ++ segment :: after) :
    segment.offset = (spelled before).length ∧ spelled before ++ segment.text <+: script := by
  have htexts : cutStatements false script =
      before.map Segment.text ++ segment.text :: after.map Segment.text := by
    rw [← map_text_placed 0 (cutStatements false script), ← ofScript, h, List.map_append,
      List.map_cons]
  constructor
  · rw [ofScript, htexts, placed_append] at h
    have hlength : (placed 0 (before.map Segment.text)).length = before.length := by
      rw [← List.length_map (f := Segment.text), map_text_placed, List.length_map]
    have hsegment := (List.append_inj h hlength).2
    rw [placed, List.cons.injEq] at hsegment
    rw [length_spelled, ← hsegment.1, Nat.zero_add]
  · have hscript := intercalate_cutStatements false script
    rw [htexts] at hscript
    rw [← hscript]
    exact spelled_prefix_intercalate before segment.text _

theorem pairwise_placed (offset : Nat) (texts : List (List Char)) :
    (placed offset texts).Pairwise fun a b => a.offset + a.text.length < b.offset := by
  induction texts generalizing offset with
  | nil => exact List.Pairwise.nil
  | cons text texts ih =>
      refine List.pairwise_cons.mpr ⟨fun segment hmem => ?_, ih _⟩
      have hle := offset_le_of_mem_placed hmem
      simp only
      omega

end Segment

/-! ### Statements -/

/-- The segment that a statement was read from. -/
def Statement.segment (statement : Statement) : Segment :=
  ⟨statement.offset, statement.text⟩

/-- Statements are read from the segments that are not blank, all of them and in
    their order. -/
theorem Program.segment_compileSegments {segments : List Segment} {statements : List Statement}
    (h : compileSegments segments = .ok statements) :
    statements.map Statement.segment =
      segments.filter fun segment => !Text.isAllBlank segment.text := by
  induction segments generalizing statements with
  | nil =>
      simp only [compileSegments, Except.ok.injEq] at h
      rw [← h]
      rfl
  | cons x xs ih =>
      rw [compileSegments] at h
      split at h
      · next hblank =>
        rw [List.filter_cons_of_neg (by simp [hblank])]
        exact ih h
      · next hblank =>
        rcases Parse.bind_eq_ok h with ⟨first, hfirst, h⟩
        rcases Parse.bind_eq_ok h with ⟨rest, hrest, h⟩
        cases h
        have hsegment : first.segment = x := by
          unfold Statement.ofSegment at hfirst
          split at hfirst
          · cases hfirst
            rfl
          · simp at hfirst
        rw [List.filter_cons_of_pos (by simpa using hblank), List.map_cons, hsegment, ih hrest]

/-- Cutting a script loses nothing. Its segments with semicolons between them are the
    script, the semicolons that are in no segment are those with an even number of
    quotes in front of them, and offsets say how much stands in front. The statements
    of its program are at their places in the script, one behind the other, and the
    segments that have no statement are blank. -/
theorem segments_make_up_script (script : List Char) :
    [';'].intercalate ((Segment.ofScript script).map Segment.text) = script ∧
    (∀ place < script.length,
      (¬ ∃ segment ∈ Segment.ofScript script, segment.Covers place) ↔
        script[place]? = some ';' ∧ Even ((script.take place).count '"')) ∧
    (∀ before segment after, Segment.ofScript script = before ++ segment :: after →
      segment.offset = (Segment.spelled before).length ∧
        Segment.spelled before ++ segment.text <+: script) ∧
    ∀ program, Program.compile script = .ok program →
      (∀ statement ∈ program.statements, statement.text =
        script.extract statement.offset (statement.offset + statement.text.length)) ∧
      (program.statements.Pairwise fun a b => a.offset + a.text.length < b.offset) ∧
      program.statements.map Statement.segment =
        (Segment.ofScript script).filter (fun segment => !Text.isAllBlank segment.text) ∧
      ∀ segment ∈ Segment.ofScript script,
        (∀ statement ∈ program.statements, statement.segment ≠ segment) →
          ∀ c ∈ segment.text, Text.isBlank c = true := by
  refine ⟨?_, fun place hplace => ?_, fun _ _ _ => Segment.ofScript_split,
    fun program hcompile => ?_⟩
  · rw [Segment.ofScript, Segment.map_text_placed, intercalate_cutStatements]
  · rw [Segment.ofScript, Segment.exists_covers_iff false script place hplace]
    simp
  rw [Program.compile_eq_ok_iff] at hcompile
  have hsegments := Program.segment_compileSegments hcompile
  have hpairwise : (program.statements.map Statement.segment).Pairwise
      fun a b => a.offset + a.text.length < b.offset := by
    rw [hsegments]
    exact (Segment.pairwise_placed 0 _).filter _
  refine ⟨fun statement hmem => ?_, List.pairwise_map.mp hpairwise, hsegments,
    fun segment hmem hskipped => ?_⟩
  · have hsegment := (Program.segment_of_statement hcompile statement hmem).1
    exact (Segment.stands_of_mem_ofScript hsegment).eq_extract
  · -- A segment that is not blank would be among those of the statements.
    have hblank : Text.isAllBlank segment.text = true := by
      by_contra hnot
      have hkept : segment ∈ program.statements.map Statement.segment := by
        rw [hsegments]
        exact List.mem_filter.mpr ⟨hmem, by simpa using hnot⟩
      rcases List.mem_map.mp hkept with ⟨statement, hstatement, heq⟩
      exact hskipped statement hstatement heq
    exact List.all_eq_true.mp hblank

/-- A semicolon inside of quotes, a blank segment, a character that takes more than
    one byte, and a semicolon at the end. -/
theorem segments_of_quoted_semicolon :
    (Segment.ofScript "s = \"é;\"; \u2003;n;".toList).map Segment.offset = [0, 9, 12, 14] ∧
    ∃ program, Program.compile "s = \"é;\"; \u2003;n;".toList = .ok program ∧
      program.statements.map Statement.offset = [0, 12] ∧
      (∀ statement ∈ program.statements, statement.text =
        "s = \"é;\"; \u2003;n;".toList.extract statement.offset
          (statement.offset + statement.text.length)) ∧
      program.statements.Pairwise fun a b => a.offset + a.text.length < b.offset := by
  have hfirst : Scan.ofText "s = \"é;\"".toList =
      ⟨[⟨.name "s", 0, 2, 0⟩, ⟨.operator .assign, 2, 3, 0⟩, ⟨.constant (.text "é;"), 4, 8, 0⟩],
        .complete 8 0⟩ := by
    with_unfolding_all rfl
  have hsecond : Scan.ofText "n".toList =
      ⟨[⟨.name "n", 0, 1, 0⟩], .complete 1 0⟩ := by
    with_unfolding_all rfl
  have hcompile : Program.compile "s = \"é;\"; \u2003;n;".toList = .ok ⟨[⟨0, "s = \"é;\"".toList,
      .binary .assign (.var "s" ⟨0, 0⟩) (.literal (.text "é;") ⟨4, 0⟩) ⟨2, 2⟩⟩,
      ⟨12, "n".toList, .var "n" ⟨0, 0⟩⟩]⟩ := by
    have hcut : Segment.ofScript "s = \"é;\"; \u2003;n;".toList =
        [⟨0, "s = \"é;\"".toList⟩, ⟨9, " \u2003".toList⟩, ⟨12, "n".toList⟩, ⟨14, []⟩] := rfl
    rw [Program.compile_eq_ok_iff, hcut]
    exact Program.compileSegments_of_parse rfl (by rw [Expr.parse, hfirst]; rfl)
      ((Program.compileSegments_of_isAllBlank rfl).trans
        (Program.compileSegments_of_parse rfl (by rw [Expr.parse, hsecond]; rfl) rfl))
  rcases (segments_make_up_script _).2.2.2 _ hcompile with ⟨htexts, hpairwise, _, _⟩
  exact ⟨by decide, _, hcompile, rfl, htexts, hpairwise⟩

end Scriptlet
