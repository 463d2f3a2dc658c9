import Scriptlet.Proofs.Program.Blame

/-!
# Quotes

Two parts of the language decide what is inside quotes. The cut into segments
counts the quotes in front of a semicolon, and the scan looks for the quote that
ends a text. They come to the same answer at every semicolon.

What they have in common is the parity of quotes. The cut leaves a semicolon in
a segment only behind an odd number of quotes, and it leaves an odd number of
quotes in a segment only if that is the last. The scan takes quotes in pairs, so
where it looks for a token an even number of them is behind it. A semicolon that
it would find there cuts, so it finds none. And a text that does not end leaves
the scan with one quote too many.

## Main definitions

* `Sealed`: Texts with semicolons inside of quotes only.
* `Segmented`: What a cut into segments leaves.

## Theorems

* `segmented_cutStatements`: What the cut of a script leaves.
* `no_sequence_of_sealed`: A sealed text has no semicolon among its tokens.
* `not_paired_of_unterminated`: A text that does not end leaves a quote alone.
* `quotes_agree`: Statements are free of semicolons, and only the last of them can have a text
  that does not end.
-/

namespace Scriptlet

/-! ### Cutting -/

/-- Texts that start inside quotes or not, with semicolons inside of quotes only. -/
def Sealed (quoted : Bool) (cs : List Char) : Prop :=
  ∀ front back, cs = front ++ ';' :: back → ¬ Even (quoted.toNat + front.count '"')

/-- What a cut into segments leaves. All of the texts are sealed, and all but the
    last end outside of quotes. -/
inductive Segmented : Bool → List (List Char) → Prop
  | last {quoted : Bool} {text : List Char} (hsealed : Sealed quoted text) : Segmented quoted [text]
  | more {quoted : Bool} {text : List Char} {texts : List (List Char)}
      (hsealed : Sealed quoted text) (heven : Even (quoted.toNat + text.count '"'))
      (hrest : Segmented false texts) : Segmented quoted (text :: texts)

theorem sealed_nil (quoted : Bool) : Sealed quoted [] := by
  intro front back h
  simp at h

theorem Sealed.cons {quoted : Bool} {c : Char} {cs : List Char}
    (hcut : ¬ (c = ';' ∧ quoted = false))
    (h : Sealed (if c = '"' then !quoted else quoted) cs) : Sealed quoted (c :: cs) := by
  intro front back hsplit
  rcases front with _ | ⟨d, front⟩
  · simp only [List.nil_append, List.cons.injEq] at hsplit
    cases quoted with
    | false => exact absurd ⟨hsplit.1, rfl⟩ hcut
    | true => simp
  · simp only [List.cons_append, List.cons.injEq] at hsplit
    rw [← hsplit.1, ← even_turned_iff]
    exact h front back hsplit.2

/-- A character in front that does not cut goes to the first text. -/
theorem Segmented.consFirst {quoted : Bool} {c : Char} {texts : List (List Char)}
    (hcut : ¬ (c = ';' ∧ quoted = false))
    (h : Segmented (if c = '"' then !quoted else quoted) texts) :
    Segmented quoted (consFirst c texts) := by
  generalize hturned : (if c = '"' then !quoted else quoted) = turned at h
  cases h with
  | last hsealed => exact .last (.cons hcut (hturned ▸ hsealed))
  | more hsealed heven hrest =>
      exact .more (.cons hcut (hturned ▸ hsealed))
        ((even_turned_iff _ _ _).mp (hturned ▸ heven)) hrest

theorem segmented_cutStatements (quoted : Bool) (cs : List Char) :
    Segmented quoted (cutStatements quoted cs) := by
  induction cs generalizing quoted with
  | nil => exact .last (sealed_nil quoted)
  | cons c cs ih =>
      rw [cutStatements]
      split
      · next hcut =>
        rcases hcut with ⟨_, rfl⟩
        exact .more (sealed_nil false) (by simp) (ih false)
      · next hcut => exact .consFirst hcut (ih _)

theorem Segmented.sealed_of_mem {texts : List (List Char)} (h : Segmented false texts) :
    ∀ text ∈ texts, Sealed false text := by
  generalize hquoted : false = quoted at h
  induction h with
  | last hsealed =>
      subst hquoted
      simpa using hsealed
  | more hsealed _ _ ih =>
      subst hquoted
      exact List.forall_mem_cons.mpr ⟨hsealed, ih rfl⟩

theorem Segmented.paired_of_mem_dropLast {texts : List (List Char)} (h : Segmented false texts) :
    ∀ text ∈ texts.dropLast, Paired text := by
  generalize hquoted : false = quoted at h
  induction h with
  | last _ => simp
  | more _ heven hrest ih =>
      subst hquoted
      rw [List.dropLast_cons_of_ne_nil (by rintro rfl; cases hrest)]
      exact List.forall_mem_cons.mpr ⟨by simpa [Paired] using heven, ih rfl⟩

/-! ### Scanning -/

theorem Paired.of_append {cs ds : List Char} (h : Paired (cs ++ ds)) (hcs : Paired cs) :
    Paired ds := by
  unfold Paired at *
  rw [List.count_append] at h
  exact (Nat.even_add.mp h).mp hcs

/-- What is behind characters with their quotes in pairs is sealed as well. -/
theorem Sealed.of_append {cs ds : List Char} (h : Sealed false (cs ++ ds)) (hcs : Paired cs) :
    Sealed false ds := by
  intro front back hsplit heven
  refine h (cs ++ front) back (by rw [hsplit, List.append_assoc]) ?_
  have hfront : Paired front := by simpa [Paired] using heven
  simpa [Paired] using hcs.append hfront

namespace Scanner

/-- The only character that can be the operator of a sequence is a semicolon. -/
theorem semicolon_of_lexeme {s : Scanner} {c : Char} {cs : List Char} {more : Nat}
    (h : s.lexeme c cs = .ok (.operator .sequence, more)) : c = ';' := by
  rcases operator_of_lexeme h with hop | ⟨_, hop⟩
  · unfold doubled? at hop
    split at hop <;> simp at hop
  · unfold single? at hop
    split at hop <;> simp_all

/-- A text that does not end begins with a quote and has no other. -/
theorem quote_of_unterminated {s : Scanner} {c : Char} {cs : List Char} {e : Fault}
    (h : s.lexeme c cs = .error e) (hmessage : e.cause.message = "Unterminated string") :
    c = '"' ∧ '"' ∉ cs := by
  rcases lexeme_error_cases h with ⟨_, hquote, hall⟩ | rfl
  · refine ⟨hquote, fun hmem => ?_⟩
    rw [← hall] at hmem
    exact quote_not_mem_takeWhile (by simp) cs hmem
  · have hother : Cause.strayCharacter.message ≠ "Unterminated string" := by decide
    exact absurd hmessage hother

theorem rest_of_skipLayout {s : Scanner} {c : Char} {cs : List Char}
    (h : s.skipLayout.rest = c :: cs) : s.rest = s.rest.takeWhile isLayout ++ c :: cs := by
  rw [← h]
  exact List.takeWhile_append_dropWhile.symm

end Scanner

namespace Scan

open Scanner

theorem no_sequence_run (s : Scanner) (h : Sealed false s.rest) :
    ∀ t ∈ (run s).tokens, t.kind ≠ .operator .sequence := by
  fun_induction run s with
  | case1 => simp
  | case2 => simp
  | case3 s t s' hnext _ _ ih =>
      rcases rest_of_next hnext with ⟨taken, hrest, htaken⟩
      refine List.forall_mem_cons.mpr ⟨fun hkind => ?_, ih (.of_append (hrest ▸ h) htaken)⟩
      rcases next_eq_token hnext with ⟨c, cs, more, hbehind, hlexeme, _⟩
      rw [hkind] at hlexeme
      rcases semicolon_of_lexeme hlexeme with rfl
      exact h _ _ (rest_of_skipLayout hbehind) (by simpa [Paired] using paired_layout s)

/-- A sealed text has no semicolon among its tokens. -/
theorem no_sequence_of_sealed {text : List Char} (h : Sealed false text) :
    ∀ t ∈ (ofText text).tokens, t.kind ≠ .operator .sequence := by
  rw [ofText_eq_run]
  exact no_sequence_run (.start text) h

theorem not_paired_run (s : Scanner) {error : Fault} {depth : Nat}
    (h : (run s).ending = .broken error depth)
    (hmessage : error.cause.message = "Unterminated string") : ¬ Paired s.rest := by
  fun_induction run s with
  | case1 => simp at h
  | case2 s e depth' hnext =>
      simp only [Ending.broken.injEq] at h
      rcases h with ⟨rfl, _⟩
      rcases next_eq_fault hnext with ⟨c, cs, hbehind, hlexeme⟩
      rcases quote_of_unterminated hlexeme hmessage with ⟨rfl, hnone⟩
      rw [rest_of_skipLayout hbehind]
      intro hpaired
      have hquote := hpaired.of_append (paired_layout s)
      simp [Paired, List.count_eq_zero.mpr hnone] at hquote
  | case3 s t s' hnext _ _ ih =>
      rcases rest_of_next hnext with ⟨taken, hrest, htaken⟩
      rw [hrest]
      exact fun hpaired => ih h (hpaired.of_append htaken)

/-- A text that does not end leaves a quote alone. -/
theorem not_paired_of_unterminated {text : List Char} {error : Fault} {depth : Nat}
    (h : (ofText text).ending = .broken error depth)
    (hmessage : error.cause.message = "Unterminated string") : ¬ Paired text :=
  not_paired_run (.start text) (ofText_eq_run text ▸ h) hmessage

end Scan

/-! ### Scripts -/

namespace Segment

theorem sealed_of_mem_ofScript {script : List Char} {segment : Segment}
    (h : segment ∈ ofScript script) : Sealed false segment.text := by
  refine (segmented_cutStatements false script).sealed_of_mem _ ?_
  rw [← map_text_placed 0 (cutStatements false script)]
  exact List.mem_map_of_mem h

theorem paired_of_mem_dropLast {script : List Char} {segment : Segment}
    (h : segment ∈ (ofScript script).dropLast) : Paired segment.text := by
  refine (segmented_cutStatements false script).paired_of_mem_dropLast _ ?_
  rw [← map_text_placed 0 (cutStatements false script), ← List.map_dropLast]
  exact List.mem_map_of_mem h

end Segment

/-- What tokens have for not being read is never put in the words for a text that
    does not end. -/
theorem Parse.message_ne_of_grammatical {cause : Cause} (h : Grammatical cause = true) :
    cause.message ≠ "Unterminated string" := by
  cases cause with
  | closerMissing bracket => cases bracket <;> decide
  | expressionMissing | operandMissing | strayToken | nestedTooDeeply => decide
  | _ => cases h

theorem Parse.not_paired_of_error {text : List Char} {e : Fault} (h : Expr.parse text = .error e)
    (hmessage : e.cause.message = "Unterminated string") : ¬ Paired text := by
  rcases founded_of_parse h with ⟨depth, hending⟩ | ⟨_, hcause, _⟩
  · exact Scan.not_paired_of_unterminated hending hmessage
  · exact absurd hmessage (message_ne_of_grammatical hcause)

/-- The cut and the scan agree on what is inside quotes. No statement of a script
    that compiles has a semicolon among its operators. And a text that does not end
    is found in the last segment only, whether a segment is compiled, read or
    scanned. -/
theorem quotes_agree (script : List Char) :
    (∀ program, Program.compile script = .ok program →
      ∀ statement ∈ program.statements, ∀ n ∈ statement.expr.nodes,
        n.operator? ≠ some .sequence) ∧
    (∀ e, Program.compile script = .error e → e.error.issue.message = "Unterminated string" →
      (Segment.ofScript script).getLast? = some e.segment) ∧
    ∀ segment ∈ (Segment.ofScript script).dropLast, ∀ e,
      Expr.parse segment.text = .error e ∨ tokenize segment.text = .error e →
        e.issue.message ≠ "Unterminated string" := by
  refine ⟨fun program h statement hmem n hn hop => ?_, fun e h hmessage => ?_,
    fun segment hmem e h hmessage => ?_⟩
  · rw [Program.compile_eq_ok_iff] at h
    rcases Program.segment_of_statement h statement hmem with ⟨hsegment, hparse⟩
    rcases Parse.token_of_node hparse n hn with ⟨t, ht, _, hkind⟩
    rcases hkind _ hop with hindex | hkind
    · cases hindex
    · exact Scan.no_sequence_of_sealed (Segment.sealed_of_mem_ofScript hsegment) t ht hkind
  · rw [Program.compile_eq_error_iff] at h
    rcases Program.exists_segment_of_error h with ⟨before, after, hsplit, _, _, hparse⟩
    have hopen := Parse.not_paired_of_error hparse hmessage
    rcases after with _ | ⟨x, after⟩
    · rw [hsplit, List.getLast?_concat]
    · -- With a segment behind it, its quotes come in pairs.
      have hmem : e.segment ∈ (Segment.ofScript script).dropLast := by
        rw [hsplit, List.dropLast_append_of_ne_nil (by simp)]
        simp
      exact absurd (Segment.paired_of_mem_dropLast hmem) hopen
  · have hpaired := Segment.paired_of_mem_dropLast hmem
    rcases h with h | h
    · exact Parse.not_paired_of_error h hmessage hpaired
    · rcases tokenize_eq_error_iff.mp h with ⟨depth, hending⟩
      exact Scan.not_paired_of_unterminated hending hmessage hpaired

/-- The semicolon inside of quotes does not cut, and the text behind it is found
    to have no end. Where it is read and not cut, a semicolon is an operator. -/
theorem quotes_agree_of_open_text :
    (∃ e, Expr.parse "a;b".toList = .ok e ∧ e.operator? = some .sequence) ∧
    (∃ program, Program.compile "a;b = \"x;y\"".toList = .ok program ∧
      program.statements.map Statement.offset = [0, 2] ∧
      ∀ statement ∈ program.statements, ∀ n ∈ statement.expr.nodes,
        n.operator? ≠ some .sequence) ∧
    ∃ e, Program.compile "a = \"x;y\"; b = \"z;".toList = .error e ∧
      e.error.issue.message = "Unterminated string" ∧
      (Segment.ofScript "a = \"x;y\"; b = \"z;".toList).getLast? = some e.segment := by
  have hjoined : Scan.ofText "a;b".toList =
      ⟨[⟨.name "a", 0, 1, 0⟩, ⟨.operator .sequence, 1, 2, 0⟩, ⟨.name "b", 2, 3, 0⟩],
        .complete 3 0⟩ := by
    with_unfolding_all rfl
  have hfirst : Scan.ofText "a".toList =
      ⟨[⟨.name "a", 0, 1, 0⟩], .complete 1 0⟩ := by
    with_unfolding_all rfl
  have hsecond : Scan.ofText "b = \"x;y\"".toList =
      ⟨[⟨.name "b", 0, 2, 0⟩, ⟨.operator .assign, 2, 3, 0⟩, ⟨.constant (.text "x;y"), 4, 9, 0⟩],
        .complete 9 0⟩ := by
    with_unfolding_all rfl
  have hclosed : Scan.ofText "a = \"x;y\"".toList =
      ⟨[⟨.name "a", 0, 2, 0⟩, ⟨.operator .assign, 2, 3, 0⟩, ⟨.constant (.text "x;y"), 4, 9, 0⟩],
        .complete 9 0⟩ := by
    with_unfolding_all rfl
  have hopen : Scan.ofText " b = \"z;".toList =
      ⟨[⟨.name "b", 1, 3, 0⟩, ⟨.operator .assign, 3, 4, 0⟩],
        .broken ⟨.lexical, .unterminatedText, 5⟩ 0⟩ := by
    with_unfolding_all rfl
  have hread : Expr.parse "a;b".toList =
      .ok (.binary .sequence (.var "a" ⟨0, 0⟩) (.var "b" ⟨2, 0⟩) ⟨1, 1⟩) := by
    rw [Expr.parse, hjoined]
    rfl
  have hright : Program.compile "a;b = \"x;y\"".toList = .ok ⟨[⟨0, "a".toList, .var "a" ⟨0, 0⟩⟩,
      ⟨2, "b = \"x;y\"".toList,
        .binary .assign (.var "b" ⟨0, 0⟩) (.literal (.text "x;y") ⟨4, 0⟩) ⟨2, 2⟩⟩]⟩ := by
    have hcut : Segment.ofScript "a;b = \"x;y\"".toList =
        [⟨0, "a".toList⟩, ⟨2, "b = \"x;y\"".toList⟩] := rfl
    rw [Program.compile_eq_ok_iff, hcut]
    exact Program.compileSegments_of_parse rfl (by rw [Expr.parse, hfirst]; rfl)
      (Program.compileSegments_of_parse rfl (by rw [Expr.parse, hsecond]; rfl) rfl)
  have hwrong : Program.compile "a = \"x;y\"; b = \"z;".toList =
      .error ⟨⟨10, " b = \"z;".toList⟩, ⟨.lexical, .unterminatedText, 5⟩⟩ := by
    have hcut : Segment.ofScript "a = \"x;y\"; b = \"z;".toList =
        [⟨0, "a = \"x;y\"".toList⟩, ⟨10, " b = \"z;".toList⟩] := rfl
    rw [Program.compile_eq_error_iff, hcut]
    exact Program.compileSegments_of_parse rfl (by rw [Expr.parse, hclosed]; rfl)
      (Program.compileSegments_of_error rfl (by rw [Expr.parse, hopen]; rfl))
  refine ⟨⟨_, hread, rfl⟩,
    ⟨_, hright, rfl, (quotes_agree _).1 _ hright⟩,
    ⟨_, hwrong, rfl, (quotes_agree _).2.1 _ hwrong rfl⟩⟩

end Scriptlet
