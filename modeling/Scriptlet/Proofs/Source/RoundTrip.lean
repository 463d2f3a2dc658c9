import Scriptlet.Proofs.Eval.Related
import Scriptlet.Proofs.Source.Reread
import Scriptlet.Proofs.Source.Scan

/-!
# The Round Trip

Source text is read back as the tree that it was printed from. The two halves
come from `Scan`, where the text becomes the tokens it is made of, and from
`Reread`, where those become the tree. What is left is the limit on nesting:
brackets that the first text could do without may use it up, and then that is
the one error that is reported.

The tree that comes back differs in its marks, so it is the same program: it has
the same effect on every machine and the same outcome, but for the place that an
error points to.

## Theorems

* `related_of_unmarked_eq`: Trees that differ in their marks are evaluated alike.
* `parse_source`: Source text is read back as the tree that it was printed from.
-/

namespace Scriptlet

open Parse

/-- Trees that differ in their marks are evaluated alike. -/
theorem related_of_unmarked_eq {e e' : Expr} (h : e'.unmarked = e.unmarked) (σ : Type) [Host σ]
    (budget : Nat) :
    Eval.Related SameCause (evaluate budget e : Eval σ Value) (evaluate budget e') :=
  eval_of_unmarked_eq h budget maxNesting

/-- The source text of a printed tree is read back as that tree, if there are
    levels for its brackets. -/
theorem parse_source_cases {e : Expr} (h : Printable (.whole e))
    (hlegible : (Form.whole e).Legible) :
    e.footprint.levels < maxNesting ∧
        (∃ e', Expr.parse e.source.toList = .ok e' ∧ e'.unmarked = e.unmarked) ∨
      maxNesting ≤ e.footprint.levels ∧
        ∃ position,
          Expr.parse e.source.toList = .error ⟨.grammatical, .nestedTooDeeply, position⟩ := by
  rcases h with ⟨ks, h⟩
  rcases ofText_source h hlegible with ⟨ts, stop, depth, hts, hscan⟩
  have hs : Scanned [] ts := by
    have hscanned := Scan.scanned_ofText e.source.toList
    rwa [hscan] at hscanned
  -- The tokens have one reading, so the reader finds it or runs out of levels.
  rcases readsAs_of_printed h hts hs with ⟨e', he, hread⟩
  have hending : (Scan.ofText e.source.toList).ending = .complete stop depth := by rw [hscan]
  rcases parse_of_readsAs hending (by rw [hscan]; exact hread) with
    ⟨hlevels, hok⟩ | ⟨hlevels, herror⟩
  · exact .inl ⟨hlevels, e', hok, he⟩
  · exact .inr ⟨Nat.le_of_lt_succ hlevels, herror⟩

/-- The source text of a printed tree is read back as that tree, unless brackets
    use up the levels. -/
theorem parse_source_of_printable {e : Expr} (h : Printable (.whole e))
    (hlegible : (Form.whole e).Legible) :
    (∃ position, Expr.parse e.source.toList = .error ⟨.grammatical, .nestedTooDeeply, position⟩) ∨
      ∃ e', Expr.parse e.source.toList = .ok e' ∧ e'.unmarked = e.unmarked := by
  rcases parse_source_cases h hlegible with ⟨_, hok⟩ | ⟨_, herror⟩
  · exact .inr hok
  · exact .inl herror

/-- The source text of a statement is read back as the tree of the statement,
    unless the brackets in it use up the levels. The two trees do the same. -/
theorem parse_source {text : List Char} {e : Expr} (h : Expr.parse text = .ok e)
    (hfinite : ∀ x m, .literal (.number x) m ∈ e.nodes → x.isFinite = true) :
    (∃ position, Expr.parse e.source.toList = .error ⟨.grammatical, .nestedTooDeeply, position⟩) ∨
      ∃ e', Expr.parse e.source.toList = .ok e' ∧ e'.unmarked = e.unmarked ∧
        ∀ (σ : Type) [Host σ] (budget : Nat),
          Eval.Related SameCause (evaluate budget e : Eval σ Value) (evaluate budget e') := by
  rcases parse_source_of_printable (printed_of_parse h) hfinite with herror | ⟨e', hok, he⟩
  · exact .inl herror
  · exact .inr ⟨e', hok, he, related_of_unmarked_eq he⟩

/-- A sign, members and a negated index, whose source text is read back. -/
theorem parse_source_of_negated_member :
    ∃ e e', Expr.parse "-a.b[!c]".toList = .ok e ∧ e.source = "(0 - a.b[!c])" ∧
      Expr.parse "(0 - a.b[!c])".toList = .ok e' ∧ e'.unmarked = e.unmarked ∧
        ∀ (σ : Type) [Host σ] (budget : Nat),
          Eval.Related SameCause (evaluate budget e : Eval σ Value) (evaluate budget e') := by
  have hscan : Scan.ofText "-a.b[!c]".toList =
      ⟨[⟨.operator .subtract, 0, 1, 0⟩, ⟨.name "a", 1, 2, 0⟩, ⟨.operator .dot, 2, 3, 0⟩,
        ⟨.constant (.text "b"), 3, 4, 0⟩, ⟨.opening .square, 4, 5, 0⟩, ⟨.operator .not, 5, 6, 1⟩,
        ⟨.name "c", 6, 7, 1⟩, ⟨.closing .square, 7, 8, 1⟩], .complete 8 0⟩ := by
    with_unfolding_all rfl
  have hfinite : (0.0 : Float).isFinite = true := by decide +kernel
  have hparse : ∃ e, Expr.parse "-a.b[!c]".toList = .ok e ∧ e.source = "(0 - a.b[!c])" ∧
      ∀ x m, .literal (.number x) m ∈ e.nodes → x.isFinite = true := by
    refine ⟨.binary .subtract (.literal (.number 0.0) ⟨0, 0⟩)
      (.binary .index (.binary .dot (.var "a" ⟨1, 0⟩) (.literal (.text "b") ⟨3, 0⟩) ⟨2, 10⟩)
        (.unary .not (.var "c" ⟨6, 10⟩) ⟨5, 18⟩) ⟨4, 10⟩) ⟨0, 6⟩, ?_, by decide +kernel, ?_⟩
    · rw [Expr.parse, hscan]
      rfl
    · simp [Expr.nodes, hfinite]
  rcases hparse with ⟨e, hparse, hsource, hnumbers⟩
  have hread : (Expr.parse "(0 - a.b[!c])".toList).isOk = true := by decide +kernel
  have hback := parse_source hparse hnumbers
  rw [hsource] at hback
  rcases hback with ⟨position, herror⟩ | ⟨e', hback⟩
  -- This text is far from the limit on nesting.
  · rw [herror] at hread
    cases hread
  · exact ⟨e, e', hparse, hsource, hback⟩

end Scriptlet
