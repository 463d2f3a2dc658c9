import Scriptlet.Proofs.Source.RoundTrip

/-!
# Source Text Near the Limit

Which source texts can be read. That of a statement always has the grammar of a
statement, but it has brackets where the statement had none, and they take
levels. So there are statements whose source text is refused, and `footprint`
tells which.

The only numbers without a numeral are infinite. They are written as a word, and
what is read back is a variable of that name. `reworded` puts the variable into
the tree, which changes neither the source text nor what it takes to read it.

## Main definitions

* `Expr.reworded`: A tree with variables in place of the numbers without a numeral.

## Theorems

* `reworded_of_printed`: The source text of a tree is also that of the reworded one.
* `footprint_reworded`: It takes as much to read it.
* `parse_source_iff_levels`: Which source texts of statements can be read.
-/

namespace Scriptlet

open Parse

namespace Expr

mutual

/-- A tree with a variable in place of every number that has no numeral, named by
    the word that the number is written as. -/
def reworded : Expr → Expr
  | literal (.number x) m =>
    if x.isFinite then literal (.number x) m else var (Number.toText x) m
  | literal (.text s) m => literal (.text s) m
  | literal (.truth b) m => literal (.truth b) m
  | var name m => var name m
  | unary op operand m => unary op operand.reworded m
  | binary op left right m => binary op left.reworded right.reworded m
  | array elements m => array (rewordedAll elements) m
  | call name args m => call name (rewordedAll args) m

/-- Reworded trees. -/
def rewordedAll : List Expr → List Expr
  | [] => []
  | e :: es => e.reworded :: rewordedAll es

end

theorem isUnary_reworded (e : Expr) : e.reworded.isUnary = e.isUnary := by
  cases e with
  | literal value m =>
      cases value with
      | number x =>
          rw [reworded]
          split <;> rfl
      | text _ | truth _ => rfl
  | _ => rfl

theorem footprint_reworded_literal (value : Literal) (m : Mark) :
    (literal value m).reworded.footprint = ⟨0, 0⟩ := by
  cases value with
  | number x =>
      rw [reworded]
      split <;> rfl
  | text _ | truth _ => rfl

mutual

/-- A variable is read like a number. -/
theorem footprint_reworded (e : Expr) : e.reworded.footprint = e.footprint := by
  cases e with
  | literal value m => exact footprint_reworded_literal value m
  | var _ _ => rfl
  | unary op operand m =>
      have ih := footprint_reworded operand
      cases op <;>
        simp only [reworded, footprint, ih, Footprint.attached, isUnary_reworded operand]
  | binary op left right m =>
      simp only [reworded, footprint, footprint_reworded left, footprint_reworded right,
        Footprint.attached, isUnary_reworded left]
  | array elements m => simp only [reworded, footprint, listLevels_reworded elements]
  | call name args m => simp only [reworded, footprint, listLevels_reworded args]

theorem listLevels_reworded (es : List Expr) : listLevels (rewordedAll es) = listLevels es := by
  cases es with
  | nil => rfl
  | cons e es =>
      simp only [rewordedAll, listLevels, footprint_reworded e, listLevels_reworded es]

end

mutual

/-- All numbers of a reworded tree have numerals. -/
theorem isFinite_of_mem_reworded (e : Expr) :
    ∀ x m, literal (.number x) m ∈ e.reworded.nodes → x.isFinite = true := by
  intro x m hx
  cases e with
  | literal value k =>
      cases value with
      | number y =>
          rw [reworded] at hx
          split at hx
          · next hy =>
            simp only [nodes, List.mem_singleton, literal.injEq, Literal.number.injEq] at hx
            rw [hx.1]
            exact hy
          · simp [nodes] at hx
      | text _ | truth _ => simp [reworded, nodes] at hx
  | var _ _ => simp [reworded, nodes] at hx
  | unary op operand k =>
      simp only [reworded, nodes, List.mem_cons, reduceCtorEq, false_or] at hx
      exact isFinite_of_mem_reworded operand x m hx
  | binary op left right k =>
      simp only [reworded, nodes, List.mem_cons, reduceCtorEq, false_or, List.mem_append] at hx
      rcases hx with hx | hx
      · exact isFinite_of_mem_reworded left x m hx
      · exact isFinite_of_mem_reworded right x m hx
  | array elements k =>
      simp only [reworded, nodes, List.mem_cons, reduceCtorEq, false_or] at hx
      exact isFinite_of_mem_rewordedAll elements x m hx
  | call name args k =>
      simp only [reworded, nodes, List.mem_cons, reduceCtorEq, false_or] at hx
      exact isFinite_of_mem_rewordedAll args x m hx

theorem isFinite_of_mem_rewordedAll (es : List Expr) :
    ∀ x m, literal (.number x) m ∈ nodesOf (rewordedAll es) → x.isFinite = true := by
  intro x m hx
  cases es with
  | nil => simp [rewordedAll, nodesOf] at hx
  | cons e es =>
      simp only [rewordedAll, nodesOf, List.mem_append] at hx
      rcases hx with hx | hx
      · exact isFinite_of_mem_reworded e x m hx
      · exact isFinite_of_mem_rewordedAll es x m hx

end

end Expr

/-- A form of the reworded tree or trees. -/
def Form.reworded : Form → Form
  | whole e => whole e.reworded
  | inner e => inner e.reworded
  | list es => list (Expr.rewordedAll es)

/-- The word for a number from a script that has no numeral. -/
theorem spelled_word {x : Float} (hspelled : (TokenKind.constant (.number x)).Spelled)
    (hfinite : x.isFinite = false) :
    (TokenKind.name (Number.toText x)).Spelled ∧
      Expr.literalSource (.number x) = Number.toText x := by
  have hplus : Number.isPlus x.toModel.unpack = true := by
    rcases hspelled with ⟨whole, fraction, rfl⟩
    exact Number.isPlus_numeralValue whole fraction
  refine ⟨?_, if_neg (Number.not_lt_zero_of_isPlus hplus)⟩
  have hunpacked : x.toModel.unpack.isFinite = false := hfinite
  rcases Number.isPlus_cases hplus with hx | hx | hx | ⟨m, e, hm, hx⟩
  · have htext : Number.toText x = "NaN" := by simp only [Number.toText, Number.parts, hx]
    rw [htext]
    exact ⟨by decide, by decide⟩
  · have htext : Number.toText x = "Infinity" := by
      simp only [Number.toText, Number.parts, hx, Number.isMinus]
      rfl
    rw [htext]
    exact ⟨by decide, by decide⟩
  -- What is left is finite.
  · rw [hx] at hunpacked
    cases hunpacked
  · rw [hx] at hunpacked
    cases hunpacked

/-- The source text of a tree is also that of the reworded one. -/
theorem reworded_of_printed {form : Form} {ks : List TokenKind} (h : Printed form ks) :
    Printable form.reworded ∧ form.reworded.text = form.text := by
  induction h with
  | @literal value m spelled =>
      cases value with
      | number x =>
          cases hfinite : x.isFinite with
          | true =>
              rw [Form.reworded, Expr.reworded, if_pos hfinite]
              exact ⟨⟨_, .literal spelled⟩, rfl⟩
          | false =>
              rcases spelled_word spelled hfinite with ⟨hname, hsource⟩
              rw [Form.reworded, Expr.reworded, if_neg (by simp [hfinite])]
              refine ⟨⟨_, .var hname⟩, ?_⟩
              rw [Form.text, Form.text, Expr.source, Expr.source, hsource]
      | text _ | truth _ => exact ⟨⟨_, .literal spelled⟩, rfl⟩
  | var spelled => exact ⟨⟨_, .var spelled⟩, rfl⟩
  | not _ ih =>
      rcases ih with ⟨⟨_, hoperand⟩, htext⟩
      refine ⟨⟨_, .not hoperand⟩, ?_⟩
      rw [Form.text_not, ← htext]
      exact Form.text_not
  | suffix shape _ ih =>
      rcases ih with ⟨⟨_, hoperand⟩, htext⟩
      refine ⟨⟨_, .suffix shape hoperand⟩, ?_⟩
      rw [Form.text_suffix shape, ← htext]
      exact Form.text_suffix shape
  | member _ isName ih =>
      rcases ih with ⟨⟨_, hleft⟩, htext⟩
      refine ⟨⟨_, .member hleft isName⟩, ?_⟩
      rw [Form.text_member isName, ← htext]
      exact Form.text_member isName
  | method _ isName _ ih ihlist =>
      rcases ih with ⟨⟨_, hleft⟩, htext⟩
      rcases ihlist with ⟨⟨_, hlist⟩, hargs⟩
      refine ⟨⟨_, .method hleft isName hlist⟩, ?_⟩
      rw [Form.text_method, ← htext, ← hargs]
      exact Form.text_method
  | index _ _ ih ihright =>
      rcases ih with ⟨⟨_, hleft⟩, htext⟩
      rcases ihright with ⟨⟨_, hright⟩, hindex⟩
      refine ⟨⟨_, .index hleft hright⟩, ?_⟩
      rw [Form.text_index, ← htext, ← hindex]
      exact Form.text_index
  | binary shape between _ _ ih ihright =>
      rcases ih with ⟨⟨_, hleft⟩, htext⟩
      rcases ihright with ⟨⟨_, hright⟩, hsecond⟩
      refine ⟨⟨_, .binary shape between hleft hright⟩, ?_⟩
      rw [Form.text_binary between, ← htext, ← hsecond]
      exact Form.text_binary between
  | array _ ih =>
      rcases ih with ⟨⟨_, hlist⟩, htext⟩
      refine ⟨⟨_, .array hlist⟩, ?_⟩
      rw [Form.text_array, ← htext]
      exact Form.text_array
  | call isName _ ih =>
      rcases ih with ⟨⟨_, hlist⟩, htext⟩
      refine ⟨⟨_, .call isName hlist⟩, ?_⟩
      rw [Form.text_call, ← htext]
      exact Form.text_call
  | @bare e _ shape _ ih =>
      rcases ih with ⟨hwhole, htext⟩
      refine ⟨hwhole.inner, ?_⟩
      rw [Form.text_bare shape, ← htext]
      exact Form.text_bare ((Expr.isUnary_reworded e).trans shape)
  | @grouped e _ shape _ ih =>
      rcases ih with ⟨hwhole, htext⟩
      refine ⟨hwhole.inner, ?_⟩
      rw [Form.text_grouped shape, ← htext]
      exact Form.text_grouped ((Expr.isUnary_reworded e).trans shape)
  | none => exact ⟨⟨_, .none⟩, rfl⟩
  | last _ ih =>
      rcases ih with ⟨⟨_, hwhole⟩, htext⟩
      refine ⟨⟨_, .last hwhole⟩, ?_⟩
      rw [Form.text_last, ← htext]
      exact Form.text_last
  | comma _ _ ih ihlist =>
      rcases ih with ⟨⟨_, hwhole⟩, htext⟩
      rcases ihlist with ⟨⟨_, hlist⟩, hmore⟩
      refine ⟨⟨_, .comma hwhole hlist⟩, ?_⟩
      rw [Form.text_comma, ← htext, ← hmore]
      exact Form.text_comma

/-- The source text of a statement can be read, to a tree with the same source
    text, if there are levels for its brackets. Otherwise it is refused because
    there are not. -/
theorem parse_source_iff_levels {text : List Char} {e : Expr} (h : Expr.parse text = .ok e) :
    e.footprint.levels < maxNesting ∧
        (∃ e', Expr.parse e.source.toList = .ok e' ∧ e'.source = e.source) ∨
      maxNesting ≤ e.footprint.levels ∧
        ∃ position,
          Expr.parse e.source.toList = .error ⟨.grammatical, .nestedTooDeeply, position⟩ := by
  rcases printed_of_parse h with ⟨ks, hprinted⟩
  rcases reworded_of_printed hprinted with ⟨hprintable, htext⟩
  have hsource : e.reworded.source = e.source := String.toList_inj.mp htext
  have hcases := parse_source_cases hprintable (Expr.isFinite_of_mem_reworded e)
  rw [hsource, Expr.footprint_reworded] at hcases
  rcases hcases with ⟨hlevels, e', hok, he⟩ | hrefused
  · refine .inl ⟨hlevels, e', hok, ?_⟩
    rw [← Expr.source_unmarked, he, Expr.source_unmarked, hsource]
  · exact .inr hrefused

/-- A sum of as many ones as given, and one more. -/
def sumOfOnes (n : Nat) : List Char :=
  '1' :: (List.replicate n ['+', '1']).flatten

/-- A sum of 255 ones is a statement, and its source text is not. -/
theorem parse_source_of_long_sum :
    ∃ e, Expr.parse (sumOfOnes 254) = .ok e ∧
      ∃ position,
        Expr.parse e.source.toList = .error ⟨.grammatical, .nestedTooDeeply, position⟩ := by
  have hread : (Expr.parse (sumOfOnes 254)).toOption.map (·.footprint.levels) = some 256 := by
    decide +kernel
  cases hparse : Expr.parse (sumOfOnes 254) with
  | error _ => simp [hparse, Except.toOption] at hread
  | ok e =>
      have hlevels : e.footprint.levels = 256 := by
        simpa [hparse, Except.toOption] using hread
      rcases parse_source_iff_levels hparse with ⟨hlt, _⟩ | ⟨_, hrefused⟩
      · rw [hlevels] at hlt
        exact absurd hlt (Nat.lt_irrefl _)
      · exact ⟨e, rfl, hrefused⟩

end Scriptlet
