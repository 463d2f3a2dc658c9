import Mathlib.Algebra.Group.Even
import Mathlib.Algebra.Ring.Parity
import Scriptlet.Proofs.Token.Lexer

/-!
# The Extent of Tokens

Where tokens stand and which characters they take. Scanning goes forward only,
so tokens stand one behind the other, and no two of them at the same place.

Of the characters, one matters beyond scanning. Scripts are cut at semicolons
that an even number of quotes stands before, without a look at tokens, and the
cut is right only if scanning agrees on what is inside quotes. It does as far as
it gets to the end of the text: the only token with quotes in it is a text, and
that has two. So the quotes of a statement come in pairs.

No token goes beyond the end of the text. This is what puts the places that
errors blame inside of a text.

## Main definitions

* `Ordered`: Tokens that stand one behind the other.
* `Paired`: Texts whose quotes come in pairs.
* `Scanner.finish`: The end of the text, which scanning does not move.
* `Ending.place`: Where a scan ended.

## Theorems

* `ordered_ofText`: The tokens of a text stand one behind the other.
* `take_numeral`, `take_text`: The characters of a number and of a text.
* `paired_of_lexeme`: The quotes of a token come in pairs.
* `rest_of_next`: What a step of scanning takes off the text.
* `paired_of_complete`: The quotes of a text that is scanned to its end come in pairs.
* `length_le_of_lexeme`, `finish_of_next`: A token ends inside of the text.
* `position_lt_of_mem`, `stop_le_of_mem`, `place_le`: So do all tokens, and the scan.
-/

namespace Scriptlet

/-! ### Places -/

/-- Tokens that stand one behind the other. -/
def Ordered (tokens : List Token) : Prop :=
  tokens.Pairwise fun t u => t.position < u.position

namespace Scanner

/-- A token stands behind what was scanned before it, and scanning goes on
    behind the place of the token. -/
theorem position_of_next {s s' : Scanner} {t : Token} (h : s.next = .token t s') :
    s.position ≤ t.position ∧ t.position < s'.position := by
  simp only [next, nextHere] at h
  split at h
  · simp at h
  · split at h
    · simp at h
    · simp only [Step.token.injEq] at h
      rcases h with ⟨rfl, rfl⟩
      simp only [skipLayout, advance]
      omega

end Scanner

namespace Scan

open Scanner

theorem position_of_mem_run (s : Scanner) : ∀ t ∈ (run s).tokens, s.position ≤ t.position := by
  fun_induction run s with
  | case1 => simp
  | case2 => simp
  | case3 s t s' hnext _ _ ih =>
      have hplace := position_of_next hnext
      intro u hu
      rcases List.mem_cons.mp hu with rfl | hu
      · exact hplace.1
      · have hbehind := ih u hu
        omega

theorem ordered_run (s : Scanner) : Ordered (run s).tokens := by
  fun_induction run s with
  | case1 => exact List.Pairwise.nil
  | case2 => exact List.Pairwise.nil
  | case3 s t s' hnext _ _ ih =>
      have hplace := position_of_next hnext
      refine List.pairwise_cons.mpr ⟨fun u hu => ?_, ih⟩
      have hbehind := position_of_mem_run s' u hu
      omega

theorem ordered_ofText (text : List Char) : Ordered (ofText text).tokens :=
  ofText_eq_run text ▸ ordered_run (.start text)

end Scan

/-! ### Quotes -/

/-- Texts whose quotes come in pairs. -/
def Paired (cs : List Char) : Prop :=
  Even (cs.count '"')

theorem Paired.append {cs ds : List Char} (hcs : Paired cs) (hds : Paired ds) :
    Paired (cs ++ ds) := by
  unfold Paired at *
  rw [List.count_append]
  exact hcs.add hds

theorem paired_of_not_mem {cs : List Char} (h : '"' ∉ cs) : Paired cs := by
  unfold Paired
  rw [List.count_eq_zero.mpr h]
  exact Even.zero

namespace Scanner

theorem take_takeWhile (p : Char → Bool) (cs : List Char) :
    cs.take (cs.takeWhile p).length = cs.takeWhile p :=
  (List.prefix_iff_eq_take.mp (List.takeWhile_prefix p)).symm

theorem quote_not_mem_takeWhile {p : Char → Bool} (hp : p '"' = false) (cs : List Char) :
    '"' ∉ cs.takeWhile p := by
  intro hmem
  rw [List.all_eq_true.mp List.all_takeWhile _ hmem] at hp
  exact absurd hp (by simp)

/-- A number is its digits, with a point between them if there are any behind
    it. -/
theorem take_numeral {afterOperand : Bool} {cs whole fraction : List Char}
    (h : numeral afterOperand cs = (whole, fraction)) :
    whole = cs.takeWhile Char.isDigit ∧ fraction.all Char.isDigit = true ∧
      cs.take (numeralLength whole fraction) =
        whole ++ (if fraction = [] then [] else '.' :: fraction) := by
  have hwhole := take_takeWhile Char.isDigit cs
  unfold numeral at h
  simp only at h
  split at h
  · next d more hbehind =>
    split at h
    · next hpoint =>
      simp only [Prod.mk.injEq] at h
      rcases h with ⟨rfl, rfl⟩
      simp only [Bool.and_eq_true] at hpoint
      refine ⟨rfl, by simp [hpoint.2, List.all_takeWhile], ?_⟩
      have hsplit : cs = cs.takeWhile Char.isDigit ++ '.' :: d :: more := by
        rw [← hbehind, List.takeWhile_append_dropWhile]
      unfold numeralLength
      rw [if_neg (by simp), if_neg (by simp)]
      nth_rewrite 2 [hsplit]
      rw [List.take_length_add_append]
      simp [take_takeWhile]
    · simp only [Prod.mk.injEq] at h
      rcases h with ⟨rfl, rfl⟩
      exact ⟨rfl, rfl, by simpa [numeralLength] using hwhole⟩
  · simp only [Prod.mk.injEq] at h
    rcases h with ⟨rfl, rfl⟩
    exact ⟨rfl, rfl, by simpa [numeralLength] using hwhole⟩

theorem quote_not_mem_numeral {afterOperand : Bool} {c : Char} {cs whole fraction : List Char}
    (hnumber : beginsNumber afterOperand c cs = true)
    (h : numeral afterOperand (c :: cs) = (whole, fraction)) :
    '"' ∉ c :: cs.take (numeralLength whole fraction - 1) := by
  rcases take_numeral h with ⟨hwhole, hfraction, htake⟩
  intro hmem
  rcases List.mem_cons.mp hmem with rfl | hmem
  · simp [beginsNumber] at hnumber
  · -- Behind the first character everything is a digit or the point.
    have hchars : '"' ∈ (c :: cs).take (numeralLength whole fraction) := by
      cases hlength : numeralLength whole fraction with
      | zero => simp [hlength] at hmem
      | succ n =>
          rw [hlength, Nat.add_sub_cancel] at hmem
          exact List.mem_cons_of_mem _ hmem
    rw [htake, hwhole] at hchars
    rcases List.mem_append.mp hchars with hdigit | hdigit
    · exact quote_not_mem_takeWhile (by decide) _ hdigit
    · split at hdigit
      · simp at hdigit
      · rcases List.mem_cons.mp hdigit with hpoint | hdigit
        · exact absurd hpoint (by decide)
        · exact absurd (List.all_eq_true.mp hfraction _ hdigit) (by decide)

/-- A text ends with the first quote behind its beginning. -/
theorem take_text {cs : List Char} (h : (cs.takeWhile (· ≠ '"')).length < cs.length) :
    cs.take ((cs.takeWhile (· ≠ '"')).length + 1) = cs.takeWhile (· ≠ '"') ++ ['"'] := by
  have hsplit := List.takeWhile_append_dropWhile (p := (· ≠ '"')) (l := cs)
  cases hbehind : cs.dropWhile (· ≠ '"') with
  | nil =>
      rw [hbehind, List.append_nil] at hsplit
      rw [hsplit] at h
      omega
  | cons d ds =>
      have hd : d = '"' := by
        have hhead := List.head?_dropWhile_not (· ≠ '"') cs
        rw [hbehind] at hhead
        simpa using hhead
      subst hd
      rw [hbehind] at hsplit
      nth_rewrite 2 [← hsplit]
      rw [List.take_length_add_append]
      rfl

theorem second_of_doubled {c : Char} {cs : List Char} {op : Operator}
    (h : doubled? c cs.head? = some op) : ∃ d ds, cs = d :: ds ∧ d ≠ '"' := by
  rcases cs with _ | ⟨d, ds⟩
  · unfold doubled? at h
    split at h <;> simp_all
  · refine ⟨d, ds, rfl, ?_⟩
    rintro rfl
    unfold doubled? at h
    split at h <;> simp_all

/-- The only token with quotes in it is a text, which has two. -/
theorem paired_of_lexeme {s : Scanner} {c : Char} {cs : List Char} {kind : TokenKind} {more : Nat}
    (h : s.lexeme c cs = .ok (kind, more)) : Paired (c :: cs.take more) := by
  unfold lexeme at h
  -- Names and numbers come first, then texts, and then what is written with symbols.
  split at h
  · next hc =>
    simp only [Except.ok.injEq, Prod.mk.injEq] at h
    rcases h with ⟨_, rfl⟩
    rw [take_takeWhile]
    refine paired_of_not_mem fun hmem => ?_
    rcases List.mem_cons.mp hmem with rfl | hmem
    · exact absurd hc (by decide)
    · exact quote_not_mem_takeWhile (by decide) cs hmem
  split at h
  · next hnumber =>
    simp only [Except.ok.injEq, Prod.mk.injEq] at h
    rcases h with ⟨_, rfl⟩
    exact paired_of_not_mem (quote_not_mem_numeral hnumber rfl)
  split at h
  · next hquote =>
    subst hquote
    simp only at h
    split at h
    · next hclosed =>
      simp only [Except.ok.injEq, Prod.mk.injEq] at h
      rcases h with ⟨_, rfl⟩
      have hnone := List.count_eq_zero.mpr (quote_not_mem_takeWhile (p := (· ≠ '"')) (by simp) cs)
      unfold Paired
      rw [take_text hclosed, List.count_cons_self, List.count_append, hnone]
      decide
    · simp at h
  · next hquote =>
    split at h
    · split at h
      · simp only [Except.ok.injEq, Prod.mk.injEq] at h
        rcases h with ⟨_, rfl⟩
        exact paired_of_not_mem (by simpa using Ne.symm hquote)
      · simp at h
    · split at h
      · next op hop =>
        simp only [Except.ok.injEq, Prod.mk.injEq] at h
        rcases h with ⟨_, rfl⟩
        rcases second_of_doubled hop with ⟨d, ds, rfl, hd⟩
        exact paired_of_not_mem (by simpa using ⟨Ne.symm hquote, Ne.symm hd⟩)
      · split at h
        · simp only [Except.ok.injEq, Prod.mk.injEq] at h
          rcases h with ⟨_, rfl⟩
          exact paired_of_not_mem (by simpa using Ne.symm hquote)
        · simp at h

theorem paired_layout (s : Scanner) : Paired (s.rest.takeWhile isLayout) :=
  paired_of_not_mem (quote_not_mem_takeWhile (by decide) _)

/-- A step takes characters off the front, and their quotes come in pairs. -/
theorem rest_of_next {s s' : Scanner} {t : Token} (h : s.next = .token t s') :
    ∃ taken, s.rest = taken ++ s'.rest ∧ Paired taken := by
  rcases next_eq_token h with ⟨c, cs, more, hrest, hlexeme, _, rfl⟩
  refine ⟨s.rest.takeWhile isLayout ++ c :: cs.take more, ?_,
    (paired_layout s).append (paired_of_lexeme hlexeme)⟩
  have hbehind : (s.skipLayout.advance t.kind c cs more).rest = cs.drop more := rfl
  rw [hbehind, List.append_assoc, List.cons_append, List.take_append_drop, ← hrest]
  exact List.takeWhile_append_dropWhile.symm

end Scanner

namespace Scan

open Scanner

theorem paired_run (s : Scanner) {stop depth : Nat} (h : (run s).ending = .complete stop depth) :
    Paired s.rest := by
  fun_induction run s with
  | case1 s stop' hnext =>
      -- Nothing but layout is left.
      have hrest : s.rest.dropWhile isLayout = [] := (next_eq_done hnext).1
      rw [← List.takeWhile_append_dropWhile (p := isLayout) (l := s.rest), hrest, List.append_nil]
      exact paired_layout s
  | case2 => simp at h
  | case3 s t s' hnext _ _ ih =>
      rcases rest_of_next hnext with ⟨taken, hrest, htaken⟩
      rw [hrest]
      exact htaken.append (ih h)

/-- The quotes of a text that is scanned to its end come in pairs. -/
theorem paired_of_complete {text : List Char} {stop depth : Nat}
    (h : (ofText text).ending = .complete stop depth) : Paired text :=
  paired_run (.start text) (ofText_eq_run text ▸ h)

end Scan

/-! ### Bounds -/

namespace Scanner

theorem length_le_of_numeral {afterOperand : Bool} {cs whole fraction : List Char}
    (h : numeral afterOperand cs = (whole, fraction)) :
    numeralLength whole fraction ≤ cs.length := by
  have htake := congrArg List.length (take_numeral h).2.2
  rw [List.length_take, List.length_append] at htake
  unfold numeralLength at htake ⊢
  by_cases hfraction : fraction = []
  · rw [if_pos hfraction] at htake ⊢
    rw [if_pos hfraction, List.length_nil] at htake
    omega
  · rw [if_neg hfraction] at htake ⊢
    rw [if_neg hfraction, List.length_cons] at htake
    omega

/-- A token ends inside of the text. -/
theorem length_le_of_lexeme {s : Scanner} {c : Char} {cs : List Char} {kind : TokenKind}
    {more : Nat} (h : s.lexeme c cs = .ok (kind, more)) : more ≤ cs.length := by
  unfold lexeme at h
  split at h
  · simp only [Except.ok.injEq, Prod.mk.injEq] at h
    rw [← h.2]
    exact (List.takeWhile_prefix _).length_le
  split at h
  · rcases hnumeral : numeral s.afterOperand (c :: cs) with ⟨whole, fraction⟩
    have hlength := length_le_of_numeral hnumeral
    rw [hnumeral] at h
    simp only [Except.ok.injEq, Prod.mk.injEq] at h
    rw [List.length_cons] at hlength
    omega
  split at h
  · simp only at h
    split at h
    · next hclosed =>
      simp only [Except.ok.injEq, Prod.mk.injEq] at h
      rw [← h.2]
      exact hclosed
    · simp at h
  · split at h
    · split at h
      · simp only [Except.ok.injEq, Prod.mk.injEq] at h
        omega
      · simp at h
    · split at h
      · next op hop =>
        simp only [Except.ok.injEq, Prod.mk.injEq] at h
        rcases second_of_doubled hop with ⟨d, ds, rfl, _⟩
        rw [← h.2, List.length_cons]
        omega
      · split at h
        · simp only [Except.ok.injEq, Prod.mk.injEq] at h
          omega
        · simp at h

/-- The offset of the end of the text. -/
def finish (s : Scanner) : Nat :=
  s.position + s.rest.length

theorem finish_skipLayout (s : Scanner) : s.skipLayout.finish = s.finish := by
  have hsplit := congrArg List.length
    (List.takeWhile_append_dropWhile (p := isLayout) (l := s.rest))
  rw [List.length_append] at hsplit
  simp only [finish, skipLayout]
  omega

theorem finish_advance {s : Scanner} (kind : TokenKind) {c : Char} {cs : List Char} {more : Nat}
    (hrest : s.rest = c :: cs) (hmore : more ≤ cs.length) :
    (s.advance kind c cs more).finish = s.finish := by
  simp only [finish, advance, hrest, List.length_drop, List.length_cons]
  omega

/-- A token stands inside of the text and stops inside of it, and scanning goes
    on in the same text. -/
theorem finish_of_next {s s' : Scanner} {t : Token} (h : s.next = .token t s') :
    t.position < s.finish ∧ t.stop ≤ s.finish ∧ s'.finish = s.finish := by
  rw [← finish_skipLayout s]
  simp only [next, nextHere] at h
  split at h
  · simp at h
  · next c cs hrest =>
    split at h
    · simp at h
    · next kind more hlexeme =>
      simp only [Step.token.injEq] at h
      rcases h with ⟨rfl, rfl⟩
      have hbehind := finish_advance kind hrest (length_le_of_lexeme hlexeme)
      refine ⟨?_, ?_, hbehind⟩
      · simp only [finish, hrest, List.length_cons]
        omega
      · rw [← hbehind]
        simp only [stopBehind]
        split
        · rw [← finish_skipLayout (s.skipLayout.advance kind c cs more)]
          exact Nat.le_add_right _ _
        · exact Nat.le_add_right _ _

end Scanner

/-- The place where a scan ended. -/
def Ending.place : Ending → Nat
  | complete stop _ => stop
  | broken e _ => e.position

namespace Scan

open Scanner

/-- All tokens of a scan are inside of the text, and so is the place where it ends. -/
theorem place_of_run (s : Scanner) :
    (∀ t ∈ (run s).tokens, t.position < s.finish ∧ t.stop ≤ s.finish) ∧
      (run s).ending.place ≤ s.finish := by
  have hplace (s : Scanner) : s.skipLayout.position ≤ s.finish := by
    rw [← finish_skipLayout s]
    exact Nat.le_add_right _ _
  fun_induction run s with
  | case1 s stop hnext =>
      refine ⟨by simp, ?_⟩
      rw [Ending.place, (next_eq_done hnext).2]
      exact hplace s
  | case2 s e depth hnext =>
      refine ⟨by simp, ?_⟩
      rcases next_eq_fault hnext with ⟨_, _, _, hlexeme⟩
      rw [Ending.place, (kind_and_position_of_lexeme hlexeme).2]
      exact hplace s
  | case3 s t s' hnext _ _ ih =>
      rcases finish_of_next hnext with ⟨hposition, hstop, hfinish⟩
      rw [hfinish] at ih
      exact ⟨List.forall_mem_cons.mpr ⟨⟨hposition, hstop⟩, ih.1⟩, ih.2⟩

theorem position_lt_of_mem {text : List Char} {t : Token} (h : t ∈ (ofText text).tokens) :
    t.position < text.length := by
  rw [ofText_eq_run] at h
  have hplace := ((place_of_run (.start text)).1 t h).1
  rwa [finish, start, Nat.zero_add] at hplace

theorem stop_le_of_mem {text : List Char} {t : Token} (h : t ∈ (ofText text).tokens) :
    t.stop ≤ text.length := by
  rw [ofText_eq_run] at h
  have hplace := ((place_of_run (.start text)).1 t h).2
  rwa [finish, start, Nat.zero_add] at hplace

theorem place_le (text : List Char) : (ofText text).ending.place ≤ text.length := by
  have hplace := (place_of_run (.start text)).2
  rwa [← ofText_eq_run, finish, start, Nat.zero_add] at hplace

end Scan

end Scriptlet
