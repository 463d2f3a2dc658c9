import Scriptlet.Proofs.Library.Search
import Scriptlet.Proofs.Value.Guarded

/-!
# Splitting and Joining

A text is split by going from one occurrence of the delimiter to the next. What lies
between two of them is a piece, and the search for the next one begins behind the last
one, so occurrences that overlap it do not count. Delimiters at the ends and next to
one another leave empty pieces, so there is always one piece more than there are
delimiters, and joining the pieces puts each delimiter back where it was. The empty
delimiter is apart from this. There the pieces are the single characters, and there is
nothing to put back.

A piece does not contain the delimiter. What is in front of an occurrence reaches up
to the first place where the delimiter stands, and an occurrence inside of it would be
at a place before that.

## Main definitions

* `Store.newTexts`: A new array of texts.
* `SplitsInto`: What a text is split into.

## Theorems

* `Text.joinWith_cut`: Joining undoes cutting.
* `Text.not_infix_of_mem_cut`: No piece contains the delimiter.
* `Value.join_of_texts`: Joining an array of texts.
* `TextMethod.limit?_of_integer?`: A natural number is a limit.
* `split_then_join`: Joining undoes splitting, and a limit keeps the first pieces.
-/

namespace Scriptlet

/-! ### Pieces of a text -/

namespace Text

variable {delimiter text piece : List Char}

theorem joinWith_cons {pieces : List (List Char)} (h : pieces ≠ []) (separator piece : List Char) :
    joinWith separator (piece :: pieces) = piece ++ separator ++ joinWith separator pieces := by
  cases pieces with
  | nil => exact absurd rfl h
  | cons next pieces => simp [joinWith, List.intersperse]

theorem cut_ne_nil (delimiter text : List Char) : cut delimiter text ≠ [] := by
  unfold cut
  split
  · simp
  · split <;> simp

/-- An occurrence with what is in front of it and behind it is the text. -/
theorem OccursAt.append_eq {place : Nat} (h : OccursAt delimiter text place) :
    text.take place ++ delimiter ++ text.drop (place + delimiter.length) = text := by
  conv => lhs; lhs; rhs; rw [← h]
  rw [List.append_assoc, ← List.drop_drop, List.take_append_drop, List.take_append_drop]

/-- Joining undoes cutting. -/
theorem joinWith_cut (delimiter text : List Char) :
    joinWith delimiter (cut delimiter text) = text := by
  fun_induction cut delimiter text with
  | case1 text hfind => simp [joinWith]
  | case2 text place hfind => simp [joinWith]
  | case3 text place hfind hdelimiter hshorter ih =>
      rw [joinWith_cons (cut_ne_nil _ _), ih]
      exact (find?_eq_some_iff.mp hfind).1.append_eq

theorem infix_iff_occursAt : delimiter <:+: text ↔ ∃ place, OccursAt delimiter text place := by
  simp only [occursAt_iff_starts]
  constructor
  · rintro ⟨before, after, rfl⟩
    exact ⟨before.length, after, by simp⟩
  · rintro ⟨place, hplace⟩
    exact hplace.isInfix.trans (List.drop_suffix place text).isInfix

/-- In front of the first place where a text stands, it does not occur. -/
theorem FirstAt.not_infix_take {place : Nat} (h : FirstAt delimiter text place)
    (hdelimiter : delimiter ≠ []) : ¬ delimiter <:+: text.take place := by
  rw [infix_iff_occursAt]
  rintro ⟨before, hbefore⟩
  rw [occursAt_iff_starts, List.drop_take] at hbefore
  -- All of the occurrence lies in front of the place, and so does its start.
  have hlength := hbefore.length_le
  have hpos := List.length_pos_iff.mpr hdelimiter
  rw [List.length_take] at hlength
  refine h.2 before (by omega) (occursAt_iff_starts.mpr ?_)
  exact hbefore.trans (List.take_prefix _ _)

/-- No piece contains the delimiter. -/
theorem not_infix_of_mem_cut (hdelimiter : delimiter ≠ []) (h : piece ∈ cut delimiter text) :
    ¬ delimiter <:+: piece := by
  fun_induction cut delimiter text with
  | case1 text hfind =>
      obtain rfl := List.mem_singleton.mp h
      rw [infix_iff_occursAt, not_exists]
      exact find?_eq_none_iff.mp hfind
  | case2 text place hfind hempty => exact absurd hempty hdelimiter
  | case3 text place hfind _ _ ih =>
      rcases List.mem_cons.mp h with rfl | hrest
      · exact (find?_eq_some_iff.mp hfind).not_infix_take hdelimiter
      · exact ih hrest

/-- Single characters in a row are the text. -/
theorem joinWith_singles (text : List Char) : joinWith [] (text.map ([·])) = text := by
  induction text with
  | nil => rfl
  | cons c cs ih =>
      by_cases hrest : cs.map ([·]) = []
      · rw [List.map_eq_nil_iff] at hrest
        subst hrest
        rfl
      · rw [List.map_cons, joinWith_cons hrest, ih]
        rfl

end Text

theorem TextMethod.joinWith_pieces (text delimiter : List Char) :
    Text.joinWith delimiter (pieces text (some delimiter)) = text := by
  cases delimiter with
  | nil => exact Text.joinWith_singles text
  | cons c cs => exact Text.joinWith_cut (c :: cs) text

/-- The same for texts and the texts of their pieces. -/
theorem TextMethod.intercalate_pieces (t delimiter : String) :
    delimiter.intercalate ((pieces t.toList (some delimiter.toList)).map String.ofList) = t := by
  have hid : String.toList ∘ String.ofList = id := by
    funext cs
    exact String.toList_ofList
  refine String.toList_injective ?_
  rw [String.toList_intercalate, List.map_map, hid, List.map_id]
  exact joinWith_pieces t.toList delimiter.toList

/-- A number that equals a natural number is a limit. -/
theorem TextMethod.limit?_of_integer? {limit : Float} {n : ℕ}
    (h : Number.integer? limit = some (n : ℤ)) : limit? limit = some n := by
  rw [limit?, Number.parts]
  rcases Number.integer?_cases h with ⟨hn, sign, hzero⟩ | ⟨sign, m, e, hm, hfinite, hwhole, hn⟩
  · obtain rfl : n = 0 := by omega
    rw [hzero]
    simp [Number.magnitude]
  · have hpos := Number.magnitude_pos hm hwhole
    rw [hfinite]
    cases sign with
    | positive =>
        simp only [Number.isMinus, Bool.false_eq_true, if_false] at hn
        simp only [Number.isMinus, Bool.false_and, Bool.false_eq_true, if_false]
        exact congrArg some (by omega)
    | negative =>
        simp only [Number.isMinus, if_true] at hn
        omega

/-! ### Arrays of texts -/

variable {σ : Type}

/-- Texts are joined as they are. -/
theorem Value.join_of_texts {s : Store σ} {r : ArrayRef} {texts : List String}
    (h : (s.elements r).toList = texts.map .text) (separator : String) :
    Value.join s separator r = separator.intercalate texts := by
  have hjoin : Value.join s separator r = Value.joinIn s separator [] r := rfl
  rw [hjoin, Value.joinIn_eq, if_neg List.not_mem_nil, h, List.map_map]
  congr 1
  exact List.map_id' texts

/-- Adds an array of texts. -/
def Store.newTexts (s : Store σ) (texts : List String) : Value × Store σ :=
  s.newArray (texts.map .text).toArray

theorem Store.elements_newTexts (s : Store σ) (texts : List String) :
    ((s.newTexts texts).2.elements ⟨s.arrays.size⟩).toList = texts.map .text := by
  simp [newTexts, newArray, elements]

/-- A new array of texts is joined to one text. -/
theorem methodReplies_join [Host σ] (s : Store σ) (texts : List String) (separator : String) :
    MethodReplies "join" (s.newTexts texts).1 [.text separator] (s.newTexts texts).2
      (.ok (.text (separator.intercalate texts)), (s.newTexts texts).2) := by
  refine ⟨_, rfl, ?_⟩
  rw [← Value.join_of_texts (s.elements_newTexts texts) separator]
  rfl

/-- A text is split into some texts: the reply is a new array of them. -/
def SplitsInto [Host σ] (s : Store σ) (t : String) (args : List Value) (texts : List String) :
    Prop :=
  CallReplies "split" (.text t) args s (.ok (s.newTexts texts).1, (s.newTexts texts).2)

/-- The function and the method are the same. -/
theorem splitsInto_of_pieces [Host σ] {s : Store σ} {t : String} {args : List Value}
    {delimiter : Option (List Char)} {limit : Option ℕ}
    (hdelimiter : (Arguments.optional? (.text t :: args) 1).map (fun v => (v.toText s).toList) =
      delimiter)
    (hlimit : (Arguments.optional? (.text t :: args) 2).bind
      (fun v => TextMethod.limit? (v.toNumber s)) = limit) :
    SplitsInto s t args
      ((TextMethod.limited (TextMethod.pieces t.toList delimiter) limit).map String.ofList) := by
  have hsplit : TextMethod.split (.text t :: args) s =
      (.ok (s.newTexts ((TextMethod.limited (TextMethod.pieces t.toList delimiter) limit).map
        String.ofList)).1,
      (s.newTexts ((TextMethod.limited (TextMethod.pieces t.toList delimiter) limit).map
        String.ofList)).2) := by
    rw [Store.newTexts, List.map_map, ← hdelimiter, ← hlimit]
    rfl
  exact ⟨⟨_, rfl, hsplit⟩, ⟨_, rfl, hsplit⟩⟩

/-- Joining undoes splitting. The texts that a text is split into, joined with the delimiter, are
    the text, and none of them contains the delimiter unless it is empty. With a limit the text is
    split into the first so many of them. -/
theorem split_then_join [Host σ] (s : Store σ) (t delimiter : String) :
    ∃ texts : List String, SplitsInto s t [.text delimiter] texts ∧
      MethodReplies "join" (s.newTexts texts).1 [.text delimiter] (s.newTexts texts).2
        (.ok (.text t), (s.newTexts texts).2) ∧
      (delimiter ≠ "" → ∀ piece ∈ texts, ¬ delimiter.toList <:+: piece.toList) ∧
      ∀ (limit : Float) (n : ℕ), Number.integer? limit = some (n : ℤ) →
        SplitsInto s t [.text delimiter, .number limit] (texts.take n) := by
  have hsplit : SplitsInto s t [.text delimiter] ((TextMethod.limited
      (TextMethod.pieces t.toList (some delimiter.toList)) none).map String.ofList) :=
    splitsInto_of_pieces rfl rfl
  refine ⟨(TextMethod.pieces t.toList (some delimiter.toList)).map String.ofList, hsplit, ?_, ?_,
    fun limit n hlimit => ?_⟩
  · have hjoin := methodReplies_join s
      ((TextMethod.pieces t.toList (some delimiter.toList)).map String.ofList) delimiter
    rwa [TextMethod.intercalate_pieces] at hjoin
  · intro hdelimiter piece hpiece
    rcases List.mem_map.mp hpiece with ⟨cs, hcs, rfl⟩
    rw [String.toList_ofList]
    -- Only the empty delimiter does without a search.
    cases hlist : delimiter.toList with
    | nil => exact absurd (String.toList_injective hlist) hdelimiter
    | cons c rest =>
        rw [hlist] at hcs
        exact Text.not_infix_of_mem_cut (List.cons_ne_nil c rest) hcs
  · have hfirst : SplitsInto s t [.text delimiter, .number limit] ((TextMethod.limited
        (TextMethod.pieces t.toList (some delimiter.toList)) (some n)).map String.ofList) :=
      splitsInto_of_pieces rfl (TextMethod.limit?_of_integer? hlimit)
    rwa [TextMethod.limited, List.map_take] at hfirst

/-- A delimiter that overlaps itself, and a limit of one piece. -/
theorem split_of_overlapping_delimiter :
    ∃ (s : Store Unit) (texts : List String), "aa" ≠ "" ∧ Number.integer? 1.0 = some (1 : ℕ) ∧
      SplitsInto s "aaa" [.text "aa"] texts ∧
      MethodReplies "join" (s.newTexts texts).1 [.text "aa"] (s.newTexts texts).2
        (.ok (.text "aaa"), (s.newTexts texts).2) ∧
      (∀ piece ∈ texts, ¬ "aa".toList <:+: piece.toList) ∧
      SplitsInto s "aaa" [.text "aa", .number 1.0] (texts.take 1) := by
  have hdelimiter : "aa" ≠ "" := by decide
  have hlimit : Number.integer? 1.0 = some ((1 : ℕ) : ℤ) := rfl
  rcases split_then_join (.empty 0 () : Store Unit) "aaa" "aa" with
    ⟨texts, hsplit, hjoin, hpieces, hfirst⟩
  exact ⟨.empty 0 (), texts, hdelimiter, hlimit, hsplit, hjoin, hpieces hdelimiter,
    hfirst 1.0 1 hlimit⟩

end Scriptlet
