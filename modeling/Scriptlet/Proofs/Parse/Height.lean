import Scriptlet.Proofs.Eval.Related
import Scriptlet.Proofs.Parse.Reads
import Scriptlet.Proofs.Token.Spelling

/-!
# The Height of Statements

How high the tree of a statement can be. Reading takes a level for every
expression inside another and for every operator added to an operand, but the
levels that the *first* operand of an expression took are given back before
operators are added to it. Every expression can thus put as many operators on
top of its first operand as it has levels, whatever the height of that operand,
and the heights of the levels add up instead of sharing one bound.

The bound that follows, the sum of all levels, is reached. A `Spire` is a
text that wastes nothing: a list whose only element is the spire of one level
less, with as many operators behind it as there are levels for. Every height up
to the bound is that of some spire.

Evaluation has no more levels than reading, so it refuses statements that were
read. A tree no higher than the levels is never refused. Of every greater
height there is a spire that always is, because evaluating it begins by going
down the side on which it is high.

## Main definitions

* `deepest`: The sum of the levels up to a level.
* `Spire`: Texts of any height that can be read.
* `Spire.text`, `Spire.tree`: A spire as text and as a tree.
* `Spire.levels`, `Spire.height`, `Spire.plunge`: What it takes to read it, how high it is, and
  how far down evaluation goes first.

## Theorems

* `height_of_reads`: The sum of the levels bounds what is read.
* `Spire.steps_text`: The text of a spire has its tokens.
* `Spire.reads`: The tokens of a spire are read as its tree.
* `Spire.sinks_tree`: Evaluation of a spire that is too high fails.
* `height_of_statements`: The heights of statements, and which can be evaluated.
-/

namespace Scriptlet

namespace Parse

open Scriptlet.Expr (height heights)

/-! ### The bound -/

/-- The sum of the levels up to a level. -/
def deepest : Nat → Nat
  | 0 => 0
  | levels + 1 => deepest levels + (levels + 1)

/-- How high a goal gets within a number of levels. -/
def Goal.Low (levels : Nat) : Goal → Prop
  | .expression _ e => e.height ≤ deepest levels
  | .operand e => e.height ≤ deepest levels + 1
  | .extend _ left e => e.height ≤ max left.height (deepest levels) + levels
  | .elements _ _ es => heights es ≤ deepest levels

theorem height_of_reads {levels : Nat} {goal : Goal} {tokens rest : List Token}
    (h : Reads levels goal tokens rest) : goal.Low levels := by
  induction h with
  | expression _ _ ihfirst ihmore =>
      -- The operand is as high as the levels below allow, and all of them may go on top of it.
      simp only [Goal.Low, deepest] at *
      omega
  | constant _ | name _ =>
      simp only [Goal.Low, height]
      omega
  | call _ _ ih | not _ _ ih | array _ _ ih =>
      simp only [Goal.Low, height] at *
      omega
  | @sign _ _ e _ _ _ _ _ _ ih =>
      have hpositive := e.height_pos
      simp only [Goal.Low, zeroAt, height] at *
      omega
  | group _ _ _ ih =>
      simp only [Goal.Low] at *
      omega
  | stop _ =>
      simp only [Goal.Low]
      omega
  -- Adding an operator makes the tree one node higher and leaves one level less.
  | suffix _ _ _ _ ihmore =>
      simp only [Goal.Low, height, deepest] at *
      omega
  | binary _ _ _ _ _ ihright ihmore | index _ _ _ _ _ ihright ihmore =>
      simp only [Goal.Low, height, deepest] at *
      omega
  | closed _ =>
      simp only [Goal.Low, heights]
      omega
  | last _ _ ih =>
      simp only [Goal.Low, heights] at *
      omega
  | comma _ _ _ ihinner ihlist =>
      simp only [Goal.Low, heights] at *
      omega

theorem height_of_parse {text : List Char} {e : Expr} (h : Expr.parse text = .ok e) :
    e.height ≤ deepest maxNesting :=
  height_of_reads (reads_of_parse h).2

/-! ### Spires -/

/-- A variable, or a list around a spire with indices behind it and perhaps an
    increment behind those. -/
inductive Spire where
  | leaf
  | list (inner : Spire) (indices : Nat) (raised : Bool)

/-- Indices, one behind another. -/
def indexText : Nat → List Char
  | 0 => []
  | n + 1 => '[' :: 'x' :: ']' :: indexText n

/-- The tokens of indices. -/
def indexKinds : Nat → List TokenKind
  | 0 => []
  | n + 1 => .opening .square :: .name "x" :: .closing .square :: indexKinds n

/-- A tree with indices behind it. -/
def indexed : Nat → Expr → Expr
  | 0, e => e
  | n + 1, e => .binary .index (indexed n e) (.var "x" Expr.noMark) Expr.noMark

/-- A tree with an increment behind it, or without. -/
def raisedTree (raised : Bool) (e : Expr) : Expr :=
  if raised then .unary .increment e Expr.noMark else e

namespace Spire

/-- A spire as text. -/
def text : Spire → List Char
  | leaf => ['x']
  | list inner n raised =>
      '[' :: (inner.text ++ ']' :: (indexText n ++ if raised then ['+', '+'] else []))

/-- The tokens of a spire. -/
def tokens : Spire → List TokenKind
  | leaf => [.name "x"]
  | list inner n raised =>
      .opening .square :: (inner.tokens ++ .closing .square ::
        (indexKinds n ++ if raised then [.operator .increment] else []))

/-- The tree of a spire. -/
def tree : Spire → Expr
  | leaf => .var "x" Expr.noMark
  | list inner n raised => raisedTree raised (indexed n (.array [inner.tree] Expr.noMark))

/-- The levels that it takes to read a spire. -/
def levels : Spire → Nat
  | leaf => 1
  | list inner n _ => max inner.levels (n + 1) + 1

/-- The height of a spire. -/
def height : Spire → Nat
  | leaf => 1
  | list inner n raised => inner.height + 1 + n + raised.toNat

/-- How far down evaluation goes before anything else. An increment evaluates
    what is in front of the index that it changes, and nothing if there is none. -/
def plunge : Spire → Nat
  | leaf => 1
  | list inner n raised => if raised = true ∧ n = 0 then 1 else inner.plunge + 1 + n

end Spire

theorem indexed_index (n : Nat) (e : Expr) :
    indexed n (.binary .index e (.var "x" Expr.noMark) Expr.noMark) = indexed (n + 1) e := by
  induction n with
  | zero => rfl
  | succ n ih =>
      rw [indexed, ih]
      rfl

theorem height_indexed (n : Nat) (e : Expr) : (indexed n e).height = e.height + n := by
  induction n with
  | zero => rfl
  | succ n ih =>
      have hpositive := e.height_pos
      simp only [indexed, height, ih]
      omega

theorem Spire.height_tree (s : Spire) : s.tree.height = s.height := by
  induction s with
  | leaf => rfl
  | list inner n raised ih =>
      have hlist : (indexed n (.array [inner.tree] Expr.noMark)).height = inner.height + 1 + n := by
        rw [height_indexed, Expr.height, heights, heights, ih]
        omega
      cases raised <;> simp [tree, raisedTree, Spire.height, Expr.height, hlist]

/-! ### Spires as text -/

open Scanner

theorem steps_indices (n : Nat) : ∀ {sc : Scanner} {brackets : List Bracket} {more : List Char},
    Behind (indexText n ++ more) brackets sc →
      ∃ sc', Steps sc (indexKinds n) sc' ∧ Behind more brackets sc' := by
  induction n with
  | zero =>
      intro sc brackets more h
      exact ⟨sc, .refl sc, h⟩
  | succ n ih =>
      intro sc brackets more h
      rcases steps_opening .square h.rest h.brackets with ⟨s₁, hopen, h₁⟩
      rcases steps_name "x" h₁ (by decide)
        (endsWord_cons (by decide) (by decide) (by decide) _) with ⟨s₂, hname, h₂⟩
      rcases steps_closing .square h₂.rest h₂.brackets with ⟨s₃, hclose, h₃⟩
      rcases ih h₃ with ⟨s₄, hmore, h₄⟩
      exact ⟨s₄, hopen.append (hname.append (hclose.append hmore)), h₄⟩

/-- The text of a spire has its tokens. -/
theorem Spire.steps_text (s : Spire) :
    ∀ {sc : Scanner} {brackets : List Bracket} {more : List Char},
      Ahead (s.text ++ more) brackets sc → EndsWord more →
        ∃ sc', Steps sc s.tokens sc' ∧ Behind more brackets sc' := by
  induction s with
  | leaf =>
      intro sc brackets more h hmore
      exact steps_name "x" h (by decide) hmore
  | list inner n raised ih =>
      intro sc brackets more h _
      simp only [text, List.cons_append, List.append_assoc] at h
      rcases steps_opening .square h.rest h.brackets with ⟨s₁, hopen, h₁⟩
      rcases ih h₁ (endsWord_cons (by decide) (by decide) (by decide) _) with ⟨s₂, hinner, h₂⟩
      rcases steps_closing .square h₂.rest h₂.brackets with ⟨s₃, hclose, h₃⟩
      rcases steps_indices n h₃ with ⟨s₄, hindices, h₄⟩
      have hlist := hopen.append (hinner.append (hclose.append hindices))
      cases raised with
      | false => exact ⟨s₄, by simpa [tokens] using hlist, h₄⟩
      | true =>
          rcases steps_suffix (.inl rfl) h₄.rest h₄.brackets with ⟨s₅, hraise, h₅⟩
          exact ⟨s₅, by simpa [tokens] using hlist.append hraise, h₅⟩

/-! ### Reading spires -/

theorem reads_variable (levels above : Nat) {t : Token} {rest : List Token} {name : String}
    (hkind : t.kind = .name name) (hends : Ends rest) :
    Reads (levels + 1) (.expression above (.var name t.mark)) (t :: rest) rest :=
  .expression (.name hkind) (.stop fun u hu => hends u hu above)

/-- Indices go to what is in front of them, one level for each and one more. -/
theorem reads_indices {brackets : List Bracket} {above : Nat} (levels n : Nat) :
    ∀ {u rest : List Token} (left : Expr), kinds u = indexKinds n → Scanned brackets (u ++ rest) →
      above ≤ 10 * brackets.length → Scanned brackets rest ∧
        ∃ left', left'.unmarked = indexed n left.unmarked ∧ ∀ {e : Expr} {rest' : List Token},
          Reads (levels + 1) (.extend above left' e) rest rest' →
            Reads (levels + 1 + n) (.extend above left e) (u ++ rest) rest' := by
  induction n with
  | zero =>
      intro u rest left hu hs _
      have hnil : u = [] := List.map_eq_nil_iff.mp hu
      subst hnil
      exact ⟨hs, left, rfl, fun hmore => hmore⟩
  | succ n ih =>
      intro u rest left hu hs habove
      rcases List.map_eq_cons_iff.mp hu with ⟨t, u, rfl, ht, hu⟩
      rcases List.map_eq_cons_iff.mp hu with ⟨x, u, rfl, hx, hu⟩
      rcases List.map_eq_cons_iff.mp hu with ⟨closer, u, rfl, hclosed, hu⟩
      have hgoes : t.continues above = true := continues_of_scanned hs (.inr ht) habove
      have hbehind : Scanned brackets (u ++ rest) :=
        ((hs.tail_of_kind ht).tail_of_kind hx).tail_of_kind hclosed
      -- The first index goes to the operand at once, so the others find it inside.
      rcases ih (.binary .index left (.var "x" x.mark) t.mark) hu hbehind habove with
        ⟨hrest, left', hleft, hmore⟩
      refine ⟨hrest, left', hleft.trans (indexed_index n _), fun hrest => ?_⟩
      have hinner := reads_variable (levels + n) t.priority hx
        (ends_of_kind (.inr ⟨_, hclosed⟩) : Ends (closer :: (u ++ rest)))
      rw [show levels + n + 1 = levels + 1 + n by omega] at hinner
      exact .index hgoes ht hinner hclosed (hmore hrest)

/-- The tokens of a spire are read as its tree. -/
theorem Spire.reads (s : Spire) : ∀ {u rest : List Token} {brackets : List Bracket}
    (above levels : Nat), kinds u = s.tokens → Scanned brackets (u ++ rest) → Ends rest →
      above ≤ 10 * brackets.length → s.levels ≤ levels →
        ∃ e, e.unmarked = s.tree ∧ Reads levels (.expression above e) (u ++ rest) rest := by
  induction s with
  | leaf =>
      intro u rest brackets above levels hu _ hends _ hlevels
      simp only [Spire.levels] at hlevels
      obtain ⟨k, rfl⟩ : ∃ k, levels = k + 1 := ⟨levels - 1, by omega⟩
      rcases List.map_eq_singleton_iff.mp hu with ⟨t, rfl, ht⟩
      exact ⟨_, rfl, reads_variable k above ht hends⟩
  | list inner n raised ih =>
      intro u rest brackets above levels hu hs hends habove hlevels
      simp only [Spire.levels] at hlevels
      obtain ⟨k, rfl⟩ : ∃ k, levels = k + 1 + n + 1 := ⟨levels - (n + 2), by omega⟩
      rcases List.map_eq_cons_iff.mp hu with ⟨t, u, rfl, ht, hu⟩
      rcases List.map_eq_append_iff.mp hu with ⟨w, u, rfl, hw, hu⟩
      rcases List.map_eq_cons_iff.mp hu with ⟨closer, u, rfl, hclosed, hu⟩
      rcases List.map_eq_append_iff.mp hu with ⟨v, p, rfl, hv, hp⟩
      simp only [List.cons_append, List.append_assoc] at hs ⊢
      have hinside : t.priority ≤ 10 * (.square :: brackets).length := by
        rw [hs.priority_of_kind ht, TokenKind.basePriority, List.length_cons]
        omega
      -- The list around the inner spire, with one level less than the whole.
      rcases ih t.priority (k + 1 + n) hw (hs.tail_of_kind ht)
        (ends_of_kind (.inr ⟨_, hclosed⟩)) hinside (by omega) with ⟨e, he, hinner⟩
      have hlist : Reads (k + 1 + n) (.operand (.array [e] t.mark))
          (t :: (w ++ closer :: (v ++ (p ++ rest)))) (v ++ (p ++ rest)) :=
        .array ht (.last hinner hclosed)
      rcases reads_indices k n (.array [e] t.mark) hv (scanned_of_reads hlist brackets hs) habove
        with ⟨hbehind, left, hleft, hmore⟩
      have htree : left.unmarked = indexed n (.array [inner.tree] Expr.noMark) := by
        rw [hleft, ← he]
        rfl
      -- Then perhaps the increment, with the one level that is left.
      cases raised with
      | false =>
          have hnil : p = [] := List.map_eq_nil_iff.mp hp
          subst hnil
          exact ⟨left, htree, .expression hlist (hmore (.stop fun u hu => hends u hu above))⟩
      | true =>
          rcases List.map_eq_singleton_iff.mp hp with ⟨q, rfl, hq⟩
          have hgoes : q.continues above = true :=
            continues_of_scanned hbehind (.inl ⟨_, hq⟩) habove
          refine ⟨.unary .increment left q.mark, ?_, .expression hlist (hmore (.suffix hgoes hq rfl
            (.stop fun u hu => hends u hu above)))⟩
          rw [Expr.unmarked, htree]
          rfl

/-- A spire of few enough levels is a statement. -/
theorem Spire.parse_text (s : Spire) (hlevels : s.levels ≤ maxNesting) :
    ∃ e, Expr.parse s.text = .ok e ∧ e.unmarked = s.tree := by
  have hstart : Ahead (s.text ++ []) [] (.start s.text) :=
    ⟨(List.append_nil _).symm, rfl, by simp [Scanner.start], rfl⟩
  rcases s.steps_text hstart endsWord_nil with ⟨sc, hsteps, hbehind⟩
  rcases Scan.ofText_of_steps hsteps hbehind.rest with ⟨ts, stop, depth, hts, hscan⟩
  -- What a text is scanned to is scanned, whichever way that came about.
  have hs : Scanned [] (ts ++ []) := by
    have h := Scan.scanned_ofText s.text
    rwa [hscan, ← List.append_nil ts] at h
  rcases s.reads 0 maxNesting hts hs (by simp [Ends]) (Nat.zero_le _) hlevels with ⟨e, he, hreads⟩
  have hending : (Scan.ofText s.text).ending = .complete stop depth := by rw [hscan]
  rw [List.append_nil, ← show (Scan.ofText s.text).tokens = ts by rw [hscan]] at hreads
  rcases parse_settles hending hreads with hok | ⟨hmany, _⟩
  · exact ⟨e, hok, he⟩
  · exact absurd (Nat.le_refl _) hmany

/-! ### Spires of every height -/

theorem Spire.plunge_pos (s : Spire) : 1 ≤ s.plunge := by
  cases s with
  | leaf => exact Nat.le_refl _
  | list inner n raised =>
      simp only [plunge]
      split <;> omega

/-- Every height up to the bound is that of a spire. From four levels on,
    evaluation goes down by more than the levels into those that are higher;
    from three levels on it goes down at least into the list. -/
theorem exists_spire (levels : Nat) : ∀ h, 1 ≤ h → h ≤ deepest levels →
    ∃ s : Spire, s.levels ≤ levels ∧ s.height = h ∧
      (3 ≤ levels → 2 ≤ h → 2 ≤ s.plunge) ∧ (4 ≤ levels → levels < h → levels < s.plunge) := by
  induction levels with
  | zero =>
      intro h hone hle
      simp only [deepest] at hle
      omega
  | succ l ih =>
      intro h hone hle
      by_cases hleaf : h = 1
      · exact ⟨.leaf, by simp only [Spire.levels]; omega, by rw [hleaf]; rfl, by omega, by omega⟩
      have hsome : 1 ≤ deepest l ∧ 1 ≤ l := by
        rcases l with _ | l
        · simp only [deepest] at hle
          omega
        · simp only [deepest]
          omega
      by_cases hmax : h = deepest (l + 1)
      · -- All levels are used: the indices, and the increment for the last of them.
        rcases ih (deepest l) hsome.1 (Nat.le_refl _) with ⟨inner, hlevels, hheight, hlist, _⟩
        have hinner := inner.plunge_pos
        simp only [deepest] at hmax
        refine ⟨.list inner (l - 1) true, ?_, ?_, fun hthree _ => ?_, fun hfour _ => ?_⟩
        · simp only [Spire.levels]
          omega
        · simp only [Spire.height, Bool.toNat_true]
          omega
        · have hindices : ¬ (l - 1 = 0) := by omega
          simp only [Spire.plunge, hindices, and_false, if_false]
          omega
        · have hindices : ¬ (l - 1 = 0) := by omega
          have hdeep : 2 ≤ deepest l := by
            rcases l with _ | _ | l
            · omega
            · omega
            · simp only [deepest]
              omega
          have htwo := hlist (by omega) hdeep
          simp only [Spire.plunge, hindices, and_false, if_false]
          omega
      · -- As many indices as there are levels or the height has room for.
        simp only [deepest] at hle hmax
        rcases ih (h - 1 - min (l - 1) (h - 2)) (by omega) (by omega) with
          ⟨inner, hlevels, hheight, hlist, _⟩
        have hinner := inner.plunge_pos
        refine ⟨.list inner (min (l - 1) (h - 2)) false, ?_, ?_, fun _ _ => ?_,
          fun hfour hhigh => ?_⟩
        · simp only [Spire.levels]
          omega
        · simp only [Spire.height, Bool.toNat_false]
          omega
        · simp only [Spire.plunge, Bool.false_eq_true, false_and, if_false]
          omega
        · have htwo := hlist (by omega) (by omega)
          simp only [Spire.plunge, Bool.false_eq_true, false_and, if_false]
          omega

/-! ### Evaluating spires -/

/-- Evaluation within fewer than `depth` levels fails for them, whatever the
    machine and the host. -/
def Sinks (depth : Nat) (e : Expr) : Prop :=
  ∀ (σ : Type) [Host σ] (budget levels : Nat) (m : Machine σ), levels < depth →
    ∃ position, (eval budget levels e m).1 = .failed ⟨.runtime, .nestedTooDeeply, position⟩

theorem sinks_one (e : Expr) : Sinks 1 e := by
  intro σ _ budget levels m hlevels
  obtain rfl : levels = 0 := by omega
  exact ⟨e.position, rfl⟩

/-- An evaluation fails where its first part does. -/
theorem failed_bind {σ α β : Type} {x : Eval σ α} {f : α → Eval σ β} {m : Machine σ}
    {error : Fault} (h : (x m).1 = .failed error) : ((x >>= f) m).1 = .failed error := by
  simp only [bind, Eval.bind]
  rcases hx : x m with ⟨outcome, m'⟩
  rw [hx] at h
  simp only at h
  subst h
  rfl

/-- A node that begins by evaluating a subtree goes down one level more. -/
theorem Sinks.succ {depth : Nat} {first e : Expr} (h : Sinks depth first)
    (hfirst : ∀ {σ : Type} [Host σ] (budget : Nat) (ev : Expr → Eval σ Value) (m : Machine σ)
      (error : Fault), (ev first m).1 = .failed error →
        (evalNode budget ev e m).1 = .failed error) : Sinks (depth + 1) e := by
  intro σ _ budget levels m hlevels
  cases levels with
  | zero => exact ⟨e.position, rfl⟩
  | succ levels =>
      -- With one level less the subtree fails, and the node with it.
      rcases h σ budget levels m.enter (by omega) with ⟨position, hfailed⟩
      exact ⟨position, hfirst budget _ m.enter _ hfailed⟩

theorem Sinks.index {depth : Nat} {left : Expr} (h : Sinks depth left) (right : Expr) (m : Mark) :
    Sinks (depth + 1) (.binary .index left right m) :=
  h.succ fun _ _ _ _ hfailed => failed_bind hfailed

theorem Sinks.array {depth : Nat} {e : Expr} (h : Sinks depth e) (es : List Expr) (m : Mark) :
    Sinks (depth + 1) (.array (e :: es) m) :=
  h.succ fun _ _ _ _ hfailed => failed_bind (failed_bind hfailed)

/-- An increment of a member begins with the receiver. -/
theorem Sinks.increment {depth : Nat} {left : Expr} (h : Sinks depth left) (right : Expr)
    (m m' : Mark) : Sinks (depth + 1) (.unary .increment (.binary .index left right m) m') :=
  h.succ fun _ _ _ _ hfailed => failed_bind (failed_bind hfailed)

theorem Sinks.indexed {depth : Nat} {e : Expr} (h : Sinks depth e) (n : Nat) :
    Sinks (depth + n) (indexed n e) := by
  induction n with
  | zero => exact h
  | succ n ih => exact ih.index _ _

theorem Spire.sinks_tree (s : Spire) : Sinks s.plunge s.tree := by
  induction s with
  | leaf => exact sinks_one _
  | list inner n raised ih =>
      have hlist := ih.array [] Expr.noMark
      -- An increment goes down past the last index, so it needs one to go down at all.
      cases raised with
      | false =>
          simp only [plunge, Bool.false_eq_true, false_and, if_false]
          exact hlist.indexed n
      | true =>
          cases n with
          | zero =>
              simp only [plunge, and_self, if_true]
              exact sinks_one _
          | succ n =>
              simp only [plunge, Nat.add_one_ne_zero, and_false, if_false]
              exact (hlist.indexed n).increment _ _ _

/-- A tree sinks as its tree without marks does. -/
theorem Sinks.of_unmarked {depth : Nat} {e : Expr} (h : Sinks depth e.unmarked) :
    Sinks depth e := by
  intro σ _ budget levels m hlevels
  rcases h σ budget levels m hlevels with ⟨position, hfailed⟩
  -- The tree itself fails for the same cause, only at another place.
  have hrelated := (eval_unmarked budget levels e m).2
  rw [hfailed] at hrelated
  cases houtcome : (eval budget levels e m).1 with
  | failed error =>
      rw [houtcome] at hrelated
      rcases error with ⟨kind, cause, position'⟩
      simp only [Outcome.Related, SameCause] at hrelated
      rcases hrelated with ⟨rfl, rfl⟩
      exact ⟨position', rfl⟩
  | value _ | unfinished =>
      rw [houtcome] at hrelated
      exact hrelated.elim

theorem deepest_maxNesting : deepest maxNesting = maxNesting * (maxNesting + 1) / 2 := by
  decide +kernel

/-- The trees of statements have every height up to the sum of the levels and no
    other. Those that are no higher than the levels can be evaluated without
    being nested too deeply; of every greater height there is one that cannot,
    by any host from any machine. -/
theorem height_of_statements (h : Nat) :
    ((∃ text e, Expr.parse text = .ok e ∧ e.height = h) ↔
      1 ≤ h ∧ h ≤ maxNesting * (maxNesting + 1) / 2) ∧
    (h ≤ maxNesting → ∀ text e, Expr.parse text = .ok e → e.height = h →
      ∀ (σ : Type) [Host σ] (budget : Nat) (m : Machine σ) (position : Nat),
        (evaluate budget e m).1 ≠ .failed ⟨.runtime, .nestedTooDeeply, position⟩) ∧
    (maxNesting < h → h ≤ maxNesting * (maxNesting + 1) / 2 →
      ∃ text e, Expr.parse text = .ok e ∧ e.height = h ∧
        ∀ (σ : Type) [Host σ] (budget : Nat) (m : Machine σ),
          ∃ position,
            (evaluate budget e m).1 = .failed ⟨.runtime, .nestedTooDeeply, position⟩) := by
  rw [← deepest_maxNesting]
  refine ⟨⟨?_, ?_⟩, ?_, ?_⟩
  · rintro ⟨text, e, hparse, rfl⟩
    exact ⟨e.height_pos, height_of_parse hparse⟩
  · rintro ⟨hone, hle⟩
    rcases exists_spire maxNesting h hone hle with ⟨s, hlevels, hheight, _⟩
    rcases s.parse_text hlevels with ⟨e, hparse, htree⟩
    refine ⟨s.text, e, hparse, ?_⟩
    rw [← Expr.height_unmarked, htree, s.height_tree, hheight]
  -- A tree that is low enough is evaluated with levels to spare.
  · intro hlow text e _ hheight σ _ budget m position hfailed
    exact not_nestedTooDeeply_of_height_le budget (hheight ▸ hlow) hfailed rfl
  -- A spire of the height in question takes evaluation down too far.
  · intro hhigh hle
    rcases exists_spire maxNesting h (by omega) hle with ⟨s, hlevels, hheight, _, hplunge⟩
    rcases s.parse_text hlevels with ⟨e, hparse, htree⟩
    refine ⟨s.text, e, hparse, ?_, fun σ _ budget m => ?_⟩
    · rw [← Expr.height_unmarked, htree, s.height_tree, hheight]
    · have hsinks : Sinks s.plunge e := Sinks.of_unmarked (htree ▸ s.sinks_tree)
      exact hsinks σ budget maxNesting m (hplunge (by decide) hhigh)

end Parse

end Scriptlet
