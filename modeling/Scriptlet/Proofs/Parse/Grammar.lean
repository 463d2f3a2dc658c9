import Scriptlet.Proofs.Parse.Exact

/-!
# The Grammar of Expressions

Which texts are expressions, without a word about priorities. An expression is
an operand with any number of tails behind it, where a tail is an index, an
operator behind its operand, or an operator with another operand. The grammar
is flat: it does not say what the operators join, only that they may stand
where they stand.

The reader works the other way round. It stops at a comparison of priorities
and leaves what it stopped at to whoever called it, so no part of it sees the
flat sequence. The two meet in one statement about a stretch of tails:
reading above any priority takes *some* of them and leaves the others, and what
it leaves begins with one that does not bind tightly enough (`Leaves`). At the
lowest priority inside a bracket every tail binds tightly enough, so nothing is
left. That is where the brackets come in: a token inside one binds tighter than
its opening bracket does, whatever it is.

Limits of nesting are apart from all this. The tokens of a text of the grammar
have one reading, which takes some number of levels, and the text is refused
exactly if there are fewer.

## Main definitions

* `Symbol`: The symbols of the grammar.
* `Derives`: The grammar.
* `Readable`: What can be read within some number of levels.
* `Leaves`: Reading takes some tails and leaves others.
* `Complete`: All that some number of tokens can derive can be read.

## Theorems

* `derived_of_reads`: What is read is in the grammar.
* `eq_nil_of_stops`: At the lowest priority inside a bracket no tail is left.
* `complete`: Everything that can be derived can be read.
* `parse_accepts_grammar`: Statements are the texts whose tokens are in the grammar.
-/

namespace Scriptlet

namespace Parse

/-- The symbols of the grammar. -/
inductive Symbol where
  /-- An operand and the tails behind it. -/
  | expression
  /-- An atom and the signs and negations in front of it. -/
  | operand
  /-- What an expression is made of in the end. -/
  | atom
  /-- Any number of tails. -/
  | tails
  /-- What can stand behind an operand. -/
  | tail
  /-- What can stand between the brackets of a call or an array. -/
  | args
  /-- Expressions with commas between them, and perhaps one behind. -/
  | elements

/-- The grammar, over what tokens are. -/
inductive Derives : Symbol → List TokenKind → Prop where
  | expression {u v : List TokenKind} (first : Derives .operand u) (more : Derives .tails v) :
      Derives .expression (u ++ v)
  | bare {u : List TokenKind} (atom : Derives .atom u) : Derives .operand u
  | headed {op : Operator} {u : List TokenKind} (head : op = .not ∨ op = .add ∨ op = .subtract)
      (operand : Derives .operand u) : Derives .operand (.operator op :: u)
  | constant (value : Literal) : Derives .atom [.constant value]
  | name (name : String) : Derives .atom [.name name]
  | call {u : List TokenKind} (name : String) (args : Derives .args u) :
      Derives .atom (.function name :: .opening .round :: (u ++ [.closing .round]))
  | group {u : List TokenKind} (inner : Derives .expression u) :
      Derives .atom (.opening .round :: (u ++ [.closing .round]))
  | array {u : List TokenKind} (args : Derives .args u) :
      Derives .atom (.opening .square :: (u ++ [.closing .square]))
  | done : Derives .tails []
  | more {u v : List TokenKind} (tail : Derives .tail u) (more : Derives .tails v) :
      Derives .tails (u ++ v)
  | index {u : List TokenKind} (inner : Derives .expression u) :
      Derives .tail (.opening .square :: (u ++ [.closing .square]))
  | behind {op : Operator} (shape : op = .increment ∨ op = .decrement) :
      Derives .tail [.operator op]
  | between {op : Operator} {u : List TokenKind} (shape : op ≠ .increment ∧ op ≠ .decrement)
      (operand : Derives .operand u) : Derives .tail (.operator op :: u)
  | noArgs : Derives .args []
  | someArgs {u : List TokenKind} (elements : Derives .elements u) : Derives .args u
  | last {u : List TokenKind} (inner : Derives .expression u) : Derives .elements u
  | trailing {u : List TokenKind} (inner : Derives .expression u) :
      Derives .elements (u ++ [.comma])
  | comma {u v : List TokenKind} (inner : Derives .expression u) (more : Derives .elements v) :
      Derives .elements (u ++ .comma :: v)

namespace Derives

variable {u v : List TokenKind} {op : Operator}

theorem tails_append (hu : Derives .tails u) (hv : Derives .tails v) :
    Derives .tails (u ++ v) := by
  generalize hsymbol : Symbol.tails = symbol at hu
  induction hu with
  | done => simpa using hv
  | more tail _ _ ih =>
      rw [List.append_assoc]
      exact .more tail (ih rfl)
  | _ => simp at hsymbol

theorem expression_append (hu : Derives .expression u) (hv : Derives .tails v) :
    Derives .expression (u ++ v) := by
  cases hu with
  | expression first more =>
      rw [List.append_assoc]
      exact .expression first (more.tails_append hv)

/-- A sign in front of an expression belongs to its first operand. -/
theorem headed_expression (hop : op = .not ∨ op = .add ∨ op = .subtract)
    (hu : Derives .expression u) : Derives .expression (.operator op :: u) := by
  cases hu with
  | expression first more => exact .expression (.headed hop first) more

/-- An operator takes the first operand of the expression behind it, and what
    is left of that expression are further tails. -/
theorem between_expression (hop : op ≠ .increment ∧ op ≠ .decrement)
    (hu : Derives .expression u) : Derives .tails (.operator op :: u) := by
  cases hu with
  | expression first more => exact .more (.between hop first) more

theorem atom_expression (hu : Derives .atom u) : Derives .expression u := by
  have h := Derives.expression (.bare hu) .done
  rwa [List.append_nil] at h

/-- A comma with nothing behind it is the one that may trail. -/
theorem comma_args (hu : Derives .expression u) (hv : Derives .args v) :
    Derives .args (u ++ .comma :: v) := by
  cases hv with
  | noArgs => exact .someArgs (.trailing hu)
  | someArgs hv => exact .someArgs (.comma hu hv)

end Derives

/-! ### What is read is in the grammar -/

/-- The tokens that a goal takes off the front are in the grammar. -/
def Goal.Derived : Goal → (tokens rest : List Token) → Prop
  | .expression _ _, tokens, rest | .operand _, tokens, rest =>
      ∃ used, tokens = used ++ rest ∧ Derives .expression (kinds used)
  | .extend _ _ _, tokens, rest =>
      ∃ used, tokens = used ++ rest ∧ Derives .tails (kinds used)
  | .elements bracket _ _, tokens, rest =>
      ∃ used closer, tokens = used ++ closer :: rest ∧ closer.kind = .closing bracket ∧
        Derives .args (kinds used)

section Derived

variable {above : Nat} {op : Operator} {bracket : Bracket} {e e' left right : Expr}
  {es : List Expr} {t opener closer : Token} {tokens behind rest : List Token}

theorem derived_call {name : String} (hkind : t.kind = .function name)
    (hopener : opener.kind = .opening .round)
    (hlist : Goal.Derived (.elements .round above es) tokens rest) :
    Goal.Derived (.operand e) (t :: opener :: tokens) rest := by
  rcases hlist with ⟨u, closer, rfl, hclosed, hu⟩
  refine ⟨t :: opener :: (u ++ [closer]), by simp, Derives.atom_expression ?_⟩
  rw [kinds_cons, kinds_cons, kinds_append, kinds_cons, hkind, hopener, hclosed]
  exact .call name hu

theorem derived_headed (hkind : t.kind = .operator op)
    (hop : op = .not ∨ op = .add ∨ op = .subtract)
    (hinner : Goal.Derived (.expression above e) tokens rest) :
    Goal.Derived (.operand e') (t :: tokens) rest := by
  rcases hinner with ⟨u, rfl, hu⟩
  refine ⟨t :: u, rfl, ?_⟩
  rw [kinds_cons, hkind]
  exact hu.headed_expression hop

theorem derived_group (hkind : t.kind = .opening .round) (hclosed : closer.kind = .closing .round)
    (hinner : Goal.Derived (.expression above e) tokens (closer :: rest)) :
    Goal.Derived (.operand e') (t :: tokens) rest := by
  rcases hinner with ⟨u, rfl, hu⟩
  refine ⟨t :: (u ++ [closer]), by simp, Derives.atom_expression ?_⟩
  rw [kinds_cons, kinds_append, kinds_cons, hkind, hclosed]
  exact .group hu

theorem derived_array (hkind : t.kind = .opening .square)
    (hlist : Goal.Derived (.elements .square above es) tokens rest) :
    Goal.Derived (.operand e) (t :: tokens) rest := by
  rcases hlist with ⟨u, closer, rfl, hclosed, hu⟩
  refine ⟨t :: (u ++ [closer]), by simp, Derives.atom_expression ?_⟩
  rw [kinds_cons, kinds_append, kinds_cons, hkind, hclosed]
  exact .array hu

/-- The right operand was read as an expression, but to the grammar it is flat. -/
theorem derived_binary (hkind : t.kind = .operator op) (hshape : isSuffix op = false)
    (hright : Goal.Derived (.expression t.priority right) tokens behind)
    (hmore : Goal.Derived (.extend above (.binary op left right t.mark) e) behind rest) :
    Goal.Derived (.extend above left e) (t :: tokens) rest := by
  rcases hright with ⟨u, rfl, hu⟩
  rcases hmore with ⟨v, rfl, hv⟩
  refine ⟨t :: (u ++ v), by simp, ?_⟩
  rw [kinds_cons, kinds_append, hkind]
  exact (hu.between_expression (by simpa [isSuffix] using hshape)).tails_append hv

theorem derived_index (hkind : t.kind = .opening .square) (hclosed : closer.kind = .closing .square)
    (hinner : Goal.Derived (.expression t.priority right) tokens (closer :: behind))
    (hmore : Goal.Derived (.extend above (.binary .index left right t.mark) e) behind rest) :
    Goal.Derived (.extend above left e) (t :: tokens) rest := by
  rcases hinner with ⟨u, rfl, hu⟩
  rcases hmore with ⟨v, rfl, hv⟩
  refine ⟨t :: (u ++ [closer]) ++ v, by simp, ?_⟩
  rw [kinds_append, kinds_cons, kinds_append, kinds_cons, hkind, hclosed]
  exact .more (.index hu) hv

theorem derived_comma (hcomma : t.kind = .comma)
    (hfirst : Goal.Derived (.expression above e) tokens (t :: behind))
    (hlist : Goal.Derived (.elements bracket above es) behind rest) :
    Goal.Derived (.elements bracket above (e :: es)) tokens rest := by
  rcases hfirst with ⟨u, rfl, hu⟩
  rcases hlist with ⟨v, closer, rfl, hclosed, hv⟩
  refine ⟨u ++ t :: v, closer, by simp, hclosed, ?_⟩
  rw [kinds_append, kinds_cons, hcomma]
  exact hu.comma_args hv

end Derived

theorem derived_of_reads {levels : Nat} {goal : Goal} {tokens rest : List Token}
    (h : Reads levels goal tokens rest) :
    ∀ (brackets : List Bracket), Scanned (goal.inside brackets) tokens →
      goal.Derived tokens rest := by
  -- By induction on the reading, with the brackets general: they grow on the way in.
  induction h with
  | expression hfirst _ ihfirst ihmore =>
      intro brackets hs
      rcases ihfirst brackets hs with ⟨u, rfl, hu⟩
      rcases ihmore brackets (scanned_of_reads hfirst brackets hs) with ⟨v, rfl, hv⟩
      refine ⟨u ++ v, (List.append_assoc _ _ _).symm, ?_⟩
      rw [kinds_append]
      exact hu.expression_append hv
  | @constant _ value t rest hkind =>
      intro brackets _
      refine ⟨[t], rfl, Derives.atom_expression ?_⟩
      rw [kinds_cons, hkind]
      exact .constant value
  | @name _ name t rest hkind =>
      intro brackets _
      refine ⟨[t], rfl, Derives.atom_expression ?_⟩
      rw [kinds_cons, hkind]
      exact .name name
  | call hkind _ ih =>
      intro brackets hs
      -- The reader steps over the token behind the name; only scanning knows that it is a bracket.
      rcases hs.opener_of_function hkind with ⟨hopener, hinside⟩
      exact derived_call hkind hopener (ih brackets hinside)
  | not hkind _ ih =>
      intro brackets hs
      exact derived_headed hkind (.inl rfl) (ih brackets (hs.tail_of_kind hkind))
  | sign hkind hsign _ ih =>
      intro brackets hs
      exact derived_headed hkind (.inr (by simpa [isSign] using hsign))
        (ih brackets (hs.tail_of_kind hkind))
  | group hkind _ hclosed ih =>
      intro brackets hs
      exact derived_group hkind hclosed (ih (.round :: brackets) (hs.tail_of_kind hkind))
  | array hkind _ ih =>
      intro brackets hs
      exact derived_array hkind (ih brackets (hs.tail_of_kind hkind))
  | stop _ =>
      intro brackets _
      exact ⟨[], rfl, .done⟩
  | @suffix _ above op left e t tokens rest _ hkind hshape _ ih =>
      intro brackets hs
      rcases ih brackets (hs.tail_of_kind hkind) with ⟨v, rfl, hv⟩
      refine ⟨t :: v, rfl, ?_⟩
      rw [kinds_cons, hkind]
      exact .more (.behind (by simpa [isSuffix] using hshape)) hv
  | binary _ hkind hshape hright _ ihright ihmore =>
      intro brackets hs
      have hbehind := hs.tail_of_kind hkind
      exact derived_binary hkind hshape (ihright brackets hbehind)
        (ihmore brackets (scanned_of_reads hright brackets hbehind))
  | index _ hkind hinner hclosed _ ihinner ihmore =>
      intro brackets hs
      have hinside := hs.tail_of_kind hkind
      have hbehind := (scanned_of_reads hinner (.square :: brackets) hinside).tail_of_kind hclosed
      exact derived_index hkind hclosed (ihinner (.square :: brackets) hinside)
        (ihmore brackets hbehind)
  | @closed _ above bracket closer rest hclosed =>
      intro brackets _
      exact ⟨[], closer, rfl, hclosed, .noArgs⟩
  | @last _ above bracket e closer tokens rest _ hclosed ih =>
      intro brackets hs
      rcases ih (bracket :: brackets) hs with ⟨u, rfl, hu⟩
      exact ⟨u, closer, rfl, hclosed, .someArgs (.last hu)⟩
  | @comma _ above bracket e es comma tokens behind rest hinner hcomma _ ihinner ihlist =>
      intro brackets hs
      have hbehind := (scanned_of_reads hinner (bracket :: brackets) hs).tail_of_kind hcomma
      exact derived_comma hcomma (ihinner (bracket :: brackets) hs) (ihlist brackets hbehind)

/-! ### The grammar over tokens -/

section Inversion

variable {u : List Token}

/-- Tokens between brackets, from what they are. -/
theorem bracketed_of_kinds {first last : TokenKind} {ks : List TokenKind}
    (h : kinds u = first :: (ks ++ [last])) :
    ∃ t w closer, u = t :: (w ++ [closer]) ∧ t.kind = first ∧ closer.kind = last ∧
      kinds w = ks := by
  rcases List.map_eq_cons_iff.mp h with ⟨t, rest, rfl, ht, hrest⟩
  rcases List.map_eq_append_iff.mp hrest with ⟨w, v, rfl, hw, hv⟩
  rcases List.map_eq_singleton_iff.mp hv with ⟨closer, rfl, hcloser⟩
  exact ⟨t, w, closer, rfl, ht, hcloser, hw⟩

theorem expression_inv (h : Derives .expression (kinds u)) :
    ∃ v w, u = v ++ w ∧ Derives .operand (kinds v) ∧ Derives .tails (kinds w) := by
  generalize hk : kinds u = ks at h
  cases h with
  | expression first more =>
      rcases List.map_eq_append_iff.mp hk with ⟨v, w, rfl, rfl, rfl⟩
      exact ⟨v, w, rfl, first, more⟩

theorem operand_inv (h : Derives .operand (kinds u)) :
    Derives .atom (kinds u) ∨ ∃ t op w, u = t :: w ∧ t.kind = .operator op ∧
      (op = .not ∨ isSign op = true) ∧ Derives .operand (kinds w) := by
  generalize hk : kinds u = ks at h
  cases h with
  | bare atom => exact .inl atom
  | @headed op _ head operand =>
      rcases List.map_eq_cons_iff.mp hk with ⟨t, w, rfl, ht, rfl⟩
      exact .inr ⟨t, op, w, rfl, ht, by simpa [isSign] using head, operand⟩

theorem atom_inv (h : Derives .atom (kinds u)) :
    (∃ t value, u = [t] ∧ t.kind = .constant value) ∨
    (∃ t name, u = [t] ∧ t.kind = .name name) ∨
    (∃ t opener w closer name, u = t :: opener :: (w ++ [closer]) ∧ t.kind = .function name ∧
      opener.kind = .opening .round ∧ closer.kind = .closing .round ∧ Derives .args (kinds w)) ∨
    (∃ t w closer, u = t :: (w ++ [closer]) ∧ t.kind = .opening .round ∧
      closer.kind = .closing .round ∧ Derives .expression (kinds w)) ∨
    (∃ t w closer, u = t :: (w ++ [closer]) ∧ t.kind = .opening .square ∧
      closer.kind = .closing .square ∧ Derives .args (kinds w)) := by
  generalize hk : kinds u = ks at h
  cases h with
  | constant value =>
      rcases List.map_eq_singleton_iff.mp hk with ⟨t, rfl, ht⟩
      exact .inl ⟨t, value, rfl, ht⟩
  | name name =>
      rcases List.map_eq_singleton_iff.mp hk with ⟨t, rfl, ht⟩
      exact .inr (.inl ⟨t, name, rfl, ht⟩)
  | call name args =>
      rcases List.map_eq_cons_iff.mp hk with ⟨t, rest, rfl, ht, hrest⟩
      rcases bracketed_of_kinds hrest with ⟨opener, w, closer, rfl, hopener, hcloser, rfl⟩
      exact .inr (.inr (.inl ⟨t, opener, w, closer, name, rfl, ht, hopener, hcloser, args⟩))
  | group inner =>
      rcases bracketed_of_kinds hk with ⟨t, w, closer, rfl, ht, hcloser, rfl⟩
      exact .inr (.inr (.inr (.inl ⟨t, w, closer, rfl, ht, hcloser, inner⟩)))
  | array args =>
      rcases bracketed_of_kinds hk with ⟨t, w, closer, rfl, ht, hcloser, rfl⟩
      exact .inr (.inr (.inr (.inr ⟨t, w, closer, rfl, ht, hcloser, args⟩)))

theorem tails_inv (h : Derives .tails (kinds u)) :
    u = [] ∨
    (∃ t w closer v, u = t :: (w ++ closer :: v) ∧ t.kind = .opening .square ∧
      closer.kind = .closing .square ∧ Derives .expression (kinds w) ∧
      Derives .tails (kinds v)) ∨
    (∃ t op v, u = t :: v ∧ t.kind = .operator op ∧ isSuffix op = true ∧
      Derives .tails (kinds v)) ∨
    (∃ t op w v, u = t :: (w ++ v) ∧ t.kind = .operator op ∧ isSuffix op = false ∧
      Derives .operand (kinds w) ∧ Derives .tails (kinds v)) := by
  generalize hk : kinds u = ks at h
  cases h with
  | done => exact .inl (List.map_eq_nil_iff.mp hk)
  | more tail more =>
      rcases List.map_eq_append_iff.mp hk with ⟨u, v, rfl, hu, rfl⟩
      generalize hks : List.map Token.kind u = ks at hu tail
      subst hu
      cases tail with
      | index inner =>
          rcases bracketed_of_kinds hks with ⟨t, w, closer, rfl, ht, hcloser, rfl⟩
          exact .inr (.inl ⟨t, w, closer, v, by simp, ht, hcloser, inner, more⟩)
      | @behind op shape =>
          rcases List.map_eq_singleton_iff.mp hks with ⟨t, rfl, ht⟩
          exact .inr (.inr (.inl ⟨t, op, v, rfl, ht, by simpa [isSuffix] using shape, more⟩))
      | @between op _ shape operand =>
          rcases List.map_eq_cons_iff.mp hks with ⟨t, w, rfl, ht, rfl⟩
          exact .inr (.inr (.inr ⟨t, op, w, v, rfl, ht, by simpa [isSuffix] using shape,
            operand, more⟩))

theorem args_inv (h : Derives .args (kinds u)) :
    u = [] ∨ Derives .expression (kinds u) ∨
    (∃ v comma w, u = v ++ comma :: w ∧ comma.kind = .comma ∧
      Derives .expression (kinds v) ∧ Derives .args (kinds w)) := by
  generalize hk : kinds u = ks at h
  cases h with
  | noArgs => exact .inl (List.map_eq_nil_iff.mp hk)
  | someArgs elements =>
      right
      cases elements with
      | last inner => exact .inl inner
      | trailing inner =>
          -- Behind a trailing comma comes a list without elements.
          rcases List.map_eq_append_iff.mp hk with ⟨v, w, rfl, rfl, hw⟩
          rcases List.map_eq_singleton_iff.mp hw with ⟨comma, rfl, hcomma⟩
          exact .inr ⟨v, comma, [], rfl, hcomma, inner, .noArgs⟩
      | comma inner more =>
          rcases List.map_eq_append_iff.mp hk with ⟨v, w, rfl, rfl, hw⟩
          rcases List.map_eq_cons_iff.mp hw with ⟨comma, w, rfl, hcomma, rfl⟩
          exact .inr ⟨v, comma, w, rfl, hcomma, inner, .someArgs more⟩

end Inversion

/-! ### What is in the grammar can be read -/

/-- What can be read within some number of levels. -/
def Readable (goal : Goal) (tokens rest : List Token) : Prop :=
  ∃ levels, Reads levels goal tokens rest

theorem Readable.both {g g' : Goal} {tokens tokens' rest rest' : List Token}
    (h : Readable g tokens rest) (h' : Readable g' tokens' rest') :
    ∃ levels, Reads levels g tokens rest ∧ Reads levels g' tokens' rest' := by
  rcases h with ⟨levels, h⟩
  rcases h' with ⟨levels', h'⟩
  exact ⟨max levels levels', h.mono (Nat.le_max_left _ _), h'.mono (Nat.le_max_right _ _)⟩

theorem Readable.scanned {goal : Goal} {tokens rest : List Token} (h : Readable goal tokens rest)
    (brackets : List Bracket) (hs : Scanned (goal.inside brackets) tokens) :
    Scanned brackets rest := by
  rcases h with ⟨_, h⟩
  exact scanned_of_reads h brackets hs

/-- Reading takes some of the tails `v` and leaves others, of which the first
    does not bind tightly enough. -/
def Leaves (above : Nat) (goal : Expr → Goal) (tokens v rest : List Token) : Prop :=
  ∃ e w, Readable (goal e) tokens (w ++ rest) ∧ w.length ≤ v.length ∧
    Derives .tails (kinds w) ∧ ∀ t ∈ w.head?, t.continues above = false

/-- At the lowest priority inside the open brackets no tail is left. -/
theorem eq_nil_of_stops {brackets : List Bracket} {w rest : List Token} {above : Nat}
    (hw : Derives .tails (kinds w)) (hs : Scanned brackets (w ++ rest))
    (hstops : ∀ t ∈ w.head?, t.continues above = false) (habove : above ≤ 10 * brackets.length) :
    w = [] := by
  have hfalse : ∀ {t : Token} {more : List Token}, w = t :: more →
      ((∃ op, t.kind = .operator op) ∨ t.kind = .opening .square) → False := by
    rintro t more rfl hkind
    have hgoes := continues_of_scanned hs hkind habove
    rw [hstops t rfl] at hgoes
    exact absurd hgoes (by simp)
  -- Every kind of tail begins with something that continues.
  rcases tails_inv hw with h | ⟨t, _, _, _, h, hk, _⟩ | ⟨t, op, _, h, hk, _⟩ |
    ⟨t, op, _, _, h, hk, _⟩
  · exact h
  · exact (hfalse h (.inr hk)).elim
  · exact (hfalse h (.inl ⟨op, hk⟩)).elim
  · exact (hfalse h (.inl ⟨op, hk⟩)).elim

/-- An operand, and then what the operators behind it leave. -/
theorem leaves_of_operand {above : Nat} {left : Expr} {tokens v v' rest : List Token}
    (hfirst : Readable (.operand left) tokens (v' ++ rest)) (hlength : v'.length ≤ v.length)
    (hmore : Leaves above (.extend above left) (v' ++ rest) v' rest) :
    Leaves above (.expression above) tokens v rest := by
  rcases hmore with ⟨e, w, hread, hle, hw, hstops⟩
  rcases hfirst.both hread with ⟨levels, hfirst, hread⟩
  exact ⟨e, w, ⟨levels + 1, .expression hfirst hread⟩, by omega, hw, hstops⟩

/-- All that up to `n` tokens can derive can be read. -/
structure Complete (n : Nat) : Prop where
  expression : ∀ {u v rest : List Token} {brackets : List Bracket} (above : Nat),
    Derives .operand (kinds u) → Derives .tails (kinds v) → (u ++ v).length ≤ n →
      Scanned brackets (u ++ v ++ rest) → Ends rest →
        Leaves above (.expression above) (u ++ v ++ rest) v rest
  extend : ∀ {v rest : List Token} {brackets : List Bracket} (above : Nat) (left : Expr),
    Derives .tails (kinds v) → v.length ≤ n → Scanned brackets (v ++ rest) → Ends rest →
      Leaves above (.extend above left) (v ++ rest) v rest
  elements : ∀ {u rest : List Token} {closer : Token} {bracket : Bracket}
    {brackets : List Bracket} (above : Nat), Derives .args (kinds u) → u.length < n →
      Scanned (bracket :: brackets) (u ++ closer :: rest) → closer.kind = .closing bracket →
        above ≤ 10 * (brackets.length + 1) →
          ∃ es, Readable (.elements bracket above es) (u ++ closer :: rest) rest

variable {n : Nat} {brackets : List Bracket}

/-- An expression up to something that ends it, read at the lowest priority
    inside the open brackets. -/
theorem Complete.inner (hc : Complete n) {u rest : List Token} (above : Nat)
    (hu : Derives .expression (kinds u)) (hlength : u.length ≤ n)
    (hs : Scanned brackets (u ++ rest)) (hends : Ends rest)
    (habove : above ≤ 10 * brackets.length) :
    ∃ e, Readable (.expression above e) (u ++ rest) rest := by
  rcases expression_inv hu with ⟨v, w, rfl, hv, hw⟩
  rcases hc.expression above hv hw hlength hs hends with ⟨e, left, ⟨levels, hread⟩, _, hl, hstops⟩
  -- What is left would have to begin with a tail that does not bind tightly enough.
  have hnil := eq_nil_of_stops hl (scanned_of_reads hread brackets hs) hstops habove
  subst hnil
  exact ⟨e, levels, hread⟩

/-- Where the first tail does not bind tightly enough, all of them are left. -/
theorem leaves_all {above : Nat} {v rest : List Token} (left : Expr)
    (hv : Derives .tails (kinds v)) (hends : Ends rest)
    (hstops : ∀ t ∈ v.head?, t.continues above = false) :
    Leaves above (.extend above left) (v ++ rest) v rest := by
  refine ⟨left, v, ⟨0, .stop ?_⟩, Nat.le_refl _, hv, hstops⟩
  intro t ht
  rcases v with _ | ⟨u, v⟩
  · exact hends t ht above
  · exact hstops t ht

theorem Complete.extend_succ (hc : Complete n) {v rest : List Token} (above : Nat) (left : Expr)
    (hv : Derives .tails (kinds v)) (hlength : v.length ≤ n + 1)
    (hs : Scanned brackets (v ++ rest)) (hends : Ends rest) :
    Leaves above (.extend above left) (v ++ rest) v rest := by
  by_cases hstops : ∀ t ∈ v.head?, t.continues above = false
  · exact leaves_all left hv hends hstops
  -- The first tail goes to the operand, and what it leaves is shorter.
  rcases tails_inv hv with rfl | ⟨t, w, closer, v, rfl, hkind, hclosed, hw, hv⟩ |
    ⟨t, op, v, rfl, hkind, hshape, hv⟩ | ⟨t, op, w, v, rfl, hkind, hshape, hw, hv⟩
  · exact absurd (by simp) hstops
  · have hgoes : t.continues above = true := by simpa using hstops
    simp only [List.cons_append, List.append_assoc, List.length_cons, List.length_append]
      at hs hlength ⊢
    have hinside := hs.tail_of_kind hkind
    have hpriority := hs.priority_of_kind hkind
    simp only [TokenKind.basePriority] at hpriority
    -- The index is an expression of its own, read up to its closing bracket.
    rcases hc.inner t.priority hw (by omega) hinside (ends_of_kind (.inr ⟨_, hclosed⟩))
      (by simp only [Scanner.bracketsBehind, List.length_cons]; omega) with ⟨i, hinner⟩
    have hbehind : Scanned brackets (v ++ rest) :=
      (hinner.scanned (.square :: brackets) hinside).tail_of_kind hclosed
    rcases hc.extend above (.binary .index left i t.mark) hv (by omega) hbehind hends with
      ⟨e, w', hmore, hle, hw', hstops⟩
    rcases hinner.both hmore with ⟨levels, hinner, hmore⟩
    exact ⟨e, w', ⟨levels + 1, .index hgoes hkind hinner hclosed hmore⟩, by simp; omega, hw',
      hstops⟩
  · have hgoes : t.continues above = true := by simpa using hstops
    simp only [List.cons_append, List.length_cons] at hs hlength ⊢
    rcases hc.extend above (.unary op left t.mark) hv (by omega) (hs.tail_of_kind hkind) hends with
      ⟨e, w', ⟨levels, hmore⟩, hle, hw', hstops⟩
    exact ⟨e, w', ⟨levels + 1, .suffix hgoes hkind hshape hmore⟩, by simp; omega, hw', hstops⟩
  · have hgoes : t.continues above = true := by simpa using hstops
    simp only [List.cons_append, List.length_cons] at hs hlength ⊢
    have hbehind := hs.tail_of_kind hkind
    -- The right operand takes the tails that bind tighter than `t` and leaves `v'`.
    rcases hc.expression t.priority hw hv (by omega) hbehind hends with
      ⟨right, v', hright, hle', hv', _⟩
    have hs' : Scanned brackets (v' ++ rest) := hright.scanned brackets hbehind
    -- Together the operand and what is left behind it are shorter than the tails were.
    simp only [List.length_append] at hlength
    rcases hc.extend above (.binary op left right t.mark) hv' (by omega) hs' hends with
      ⟨e, w', hmore, hle, hw', hstops⟩
    rcases hright.both hmore with ⟨levels, hright, hmore⟩
    exact ⟨e, w', ⟨levels + 1, .binary hgoes hkind hshape hright hmore⟩, by simp; omega, hw',
      hstops⟩

/-- An atom is read whole, whatever follows it. -/
theorem Complete.atom (hc : Complete n) {u rest : List Token} (hu : Derives .atom (kinds u))
    (hlength : u.length ≤ n + 1) (hs : Scanned brackets (u ++ rest)) :
    ∃ e, Readable (.operand e) (u ++ rest) rest := by
  rcases atom_inv hu with ⟨t, value, rfl, hkind⟩ | ⟨t, name, rfl, hkind⟩ |
    ⟨t, opener, w, closer, name, rfl, hkind, hopener, hclosed, hw⟩ |
    ⟨t, w, closer, rfl, hkind, hclosed, hw⟩ | ⟨t, w, closer, rfl, hkind, hclosed, hw⟩
  · exact ⟨_, 0, .constant hkind⟩
  · exact ⟨_, 0, .name hkind⟩
  · simp only [List.cons_append, List.append_assoc, List.nil_append, List.length_cons,
      List.length_append] at hs hlength ⊢
    have hpriority := hs.priority_of_kind hkind
    simp only [TokenKind.basePriority] at hpriority
    rcases hc.elements t.priority hw (by omega)
      ((hs.tail_of_kind hkind).tail_of_kind hopener) hclosed
      (by simp only [Scanner.bracketsBehind]; omega) with ⟨args, levels, hargs⟩
    exact ⟨_, levels, .call hkind hargs⟩
  · simp only [List.cons_append, List.append_assoc, List.nil_append, List.length_cons,
      List.length_append] at hs hlength ⊢
    have hpriority := hs.priority_of_kind hkind
    simp only [TokenKind.basePriority] at hpriority
    rcases hc.inner t.priority hw (by omega) (hs.tail_of_kind hkind)
      (ends_of_kind (.inr ⟨_, hclosed⟩))
      (by simp only [Scanner.bracketsBehind, List.length_cons]; omega) with ⟨e, levels, hinner⟩
    exact ⟨_, levels, .group hkind hinner hclosed⟩
  · simp only [List.cons_append, List.append_assoc, List.nil_append, List.length_cons,
      List.length_append] at hs hlength ⊢
    have hpriority := hs.priority_of_kind hkind
    simp only [TokenKind.basePriority] at hpriority
    rcases hc.elements t.priority hw (by omega) (hs.tail_of_kind hkind) hclosed
      (by omega) with ⟨es, levels, hes⟩
    exact ⟨_, levels, .array hkind hes⟩

theorem ne_nil_of_operand {u : List TokenKind} (h : Derives .operand u) : u ≠ [] := by
  cases h with
  | bare atom => cases atom <;> simp
  | headed _ _ => simp

theorem Complete.expression_succ (hc : Complete n) {u v rest : List Token} (above : Nat)
    (hu : Derives .operand (kinds u)) (hv : Derives .tails (kinds v))
    (hlength : (u ++ v).length ≤ n + 1) (hs : Scanned brackets (u ++ v ++ rest))
    (hends : Ends rest) : Leaves above (.expression above) (u ++ v ++ rest) v rest := by
  rcases operand_inv hu with hatom | ⟨t, op, w, rfl, hkind, hop, hw⟩
  · have hpositive : 0 < u.length := by
      rcases u with _ | ⟨t, u⟩
      · exact absurd rfl (ne_nil_of_operand hu)
      · simp
    simp only [List.append_assoc, List.length_append] at hs hlength ⊢
    rcases hc.atom hatom (by omega) hs with ⟨left, hleft⟩
    have hbehind : Scanned brackets (v ++ rest) := hleft.scanned brackets hs
    exact leaves_of_operand hleft (Nat.le_refl _) (hc.extend above left hv (by omega) hbehind hends)
  · -- What a sign is in front of is read above its own priority, and may leave tails.
    simp only [List.cons_append, List.length_cons] at hs hlength ⊢
    rcases hc.expression t.priority hw hv (by omega) (hs.tail_of_kind hkind) hends with
      ⟨e, v', ⟨levels, hinner⟩, hle, hv', _⟩
    have hbehind := scanned_of_reads hinner brackets (hs.tail_of_kind hkind)
    have hleft : ∃ left, Readable (.operand left) (t :: (w ++ v ++ rest)) (v' ++ rest) := by
      rcases hop with rfl | hsign
      · exact ⟨_, levels, .not hkind hinner⟩
      · exact ⟨_, levels, .sign hkind hsign hinner⟩
    rcases hleft with ⟨left, hleft⟩
    simp only [List.length_append] at hlength
    exact leaves_of_operand hleft hle (hc.extend above left hv' (by omega) hbehind hends)

theorem Complete.elements_succ (hc : Complete n) {u rest : List Token} {closer : Token}
    {bracket : Bracket} (above : Nat) (hu : Derives .args (kinds u)) (hlength : u.length < n + 1)
    (hs : Scanned (bracket :: brackets) (u ++ closer :: rest))
    (hclosed : closer.kind = .closing bracket) (habove : above ≤ 10 * (brackets.length + 1)) :
    ∃ es, Readable (.elements bracket above es) (u ++ closer :: rest) rest := by
  rcases args_inv hu with rfl | hu | ⟨v, comma, w, rfl, hcomma, hv, hw⟩
  · exact ⟨[], 0, .closed hclosed⟩
  · rcases hc.inner above hu (by omega) hs (ends_of_kind (.inr ⟨_, hclosed⟩)) habove with
      ⟨e, levels, hinner⟩
    exact ⟨[e], levels, .last hinner hclosed⟩
  · simp only [List.append_assoc, List.cons_append, List.length_append, List.length_cons]
      at hs hlength ⊢
    rcases hc.inner above hv (by omega) hs (ends_of_kind (.inl hcomma)) habove with ⟨e, hinner⟩
    have hbehind : Scanned (bracket :: brackets) (w ++ closer :: rest) :=
      (hinner.scanned (bracket :: brackets) hs).tail_of_kind hcomma
    rcases hc.elements above hw (by omega) hbehind hclosed habove with ⟨es, hes⟩
    rcases hinner.both hes with ⟨levels, hinner, hes⟩
    exact ⟨e :: es, levels, .comma hinner hcomma hes⟩

theorem complete (n : Nat) : Complete n := by
  induction n with
  | zero =>
      refine ⟨fun {u v _ _} above hu _ hlength _ _ => ?_,
        fun {v _ _} above left hv hlength _ hends => ?_,
        fun _ _ hlength => absurd hlength (Nat.not_lt_zero _)⟩
      · have hnil : u ++ v = [] := List.eq_nil_of_length_eq_zero (by omega)
        exact absurd (congrArg kinds (List.append_eq_nil_iff.mp hnil).1) (ne_nil_of_operand hu)
      · -- No tails at all is the one thing to read without tokens.
        have hnil : v = [] := List.eq_nil_of_length_eq_zero (by omega)
        subst hnil
        exact leaves_all left hv hends (by simp)
  | succ n hc => exact ⟨hc.expression_succ, hc.extend_succ, hc.elements_succ⟩

/-- What is in the grammar can be read. -/
theorem readable_of_derives {tokens : List Token} (hs : Scanned [] tokens)
    (h : Derives .expression (kinds tokens)) :
    ∃ e, Readable (.expression 0 e) tokens [] := by
  have hends : Ends [] := by simp [Ends]
  rw [← List.append_nil tokens] at hs ⊢
  exact (complete tokens.length).inner 0 h (Nat.le_refl _) hs hends (Nat.zero_le _)

theorem derives_of_parse {text : List Char} {e : Expr} (h : Expr.parse text = .ok e) :
    ∃ tokens, tokenize text = .ok tokens ∧ Derives .expression (kinds tokens) := by
  rcases reads_of_parse h with ⟨hcomplete, hreads⟩
  -- Nothing is left behind a statement, so what is used are all the tokens.
  rcases derived_of_reads hreads [] (Scan.scanned_ofText text) with ⟨used, heq, hused⟩
  refine ⟨used, tokenize_eq_ok_iff.mpr ⟨hcomplete, ?_⟩, hused⟩
  rw [heq, List.append_nil]

/-- Statements are the texts whose tokens are in the grammar. Such tokens have one
    reading, with a number of levels that it takes. If there are as many, the text
    is read so, and if not, it is refused for its nesting. All other texts are
    refused. -/
theorem parse_accepts_grammar (text : List Char) :
    (∀ tokens, tokenize text = .ok tokens → Derives .expression (kinds tokens) →
      ∃ needed e, ReadsAs needed (.expression 0) e tokens [] ∧
        (needed ≤ maxNesting ∧ Expr.parse text = .ok e ∨
          maxNesting < needed ∧
            ∃ position, Expr.parse text = .error ⟨.grammatical, .nestedTooDeeply, position⟩)) ∧
    ((¬ ∃ tokens, tokenize text = .ok tokens ∧ Derives .expression (kinds tokens)) →
      ∃ error, Expr.parse text = .error error) := by
  constructor
  · intro tokens htokens hgrammar
    rcases tokenize_eq_ok_iff.mp htokens with ⟨⟨stop, depth, hending⟩, rfl⟩
    rcases readable_of_derives (Scan.scanned_ofText text) hgrammar with ⟨e, levels, hreads⟩
    rcases readsAs_of_reads hreads with ⟨needed, hexact⟩
    exact ⟨needed, e, hexact, parse_of_readsAs hending hexact⟩
  · intro hno
    cases hparse : Expr.parse text with
    | ok e => exact absurd (derives_of_parse hparse) hno
    | error error => exact ⟨error, rfl⟩

/-- A sign, an index and an operator behind its operand are in the grammar, and
    a character that begins no token is not. -/
theorem parse_accepts_indexed_increment :
    (∃ tokens needed e, tokenize "-a[b]++".toList = .ok tokens ∧
      ReadsAs needed (.expression 0) e tokens [] ∧
      (needed ≤ maxNesting ∧ Expr.parse "-a[b]++".toList = .ok e ∨
        maxNesting < needed ∧ ∃ position,
          Expr.parse "-a[b]++".toList = .error ⟨.grammatical, .nestedTooDeeply, position⟩)) ∧
    ∃ error, Expr.parse "#".toList = .error error := by
  have htokens : tokenize "-a[b]++".toList = .ok
      [⟨.operator .subtract, 0, 1, 0⟩, ⟨.name "a", 1, 2, 0⟩, ⟨.opening .square, 2, 3, 0⟩,
        ⟨.name "b", 3, 4, 1⟩, ⟨.closing .square, 4, 5, 1⟩, ⟨.operator .increment, 5, 7, 0⟩] := by
    with_unfolding_all rfl
  have hindex : Derives .tails
      ([.opening .square, .name "b", .closing .square] ++ [.operator .increment]) :=
    .more (.index (Derives.name "b").atom_expression) (.more (.behind (.inl rfl)) .done)
  have hfirst : Derives .operand [.operator .subtract, .name "a"] :=
    .headed (.inr (.inr rfl)) (.bare (.name "a"))
  have hstray : tokenize "#".toList = .error ⟨.lexical, .strayCharacter, 0⟩ := by
    with_unfolding_all rfl
  rcases (parse_accepts_grammar _).1 _ htokens (.expression hfirst hindex) with
    ⟨needed, e, hexact, hparse⟩
  refine ⟨⟨_, needed, e, htokens, hexact, hparse⟩, (parse_accepts_grammar _).2 ?_⟩
  rw [hstray]
  simp

end Parse

end Scriptlet
