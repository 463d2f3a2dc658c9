import Scriptlet.Proofs.Parse.Reads

/-!
# Reading on Demand

A statement is read from the list of its tokens, and the list is there from the
start. It would be enough to scan a token when it is asked for. This module reads
statements that way. The reader keeps one token ahead of what it has used, and
scanning stops with the reader, wherever that is.

The reader notes what it does on the way: how many brackets were open after each
step of scanning, the tokens that came out, and the priorities that it compared.
None of that can be asked of the list, which is scanned to its end also where the
reader gives up at the third token.

Both ways of reading give the same answer. The reader on demand stands at a place
of the list, with the first token there ahead of it and the others still to be
scanned. Where the list ends at a lexical fault, the reader on demand fails as soon
as it asks for the token that is not there. The other one goes on to where it needs
that token, so at that point its answer is about to be the same fault.

## Main definitions

* `Feed`: Where reading on demand stands, and what it did so far.
* `Demand`: Reading on demand.
* `Demand.scan`: One step of scanning.
* `Demand.parse`: The answer for a statement, and what was done for it.
* `Feed.At`: Standing at a place of the list of tokens.
* `Demand.Agrees`: The same answer from both ways of reading.

## Theorems

* `Demand.scan_agrees`: A step of scanning goes to the next place of the list.
* `Demand.Agrees.bind`: Agreement, one thing after another.
* `Demand.expression_and_extend_agree`: Agreement about expressions.
* `Demand.parse_eq`: Agreement about statements.
-/

namespace Scriptlet

/-- Where reading on demand stands: the scanner behind the token ahead, that token, unless the
    text has ended, and the offset at which scanning goes on. Then what it did so far, the latest
    first: the tokens scanned, the number of brackets open after each step of scanning, and the
    pairs of priorities compared. -/
structure Feed where
  scanner : Scanner
  ahead : Option Token
  cursor : Nat
  tokens : List Token
  opened : List Nat
  compared : List (Nat × Nat)

/-- Before anything is scanned. -/
def Feed.start (text : List Char) : Feed where
  scanner := .start text
  ahead := none
  cursor := 0
  tokens := []
  opened := []
  compared := []

/-- Reading on demand: an answer or an error, and where reading stands then. -/
def Demand (α : Type) := Feed → Except Fault α × Feed

instance : Monad Demand where
  pure a := fun f => (.ok a, f)
  bind x k := fun f =>
    match x f with
    | (.ok a, f) => k a f
    | (.error e, f) => (.error e, f)

namespace Demand

variable {α β : Type}

/-- Gives up. -/
def fail (e : Fault) : Demand α :=
  fun f => (.error e, f)

/-- Where reading stands. -/
def feed : Demand Feed :=
  fun f => (.ok f, f)

/-- Scans the next token, which is then the token ahead. -/
def scan : Demand Unit := fun f =>
  match f.scanner.next with
  | .done stop =>
    (.ok (), { f with
      ahead := none
      cursor := stop
      opened := f.scanner.brackets.length :: f.opened })
  | .fault e depth => (.error e, { f with opened := depth :: f.opened })
  | .token t s =>
    (.ok (), { f with
      scanner := s
      ahead := some t
      cursor := t.stop
      tokens := t :: f.tokens
      opened := s.brackets.length :: f.opened })

/-- Moves on from the token ahead, with a result. -/
def pass (a : α) : Demand α := do
  scan
  pure a

/-- The token ahead, if it adds to an operand in an expression above a priority. -/
def extending? (above : Nat) : Demand (Option Token) := fun f =>
  match f.ahead with
  | none => (.ok none, f)
  | some t =>
    (.ok (if t.continues above then some t else none),
      { f with compared := (above, t.priority) :: f.compared })

/-- How to read an expression above a priority. It begins with the token behind the token ahead, or,
    if that was looked at already, with the token ahead. -/
abbrev Reader := (above : Nat) → (fresh : Bool) → Demand Expr

/-- Moves on from the closing bracket ahead, with a result. -/
def close (bracket : Bracket) (a : α) : Demand α := do
  let f ← feed
  match f.ahead with
  | none => fail ⟨.grammatical, .closerMissing bracket, f.cursor⟩
  | some u =>
    if u.kind = .closing bracket then pass a
    else fail ⟨.grammatical, .closerMissing bracket, u.position⟩

/-- Reads what a bracket holds and its closing bracket, with the opening bracket `t` ahead. -/
def group (read : Reader) (bracket : Bracket) (t : Token) : Demand Expr := do
  let inner ← read t.priority true
  close bracket inner

/-- Reads the elements of a list up to its closing bracket, with the first token of them ahead. -/
def elements (read : Reader) (bracket : Bracket) (above : Nat) :
    (rounds : Nat) → Demand (List Expr)
  | 0 => do
    let f ← feed
    fail ⟨.grammatical, .strayToken, f.cursor⟩
  | rounds + 1 => do
    let f ← feed
    match f.ahead with
    | none => fail ⟨.grammatical, .closerMissing bracket, f.cursor⟩
    | some t =>
      if t.kind = .closing bracket then
        pass []
      else do
        let e ← read above false
        let f ← feed
        match f.ahead with
        | none => fail ⟨.grammatical, .closerMissing bracket, f.cursor⟩
        | some u =>
          if u.kind = .comma then do
            scan
            let es ← elements read bracket above rounds
            pure (e :: es)
          else if u.kind = .closing bracket then
            pass [e]
          else
            fail ⟨.grammatical, .strayToken, u.position⟩

/-- Reads a list of elements, with its opening bracket ahead. Every element takes at least one
    character, so there are enough rounds. -/
def list (read : Reader) (bracket : Bracket) (above : Nat) : Demand (List Expr) := do
  let f ← feed
  scan
  elements read bracket above (f.scanner.rest.length + 1)

/-- Reads the operand that begins with the token `t` ahead. -/
def operand (read : Reader) (t : Token) : Demand Expr :=
  match t.kind with
  | .constant value => pass (.literal value t.mark)
  | .name name => pass (.var name t.mark)
  | .function name => do
    scan
    let args ← list read .round t.priority
    pure (.call name args t.mark)
  | .operator .not => do
    let e ← read t.priority true
    pure (.unary .not e t.mark)
  | .operator .add => do
    let e ← read t.priority true
    pure (.binary .add (Parse.zeroAt t) e t.mark)
  | .operator .subtract => do
    let e ← read t.priority true
    pure (.binary .subtract (Parse.zeroAt t) e t.mark)
  | .opening .round => group read .round t
  | .opening .square => do
    let es ← list read .square t.priority
    pure (.array es t.mark)
  | _ => fail ⟨.grammatical, .operandMissing, t.position⟩

/-- Reads the operand that begins with the token ahead. -/
def first (read : Reader) : Demand Expr := do
  let f ← feed
  match f.ahead with
  | none => fail ⟨.grammatical, .expressionMissing, f.cursor⟩
  | some t => operand read t

/-- Adds the operator or indexing bracket `t` ahead to the operand `left`. -/
def addTo (read : Reader) (left : Expr) (t : Token) : Demand Expr :=
  match t.kind with
  | .operator .increment => pass (.unary .increment left t.mark)
  | .operator .decrement => pass (.unary .decrement left t.mark)
  | .operator op => do
    let right ← read t.priority true
    pure (.binary op left right t.mark)
  | _ => do
    let i ← group read .square t
    pure (.binary .index left i t.mark)

/-- Makes the first token of an expression the token ahead. -/
def enter (fresh : Bool) : Demand Unit :=
  if fresh then scan else pure ()

/-- The place to blame if there are no levels left to read an expression with. -/
def entrance (f : Feed) (fresh : Bool) : Nat :=
  if fresh then f.cursor else f.ahead.elim f.cursor Token.position

mutual

/-- Reads an expression of operators that bind tighter than `above`. -/
def expression (levels above : Nat) (fresh : Bool) : Demand Expr :=
  match levels with
  | 0 => do
    let f ← feed
    fail ⟨.grammatical, .nestedTooDeeply, entrance f fresh⟩
  | levels + 1 => do
    enter fresh
    let left ← first (expression levels)
    extend levels above left

/-- Adds to the operand `left` every operator behind it that binds tighter than `above`. -/
def extend (levels above : Nat) (left : Expr) : Demand Expr := do
  match ← extending? above with
  | none => pure left
  | some t =>
    match levels with
    | 0 => fail ⟨.grammatical, .nestedTooDeeply, t.position⟩
    | levels + 1 =>
      let left ← addTo (expression levels) left t
      extend levels above left

end

/-- Reads a statement: one expression and nothing behind it. -/
def statement : Demand Expr := do
  let e ← expression maxNesting 0 true
  let f ← feed
  match f.ahead with
  | none => pure e
  | some t => fail ⟨.grammatical, .strayToken, t.position⟩

/-- The answer for a statement, and what was done for it. -/
def parse (text : List Char) : Except Fault Expr × Feed :=
  statement (.start text)

end Demand

/-! ### The list of tokens -/

/-- Reading on demand stands at a place of a list of tokens: the first token there is ahead, and
    the others are what is still to be scanned. At the end of the text there is none of either. -/
inductive Feed.At (ending : Ending) : Feed → List Token → Prop where
  | token {f : Feed} {t : Token} {rest : List Token} (ahead : f.ahead = some t)
      (cursor : f.cursor = t.stop) (leads : t.kind.Leads rest)
      (run : Scan.run f.scanner = ⟨rest, ending⟩) : Feed.At ending f (t :: rest)
  | done {f : Feed} {depth : Nat} (ahead : f.ahead = none)
      (complete : ending = .complete f.cursor depth) : Feed.At ending f []

/-- Every token takes a character at least. -/
theorem Scan.length_tokens_le (s : Scanner) : (Scan.run s).tokens.length ≤ s.rest.length := by
  fun_induction Scan.run s with
  | case1 => exact Nat.zero_le _
  | case2 => exact Nat.zero_le _
  | case3 s t s' hnext _ more ih =>
      exact Nat.lt_of_le_of_lt ih (Scanner.length_rest_lt_of_next hnext)

namespace Demand

variable {α β : Type} {ending : Ending}

theorem bind_apply (x : Demand α) (k : α → Demand β) (f : Feed) :
    (x >>= k) f =
      match x f with
      | (.ok a, f) => k a f
      | (.error e, f) => (.error e, f) :=
  rfl

theorem feed_bind (k : Feed → Demand α) (f : Feed) : (feed >>= k) f = k f f :=
  rfl

theorem extending?_of_end {f : Feed} (h : f.ahead = none) (above : Nat) :
    extending? above f = (.ok none, f) := by
  rw [extending?, h]

theorem extending?_of_ahead {f : Feed} {t : Token} (h : f.ahead = some t) (above : Nat) :
    extending? above f =
      (.ok (if t.continues above then some t else none),
        { f with compared := (above, t.priority) :: f.compared }) := by
  rw [extending?, h]

/-- The same answer from both ways of reading. On demand, the fault that ends the tokens may be met
    where the reader of the list is only about to need another token. -/
inductive Agrees (ending : Ending) :
    Except Fault α × Feed → Except Fault (α × List Token) → Prop where
  | ok {a : α} {f : Feed} {tokens : List Token} (stands : f.At ending tokens) :
      Agrees ending (.ok a, f) (.ok (a, tokens))
  | error {e : Fault} {f : Feed} : Agrees ending (.error e, f) (.error e)
  | fault {a : α} {e : Fault} {f : Feed} {depth : Nat} (broken : ending = .broken e depth) :
      Agrees ending (.error e, f) (.ok (a, []))

variable {x : Demand α} {f : Feed} {y : Except Fault (α × List Token)}

/-- One thing after another. If the first meets the fault that ends the tokens, the second has to
    run into it. -/
theorem Agrees.bind (h : Agrees ending (x f) y) {k : α → Demand β}
    {l : α × List Token → Except Fault (β × List Token)}
    (hk : ∀ a f tokens, y = .ok (a, tokens) → f.At ending tokens →
      Agrees ending (k a f) (l (a, tokens)))
    (hfault : ∀ a e f depth, ending = .broken e depth →
      Agrees ending (.error e, f) (l (a, []))) :
    Agrees ending ((x >>= k) f) (y >>= l) := by
  rw [bind_apply]
  generalize x f = answer at h
  cases h with
  | ok hat => exact hk _ _ _ rfl hat
  | error => exact .error
  | fault hbroken => exact hfault _ _ _ _ hbroken

/-- A result that needs no more tokens. -/
theorem Agrees.map (h : Agrees ending (x f) y) (g : α → β) :
    Agrees ending ((x >>= fun a => pure (g a)) f)
      (y >>= fun answer => .ok (g answer.1, answer.2)) :=
  h.bind (fun _ _ _ _ hat => .ok hat) fun _ _ _ _ hbroken => .fault hbroken

theorem scan_agrees {tokens : List Token} (h : Scan.run f.scanner = ⟨tokens, ending⟩) :
    Agrees ending (scan f) (.ok ((), tokens)) := by
  unfold scan
  cases hnext : f.scanner.next with
  | done stop =>
      rw [Scan.run_of_done hnext] at h
      cases h
      exact .ok (.done rfl rfl)
  | fault e depth =>
      rw [Scan.run_of_fault hnext] at h
      cases h
      exact .fault rfl
  | token t s =>
      rw [Scan.run_of_token hnext] at h
      cases h
      exact .ok (.token rfl rfl (Scan.leads_run hnext) rfl)

theorem pass_agrees {tokens : List Token} (h : Scan.run f.scanner = ⟨tokens, ending⟩) (a : α) :
    Agrees ending (pass a f) (.ok (a, tokens)) :=
  (scan_agrees h).map fun _ => a

/-! ### Agreement -/

/-- Two readers of expressions that agree, whether the first token has been looked at or not. -/
structure Reader.Agrees (ending : Ending) (read : Reader) (reader : Parse.Reader) : Prop where
  fresh (above : Nat) {f : Feed} {tokens : List Token} :
    Scan.run f.scanner = ⟨tokens, ending⟩ →
      Demand.Agrees ending (read above true f) (reader above f.cursor tokens)
  given (above : Nat) {f : Feed} {t : Token} {rest : List Token} :
    f.At ending (t :: rest) →
      Demand.Agrees ending (read above false f) (reader above t.position (t :: rest))

/-- Where more tokens are needed than there are, the list says what ended them. -/
theorem blame_of_broken {e : Fault} {depth : Nat} (h : ending = .broken e depth)
    (cause : Cause) (f : Feed) :
    Agrees ending (.error e, f) (.error (ending.blame cause) : Except _ (α × List Token)) := by
  subst h
  exact .error

theorem blame_of_done {f : Feed} (hcursor : ∃ depth, ending = .complete f.cursor depth)
    (cause : Cause) :
    Agrees ending (.error ⟨.grammatical, cause, f.cursor⟩, f)
      (.error (ending.blame cause) : Except _ (α × List Token)) := by
  rcases hcursor with ⟨depth, rfl⟩
  exact .error

section Routines

variable {read : Reader} {reader : Parse.Reader} {levels : Nat} {f : Feed}

theorem close_agrees (bracket : Bracket) (a : α) (tokens : List Token) :
    f.At ending tokens → Agrees ending (close bracket a f) (match tokens with
      | [] => .error (ending.blame (.closerMissing bracket))
      | u :: rest =>
        if u.kind = .closing bracket then .ok (a, rest)
        else .error ⟨.grammatical, .closerMissing bracket, u.position⟩) := by
  intro hat
  rw [close, feed_bind]
  cases hat with
  | done hahead hcomplete =>
      rw [hahead]
      exact blame_of_done ⟨_, hcomplete⟩ _
  | token hahead _ _ hrun =>
      rw [hahead]
      simp only
      split
      · exact pass_agrees hrun a
      · exact .error

theorem group_agrees (hread : Reader.Agrees ending read reader) (bracket : Bracket) {t : Token}
    {rest : List Token} (hat : f.At ending (t :: rest)) :
    Agrees ending (group read bracket t f) (Parse.group ending reader bracket t rest) := by
  rcases hat with ⟨_, hcursor, _, hrun⟩
  refine (hcursor ▸ hread.fresh t.priority hrun).bind
    (fun inner f behind _ hat => close_agrees bracket inner behind hat)
    fun inner e f depth hbroken => blame_of_broken hbroken _ f

theorem elements_agrees (hread : Reader.Agrees ending read reader)
    (hbacked : Parse.Backed levels reader) (bracket : Bracket) (above : Nat) :
    ∀ (rounds rounds' : Nat) {f : Feed} {tokens : List Token}, f.At ending tokens →
      tokens.length < rounds → tokens.length ≤ rounds' →
        Agrees ending (elements read bracket above rounds f)
          (Parse.elements ending reader bracket above rounds' tokens) := by
  intro rounds
  -- Every round takes a token, so the rounds of both readers outlast the tokens.
  induction rounds with
  | zero => exact fun _ _ _ _ hlength _ => absurd hlength (Nat.not_lt_zero _)
  | succ rounds ih =>
      intro rounds' f tokens hat hlength hlength'
      cases hat with
      | done hahead hcomplete =>
          rw [elements, feed_bind, hahead, Parse.elements]
          exact blame_of_done ⟨_, hcomplete⟩ _
      | @token t rest hahead hcursor hleads hrun =>
          rcases rounds' with _ | rounds'
          · exact absurd hlength' (Nat.not_succ_le_zero _)
          rw [elements, feed_bind, hahead, Parse.elements]
          simp only
          split
          · exact pass_agrees hrun []
          refine (hread.given above (.token hahead hcursor hleads hrun)).bind
            (fun e f behind hanswer hat => ?_)
            fun e e' f depth hbroken => blame_of_broken hbroken _ f
          have hshorter : behind.length < (t :: rest).length :=
            Parse.length_lt_of_reads_expression (hbacked hanswer)
          rw [feed_bind]
          cases hat with
          | done hahead hcomplete =>
              rw [hahead]
              exact blame_of_done ⟨_, hcomplete⟩ _
          | @token u more hahead _ _ hrun =>
              rw [hahead]
              simp only
              split
              · refine (scan_agrees hrun).bind (l := fun answer =>
                  Parse.elements ending reader bracket above rounds' answer.2 >>= fun answer =>
                    .ok (e :: answer.1, answer.2)) (fun _ f tokens htokens hat => ?_)
                  fun _ e f depth hbroken => ?_
                · cases htokens
                  simp only [List.length_cons] at hlength hlength' hshorter
                  exact (ih rounds' hat (by omega) (by omega)).map (e :: ·)
                · rw [Parse.elements]
                  exact blame_of_broken hbroken _ f
              · split
                · exact pass_agrees hrun [e]
                · exact .error

theorem list_agrees (hread : Reader.Agrees ending read reader)
    (hbacked : Parse.Backed levels reader) (bracket : Bracket) (above : Nat) {tokens : List Token}
    (hrun : Scan.run f.scanner = ⟨tokens, ending⟩) :
    Agrees ending (list read bracket above f) (Parse.list ending reader bracket above tokens) := by
  have hlength : tokens.length ≤ f.scanner.rest.length := by
    have hle := Scan.length_tokens_le f.scanner
    rwa [hrun] at hle
  rw [list, feed_bind]
  refine (scan_agrees hrun).bind (l := fun answer =>
    Parse.list ending reader bracket above answer.2) (fun _ g tokens htokens hat => ?_)
    fun _ e f depth hbroken => blame_of_broken hbroken _ f
  cases htokens
  exact elements_agrees hread hbacked bracket above _ _ hat (Nat.lt_succ_of_le hlength)
    (Nat.le_refl _)

theorem operand_agrees (hread : Reader.Agrees ending read reader)
    (hbacked : Parse.Backed levels reader) {t : Token} {rest : List Token}
    (hat : f.At ending (t :: rest)) :
    Agrees ending (operand read t f) (Parse.operand ending reader t rest) := by
  have hgroup := group_agrees hread .round hat
  rcases hat with ⟨_, hcursor, hleads, hrun⟩
  have hinner := hcursor ▸ hread.fresh t.priority hrun
  unfold operand Parse.operand
  generalize t.kind = kind at hleads ⊢
  cases kind with
  | constant value => exact pass_agrees hrun (Expr.literal value t.mark)
  | name name => exact pass_agrees hrun (Expr.var name t.mark)
  | function name =>
      -- The list sees the bracket that made the name a function only by dropping it.
      rcases hleads with ⟨opener, more, rfl, _⟩
      refine (scan_agrees hrun).bind (l := fun answer =>
        Parse.list ending reader .round t.priority answer.2.tail >>= fun answer =>
          .ok (Expr.call name answer.1 t.mark, answer.2)) (fun _ g tokens htokens hat => ?_)
        fun _ e f depth hbroken => blame_of_broken hbroken _ f
      cases htokens
      rcases hat with ⟨_, _, _, hrun⟩
      exact (list_agrees hread hbacked .round t.priority hrun).map fun es =>
        Expr.call name es t.mark
  | operator op =>
      cases op with
      | not => exact hinner.map fun e => Expr.unary .not e t.mark
      | add => exact hinner.map fun e => Expr.binary .add (Parse.zeroAt t) e t.mark
      | subtract => exact hinner.map fun e => Expr.binary .subtract (Parse.zeroAt t) e t.mark
      | _ => exact .error
  | opening bracket =>
      cases bracket with
      | round => exact hgroup
      | square =>
          exact (list_agrees hread hbacked .square t.priority hrun).map fun es =>
            Expr.array es t.mark
  | _ => exact .error

theorem first_agrees (hread : Reader.Agrees ending read reader)
    (hbacked : Parse.Backed levels reader) (tokens : List Token) :
    f.At ending tokens → Agrees ending (first read f) (match tokens with
      | [] => .error (ending.blame .expressionMissing)
      | t :: rest => Parse.operand ending reader t rest) := by
  intro hat
  rw [first, feed_bind]
  cases hat with
  | done hahead hcomplete =>
      rw [hahead]
      exact blame_of_done ⟨_, hcomplete⟩ _
  | token hahead hcursor hleads hrun =>
      rw [hahead]
      exact operand_agrees hread hbacked (.token hahead hcursor hleads hrun)

theorem addTo_agrees (hread : Reader.Agrees ending read reader) (left : Expr) {t : Token}
    {rest : List Token} (hat : f.At ending (t :: rest)) :
    Agrees ending (addTo read left t f) (Parse.addTo ending reader left t rest) := by
  have hindex := (group_agrees hread .square hat).map fun i => Expr.binary .index left i t.mark
  rcases hat with ⟨_, hcursor, _, hrun⟩
  have hright (op : Operator) := (hcursor ▸ hread.fresh t.priority hrun).map fun right =>
    Expr.binary op left right t.mark
  unfold addTo Parse.addTo
  generalize t.kind = kind
  cases kind with
  | operator op =>
      cases op with
      | increment => exact pass_agrees hrun (Expr.unary .increment left t.mark)
      | decrement => exact pass_agrees hrun (Expr.unary .decrement left t.mark)
      | _ => exact hright _
  | _ => exact hindex

/-- What goes on behind an operand if the token ahead adds to it. -/
theorem extending_agrees (above : Nat) (left : Expr) {k : Token → Demand Expr}
    {l : Token → List Token → Except Fault (Expr × List Token)}
    (hk : ∀ {g : Feed} {t : Token} {rest : List Token}, g.At ending (t :: rest) →
      Agrees ending (k t g) (l t rest)) (tokens : List Token) :
    f.At ending tokens →
      Agrees ending ((extending? above >>= fun found =>
          match found with
          | none => pure left
          | some t => k t) f)
        (match tokens with
          | [] => .ok (left, [])
          | t :: rest => if t.continues above then l t rest else .ok (left, t :: rest)) := by
  intro hat
  rw [bind_apply]
  cases hat with
  | done hahead hcomplete =>
      rw [extending?_of_end hahead]
      exact .ok (.done hahead hcomplete)
  | @token t rest hahead hcursor hleads hrun =>
      rw [extending?_of_ahead hahead]
      by_cases hgoes : t.continues above = true
      · simp only [hgoes]
        exact hk (.token hahead hcursor hleads hrun)
      · simp only [hgoes]
        exact .ok (.token hahead hcursor hleads hrun)

end Routines

/-- The same answer about expressions and about the operators behind an operand, which call one
    another, so the induction on levels is over both. -/
theorem expression_and_extend_agree (ending : Ending) (levels : Nat) :
    Reader.Agrees ending (expression levels) (Parse.expression ending levels) ∧
      ∀ (above : Nat) (left : Expr) {f : Feed} (tokens : List Token), f.At ending tokens →
        Agrees ending (extend levels above left f)
          (Parse.extend ending levels above left tokens) := by
  induction levels with
  | zero =>
      refine ⟨⟨fun above f tokens hrun => .error, fun above f t rest hat => ?_⟩,
        fun above left f tokens hat => ?_⟩
      · rcases hat with ⟨hahead, _, _, _⟩
        rw [expression, feed_bind, entrance, hahead]
        exact .error
      · rw [extend]
        have h := extending_agrees above left
          (k := fun t => fail ⟨.grammatical, .nestedTooDeeply, t.position⟩)
          (l := fun t _ => .error ⟨.grammatical, .nestedTooDeeply, t.position⟩)
          (fun _ => .error) tokens hat
        cases tokens <;> exact h
  | succ levels ih =>
      rcases ih with ⟨hread, hextend⟩
      have hbacked : Parse.Backed levels (Parse.expression ending levels) :=
        Parse.reads_of_expression
      -- With the first token ahead, however it came there.
      have hahead (above position : Nat) {f : Feed} (tokens : List Token)
          (hat : f.At ending tokens) :
          Agrees ending ((first (expression levels) >>= extend levels above) f)
            (Parse.expression ending (levels + 1) above position tokens) := by
        have h := (first_agrees hread hbacked tokens hat).bind
          (l := fun answer => Parse.extend ending levels above answer.1 answer.2)
          (fun left f tokens _ hat => hextend above left tokens hat)
          fun left e f depth hbroken => by rw [Parse.extend]; exact .fault hbroken
        cases tokens <;> exact h
      refine ⟨⟨fun above f tokens hrun => ?_, fun above f t rest hat => ?_⟩,
        fun above left f tokens hat => ?_⟩
      · exact (scan_agrees hrun).bind (l := fun answer =>
            Parse.expression ending (levels + 1) above f.cursor answer.2)
          (fun _ g tokens _ hat => hahead above f.cursor tokens hat)
          fun _ e f depth hbroken => blame_of_broken hbroken _ f
      · exact hahead above t.position (t :: rest) hat
      · rw [extend]
        have h := extending_agrees above left
          (k := fun t => addTo (expression levels) left t >>= extend levels above)
          (l := fun t rest => Parse.addTo ending (Parse.expression ending levels) left t rest >>=
            fun answer => Parse.extend ending levels above answer.1 answer.2)
          (fun hat => (addTo_agrees hread left hat).bind
            (fun left f tokens _ hat => hextend above left tokens hat)
            fun left e f depth hbroken => ?_) tokens hat
        · cases tokens <;> exact h
        · rw [Parse.extend]
          exact .fault hbroken

theorem parse_eq (text : List Char) : (parse text).1 = Expr.parse text := by
  have hrun : Scan.run (Feed.start text).scanner =
      ⟨(Scan.ofText text).tokens, (Scan.ofText text).ending⟩ := (Scan.ofText_eq_run text).symm
  have h := (expression_and_extend_agree (Scan.ofText text).ending maxNesting).1.fresh 0 hrun
  rw [parse, statement, bind_apply, Expr.parse, Parse.statement]
  change Agrees _ _ (Parse.expression (Scan.ofText text).ending maxNesting 0 0 _) at h
  generalize expression maxNesting 0 true (.start text) = x at h ⊢
  generalize Parse.expression (Scan.ofText text).ending maxNesting 0 0 (Scan.ofText text).tokens = y
    at h ⊢
  generalize (Scan.ofText text).ending = ending at h ⊢
  cases h with
  | error => rfl
  | fault hbroken => subst hbroken; rfl
  | ok hat =>
      simp only [feed_bind]
      cases hat with
      | done hahead hcomplete => rw [hahead, hcomplete]; rfl
      | token hahead => rw [hahead]; rfl

end Demand

end Scriptlet
