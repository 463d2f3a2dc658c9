import Scriptlet.Proofs.Parse.Demand
import Scriptlet.Proofs.Token.Brackets

/-!
# Depth of Reading

A text can open any number of brackets, and every one of them adds to the
priorities of what it holds. The list of its tokens has them all. Reading on
demand stops scanning where the levels are used up, so it never sees a priority
that is out of proportion to their number.

The brackets that are open and the levels that are left are counted in different
places: scanning counts a bracket when the reader looks ahead at it, and a level
is used when an expression begins behind the bracket, or when something is added
to an operand. What holds between the two is that the brackets in front of the
token ahead and the levels left make up no more than all the levels. Opening a
bracket adds one to the first and takes one from the second. The token ahead may
be one more bracket, and in front of a list one more is looked at before an
expression begins.

So a statement is read with at most one bracket more open than there are levels,
and its priorities fit a word of 32 bits with room to spare. The bound is kept by
every step that the reader takes, whether there is an answer in the end or not.

## Main definitions

* `Feed.Within`: What was done so far keeps within a number of brackets.
* `Feed.Level`: The brackets open in front of the token ahead.
* `Demand.Bounded`: Reading that keeps within a number of brackets.

## Theorems

* `Scanner.depth_of_next`, `Scanner.depth_of_fault`: The brackets open behind a step of scanning.
* `Demand.scan_bounded`: What a step of scanning keeps.
* `Demand.expression_and_extend_bounded`: What reading an expression keeps.
* `Demand.parse_within`: What reading a statement did.
* `parse_bounds_brackets`: The brackets and priorities met when a statement is read.
-/

namespace Scriptlet

/-! ### Brackets behind a token -/

namespace Token

theorem topPriority_mono {m n : Nat} (h : m ≤ n) : topPriority m ≤ topPriority n :=
  Nat.add_le_add_right (Nat.mul_le_mul_left _ h) _

theorem depthBehind_le (t : Token) : t.depthBehind ≤ t.depth + 1 := by
  unfold depthBehind
  split <;> omega

theorem depthBehind_of_not_isOpening {t : Token} (h : t.kind.isOpening = false) :
    t.depthBehind ≤ t.depth := by
  unfold depthBehind
  split
  · next hkind => rw [hkind] at h; cases h
  · exact Nat.sub_le _ _
  · exact Nat.le_refl _

end Token

/-! ### Scanning -/

namespace Scanner

variable {s s' : Scanner}

theorem length_bracketsBehind_le (brackets : List Bracket) (kind : TokenKind) :
    (bracketsBehind brackets kind).length ≤ brackets.length + 1 := by
  unfold bracketsBehind
  split
  · exact Nat.le_refl _
  · rw [List.length_tail]
    omega
  · exact Nat.le_succ _

/-- A token changes the number of open brackets by what it is. -/
theorem depth_of_next {t : Token} (h : s.next = .token t s') :
    t.depth = s.brackets.length ∧ s'.brackets.length = t.depthBehind := by
  rcases brackets_of_next h with ⟨hdepth, _, hbehind⟩
  refine ⟨hdepth, ?_⟩
  rw [hbehind]
  unfold bracketsBehind Token.depthBehind
  rw [hdepth]
  generalize t.kind = kind
  cases kind with
  | closing bracket => exact List.length_tail
  | _ => rfl

theorem depthAtFault_le (s : Scanner) (c : Char) : s.depthAtFault c ≤ s.brackets.length + 1 := by
  unfold depthAtFault
  split
  · exact length_bracketsBehind_le _ _
  · exact Nat.le_succ _

/-- A fault opens no more than one bracket. -/
theorem depth_of_fault {e : Fault} {depth : Nat} (h : s.next = .fault e depth) :
    depth ≤ s.brackets.length + 1 := by
  simp only [next, nextHere] at h
  split at h
  · simp at h
  · next c cs hrest =>
    split at h
    · simp only [Step.fault.injEq] at h
      rw [← h.2]
      exact depthAtFault_le s.skipLayout c
    · simp at h

end Scanner

/-! ### What is kept -/

/-- What was done so far: the tokens are those at the front of a text, and neither the brackets
    open nor the priorities compared go beyond a number of brackets. -/
structure Feed.Within (text : List Char) (bound : Nat) (f : Feed) : Prop where
  scanned : f.tokens.reverse ++ (Scan.run f.scanner).tokens = (Scan.ofText text).tokens
  opened : ∀ n ∈ f.opened, n ≤ bound + 1
  depth : ∀ t ∈ f.tokens, t.depth ≤ bound
  compared : ∀ c ∈ f.compared, c.1 ≤ Token.topPriority bound ∧ c.2 ≤ Token.topPriority bound

/-- At most `depth` brackets are open in front of the token ahead, and the scanner behind it has
    those that the token leaves. -/
structure Feed.Level (depth : Nat) (f : Feed) : Prop where
  front : ∀ t, f.ahead = some t → t.depth ≤ depth ∧ f.scanner.brackets.length = t.depthBehind
  behind : f.scanner.brackets.length ≤ depth + 1

namespace Feed.Level

variable {depth bound : Nat} {f : Feed} {t : Token}

theorem open_le_of_not_isOpening (h : f.Level depth) (hahead : f.ahead = some t)
    (hkind : t.kind.isOpening = false) : f.scanner.brackets.length ≤ depth := by
  rcases h.front t hahead with ⟨hfront, hbehind⟩
  have hle := Token.depthBehind_of_not_isOpening hkind
  omega

theorem open_le_of_closing {bracket : Bracket} (h : f.Level (depth + 1))
    (hahead : f.ahead = some t) (hkind : t.kind = .closing bracket) :
    f.scanner.brackets.length ≤ depth := by
  rcases h.front t hahead with ⟨hfront, hbehind⟩
  rw [Token.depthBehind, hkind] at hbehind
  simp only at hbehind
  omega

theorem priority_le (h : f.Level depth) (hahead : f.ahead = some t) (hdepth : depth ≤ bound) :
    t.priority ≤ Token.topPriority bound :=
  Token.priority_le (Nat.le_trans (h.front t hahead).1 hdepth)

end Feed.Level

namespace Demand

variable {α β : Type} {text : List Char} {bound depth : Nat}

/-- Reading that kept within a number of brackets, and that stands at most `depth` of them deep if
    there is an answer. -/
inductive Bounded (text : List Char) (bound depth : Nat) : Except Fault α × Feed → Prop where
  | ok {a : α} {f : Feed} (within : f.Within text bound) (level : f.Level depth) :
      Bounded text bound depth (.ok a, f)
  | error {e : Fault} {f : Feed} (within : f.Within text bound) :
      Bounded text bound depth (.error e, f)

variable {x : Demand α} {f : Feed} {t : Token}

theorem Bounded.within {answer : Except Fault α × Feed} (h : Bounded text bound depth answer) :
    answer.2.Within text bound := by
  cases h with
  | ok hwithin _ => exact hwithin
  | error hwithin => exact hwithin

theorem Bounded.bind {inner : Nat} (h : Bounded text bound inner (x f)) {k : α → Demand β}
    (hk : ∀ a g, g.Within text bound → g.Level inner → Bounded text bound depth (k a g)) :
    Bounded text bound depth ((x >>= k) f) := by
  rw [bind_apply]
  generalize x f = answer at h
  cases h with
  | ok hwithin hlevel => exact hk _ _ hwithin hlevel
  | error hwithin => exact .error hwithin

theorem Bounded.map (h : Bounded text bound depth (x f)) (g : α → β) :
    Bounded text bound depth ((x >>= fun a => pure (g a)) f) :=
  h.bind fun _ _ hwithin hlevel => .ok hwithin hlevel

/-- A step of scanning. The token may be one more bracket, or a fault may count as one. -/
theorem scan_bounded (hwithin : f.Within text bound) (hopen : f.scanner.brackets.length ≤ depth)
    (hdepth : depth ≤ bound) : Bounded text bound depth (scan f) := by
  unfold scan
  cases hnext : f.scanner.next with
  | done stop =>
      refine .ok ⟨hwithin.scanned, List.forall_mem_cons.2 ⟨by omega, hwithin.opened⟩, hwithin.depth,
        hwithin.compared⟩ ⟨fun t ht => ?_, Nat.le_succ_of_le hopen⟩
      cases ht
  | fault e depth' =>
      have hfault := Scanner.depth_of_fault hnext
      exact .error ⟨hwithin.scanned, List.forall_mem_cons.2 ⟨by omega, hwithin.opened⟩,
        hwithin.depth, hwithin.compared⟩
  | token t s =>
      rcases Scanner.depth_of_next hnext with ⟨hfront, hbehind⟩
      have hscanned := hwithin.scanned
      rw [Scan.run_of_token hnext] at hscanned
      have hle := t.depthBehind_le
      refine .ok ⟨?_, List.forall_mem_cons.2 ⟨by omega, hwithin.opened⟩,
        List.forall_mem_cons.2 ⟨by omega, hwithin.depth⟩, hwithin.compared⟩
        ⟨fun u hu => ?_, by simp only; omega⟩
      · simpa using hscanned
      · cases hu
        exact ⟨by omega, hbehind⟩

theorem pass_bounded (hwithin : f.Within text bound) (hopen : f.scanner.brackets.length ≤ depth)
    (hdepth : depth ≤ bound) (a : α) : Bounded text bound depth (pass a f) :=
  (scan_bounded hwithin hopen hdepth).map fun _ => a

/-! ### Reading -/

/-- A reader of expressions that keeps within a number of brackets, as long as the brackets open
    where it begins and its levels do. -/
structure Reader.Bounded (text : List Char) (bound levels : Nat) (read : Reader) : Prop where
  fresh {depth above : Nat} {f : Feed} : depth + levels ≤ bound →
    above ≤ Token.topPriority bound → f.Within text bound →
      f.scanner.brackets.length ≤ depth → Demand.Bounded text bound depth (read above true f)
  given {depth above : Nat} {f : Feed} : depth + levels ≤ bound →
    above ≤ Token.topPriority bound → f.Within text bound → f.Level depth →
      Demand.Bounded text bound depth (read above false f)

section Routines

variable {read : Reader} {levels : Nat}

theorem close_bounded (hdepth : depth ≤ bound) (hwithin : f.Within text bound)
    (hlevel : f.Level (depth + 1)) (bracket : Bracket) (a : α) :
    Bounded text bound depth (close bracket a f) := by
  rw [close, feed_bind]
  cases hahead : f.ahead with
  | none => exact .error hwithin
  | some u =>
      simp only
      split
      · next hclosed =>
        exact pass_bounded hwithin (hlevel.open_le_of_closing hahead hclosed) hdepth a
      · exact .error hwithin

theorem group_bounded (hread : Reader.Bounded text bound levels read)
    (hdepth : depth + levels < bound) (hwithin : f.Within text bound) (hlevel : f.Level depth)
    (hahead : f.ahead = some t) (bracket : Bracket) :
    Bounded text bound depth (group read bracket t f) := by
  have hle : depth ≤ bound := by omega
  have hpriority := hlevel.priority_le hahead hle
  exact (hread.fresh (by omega) hpriority hwithin hlevel.behind).bind
    fun inner g hwithin hlevel => close_bounded hle hwithin hlevel bracket inner

theorem elements_bounded (hread : Reader.Bounded text bound levels read)
    (hdepth : depth + levels < bound) {above : Nat} (habove : above ≤ Token.topPriority bound)
    (bracket : Bracket) : ∀ (rounds : Nat) {f : Feed}, f.Within text bound → f.Level (depth + 1) →
      Bounded text bound depth (elements read bracket above rounds f) := by
  intro rounds
  induction rounds with
  | zero => exact fun hwithin _ => .error hwithin
  | succ rounds ih =>
      intro f hwithin hlevel
      rw [elements, feed_bind]
      cases hahead : f.ahead with
      | none => exact .error hwithin
      | some t =>
          simp only
          split
          · next hclosed =>
            exact pass_bounded hwithin (hlevel.open_le_of_closing hahead hclosed) (by omega) []
          refine (hread.given (by omega) habove hwithin hlevel).bind fun e g hwithin hlevel => ?_
          rw [feed_bind]
          cases hahead : g.ahead with
          | none => exact .error hwithin
          | some u =>
              simp only
              split
              · next hcomma =>
                -- The comma leaves the bracket of the list open.
                have hopen := hlevel.open_le_of_not_isOpening hahead (by rw [hcomma]; rfl)
                refine (scan_bounded hwithin hopen (by omega)).bind fun _ g hwithin hlevel => ?_
                exact (ih hwithin hlevel).map (e :: ·)
              · split
                · next hclosed =>
                  exact pass_bounded hwithin (hlevel.open_le_of_closing hahead hclosed) (by omega)
                    [e]
                · exact .error hwithin

theorem list_bounded (hread : Reader.Bounded text bound levels read)
    (hdepth : depth + levels < bound) {above : Nat} (habove : above ≤ Token.topPriority bound)
    (hwithin : f.Within text bound) (hlevel : f.Level depth) (bracket : Bracket) :
    Bounded text bound depth (list read bracket above f) := by
  rw [list, feed_bind]
  exact (scan_bounded hwithin hlevel.behind (by omega)).bind fun _ g hwithin hlevel =>
    elements_bounded hread hdepth habove bracket _ hwithin hlevel

theorem operand_bounded (hread : Reader.Bounded text bound levels read)
    (hdepth : depth + levels < bound) (hwithin : f.Within text bound) (hlevel : f.Level depth)
    (hahead : f.ahead = some t) : Bounded text bound depth (operand read t f) := by
  have hle : depth ≤ bound := by omega
  have hpriority := hlevel.priority_le hahead hle
  have hopen (hkind : t.kind.isOpening = false) := hlevel.open_le_of_not_isOpening hahead hkind
  have hpass (e : Expr) (hkind : t.kind.isOpening = false) :
      Bounded text bound depth (pass e f) :=
    pass_bounded hwithin (hopen hkind) hle e
  have hinner (hkind : t.kind.isOpening = false) :
      Bounded text bound depth (read t.priority true f) :=
    hread.fresh (by omega) hpriority hwithin (hopen hkind)
  unfold operand
  generalize t.kind = kind at hpass hinner hopen ⊢
  cases kind with
  | constant value => exact hpass (.literal value t.mark) rfl
  | name name => exact hpass (.var name t.mark) rfl
  | function name =>
      refine (scan_bounded hwithin (hopen rfl) hle).bind fun _ g hwithin hlevel => ?_
      exact (list_bounded hread hdepth hpriority hwithin hlevel .round).map fun es =>
        Expr.call name es t.mark
  | operator op =>
      cases op with
      | not => exact (hinner rfl).map fun e => Expr.unary .not e t.mark
      | add => exact (hinner rfl).map fun e => Expr.binary .add (Parse.zeroAt t) e t.mark
      | subtract => exact (hinner rfl).map fun e => Expr.binary .subtract (Parse.zeroAt t) e t.mark
      | _ => exact .error hwithin
  | opening bracket =>
      cases bracket with
      | round => exact group_bounded hread hdepth hwithin hlevel hahead .round
      | square =>
          exact (list_bounded hread hdepth hpriority hwithin hlevel .square).map fun es =>
            Expr.array es t.mark
  | _ => exact .error hwithin

theorem first_bounded (hread : Reader.Bounded text bound levels read)
    (hdepth : depth + levels < bound) (hwithin : f.Within text bound) (hlevel : f.Level depth) :
    Bounded text bound depth (first read f) := by
  rw [first, feed_bind]
  cases hahead : f.ahead with
  | none => exact .error hwithin
  | some t => exact operand_bounded hread hdepth hwithin hlevel hahead

theorem addTo_bounded (hread : Reader.Bounded text bound levels read)
    (hdepth : depth + levels < bound) (hwithin : f.Within text bound) (hlevel : f.Level depth)
    (hahead : f.ahead = some t) (left : Expr) :
    Bounded text bound depth (addTo read left t f) := by
  have hindex := (group_bounded hread hdepth hwithin hlevel hahead .square).map fun i =>
    Expr.binary .index left i t.mark
  have hle : depth ≤ bound := by omega
  have hpriority := hlevel.priority_le hahead hle
  have hopen (hkind : t.kind.isOpening = false) := hlevel.open_le_of_not_isOpening hahead hkind
  unfold addTo
  generalize t.kind = kind at hopen ⊢
  cases kind with
  | operator op =>
      have hpass (e : Expr) : Bounded text bound depth (pass e f) :=
        pass_bounded hwithin (hopen rfl) hle e
      have hright := (hread.fresh (by omega) hpriority hwithin (hopen rfl)).map fun right =>
        Expr.binary op left right t.mark
      cases op with
      | increment | decrement => exact hpass _
      | _ => exact hright
  | _ => exact hindex

/-- Looking at the token ahead compares its priority, and what goes on behind an operand does so if
    the token adds to it. -/
theorem extending_bounded {above : Nat} (habove : above ≤ Token.topPriority bound)
    (hdepth : depth ≤ bound) (left : Expr) {k : Token → Demand Expr}
    (hk : ∀ {g : Feed} {t : Token}, g.Within text bound → g.Level depth → g.ahead = some t →
      Bounded text bound depth (k t g))
    (hwithin : f.Within text bound) (hlevel : f.Level depth) :
    Bounded text bound depth ((extending? above >>= fun found =>
      match found with
      | none => pure left
      | some t => k t) f) := by
  rw [bind_apply]
  cases hahead : f.ahead with
  | none =>
      rw [extending?_of_end hahead]
      exact .ok hwithin hlevel
  | some t =>
      have hpriority := hlevel.priority_le hahead hdepth
      have hwithin' : Feed.Within text bound
          { f with compared := (above, t.priority) :: f.compared } :=
        ⟨hwithin.scanned, hwithin.opened, hwithin.depth,
          List.forall_mem_cons.2 ⟨⟨habove, hpriority⟩, hwithin.compared⟩⟩
      have hlevel' : Feed.Level depth { f with compared := (above, t.priority) :: f.compared } :=
        ⟨hlevel.front, hlevel.behind⟩
      rw [extending?_of_ahead hahead]
      by_cases hgoes : t.continues above = true
      · simp only [hgoes]
        exact hk hwithin' hlevel' hahead
      · simp only [hgoes]
        exact .ok hwithin' hlevel'

end Routines

/-- Expressions and the operators behind an operand call one another, so the induction on levels is
    over both. Each step into a bracket has a level less for the bracket that it has more. -/
theorem expression_and_extend_bounded (text : List Char) (bound levels : Nat) :
    Reader.Bounded text bound levels (expression levels) ∧
      ∀ {depth above : Nat} (left : Expr) {f : Feed}, depth + levels ≤ bound →
        above ≤ Token.topPriority bound → f.Within text bound → f.Level depth →
          Bounded text bound depth (extend levels above left f) := by
  induction levels with
  | zero =>
      refine ⟨⟨fun _ _ hwithin _ => .error hwithin, fun _ _ hwithin _ => .error hwithin⟩,
        fun {depth above} left f hdepth habove hwithin hlevel => ?_⟩
      rw [extend]
      exact extending_bounded habove hdepth left (fun hwithin _ _ => .error hwithin) hwithin hlevel
  | succ levels ih =>
      rcases ih with ⟨hread, hextend⟩
      have hahead {depth above : Nat} {f : Feed} (hdepth : depth + levels < bound)
          (habove : above ≤ Token.topPriority bound) (hwithin : f.Within text bound)
          (hlevel : f.Level depth) :
          Bounded text bound depth ((first (expression levels) >>= extend levels above) f) :=
        (first_bounded hread hdepth hwithin hlevel).bind fun left g hwithin hlevel =>
          hextend left (by omega) habove hwithin hlevel
      refine ⟨⟨fun hdepth habove hwithin hopen => ?_, fun hdepth habove hwithin hlevel => ?_⟩,
        fun {depth above} left f hdepth habove hwithin hlevel => ?_⟩
      · exact (scan_bounded hwithin hopen (by omega)).bind fun _ g hwithin hlevel =>
          hahead hdepth habove hwithin hlevel
      · exact hahead hdepth habove hwithin hlevel
      · rw [extend]
        refine extending_bounded habove (by omega) left (fun hwithin hlevel hahead => ?_) hwithin
          hlevel
        exact (addTo_bounded hread hdepth hwithin hlevel hahead left).bind
          fun left g hwithin hlevel => hextend left (by omega) habove hwithin hlevel

theorem parse_within (text : List Char) : (parse text).2.Within text maxNesting := by
  have hstart : (Feed.start text).Within text maxNesting :=
    ⟨congrArg Scan.tokens (Scan.ofText_eq_run text).symm, List.forall_mem_nil _,
      List.forall_mem_nil _, List.forall_mem_nil _⟩
  have hread := (expression_and_extend_bounded text maxNesting maxNesting).1.fresh
    (Nat.le_of_eq (Nat.zero_add _)) (Nat.zero_le _) hstart (Nat.le_refl _)
  have hanswer : Bounded text maxNesting 0 (parse text) :=
    hread.bind fun e g hwithin hlevel => by
      rw [feed_bind]
      cases g.ahead with
      | none => exact .ok hwithin hlevel
      | some t => exact .error hwithin
  exact hanswer.within

end Demand

/-- Statements are read the same if their tokens are scanned on demand. Then scanning goes over a
    front part of the tokens of the text, it never has more than two brackets open beyond the levels
    that there are, the priorities compared are in proportion, and none of the priorities needs more
    than a word. -/
theorem parse_bounds_brackets (text : List Char) :
    (Demand.parse text).1 = Expr.parse text ∧
      (Demand.parse text).2.tokens.reverse <+: (Scan.ofText text).tokens ∧
      (∀ n ∈ (Demand.parse text).2.opened,
        n ≤ maxNesting + 2 ∧ (Token.wordBoost n).toNat = Token.depthBoost * n) ∧
      (∀ c ∈ (Demand.parse text).2.compared,
        c.1 ≤ 10 * (maxNesting + 2) + 10 ∧ c.2 ≤ 10 * (maxNesting + 2) + 10) ∧
      ∀ t ∈ (Demand.parse text).2.tokens, t.wordPriority.toNat = t.priority := by
  have hwithin := Demand.parse_within text
  have hword {depth : Nat} (h : depth ≤ maxNesting + 1) :
      Token.topPriority depth < UInt32.size :=
    Nat.lt_of_le_of_lt (Token.topPriority_mono h) (by decide)
  have htop : Token.topPriority maxNesting ≤ 10 * (maxNesting + 2) + 10 := by decide
  refine ⟨Demand.parse_eq text, ⟨_, hwithin.scanned⟩, fun n hn => ?_, fun c hc => ?_,
    fun t ht => ?_⟩
  · have hle := hwithin.opened n hn
    exact ⟨Nat.le_succ_of_le hle, Token.toNat_wordBoost (hword hle)⟩
  · have hle := hwithin.compared c hc
    exact ⟨Nat.le_trans hle.1 htop, Nat.le_trans hle.2 htop⟩
  · have hle := hwithin.depth t ht
    exact Token.toNat_wordPriority (hword (Nat.le_succ_of_le hle))

end Scriptlet
