import Scriptlet.Expr.Source

/-!
# The Shape of a Tree

Two views of a tree that statements about whole trees are made with. `nodes`
lists what is in it, so a law about every operator is a statement about members
of a list and needs no predicate of its own for "everywhere in". `unmarked`
forgets where the nodes came from. Trees that agree without their marks are the
same program read from different texts, and everything that does not look at
marks cannot tell them apart.

## Main definitions

* `Expr.nodes`: The nodes of a tree, the root first.
* `Expr.Allowed`: Trees that have only nodes of some kind.
* `Expr.unmarked`: A tree with every mark at nothing.
* `Expr.unmarkedIf`: A tree that may have kept its marks.

## Theorems

* `mem_nodesOf`: The nodes of a list of trees are the nodes of its members.
* `nodes_subset`, `height_lt_of_mem_tail`: The nodes of a part of a tree, and their height.
* `height_unmarked`, `path_unmarked`, `source_unmarked`: What does not look at marks.
-/

namespace Scriptlet

namespace Expr

mutual

/-- The nodes of a tree, each with all that is below it. -/
def nodes : Expr → List Expr
  | literal value m => [literal value m]
  | var name m => [var name m]
  | unary op operand m => unary op operand m :: operand.nodes
  | binary op left right m => binary op left right m :: (left.nodes ++ right.nodes)
  | array elements m => array elements m :: nodesOf elements
  | call name args m => call name args m :: nodesOf args

/-- The nodes of a list of trees. -/
def nodesOf : List Expr → List Expr
  | [] => []
  | e :: es => e.nodes ++ nodesOf es

end

theorem mem_nodesOf {n : Expr} {es : List Expr} : n ∈ nodesOf es ↔ ∃ e ∈ es, n ∈ e.nodes := by
  induction es with
  | nil => simp [nodesOf]
  | cons e es ih => simp [nodesOf, ih]

theorem mem_nodes_self (e : Expr) : e ∈ e.nodes := by
  cases e <;> exact List.mem_cons_self

mutual

theorem nodes_subset {n : Expr} (e : Expr) (h : n ∈ e.nodes) : n.nodes ⊆ e.nodes := by
  intro c hc
  cases e with
  | literal _ _ | var _ _ =>
      rw [List.mem_singleton.mp h] at hc
      exact hc
  | unary _ operand _ =>
      rcases List.mem_cons.mp h with rfl | h
      · exact hc
      · exact List.mem_cons_of_mem _ (nodes_subset operand h hc)
  | binary _ left right _ =>
      rcases List.mem_cons.mp h with rfl | h
      · exact hc
      · rcases List.mem_append.mp h with h | h
        · exact List.mem_cons_of_mem _ (List.mem_append_left _ (nodes_subset left h hc))
        · exact List.mem_cons_of_mem _ (List.mem_append_right _ (nodes_subset right h hc))
  | array elements _ =>
      rcases List.mem_cons.mp h with rfl | h
      · exact hc
      · exact List.mem_cons_of_mem _ (nodesOf_subset elements h hc)
  | call _ args _ =>
      rcases List.mem_cons.mp h with rfl | h
      · exact hc
      · exact List.mem_cons_of_mem _ (nodesOf_subset args h hc)

theorem nodesOf_subset {n : Expr} (es : List Expr) (h : n ∈ nodesOf es) :
    n.nodes ⊆ nodesOf es := by
  intro c hc
  cases es with
  | nil => exact absurd h List.not_mem_nil
  | cons e es =>
      rcases List.mem_append.mp h with h | h
      · exact List.mem_append_left _ (nodes_subset e h hc)
      · exact List.mem_append_right _ (nodesOf_subset es h hc)

end

theorem height_pos (e : Expr) : 0 < e.height := by
  cases e <;> simp only [height] <;> omega

theorem eq_or_mem_tail {n : Expr} {e : Expr} (h : n ∈ e.nodes) : n = e ∨ n ∈ e.nodes.tail := by
  cases e <;> exact List.mem_cons.mp h

theorem height_le_of_tail {n e : Expr} (htail : n ∈ e.nodes.tail → n.height < e.height)
    (h : n ∈ e.nodes) : n.height ≤ e.height := by
  rcases eq_or_mem_tail h with rfl | h
  · exact Nat.le_refl _
  · exact Nat.le_of_lt (htail h)

mutual

/-- What is below the root of a tree is lower than the tree. -/
theorem height_lt_of_mem_tail {n : Expr} (e : Expr) (h : n ∈ e.nodes.tail) :
    n.height < e.height := by
  cases e with
  | literal _ _ | var _ _ => exact absurd h List.not_mem_nil
  | unary op operand m =>
      have hle := height_le_of_tail (height_lt_of_mem_tail operand) h
      simp only [height]
      omega
  | binary op left right m =>
      simp only [height]
      rcases List.mem_append.mp h with h | h
      · have hle := height_le_of_tail (height_lt_of_mem_tail left) h
        omega
      · have hle := height_le_of_tail (height_lt_of_mem_tail right) h
        omega
  | array elements m =>
      have hle := height_le_of_mem_nodesOf elements h
      simp only [height]
      omega
  | call name args m =>
      have hle := height_le_of_mem_nodesOf args h
      simp only [height]
      omega

theorem height_le_of_mem_nodesOf {n : Expr} (es : List Expr) (h : n ∈ nodesOf es) :
    n.height ≤ heights es := by
  cases es with
  | nil => exact absurd h List.not_mem_nil
  | cons e es =>
      simp only [heights]
      rcases List.mem_append.mp h with h | h
      · have hle := height_le_of_tail (height_lt_of_mem_tail e) h
        omega
      · have hle := height_le_of_mem_nodesOf es h
        omega

end

/-! ### Trees with allowed nodes -/

/-- A tree with allowed nodes only. -/
def Allowed (allowed : Expr → Prop) (e : Expr) : Prop :=
  ∀ n ∈ e.nodes, allowed n

namespace Allowed

variable {allowed : Expr → Prop} {e : Expr}

theorem self (h : e.Allowed allowed) : allowed e :=
  h e (mem_nodes_self e)

/-- A tree with allowed nodes has parts with allowed nodes. -/
theorem part (h : e.Allowed allowed) {n : Expr} (hn : n ∈ e.nodes) : n.Allowed allowed :=
  fun c hc => h c (nodes_subset e hn hc)

end Allowed

/-! ### Trees without marks -/

/-- The mark that says nothing. -/
def noMark : Mark :=
  ⟨0, 0⟩

mutual

/-- A tree without its marks. -/
def unmarked : Expr → Expr
  | literal value _ => literal value noMark
  | var name _ => var name noMark
  | unary op operand _ => unary op operand.unmarked noMark
  | binary op left right _ => binary op left.unmarked right.unmarked noMark
  | array elements _ => array (unmarkedAll elements) noMark
  | call name args _ => call name (unmarkedAll args) noMark

/-- Trees without their marks. -/
def unmarkedAll : List Expr → List Expr
  | [] => []
  | e :: es => e.unmarked :: unmarkedAll es

end

mutual

theorem height_unmarked (e : Expr) : e.unmarked.height = e.height := by
  cases e with
  | literal _ _ | var _ _ => rfl
  | unary _ operand _ => simp only [unmarked, height, height_unmarked operand]
  | binary _ left right _ =>
      simp only [unmarked, height, height_unmarked left, height_unmarked right]
  | array elements _ => simp only [unmarked, height, heights_unmarked elements]
  | call _ args _ => simp only [unmarked, height, heights_unmarked args]

theorem heights_unmarked (es : List Expr) : heights (unmarkedAll es) = heights es := by
  cases es with
  | nil => rfl
  | cons e es => simp only [unmarkedAll, heights, height_unmarked e, heights_unmarked es]

end

theorem path_unmarked (e : Expr) : e.unmarked.path = e.path := by
  cases e with
  | literal value _ => cases value <;> rfl
  | unary _ operand _ => simp only [unmarked, path, path_unmarked operand]
  | binary _ left right _ => simp only [unmarked, path, path_unmarked left, path_unmarked right]
  | var _ _ | array _ _ | call _ _ _ => rfl

theorem operator?_unmarked (e : Expr) : e.unmarked.operator? = e.operator? := by
  cases e <;> rfl

theorem name?_unmarked (e : Expr) : e.unmarked.name? = e.name? := by
  cases e <;> rfl

theorem bracketed_unmarked (e : Expr) (text : String) :
    bracketed e.unmarked text = bracketed e text := by
  cases e <;> rfl

theorem memberSource_unmarked (op : Operator) (receiver : String) (right : Expr)
    (member : String) :
    memberSource op receiver right.unmarked member = memberSource op receiver right member := by
  cases right with
  | literal value _ => cases value <;> cases op <;> rfl
  | _ => cases op <;> rfl

mutual

/-- How a tree is written does not depend on where it was read. -/
theorem source_unmarked (e : Expr) : e.unmarked.source = e.source := by
  cases e with
  | literal _ _ | var _ _ => rfl
  | unary op operand _ =>
      have ih := source_unmarked operand
      cases op <;> simp only [unmarked, source, ih, bracketed_unmarked]
  | binary op left right _ =>
      have ihleft := source_unmarked left
      have ihright := source_unmarked right
      simp only [unmarked, source, ihleft, ihright, bracketed_unmarked, memberSource_unmarked]
  | array elements _ => simp only [unmarked, source, sources_unmarked elements]
  | call _ args _ => simp only [unmarked, source, sources_unmarked args]

theorem sources_unmarked (es : List Expr) : sources (unmarkedAll es) = sources es := by
  cases es with
  | nil => rfl
  | cons e es => simp only [unmarkedAll, sources, source_unmarked e, sources_unmarked es]

end

theorem unmarkedAll_eq_map (es : List Expr) : unmarkedAll es = es.map unmarked := by
  induction es with
  | nil => rfl
  | cons e es ih => rw [unmarkedAll, ih, List.map_cons]

/-- A tree without its marks if it is to be bare, and as it is otherwise. -/
def unmarkedIf : Bool → Expr → Expr
  | true, e => e.unmarked
  | false, e => e

/-- The mark of a node of such a tree. -/
def markIf : Bool → Mark → Mark
  | true, _ => noMark
  | false, m => m

section UnmarkedIf

variable (bare : Bool)

theorem unmarkedIf_literal (value : Literal) (m : Mark) :
    (literal value m).unmarkedIf bare = literal value (markIf bare m) := by
  cases bare <;> rfl

theorem unmarkedIf_var (name : String) (m : Mark) :
    (var name m).unmarkedIf bare = var name (markIf bare m) := by
  cases bare <;> rfl

theorem unmarkedIf_unary (op : Operator) (operand : Expr) (m : Mark) :
    (unary op operand m).unmarkedIf bare = unary op (operand.unmarkedIf bare) (markIf bare m) := by
  cases bare <;> rfl

theorem unmarkedIf_binary (op : Operator) (left right : Expr) (m : Mark) :
    (binary op left right m).unmarkedIf bare =
      binary op (left.unmarkedIf bare) (right.unmarkedIf bare) (markIf bare m) := by
  cases bare <;> rfl

theorem map_unmarkedIf (es : List Expr) :
    es.map (unmarkedIf bare) = match bare with | true => unmarkedAll es | false => es := by
  cases bare with
  | true => exact (unmarkedAll_eq_map es).symm
  | false => exact List.map_id es

theorem unmarkedIf_array (elements : List Expr) (m : Mark) :
    (array elements m).unmarkedIf bare =
      array (elements.map (unmarkedIf bare)) (markIf bare m) := by
  rw [map_unmarkedIf]
  cases bare <;> rfl

theorem unmarkedIf_call (name : String) (args : List Expr) (m : Mark) :
    (call name args m).unmarkedIf bare =
      call name (args.map (unmarkedIf bare)) (markIf bare m) := by
  rw [map_unmarkedIf]
  cases bare <;> rfl

theorem path_unmarkedIf (e : Expr) : (e.unmarkedIf bare).path = e.path := by
  cases bare with
  | true => exact path_unmarked e
  | false => rfl

theorem name?_unmarkedIf (e : Expr) : (e.unmarkedIf bare).name? = e.name? := by
  cases bare with
  | true => exact name?_unmarked e
  | false => rfl

theorem operator?_unmarkedIf (e : Expr) : (e.unmarkedIf bare).operator? = e.operator? := by
  cases bare with
  | true => exact operator?_unmarked e
  | false => rfl

theorem eq_var_of_unmarkedIf {bare : Bool} {e : Expr} {name : String} {m : Mark}
    (h : e.unmarkedIf bare = var name m) : ∃ m', e = var name m' := by
  cases bare with
  | false => exact ⟨m, h⟩
  | true =>
      cases e with
      | var name' m' =>
          injection h with hname
          exact ⟨m', by rw [hname]⟩
      | literal _ _ | unary _ _ _ | binary _ _ _ _ | array _ _ | call _ _ _ =>
          exact Expr.noConfusion h

theorem source_unmarkedIf (e : Expr) : (e.unmarkedIf bare).source = e.source := by
  cases bare with
  | true => exact source_unmarked e
  | false => rfl

end UnmarkedIf

end Expr

end Scriptlet
