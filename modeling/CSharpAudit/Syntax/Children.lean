import CSharpAudit.Syntax.Node

/-!
# The children of a node

Every traversal of a syntax tree goes through `Node.children`, the list of the nodes directly below
a node in the order in which they are visited. Each child is smaller than its parent, which gives
recursion and induction over trees without mention of the single constructs.

## Main definitions

* `Node.children` — the nodes directly below a node, in visiting order
* `Node.fold` — recursion over a tree from the results for the children

## Main results

* `Node.allBelow_children` — the children of a node are made of less than the node
* `Node.sizeOf_lt_of_mem_children` — a child is smaller than its parent
* `Node.induction_on_children` — induction over trees
-/

namespace CSharpAudit

namespace Node

/-- The nodes directly below a node, in visiting order. The type arguments of a member access and
the type parameters of a delegate are not visited, and of a constructor initialiser only the
arguments are. -/
def children : Node → List Node
  | unit d =>
    d.attributes.map .attribute ++ d.usings.map .usingDirective
      ++ d.fileScopedNamespace.toList.map .namespaceDecl ++ d.members
  | usingDirective _ => []
  | namespaceDecl d => d.usings.map .usingDirective ++ d.members
  | .attribute a => a.args.map .argument
  | typeParam _ => []
  | .constraint c => c.types.map .type
  | typeDecl d =>
    d.attributes.map .attribute ++ d.typeParams.map .typeParam ++ d.primaryParams.map .param
      ++ d.baseTypes.map .type ++ d.constraints.map .constraint
      ++ d.enumMembers ++ d.members
  | enumMember _ _ attributes value => attributes.map .attribute ++ value.toList
  | delegate d =>
    d.attributes.map .attribute ++ [.type d.returnType] ++ d.params.map .param
  | method d =>
    d.attributes.map .attribute ++ [.type d.returnType] ++ d.typeParams.map .typeParam
      ++ d.constraints.map .constraint ++ d.params.map .param ++ d.body.toList
      ++ d.exprBody.toList
  | constructor d =>
    d.attributes.map .attribute ++ d.params.map .param
      ++ d.chainedArgs.map .argument ++ d.body.toList ++ d.exprBody.toList
  | accessor _ _ _ body exprBody => body.toList ++ exprBody.toList
  | property d =>
    d.attributes.map .attribute ++ [.type d.type] ++ d.indexParams.map .param
      ++ d.accessors ++ d.exprBody.toList ++ d.initializer.toList
  | varDeclarator d => d.init.toList
  | field d => d.attributes.map .attribute ++ [.type d.type] ++ d.vars.map .varDeclarator
  | event d => d.attributes.map .attribute ++ [.type d.type] ++ d.accessors
  | type t => t.args.map .type
  | param p => p.attributes.map .attribute ++ p.type.toList.map .type ++ p.default.toList
  | block _ stmts => stmts
  | emptyStmt _ => []
  | exprStmt _ x => [x]
  | localDecl _ ty _ _ vars => ty.toList.map .type ++ vars.map .varDeclarator
  | localFunc _ f => [.method f]
  | ifStmt _ cond t e => [cond, t] ++ e.toList
  | forStmt _ init cond post body => init ++ cond.toList ++ post ++ [body]
  | foreachStmt _ ty _ _ collection body _ => ty.toList.map .type ++ [collection, body]
  | whileStmt _ cond body => [cond, body]
  | doStmt _ body cond => [body, cond]
  | caseLabel _ value patternType _ guard =>
    value.toList ++ patternType.toList.map .type ++ guard.toList
  | switchSection _ labels stmts => labels ++ stmts
  | switchStmt _ tag sections => tag :: sections
  | usingStmt _ decl resource body _ => decl.toList ++ resource.toList ++ body.toList
  | catchClause _ ty _ filter body => ty.toList.map .type ++ filter.toList ++ [body]
  | tryStmt _ body catches finallyBlock => body :: catches ++ finallyBlock.toList
  | returnStmt _ x => x.toList
  | breakStmt _ => []
  | continueStmt _ => []
  | throwStmt _ x => x.toList
  | lockStmt _ x body => [x, body]
  | yieldStmt _ _ x => x.toList
  | gotoStmt _ _ => []
  | labeledStmt _ _ s => [s]
  | checkedStmt _ _ body => [body]
  | ident _ _ typeArgs => typeArgs.map .type
  | literal _ _ _ => []
  | thisExpr _ => []
  | baseExpr _ => []
  | predefinedType _ _ => []
  | memberAccess _ x _ _ _ => [x]
  | argument a => [a.value]
  | invocation _ callee args => callee :: args.map .argument
  | elementAccess _ x args _ => x :: args.map .argument
  | unary _ _ x _ => [x]
  | binary _ _ x y => [x, y]
  | assign _ _ lhs rhs => [lhs, rhs]
  | conditional _ cond t e => [cond, t, e]
  | newExpr _ ty args init arraySize =>
    ty.toList.map .type ++ args.map .argument ++ arraySize ++ init
  | lambda _ params body _ => params.map .param ++ [body]
  | cast _ ty x => [.type ty, x]
  | isExpr _ x ty pattern _ _ => x :: ty.toList.map .type ++ pattern.toList
  | asExpr _ x ty => [x, .type ty]
  | typeOf _ _ ty => [.type ty]
  | defaultExpr _ => []
  | paren _ x => [x]
  | initializer _ elems => elems
  | await _ x => [x]
  | throwExpr _ x => [x]
  | tuple _ elems => elems.map .argument
  | declExpr _ ty _ => ty.toList.map .type
  | switchExpr _ x arms => x :: arms
  | switchArm _ pattern guard value => pattern :: guard.toList ++ [value]

/-! ### Children are smaller -/

/-- All nodes of a list are smaller than a number. -/
def AllBelow (k : Nat) (l : List Node) : Prop := ∀ c ∈ l, sizeOf c < k

namespace AllBelow

variable {α : Type} [SizeOf α] {k : Nat} {f : α → Node}

theorem nil : AllBelow k [] := by simp [AllBelow]

theorem cons_iff {n : Node} {l : List Node} : AllBelow k (n :: l) ↔ sizeOf n < k ∧ AllBelow k l :=
  List.forall_mem_cons

theorem append_iff {l₁ l₂ : List Node} :
    AllBelow k (l₁ ++ l₂) ↔ AllBelow k l₁ ∧ AllBelow k l₂ := List.forall_mem_append

theorem of_sizeOf_lt {l : List Node} (h : sizeOf l < k) : AllBelow k l := fun _ hc =>
  Nat.lt_trans (List.sizeOf_lt_of_mem hc) h

/-- The nodes are larger by one than what they are made of, and a list is larger still. -/
theorem map (hf : ∀ a, sizeOf (f a) = 1 + sizeOf a) {l : List α} (h : sizeOf l < k) :
    AllBelow k (l.map f) := by
  intro c hc
  obtain ⟨a, ha, rfl⟩ := List.mem_map.mp hc
  have := List.sizeOf_lt_of_mem ha
  rw [hf]
  omega

theorem toList {o : Option Node} (h : sizeOf o < k) : AllBelow k o.toList := by
  cases o with
  | none => exact nil
  | some a => exact cons_iff.mpr ⟨by simp at h; omega, nil⟩

theorem toList_map (hf : ∀ a, sizeOf (f a) = 1 + sizeOf a) {o : Option α} (h : sizeOf o < k) :
    AllBelow k (o.toList.map f) := by
  cases o with
  | none => exact nil
  | some a => exact cons_iff.mpr ⟨by simp at h; rw [hf]; omega, nil⟩

end AllBelow

/-- The children of a node are made of less than the node, one case for each construct. -/
theorem allBelow_children (n : Node) : AllBelow (sizeOf n) n.children := by
  have hspan (s : Span) : 0 < sizeOf s := by cases s; simp only [Span.mk.sizeOf_spec]; omega
  cases n
  -- most declarations have their parts in a record
  case' unit d | usingDirective d | namespaceDecl d | «attribute» d | typeParam d | «constraint» d
      | typeDecl d | delegate d | method d | constructor d | property d | varDeclarator d
      | field d | event d | type d | param d | argument d => cases d
  all_goals simp only [children, AllBelow.append_iff, AllBelow.cons_iff, AllBelow.nil, and_true]
  all_goals simp (disch := omega) [AllBelow.map attribute.sizeOf_spec,
    AllBelow.map usingDirective.sizeOf_spec, AllBelow.map typeParam.sizeOf_spec,
    AllBelow.map constraint.sizeOf_spec, AllBelow.map param.sizeOf_spec,
    AllBelow.map type.sizeOf_spec, AllBelow.map varDeclarator.sizeOf_spec,
    AllBelow.map argument.sizeOf_spec, AllBelow.toList_map namespaceDecl.sizeOf_spec,
    AllBelow.toList_map type.sizeOf_spec, AllBelow.toList, AllBelow.of_sizeOf_lt]
  -- what is left is a node that stands for a type alone, beside a span
  all_goals
    have := hspan ‹Span›
    omega

theorem sizeOf_lt_of_mem_children {c n : Node} (h : c ∈ n.children) : sizeOf c < sizeOf n :=
  allBelow_children n c h

/-- Induction over trees: a property that holds of a node whenever it holds of its children holds of
every node. -/
theorem induction_on_children {P : Node → Prop} (step : ∀ n, (∀ c ∈ n.children, P c) → P n)
    (n : Node) : P n :=
  step n fun c _ => induction_on_children step c
termination_by sizeOf n
decreasing_by exact sizeOf_lt_of_mem_children ‹_›

/-- Recursion over trees: the value of a node from the values of its children. -/
def fold {α : Type} (f : Node → List α → α) (n : Node) : α :=
  f n (n.children.attach.map fun ⟨c, _⟩ => fold f c)
termination_by sizeOf n
decreasing_by exact sizeOf_lt_of_mem_children ‹_›

theorem fold_eq {α : Type} (f : Node → List α → α) (n : Node) :
    n.fold f = f n (n.children.map (fold f)) := by
  rw [fold]
  simp

end Node

end CSharpAudit
