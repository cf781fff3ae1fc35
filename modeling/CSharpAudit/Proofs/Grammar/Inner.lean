import CSharpAudit.Proofs.Grammar.Placement
import CSharpAudit.Proofs.Properness

/-!
# What the grammar reads inside members

Expressions, patterns and statements have no declarations below them, local functions apart. Each
production builds its node from what it has read, so all that has to be known of the parts is that
they are inner nodes themselves. Nested constructs are read by productions that are assumed to read
inner nodes, which an induction on the depth then provides.

## Main definitions

* `Grammar.Only` — all nodes that a parser reads have a property
* `Grammar.Rules.Proper` — what is assumed of the productions for nested constructs

## Main results

* `Grammar.Only.repeatWhile`, `Grammar.Only.extend` — what a loop reads its rounds have read
* `Grammar.inner_expr`, `Grammar.inner_statement` — expressions and statements are inner nodes
-/

namespace CSharpAudit

attribute [local simp] NodeKind.node Node.children or_imp forall_and

namespace Grammar

variable {α β : Type} {p q : Parser α} {f : α → Parser β} {test : Parser Bool}

/-! ### What a parser reads -/

/-- All nodes that a value holds have a property. -/
def All [Layered α] (P : Node → Prop) (a : α) : Prop := ∀ n ∈ Layered.nodes a, P n

/-- All nodes that a parser reads have a property. -/
def Only [Layered α] (P : Node → Prop) (p : Parser α) : Prop := Returns p (All P)

variable {P : Node → Prop}

/-- Of a node, the property is asked of the node itself. -/
@[simp] theorem all_node [NodeKind α] {a : α} : All P a ↔ P (NodeKind.node a) :=
  List.forall_mem_singleton

@[simp] theorem all_span (s : Span) : All P s := fun _ hn => absurd hn List.not_mem_nil

section Only

variable [Layered α] [Layered β]

/-- Of a list, the property is asked of every element. -/
@[simp] theorem all_list {as : List α} : All P as ↔ ∀ a ∈ as, All P a := by
  simp only [All, Layered.nodes, List.mem_flatMap]
  grind

@[simp] theorem all_option {o : Option α} : All P o ↔ ∀ a, o = some a → All P a := by
  cases o <;> simp [All, Layered.nodes]

/-- Of a pair, the property is asked of both parts. -/
@[simp] theorem all_prod {a : α × β} : All P a ↔ All P a.1 ∧ All P a.2 :=
  List.forall_mem_append

/-- A weaker property is kept by more parsers. -/
theorem Only.imp {Q : Node → Prop} (h : Only P p) (hPQ : ∀ n, P n → Q n) : Only Q p :=
  fun x c r hr n hn => hPQ n (h x c r hr n hn)

/-- An optional part returns what its parser does, or nothing. -/
theorem Only.optionalPart (h : Only P p) : Only P (optionalPart test p) := by
  intro x c r hr
  simpa using Returns.optionalPart h x c r hr

theorem Only.optionalList {p : Parser (List α)} (h : Only P p) : Only P (optionalList test p) :=
  .branch h (.pure (by simp))

/-- A parser that is only tried returns what it would return. -/
theorem Only.attempt (h : Only P p) : Only P (attempt p) := by
  intro x c r hr
  rw [Grammar.attempt] at hr
  cases hp : p x c with
  | ok b =>
    rw [hp] at hr
    obtain rfl := Except.ok.inj hr
    simpa using h x c b hp
  | error e =>
    rw [hp] at hr
    cases he : e.cause.isEndless <;> simp [he] at hr
    simp [← hr]

theorem Only.unlessEnd {cause : SyntaxError.Cause} (h : Only P p) : Only P (unlessEnd cause p) :=
  .branch .fail h

theorem Only.repeatFuel (h : Only P p) (fuel : Nat) : Only P (repeatFuel test p fuel) := by
  induction fuel with
  | zero => exact .fail
  | succ fuel ih =>
    refine .bind fun left => .branch ?_ (.pure (by simp))
    refine h.then fun a ha => (Returns.nextRound ih).then fun as has => .pure ?_
    simpa using ⟨ha, by simpa using has⟩

/-- A loop returns nodes of the kind its rounds return. -/
theorem Only.repeatWhile (h : Only P p) : Only P (repeatWhile test p) :=
  .bind fun _ => h.repeatFuel _

theorem Only.moreItems (h : Only P p) : Only P (moreItems p) := h.repeatWhile

/-- A list with commas returns nodes of the kind its items are. -/
theorem Only.separated (h : Only P p) : Only P (separated p) := by
  refine h.then fun a ha => h.moreItems.then fun as has => .pure ?_
  simpa using ⟨ha, by simpa using has⟩

theorem Only.listUntilFuel {closing : String} (h : Only P p) (fuel : Nat) :
    Only P (listUntilFuel closing p fuel) := by
  induction fuel with
  | zero => exact .fail
  | succ fuel ih =>
    refine .bind fun left => .branch (.pure (by simp)) ?_
    refine h.then fun a ha => .branch ?_ (.pure (by simpa using ha))
    refine (Returns.nextRound ih).then fun as has => .pure ?_
    simpa using ⟨ha, by simpa using has⟩

theorem Only.listUntil {closing : String} (h : Only P p) : Only P (listUntil closing p) :=
  .bind fun _ => h.listUntilFuel _

/-- A bracketed list returns nodes of the kind its items are. -/
theorem Only.enclosed {opening closing : String} (h : Only P p) :
    Only P (enclosed opening closing p) :=
  .bind fun _ => h.listUntil.then fun _ has => .bind fun _ => .pure has

/-- A loop that grows a value keeps a property that each of its steps keeps. -/
theorem Only.extend {step : α → Parser (Option α)} {a : α}
    (h : ∀ a, All P a → Only P (step a)) (ha : All P a) : Only P (extend step a) := by
  refine Returns.extend (fun a ha x c r hr => ?_) ha
  simpa using h a ha x c r hr

end Only

/-! ### Values that hold nodes -/

@[simp] theorem all_creation {P : Node → Prop} {c : Creation} :
    All P c ↔ All P c.type ∧ All P c.args ∧ All P c.sizes :=
  all_prod.trans (and_congr_right' all_prod)

@[simp] theorem all_header {P : Node → Prop} {h : Header} : All P h ↔ All P h.attributes := Iff.rfl

@[simp] theorem all_body {P : Node → Prop} {b : Body} : All P b ↔ All P b.block ∧ All P b.expr :=
  all_prod

/-- The productions that a nested construct may start again read proper nodes, and inside members
only inner ones. -/
structure Rules.Proper (rules : Rules) : Prop where
  expr : Only Node.Inner rules.expr
  unary : Only Node.Inner rules.unary
  binary (minimum : Nat) : Only Node.Inner (rules.binary minimum)
  pattern : Only Node.Inner rules.pattern
  primaryPattern : Only Node.Inner rules.primaryPattern
  initializer : Only Node.Inner rules.initializer
  block : Only Node.Inner rules.block
  statement : Only Node.Inner rules.statement
  member : Only Node.Proper rules.member
  namespaceDecl : Only Node.Proper rules.namespaceDecl

/-- A node that declares nothing is inner when the nodes below it are. -/
theorem Returns.inner [NodeKind α] {a : α} (hn : (NodeKind.node a).declares = false)
    (hbelow : ∀ c ∈ (NodeKind.node a).children, c.Inner) :
    Returns (Pure.pure a) (All Node.Inner) :=
  .pure (all_node.mpr (.intro hn hbelow))

theorem Returns.some_inner {n : Node} (hn : n.declares = false)
    (hbelow : ∀ c ∈ n.children, c.Inner) : Returns (Pure.pure (some n)) (All Node.Inner) :=
  .pure (by simpa using Node.Inner.intro hn hbelow)

theorem Returns.none_inner : Returns (Pure.pure (none : Option Node)) (All Node.Inner) :=
  .pure (by simp)

theorem Only.some {p : Parser Node} (h : Only Node.Inner p) :
    Only Node.Inner (do return some (← p)) :=
  h.then fun x hx => .pure (by simpa using hx)

section Productions

variable {self : Rules} (hself : self.Proper)
include hself

/-! ### Attributes, arguments and parameters -/

theorem inner_argumentValue (modifier : String) : Only Node.Inner (argumentValue self modifier) := by
  refine .branch ?_ hself.expr
  exact .bind fun _ => .bind fun _ => .bind fun _ => .bind fun _ => .inner rfl (by simp)

theorem inner_argument : Only Node.Inner (argument self) := by
  refine .bind fun _ => .bind fun _ => .bind fun modifier => ?_
  refine (inner_argumentValue hself modifier).then fun value hvalue => ?_
  exact .bind fun _ => .inner rfl (by simpa using hvalue)

theorem inner_arguments (opening closing : String) :
    Only Node.Inner (arguments self opening closing) := (inner_argument hself).enclosed

theorem inner_oneAttribute (target : String) : Only Node.Inner (oneAttribute self target) := by
  refine .bind fun _ => .bind fun _ => .bind fun _ => ?_
  refine (inner_arguments hself "(" ")").optionalList.then fun args hargs => ?_
  exact .bind fun _ => .inner rfl (by simpa using hargs)

theorem inner_attributeGroup : Only Node.Inner (attributeGroup self) := by
  refine .bind fun _ => .bind fun target => ?_
  refine (inner_oneAttribute hself target).then fun first hfirst => ?_
  refine (inner_oneAttribute hself target).repeatWhile.then fun more hmore => ?_
  exact .bind fun _ => .pure (by simp_all)

theorem inner_attributes : Only Node.Inner (attributes self) := by
  refine (inner_attributeGroup hself).repeatWhile.then fun groups hgroups => .pure ?_
  refine all_list.mpr fun a ha => ?_
  obtain ⟨group, hgroup, ha⟩ := List.mem_flatten.mp ha
  exact all_list.mp (all_list.mp hgroups group hgroup) a ha

theorem inner_param : Only Node.Inner (param self) := by
  refine .bind fun _ => (inner_attributes hself).optionalList.then fun attributes hattributes => ?_
  refine .bind fun _ => .bind fun _ => .bind fun _ => ?_
  refine hself.expr.optionalPart.then fun default hdefault => ?_
  exact .bind fun _ => .inner rfl (by simp_all)

theorem inner_params (opening closing : String) :
    Only Node.Inner (params self opening closing) := (inner_param hself).enclosed

/-! ### Lambdas -/

theorem inner_lambdaParam : Only Node.Inner (lambdaParam self) := by
  refine .bind fun _ => .bind fun _ => .branch ?_ <| inner_param hself
  exact .bind fun _ => .inner rfl (by simp)

theorem inner_lambdaBody : Only Node.Inner (lambdaBody self) :=
  .branch hself.block hself.expr

theorem inner_lambdaFrom? (isAsync : Bool) (lead : Nat) :
    Only Node.Inner (lambdaFrom? self isAsync lead) := by
  refine .bind fun _ => .bind fun _ => .branch ?_ ?_
  · refine .bind fun _ => .bind fun name => .bind fun _ => ?_
    refine (inner_lambdaBody hself).then fun body hbody => ?_
    have hname : (Node.param ⟨name.span, name.text, name.span, none, "", none, []⟩).Inner :=
      .intro rfl (by simp)
    exact .bind fun _ => .some_inner rfl (by simp_all)
  refine .branch (.bind fun c => ?_) .none_inner
  cases closingParen? 0 (c.rest.drop lead) with
  | none => exact .none_inner
  | some n =>
    refine .branch ?_ .none_inner
    refine .bind fun _ => (inner_lambdaParam hself).enclosed.then fun params hparams => ?_
    refine .bind fun _ => (inner_lambdaBody hself).then fun body hbody => ?_
    exact .bind fun _ => .some_inner rfl (by simp_all)

/-- Lambdas hold statements in their bodies, which declare nothing outside of local
functions. -/
theorem inner_lambda? : Only Node.Inner (lambda? self) :=
  .bind fun _ => .bind fun _ => .bind fun _ => .bind fun _ => inner_lambdaFrom? hself _ _

/-! ### Primary expressions -/

theorem inner_initializerElement : Only Node.Inner (initializerElement self) := by
  refine .branch ?_ hself.expr
  exact hself.initializer.then fun ⟨elems, span⟩ helems => .inner rfl (by simpa using helems)

theorem inner_initializer : Only Node.Inner (initializer self) := by
  refine .bind fun _ => (inner_initializerElement hself).enclosed.then fun elems helems => ?_
  exact .bind fun span => .pure (all_prod.mpr ⟨helems, all_span span⟩)

theorem inner_initializerExpr : Only Node.Inner (initializerExpr self) :=
  (inner_initializer hself).then fun ⟨elems, span⟩ helems => .inner rfl (by simpa using helems)

theorem inner_optionalInitializer : Only Node.Inner (optionalInitializer self) := by
  refine .branch ?_ <| .pure (by simp)
  exact (inner_initializer hself).then fun x hx => .pure (all_prod.mp hx).1

theorem inner_arraySizes : Only Node.Inner (arraySizes self) := by
  refine (inner_arguments hself "[" "]").then fun args hargs => .pure (all_list.mpr fun x hx => ?_)
  obtain ⟨a, ha, rfl⟩ := List.mem_map.mp hx
  exact all_node.mpr ((all_node.mp (all_list.mp hargs a ha)).child rfl List.mem_cons_self)

theorem inner_typedCreation : Only Node.Inner (typedCreation self) := by
  refine .bind fun _ => .branch ?_ ?_
  · refine (inner_arraySizes hself).then fun sizes hsizes => ?_
    exact .bind fun _ => .pure (by simpa using hsizes)
  · refine (inner_arguments hself "(" ")").optionalList.then fun args hargs => .pure ?_
    simpa using hargs

theorem inner_creation : Only Node.Inner (creation self) := by
  refine .branch ?_ <| .branch ?_ ?_
  · exact (inner_arguments hself "(" ")").then fun args hargs => .pure (by simpa using hargs)
  · exact .bind fun _ => .pure (by simp)
  · exact .branch (.pure (by simp)) <| inner_typedCreation hself

theorem inner_newExpr : Only Node.Inner (newExpr self) := by
  refine .bind fun _ => .bind fun _ => (inner_creation hself).then fun made hmade => ?_
  refine (inner_optionalInitializer hself).then fun init hinit => ?_
  exact .bind fun _ => .inner rfl (by simp_all [-IsEmpty.forall_iff])

theorem inner_stackallocExpr : Only Node.Inner (stackallocExpr self) := by
  refine .bind fun _ => .bind fun _ => .bind fun _ => ?_
  refine (inner_arraySizes hself).optionalList.then fun sizes hsizes => ?_
  refine (inner_optionalInitializer hself).then fun init hinit => ?_
  exact .bind fun _ => .inner rfl (by simp_all)

theorem inner_keywordPrimary (t : Token) : Only Node.Inner (keywordPrimary self t) := by
  unfold keywordPrimary
  split
  case h_1 | h_2 | h_3 | h_4 | h_5 => exact .bind fun _ => .bind fun _ => .inner rfl (by simp)
  case h_6 => exact inner_newExpr hself
  case h_7 => exact inner_stackallocExpr hself
  case h_8 | h_9 => exact .bind fun _ => .bind fun _ => .bind fun _ => .inner rfl (by simp)
  case h_10 =>
    refine .bind fun _ => .branch ?_ ?_
    · exact .bind fun _ => .bind fun _ => .inner rfl (by simp)
    · exact .bind fun _ => .inner rfl (by simp)
  case h_11 | h_12 =>
    refine .bind fun _ => .bind fun _ => hself.expr.then fun x hx => ?_
    exact .bind fun _ => .bind fun _ => .inner rfl (by simpa using hx)
  case h_13 =>
    refine .bind fun _ => (inner_params hself "(" ")").optionalList.then fun params hparams => ?_
    exact hself.block.then fun body hbody => .bind fun _ => .inner rfl (by simp_all)
  case h_14 =>
    refine .ite ?_ .failAt
    exact .bind fun _ => .bind fun _ => .inner rfl (by simp)

theorem inner_parenOrTuple : Only Node.Inner (parenOrTuple self) := by
  refine .bind fun _ => .bind fun _ => (inner_argument hself).then fun first hfirst => ?_
  refine .branch (.ite ?_ .fail) ?_
  · have hvalue : first.value.Inner := (all_node.mp hfirst).child rfl (by simp)
    exact .bind fun _ => .inner rfl (by simpa using hvalue)
  · refine (inner_argument hself).moreItems.then fun more hmore => ?_
    exact .bind fun _ => .bind fun _ => .inner rfl (by simp_all)

theorem inner_primary : Only Node.Inner (primary self) := by
  refine .bind fun t => ?_
  cases literalKind? t.kind with
  | some kind => exact .bind fun _ => .bind fun _ => .inner rfl (by simp)
  | none =>
    refine .ite ?_ <| .ite (inner_keywordPrimary hself t) <| .ite (inner_parenOrTuple hself) <|
      .ite ?_ <| .ite (inner_initializerExpr hself) .failAt
    · exact .bind fun _ => .bind fun _ => .bind fun _ => .inner rfl (by simp)
    · refine (inner_arraySizes hself).then fun elems helems => ?_
      exact .bind fun _ => .inner rfl (by simpa using helems)

/-! ### Postfix forms and unary expressions -/

/-- A postfix form is put around an inner node. -/
theorem inner_suffix (start : Nat) {x : Node} (hx : x.Inner) :
    Only Node.Inner (suffix self start x) := by
  have hargs (opening closing : String) {make : Span → List (Argument Node) → Node}
      (hmake : ∀ s args, (make s args).declares = false ∧
        (make s args).children = x :: args.map .argument) :
      Only Node.Inner (do
        let args ← arguments self opening closing
        return some (make (← spanFrom start) args)) := by
    refine (inner_arguments hself opening closing).then fun args hargs => ?_
    refine .bind fun s => .some_inner (hmake s args).1 ?_
    rw [(hmake s args).2]
    exact List.forall_mem_cons.mpr ⟨hx, by simpa using hargs⟩
  refine .branch ?_ <| .bind fun _ => .bind fun _ => .branch ?_ <| .branch ?_ <| .branch ?_ <|
    .branch ?_ <| .bind fun _ => .branch ?_ .none_inner
  · refine .bind fun _ => .bind fun _ => .bind fun _ => .bind fun _ => ?_
    exact .some_inner rfl (by simpa using hx)
  · exact .bind fun _ => hargs "[" "]" fun s args => ⟨rfl, rfl⟩
  · exact hargs "(" ")" fun s args => ⟨rfl, rfl⟩
  · exact hargs "[" "]" fun s args => ⟨rfl, rfl⟩
  · exact .bind fun _ => .bind fun _ => .some_inner rfl (by simpa using hx)
  · exact .bind fun _ => .bind fun _ => .some_inner rfl (by simpa using hx)

theorem inner_switchArm : Only Node.Inner (switchArm self) := by
  refine .bind fun _ => hself.pattern.then fun pattern hpattern => ?_
  refine hself.expr.optionalPart.then fun guard hguard => .bind fun _ => ?_
  exact hself.expr.then fun value hvalue => .bind fun _ => .inner rfl (by simp_all)

theorem inner_switchExpr (start : Nat) {x : Node} (hx : x.Inner) :
    Only Node.Inner (switchExpr self start x) := by
  refine .bind fun _ => (inner_switchArm hself).enclosed.then fun arms harms => ?_
  exact .bind fun _ => .inner rfl (by simp_all)

theorem inner_cast? : Only Node.Inner (cast? self) := by
  refine .bind fun _ => .bind fun o => ?_
  cases o with
  | none => exact .none_inner
  | some t =>
    exact hself.unary.then fun x hx => .bind fun _ => .some_inner rfl (by simpa using hx)

theorem inner_unary : Only Node.Inner (unary self) := by
  refine .bind fun t => .ite ?_ ((inner_cast? hself).then fun o ho => ?_)
  · refine .bind fun _ => hself.unary.then fun x hx => ?_
    exact .bind fun _ => .inner rfl (by simpa using hx)
  cases o with
  | some x => exact .pure (by simpa using ho)
  | none =>
    refine .branch ?_ ?_
    · refine .bind fun _ => hself.unary.then fun x hx => ?_
      exact .bind fun _ => .inner rfl (by simpa using hx)
    refine (inner_primary hself).then fun x hx => ?_
    refine (Only.extend (fun x hx => inner_suffix hself _ (all_node.mp hx)) hx).then fun x hx => ?_
    refine .bind fun _ => .branch ?_ <| .pure hx
    exact inner_switchExpr hself _ (all_node.mp hx)

/-! ### Binary expressions -/

theorem inner_typeTest (start : Nat) {x : Node} (hx : x.Inner) :
    Only Node.Inner (typeTest self start x) := by
  refine .bind fun _ => .bind fun o => ?_
  cases o with
  | some declared => exact .bind fun _ => .inner rfl (by simpa using hx)
  | none =>
    refine hself.pattern.then fun pattern hpattern => ?_
    exact .bind fun _ => .inner rfl (by simp_all)

theorem inner_rightOperand (op : Operator) : Only Node.Inner (rightOperand self op) := by
  refine .ite (.branch ?_ (hself.binary _)) (hself.binary _)
  refine .bind fun _ => .bind fun _ => hself.expr.then fun x hx => ?_
  exact .bind fun _ => .inner rfl (by simpa using hx)

theorem inner_binaryStep (start minimum : Nat) {x : Node} (hx : x.Inner) :
    Only Node.Inner (binaryStep self start minimum x) := by
  refine .bind fun o => ?_
  cases o with
  | none => exact .none_inner
  | some op =>
    refine .ite .none_inner <| .branch ?_ <| .ite ?_ ?_
    · exact (inner_typeTest hself start hx).then fun y hy => .pure (by simpa using hy)
    · exact .bind fun _ => .bind fun _ => .some_inner rfl (by simpa using hx)
    · refine (inner_rightOperand hself op).then fun y hy => ?_
      exact .bind fun _ => .some_inner rfl (by simp_all)

/-- Every step of a binary expression is put around an inner node. -/
theorem inner_binary (minimum : Nat) : Only Node.Inner (binary self minimum) :=
  .bind fun start => (inner_unary hself).then fun _ hx =>
    Only.extend (fun _ hy => inner_binaryStep hself start minimum (all_node.mp hy)) hx

theorem inner_conditional : Only Node.Inner (conditional self) := by
  refine .bind fun _ => (inner_binary hself _).then fun cond hcond => ?_
  refine .branch ?_ <| .pure hcond
  refine hself.expr.then fun thenValue hthen => .bind fun _ => ?_
  exact hself.expr.then fun elseValue helse => .bind fun _ => .inner rfl (by simp_all)

theorem inner_assigned (op : String) : Only Node.Inner (assigned self op) :=
  .branch (inner_initializerExpr hself) <| .bind fun _ => hself.expr

theorem inner_expr : Only Node.Inner (expr self) := by
  refine .bind fun _ => (inner_lambda? hself).then fun o ho => ?_
  cases o with
  | some x => exact .pure (by simpa using ho)
  | none =>
    refine .branch ?_ ?_
    · exact hself.expr.then fun x hx => .bind fun _ => .inner rfl (by simpa using hx)
    refine (inner_conditional hself).then fun lhs hlhs => ?_
    refine .bind fun _ => .bind fun _ => .branch ?_ <| .bind fun t => .ite ?_ (.pure hlhs)
    · refine .bind fun _ => hself.expr.then fun rhs hrhs => ?_
      exact .bind fun _ => .inner rfl (by simp_all)
    · refine .bind fun _ => (inner_assigned hself t.text).then fun rhs hrhs => ?_
      exact .bind fun _ => .inner rfl (by simp_all)

/-! ### Patterns -/

omit hself in
theorem inner_bracketPattern (opening closing : String) :
    Only Node.Inner (bracketPattern opening closing) :=
  .bind fun _ => .bind fun _ => .bind fun _ => .bind fun _ => .inner rfl (by simp)

theorem inner_primaryPattern : Only Node.Inner (primaryPattern self) := by
  refine .bind fun t => .ite ?_ <| .ite ?_ <| .ite (inner_bracketPattern _ _) <|
    .ite (inner_bracketPattern _ _) <| .branch ?_ <| .branch ?_ <| .bind fun o => ?_
  · refine .bind fun _ => hself.primaryPattern.then fun x hx => ?_
    exact .bind fun _ => .inner rfl (by simpa using hx)
  · refine .bind fun _ => (hself.binary _).then fun x hx => ?_
    exact .bind fun _ => .inner rfl (by simpa using hx)
  · exact .bind fun _ => .bind fun _ => .bind fun _ => .inner rfl (by simp)
  · refine .bind fun _ => hself.pattern.then fun x hx => ?_
    exact .bind fun _ => .bind fun _ => .inner rfl (by simpa using hx)
  · cases o with
    | some declared => exact .bind fun _ => .inner rfl (by simp)
    | none => exact (inner_binary hself _).then fun x hx => .bind fun _ => .pure hx

theorem inner_pattern : Only Node.Inner (pattern self) := by
  refine .bind fun _ => (inner_primaryPattern hself).then fun x hx =>
    Only.extend (fun x hx => ?_) hx
  refine .bind fun _ => .branch ?_ .none_inner
  refine .bind fun _ => hself.primaryPattern.then fun y hy => ?_
  exact .bind fun _ => .some_inner rfl (by simp_all)

/-! ### Headers and bodies -/

/-- The attributes in front of a declaration are inner nodes. -/
theorem inner_header : Only Node.Inner (header self) := by
  refine .bind fun t => (inner_attributes hself).optionalList.then fun attributes hattributes => ?_
  exact .bind fun behind => .bind fun _ => .pure hattributes

/-- A body holds inner nodes only, as a block and as an expression. -/
theorem inner_body : Only Node.Inner (body self) := by
  refine .branch ?_ <| .branch ?_ ?_
  · exact hself.block.then fun block hblock => .pure (by simpa using hblock)
  · exact hself.expr.then fun x hx => .bind fun _ => .pure (by simpa using hx)
  · exact .bind fun _ => .pure (by simp)

/-- A method has inner nodes below it. -/
theorem below_methodRest {h : Header} (hh : All Node.Inner h) (returnType : TypeRef) (name : String)
    (nameSpan : Span) (explicitInterface : String) :
    Returns (methodRest self h returnType name nameSpan explicitInterface) fun d =>
      ∀ c ∈ (Node.method d).children, c.Inner := by
  refine .bind fun _ => (inner_params hself "(" ")").then fun params hparams => .bind fun _ => ?_
  refine (inner_body hself).then fun body hbody => .bind fun _ => ?_
  exact .pure (by simp_all [-IsEmpty.forall_iff])

theorem inner_varInitializer : Only Node.Inner (varInitializer self) :=
  .branch (inner_initializerExpr hself) hself.expr

theorem inner_varDeclarator : Only Node.Inner (varDeclarator self) := by
  refine .bind fun _ => .bind fun _ => ?_
  refine (inner_varInitializer hself).optionalPart.then fun init hinit => ?_
  exact .bind fun _ => .inner rfl (by simpa using hinit)

/-! ### Statements -/

theorem inner_block : Only Node.Inner (block self) := by
  refine .bind fun _ => .bind fun _ => ?_
  refine hself.statement.unlessEnd.repeatWhile.then fun stmts hstmts => ?_
  exact .bind fun _ => .bind fun _ => .inner rfl (by simpa using hstmts)

theorem inner_condition : Only Node.Inner (condition self) :=
  .bind fun _ => hself.expr.then fun _ hx => .bind fun _ => .pure hx

theorem inner_localVars (t : TypeRef) : Only Node.Inner (localVars self t) := by
  refine (inner_varDeclarator hself).separated.then fun vars hvars => .pure ?_
  simpa using hvars

theorem inner_localDeclHead (start : Nat) (isConst : Bool) :
    Only Node.Inner (localDeclHead self start isConst) := by
  refine .bind fun t => (inner_localVars hself t).then fun ⟨t, vars⟩ hvars => ?_
  exact .bind fun _ => .inner rfl (by simpa using hvars)

theorem inner_localDeclBefore (closing : String) :
    Only Node.Inner (localDeclBefore self closing) := by
  refine .bind fun _ => (inner_localDeclHead hself _ _).then fun decl hdecl => ?_
  exact .branch (.pure hdecl) .fail

/-- A local declaration is an inner node, and so is a local function. -/
theorem inner_localDeclOrFunc : Only Node.Inner (localDeclOrFunc self) := by
  refine .bind fun start => .bind fun isRef => .bind fun _ => .bind fun _ => .bind fun _ =>
    .bind fun _ => .bind fun t => .bind fun _ => .unlessStopped ?_
  refine .bind fun _ => .branch ?_ <| .unlessStopped ?_
  · exact .bind fun _ => .bind fun f => .bind fun _ => .pure (by simp)
  refine .bind fun _ => .bind fun _ => .bind fun _ => .unlessStopped ?_
  refine (inner_localVars hself t).then fun ⟨t, vars⟩ hvars => ?_
  exact .bind fun _ => .bind fun _ => .inner rfl (by simpa using hvars)

theorem inner_ifStmt : Only Node.Inner (ifStmt self) := by
  refine .bind fun _ => .bind fun _ => (inner_condition hself).then fun cond hcond => ?_
  refine hself.statement.then fun thenBranch hthen => ?_
  refine hself.statement.optionalPart.then fun elseBranch helse => ?_
  exact .bind fun _ => .inner rfl (by simp_all)

theorem inner_forInitExpr : Only Node.Inner (forInitExpr self) :=
  .bind fun _ => hself.expr.then fun _ hx => .bind fun _ => .inner rfl (by simpa using hx)

theorem inner_forInit : Only Node.Inner (forInit self) := by
  refine .branch (.pure (by simp)) ?_
  refine (inner_localDeclBefore hself ";").attempt.then fun o ho => ?_
  cases o with
  | some decl => exact .pure (by simpa using ho)
  | none => exact (inner_forInitExpr hself).separated

theorem inner_forStmt : Only Node.Inner (forStmt self) := by
  refine .bind fun _ => .bind fun _ => .bind fun _ => (inner_forInit hself).then fun init hinit => ?_
  refine .bind fun _ => hself.expr.optionalPart.then fun cond hcond => .bind fun _ => ?_
  refine hself.expr.listUntil.then fun post hpost => .bind fun _ => ?_
  exact hself.statement.then fun body hbody => .bind fun _ => .inner rfl (by simp_all)

theorem inner_foreachStmt (start : Nat) (isAwait : Bool) :
    Only Node.Inner (foreachStmt self start isAwait) := by
  refine .bind fun _ => .bind fun _ => .bind fun t => .bind fun ⟨varName, varSpan⟩ => ?_
  refine .bind fun _ => hself.expr.then fun collection hcollection => .bind fun _ => ?_
  exact hself.statement.then fun body hbody => .bind fun _ => .inner rfl (by simp_all)

theorem inner_caseLabel : Only Node.Inner (caseLabel self) := by
  refine .bind fun _ => .branch ?_ ?_
  · exact .bind fun _ => .bind fun _ => .inner rfl (by simp)
  refine .bind fun _ => .bind fun declared => ?_
  refine hself.pattern.optionalPart.then fun value hvalue => ?_
  refine hself.expr.optionalPart.then fun guard hguard => .bind fun _ => .bind fun _ => ?_
  cases declared <;> exact .inner rfl (by simp_all)

theorem inner_switchSection : Only Node.Inner (switchSection self) := by
  refine .bind fun _ => (inner_caseLabel hself).repeatWhile.then fun labels hlabels => ?_
  refine .unlessStopped (hself.statement.unlessEnd.repeatWhile.then fun stmts hstmts => ?_)
  exact .bind fun _ => .inner rfl (by simp_all)

theorem inner_switchTag : Only Node.Inner (switchTag self) :=
  .branch (inner_primary hself) hself.expr

theorem inner_switchStmt : Only Node.Inner (switchStmt self) := by
  refine .bind fun _ => .bind fun _ => (inner_switchTag hself).then fun tag htag => .bind fun _ => ?_
  refine (inner_switchSection hself).unlessEnd.repeatWhile.then fun sections hsections => ?_
  exact .bind fun _ => .bind fun _ => .inner rfl (by simp_all)

theorem inner_usingStmt (start : Nat) (isAwait : Bool) :
    Only Node.Inner (usingStmt self start isAwait) := by
  refine .bind fun _ => .branch ?_ ?_
  · refine (inner_localDeclBefore hself ")").attempt.then fun decl hdecl => ?_
    refine hself.expr.optionalPart.then fun resource hresource => .bind fun _ => ?_
    exact hself.statement.then fun body hbody => .bind fun _ => .inner rfl (by simp_all)
  · refine .bind fun _ => (inner_localDeclHead hself _ _).then fun decl hdecl => ?_
    exact .bind fun _ => .bind fun _ => .inner rfl (by simpa using hdecl)

theorem inner_catchClause : Only Node.Inner (catchClause self) := by
  refine .bind fun _ => .bind fun _ => .bind fun ⟨t, varName⟩ => ?_
  refine (inner_condition hself).optionalPart.then fun filter hfilter => ?_
  exact (inner_block hself).then fun body hbody => .bind fun _ => .inner rfl (by simp_all)

theorem inner_tryStmt : Only Node.Inner (tryStmt self) := by
  refine .bind fun _ => .bind fun _ => (inner_block hself).then fun body hbody => ?_
  refine (inner_catchClause hself).repeatWhile.then fun catches hcatches => ?_
  refine (inner_block hself).optionalPart.then fun finallyBlock hfinally => ?_
  exact .unlessStopped (.bind fun _ => .inner rfl (by simp_all))

omit hself in
theorem inner_gotoStmt : Only Node.Inner (gotoStmt self) :=
  .bind fun _ => .bind fun _ => .bind fun _ => .bind fun _ => .bind fun _ => .inner rfl (by simp)

theorem inner_yieldStmt : Only Node.Inner (yieldStmt self) := by
  have hyielded : Only Node.Inner (yielded self) := .bind fun _ => hself.expr
  refine .bind fun _ => .bind fun _ => .bind fun isBreak => ?_
  refine hyielded.optionalPart.then fun x hx => ?_
  exact .bind fun _ => .bind fun _ => .inner rfl (by simpa using hx)

/-- One case for each keyword. -/
theorem inner_keywordStmt? : Only Node.Inner (keywordStmt? self) := by
  refine .bind fun t => .ite .none_inner ?_
  split
  case h_1 => exact (inner_block hself).some
  case h_2 => exact .bind fun _ => .bind fun _ => .some_inner rfl (by simp)
  case h_3 => exact (inner_ifStmt hself).some
  case h_4 => exact (inner_forStmt hself).some
  case h_5 => exact (inner_foreachStmt hself _ _).some
  case h_6 | h_15 =>
    refine .bind fun _ => (inner_condition hself).then fun x hx => ?_
    exact hself.statement.then fun body hbody => .bind fun _ => .some_inner rfl (by simp_all)
  case h_7 =>
    refine .bind fun _ => hself.statement.then fun body hbody => .bind fun _ => ?_
    refine (inner_condition hself).then fun cond hcond => ?_
    exact .bind fun _ => .bind fun _ => .some_inner rfl (by simp_all)
  case h_8 => exact (inner_switchStmt hself).some
  case h_9 => exact (inner_usingStmt hself _ _).some
  case h_10 => exact (inner_tryStmt hself).some
  case h_11 | h_14 =>
    refine .bind fun _ => hself.expr.optionalPart.then fun x hx => ?_
    exact .bind fun _ => .bind fun _ => .some_inner rfl (by simpa using hx)
  case h_12 | h_13 => exact .bind fun _ => .bind fun _ => .bind fun _ => .some_inner rfl (by simp)
  case h_16 => exact inner_gotoStmt.some
  case h_17 | h_18 | h_19 =>
    refine .branch ?_ .none_inner
    refine .bind fun _ => (inner_block hself).then fun body hbody => ?_
    exact .bind fun _ => .some_inner rfl (by simpa using hbody)
  case h_20 =>
    refine .bind fun _ => .bind fun _ => .bind fun _ => .bind fun _ => .bind fun _ => ?_
    exact hself.statement.then fun body hbody => .bind fun _ => .some_inner rfl (by simpa using hbody)
  case h_21 =>
    refine .bind fun _ => .bind fun t => (inner_localVars hself t).then fun ⟨t, vars⟩ hvars => ?_
    exact .bind fun _ => .bind fun _ => .some_inner rfl (by simpa using hvars)
  case h_22 => exact .none_inner

theorem inner_wordStmt? : Only Node.Inner (wordStmt? self) := by
  refine .bind fun t => .ite .none_inner <| .bind fun _ => .branch (inner_yieldStmt hself).some <|
    .branch ?_ <| .branch ?_ <| .bind fun _ => .branch ?_ .none_inner
  · exact .bind fun _ => (inner_foreachStmt hself _ _).some
  · exact .bind fun _ => (inner_usingStmt hself _ _).some
  · refine .bind fun _ => hself.statement.then fun stmt hstmt => ?_
    exact .bind fun _ => .some_inner rfl (by simpa using hstmt)

/-- Statements are inner nodes, since the only declaration among them is that of a local
function. -/
theorem inner_statement : Only Node.Inner (statement self) := by
  refine .bind fun _ => (inner_keywordStmt? hself).then fun o ho => ?_
  cases o with
  | some s => exact .pure (by simpa using ho)
  | none =>
    refine (inner_wordStmt? hself).then fun o ho => ?_
    cases o with
    | some s => exact .pure (by simpa using ho)
    | none =>
      refine (inner_localDeclOrFunc hself).attempt.then fun o ho => ?_
      cases o with
      | some s => exact .pure (by simpa using ho)
      | none =>
        refine (inner_expr hself).then fun x hx => .bind fun _ => .bind fun _ => ?_
        exact .inner rfl (by simpa using hx)

end Productions

end Grammar

end CSharpAudit
