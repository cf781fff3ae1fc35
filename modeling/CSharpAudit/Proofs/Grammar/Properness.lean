import CSharpAudit.Proofs.Grammar.Inner
import CSharpAudit.Proofs.Parsing

/-!
# Where the grammar declares

Members and types are read as parts of types, and these as parts of namespaces and files. What is
read inside a member is an inner node. So a parsed file is proper: outside local functions, nothing
is declared in it but directly below files, namespaces and types.

## Main results

* `Grammar.proper_member`, `Grammar.proper_namespaceDecl` — one level of nesting
* `Grammar.proper_rules` — members and namespaces of any depth are proper
* `proper_of_parse` — every parsed file is proper
-/

namespace CSharpAudit

attribute [local simp] NodeKind.node Node.children or_imp forall_and

namespace Grammar

variable {self : Rules}

/-- A node is proper when the nodes below it are inner ones. -/
theorem Returns.proper [NodeKind α] {a : α}
    (hbelow : ∀ c ∈ (NodeKind.node a).children, c.Inner) :
    Returns (Pure.pure a) (All Node.Proper) :=
  .pure (all_node.mpr (.of_inner hbelow))

/-- A file that lists no more than a proper one and some proper nodes is proper. -/
theorem proper_of_within {u v : CompilationUnit Node} {ns : List Node}
    (hv : Layouts.WithinUnit v u ns) (hu : (Node.unit u).Proper) (hns : ∀ n ∈ ns, n.Proper) :
    (Node.unit v).Proper := by
  have hnil : ((Node.unit u).children ++ ns).flatMap Node.misplacing = [] := by
    refine List.flatMap_eq_nil_iff.mpr fun n hn => Node.misplacing_eq_nil.mpr ?_
    exact (List.mem_append.mp hn).elim (hu.child rfl) (hns n)
  have hsub := hv Node.misplacing fun d => Node.misplacing_of_holds rfl
  rw [hnil, List.subperm_nil] at hsub
  rw [← Node.misplacing_eq_nil, Node.misplacing_of_holds rfl, hsub]

section Productions

variable (hself : self.Proper)
include hself

/-! ### Types and members -/

/-- The members of an enumeration are inner nodes. -/
theorem inner_enumMember : Only Node.Inner (enumMember self) := by
  refine .bind fun _ => (inner_attributes hself).optionalList.then fun attributes hattributes => ?_
  refine .bind fun _ => hself.expr.optionalPart.then fun value hvalue => ?_
  exact .bind fun _ => .inner rfl (by simp_all)

/-- What stands in the braces of a type is proper. -/
theorem proper_typeBody (kind : TypeKind) (name : String) :
    Only Node.Proper (typeBody self kind name) := by
  refine .bind fun _ => hself.member.unlessEnd.repeatWhile.then fun members hmembers => ?_
  exact .bind fun _ => .bind fun _ => .pure hmembers

theorem proper_typeContents (kind : TypeKind) (name : String) :
    Only Node.Proper (typeContents self kind name) := by
  have henumMember := (inner_enumMember hself).imp fun n => Node.Inner.proper
  refine .ite ?_ <| .branch (.pure (by simp)) ?_
  · refine henumMember.enclosed.then fun members hmembers => .bind fun _ => .pure ?_
    simpa using hmembers
  · refine (proper_typeBody hself kind name).then fun members hmembers => .pure ?_
    simpa using hmembers

section Header

variable {h : Header} (hh : All Node.Inner h)
include hh

/-- A type has its members below it, and what stands in front of them is inner. -/
theorem proper_typeDecl : Only Node.Proper (typeDecl self h) := by
  refine .bind fun kind => .bind fun name => .bind fun _ => ?_
  refine (inner_params hself "(" ")").optionalList.then fun params hparams => ?_
  refine .bind fun _ => .bind fun _ => ?_
  refine (proper_typeContents hself kind name.text).then fun ⟨members, enumMembers⟩ hmembers => ?_
  refine .bind fun _ => .pure (all_node.mpr (.of_holds rfl ?_))
  simp_all [Node.Inner.proper, -IsEmpty.forall_iff]

theorem proper_delegateDecl : Only Node.Proper (delegateDecl self h) := by
  refine .bind fun _ => .bind fun _ => .bind fun _ => .bind fun _ => ?_
  refine (inner_params hself "(" ")").then fun params hparams => .bind fun _ => .bind fun _ => ?_
  exact .bind fun _ => .proper (by simp_all [-IsEmpty.forall_iff])

omit hh in
/-- The call of another constructor holds inner nodes only. -/
theorem inner_chainedCall : Returns (chainedCall self) fun x => All Node.Inner x.2 := by
  refine .bind fun _ => .bind fun _ => (inner_arguments hself "(" ")").then fun args hargs => ?_
  exact .bind fun _ => .pure hargs

theorem proper_constructorDecl : Only Node.Proper (constructorDecl self h) := by
  refine .bind fun _ => (inner_params hself "(" ")").then fun params hparams => ?_
  refine (inner_chainedCall hself).optionalPart.then fun chained hchained => ?_
  refine (inner_body hself).then fun body hbody => .bind fun _ => .proper ?_
  cases chained <;> simp_all [-IsEmpty.forall_iff]

theorem proper_plainMethod (returnType : TypeRef) (name : String) (nameSpan : Span)
    (isOperator isDestructor : Bool) :
    Only Node.Proper (plainMethod self h returnType name nameSpan isOperator isDestructor) := by
  refine (inner_params hself "(" ")").then fun params hparams => ?_
  refine (inner_body hself).then fun body hbody => .bind fun _ => ?_
  exact .proper (by simp_all [-IsEmpty.forall_iff])

theorem proper_destructorDecl : Only Node.Proper (destructorDecl self h) :=
  .bind fun _ => .bind fun _ => proper_plainMethod hself hh _ _ _ _ _

theorem proper_operatorDecl (returnType : TypeRef) :
    Only Node.Proper (operatorDecl self h returnType) :=
  .bind fun _ => .bind fun _ => .bind fun _ => .bind fun _ =>
    proper_plainMethod hself hh _ _ _ _ _

theorem proper_conversionDecl : Only Node.Proper (conversionDecl self h) :=
  .bind fun _ => .bind fun _ => .bind fun _ => .bind fun _ => .bind fun _ =>
    proper_plainMethod hself hh _ _ _ _ _

omit hh in
/-- Accessors are inner nodes. -/
theorem inner_accessors : Only Node.Inner (accessors self) := by
  have haccessor : Only Node.Inner (accessor self) := by
    refine .bind fun _ => .bind fun _ => .bind fun _ => .bind fun _ => .unlessStopped ?_
    exact (inner_body hself).then fun body hbody => .bind fun _ => .inner rfl (by simp_all)
  refine .bind fun _ => haccessor.repeatWhile.then fun as has => ?_
  exact .bind fun _ => .pure has

omit hh in
theorem inner_propertyBody : Only Node.Inner (propertyBody self) := by
  refine .branch ?_ ?_
  · exact hself.expr.then fun x hx => .bind fun _ => .pure (by simpa using hx)
  · exact (inner_accessors hself).then fun as has => .pure (by simpa using has)

theorem proper_indexerDecl (t : TypeRef) (explicitName : String) :
    Only Node.Proper (indexerDecl self h t explicitName) := by
  refine .bind fun _ => (inner_params hself "[" "]").then fun params hparams => ?_
  refine (inner_propertyBody hself).then fun ⟨accessors, exprBody⟩ hbody => ?_
  exact .bind fun _ => .proper (by simp_all [-IsEmpty.forall_iff])

theorem proper_propertyRest (t : TypeRef) (name : String) (nameSpan : Span) :
    Only Node.Proper (propertyRest self h t name nameSpan) := by
  have hinit : Only Node.Inner (propertyInit self) :=
    hself.expr.then fun x hx => .bind fun _ => .pure hx
  refine (inner_propertyBody hself).then fun ⟨accessors, exprBody⟩ hbody => ?_
  refine hinit.optionalPart.then fun initializer hinitializer => ?_
  exact .bind fun _ => .proper (by simp_all)

theorem proper_fieldRest (t : TypeRef) (name : String) (nameSpan : Span) :
    Only Node.Proper (fieldRest self h t name nameSpan) := by
  refine (inner_varInitializer hself).optionalPart.then fun init hinit => .bind fun span => ?_
  have hfirst : (Node.varDeclarator ⟨span, name, nameSpan, init⟩).Inner :=
    .intro rfl (by simpa using hinit)
  refine (inner_varDeclarator hself).moreItems.then fun more hmore => .bind fun _ => ?_
  exact .bind fun _ => .proper (by simp_all [-IsEmpty.forall_iff])

theorem proper_eventDecl : Only Node.Proper (eventDecl self h) := by
  have hbody : Only Node.Inner (eventBody self) :=
    .branch (inner_accessors hself) <| .bind fun _ => .bind fun _ => .bind fun _ =>
      .pure (by simp)
  refine .bind fun _ => .bind fun _ => .bind fun _ => .bind fun _ => ?_
  exact hbody.then fun accessors haccessors => .bind fun _ => .proper (by simp_all)

theorem proper_typedMember : Only Node.Proper (typedMember self h) := by
  refine .bind fun t => .branch (proper_operatorDecl hself hh t) <| .bind fun _ =>
    .branch (proper_indexerDecl hself hh t "") <| .bind fun _ => .bind fun ⟨name, interface⟩ =>
    .bind fun nameSpan => .bind fun _ => .branch ?_ <| .bind fun _ => .branch ?_ <| .bind fun _ =>
    .branch (proper_propertyRest hself hh t name nameSpan) (proper_fieldRest hself hh t name nameSpan)
  · exact .bind fun _ => proper_indexerDecl hself hh t name
  · exact (below_methodRest hself hh t name nameSpan interface).then fun d hd => .proper hd

end Header

/-- One case for each kind of member. -/
theorem proper_member : Only Node.Proper (member self) := by
  refine (inner_header hself).then fun h hh => ?_
  exact .branch (proper_delegateDecl hself hh) <| .branch (proper_typeDecl hself hh) <|
    .branch (proper_destructorDecl hself hh) <| .branch (proper_eventDecl hself hh) <|
    .bind fun _ => .branch (proper_conversionDecl hself hh) <|
    .bind fun _ => .branch (proper_constructorDecl hself hh) (proper_typedMember hself hh)

theorem proper_typeLevelDecl : Only Node.Proper (typeLevelDecl self) := by
  refine (inner_header hself).then fun h hh => ?_
  exact .branch (proper_delegateDecl hself hh) (.branch (proper_typeDecl hself hh) .failAt)

/-! ### Files -/

theorem proper_namespaceEntry (name : String) : Only Node.Proper (namespaceEntry self name) := by
  refine .branch ?_ <| .branch ?_ ?_
  · exact .bind fun d => .pure (all_node.mpr (Node.inner_usingDirective d).proper)
  · refine hself.namespaceDecl.then fun inner hinner => .unlessStopped (.pure ?_)
    exact hinner
  · exact (proper_typeLevelDecl hself).then fun d hd => .pure hd

/-- Namespaces are proper with what stands in them. -/
theorem proper_namespaceDecl : Only Node.Proper (namespaceDecl self) := by
  refine .bind fun _ => .bind fun _ => .bind fun _ => .bind fun name => .bind fun _ => .branch ?_ ?_
  · exact .bind fun _ => .pure (all_node.mpr (.of_holds rfl (by simp)))
  refine .bind fun _ => (proper_namespaceEntry hself name).unlessEnd.repeatWhile.then
    fun entries hentries => ?_
  refine .bind fun _ => .bind fun _ => .bind fun _ => .pure (all_node.mpr (.of_holds rfl ?_))
  have hcontents : All Node.Proper ((Contents.ofEntries entries).usings,
      (Contents.ofEntries entries).members) :=
    fun n hn => hentries n (Layouts.mem_nodes_contents hn)
  simpa using hcontents

/-- One more entry keeps a file proper. -/
theorem proper_unitStep {u : CompilationUnit Node} (hu : (Node.unit u).Proper) :
    Returns (unitStep self u) fun o => ∀ v, o = some v → (Node.unit v).Proper := by
  have hsome {v : CompilationUnit Node} {ns : List Node} (hv : Layouts.WithinUnit v u ns)
      (hns : ∀ n ∈ ns, n.Proper) :
      Returns (Pure.pure (some v)) fun o => ∀ w, o = some w → (Node.unit w).Proper :=
    .pure fun w hw => Option.some.inj hw ▸ proper_of_within hv hu hns
  refine .branch (.pure (by simp)) <| .bind fun _ => .branch ?_ <| .branch ?_ <| .branch ?_ <|
    .branch ?_ ?_
  · exact .bind fun _ => .bind fun _ => .pure fun w hw => Option.some.inj hw ▸ hu
  · refine .bind fun d => hsome (Layouts.within_usings d) ?_
    exact List.forall_mem_singleton.mpr (Node.inner_usingDirective d).proper
  · refine (inner_attributes hself).then fun as has => hsome (Layouts.within_attributes as) ?_
    exact List.forall_mem_map.mpr fun a ha => (all_node.mp (all_list.mp has a ha)).proper
  · refine (proper_namespaceDecl hself).then fun ns hns => .ite (.unlessStopped ?_) ?_
    · exact hsome (Layouts.within_fileScoped ns) (List.forall_mem_singleton.mpr (all_node.mp hns))
    · exact hsome (Layouts.within_members ns) (List.forall_mem_singleton.mpr (all_node.mp hns))
  · refine (proper_typeLevelDecl hself).then fun d hd => hsome (Layouts.within_addMember d) ?_
    exact List.forall_mem_singleton.mpr (all_node.mp hd)

theorem proper_unit : Returns (unit self) fun u => (Node.unit u).Proper := by
  refine .bind fun x => .extend (fun u hu => proper_unitStep hself hu) ?_
  exact .of_holds rfl (by simp)

end Productions

/-! ### Closing the circle -/

theorem proper_stop : Rules.stop.Proper where
  expr := .fail
  unary := .fail
  binary _ := .fail
  pattern := .fail
  primaryPattern := .fail
  initializer := .fail
  block := .fail
  statement := .fail
  member := .fail
  namespaceDecl := .fail

/-- One more level of nesting keeps what is read proper. -/
theorem Rules.Proper.deepen {self : Rules} (h : self.Proper) : self.deepen.Proper where
  expr := inner_expr h
  unary := inner_unary h
  binary := inner_binary h
  pattern := inner_pattern h
  primaryPattern := inner_primaryPattern h
  initializer := inner_initializer h
  block := inner_block h
  statement := inner_statement h
  member := proper_member h
  namespaceDecl := proper_namespaceDecl h

/-- Productions of any depth read proper nodes. -/
theorem proper_rules (depth : Nat) : (rules depth).Proper := by
  induction depth with
  | zero => exact proper_stop
  | succ depth ih =>
    rw [Layouts.rules_succ]
    exact ih.deepen

end Grammar

/-- Every parsed file is proper. -/
theorem proper_of_parse {source : List UInt8} {u : CompilationUnit Node}
    (h : parse source = .ok u) : (Node.unit u).Proper := by
  obtain ⟨tokens, nullable, v, -, hv, rfl⟩ := exists_unitOfTokens_of_parse h
  obtain ⟨r, hr, rfl⟩ := Lexer.map_eq_ok_iff.mp hv
  have hproper : (Node.unit r.1).Proper := Grammar.proper_unit (Grammar.proper_rules _) _ _ r hr
  exact .of_holds rfl fun c hc => hproper.child rfl hc

end CSharpAudit
