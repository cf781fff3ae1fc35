import CSharpAudit.Syntax.Children
import CSharpAudit.Syntax.Expression

/-!
# Syntax trees without layout

Two texts that differ in white space and comments only are parsed to trees that differ in spans and
documentation. Erasing the layout of a tree removes everything in which such trees may differ: the
spans, the documentation, the nullable flag of the file, and the two names that are kept as source
text, namely the label of `goto case` and the variables of a deconstructing `foreach`.

## Main definitions

* `TypeRef.erase`, `Node.erase` — a type and a tree without layout
* `CompilationUnit.erase` — a file without layout

## Main results

* `Node.span_erase` — what is erased covers no text
* `Node.qualifiedName_erase`, `TypeRef.text_erase` — the dotted name of an expression and the
  spelling of a type have no layout
-/

namespace CSharpAudit

/-- The label of a jump; of a label that is source text only the word `case` is left. -/
def eraseLabel (label : String) : String :=
  if "case ".toList.isPrefixOf label.toList then "case " else label

/-- The variable of a `foreach` statement; of a deconstruction only the parenthesis is left. -/
def eraseVariable (name : String) : String :=
  if name.toList.head? = some '(' then "(" else name

namespace TypeRef

mutual

/-- A written type without layout. -/
def erase : TypeRef → TypeRef
  | ⟨_, name, args, nullable, rank, pointer, tupleNames⟩ =>
    ⟨.none, name, eraseList args, nullable, rank, pointer, tupleNames⟩

/-- Some written types without layout. -/
def eraseList : List TypeRef → List TypeRef
  | [] => []
  | t :: ts => erase t :: eraseList ts

end

@[simp] theorem eraseList_eq_map (ts : List TypeRef) : eraseList ts = ts.map erase := by
  induction ts with
  | nil => rfl
  | cons t ts ih => rw [eraseList, ih, List.map_cons]

/-- Erasure drops the span of a type and of those inside of it. -/
theorem erase_mk (span : Span) (name : String) (args : List TypeRef) (nullable : Bool) (rank : Nat)
    (pointer : Bool) (tupleNames : List String) :
    erase ⟨span, name, args, nullable, rank, pointer, tupleNames⟩ =
      ⟨.none, name, args.map erase, nullable, rank, pointer, tupleNames⟩ := by
  rw [erase, eraseList_eq_map]

@[simp] theorem name_erase (t : TypeRef) : t.erase.name = t.name := by cases t; rfl

@[simp] theorem args_erase (t : TypeRef) : t.erase.args = t.args.map erase := by
  cases t
  rw [erase_mk]

@[simp] theorem nullable_erase (t : TypeRef) : t.erase.nullable = t.nullable := by cases t; rfl

@[simp] theorem rank_erase (t : TypeRef) : t.erase.rank = t.rank := by cases t; rfl

@[simp] theorem pointer_erase (t : TypeRef) : t.erase.pointer = t.pointer := by cases t; rfl

@[simp] theorem tupleNames_erase (t : TypeRef) : t.erase.tupleNames = t.tupleNames := by
  cases t; rfl

mutual

/-- The spelling of a type has no layout. -/
theorem text_erase : ∀ t : TypeRef, t.erase.text = t.text
  | ⟨_, name, args, nullable, rank, pointer, tupleNames⟩ => by
    have hempty : (args.map erase).isEmpty = args.isEmpty := by simp
    rw [erase_mk, text, text, hempty, ← eraseList_eq_map, texts_eraseList args]

/-- The spellings of several types have no layout. -/
theorem texts_eraseList : ∀ ts : List TypeRef, texts (eraseList ts) = texts ts
  | [] => rfl
  | t :: ts => by rw [eraseList, texts, texts, text_erase t, texts_eraseList ts]

end

end TypeRef

def UsingDirective.erase (d : UsingDirective) : UsingDirective := { d with span := .none }

def TypeParam.erase (p : TypeParam) : TypeParam := { p with span := .none }

def Constraint.erase (c : Constraint) : Constraint :=
  { c with span := .none, types := c.types.map TypeRef.erase }

def ChainedCall.erase (c : ChainedCall) : ChainedCall := { c with span := .none }

namespace Node

mutual

/-- A syntax tree without layout. -/
def erase : Node → Node
  | unit d => .unit (eraseUnit d)
  | usingDirective d => .usingDirective d.erase
  | namespaceDecl d => .namespaceDecl (eraseNamespace d)
  | .attribute a => .attribute (eraseAttribute a)
  | typeParam p => .typeParam p.erase
  | .constraint c => .constraint c.erase
  | typeDecl d => .typeDecl (eraseTypeDecl d)
  | enumMember _ name attributes value =>
    .enumMember .none name (eraseAttributes attributes) (eraseOption value)
  | delegate d => .delegate (eraseDelegate d)
  | method d => .method (eraseMethod d)
  | constructor d => .constructor (eraseConstructor d)
  | accessor _ kind modifiers body exprBody =>
    .accessor .none kind modifiers (eraseOption body) (eraseOption exprBody)
  | property d => .property (eraseProperty d)
  | varDeclarator d => .varDeclarator (eraseVar d)
  | field d => .field (eraseField d)
  | event d => .event (eraseEvent d)
  | type t => .type t.erase
  | param p => .param (eraseParam p)
  | block _ stmts => .block .none (eraseList stmts)
  | emptyStmt _ => .emptyStmt .none
  | exprStmt _ x => .exprStmt .none (erase x)
  | localDecl _ ty isConst isRef vars =>
    .localDecl .none (ty.map TypeRef.erase) isConst isRef (eraseVars vars)
  | localFunc _ f => .localFunc .none (eraseMethod f)
  | ifStmt _ cond t e => .ifStmt .none (erase cond) (erase t) (eraseOption e)
  | forStmt _ init cond post body =>
    .forStmt .none (eraseList init) (eraseOption cond) (eraseList post) (erase body)
  | foreachStmt _ ty varName _ collection body isAwait =>
    .foreachStmt .none (ty.map TypeRef.erase) (eraseVariable varName) .none (erase collection)
      (erase body) isAwait
  | whileStmt _ cond body => .whileStmt .none (erase cond) (erase body)
  | doStmt _ body cond => .doStmt .none (erase body) (erase cond)
  | caseLabel _ value patternType patternVar guard =>
    .caseLabel .none (eraseOption value) (patternType.map TypeRef.erase) patternVar
      (eraseOption guard)
  | switchSection _ labels stmts => .switchSection .none (eraseList labels) (eraseList stmts)
  | switchStmt _ tag sections => .switchStmt .none (erase tag) (eraseList sections)
  | usingStmt _ decl resource body isAwait =>
    .usingStmt .none (eraseOption decl) (eraseOption resource) (eraseOption body) isAwait
  | catchClause _ ty varName filter body =>
    .catchClause .none (ty.map TypeRef.erase) varName (eraseOption filter) (erase body)
  | tryStmt _ body catches finallyBlock =>
    .tryStmt .none (erase body) (eraseList catches) (eraseOption finallyBlock)
  | returnStmt _ x => .returnStmt .none (eraseOption x)
  | breakStmt _ => .breakStmt .none
  | continueStmt _ => .continueStmt .none
  | throwStmt _ x => .throwStmt .none (eraseOption x)
  | lockStmt _ x body => .lockStmt .none (erase x) (erase body)
  | yieldStmt _ isBreak x => .yieldStmt .none isBreak (eraseOption x)
  | gotoStmt _ label => .gotoStmt .none (eraseLabel label)
  | labeledStmt _ label stmt => .labeledStmt .none label (erase stmt)
  | checkedStmt _ keyword body => .checkedStmt .none keyword (erase body)
  | ident _ name typeArgs => .ident .none name (typeArgs.map TypeRef.erase)
  | literal _ kind value => .literal .none kind value
  | thisExpr _ => .thisExpr .none
  | baseExpr _ => .baseExpr .none
  | predefinedType _ name => .predefinedType .none name
  | memberAccess _ x name typeArgs nullCond =>
    .memberAccess .none (erase x) name (typeArgs.map TypeRef.erase) nullCond
  | argument a => .argument (eraseArgument a)
  | invocation _ callee args => .invocation .none (erase callee) (eraseArguments args)
  | elementAccess _ x args nullCond =>
    .elementAccess .none (erase x) (eraseArguments args) nullCond
  | unary _ op x isPostfix => .unary .none op (erase x) isPostfix
  | binary _ op x y => .binary .none op (erase x) (erase y)
  | assign _ op lhs rhs => .assign .none op (erase lhs) (erase rhs)
  | conditional _ cond t e => .conditional .none (erase cond) (erase t) (erase e)
  | newExpr _ ty args init arraySize =>
    .newExpr .none (ty.map TypeRef.erase) (eraseArguments args) (eraseList init)
      (eraseList arraySize)
  | lambda _ params body isAsync => .lambda .none (eraseParams params) (erase body) isAsync
  | cast _ ty x => .cast .none ty.erase (erase x)
  | isExpr _ x ty pattern varName negated =>
    .isExpr .none (erase x) (ty.map TypeRef.erase) (eraseOption pattern) varName negated
  | asExpr _ x ty => .asExpr .none (erase x) ty.erase
  | typeOf _ keyword ty => .typeOf .none keyword ty.erase
  | defaultExpr _ => .defaultExpr .none
  | paren _ x => .paren .none (erase x)
  | initializer _ elems => .initializer .none (eraseList elems)
  | await _ x => .await .none (erase x)
  | throwExpr _ x => .throwExpr .none (erase x)
  | tuple _ elems => .tuple .none (eraseArguments elems)
  | declExpr _ ty name => .declExpr .none (ty.map TypeRef.erase) name
  | switchExpr _ x arms => .switchExpr .none (erase x) (eraseList arms)
  | switchArm _ pattern guard value =>
    .switchArm .none (erase pattern) (eraseOption guard) (erase value)

def eraseArgument : Argument Node → Argument Node
  | ⟨_, name, modifier, value⟩ => ⟨.none, name, modifier, erase value⟩

def eraseAttribute : Attribute Node → Attribute Node
  | ⟨_, target, name, args⟩ => ⟨.none, target, name, eraseArguments args⟩

def eraseParam : Param Node → Param Node
  | ⟨_, name, _, ty, modifier, default, attributes⟩ =>
    ⟨.none, name, .none, ty.map TypeRef.erase, modifier, eraseOption default,
      eraseAttributes attributes⟩

def eraseVar : VarDeclarator Node → VarDeclarator Node
  | ⟨_, name, _, init⟩ => ⟨.none, name, .none, eraseOption init⟩

def eraseMethod : Method Node → Method Node
  | ⟨_, name, _, modifiers, attributes, returnType, typeParams, constraints, params, body, exprBody,
      _, explicitInterface, isOperator, isDestructor⟩ =>
    ⟨.none, name, .none, modifiers, eraseAttributes attributes, returnType.erase,
      typeParams.map TypeParam.erase, constraints.map Constraint.erase, eraseParams params,
      eraseOption body, eraseOption exprBody, "", explicitInterface, isOperator, isDestructor⟩

def eraseConstructor : Constructor Node → Constructor Node
  | ⟨_, name, _, modifiers, attributes, params, chained, chainedArgs, body, exprBody, _⟩ =>
    ⟨.none, name, .none, modifiers, eraseAttributes attributes, eraseParams params,
      chained.map ChainedCall.erase, eraseArguments chainedArgs, eraseOption body,
      eraseOption exprBody, ""⟩

def eraseProperty : Property Node → Property Node
  | ⟨_, name, _, ty, modifiers, attributes, indexParams, accessors, exprBody, init, _⟩ =>
    ⟨.none, name, .none, ty.erase, modifiers, eraseAttributes attributes, eraseParams indexParams,
      eraseList accessors, eraseOption exprBody, eraseOption init, ""⟩

def eraseField : Field Node → Field Node
  | ⟨_, ty, modifiers, attributes, vars, _⟩ =>
    ⟨.none, ty.erase, modifiers, eraseAttributes attributes, eraseVars vars, ""⟩

def eraseEvent : Event Node → Event Node
  | ⟨_, name, _, ty, modifiers, attributes, accessors⟩ =>
    ⟨.none, name, .none, ty.erase, modifiers, eraseAttributes attributes, eraseList accessors⟩

def eraseDelegate : Delegate Node → Delegate Node
  | ⟨_, name, _, modifiers, attributes, returnType, typeParams, params, _⟩ =>
    ⟨.none, name, .none, modifiers, eraseAttributes attributes, returnType.erase,
      typeParams.map TypeParam.erase, eraseParams params, ""⟩

def eraseTypeDecl : TypeDecl Node → TypeDecl Node
  | ⟨_, kind, name, _, modifiers, attributes, typeParams, constraints, primaryParams, baseTypes,
      members, enumMembers, _⟩ =>
    ⟨.none, kind, name, .none, modifiers, eraseAttributes attributes,
      typeParams.map TypeParam.erase, constraints.map Constraint.erase, eraseParams primaryParams,
      baseTypes.map TypeRef.erase, eraseList members, eraseList enumMembers, ""⟩

def eraseNamespace : NamespaceDecl Node → NamespaceDecl Node
  | ⟨_, name, _, usings, members, fileScoped⟩ =>
    ⟨.none, name, .none, usings.map UsingDirective.erase, eraseList members, fileScoped⟩

def eraseUnit : CompilationUnit Node → CompilationUnit Node
  | ⟨_, usings, fileScopedNamespace, members, attributes, _⟩ =>
    ⟨.none, usings.map UsingDirective.erase, eraseNamespaceOption fileScopedNamespace,
      eraseList members, eraseAttributes attributes, false⟩

def eraseNamespaceOption : Option (NamespaceDecl Node) → Option (NamespaceDecl Node)
  | none => none
  | some d => some (eraseNamespace d)

def eraseOption : Option Node → Option Node
  | none => none
  | some n => some (erase n)

def eraseList : List Node → List Node
  | [] => []
  | n :: ns => erase n :: eraseList ns

def eraseArguments : List (Argument Node) → List (Argument Node)
  | [] => []
  | a :: as => eraseArgument a :: eraseArguments as

def eraseAttributes : List (Attribute Node) → List (Attribute Node)
  | [] => []
  | a :: as => eraseAttribute a :: eraseAttributes as

def eraseParams : List (Param Node) → List (Param Node)
  | [] => []
  | p :: ps => eraseParam p :: eraseParams ps

def eraseVars : List (VarDeclarator Node) → List (VarDeclarator Node)
  | [] => []
  | v :: vs => eraseVar v :: eraseVars vs

end

/-! ### Lists and options -/

@[simp] theorem eraseOption_eq_map (o : Option Node) : eraseOption o = o.map erase := by
  cases o <;> rfl

@[simp] theorem eraseNamespaceOption_eq_map (o : Option (NamespaceDecl Node)) :
    eraseNamespaceOption o = o.map eraseNamespace := by
  cases o <;> rfl

@[simp] theorem eraseList_eq_map (ns : List Node) : eraseList ns = ns.map erase := by
  induction ns with
  | nil => rfl
  | cons n ns ih => rw [eraseList, ih, List.map_cons]

@[simp] theorem eraseArguments_eq_map (as : List (Argument Node)) :
    eraseArguments as = as.map eraseArgument := by
  induction as with
  | nil => rfl
  | cons a as ih => rw [eraseArguments, ih, List.map_cons]

@[simp] theorem eraseAttributes_eq_map (as : List (Attribute Node)) :
    eraseAttributes as = as.map eraseAttribute := by
  induction as with
  | nil => rfl
  | cons a as ih => rw [eraseAttributes, ih, List.map_cons]

@[simp] theorem eraseParams_eq_map (ps : List (Param Node)) :
    eraseParams ps = ps.map eraseParam := by
  induction ps with
  | nil => rfl
  | cons p ps ih => rw [eraseParams, ih, List.map_cons]

@[simp] theorem eraseVars_eq_map (vs : List (VarDeclarator Node)) :
    eraseVars vs = vs.map eraseVar := by
  induction vs with
  | nil => rfl
  | cons v vs ih => rw [eraseVars, ih, List.map_cons]

/-! ### What is left -/

/-- What is erased covers no text. -/
@[simp] theorem span_erase (n : Node) : n.erase.span = .none := by
  cases n with
  | unit d | namespaceDecl d | «attribute» d | typeDecl d | delegate d | method d | constructor d
  | property d | varDeclarator d | field d | event d | param d | argument d | type d => cases d; rfl
  | _ => rfl

/-- The dotted name of an expression has no layout. -/
@[simp] theorem qualifiedName_erase (n : Node) : n.erase.qualifiedName = n.qualifiedName := by
  induction n using induction_on_children with
  | step n ih =>
    cases n with
    | memberAccess span x name typeArgs nullCond =>
      have hx := ih x (by simp [children])
      have herase : (memberAccess span x name typeArgs nullCond).erase =
        memberAccess .none x.erase name (typeArgs.map TypeRef.erase) nullCond := rfl
      rw [herase, qualifiedName, qualifiedName, hx]
    | _ => rfl

end Node

/-- A file without layout. -/
def CompilationUnit.erase (u : CompilationUnit Node) : CompilationUnit Node := Node.eraseUnit u

/-- Erasure of a file, part by part. -/
theorem CompilationUnit.erase_eq (u : CompilationUnit Node) :
    u.erase = {
      span := .none
      usings := u.usings.map UsingDirective.erase
      fileScopedNamespace := u.fileScopedNamespace.map Node.eraseNamespace
      members := u.members.map Node.erase
      attributes := u.attributes.map Node.eraseAttribute } := by
  cases u
  simp [erase, Node.eraseUnit]

end CSharpAudit
