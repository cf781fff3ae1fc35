import CSharpAudit.Syntax.Node

/-!
# The constructs of the language

Every node is an instance of a construct, which has a name. Some constructs are statements, some
are expressions, and the rest are declarations and parts of others.

## Main definitions

* `Node.construct` — the name of the construct a node is an instance of
* `Node.isStatement`, `Node.isExpression` — the two large classes of constructs
* `Node.isLoop` — the constructs that repeat their body
* `Node.isTerminator` — the statements behind which control never continues
-/

namespace CSharpAudit

namespace Node

/-- The name of the construct that a node is an instance of. -/
def construct : Node → String
  | unit _ => "CompilationUnit"
  | usingDirective _ => "UsingDirective"
  | namespaceDecl _ => "NamespaceDecl"
  | .attribute _ => "Attribute"
  | typeParam _ => "TypeParam"
  | .constraint _ => "Constraint"
  | typeDecl _ => "TypeDecl"
  | enumMember .. => "EnumMember"
  | delegate _ => "DelegateDecl"
  | method _ => "MethodDecl"
  | constructor _ => "ConstructorDecl"
  | accessor .. => "Accessor"
  | property _ => "PropertyDecl"
  | varDeclarator _ => "VarDeclarator"
  | field _ => "FieldDecl"
  | event _ => "EventDecl"
  | type _ => "TypeRef"
  | param _ => "Param"
  | block .. => "Block"
  | emptyStmt _ => "EmptyStmt"
  | exprStmt .. => "ExprStmt"
  | localDecl .. => "LocalDecl"
  | localFunc .. => "LocalFuncStmt"
  | ifStmt .. => "IfStmt"
  | forStmt .. => "ForStmt"
  | foreachStmt .. => "ForeachStmt"
  | whileStmt .. => "WhileStmt"
  | doStmt .. => "DoStmt"
  | caseLabel .. => "CaseLabel"
  | switchSection .. => "SwitchSection"
  | switchStmt .. => "SwitchStmt"
  | usingStmt .. => "UsingStmt"
  | catchClause .. => "CatchClause"
  | tryStmt .. => "TryStmt"
  | returnStmt .. => "ReturnStmt"
  | breakStmt _ => "BreakStmt"
  | continueStmt _ => "ContinueStmt"
  | throwStmt .. => "ThrowStmt"
  | lockStmt .. => "LockStmt"
  | yieldStmt .. => "YieldStmt"
  | gotoStmt .. => "GotoStmt"
  | labeledStmt .. => "LabeledStmt"
  | checkedStmt .. => "CheckedStmt"
  | ident .. => "Ident"
  | literal .. => "Literal"
  | thisExpr _ => "ThisExpr"
  | baseExpr _ => "BaseExpr"
  | predefinedType .. => "PredefinedType"
  | memberAccess .. => "MemberAccess"
  | argument _ => "Argument"
  | invocation .. => "Invocation"
  | elementAccess .. => "ElementAccess"
  | unary .. => "UnaryExpr"
  | binary .. => "BinaryExpr"
  | assign .. => "AssignExpr"
  | conditional .. => "ConditionalExpr"
  | newExpr .. => "NewExpr"
  | lambda .. => "LambdaExpr"
  | cast .. => "CastExpr"
  | isExpr .. => "IsExpr"
  | asExpr .. => "AsExpr"
  | typeOf .. => "TypeOfExpr"
  | defaultExpr _ => "DefaultExpr"
  | paren .. => "ParenExpr"
  | initializer .. => "InitializerExpr"
  | await .. => "AwaitExpr"
  | throwExpr .. => "ThrowExpr"
  | tuple .. => "TupleExpr"
  | declExpr .. => "DeclExpr"
  | switchExpr .. => "SwitchExpr"
  | switchArm .. => "SwitchArm"

/-- Whether a node is a statement. -/
def isStatement : Node → Bool
  | block .. | emptyStmt _ | exprStmt .. | localDecl .. | localFunc .. | ifStmt .. | forStmt ..
  | foreachStmt .. | whileStmt .. | doStmt .. | switchStmt .. | usingStmt .. | tryStmt ..
  | returnStmt .. | breakStmt _ | continueStmt _ | throwStmt .. | lockStmt .. | yieldStmt ..
  | gotoStmt .. | labeledStmt .. | checkedStmt .. => true
  | _ => false

/-- Whether a node is an expression. Arguments and the arms of a switch hold expressions and are
none themselves. -/
def isExpression : Node → Bool
  | ident .. | literal .. | thisExpr _ | baseExpr _ | predefinedType .. | memberAccess ..
  | invocation .. | elementAccess .. | unary .. | binary .. | assign .. | conditional ..
  | newExpr .. | lambda .. | cast .. | isExpr .. | asExpr .. | typeOf .. | defaultExpr _
  | paren .. | initializer .. | await .. | throwExpr .. | tuple .. | declExpr ..
  | switchExpr .. => true
  | _ => false

/-- Whether a node repeats its body. -/
def isLoop : Node → Bool
  | forStmt .. | foreachStmt .. | whileStmt .. | doStmt .. => true
  | _ => false

/-- Whether control never continues behind a statement. -/
def isTerminator : Node → Bool
  | returnStmt .. | throwStmt .. | breakStmt _ | continueStmt _ | gotoStmt .. => true
  | yieldStmt _ isBreak _ => isBreak
  | _ => false

end Node

end CSharpAudit
