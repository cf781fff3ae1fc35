import CSharpAudit.Json.Basic
import CSharpAudit.Syntax.Children
import CSharpAudit.Syntax.Construct

/-!
# Syntax trees as JSON

A node is written as an object with its construct, its span and its parts. Parts that are empty are
left out, except for spans and for the kind of a type declaration or a literal.

## Main definitions

* `Node.toJson` — a syntax tree as a JSON value
-/

namespace CSharpAudit

/-- A span as a pair of offsets. -/
def Span.toJson (s : Span) : Json := .array [.nat s.start, .nat s.stop]

namespace Syntax

/-- The fields of an object; a field whose value is absent is left out. -/
abbrev Fields := List (String × Json)

/-- A text that is left out when empty. -/
def textField (name s : String) : Fields := if s.isEmpty then [] else [(name, .string s)]

/-- A flag that is left out when unset. -/
def flagField (name : String) (b : Bool) : Fields := if b then [(name, .bool true)] else []

/-- A list that is left out when empty. -/
def listField (name : String) (vs : List Json) : Fields :=
  if vs.isEmpty then [] else [(name, .array vs)]

/-- A value that is left out when missing. -/
def optField (name : String) (v : Option Json) : Fields := v.toList.map (name, ·)

/-- The object of a construct. -/
def object (construct : String) (span : Span) (fields : List Fields) : Json :=
  .object (("node", .string construct) :: ("span", span.toJson) :: fields.flatten)

end Syntax

open Syntax

mutual

/-- A written type as JSON. -/
def TypeRef.toJson : TypeRef → Json
  | ⟨span, name, args, nullable, rank, pointer, tupleNames⟩ =>
    object "TypeRef" span [textField "name" name, listField "args" (TypeRef.listToJson args),
      flagField "nullable" nullable, if rank == 0 then [] else [("rank", .nat rank)],
      flagField "pointer" pointer, listField "tuple_names" (tupleNames.map .string)]

/-- Some written types as JSON. -/
def TypeRef.listToJson : List TypeRef → List Json
  | [] => []
  | t :: ts => TypeRef.toJson t :: TypeRef.listToJson ts

end

namespace Syntax

/-- The modifiers of a declaration. -/
def modifiersField (m : Modifiers) : Fields := textField "modifiers" m.text

/-- A type that may be missing. -/
def typeField (name : String) (t : Option TypeRef) : Fields := optField name (t.map TypeRef.toJson)

def usingJson (d : UsingDirective) : Json :=
  object "UsingDirective" d.span [textField "name" d.name, textField "alias" d.aliasName,
    flagField "static" d.isStatic, flagField "global" d.isGlobal]

def typeParamJson (p : TypeParam) : Json :=
  object "TypeParam" p.span [textField "name" p.name, textField "variance" p.variance]

def constraintJson (c : Constraint) : Json :=
  object "Constraint" c.span [textField "param" c.param,
    listField "types" (TypeRef.listToJson c.types)]

section Parts

/-! The objects of the constructs with named parts, given the objects `json` of the nodes inside. -/

variable {ν : Type} (json : ν → Json)

/-- A list of nodes. -/
def nodesField (name : String) (ns : List ν) : Fields := listField name (ns.map json)

/-- A node that may be missing. -/
def nodeField (name : String) (n : Option ν) : Fields := optField name (n.map json)

def argumentJson (a : Argument ν) : Json :=
  object "Argument" a.span [textField "name" a.name, textField "modifier" a.modifier,
    [("value", json a.value)]]

def argumentsField (name : String) (args : List (Argument ν)) : Fields :=
  nodesField (argumentJson json) name args

def attributeJson (a : Attribute ν) : Json :=
  object "Attribute" a.span [textField "target" a.target, textField "name" a.name,
    argumentsField json "args" a.args]

def attributesField (as : List (Attribute ν)) : Fields :=
  nodesField (attributeJson json) "attributes" as

def paramJson (p : Param ν) : Json :=
  object "Param" p.span [textField "name" p.name, [("name_span", p.nameSpan.toJson)],
    typeField "type" p.type, textField "modifier" p.modifier, nodeField json "default" p.default,
    attributesField json p.attributes]

def paramsField (name : String) (ps : List (Param ν)) : Fields :=
  nodesField (paramJson json) name ps

def varJson (d : VarDeclarator ν) : Json :=
  object "VarDeclarator" d.span [textField "name" d.name, [("name_span", d.nameSpan.toJson)],
    nodeField json "init" d.init]

def methodJson (d : Method ν) : Json :=
  object "MethodDecl" d.span [textField "name" d.name, [("name_span", d.nameSpan.toJson)],
    modifiersField d.modifiers, attributesField json d.attributes,
    [("return_type", d.returnType.toJson)], nodesField typeParamJson "type_params" d.typeParams,
    nodesField constraintJson "constraints" d.constraints, paramsField json "params" d.params,
    nodeField json "body" d.body, nodeField json "expr_body" d.exprBody, textField "doc" d.doc,
    textField "explicit_interface" d.explicitInterface, flagField "is_operator" d.isOperator,
    flagField "is_destructor" d.isDestructor]

/-- The call of another constructor. -/
def chainedJson (d : Constructor ν) : Option Json :=
  d.chained.map fun c => object "ConstructorInitializer" c.span [flagField "base" c.toBase,
    argumentsField json "args" d.chainedArgs]

def constructorJson (d : Constructor ν) : Json :=
  object "ConstructorDecl" d.span [textField "name" d.name, [("name_span", d.nameSpan.toJson)],
    modifiersField d.modifiers, attributesField json d.attributes,
    paramsField json "params" d.params, optField "initializer" (chainedJson json d),
    nodeField json "body" d.body, nodeField json "expr_body" d.exprBody, textField "doc" d.doc]

def propertyJson (d : Property ν) : Json :=
  object "PropertyDecl" d.span [textField "name" d.name, [("name_span", d.nameSpan.toJson)],
    [("type", d.type.toJson)], modifiersField d.modifiers, attributesField json d.attributes,
    paramsField json "index_params" d.indexParams, nodesField json "accessors" d.accessors,
    nodeField json "expr_body" d.exprBody, nodeField json "initializer" d.initializer,
    textField "doc" d.doc]

def fieldJson (d : Field ν) : Json :=
  object "FieldDecl" d.span [[("type", d.type.toJson)], modifiersField d.modifiers,
    attributesField json d.attributes, nodesField (varJson json) "vars" d.vars,
    textField "doc" d.doc]

def eventJson (d : Event ν) : Json :=
  object "EventDecl" d.span [textField "name" d.name, [("name_span", d.nameSpan.toJson)],
    [("type", d.type.toJson)], modifiersField d.modifiers, attributesField json d.attributes,
    nodesField json "accessors" d.accessors]

def delegateJson (d : Delegate ν) : Json :=
  object "DelegateDecl" d.span [textField "name" d.name, [("name_span", d.nameSpan.toJson)],
    modifiersField d.modifiers, attributesField json d.attributes,
    [("return_type", d.returnType.toJson)], nodesField typeParamJson "type_params" d.typeParams,
    paramsField json "params" d.params, textField "doc" d.doc]

def typeDeclJson (d : TypeDecl ν) : Json :=
  object "TypeDecl" d.span [[("kind", .string d.kind.text)], textField "name" d.name,
    [("name_span", d.nameSpan.toJson)], modifiersField d.modifiers,
    attributesField json d.attributes, nodesField typeParamJson "type_params" d.typeParams,
    nodesField constraintJson "constraints" d.constraints,
    paramsField json "primary_params" d.primaryParams,
    listField "base_types" (TypeRef.listToJson d.baseTypes), nodesField json "members" d.members,
    nodesField json "enum_members" d.enumMembers, textField "doc" d.doc]

def namespaceJson (d : NamespaceDecl ν) : Json :=
  object "NamespaceDecl" d.span [textField "name" d.name, [("name_span", d.nameSpan.toJson)],
    nodesField usingJson "usings" d.usings, nodesField json "members" d.members,
    flagField "file_scoped" d.fileScoped]

def unitJson (d : CompilationUnit ν) : Json :=
  object "CompilationUnit" d.span [nodesField usingJson "usings" d.usings,
    optField "file_scoped_namespace" (d.fileScopedNamespace.map (namespaceJson json)),
    nodesField json "members" d.members, attributesField json d.attributes,
    flagField "nullable_enabled" d.nullableEnabled]

end Parts

end Syntax

namespace Node

/-- The object of a node, given the objects of the nodes inside it. -/
def jsonStep (json : Node → Json) : Node → Json
  | unit d => unitJson json d
  | usingDirective d => usingJson d
  | namespaceDecl d => namespaceJson json d
  | .attribute a => attributeJson json a
  | typeParam p => typeParamJson p
  | .constraint c => constraintJson c
  | typeDecl d => typeDeclJson json d
  | delegate d => delegateJson json d
  | method d => methodJson json d
  | constructor d => constructorJson json d
  | property d => propertyJson json d
  | varDeclarator d => varJson json d
  | field d => fieldJson json d
  | event d => eventJson json d
  | type t => t.toJson
  | param p => paramJson json p
  | argument a => argumentJson json a
  | n => object n.construct n.span (parts json n)
where
  /-- The named parts of the remaining constructs. -/
  parts (json : Node → Json) : Node → List Fields
    | enumMember _ name attributes value =>
      [textField "name" name, attributesField json attributes, nodeField json "value" value]
    | accessor _ kind modifiers body exprBody =>
      [textField "kind" kind, modifiersField modifiers, nodeField json "body" body,
        nodeField json "expr_body" exprBody]
    | block _ stmts => [nodesField json "stmts" stmts]
    | exprStmt _ x => [[("x", json x)]]
    | localDecl _ ty isConst isRef vars =>
      [typeField "type" ty, flagField "const" isConst, flagField "ref" isRef,
        nodesField (varJson json) "vars" vars]
    | localFunc _ f => [[("func", methodJson json f)]]
    | ifStmt _ cond t e => [[("cond", json cond), ("then", json t)], nodeField json "else" e]
    | forStmt _ init cond post body =>
      [nodesField json "init" init, nodeField json "cond" cond, nodesField json "post" post,
        [("body", json body)]]
    | foreachStmt _ ty varName varSpan collection body isAwait =>
      [typeField "type" ty, textField "var_name" varName,
        [("var_span", varSpan.toJson), ("collection", json collection), ("body", json body)],
        flagField "await" isAwait]
    | whileStmt _ cond body => [[("cond", json cond), ("body", json body)]]
    | doStmt _ body cond => [[("body", json body), ("cond", json cond)]]
    | caseLabel _ value patternType patternVar guard =>
      [nodeField json "value" value, typeField "pattern_type" patternType,
        textField "pattern_var" patternVar, nodeField json "when" guard]
    | switchSection _ labels stmts =>
      [nodesField json "labels" labels, nodesField json "stmts" stmts]
    | switchStmt _ tag sections => [[("tag", json tag)], nodesField json "sections" sections]
    | usingStmt _ decl resource body isAwait =>
      [nodeField json "decl" decl, nodeField json "resource" resource, nodeField json "body" body,
        flagField "await" isAwait]
    | catchClause _ ty varName filter body =>
      [typeField "type" ty, textField "var_name" varName, nodeField json "filter" filter,
        [("body", json body)]]
    | tryStmt _ body catches finallyBlock =>
      [[("body", json body)], nodesField json "catches" catches,
        nodeField json "finally" finallyBlock]
    | returnStmt _ result => [nodeField json "result" result]
    | throwStmt _ x => [nodeField json "x" x]
    | lockStmt _ x body => [[("x", json x), ("body", json body)]]
    | yieldStmt _ isBreak x => [flagField "break" isBreak, nodeField json "x" x]
    | gotoStmt _ label => [textField "label" label]
    | labeledStmt _ label stmt => [textField "label" label, [("stmt", json stmt)]]
    | checkedStmt _ keyword body => [textField "keyword" keyword, [("body", json body)]]
    | ident _ name typeArgs =>
      [textField "name" name, listField "type_args" (TypeRef.listToJson typeArgs)]
    | literal _ kind value => [[("kind", .string kind.text)], textField "value" value]
    | predefinedType _ name => [textField "name" name]
    | memberAccess _ x name typeArgs nullCond =>
      [[("x", json x)], textField "name" name,
        listField "type_args" (TypeRef.listToJson typeArgs), flagField "null_cond" nullCond]
    | invocation _ callee args => [[("fun", json callee)], argumentsField json "args" args]
    | elementAccess _ x args nullCond =>
      [[("x", json x)], argumentsField json "args" args, flagField "null_cond" nullCond]
    | unary _ op x isPostfix =>
      [textField "op" op, [("x", json x)], flagField "postfix" isPostfix]
    | binary _ op x y => [textField "op" op, [("x", json x), ("y", json y)]]
    | assign _ op lhs rhs => [textField "op" op, [("lhs", json lhs), ("rhs", json rhs)]]
    | conditional _ cond t e => [[("cond", json cond), ("then", json t), ("else", json e)]]
    | newExpr _ ty args init arraySize =>
      [typeField "type" ty, argumentsField json "args" args, nodesField json "init" init,
        nodesField json "array_size" arraySize]
    | lambda _ params body isAsync =>
      [paramsField json "params" params, [("body", json body)], flagField "async" isAsync]
    | cast _ ty x => [[("type", ty.toJson), ("x", json x)]]
    | isExpr _ x ty pattern varName negated =>
      [[("x", json x)], typeField "type" ty, nodeField json "pattern" pattern,
        textField "var_name" varName, flagField "not" negated]
    | asExpr _ x ty => [[("x", json x), ("type", ty.toJson)]]
    | typeOf _ keyword ty => [textField "keyword" keyword, [("type", ty.toJson)]]
    | paren _ x => [[("x", json x)]]
    | initializer _ elems => [nodesField json "elems" elems]
    | await _ x => [[("x", json x)]]
    | throwExpr _ x => [[("x", json x)]]
    | tuple _ elems => [argumentsField json "elems" elems]
    | declExpr _ ty name => [typeField "type" ty, textField "name" name]
    | switchExpr _ x arms => [[("x", json x)], nodesField json "arms" arms]
    | switchArm _ pattern guard value =>
      [[("pattern", json pattern)], nodeField json "when" guard, [("value", json value)]]
    | _ => []

/-- The number of nodes on the longest way down from a node. -/
def height (n : Node) : Nat := n.fold fun _ hs => hs.foldl max 0 + 1

/-- A syntax tree as a JSON value, down to the given depth. -/
def jsonToDepth : Nat → Node → Json
  | 0, _ => .null
  | d + 1, n => jsonStep (jsonToDepth d) n

/-- A syntax tree as a JSON value. -/
def toJson (n : Node) : Json := jsonToDepth n.height n

end Node

end CSharpAudit
