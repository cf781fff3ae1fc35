import CSharpAudit.Text.Case
import CSharpAudit.Text.CharSet
import CSharpAudit.Text.Quoted

/-!
# Diagnostic codes

Every finding carries a code: `BSE` and five digits for an error, `BSW` and five digits for a
warning. The catalog gives each code a severity, a category and a message.

## Main definitions

* `Severity` — how much a finding weighs
* `Severity.ofText?` — the severity that a word names
* `Code` — a diagnostic code
* `Category` — what a code is about
* `Code.catalog` — the known codes in ascending order
-/

namespace CSharpAudit

/-! ### Severities -/

/-- How much a finding weighs. `off` is only meaningful as a configured severity: it drops the
findings of a code. -/
inductive Severity where
  | off | info | warning | error
  deriving DecidableEq, Repr, Inhabited

namespace Severity

/-- The word that names a severity. -/
def text : Severity → String
  | off => "off"
  | info => "info"
  | warning => "warning"
  | error => "error"

/-- The place of a severity in their order. -/
def rank : Severity → Int
  | off => -1
  | info => 0
  | warning => 1
  | error => 2

/-- The severity that a word names, whatever its case and the blanks around it. -/
def ofText? (s : String) : Option Severity :=
  match Text.lowered (Text.trimBlank s) with
  | "off" | "none" => some off
  | "info" | "hint" => some info
  | "warning" | "warn" => some warning
  | "error" => some error
  | _ => none

/-- The message about a word that names no severity. -/
def unknownText (s : String) : String := "unknown severity " ++ Text.Quoted.text s

theorem ofText?_text (s : Severity) : ofText? s.text = some s := by
  cases s <;> decide +kernel

/-- Whether a severity weighs at least as much as another. -/
def atLeast (s least : Severity) : Bool := least.rank ≤ s.rank

end Severity

/-! ### Codes -/

/-- What a diagnostic code is about. -/
inductive Category where
  | semantic | type | maintainability | style | performance | security | flow
  deriving DecidableEq, Repr, Inhabited

/-- The word that names a category. -/
def Category.text : Category → String
  | semantic => "semantic"
  | type => "type"
  | maintainability => "maintainability"
  | style => "style"
  | performance => "performance"
  | security => "security"
  | flow => "flow"

/-- A diagnostic code. -/
structure Code where
  id : String
  deriving DecidableEq, Repr, Inhabited

namespace Code

/-! ### Constructors -/

def asyncConstructor : Code := ⟨"BSE01001"⟩
def constructorReturnType : Code := ⟨"BSE01002"⟩
def constructorVirtual : Code := ⟨"BSE01003"⟩
def constructorStaticMix : Code := ⟨"BSE01004"⟩
def constructorName : Code := ⟨"BSE01005"⟩
def duplicateConstructor : Code := ⟨"BSE01006"⟩
def invalidBaseCall : Code := ⟨"BSE01007"⟩
def circularConstructor : Code := ⟨"BSE01008"⟩
def constructorOverride : Code := ⟨"BSE01009"⟩
def interfaceConstructor : Code := ⟨"BSE01010"⟩

/-! ### Methods -/

def abstractWithBody : Code := ⟨"BSE02001"⟩
def missingBody : Code := ⟨"BSE02002"⟩
def virtualInSealed : Code := ⟨"BSE02003"⟩
def overrideSignature : Code := ⟨"BSE02004"⟩
def virtualStatic : Code := ⟨"BSE02005"⟩
def staticOverride : Code := ⟨"BSE02006"⟩
def noOverrideTarget : Code := ⟨"BSE02007"⟩
def interfaceMethodBody : Code := ⟨"BSE02008"⟩
def asyncReturnType : Code := ⟨"BSE02009"⟩
def duplicateParameter : Code := ⟨"BSE02010"⟩
def duplicateMethod : Code := ⟨"BSE02011"⟩
def extensionOutsideStatic : Code := ⟨"BSE02012"⟩

/-! ### Types -/

def typeNotFound : Code := ⟨"BSE03001"⟩
def notInstantiable : Code := ⟨"BSE03002"⟩
def typeArgMismatch : Code := ⟨"BSE03003"⟩
def constraintUnsatisfied : Code := ⟨"BSE03004"⟩
def circularType : Code := ⟨"BSE03005"⟩
def interfaceFromClass : Code := ⟨"BSE03006"⟩
def classFromInterface : Code := ⟨"BSE03007"⟩
def structInherits : Code := ⟨"BSE03008"⟩
def typeVisibility : Code := ⟨"BSE03009"⟩
def duplicateTypeParam : Code := ⟨"BSE03010"⟩

/-! ### Access modifiers -/

def notAccessible : Code := ⟨"BSE04001"⟩
def privateInInterface : Code := ⟨"BSE04002"⟩
def protectedInStruct : Code := ⟨"BSE04003"⟩
def inconsistentAccess : Code := ⟨"BSE04004"⟩
def staticCtorModifiers : Code := ⟨"BSE04005"⟩
def privateAbstract : Code := ⟨"BSE04006"⟩
def privateVirtual : Code := ⟨"BSE04007"⟩
def overrideVisibility : Code := ⟨"BSE04008"⟩
def sealedNotOverride : Code := ⟨"BSE04009"⟩
def abstractInNonAbstract : Code := ⟨"BSE04010"⟩

/-! ### Maintainability -/

def highComplexity : Code := ⟨"BSW01001"⟩
def methodTooLong : Code := ⟨"BSW01002"⟩
def tooManyParams : Code := ⟨"BSW01003"⟩
def missingDocs : Code := ⟨"BSW01004"⟩
def deepNesting : Code := ⟨"BSW01005"⟩
def largeClass : Code := ⟨"BSW01006"⟩
def highCoupling : Code := ⟨"BSW01007"⟩
def lowCohesion : Code := ⟨"BSW01008"⟩
def godClass : Code := ⟨"BSW01009"⟩
def featureEnvy : Code := ⟨"BSW01010"⟩

/-! ### Style -/

def namingConvention : Code := ⟨"BSW02001"⟩
def pascalCase : Code := ⟨"BSW02002"⟩
def camelCase : Code := ⟨"BSW02003"⟩
def upperCase : Code := ⟨"BSW02004"⟩
def unusedVariable : Code := ⟨"BSW02005"⟩
def unusedParameter : Code := ⟨"BSW02006"⟩
def redundantAssign : Code := ⟨"BSW02007"⟩
def magicNumber : Code := ⟨"BSW02008"⟩
def duplicateString : Code := ⟨"BSW02009"⟩
def emptyBlock : Code := ⟨"BSW02010"⟩

/-! ### Performance -/

def boxing : Code := ⟨"BSW03001"⟩
def stringConcatLoop : Code := ⟨"BSW03002"⟩
def linqConcern : Code := ⟨"BSW03003"⟩
def allocationInLoop : Code := ⟨"BSW03004"⟩
def syncInAsync : Code := ⟨"BSW03005"⟩
def exceptionFlow : Code := ⟨"BSW03006"⟩
def collectionUsage : Code := ⟨"BSW03007"⟩
def closureInLoop : Code := ⟨"BSW03008"⟩
def largeObject : Code := ⟨"BSW03009"⟩
def queryInLoop : Code := ⟨"BSW03010"⟩

/-! ### Security -/

def sqlInjection : Code := ⟨"BSW04001"⟩
def xss : Code := ⟨"BSW04002"⟩
def hardcodedSecret : Code := ⟨"BSW04003"⟩
def weakCrypto : Code := ⟨"BSW04004"⟩
def pathTraversal : Code := ⟨"BSW04005"⟩
def insecureRandom : Code := ⟨"BSW04006"⟩
def missingValidation : Code := ⟨"BSW04007"⟩
def sensitiveLog : Code := ⟨"BSW04008"⟩
def unsafeDeserialize : Code := ⟨"BSW04009"⟩
def missingAuth : Code := ⟨"BSW04010"⟩

/-! ### Flow -/

def unreachable : Code := ⟨"BSW05001"⟩
def nullToNonNullable : Code := ⟨"BSW05002"⟩
def duplicateAttr : Code := ⟨"BSW05003"⟩

/-! ### The catalog -/

/-- What the catalog tells about a code. -/
structure Entry where
  code : Code
  severity : Severity
  category : Category
  message : String
  deriving Repr, Inhabited

/-- The known codes in ascending order. -/
def catalog : List Entry := [
  ⟨asyncConstructor, .error, .semantic, "Constructors cannot be declared async"⟩,
  ⟨constructorReturnType, .error, .semantic, "Constructors cannot have an explicit return type"⟩,
  ⟨constructorVirtual, .error, .semantic, "Constructors cannot be virtual or abstract"⟩,
  ⟨constructorStaticMix, .error, .semantic, "Constructor cannot be both static and instance"⟩,
  ⟨constructorName, .error, .semantic, "Constructor name must match the containing class name"⟩,
  ⟨duplicateConstructor, .error, .semantic, "Multiple constructors with the same signature"⟩,
  ⟨invalidBaseCall, .error, .semantic, "Invalid base constructor call"⟩,
  ⟨circularConstructor, .error, .semantic, "Circular constructor dependency detected"⟩,
  ⟨constructorOverride, .error, .semantic, "Constructors cannot override other constructors"⟩,
  ⟨interfaceConstructor, .error, .semantic, "Interfaces cannot contain constructors"⟩,
  ⟨abstractWithBody, .error, .semantic, "Abstract methods cannot have a body"⟩,
  ⟨missingBody, .error, .semantic, "Non-abstract methods must have a body"⟩,
  ⟨virtualInSealed, .error, .semantic, "Virtual methods cannot be declared in sealed classes"⟩,
  ⟨overrideSignature, .error, .semantic, "Override method signature does not match base method"⟩,
  ⟨virtualStatic, .error, .semantic, "Methods cannot be both virtual and static"⟩,
  ⟨staticOverride, .error, .semantic, "Static methods cannot override other methods"⟩,
  ⟨noOverrideTarget, .error, .semantic, "No suitable method found to override"⟩,
  ⟨interfaceMethodBody, .error, .semantic, "Interface methods cannot have a body"⟩,
  ⟨asyncReturnType, .error, .semantic, "Async methods must return Task or Task<T>"⟩,
  ⟨duplicateParameter, .error, .semantic, "Method parameter names must be unique"⟩,
  ⟨duplicateMethod, .error, .semantic, "Multiple methods with the same signature"⟩,
  ⟨extensionOutsideStatic, .error, .semantic,
    "Extension methods must be declared in a non-nested static class"⟩,
  ⟨typeNotFound, .error, .type, "Type could not be found"⟩,
  ⟨notInstantiable, .error, .type, "Cannot create an instance of this type"⟩,
  ⟨typeArgMismatch, .error, .type, "Type argument does not match constraint"⟩,
  ⟨constraintUnsatisfied, .error, .type, "Generic constraints are not satisfied"⟩,
  ⟨circularType, .error, .type, "Circular type dependency detected"⟩,
  ⟨interfaceFromClass, .error, .type, "Interfaces cannot inherit from classes"⟩,
  ⟨classFromInterface, .error, .type, "Classes cannot inherit from interfaces (use : instead)"⟩,
  ⟨structInherits, .error, .type, "Structs cannot inherit from other types"⟩,
  ⟨typeVisibility, .error, .type, "Inconsistent type visibility"⟩,
  ⟨duplicateTypeParam, .error, .type, "Generic type parameter names must be unique"⟩,
  ⟨notAccessible, .error, .semantic, "Member is not accessible in this context"⟩,
  ⟨privateInInterface, .error, .semantic, "Interface members cannot be private"⟩,
  ⟨protectedInStruct, .error, .semantic, "Struct members cannot be protected"⟩,
  ⟨inconsistentAccess, .error, .semantic, "Inconsistent accessibility between types"⟩,
  ⟨staticCtorModifiers, .error, .semantic, "Static constructors cannot have access modifiers"⟩,
  ⟨privateAbstract, .error, .semantic, "Abstract members cannot be private"⟩,
  ⟨privateVirtual, .error, .semantic, "Virtual members cannot be private"⟩,
  ⟨overrideVisibility, .error, .semantic, "Override member visibility does not match base"⟩,
  ⟨sealedNotOverride, .error, .semantic, "Sealed modifier can only be used on overriding members"⟩,
  ⟨abstractInNonAbstract, .error, .semantic,
    "Abstract members cannot exist in non-abstract classes"⟩,
  ⟨highComplexity, .warning, .maintainability, "Method has high cyclomatic complexity"⟩,
  ⟨methodTooLong, .warning, .maintainability, "Method is too long"⟩,
  ⟨tooManyParams, .warning, .maintainability, "Method has too many parameters"⟩,
  ⟨missingDocs, .warning, .maintainability, "Missing XML documentation"⟩,
  ⟨deepNesting, .warning, .maintainability, "Deep nesting detected"⟩,
  ⟨largeClass, .warning, .maintainability, "Class is too large"⟩,
  ⟨highCoupling, .warning, .maintainability, "High coupling detected"⟩,
  ⟨lowCohesion, .warning, .maintainability, "Low cohesion detected"⟩,
  ⟨godClass, .warning, .maintainability, "God class anti-pattern detected"⟩,
  ⟨featureEnvy, .warning, .maintainability, "Feature envy anti-pattern detected"⟩,
  ⟨namingConvention, .warning, .style, "Naming convention violation"⟩,
  ⟨pascalCase, .warning, .style, "PascalCase naming expected"⟩,
  ⟨camelCase, .warning, .style, "camelCase naming expected"⟩,
  ⟨upperCase, .warning, .style, "UPPER_CASE naming expected"⟩,
  ⟨unusedVariable, .warning, .style, "Variable is declared but never used"⟩,
  ⟨unusedParameter, .warning, .style, "Parameter is declared but never used"⟩,
  ⟨redundantAssign, .warning, .style, "Redundant assignment detected"⟩,
  ⟨magicNumber, .warning, .style, "Magic number should be a named constant"⟩,
  ⟨duplicateString, .warning, .style, "String literal duplication"⟩,
  ⟨emptyBlock, .warning, .style, "Empty block statement"⟩,
  ⟨boxing, .warning, .performance, "Boxing/unboxing operation detected"⟩,
  ⟨stringConcatLoop, .warning, .performance, "String concatenation in loop"⟩,
  ⟨linqConcern, .warning, .performance, "LINQ performance concern"⟩,
  ⟨allocationInLoop, .warning, .performance, "Unnecessary object allocation"⟩,
  ⟨syncInAsync, .warning, .performance, "Synchronous call in async method"⟩,
  ⟨exceptionFlow, .warning, .performance, "Using exceptions for control flow"⟩,
  ⟨collectionUsage, .warning, .performance, "Inefficient collection usage"⟩,
  ⟨closureInLoop, .warning, .performance, "Closure allocation in loop"⟩,
  ⟨largeObject, .warning, .performance, "Large object heap allocation"⟩,
  ⟨queryInLoop, .warning, .performance, "Database query in loop"⟩,
  ⟨sqlInjection, .warning, .security, "Potential SQL injection vulnerability"⟩,
  ⟨xss, .warning, .security, "Potential XSS vulnerability"⟩,
  ⟨hardcodedSecret, .warning, .security, "Hardcoded credential detected"⟩,
  ⟨weakCrypto, .warning, .security, "Weak cryptographic algorithm"⟩,
  ⟨pathTraversal, .warning, .security, "Potential path traversal vulnerability"⟩,
  ⟨insecureRandom, .warning, .security, "Insecure random number generation"⟩,
  ⟨missingValidation, .warning, .security, "Missing input validation"⟩,
  ⟨sensitiveLog, .warning, .security, "Sensitive data in log statement"⟩,
  ⟨unsafeDeserialize, .warning, .security, "Unsafe deserialization"⟩,
  ⟨missingAuth, .warning, .security, "Missing authentication check"⟩,
  ⟨unreachable, .warning, .flow, "Unreachable code detected"⟩,
  ⟨nullToNonNullable, .warning, .flow, "Null assigned to a non-nullable reference"⟩,
  ⟨duplicateAttr, .warning, .flow, "Attribute applied more than once"⟩]

/-- The catalog entry of a code. -/
def entry? (c : Code) : Option Entry := catalog.find? (·.code == c)

/-- The severity of a code; an unknown code is a warning. -/
def severity (c : Code) : Severity := (c.entry?.map (·.severity)).getD .warning

/-- The category of a known code. -/
def category? (c : Code) : Option Category := c.entry?.map (·.category)

/-- The message of a code; an unknown code is its own message. -/
def message (c : Code) : String := (c.entry?.map (·.message)).getD c.id

end Code

end CSharpAudit
