import ApiDocs.FlagText

/-!
Flag words of symbols and declarations. A word may have bits without a name.
-/

namespace ApiDocs

/-- What a symbol stands for. -/
abbrev SymbolFlags := BitVec 32

/-- The modifiers written before a declaration. -/
abbrev Modifiers := BitVec 16

/-- The two words have a bit in common. -/
def meets (word mask : BitVec width) : Bool := word &&& mask != 0

/-- The first word has all bits of the second. -/
def covers (word mask : BitVec width) : Bool := word &&& mask == mask

namespace SymbolFlags

def functionScopedVariable : SymbolFlags := 0x1
def blockScopedVariable : SymbolFlags := 0x2
def property : SymbolFlags := 0x4
def enumMember : SymbolFlags := 0x8
def function : SymbolFlags := 0x10
def class_ : SymbolFlags := 0x20
def interface : SymbolFlags := 0x40
def constEnum : SymbolFlags := 0x80
def regularEnum : SymbolFlags := 0x100
def valueModule : SymbolFlags := 0x200
def namespaceModule : SymbolFlags := 0x400
def method : SymbolFlags := 0x800
def constructor : SymbolFlags := 0x1000
def getAccessor : SymbolFlags := 0x2000
def setAccessor : SymbolFlags := 0x4000
def signature : SymbolFlags := 0x8000
def typeAlias : SymbolFlags := 0x10000
def alias_ : SymbolFlags := 0x20000

def variable_ : SymbolFlags := functionScopedVariable ||| blockScopedVariable
def enum : SymbolFlags := constEnum ||| regularEnum
def module : SymbolFlags := valueModule ||| namespaceModule

def names : FlagText.Names 32 where
  bits := [
    ("FUNCTION_SCOPED_VARIABLE", functionScopedVariable),
    ("BLOCK_SCOPED_VARIABLE", blockScopedVariable),
    ("PROPERTY", property),
    ("ENUM_MEMBER", enumMember),
    ("FUNCTION", function),
    ("CLASS", class_),
    ("INTERFACE", interface),
    ("CONST_ENUM", constEnum),
    ("REGULAR_ENUM", regularEnum),
    ("VALUE_MODULE", valueModule),
    ("NAMESPACE_MODULE", namespaceModule),
    ("METHOD", method),
    ("CONSTRUCTOR", constructor),
    ("GET_ACCESSOR", getAccessor),
    ("SET_ACCESSOR", setAccessor),
    ("SIGNATURE", signature),
    ("TYPE_ALIAS", typeAlias),
    ("ALIAS", alias_)]
  groups := [("VARIABLE", variable_), ("ENUM", enum), ("MODULE", module)]

end SymbolFlags

namespace Modifiers

def export_ : Modifiers := 0x1
def declare : Modifiers := 0x2
def public_ : Modifiers := 0x4
def protected_ : Modifiers := 0x8
def private_ : Modifiers := 0x10
def static : Modifiers := 0x20
def readonly : Modifiers := 0x40
def abstract : Modifiers := 0x80
def async : Modifiers := 0x100
def const : Modifiers := 0x200
def default : Modifiers := 0x400

def accessibility : Modifiers := public_ ||| protected_ ||| private_

/-- Modifiers that make a constructor parameter a property of the class. -/
def parameterProperty : Modifiers := accessibility ||| readonly

def names : FlagText.Names 16 where
  bits := [
    ("EXPORT", export_),
    ("DECLARE", declare),
    ("PUBLIC", public_),
    ("PROTECTED", protected_),
    ("PRIVATE", private_),
    ("STATIC", static),
    ("READONLY", readonly),
    ("ABSTRACT", abstract),
    ("ASYNC", async),
    ("CONST", const),
    ("DEFAULT", default)]
  groups := [("ACCESSIBILITY", accessibility), ("PARAMETER_PROPERTY", parameterProperty)]

end Modifiers

end ApiDocs
