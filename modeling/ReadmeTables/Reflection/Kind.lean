import ReadmeTables.Text.Basic
/-!
Kinds of reflections.

A kind is a number, and the numbers in use have names. Other numbers are kept as they are.
-/

namespace ReadmeTables.Reflection

structure Kind where
  code : Int
deriving DecidableEq

namespace Kind

-- The kind of a reflection that does not say, or says no number.
def global : Kind := ⟨0⟩

def variableKind : Kind := ⟨32⟩

def functionKind : Kind := ⟨64⟩

def method : Kind := ⟨2048⟩

def accessor : Kind := ⟨262144⟩

def typeAlias : Kind := ⟨4194304⟩

-- The kinds that have a name.
def named : List (Kind × Text) :=
  [(⟨0⟩, "Global"), (⟨1⟩, "ExternalModule"), (⟨2⟩, "Module"), (⟨4⟩, "Enum"),
   (⟨16⟩, "EnumMember"), (⟨32⟩, "Variable"), (⟨64⟩, "Function"), (⟨128⟩, "Class"),
   (⟨256⟩, "Interface"), (⟨512⟩, "Constructor"), (⟨1024⟩, "Property"), (⟨2048⟩, "Method"),
   (⟨4096⟩, "CallSignature"), (⟨8192⟩, "IndexSignature"), (⟨16384⟩, "ConstructorSignature"),
   (⟨32768⟩, "Parameter"), (⟨65536⟩, "TypeLiteral"), (⟨131072⟩, "TypeParameter"),
   (⟨262144⟩, "Accessor"), (⟨524288⟩, "GetSignature"), (⟨1048576⟩, "SetSignature"),
   (⟨2097152⟩, "ObjectLiteral"), (⟨4194304⟩, "TypeAlias"), (⟨8388608⟩, "Event")]

-- The name of a kind, or its number where it has none.
def label (kind : Kind) : Text :=
  ((named.find? fun entry => entry.1 = kind).map Prod.snd).getD (Text.ofInt kind.code)

end Kind

end ReadmeTables.Reflection
