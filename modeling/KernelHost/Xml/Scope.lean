import KernelHost.Xml.Name
import KernelHost.Xml.Tree

/-!
# Namespaces

Tags declare prefixes for their element and what is inside it.  Prefixes tell attributes of one
base name apart; here they are resolved and checked.
-/

namespace KernelHost.Xml

/-- The namespace that the prefix `xml` stands for in every document. -/
def xmlSpace : String := "http://www.w3.org/XML/1998/namespace"

/-- The namespace of declarations. -/
def declarationSpace : String := "http://www.w3.org/2000/xmlns/"

/-- Declared prefixes with their namespaces, the innermost first. -/
abbrev Scope := List (String × String)

/-- An attribute as it stands in a tag. -/
structure TagAttribute where
  /-- The offset of its name. -/
  start : Nat
  /-- Its name as written. -/
  name : QName
  /-- Its value with references resolved. -/
  value : String
  deriving DecidableEq, Repr

/-- The names of a tag while it is read. -/
structure TagNames where
  /-- The prefixes that the tag declares. -/
  declared : Scope := []
  /-- The attributes other than declarations, in order. -/
  attributes : List TagAttribute := []
  deriving Repr

/-- Checks the declaration of a prefix. -/
def checkDeclaration (names : TagNames) (a : TagAttribute) : Except Fault Unit :=
  let refuse (flaw : Flaw) : Except Fault Unit := .error ⟨flaw, a.start⟩
  if a.value == declarationSpace then refuse .declarationSpace
  else if a.name.base == "xml" then
    if a.value == xmlSpace then .ok () else refuse .foreignXmlSpace
  else if a.value == xmlSpace then refuse .xmlSpaceElsewhere
  else if (names.declared.lookup a.name.base).isSome then refuse (.repeatedPrefix a.name.base)
  else .ok ()

/--
Enters an attribute into the names of its tag.  A declaration of `xml` says what holds anyway and
is not kept; neither is the default namespace, on which nothing here depends.
-/
def TagNames.insert (names : TagNames) (a : TagAttribute) : Except Fault TagNames :=
  if a.name.head == "xmlns" then do
    checkDeclaration names a
    if a.name.base == "xml" then return names
    return { names with declared := names.declared ++ [(a.name.base, a.value)] }
  else if a.name.base == "xmlns" then
    if a.value == xmlSpace then .error ⟨.xmlSpaceElsewhere, a.start⟩
    else if a.value == declarationSpace then .error ⟨.declarationSpace, a.start⟩
    else .ok names
  else .ok { names with attributes := names.attributes ++ [a] }

/-- The namespace of an attribute in a scope. -/
def TagAttribute.space (scope : Scope) (a : TagAttribute) : Except Fault (Option String) :=
  if a.name.head == "" then .ok none
  else if a.name.head == "xml" then .ok (some xmlSpace)
  else
    match scope.lookup a.name.head with
    | some space => .ok (some space)
    | none => .error ⟨.unknownPrefix a.name.head, a.start⟩

/-- Resolves the attributes of a tag behind those already resolved. -/
def resolveAttributes (scope : Scope) (done : List Attribute) :
    List TagAttribute → Except Fault (List Attribute)
  | [] => .ok done
  | a :: more => do
    let space ← a.space scope
    if done.any fun b => b.space == space && b.base == a.name.base then
      .error ⟨.repeatedAttribute a.name.base, a.start⟩
    else resolveAttributes scope (done ++ [⟨space, a.name.base, a.value⟩]) more

end KernelHost.Xml
