/-!
What can go wrong with a declaration, and what the generator has to guess. A fault stops one
declaration; a caveat accompanies a document that is written all the same.
-/

namespace ProtoSchema

inductive TypeFault where
  | emptyName
  | unmatchedClose
  | missingName
  | unclosed
  | trailingText
  | emptyArgument
  deriving DecidableEq, Repr

def TypeFault.message : TypeFault → String
  | .emptyName => "empty type name"
  | .unmatchedClose => "unmatched '>'"
  | .missingName => "missing name before '<'"
  | .unclosed => "unclosed '<'"
  | .trailingText => "unexpected text after closing '>'"
  | .emptyArgument => "empty type argument"

inductive Cause where
  | malformedType (declaredType : String) (fault : TypeFault)
  | duplicateName (name : String)
  deriving DecidableEq, Repr

def Cause.message : Cause → String
  | .malformedType declaredType fault =>
      "malformed generic syntax in '" ++ declaredType ++ "': " ++ fault.message
  | .duplicateName name =>
      "'" ++ name ++ "' is declared more than once; only the first declaration is generated"

structure Failure where
  declaration : String
  cause : Cause
  deriving DecidableEq, Repr

def Failure.message (f : Failure) : String :=
  "failed to generate '" ++ f.declaration ++ "': " ++ f.cause.message

inductive Caveat where
  | unresolvedShape (declaredType : String) (arity : Nat)
  | ambiguousReference (typeName : String) (referencedBy : String)
  deriving DecidableEq, Repr

def Caveat.message : Caveat → String
  | .unresolvedShape declaredType arity =>
      "generic type '" ++ declaredType ++ "' has " ++ toString arity ++
        " type arguments; treated as an opaque name"
  | .ambiguousReference typeName referencedBy =>
      "type '" ++ typeName ++ "' referenced by '" ++ referencedBy ++
        "' is not declared in this run; assuming message " ++ typeName

/-- Unresolved shapes come first; within a kind the first component decides, then the second. -/
def Caveat.le : Caveat → Caveat → Bool
  | .unresolvedShape t m, .unresolvedShape u n => t < u || t == u && m ≤ n
  | .unresolvedShape .., .ambiguousReference .. => true
  | .ambiguousReference .., .unresolvedShape .. => false
  | .ambiguousReference t r, .ambiguousReference u s => t < u || t == u && (r < s || r == s)

end ProtoSchema
