import ProtoSchema.Text.Parts

/-!
Dotted names such as `com.acme.Order.Status`: their segments, and when one name ends another at a
segment boundary.
-/

namespace ProtoSchema.Text

/-- The pieces between the dots; a name without dots is its only piece. -/
def segments (s : List Char) : List (List Char) := parts '.' s

def joinDots (ss : List (List Char)) : List Char := List.intercalate ['.'] ss

theorem segments_ne_nil (s : List Char) : segments s ≠ [] := parts_ne_nil '.' s

/-- Whether `short` is `long` or what follows one of the dots of `long`. -/
def isTail (short long : String) : Bool :=
  short == long || ('.' :: short.toList).isSuffixOf long.toList

theorem isTail_iff {short long : String} :
    isTail short long = true ↔ short = long ∨ '.' :: short.toList <:+ long.toList := by
  rw [isTail, Bool.or_eq_true, beq_iff_eq, List.isSuffixOf_iff_suffix]

/-- The last segment of a name: what follows its last dot. -/
def simpleName (name : String) : String :=
  String.ofList ((name.toList.reverse.takeWhile (· ≠ '.')).reverse)

end ProtoSchema.Text
