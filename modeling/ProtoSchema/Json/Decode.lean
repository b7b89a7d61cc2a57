import ProtoSchema.Json.Node
import ProtoSchema.Text.Quoted
import ProtoSchema.Decimal.Shortest

/-!
Reading domain values out of JSON trees. A reader goes through a tree from left to right and stops
at the first problem, be it that the text is no JSON or that a value does not fit.
-/

namespace ProtoSchema.Json

inductive Found where
  | null
  | bool (b : Bool)
  | number (n : Number)
  | text (s : String)
  | sequence
  | map

def Found.describe : Found → String
  | .null => "null"
  | .bool true => "boolean `true`"
  | .bool false => "boolean `false`"
  | .number (.integer i) => "integer `" ++ toString i ++ "`"
  | .number (.real x) => "floating point `" ++ Decimal.text x ++ "`"
  | .text s => "string " ++ Text.quoted s
  | .sequence => "sequence"
  | .map => "map"

inductive DataFault where
  | wrongType (found : Found) (expected : String)
  | notSingleKey
  | missingField (name : String)
  | duplicateField (name : String)
  | tooShort (length : Nat) (record : String) (fields : Nat)
  | tooLong (length : Nat) (fields : Nat)
  | unknownVariant (name : String) (known : List String)
  | enumAsType (name : String)

def alternatives (names : List String) : String :=
  match names.map fun n => "`" ++ n ++ "`" with
  | [a, b] => a ++ " or " ++ b
  | quoted => "one of " ++ ", ".intercalate quoted

def DataFault.message : DataFault → String
  | .wrongType found expected => "invalid type: " ++ found.describe ++ ", expected " ++ expected
  | .notSingleKey => "invalid value: map, expected map with a single key"
  | .missingField name => "missing field `" ++ name ++ "`"
  | .duplicateField name => "duplicate field `" ++ name ++ "`"
  | .tooShort length record fields =>
      "invalid length " ++ toString length ++ ", expected struct " ++ record ++ " with " ++
        toString fields ++ " elements"
  | .tooLong length fields =>
      "invalid length " ++ toString length ++ ", expected " ++ toString fields ++
        " elements in sequence"
  | .unknownVariant name known =>
      "unknown variant `" ++ name ++ "`, expected " ++ alternatives known
  | .enumAsType name =>
      "type declaration '" ++ name ++
        "' has kind 'enum'; enums are declared with \"declaration\": \"enum\""

inductive ReadFault where
  | malformed
  | data (fault : DataFault)

abbrev Result (α : Type) := Except ReadFault α

def fail {α : Type} (fault : DataFault) : Result α := .error (.data fault)

namespace Node

/-- The kind of a value whose beginning is JSON. The contents of containers do not matter. -/
def found? : Node → Option Found
  | null => some .null
  | bool b => some (.bool b)
  | number n => n.number?.map .number
  | text s => s.map .text
  | array .. => some .sequence
  | object .. => some .map
  | broken => none

def mismatch {α : Type} (expected : String) (n : Node) : Result α :=
  match n.found? with
  | some found => fail (.wrongType found expected)
  | none => .error .malformed

def readString : Node → Result String
  | text (some s) => .ok s
  | n => n.mismatch "a string"

def readBool : Node → Result Bool
  | bool b => .ok b
  | n => n.mismatch "a boolean"

def readOption {α : Type} (read : Node → Result α) : Node → Result (Option α)
  | null => .ok none
  | n => (read n).map some

def readItems {α : Type} (read : Node → Result α) (closed : Bool) : List Node → Result (List α)
  | [] => if closed then .ok [] else .error .malformed
  | n :: ns =>
      match read n with
      | .error fault => .error fault
      | .ok a =>
          match readItems read closed ns with
          | .error fault => .error fault
          | .ok as => .ok (a :: as)

def readList {α : Type} (read : Node → Result α) : Node → Result (List α)
  | array items closed => readItems read closed items
  | n => n.mismatch "a sequence"

def readVariant {α : Type} (variants : List (String × α)) (s : String) : Result α :=
  match variants.find? (·.1 == s) with
  | some v => .ok v.2
  | none => fail (.unknownVariant s (variants.map (·.1)))

def readIdentifier {α : Type} (variants : List (String × α)) : Node → Result α
  | text (some s) => readVariant variants s
  | n => n.mismatch "variant identifier"

end Node

/-- Whether a value is read straight from the text, or has been kept as a whole before. -/
inductive Origin where
  | direct
  | kept
  deriving DecidableEq

/-- Reads one of a few names, also as the only key of an object whose value is null. A kept value
may have an empty object there. Straight from the text, an object that goes on is refused as no
JSON, and so is any other value. -/
def Node.readEnum {α : Type} (origin : Origin) (variants : List (String × α)) : Node → Result α
  | .text (some s) => readVariant variants s
  | .object ((some s, n) :: ms) closed =>
      match origin with
      | .kept =>
          if !ms.isEmpty then fail .notSingleKey
          else
            match readVariant variants s with
            | .error fault => .error fault
            | .ok a =>
                match n with
                | .null => .ok a
                | .object [] true => .ok a
                | n => n.mismatch "unit"
      | .direct =>
          match readVariant variants s with
          | .error fault => .error fault
          | .ok a =>
              match n with
              | .null => if ms.isEmpty && closed then .ok a else .error .malformed
              | n => n.mismatch "unit"
  | n =>
      match origin, n with
      | .kept, .object .. => fail .notSingleKey
      | .kept, n => n.mismatch "string or map"
      | .direct, _ => .error .malformed

/-- A field of a record under construction: its key, whether it must be given, and how its value is
put into the record. -/
structure Slot (σ : Type) where
  key : String
  required : Bool
  isFilled : σ → Bool
  fill : Node → σ → Result σ

def Slot.of {σ α : Type} (key : String) (required : Bool) (get : σ → Option α)
    (put : σ → α → σ) (read : Node → Result α) : Slot σ where
  key := key
  required := required
  isFilled st := (get st).isSome
  fill n st := (read n).map (put st)

structure Record (σ : Type) where
  name : String
  slots : List (Slot σ)

namespace Record

variable {σ : Type}

def readMembers (origin : Origin) (slots : List (Slot σ)) (closed : Bool) :
    List Member → σ → Result σ
  | [], st => if closed then .ok st else .error .malformed
  | (none, _) :: _, _ => .error .malformed
  | (some k, n) :: ms, st =>
      match slots.find? (·.key == k) with
      | none =>
          if origin = .kept ∨ n.isComplete then readMembers origin slots closed ms st
          else .error .malformed
      | some slot =>
          if slot.isFilled st then fail (.duplicateField k)
          else
            match slot.fill n st with
            | .error fault => .error fault
            | .ok st => readMembers origin slots closed ms st

/-- Reads the items of an array as the fields in their order. Fields that need not be given may be
left off at the end. `count` items have been read. -/
def readItems (r : Record σ) (origin : Origin) (closed : Bool) :
    Nat → List (Slot σ) → List Node → σ → Result σ
  | _, [], [], st => if closed then .ok st else .error .malformed
  | count, [], n :: ns, _ =>
      match origin with
      -- Straight from the text, what is missed here is the closing bracket.
      | .direct => .error .malformed
      | .kept => fail (.tooLong (count + (n :: ns).length) count)
  | count, slot :: slots, [], st =>
      if !closed then .error .malformed
      else if slot.required then fail (.tooShort count r.name r.slots.length)
      else readItems r origin closed (count + 1) slots [] st
  | count, slot :: slots, n :: ns, st =>
      match slot.fill n st with
      | .error fault => .error fault
      | .ok st => readItems r origin closed (count + 1) slots ns st

/-- The first field that must be given and is not. -/
def missing? (r : Record σ) (st : σ) : Option (Slot σ) :=
  r.slots.find? fun slot => slot.required && !slot.isFilled st

/-- Reads a record from an object or from an array of its fields. -/
def read (r : Record σ) (origin : Origin) (vacant : σ) : Node → Result σ
  | .object members closed =>
      match readMembers origin r.slots closed members vacant with
      | .error fault => .error fault
      | .ok st =>
          match r.missing? st with
          | some slot => fail (.missingField slot.key)
          | none => .ok st
  | .array items closed => r.readItems origin closed 0 r.slots items vacant
  | n => n.mismatch ("struct " ++ r.name)

end Record

structure Tagged (τ : Type) where
  tag : τ
  content : Node

namespace Tagged

variable {τ : Type}

/-- Reads the members of a tagged object. All but the tag are kept for later. -/
def readMembers (depth : Nat) (key : String) (readTag : Node → Result τ) (closed : Bool) :
    List Member → Option τ → List Member → Result (Tagged τ)
  | [], tag, kept =>
      if !closed then .error .malformed
      else
        match tag with
        | none => fail (.missingField key)
        | some t => .ok ⟨t, .object kept.reverse true⟩
  | (none, _) :: _, _, _ => .error .malformed
  | (some k, n) :: ms, tag, kept =>
      if k = key then
        if tag.isSome then fail (.duplicateField key)
        else
          match readTag n with
          | .error fault => .error fault
          | .ok t => readMembers depth key readTag closed ms (some t) kept
      else if n.isKeepable depth then
        readMembers depth key readTag closed ms tag ((some k, n) :: kept)
      else .error .malformed

/-- Reads a tagged object, or an array whose first item is the tag. `depth` bounds the nesting of
the values that are kept. -/
def read (depth : Nat) (key : String) (expected : String) (readTag : Node → Result τ) :
    Node → Result (Tagged τ)
  | .object members closed => readMembers depth key readTag closed members none []
  | .array [] closed => if closed then fail (.missingField key) else .error .malformed
  | .array (n :: ns) closed =>
      match readTag n with
      | .error fault => .error fault
      | .ok t =>
          if closed && Node.areKeepable depth ns then .ok ⟨t, .array ns true⟩ else .error .malformed
  | n => n.mismatch expected

end Tagged

def maxDepth : Nat := 127

def Source.read {α : Type} (s : Source) (read : Node → Result α) : Result α :=
  match read s.root with
  | .error fault => .error fault
  | .ok a => if s.ends then .ok a else .error .malformed

end ProtoSchema.Json
