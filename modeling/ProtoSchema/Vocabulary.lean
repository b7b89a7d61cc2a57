import ProtoSchema.Text.Dotted

/-!
The type names with a fixed meaning: scalars, temporal types with a well-known schema type, the
calendar period, and the collections and maps. A qualified name means what its last segment means.
-/

namespace ProtoSchema

inductive WellKnown where
  | timestamp
  | date
  | timeOfDay
  | duration
  deriving DecidableEq, Repr

namespace WellKnown

/-- Reads a simple name. Instants and the date-times, with or without a zone, are timestamps. -/
def ofName? : String → Option WellKnown
  | "Instant" | "ZonedDateTime" | "LocalDateTime" => some timestamp
  | "LocalDate" => some date
  | "LocalTime" => some timeOfDay
  | "Duration" => some duration
  | _ => none

def schemaType : WellKnown → String
  | timestamp => "google.protobuf.Timestamp"
  | date => "google.type.Date"
  | timeOfDay => "google.type.TimeOfDay"
  | duration => "google.protobuf.Duration"

def importPath : WellKnown → String
  | timestamp => "google/protobuf/timestamp.proto"
  | date => "google/type/date.proto"
  | timeOfDay => "google/type/timeofday.proto"
  | duration => "google/protobuf/duration.proto"

end WellKnown

inductive Scalar where
  | text
  | int32
  | int64
  | double
  | float
  | truth
  deriving DecidableEq, Repr

namespace Scalar

def ofName? : String → Option Scalar
  | "String" | "UUID" => some text
  | "int" | "Integer" => some int32
  | "long" | "Long" => some int64
  | "double" | "Double" => some double
  | "float" | "Float" => some float
  | "boolean" | "Boolean" => some truth
  | _ => none

def schemaType : Scalar → String
  | text => "string"
  | int32 => "int32"
  | int64 => "int64"
  | double => "double"
  | float => "float"
  | truth => "bool"

end Scalar

inductive Category where
  | scalar (s : Scalar)
  | wellKnown (w : WellKnown)
  | calendarPeriod
  deriving DecidableEq, Repr

namespace Category

def ofSimpleName? (name : String) : Option Category :=
  match Scalar.ofName? name with
  | some s => some (scalar s)
  | none =>
      match WellKnown.ofName? name with
      | some w => some (wellKnown w)
      | none => if name = "Period" then some calendarPeriod else none

/-- Reads a name by its last segment. -/
def ofName? (name : String) : Option Category := ofSimpleName? (Text.simpleName name)

def schemaType : Category → String
  | scalar s => s.schemaType
  | wellKnown w => w.schemaType
  | calendarPeriod => "string"

end Category

/-- The simple names of collections, whose fields are repeated. -/
def collectionNames : List String :=
  ["List", "ArrayList", "LinkedList", "Collection", "Set", "HashSet", "LinkedHashSet", "TreeSet"]

/-- The simple names of associative collections. -/
def mapNames : List String := ["Map", "HashMap", "LinkedHashMap", "TreeMap"]

end ProtoSchema
