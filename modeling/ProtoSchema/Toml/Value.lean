/-!
TOML values, and tables under construction. A table remembers how it came about, since that decides
whether it may still be extended: by a header of its own, as a step of a longer header, or as a step
of a dotted key.
-/

namespace ProtoSchema.Toml

/-- A TOML value. Numbers are kept as written, and of dates and times only that they are valid. An
integer is absent if digits are missing or belong to another base, which is a fault only where the
value is looked at. -/
inductive Value where
  | text (s : String)
  | bool (b : Bool)
  | integer (i : Option Int)
  | decimal (mantissa : Int) (exponent : Int)
  | nonFinite
  | moment
  | array (items : List Value)
  | table (entries : List (String × Value))
  deriving Inhabited

inductive Origin where
  | header
  | headerStep
  | keyStep
  deriving DecidableEq

/-- Whether a path of keys may pass through a table. A dotted key passes through no table with a
header, and does not end in one that is a step of a header. -/
def Origin.admits (origin step : Origin) (isLast : Bool) : Bool :=
  match step, origin with
  | .keyStep, .header => false
  | .keyStep, .headerStep => !isLast
  | _, _ => true

/-- What a key stands for while the document is being read. The tables of an array of tables are
listed from last to first. -/
inductive Item where
  | value (v : Value)
  | table (origin : Origin) (entries : List (String × Item))
  | tables (ts : List (List (String × Item)))

abbrev Entries := List (String × Item)

namespace Entries

def get? (es : Entries) (key : String) : Option Item := (es.find? (·.1 == key)).map (·.2)

def replace (es : Entries) (key : String) (item : Item) : Entries :=
  es.map fun e => if e.1 == key then (key, item) else e

/-- Changes the entries that a path of keys leads to. Tables on the way are made if need be. The
path may pass through the last table of an array of tables, and never through a value. -/
def descend (step : Origin) (f : Entries → Option Entries) : List String → Entries → Option Entries
  | [], es => f es
  | k :: ks, es =>
      match es.get? k with
      | none => (descend step f ks []).map fun sub => es ++ [(k, .table step sub)]
      | some (.table origin sub) =>
          if origin.admits step ks.isEmpty then
            (descend step f ks sub).map fun sub => es.replace k (.table origin sub)
          else none
      -- The head is the last table, the only one that can still be extended.
      | some (.tables (t :: ts)) =>
          if Origin.headerStep.admits step ks.isEmpty then
            (descend step f ks t).map fun t => es.replace k (.tables (t :: ts))
          else none
      | some _ => none

/-- Gives a value to a new key. -/
def put (key : String) (v : Value) (es : Entries) : Option Entries :=
  if (es.get? key).isSome then none else some (es ++ [(key, .value v)])

/-- Opens the table of a header: a new one, or one that has only been a step of longer headers. -/
def openTable (key : String) (es : Entries) : Option Entries :=
  match es.get? key with
  | none => some (es ++ [(key, .table .header [])])
  | some (.table .headerStep sub) => some (es.replace key (.table .header sub))
  | some _ => none

def pushTable (key : String) (es : Entries) : Option Entries :=
  match es.get? key with
  | none => some (es ++ [(key, .tables [[]])])
  | some (.tables ts) => some (es.replace key (.tables ([] :: ts)))
  | some _ => none

end Entries

mutual

def Item.freeze : Item → Value
  | .value v => v
  | .table _ es => .table (freezeEntries es)
  | .tables ts => .array (freezeTables ts).reverse

def freezeEntries : Entries → List (String × Value)
  | [] => []
  | (k, i) :: es => (k, i.freeze) :: freezeEntries es

def freezeTables : List (List (String × Item)) → List Value
  | [] => []
  | t :: ts => .table (freezeEntries t) :: freezeTables ts

end

/-- The integers that some 128-bit type holds. -/
def integerInRange (i : Int) : Bool :=
  -(Nat.pow 2 127 : Int) ≤ i && i < (Nat.pow 2 128 : Int)

/-- The least number that rounds to an infinity in double precision. -/
def overflowBound : Nat := Nat.pow 2 1024 - Nat.pow 2 970

/-- Whether a decimal stays below the bound. Its digits decide, except for those of about the same
size as the bound. -/
def decimalInRange (mantissa exponent : Int) : Bool :=
  let m := mantissa.natAbs
  let size : Int := (Nat.toDigits 10 m).length + exponent
  m == 0 || size ≤ 308 ||
    (size ≤ 310 && m * Nat.pow 10 exponent.toNat < overflowBound * Nat.pow 10 (-exponent).toNat)

mutual

def Value.inRange : Value → Bool
  | .integer i => i.any integerInRange
  | .decimal m e => decimalInRange m e
  | .array items => itemsInRange items
  | .table entries => entriesInRange entries
  | _ => true

def itemsInRange : List Value → Bool
  | [] => true
  | v :: vs => v.inRange && itemsInRange vs

def entriesInRange : List (String × Value) → Bool
  | [] => true
  | (_, v) :: es => v.inRange && entriesInRange es

end

end ProtoSchema.Toml
