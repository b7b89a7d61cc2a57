import ProtoSchema.Json.Token
import ProtoSchema.Json.Value

/-!
The tree of a JSON text that may break off. Where the text stops being JSON, the tree has a broken
value, and every container around that place is left open; all that stands before is kept, so that a
reader which goes from left to right meets the break where it occurs.
-/

namespace ProtoSchema.Json

inductive Node where
  | null
  | bool (b : Bool)
  | number (n : Numeral)
  | text (s : Option String)
  | array (items : List Node) (closed : Bool)
  | object (members : List (Option String × Node)) (closed : Bool)
  | broken
  deriving Inhabited

abbrev Member := Option String × Node

/-- A container that is not closed yet, with its contents from last to first. An object may hold the
key of a member whose value is due. -/
inductive Frame where
  | array (items : List Node)
  | object (members : List Member) (key : Option (Option String))

/-- What may come next: a value, the first item of an array or its end, the first key of an object
or its end, another key, a colon, or what follows a value in a container. -/
inductive Expected where
  | value
  | firstItem
  | firstKey
  | key
  | colon
  | separator

inductive Progress where
  | go (e : Expected) (frames : List Frame)
  | done (n : Node)
  | stuck

namespace Node

def deliver (n : Node) : List Frame → Progress
  | [] => .done n
  | .array items :: fs => .go .separator (.array (n :: items) :: fs)
  | .object ms (some k) :: fs => .go .separator (.object ((k, n) :: ms) none :: fs)
  | .object _ none :: _ => .stuck

end Node

def Token.scalar? : Token → Option Node
  | .null => some .null
  | .bool b => some (.bool b)
  | .number n => some (.number n)
  | .text s => some (.text s)
  | _ => none

namespace Progress

def begin (fs : List Frame) : Token → Progress
  | .openArray => go .firstItem (.array [] :: fs)
  | .openObject => go .firstKey (.object [] none :: fs)
  | t =>
      match t.scalar? with
      | some n => n.deliver fs
      | none => stuck

def endArray : List Frame → Progress
  | .array items :: fs => (Node.array items.reverse true).deliver fs
  | _ => stuck

def endObject : List Frame → Progress
  | .object ms none :: fs => (Node.object ms.reverse true).deliver fs
  | _ => stuck

def separate : List Frame → Progress
  | .array items :: fs => go .value (.array items :: fs)
  | .object ms none :: fs => go .key (.object ms none :: fs)
  | _ => stuck

def beginMember (k : Option String) : List Frame → Progress
  | .object ms none :: fs => go .colon (.object ms (some k) :: fs)
  | _ => stuck

def next (fs : List Frame) : Expected → Token → Progress
  | .value, t => begin fs t
  -- A container may end before its first item or key, but not after a comma.
  | .firstItem, .closeArray => endArray fs
  | .firstItem, t => begin fs t
  | .firstKey, .closeObject => endObject fs
  | .firstKey, .text k => beginMember k fs
  | .key, .text k => beginMember k fs
  | .colon, .colon => go .value fs
  | .separator, .comma => separate fs
  | .separator, .closeArray => endArray fs
  | .separator, .closeObject => endObject fs
  | _, _ => stuck

end Progress

namespace Node

/-- Leaves an open container open, around the given value if one is due. -/
def leaveOpen (n : Node) : Frame → Node
  | .array items => array (n :: items).reverse false
  | .object ms (some k) => object ((k, n) :: ms).reverse false
  | .object ms none => object ms.reverse false

/-- The tree of open containers in which the text breaks off. -/
def breakOff : List Frame → Node
  | [] => broken
  | fs => fs.foldl leaveOpen broken

/-- Builds the first value of a token list: the value, and the tokens after it. -/
def build : List Token → Expected → List Frame → Node × List Token
  | [], _, fs => (breakOff fs, [])
  | t :: ts, e, fs =>
      match Progress.next fs e t with
      | .go e fs => build ts e fs
      | .done n => (n, ts)
      | .stuck => (breakOff fs, t :: ts)

mutual

def ofValue : Value → Node
  | .null => null
  | .bool b => bool b
  | .number n => number n
  | .text s => text (some s)
  | .array items => array (ofItems items) true
  | .object members => object (ofMembers members) true

def ofItems : List Value → List Node
  | [] => []
  | v :: vs => ofValue v :: ofItems vs

def ofMembers : List (String × Value) → List Member
  | [] => []
  | (k, v) :: ms => (some k, ofValue v) :: ofMembers ms

end

mutual

/-- The value of a tree that is not broken and has text in all its strings. -/
def value? : Node → Option Value
  | null => some .null
  | bool b => some (.bool b)
  | number n => some (.number n)
  | text s => s.map .text
  | array items true => (items? items).map .array
  | object members true => (members? members).map .object
  | _ => none

def items? : List Node → Option (List Value)
  | [] => some []
  | n :: ns => do return (← n.value?) :: (← items? ns)

def members? : List Member → Option (List (String × Value))
  | [] => some []
  | (k, n) :: ms => do return (← k, ← n.value?) :: (← members? ms)

end

mutual

def isComplete : Node → Bool
  | array items closed => closed && areComplete items
  | object members closed => closed && membersComplete members
  | broken => false
  | _ => true

def areComplete : List Node → Bool
  | [] => true
  | n :: ns => n.isComplete && areComplete ns

def membersComplete : List Member → Bool
  | [] => true
  | (_, n) :: ms => n.isComplete && membersComplete ms

end

mutual

/-- Whether a value can be kept as it is: its text does not break off, its strings and keys stand
for characters, its numbers are in range, and it nests containers at most so deep. -/
def isKeepable (depth : Nat) : Node → Bool
  | null => true
  | bool _ => true
  | number n => n.number?.isSome
  | text s => s.isSome
  | array items closed => 0 < depth && closed && areKeepable (depth - 1) items
  | object members closed => 0 < depth && closed && membersKeepable (depth - 1) members
  | broken => false

def areKeepable (depth : Nat) : List Node → Bool
  | [] => true
  | n :: ns => n.isKeepable depth && areKeepable depth ns

def membersKeepable (depth : Nat) : List Member → Bool
  | [] => true
  | (k, n) :: ms => k.isSome && n.isKeepable depth && membersKeepable depth ms

end

end Node

structure Source where
  root : Node
  ends : Bool

def Source.ofTokens (ts : Tokens) : Source :=
  let (n, rest) := Node.build ts.list .value []
  ⟨n, rest.isEmpty && ts.complete⟩

def Source.ofBytes (s : List UInt8) : Source := .ofTokens (scan s)

def Source.ofText (s : String) : Source := .ofBytes s.toByteArray.toList

end ProtoSchema.Json
