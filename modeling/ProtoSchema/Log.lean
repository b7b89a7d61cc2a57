import ProtoSchema.Text.Quoted

/-!
Log events, their text, and the level from which on they are printed.
-/

namespace ProtoSchema

inductive Level where
  | trace
  | debug
  | info
  | warn
  | error
  | off
  deriving DecidableEq, Repr

namespace Level

def rank : Level → Nat
  | trace => 0
  | debug => 1
  | info => 2
  | warn => 3
  | error => 4
  | off => 5

def names : List (String × Level) :=
  [("trace", trace), ("debug", debug), ("info", info), ("warn", warn), ("error", error),
    ("off", off)]

/-- The level with a given name. The case of ASCII letters does not matter. -/
def ofName? (s : String) : Option Level :=
  (names.find? (·.1 == s.map Char.toLower)).map (·.2)

def label : Level → String
  | trace => "TRACE"
  | debug => "DEBUG"
  | info => "INFO"
  | warn => "WARN"
  | error => "ERROR"
  | off => "OFF"

/-- Whether events of a level are printed when `threshold` is in force. -/
def admits (threshold level : Level) : Bool := threshold.rank ≤ level.rank

end Level

structure Event where
  level : Level
  message : String
  fields : List (String × String) := []
  deriving DecidableEq, Repr

namespace Event

/-- The characters below 128 that could act on a terminal. -/
def terminalControls : List Char := ['\x1b', '\x07', '\x08', '\x0c', '\x7f']

def twoHexDigits (n : Nat) : List Char :=
  if n < 16 then '0' :: Text.hexDigits n else Text.hexDigits n

/-- How a character stands in a message. Those that could act on a terminal are escaped. -/
def messageChar (c : Char) : List Char :=
  if terminalControls.contains c then ['\\', 'x'] ++ twoHexDigits c.toNat
  else if 0x80 ≤ c.toNat && c.toNat ≤ 0x9F then
    ['\\', 'u', '\x7b'] ++ Text.hexDigits c.toNat ++ ['\x7d']
  else [c]

def escapedMessage (e : Event) : String := String.ofList (e.message.toList.flatMap messageChar)

def line (e : Event) : String :=
  e.level.label ++ " " ++ e.escapedMessage ++
    String.join (e.fields.map fun f => " " ++ f.1 ++ "=" ++ f.2)

end Event

end ProtoSchema
