import ProtoSchema.Toml.Value

/-!
The scalars of TOML that are written without quotes: truth values, numbers, dates and times.
-/

namespace ProtoSchema.Toml

def digitIn (base : Nat) (c : Char) : Option Nat :=
  let d :=
    if '0' ≤ c ∧ c ≤ '9' then c.toNat - '0'.toNat
    else if 'a' ≤ c ∧ c ≤ 'z' then c.toNat - 'a'.toNat + 10
    else if 'A' ≤ c ∧ c ≤ 'Z' then c.toNat - 'A'.toNat + 10
    else base
  if d < base then some d else none

def natOf (base : Nat) (ds : List Nat) : Nat := ds.foldl (fun n d => n * base + d) 0

def digits? (base : Nat) (s : List Char) : Option Nat :=
  if s.isEmpty then none else (s.mapM (digitIn base)).map (natOf base)

/-- Splits a sign off: whether it is a minus, and the rest. -/
def splitSign : List Char → Bool × List Char
  | '+' :: r => (false, r)
  | '-' :: r => (true, r)
  | s => (false, s)

def signed (negative : Bool) (n : Nat) : Int := if negative then -(n : Int) else n

/-- Whether all underscores fit. `after` says whether an underscore may come next. -/
def underscoresFitAfter (isDigit : Char → Bool) (after : Bool) : List Char → Bool
  | [] => true
  | c :: r =>
      if c = '_' then after && r.head?.any isDigit && underscoresFitAfter isDigit false r
      else underscoresFitAfter isDigit (isDigit c) r

/-- Whether every underscore stands before a digit and, unless it is the second character, behind
one. -/
def underscoresFit (isDigit : Char → Bool) : List Char → Bool
  | [] => true
  | c :: r => c != '_' && underscoresFitAfter isDigit true r

def withoutUnderscores (s : List Char) : List Char := s.filter (· != '_')

def isHexDigit (c : Char) : Bool := (digitIn 16 c).isSome

def based? (base : Nat) (s : List Char) : Option Value :=
  let digits := withoutUnderscores s
  if digits.all (fun c => (digitIn base c).isSome) && underscoresFit isHexDigit s then
    some (.integer ((digits? base digits).map Int.ofNat))
  else none

/-- A decimal integer with its sign. What follows its first underscore is looked at for misplaced
underscores only; it need not be digits. -/
def integer? (s : List Char) : Option Value :=
  if underscoresFit isHexDigit s then
    let (negative, digits) := splitSign (withoutUnderscores s)
    some (.integer ((digits? 10 digits).map (signed negative)))
  else none

/-- Reads digits and underscores, among them one digit at least: the digits, and the rest. -/
def digitRun? (s : List Char) : Option (List Nat × List Char) :=
  let run := s.takeWhile fun c => c.isDigit || c == '_'
  match (withoutUnderscores run).mapM (digitIn 10) with
  | some (d :: ds) => some (d :: ds, s.drop run.length)
  | _ => none

def fraction? : List Char → Option (List Nat × List Char)
  | '.' :: r => digitRun? r
  | s => some ([], s)

def isExponentMark (c : Char) : Bool := c == 'e' || c == 'E'

def exponent? : List Char → Option (Int × List Char)
  | [] => some (0, [])
  | c :: r =>
      if isExponentMark c then
        let (negative, r) := splitSign r
        (digitRun? r).map fun p => (signed negative (natOf 10 p.1), p.2)
      else some (0, c :: r)

/-- Reads a decimal number without its sign. No zero stands in front of other digits. -/
def decimal? (negative : Bool) (s : List Char) : Option Value := do
  let (whole, r) ← digitRun? s
  let (fraction, r) ← fraction? r
  let (e, r) ← exponent? r
  if r.isEmpty && !(1 < whole.length && s.head? == some '0') then
    some (.decimal (signed negative (natOf 10 (whole ++ fraction))) (e - fraction.length))
  else none

def fixedDigits? (n : Nat) (s : List Char) : Option (Nat × List Char) :=
  match (s.take n).mapM (digitIn 10) with
  | some ds => if ds.length = n then some (natOf 10 ds, s.drop n) else none
  | none => none

def expectChar? (p : Char → Bool) : List Char → Option (List Char)
  | c :: r => if p c then some r else none
  | [] => none

def isLeapYear (y : Nat) : Bool := y % 4 == 0 && (y % 100 != 0 || y % 400 == 0)

def daysInMonth (y m : Nat) : Nat :=
  if m = 2 then if isLeapYear y then 29 else 28
  else if m = 4 ∨ m = 6 ∨ m = 9 ∨ m = 11 then 30
  else 31

def date? (s : List Char) : Option (List Char) := do
  let (y, s) ← fixedDigits? 4 s
  let s ← expectChar? (· == '-') s
  let (m, s) ← fixedDigits? 2 s
  let s ← expectChar? (· == '-') s
  let (d, s) ← fixedDigits? 2 s
  if 1 ≤ m ∧ m ≤ 12 ∧ 1 ≤ d ∧ d ≤ daysInMonth y m then some s else none

def secondFraction? : List Char → Option (List Char)
  | '.' :: r => if (r.takeWhile Char.isDigit).isEmpty then none else some (r.dropWhile Char.isDigit)
  | s => some s

/-- Reads a valid time of day. The seconds may be left out. -/
def time? (s : List Char) : Option (List Char) := do
  let (h, s) ← fixedDigits? 2 s
  let s ← expectChar? (· == ':') s
  let (m, s) ← fixedDigits? 2 s
  if 23 < h ∨ 59 < m then none
  else
    match s with
    | ':' :: r => do
        let (sec, r) ← fixedDigits? 2 r
        if 60 < sec then none else secondFraction? r
    | _ => some s

def isOffset (s : List Char) : Bool :=
  match s with
  | [] | ['Z'] | ['z'] => true
  | c :: r =>
      (c == '+' || c == '-') &&
        match fixedDigits? 2 r with
        | some (h, ':' :: r) =>
            match fixedDigits? 2 r with
            | some (m, []) => h ≤ 23 && m ≤ 59
            | _ => false
        | _ => false

def isTimeMark (c : Char) : Bool := c == 'T' || c == 't' || c == ' '

/-- Whether a text is a date, a time of day, or both with or without an offset. -/
def isMoment (s : List Char) : Bool :=
  match date? s with
  | some [] => true
  | some (c :: r) =>
      isTimeMark c &&
        match time? r with
        | some r => isOffset r
        | none => false
  | none => time? s == some []

def moment? (s : List Char) : Option Value := if isMoment s then some .moment else none

/-- Reads a number, a date or a time, which all begin with digits: what follows the digits decides
between them. -/
def numeric? (raw : List Char) : Option Value :=
  let (negative, s) := splitSign raw
  match s.dropWhile Char.isDigit with
  | [] => if s.isEmpty || 1 < s.length && s.head? == some '0' then none else integer? raw
  | c :: r =>
      if c = '-' ∨ c = ':' then moment? raw
      else if ' ' ∈ c :: r then none
      else if (c :: r).any fun c => c == '.' || isExponentMark c then
        if underscoresFit Char.isDigit raw then decimal? negative s else none
      else if c = '_' ∧ s.head? ≠ some '0' then integer? raw
      else none

def scalar? (s : List Char) : Option Value :=
  if s = "true".toList then some (.bool true)
  else if s = "false".toList then some (.bool false)
  else if (splitSign s).2 = "inf".toList ∨ (splitSign s).2 = "nan".toList then some .nonFinite
  else
    match s with
    | '0' :: 'x' :: r => based? 16 r
    | '0' :: 'o' :: r => based? 8 r
    | '0' :: 'b' :: r => based? 2 r
    | s => numeric? s

def isSpace (c : Char) : Bool := c == ' ' || c == '\t'

def skipSpaces (s : List Char) : List Char := s.dropWhile isSpace

/-- The characters with a meaning of their own, which do not belong to a scalar. -/
def isDelimiter (c : Char) : Bool :=
  isSpace c ||
    ['=', ',', '[', ']', '\x7b', '\x7d', '#', '\r', '\n'].contains c

def wordFollows (s : List Char) : Bool :=
  (skipSpaces s).head?.any fun c => !(isDelimiter c || c == '.' || c == '"' || c == '\'')

/-- The text of the scalar at the head of a text, and the rest. Words with spaces between them are
one scalar. -/
def splitScalar : List Char → List Char × List Char
  | [] => ([], [])
  | c :: r =>
      if !isDelimiter c || isSpace c && wordFollows r then
        let (s, rest) := splitScalar r
        (c :: s, rest)
      else ([], c :: r)

end ProtoSchema.Toml
