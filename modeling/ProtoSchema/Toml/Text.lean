import ProtoSchema.Toml.Scalar

/-!
The quoted strings of TOML, its keys, and the blanks, comments and line ends around them.
-/

namespace ProtoSchema.Toml

def isPlain (c : Char) : Bool := c == '\t' || (0x20 ≤ c.toNat && c.toNat != 0x7F)

def skipLines (inComment : Bool) : List Char → Option (List Char)
  | [] => some []
  | '\n' :: r => skipLines false r
  | '\r' :: '\n' :: r => skipLines false r
  | c :: r =>
      if inComment then if isPlain c then skipLines true r else none
      else if isSpace c then skipLines false r
      else if c = '#' then skipLines true r
      else some (c :: r)

def endLine? (inComment : Bool) : List Char → Option (List Char)
  | [] => some []
  | '\n' :: r => some r
  | '\r' :: '\n' :: r => some r
  | c :: r =>
      if inComment then if isPlain c then endLine? true r else none
      else if isSpace c then endLine? false r
      else if c = '#' then endLine? true r
      else none

def charOfHex? (s : List Char) : Option Char :=
  match s.mapM (digitIn 16) with
  | some ds =>
      let n := natOf 16 ds
      if h : n.isValidChar then some (Char.ofNatAux n h) else none
  | none => none

/-- The character that an escape stands for, and the length of the escape after its backslash. -/
def escape? : List Char → Option (Char × Nat)
  | 'b' :: _ => some ('\x08', 1)
  | 't' :: _ => some ('\t', 1)
  | 'n' :: _ => some ('\n', 1)
  | 'f' :: _ => some ('\x0c', 1)
  | 'r' :: _ => some ('\r', 1)
  | 'e' :: _ => some ('\x1b', 1)
  | '"' :: _ => some ('"', 1)
  | '\\' :: _ => some ('\\', 1)
  | 'x' :: r => if (r.take 2).length = 2 then (charOfHex? (r.take 2)).map (·, 3) else none
  | 'u' :: r => if (r.take 4).length = 4 then (charOfHex? (r.take 4)).map (·, 5) else none
  | 'U' :: r => if (r.take 8).length = 8 then (charOfHex? (r.take 8)).map (·, 9) else none
  | _ => none

def consText (c : Char) (p : List Char × List Char) : List Char × List Char := (c :: p.1, p.2)

/-- Reads a string of one line to its closing quote. The first `skip` characters belong to an escape
that has been read. -/
def basicText (skip : Nat) : List Char → Option (List Char × List Char)
  | [] => none
  | c :: r =>
      match skip with
      | n + 1 => basicText n r
      | 0 =>
          if c = '"' then some ([], r)
          else if c = '\\' then
            match escape? r with
            | some (e, n) => (basicText n r).map (consText e)
            | none => none
          else if isPlain c then (basicText 0 r).map (consText c)
          else none

def literalText : List Char → Option (List Char × List Char)
  | [] => none
  | c :: r =>
      if c = '\'' then some ([], r)
      else if isPlain c then (literalText r).map (consText c)
      else none

/-- After three closing quotes: up to two more belong to the string. -/
def closeLong (quote : Char) : List Char → List Char × List Char
  | a :: b :: r =>
      if a = quote then if b = quote then ([quote, quote], r) else ([quote], b :: r)
      else ([], a :: b :: r)
  | [a] => if a = quote then ([quote], []) else ([], [a])
  | [] => ([], [])

/-- The number of blank characters at the head of a text, over all lines. -/
def blankLength : List Char → Nat
  | '\n' :: r => blankLength r + 1
  | '\r' :: '\n' :: r => blankLength r + 2
  | c :: r => if isSpace c then blankLength r + 1 else 0
  | [] => 0

def lineEnds (s : List Char) : Bool :=
  match skipSpaces s with
  | '\n' :: _ => true
  | '\r' :: '\n' :: _ => true
  | _ => false

/-- Whether a line end begins with a character in front of the given rest. -/
def beginsLineEnd (c : Char) (r : List Char) : Bool :=
  c == '\n' || c == '\r' && r.head? == some '\n'

/-- Reads a string of several lines to its closing quotes. Line ends are kept as they are. A
backslash at the end of a line takes away all blanks up to the next character. -/
def longText (skip : Nat) : List Char → Option (List Char × List Char)
  | [] => none
  | c :: r =>
      match skip with
      | n + 1 => longText n r
      | 0 =>
          if c = '"' ∧ r.take 2 = ['"', '"'] then some (closeLong '"' (r.drop 2))
          else if c = '\\' then
            if lineEnds r then longText (blankLength r) r
            else
              match escape? r with
              | some (e, n) => (longText n r).map (consText e)
              | none => none
          else if isPlain c ∨ beginsLineEnd c r then (longText 0 r).map (consText c)
          else none

def longLiteral : List Char → Option (List Char × List Char)
  | [] => none
  | c :: r =>
      if c = '\'' ∧ r.take 2 = ['\'', '\''] then some (closeLong '\'' (r.drop 2))
      else if isPlain c ∨ beginsLineEnd c r then (longLiteral r).map (consText c)
      else none

def dropLineEnd : List Char → List Char
  | '\n' :: r => r
  | '\r' :: '\n' :: r => r
  | s => s

def quotedText? : List Char → Option (Option (List Char × List Char))
  | '"' :: '"' :: '"' :: r => some (longText 0 (dropLineEnd r))
  | '"' :: r => some (basicText 0 r)
  | '\'' :: '\'' :: '\'' :: r => some (longLiteral (dropLineEnd r))
  | '\'' :: r => some (literalText r)
  | _ => none

def isBareKeyChar (c : Char) : Bool := c.isAlphanum || c == '_' || c == '-'

def keyPart? : List Char → Option (String × List Char)
  | '"' :: r => (basicText 0 r).map fun p => (String.ofList p.1, p.2)
  | '\'' :: r => (literalText r).map fun p => (String.ofList p.1, p.2)
  | s =>
      let k := s.takeWhile isBareKeyChar
      if k.isEmpty then none else some (String.ofList k, s.dropWhile isBareKeyChar)

/-- Reads a key: the parts before the last one, the last one, and the rest after spaces. `fuel`
bounds the number of parts. -/
def keyPath? : Nat → List Char → Option (List String × String × List Char)
  | 0, _ => none
  | fuel + 1, s =>
      match keyPart? (skipSpaces s) with
      | none => none
      | some (k, r) =>
          match skipSpaces r with
          | '.' :: r => (keyPath? fuel r).map fun p => (k :: p.1, p.2)
          | r => some ([], k, r)

def maxParts : Nat := 80

def key? (s : List Char) : Option (List String × String × List Char) := keyPath? maxParts s

end ProtoSchema.Toml
