import ProtoSchema.Toml.Text

/-!
Reading TOML documents: values, inline tables, and the lines of a document.
-/

namespace ProtoSchema.Toml

def maxDepth : Nat := 80

/-- Goes from the end of a key in an inline table to its value. Line ends may stand around the
equals sign. -/
def inlineValue? (s : List Char) : Option (List Char) :=
  match skipLines false s with
  | some ('=' :: r) => skipLines false r
  | _ => none

mutual

/-- Reads the value at the head of a text. `fuel` bounds the number of steps, and `depth` the
nesting. -/
def value? : Nat → Nat → List Char → Option (Value × List Char)
  | 0, _, _ => none
  | fuel + 1, depth, s =>
      match quotedText? s with
      | some text => text.map fun p => (.text (String.ofList p.1), p.2)
      | none =>
          match depth, s with
          | d + 1, '[' :: r => (items? fuel d r).map fun p => (.array p.1, p.2)
          | d + 1, '\x7b' :: r =>
              (inlineEntries? fuel d [] r).map fun p => (.table (freezeEntries p.1), p.2)
          | _, s =>
              let (token, rest) := splitScalar s
              (scalar? token).map (·, rest)

def items? : Nat → Nat → List Char → Option (List Value × List Char)
  | 0, _, _ => none
  | fuel + 1, depth, s =>
      match skipLines false s with
      | none => none
      | some (']' :: r) => some ([], r)
      | some s =>
          match value? fuel depth s with
          | none => none
          | some (v, r) =>
              match skipLines false r with
              | some (',' :: r) => (items? fuel depth r).map fun p => (v :: p.1, p.2)
              | some (']' :: r) => some ([v], r)
              | _ => none

def inlineEntries? : Nat → Nat → Entries → List Char → Option (Entries × List Char)
  | 0, _, _, _ => none
  | fuel + 1, depth, es, s =>
      match skipLines false s with
      | none => none
      | some ('\x7d' :: r) => some (es, r)
      | some s =>
          match key? s with
          | none => none
          | some (path, k, r) =>
              match inlineValue? r with
              | none => none
              | some r =>
                  match value? fuel depth r with
                  | none => none
                  | some (v, r) =>
                      let es := Entries.descend .keyStep (Entries.put k v) path es
                      match es, skipLines false r with
                      | some es, some (',' :: r) => inlineEntries? fuel depth es r
                      | some es, some ('\x7d' :: r) => some (es, r)
                      | _, _ => none

end

/-- Adds the entry of a key to the table with the given header. -/
def addEntry (header : List String) (path : List String) (k : String) (v : Value) (root : Entries) :
    Option Entries :=
  Entries.descend .headerStep (Entries.descend .keyStep (Entries.put k v) path) header root

/-- Reads lines, the entries of which belong to the table with the given header. `fuel` bounds the
number of lines. -/
def lines? : Nat → List String → Entries → List Char → Option Entries
  | 0, _, _, _ => none
  | fuel + 1, header, root, s =>
      match skipLines false s with
      | none => none
      | some [] => some root
      | some ('[' :: '[' :: r) =>
          match key? r with
          | some (path, k, ']' :: ']' :: r) =>
              let root := Entries.descend .headerStep (Entries.pushTable k) path root
              match endLine? false r, root with
              | some r, some root => lines? fuel (path ++ [k]) root r
              | _, _ => none
          | _ => none
      | some ('[' :: r) =>
          match key? r with
          | some (path, k, ']' :: r) =>
              let root := Entries.descend .headerStep (Entries.openTable k) path root
              match endLine? false r, root with
              | some r, some root => lines? fuel (path ++ [k]) root r
              | _, _ => none
          | _ => none
      | some s =>
          match key? s with
          | some (path, k, '=' :: r) =>
              let r := skipSpaces r
              match value? (r.length + 1) maxDepth r with
              | none => none
              | some (v, r) =>
                  match endLine? false r, addEntry header path k v root with
                  | some r, some root => lines? fuel header root r
                  | _, _ => none
          | _ => none

/-- Reads a document. A byte order mark in front of it is skipped. -/
def read? (text : String) : Option (List (String × Value)) :=
  let s :=
    match text.toList with
    | '\ufeff' :: r => r
    | s => s
  (lines? (s.length + 1) [] [] s).map freezeEntries

end ProtoSchema.Toml
