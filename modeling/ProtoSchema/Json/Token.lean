import ProtoSchema.Json.Numeral

/-!
The tokens of JSON text, read from bytes. A string token is found by its quotes and escapes alone;
it holds a text only if its bytes and its escapes stand for characters.
-/

namespace ProtoSchema.Json

inductive Token where
  | openArray
  | closeArray
  | openObject
  | closeObject
  | colon
  | comma
  | null
  | bool (b : Bool)
  | number (n : Numeral)
  | text (s : Option String)
  deriving Repr

def byte (c : Char) : UInt8 := UInt8.ofNat c.toNat

def isBlankByte (b : UInt8) : Bool := b == 0x20 || b == 0x0A || b == 0x0D || b == 0x09

def isDigitByte (b : UInt8) : Bool := byte '0' ≤ b && b ≤ byte '9'

def digitValue (b : UInt8) : Nat := (b - byte '0').toNat

def hexValue? (b : UInt8) : Option Nat :=
  if isDigitByte b then some (digitValue b)
  else if byte 'a' ≤ b && b ≤ byte 'f' then some ((b - byte 'a').toNat + 10)
  else if byte 'A' ≤ b && b ≤ byte 'F' then some ((b - byte 'A').toNat + 10)
  else none

def shortEscape? (b : UInt8) : Option UInt8 :=
  if b = byte '"' || b = byte '\\' || b = byte '/' then some b
  else if b = byte 'b' then some 0x08
  else if b = byte 'f' then some 0x0C
  else if b = byte 'n' then some 0x0A
  else if b = byte 'r' then some 0x0D
  else if b = byte 't' then some 0x09
  else none

inductive Piece where
  | byte (b : UInt8)
  | unit (u : Nat)
  deriving DecidableEq, Repr

/-- The code unit of four hexadecimal digits. -/
def codeUnit? (h₁ h₂ h₃ h₄ : UInt8) : Option Nat :=
  match hexValue? h₁, hexValue? h₂, hexValue? h₃, hexValue? h₄ with
  | some d₁, some d₂, some d₃, some d₄ => some (((d₁ * 16 + d₂) * 16 + d₃) * 16 + d₄)
  | _, _, _, _ => none

/-- Reads the parts of a string up to its closing quote, and what follows the quote. -/
def scanText : List UInt8 → Option (List Piece × List UInt8)
  | [] => none
  | b :: r =>
      if b = byte '"' then some ([], r)
      else if b = byte '\\' then
        match r with
        | [] => none
        | e :: r =>
            if e = byte 'u' then
              match r with
              | h₁ :: h₂ :: h₃ :: h₄ :: r =>
                  match codeUnit? h₁ h₂ h₃ h₄ with
                  | some u => (scanText r).map fun p => (.unit u :: p.1, p.2)
                  | none => none
              | _ => none
            else
              match shortEscape? e with
              | some c => (scanText r).map fun p => (.byte c :: p.1, p.2)
              | none => none
      else if b < 0x20 then none
      else (scanText r).map fun p => (.byte b :: p.1, p.2)

/-- The bytes that parts stand for. Two code units that are halves of a pair must follow each other;
a half alone stands for nothing. -/
def pieceBytes? : List Piece → Option (List UInt8)
  | [] => some []
  | .byte b :: ps => (pieceBytes? ps).map (b :: ·)
  | .unit u :: ps =>
      if u < 0xD800 ∨ 0xE000 ≤ u then
        (pieceBytes? ps).map (String.utf8EncodeChar (Char.ofNat u) ++ ·)
      else
        match ps with
        | .unit v :: ps' =>
            if u < 0xDC00 ∧ 0xDC00 ≤ v ∧ v < 0xE000 then
              (pieceBytes? ps').map
                (String.utf8EncodeChar
                  (Char.ofNat (0x10000 + (u - 0xD800) * 0x400 + (v - 0xDC00))) ++ ·)
            else none
        | _ => none

/-- The text that parts stand for. -/
def decodePieces (ps : List Piece) : Option String :=
  (pieceBytes? ps).bind fun bs => String.fromUTF8? ⟨bs.toArray⟩

/-- Reads digits after a point: at least one must follow. -/
def scanFraction : List UInt8 → Option (List Nat × List UInt8)
  | b :: r =>
      if b = byte '.' then
        let ds := r.takeWhile isDigitByte
        if ds.isEmpty then none else some (ds.map digitValue, r.dropWhile isDigitByte)
      else some ([], b :: r)
  | [] => some ([], [])

def natOfDigits (ds : List Nat) : Nat := ds.foldl (fun n d => 10 * n + d) 0

def scanSign : List UInt8 → Bool × List UInt8
  | b :: r =>
      if b = byte '-' then (true, r) else if b = byte '+' then (false, r) else (false, b :: r)
  | [] => (false, [])

/-- Reads an exponent if one follows: its sign may be missing, its digits may not. -/
def scanExponent : List UInt8 → Option (Option Int × List UInt8)
  | b :: r =>
      if b = byte 'e' || b = byte 'E' then
        let (negative, r) := scanSign r
        let ds := r.takeWhile isDigitByte
        if ds.isEmpty then none
        else
          let n : Int := natOfDigits (ds.map digitValue)
          some (some (if negative then -n else n), r.dropWhile isDigitByte)
      else some (none, b :: r)
  | [] => some (none, [])

/-- Reads a number. A zero in front of other digits is refused. -/
def scanNumeral (negative : Bool) (s : List UInt8) : Option (Numeral × List UInt8) :=
  let ds := s.takeWhile isDigitByte
  if ds.isEmpty || (ds.head? == some (byte '0') && 1 < ds.length) then none
  else
    match scanFraction (s.dropWhile isDigitByte) with
    | none => none
    | some (fraction, r) =>
        match scanExponent r with
        | none => none
        | some (exponent, r) => some (⟨negative, ds.map digitValue, fraction, exponent⟩, r)

def punctuation? (b : UInt8) : Option Token :=
  if b = byte '[' then some .openArray
  else if b = byte ']' then some .closeArray
  else if b = byte '\x7b' then some .openObject
  else if b = byte '\x7d' then some .closeObject
  else if b = byte ':' then some .colon
  else if b = byte ',' then some .comma
  else none

def scanWord (rest : String) (t : Token) (s : List UInt8) : Option (Token × List UInt8) :=
  if (rest.toList.map byte).isPrefixOf s then some (t, s.drop rest.length) else none

def scanToken : List UInt8 → Option (Token × List UInt8)
  | [] => none
  | b :: r =>
      match punctuation? b with
      | some t => some (t, r)
      | none =>
          if b = byte '"' then (scanText r).map fun p => (.text (decodePieces p.1), p.2)
          else if b = byte '-' then (scanNumeral true r).map fun p => (.number p.1, p.2)
          else if isDigitByte b then (scanNumeral false (b :: r)).map fun p => (.number p.1, p.2)
          else if b = byte 'n' then scanWord "ull" .null r
          else if b = byte 't' then scanWord "rue" (.bool true) r
          else if b = byte 'f' then scanWord "alse" (.bool false) r
          else none

theorem scanText_length {s : List UInt8} {ps : List Piece} {r : List UInt8}
    (h : scanText s = some (ps, r)) : r.length ≤ s.length := by
  fun_induction scanText s generalizing ps with
  | case1 | case3 | case5 | case6 | case8 | case9 => simp at h
  | case2 =>
      simp only [Option.some.injEq, Prod.mk.injEq] at h
      simp [← h.2]
  | case4 | case7 | case10 =>
      rename_i ih
      simp only [Option.map_eq_some_iff, Prod.mk.injEq] at h
      obtain ⟨p, hp, -, rfl⟩ := h
      have := ih hp
      simp only [List.length_cons]
      omega

theorem length_dropDigits (s : List UInt8) : (s.dropWhile isDigitByte).length ≤ s.length :=
  (List.dropWhile_sublist isDigitByte).length_le

theorem scanFraction_length {s r : List UInt8} {ds : List Nat}
    (h : scanFraction s = some (ds, r)) : r.length ≤ s.length := by
  unfold scanFraction at h
  split at h
  · rename_i b t
    split at h
    · simp only at h
      split at h
      · simp at h
      · simp only [Option.some.injEq, Prod.mk.injEq] at h
        have := length_dropDigits t
        rw [← h.2, List.length_cons]
        omega
    · simp only [Option.some.injEq, Prod.mk.injEq] at h
      simp [← h.2]
  · simp only [Option.some.injEq, Prod.mk.injEq] at h
    simp [← h.2]

theorem scanSign_length (s : List UInt8) : (scanSign s).2.length ≤ s.length := by
  unfold scanSign
  split
  · split
    · simp
    · split <;> simp
  · simp

theorem scanExponent_length {s r : List UInt8} {e : Option Int}
    (h : scanExponent s = some (e, r)) : r.length ≤ s.length := by
  unfold scanExponent at h
  split at h
  · rename_i b t
    split at h
    · simp only at h
      split at h
      · simp at h
      · simp only [Option.some.injEq, Prod.mk.injEq] at h
        have h1 := length_dropDigits (scanSign t).2
        have h2 := scanSign_length t
        rw [← h.2, List.length_cons]
        omega
    · simp only [Option.some.injEq, Prod.mk.injEq] at h
      simp [← h.2]
  · simp only [Option.some.injEq, Prod.mk.injEq] at h
    simp [← h.2]

theorem scanNumeral_length {negative : Bool} {s r : List UInt8} {n : Numeral}
    (h : scanNumeral negative s = some (n, r)) : r.length < s.length := by
  unfold scanNumeral at h
  simp only at h
  split at h
  · simp at h
  · rename_i hd
    have hs : (s.dropWhile isDigitByte).length < s.length := by
      cases s with
      | nil => simp at hd
      | cons b t =>
          by_cases hb : isDigitByte b
          · have := length_dropDigits t
            simp only [List.dropWhile_cons, hb, if_true, List.length_cons]
            omega
          · simp [hb] at hd
    split at h
    · simp at h
    · rename_i hf
      split at h
      · simp at h
      · rename_i he
        simp only [Option.some.injEq, Prod.mk.injEq] at h
        have h1 := scanFraction_length hf
        have h2 := scanExponent_length he
        rw [← h.2]
        omega

theorem scanWord_length {rest : String} {t u : Token} {s r : List UInt8}
    (h : scanWord rest t s = some (u, r)) : r.length ≤ s.length := by
  unfold scanWord at h
  split at h
  · simp only [Option.some.injEq, Prod.mk.injEq] at h
    simp [← h.2]
  · simp at h

theorem scanToken_length {s r : List UInt8} {t : Token} (h : scanToken s = some (t, r)) :
    r.length < s.length := by
  unfold scanToken at h
  split at h
  · simp at h
  · rename_i b s
    rw [List.length_cons]
    split at h
    · simp only [Option.some.injEq, Prod.mk.injEq] at h
      simp [← h.2]
    · split at h
      · obtain ⟨p, hp, hq⟩ := Option.map_eq_some_iff.1 h
        have := scanText_length hp
        obtain ⟨-, rfl⟩ := Prod.mk.injEq .. ▸ hq
        omega
      · split at h
        · obtain ⟨p, hp, hq⟩ := Option.map_eq_some_iff.1 h
          have := scanNumeral_length hp
          obtain ⟨-, rfl⟩ := Prod.mk.injEq .. ▸ hq
          omega
        · split at h
          · obtain ⟨p, hp, hq⟩ := Option.map_eq_some_iff.1 h
            have := scanNumeral_length hp
            obtain ⟨-, rfl⟩ := Prod.mk.injEq .. ▸ hq
            simp only [List.length_cons] at this
            omega
          · split at h
            · have := scanWord_length h
              omega
            · split at h
              · have := scanWord_length h
                omega
              · split at h
                · have := scanWord_length h
                  omega
                · simp at h

/-- The tokens of a text as far as it can be divided into tokens, and whether that is all of it. -/
structure Tokens where
  list : List Token
  complete : Bool
  deriving Repr

def scan (s : List UInt8) : Tokens :=
  match _hs : s.dropWhile isBlankByte with
  | [] => ⟨[], true⟩
  | b :: r =>
      match _ht : scanToken (b :: r) with
      | none => ⟨[], false⟩
      | some (t, rest) =>
          let ts := scan rest
          { ts with list := t :: ts.list }
  termination_by s.length
  decreasing_by
    have h1 := (List.dropWhile_sublist isBlankByte (l := s)).length_le
    have h2 := scanToken_length ‹_›
    rw [_hs] at h1
    omega

end ProtoSchema.Json
