import ProtoSchema.Json.Node
import ProtoSchema.Proofs.Text.Encoded

/-!
The tokens of a rendered value. What is written between quotes is read as the same text, and the
text of a value is divided into the tokens of its parts, whatever follows it. Numbers are left out
here: a number ends where no more digits follow, so its tokens depend on what comes next.
-/

namespace ProtoSchema.Json

open Text (encode)

/-! ### Texts -/

structure WrittenAs (c : Char) (ps : List Piece) : Prop where
  scanText_append : ∀ r, scanText (encode (escapeChar c) ++ r) =
    (scanText r).map fun p => (ps ++ p.1, p.2)
  pieceBytes?_append : ∀ qs, pieceBytes? (ps ++ qs) =
    (pieceBytes? qs).map (String.utf8EncodeChar c ++ ·)

theorem scanText_cons {b : UInt8} (hquote : b ≠ byte '"') (hescape : b ≠ byte '\\')
    (hcontrol : 0x20 ≤ b.toNat) (r : List UInt8) :
    scanText (b :: r) = (scanText r).map fun p => (.byte b :: p.1, p.2) := by
  have hlt : ¬b < 0x20 := by
    rw [UInt8.lt_iff_toNat_lt]
    exact Nat.not_lt.2 hcontrol
  rw [scanText.eq_def]
  simp only [hquote, hescape, hlt, if_false]

theorem pieceBytes?_bytes (bs : List UInt8) (qs : List Piece) :
    pieceBytes? (bs.map .byte ++ qs) = (pieceBytes? qs).map (bs ++ ·) := by
  induction bs with
  | nil => simp
  | cons b bs ih => simp [pieceBytes?, ih, Function.comp_def]

theorem scanText_bytes {bs : List UInt8}
    (hbs : ∀ b ∈ bs, b ≠ byte '"' ∧ b ≠ byte '\\' ∧ 0x20 ≤ b.toNat) (r : List UInt8) :
    scanText (bs ++ r) = (scanText r).map fun p => (bs.map .byte ++ p.1, p.2) := by
  induction bs with
  | nil => simp
  | cons b bs ih =>
      obtain ⟨hquote, hescape, hcontrol⟩ := hbs b (List.mem_cons_self ..)
      rw [List.cons_append, scanText_cons hquote hescape hcontrol,
        ih fun b hb => hbs b (List.mem_cons_of_mem _ hb)]
      simp [Function.comp_def]

/-- A character that stands for itself. -/
theorem writtenAs_plain {c : Char} (hquote : c ≠ '"') (hescape : c ≠ '\\')
    (hcontrol : 0x20 ≤ c.toNat) (hc : escapeChar c = [c]) :
    WrittenAs c ((String.utf8EncodeChar c).map .byte) := by
  have hbytes : ∀ b ∈ String.utf8EncodeChar c,
      b ≠ byte '"' ∧ b ≠ byte '\\' ∧ 0x20 ≤ b.toNat := by
    intro b hb
    by_cases hascii : c.toNat < 0x80
    · rw [Text.utf8EncodeChar_of_lt hascii, List.mem_singleton] at hb
      have hvalue : b.toNat = c.toNat := by
        rw [hb, UInt8.toNat_ofNat']
        omega
      refine ⟨?_, ?_, by omega⟩
      · rintro rfl
        exact hquote (Char.toNat_inj.1 hvalue.symm)
      · rintro rfl
        exact hescape (Char.toNat_inj.1 hvalue.symm)
    · have hhigh := Text.le_of_mem_utf8EncodeChar (Nat.not_lt.1 hascii) hb
      refine ⟨?_, ?_, by omega⟩
      · rintro rfl
        exact absurd hhigh (by decide)
      · rintro rfl
        exact absurd hhigh (by decide)
  refine ⟨fun r => ?_, pieceBytes?_bytes _⟩
  rw [hc]
  simpa using scanText_bytes hbytes r

/-- A character written as a backslash and another character. -/
theorem writtenAs_short {c e : Char} (hc : escapeChar c = ['\\', e])
    (hu : byte e ≠ byte 'u') (he : shortEscape? (byte e) = some (byte c))
    (hbytes : String.utf8EncodeChar c = [byte c]) (hbytes' : String.utf8EncodeChar e = [byte e]) :
    WrittenAs c [.byte (byte c)] := by
  refine ⟨fun r => ?_, fun qs => ?_⟩
  · have hslash : encode ['\\', e] = [byte '\\', byte e] := by
      rw [Text.encode_cons, Text.encode_cons, hbytes']
      rfl
    rw [hc, hslash, List.cons_append, List.cons_append, List.nil_append, scanText.eq_def]
    simp [hu, he, show byte '\\' ≠ byte '"' from by decide]
  · rw [hbytes]
    rfl

theorem codeUnit?_hexDigit : ∀ n < 0x20, codeUnit? (byte '0') (byte '0')
    (byte (hexDigit (n / 16))) (byte (hexDigit (n % 16))) = some n := by
  decide +kernel

theorem utf8EncodeChar_hexDigit : ∀ n < 16,
    String.utf8EncodeChar (hexDigit n) = [byte (hexDigit n)] := by
  decide +kernel

/-- A control character written by its code. -/
theorem writtenAs_control {c : Char} (hcontrol : c.toNat < 0x20)
    (hc : escapeChar c =
      ['\\', 'u', '0', '0', hexDigit (c.toNat / 16), hexDigit (c.toNat % 16)]) :
    WrittenAs c [.unit c.toNat] := by
  refine ⟨fun r => ?_, fun qs => ?_⟩
  · have hcode : encode (escapeChar c) = [byte '\\', byte 'u', byte '0', byte '0',
        byte (hexDigit (c.toNat / 16)), byte (hexDigit (c.toNat % 16))] := by
      rw [hc]
      simp only [Text.encode_cons, utf8EncodeChar_hexDigit (c.toNat / 16) (by omega),
        utf8EncodeChar_hexDigit (c.toNat % 16) (by omega)]
      rfl
    rw [hcode]
    simp only [List.cons_append, List.nil_append]
    rw [scanText.eq_def]
    simp [codeUnit?_hexDigit c.toNat hcontrol, show byte '\\' ≠ byte '"' from by decide]
  · have hbelow : c.toNat < 0xD800 ∨ 0xE000 ≤ c.toNat := by omega
    rw [List.cons_append, List.nil_append, pieceBytes?.eq_def]
    simp only [hbelow, if_true, Char.ofNat_toNat]

theorem exists_writtenAs (c : Char) : ∃ ps, WrittenAs c ps := by
  by_cases hshort : c ∈ ['"', '\\', '\n', '\r', '\t', '\x08', '\x0c']
  · simp only [List.mem_cons, List.not_mem_nil, or_false] at hshort
    rcases hshort with rfl | rfl | rfl | rfl | rfl | rfl | rfl
    all_goals exact ⟨_, writtenAs_short rfl (by decide) (by decide) (by decide) (by decide)⟩
  · simp only [List.mem_cons, List.not_mem_nil, or_false, not_or] at hshort
    obtain ⟨hquote, hescape, hn, hr, ht, hb, hf⟩ := hshort
    by_cases hcontrol : c.toNat < 0x20
    · refine ⟨_, writtenAs_control hcontrol ?_⟩
      simp [escapeChar, hquote, hescape, hn, hr, ht, hb, hf, hcontrol]
    · refine ⟨_, writtenAs_plain hquote hescape (Nat.not_lt.1 hcontrol) ?_⟩
      simp [escapeChar, hquote, hescape, hn, hr, ht, hb, hf, hcontrol]

/-- Escaped characters are read up to the quote after them. -/
theorem exists_scanText_escaped (cs : List Char) : ∃ ps, pieceBytes? ps = some (encode cs) ∧
    ∀ r, scanText (encode (cs.flatMap escapeChar) ++ byte '"' :: r) = some (ps, r) := by
  induction cs with
  | nil =>
      refine ⟨[], rfl, fun r => ?_⟩
      rw [List.flatMap_nil, Text.encode_nil, List.nil_append, scanText.eq_def]
      exact if_pos rfl
  | cons c cs ih =>
      obtain ⟨ps, hc⟩ := exists_writtenAs c
      obtain ⟨qs, hbytes, hscan⟩ := ih
      refine ⟨ps ++ qs, ?_, fun r => ?_⟩
      · rw [hc.pieceBytes?_append, hbytes]
        rfl
      · rw [List.flatMap_cons, Text.encode_append, List.append_assoc, hc.scanText_append, hscan]
        rfl

/-! ### Values -/

namespace Value

mutual

/-- Whether there are no numbers in a value. -/
def isWorded : Value → Bool
  | number _ => false
  | array items => areWorded items
  | object members => membersWorded members
  | _ => true

def areWorded : List Value → Bool
  | [] => true
  | v :: vs => v.isWorded && areWorded vs

def membersWorded : List (String × Value) → Bool
  | [] => true
  | (_, v) :: ms => v.isWorded && membersWorded ms

end

mutual

def tokens : Value → List Token
  | null => [.null]
  | bool b => [.bool b]
  | number n => [.number n]
  | text s => [.text (some s)]
  | array items => .openArray :: itemTokens items ++ [.closeArray]
  | object members => .openObject :: memberTokens members ++ [.closeObject]

def itemTokens : List Value → List Token
  | [] => []
  | [v] => v.tokens
  | v :: vs => v.tokens ++ .comma :: itemTokens vs

def memberTokens : List (String × Value) → List Token
  | [] => []
  | [(k, v)] => .text (some k) :: .colon :: v.tokens
  | (k, v) :: ms => .text (some k) :: .colon :: v.tokens ++ .comma :: memberTokens ms

end

theorem renderItems_cons_cons (v w : Value) (vs : List Value) :
    renderItems (v :: w :: vs) = v.render ++ ',' :: renderItems (w :: vs) := rfl

theorem itemTokens_cons_cons (v w : Value) (vs : List Value) :
    itemTokens (v :: w :: vs) = v.tokens ++ .comma :: itemTokens (w :: vs) := rfl

theorem renderMembers_cons_cons (k : String) (v : Value) (m : String × Value)
    (ms : List (String × Value)) : renderMembers ((k, v) :: m :: ms) =
      renderText k ++ ':' :: v.render ++ ',' :: renderMembers (m :: ms) := rfl

theorem memberTokens_cons_cons (k : String) (v : Value) (m : String × Value)
    (ms : List (String × Value)) : memberTokens ((k, v) :: m :: ms) =
      .text (some k) :: .colon :: v.tokens ++ .comma :: memberTokens (m :: ms) := rfl

end Value

def Tokens.prepend (ts : List Token) (u : Tokens) : Tokens := { u with list := ts ++ u.list }

@[simp] theorem Tokens.prepend_prepend (ts ts' : List Token) (u : Tokens) :
    (u.prepend ts').prepend ts = u.prepend (ts ++ ts') := by
  simp only [prepend, List.append_assoc]

theorem scan_of_scanToken {b : UInt8} {r rest : List UInt8} {t : Token}
    (hb : isBlankByte b = false) (ht : scanToken (b :: r) = some (t, rest)) :
    scan (b :: r) = (scan rest).prepend [t] := by
  have hdrop : (b :: r).dropWhile isBlankByte = b :: r := by simp [hb]
  rw [scan]
  split
  · next h =>
      rw [hdrop] at h
      cases h
  · next b' r' h =>
      rw [hdrop] at h
      cases h
      split
      · next h =>
          rw [ht] at h
          cases h
      · next t' rest' h =>
          rw [ht] at h
          cases h
          rfl

theorem scan_of_punctuation {b : UInt8} {t : Token} (hb : isBlankByte b = false)
    (ht : punctuation? b = some t) (r : List UInt8) : scan (b :: r) = (scan r).prepend [t] := by
  apply scan_of_scanToken hb
  simp only [scanToken, ht]

theorem scan_renderText (s : String) (r : List UInt8) :
    scan (encode (renderText s) ++ r) = (scan r).prepend [.text (some s)] := by
  obtain ⟨ps, hbytes, hscan⟩ := exists_scanText_escaped s.toList
  have htext : decodePieces ps = some s := by
    rw [decodePieces, hbytes]
    exact Text.fromUTF8?_encode s
  have hrender : encode (renderText s) ++ r =
      byte '"' :: (encode (s.toList.flatMap escapeChar) ++ byte '"' :: r) := by
    rw [renderText, List.cons_append, Text.encode_cons, Text.encode_append, List.append_assoc,
      List.append_assoc]
    rfl
  rw [hrender]
  apply scan_of_scanToken (by decide)
  rw [scanToken]
  simp [hscan, htext, show punctuation? (byte '"') = none from by decide]

theorem scan_word {b : UInt8} (rest : String) {t : Token} (hb : isBlankByte b = false)
    (ht : ∀ r, scanToken (b :: r) = scanWord rest t r) (r : List UInt8) :
    scan (b :: (rest.toList.map byte ++ r)) = (scan r).prepend [t] := by
  apply scan_of_scanToken hb
  have hlength : rest.length = (rest.toList.map byte).length := by
    rw [List.length_map, String.length_toList]
  rw [ht, scanWord, if_pos (by simp), hlength, List.drop_left]

namespace Value

mutual

/-- The text of a value is divided into the tokens of the value. -/
theorem scan_render (v : Value) (hv : v.isWorded = true) (r : List UInt8) :
    scan (encode v.render ++ r) = (scan r).prepend v.tokens := by
  cases v with
  | null => exact scan_word "ull" (by decide) (fun _ => rfl) r
  | bool b =>
      cases b with
      | true => exact scan_word "rue" (by decide) (fun _ => rfl) r
      | false => exact scan_word "alse" (by decide) (fun _ => rfl) r
  | number n => cases hv
  | text s => exact scan_renderText s r
  | array items =>
      have hopen : encode (render (.array items)) ++ r =
          byte '[' :: (encode (renderItems items) ++ byte ']' :: r) := by
        rw [render, List.cons_append, Text.encode_cons, Text.encode_append, List.append_assoc,
          List.append_assoc]
        rfl
      rw [hopen, scan_of_punctuation (by decide) rfl, scan_renderItems items hv,
        scan_of_punctuation (by decide) rfl, tokens]
      simp
  | object members =>
      have hopen : encode (render (.object members)) ++ r =
          byte '\x7b' :: (encode (renderMembers members) ++ byte '\x7d' :: r) := by
        rw [render, List.cons_append, Text.encode_cons, Text.encode_append, List.append_assoc,
          List.append_assoc]
        rfl
      rw [hopen, scan_of_punctuation (by decide) rfl, scan_renderMembers members hv,
        scan_of_punctuation (by decide) rfl, tokens]
      simp

theorem scan_renderItems (vs : List Value) (hvs : areWorded vs = true) (r : List UInt8) :
    scan (encode (renderItems vs) ++ r) = (scan r).prepend (itemTokens vs) := by
  match vs with
  | [] => rfl
  | [v] =>
      rw [areWorded, Bool.and_eq_true] at hvs
      exact scan_render v hvs.1 r
  | v :: w :: vs =>
      rw [areWorded, Bool.and_eq_true] at hvs
      have hcomma : encode (renderItems (v :: w :: vs)) ++ r =
          encode v.render ++ byte ',' :: (encode (renderItems (w :: vs)) ++ r) := by
        rw [renderItems_cons_cons, Text.encode_append, Text.encode_cons, List.append_assoc]
        rfl
      rw [hcomma, scan_render v hvs.1, scan_of_punctuation (by decide) rfl,
        scan_renderItems (w :: vs) hvs.2, itemTokens_cons_cons]
      simp

theorem scan_renderMembers (ms : List (String × Value)) (hms : membersWorded ms = true)
    (r : List UInt8) :
    scan (encode (renderMembers ms) ++ r) = (scan r).prepend (memberTokens ms) := by
  match ms with
  | [] => rfl
  | [(k, v)] =>
      rw [membersWorded, Bool.and_eq_true] at hms
      have hcolon : encode (renderMembers [(k, v)]) ++ r =
          encode (renderText k) ++ byte ':' :: (encode v.render ++ r) := by
        rw [renderMembers, Text.encode_append, Text.encode_cons, List.append_assoc]
        rfl
      rw [hcolon, scan_renderText, scan_of_punctuation (by decide) rfl, scan_render v hms.1]
      simp [memberTokens]
  | (k, v) :: m :: ms =>
      rw [membersWorded, Bool.and_eq_true] at hms
      have hcomma : encode (renderMembers ((k, v) :: m :: ms)) ++ r =
          encode (renderText k) ++ byte ':' :: (encode v.render ++
            byte ',' :: (encode (renderMembers (m :: ms)) ++ r)) := by
        rw [renderMembers_cons_cons, Text.encode_append, Text.encode_append, Text.encode_cons,
          Text.encode_cons, List.append_assoc, List.append_assoc]
        rfl
      rw [hcomma, scan_renderText, scan_of_punctuation (by decide) rfl, scan_render v hms.1,
        scan_of_punctuation (by decide) rfl, scan_renderMembers (m :: ms) hms.2,
        memberTokens_cons_cons]
      simp

end

end Value

end ProtoSchema.Json
