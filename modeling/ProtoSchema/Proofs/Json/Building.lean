import ProtoSchema.Proofs.Json.Scanning

/-!
The tree of a rendered value is that of the value. What the tokens of a value lead to is that the
value is put where it is due, inside any containers and before any other tokens; so the text of a
value that is written without numbers is read as that value, to its end.
-/

namespace ProtoSchema.Json

open Value (itemTokens memberTokens itemTokens_cons_cons memberTokens_cons_cons)

namespace Node

def awaitsValue : List Frame → Bool
  | .object _ none :: _ => false
  | _ => true

def buildAfter (n : Node) (fs : List Frame) (ts : List Token) : Node × List Token :=
  match n.deliver fs with
  | .go e fs => build ts e fs
  | .done n => (n, ts)
  | .stuck => (breakOff fs, ts)

theorem build_of_go {e e' : Expected} {fs fs' : List Frame} {t : Token}
    (h : Progress.next fs e t = .go e' fs') (ts : List Token) :
    build (t :: ts) e fs = build ts e' fs' := by
  rw [build, h]

theorem build_of_deliver {e : Expected} {fs fs' : List Frame} {t : Token} {n : Node}
    (hfs : awaitsValue fs' = true) (h : Progress.next fs e t = n.deliver fs') (ts : List Token) :
    build (t :: ts) e fs = n.buildAfter fs' ts := by
  rw [build, h, buildAfter]
  match fs' with
  | [] => rfl
  | .array items :: fs' => rfl
  | .object members (some k) :: fs' => rfl
  | .object members none :: fs' => cases hfs

theorem buildAfter_array (n : Node) (items : List Node) (fs : List Frame) (ts : List Token) :
    n.buildAfter (.array items :: fs) ts = build ts .separator (.array (n :: items) :: fs) := rfl

theorem buildAfter_object (n : Node) (members : List Member) (k : Option String) (fs : List Frame)
    (ts : List Token) : n.buildAfter (.object members (some k) :: fs) ts =
      build ts .separator (.object ((k, n) :: members) none :: fs) := rfl

/-- A value does not begin with a closing bracket, so the first item of an array is read as any
other. -/
theorem build_firstItem {vs : List Value} (hvs : vs ≠ []) (fs : List Frame) (ts : List Token) :
    build (itemTokens vs ++ ts) .firstItem fs = build (itemTokens vs ++ ts) .value fs := by
  match vs with
  | [] => exact absurd rfl hvs
  | [v] => cases v <;> rfl
  | v :: w :: vs => cases v <;> rfl

theorem build_firstKey {ms : List (String × Value)} (hms : ms ≠ []) (members : List Member)
    (fs : List Frame) (ts : List Token) :
    build (memberTokens ms ++ ts) .firstKey (.object members none :: fs) =
      build (memberTokens ms ++ ts) .key (.object members none :: fs) := by
  match ms with
  | [] => exact absurd rfl hms
  | [(k, v)] => rfl
  | (k, v) :: m :: ms => rfl

mutual

/-- The tokens of a value lead to the value. -/
theorem build_tokens (v : Value) {fs : List Frame} (hfs : awaitsValue fs = true)
    (ts : List Token) : build (v.tokens ++ ts) .value fs = (ofValue v).buildAfter fs ts := by
  match v with
  | .null => exact build_of_deliver hfs rfl ts
  | .bool b => exact build_of_deliver hfs rfl ts
  | .number n => exact build_of_deliver hfs rfl ts
  | .text s => exact build_of_deliver hfs rfl ts
  | .array [] => exact build_of_deliver hfs rfl ts
  | .array (v :: vs) =>
      rw [Value.tokens, List.cons_append, List.cons_append, List.append_assoc, build_of_go rfl,
        build_firstItem (List.cons_ne_nil _ _)]
      exact build_itemTokens (v :: vs) (List.cons_ne_nil _ _) hfs [] ts
  | .object [] => exact build_of_deliver hfs rfl ts
  | .object (m :: ms) =>
      rw [Value.tokens, List.cons_append, List.cons_append, List.append_assoc, build_of_go rfl,
        build_firstKey (List.cons_ne_nil _ _)]
      exact build_memberTokens (m :: ms) (List.cons_ne_nil _ _) hfs [] ts

theorem build_itemTokens (vs : List Value) (hvs : vs ≠ []) {fs : List Frame}
    (hfs : awaitsValue fs = true) (items : List Node) (ts : List Token) :
    build (itemTokens vs ++ .closeArray :: ts) .value (.array items :: fs) =
      (array (items.reverse ++ ofItems vs) true).buildAfter fs ts := by
  match vs with
  | [] => exact absurd rfl hvs
  | [v] =>
      rw [itemTokens, build_tokens v rfl, buildAfter_array]
      refine (build_of_deliver hfs rfl ts).trans ?_
      simp [ofItems]
  | v :: w :: vs =>
      rw [itemTokens_cons_cons, List.append_assoc, build_tokens v rfl, buildAfter_array,
        List.cons_append, build_of_go rfl, build_itemTokens (w :: vs) (List.cons_ne_nil _ _) hfs]
      simp [ofItems]

theorem build_memberTokens (ms : List (String × Value)) (hms : ms ≠ []) {fs : List Frame}
    (hfs : awaitsValue fs = true) (members : List Member) (ts : List Token) :
    build (memberTokens ms ++ .closeObject :: ts) .key (.object members none :: fs) =
      (object (members.reverse ++ ofMembers ms) true).buildAfter fs ts := by
  match ms with
  | [] => exact absurd rfl hms
  | [(k, v)] =>
      rw [memberTokens, List.cons_append, List.cons_append, build_of_go rfl, build_of_go rfl,
        build_tokens v rfl, buildAfter_object]
      refine (build_of_deliver hfs rfl ts).trans ?_
      simp [ofMembers]
  | (k, v) :: m :: ms =>
      rw [memberTokens_cons_cons, List.append_assoc, List.cons_append, List.cons_append,
        build_of_go rfl, build_of_go rfl, build_tokens v rfl, buildAfter_object, List.cons_append,
        build_of_go rfl, build_memberTokens (m :: ms) (List.cons_ne_nil _ _) hfs]
      simp [ofMembers]

end

end Node

/-- The text of a value without numbers is read as the value. -/
theorem ofText_toText {v : Value} (hv : v.isWorded = true) :
    Source.ofText v.toText = ⟨Node.ofValue v, true⟩ := by
  have hscan : scan v.toText.toByteArray.toList = ⟨v.tokens, true⟩ := by
    have hend : scan [] = ⟨[], true⟩ := by
      rw [scan]
      rfl
    have hbytes : v.toText.toByteArray.toList = Text.encode v.render ++ [] := by
      rw [Text.toList_toByteArray, Value.toText, String.toList_ofList, List.append_nil]
    rw [hbytes, Value.scan_render v hv, hend]
    simp [Tokens.prepend]
  have hbuild := @Node.build_tokens v [] rfl []
  rw [List.append_nil] at hbuild
  rw [Source.ofText, Source.ofBytes, hscan, Source.ofTokens, hbuild]
  rfl

end ProtoSchema.Json
