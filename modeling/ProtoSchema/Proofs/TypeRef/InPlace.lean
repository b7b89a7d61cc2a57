import ProtoSchema.Proofs.Text.Offsets
import ProtoSchema.Proofs.TypeRef.Grammar
import Mathlib.Data.Nat.PSub
import Mathlib.Order.Bounds.Defs

/-!
The reader of one level, in place. It leaves the text as it is and keeps byte offsets into it and
the depth as a counter, so that each slice and each step down of the counter is an operation that
can fail. None of them does: the reader in place never fails, and it reads what `Segment.read`
reads. It follows that nothing is lost between the brackets, and that every argument is shorter than
the text.
-/

namespace ProtoSchema.TypeRef

open String (utf8Len)
open Text (trim withOffsets offsetOf? slice? charsBetween)

/-- The depth after a character, by a step down that fails at depth zero. -/
def depthAfter? (depth : Nat) (c : Char) : Option Nat :=
  if c = '<' then some (depth + 1) else if c = '>' then depth.ppred else some depth

/-- Goes through characters with their offsets up to the closing bracket that leads to depth zero,
and gives its offset, if there is one. Fails where the counter cannot go down. -/
def findClose (depth : Nat) : List (Nat × Char) → Option (Option Nat)
  | [] => some none
  | (i, c) :: rest =>
      (depthAfter? depth c).bind fun d =>
        if c = '>' ∧ d = 0 then some (some i) else findClose d rest

def closing? (text : String) (opening : Nat) : Option (Option Nat) :=
  findClose 0 ((withOffsets 0 text.toList).dropWhile fun p => p.1 < opening)

/-- Goes through characters with their offsets and cuts at the commas of depth zero. The current
piece starts at the offset `start`. Fails where the counter cannot go down or a slice is out of
bounds. -/
def cutAtCommas (inner : String) (depth start : Nat) : List (Nat × Char) → Option (List String)
  | [] => (slice? inner start inner.utf8ByteSize).map fun s => [s]
  | (i, c) :: rest =>
      if c = ',' ∧ depth = 0 then
        (slice? inner start i).bind fun s => (cutAtCommas inner 0 (i + 1) rest).map (s :: ·)
      else (depthAfter? depth c).bind fun d => cutAtCommas inner d start rest

def segments? (inner : String) : Option (List String) :=
  cutAtCommas inner 0 0 (withOffsets 0 inner.toList)

def Segment.readArgumentsInPlace? (text : String) (base : List Char) (opening close : Nat) :
    Option (Except TypeFault Segment) :=
  text.utf8ByteSize.ppred.bind fun last =>
    if close = last then
      (slice? text (opening + 1) close).bind fun inner =>
        (segments? inner).map fun segments =>
          let arguments := segments.map fun s => trim s.toList
          if arguments.any List.isEmpty then .error .emptyArgument
          else .ok (.generic base arguments)
    else some (.error .trailingText)

def Segment.readInPlace? (text : String) : Option (Except TypeFault Segment) :=
  match offsetOf? '<' text with
  | none =>
      some (
        if '>' ∈ text.toList then .error .unmatchedClose
        else if text.toList = [] then .error .emptyName
        else .ok (.plain text.toList))
  | some opening =>
      (slice? text 0 opening).bind fun lead =>
        if trim lead.toList = [] then some (.error .missingName)
        else
          (closing? text opening).bind fun
            | none => some (.error .unclosed)
            | some close => readArgumentsInPlace? text (trim lead.toList) opening close

/-! ### The counter -/

theorem depthAfter?_of_inside {depth : Nat} {c : Char} (h : ¬ (c = '>' ∧ depth = 0)) :
    depthAfter? depth c = some (depthAfter depth c) := by
  rw [depthAfter?, depthAfter]
  by_cases hopen : c = '<'
  · simp [hopen]
  · by_cases hclose : c = '>'
    · obtain ⟨d, rfl⟩ := Nat.exists_eq_succ_of_ne_zero fun h0 => h ⟨hclose, h0⟩
      simp [hclose]
    · simp [hopen, hclose]

/-- Behind the opening bracket the search in place goes along with the one that cuts the text. Its
counter is one ahead, since it counts the opening bracket as well. -/
theorem findClose_succ (depth offset : Nat) (s : List Char) :
    findClose (depth + 1) (withOffsets offset s) =
      some ((cutAtClose depth s).map fun p => offset + utf8Len p.1) := by
  induction s generalizing depth offset with
  | nil => rfl
  | cons c s ih =>
      have hstep : depthAfter? (depth + 1) c = some (depthAfter (depth + 1) c) :=
        depthAfter?_of_inside (by simp)
      rw [withOffsets, findClose, hstep, Option.bind_some, cutAtClose]
      by_cases hfound : c = '>' ∧ depth = 0
      · obtain ⟨rfl, rfl⟩ := hfound
        rfl
      · have hdepth := depthAfter_succ hfound
        rw [if_neg hfound, if_neg (by simp [hdepth]), hdepth, ih, Option.map_map]
        congr 2
        funext p
        simp only [Function.comp_apply, String.utf8Len_cons]
        omega

section

variable {text : String} {lead rest : List Char}

theorem closing?_eq (htext : text.toList = lead ++ '<' :: rest) :
    closing? text (utf8Len lead) =
      some ((cutAtClose 0 rest).map fun p => utf8Len lead + 1 + utf8Len p.1) := by
  rw [closing?, htext, Text.dropWhile_withOffsets, withOffsets, findClose, depthAfter?, if_pos rfl,
    Option.bind_some, if_neg (by simp), findClose_succ]
  rfl

end

/-- Where no bracket is closed at depth zero the cutting in place gives the pieces. The text before
the current character consists of what has been cut off already and of the current piece. -/
theorem cutAtCommas_eq {inner : String} {depth e : Nat} {before p s : List Char}
    (hinner : inner.toList = before ++ p ++ s) (hs : endDepth? depth s = some e) :
    cutAtCommas inner depth (utf8Len before) (withOffsets (utf8Len before + utf8Len p) s) =
      some ((p.foldr extendHead (pieces depth s)).map String.ofList) := by
  induction s generalizing depth before p with
  | nil =>
      have hsize : inner.utf8ByteSize = utf8Len before + utf8Len p := by
        rw [Text.utf8ByteSize_eq hinner, List.append_nil, String.utf8Len_append]
      rw [withOffsets, cutAtCommas, hsize, Text.slice?_of_append hinner, pieces, foldr_extendHead,
        List.append_nil]
      rfl
  | cons c s ih =>
      obtain ⟨hinside, htail⟩ := endDepth?_cons_eq_some.1 hs
      rw [withOffsets, cutAtCommas, pieces]
      by_cases hcut : c = ',' ∧ depth = 0
      · obtain ⟨rfl, rfl⟩ := hcut
        have hrest := @ih 0 (before ++ p ++ [',']) [] (by simpa using hinner) htail
        have hstart : utf8Len (before ++ p ++ [',']) = utf8Len before + utf8Len p + 1 := by
          rw [String.utf8Len_append, String.utf8Len_append]
          rfl
        rw [hstart, String.utf8Len_nil, Nat.add_zero] at hrest
        have hcomma : Char.utf8Size ',' = 1 := rfl
        rw [if_pos ⟨rfl, rfl⟩, if_pos ⟨rfl, rfl⟩, Text.slice?_of_append hinner,
          Option.bind_some, hcomma, hrest, foldr_extendHead, List.append_nil]
        rfl
      · have hrest := ih (p := p ++ [c]) (by simpa using hinner) htail
        have hnext : utf8Len before + utf8Len p + c.utf8Size =
            utf8Len before + utf8Len (p ++ [c]) := by
          rw [String.utf8Len_append, String.utf8Len_cons, String.utf8Len_nil]
          omega
        rw [if_neg hcut, if_neg hcut, depthAfter?_of_inside hinside, Option.bind_some, hnext, hrest,
          List.foldr_append]
        rfl

theorem segments?_eq {inner : String} (h : BracketsMatch inner.toList) :
    segments? inner = some ((pieces 0 inner.toList).map String.ofList) :=
  @cutAtCommas_eq inner 0 0 [] [] inner.toList rfl (balanced_iff.2 h)

/-! ### The reader in place -/

/-- What stands inside the brackets can be sliced out by the offsets of the brackets. -/
theorem slice?_inner {text : String} {lead inner after : List Char}
    (htext : text.toList = lead ++ '<' :: (inner ++ '>' :: after)) :
    slice? text (utf8Len lead + 1) (utf8Len lead + 1 + utf8Len inner) =
      some (String.ofList inner) := by
  have hopening : utf8Len lead + 1 = utf8Len (lead ++ ['<']) := by
    rw [String.utf8Len_append]
    rfl
  rw [hopening]
  exact Text.slice?_of_append (t := '>' :: after) (by simpa using htext)

theorem slice?_lead {text : String} {lead rest : List Char}
    (htext : text.toList = lead ++ '<' :: rest) :
    slice? text 0 (utf8Len lead) = some (String.ofList lead) := by
  have hslice := Text.slice?_of_append (s := []) (m := lead) (t := '<' :: rest) htext
  rwa [String.utf8Len_nil, Nat.zero_add] at hslice

theorem Segment.readArgumentsInPlace?_eq {text : String} {lead inner after : List Char}
    (htext : text.toList = lead ++ '<' :: (inner ++ '>' :: after)) (hinner : BracketsMatch inner)
    (base : List Char) :
    readArgumentsInPlace? text base (utf8Len lead) (utf8Len lead + 1 + utf8Len inner) =
      some (
        if after ≠ [] then .error .trailingText
        else if [] ∈ (pieces 0 inner).map trim then .error .emptyArgument
        else .ok (.generic base ((pieces 0 inner).map trim))) := by
  have hlast : text.utf8ByteSize.ppred =
      some (utf8Len lead + 1 + utf8Len inner + utf8Len after) := by
    rw [Nat.ppred_eq_some, Text.utf8ByteSize_eq htext]
    simp only [String.utf8Len_append, String.utf8Len_cons]
    rw [show Char.utf8Size '<' = 1 from rfl, show Char.utf8Size '>' = 1 from rfl]
    omega
  rw [readArgumentsInPlace?, hlast, Option.bind_some]
  by_cases hafter : after = []
  · subst hafter
    have hmatch : BracketsMatch (String.ofList inner).toList := by
      rwa [String.toList_ofList]
    have hsegments := segments?_eq hmatch
    have htrimmed : ((pieces 0 inner).map String.ofList).map (fun s => trim s.toList) =
        (pieces 0 inner).map trim := by
      rw [List.map_map]
      exact List.map_congr_left fun p _ => by simp
    rw [String.toList_ofList] at hsegments
    simp only [String.utf8Len_nil, Nat.add_zero, ne_eq, not_true_eq_false, if_true, if_false]
    rw [slice?_inner htext, Option.bind_some, hsegments, Option.map_some, htrimmed]
    have hempty : ((pieces 0 inner).map trim).any List.isEmpty = true ↔
        [] ∈ (pieces 0 inner).map trim := by simp
    simp only [hempty]
  · have hbehind : utf8Len after ≠ 0 := fun h => hafter (String.utf8Len_eq_zero.1 h)
    rw [if_neg (by omega), if_pos hafter]

/-- No slice and no step of the counter fails, and what is read is the same. -/
theorem Segment.readInPlace?_eq (text : String) :
    readInPlace? text = some (Segment.read text.toList) := by
  by_cases hopen : '<' ∈ text.toList
  · obtain ⟨lead, rest, htext, hlead⟩ := List.eq_append_cons_of_mem hopen
    rw [readInPlace?, Text.offsetOf?_of_append hlead htext]
    simp only [slice?_lead htext, closing?_eq htext, Option.bind_some, String.toList_ofList]
    rw [htext, Segment.read_append_open hlead]
    by_cases hname : trim lead = []
    · simp [hname]
    · cases hcut : cutAtClose 0 rest with
      | none => simp [hname]
      | some found =>
          obtain ⟨inner, after⟩ := found
          obtain ⟨rfl, hend⟩ := cutAtClose_eq_some_iff.1 hcut
          simp only [if_neg hname, Option.map_some]
          exact readArgumentsInPlace?_eq htext (balanced_iff.1 hend) (trim lead)
  · rw [readInPlace?, Text.offsetOf?_of_notMem hopen, Segment.read_of_notMem hopen]

/-! ### What the search finds -/

/-- Whether the characters from one offset to another, the last one included, have as many opening
as closing brackets. -/
def EvenBetween (text : String) (first last : Nat) : Prop :=
  (charsBetween text first last).count '<' = (charsBetween text first last).count '>'

section

variable {text : String} {lead inner rest after : List Char}

/-- As long as the brackets behind the opening one do not close more than they open, the opening one
stays open. -/
theorem not_evenBetween_of_prefix {last : Nat} {s : List Char} {e : Nat}
    (htext : text.toList = lead ++ '<' :: rest) (hlast : utf8Len lead ≤ last)
    (hs : endDepth? 0 s = some e) (hbetween : charsBetween text (utf8Len lead) last <+: '<' :: s) :
    ¬ EvenBetween text (utf8Len lead) last := by
  rw [EvenBetween]
  obtain hnil | ⟨p, hp, hprefix⟩ := List.prefix_cons_iff.1 hbetween
  · exact absurd hnil (Text.charsBetween_ne_nil htext hlast)
  · have hle := (endDepth?_eq_some_iff.1 hs).1 p hprefix
    rw [hp, List.count_cons_self, List.count_cons_of_ne (by decide)]
    omega

theorem not_evenBetween_of_unclosed {last : Nat} (htext : text.toList = lead ++ '<' :: rest)
    (hrest : cutAtClose 0 rest = none) (hlast : utf8Len lead ≤ last) :
    ¬ EvenBetween text (utf8Len lead) last := by
  obtain ⟨e, he⟩ := cutAtClose_eq_none_iff.1 hrest
  exact not_evenBetween_of_prefix htext hlast he (Text.charsBetween_prefix_rest htext last)

theorem isLeast_evenBetween (htext : text.toList = lead ++ '<' :: (inner ++ '>' :: after))
    (hinner : BracketsMatch inner) :
    IsLeast {i | utf8Len lead ≤ i ∧ EvenBetween text (utf8Len lead) i}
      (utf8Len lead + 1 + utf8Len inner) := by
  have hoffset : utf8Len lead + 1 + utf8Len inner = utf8Len lead + utf8Len ('<' :: inner) := by
    rw [String.utf8Len_cons, show Char.utf8Size '<' = 1 from rfl]
    omega
  rw [hoffset]
  refine ⟨⟨Nat.le_add_right _ _, ?_⟩, ?_⟩
  · rw [EvenBetween, Text.charsBetween_concat htext]
    have htotals := hinner.totals
    simp only [List.cons_append, List.count_cons, List.count_append, List.count_nil]
    simpa using htotals
  · rintro last ⟨hlast, heven⟩
    refine Nat.le_of_not_lt fun hbefore => ?_
    have hbetween := Text.charsBetween_prefix (m := '<' :: inner) htext hbefore
    exact not_evenBetween_of_prefix htext hlast (balanced_iff.2 hinner) hbetween heven

end

/-! ### What the cutting leaves -/

structure Divides (segments : List String) (inner : String) : Prop where
  matching : ∀ s ∈ segments, BracketsMatch s.toList ∧ BracketsMatch (trim s.toList)
  commas : segments.length = outerCommas inner.toList + 1
  joined : ",".intercalate segments = inner

theorem divides_pieces {inner : String} (h : BracketsMatch inner.toList) :
    Divides ((pieces 0 inner.toList).map String.ofList) inner where
  matching := by
    intro s hs
    obtain ⟨p, hp, rfl⟩ := List.mem_map.1 hs
    have hmatch := (isPiece_of_mem_pieces h hp).matching
    rw [String.toList_ofList]
    exact ⟨hmatch, bracketsMatch_trim.2 hmatch⟩
  commas := by rw [List.length_map, length_pieces_eq_outerCommas h]
  joined := by
    have htexts : ((pieces 0 inner.toList).map String.ofList).map String.toList =
        pieces 0 inner.toList := by simp
    rw [← String.toList_inj, String.toList_intercalate, htexts]
    exact intercalate_pieces 0 inner.toList

/-! ### Shorter texts -/

theorem utf8Len_le_intercalate {p : List Char} {ps : List (List Char)} (hp : p ∈ ps) :
    utf8Len p ≤ utf8Len (List.intercalate [','] ps) := by
  induction ps with
  | nil => cases hp
  | cons q qs ih =>
      cases qs with
      | nil =>
          obtain rfl := List.mem_singleton.1 hp
          rw [List.intercalate_singleton]
      | cons r rs =>
          rw [List.intercalate_cons_cons, String.utf8Len_append, String.utf8Len_append]
          obtain rfl | hp := List.mem_cons.1 hp
          · omega
          · have := ih hp
            omega

/-- An argument leaves out the brackets that it stands in. -/
theorem Applies.utf8Len_argument_lt {s base a : List Char} {arguments : List (List Char)}
    (h : Applies s base arguments) (ha : a ∈ arguments) : utf8Len a < utf8Len s := by
  cases h with
  | @intro lead ps hlead hname hps hpieces harguments =>
      obtain ⟨p, hp, rfl⟩ := List.mem_map.1 ha
      obtain ⟨before, after, -, -, htrim⟩ := Text.exists_append_trim p
      have hpiece := utf8Len_le_intercalate hp
      have htrimmed : utf8Len (trim p) ≤ utf8Len p := by
        conv => rhs; rw [htrim]
        simp only [String.utf8Len_append]
        omega
      have hopening := Char.utf8Size_pos '<'
      simp only [String.utf8Len_append, String.utf8Len_cons]
      omega

/-! ### The scans -/

/-- What the search for the bracket that closes the one at `opening` has to give: the first offset
up to which brackets are opened and closed equally often, or nothing if there is no such offset. -/
structure IsClosing (text : String) (opening : Nat) (found : Option Nat) : Prop where
  missing : found = none ↔ ∀ i, opening ≤ i → ¬ EvenBetween text opening i
  first : ∀ close, found = some close →
    IsLeast {i | opening ≤ i ∧ EvenBetween text opening i} close

theorem isClosing_cutAtClose {text : String} {lead rest : List Char}
    (htext : text.toList = lead ++ '<' :: rest) :
    IsClosing text (utf8Len lead)
      ((cutAtClose 0 rest).map fun p => utf8Len lead + 1 + utf8Len p.1) := by
  cases hcut : cutAtClose 0 rest with
  | none =>
      refine ⟨iff_of_true rfl fun i hi => not_evenBetween_of_unclosed htext hcut hi, ?_⟩
      intro close hclose
      cases hclose
  | some found =>
      obtain ⟨inner, after⟩ := found
      obtain ⟨rfl, hend⟩ := cutAtClose_eq_some_iff.1 hcut
      have hleast := isLeast_evenBetween htext (balanced_iff.1 hend)
      refine ⟨iff_of_false (by simp) fun hnone => hnone _ hleast.1.1 hleast.1.2, ?_⟩
      intro close hclose
      rw [Option.map_some, Option.some.injEq] at hclose
      rwa [← hclose]

/-- Reading one level in place neither fails nor loses anything. The search gives the closing
bracket at which the reader cuts. The text between the brackets closes what it opens; cutting it at
commas never meets a bracket that is closed at depth zero, and it loses only the commas. Each
argument has fewer bytes than the whole. -/
theorem scans_lose_nothing {text : String} {opening : Nat}
    (hopening : offsetOf? '<' text = some opening) :
    Segment.readInPlace? text = some (Segment.read text.toList) ∧
      (∃ lead rest found, text.toList = lead ++ '<' :: rest ∧ '<' ∉ lead ∧
        closing? text opening = some found ∧ IsClosing text opening found ∧
        found = (cutAtClose 0 rest).map (fun p => opening + 1 + utf8Len p.1) ∧
        ∀ close, found = some close →
          ∃ inner segments, slice? text (opening + 1) close = some inner ∧
            BracketsMatch inner.toList ∧ segments? inner = some segments ∧
            segments.map String.toList = pieces 0 inner.toList ∧ Divides segments inner) ∧
      ∀ base arguments, Segment.read text.toList = .ok (.generic base arguments) →
        ∀ a ∈ arguments, (String.ofList a).utf8ByteSize < text.utf8ByteSize := by
  obtain ⟨lead, rest, htext, hlead, rfl⟩ := Text.exists_append_of_offsetOf? hopening
  refine ⟨Segment.readInPlace?_eq text, ⟨lead, rest, _, htext, hlead, closing?_eq htext,
    isClosing_cutAtClose htext, rfl, ?_⟩, ?_⟩
  · intro close hclose
    obtain ⟨⟨inner, after⟩, hcut, rfl⟩ := Option.map_eq_some_iff.1 hclose
    obtain ⟨rfl, hend⟩ := cutAtClose_eq_some_iff.1 hcut
    have hinner : BracketsMatch (String.ofList inner).toList := by
      rw [String.toList_ofList]
      exact balanced_iff.1 hend
    exact ⟨_, _, slice?_inner htext, hinner, segments?_eq hinner, by simp, divides_pieces hinner⟩
  · intro base arguments hread a ha
    have hlt := (Segment.read_eq_generic_iff.1 hread).utf8Len_argument_lt ha
    rwa [String.utf8ByteSize_ofList, Text.utf8ByteSize_eq rfl]

/-- Characters of two bytes, before the brackets, in them and in a nested pair. -/
theorem scans_lose_nothing_multibyte :
    let text := "Größe<Tür<ä, b>, ß>"
    let inner := "Tür<ä, b>, ß"
    let segments := ["Tür<ä, b>", " ß"]
    offsetOf? '<' text = some 7 ∧ closing? text 7 = some (some 23) ∧
      IsClosing text 7 (some 23) ∧ slice? text 8 23 = some inner ∧
      segments? inner = some segments ∧ Divides segments inner ∧
      Segment.readInPlace? text = some (Segment.read text.toList) := by
  intro text inner segments
  have hopening : offsetOf? '<' text = some 7 := by decide +kernel
  have hclosing : closing? text 7 = some (some 23) := by decide +kernel
  have hslice : slice? text 8 23 = some inner := by decide +kernel
  have hsegments : segments? inner = some segments := by decide +kernel
  obtain ⟨hread, ⟨lead, rest, found, -, -, hfound, hfirst, -, hscan⟩, -⟩ :=
    scans_lose_nothing hopening
  rw [hclosing, Option.some.injEq] at hfound
  subst hfound
  obtain ⟨inner', segments', hslice', -, hsegments', -, hdivides⟩ := hscan 23 rfl
  rw [hslice, Option.some.injEq] at hslice'
  subst hslice'
  rw [hsegments, Option.some.injEq] at hsegments'
  subst hsegments'
  exact ⟨hopening, hclosing, hfirst, hslice, hsegments, hdivides, hread⟩

end ProtoSchema.TypeRef
