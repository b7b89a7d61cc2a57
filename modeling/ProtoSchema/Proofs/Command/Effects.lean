import ProtoSchema.Command
import ProtoSchema.Proofs.FileTree.Directories

/-!
What the parts of a run do to a session. Finding the settings and reading the declarations leave it
as it is, logging prints, and writing documents puts them into the output directory one after
another, up to the first that cannot be written.
-/

namespace ProtoSchema.Command

open Surroundings
open Session (bind_apply)

theorem eq_ok_of_toOption {ε α : Type} {x : Except ε α} {a : α} (h : x.toOption = some a) :
    x = .ok a := by
  cases x with
  | error fault => cases h
  | ok b => exact congrArg Except.ok (Option.some.inj h)

/-- What an action gives, and the session that it leaves behind. -/
def Action.on {α : Type} (a : Action (StateM Session) α) (s : Session) :
    Except Fault α × Session :=
  (a.run : StateM Session (Except Fault α)) s

namespace Action

variable {α β : Type} {a : Action (StateM Session) α} {f : α → Action (StateM Session) β}
  {s s' : Session} {x : α} {fault : Fault}

theorem on_bind_ok (h : a.on s = (.ok x, s')) : (a >>= f).on s = (f x).on s' := by
  change ExceptT.bindCont f (a.on s).1 (a.on s).2 = _
  rw [h]
  rfl

theorem on_bind_error (h : a.on s = (.error fault, s')) : (a >>= f).on s = (.error fault, s') := by
  change ExceptT.bindCont f (a.on s).1 (a.on s).2 = _
  rw [h]
  rfl

theorem on_lift {b : StateM Session α} (h : b s = (x, s')) :
    (liftM b : Action (StateM Session) α).on s = (.ok x, s') := by
  change (Except.ok (b s).1, (b s).2) = _
  rw [h]

end Action

open ProtoSchema.Command.Action

section

variable {α : Type} {s s' : Session} {action : StateM Session (Except FileFault α)}
  {cause : FileFault → Fault}

theorem on_orFail_ok {a : α} (h : action s = (.ok a, s')) :
    (orFail cause action).on s = (.ok a, s') := by
  rw [orFail, on_bind_ok (on_lift h)]
  rfl

theorem on_orFail_error {fault : FileFault} (h : action s = (.error fault, s')) :
    (orFail cause action).on s = (.error (cause fault), s') := by
  rw [orFail, on_bind_ok (on_lift h)]
  rfl

theorem on_refuse_none (fault : α → Fault) (s : Session) :
    (refuse fault none : Action (StateM Session) Unit).on s = (.ok (), s) := rfl

theorem on_refuse_some (fault : α → Fault) (a : α) (s : Session) :
    (refuse fault (some a) : Action (StateM Session) Unit).on s = (.error (fault a), s) := rfl

end

/-! ### Settings -/

def HoldsManifest (t : FileTree) (path : String) (m : Manifest) : Prop :=
  ∃ bytes text, t.content path = .ok bytes ∧ String.fromUTF8? bytes.toByteArray = some text ∧
    Manifest.ofToml? text = some m

/-- The manifest of a run: that of the given file, or else that of the file with the default name
if there is one, or else the empty one. -/
def HasManifest (t : FileTree) : Option String → Manifest → Prop
  | some path, m => HoldsManifest t path m
  | none, m =>
      if t.isPresent defaultManifestName then HoldsManifest t defaultManifestName m else m = {}

theorem readFile_apply (path : String) (s : Session) :
    (readFile path : StateM Session (Except FileFault (List UInt8))) s =
      (s.tree.content path, s) := rfl

theorem readText_apply (path : String) (s : Session) :
    ∃ result, (readText path : StateM Session (Except FileFault String)) s = (result, s) ∧
      ∀ text, result = .ok text ↔
        ∃ bytes, s.tree.content path = .ok bytes ∧
          String.fromUTF8? bytes.toByteArray = some text := by
  rw [readText, bind_apply (readFile_apply path s)]
  cases s.tree.content path with
  | error fault => exact ⟨_, rfl, by simp⟩
  | ok bytes =>
      simp only [Except.ok.injEq, exists_eq_left']
      cases String.fromUTF8? bytes.toByteArray with
      | none => exact ⟨_, rfl, by simp⟩
      | some text => exact ⟨_, rfl, by simp⟩

theorem on_readManifest (path : String) (s : Session) :
    ∃ result, (readManifest path).on s = (result, s) ∧
      ∀ m, result = .ok m ↔ HoldsManifest s.tree path m := by
  obtain ⟨result, hread, hresult⟩ := readText_apply path s
  have htext : ∀ m, HoldsManifest s.tree path m ↔
      ∃ text, result = .ok text ∧ Manifest.ofToml? text = some m := by
    intro m
    simp only [HoldsManifest, hresult]
    constructor
    · rintro ⟨bytes, text, hbytes, htext, hm⟩
      exact ⟨text, ⟨bytes, hbytes, htext⟩, hm⟩
    · rintro ⟨text, ⟨bytes, hbytes, htext⟩, hm⟩
      exact ⟨bytes, text, hbytes, htext, hm⟩
  simp only [htext]
  rw [readManifest]
  cases result with
  | error fault =>
      rw [on_bind_error (on_orFail_error hread)]
      exact ⟨_, rfl, by simp⟩
  | ok text =>
      rw [on_bind_ok (on_orFail_ok hread)]
      cases hm : Manifest.ofToml? text with
      | none => exact ⟨_, rfl, by simp [hm]⟩
      | some m => exact ⟨_, rfl, by simp [hm]⟩

theorem on_findManifest (path : Option String) (s : Session) :
    ∃ result, (findManifest path).on s = (result, s) ∧
      ∀ m, result = .ok m ↔ HasManifest s.tree path m := by
  cases path with
  | some path => exact on_readManifest path s
  | none =>
      have hasked : (isPresent defaultManifestName : StateM Session Bool) s =
          (s.tree.isPresent defaultManifestName, s) := rfl
      simp only [HasManifest]
      rw [findManifest, on_bind_ok (on_lift hasked)]
      cases s.tree.isPresent defaultManifestName with
      | true => exact on_readManifest defaultManifestName s
      | false => exact ⟨.ok {}, rfl, by simp [eq_comm]⟩

/-- The settings of a run are found without changing anything. -/
theorem on_resolveConfig (path : Option String) (overrides : Overrides) (s : Session) :
    ∃ result, (resolveConfig path overrides).on s = (result, s) ∧ ∀ config, result = .ok config ↔
      (∃ m, HasManifest s.tree path m ∧ m.fault? = none ∧ config = overrides.apply m.toConfig) ∧
        config.fault? = none := by
  obtain ⟨result, hfind, hresult⟩ := on_findManifest path s
  simp only [← hresult]
  rw [resolveConfig]
  cases result with
  | error fault =>
      rw [on_bind_error hfind]
      exact ⟨_, rfl, by simp⟩
  | ok m =>
      rw [on_bind_ok hfind]
      simp only [Except.ok.injEq, exists_eq_left']
      cases hm : m.fault? with
      | some fault =>
          rw [on_bind_error (on_refuse_some ..)]
          exact ⟨_, rfl, by simp⟩
      | none =>
          rw [on_bind_ok (on_refuse_none ..)]
          cases hconfig : (overrides.apply m.toConfig).fault? with
          | some fault =>
              simp only
              rw [on_bind_error (on_refuse_some ..)]
              refine ⟨_, rfl, fun config => ⟨by simp, ?_⟩⟩
              rintro ⟨⟨-, rfl⟩, hnone⟩
              simp [hconfig] at hnone
          | none =>
              simp only
              rw [on_bind_ok (on_refuse_none ..)]
              refine ⟨_, rfl, fun config => ⟨?_, ?_⟩⟩
              · rintro ⟨⟩
                exact ⟨⟨trivial, rfl⟩, hconfig⟩
              · rintro ⟨⟨-, rfl⟩, -⟩
                rfl

theorem on_readDeclarations (path : String) (s : Session) :
    ∃ result, (readDeclarations path).on s = (result, s) ∧ ∀ set, result = .ok set ↔
      ∃ bytes, s.tree.content path = .ok bytes ∧ DeclarationSet.ofJson bytes = .ok set := by
  rw [readDeclarations]
  cases hread : s.tree.content path with
  | error fault =>
      have hfile : (readFile path : StateM Session (Except FileFault (List UInt8))) s =
          (.error fault, s) := by rw [readFile_apply, hread]
      rw [on_bind_error (on_orFail_error hfile)]
      exact ⟨_, rfl, by simp⟩
  | ok bytes =>
      have hfile : (readFile path : StateM Session (Except FileFault (List UInt8))) s =
          (.ok bytes, s) := by rw [readFile_apply, hread]
      rw [on_bind_ok (on_orFail_ok hfile)]
      cases hset : DeclarationSet.ofJson bytes with
      | error fault => exact ⟨_, rfl, by simp [hset]⟩
      | ok set => exact ⟨_, rfl, by simp [hset]⟩

/-! ### Logging -/

theorem log_apply (threshold : Level) (e : Event) (s : Session) :
    ∃ printed, (log threshold e : StateM Session Unit) s = ((), { s with printed }) := by
  rw [log]
  split
  · exact ⟨_, rfl⟩
  · exact ⟨s.printed, rfl⟩

/-- Actions that do nothing but print do so one after another. -/
theorem forM_apply {α : Type} {act : α → StateM Session Unit}
    (hact : ∀ a s, ∃ printed, act a s = ((), { s with printed })) (as : List α) (s : Session) :
    ∃ printed, as.forM act s = ((), { s with printed }) := by
  induction as generalizing s with
  | nil => exact ⟨s.printed, rfl⟩
  | cons a as ih =>
      obtain ⟨printed, hfirst⟩ := hact a s
      obtain ⟨printed', hrest⟩ := ih { s with printed }
      refine ⟨printed', ?_⟩
      change (act a >>= fun _ => as.forM act) s = _
      rw [bind_apply hfirst]
      exact hrest

theorem logAll_apply (threshold : Level) (es : List Event) (s : Session) :
    ∃ printed, (logAll threshold es : StateM Session Unit) s = ((), { s with printed }) :=
  forM_apply (log_apply threshold) es s

/-! ### Writing -/

section

variable {threshold : Level} {output : String} {d : Document} {ds : List Document} {s : Session}

/-- A document that is written is followed by the others. -/
theorem on_writeDocuments_of_ok {t : FileTree}
    (h : s.tree.writeFile (Path.join output d.fileName) d.content.toByteArray.toList = .ok t) :
    ∃ printed, (writeDocuments threshold output (d :: ds)).on s =
      (writeDocuments threshold output ds).on { s with tree := t, printed } := by
  have hwrite : (writeFile (Path.join output d.fileName) d.content : StateM Session _) s =
      (.ok (), { s with tree := t }) := Session.attempt_of_ok h
  obtain ⟨printed, hlog⟩ := log_apply threshold
    ⟨.info, "Generated " ++ Path.join output d.fileName, []⟩ { s with tree := t }
  refine ⟨printed, ?_⟩
  rw [writeDocuments, on_bind_ok (on_orFail_ok hwrite), on_bind_ok (on_lift hlog)]

/-- A document that cannot be written is the last. -/
theorem on_writeDocuments_of_error {fault : FileFault}
    (h : s.tree.writeFile (Path.join output d.fileName) d.content.toByteArray.toList =
      .error fault) :
    (writeDocuments threshold output (d :: ds)).on s =
      (.error (.unwritableSchema (Path.join output d.fileName) fault), s) := by
  have hwrite : (writeFile (Path.join output d.fileName) d.content : StateM Session _) s =
      (.error fault, s) := Session.attempt_of_error h
  rw [writeDocuments, on_bind_error (on_orFail_error hwrite)]

/-- Documents that can be written are written one after another. -/
theorem on_writeDocuments {p : Place} (h : s.tree.Admits output p ds) :
    ∃ printed, (writeDocuments threshold output ds).on s =
      (.ok (), { s with tree := s.tree.putAll p ds, printed }) := by
  induction ds generalizing s with
  | nil => exact ⟨s.printed, rfl⟩
  | cons d ds ih =>
      obtain ⟨printed, hfirst⟩ :=
        @on_writeDocuments_of_ok threshold output d ds s _ (h.writeFile (List.mem_cons_self ..))
      rw [hfirst]
      exact @ih { s with tree := s.tree.putDocument p d, printed } h.putDocument

end

theorem on_verdict (threshold : Level) (success : Event) (failures : List Event) (fault : Fault)
    (b : Bool) (s : Session) : ∃ printed,
      Action.on (if b = true then liftM (log threshold success : StateM Session Unit)
        else do liftM (logAll threshold failures : StateM Session Unit); throw fault) s =
          (if b then .ok () else .error fault, { s with printed }) := by
  cases b with
  | true =>
      obtain ⟨printed, hlog⟩ := log_apply threshold success s
      exact ⟨printed, on_lift hlog⟩
  | false =>
      obtain ⟨printed, hlog⟩ := logAll_apply threshold failures s
      exact ⟨printed, on_bind_ok (on_lift hlog)⟩

/-- A run fails in the end if and only if some declarations were not generated. -/
theorem on_summarize (threshold : Level) (report : Report) (s : Session) :
    ∃ printed, (summarize threshold report).on s =
      (if report.isSuccess then .ok ()
        else .error (.incomplete report.failures.length report.documents.length),
        { s with printed }) := by
  rw [summarize]
  simp only
  split
  · obtain ⟨printed, hlog⟩ := log_apply threshold
      ⟨.info, toString report.caveats.length ++ " caveat(s) reported", []⟩ s
    rw [on_bind_ok (on_lift hlog)]
    exact on_verdict ..
  · exact on_verdict ..

end ProtoSchema.Command
