import ProtoSchema.Proofs.Command.Effects
import ProtoSchema.Proofs.Report.FileNames

/-!
What the command that generates leaves behind. Where the settings or the declarations cannot be had
it fails and changes nothing. Otherwise the documents are all found in the output directory, nothing
else has changed but for the making of that directory, and the exit code says whether every
declaration was generated.
-/

namespace ProtoSchema.Command

open Surroundings
open Session (bind_apply)

/-- Whether a run can generate: there is a manifest without faults, the settings that it and the
command line make up can be used, and the input holds declarations. -/
structure Prepared (t : FileTree) (r : GenerateRequest) (config : Config) (set : DeclarationSet) :
    Prop where
  manifest : ∃ m, HasManifest t r.manifest m ∧ m.fault? = none ∧
    config = r.overrides.apply m.toConfig
  config : config.fault? = none
  declarations : ∃ bytes, t.content r.input = .ok bytes ∧ DeclarationSet.ofJson bytes = .ok set

section

variable {environment : Option Level} {verbose : Bool} {r : GenerateRequest} {s s' : Session}
  {config : Config} {set : DeclarationSet}

/-- A run that is not prepared fails at once. -/
theorem on_runGenerate_of_not_prepared (h : ¬∃ config set, Prepared s.tree r config set) :
    ∃ fault, (runGenerate environment verbose r).on s = (.error fault, s) := by
  obtain ⟨result, hresolve, hconfig⟩ := on_resolveConfig r.manifest r.overrides s
  rw [runGenerate]
  cases result with
  | error fault => exact ⟨fault, Action.on_bind_error hresolve⟩
  | ok config =>
      rw [Action.on_bind_ok hresolve, generateFiles]
      obtain ⟨hmanifest, hfault⟩ := (hconfig config).1 rfl
      obtain ⟨result, hread, hset⟩ := on_readDeclarations r.input s
      cases result with
      | error fault => exact ⟨fault, Action.on_bind_error hread⟩
      | ok set => exact absurd ⟨config, set, hmanifest, hfault, (hset set).1 rfl⟩ h

theorem on_makeDirectories {output : String} {ready : Session}
    (h : (makeDirectories output : StateM Session (Except FileFault Unit)) s = (.ok (), ready)) :
    FileTree.GrowsAlong (Path.lineage output) s.tree ready.tree ∧ ∀ s' : Session,
      s'.tree = s.tree → (makeDirectories output : StateM Session (Except FileFault Unit)) s' =
        (.ok (), { s' with tree := ready.tree }) := by
  obtain ⟨result, t, hgrows, hrun⟩ := Session.makes_makeLineage (Path.lineage output) s.tree
  have hready := (hrun s rfl).symm.trans h
  cases hready
  exact ⟨hgrows, hrun⟩

/-- A run that is prepared makes the output directory and writes every document. -/
theorem on_runGenerate_of_prepared (h : Prepared s.tree r config set) {ready : Session}
    (hready : (makeDirectories r.output : StateM Session (Except FileFault Unit)) s =
      (.ok (), ready)) {p : Place}
    (hadmits : ready.tree.Admits r.output p (generate set config).documents) :
    ∃ printed, (runGenerate environment verbose r).on s =
      (if (generate set config).isSuccess then .ok ()
        else .error (.incomplete (generate set config).failures.length
          (generate set config).documents.length),
        { s with tree := ready.tree.putAll p (generate set config).documents, printed }) := by
  obtain ⟨result, hresolve, hconfig⟩ := on_resolveConfig r.manifest r.overrides s
  obtain ⟨result', hread, hset⟩ := on_readDeclarations r.input s
  have hresult := (hconfig config).2 ⟨h.manifest, h.config⟩
  have hresult' := (hset set).2 h.declarations
  subst hresult hresult'
  obtain ⟨-, hmake⟩ := on_makeDirectories hready
  let threshold := levelInForce environment verbose config
  rw [runGenerate, Action.on_bind_ok hresolve, generateFiles, Action.on_bind_ok hread]
  obtain ⟨printed, hlog⟩ := log_apply threshold ⟨.info, "Generating schemas for " ++
    toString set.units.length ++ " compilation units from " ++ r.input, []⟩ s
  obtain ⟨printed₁, hevents⟩ := logAll_apply threshold (generationEvents set config)
    { s with printed }
  have hmade : (orFail (.outputDirectory r.output)
      (makeDirectories r.output : StateM Session (Except FileFault Unit))).on
        { s with printed := printed₁ } =
      (.ok (), { s with tree := ready.tree, printed := printed₁ }) :=
    on_orFail_ok (hmake _ rfl)
  obtain ⟨printed₂, hwrite⟩ := @on_writeDocuments threshold r.output (generate set config).documents
    { s with tree := ready.tree, printed := printed₁ } p hadmits
  obtain ⟨printed₃, hsummary⟩ := on_summarize threshold (generate set config)
    { s with
      tree := ready.tree.putAll p (generate set config).documents
      printed := printed₂ }
  refine ⟨printed₃, ?_⟩
  rw [Action.on_bind_ok (Action.on_lift hlog), Action.on_bind_ok (Action.on_lift hevents)]
  simp only
  rw [Action.on_bind_ok hmade, Action.on_bind_ok hwrite]
  exact hsummary

/-! ### Exit codes -/

theorem execute_of_ok {args : List String}
    (hargs : Invocation.read args = .ok (.generate verbose r))
    (h : (runGenerate environment verbose r).on s = (.ok (), s')) :
    (execute environment args : StateM Session UInt32) s = (0, s') := by
  have hrun : (ExceptT.run (run environment (.generate verbose r) : Action (StateM Session) Unit) :
      StateM Session (Except Fault Unit)) s = (.ok (), s') := h
  rw [execute, hargs]
  simp only
  rw [bind_apply hrun]
  rfl

theorem execute_of_error {args : List String}
    (hargs : Invocation.read args = .ok (.generate verbose r)) {fault : Fault}
    (h : (runGenerate environment verbose r).on s = (.error fault, s')) :
    ∃ errors, (execute environment args : StateM Session UInt32) s = (1, { s' with errors }) := by
  have hrun : (ExceptT.run (run environment (.generate verbose r) : Action (StateM Session) Unit) :
      StateM Session (Except Fault Unit)) s = (.error fault, s') := h
  rw [execute, hargs]
  simp only
  rw [bind_apply hrun]
  exact ⟨_, rfl⟩

end

/-- A run that is not prepared exits with one and leaves all files and directories as they are. A
run that is prepared, where the output directory can be made and each document can be written into
it, leaves every document in its file; of all else only the output directory and those above it can
have been made; and it exits with zero if and only if no declaration failed. -/
theorem execute_generate {environment : Option Level} {args : List String} {verbose : Bool}
    {r : GenerateRequest} (hargs : Invocation.read args = .ok (.generate verbose r)) (s : Session) :
    let outcome := (execute environment args : StateM Session UInt32) s
    ((¬∃ config set, Prepared s.tree r config set) → outcome.1 = 1 ∧ outcome.2.tree = s.tree) ∧
      ∀ config set, Prepared s.tree r config set →
        (∀ n ∈ declaredNames set.units, '/' ∉ n.toList) →
        ∀ ready, (makeDirectories r.output : StateM Session (Except FileFault Unit)) s =
          (.ok (), ready) →
        let report := generate set config
        (∀ d ∈ report.documents, ∃ t, ready.tree.writeFile (Path.join r.output d.fileName)
          d.content.toByteArray.toList = .ok t) →
        (∀ d ∈ report.documents, outcome.2.tree.content (Path.join r.output d.fileName) =
            .ok d.content.toByteArray.toList) ∧
          (∀ q, outcome.2.tree.get? q ≠ s.tree.get? q →
            (∃ d ∈ report.documents,
              outcome.2.tree.find (Path.join r.output d.fileName) = .ok q) ∨
            (s.tree.get? q = none ∧ outcome.2.tree.get? q = some .directory ∧
              ∃ path ∈ Path.lineage r.output, outcome.2.tree.find path = .ok q)) ∧
          outcome.1 = if report.failures = [] then 0 else 1 := by
  intro outcome
  refine ⟨fun h => ?_, ?_⟩
  · obtain ⟨fault, hrun⟩ := @on_runGenerate_of_not_prepared environment verbose r s h
    obtain ⟨errors, hexecute⟩ := execute_of_error hargs hrun
    simp only [outcome, hexecute, and_self]
  · intro config set hprepared hnames ready hready report hwrite
    have hname : ∀ d ∈ report.documents, d.fileName ≠ "" ∧ '/' ∉ d.fileName.toList :=
      fun d hd => ⟨fileName_ne_empty hd, slash_notMem_fileName hprepared.config hnames hd⟩
    obtain ⟨p, hadmits⟩ := FileTree.exists_admits hname hwrite
    have hnodup := nodup_fileName set config
    obtain ⟨hgrows, -⟩ := on_makeDirectories hready
    obtain ⟨printed, hrun⟩ := @on_runGenerate_of_prepared environment verbose r s config set
      hprepared ready hready p hadmits
    have hend : outcome.1 = (if report.failures = [] then 0 else 1) ∧
        outcome.2.tree = ready.tree.putAll p report.documents := by
      by_cases hfailures : report.failures = []
      · rw [Report.isSuccess, List.isEmpty_iff.2 hfailures, if_pos rfl] at hrun
        simp only [outcome, execute_of_ok hargs hrun, hfailures, if_true, report, and_self]
      · rw [Report.isSuccess, List.isEmpty_eq_false_iff.2 hfailures, if_neg Bool.false_ne_true]
          at hrun
        obtain ⟨errors, hexecute⟩ := execute_of_error hargs hrun
        simp only [outcome, hexecute, hfailures, if_false, report, and_self]
    obtain ⟨hcode, htree⟩ := hend
    rw [htree]
    exact ⟨fun d hd => hadmits.content_putAll hnodup hd,
      fun q hq => hgrows.changed_putAll hadmits hnodup hq, hcode⟩

/-- In a directory without a manifest, of two classes one has a field of a malformed type. Two
directories are made for the document of the other, which is written, and the run fails. Without the
input it fails too, and makes nothing. -/
theorem execute_generate_incomplete :
    let json := "\x7b\"units\":[" ++
      "\x7b\"primary\":\x7b\"declaration\":\"type\",\"name\":\"Order\",\"kind\":\"class\"," ++
      "\"fields\":[\x7b\"name\":\"id\",\"declared_type\":\"long\"\x7d]\x7d\x7d," ++
      "\x7b\"primary\":\x7b\"declaration\":\"type\",\"name\":\"Bag\",\"kind\":\"class\"," ++
      "\"fields\":[\x7b\"name\":\"items\",\"declared_type\":\"List<\"\x7d]\x7d\x7d]\x7d"
    let input := (["in.json", "work"], Entry.file json.toByteArray.toList)
    let s : Session := { tree := ⟨[(["work"], .directory), input], ["work"]⟩ }
    let run := (execute none ["generate", "-i", "in.json", "-o", "out/schemas"] :
      StateM Session UInt32)
    let outcome := run s
    let text := "syntax = \"proto3\";\n\nmessage Order \x7b\n  int64 id = 1;\n\x7d\n\n"
    (run {}).1 = 1 ∧ (run {}).2.tree = {} ∧ outcome.1 = 1 ∧
      outcome.2.tree.content "out/schemas/Order.proto" = .ok text.toByteArray.toList ∧
      ∀ q, outcome.2.tree.get? q ≠ s.tree.get? q →
        ∃ path ∈ ["out", "out/schemas", "out/schemas/Order.proto"],
          outcome.2.tree.find path = .ok q := by
  intro json input s run outcome text
  let r : GenerateRequest := { input := "in.json", output := "out/schemas" }
  let order : TypeDeclaration := ⟨"Order", .classKind, [⟨"id", "long", false⟩], []⟩
  let bag : TypeDeclaration := ⟨"Bag", .classKind, [⟨"items", "List<", false⟩], []⟩
  let set : DeclarationSet := ⟨[⟨none, none, some (.type order)⟩, ⟨none, none, some (.type bag)⟩]⟩
  let ready : Session := { s with
    tree := (s.tree.put ["out", "work"] .directory).put ["schemas", "out", "work"] .directory }
  have hargs : Invocation.read ["generate", "-i", "in.json", "-o", "out/schemas"] =
      .ok (.generate false r) := by decide +kernel
  have hmissing : ¬∃ config set, Prepared ({} : Session).tree r config set := by
    rintro ⟨config, set, -, -, bytes, hbytes, -⟩
    have hnone : ({} : Session).tree.content r.input = .error .notFound := by decide
    rw [hnone] at hbytes
    cases hbytes
  obtain ⟨hfails, hkept⟩ := (execute_generate hargs {}).1 hmissing
  have hread : DeclarationSet.ofJson json.toByteArray.toList = .ok set :=
    eq_ok_of_toOption (by decide +kernel)
  have hnone : s.tree.isPresent defaultManifestName = false := by decide
  have hmanifest : HasManifest s.tree r.manifest {} := by
    simp [HasManifest, r, hnone]
  have hinput : s.tree.find r.input = .ok ["in.json", "work"] := by decide
  have hprepared : Prepared s.tree r {} set :=
    ⟨⟨{}, hmanifest, by decide, rfl⟩, by decide, _, FileTree.content_of_find hinput rfl, hread⟩
  have hready : (makeDirectories r.output : StateM Session (Except FileFault Unit)) s =
      (.ok (), ready) := by
    change (_ : Except FileFault Unit × Session) = _
    decide +kernel
  have hdocuments : (generate set {}).documents = [⟨"Order.proto", text⟩] := by decide +kernel
  have hfailures : (generate set {}).failures ≠ [] := by decide +kernel
  have hwrite : ∀ d ∈ (generate set {}).documents, ∃ t,
      ready.tree.writeFile (Path.join r.output d.fileName) d.content.toByteArray.toList =
        .ok t := by
    rw [hdocuments]
    intro d hd
    cases List.mem_singleton.1 hd
    have hfolder : ready.tree.folder r.output = .ok ["schemas", "out", "work"] := by decide
    exact ⟨_, (FileTree.writeFile_join (by decide) (by decide)).2
      ⟨⟨by decide, by decide, by decide⟩, _, hfolder, by decide, rfl⟩⟩
  have hpath : Path.join r.output "Order.proto" = "out/schemas/Order.proto" := by decide
  have hlineage : Path.lineage r.output = ["out/schemas", "out"] := by decide
  obtain ⟨hcontent, hchanged, hcode⟩ :=
    (execute_generate hargs s).2 {} set hprepared (by decide) ready hready hwrite
  simp only [hdocuments, List.mem_singleton, forall_eq, exists_eq_left, hpath, hlineage]
    at hcontent hchanged
  rw [if_neg hfailures] at hcode
  refine ⟨hfails, hkept, hcode, hcontent, fun q hq => ?_⟩
  rcases hchanged q hq with hfile | ⟨-, -, path, hpath, hfind⟩
  · exact ⟨_, by decide, hfile⟩
  · exact ⟨path, by grind, hfind⟩

end ProtoSchema.Command
