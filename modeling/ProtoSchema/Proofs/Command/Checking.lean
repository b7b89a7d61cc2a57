import ProtoSchema.Proofs.Command.Effects
import ProtoSchema.Proofs.Report.FileNames
import ProtoSchema.Proofs.Text.Encoded

/-!
Checking a manifest, and generating with it. The manifest and the settings that it stands for are
each looked over on their own, and they are not asked the same: a project name with a separator
passes in a manifest, and the settings with that name are refused. Nothing else sets the two apart.
-/

namespace ProtoSchema

structure Manifest.IsValid (m : Manifest) : Prop where
  name : ∀ n ∈ m.project.name, isBlankName n = false
  group : ∀ g ∈ m.project.group, g = "" ∨ isPackageName g = true
  package : ∀ p ∈ m.generator.packageName, p = "" ∨ isPackageName p = true
  excludedFields : ∀ n ∈ m.generator.excludeFields, isBlankName n = false
  logLevel : ∀ l ∈ m.generator.logLevel, (Level.ofName? l).isSome = true

namespace Manifest

variable {m : Manifest}

theorem nameFault?_eq_none_iff :
    m.nameFault? = none ↔ ∀ n ∈ m.project.name, isBlankName n = false := by
  rw [nameFault?]
  cases m.project.name <;> simp

theorem groupFault?_eq_none_iff :
    m.groupFault? = none ↔ ∀ g ∈ m.project.group, g = "" ∨ isPackageName g = true := by
  rw [groupFault?]
  cases m.project.group <;> simp [or_iff_not_imp_left]

theorem packageFault?_eq_none_iff :
    m.packageFault? = none ↔ ∀ p ∈ m.generator.packageName, p = "" ∨ isPackageName p = true := by
  rw [packageFault?]
  cases m.generator.packageName <;> simp [or_iff_not_imp_left]

theorem excludedFieldFault?_eq_none_iff :
    m.excludedFieldFault? = none ↔ ∀ n ∈ m.generator.excludeFields, isBlankName n = false := by
  simp [excludedFieldFault?]

theorem logLevelFault?_eq_none_iff :
    m.logLevelFault? = none ↔ ∀ l ∈ m.generator.logLevel, (Level.ofName? l).isSome = true := by
  rw [logLevelFault?]
  cases m.generator.logLevel <;> simp [Option.isSome_iff_ne_none]

theorem fault?_eq_none_iff : m.fault? = none ↔ m.IsValid := by
  simp only [fault?, Option.or_eq_none_iff, nameFault?_eq_none_iff, groupFault?_eq_none_iff,
    packageFault?_eq_none_iff, excludedFieldFault?_eq_none_iff, logLevelFault?_eq_none_iff]
  exact ⟨fun ⟨hname, hgroup, hpackage, hexcluded, hlevel⟩ =>
      ⟨hname, hgroup, hpackage, hexcluded, hlevel⟩,
    fun h => ⟨h.name, h.group, h.package, h.excludedFields, h.logLevel⟩⟩

/-- The settings of a valid manifest can be used unless the project has a separator in its name. -/
theorem fault?_toConfig_eq_none_iff (hm : m.fault? = none) :
    m.toConfig.fault? = none ↔ ∀ n ∈ m.project.name, IsFlat n := by
  have hvalid := fault?_eq_none_iff.1 hm
  have hdefault : isBlankName "schema" = false ∧ IsFlat "schema" := by decide
  rw [Config.fault?_eq_none_iff]
  constructor
  · rintro ⟨-, hflat, -⟩ n hn
    rwa [toConfig, hn] at hflat
  · intro hflat
    have hname : isBlankName m.toConfig.projectName = false ∧ IsFlat m.toConfig.projectName := by
      rw [toConfig]
      cases hn : m.project.name with
      | none => exact hdefault
      | some n => exact ⟨hvalid.name n hn, hflat n hn⟩
    exact ⟨hname.1, hname.2, hvalid.excludedFields⟩

end Manifest

@[simp] theorem Overrides.apply_empty (c : Config) : ({} : Overrides).apply c = c := by
  simp [apply]

namespace Command

open Surroundings

def Action.Succeeds {α : Type} (a : Action (StateM Session) α) (s : Session) : Prop :=
  ∃ x s', a.on s = (.ok x, s')

theorem holdsManifest_of_text {t : FileTree} {path text : String} {q : Place} {m : Manifest}
    (hfind : t.find path = .ok q) (hfile : t.get? q = some (.file text.toByteArray.toList))
    (hm : Manifest.ofToml? text = some m) : HoldsManifest t path m := by
  refine ⟨_, text, FileTree.content_of_find hfind hfile, ?_, hm⟩
  have hbytes : text.toByteArray.toList.toByteArray = ⟨(Text.encode text.toList).toArray⟩ := by
    ext1
    rw [List.data_toByteArray, Text.toList_toByteArray]
  rw [hbytes]
  exact Text.fromUTF8?_encode text

/-- A file holds one manifest at most. -/
theorem HoldsManifest.unique {t : FileTree} {path : String} {m m' : Manifest}
    (h : HoldsManifest t path m) (h' : HoldsManifest t path m') : m = m' := by
  obtain ⟨bytes, text, hbytes, htext, hm⟩ := h
  obtain ⟨bytes', text', hbytes', htext', hm'⟩ := h'
  rw [hbytes, Except.ok.injEq] at hbytes'
  subst hbytes'
  rw [htext, Option.some.injEq] at htext'
  subst htext'
  rw [hm, Option.some.injEq] at hm'
  exact hm'

theorem printLine_apply (text : String) (s : Session) :
    ∃ printed, (printLine text : StateM Session Unit) s = ((), { s with printed }) := ⟨_, rfl⟩

/-- Checking prints, and succeeds if and only if the file holds a manifest without faults. -/
theorem on_runCheck (manifest : Option String) (s : Session) :
    ∃ result printed, (runCheck manifest).on s = (result, { s with printed }) ∧
      (result = .ok () ↔
        ∃ m, HoldsManifest s.tree (manifest.getD defaultManifestName) m ∧ m.fault? = none) := by
  obtain ⟨printed, hprint⟩ :=
    printLine_apply ("Checking manifest: " ++ manifest.getD defaultManifestName) s
  obtain ⟨result, hread, hresult⟩ :=
    on_readManifest (manifest.getD defaultManifestName) { s with printed }
  simp only [← hresult]
  rw [runCheck, Action.on_bind_ok (Action.on_lift hprint)]
  cases result with
  | error fault =>
      rw [Action.on_bind_error hread]
      exact ⟨_, printed, rfl, by simp⟩
  | ok m =>
      rw [Action.on_bind_ok hread]
      cases hm : m.fault? with
      | some fault =>
          rw [Action.on_bind_error (on_refuse_some ..)]
          exact ⟨_, printed, rfl, by simp [hm]⟩
      | none =>
          obtain ⟨printed', hall⟩ :=
            forM_apply printLine_apply (describe m.toConfig) { s with printed }
          rw [Action.on_bind_ok (on_refuse_none ..)]
          exact ⟨.ok (), printed', Action.on_lift hall, by simp [hm]⟩

theorem succeeds_runCheck_iff {manifest : Option String} {s : Session} :
    (runCheck manifest).Succeeds s ↔
      ∃ m, HoldsManifest s.tree (manifest.getD defaultManifestName) m ∧ m.fault? = none := by
  obtain ⟨result, printed, hrun, hresult⟩ := on_runCheck manifest s
  simp only [Action.Succeeds, hrun, Prod.mk.injEq, exists_and_left, exists_eq', and_true, ← hresult]
  exact ⟨fun ⟨(), h⟩ => h, fun h => ⟨(), h⟩⟩

theorem succeeds_resolveConfig_iff {path : String} {s : Session} :
    (resolveConfig (some path) {}).Succeeds s ↔
      ∃ m, HoldsManifest s.tree path m ∧ m.fault? = none ∧ m.toConfig.fault? = none := by
  obtain ⟨result, hrun, hresult⟩ := on_resolveConfig (some path) {} s
  constructor
  · rintro ⟨config, s', hok⟩
    rw [hrun, Prod.mk.injEq] at hok
    obtain ⟨⟨m, hholds, hm, rfl⟩, hconfig⟩ := (hresult config).1 hok.1
    exact ⟨m, hholds, hm, by rwa [Overrides.apply_empty] at hconfig⟩
  · rintro ⟨m, hholds, hm, hconfig⟩
    have hok := (hresult m.toConfig).2 ⟨⟨m, hholds, hm, (Overrides.apply_empty _).symm⟩, hconfig⟩
    exact ⟨m.toConfig, s, by rw [hrun, hok]⟩

/-- A manifest that can be generated with passes the check. The converse holds, for a file and for
manifests in general, but for project names with separators. -/
theorem check_agrees_iff (manifest : Option String) (s : Session) :
    let path := manifest.getD defaultManifestName
    let passes := (runCheck manifest).Succeeds s
    let resolves := (resolveConfig (some path) {}).Succeeds s
    (resolves → passes) ∧
      ((passes ↔ resolves) ↔
        ∀ m, HoldsManifest s.tree path m → m.fault? = none → ∀ n ∈ m.project.name, IsFlat n) ∧
      ∀ m : Manifest, m.fault? = none →
        (m.toConfig.fault? = none ↔ ∀ n ∈ m.project.name, IsFlat n) := by
  intro path passes resolves
  have hpasses : passes ↔ ∃ m, HoldsManifest s.tree path m ∧ m.fault? = none :=
    succeeds_runCheck_iff
  have hresolves : resolves ↔ ∃ m, HoldsManifest s.tree path m ∧ m.fault? = none ∧
      m.toConfig.fault? = none := succeeds_resolveConfig_iff
  have himp : resolves → passes := by
    rw [hpasses, hresolves]
    rintro ⟨m, hholds, hm, -⟩
    exact ⟨m, hholds, hm⟩
  refine ⟨himp, ?_, fun m hm => Manifest.fault?_toConfig_eq_none_iff hm⟩
  constructor
  · intro hagree m hholds hm
    obtain ⟨m', hholds', -, hconfig⟩ := hresolves.1 (hagree.1 (hpasses.2 ⟨m, hholds, hm⟩))
    cases hholds.unique hholds'
    exact (Manifest.fault?_toConfig_eq_none_iff hm).1 hconfig
  · refine fun hflat => ⟨fun h => ?_, himp⟩
    obtain ⟨m, hholds, hm⟩ := hpasses.1 h
    have hconfig := (Manifest.fault?_toConfig_eq_none_iff hm).2 (hflat m hholds hm)
    exact hresolves.2 ⟨m, hholds, hm, hconfig⟩

/-- A project name with a slash passes the check, and cannot be generated with. -/
theorem check_passes_separator :
    let text := "[project]\nname = \"acme/model\"\n"
    let m : Manifest := { project := { name := some "acme/model" } }
    let file := ([defaultManifestName], Entry.file text.toByteArray.toList)
    let s : Session := { tree := { entries := [file] } }
    HoldsManifest s.tree defaultManifestName m ∧ m.fault? = none ∧
      m.toConfig.fault? = some (.pathInProjectName "acme/model") ∧
      (runCheck none).Succeeds s ∧ ¬(resolveConfig (some defaultManifestName) {}).Succeeds s := by
  intro text m file s
  have hfind : s.tree.find defaultManifestName = .ok [defaultManifestName] := by decide
  have hholds : HoldsManifest s.tree defaultManifestName m :=
    holdsManifest_of_text hfind rfl (by decide +kernel)
  have hm : m.fault? = none := by decide
  have hconfig : m.toConfig.fault? = some (.pathInProjectName "acme/model") := by decide
  refine ⟨hholds, hm, hconfig, succeeds_runCheck_iff.2 ⟨m, hholds, hm⟩, fun hresolves => ?_⟩
  obtain ⟨m', hholds', -, hnone⟩ := succeeds_resolveConfig_iff.1 hresolves
  cases hholds.unique hholds'
  rw [hconfig] at hnone
  cases hnone

end Command

end ProtoSchema
