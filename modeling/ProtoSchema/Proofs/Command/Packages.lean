import ProtoSchema.Proofs.Command.Checking
import ProtoSchema.Proofs.Document.Identifiers

/-!
The package that the documents of a run carry. It comes from the command line or from one of two
sections of the manifest. Those are looked over with the manifest, and package names have no white
space to trim; the package of the command line is taken as it is.
-/

namespace ProtoSchema

def IsWellFormedPackage (package : Option String) : Prop := ∀ p ∈ package, isPackageName p = true

def Document.IsHeadedBy (package : Option String) (d : Document) : Prop :=
  ∃ imports body, d.content = header package imports ++ body

/-! ### Package names -/

theorem isWordChar_of_isPackageSegment {s : List Char} (hs : isPackageSegment s = true) {c : Char}
    (hc : c ∈ s) : isWordChar c = true := by
  cases s with
  | nil => cases hc
  | cons first rest =>
      simp only [isPackageSegment, Bool.and_eq_true, List.all_eq_true] at hs
      obtain rfl | hc := List.mem_cons.1 hc
      · have hfirst := hs.1
        rw [isWordChar, Char.isAlphanum]
        grind
      · exact hs.2 c hc

theorem isDottedWord_of_isPackageName {s : String} (hs : isPackageName s = true) :
    IsDottedWord s := by
  intro c hc
  by_cases hdot : c = '.'
  · exact .inr hdot
  · obtain ⟨segment, hsegment, hc⟩ := Text.exists_mem_parts hc hdot
    exact .inl (isWordChar_of_isPackageSegment (List.all_eq_true.1 hs segment hsegment) hc)

theorem isBlank_of_isWordChar {c : Char} (hc : isWordChar c = true) : Text.isBlank c = false := by
  have hrange := toNat_of_isWordChar hc
  rw [Bool.eq_false_iff]
  intro hblank
  simp only [Text.isBlank, Text.blankRanges, List.any_cons, List.any_nil, Bool.or_false,
    Bool.or_eq_true, Bool.and_eq_true, decide_eq_true_eq] at hblank
  omega

/-- Nothing is trimmed off a package name. -/
theorem trimmed_of_isPackageName {s : String} (hs : isPackageName s = true) :
    Text.trimmed s = s := by
  have hink : ∀ c ∈ s.toList, Text.isBlank c = false := by
    intro c hc
    obtain hword | rfl := isDottedWord_of_isPackageName hs c hc
    · exact isBlank_of_isWordChar hword
    · decide
  have htrim := Text.trim_eq_self (s := s.toList) (fun c hc => hink c (List.mem_of_mem_head? hc))
    fun c hc => hink c (List.mem_of_getLast? hc)
  rw [Text.trimmed, htrim, String.ofList_toList]

/-! ### The package of settings -/

/-- The package that an entry names, unless it is blank. -/
def namedPackage? (entry : Option String) : Option String :=
  (entry.map Text.trimmed).filter (!·.isEmpty)

theorem Config.effectivePackage_eq (c : Config) :
    c.effectivePackage = (namedPackage? c.packageName).or (namedPackage? c.projectGroup) := by
  have hentry : ∀ entry : Option String,
      (entry.toList.map Text.trimmed).find? (!·.isEmpty) = namedPackage? entry := by
    intro entry
    cases entry with
    | none => rfl
    | some p => exact List.find?_singleton
  rw [effectivePackage, List.map_append, List.find?_append, hentry, hentry]

theorem isWellFormed_or_iff {p q : Option String} (hq : IsWellFormedPackage q) :
    IsWellFormedPackage (p.or q) ↔ IsWellFormedPackage p := by
  cases p with
  | none => simpa [IsWellFormedPackage] using hq
  | some _ => rfl

/-- An entry that is empty or a package name names a well-formed package. -/
theorem isWellFormed_namedPackage? {entry : Option String}
    (h : ∀ p ∈ entry, p = "" ∨ isPackageName p = true) :
    IsWellFormedPackage (namedPackage? entry) := by
  intro p hp
  obtain ⟨hp, hne⟩ := Option.filter_eq_some_iff.1 hp
  obtain ⟨q, hq, rfl⟩ := Option.map_eq_some_iff.1 hp
  obtain rfl | hname := h q hq
  · exact absurd hne (by decide)
  · rwa [trimmed_of_isPackageName hname]

theorem isWellFormed_namedPackage?_iff {entry : Option String} :
    IsWellFormedPackage (namedPackage? entry) ↔
      ∀ p ∈ entry, isBlankName p = true ∨ isPackageName (Text.trimmed p) = true := by
  cases entry with
  | none => simp [IsWellFormedPackage, namedPackage?]
  | some p =>
      simp [IsWellFormedPackage, namedPackage?, isBlankName, Option.filter_eq_some_iff,
        or_iff_not_imp_left]

/-- On top of a valid manifest, only the package of the command line can be ill-formed. -/
theorem isWellFormed_effectivePackage_apply_iff {m : Manifest} (hm : m.fault? = none)
    (o : Overrides) :
    IsWellFormedPackage (o.apply m.toConfig).effectivePackage ↔
      ∀ p ∈ o.package, isBlankName p = true ∨ isPackageName (Text.trimmed p) = true := by
  have hvalid := Manifest.fault?_eq_none_iff.1 hm
  have hgroup : IsWellFormedPackage (namedPackage? m.project.group) :=
    isWellFormed_namedPackage? hvalid.group
  have hpackage : IsWellFormedPackage (namedPackage? m.generator.packageName) :=
    isWellFormed_namedPackage? hvalid.package
  have heffective : (o.apply m.toConfig).effectivePackage =
      (namedPackage? (o.package.or m.generator.packageName)).or
        (namedPackage? m.project.group) := Config.effectivePackage_eq _
  rw [heffective, isWellFormed_or_iff hgroup]
  cases ho : o.package with
  | none => simpa using hpackage
  | some p => exact isWellFormed_namedPackage?_iff

theorem isHeadedBy_of_mem_generate {set : DeclarationSet} {config : Config} {d : Document}
    (hd : d ∈ (generate set config).documents) : d.IsHeadedBy config.effectivePackage := by
  rw [generate, documents_assemble] at hd
  obtain ⟨plan, -, rfl⟩ := List.mem_map.1 hd
  exact ⟨plan.imports, plan.body, rfl⟩

namespace Command

open Surroundings

/-- The package of the settings that are found for a run is well-formed but for what the command
line asks for, and it heads all documents. -/
theorem package_wellFormed_iff {path : Option String} {overrides : Overrides} {s s' : Session}
    {config : Config} (hrun : (resolveConfig path overrides).on s = (.ok config, s')) :
    (IsWellFormedPackage config.effectivePackage ↔
        ∀ p ∈ overrides.package, isBlankName p = true ∨ isPackageName (Text.trimmed p) = true) ∧
      ∀ set, ∀ d ∈ (generate set config).documents, d.IsHeadedBy config.effectivePackage := by
  obtain ⟨result, hon, hresult⟩ := on_resolveConfig path overrides s
  rw [hrun, Prod.mk.injEq] at hon
  obtain ⟨⟨m, -, hm, rfl⟩, -⟩ := (hresult config).1 hon.1.symm
  exact ⟨isWellFormed_effectivePackage_apply_iff hm overrides,
    fun _ _ hd => isHeadedBy_of_mem_generate hd⟩

/-- A blank package on the command line leaves the run with the group of its manifest. -/
theorem package_wellFormed_iff_group :
    let text := "[project]\ngroup = \"com.acme\"\n"
    let file := ([defaultManifestName], Entry.file text.toByteArray.toList)
    let s : Session := { tree := { entries := [file] } }
    let config : Config := { packageName := some " ", projectGroup := some "com.acme" }
    (resolveConfig none { package := some " " }).on s = (.ok config, s) ∧
      config.effectivePackage = some "com.acme" ∧ IsWellFormedPackage config.effectivePackage := by
  intro text file s config
  have hfind : s.tree.find defaultManifestName = .ok [defaultManifestName] := by decide
  have hholds : HoldsManifest s.tree defaultManifestName
      { project := { group := some "com.acme" } } :=
    holdsManifest_of_text hfind rfl (by decide +kernel)
  have hmanifest : HasManifest s.tree none { project := { group := some "com.acme" } } := by
    rwa [HasManifest, if_pos (by decide)]
  obtain ⟨result, hon, hresult⟩ := on_resolveConfig none { package := some " " } s
  have hok := (hresult config).2 ⟨⟨_, hmanifest, by decide, rfl⟩, by decide⟩
  have hrun : (resolveConfig none { package := some " " }).on s = (.ok config, s) := by
    rw [hon, hok]
  exact ⟨hrun, by decide, (package_wellFormed_iff hrun).1.2 (by decide)⟩

/-- A package that is refused in a manifest is taken from the command line, and heads a document. -/
theorem package_of_option_unchecked :
    let overrides : Overrides := { package := some "1st package" }
    let config : Config := { packageName := some "1st package" }
    let order : TypeDeclaration := { name := "Order", kind := .classKind }
    let text := "syntax = \"proto3\";\n\npackage 1st package;\n\n" ++
      "option java_package = \"1st package\";\noption java_multiple_files = true;\n\n" ++
      "message Order \x7b\n\x7d\n\n"
    ({ generator := { packageName := some "1st package" } } : Manifest).fault? =
        some (.invalidPackage "1st package") ∧
      (resolveConfig none overrides).on ({} : Session) = (.ok config, {}) ∧
      config.effectivePackage = some "1st package" ∧
      ¬IsWellFormedPackage config.effectivePackage ∧
      (generate ⟨[⟨none, none, some (.type order)⟩]⟩ config).documents =
        [⟨"Order.proto", text⟩] := by
  intro overrides config order text
  have heffective : config.effectivePackage = some "1st package" := by decide
  obtain ⟨result, hon, hresult⟩ := on_resolveConfig none overrides {}
  have hok := (hresult config).2 ⟨⟨{}, rfl, by decide, rfl⟩, by decide⟩
  refine ⟨by decide, by rw [hon, hok], heffective, fun hwell => ?_, by decide +kernel⟩
  have hname := hwell _ heffective
  revert hname
  decide

end Command

end ProtoSchema
