import WorkingCopies.Proofs.CommandLine.ExitStatus
import WorkingCopies.Proofs.Configuration.Reading
import WorkingCopies.Proofs.RemoteUrls.Access

/-!
# What a list says

A list has one row for each declared repository, or only for those that the project uses, in the
order of the names. The last column of a row is read from the declaration alone, without the
settings, and still says where the source lies that the repository is gotten from.
-/

namespace WorkingCopies

open CommandLine (Command Options Request Work run unlines)
open CommandLine.Command (padRight row rows sourceColumn)

/-- Whether a text says where a source lies: by the URL that may be shown, without the parts that
all such URLs have, by the URL, or by the path. -/
def Source.LiesAt (source : Source) (text : String) : Prop :=
  match source with
  | .hosted repository =>
    ∀ environment, (repository.urls environment).visible = "https://" ++ text ++ ".git"
  | .remote url => url = text
  | .folder path => path.text = text

/-- The column of a declaration says where the source lies that the declaration describes. -/
theorem Manifest.liesAt_sourceColumn {name : String} {fields : Fields} {settings : Settings}
    {source : Source} (h : sourceOf name fields settings = .ok source) :
    source.LiesAt (sourceColumn fields) := by
  unfold sourceOf at h
  split at h
  · next htype =>
    cases h
    intro environment
    rw [Hosted.urls, RemoteUrls.visible_eq]
    simp [sourceColumn, htype, hosted, Hosted.actualServer, String.append_assoc]
  · next htype =>
    split at h
    · cases h
    · cases h
      simp [Source.LiesAt, sourceColumn, htype]
  · next htype =>
    cases h
    simp [Source.LiesAt, sourceColumn, htype]
  · cases h

section Declared

variable {manifest : Manifest} {name : String} {fields : Fields} {settings : Settings} {host : Host}
  {before : Workspace}

/-- A declared repository is gotten ready with its source. -/
theorem Manifest.result_repository :
    ((manifest.repository name settings).carryOut host before).1 =
      (manifest.source name settings).map fun source => { source } := by
  rw [Manifest.repository, Operation.carryOut_bind, Operation.carryOut_ofExcept]
  cases manifest.source name settings <;> rfl

/-- A declared repository that is ready lies where the column of its declaration says. -/
theorem Manifest.liesAt_of_repository {repository : Repository}
    (hfields : manifest.repositories.get? name = some fields)
    (h : ((manifest.repository name settings).carryOut host before).1 = .ok repository) :
    repository.source.LiesAt (sourceColumn fields) := by
  rw [Manifest.result_repository, Manifest.source, hfields] at h
  cases hsource : Manifest.sourceOf name fields settings with
  | error failure => simp [hsource, Except.map] at h
  | ok source =>
    obtain rfl : { source } = repository := by simpa [hsource, Except.map] using h
    exact liesAt_sourceColumn hsource

end Declared

namespace CommandLine

section Rows

variable {manifest : Manifest} {usedOnly : Bool}

/-- The repositories that a list shows. -/
def listed (usedOnly : Bool) (manifest : Manifest) : List (String × Fields) :=
  manifest.repositories.entries.filter fun entry => !usedOnly || manifest.used.contains entry.1

/-- The row of a repository that a manifest declares. -/
def rowOf (manifest : Manifest) (entry : String × Fields) : String :=
  (if entry.1 ∈ manifest.used then "*" else " ") ++ " " ++ padRight 20 entry.1 ++ " " ++
    padRight 8 ((entry.2.get? "type").getD "?") ++ " " ++ sourceColumn entry.2

/-- There is one row for each repository that is shown. -/
theorem rows_eq : rows usedOnly manifest = (listed usedOnly manifest).map (rowOf manifest) := by
  unfold rows listed
  rw [← List.filterMap_eq_map, List.filterMap_filter]
  -- a row is left out for the same entries, and has its star for the same names
  refine List.filterMap_congr fun entry _ => ?_
  cases usedOnly <;> by_cases hused : entry.1 ∈ manifest.used <;> simp [row, rowOf, hused]

/-- A list shows the declared repositories, or those of them that the project uses. -/
theorem mem_listed_iff {name : String} {fields : Fields} :
    (name, fields) ∈ listed usedOnly manifest ↔
      (name, fields) ∈ manifest.repositories.entries ∧
        (usedOnly = true → name ∈ manifest.used) := by
  rw [listed, List.mem_filter]
  cases usedOnly <;> simp

end Rows

variable {arguments : List String} {host : Host} {workspace : Workspace} {options : Options}
  {usedOnly : Bool} {text : String} {manifest : Manifest}

/-- A list whose manifest can be loaded succeeds and prints its lines. -/
theorem run_list_eq
    (hread : Request.read arguments host.environment = .ok ⟨options, .list usedOnly⟩)
    (hload : ((Manifest.load options.manifest).carryOut host workspace).1 = .ok manifest) :
    let colour := Colour.ofSetting options.colour host.environment
    ((run arguments host workspace).status, (run arguments host workspace).output) =
      (0, unlines (Command.listLines colour options usedOnly manifest)) := by
  intro colour
  have hmanifest : ((Work.loadManifest options).outcome host workspace).1 = .ok manifest :=
    congrArg (Except.mapError _) hload
  have hlines : (Work.outcome (Command.run options colour (.list usedOnly)) host workspace).1 =
      .ok (Command.listLines colour options usedOnly manifest) := by
    rw [Command.run, Work.outcome_bind]
    cases hloaded : (Work.loadManifest options).outcome host workspace with
    | mk result after =>
      rw [hloaded] at hmanifest
      cases hmanifest
      rfl
  rw [run, hread]
  dsimp only
  rw [(run_eq _ host workspace).2, hlines]

/-- How the repositories of a manifest are listed. There is one row for each of those that are
declared, or of those that the project uses, in the order of the names, with a star if the project
uses it; a line says so if there are none. The last column of a row says where the source lies that
the declaration describes, whatever the settings and the environment are. -/
theorem run_lists
    (hread : Request.read arguments host.environment = .ok ⟨options, .list usedOnly⟩)
    (htext : workspace.files.textAt options.manifest = .ok text)
    (hmanifest : ((Manifest.parse text).carryOut host workspace).1 = .ok manifest) :
    let ended := run arguments host workspace
    let colour := Colour.ofSetting options.colour host.environment
    (∃ listed : List (String × Fields),
      ended.status = 0 ∧
      ended.output = unlines
        ((manifest.projectName.toList.map fun name =>
          colour.choose "📦" "[PROJECT]" ++ " " ++ name) ++
        if listed.isEmpty then ["No repositories declared in " ++ options.manifest.text]
        else listed.map (rowOf manifest)) ∧
      listed.Pairwise (fun earlier later => Text.encode earlier.1 < Text.encode later.1) ∧
      ∀ name fields, (name, fields) ∈ listed ↔
        manifest.repositories.get? name = some fields ∧
          (usedOnly = true → name ∈ manifest.used)) ∧
    ∀ name fields settings repository, manifest.repositories.get? name = some fields →
      ((manifest.repository name settings).carryOut host workspace).1 = .ok repository →
        repository.source.LiesAt (sourceColumn fields) := by
  intro ended colour
  have hload := (Manifest.result_load htext host).trans hmanifest
  obtain ⟨hstatus, houtput⟩ := Prod.mk.inj (run_list_eq hread hload)
  refine ⟨⟨listed usedOnly manifest, hstatus, ?_, ?_, ?_⟩, ?_⟩
  · refine houtput.trans ?_
    rw [Command.listLines, rows_eq]
    simp only [List.isEmpty_map]
    rfl
  · exact (manifest.repositories.sorted.imp Text.encode_lt_encode_of_lt).filter _
  · intro name fields
    rw [mem_listed_iff, Table.mem_entries_iff]
  · intro name fields settings repository hfields hrepository
    exact Manifest.liesAt_of_repository hfields hrepository

/-- A list of two repositories, one of which the project uses. -/
theorem run_lists_of_two_repositories :
    let text :=
      "project.repositories: [b]\nrepository.b:\n type: git\n url: x\nrepository.a:\n type: github"
    let host : Host := ⟨none, ⟨[]⟩⟩
    let workspace : Workspace := { files := { entries := [(["m.yml"], .file (Text.encode text))] } }
    let options : Options := ⟨⟨"m.yml"⟩, none, "auto", some .info, false, false⟩
    let ended := run ["--manifest", "m.yml", "list"] host workspace
    ∃ manifest fields repository,
      Request.read ["--manifest", "m.yml", "list"] host.environment = .ok ⟨options, .list false⟩ ∧
      ((Manifest.parse text).carryOut host workspace).1 = .ok manifest ∧
      manifest.repositories.get? "a" = some fields ∧
      ((manifest.repository "a" {}).carryOut host workspace).1 = .ok repository ∧
      ended.status = 0 ∧
      ended.output =
        "  a                    github   github.com//\n* b                    git      x\n" ∧
      repository.source.LiesAt (sourceColumn fields) := by
  intro text host workspace options ended
  have hread : Request.read ["--manifest", "m.yml", "list"] host.environment =
      .ok ⟨options, .list false⟩ := rfl
  have htext : workspace.files.textAt ⟨"m.yml"⟩ = .ok text := by decide +kernel
  have hseen : (Manifest.read text).1.toOption.map (fun manifest =>
      ((manifest.repositories.get? "a").map fun fields => fields.field "type",
        unlines (Command.listLines (.ofSetting options.colour host.environment) options false
          manifest))) = some (some "github",
            "  a                    github   github.com//\n* b                    git      x\n") := by
    decide +kernel
  obtain ⟨manifest, hmanifest, hboth⟩ := exists_of_map_toOption hseen
  obtain ⟨hdeclared, hlines⟩ := Prod.mk.inj hboth
  obtain ⟨fields, hfields, htype⟩ := Option.map_eq_some_iff.mp hdeclared
  have hresult := (Manifest.result_parse text host workspace).trans hmanifest
  have hrepository : ((manifest.repository "a" {}).carryOut host workspace).1 =
      .ok { source := .hosted (Manifest.hosted "a" fields {}) } := by
    rw [Manifest.result_repository, Manifest.source, hfields]
    simp [Manifest.sourceOf, htype, Except.map]
  have hended := run_list_eq hread ((Manifest.result_load htext host).trans hresult)
  obtain ⟨⟨listed, hstatus, -⟩, hlies⟩ := run_lists hread htext hresult
  exact ⟨manifest, fields, _, hread, hresult, hfields, hrepository, hstatus,
    (congrArg Prod.snd hended).trans hlines, hlies "a" fields {} _ hfields hrepository⟩

end CommandLine

end WorkingCopies
