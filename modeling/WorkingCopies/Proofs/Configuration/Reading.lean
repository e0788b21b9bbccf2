import WorkingCopies.Configuration
import WorkingCopies.Proofs.Configuration.Declarations
import WorkingCopies.Proofs.Table
import WorkingCopies.Proofs.Text.Order
import WorkingCopies.Proofs.Yaml.Keys
import WorkingCopies.Proofs.Yaml.Untagged

/-!
# What a manifest is read from

A document without tags is read as a manifest exactly if every repository is declared by a mapping
and the repositories in use are listed as texts. The declared repositories are then those of the
document, in the order of their names, each with the fields that its declaration gives, and nothing
else in the document has a part in them.
-/

namespace WorkingCopies

open Yaml (Value)
open Yaml.Value (KeysDiffer ListsTexts)

/-- Something is seen of a result only if there is one. -/
theorem exists_of_map_toOption {ε α β : Type} {result : Except ε α} {view : α → β} {seen : β}
    (h : result.toOption.map view = some seen) :
    ∃ value, result = .ok value ∧ view value = seen := by
  cases result with
  | error error => cases h
  | ok value => exact ⟨value, rfl, Option.some.inj h⟩

/-- A document has entries if it is a mapping or empty. -/
theorem configurationEntries_eq_ok_iff {text : String} {entries : List (Value × Value)} :
    configurationEntries text = .ok entries ↔
      Yaml.parse text = .ok (.mapping entries) ∨ Yaml.parse text = .ok .null ∧ entries = [] := by
  unfold configurationEntries
  cases Yaml.parse text with
  | error error => simp
  | ok value => cases value <;> simp [eq_comm]

/-- A question about the files that has an answer gives it, and changes nothing. -/
theorem Operation.carryOut_askFiles {α : Type} {question : FileSystem → Except FileSystem.Fault α}
    {answer : α} {host : Host} {before : Workspace} (h : question before.files = .ok answer) :
    (askFiles question).carryOut host before = (.ok answer, before) := by
  have hget : (get : Operation Workspace).carryOut host before = (.ok before, before) := rfl
  rw [askFiles, carryOut_bind, hget]
  dsimp only
  rw [h]
  rfl

section Entries

variable {α : Type} {entries : List (Value × Value)} {name : String} {value : Value}

/-- A key without tags declares the repository whose name it has behind its prefix. -/
theorem declaredName?_eq_some_iff {key : Value} (h : key.isUntagged = true) :
    declaredName? key = some name ↔ key = .text ("repository." ++ name) := by
  constructor
  · intro hname
    obtain ⟨text, htext, hname⟩ := Option.bind_eq_some_iff.mp hname
    obtain ⟨rest, hrest, rfl⟩ := Option.map_eq_some_iff.mp hname
    have hsplit := congrArg String.ofList (Text.eq_append_of_stripInitial? hrest)
    rw [String.ofList_append, String.ofList_toList, String.ofList_toList] at hsplit
    rw [(Value.text?_eq_some_iff h).mp htext, hsplit]
  · rintro rfl
    exact @declaredName?_declaring name []

/-- What is declared are the values of such keys. -/
theorem mem_declarations_iff (h : ∀ entry ∈ entries, entry.1.isUntagged = true) :
    (name, value) ∈ declarations entries ↔ (.text ("repository." ++ name), value) ∈ entries := by
  unfold declarations
  rw [List.mem_filterMap]
  constructor
  · rintro ⟨entry, hentry, hdeclared⟩
    obtain ⟨other, hname, heq⟩ := Option.map_eq_some_iff.mp hdeclared
    cases heq
    rwa [← (declaredName?_eq_some_iff (h entry hentry)).mp hname]
  · intro hentry
    refine ⟨_, hentry, ?_⟩
    rw [(declaredName?_eq_some_iff (h _ hentry)).mpr rfl]
    rfl

/-- No repository is declared twice. -/
theorem nodup_declarations (hkeys : KeysDiffer entries)
    (h : ∀ entry ∈ entries, entry.1.isUntagged = true) :
    ((declarations entries).map Prod.fst).Nodup := by
  refine hkeys.nodup_filterMap ("repository." ++ ·) fun entry hentry declared hdeclared => ?_
  obtain ⟨name, hname, rfl⟩ := Option.map_eq_some_iff.mp hdeclared
  exact (declaredName?_eq_some_iff (h entry hentry)).mp hname

/-- What is declared under different names is read under each of them. -/
theorem get?_readDeclared_of_mem {read : String → Value → Except Failure α}
    {declared : List (String × Value)} {last : Table α}
    (h : readDeclared read declared .empty = .ok last) (hnames : (declared.map Prod.fst).Nodup)
    (hvalue : (name, value) ∈ declared) :
    ∃ found, read name value = .ok found ∧ last.get? name = some found := by
  -- nothing behind it takes its place, since the names there are others
  obtain ⟨earlier, later, rfl⟩ := List.append_of_mem hvalue
  refine get?_readDeclared h fun entry hentry hsame => ?_
  rw [List.map_append, List.map_cons] at hnames
  have hlater := (List.nodup_cons.mp hnames.of_append_right).1
  exact hlater (List.mem_map.mpr ⟨entry, hentry, hsame⟩)

/-- What was read into a table is what can be read of what was declared. -/
theorem mem_entries_readDeclared {read : String → Value → Except Failure α}
    {declared : List (String × Value)} {last : Table α} {found : α}
    (h : readDeclared read declared .empty = .ok last) (hnames : (declared.map Prod.fst).Nodup) :
    (name, found) ∈ last.entries ↔
      ∃ value, (name, value) ∈ declared ∧ read name value = .ok found := by
  rw [Table.mem_entries_iff]
  constructor
  · intro hfound
    by_cases hname : name ∈ declared.map Prod.fst
    · obtain ⟨⟨_, value⟩, hvalue, rfl⟩ := List.mem_map.mp hname
      obtain ⟨other, hread, hother⟩ := get?_readDeclared_of_mem h hnames hvalue
      cases hother.symm.trans hfound
      exact ⟨value, hvalue, hread⟩
    · have hnone := get?_readDeclared_of_absent h fun entry hentry hsame =>
        hname (List.mem_map.mpr ⟨entry, hentry, hsame⟩)
      rw [hnone, Table.get?_empty] at hfound
      cases hfound
  · rintro ⟨value, hvalue, hread⟩
    obtain ⟨other, hother, hget⟩ := get?_readDeclared_of_mem h hnames hvalue
    cases hother.symm.trans hread
    exact hget

end Entries

namespace Manifest

variable {entries block : List (Value × Value)} {name : String} {value : Value}

/-- Whether fields are the entries of a declaration with a text for a key and a text, a number or a
truth value behind it, and no others. -/
def Gives (block : List (Value × Value)) (fields : Fields) : Prop :=
  ∀ key text, (key, text) ∈ fields.entries ↔
    ∃ value, (.text key, value) ∈ block ∧ value.scalarText? = some text

/-- A declaration gives the fields that are read from it. -/
theorem gives_fields (hkeys : KeysDiffer block)
    (h : ∀ entry ∈ block, entry.1.isUntagged = true) : Gives block (fields block) := by
  have hfield {entry : Value × Value} (hentry : entry ∈ block) {field : String × String} :
      field? entry = some field ↔
        entry.1 = .text field.1 ∧ entry.2.scalarText? = some field.2 := by
    unfold field?
    rw [← Value.text?_eq_some_iff (h entry hentry)]
    cases entry.1.text? <;> cases entry.2.scalarText? <;> simp [Prod.ext_iff]
  intro key text
  rw [fields, Table.mem_entries_ofList
    (hkeys.nodup_filterMap id fun entry hentry field hsome => ((hfield hentry).mp hsome).1),
    List.mem_filterMap]
  constructor
  · rintro ⟨⟨_, value⟩, hentry, hsome⟩
    obtain ⟨rfl, htext⟩ := (hfield hentry).mp hsome
    exact ⟨value, hentry, htext⟩
  · rintro ⟨value, hentry, htext⟩
    exact ⟨_, hentry, (hfield hentry).mpr ⟨rfl, htext⟩⟩

/-- Whether a document declares every repository by a mapping, and lists those in use as texts. -/
structure IsReadable (entries : List (Value × Value)) : Prop where
  declared : ∀ name value, (.text ("repository." ++ name), value) ∈ entries →
    ∃ block, value = .mapping block
  used : ∀ value, (.text "project.repositories", value) ∈ entries → value.ListsTexts

/-- The declared repositories are read if each is declared by a mapping. -/
theorem exists_declaredRepositories_iff (h : ∀ entry ∈ entries, entry.1.isUntagged = true) :
    (∃ repositories, declaredRepositories entries = .ok repositories) ↔
      ∀ name value, (.text ("repository." ++ name), value) ∈ entries →
        ∃ block, value = .mapping block := by
  rw [declaredRepositories_eq, readDeclared_isOk_iff, Prod.forall]
  have hfields (name : String) (value : Value) :
      (∃ fields, declaredFields name value = .ok fields) ↔ ∃ block, value = .mapping block := by
    cases value <;> simp [declaredFields]
  simp only [mem_declarations_iff h, hfields]

section OfEntries

variable (hapart : (Value.mapping entries).HasKeysApart)
  (huntagged : (Value.mapping entries).isUntagged = true)

include hapart huntagged

/-- The repositories in use are read if they are listed as texts. -/
theorem exists_usedNames_iff :
    (∃ used, usedNames entries = .ok used) ↔
      ∀ value, (.text "project.repositories", value) ∈ entries → value.ListsTexts := by
  simp only [← hapart.keysDiffer.lookup?_eq_some_iff]
  unfold usedNames
  cases hvalue : Value.lookup? entries "project.repositories" with
  | none => simp
  | some value =>
    have hentry := hapart.keysDiffer.lookup?_eq_some_iff.mp hvalue
    simp only [Option.some.injEq, forall_eq',
      ← Value.exists_asTexts_iff (Value.values_untagged huntagged _ hentry)]
    cases value.asTexts <;> simp

/-- A document is read as a manifest if it is readable. -/
theorem exists_ofEntries_iff :
    (∃ manifest, ofEntries entries = .ok manifest) ↔ IsReadable entries := by
  simp only [ofEntries_eq_ok_iff]
  constructor
  · rintro ⟨_, used, repositories, hused, hrepositories, -⟩
    exact ⟨(exists_declaredRepositories_iff (Value.keys_untagged huntagged)).mp ⟨_, hrepositories⟩,
      (exists_usedNames_iff hapart huntagged).mp ⟨_, hused⟩⟩
  · rintro ⟨hdeclared, hlisted⟩
    obtain ⟨repositories, hrepositories⟩ :=
      (exists_declaredRepositories_iff (Value.keys_untagged huntagged)).mpr hdeclared
    obtain ⟨used, hused⟩ := (exists_usedNames_iff hapart huntagged).mpr hlisted
    exact ⟨_, used, repositories, hused, hrepositories, rfl⟩

/-- The repositories of a manifest are those that the document declares. -/
theorem mem_repositories_iff {manifest : Manifest} {found : Fields}
    (h : ofEntries entries = .ok manifest) :
    (name, found) ∈ manifest.repositories.entries ↔
      ∃ block, (.text ("repository." ++ name), .mapping block) ∈ entries ∧
        fields block = found := by
  obtain ⟨used, repositories, -, hrepositories, rfl⟩ := ofEntries_eq_ok_iff.mp h
  rw [mem_entries_readDeclared hrepositories
    (nodup_declarations hapart.keysDiffer (Value.keys_untagged huntagged))]
  simp only [mem_declarations_iff (Value.keys_untagged huntagged)]
  constructor
  · rintro ⟨value, hentry, hfields⟩
    cases value with
    | mapping block => exact ⟨block, hentry, Except.ok.inj hfields⟩
    | _ => cases hfields
  · rintro ⟨block, hentry, rfl⟩
    exact ⟨.mapping block, hentry, rfl⟩

/-- Each declaration inside of a document gives its fields. -/
theorem gives_fields_of_declared {block : List (Value × Value)}
    (hentry : (.text ("repository." ++ name), .mapping block) ∈ entries) :
    Gives block (fields block) :=
  gives_fields (hapart.second _ hentry).keysDiffer
    (Value.keys_untagged (Value.values_untagged huntagged _ hentry))

end OfEntries

/-- Reading a manifest from a text gives what the text says. -/
theorem result_parse (text : String) (host : Host) (before : Workspace) :
    ((parse text).carryOut host before).1 = (read text).1 := by
  have hparse : parse text = Operation.reportAll (read text).2 >>= fun _ =>
      Operation.ofExcept (read text).1 := rfl
  rw [hparse, Operation.carryOut_bind]
  exact congrArg Prod.fst (Operation.carryOut_ofExcept host _ _)

/-- Loading a manifest gives what the text in its file says. -/
theorem result_load {path : Path} {text : String} {before : Workspace}
    (h : before.files.textAt path = .ok text) (host : Host) :
    ((load path).carryOut host before).1 = ((parse text).carryOut host before).1 := by
  rw [load, Operation.carryOut_bind, Operation.carryOut_askFiles h]

/-- Reading a document without tags as a manifest. If it is a mapping or empty, this succeeds
exactly if each repository is declared by a mapping and those in use are listed as texts. The
manifest then has the declared repositories in the order of their names, each with the fields that
its declaration gives, and no others. Any other document gives the failure of a configuration. -/
theorem parse_reads {text : String} {value : Value} (hvalue : Yaml.parse text = .ok value)
    (huntagged : value.isUntagged = true) (host : Host) (before : Workspace) :
    let result := ((parse text).carryOut host before).1
    (∀ entries, value = .mapping entries ∨ value = .null ∧ entries = [] →
      ((∃ manifest, result = .ok manifest) ↔ IsReadable entries) ∧
      ∀ manifest, result = .ok manifest →
        manifest.repositories.entries.Pairwise
          (fun earlier later => Text.encode earlier.1 < Text.encode later.1) ∧
        (∀ name block, (.text ("repository." ++ name), .mapping block) ∈ entries →
          ∃ fields, (name, fields) ∈ manifest.repositories.entries ∧ Gives block fields) ∧
        ∀ name fields, (name, fields) ∈ manifest.repositories.entries →
          ∃ block, (.text ("repository." ++ name), .mapping block) ∈ entries ∧
            Gives block fields) ∧
    ((∀ entries, value ≠ .mapping entries) → value ≠ .null →
      ∃ problem hint, result = .error (.configuration problem hint)) := by
  intro result
  have hresult : result = (read text).1 := result_parse text host before
  refine ⟨fun entries hentries => ?_, fun hmapping hnull => ?_⟩
  -- that keys differ is not assumed: no other document can be read
  · obtain ⟨hapart, huntagged⟩ :
        (Value.mapping entries).HasKeysApart ∧ (Value.mapping entries).isUntagged = true := by
      rcases hentries with rfl | ⟨-, rfl⟩
      · exact ⟨Yaml.hasKeysApart_of_parse hvalue, huntagged⟩
      · exact ⟨.mapping .nil nofun nofun, rfl⟩
    have hfound : configurationEntries text = .ok entries := by
      rw [configurationEntries_eq_ok_iff, hvalue]
      simpa using hentries
    have hread : result = ofEntries entries := by rw [hresult, read, hfound]
    rw [hread]
    refine ⟨exists_ofEntries_iff hapart huntagged, fun manifest hmanifest => ⟨?_, ?_, ?_⟩⟩
    · exact manifest.repositories.sorted.imp Text.encode_lt_encode_of_lt
    · intro name block hentry
      exact ⟨fields block, (mem_repositories_iff hapart huntagged hmanifest).mpr ⟨_, hentry, rfl⟩,
        gives_fields_of_declared hapart huntagged hentry⟩
    · intro name found hfound
      obtain ⟨block, hentry, rfl⟩ := (mem_repositories_iff hapart huntagged hmanifest).mp hfound
      exact ⟨block, hentry, gives_fields_of_declared hapart huntagged hentry⟩
  · rw [hresult, read, configurationEntries, hvalue]
    cases value with
    | null => exact absurd rfl hnull
    | mapping entries => exact absurd rfl (hmapping entries)
    | _ => exact ⟨_, _, rfl⟩

/-- A document that declares two repositories, with entries among them that count for nothing. -/
theorem parse_reads_of_two_repositories :
    let text := "repository.b:\n  type: git\n  7: y\n  depth: 3\nrepository.a:\n  tags: [x]\nb: c\n"
    ∃ entries manifest first second, Yaml.parse text = .ok (.mapping entries) ∧
      (Value.mapping entries).isUntagged = true ∧
      ((parse text).carryOut ⟨none, ⟨[]⟩⟩ { files := {} }).1 = .ok manifest ∧
      IsReadable entries ∧ manifest.repositories.entries = [("a", first), ("b", second)] ∧
      first.entries = [] ∧ second.entries = [("depth", "3"), ("type", "git")] ∧
      ∃ block, (.text ("repository." ++ "b"), .mapping block) ∈ entries ∧ Gives block second := by
  intro text
  have hseen : (configurationEntries text).toOption.map
      (fun entries => (entries.isEmpty, (Value.mapping entries).isUntagged)) =
        some (false, true) := by decide +kernel
  obtain ⟨entries, hfound, hboth⟩ := exists_of_map_toOption hseen
  obtain ⟨hfilled, huntagged⟩ := Prod.mk.inj hboth
  have hvalue : Yaml.parse text = .ok (.mapping entries) := by
    rcases configurationEntries_eq_ok_iff.mp hfound with hvalue | ⟨-, rfl⟩
    · exact hvalue
    · cases hfilled
  have hlisted : (read text).1.toOption.map (fun manifest =>
      manifest.repositories.entries.map fun entry => (entry.1, entry.2.entries)) =
        some [("a", []), ("b", [("depth", "3"), ("type", "git")])] := by decide +kernel
  obtain ⟨manifest, hmanifest, hread⟩ := exists_of_map_toOption hlisted
  obtain ⟨⟨_, first⟩, _, hentries, hfirst, hrest⟩ := List.map_eq_cons_iff.mp hread
  obtain ⟨⟨_, second⟩, rfl, hsecond⟩ := List.map_eq_singleton_iff.mp hrest
  obtain ⟨rfl, hfirst⟩ := Prod.mk.inj hfirst
  obtain ⟨rfl, hsecond⟩ := Prod.mk.inj hsecond
  have hresult := (result_parse text ⟨none, ⟨[]⟩⟩ { files := {} }).trans hmanifest
  obtain ⟨hreadable, hreads⟩ :=
    (parse_reads hvalue huntagged ⟨none, ⟨[]⟩⟩ { files := {} }).1 entries (.inl rfl)
  refine ⟨entries, manifest, first, second, hvalue, huntagged, hresult, hreadable.mp ⟨_, hresult⟩,
    hentries, hfirst, hsecond, (hreads manifest hresult).2.2 _ _ ?_⟩
  rw [hentries]
  exact .tail _ (.head _)

end Manifest

end WorkingCopies
