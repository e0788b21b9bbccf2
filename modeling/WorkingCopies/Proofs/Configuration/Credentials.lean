import WorkingCopies.Proofs.Configuration.Declarations
import WorkingCopies.Proofs.Table

/-!
# Credentials in the manifest and in the settings

A manifest may leave the credentials of a hosted repository to the settings of a user. Moving fields
from the one to the other gives the same source, as long as these fields are texts: the manifest
takes numbers and truth values for texts, and the settings refuse them.
-/

namespace WorkingCopies

open Yaml (Value)

variable {name : String} {fields : List (String × Value)}

/-- The fields of a declaration of scalars are these as texts. -/
theorem Manifest.field_fields (hnames : (fields.map Prod.fst).Nodup)
    (hscalar : ∀ field ∈ fields, field.2.scalarText?.isSome = true) (key : String) :
    (Manifest.fields (fieldEntries fields)).field key =
      ((fields.lookup key).bind Value.scalarText?).getD "" := by
  have htexts : (fieldEntries fields).filterMap field? =
      fields.map fun field => (field.1, field.2.scalarText?.getD "") := by
    rw [fieldEntries, List.filterMap_map, ← List.filterMap_eq_map]
    refine List.filterMap_congr fun field hfield => ?_
    obtain ⟨text, htext⟩ := Option.isSome_iff_exists.mp (hscalar field hfield)
    simp [field?, Value.text?, Value.untagged, htext]
  have hdistinct : ((fields.map fun field =>
      (field.1, field.2.scalarText?.getD "")).map Prod.fst).Nodup := by
    simpa [Function.comp_def] using hnames
  rw [Table.field, Manifest.fields, htexts, Table.ofList, Table.get?_foldl_insert hdistinct,
    lookup_map_snd fun value : Value => value.scalarText?.getD ""]
  cases fields.lookup key <;> rfl

namespace Settings

/-- The name of the field that gives a part of credentials. -/
def Part.key : Part → String
  | login => "login"
  | password => "password"
  | passwordVariable => "password_env"

/-- A part of credentials. -/
def Part.of (credentials : Credentials) : Part → String
  | login => credentials.login
  | password => credentials.password
  | passwordVariable => credentials.passwordVariable

/-- A field gives the part that it is named for. -/
theorem part?_eq_some_iff {part : Part} : part? name = some part ↔ name = part.key := by
  constructor
  · intro h
    unfold part? at h
    split at h <;> cases h <;> rfl
  · rintro rfl
    cases part <;> rfl

/-- Parts have different names. -/
theorem Part.key_inj {part other : Part} : part.key = other.key ↔ part = other := by
  cases part <;> cases other <;> decide

/-- Credentials are empty in every part where none are given. -/
theorem Part.of_empty (part : Part) : part.of {} = "" := by
  cases part <;> rfl

/-- Setting a part sets it and leaves the others. -/
theorem Part.of_setPart {credentials : Credentials} {value : String} {part other : Part} :
    other.of (setPart credentials value part) =
      if other = part then value else other.of credentials := by
  cases part <;> cases other <;> rfl

/-- Credentials with the same parts are the same. -/
theorem ext_of {credentials other : Credentials}
    (h : ∀ part : Part, part.of credentials = part.of other) : credentials = other := by
  obtain ⟨login, password, passwordVariable⟩ := credentials
  obtain rfl : login = _ := h .login
  obtain rfl : password = _ := h .password
  obtain rfl : passwordVariable = _ := h .passwordVariable
  rfl

/-- Filling in goes part by part. -/
theorem Part.of_fillIn {credentials spare : Credentials} (part : Part) :
    part.of (credentials.fillIn spare) =
      if (part.of credentials).isEmpty then part.of spare else part.of credentials := by
  cases part <;> rfl

/-- A value is read as the text that it is. -/
theorem asText_eq (value : Value) (expected : String) :
    value.asText expected = match value.text? with
      | some text => .ok text
      | none => .error (.wrongShape value.untagged.describe expected) := by
  unfold Value.asText Value.text?
  cases value.untagged <;> rfl

/-- A field that gives a part which was not given before is read as a text. -/
theorem readParts_cons {entries : List (Value × Value)} {credentials : Credentials}
    {given : List Part} {part : Part} {value : Value} (hpart : part? name = some part)
    (hgiven : given.contains part = false) :
    readParts credentials given ((.text name, value) :: entries) =
      match value.text? with
      | some text => readParts (setPart credentials text part) (part :: given) entries
      | none => .error (.wrongShape value.untagged.describe "a string") := by
  have hkey : (Value.text name).asText "field identifier" = .ok name := rfl
  rw [readParts, hkey]
  simp only [bind, Except.bind, hpart, hgiven, asText_eq, Bool.false_eq_true, if_false]
  cases value.text? <;> rfl

/-- Fields that give different parts are read as these parts if they are texts, and fail to be read
at one that is none. -/
theorem readParts_fields {credentials : Credentials} {given : List Part}
    (hnames : (fields.map Prod.fst).Nodup)
    (hparts : ∀ field ∈ fields, ∃ part, part ∉ given ∧ field.1 = part.key) :
    (∃ found, readParts credentials given (fieldEntries fields) =
        .ok found ∧ (∀ field ∈ fields, field.2.text?.isSome = true) ∧
        ∀ part : Part, part.of found =
          ((fields.lookup part.key).bind Value.text?).getD (part.of credentials)) ∨
      ∃ field ∈ fields, field.2.text? = none ∧
        readParts credentials given (fieldEntries fields) =
          .error (.wrongShape field.2.untagged.describe "a string") := by
  induction fields generalizing credentials given with
  | nil => exact .inl ⟨credentials, rfl, by simp, by simp⟩
  | cons field fields ih =>
    obtain ⟨hfresh, hrest⟩ := List.nodup_cons.mp hnames
    obtain ⟨⟨part, hgiven, hkey⟩, hothers⟩ := List.forall_mem_cons.mp hparts
    have hread := @readParts_cons field.1 (fieldEntries fields)
      credentials given part field.2 (part?_eq_some_iff.mpr hkey) (by simpa using hgiven)
    cases htext : field.2.text? with
    | none => exact .inr ⟨field, List.mem_cons_self, htext, by rw [fieldEntries_cons, hread, htext]⟩
    | some text =>
      rw [fieldEntries_cons, hread, htext]
      have hleft : ∀ other ∈ fields, ∃ found, found ∉ part :: given ∧ other.1 = found.key := by
        intro other hother
        obtain ⟨found, hfound, hsame⟩ := hothers other hother
        refine ⟨found, ?_, hsame⟩
        rw [List.mem_cons]
        rintro (rfl | hagain)
        · exact hfresh (List.mem_map.mpr ⟨other, hother, hsame.trans hkey.symm⟩)
        · exact hfound hagain
      rcases @ih (setPart credentials text part) (part :: given) hrest hleft with
        ⟨found, hfound, htexts, hof⟩ | ⟨other, hother, hnone, hfailure⟩
      · refine .inl ⟨found, hfound, List.forall_mem_cons.mpr ⟨by simp [htext], htexts⟩, ?_⟩
        intro other
        rw [hof, Part.of_setPart, List.lookup_cons]
        by_cases hother : other = part
        · subst hother
          have habsent := lookup_eq_none_of_not_mem hfresh
          rw [hkey] at habsent
          simp [habsent, hkey, htext]
        · have hne : (other.key == field.1) = false := by
            rw [hkey, beq_eq_false_iff_ne, ne_eq, Part.key_inj]
            exact hother
          simp [hne, hother]
      · exact .inr ⟨other, List.mem_cons_of_mem _ hother, hnone, hfailure⟩

end Settings

/-- A scalar has no tags. -/
theorem untagged_of_scalar {value : Value} (h : value.scalarText?.isSome = true) :
    value.untagged = value := by
  cases value <;> first | rfl | cases h

/-- A scalar that is a text is that text. -/
theorem scalarText?_of_text? {value : Value} {text : String}
    (h : value.scalarText?.isSome = true) (htext : value.text? = some text) :
    value.scalarText? = some text := by
  rw [Value.text?, untagged_of_scalar h] at htext
  cases value <;> first | exact htext | cases htext

/-- A declaration of that type describes a hosted repository. -/
theorem Manifest.source_of_type {manifest : Manifest} {settings : Settings} {fields : Fields}
    (hfields : manifest.repositories.get? name = some fields)
    (htype : fields.field "type" = "github") :
    manifest.source name settings = .ok (.hosted (hosted name fields settings)) := by
  simp only [source, hfields, sourceOf, htype]

/-- The credentials that a declaration gives. -/
def Manifest.given (fields : Fields) : Credentials where
  login := fields.field "login"
  password := fields.field "password"
  passwordVariable := fields.field "password_env"

/-- A part of these is given by its field. -/
theorem Manifest.of_given {fields : Fields} (part : Settings.Part) :
    part.of (given fields) = fields.field part.key := by
  cases part <;> rfl

/-- The fields of a hosted repository in a manifest: scalars, each under a name of its own. -/
structure HostedBlock where
  fields : List (String × Value)
  distinct : (fields.map Prod.fst).Nodup
  scalar : ∀ field ∈ fields, field.2.scalarText?.isSome = true
  hosted : fields.lookup "type" = some (.text "github")

namespace HostedBlock

variable {block : HostedBlock} {moved : Settings.Part → Bool}

/-- Whether a field gives a part of the credentials that is moved. -/
def isMoved (moved : Settings.Part → Bool) (name : String) : Bool :=
  (Settings.part? name).any moved

/-- The fields that stay in the manifest. -/
def kept (block : HostedBlock) (moved : Settings.Part → Bool) : List (String × Value) :=
  block.fields.filter fun field => !isMoved moved field.1

/-- The fields that go to the settings. -/
def taken (block : HostedBlock) (moved : Settings.Part → Bool) : List (String × Value) :=
  block.fields.filter fun field => isMoved moved field.1

/-- A field as a text, which is empty where there is none. -/
def text (block : HostedBlock) (name : String) : String :=
  ((block.fields.lookup name).bind Value.scalarText?).getD ""

/-- A part is moved by its field. -/
theorem isMoved_key (part : Settings.Part) : isMoved moved part.key = moved part := by
  rw [isMoved, Settings.part?_eq_some_iff.mpr rfl, Option.any_some]

/-- The fields of the whole block are all there. -/
theorem field_fields (name : String) :
    (Manifest.fields (fieldEntries block.fields)).field name =
      block.text name :=
  Manifest.field_fields block.distinct block.scalar name

/-- What is moved is missing from what is kept. -/
theorem field_kept (name : String) :
    (Manifest.fields (fieldEntries (block.kept moved))).field name =
      if isMoved moved name then "" else block.text name := by
  rw [Manifest.field_fields]
  · rw [kept, lookup_filter_fst fun name => !isMoved moved name]
    cases isMoved moved name <;> rfl
  · exact block.distinct.sublist (List.filter_sublist.map _)
  · exact fun field hfield => block.scalar field (List.mem_of_mem_filter hfield)

/-- A field that is moved gives a part. -/
theorem exists_part_of_mem_taken {field : String × Value} (h : field ∈ block.taken moved) :
    ∃ part : Settings.Part, field.1 = part.key := by
  have hmoved : isMoved moved field.1 = true := (List.mem_filter.mp h).2
  unfold isMoved at hmoved
  cases hpart : Settings.part? field.1 with
  | none =>
    rw [hpart] at hmoved
    cases hmoved
  | some part => exact ⟨part, Settings.part?_eq_some_iff.mp hpart⟩

/-- The fields that are moved give credentials if they are texts, and none if one is not. -/
theorem declaredCredentials_taken :
    (∃ found, Settings.declaredCredentials (declaring name (block.taken moved)).2 = .ok found ∧
        (∀ field ∈ block.taken moved, field.2.text?.isSome = true) ∧
        ∀ part : Settings.Part, part.of found = if moved part then block.text part.key else "") ∨
      ∃ field ∈ block.taken moved, field.2.text? = none ∧
        Settings.declaredCredentials (declaring name (block.taken moved)).2 =
          .error (.yaml (.wrongShape field.2.describe "a string")) := by
  have hread : Settings.declaredCredentials (declaring name (block.taken moved)).2 =
      (Settings.readParts {} [] (fieldEntries (block.taken moved))).mapError .yaml := rfl
  have hdistinct : ((block.taken moved).map Prod.fst).Nodup :=
    block.distinct.sublist (List.filter_sublist.map _)
  have hscalar (field) (hfield : field ∈ block.taken moved) : field.2.scalarText?.isSome = true :=
    block.scalar field (List.mem_of_mem_filter hfield)
  have hparts : ∀ field ∈ block.taken moved, ∃ part : Settings.Part, part ∉ [] ∧
      field.1 = part.key := by
    simpa using fun name value => @exists_part_of_mem_taken block moved (name, value)
  rw [hread]
  rcases @Settings.readParts_fields _ {} [] hdistinct hparts with
    ⟨found, hfound, htexts, hof⟩ | ⟨field, hfield, hnone, hfailure⟩
  · refine .inl ⟨found, by rw [hfound]; rfl, htexts, fun part => ?_⟩
    rw [hof, Settings.Part.of_empty, taken, lookup_filter_fst, isMoved_key, text]
    cases hmoved : moved part with
    | false => rfl
    | true =>
      cases hlookup : block.fields.lookup part.key with
      | none => rfl
      | some value =>
        have hvalue : (part.key, value) ∈ block.taken moved := by
          refine List.mem_filter.mpr ⟨?_, by rw [isMoved_key, hmoved]⟩
          obtain ⟨front, back, hsplit, -⟩ := List.lookup_eq_some_iff.mp hlookup
          simp [hsplit]
        obtain ⟨text, htext⟩ := Option.isSome_iff_exists.mp (htexts _ hvalue)
        have hsame := scalarText?_of_text? (hscalar _ hvalue) htext
        simp only [if_true, Option.bind_some, htext, hsame]
  · refine .inr ⟨field, hfield, hnone, ?_⟩
    rw [hfailure, untagged_of_scalar (hscalar field hfield)]
    rfl

/-- A hosted repository whose credentials are moved to the settings is the same one. -/
theorem hosted_eq {settings personal : Settings} {found : Credentials}
    (hsettings : settings.get? name = none) (hpersonal : personal.get? name = some found)
    (hfound : ∀ part : Settings.Part,
      part.of found = if moved part then block.text part.key else "") :
    Manifest.hosted name (Manifest.fields (fieldEntries (block.kept moved))) personal =
      Manifest.hosted name (Manifest.fields (fieldEntries block.fields)) settings := by
  have hstays {key : String} (hkey : Settings.part? key = none) :
      (Manifest.fields (fieldEntries (block.kept moved))).field key =
        (Manifest.fields (fieldEntries block.fields)).field key := by
    rw [field_kept, field_fields, isMoved, hkey]
    rfl
  have hcredentials : (Manifest.given (Manifest.fields (fieldEntries (block.kept moved)))).fillIn
      found = (Manifest.given (Manifest.fields (fieldEntries block.fields))).fillIn {} := by
    refine Settings.ext_of fun part => ?_
    rw [Settings.Part.of_fillIn, Settings.Part.of_fillIn, Manifest.of_given, Manifest.of_given,
      field_kept, field_fields, isMoved_key, hfound, Settings.Part.of_empty]
    cases moved part with
    | true =>
      show block.text part.key =
        if (block.text part.key).isEmpty then "" else block.text part.key
      split
      · next hnone => exact String.isEmpty_iff.mp hnone
      · rfl
    | false => rfl
  unfold Manifest.hosted
  rw [hsettings, hpersonal, @hstays "server" rfl, @hstays "user" rfl, @hstays "repo" rfl]
  exact congrArg (Hosted.mk _ _ _) hcredentials

/-- The type of the repository says that it is hosted. -/
theorem text_type : block.text "type" = "github" := by
  rw [text, block.hosted]
  rfl

end HostedBlock

/-- Moving fields with credentials from the declaration of a hosted repository in a manifest to a
declaration in the settings leaves a manifest that can be read. If the fields that are moved are
texts, the settings can be read, too, and the repository is the same one, with the same credentials
and URLs; a number or a truth value among them keeps the settings from being read. -/
theorem source_of_moved_credentials {block : HostedBlock} (moved : Settings.Part → Bool)
    {earlier later others more : List (Value × Value)} {manifest : Manifest} {settings : Settings}
    (hmanifest : Manifest.ofEntries (earlier ++ declaring name block.fields :: later) =
      .ok manifest)
    (hlater : ∀ entry ∈ later, declaredName? entry.1 ≠ some name)
    (hsettings : Settings.ofEntries (others ++ more) = .ok settings)
    (habsent : ∀ entry ∈ others ++ more, declaredName? entry.1 ≠ some name) :
    let filled := Settings.ofEntries (others ++ declaring name (block.taken moved) :: more)
    ∃ hosted shared, manifest.source name settings = .ok (.hosted hosted) ∧
      Manifest.ofEntries (earlier ++ declaring name (block.kept moved) :: later) = .ok shared ∧
      ((∃ personal, filled = .ok personal) ↔
        ∀ field ∈ block.taken moved, field.2.text?.isSome = true) ∧
      (∀ personal, filled = .ok personal → shared.source name personal = .ok (.hosted hosted)) ∧
      ∀ failure, filled = .error failure → ∃ field ∈ block.taken moved,
        field.2.text? = none ∧ failure = .yaml (.wrongShape field.2.describe "a string") := by
  intro filled
  obtain ⟨shared, hshared⟩ := Manifest.ofEntries_declaring_isOk (block.kept moved) hmanifest
  have hwhole : manifest.source name settings = .ok (.hosted _) :=
    Manifest.source_of_type (Manifest.get?_of_declaring hmanifest hlater)
      (by rw [block.field_fields, block.text_type])
  have hkept (personal : Settings) : shared.source name personal = .ok (.hosted _) :=
    Manifest.source_of_type (Manifest.get?_of_declaring hshared hlater)
      (by rw [block.field_kept, block.text_type]; rfl)
  have hnone := Settings.get?_of_absent hsettings habsent
  refine ⟨_, shared, hwhole, hshared, ?_⟩
  rcases @block.declaredCredentials_taken name moved with
    ⟨found, hfound, htexts, hparts⟩ | ⟨field, hfield, hnotext, hfailure⟩
  · have hfilled := Settings.ofEntries_declaring_isOk hsettings hfound
    refine ⟨iff_of_true hfilled htexts, ?_, ?_⟩
    · intro personal hpersonal
      obtain ⟨other, hother, hget⟩ := Settings.get?_of_declaring hpersonal fun entry hentry =>
        habsent entry (List.mem_append_right others hentry)
      obtain rfl : found = other := Except.ok.inj (hfound.symm.trans hother)
      rw [hkept, block.hosted_eq hnone hget hparts]
    · intro failure hfailed
      obtain ⟨personal, hpersonal⟩ := hfilled
      cases hpersonal.symm.trans hfailed
  · have hfilled : filled = .error _ :=
      Settings.ofEntries_declaring_eq_error hsettings hfailure
    refine ⟨iff_of_false ?_ ?_, ?_, ?_⟩
    · rintro ⟨personal, hpersonal⟩
      cases hpersonal.symm.trans hfilled
    · intro htexts
      have htext := htexts field hfield
      rw [hnotext] at htext
      cases htext
    · intro personal hpersonal
      cases hpersonal.symm.trans hfilled
    · intro failure hfailed
      exact ⟨field, hfield, hnotext, Except.error.inj (hfailed.symm.trans hfilled)⟩

/-- A login that stays and a password that is moved. -/
theorem source_of_moved_password :
    let block : HostedBlock := ⟨[("type", .text "github"), ("user", .text "acme"),
      ("repo", .text "widgets"), ("login", .text "ci"), ("password", .text "Qx")],
      by decide, by decide, rfl⟩
    let moved : Settings.Part → Bool := (· == .password)
    ∃ manifest shared personal hosted,
      Manifest.ofEntries [declaring "w" block.fields] = .ok manifest ∧
      Manifest.ofEntries [declaring "w" (block.kept moved)] = .ok shared ∧
      Settings.ofEntries [] = .ok {} ∧
      Settings.ofEntries [declaring "w" (block.taken moved)] = .ok personal ∧
      manifest.source "w" {} = .ok (.hosted hosted) ∧
      shared.source "w" personal = .ok (.hosted hosted) := by
  intro block moved
  obtain ⟨manifest, hmanifest⟩ :
      ∃ manifest, Manifest.ofEntries [declaring "w" block.fields] = .ok manifest := ⟨_, rfl⟩
  obtain ⟨hosted, shared, hwhole, hshared, hread, hsame, -⟩ :=
    @source_of_moved_credentials "w" block moved [] [] [] [] manifest {} hmanifest (by simp) rfl
      (by simp)
  obtain ⟨personal, hpersonal⟩ := hread.mpr (by decide)
  exact ⟨manifest, shared, personal, hosted, hmanifest, hshared, rfl, hpersonal, hwhole,
    hsame personal hpersonal⟩

/-- A password of digits without quotes is one in the manifest, and keeps the settings from being
read. -/
theorem unread_moved_number :
    let block : HostedBlock := ⟨[("type", .text "github"), ("user", .text "acme"),
      ("repo", .text "widgets"), ("login", .text "ci"), ("password", .integer 12345)],
      by decide, by decide, rfl⟩
    let moved : Settings.Part → Bool := (· == .password)
    ((Manifest.ofEntries [declaring "w" block.fields]).bind fun manifest =>
        manifest.source "w" {}) =
      .ok (.hosted ⟨"", "acme", "widgets", ⟨"ci", "12345", ""⟩⟩) ∧
    (∃ shared, Manifest.ofEntries [declaring "w" (block.kept moved)] = .ok shared) ∧
    Settings.ofEntries [declaring "w" (block.taken moved)] =
      .error (.yaml (.wrongShape "integer `12345`" "a string")) := by
  intro block moved
  exact ⟨rfl, ⟨_, rfl⟩, rfl⟩

end WorkingCopies
