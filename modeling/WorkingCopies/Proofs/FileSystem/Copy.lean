import WorkingCopies.Proofs.FileSystem.Grow

/-!
# What copying changes

Copying a folder makes folders where nothing was, and writes files at the target and below it. As
long as there are no links at the target nothing else is written, wherever the source lies.
-/

namespace WorkingCopies.FileSystem

variable {files : FileSystem} {written : Location → Prop} {source target : Path}

/-- A file is copied after the folder that it goes into has been made. -/
theorem copyFile_eq : copyFile source target =
    createParent target >>= fun _ => copyBytes source target := by
  unfold copyFile createParent
  cases target.parent? with
  | none => rfl
  | some folder => rfl

/-- What lies right in a folder is listed by names, and listing changes nothing. -/
theorem ensures_listing (path : Path) :
    (listing path).Ensures files fun result after => after = files ∧
      ∀ entries, result = .ok entries → ∃ location, files.folderAt path = .ok location ∧
        entries = files.contents location := by
  refine Edit.Ensures.bind_get ?_
  cases hfolder : files.folderAt path with
  | ok location =>
    refine ⟨rfl, ?_⟩
    rintro _ ⟨⟩
    exact ⟨location, rfl, rfl⟩
  | error fault => exact ⟨rfl, nofun⟩

/-- A place lies right in a folder under its last name. -/
theorem nameIn?_eq_some_iff {folder location : Location} {name : String} :
    nameIn? folder location = some name ↔ location = folder ++ [name] := by
  unfold nameIn?
  cases hlast : location.getLast? with
  | none =>
    obtain rfl := List.getLast?_eq_none_iff.mp hlast
    simp
  | some last =>
    obtain ⟨start, rfl⟩ := List.getLast?_eq_some_iff.mp hlast
    dsimp only
    constructor
    · intro h
      split at h
      · next hlocation =>
        cases h
        exact hlocation
      · cases h
    · intro h
      obtain ⟨rfl, hsame⟩ := List.append_inj' h rfl
      obtain rfl : last = name := by simpa using hsame
      exact if_pos rfl

/-- What lies right in a folder is an entry of the files whose place goes on by one name. -/
theorem mem_contents_iff {location : Location} {name : String} {node : Node} :
    (name, node) ∈ files.contents location ↔ (location ++ [name], node) ∈ files.entries := by
  unfold contents
  rw [List.mem_mergeSort, List.mem_filterMap]
  constructor
  · rintro ⟨entry, hentry, hname⟩
    obtain ⟨last, hlast, ⟨⟩⟩ := Option.map_eq_some_iff.mp hname
    rw [← nameIn?_eq_some_iff.mp hlast]
    exact hentry
  · intro hentry
    refine ⟨_, hentry, ?_⟩
    rw [nameIn?_eq_some_iff.mpr rfl]
    rfl

section Target

variable {made : FileSystem} {folder : Location} {below : List String}

/-- What is written to a path below the target lies below the folder that the target leads to. -/
theorem prefix_of_resolve_below {purpose : Purpose} {place : Place}
    (hleads : files.LeadsTo target folder) (hlinks : files.HasNoLinks folder) (hbelow : below ≠ [])
    (hnames : ∀ name ∈ below, IsName name)
    (h : files.resolve purpose (target.join (relativePath below)) = .ok place) :
    folder <+: place.location := by
  obtain ⟨hjoin, habsolute⟩ := names_join_relativePath hnames target
  exact hleads.prefix_of_resolve hlinks hjoin habsolute hbelow hnames h

/-- Copying bytes writes at most where the target leads. -/
theorem CopiesBytes.grows {result : Except Fault Unit} {after : FileSystem}
    (h : CopiesBytes files source target result after)
    (hwritten : ∀ place, files.resolve .write target = .ok place → written place.location) :
    Grows written files after := by
  cases h with
  | refused fault => exact .refl files
  | copied hsource htarget hwritable =>
    exact .put_file (·.isPlace_resolve htarget) (hwritten _ htarget) (hwritable.only_file htarget)

/-- A file is copied to a path below the target. -/
theorem ensures_copyFile_below {found : Path} (hleads : made.LeadsTo target folder)
    (hlinks : made.HasNoLinks folder) (hbelow : below ≠ []) (hnames : ∀ name ∈ below, IsName name)
    (hgrows : Grows (folder <+: ·) made files) :
    (copyFile found (target.join (relativePath below))).Ensures files fun _ after =>
      Grows (folder <+: ·) made after := by
  rw [copyFile_eq]
  refine Edit.Ensures.bind (ensures_createParent _) ?_ fun _ _ hmore => hgrows.trans hmore
  intro _ between hmore
  have hbetween := hgrows.trans hmore
  refine (ensures_copyBytes _ _).mono fun _ _ hcopies => hbetween.trans (hcopies.grows ?_)
  intro place hplace
  exact prefix_of_resolve_below (hbetween.leadsTo hleads) (hbetween.hasNoLinks hlinks) hbelow hnames
    hplace

/-- The part of copying a folder behind making it: what lies in it is copied. -/
def copyListed (source target : Path) (fuel : Nat) (below : List String) : Edit Unit := do
  for (name, node) in ← listing (pathBelow source below) do
    copyBelow source target fuel (below ++ [name]) node

/-- Copying a folder makes it and copies what lies in it. -/
theorem copyBelow_folder (fuel : Nat) : copyBelow source target (fuel + 1) below .folder =
    createFolders (target.join (relativePath below)) >>= fun _ =>
      copyListed source target fuel below := rfl

/-- What lies in a folder that is found is copied one by one. -/
theorem outcome_copyListed {fuel : Nat} {location : Location} {entries : List (String × Node)}
    (hfolder : files.folderAt (pathBelow source below) = .ok location)
    (hentries : files.contents location = entries) :
    (copyListed source target fuel below).outcome files =
      Edit.outcome (do
        for (name, node) in entries do
          copyBelow source target fuel (below ++ [name]) node) files := by
  have hlisting : (listing (pathBelow source below)).Ensures files fun result after =>
      result = .ok entries ∧ after = files := by
    refine Edit.Ensures.bind_get ?_
    rw [hfolder]
    exact ⟨congrArg Except.ok hentries, rfl⟩
  have houtcome : (listing (pathBelow source below)).outcome files = (.ok entries, files) :=
    Prod.ext hlisting.1 hlisting.2
  unfold copyListed
  rw [Edit.outcome_bind, houtcome]

/-- What lies in a folder is copied part by part. If all of it is, what each part comes to is there,
as long as the others leave it. -/
theorem ensures_copyListed_each {kept : FileSystem → Prop} {done : String → FileSystem → Prop}
    {fuel : Nat} (hfiles : kept files)
    (hentry : ∀ location, files.folderAt (pathBelow source below) = .ok location →
      ∀ name node, (location ++ [name], node) ∈ files.entries → ∀ between, kept between →
        (copyBelow source target fuel (below ++ [name]) node).Ensures between fun result after =>
          kept after ∧ (∀ other, done other between → done other after) ∧
            (result = .ok () → done name after)) :
    (copyListed source target fuel below).Ensures files fun result after =>
      kept after ∧
        (result = .ok () → ∃ location, files.folderAt (pathBelow source below) = .ok location ∧
          ∀ name node, (location ++ [name], node) ∈ files.entries → done name after) := by
  apply Edit.Ensures.bind (ensures_listing _)
  · rintro entries files ⟨rfl, hentries⟩
    obtain ⟨location, hlocation, rfl⟩ := hentries entries rfl
    have hcopies : ∀ entry ∈ files.contents location, ∀ between, kept between →
        (do copyBelow source target fuel (below ++ [entry.1]) entry.2
            pure (ForInStep.yield PUnit.unit) : Edit _).Ensures between fun result after =>
          kept after ∧ (∀ other : String × Node, done other.1 between → done other.1 after) ∧
            ∀ step, result = .ok step → step = .yield ⟨⟩ ∧ done entry.1 after := by
      rintro ⟨name, node⟩ hmem between hbetween
      apply Edit.Ensures.bind
        (hentry location hlocation name node (mem_contents_iff.mp hmem) between hbetween)
      · rintro _ after ⟨hkept, hleaves, hdone⟩
        exact ⟨hkept, fun other => hleaves other.1,
          fun step hstep => ⟨(Except.ok.inj hstep).symm, hdone rfl⟩⟩
      · rintro fault after ⟨hkept, hleaves, -⟩
        exact ⟨hkept, fun other => hleaves other.1, nofun⟩
    apply Edit.Ensures.bind (Edit.Ensures.forIn_each hfiles hcopies)
    · rintro _ after ⟨hkept, -, hall⟩
      refine ⟨hkept, fun _ => ⟨location, hlocation, fun name node hmem => ?_⟩⟩
      exact hall rfl (name, node) (mem_contents_iff.mpr hmem)
    · rintro fault after ⟨hkept, -, -⟩
      exact ⟨hkept, nofun⟩
  · rintro fault _ ⟨rfl, -⟩
    exact ⟨hfiles, nofun⟩

/-- What lies in a folder that is found is copied if each part of it is. -/
theorem ensures_copyListed_of_ok {kept : FileSystem → Prop} {fuel : Nat} {location : Location}
    (hfiles : kept files) (hfolder : files.folderAt (pathBelow source below) = .ok location)
    (hentry : ∀ name node, (location ++ [name], node) ∈ files.entries → ∀ between, kept between →
      (copyBelow source target fuel (below ++ [name]) node).Ensures between fun result after =>
        result = .ok () ∧ kept after) :
    (copyListed source target fuel below).Ensures files fun result _ => result = .ok () := by
  have hcopies : ∀ entry ∈ files.contents location, ∀ between, kept between →
      (do copyBelow source target fuel (below ++ [entry.1]) entry.2
          pure (ForInStep.yield PUnit.unit) : Edit _).Ensures between fun result after =>
        result = .ok (.yield ⟨⟩) ∧ kept after := by
    rintro ⟨name, node⟩ hmem between hbetween
    apply Edit.Ensures.bind (hentry name node (mem_contents_iff.mp hmem) between hbetween)
    · rintro _ after ⟨-, hkept⟩
      exact ⟨rfl, hkept⟩
    · rintro fault after ⟨⟨⟩, -⟩
  have hall : Edit.Ensures (do
      for (name, node) in files.contents location do
        copyBelow source target fuel (below ++ [name]) node) files fun result _ => result = .ok () := by
    apply Edit.Ensures.bind (Edit.Ensures.forIn_ok hfiles hcopies)
    · exact fun _ _ _ => rfl
    · exact fun _ _ => nofun
  unfold Edit.Ensures at hall ⊢
  rwa [outcome_copyListed hfolder rfl]

/-- What lies in a folder is copied as each part of it is. -/
theorem ensures_copyListed {kept : FileSystem → Prop} {fuel : Nat} (hfiles : kept files)
    (hentry : ∀ location, files.folderAt (pathBelow source below) = .ok location →
      ∀ name node, (location ++ [name], node) ∈ files.entries → ∀ between, kept between →
        (copyBelow source target fuel (below ++ [name]) node).Ensures between fun _ after =>
          kept after) :
    (copyListed source target fuel below).Ensures files fun _ after => kept after := by
  have heach := @ensures_copyListed_each files source target below kept (fun _ _ => True) fuel hfiles
    fun location hlocation name node hmem between hbetween =>
      (hentry location hlocation name node hmem between hbetween).mono
        fun _ _ hkept => ⟨hkept, fun _ _ => trivial, fun _ => trivial⟩
  exact heach.1

/-- What lies in a folder is copied below the target, however deep it is. -/
theorem ensures_copyBelow (hformed : made.WellFormed) (hleads : made.LeadsTo target folder)
    (hlinks : made.HasNoLinks folder) (fuel : Nat) {node : Node} (hbelow : below = [] → node = .folder)
    (hnames : ∀ name ∈ below, IsName name) (hgrows : Grows (folder <+: ·) made files) :
    (copyBelow source target fuel below node).Ensures files fun _ after =>
      Grows (folder <+: ·) made after := by
  -- growth is counted from the files with the target made, in which the target leads to its folder
  induction fuel generalizing below node files with
  | zero => exact hgrows
  | succ fuel ih =>
    cases node with
    | file contents =>
      have hne : below ≠ [] := fun hnil => nomatch hbelow hnil
      exact ensures_copyFile_below hleads hlinks hne hnames hgrows
    | link text =>
      have hne : below ≠ [] := fun hnil => nomatch hbelow hnil
      exact ensures_copyFile_below hleads hlinks hne hnames hgrows
    | folder =>
      rw [copyBelow_folder]
      refine Edit.Ensures.bind (ensures_createFolders _) ?_ fun _ _ hmore => hgrows.trans hmore
      intro _ between hmore
      have hbetween := hgrows.trans hmore
      refine ensures_copyListed hbetween fun location _ name node hentry current hcurrent => ?_
      have hname : IsName name := (hbetween.formed hformed).isPlace _ hentry name (by simp)
      have hproper : ∀ other ∈ below ++ [name], IsName other := by
        simpa [or_imp, forall_and, hname] using hnames
      exact ih (by simp) hproper hcurrent

/-- The folders of a way to a folder are still there, so it is found where it was. -/
theorem Grows.folderAt_eq {after : FileSystem} {path : Path} {location : Location}
    (h : Grows written files after) (hfolder : files.folderAt path = .ok location) :
    after.folderAt path = .ok location := by
  obtain ⟨hcheck, start, hstart, hwalk⟩ := resolve_eq_ok_iff.mp (folderAt_eq_ok_iff.mp hfolder)
  exact folderAt_eq_ok_iff.mpr (resolve_eq_ok_iff.mpr
    ⟨hcheck, start, h.origin_eq hstart, walk_of_keepsWays h.keepsWays hwalk⟩)

/-- A folder is copied as what lies in it is. If there is none, or if the path is that of a link to
one, nothing but the folder that the target lies in is made. -/
theorem ensures_copyFolder_of {post : FileSystem → Prop}
    (hrefused : ∀ after, Grows (fun _ => False) files after → post after)
    (hcopy : ∀ location, files.folderAt source = .ok location →
      (copyBelow source target (pathLimit + 1) [] .folder).Ensures files fun _ => post) :
    (copyFolder source target).Ensures files fun _ => post := by
  have hsame : post files := hrefused files (.refl files)
  refine Edit.Ensures.bind_get ?_
  split
  · next hisFolder =>
    obtain ⟨location, hlocation⟩ := isFolder_iff.mp hisFolder
    refine Edit.Ensures.bind_ask (fun place hplace => ?_) fun _ _ => hsame
    have hnotFile : ∀ node, node ≠ .folder →
        (copyBelow source target (pathLimit + 1) [] node).Ensures files fun _ => post := by
      intro node hnode
      have hcopyFile : copyBelow source target (pathLimit + 1) [] node =
          copyFile source (target.join (relativePath [])) := by
        cases node with
        | folder => exact absurd rfl hnode
        | file contents => rfl
        | link text => rfl
      rw [hcopyFile, copyFile_eq]
      refine Edit.Ensures.bind (ensures_createParent _) ?_ fun _ _ hgrows => hrefused _ hgrows
      intro _ between hgrows
      refine (ensures_copyBytes _ _).mono fun _ after hcopies => hrefused _ ?_
      -- the bytes of a folder are not copied
      cases hcopies with
      | refused fault => exact hgrows
      | copied hsource =>
        rw [folderAt_eq_ok_iff.mp (hgrows.folderAt_eq hlocation)] at hsource
        cases hsource
    cases place with
    | absent above name => exact hsame
    | present found node =>
      by_cases hnode : node = .folder
      · subst hnode
        exact hcopy location hlocation
      · exact hnotFile node hnode
  · exact hsame

/-- Whether a target leads to a folder without links once it has been made. -/
def CopiesInto (files : FileSystem) (target : Path) (folder : Location) : Prop :=
  ∀ made, (createFolders (target.join (relativePath []))).outcome files = (.ok (), made) →
    made.LeadsTo target folder ∧ made.HasNoLinks folder

/-- Copying a folder writes files below the target alone, wherever the source lies. -/
theorem ensures_copyFolder (hformed : files.WellFormed) (hinto : files.CopiesInto target folder) :
    (copyFolder source target).Ensures files fun _ after => Grows (folder <+: ·) files after := by
  refine ensures_copyFolder_of (fun after hgrows => hgrows.mono nofun) fun location _ => ?_
  rw [copyBelow_folder]
  unfold Edit.Ensures
  rw [Edit.outcome_bind]
  have hgrows : Grows (folder <+: ·) files
      ((createFolders (target.join (relativePath []))).outcome files).2 := ensures_createFolders _
  cases hmade : (createFolders (target.join (relativePath []))).outcome files with
  | mk result made =>
    rw [hmade] at hgrows
    cases result with
    | error fault => exact hgrows
    | ok _ =>
      obtain ⟨hleads, hlinks⟩ := hinto made hmade
      have hcopied : (copyListed source target pathLimit []).Ensures made fun _ after =>
          Grows (folder <+: ·) made after := by
        refine ensures_copyListed (.refl made) fun _ _ name node hentry between hbetween => ?_
        have hname : ∀ other ∈ [] ++ [name], IsName other := by
          simpa using (hgrows.formed hformed).isPlace _ hentry name (by simp)
        exact ensures_copyBelow (hgrows.formed hformed) hleads hlinks _ (by simp) hname hbetween
      exact hgrows.trans hcopied

end Target

/-- Whether a place is out of reach of what is copied to a target: once the target has been made, it
leads to a folder which the place does not lie in, and in which there are no links. -/
def OutOfReach (files : FileSystem) (target : Path) (location : Location) : Prop :=
  ∀ made, (createFolders (target.join (relativePath []))).outcome files = (.ok (), made) →
    ∃ folder, made.LeadsTo target folder ∧ made.HasNoLinks folder ∧ ¬ folder <+: location

/-- What is out of reach of a copy stays. -/
theorem OutOfReach.find?_copyFolder {location : Location} {node : Node} (hformed : files.WellFormed)
    (h : files.OutOfReach target location) (hnode : files.find? location = some node) :
    ((copyFolder source target).outcome files).2.find? location = some node := by
  have hfolder : ∃ folder, files.CopiesInto target folder ∧ ¬ folder <+: location := by
    cases hmade : (createFolders (target.join (relativePath []))).outcome files with
    | mk result made =>
      cases result with
      | error fault =>
        -- nothing is copied, so any folder that the place does not lie in will do
        refine ⟨location ++ [""], fun other hother => ?_, fun hinitial => ?_⟩
        · rw [hmade] at hother
          cases hother
        · have hlength := hinitial.length_le
          simp only [List.length_append, List.length_singleton] at hlength
          omega
      | ok _ =>
        obtain ⟨folder, hleads, hlinks, hnot⟩ := h made hmade
        refine ⟨folder, fun other hother => ?_, hnot⟩
        rw [hmade] at hother
        cases hother
        exact ⟨hleads, hlinks⟩
  obtain ⟨folder, hinto, hnot⟩ := hfolder
  have hgrows : Grows (folder <+: ·) files ((copyFolder source target).outcome files).2 :=
    ensures_copyFolder hformed hinto
  exact hgrows.find?_of_not hnot hnode

/-- Whether copying bytes changes those of a file at some place: the target leads there, and the
source either has other bytes or is that file itself, which is empty when it is read. -/
def WritesOver (files : FileSystem) (source target : Path) (location : Location) (bytes : Bytes) :
    Prop :=
  ∃ found contents, files.resolve .look source = .ok (.present found (.file contents)) ∧
    files.resolve .write target = .ok (.present location (.file bytes)) ∧
    (if found = location then [] else contents) ≠ bytes

/-- A file stays as it is exactly if no other bytes are written over it. -/
theorem CopiesBytes.find?_iff {result : Except Fault Unit} {after : FileSystem}
    {location : Location} {bytes : Bytes} (h : CopiesBytes files source target result after)
    (hfile : files.find? location = some (.file bytes)) :
    after.find? location = some (.file bytes) ↔ ¬ files.WritesOver source target location bytes := by
  cases h with
  | refused fault hrefused =>
    refine iff_of_true hfile ?_
    rintro ⟨found, contents, hsource, htarget, -⟩
    refine hrefused _ _ _ hsource htarget ?_
    rintro _ ⟨⟩
    exact ⟨bytes, rfl⟩
  | @copied found contents place hsource htarget hwritable =>
    have hplace := find?_of_resolve htarget hwritable.node?_ne
    rw [find?_put _ _ _ _ (ne_root_of_only_file (hwritable.only_file htarget))]
    by_cases hsame : location = place.location
    · have hpresent : place = .present location (.file bytes) := by
        rw [← hsame, hfile] at hplace
        cases place with
        | absent folder name => cases hplace
        | present other node =>
          obtain rfl : Node.file bytes = node := Option.some.inj hplace
          rw [hsame]
          rfl
      subst hpresent
      show (if location = location then _ else _) = _ ↔ _
      rw [if_pos rfl]
      constructor
      · rintro hbytes ⟨other, others, hfound, -, hdiffer⟩
        rw [hsource] at hfound
        cases hfound
        exact hdiffer (Node.file.inj (Option.some.inj hbytes))
      · intro hnot
        refine Classical.byContradiction fun hdiffer => hnot ⟨found, contents, hsource, htarget, ?_⟩
        exact fun hbytes => hdiffer (congrArg (some ∘ Node.file) hbytes)
    · rw [if_neg hsame]
      refine iff_of_true hfile ?_
      rintro ⟨other, others, -, hother, -⟩
      rw [htarget] at hother
      cases hother
      exact hsame rfl

/-- Whether copying a file changes the bytes of a file at some place, once the folder that the target
lies in has been made. -/
def CopiesOver (files : FileSystem) (source target : Path) (location : Location) (bytes : Bytes) :
    Prop :=
  ∃ made, (createParent target).outcome files = (.ok (), made) ∧
    made.WritesOver source target location bytes

/-- A file stays as it is exactly if no other bytes are copied over it. -/
theorem find?_copyFile_iff {location : Location} {bytes : Bytes}
    (hfile : files.find? location = some (.file bytes)) :
    ((copyFile source target).outcome files).2.find? location = some (.file bytes) ↔
      ¬ files.CopiesOver source target location bytes := by
  have hgrows : Grows (fun _ => False) files ((createParent target).outcome files).2 :=
    ensures_createParent target
  have hkept := hgrows.find?_of_not id hfile
  rw [copyFile_eq, Edit.outcome_bind]
  unfold CopiesOver
  cases hmade : (createParent target).outcome files with
  | mk result made =>
    rw [hmade] at hkept
    cases result with
    | error fault => simpa using hkept
    | ok _ =>
      have hcopies : CopiesBytes made source target ((copyBytes source target).outcome made).1
          ((copyBytes source target).outcome made).2 := ensures_copyBytes source target
      simpa using hcopies.find?_iff hkept

end WorkingCopies.FileSystem
