import WorkingCopies.Proofs.FileSystem.Overlay

/-!
# Copying a folder without links

Where there are no links at all, the text of the target says where a folder is copied to. If copying
succeeds, all that lies in the folder lies there too, and nothing else is changed but for folders that
are made on the way. This needs no folder to start relative paths from: where that is gone, only the
copy of an empty folder succeeds.
-/

namespace WorkingCopies.FileSystem

variable {files after made : FileSystem} {source target path : Path} {original copy : Location}
  {below : List String}

/-- Whether files come of others by copying what lies in a folder to where the text of a target leads:
all that lies in it lies there with the same bytes, what else was there is as it was, and so is all
that lies elsewhere. Folders may have been made on the way to the target. Only a way with dots that
lead up can come through the target itself, or through the folder that is copied. -/
structure LaidOver (files : FileSystem) (original : Location) (target : Path) (after : FileSystem) :
    Prop where
  copied : ∀ below node, below ≠ [] → files.find? (original ++ below) = some node →
    after.find? (lexicalPlace files.start target ++ below) = some node
  kept : ∀ below node, files.find? (original ++ below) = none →
    files.find? (lexicalPlace files.start target ++ below) = some node →
    after.find? (lexicalPlace files.start target ++ below) = some node
  empty : ∀ below, files.find? (original ++ below) = none →
    files.find? (lexicalPlace files.start target ++ below) = none →
    after.find? (lexicalPlace files.start target ++ below) = none ∨
      ".." ∈ target.names ∧
        after.find? (lexicalPlace files.start target ++ below) = some .folder ∧
        (OnWay files.start target (lexicalPlace files.start target ++ below) ∨
          OnWay files.start target (original ++ below))
  outside : ∀ location, ¬ lexicalPlace files.start target <+: location →
    after.find? location = files.find? location ∨
      files.find? location = none ∧ after.find? location = some .folder ∧
        OnWay files.start target location

/-- A folder that is not found, or is none, is not copied, and nothing is changed. -/
theorem copyFolder_refused {fault : Fault} (h : files.folderAt source = .error fault) :
    (copyFolder source target).outcome files =
      (.error (.sourceNotAFolder source.text), files) := by
  have hnot : files.isFolder source = false := by
    rw [isFolder, h]
    rfl
  unfold copyFolder
  rw [Edit.outcome_bind]
  show Edit.outcome (if files.isFolder source = true then _ else _) files = _
  rw [hnot]
  rfl

section Gone

variable (hgone : files.find? files.start ≠ some .folder)
include hgone

/-- Without a working folder a relative path starts nowhere. -/
theorem origin_ne_of_gone (hrelative : path.isAbsolute = false) (start : Location) :
    files.origin path ≠ .ok start := by
  rw [origin, hrelative, if_neg (by decide), if_neg hgone]
  rintro ⟨⟩

/-- Without a working folder a folder on a relative path is not made, unless the path is empty. -/
theorem ensures_createFolders_of_gone (hrelative : path.isAbsolute = false) :
    (createFolders path).Ensures files fun result after =>
      after = files ∧ (result = .ok () → path.text = "") := by
  have hsame : (createFolders path).Ensures files fun _ after => after = files := by
    apply @ensures_createFoldersOn_of files (· = files) path _ rfl
    rintro above habove between rfl
    apply (ensures_makeFolder_put above).mono
    rintro _ after (hsame | ⟨parent, name, hparent, -⟩)
    · exact hsame
    · obtain ⟨-, ⟨start, hstart, -⟩, -⟩ := resolveParent_eq_ok_iff.mp hparent
      obtain ⟨-, hsame⟩ := habove.names_prefix
      exact absurd hstart (origin_ne_of_gone hgone (hsame.trans hrelative) start)
  have hthere : (createFolders path).Ensures files _ := ensures_createFolders_leadsTo path
  refine ⟨hsame, fun hok => ?_⟩
  rcases hthere hok with hempty | ⟨folder, start, hstart, -⟩
  · exact hempty
  · rw [hsame] at hstart
    exact absurd hstart (origin_ne_of_gone hgone hrelative start)

/-- Without a working folder nothing is copied to a relative path. -/
theorem ensures_copyBelow_of_gone (hrelative : target.isAbsolute = false) (hbelow : below ≠ [])
    (hproper : ∀ name ∈ below, IsName name) (fuel : Nat) (node : Node) :
    (copyBelow source target fuel below node).Ensures files fun result after =>
      after = files ∧ result ≠ .ok () := by
  have hsame := (names_join_relativePath hproper target).2
  rw [hrelative] at hsame
  have hfile : (copyFile (pathBelow source below) (target.join (relativePath below))).Ensures files
      fun result after => after = files ∧ result ≠ .ok () := by
    have hparent : (createParent (target.join (relativePath below))).Ensures files fun _ after =>
        after = files := by
      unfold createParent
      split
      · next parent hparent =>
        have habsolute := (Path.of_parent? hparent).2
        exact (ensures_createFolders_of_gone hgone (habsolute.trans hsame)).1
      · rfl
    rw [copyFile_eq]
    apply Edit.Ensures.bind hparent
    · rintro _ between rfl
      apply (ensures_copyBytes _ _).mono
      intro result after hcopies
      cases hcopies with
      | refused fault => exact ⟨rfl, nofun⟩
      | copied hsource htarget =>
        obtain ⟨-, start, hstart, -⟩ := resolve_eq_ok_iff.mp htarget
        exact absurd hstart (origin_ne_of_gone hgone hsame start)
    · exact fun _ _ hsame => ⟨hsame, nofun⟩
  cases fuel with
  | zero => exact ⟨rfl, nofun⟩
  | succ fuel =>
    cases node with
    | file contents => exact hfile
    | link text => exact hfile
    | folder =>
      rw [copyBelow_folder]
      apply Edit.Ensures.bind (ensures_createFolders_of_gone hgone hsame)
      · rintro _ between ⟨-, hempty⟩
        -- only the empty path is passed over
        exact absurd (hempty rfl) (text_join_relativePath_ne target hbelow hproper)
      · exact fun _ _ hkept => ⟨hkept.1, nofun⟩

/-- Without a working folder only what lies in an empty folder is copied to a relative path. -/
theorem ensures_copyListed_of_gone (htree : files.IsTree)
    (hsource : files.folderAt source = .ok original) (hrelative : target.isAbsolute = false)
    (fuel : Nat) :
    (copyListed source target fuel []).Ensures files fun result after =>
      after = files ∧ (result = .ok () → Copied files original copy [] after) := by
  have heach := @ensures_copyListed_each files source target [] (· = files) (fun _ _ => False) fuel rfl
  apply (heach ?_).mono
  · rintro result after ⟨hsame, hall⟩
    refine ⟨hsame, fun hok => ?_⟩
    obtain ⟨location, hlocation, hnone⟩ := hall hok
    obtain rfl : original = location := Except.ok.inj (hsource.symm.trans hlocation)
    rintro (_ | ⟨name, more⟩) node hne hnode
    · exact absurd rfl hne
    · obtain ⟨first, hfirst⟩ : ∃ first, files.find? (original ++ [name]) = some first := by
        by_cases hmore : more = []
        · exact ⟨node, hmore ▸ hnode⟩
        · rw [List.nil_append, List.append_cons] at hnode
          exact ⟨.folder, htree.find?_of_append hmore hnode⟩
      rcases mem_of_find? hfirst with ⟨hnil, -⟩ | hmem
      · exact absurd hnil (by simp)
      · exact (hnone name first hmem).elim
  · rintro location hlocation name node hmem _ rfl
    have hname : ∀ other ∈ [] ++ [name], IsName other := by
      simpa using htree.isPlace _ hmem name (by simp)
    apply (ensures_copyBelow_of_gone hgone hrelative (by simp) hname fuel node).mono
    rintro result after ⟨hsame, hfails⟩
    exact ⟨hsame, fun _ hnot => hnot, fun hok => hfails hok⟩

end Gone

/-- A folder whose path is not that of a link is found there. -/
theorem folderAt_of_lookAtLink
    (hsource : files.resolve .lookAtLink source = .ok (.present original .folder)) :
    files.folderAt source = .ok original := by
  obtain ⟨hcheck, start, hstart, hwalk⟩ := resolve_eq_ok_iff.mp hsource
  exact folderAt_eq_ok_iff.mpr (resolve_eq_ok_iff.mpr
    ⟨hcheck, start, hstart, walk_look hwalk (by simp [Place.node?])⟩)

/-- A folder whose path is not that of a link is copied by making the target and copying what lies in
the folder. -/
theorem outcome_copyFolder
    (hsource : files.resolve .lookAtLink source = .ok (.present original .folder)) :
    (copyFolder source target).outcome files =
      (copyBelow source target (pathLimit + 1) [] .folder).outcome files := by
  have hfolder : files.isFolder source = true :=
    isFolder_iff.mpr ⟨original, folderAt_of_lookAtLink hsource⟩
  unfold copyFolder
  rw [Edit.outcome_bind]
  show Edit.outcome (if files.isFolder source = true then _ else _) files = _
  rw [if_pos hfolder]
  show Edit.outcome (Edit.ask _ >>= _) files = _
  rw [Edit.outcome_bind, Edit.outcome_ask, hsource]

/-- Where there are no links, names are followed in the same way whatever is done with a link. -/
theorem follow_lookAtLink_eq (hlinks : files.HasNoLinks [])
    (followLink another : Location → List String → Bool → Except Fault Place) (here : Location)
    (names : List String) (needsFolder : Bool) :
    follow files .lookAtLink followLink here names needsFolder =
      follow files .look another here names needsFolder := by
  induction names generalizing here with
  | nil => rw [follow, follow]
  | cons name names ih =>
    have hnone (text : String) : files.find? (here ++ [name]) ≠ some (.link text) := fun hlink =>
      hlinks _ text (isBelow_append List.nil_prefix name) hlink
    simp only [follow, ih, reduceCtorEq, false_and, if_false]
    cases hfind : files.find? (here ++ [name]) with
    | none => rfl
    | some node =>
      cases node with
      | folder => rfl
      | file contents => rfl
      | link text => exact absurd hfind (hnone text)

/-- Where there are no links, it does not matter whether one at the end of a path is followed. -/
theorem resolve_lookAtLink_eq (hlinks : files.HasNoLinks []) (path : Path) :
    files.resolve .lookAtLink path = files.resolve .look path := by
  simp only [resolve, walk_eq_follow,
    follow_lookAtLink_eq hlinks _ (walkLink files .look linkLimit)]

/-- Copying a folder that is found where there are no links makes the target and copies what lies in
the folder. -/
theorem copyFolder_ok (hlinks : files.HasNoLinks []) (hsource : files.folderAt source = .ok original)
    (hok : (copyFolder source target).outcome files = (.ok (), after)) :
    ∃ made, (createFolders (target.join (relativePath []))).outcome files = (.ok (), made) ∧
      (copyListed source target pathLimit []).outcome made = (.ok (), after) := by
  have hfound : files.resolve .lookAtLink source = .ok (.present original .folder) :=
    (resolve_lookAtLink_eq hlinks source).trans (folderAt_eq_ok_iff.mp hsource)
  rw [outcome_copyFolder hfound, copyBelow_folder, Edit.outcome_bind] at hok
  cases hmade : (createFolders (target.join (relativePath []))).outcome files with
  | mk result made =>
    rw [hmade] at hok
    cases result with
    | error fault => cases hok
    | ok _ => exact ⟨made, rfl, hok⟩

/-- A target that has been made leads to a folder, unless it is the working folder and that is gone. -/
theorem leadsTo_or_gone
    (h : (target.join (relativePath [])).text = "" ∨
      ∃ folder, made.LeadsTo (target.join (relativePath [])) folder) :
    (∃ folder, made.LeadsTo target folder) ∨
      target.isAbsolute = false ∧ made.find? made.start ≠ some .folder := by
  obtain ⟨hnames, hsame⟩ := @names_join_relativePath [] (by simp) target
  rw [List.append_nil] at hnames
  rcases h with hempty | ⟨folder, hleads⟩
  · have htarget : target.join (relativePath []) = ⟨""⟩ := congrArg Path.mk hempty
    rw [htarget] at hnames hsame
    have hrelative : target.isAbsolute = false := hsame.symm
    by_cases hstart : made.find? made.start = some .folder
    · refine .inl ⟨made.start, made.start, ?_, ?_⟩
      · rw [origin, hrelative, if_neg (by decide), if_pos hstart]
      · rw [← hnames]
        exact walk_nil
    · exact .inr ⟨hrelative, hstart⟩
  · exact .inl ⟨folder, hleads.of_names hnames.symm hsame.symm⟩

/-- What lies in a folder is laid over a target that has been made. -/
theorem ensures_copyListed_overlays (htree : made.IsTree) (hlinks : made.HasNoLinks [])
    (hsource : made.folderAt source = .ok original)
    (hinto : ¬ original <+: lexicalPlace made.start target)
    (hfrom : ¬ lexicalPlace made.start target <+: original)
    (htarget : (∃ folder, made.LeadsTo target folder) ∨
      target.isAbsolute = false ∧ made.find? made.start ≠ some .folder) :
    (copyListed source target pathLimit []).Ensures made fun result after =>
      Overlays made original (lexicalPlace made.start target) made after ∧
        (result = .ok () → Copied made original (lexicalPlace made.start target) [] after) := by
  rcases htarget with ⟨folder, hleads⟩ | ⟨hrelative, hgone⟩
  · obtain rfl : folder = lexicalPlace made.start target := by
      obtain ⟨start, hstart, hwalk⟩ := hleads
      obtain rfl := lexicalOrigin_of_origin hstart
      exact location_of_walk hlinks hwalk
    have hnone (folder : Location) : made.HasNoLinks folder := fun location text hbelow =>
      hlinks location text <| isBelow_of_prefix List.nil_prefix hbelow
    have hcopying : Copying made source target original (lexicalPlace made.start target) :=
      ⟨htree, leadsTo_of_folderAt hsource, hleads, hnone _, hnone _, hinto, hfrom⟩
    have hfolder : made.find? (original ++ []) = some .folder := by
      rw [List.append_nil]
      exact htree.find?_of_leadsTo hcopying.leadsFrom
    apply hcopying.ensures_copyListed (.refl made) hfolder (absurd rfl)
    exact fun name node current hcurrent hnode => hcopying.ensures_copyBelow _ hcurrent hnode
  · apply (ensures_copyListed_of_gone hgone htree hsource hrelative pathLimit).mono
    rintro result after ⟨hsame, hcopied⟩
    refine ⟨?_, hcopied⟩
    rw [hsame]
    exact .refl made

/-- What is laid over a target that has been made is laid over what was there before. -/
theorem laidOver_of_overlays
    (hmade : GrowsAt (OnWay files.start target) (fun _ => False) files made)
    (hfolder : files.find? original = some .folder)
    (hinto : ¬ original <+: lexicalPlace files.start target)
    (hover : Overlays made original (lexicalPlace files.start target) made after)
    (hcopied : Copied made original (lexicalPlace files.start target) [] after) :
    files.LaidOver original target after := by
  have hplace (location : Location) (hnone : files.find? location = none) :
      made.find? location = none ∨
        made.find? location = some .folder ∧ OnWay files.start target location := by
    rcases hmade.find?_cases location with hsame | ⟨-, hfound⟩
    · exact .inl (hsame.trans hnone)
    · exact .inr hfound
  refine ⟨fun below node hne hnode => ?_, fun below node hnone hnode => ?_,
    fun below hnone hempty => ?_, fun location hnot => ?_⟩
  · exact hcopied below node hne (hmade.find?_of_not id hnode)
  · have hkept := hmade.find?_of_not id hnode
    rw [← hkept]
    refine Classical.byContradiction fun hchanged => ?_
    -- what was there could only give way to a file, but at most a folder is copied
    rcases hover.find? _ with hsame | ⟨hempty, -⟩ | ⟨-, -, contents, hfile⟩
    · exact hchanged hsame
    · rw [hkept] at hempty
      cases hempty
    · rw [hover.find?_of_changed hchanged] at hfile
      rcases hplace _ hnone with hmissing | ⟨hfolder, -⟩
      · rw [hmissing] at hfile
        cases hfile
      · rw [hfolder] at hfile
        cases hfile
  · by_cases hsame : after.find? (lexicalPlace files.start target ++ below) =
        made.find? (lexicalPlace files.start target ++ below)
    · rw [hsame]
      rcases hplace _ hempty with hmissing | ⟨hfound, hway⟩
      · exact .inl hmissing
      · refine .inr ⟨Classical.byContradiction fun hdown => ?_, hfound, .inl hway⟩
        obtain ⟨rest, hrest⟩ := hway.prefix_of_not_above hdown
        obtain rfl : below = [] := by simp_all
        rw [List.append_nil, hfolder] at hnone
        cases hnone
    · rw [hover.find?_of_changed hsame]
      rcases hplace _ hnone with hmissing | ⟨hfound, hway⟩
      · exact .inl hmissing
      · exact .inr ⟨Classical.byContradiction fun hdown =>
          hinto ((List.prefix_append _ _).trans (hway.prefix_of_not_above hdown)), hfound, .inr hway⟩
  · rw [hover.find?_outside hnot]
    exact hmade.find?_cases location

/-- Copying a folder in a tree without links lays it over what is at the target, if it succeeds and
neither of the two places lies in the other. What is not a folder is not copied, and nothing is
changed. -/
theorem copyFolder_lays_over (source target : Path) (htree : files.IsTree)
    (hlinks : files.HasNoLinks []) :
    match files.folderAt source with
    | .error _ => (copyFolder source target).outcome files =
        (.error (.sourceNotAFolder source.text), files)
    | .ok original =>
      ¬ original <+: lexicalPlace files.start target →
      ¬ lexicalPlace files.start target <+: original →
      ∀ after, (copyFolder source target).outcome files = (.ok (), after) →
        files.LaidOver original target after := by
  cases hsource : files.folderAt source with
  | error fault => exact copyFolder_refused hsource
  | ok original =>
    intro hinto hfrom after hok
    obtain ⟨made, hmade, hlisted⟩ := copyFolder_ok hlinks hsource hok
    have hway : ∀ location, OnWay files.start (target.join (relativePath [])) location →
        OnWay files.start target location := by
      rintro location ⟨passed, hpassed, rfl⟩
      obtain ⟨hnames, hsame⟩ := @names_join_relativePath [] (by simp) target
      rw [hnames, List.append_nil] at hpassed
      rw [lexicalOrigin, hsame]
      exact ⟨passed, hpassed, rfl⟩
    have hgrows : (createFolders (target.join (relativePath []))).Ensures files fun _ between =>
        GrowsAt (OnWay files.start target) (fun _ => False) files between :=
      ensures_createFolders_at hlinks hway
    have hthere : (createFolders (target.join (relativePath []))).Ensures files _ :=
      ensures_createFolders_leadsTo _
    have hmadeTree : (createFolders (target.join (relativePath []))).Ensures files _ :=
      ensures_createFolders_isTree _ htree
    unfold Edit.Ensures at hgrows hthere hmadeTree
    rw [hmade] at hgrows hthere hmadeTree
    have hover := ensures_copyListed_overlays hmadeTree (hgrows.hasNoLinks hlinks)
      (hgrows.folderAt_eq hsource) (hgrows.start ▸ hinto) (hgrows.start ▸ hfrom)
      (leadsTo_or_gone (hthere rfl))
    unfold Edit.Ensures at hover
    rw [hlisted, hgrows.start] at hover
    exact laidOver_of_overlays hgrows
      (htree.find?_of_leadsTo (leadsTo_of_folderAt hsource)) hinto hover.1 (hover.2 rfl)

/-- A folder is copied into one that holds a file of the same name and another file. -/
theorem copyFolder_lays_over_folder :
    let files : FileSystem := { entries := [(["s"], .folder), (["s", "x"], .file [1]),
      (["t"], .folder), (["t", "x"], .file [2]), (["t", "y"], .file [3])] }
    files.IsTree ∧ files.HasNoLinks [] ∧ files.folderAt ⟨"/s"⟩ = .ok ["s"] ∧
      ¬ ["s"] <+: lexicalPlace [] ⟨"/t"⟩ ∧ ¬ lexicalPlace [] ⟨"/t"⟩ <+: ["s"] ∧
      ∃ after, (copyFolder ⟨"/s"⟩ ⟨"/t"⟩).outcome files = (.ok (), after) ∧
        files.LaidOver ["s"] ⟨"/t"⟩ after := by
  intro files
  have htree : files.IsTree := by decide
  have hlinks : files.HasNoLinks [] := hasNoLinks_of_entries (by simp [files])
  have hsource : files.folderAt ⟨"/s"⟩ = .ok ["s"] := rfl
  have hinto : ¬ ["s"] <+: lexicalPlace [] ⟨"/t"⟩ := by decide
  have hfrom : ¬ lexicalPlace [] ⟨"/t"⟩ <+: ["s"] := by decide
  have hok : ((copyFolder ⟨"/s"⟩ ⟨"/t"⟩).outcome files).1 = .ok () := by
    have hlisted : (copyFolder ⟨"/s"⟩ ⟨"/t"⟩).outcome files =
        (copyListed ⟨"/s"⟩ ⟨"/t"⟩ pathLimit []).outcome files := rfl
    have hcontents : files.contents ["s"] = [("x", .file [1])] := by
      simp [files, contents, nameIn?]
    rw [hlisted, outcome_copyListed rfl hcontents]
    rfl
  have hlaid := copyFolder_lays_over ⟨"/s"⟩ ⟨"/t"⟩ htree hlinks
  rw [hsource] at hlaid
  exact ⟨htree, hlinks, hsource, hinto, hfrom, _, Prod.ext hok rfl,
    hlaid hinto hfrom _ (Prod.ext hok rfl)⟩

end WorkingCopies.FileSystem
