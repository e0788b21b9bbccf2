import WorkingCopies.Proofs.FileSystem.Copy

/-!
# What removing changes

Removing a folder with everything in it puts nothing anywhere: what is left was there before. Files
that do not lie in the folder stay. What is left of a source that lay in the folder holds no file, so
nothing can be copied from it.
-/

namespace WorkingCopies.FileSystem

variable {files between after : FileSystem} {path : Path} {location : Location}

/-- Whether files come of others by removing some of what was there. -/
structure Shrinks (files after : FileSystem) : Prop where
  start : after.start = files.start
  formed : files.WellFormed → after.WellFormed
  find? : ∀ location, after.find? location = files.find? location ∨ after.find? location = none

namespace Shrinks

/-- Nothing need be removed. -/
theorem refl (files : FileSystem) : Shrinks files files := ⟨rfl, id, fun _ => .inl rfl⟩

/-- What shrinks and shrinks again has shrunk. -/
theorem trans (h : Shrinks files between) (hmore : Shrinks between after) : Shrinks files after := by
  refine ⟨hmore.start.trans h.start, hmore.formed ∘ h.formed, fun location => ?_⟩
  rcases hmore.find? location with hsame | hnone
  · rw [hsame]
    exact h.find? location
  · exact .inr hnone

/-- Keeping some of the entries keeps a file system well formed. -/
theorem formed_filter {keep : Location × Node → Bool} (hformed : files.WellFormed) :
    WellFormed { files with entries := files.entries.filter keep } :=
  ⟨fun entry hentry => hformed.isPlace entry (List.mem_filter.mp hentry).1,
    hformed.nodup.sublist (List.filter_sublist.map _)⟩

/-- Clearing one place. -/
theorem erase (hroot : location ≠ []) : Shrinks files (files.erase location) := by
  refine ⟨rfl, formed_filter, fun other => ?_⟩
  rw [find?_erase _ _ _ hroot]
  split
  · exact .inr rfl
  · exact .inl rfl

/-- Clearing all places below one. -/
theorem eraseBelow : Shrinks files (files.eraseBelow location) := by
  refine ⟨rfl, formed_filter, fun other => ?_⟩
  rw [find?_eraseBelow]
  split
  · exact .inr rfl
  · exact .inl rfl

/-- What is left was there before. -/
theorem find?_of_some {node : Node} (h : Shrinks files after)
    (hnode : after.find? location = some node) : files.find? location = some node := by
  rcases h.find? location with hsame | hnone
  · exact hsame.symm.trans hnode
  · rw [hnode] at hnone
    cases hnone

/-- A path that still leads to a folder led there before. -/
theorem leadsTo {folder : Location} (h : Shrinks files after)
    (hleads : after.LeadsTo path folder) : files.LeadsTo path folder := by
  have hkeeps : after.KeepsWays files := fun _ _ hnode _ => h.find?_of_some hnode
  exact hkeeps.leadsTo h.start.symm hleads

end Shrinks

/-- Removing an empty folder takes away nothing but folders. -/
theorem ensures_removeFolder (path : Path) :
    (removeFolder path).Ensures files fun _ after => Shrinks files after ∧
      ∀ location contents, files.find? location = some (.file contents) →
        after.find? location = some (.file contents) := by
  have hsame : Shrinks files files ∧ ∀ location contents,
      files.find? location = some (.file contents) →
        files.find? location = some (.file contents) := ⟨.refl files, fun _ _ hfile => hfile⟩
  refine Edit.Ensures.bind_ask (fun parent hparent => ?_) fun _ _ => hsame
  obtain ⟨folder, name?⟩ := parent
  cases name? with
  | none => exact hsame
  | some name =>
    refine Edit.Ensures.bind_get ?_
    cases hnode : files.find? (folder ++ [name]) with
    | none => exact hsame
    | some node =>
      cases node with
      | file contents => exact hsame
      | link target => exact hsame
      | folder =>
        refine Edit.Ensures.bind_get ?_
        split
        · have hroot : folder ++ [name] ≠ [] := by simp
          refine ⟨.erase hroot, fun location contents hfile => ?_⟩
          show (files.erase (folder ++ [name])).find? location = _
          rw [find?_erase _ _ _ hroot, if_neg, hfile]
          rintro rfl
          rw [hnode] at hfile
          cases hfile
        · exact hsame

/-- Whether removing what a path leads to clears a place: a folder is found, and the place lies
below it. -/
def Removes (files : FileSystem) (path : Path) (location : Location) : Prop :=
  ∃ folder, files.resolve .lookAtLink path = .ok (.present folder .folder) ∧
    isBelow location folder = true

/-- What is left where what a path leads to has been removed: nothing below a folder that it leads to,
and all other files. -/
structure Cleared (files : FileSystem) (path : Path) (after : FileSystem) : Prop where
  shrinks : Shrinks files after
  removed : ∀ location, files.Removes path location → after.find? location = none
  kept : ∀ location contents, ¬ files.Removes path location →
    files.find? location = some (.file contents) → after.find? location = some (.file contents)

/-- How a removal goes is told by where the path leads. Nothing is removed but of a link the link, and
of a folder what lies below it and then the folder itself. -/
theorem outcome_removeTree (files : FileSystem) (path : Path) : (removeTree path).outcome files =
    match files.resolve .lookAtLink path with
    | .error fault => (.error fault, files)
    | .ok (.absent _ _) => (.error .noSuchEntry, files)
    | .ok (.present _ (.file _)) => (.error .notAFolder, files)
    | .ok (.present location (.link _)) => (.ok (), files.erase location)
    | .ok (.present location .folder) =>
      (removeFolder path).outcome (files.eraseBelow location) := by
  unfold removeTree
  rw [Edit.outcome_bind, Edit.outcome_ask]
  cases files.resolve .lookAtLink path with
  | error fault => rfl
  | ok place =>
    cases place with
    | absent folder name => rfl
    | present location node => cases node <;> rfl

/-- Removing a folder with everything in it clears the places below it, and leaves all other
files. -/
theorem ensures_removeTree (path : Path) :
    (removeTree path).Ensures files fun _ after => Cleared files path after := by
  have hsame (hnot : ∀ folder, files.resolve .lookAtLink path ≠ .ok (.present folder .folder)) :
      Cleared files path files :=
    ⟨.refl files, fun _ ⟨folder, hfolder, _⟩ => absurd hfolder (hnot folder),
      fun _ _ _ hfile => hfile⟩
  refine Edit.Ensures.bind_ask (fun place hplace => ?_) fun fault hfault => ?_
  · cases place with
    | absent folder name => exact hsame (by simp [hplace])
    | present found node =>
      cases node with
      | file contents => exact hsame (by simp [hplace])
      | link target =>
        have hlink : files.find? found = some (.link target) :=
          find?_of_resolve hplace (by simp [Place.node?])
        have hroot : found ≠ [] := by
          rintro rfl
          cases hlink
        refine ⟨.erase hroot, ?_, fun location contents _ hfile => ?_⟩
        · rintro location ⟨folder, hfolder, -⟩
          rw [hplace] at hfolder
          cases hfolder
        · show (files.erase found).find? location = _
          rw [find?_erase _ _ _ hroot, if_neg, hfile]
          rintro rfl
          rw [hfile] at hlink
          cases hlink
      | folder =>
        refine Edit.Ensures.bind_modify ((ensures_removeFolder path).mono fun _ after hremoved => ?_)
        obtain ⟨hshrinks, hfiles⟩ := hremoved
        refine ⟨Shrinks.eraseBelow.trans hshrinks, ?_, fun location contents hnot hfile => ?_⟩
        · rintro location ⟨folder, hfolder, hbelow⟩
          rw [hplace] at hfolder
          cases hfolder
          have hnone : (files.eraseBelow found).find? location = none := by
            rw [find?_eraseBelow, if_pos hbelow]
          rcases hshrinks.find? location with hkept | hgone
          · exact hkept.trans hnone
          · exact hgone
        · have hnotBelow : ¬ isBelow location found = true := fun hbelow => hnot ⟨found, hplace, hbelow⟩
          refine hfiles location contents ?_
          rw [find?_eraseBelow, if_neg hnotBelow, hfile]
  · exact hsame (by simp [hfault])

/-- Whether nothing but folders lies below a folder, however deep. -/
def HoldsOnlyFolders (files : FileSystem) (folder : Location) : Prop :=
  ∀ location node, isBelow location folder = true → files.find? location = some node →
    node = .folder

/-- Copying from a folder in which nothing but folders lies makes nothing but folders. -/
theorem ensures_copyBelow_of_holdsOnlyFolders {source target : Path} {base : FileSystem}
    {folder : Location} {below : List String} (hformed : base.WellFormed)
    (hleads : base.LeadsTo source folder) (honly : base.HoldsOnlyFolders folder) (fuel : Nat)
    (hnames : ∀ name ∈ below, IsName name) (hgrows : Grows (fun _ => False) base files) :
    (copyBelow source target fuel below .folder).Ensures files fun _ after =>
      Grows (fun _ => False) base after := by
  have hlinks : base.HasNoLinks folder := by
    intro location target hbelow hlink
    cases honly location _ hbelow hlink
  induction fuel generalizing below files with
  | zero => exact hgrows
  | succ fuel ih =>
    rw [copyBelow_folder]
    refine Edit.Ensures.bind (ensures_createFolders _) ?_ fun _ _ hmore => hgrows.trans hmore
    intro _ between hmore
    have hbetween := hgrows.trans hmore
    refine ensures_copyListed hbetween fun location hlocation name node hentry current hcurrent => ?_
    have hwell := hbetween.formed hformed
    have hname : IsName name := hwell.isPlace _ hentry name (by simp)
    have hproper : ∀ other ∈ below ++ [name], IsName other := by
      simpa [or_imp, forall_and, hname] using hnames
    -- what is listed lies in the folder of the source, where there is nothing but folders
    have hinitial : folder <+: location := by
      obtain ⟨hbelowNames, habsolute⟩ := names_pathBelow source hnames
      by_cases hnil : below = []
      · subst hnil
        have hsame := (hbetween.leadsTo hleads).unique (leadsTo_of_folderAt hlocation)
        exact hsame ▸ List.prefix_refl folder
      · exact (hbetween.leadsTo hleads).prefix_of_resolve (hbetween.hasNoLinks hlinks) hbelowNames
          habsolute hnil hnames (folderAt_eq_ok_iff.mp hlocation)
    have hfind := hwell.find?_of_mem (by simp) hentry
    have hfolder : node = .folder := by
      rcases hbetween.find? (location ++ [name]) with hsame | ⟨-, hmade⟩ | ⟨hwritten, -⟩
      · exact honly _ node (isBelow_append hinitial name) (hsame.symm.trans hfind)
      · rw [hfind] at hmade
        exact Option.some.inj hmade
      · exact hwritten.elim
    subst hfolder
    exact ih hproper hcurrent

/-- Copying a folder in which nothing but folders lies makes nothing but folders. -/
theorem ensures_copyFolder_of_holdsOnlyFolders {source target : Path} (hformed : files.WellFormed)
    (honly : ∀ folder, files.LeadsTo source folder → files.HoldsOnlyFolders folder) :
    (copyFolder source target).Ensures files fun _ after => Grows (fun _ => False) files after := by
  refine ensures_copyFolder_of (fun _ hgrows => hgrows) fun folder hfolder => ?_
  have hleads := leadsTo_of_folderAt hfolder
  exact ensures_copyBelow_of_holdsOnlyFolders hformed hleads (honly folder hleads) _ (by simp)
    (.refl files)

/-- Where a source lies in a folder that has been removed, copying it makes no file in the source. -/
theorem Cleared.find?_copyFolder_ne_file {source path target : Path} {after : FileSystem}
    {folder above location : Location} {contents : Bytes} (h : files.Cleared path after)
    (hformed : files.WellFormed) (hsource : files.folderAt source = .ok folder)
    (habove : files.resolve .lookAtLink path = .ok (.present above .folder))
    (hinitial : above <+: folder) (hbelow : isBelow location folder = true) :
    ((copyFolder source target).outcome after).2.find? location ≠ some (.file contents) := by
  have hgone (place : Location) (hplace : isBelow place folder = true) : after.find? place = none :=
    h.removed place ⟨above, habove, isBelow_of_prefix hinitial hplace⟩
  have hcopied : (copyFolder source target).Ensures after fun _ last =>
      Grows (fun _ => False) after last := by
    refine ensures_copyFolder_of_holdsOnlyFolders (h.shrinks.formed hformed) fun other hother => ?_
    have hsame := (h.shrinks.leadsTo hother).unique (leadsTo_of_folderAt hsource)
    intro place node hplace hnode
    rw [hgone place (hsame ▸ hplace)] at hnode
    cases hnode
  intro hfound
  rcases hcopied.find? location with hsame | ⟨-, hmade⟩ | ⟨⟨⟩, -⟩
  · rw [hgone location hbelow, hfound] at hsame
    cases hsame
  · rw [hfound] at hmade
    cases hmade

end WorkingCopies.FileSystem
