import WorkingCopies.Proofs.FileSystem.Copy
import WorkingCopies.Proofs.FileSystem.Folders
import WorkingCopies.Proofs.FileSystem.Footprint

/-!
# A folder that is copied over another one

Where neither of two folders lies in the other, and there are no links in them, copying the one to the
other lays it over what is there: each place of the original is copied to its counterpart, and all
else is as it was. Whatever goes wrong on the way, what has been copied by then is as it should be.
-/

namespace WorkingCopies.FileSystem

variable {base files between after : FileSystem} {source target path : Path}
  {original copy : Location} {below within : List String}

/-- Whether nothing is changed but counterparts of what lies in a folder, below the folder that it is
copied to, and each of these holds what the original of it holds. -/
structure Overlays (base : FileSystem) (original copy : Location) (files after : FileSystem) : Prop
    extends Grows (fun location => isBelow location copy = true) files after where
  of_changed : ∀ location, after.find? location ≠ files.find? location →
    ∃ below, below ≠ [] ∧ location = copy ++ below ∧
      after.find? location = base.find? (original ++ below)

namespace Overlays

/-- Nothing need be copied. -/
theorem refl (files : FileSystem) : Overlays base original copy files files :=
  ⟨.refl files, fun _ hchanged => absurd rfl hchanged⟩

/-- More may be copied. -/
theorem trans (h : Overlays base original copy files between)
    (hmore : Overlays base original copy between after) : Overlays base original copy files after := by
  refine ⟨h.toGrows.trans hmore.toGrows, fun location hchanged => ?_⟩
  by_cases hsame : after.find? location = between.find? location
  · rw [hsame] at hchanged ⊢
    exact h.of_changed location hchanged
  · exact hmore.of_changed location hsame

/-- What is changed at a counterpart holds what the original of it holds. -/
theorem find?_of_changed (h : Overlays base original copy files after)
    (hchanged : after.find? (copy ++ below) ≠ files.find? (copy ++ below)) :
    after.find? (copy ++ below) = base.find? (original ++ below) := by
  obtain ⟨other, -, hother, hfound⟩ := h.of_changed _ hchanged
  obtain rfl := List.append_cancel_left hother
  exact hfound

/-- What has been copied stays so. -/
theorem find?_copy (h : Overlays base original copy files after)
    (hcopied : files.find? (copy ++ below) = base.find? (original ++ below)) :
    after.find? (copy ++ below) = base.find? (original ++ below) := by
  by_cases hsame : after.find? (copy ++ below) = files.find? (copy ++ below)
  · rw [hsame, hcopied]
  · exact h.find?_of_changed hsame

/-- What lies neither at the target nor below it is as it was. -/
theorem find?_outside {location : Location} (h : Overlays base original copy files after)
    (hnot : ¬ copy <+: location) : after.find? location = files.find? location := by
  refine Classical.byContradiction fun hchanged => ?_
  obtain ⟨more, -, rfl, -⟩ := h.of_changed location hchanged
  exact hnot (List.prefix_append copy more)

/-- Making a folder where the original is one. -/
theorem put_folder (hplace : files.WellFormed → IsPlace (copy ++ below)) (hbelow : below ≠ [])
    (hnone : files.find? (copy ++ below) = none)
    (horiginal : base.find? (original ++ below) = some .folder) :
    Overlays base original copy files (files.put (copy ++ below) .folder) := by
  refine ⟨.put_folder hplace hnone, fun location hchanged => ?_⟩
  rw [find?_put _ _ _ _ (ne_root_of_none hnone)] at hchanged ⊢
  split at hchanged
  · next hsame => exact ⟨below, hbelow, hsame, by rw [if_pos hsame, horiginal]⟩
  · exact absurd rfl hchanged

/-- Writing a file where the original is one with the same bytes. -/
theorem put_file {contents : Bytes} (hplace : files.WellFormed → IsPlace (copy ++ below))
    (hbelow : below ≠ [])
    (honly : ∀ node, files.find? (copy ++ below) = some node → ∃ contents, node = .file contents)
    (horiginal : base.find? (original ++ below) = some (.file contents)) :
    Overlays base original copy files (files.put (copy ++ below) (.file contents)) := by
  refine ⟨.put_file hplace (isBelow_of_ne_nil hbelow copy) honly, fun location hchanged => ?_⟩
  rw [find?_put _ _ _ _ (ne_root_of_only_file honly)] at hchanged ⊢
  split at hchanged
  · next hsame => exact ⟨below, hbelow, hsame, by rw [if_pos hsame, horiginal]⟩
  · exact absurd rfl hchanged

end Overlays

/-- A path of names behind those of another one leads to the folder that lies just there below where
the other one leads, if there are no links in that. -/
theorem LeadsTo.location_of_append {location : Location} (h : files.LeadsTo target copy)
    (hlinks : files.HasNoLinks copy) (hnames : path.names = target.names ++ below)
    (habsolute : path.isAbsolute = target.isAbsolute) (hproper : ∀ name ∈ below, IsName name)
    (hleads : files.LeadsTo path location) :
    location = copy ++ below ∧ (below ≠ [] → files.find? (copy ++ below) = some .folder) := by
  obtain ⟨start, hstart, hwalk⟩ := hleads
  have horigin : files.origin target = .ok start := by
    rw [← hstart, origin, origin, habsolute]
  rw [hnames] at hwalk
  by_cases hbelow : below = []
  · rw [hbelow, List.append_nil] at hwalk ⊢
    exact ⟨LeadsTo.unique ⟨start, horigin, hwalk⟩ h, fun hnot => absurd rfl hnot⟩
  · obtain ⟨left, folder, hfirst, hrest⟩ := exists_walk_of_append hbelow hwalk
    obtain rfl := h.unique ⟨start, horigin, hfirst⟩
    exact place_of_walk hlinks (List.prefix_refl _) hproper hrest

/-- A folder that is made on the way to one below a target is made below the folder that the target
leads to. -/
theorem LeadsTo.exists_of_made {parent : Location} {name : String} (h : files.LeadsTo target copy)
    (hlinks : files.HasNoLinks copy) (hproper : ∀ name ∈ within, IsName name)
    (hnames : path.names <+: target.names ++ within) (habsolute : path.isAbsolute = target.isAbsolute)
    (hparent : files.resolveParent path = .ok (parent, some name))
    (hnone : files.find? (parent ++ [name]) = none) :
    ∃ passed, passed ≠ [] ∧ passed <+: within ∧ parent ++ [name] = copy ++ passed := by
  have hfirst : ¬ path.names <+: target.names := by
    -- the folders on the way to the target are there
    intro hinitial
    obtain ⟨above, habove⟩ := h.exists_of_prefix hinitial habsolute
    obtain ⟨folder, last, hsame, htaken⟩ :=
      habove.resolveParent_eq (resolveParent_eq_ok_iff.mp hparent).1
    rw [hparent] at hsame
    cases hsame
    have htaken := htaken name rfl
    rw [hnone] at htaken
    cases htaken
  rcases List.prefix_or_prefix_of_prefix hnames (List.prefix_append _ _) with hbefore | hbehind
  · exact absurd hbefore hfirst
  · obtain ⟨passed, hpassed⟩ := hbehind
    rw [← hpassed, List.prefix_append_right_inj] at hnames
    have hne : passed ≠ [] := by
      rintro rfl
      exact hfirst (by simp [← hpassed])
    have hgrows : Grows (fun _ => False) files (files.put (parent ++ [name]) .folder) :=
      .put_folder (·.isPlace_resolveParent hparent) hnone
    refine ⟨passed, hne, hnames, ?_⟩
    exact ((hgrows.leadsTo h).location_of_append (hgrows.hasNoLinks hlinks) hpassed.symm habsolute
      (fun other hother => hproper other (hnames.mem hother)) (leadsTo_put_folder hparent hnone)).1

/-- Whether all that lies in a part of the original has been copied. -/
def Copied (base : FileSystem) (original copy : Location) (below : List String)
    (files : FileSystem) : Prop :=
  ∀ more node, below ++ more ≠ [] → base.find? (original ++ (below ++ more)) = some node →
    files.find? (copy ++ (below ++ more)) = some node

/-- What has been copied stays so. -/
theorem Copied.overlays (h : Copied base original copy below files)
    (hmore : Overlays base original copy files after) : Copied base original copy below after := by
  intro more node hne hnode
  rw [← hnode]
  exact hmore.find?_copy ((h more node hne hnode).trans hnode.symm)

/-- A folder that is copied from a path to a path: both lead to folders without links, of which
neither lies in the other. -/
structure Copying (base : FileSystem) (source target : Path) (original copy : Location) : Prop where
  isTree : base.IsTree
  leadsFrom : base.LeadsTo source original
  leadsInto : base.LeadsTo target copy
  linksFrom : base.HasNoLinks original
  linksInto : base.HasNoLinks copy
  notInto : ¬ original <+: copy
  notFrom : ¬ copy <+: original

namespace Copying

/-- No place lies both in the original and in the copy. -/
theorem apart (h : Copying base source target original copy) (more : List String) :
    ¬ copy <+: original ++ more := by
  intro hcopy
  rcases List.prefix_or_prefix_of_prefix hcopy (List.prefix_append original more) with hfrom | hinto
  · exact h.notFrom hfrom
  · exact h.notInto hinto

/-- The original stays as it is. -/
theorem find?_original (h : Copying base source target original copy)
    (hfiles : Overlays base original copy base files) (more : List String) :
    files.find? (original ++ more) = base.find? (original ++ more) :=
  hfiles.find?_outside (h.apart more)

/-- What lies in the original is named by names. -/
theorem isName (h : Copying base source target original copy) {node : Node}
    (hnode : base.find? (original ++ below) = some node) : ∀ name ∈ below, IsName name :=
  fun name hname => h.isTree.isPlace_of_find? hnode name (List.mem_append_right _ hname)

/-- What lies above a place of the original is a folder. -/
theorem find?_above (h : Copying base source target original copy) {node : Node}
    {front : List String} {name : String}
    (hnode : base.find? (original ++ (front ++ [name])) = some node) {passed : List String}
    (hpassed : passed <+: front) : base.find? (original ++ passed) = some .folder := by
  rw [← List.append_assoc] at hnode
  exact h.isTree.find?_of_prefix (h.isTree.inFolder _ name node hnode)
    ((List.prefix_append_right_inj original).mpr hpassed)

/-- Making a folder below the target lays folders of the original over what is there. -/
theorem ensures_createFolders (h : Copying base source target original copy)
    (hfiles : Overlays base original copy base files)
    (hnames : path.names <+: target.names ++ within) (habsolute : path.isAbsolute = target.isAbsolute)
    (hproper : ∀ name ∈ within, IsName name)
    (hfolders : ∀ passed, passed ≠ [] → passed <+: within →
      base.find? (original ++ passed) = some .folder) :
    (createFolders path).Ensures files fun _ after => Overlays base original copy files after := by
  apply ensures_createFoldersOn_of _ (.refl files)
  intro above habove between hbetween
  apply (ensures_makeFolder_put above).mono
  intro _ after hmade
  rcases hmade with rfl | ⟨parent, name, hparent, hnone, rfl⟩
  · exact hbetween
  · have hgrows := (hfiles.trans hbetween).toGrows
    obtain ⟨hinitial, hsame⟩ := habove.names_prefix
    obtain ⟨passed, hpassed, hwithin, hlocation⟩ := (hgrows.leadsTo h.leadsInto).exists_of_made
      (hgrows.hasNoLinks h.linksInto) hproper (hinitial.trans hnames) (hsame.trans habsolute) hparent
      hnone
    have hplace := fun hformed : between.WellFormed => hformed.isPlace_resolveParent hparent
    rw [hlocation] at hnone hplace ⊢
    exact hbetween.trans (.put_folder hplace hpassed hnone (hfolders passed hpassed hwithin))

/-- A folder below the target that has been made is there. -/
theorem ensures_createFolders_below (h : Copying base source target original copy)
    (hfiles : Overlays base original copy base files)
    (hfolder : base.find? (original ++ below) = some .folder) :
    (createFolders (target.join (relativePath below))).Ensures files fun result after =>
      Overlays base original copy files after ∧
        (result = .ok () → below ≠ [] → after.find? (copy ++ below) = some .folder) := by
  have hproper := h.isName hfolder
  obtain ⟨hnames, habsolute⟩ := names_join_relativePath hproper target
  have hfolders : ∀ passed, passed ≠ [] → passed <+: below →
      base.find? (original ++ passed) = some .folder := fun passed _ hpassed =>
    h.isTree.find?_of_prefix hfolder ((List.prefix_append_right_inj original).mpr hpassed)
  have hinitial : (target.join (relativePath below)).names <+: target.names ++ below :=
    hnames ▸ List.prefix_refl _
  have hoverlays := h.ensures_createFolders hfiles hinitial habsolute hproper hfolders
  have hthere : (createFolders (target.join (relativePath below))).Ensures files _ :=
    ensures_createFolders_leadsTo _
  refine ⟨hoverlays, fun hok hbelow => ?_⟩
  have hgrows := (hfiles.trans hoverlays).toGrows
  rcases hthere hok with hempty | ⟨folder, hleads⟩
  · exact absurd hempty (text_join_relativePath_ne target hbelow hproper)
  · exact ((hgrows.leadsTo h.leadsInto).location_of_append (hgrows.hasNoLinks h.linksInto) hnames
      habsolute hproper hleads).2 hbelow

/-- What is listed below the source lies just there below the original. -/
theorem location_of_folderAt (h : Copying base source target original copy)
    (hfiles : Overlays base original copy base files) (hproper : ∀ name ∈ below, IsName name)
    {location : Location} (hfolder : files.folderAt (pathBelow source below) = .ok location) :
    location = original ++ below := by
  obtain ⟨hnames, habsolute⟩ := names_pathBelow source hproper
  exact ((hfiles.leadsTo h.leadsFrom).location_of_append (hfiles.hasNoLinks h.linksFrom) hnames
    habsolute hproper (leadsTo_of_folderAt hfolder)).1

/-- The bytes of a file of the original are copied to its counterpart. -/
theorem ensures_copyBytes_below (h : Copying base source target original copy)
    (hfiles : Overlays base original copy base files) {contents : Bytes}
    (hfile : base.find? (original ++ below) = some (.file contents)) (hbelow : below ≠ []) :
    (copyBytes (pathBelow source below) (target.join (relativePath below))).Ensures files
      fun result after => Overlays base original copy files after ∧
        (result = .ok () → after.find? (copy ++ below) = some (.file contents)) := by
  have hproper := h.isName hfile
  obtain ⟨hfound, habsolute⟩ := names_pathBelow source hproper
  obtain ⟨hnames, hsame⟩ := names_join_relativePath hproper target
  apply (ensures_copyBytes _ _).mono
  intro result after hcopies
  cases hcopies with
  | refused fault => exact ⟨.refl files, nofun⟩
  | @copied location bytes place hsource htarget hwritable =>
    obtain ⟨hlocation, hnode⟩ := (hfiles.leadsTo h.leadsFrom).place_of_resolve
      (hfiles.hasNoLinks h.linksFrom) hfound habsolute hbelow hproper hsource
    obtain ⟨hplace, -⟩ := (hfiles.leadsTo h.leadsInto).place_of_resolve
      (hfiles.hasNoLinks h.linksInto) hnames hsame hbelow hproper htarget
    obtain rfl : location = original ++ below := hlocation
    obtain rfl : contents = bytes := by
      rw [h.find?_original hfiles, hfile] at hnode
      simpa [Place.node?] using hnode
    have hother : ¬ original ++ below = place.location := by
      rw [hplace]
      exact fun hequal => h.apart below ⟨below, hequal.symm⟩
    have honly := hwritable.only_file htarget
    have hformed := fun hformed : files.WellFormed => hformed.isPlace_resolve htarget
    rw [if_neg hother]
    rw [hplace] at honly hformed ⊢
    refine ⟨.put_file hformed hbelow honly hfile, fun _ => ?_⟩
    rw [find?_put _ _ _ _ (ne_root_of_only_file honly), if_pos rfl]

/-- A file of the original is copied to its counterpart, after the folder of that has been made. -/
theorem ensures_copyFile_below (h : Copying base source target original copy)
    (hfiles : Overlays base original copy base files) {contents : Bytes}
    (hfile : base.find? (original ++ below) = some (.file contents)) :
    (copyFile (pathBelow source below) (target.join (relativePath below))).Ensures files
      fun result after => Overlays base original copy files after ∧
        (result = .ok () → after.find? (copy ++ below) = some (.file contents)) := by
  have hproper := h.isName hfile
  obtain ⟨hnames, habsolute⟩ := names_join_relativePath hproper target
  have hbelow : below ≠ [] := by
    rintro rfl
    rw [List.append_nil, h.isTree.find?_of_leadsTo h.leadsFrom] at hfile
    cases hfile
  have hparent : (createParent (target.join (relativePath below))).Ensures files fun _ after =>
      Overlays base original copy files after := by
    unfold createParent
    split
    · next parent hparent =>
      obtain ⟨front, name, rfl⟩ := below.eq_nil_or_concat.resolve_left hbelow
      rw [List.concat_eq_append] at hfile hproper hnames hparent habsolute
      obtain ⟨hfront, hsame⟩ := Path.names_prefix_of_parent? hparent
        (hnames.trans (List.append_assoc _ _ _).symm)
      apply h.ensures_createFolders hfiles hfront (hsame.trans habsolute)
      · exact fun name hname => hproper name (List.mem_append_left _ hname)
      · exact fun passed _ hpassed => h.find?_above hfile hpassed
    · exact Overlays.refl files
  rw [copyFile_eq]
  apply Edit.Ensures.bind hparent
  · intro _ between hmade
    apply (h.ensures_copyBytes_below (hfiles.trans hmade) hfile hbelow).mono
    rintro result after ⟨hcopied, hdone⟩
    exact ⟨hmade.trans hcopied, hdone⟩
  · exact fun _ _ hmade => ⟨hmade, nofun⟩

/-- A part of the original that is a file is copied if its bytes are. -/
theorem copied_of_file (h : Copying base source target original copy) {contents : Bytes}
    (hfile : base.find? (original ++ below) = some (.file contents))
    (hcopied : files.find? (copy ++ below) = some (.file contents)) :
    Copied base original copy below files := by
  intro more node _ hnode
  by_cases hmore : more = []
  · rw [hmore, List.append_nil] at hnode ⊢
    rw [hcopied, ← hfile, hnode]
  · -- nothing lies in a file
    rw [← List.append_assoc] at hnode
    have hfolder := h.isTree.find?_of_append hmore hnode
    rw [hfile] at hfolder
    cases hfolder

/-- A part of the original that is a folder is copied if the folder is made and all in it is copied. -/
theorem copied_of_folder (h : Copying base source target original copy)
    (hfolder : base.find? (original ++ below) = some .folder)
    (hmade : below ≠ [] → files.find? (copy ++ below) = some .folder)
    (hinside : ∀ name node, base.find? (original ++ (below ++ [name])) = some node →
      Copied base original copy (below ++ [name]) files) :
    Copied base original copy below files := by
  intro more node hne hnode
  cases more with
  | nil =>
    rw [List.append_nil] at hne hnode ⊢
    rw [hmade hne, ← hfolder, hnode]
  | cons name more =>
    rw [List.append_cons] at hne hnode ⊢
    by_cases hmore : more = []
    · subst hmore
      rw [List.append_nil] at hnode
      exact hinside name node hnode [] node hne (by rwa [List.append_nil])
    · have habove := hnode
      rw [← List.append_assoc] at habove
      exact hinside name _ (h.isTree.find?_of_append hmore habove) more node hne hnode

/-- A folder that is listed holds what its original holds. -/
theorem mem_entries_iff (h : Copying base source target original copy)
    (hfiles : Overlays base original copy base files)
    (hfolder : base.find? (original ++ below) = some .folder) {location : Location} {name : String}
    {node : Node} (hlocation : files.folderAt (pathBelow source below) = .ok location) :
    (location ++ [name], node) ∈ files.entries ↔
      base.find? (original ++ (below ++ [name])) = some node := by
  obtain rfl := h.location_of_folderAt hfiles (h.isName hfolder) hlocation
  have hroot : original ++ (below ++ [name]) ≠ [] := by simp
  rw [List.append_assoc, ← h.find?_original hfiles]
  exact FileSystem.mem_entries_iff (hfiles.formed h.isTree.toWellFormed).nodup hroot

/-- What lies in a folder of the original is laid over what is there if each part of it is. -/
theorem ensures_copyListed (h : Copying base source target original copy) {fuel : Nat}
    (hfiles : Overlays base original copy base files)
    (hfolder : base.find? (original ++ below) = some .folder)
    (hmade : below ≠ [] → files.find? (copy ++ below) = some .folder)
    (hentry : ∀ name node current, Overlays base original copy base current →
      base.find? (original ++ (below ++ [name])) = some node →
      (copyBelow source target fuel (below ++ [name]) node).Ensures current fun result after =>
        Overlays base original copy current after ∧
          (result = .ok () → Copied base original copy (below ++ [name]) after)) :
    (copyListed source target fuel below).Ensures files fun result after =>
      Overlays base original copy files after ∧
        (result = .ok () → Copied base original copy below after) := by
  have heach := @ensures_copyListed_each files source target below (Overlays base original copy files)
    (fun name => Copied base original copy (below ++ [name])) fuel (.refl files)
  apply (heach ?_).mono
  · rintro result after ⟨hcopied, hall⟩
    refine ⟨hcopied, fun hok => ?_⟩
    obtain ⟨location, hlocation, hinside⟩ := hall hok
    apply h.copied_of_folder hfolder
    · intro hbelow
      rw [← hfolder]
      exact hcopied.find?_copy ((hmade hbelow).trans hfolder.symm)
    · exact fun name node hfound =>
        hinside name node ((h.mem_entries_iff hfiles hfolder hlocation).mpr hfound)
  · intro location hlocation name node hmem current hcurrent
    apply (hentry name node current (hfiles.trans hcurrent)
      ((h.mem_entries_iff hfiles hfolder hlocation).mp hmem)).mono
    rintro result after ⟨hcopied, hdone⟩
    exact ⟨hcurrent.trans hcopied, fun other hother => hother.overlays hcopied, hdone⟩

/-- Copying a part of the original lays it over what is there. If it succeeds, all of the part has
been copied. -/
theorem ensures_copyBelow (h : Copying base source target original copy) (fuel : Nat) {node : Node}
    (hfiles : Overlays base original copy base files)
    (hnode : base.find? (original ++ below) = some node) :
    (copyBelow source target fuel below node).Ensures files fun result after =>
      Overlays base original copy files after ∧
        (result = .ok () → Copied base original copy below after) := by
  -- what is there at each step lies over the same files as the one that copying the folder starts with
  induction fuel generalizing below node files with
  | zero => exact ⟨.refl files, nofun⟩
  | succ fuel ih =>
    cases node with
    | file contents =>
      apply (h.ensures_copyFile_below hfiles hnode).mono
      rintro result after ⟨hcopied, hdone⟩
      exact ⟨hcopied, fun hok => h.copied_of_file hnode (hdone hok)⟩
    | link text =>
      -- there is no link below the original, and the original itself is a folder
      by_cases hbelow : below = []
      · rw [hbelow, List.append_nil, h.isTree.find?_of_leadsTo h.leadsFrom] at hnode
        cases hnode
      · exact absurd hnode (h.linksFrom _ _ (isBelow_of_ne_nil hbelow original))
    | folder =>
      rw [copyBelow_folder]
      apply Edit.Ensures.bind (h.ensures_createFolders_below hfiles hnode)
      · rintro _ between ⟨hmade, hfolder⟩
        apply (h.ensures_copyListed (hfiles.trans hmade) hnode (hfolder rfl) ?_).mono
        · rintro result after ⟨hcopied, hdone⟩
          exact ⟨hmade.trans hcopied, hdone⟩
        · exact fun name node current hcurrent hfound => ih hcurrent hfound
      · rintro fault after ⟨hmade, -⟩
        exact ⟨hmade, nofun⟩

end Copying

end WorkingCopies.FileSystem
