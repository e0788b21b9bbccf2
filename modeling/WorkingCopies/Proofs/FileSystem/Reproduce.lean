import WorkingCopies.Proofs.FileSystem.FolderCopy

/-!
# What copying a folder reproduces

A folder without links that is copied to an empty place, and none of whose paths is too long, is
reproduced there. A link in it never is: a link to a file is copied as a file with the same bytes, and
copying ends with a fault at one that leads to a folder or nowhere.
-/

namespace WorkingCopies.FileSystem

variable {base files after made : FileSystem} {source target path : Path} {original copy : Location}
  {below front : List String} {name : String}

/-- Whether the paths of all that lies in a folder, and of what it is copied to, can be given to the
operating system. -/
def Fits (files : FileSystem) (source target : Path) (original : Location) : Prop :=
  ∀ below node, below ≠ [] → files.find? (original ++ below) = some node →
    checkPath (pathBelow source below) = .ok () ∧
      checkPath (target.join (relativePath below)) = .ok () ∧
      ∀ name ∈ below, name.utf8ByteSize ≤ nameLimit

/-- A path that can be given to the operating system has no more names than a path may have bytes. -/
theorem length_names_le_of_checkPath (h : checkPath path = .ok ()) :
    path.names.length ≤ pathLimit := by
  have hnames := path.length_names_le
  unfold checkPath at h
  split at h
  · cases h
  · split at h
    · cases h
    · split at h
      · cases h
      · omega

/-- A path that can be given to the operating system is not empty. -/
theorem text_ne_of_checkPath (h : checkPath path = .ok ()) : path.text ≠ "" := by
  intro hempty
  rw [checkPath, hempty] at h
  cases h

/-- A name that is looked up last is missing if its place is empty. -/
theorem walk_name_of_none {purpose : Purpose} {links : Nat} {here : Location} (hname : IsName name)
    (hshort : name.utf8ByteSize ≤ nameLimit) (hnone : files.find? (here ++ [name]) = none) :
    walk files purpose links here [name] false = .ok (.absent here name) := by
  have hlooks : LooksUp purpose name [] false :=
    ⟨hname.notHere, hname.notAbove, by simp, Nat.not_lt.mpr hshort⟩
  rw [walk_of_looksUp hlooks, hnone]
  rfl

/-- A name that is looked up last is that of the file in its place. -/
theorem walk_name_of_file {purpose : Purpose} {links : Nat} {here : Location} {contents : Bytes}
    (hname : IsName name) (hshort : name.utf8ByteSize ≤ nameLimit)
    (hfile : files.find? (here ++ [name]) = some (.file contents)) :
    walk files purpose links here [name] false =
      .ok (.present (here ++ [name]) (.file contents)) := by
  have hlooks : LooksUp purpose name [] false :=
    ⟨hname.notHere, hname.notAbove, by simp, Nat.not_lt.mpr hshort⟩
  rw [walk_of_looksUp hlooks, hfile]
  rfl

/-- Where the folder of a path is there, it need not be made. -/
theorem ensures_createParent_of_leadsTo {above : Path} {folder : Location}
    (h : files.LeadsTo above folder) (hnames : path.names = above.names ++ [name])
    (habsolute : path.isAbsolute = above.isAbsolute) (hcheck : checkPath path = .ok ()) :
    (createParent path).Ensures files fun result after => result = .ok () ∧ after = files := by
  unfold createParent
  split
  · next parent hparent =>
    obtain ⟨hinitial, hsame⟩ := Path.names_prefix_of_parent? hparent hnames
    obtain ⟨place, hleads⟩ := h.exists_of_prefix hinitial (hsame.trans habsolute)
    exact ensures_createFolders_of_leadsTo hleads (checkPath_of_parent? hparent hcheck)
  · exact ⟨rfl, rfl⟩

namespace Copying

/-- A counterpart of what lies in the original is empty as long as it has not been copied. -/
theorem find?_copy_cases (hfiles : Overlays base original copy base files)
    (hempty : ∀ below, below ≠ [] → base.find? (copy ++ below) = none) (hbelow : below ≠ []) :
    files.find? (copy ++ below) = none ∨
      files.find? (copy ++ below) = base.find? (original ++ below) := by
  by_cases hsame : files.find? (copy ++ below) = base.find? (copy ++ below)
  · exact .inl (hsame.trans (hempty below hbelow))
  · exact .inr (hfiles.find?_of_changed hsame)

section Steps

variable (h : Copying base source target original copy) (hfits : base.Fits source target original)
  (hempty : ∀ below, below ≠ [] → base.find? (copy ++ below) = none)
  (hfiles : Overlays base original copy base files)
  (habove : ∀ passed, passed ≠ [] → passed <+: front → files.find? (copy ++ passed) = some .folder)
include h hfits hempty hfiles habove

/-- A folder of the original is made, if those that it lies in have been. -/
theorem ensures_createFolders_ok
    (hfolder : base.find? (original ++ (front ++ [name])) = some .folder) :
    (createFolders (target.join (relativePath (front ++ [name])))).Ensures files
      fun result _ => result = .ok () := by
  have hproper := h.isName hfolder
  have hbelow : front ++ [name] ≠ [] := by simp
  obtain ⟨-, hcheck, hshort⟩ := hfits _ _ hbelow hfolder
  have hparent := (hfiles.leadsTo h.leadsInto).resolveParent_join hcheck hproper hshort habove
  rcases find?_copy_cases hfiles hempty hbelow with hnone | hthere
  · rw [← List.append_assoc] at hnone
    apply (ensures_createFolders_of_none (text_ne_of_checkPath hcheck) hparent hnone).mono
    exact fun _ _ hmade => hmade.1
  · rw [hfolder, ← List.append_assoc] at hthere
    apply (ensures_createFolders_of_leadsTo (leadsTo_of_resolveParent hparent hthere)
      (.inr hcheck)).mono
    exact fun _ _ hmade => hmade.1

/-- The bytes of a file of the original are copied, if the folders that it lies in have been made. -/
theorem ensures_copyBytes_ok {contents : Bytes}
    (hfile : base.find? (original ++ (front ++ [name])) = some (.file contents)) :
    (copyBytes (pathBelow source (front ++ [name]))
      (target.join (relativePath (front ++ [name])))).Ensures files
      fun result _ => result = .ok () := by
  have hproper := h.isName hfile
  have hname : IsName name := hproper name (by simp)
  have hbelow : front ++ [name] ≠ [] := by simp
  obtain ⟨hfound, hcheck, hshort⟩ := hfits _ _ hbelow hfile
  have hlast := hshort name (by simp)
  apply (ensures_copyBytes _ _).mono
  intro result after hcopies
  cases hcopies with
  | copied => rfl
  | refused fault hrefused =>
    -- the file is found, and nothing but a file can be in the place of its copy
    have hinside : ∀ passed, passed ≠ [] → passed <+: front →
        files.find? (original ++ passed) = some .folder := fun passed _ hpassed =>
      (h.find?_original hfiles passed).trans (h.find?_above hfile hpassed)
    obtain ⟨hlook, hsame⟩ := names_pathBelow source hproper
    obtain ⟨left, hsource⟩ := (hfiles.leadsTo h.leadsFrom).resolve_below hfound hlook hsame
      hproper hshort hinside
    have hbytes : files.find? (original ++ front ++ [name]) = some (.file contents) := by
      rw [List.append_assoc, h.find?_original hfiles, hfile]
    rw [endsInSlash_pathBelow source hname, walk_name_of_file hname hlast hbytes] at hsource
    obtain ⟨hnames, habsolute⟩ := names_join_relativePath hproper target
    obtain ⟨rest, htarget⟩ := (hfiles.leadsTo h.leadsInto).resolve_below hcheck hnames habsolute
      hproper hshort habove
    rw [endsInSlash_join_relativePath target hbelow hproper] at htarget
    have hthere := find?_copy_cases hfiles hempty hbelow
    rw [hfile, ← List.append_assoc] at hthere
    rcases hthere with hnone | hcopied
    · rw [walk_name_of_none hname hlast hnone] at htarget
      exact (hrefused _ _ _ hsource htarget nofun).elim
    · rw [walk_name_of_file hname hlast hcopied] at htarget
      refine (hrefused _ _ _ hsource htarget ?_).elim
      rintro _ ⟨⟩
      exact ⟨contents, rfl⟩

/-- A file of the original is copied, if the folders that it lies in have been made. -/
theorem ensures_copyFile_ok {contents : Bytes}
    (hfile : base.find? (original ++ (front ++ [name])) = some (.file contents)) :
    (copyFile (pathBelow source (front ++ [name]))
      (target.join (relativePath (front ++ [name])))).Ensures files
      fun result _ => result = .ok () := by
  have hproper := h.isName hfile
  have hfront : ∀ other ∈ front, IsName other := fun other hother =>
    hproper other (List.mem_append_left _ hother)
  obtain ⟨-, hcheck, hshort⟩ := hfits _ _ (by simp) hfile
  have hleads := (hfiles.leadsTo h.leadsInto).join hfront
    (fun other hother => hshort other (List.mem_append_left _ hother)) habove
  obtain ⟨hnames, habsolute⟩ := names_join_relativePath hproper target
  obtain ⟨hbefore, hsame⟩ := names_join_relativePath hfront target
  rw [← List.append_assoc, ← hbefore] at hnames
  rw [copyFile_eq]
  apply Edit.Ensures.bind
    (ensures_createParent_of_leadsTo hleads hnames (habsolute.trans hsame.symm) hcheck)
  · rintro _ between ⟨-, rfl⟩
    exact h.ensures_copyBytes_ok hfits hempty hfiles habove hfile
  · rintro fault after ⟨⟨⟩, -⟩

end Steps

/-- What lies in a folder of the original is copied if each part of it is. -/
theorem ensures_copyListed_ok (h : Copying base source target original copy) {fuel : Nat}
    (hfiles : Overlays base original copy base files)
    (hfolder : base.find? (original ++ below) = some .folder)
    (hlisted : files.folderAt (pathBelow source below) = .ok (original ++ below))
    (hmade : ∀ passed, passed ≠ [] → passed <+: below → files.find? (copy ++ passed) = some .folder)
    (hentry : ∀ name node current, Overlays base original copy base current →
      (∀ passed, passed ≠ [] → passed <+: below → current.find? (copy ++ passed) = some .folder) →
      base.find? (original ++ (below ++ [name])) = some node →
      (copyBelow source target fuel (below ++ [name]) node).Ensures current
        fun result _ => result = .ok ()) :
    (copyListed source target fuel below).Ensures files fun result _ => result = .ok () := by
  apply @ensures_copyListed_of_ok files source target below (fun current =>
    Overlays base original copy base current ∧
      ∀ passed, passed ≠ [] → passed <+: below → current.find? (copy ++ passed) = some .folder)
    fuel _ ⟨hfiles, hmade⟩ hlisted
  rintro name node hmem current ⟨hcurrent, hfolders⟩
  have hnode := (h.mem_entries_iff hfiles hfolder hlisted).mp hmem
  have hcopied : (copyBelow source target fuel (below ++ [name]) node).Ensures current _ :=
    h.ensures_copyBelow fuel hcurrent hnode
  refine ⟨hentry name node current hcurrent hfolders hnode, hcurrent.trans hcopied.1, ?_⟩
  intro passed hne hpassed
  exact hcopied.1.keepsWays _ _ (hfolders passed hne hpassed) (by simp)

/-- A folder of the original is listed where it is. -/
theorem folderAt_pathBelow (h : Copying base source target original copy)
    (hfits : base.Fits source target original) (hfiles : Overlays base original copy base files)
    (hbelow : below ≠ []) (hfolder : base.find? (original ++ below) = some .folder) :
    files.folderAt (pathBelow source below) = .ok (original ++ below) := by
  have hproper := h.isName hfolder
  obtain ⟨hcheck, -, hshort⟩ := hfits below _ hbelow hfolder
  have hfolders : ∀ passed, passed ≠ [] → passed <+: below →
      files.find? (original ++ passed) = some .folder := by
    intro passed _ hpassed
    rw [h.find?_original hfiles]
    exact h.isTree.find?_of_prefix hfolder ((List.prefix_append_right_inj original).mpr hpassed)
  have hleads := (hfiles.leadsTo h.leadsFrom).join hproper hshort hfolders
  obtain ⟨hnames, habsolute⟩ := names_pathBelow source hproper
  obtain ⟨hjoined, hsame⟩ := names_join_relativePath hproper source
  exact (hleads.of_names (hnames.trans hjoined.symm) (habsolute.trans hsame.symm)).folderAt_eq hcheck

/-- All that lies in the original is copied, however deep it is. -/
theorem ensures_copyBelow_ok (h : Copying base source target original copy)
    (hfits : base.Fits source target original)
    (hempty : ∀ below, below ≠ [] → base.find? (copy ++ below) = none) (fuel : Nat)
    (hfuel : pathLimit + 1 ≤ (front ++ [name]).length + fuel)
    (hfiles : Overlays base original copy base files) {node : Node}
    (habove : ∀ passed, passed ≠ [] → passed <+: front →
      files.find? (copy ++ passed) = some .folder)
    (hnode : base.find? (original ++ (front ++ [name])) = some node) :
    (copyBelow source target fuel (front ++ [name]) node).Ensures files
      fun result _ => result = .ok () := by
  have hbelow : front ++ [name] ≠ [] := by simp
  induction fuel generalizing front name node files with
  | zero =>
    -- what is found lies less deep than a path has bytes
    have hlength := length_names_le_of_checkPath (hfits _ node hbelow hnode).1
    rw [(names_pathBelow source (h.isName hnode)).1, List.length_append] at hlength
    omega
  | succ fuel ih =>
    cases node with
    | file contents => exact h.ensures_copyFile_ok hfits hempty hfiles habove hnode
    | link text =>
      exact absurd hnode (h.linksFrom _ _ (isBelow_of_ne_nil hbelow original))
    | folder =>
      have hmade : (createFolders (target.join (relativePath (front ++ [name])))).Ensures files
          fun result after => result = .ok () ∧ Overlays base original copy files after ∧
            (result = .ok () → front ++ [name] ≠ [] →
              after.find? (copy ++ (front ++ [name])) = some .folder) :=
        ⟨h.ensures_createFolders_ok hfits hempty hfiles habove hnode,
          h.ensures_createFolders_below hfiles hnode⟩
      rw [copyBelow_folder]
      apply Edit.Ensures.bind hmade
      · rintro _ between ⟨-, hmore, hfolder⟩
        have hbetween := hfiles.trans hmore
        have hfolders : ∀ passed, passed ≠ [] → passed <+: front ++ [name] →
            between.find? (copy ++ passed) = some .folder := by
          intro passed hne hpassed
          rcases List.prefix_concat_iff.mp hpassed with rfl | hfront
          · exact hfolder rfl hbelow
          · exact hmore.keepsWays _ _ (habove passed hne hfront) (by simp)
        apply h.ensures_copyListed_ok hbetween hnode
          (h.folderAt_pathBelow hfits hbetween hbelow hnode) hfolders
        intro last node current hcurrent hinside hfound
        apply ih _ hcurrent hinside hfound (by simp)
        simp only [List.length_append, List.length_singleton] at hfuel ⊢
        omega
      · rintro fault after ⟨⟨⟩, -⟩

end Copying

/-- Copying what lies in the original to an empty place reproduces it there. -/
theorem ensures_copyListed_reproduces (h : Copying made source target original copy)
    (hfits : made.Fits source target original)
    (hempty : ∀ below, below ≠ [] → made.find? (copy ++ below) = none)
    (hlisted : made.folderAt source = .ok original) :
    (copyListed source target pathLimit []).Ensures made fun result after =>
      result = .ok () ∧ ∀ below, after.find? (copy ++ below) = made.find? (original ++ below) := by
  have hfolder : made.find? (original ++ []) = some .folder := by
    rw [List.append_nil]
    exact h.isTree.find?_of_leadsTo h.leadsFrom
  have hok : (copyListed source target pathLimit []).Ensures made fun result _ =>
      result = .ok () := by
    apply h.ensures_copyListed_ok (.refl made) hfolder (by rwa [List.append_nil])
    · exact fun passed hne hpassed => absurd (List.prefix_nil.mp hpassed) hne
    · intro name node current hcurrent _ hnode
      have hfuel : pathLimit + 1 ≤ ([] ++ [name]).length + pathLimit :=
        Nat.le_of_eq (Nat.add_comm pathLimit 1)
      apply h.ensures_copyBelow_ok hfits hempty pathLimit hfuel hcurrent _ hnode
      exact fun passed hne hpassed => absurd (List.prefix_nil.mp hpassed) hne
  have hcopied : (copyListed source target pathLimit []).Ensures made _ :=
    h.ensures_copyListed (.refl made) hfolder (absurd rfl) fun name node current hcurrent hnode =>
      h.ensures_copyBelow pathLimit hcurrent hnode
  obtain ⟨hover, hdone⟩ := hcopied
  refine ⟨hok, fun below => ?_⟩
  by_cases hbelow : below = []
  · subst hbelow
    -- the folder itself is not copied but made before
    rw [hfolder, List.append_nil]
    exact hover.keepsWays _ _ (h.isTree.find?_of_leadsTo h.leadsInto) (by simp)
  · cases hnode : made.find? (original ++ below) with
    | some node => exact hdone hok below node hbelow hnode
    | none =>
      rcases Copying.find?_copy_cases hover hempty hbelow with hnone | hsame
      · exact hnone
      · rw [hsame, hnode]

/-- No link comes up where a folder is copied to, so a folder that is reproduced has none in it. -/
theorem hasNoLinks_of_reproduced (hformed : files.WellFormed)
    (hmade : (createFolders (target.join (relativePath []))).outcome files = (.ok (), made))
    (hgrows : Grows (fun _ => False) files made) (htarget : made.LeadsTo target copy)
    (hnone : made.HasNoLinks copy)
    (hsame : ∀ below, ((copyFolder source target).outcome files).2.find? (copy ++ below) =
      made.find? (original ++ below)) : files.HasNoLinks original := by
  intro location text hbelow hlink
  obtain ⟨⟨below, rfl⟩, hne⟩ := isBelow_iff.mp hbelow
  have hbelow : below ≠ [] := fun hnil => hne (by simp [hnil])
  have hinto : files.CopiesInto target copy := by
    intro other hother
    rw [hmade] at hother
    cases hother
    exact ⟨htarget, hnone⟩
  have hcopied : (copyFolder source target).Ensures files fun _ after =>
      Grows (copy <+: ·) files after := ensures_copyFolder hformed hinto
  refine hcopied.hasNoLinks (hgrows.hasNoLinks_before hnone) (copy ++ below) text
    (isBelow_of_ne_nil hbelow copy) ?_
  rw [hsame below]
  exact hgrows.find?_of_not id hlink

/-- A folder whose path is not that of a link is copied to a place outside it that is empty once it has
been made, and the paths of all that lies in it can be given to the operating system. Copying it
succeeds and reproduces it exactly if no link lies in it. -/
theorem copyFolder_reproduces_iff (htree : files.IsTree)
    (hsource : files.resolve .lookAtLink source = .ok (.present original .folder))
    (hmade : (createFolders (target.join (relativePath []))).outcome files = (.ok (), made))
    (htarget : made.LeadsTo target copy)
    (hempty : ∀ below, below ≠ [] → made.find? (copy ++ below) = none)
    (houtside : ¬ original <+: copy) (hfits : made.Fits source target original) :
    (((copyFolder source target).outcome files).1 = .ok () ∧
      ∀ below, ((copyFolder source target).outcome files).2.find? (copy ++ below) =
        made.find? (original ++ below)) ↔ files.HasNoLinks original := by
  have hgrows : (createFolders (target.join (relativePath []))).Ensures files fun _ between =>
      Grows (fun _ => False) files between := ensures_createFolders _
  have hmadeTree : (createFolders (target.join (relativePath []))).Ensures files _ :=
    ensures_createFolders_isTree _ htree
  unfold Edit.Ensures at hgrows hmadeTree
  rw [hmade] at hgrows hmadeTree
  have hnone : made.HasNoLinks copy := by
    intro location text hbelow hlink
    obtain ⟨⟨below, rfl⟩, hne⟩ := isBelow_iff.mp hbelow
    rw [hempty below fun hnil => hne (by simp [hnil])] at hlink
    cases hlink
  constructor
  · rintro ⟨-, hsame⟩
    exact hasNoLinks_of_reproduced htree.toWellFormed hmade hgrows htarget hnone hsame
  · intro hlinks
    have hlisted := hgrows.folderAt_eq (folderAt_of_lookAtLink hsource)
    have hleads := leadsTo_of_folderAt hlisted
    have hfrom : ¬ copy <+: original := by
      rintro ⟨more, rfl⟩
      have hmore : more ≠ [] := by
        rintro rfl
        exact houtside (by simp)
      have hthere := hmadeTree.find?_of_leadsTo hleads
      rw [hempty more hmore] at hthere
      cases hthere
    have hcopying : Copying made source target original copy :=
      ⟨hmadeTree, hleads, htarget, hgrows.hasNoLinks hlinks, hnone, houtside, hfrom⟩
    rw [outcome_copyFolder hsource, copyBelow_folder, Edit.outcome_bind, hmade]
    exact ensures_copyListed_reproduces hcopying hfits hempty hlisted

/-- A folder that has a file in it, and a folder with another file, is reproduced. -/
theorem copyFolder_reproduces_nested_folder :
    let files : FileSystem := { entries := [(["s"], .folder), (["s", "x"], .file [1]),
      (["s", "d"], .folder), (["s", "d", "y"], .file [2])] }
    let made : FileSystem := files.put ["t"] .folder
    files.IsTree ∧ files.resolve .lookAtLink ⟨"/s"⟩ = .ok (.present ["s"] .folder) ∧
      (createFolders (Path.join ⟨"/t"⟩ (relativePath []))).outcome files = (.ok (), made) ∧
      made.LeadsTo ⟨"/t"⟩ ["t"] ∧ (∀ below, below ≠ [] → made.find? (["t"] ++ below) = none) ∧
      ¬ ["s"] <+: ["t"] ∧ made.Fits ⟨"/s"⟩ ⟨"/t"⟩ ["s"] ∧ files.HasNoLinks ["s"] ∧
      ((copyFolder ⟨"/s"⟩ ⟨"/t"⟩).outcome files).1 = .ok () ∧
      ((copyFolder ⟨"/s"⟩ ⟨"/t"⟩).outcome files).2.find? ["t", "d", "y"] = some (.file [2]) ∧
      ∀ below, ((copyFolder ⟨"/s"⟩ ⟨"/t"⟩).outcome files).2.find? (["t"] ++ below) =
        made.find? (["s"] ++ below) := by
  intro files made
  have htree : files.IsTree := by decide
  have hsource : files.resolve .lookAtLink ⟨"/s"⟩ = .ok (.present ["s"] .folder) := rfl
  have hmade : (createFolders (Path.join ⟨"/t"⟩ (relativePath []))).outcome files =
      (.ok (), made) := rfl
  have htarget : made.LeadsTo ⟨"/t"⟩ ["t"] := leadsTo_of_folderAt rfl
  have hempty : ∀ below, below ≠ [] → made.find? (["t"] ++ below) = none := by
    rintro (_ | ⟨name, below⟩) hbelow
    · exact absurd rfl hbelow
    · simp [made, files, put, find?, List.lookup_cons]
  have houtside : ¬ ["s"] <+: ["t"] := by decide
  have hfits : made.Fits ⟨"/s"⟩ ⟨"/t"⟩ ["s"] := by
    intro below node hbelow hnode
    rcases mem_of_find? hnode with ⟨⟨⟩, -⟩ | hmem
    have hentry : below = ["x"] ∧ node = .file [1] ∨ below = ["d"] ∧ node = .folder ∨
        below = ["d", "y"] ∧ node = .file [2] := by
      simpa [made, files, put, hbelow] using hmem
    rcases hentry with ⟨rfl, -⟩ | ⟨rfl, -⟩ | ⟨rfl, -⟩ <;> exact ⟨rfl, rfl, by decide⟩
  have hlinks : files.HasNoLinks ["s"] := hasNoLinks_of_entries (by simp [files])
  obtain ⟨hdone, hsame⟩ :=
    (copyFolder_reproduces_iff htree hsource hmade htarget hempty houtside hfits).mpr hlinks
  exact ⟨htree, hsource, hmade, htarget, hempty, houtside, hfits, hlinks, hdone,
    (hsame ["d", "y"]).trans rfl, hsame⟩

/-- A link to a file is copied as that file, and copying ends with a fault at a link to a folder and at
one that leads nowhere. -/
theorem copyFolder_follows_links :
    let files (text : String) : FileSystem := { entries := [(["s"], .folder),
      (["s", "l"], .link text), (["x"], .file [1]), (["y"], .folder)] }
    let copied (text : String) : Except Fault Unit × FileSystem :=
      (copyFolder ⟨"/s"⟩ ⟨"/t"⟩).outcome (files text)
    (∀ text ∈ ["/x", "/y", "/z"], (files text).IsTree ∧
      (files text).find? ["s", "l"] = some (.link text) ∧ (files text).find? ["t"] = none) ∧
      (copied "/x").1 = .ok () ∧ (copied "/x").2.find? ["t", "l"] = some (.file [1]) ∧
      (copied "/y").1 = .error .notRegular ∧ (copied "/z").1 = .error .noSuchEntry := by
  intro files copied
  have hcontents (text : String) :
      ((files text).put ["t"] .folder).contents ["s"] = [("l", .link text)] := by
    simp [files, put, contents, nameIn?]
  have hlisted (text : String) : copied text =
      (copyListed ⟨"/s"⟩ ⟨"/t"⟩ pathLimit []).outcome ((files text).put ["t"] .folder) := by
    have hmade : (createFolders (Path.join ⟨"/t"⟩ (relativePath []))).outcome (files text) =
        (.ok (), (files text).put ["t"] .folder) := rfl
    show (copyFolder ⟨"/s"⟩ ⟨"/t"⟩).outcome (files text) = _
    rw [@outcome_copyFolder (files text) ⟨"/s"⟩ ⟨"/t"⟩ ["s"] rfl, copyBelow_folder,
      Edit.outcome_bind, hmade]
  refine ⟨by decide, ?_, ?_, ?_, ?_⟩
  all_goals
    rw [hlisted, outcome_copyListed rfl (hcontents _)]
    rfl

end WorkingCopies.FileSystem
