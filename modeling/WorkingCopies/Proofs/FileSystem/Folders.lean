import WorkingCopies.Proofs.FileSystem.Grow
import WorkingCopies.Proofs.FileSystem.Onward

/-!
# Folders that are made

A folder that has been made with those above it is there: its path leads to a folder then. Where its
path led to a folder before, nothing happens, and where only the last name was missing, the folder is
made under that name. A path that can be given to the operating system has a folder whose path can be
given to it as well, unless that path is empty.
-/

namespace WorkingCopies

namespace Path

/-- What is left when idle pieces have been dropped ends with a piece that is not empty. -/
theorem ne_nil_of_dropIdle {isAbsolute : Bool} {pieces : List (List Char)} {last : List Char}
    {above : List (List Char)} (h : dropIdle isAbsolute pieces = last :: above) : last ≠ [] := by
  fun_induction dropIdle isAbsolute pieces with
  | case1 => cases h
  | case2 piece => cases h
  | case3 piece hpiece =>
    cases h
    rintro rfl
    simp at hpiece
  | case4 piece pieces _ _ ih => exact ih h
  | case5 piece pieces _ hpiece =>
    cases h
    rintro rfl
    simp at hpiece

/-- The text of a path is its pieces with slashes between them, behind the root if the path starts
there. -/
theorem toList_eq_piecesBehindRoot (path : Path) :
    path.text.toList = (if path.isAbsolute then ['/'] else []) ++
      ['/'].intercalate path.piecesBehindRoot := by
  have hall : ['/'].intercalate path.pieces = path.text.toList :=
    List.intercalate_splitOn '/'
  unfold piecesBehindRoot
  cases habsolute : path.isAbsolute with
  | false => simpa using hall.symm
  | true =>
    have hhead : path.text.toList.head? = some '/' := by simpa [isAbsolute] using habsolute
    obtain ⟨rest, hrest⟩ := List.head?_eq_some_iff.mp hhead
    have hpieces : path.pieces = [] :: rest.splitOn '/' := by
      rw [pieces, hrest, List.splitOn_cons_eq_if_modifyHead, if_pos (by decide)]
    rw [hpieces, hrest]
    show '/' :: rest = '/' :: ['/'].intercalate (rest.splitOn '/')
    rw [List.intercalate_splitOn]

/-- Pieces that others start with make a text that the text of the others starts with. -/
theorem intercalate_prefix {first all : List (List Char)} (h : first <+: all) :
    ['/'].intercalate first <+: ['/'].intercalate all := by
  induction first generalizing all with
  | nil => exact List.nil_prefix
  | cons piece first ih =>
    obtain ⟨rest, rfl⟩ := h
    cases first with
    | nil =>
      cases rest with
      | nil => exact List.prefix_refl _
      | cons next rest =>
        rw [List.cons_append, List.nil_append, List.intercalate_cons_cons, List.append_assoc]
        simp
    | cons next first =>
      rw [List.cons_append, List.cons_append, List.intercalate_cons_cons,
        List.intercalate_cons_cons, List.prefix_append_right_inj]
      exact ih (List.prefix_append _ _)

/-- The names on a path of pieces are the pieces that are not empty. -/
theorem names_of_toList {path : Path} {root : List Char} {pieces : List (List Char)}
    (hroot : root = [] ∨ root = ['/']) (hpieces : ∀ piece ∈ pieces, '/' ∉ piece)
    (htext : path.text.toList = root ++ ['/'].intercalate pieces) :
    path.names = (pieces.filter fun piece => !piece.isEmpty).map String.ofList := by
  rw [names_eq_namesIn, htext, ← namesIn_intercalate hpieces]
  rcases hroot with rfl | rfl <;> rfl

/-- The folder of a path has fewer names, and a text that the one of the path starts with. -/
theorem lt_of_parent? {path parent : Path} (h : path.parent? = some parent) :
    parent.names.length < path.names.length ∧ parent.text.toList <+: path.text.toList := by
  obtain ⟨last, above, hdropped, htext⟩ := exists_of_parent? h
  have hfront : (dropIdle path.isAbsolute above).reverse <+: above.reverse :=
    List.reverse_prefix.mpr (dropIdle_suffix _ _)
  have hall : above.reverse ++ [last] <+: path.piecesBehindRoot := by
    rw [← List.reverse_cons, ← hdropped, ← List.reverse_reverse path.piecesBehindRoot,
      List.reverse_prefix, List.reverse_reverse]
    exact dropIdle_suffix _ _
  have hpieces : (dropIdle path.isAbsolute above).reverse <+: path.piecesBehindRoot :=
    hfront.trans ((List.prefix_append _ _).trans hall)
  constructor
  · have hnames := names_of_toList (by split <;> simp) (fun piece hpiece =>
      not_mem_of_mem_piecesBehindRoot (hpieces.mem hpiece)) htext
    have hfewer := (hfront.filter fun piece => !piece.isEmpty).length_le
    have hmore := (hall.filter fun piece => !piece.isEmpty).length_le
    have hlast : last ≠ [] := ne_nil_of_dropIdle hdropped
    rw [hnames, names_eq_piecesBehindRoot, List.length_map, List.length_map]
    simp [hlast] at hfewer hmore ⊢
    omega
  · rw [htext, toList_eq_piecesBehindRoot, List.prefix_append_right_inj]
    exact intercalate_prefix hpieces

/-- Without its last name a path still has the names of its folder. -/
theorem names_prefix_of_parent? {path parent : Path} {front : List String} {name : String}
    (h : path.parent? = some parent) (hnames : path.names = front ++ [name]) :
    parent.names <+: front ∧ parent.isAbsolute = path.isAbsolute := by
  obtain ⟨hinitial, hsame⟩ := of_parent? h
  have hfewer := (lt_of_parent? h).1
  rw [hnames] at hinitial hfewer
  refine ⟨?_, hsame⟩
  rcases List.prefix_concat_iff.mp hinitial with hall | hfront
  · exact absurd (hall ▸ hfewer) (Nat.lt_irrefl _)
  · exact hfront

end Path

namespace FileSystem

variable {files after : FileSystem} {path parent : Path} {folder : Location} {name : String}

/-- The folder of a path can be given to the operating system if the path can, unless its path is
empty. -/
theorem checkPath_of_parent? (h : path.parent? = some parent) (hcheck : checkPath path = .ok ()) :
    parent.text = "" ∨ checkPath parent = .ok () := by
  obtain ⟨rest, hrest⟩ := (Path.lt_of_parent? h).2
  have htext : path.text = parent.text ++ String.ofList rest := by
    apply String.toList_injective
    rw [String.toList_append, String.toList_ofList, hrest]
  by_cases hempty : parent.text = ""
  · exact .inl hempty
  · right
    unfold checkPath at hcheck ⊢
    split at hcheck
    · cases hcheck
    · next hnul =>
      split at hcheck
      · cases hcheck
      · split at hcheck
        · cases hcheck
        · next hlong =>
          rw [htext, String.utf8ByteSize_append] at hlong
          have hclean : parent.text.toList.contains '\x00' = false := by
            simp [htext] at hnul
            simp [hnul]
          rw [hclean, if_neg (by simp), if_neg (by simpa using hempty), if_neg (by omega)]

/-- The last one of some names that are joined to a path lies in the folder that the others lead
to. -/
theorem LeadsTo.resolveParent_join {target : Path} {front : List String}
    (h : files.LeadsTo target folder)
    (hcheck : checkPath (target.join (relativePath (front ++ [name]))) = .ok ())
    (hproper : ∀ other ∈ front ++ [name], IsName other)
    (hshort : ∀ other ∈ front ++ [name], other.utf8ByteSize ≤ nameLimit)
    (hfolders : ∀ passed, passed ≠ [] → passed <+: front →
      files.find? (folder ++ passed) = some .folder) :
    files.resolveParent (target.join (relativePath (front ++ [name]))) =
      .ok (folder ++ front, some name) := by
  have hfront : ∀ other ∈ front, other ∈ front ++ [name] := fun other => List.mem_append_left _
  have hfrontProper : ∀ other ∈ front, IsName other := fun other hother =>
    hproper other (hfront other hother)
  obtain ⟨start, hstart, hwalk⟩ := h.join hfrontProper
    (fun other hother => hshort other (hfront other hother)) hfolders
  obtain ⟨hbefore, hsame⟩ := names_join_relativePath hfrontProper target
  obtain ⟨hnames, habsolute⟩ := names_join_relativePath hproper target
  rw [← List.append_assoc] at hnames
  have hname := hproper name (by simp)
  refine resolveParent_eq_ok_iff.mpr ⟨hcheck, ⟨start, ?_, ?_⟩, ?_, ?_⟩
  · rw [← hstart, origin, origin, habsolute, hsame]
  · rw [hnames, List.dropLast_concat, ← hbefore]
    exact hwalk
  · rw [lastName?_of_names hnames, if_neg (not_or.mpr ⟨hname.notHere, hname.notAbove⟩)]
  · rintro _ ⟨⟩
    exact Nat.not_lt.mpr (hshort name (by simp))

/-- The folder of the last name of a path is the same where folders and links are kept. -/
theorem KeepsWays.resolveParent_eq {name? : Option String} (hkeeps : files.KeepsWays after)
    (hsame : after.start = files.start)
    (h : files.resolveParent path = .ok (folder, name?)) :
    after.resolveParent path = .ok (folder, name?) := by
  obtain ⟨hcheck, ⟨start, hstart, hwalk⟩, hname⟩ := resolveParent_eq_ok_iff.mp h
  exact resolveParent_eq_ok_iff.mpr
    ⟨hcheck, ⟨start, hkeeps.origin_eq hsame hstart, walk_of_keepsWays hkeeps hwalk⟩, hname⟩

/-- A path whose last name lies in a folder leads on from there by that name. -/
theorem walk_of_resolveParent {purpose : Purpose} {needsFolder : Bool} (hpurpose : purpose ≠ .write)
    (h : files.resolveParent path = .ok (folder, some name)) :
    ∃ start left, files.origin path = .ok start ∧ LooksUp purpose name [] needsFolder ∧
      walk files purpose linkLimit start path.names needsFolder =
        walk files purpose left folder [name] needsFolder := by
  obtain ⟨-, ⟨start, hstart, hwalk⟩, hname, hshort⟩ := resolveParent_eq_ok_iff.mp h
  obtain ⟨hnames, hhere, habove⟩ := names_of_lastName? hname.symm
  obtain ⟨left, hleft⟩ := @walk_append files purpose linkLimit start folder _ [name] needsFolder
    hwalk nofun
  rw [hnames]
  exact ⟨start, left, hstart, ⟨hhere, habove, fun hwrite => hpurpose hwrite.1, hshort name rfl⟩, hleft⟩

/-- Where a folder lies under the last name of a path, the path leads to it. -/
theorem leadsTo_of_resolveParent (h : files.resolveParent path = .ok (folder, some name))
    (hfind : files.find? (folder ++ [name]) = some .folder) :
    files.LeadsTo path (folder ++ [name]) := by
  have hlook : Purpose.look ≠ .write := nofun
  obtain ⟨start, left, hstart, hlooks, hwalk⟩ := walk_of_resolveParent hlook h
  refine ⟨start, hstart, hwalk.trans ?_⟩
  rw [walk_of_looksUp hlooks, hfind]
  exact walk_nil

/-- Where nothing lies under the last name of a path, the path ends there. -/
theorem resolve_of_resolveParent (h : files.resolveParent path = .ok (folder, some name))
    (hfind : files.find? (folder ++ [name]) = none) :
    files.resolve .lookAtLink path = .ok (.absent folder name) := by
  have hlook : Purpose.lookAtLink ≠ .write := nofun
  obtain ⟨start, left, hstart, hlooks, hwalk⟩ := walk_of_resolveParent hlook h
  refine resolve_eq_ok_iff.mpr ⟨(resolveParent_eq_ok_iff.mp h).1, start, hstart, hwalk.trans ?_⟩
  rw [walk_of_looksUp hlooks, hfind]
  rfl

/-- A name on a way is no longer than it may be, unless it is dots. -/
theorem not_long_of_walk {links : Nat} {here : Location} {names : List String} {needsFolder : Bool}
    {place : Place} (hhere : name ≠ ".") (habove : name ≠ "..")
    (h : walk files .look links here (name :: names) needsFolder = .ok place) :
    ¬ name.utf8ByteSize > nameLimit := by
  intro hlong
  rw [walk_eq_follow, follow, if_neg hhere, if_neg habove, if_neg (by simp), if_pos hlong] at h
  cases h

/-- Where a path leads to a folder, its last name is taken. -/
theorem LeadsTo.resolveParent_eq (h : files.LeadsTo path folder) (hcheck : checkPath path = .ok ()) :
    ∃ above name?, files.resolveParent path = .ok (above, name?) ∧
      ∀ name, name? = some name → (files.find? (above ++ [name])).isSome = true := by
  obtain ⟨start, hstart, hwalk⟩ := h
  rcases path.names.eq_nil_or_concat with hnil | ⟨front, last, hnames⟩
  · refine ⟨start, none, ?_, nofun⟩
    refine resolveParent_eq_ok_iff.mpr ⟨hcheck, ⟨start, hstart, ?_⟩, ?_, nofun⟩
    · rw [hnil]
      exact walk_nil
    · rw [lastName?, hnil]
      rfl
  · rw [List.concat_eq_append] at hnames
    rw [hnames] at hwalk
    obtain ⟨left, above, hfirst, hlast⟩ := exists_walk_of_append (List.cons_ne_nil _ _) hwalk
    have hfront : walk files .look linkLimit start path.names.dropLast true =
        .ok (.present above .folder) := by
      rw [hnames, List.dropLast_concat]
      exact hfirst
    have hname := lastName?_of_names hnames
    by_cases hdots : last = "." ∨ last = ".."
    · rw [if_pos hdots] at hname
      exact ⟨above, none, resolveParent_eq_ok_iff.mpr
        ⟨hcheck, ⟨start, hstart, hfront⟩, hname.symm, nofun⟩, nofun⟩
    · rw [if_neg hdots] at hname
      obtain ⟨hhere, habove⟩ := not_or.mp hdots
      have hshort := not_long_of_walk hhere habove hlast
      refine ⟨above, some last, resolveParent_eq_ok_iff.mpr
        ⟨hcheck, ⟨start, hstart, hfront⟩, hname.symm, ?_⟩, ?_⟩
      · rintro _ ⟨⟩
        exact hshort
      · rintro _ ⟨⟩
        have hlooks : LooksUp .look last [] true := ⟨hhere, habove, by simp, hshort⟩
        rw [walk_of_looksUp hlooks] at hlast
        cases hfind : files.find? (above ++ [last]) with
        | some node => rfl
        | none =>
          rw [hfind] at hlast
          cases hlast

/-- Making a folder that is there does nothing. -/
theorem ensures_createFolders_of_leadsTo (h : files.LeadsTo path folder)
    (hcheck : path.text = "" ∨ checkPath path = .ok ()) :
    (createFolders path).Ensures files fun result after => result = .ok () ∧ after = files := by
  unfold createFolders createFoldersOn
  split
  · exact ⟨rfl, rfl⟩
  · next hempty =>
    have hcheck : checkPath path = .ok () := by simpa [show path.text ≠ "" by simpa using hempty]
      using hcheck
    have hmake : (makeFolder path).Ensures files fun result after =>
        result = .error .alreadyExists ∧ after = files := by
      obtain ⟨above, name?, hparent, htaken⟩ := h.resolveParent_eq hcheck
      apply Edit.Ensures.bind_ask
      · intro answer hanswer
        rw [hparent] at hanswer
        cases hanswer
        cases name? with
        | none => exact ⟨rfl, rfl⟩
        | some name =>
          apply Edit.Ensures.bind_get
          rw [if_pos (htaken name rfl)]
          exact ⟨rfl, rfl⟩
      · intro fault hfault
        rw [hparent] at hfault
        cases hfault
    apply Edit.Ensures.tryCatch hmake
    · rintro _ _ ⟨⟨⟩, -⟩
    · rintro _ _ ⟨⟨⟩, rfl⟩
      apply Edit.Ensures.bind_get
      rw [if_pos (isFolder_iff.mpr ⟨folder, h.folderAt_eq hcheck⟩)]
      exact ⟨rfl, rfl⟩

/-- A folder whose last name alone is missing is made under that name. -/
theorem ensures_createFolders_of_none (hempty : path.text ≠ "")
    (hparent : files.resolveParent path = .ok (folder, some name))
    (hnone : files.find? (folder ++ [name]) = none) :
    (createFolders path).Ensures files fun result after =>
      result = .ok () ∧ after = files.put (folder ++ [name]) .folder := by
  unfold createFolders createFoldersOn
  rw [if_neg (by simpa using hempty)]
  have hmake : (makeFolder path).Ensures files fun result after =>
      result = .ok () ∧ after = files.put (folder ++ [name]) .folder := by
    apply Edit.Ensures.bind_ask
    · intro answer hanswer
      rw [hparent] at hanswer
      cases hanswer
      apply Edit.Ensures.bind_get
      rw [hnone]
      exact ⟨rfl, rfl⟩
    · intro fault hfault
      rw [hparent] at hfault
      cases hfault
  apply Edit.Ensures.tryCatch hmake
  · exact fun _ _ hmade => hmade
  · rintro _ _ ⟨⟨⟩, -⟩

/-- Where a folder has been made under the last name of a path, the path leads to it. -/
theorem leadsTo_put_folder (hparent : files.resolveParent path = .ok (folder, some name))
    (hnone : files.find? (folder ++ [name]) = none) :
    (files.put (folder ++ [name]) .folder).LeadsTo path (folder ++ [name]) := by
  have hgrows : Grows (fun _ => False) files (files.put (folder ++ [name]) .folder) :=
    .put_folder (·.isPlace_resolveParent hparent) hnone
  apply leadsTo_of_resolveParent (hgrows.keepsWays.resolveParent_eq hgrows.start hparent)
  rw [find?_put _ _ _ _ (ne_root_of_none hnone), if_pos rfl]

/-- A folder that has been made is there. -/
theorem ensures_makeFolder_leadsTo (path : Path) :
    (makeFolder path).Ensures files fun result after =>
      result = .ok () → ∃ folder, after.LeadsTo path folder := by
  apply Edit.Ensures.bind_ask
  · rintro ⟨above, name?⟩ hparent
    cases name? with
    | none => exact nofun
    | some name =>
      apply Edit.Ensures.bind_get
      split
      · exact nofun
      · next hnot =>
        have hnone : files.find? (above ++ [name]) = none := by simpa using hnot
        exact Edit.Ensures.put fun _ => ⟨above ++ [name], leadsTo_put_folder hparent hnone⟩
  · exact fun _ _ => nofun

/-- A path that leads to a folder leads to one. -/
theorem exists_leadsTo_of_isFolder (h : files.isFolder path = true) :
    ∃ folder, files.LeadsTo path folder := by
  obtain ⟨folder, hfolder⟩ := isFolder_iff.mp h
  exact ⟨folder, leadsTo_of_folderAt hfolder⟩

/-- A folder that has been made with those above it is there. -/
theorem ensures_createFoldersOn_leadsTo (fuel : Nat) (path : Path) :
    (createFoldersOn fuel path).Ensures files fun result after =>
      result = .ok () → path.text = "" ∨ ∃ folder, after.LeadsTo path folder := by
  have hthere {between : FileSystem} (fault : Fault) :
      Edit.Ensures (do unless (← get).isFolder path do throw fault) between fun result after =>
        result = .ok () → ∃ folder, after.LeadsTo path folder := by
    apply Edit.Ensures.bind_get
    split
    · next hfolder => exact fun _ => exists_leadsTo_of_isFolder hfolder
    · rintro ⟨⟩
  have hensure {between : FileSystem} : (ensureFolder path).Ensures between fun result after =>
      result = .ok () → ∃ folder, after.LeadsTo path folder :=
    Edit.Ensures.tryCatch (ensures_makeFolder_leadsTo path) (fun _ _ hmade => hmade)
      fun fault _ _ => hthere fault
  cases fuel with
  | zero => rintro ⟨⟩
  | succ fuel =>
    unfold createFoldersOn
    split
    · next hempty => exact fun _ => .inl (by simpa using hempty)
    · apply Edit.Ensures.tryCatch (ensures_makeFolder_leadsTo path)
      · exact fun _ _ hmade hok => .inr (hmade hok)
      · intro fault between _
        split
        · split
          · next above _ =>
            have habove : (createFoldersOn fuel above).Ensures between fun _ _ => True := trivial
            apply Edit.Ensures.bind habove
            · exact fun _ _ _ => hensure.mono fun _ _ hmade hok => .inr (hmade hok)
            · rintro _ _ _ ⟨⟩
          · rintro ⟨⟩
        · exact (hthere fault).mono fun _ _ hmade hok => .inr (hmade hok)

/-- A folder that has been made with those above it is there. -/
theorem ensures_createFolders_leadsTo (path : Path) :
    (createFolders path).Ensures files fun result after =>
      result = .ok () → path.text = "" ∨ ∃ folder, after.LeadsTo path folder :=
  ensures_createFoldersOn_leadsTo _ path

/-- Making a folder in a folder where nothing was keeps a tree one. -/
theorem IsTree.put_folder (h : files.IsTree) (hplace : IsPlace (folder ++ [name]))
    (hfolder : files.find? folder = some .folder) (hnone : files.find? (folder ++ [name]) = none) :
    (files.put (folder ++ [name]) .folder).IsTree := by
  have hgrows : Grows (fun _ => False) files (files.put (folder ++ [name]) .folder) :=
    .put_folder (fun _ => hplace) hnone
  refine ⟨hgrows.formed h.toWellFormed, fun location last node hnode => ?_⟩
  rw [find?_put _ _ _ _ (ne_root_of_none hnone)] at hnode
  split at hnode
  · next hsame =>
    obtain ⟨rfl, -⟩ := List.append_inj' hsame rfl
    exact hgrows.find?_of_not id hfolder
  · exact hgrows.find?_of_not id (h.inFolder _ _ _ hnode)

/-- Making a folder and those above it keeps a tree one. -/
theorem ensures_createFolders_isTree (path : Path) (h : files.IsTree) :
    (createFolders path).Ensures files fun _ after => after.IsTree := by
  apply ensures_createFoldersOn_of _ h
  intro above _ between hbetween
  apply (ensures_makeFolder_put above).mono
  intro _ after hmade
  rcases hmade with rfl | ⟨parent, name, hparent, hnone, rfl⟩
  · exact hbetween
  · obtain ⟨-, ⟨start, hstart, hwalk⟩, -⟩ := resolveParent_eq_ok_iff.mp hparent
    exact hbetween.put_folder (hbetween.isPlace_resolveParent hparent)
      (hbetween.find?_of_walk (IsTree.find?_origin hstart) hwalk) hnone

end FileSystem

end WorkingCopies
