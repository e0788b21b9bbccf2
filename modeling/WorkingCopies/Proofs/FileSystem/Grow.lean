import WorkingCopies.Proofs.FileSystem.Edit
import WorkingCopies.Proofs.FileSystem.Lexical

/-!
# Files that grow

Folders are made where nothing was, and files are written where nothing but a file was. A file system
that grows in this way keeps all its folders and links, so paths lead where they led before, and all
its files that are not written over.
-/

namespace WorkingCopies.FileSystem

variable {written : Location → Prop} {files between after : FileSystem} {location : Location}

/-- Where nothing lies is not at the root. -/
theorem ne_root_of_none (hnone : files.find? location = none) : location ≠ [] := by
  rintro rfl
  cases hnone

/-- Where nothing but a file lies is not at the root. -/
theorem ne_root_of_only_file
    (honly : ∀ node, files.find? location = some node → ∃ contents, node = .file contents) :
    location ≠ [] := by
  rintro rfl
  obtain ⟨contents, ⟨⟩⟩ := honly .folder rfl

/-- Whether files come of others by making folders where nothing was and by writing files in some
places. -/
structure Grows (written : Location → Prop) (files after : FileSystem) : Prop where
  start : after.start = files.start
  formed : files.WellFormed → after.WellFormed
  find? : ∀ location, after.find? location = files.find? location ∨
    files.find? location = none ∧ after.find? location = some .folder ∨
    written location ∧
      (∀ node, files.find? location = some node → ∃ contents, node = .file contents) ∧
      ∃ contents, after.find? location = some (.file contents)

namespace Grows

/-- Files that stay as they are grow. -/
theorem refl (files : FileSystem) : Grows written files files :=
  ⟨rfl, id, fun _ => .inl rfl⟩

/-- What grows and grows on has grown. -/
theorem trans (h : Grows written files between) (hmore : Grows written between after) :
    Grows written files after := by
  refine ⟨hmore.start.trans h.start, hmore.formed ∘ h.formed, fun location => ?_⟩
  rcases h.find? location with hsame | ⟨hnone, hfolder⟩ | ⟨hwritten, hfiles, contents, hfile⟩
  · rw [← hsame]
    exact hmore.find? location
  · rcases hmore.find? location with hkept | ⟨hempty, -⟩ | ⟨-, honly, -⟩
    · exact .inr (.inl ⟨hnone, hkept.trans hfolder⟩)
    · rw [hfolder] at hempty
      cases hempty
    · obtain ⟨contents, ⟨⟩⟩ := honly _ hfolder
  · rcases hmore.find? location with hkept | ⟨hempty, -⟩ | ⟨-, -, hlast⟩
    · exact .inr (.inr ⟨hwritten, hfiles, contents, hkept.trans hfile⟩)
    · rw [hfile] at hempty
      cases hempty
    · exact .inr (.inr ⟨hwritten, hfiles, hlast⟩)

/-- What is written in some places is written in more places. -/
theorem mono {more : Location → Prop} (h : Grows written files after)
    (hmore : ∀ location, written location → more location) : Grows more files after := by
  refine ⟨h.start, h.formed, fun location => ?_⟩
  rcases h.find? location with hsame | hfolder | ⟨hwritten, hfile⟩
  · exact .inl hsame
  · exact .inr (.inl hfolder)
  · exact .inr (.inr ⟨hmore location hwritten, hfile⟩)

/-- What is not written over is still there. -/
theorem find?_of_not {node : Node} (h : Grows written files after) (hnot : ¬ written location)
    (hnode : files.find? location = some node) : after.find? location = some node := by
  rcases h.find? location with hsame | ⟨hnone, -⟩ | ⟨hwritten, -⟩
  · rw [hsame, hnode]
  · rw [hnode] at hnone
    cases hnone
  · exact absurd hwritten hnot

/-- Folders and links are still there. -/
theorem keepsWays (h : Grows written files after) : files.KeepsWays after := by
  intro location node hnode hfile
  rcases h.find? location with hsame | ⟨hnone, -⟩ | ⟨-, honly, -⟩
  · rw [hsame, hnode]
  · rw [hnode] at hnone
    cases hnone
  · obtain ⟨contents, hcontents⟩ := honly node hnode
    exact absurd hcontents (hfile contents)

/-- No link comes up where none was. -/
theorem hasNoLinks {folder : Location} (h : Grows written files after)
    (hlinks : files.HasNoLinks folder) : after.HasNoLinks folder := by
  intro location target hbelow hlink
  rcases h.find? location with hsame | ⟨-, hfolder⟩ | ⟨-, -, contents, hfile⟩
  · exact hlinks location target hbelow (hsame.symm.trans hlink)
  · rw [hlink] at hfolder
    cases hfolder
  · rw [hlink] at hfile
    cases hfile

/-- Where no link is, none was. -/
theorem hasNoLinks_before {folder : Location} (h : Grows written files after)
    (hlinks : after.HasNoLinks folder) : files.HasNoLinks folder := fun location target hbelow hlink =>
  hlinks location target hbelow (h.keepsWays _ _ hlink (by simp))

/-- Paths start where they started. -/
theorem origin_eq {path : Path} {start : Location} (h : Grows written files after)
    (hstart : files.origin path = .ok start) : after.origin path = .ok start :=
  h.keepsWays.origin_eq h.start hstart

/-- A path that leads to a folder still does. -/
theorem leadsTo {path : Path} {folder : Location} (h : Grows written files after)
    (hleads : files.LeadsTo path folder) : after.LeadsTo path folder :=
  h.keepsWays.leadsTo h.start hleads

/-- What is put in a place is listed once. -/
theorem nodup_put (node : Node) (h : (files.entries.map (·.1)).Nodup) :
    ((files.put location node).entries.map (·.1)).Nodup := by
  refine List.nodup_cons.mpr ⟨fun hmem => ?_, h.sublist (List.filter_sublist.map _)⟩
  obtain ⟨entry, hentry, hsame⟩ := List.mem_map.mp hmem
  have hne := (List.mem_filter.mp hentry).2
  simp [hsame] at hne

/-- Putting something in a place that is named by names keeps a file system well formed. -/
theorem formed_put {node : Node} (hplace : files.WellFormed → IsPlace location)
    (hformed : files.WellFormed) : (files.put location node).WellFormed := by
  refine ⟨fun entry hentry => ?_, nodup_put node hformed.nodup⟩
  rcases List.mem_cons.mp hentry with rfl | hrest
  · exact hplace hformed
  · exact hformed.isPlace entry (List.mem_filter.mp hrest).1

/-- Making a folder where nothing is lets the files grow. -/
theorem put_folder (hplace : files.WellFormed → IsPlace location)
    (hnone : files.find? location = none) : Grows written files (files.put location .folder) := by
  refine ⟨rfl, formed_put hplace, fun other => ?_⟩
  rw [find?_put _ _ _ _ (ne_root_of_none hnone)]
  split
  · next hother =>
    subst hother
    exact .inr (.inl ⟨hnone, rfl⟩)
  · exact .inl rfl

/-- Writing a file where nothing but a file is lets the files grow. -/
theorem put_file {contents : Bytes} (hplace : files.WellFormed → IsPlace location)
    (hwritten : written location)
    (honly : ∀ node, files.find? location = some node → ∃ contents, node = .file contents) :
    Grows written files (files.put location (.file contents)) := by
  refine ⟨rfl, formed_put hplace, fun other => ?_⟩
  rw [find?_put _ _ _ _ (ne_root_of_only_file honly)]
  split
  · next hother =>
    subst hother
    exact .inr (.inr ⟨hwritten, honly, contents, rfl⟩)
  · exact .inl rfl

end Grows

/-- One folder is made where nothing was, or nothing happens. -/
theorem ensures_makeFolder_put (path : Path) :
    (makeFolder path).Ensures files fun _ after => after = files ∨
      ∃ folder name, files.resolveParent path = .ok (folder, some name) ∧
        files.find? (folder ++ [name]) = none ∧ after = files.put (folder ++ [name]) .folder := by
  refine Edit.Ensures.bind_ask (fun parent hparent => ?_) fun _ _ => .inl rfl
  obtain ⟨folder, name?⟩ := parent
  cases name? with
  | none => exact Edit.Ensures.throw (.inl rfl)
  | some name =>
    refine Edit.Ensures.bind_get ?_
    split
    · exact .inl rfl
    · next hnot =>
      have hnone : files.find? (folder ++ [name]) = none := by simpa using hnot
      exact Edit.Ensures.put (.inr ⟨folder, name, hparent, hnone, rfl⟩)

/-- Making one folder changes nothing else. -/
theorem ensures_makeFolder (path : Path) :
    (makeFolder path).Ensures files fun _ after => Grows written files after := by
  refine (ensures_makeFolder_put path).mono fun _ after hmade => ?_
  rcases hmade with rfl | ⟨folder, name, hparent, hnone, rfl⟩
  · exact .refl after
  · exact .put_folder (·.isPlace_resolveParent hparent) hnone

section Keeping

variable {kept : FileSystem → Prop} {path : Path}

/-- What making one folder keeps, making it unless it is there keeps. -/
theorem ensures_ensureFolder_of (hmake : (makeFolder path).Ensures files fun _ after => kept after) :
    (ensureFolder path).Ensures files fun _ after => kept after := by
  refine Edit.Ensures.tryCatch hmake (fun _ _ hkept => hkept) ?_
  intro fault after hkept
  refine Edit.Ensures.bind_get ?_
  split <;> exact hkept

/-- What making each of the folders keeps, making a folder and those above it keeps. -/
theorem ensures_createFoldersOn_of (fuel : Nat) (hfiles : kept files)
    (hmake : ∀ above, path.HasAbove above → ∀ between, kept between →
      (makeFolder above).Ensures between fun _ after => kept after) :
    (createFoldersOn fuel path).Ensures files fun _ after => kept after := by
  induction fuel generalizing path files with
  | zero => exact hfiles
  | succ fuel ih =>
    have hself := hmake path (.self path)
    unfold createFoldersOn
    split
    · exact hfiles
    · refine Edit.Ensures.tryCatch (hself files hfiles) (fun _ _ hkept => hkept) ?_
      intro fault after hkept
      split
      · split
        -- the folder above is missing: it is made with less fuel, and the folder is tried again
        · next folder hfolder =>
          refine Edit.Ensures.bind (ih hkept fun above habove => hmake above (.parent hfolder habove))
            ?_ fun _ _ hmore => hmore
          intro _ between hmore
          exact ensures_ensureFolder_of (hself between hmore)
        · exact hkept
      · refine Edit.Ensures.bind_get ?_
        split <;> exact hkept

end Keeping

/-- Making a folder and those above it changes nothing else. -/
theorem ensures_createFolders (path : Path) :
    (createFolders path).Ensures files fun _ after => Grows written files after :=
  ensures_createFoldersOn_of _ (.refl files) fun above _ _ hgrows =>
    (ensures_makeFolder above).mono fun _ _ hmore => hgrows.trans hmore

/-- Making the folder that a path lies in, where it is missing. -/
def createParent (path : Path) : Edit Unit := do
  if let some folder := path.parent? then createFolders folder

/-- Making the folder that a path lies in changes nothing else. -/
theorem ensures_createParent (path : Path) :
    (createParent path).Ensures files fun _ after => Grows written files after := by
  unfold createParent
  split
  · exact ensures_createFolders _
  · exact Grows.refl files

/-- Whether a file can be written to where a path ends: nothing but a file lies there. -/
def Place.IsWritable (place : Place) : Prop :=
  ∀ node, place.node? = some node → ∃ contents, node = .file contents

/-- No folder lies where a file can be written to. -/
theorem Place.IsWritable.node?_ne {place : Place} (h : place.IsWritable) :
    place.node? ≠ some .folder := by
  intro hfolder
  obtain ⟨contents, ⟨⟩⟩ := h _ hfolder

/-- Nothing but a file lies where a path leads, if a file can be written there. -/
theorem Place.IsWritable.only_file {place : Place} {purpose : Purpose} {path : Path}
    (h : place.IsWritable) (hplace : files.resolve purpose path = .ok place) :
    ∀ node, files.find? place.location = some node → ∃ contents, node = .file contents := by
  rw [find?_of_resolve hplace h.node?_ne]
  exact h

/-- What is put in a place twice is there once. -/
theorem put_put (first second : Node) :
    (files.put location first).put location second = files.put location second := by
  simp [put]

/-- A file is opened where it can be written to, and is empty then. -/
theorem ensures_openFile (path : Path) :
    (openFile path).Ensures files fun result after =>
      (∃ place, files.resolve .write path = .ok place ∧ place.IsWritable ∧
        result = .ok place.location ∧ after = files.put place.location (.file [])) ∨
      (∃ fault, result = .error fault) ∧ after = files ∧
        ∀ place, files.resolve .write path = .ok place → ¬ place.IsWritable := by
  refine Edit.Ensures.bind_ask (fun place hplace => ?_) fun fault hfault => ?_
  · cases place with
    | absent folder name => exact .inl ⟨_, hplace, nofun, rfl, rfl⟩
    | present location node =>
      cases node with
      | file contents =>
        refine .inl ⟨_, hplace, ?_, rfl, rfl⟩
        rintro _ ⟨⟩
        exact ⟨contents, rfl⟩
      | folder =>
        refine .inr ⟨⟨_, rfl⟩, rfl, fun other hother hwritable => ?_⟩
        rw [hplace] at hother
        cases hother
        exact hwritable.node?_ne rfl
      | link target =>
        refine .inr ⟨⟨_, rfl⟩, rfl, fun other hother hwritable => ?_⟩
        rw [hplace] at hother
        cases hother
        obtain ⟨contents, ⟨⟩⟩ := hwritable _ rfl
  · refine .inr ⟨⟨_, rfl⟩, rfl, fun other hother => ?_⟩
    rw [hfault] at hother
    cases hother

/-- What copying the bytes of a file to another one comes to: the target has the bytes, or none if it
is the file itself; or the copy is refused, and nothing happens. -/
inductive CopiesBytes (files : FileSystem) (source target : Path) :
    Except Fault Unit → FileSystem → Prop where
  | copied {location : Location} {contents : Bytes} {place : Place}
      (hsource : files.resolve .look source = .ok (.present location (.file contents)))
      (htarget : files.resolve .write target = .ok place) (hwritable : place.IsWritable) :
      CopiesBytes files source target (.ok ()) (files.put place.location
        (.file (if location = place.location then [] else contents)))
  | refused (fault : Fault)
      (h : ∀ location contents place,
        files.resolve .look source = .ok (.present location (.file contents)) →
          files.resolve .write target = .ok place → ¬ place.IsWritable) :
      CopiesBytes files source target (.error fault) files

/-- Bytes are copied, or the copy is refused. -/
theorem ensures_copyBytes (source target : Path) :
    (copyBytes source target).Ensures files (CopiesBytes files source target) := by
  refine Edit.Ensures.bind_ask (fun found hfound => ?_) fun fault hfault => ?_
  · cases found with
    | absent folder name =>
      refine .refused _ fun location contents place hsource => ?_
      rw [hfound] at hsource
      cases hsource
    | present location node =>
      cases node with
      | folder =>
        refine .refused _ fun other contents place hsource => ?_
        rw [hfound] at hsource
        cases hsource
      | link text =>
        refine .refused _ fun other contents place hsource => ?_
        rw [hfound] at hsource
        cases hsource
      | file contents =>
        refine Edit.Ensures.bind (ensures_openFile target) ?_ ?_
        · rintro opened after (⟨place, hplace, hwritable, ⟨⟩, rfl⟩ | ⟨⟨_, ⟨⟩⟩, -⟩)
          have hlocation : files.find? location = some (.file contents) :=
            find?_of_resolve hfound (by simp [Place.node?])
          refine Edit.Ensures.bind_get ?_
          rw [find?_put _ _ _ _ (ne_root_of_only_file (hwritable.only_file hplace)), hlocation]
          have hcopied := CopiesBytes.copied hfound hplace hwritable
          -- a file that is copied onto itself is read when it has been emptied
          by_cases hsame : location = place.location
          · rw [if_pos hsame] at hcopied ⊢
            refine Edit.Ensures.put ?_
            rwa [put_put]
          · rw [if_neg hsame] at hcopied ⊢
            refine Edit.Ensures.put ?_
            rwa [put_put]
        · rintro fault after (⟨_, -, -, ⟨⟩, -⟩ | ⟨-, rfl, hrefused⟩)
          exact .refused fault fun _ _ place _ => hrefused place
  · refine .refused fault fun location contents place hsource => ?_
    rw [hfault] at hsource
    cases hsource

end WorkingCopies.FileSystem
