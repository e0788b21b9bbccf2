import WorkingCopies.Proofs.FileSystem.Copy
import WorkingCopies.Proofs.FileSystem.Written

/-!
# Where a file is written

Where there are no links, the texts of the paths alone say what writing a file to a target can change:
folders are made on the way to it, and the file lies where the text of its path leads. All that is
below a folder, if the target is named in that folder by names that never lead up from there.
-/

namespace WorkingCopies

namespace Path

/-- A relative path without names is empty. -/
theorem text_eq_of_names_eq_nil {path : Path} (hrelative : path.isAbsolute = false)
    (hnames : path.names = []) : path.text = "" := by
  cases htext : path.text.toList with
  | nil => simpa using htext
  | cons c text =>
    have hc : c ≠ '/' := by
      rintro rfl
      simp [isAbsolute, htext] at hrelative
    obtain ⟨first, others, hothers⟩ := List.exists_cons_of_ne_nil (List.splitOn_ne_nil '/' text)
    simp [names, pieces, htext, List.splitOn_cons_eq_if_modifyHead, hc, hothers] at hnames

/-- A folder that is joined with the empty path is written as one, if there is anything written. -/
theorem endsInSlash_join_of_empty (folder : Path) :
    (folder.join ⟨""⟩).names = [] ∨ (folder.join ⟨""⟩).endsInSlash = true := by
  unfold join
  rw [show (⟨""⟩ : Path).isAbsolute = false from rfl, Bool.false_or]
  split
  · exact .inl rfl
  · split
    · next hslash => exact .inr (by simpa [endsInSlash] using hslash)
    · exact .inr (by simp [endsInSlash])

end Path

namespace FileSystem

variable {made written : Location → Prop} {files between after : FileSystem} {location : Location}
  {folder target file path : Path}

/-- Whether files grow by folders that are made in some places and by files in others. -/
structure GrowsAt (made written : Location → Prop) (files after : FileSystem) : Prop
    extends Grows written files after where
  of_made : ∀ location, files.find? location = none → after.find? location = some .folder →
    made location

namespace GrowsAt

/-- Files that stay as they are grow. -/
theorem refl (files : FileSystem) : GrowsAt made written files files := by
  refine ⟨.refl files, fun location hnone hfolder => ?_⟩
  rw [hnone] at hfolder
  cases hfolder

/-- Where no files are written, places stay as they are or a folder is made where nothing was. -/
theorem find?_cases (h : GrowsAt made (fun _ => False) files after) (location : Location) :
    after.find? location = files.find? location ∨ files.find? location = none ∧
      after.find? location = some .folder ∧ made location := by
  rcases h.find? location with hsame | ⟨hnone, hfolder⟩ | ⟨hnot, -⟩
  · exact .inl hsame
  · exact .inr ⟨hnone, hfolder, h.of_made location hnone hfolder⟩
  · exact hnot.elim

/-- What grows and grows on has grown. -/
theorem trans (h : GrowsAt made written files between) (hmore : GrowsAt made written between after) :
    GrowsAt made written files after := by
  refine ⟨h.toGrows.trans hmore.toGrows, fun location hnone hfolder => ?_⟩
  rcases h.find? location with hsame | ⟨-, hmade⟩ | ⟨-, -, contents, hfile⟩
  · exact hmore.of_made location (hsame.trans hnone) hfolder
  · exact h.of_made location hnone hmade
  -- a file does not become a folder
  · rcases hmore.find? location with hkept | ⟨hempty, -⟩ | ⟨-, -, last, hlast⟩
    · rw [hkept, hfile] at hfolder
      cases hfolder
    · rw [hfile] at hempty
      cases hempty
    · rw [hfolder] at hlast
      cases hlast

/-- Making a folder where nothing is lets the files grow there. -/
theorem put_folder (hplace : files.WellFormed → IsPlace location)
    (hnone : files.find? location = none) (hmade : made location) :
    GrowsAt made written files (files.put location .folder) := by
  refine ⟨.put_folder hplace hnone, fun other hempty hfolder => ?_⟩
  rw [find?_put _ _ _ _ (ne_root_of_none hnone)] at hfolder
  split at hfolder
  · next hother => exact hother ▸ hmade
  · rw [hempty] at hfolder
    cases hfolder

/-- Writing a file where nothing but a file is makes no folder. -/
theorem put_file {contents : Bytes} (hplace : files.WellFormed → IsPlace location)
    (hwritten : written location)
    (honly : ∀ node, files.find? location = some node → ∃ contents, node = .file contents) :
    GrowsAt made written files (files.put location (.file contents)) := by
  refine ⟨.put_file hplace hwritten honly, fun other hempty hfolder => ?_⟩
  rw [find?_put _ _ _ _ (ne_root_of_only_file honly)] at hfolder
  split at hfolder
  · cases hfolder
  · rw [hempty] at hfolder
    cases hfolder

end GrowsAt

/-- Making a folder and those above it makes folders on the way to it. -/
theorem ensures_createFolders_at (hlinks : files.HasNoLinks [])
    (hmade : ∀ location, OnWay files.start path location → made location) :
    (createFolders path).Ensures files fun _ after => GrowsAt made written files after := by
  refine ensures_createFoldersOn_of _ (.refl files) fun above habove between hgrows => ?_
  refine (ensures_makeFolder_put above).mono fun _ after hmore => hgrows.trans ?_
  rcases hmore with rfl | ⟨parent, name, hparent, hnone, rfl⟩
  · exact .refl after
  · refine .put_folder (·.isPlace_resolveParent hparent) hnone ?_
    rw [location_of_resolveParent (hgrows.hasNoLinks hlinks) hparent, hgrows.start]
    exact hmade _ (.of_hasAbove habove)

/-- What may have been done to files for a file that is written to a target, in a folder that is made
first: folders are made on the way to either of them, and the file is written where the path of the
target leads by its text, if that is the path of a file. -/
def Footprint (folder target : Path) (files after : FileSystem) : Prop :=
  files.HasNoLinks [] →
    GrowsAt (fun location => OnWay files.start folder location ∨ OnWay files.start target location)
      (fun location => NamesFile target ∧ location = lexicalPlace files.start target) files after

/-- Whether a file lies where the path of a target leads by its text, if there are no links. -/
def HoldsFile (target : Path) (files : FileSystem) : Prop :=
  files.HasNoLinks [] → ∃ contents, files.find? (lexicalPlace files.start target) =
    some (.file contents)

namespace Footprint

/-- Nothing need be done. -/
theorem refl (files : FileSystem) : Footprint folder target files files := fun _ => .refl files

/-- More may be done. -/
theorem trans (h : Footprint folder target files between)
    (hmore : Footprint folder target between after) : Footprint folder target files after := by
  intro hlinks
  have hgrows := h hlinks
  have hlast := hmore (hgrows.hasNoLinks hlinks)
  rw [hgrows.start] at hlast
  exact hgrows.trans hlast

end Footprint

/-- Making the folder, or the one that the target lies in, is part of it. -/
theorem ensures_createFolders_footprint (hpath : path = folder ∨ target.parent? = some path) :
    (createFolders path).Ensures files fun _ after => Footprint folder target files after := by
  intro hlinks
  refine ensures_createFolders_at hlinks fun location hway => ?_
  rcases hpath with rfl | hparent
  · exact .inl hway
  · exact .inr (hway.of_parent? hparent)

/-- A file that is put where a target leads is written there. -/
theorem footprint_put_file {place : Place} (contents : Bytes)
    (hplace : files.resolve .write target = .ok place) (hwritable : place.IsWritable) :
    Footprint folder target files (files.put place.location (.file contents)) ∧
      HoldsFile target (files.put place.location (.file contents)) := by
  have honly := hwritable.only_file hplace
  constructor
  · intro hlinks
    exact .put_file (·.isPlace_resolve hplace)
      ⟨namesFile_of_resolve hlinks hplace hwritable.node?_ne, location_of_resolve hlinks hplace⟩ honly
  · intro hlinks
    have hgrows : Grows (· = place.location) files (files.put place.location (.file contents)) :=
      .put_file (·.isPlace_resolve hplace) rfl honly
    refine ⟨contents, ?_⟩
    rw [hgrows.start, ← location_of_resolve (hgrows.hasNoLinks_before hlinks) hplace,
      find?_put _ _ _ _ (ne_root_of_only_file honly), if_pos rfl]

/-- Writing a file writes it where its path leads. -/
theorem ensures_writeFile_footprint (contents : Bytes) :
    (writeFile target contents).Ensures files fun result after =>
      Footprint folder target files after ∧ (result = .ok () → HoldsFile target after) := by
  refine (ensures_writeFile target contents).mono fun result after hwritten => ?_
  cases result with
  | ok _ =>
    obtain ⟨place, hplace, hwritable, rfl⟩ := hwritten
    obtain ⟨hfootprint, hholds⟩ := footprint_put_file contents hplace hwritable
    exact ⟨hfootprint, fun _ => hholds⟩
  | error fault =>
    obtain rfl : after = files := hwritten
    exact ⟨.refl after, nofun⟩

/-- Copying a file writes it where the path of the target leads. -/
theorem ensures_copyFile_footprint (source : Path) :
    (copyFile source target).Ensures files fun result after =>
      Footprint folder target files after ∧ (result = .ok () → HoldsFile target after) := by
  have hparent : (createParent target).Ensures files fun _ after =>
      Footprint folder target files after := by
    unfold createParent
    split
    · next parent hparent => exact ensures_createFolders_footprint (.inr hparent)
    · exact Footprint.refl files
  rw [copyFile_eq]
  refine Edit.Ensures.bind hparent ?_ fun _ _ hmore => ⟨hmore, nofun⟩
  intro _ between hfirst
  refine (ensures_copyBytes source target).mono fun result after hcopies => ?_
  cases hcopies with
  | copied hsource htarget hwritable =>
    obtain ⟨hfootprint, hholds⟩ := footprint_put_file _ htarget hwritable
    exact ⟨hfirst.trans hfootprint, fun _ => hholds⟩
  | refused fault => exact ⟨hfirst, nofun⟩

/-- Whether nothing changes but what lies below a folder, and that folders are made where there was
nothing on the way to it. -/
def ChangesInside (folder : Path) (files after : FileSystem) : Prop :=
  files.HasNoLinks [] → ∀ location, after.find? location ≠ files.find? location →
    isBelow location (lexicalPlace files.start folder) = true ∨
      OnWay files.start folder location ∧ files.find? location = none ∧
        after.find? location = some .folder

/-- What is named in a folder as a file has a name as its last one. -/
theorem NamesFile.of_join (h : NamesFile (folder.join file)) (hrelative : file.isAbsolute = false) :
    ∃ front name, file.names = front ++ [name] ∧ name ≠ "." ∧ name ≠ ".." := by
  obtain ⟨front, name, hnames, hhere, habove, hslash⟩ := h
  rcases file.names.eq_nil_or_concat with hnil | ⟨most, last, hlast⟩
  · obtain ⟨text⟩ := file
    obtain rfl : text = "" := Path.text_eq_of_names_eq_nil hrelative hnil
    rcases folder.endsInSlash_join_of_empty with hnone | hends
    · simp [hnone] at hnames
    · rw [hslash] at hends
      cases hends
  · rw [List.concat_eq_append] at hlast
    rw [Path.names_join folder hrelative, hlast, ← List.append_assoc] at hnames
    obtain ⟨-, hsame⟩ := List.append_inj' hnames rfl
    obtain rfl : last = name := by simpa using hsame
    exact ⟨most, last, hlast, hhere, habove⟩

/-- What is done for a file that is named in a folder is done inside it, if the names never lead up
from there. -/
theorem Footprint.changesInside (h : Footprint folder (folder.join file) files after)
    (hrelative : file.isAbsolute = false) (hstays : staysBelow 0 file.names = true) :
    ChangesInside folder files after := by
  intro hlinks location hchanged
  have hgrows := h hlinks
  have hinside : ∀ passed, passed <+: file.names →
      lexicalPlace files.start folder <+: lexical (lexicalPlace files.start folder) passed := by
    intro passed hpassed
    simpa using (@staysBelow_iff file.names []).mp hstays _ passed hpassed
  have hplace (passed : List String) :
      lexical (lexicalOrigin files.start (folder.join file)) (folder.names ++ passed) =
        lexical (lexicalPlace files.start folder) passed := by
    rw [lexical_append, lexicalOrigin, Path.isAbsolute_join folder hrelative]
    rfl
  rcases hgrows.find? location with hsame | ⟨hnone, hfolder⟩ | ⟨⟨hnames, rfl⟩, -⟩
  · exact absurd hsame hchanged
  · rcases hgrows.of_made location hnone hfolder with hway | ⟨passed, hpassed, rfl⟩
    · exact .inr ⟨hway, hnone, hfolder⟩
    · rw [Path.names_join folder hrelative] at hpassed
      -- the way of the target goes to the folder and on from there
      rcases List.prefix_or_prefix_of_prefix hpassed (List.prefix_append _ _) with hbefore | hbehind
      · refine .inr ⟨⟨passed, hbefore, ?_⟩, hnone, hfolder⟩
        rw [lexicalOrigin, lexicalOrigin, Path.isAbsolute_join folder hrelative]
      · obtain ⟨rest, rfl⟩ := hbehind
        rw [List.prefix_append_right_inj] at hpassed
        rw [hplace] at hnone hfolder ⊢
        by_cases hsame : lexical (lexicalPlace files.start folder) rest =
            lexicalPlace files.start folder
        · refine .inr ⟨?_, hnone, hfolder⟩
          rw [hsame]
          exact onWay_lexicalPlace _ _
        · exact .inl (isBelow_iff.mpr ⟨hinside rest hpassed, hsame⟩)
  · obtain ⟨front, name, hfile, hhere, habove⟩ := hnames.of_join hrelative
    left
    rw [lexicalPlace, Path.names_join folder hrelative, hplace, hfile, lexical_append]
    have hname : lexical (lexical (lexicalPlace files.start folder) front) [name] =
        lexical (lexicalPlace files.start folder) front ++ [name] := stepTo_of_ne hhere habove
    rw [hname]
    exact isBelow_append (hinside front (by simp [hfile])) name

end FileSystem

end WorkingCopies
