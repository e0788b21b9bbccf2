import WorkingCopies.Proofs.FileSystem.Copy

/-!
# File systems that hold the same

A file system lists its places in some order, which nothing that is done with files can tell: all that
is asked of it is what its places hold, and where relative paths start. So changes of two file systems
that hold the same come to the same results, and to file systems that hold the same again.
-/

namespace WorkingCopies.FileSystem

variable {first second : FileSystem} {path : Path} {purpose : Purpose}

/-- Whether two file systems hold the same in every place, and relative paths start in the same one. -/
structure SameFiles (first second : FileSystem) : Prop where
  start : first.start = second.start
  find? : ∀ location, first.find? location = second.find? location

namespace SameFiles

/-- A file system holds the same as itself. -/
theorem refl (files : FileSystem) : SameFiles files files := ⟨rfl, fun _ => rfl⟩

/-- Names are followed by what the places on the way hold. -/
theorem follow_eq (h : SameFiles first second)
    (followLink : Location → List String → Bool → Except Fault Place) (here : Location)
    (names : List String) (needsFolder : Bool) :
    follow first purpose followLink here names needsFolder =
      follow second purpose followLink here names needsFolder := by
  induction names generalizing here with
  | nil => rw [follow, follow]
  | cons name names ih => simp only [follow, h.find?, ih]

/-- Names lead to the same place. -/
theorem walk_eq (h : SameFiles first second) (links : Nat) :
    walk first purpose links = walk second purpose links := by
  induction links with
  | zero =>
    funext here names needsFolder
    exact h.follow_eq _ here names needsFolder
  | succ links ih =>
    funext here names needsFolder
    rw [walk, walk, ih]
    exact h.follow_eq _ here names needsFolder

/-- Paths start in the same place. -/
theorem origin_eq (h : SameFiles first second) (path : Path) :
    first.origin path = second.origin path := by
  rw [origin, origin, h.start, h.find?]

/-- Paths end in the same place. -/
theorem resolve_eq (h : SameFiles first second) (purpose : Purpose) (path : Path) :
    first.resolve purpose path = second.resolve purpose path := by
  simp only [resolve, h.origin_eq, h.walk_eq]

/-- The last names of paths lie in the same folder. -/
theorem resolveParent_eq (h : SameFiles first second) (path : Path) :
    first.resolveParent path = second.resolveParent path := by
  simp only [resolveParent, h.origin_eq, h.walk_eq]

/-- Folders are found in the same place. -/
theorem folderAt_eq (h : SameFiles first second) (path : Path) :
    first.folderAt path = second.folderAt path := by
  simp only [folderAt, h.resolve_eq]

/-- The same paths lead to folders. -/
theorem isFolder_eq (h : SameFiles first second) (path : Path) :
    first.isFolder path = second.isFolder path := by
  simp only [isFolder, h.folderAt_eq]

end SameFiles

/-- Two file systems that hold the same and list no place twice. -/
structure Alike (first second : FileSystem) : Prop extends SameFiles first second where
  nodup : (first.entries.map (·.1)).Nodup
  nodup_other : (second.entries.map (·.1)).Nodup

/-- What is put in a place is found there, and in every other place what was there. At the root it is
always the root. -/
theorem find?_put_eq (files : FileSystem) (location other : Location) (node : Node) :
    (files.put location node).find? other =
      if other = [] then some .folder
      else if other = location then some node else files.find? other := by
  by_cases hroot : location = []
  · subst hroot
    by_cases hother : other = []
    · rw [if_pos hother, hother]
      rfl
    · have hkept := lookup_filter (fun place => decide (place ≠ [])) files.entries other
      have hne : (other == ([] : Location)) = false := by simpa using hother
      rw [if_neg hother, if_neg hother, find?, if_neg hother, find?, if_neg hother]
      simpa only [put, List.lookup_cons, hne, hother, decide_not, decide_false, Bool.not_false,
        if_true, ne_eq, not_false_eq_true, decide_true] using hkept
  · rw [find?_put _ _ _ _ hroot]
    by_cases hother : other = []
    · subst hother
      rw [if_neg (Ne.symm hroot), if_pos rfl]
      rfl
    · rw [if_neg hother]

namespace Alike

/-- It does not matter which one of them is named first. -/
theorem symm (h : Alike first second) : Alike second first :=
  ⟨⟨h.start.symm, fun location => (h.find? location).symm⟩, h.nodup_other, h.nodup⟩

/-- Putting the same in the same place. -/
theorem put (h : Alike first second) (location : Location) (node : Node) :
    Alike (first.put location node) (second.put location node) := by
  refine ⟨⟨h.start, fun other => ?_⟩, Grows.nodup_put node h.nodup,
    Grows.nodup_put node h.nodup_other⟩
  rw [find?_put_eq, find?_put_eq, h.find?]

/-- Keeping the same places. -/
theorem filter (h : Alike first second) (keep : Location → Bool) :
    Alike { first with entries := first.entries.filter fun entry => keep entry.1 }
      { second with entries := second.entries.filter fun entry => keep entry.1 } := by
  refine ⟨⟨h.start, fun other => ?_⟩, h.nodup.sublist (List.filter_sublist.map _),
    h.nodup_other.sublist (List.filter_sublist.map _)⟩
  have hsame := h.find? other
  by_cases hroot : other = []
  · subst hroot
    rfl
  · simp only [FileSystem.find?, hroot, if_false] at hsame ⊢
    rw [lookup_filter keep, lookup_filter keep, hsame]

/-- A place that lies right in a folder is listed with what it holds. -/
theorem mem_contents_iff_find? {files : FileSystem} (hnodup : (files.entries.map (·.1)).Nodup)
    {folder : Location} {name : String} {node : Node} :
    (name, node) ∈ files.contents folder ↔ files.find? (folder ++ [name]) = some node := by
  rw [mem_contents_iff, mem_entries_iff hnodup (by simp)]

/-- What lies right in a folder is listed once. -/
theorem nodup_contents {files : FileSystem} (hnodup : (files.entries.map (·.1)).Nodup)
    (folder : Location) : (files.contents folder).Nodup := by
  refine (List.mergeSort_perm _ _).nodup_iff.mpr (List.pairwise_filterMap.mpr ?_)
  refine (List.pairwise_map.mp hnodup).imp fun {entry other} hne named hnamed last hlast hsame => ?_
  obtain ⟨name, hname, rfl⟩ := Option.map_eq_some_iff.mp hnamed
  obtain ⟨another, hanother, rfl⟩ := Option.map_eq_some_iff.mp hlast
  obtain rfl : name = another := congrArg Prod.fst hsame
  exact hne ((nameIn?_eq_some_iff.mp hname).trans (nameIn?_eq_some_iff.mp hanother).symm)

/-- What lies right in a folder is listed in the order of the names. -/
theorem sorted_contents (files : FileSystem) (folder : Location) :
    (files.contents folder).Pairwise fun entry other => entry.1 ≤ other.1 := by
  have hsorted := @List.pairwise_mergeSort (String × Node)
    (fun entry other => decide (entry.1 ≤ other.1))
    (fun _ _ _ => by simpa using String.le_trans)
    (fun _ _ => by simpa using String.le_total _ _)
    (files.entries.filterMap fun entry => (nameIn? folder entry.1).map (·, entry.2))
  exact hsorted.imp fun hle => by simpa using hle

/-- The same is listed in a folder. -/
theorem contents_eq (h : Alike first second) (folder : Location) :
    first.contents folder = second.contents folder := by
  have hmem (name : String) (node : Node) :
      (name, node) ∈ first.contents folder ↔ (name, node) ∈ second.contents folder := by
    rw [mem_contents_iff_find? h.nodup, mem_contents_iff_find? h.nodup_other, h.find?]
  have hperm : (first.contents folder).Perm (second.contents folder) :=
    (List.perm_ext_iff_of_nodup (nodup_contents h.nodup folder)
      (nodup_contents h.nodup_other folder)).mpr fun entry => hmem entry.1 entry.2
  refine hperm.eq_of_pairwise ?_ (sorted_contents first folder) (sorted_contents second folder)
  -- a name stands in the list with nothing but what its place holds
  rintro ⟨name, node⟩ ⟨another, other⟩ hfirst hsecond hle hge
  obtain rfl : name = another := String.le_antisymm hle hge
  have hnode := (mem_contents_iff_find? h.nodup_other).mp ((hmem name node).mp hfirst)
  rw [(mem_contents_iff_find? h.nodup_other).mp hsecond] at hnode
  cases hnode
  rfl

end Alike

variable {α β : Type}

/-- Whether a change goes by nothing but what places hold and where relative paths start: of file
systems that are alike it makes ones that are alike, with the same result. -/
def Edit.GoesByFiles (change : Edit α) : Prop :=
  ∀ first second, Alike first second →
    (change.outcome first).1 = (change.outcome second).1 ∧
      Alike (change.outcome first).2 (change.outcome second).2

namespace Edit.GoesByFiles

/-- Giving a value goes by nothing. -/
theorem pure (value : α) : Edit.GoesByFiles (Pure.pure value) := fun _ _ h => ⟨rfl, h⟩

/-- Failing goes by nothing. -/
theorem throw (fault : Fault) : Edit.GoesByFiles (MonadExcept.throw fault : Edit α) :=
  fun _ _ h => ⟨rfl, h⟩

/-- Two changes in turn go by what each goes by. -/
theorem bind {change : Edit α} {next : α → Edit β} (first : change.GoesByFiles)
    (rest : ∀ value, (next value).GoesByFiles) : Edit.GoesByFiles (change >>= next) := by
  intro files others halike
  obtain ⟨hresult, hafter⟩ := first files others halike
  rw [outcome_bind, outcome_bind]
  cases hfiles : change.outcome files with
  | mk result after =>
    cases hothers : change.outcome others with
    | mk another left =>
      rw [hfiles, hothers] at hresult hafter
      obtain rfl : result = another := hresult
      cases result with
      | ok value => exact rest value after left hafter
      | error fault => exact ⟨rfl, hafter⟩

/-- A change and what is done about its faults go by what each goes by. -/
theorem tryCatch {change : Edit α} {handler : Fault → Edit α} (first : change.GoesByFiles)
    (rest : ∀ fault, (handler fault).GoesByFiles) :
    Edit.GoesByFiles (MonadExcept.tryCatch change handler) := by
  intro files others halike
  obtain ⟨hresult, hafter⟩ := first files others halike
  have houtcome := outcome_tryCatch change handler
  change (Edit.outcome (MonadExcept.tryCatch change handler) files).1 = _ ∧ _
  rw [houtcome files, houtcome others]
  cases hfiles : change.outcome files with
  | mk result after =>
    cases hothers : change.outcome others with
    | mk another left =>
      rw [hfiles, hothers] at hresult hafter
      obtain rfl : result = another := hresult
      cases result with
      | ok value => exact ⟨rfl, hafter⟩
      | error fault => exact rest fault after left hafter

/-- A question that has the same answer in file systems that are alike. -/
theorem ask {question : FileSystem → Except Fault α}
    (h : ∀ first second, Alike first second → question first = question second) :
    (Edit.ask question).GoesByFiles := by
  intro first second halike
  rw [outcome_ask, outcome_ask]
  exact ⟨h first second halike, halike⟩

/-- What is done with the files, if it is the same with all that are alike. -/
theorem bind_get {next : FileSystem → Edit α}
    (hsame : ∀ first second, Alike first second → next first = next second)
    (h : ∀ files, (next files).GoesByFiles) : Edit.GoesByFiles (get >>= next) := by
  intro first second halike
  show (Edit.outcome (next first) first).1 = (Edit.outcome (next second) second).1 ∧
    Alike (Edit.outcome (next first) first).2 (Edit.outcome (next second) second).2
  rw [hsame first second halike]
  exact h second first second halike

/-- Putting something in a place goes by the place. -/
theorem put (location : Location) (node : Node) : (Edit.put location node).GoesByFiles :=
  fun _ _ halike => ⟨rfl, halike.put location node⟩

/-- What is done for each of some things goes by what each goes by. -/
theorem forIn {Value : Type} {values : List Value} {body : Value → PUnit → Edit (ForInStep PUnit)}
    (h : ∀ value answer, (body value answer).GoesByFiles) :
    Edit.GoesByFiles (ForIn.forIn values PUnit.unit body) := by
  induction values with
  | nil => exact pure _
  | cons value values ih =>
    rw [List.forIn_cons]
    refine bind (h value _) fun step => ?_
    cases step with
    | done answer => exact pure _
    | yield answer => exact ih

end Edit.GoesByFiles

open Edit (GoesByFiles)

/-- Making one folder. -/
theorem goesByFiles_makeFolder (path : Path) : (makeFolder path).GoesByFiles := by
  refine .bind (.ask fun _ _ h => h.resolveParent_eq path) fun parent => ?_
  obtain ⟨folder, name?⟩ := parent
  cases name? with
  | none => exact .throw _
  | some name =>
    refine .bind_get (fun first second h => by rw [h.find?]) fun files => ?_
    split
    · exact .throw _
    · exact .put _ _

/-- What is done about a fault unless a folder is there. -/
theorem goesByFiles_unless_isFolder (path : Path) (fault : Fault) :
    Edit.GoesByFiles (do unless (← get).isFolder path do throw fault) := by
  refine .bind_get (fun first second h => by rw [h.isFolder_eq]) fun files => ?_
  split
  · exact .pure _
  · exact .throw _

/-- Making a folder and those above it. -/
theorem goesByFiles_createFolders (path : Path) : (createFolders path).GoesByFiles := by
  unfold createFolders
  generalize path.text.length + 1 = fuel
  induction fuel generalizing path with
  | zero => exact .throw _
  | succ fuel ih =>
    unfold createFoldersOn
    split
    · exact .pure _
    · refine .tryCatch (goesByFiles_makeFolder path) fun fault => ?_
      split
      · have hensure : (ensureFolder path).GoesByFiles :=
          .tryCatch (goesByFiles_makeFolder path) fun fault => goesByFiles_unless_isFolder path fault
        split
        · exact .bind (ih _) fun _ => hensure
        · exact .throw _
      · exact goesByFiles_unless_isFolder path _

/-- Opening a file for writing. -/
theorem goesByFiles_openFile (path : Path) : (openFile path).GoesByFiles := by
  refine .bind (.ask fun _ _ h => h.resolve_eq .write path) fun place => ?_
  cases place with
  | absent folder name => exact .bind (.put _ _) fun _ => .pure _
  | present location node =>
    cases node with
    | file contents => exact .bind (.put _ _) fun _ => .pure _
    | folder => exact .throw _
    | link target => exact .throw _

/-- Writing the bytes of one file to another one. -/
theorem goesByFiles_copyBytes (source target : Path) : (copyBytes source target).GoesByFiles := by
  refine .bind (.ask fun _ _ h => h.resolve_eq .look source) fun place => ?_
  cases place with
  | absent folder name => exact .throw _
  | present location node =>
    cases node with
    | folder => exact .throw _
    | link text => exact .throw _
    | file contents =>
      refine .bind (goesByFiles_openFile target) fun opened => ?_
      refine .bind_get (fun first second h => by rw [h.find?]) fun files => ?_
      split
      · exact .put _ _
      · exact .throw _

/-- Copying a file. -/
theorem goesByFiles_copyFile (source target : Path) : (copyFile source target).GoesByFiles := by
  rw [copyFile_eq]
  refine .bind ?_ fun _ => goesByFiles_copyBytes source target
  unfold createParent
  split
  · exact goesByFiles_createFolders _
  · exact .pure _

/-- Copying what lies below a folder. -/
theorem goesByFiles_copyBelow (source target : Path) (fuel : Nat) (below : List String)
    (node : Node) : (copyBelow source target fuel below node).GoesByFiles := by
  induction fuel generalizing below node with
  | zero => exact .throw _
  | succ fuel ih =>
    cases node with
    | file contents => exact goesByFiles_copyFile _ _
    | link text => exact goesByFiles_copyFile _ _
    | folder =>
      rw [copyBelow_folder]
      refine .bind (goesByFiles_createFolders _) fun _ => .bind ?_ fun entries => ?_
      · unfold listing
        refine .bind_get (fun first second h => ?_) fun files => ?_
        · rw [h.folderAt_eq]
          simp only [h.contents_eq]
        · split
          · exact .pure _
          · exact .throw _
      · refine .bind (.forIn fun entry _ => ?_) fun _ => .pure _
        exact .bind (ih _ _) fun _ => .pure _

/-- Copying a folder. -/
theorem goesByFiles_copyFolder (source target : Path) : (copyFolder source target).GoesByFiles := by
  refine .bind_get (fun first second h => by rw [h.isFolder_eq]) fun files => ?_
  split
  · refine .bind (.ask fun _ _ h => h.resolve_eq .lookAtLink source) fun place => ?_
    cases place with
    | absent folder name => exact .throw _
    | present location node => exact goesByFiles_copyBelow _ _ _ _ _
  · exact .throw _

/-- Removing an empty folder. -/
theorem goesByFiles_removeFolder (path : Path) : (removeFolder path).GoesByFiles := by
  refine .bind (.ask fun _ _ h => h.resolveParent_eq path) fun parent => ?_
  obtain ⟨folder, name?⟩ := parent
  cases name? with
  | none => exact .throw _
  | some name =>
    refine .bind_get (fun first second h => by rw [h.find?]) fun files => ?_
    split
    · exact .throw _
    · refine .bind_get (fun first second h => by rw [h.contents_eq]) fun files => ?_
      split
      · exact fun first second h => ⟨rfl, h.filter fun place => decide (place ≠ folder ++ [name])⟩
      · exact .throw _
    · exact .throw _

end WorkingCopies.FileSystem
