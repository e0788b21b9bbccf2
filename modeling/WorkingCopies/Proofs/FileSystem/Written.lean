import WorkingCopies.Proofs.FileSystem.Grow

/-!
# Written files are read back

A file is written at the end of a path, and the path then leads to it: what is read there is what was
written. It lies at the very place that the path names unless there is a link in that place. All else
is as it was.
-/

namespace WorkingCopies.FileSystem

variable {files after : FileSystem} {path : Path} {contents : Bytes} {location : Location}

/-- Whether nothing but folders has been made of files, and these where nothing was. -/
abbrev MakesFolders (files after : FileSystem) : Prop := Grows (fun _ => False) files after

/-- Whether files come of others by writing a file where a path leads. -/
def Written (path : Path) (contents : Bytes) (files after : FileSystem) : Prop :=
  ∃ place, files.resolve .write path = .ok place ∧ place.IsWritable ∧
    after = files.put place.location (.file contents)

/-- Writing a file where nothing but a file was keeps folders and links. -/
theorem keepsWays_put_file (contents : Bytes)
    (honly : ∀ node, files.find? location = some node → ∃ contents, node = .file contents) :
    files.KeepsWays (files.put location (.file contents)) := by
  intro other node hnode hnot
  rw [find?_put _ _ _ _ (ne_root_of_only_file honly), if_neg, hnode]
  rintro rfl
  obtain ⟨held, hheld⟩ := honly node hnode
  exact hnot held hheld

/-- A way that a file was written along ends at the file, unless it ends at a link before. -/
theorem walk_put_file {purpose : Purpose} {links : Nat} {here : Location} {names : List String}
    {needsFolder : Bool} {place : Place} (hpurpose : purpose ≠ .write)
    (h : walk files .write links here names needsFolder = .ok place) (hwritable : place.IsWritable)
    (hlink : purpose = .lookAtLink → ∀ location target,
      walk files purpose links here names needsFolder ≠ .ok (.present location (.link target))) :
    walk (files.put place.location (.file contents)) purpose links here names needsFolder =
      .ok (.present place.location (.file contents)) := by
  have honly : ∀ node, files.find? place.location = some node → ∃ contents, node = .file contents := by
    rw [find?_of_walk h hwritable.node?_ne]
    exact hwritable
  have hkept := keepsWays_put_file contents honly
  have hput : (files.put place.location (.file contents)).find? place.location =
      some (.file contents) := by
    rw [find?_put _ _ _ _ (ne_root_of_only_file honly), if_pos rfl]
  have hlooks {name : String} {rest : List String} {needsFolder : Bool}
      (hlooks : LooksUp .write name rest needsFolder) : LooksUp purpose name rest needsFolder :=
    ⟨hlooks.notHere, hlooks.notAbove, fun hwrite => hpurpose hwrite.1, hlooks.notLong⟩
  induction links, here, names, needsFolder using walk_induction files .write with
  | nil links here needsFolder =>
    rw [walk_nil] at h
    cases h
    exact absurd rfl hwritable.node?_ne
  | stay links here rest needsFolder ih =>
    rw [walk_stay] at h hlink ⊢
    exact ih h hlink
  | above links here rest needsFolder ih =>
    rw [walk_above] at h hlink ⊢
    exact ih h hlink
  | fault links here name rest needsFolder fault hwalk =>
    rw [hwalk] at h
    cases h
  | absent links here name needsFolder hname hfind hwalk =>
    rw [hwalk] at h
    cases h
    have hfile : needsFolder = false := by simpa using hname.notFolder
    subst hfile
    rw [walk_of_looksUp (hlooks hname)]
    simp only [Place.location] at hput ⊢
    simp [hput]
  | folder links here name rest needsFolder hname hfind hwalk ih =>
    rw [walk_of_looksUp (hlooks hname), hfind] at hlink
    rw [walk_of_looksUp (hlooks hname), hkept _ _ hfind (by simp)]
    exact ih (hwalk ▸ h) hlink
  | file links here name held hname hfind hwalk =>
    rw [hwalk] at h
    cases h
    rw [walk_of_looksUp (hlooks hname)]
    simp only [Place.location] at hput ⊢
    simp [hput]
  | endLink links here name target hwrite hname hfind hwalk => cases hwrite
  | link links here name rest needsFolder target hname hgoes hfind hwalk ih =>
    -- a link at the end is followed, since the way does not end there
    have hfollowed : ¬ (purpose = .lookAtLink ∧ rest = [] ∧ (!needsFolder) = true) := by
      intro hends
      refine hlink hends.1 (here ++ [name]) target ?_
      rw [walk_of_looksUp (hlooks hname), hfind]
      exact if_pos hends
    rw [walk_of_looksUp (hlooks hname), hfind] at hlink
    rw [walk_of_looksUp (hlooks hname), hkept _ _ hfind (by simp)]
    dsimp only at hlink ⊢
    rw [if_neg hfollowed] at hlink ⊢
    exact ih (hwalk ▸ h) hlink

namespace Written

/-- Writing a file lets the files grow. -/
theorem grows (h : Written path contents files after) : Grows (fun _ => True) files after := by
  obtain ⟨place, hplace, hwritable, rfl⟩ := h
  exact .put_file (·.isPlace_resolve hplace) trivial (hwritable.only_file hplace)

/-- A path that a file was written to leads to the file, unless it ends at a link. -/
theorem resolve_eq {purpose : Purpose} {place : Place} (contents : Bytes) (hpurpose : purpose ≠ .write)
    (hplace : files.resolve .write path = .ok place) (hwritable : place.IsWritable)
    (hlink : purpose = .lookAtLink → ∀ location target,
      files.resolve purpose path ≠ .ok (.present location (.link target))) :
    (files.put place.location (.file contents)).resolve purpose path =
      .ok (.present place.location (.file contents)) := by
  have hgrows : Grows (fun _ => True) files (files.put place.location (.file contents)) :=
    grows ⟨place, hplace, hwritable, rfl⟩
  obtain ⟨hcheck, start, hstart, hwalk⟩ := resolve_eq_ok_iff.mp hplace
  apply resolve_eq_ok_iff.mpr
  refine ⟨hcheck, start, hgrows.origin_eq hstart, walk_put_file hpurpose hwalk hwritable ?_⟩
  intro hlook location target hends
  exact hlink hlook location target (resolve_eq_ok_iff.mpr ⟨hcheck, start, hstart, hends⟩)

/-- What was written is read back. -/
theorem bytesAt_eq (h : Written path contents files after) : after.bytesAt path = .ok contents := by
  obtain ⟨place, hplace, hwritable, rfl⟩ := h
  have hlook : Purpose.look ≠ .write := nofun
  have hread := resolve_eq contents hlook hplace hwritable nofun
  unfold bytesAt
  rw [hread]
  rfl

/-- A file that was written lies in one place, and all others are as they were. The path names that
place, unless there is a link where it ends. -/
theorem exists_location (h : Written path contents files after) :
    ∃ location, after.find? location = some (.file contents) ∧
      (∀ other, other ≠ location → after.find? other = files.find? other) ∧
      ((∀ link target, files.resolve .lookAtLink path ≠ .ok (.present link (.link target))) →
        after.resolve .lookAtLink path = .ok (.present location (.file contents))) := by
  obtain ⟨place, hplace, hwritable, rfl⟩ := h
  have hroot : place.location ≠ [] := ne_root_of_only_file (hwritable.only_file hplace)
  refine ⟨place.location, ?_, fun other hother => ?_, fun hlink => ?_⟩
  · rw [find?_put _ _ _ _ hroot, if_pos rfl]
  · rw [find?_put _ _ _ _ hroot, if_neg hother]
  · exact resolve_eq contents nofun hplace hwritable fun _ => hlink

end Written

/-- Writing a file writes it, or is refused and changes nothing. -/
theorem ensures_writeFile (path : Path) (contents : Bytes) :
    (writeFile path contents).Ensures files fun result after =>
      match result with
      | .ok _ => Written path contents files after
      | .error _ => after = files := by
  refine Edit.Ensures.bind (ensures_openFile path) ?_ ?_
  · rintro location between (⟨place, hplace, hwritable, ⟨⟩, rfl⟩ | ⟨⟨_, ⟨⟩⟩, -⟩)
    apply Edit.Ensures.put
    rw [put_put]
    exact ⟨place, hplace, hwritable, rfl⟩
  · rintro fault between (⟨_, -, -, ⟨⟩, -⟩ | ⟨-, rfl, -⟩)
    rfl

end WorkingCopies.FileSystem
