import WorkingCopies.Proofs.FileSystem.Walk

/-!
# Ways that go on

A way to a folder can be gone on from there, and leads where the rest leads from that folder. So names
below a path that leads to a folder are looked up one by one below the folder, and a path above it
leads to a folder too. In a tree every place that holds something lies in a folder, and a way that ends
at a folder ends where one lies.
-/

namespace WorkingCopies.FileSystem

variable {files : FileSystem} {purpose : Purpose} {links : Nat} {here folder : Location}
  {names more below : List String} {needsFolder : Bool} {path target : Path}

/-- Behind the names of a way to a folder more names lead on from there. -/
theorem walk_append (h : walk files .look links here names true = .ok (.present folder .folder))
    (hmore : more = [] → purpose = .look) :
    ∃ left, walk files purpose links here (names ++ more) needsFolder =
      walk files purpose left folder more needsFolder := by
  have hlooks {name : String} {rest : List String} {needs : Bool}
      (hlooks : LooksUp .look name rest needs) (needsFolder : Bool) :
      LooksUp purpose name (rest ++ more) needsFolder := by
    refine ⟨hlooks.notHere, hlooks.notAbove, fun hwrite => ?_, hlooks.notLong⟩
    have hlook := hmore (List.append_eq_nil_iff.mp hwrite.2.1).2
    rw [hlook] at hwrite
    cases hwrite.1
  generalize hneeds : true = needs at h
  induction links, here, names, needs using walk_induction files .look generalizing needsFolder with
  | nil links here needs =>
    rw [walk_nil] at h
    cases h
    exact ⟨links, rfl⟩
  | stay links here rest needs ih =>
    rw [List.cons_append, walk_stay]
    exact ih hneeds (walk_stay ▸ h)
  | above links here rest needs ih =>
    rw [List.cons_append, walk_above]
    exact ih hneeds (walk_above ▸ h)
  | fault links here name rest needs fault hwalk =>
    rw [hwalk] at h
    cases h
  | absent links here name needs hname hfind hwalk =>
    rw [hwalk] at h
    cases h
  | folder links here name rest needs hname hfind hwalk ih =>
    rw [List.cons_append, walk_of_looksUp (hlooks hname needsFolder), hfind]
    exact ih hneeds (hwalk ▸ h)
  | file links here name contents hname hfind hwalk =>
    rw [hwalk] at h
    cases h
  | endLink links here name text hpurpose hname hfind hwalk => cases hpurpose
  | link links here name rest needs text hname hgoes hfind hwalk ih =>
    subst hneeds
    have hfollowed : ¬ (purpose = .lookAtLink ∧ rest ++ more = [] ∧ (!needsFolder) = true) := by
      rintro ⟨hlook, hnil, -⟩
      rw [hmore (List.append_eq_nil_iff.mp hnil).2] at hlook
      cases hlook
    obtain ⟨left, hleft⟩ := @ih (needsFolder ||
      (rest ++ more = [] && (⟨text⟩ : Path).endsInSlash)) rfl (hwalk ▸ h)
    refine ⟨left, ?_⟩
    rw [List.cons_append, walk_of_looksUp (hlooks hname needsFolder), hfind]
    dsimp only
    rw [if_neg hfollowed, ← List.append_assoc]
    refine hleft.trans ?_
    -- whether a folder is needed does not count where no names are left
    cases more with
    | nil => rw [walk_nil, walk_nil]
    | cons next more => simp

/-- What a way ends at, unless it is a link, is found by looking along the way. -/
theorem walk_look {place : Place} (h : walk files purpose links here names needsFolder = .ok place)
    (hplace : ∀ text, place.node? ≠ some (.link text)) :
    walk files .look links here names needsFolder = .ok place := by
  have hlooks {name : String} {rest : List String} {needsFolder : Bool}
      (hlooks : LooksUp purpose name rest needsFolder) : LooksUp .look name rest needsFolder :=
    ⟨hlooks.notHere, hlooks.notAbove, fun hwrite => absurd hwrite.1 (by decide), hlooks.notLong⟩
  induction links, here, names, needsFolder using walk_induction files purpose with
  | nil links here needsFolder => rwa [walk_nil] at h ⊢
  | stay links here rest needsFolder ih =>
    rw [walk_stay] at h ⊢
    exact ih h
  | above links here rest needsFolder ih =>
    rw [walk_above] at h ⊢
    exact ih h
  | fault links here name rest needsFolder fault hwalk =>
    rw [hwalk] at h
    cases h
  | absent links here name needsFolder hname hfind hwalk =>
    rw [hwalk] at h
    rw [walk_of_looksUp (hlooks hname), hfind]
    exact h
  | folder links here name rest needsFolder hname hfind hwalk ih =>
    rw [walk_of_looksUp (hlooks hname), hfind]
    exact ih (hwalk ▸ h)
  | file links here name contents hname hfind hwalk =>
    rw [hwalk] at h
    rw [walk_of_looksUp (hlooks hname), hfind]
    exact h
  | endLink links here name text hpurpose hname hfind hwalk =>
    rw [hwalk] at h
    cases h
    exact absurd rfl (hplace text)
  | link links here name rest needsFolder text hname hgoes hfind hwalk ih =>
    rw [walk_of_looksUp (hlooks hname), hfind]
    dsimp only
    rw [if_neg (by simp)]
    exact ih (hwalk ▸ h)

/-- Names of folders that lie in one another lead down through them. -/
theorem walk_folders (hnames : ∀ name ∈ names, IsName name)
    (hshort : ∀ name ∈ names, name.utf8ByteSize ≤ nameLimit)
    (hfolders : ∀ passed, passed ≠ [] → passed <+: names →
      files.find? (here ++ passed) = some .folder)
    (hmore : more = [] → purpose ≠ .write) :
    walk files purpose links here (names ++ more) needsFolder =
      walk files purpose links (here ++ names) more needsFolder := by
  induction names generalizing here with
  | nil => rw [List.append_nil, List.nil_append]
  | cons name names ih =>
    have hname := hnames name List.mem_cons_self
    have hlooks : LooksUp purpose name (names ++ more) needsFolder := by
      refine ⟨hname.notHere, hname.notAbove, fun hwrite => ?_, ?_⟩
      · exact hmore (List.append_eq_nil_iff.mp hwrite.2.1).2 hwrite.1
      · exact Nat.not_lt.mpr (hshort name List.mem_cons_self)
    have hfirst : files.find? (here ++ [name]) = some .folder :=
      hfolders [name] (List.cons_ne_nil _ _) (List.prefix_append [name] names)
    rw [List.cons_append, walk_of_looksUp hlooks, hfirst]
    dsimp only
    rw [ih (fun other hother => hnames other (List.mem_cons_of_mem _ hother))
      (fun other hother => hshort other (List.mem_cons_of_mem _ hother)), List.append_assoc,
      List.singleton_append]
    intro passed hpassed hprefix
    rw [List.append_assoc, List.singleton_append]
    exact hfolders _ (List.cons_ne_nil _ _) (List.cons_prefix_cons.mpr ⟨rfl, hprefix⟩)

namespace LeadsTo

/-- Where a path leads is told by its names and by whether it is absolute. -/
theorem of_names (h : files.LeadsTo target folder) (hnames : path.names = target.names)
    (habsolute : path.isAbsolute = target.isAbsolute) : files.LeadsTo path folder := by
  obtain ⟨start, hstart, hwalk⟩ := h
  refine ⟨start, ?_, hnames ▸ hwalk⟩
  rw [← hstart, origin, origin, habsolute]

/-- A path whose names are the first ones on the way to a folder leads to a folder too. -/
theorem exists_of_prefix (h : files.LeadsTo target folder) (hnames : path.names <+: target.names)
    (habsolute : path.isAbsolute = target.isAbsolute) : ∃ above, files.LeadsTo path above := by
  obtain ⟨start, hstart, hwalk⟩ := h
  obtain ⟨rest, hrest⟩ := hnames
  have horigin : files.origin path = .ok start := by
    rw [← hstart, origin, origin, habsolute]
  by_cases hnil : rest = []
  · rw [hnil, List.append_nil] at hrest
    exact ⟨folder, start, horigin, hrest ▸ hwalk⟩
  · rw [← hrest] at hwalk
    obtain ⟨left, above, hfirst, -⟩ := exists_walk_of_append hnil hwalk
    exact ⟨above, start, horigin, hfirst⟩

/-- Names below a path that leads to a folder are followed from the folder. -/
theorem resolve_eq_walk (h : files.LeadsTo target folder) (hcheck : checkPath path = .ok ())
    (hnames : path.names = target.names ++ below) (habsolute : path.isAbsolute = target.isAbsolute)
    (hbelow : below = [] → purpose = .look) :
    ∃ left, files.resolve purpose path =
      walk files purpose left folder below path.endsInSlash := by
  obtain ⟨start, hstart, hwalk⟩ := h
  obtain ⟨left, hleft⟩ := @walk_append files purpose linkLimit start folder target.names below
    path.endsInSlash hwalk hbelow
  refine ⟨left, ?_⟩
  have horigin : files.origin path = .ok start := by
    rw [← hstart, origin, origin, habsolute]
  rw [← hleft, ← hnames]
  unfold resolve
  rw [hcheck, horigin]
  rfl

/-- The folder that a path leads to is found there, if the path can be given to the operating
system. -/
theorem folderAt_eq (h : files.LeadsTo path folder) (hcheck : checkPath path = .ok ()) :
    files.folderAt path = .ok folder := by
  obtain ⟨left, hleft⟩ := @resolve_eq_walk files .look folder [] path path h hcheck
    (List.append_nil _).symm rfl fun _ => rfl
  rw [walk_nil] at hleft
  exact folderAt_eq_ok_iff.mpr hleft

section Below

variable {front : List String} {name : String}

/-- Names of folders that lie in one another below where a path leads, joined to the path, lead through
them. -/
theorem join (h : files.LeadsTo target folder) (hproper : ∀ name ∈ front, IsName name)
    (hshort : ∀ name ∈ front, name.utf8ByteSize ≤ nameLimit)
    (hfolders : ∀ passed, passed ≠ [] → passed <+: front →
      files.find? (folder ++ passed) = some .folder) :
    files.LeadsTo (target.join (relativePath front)) (folder ++ front) := by
  obtain ⟨start, hstart, hwalk⟩ := h
  obtain ⟨hnames, habsolute⟩ := names_join_relativePath hproper target
  obtain ⟨left, hleft⟩ := @walk_append files .look linkLimit start folder target.names front true
    hwalk fun _ => rfl
  have hfront := @walk_folders files .look left folder front [] true hproper hshort hfolders
    fun _ => nofun
  refine ⟨start, ?_, ?_⟩
  · rw [← hstart, origin, origin, habsolute]
  · rw [List.append_nil] at hfront
    rw [hnames, hleft, hfront, walk_nil]

/-- A name behind such names is looked up in the last of the folders. -/
theorem resolve_below (h : files.LeadsTo target folder) (hcheck : checkPath path = .ok ())
    (hnames : path.names = target.names ++ (front ++ [name]))
    (habsolute : path.isAbsolute = target.isAbsolute)
    (hproper : ∀ other ∈ front ++ [name], IsName other)
    (hshort : ∀ other ∈ front ++ [name], other.utf8ByteSize ≤ nameLimit)
    (hfolders : ∀ passed, passed ≠ [] → passed <+: front →
      files.find? (folder ++ passed) = some .folder) :
    ∃ left, files.resolve purpose path =
      walk files purpose left (folder ++ front) [name] path.endsInSlash := by
  have hfront : ∀ other ∈ front, other ∈ front ++ [name] := fun other => List.mem_append_left _
  have hleads := h.join (fun other hother => hproper other (hfront other hother))
    (fun other hother => hshort other (hfront other hother)) hfolders
  obtain ⟨hjoined, hsame⟩ := names_join_relativePath
    (fun other hother => hproper other (hfront other hother)) target
  refine hleads.resolve_eq_walk hcheck ?_ (habsolute.trans hsame.symm) nofun
  rw [hnames, hjoined, List.append_assoc]

end Below

end LeadsTo

/-- A file system in which what lies anywhere but at the root lies in a folder. -/
structure IsTree (files : FileSystem) : Prop extends WellFormed files where
  inFolder : ∀ location name node, files.find? (location ++ [name]) = some node →
    files.find? location = some .folder

/-- A file system is a tree exactly if the places that are listed, each of them once, are named by names
and lie in folders. -/
theorem isTree_iff : files.IsTree ↔ (∀ entry ∈ files.entries, ∀ name ∈ entry.1, IsName name) ∧
    (files.entries.map (·.1)).Nodup ∧
    ∀ entry ∈ files.entries, files.find? entry.1.dropLast = some .folder := by
  constructor
  · intro h
    refine ⟨h.isPlace, h.nodup, ?_⟩
    rintro ⟨location, node⟩ hentry
    rcases location.eq_nil_or_concat with rfl | ⟨front, last, rfl⟩
    · rfl
    · rw [List.concat_eq_append] at hentry ⊢
      have hnode := h.find?_of_mem (by simp) hentry
      rw [List.dropLast_concat]
      exact h.inFolder front last node hnode
  · rintro ⟨hnames, hnodup, hfolders⟩
    refine ⟨⟨hnames, hnodup⟩, fun location name node hnode => ?_⟩
    rcases mem_of_find? hnode with ⟨hnil, -⟩ | hentry
    · exact absurd hnil (by simp)
    · have hfolder := hfolders _ hentry
      rwa [List.dropLast_concat] at hfolder

instance (files : FileSystem) : Decidable files.IsTree := decidable_of_iff _ isTree_iff.symm

namespace IsTree

variable {location above : Location} {node : Node}

/-- What a place lies in, however far above, is a folder. -/
theorem find?_of_append (h : files.IsTree) (hmore : more ≠ [])
    (hnode : files.find? (location ++ more) = some node) :
    files.find? location = some .folder := by
  induction more generalizing location with
  | nil => exact absurd rfl hmore
  | cons name more ih =>
    rw [List.append_cons] at hnode
    cases more with
    | nil =>
      rw [List.append_nil] at hnode
      exact h.inFolder location name node hnode
    | cons next more => exact h.inFolder location name _ (ih (List.cons_ne_nil _ _) hnode)

/-- What a folder is or lies in is a folder. -/
theorem find?_of_prefix (h : files.IsTree) (hfolder : files.find? location = some .folder)
    (habove : above <+: location) : files.find? above = some .folder := by
  obtain ⟨more, rfl⟩ := habove
  by_cases hmore : more = []
  · rwa [hmore, List.append_nil] at hfolder
  · exact h.find?_of_append hmore hfolder

/-- Where a way from a folder ends at a folder, a folder lies. -/
theorem find?_of_walk (h : files.IsTree) (hhere : files.find? here = some .folder)
    (hwalk : walk files purpose links here names needsFolder = .ok (.present location .folder)) :
    files.find? location = some .folder := by
  induction links, here, names, needsFolder using walk_induction files purpose with
  | nil links here needsFolder =>
    rw [walk_nil] at hwalk
    cases hwalk
    exact hhere
  | stay links here rest needsFolder ih => exact ih hhere (walk_stay ▸ hwalk)
  | above links here rest needsFolder ih => exact ih (h.find?_of_prefix hhere here.dropLast_prefix) (walk_above ▸ hwalk)
  | fault links here name rest needsFolder fault hfault =>
    rw [hfault] at hwalk
    cases hwalk
  | absent links here name needsFolder hname hfind habsent =>
    rw [habsent] at hwalk
    cases hwalk
  | folder links here name rest needsFolder hname hfind hgoes ih => exact ih hfind (hgoes ▸ hwalk)
  | file links here name contents hname hfind hends =>
    rw [hends] at hwalk
    cases hwalk
  | endLink links here name text hpurpose hname hfind hends =>
    rw [hends] at hwalk
    cases hwalk
  | link links here name rest needsFolder text hname hgoes hfind hfollowed ih =>
    refine ih ?_ (hfollowed ▸ hwalk)
    split
    · rfl
    · exact hhere

/-- A path starts at a folder. -/
theorem find?_origin {start : Location} (hstart : files.origin path = .ok start) :
    files.find? start = some .folder := by
  unfold origin at hstart
  split at hstart
  · cases hstart
    rfl
  · split at hstart
    · next hfolder =>
      cases hstart
      exact hfolder
    · cases hstart

/-- Where a path leads to a folder, a folder lies. -/
theorem find?_of_leadsTo (h : files.IsTree) (hleads : files.LeadsTo path folder) :
    files.find? folder = some .folder := by
  obtain ⟨start, hstart, hwalk⟩ := hleads
  exact h.find?_of_walk (find?_origin hstart) hwalk

/-- Where a path ends at a folder, a folder lies. -/
theorem find?_of_resolve (h : files.IsTree)
    (hplace : files.resolve purpose path = .ok (.present location .folder)) :
    files.find? location = some .folder := by
  obtain ⟨-, start, hstart, hwalk⟩ := resolve_eq_ok_iff.mp hplace
  exact h.find?_of_walk (find?_origin hstart) hwalk

end IsTree

end WorkingCopies.FileSystem
