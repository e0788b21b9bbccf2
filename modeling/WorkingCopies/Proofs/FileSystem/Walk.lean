import WorkingCopies.Proofs.FileSystem.Names

/-!
# Where paths lead

A path is followed name by name, so what is true of every step is true of where it leads. A way that
goes through a folder of which nothing but names follow stays in that folder, unless there are links
in it. Folders and links that are added or kept do not change a way that leads to a folder.
-/

namespace WorkingCopies.FileSystem

variable {files : FileSystem} {purpose : Purpose}

/-- The place that a way ends at, whether or not it holds something. -/
def Place.location : Place → Location
  | present location _ => location
  | absent folder name => folder ++ [name]

/-- What a way ends at holds, if anything. -/
def Place.node? : Place → Option Node
  | present _ node => some node
  | absent _ _ => none

/-- Whether a name is looked up in a folder, with more names to come. -/
structure LooksUp (purpose : Purpose) (name : String) (names : List String) (needsFolder : Bool) :
    Prop where
  notHere : name ≠ "."
  notAbove : name ≠ ".."
  notFolder : ¬ (purpose = .write ∧ names = [] ∧ needsFolder = true)
  notLong : ¬ name.utf8ByteSize > nameLimit

/-- Such a name is looked up for whatever comes behind it if that is only to be found. -/
theorem LooksUp.look {name : String} {names : List String} {needsFolder : Bool}
    (h : LooksUp purpose name names needsFolder) (more : List String) :
    LooksUp .look name more true :=
  ⟨h.notHere, h.notAbove, fun hwrite => absurd hwrite.1 (by decide), h.notLong⟩

/-- What is looked up is a name if it is a text that can stand on a path. -/
theorem LooksUp.isName {name : String} {names : List String} {needsFolder : Bool}
    (h : LooksUp purpose name names needsFolder) (hname : name ≠ "" ∧ '/' ∉ name.toList) :
    IsName name :=
  ⟨hname.1, h.notHere, h.notAbove, hname.2⟩

/-- A name in a place leads to a place. -/
theorem IsPlace.append {location : Location} {name : String} (h : IsPlace location)
    (hname : IsName name) : IsPlace (location ++ [name]) := by
  intro other hother
  rcases List.mem_append.mp hother with hlocation | hlast
  · exact h other hlocation
  · rwa [List.mem_singleton.mp hlast]

/-- The way that a link adds in front of the names to come. -/
def walkLink (files : FileSystem) (purpose : Purpose) :
    (links : Nat) → Location → (names : List String) → (needsFolder : Bool) → Except Fault Place
  | 0 => fun _ _ _ => .error .tooManyLinks
  | links + 1 => walk files purpose links

/-- Names are followed with one link less behind each link. -/
theorem walk_eq_follow (links : Nat) :
    walk files purpose links = follow files purpose (walkLink files purpose links) := by
  cases links <;> rfl

section Steps

variable {links : Nat} {here : Location} {names : List String} {needsFolder : Bool}

/-- Without a name the way ends where it is. -/
theorem walk_nil : walk files purpose links here [] needsFolder = .ok (.present here .folder) := by
  rw [walk_eq_follow, follow]

/-- A dot leads nowhere else. -/
theorem walk_stay : walk files purpose links here ("." :: names) needsFolder =
    walk files purpose links here names needsFolder := by
  rw [walk_eq_follow, follow, if_pos rfl]

/-- Two dots lead to the folder above. -/
theorem walk_above : walk files purpose links here (".." :: names) needsFolder =
    walk files purpose links here.dropLast names needsFolder := by
  rw [walk_eq_follow, follow, if_neg (by decide), if_pos rfl]

end Steps

/-- A name that is looked up leads on by what its place holds. -/
theorem walk_of_looksUp {links : Nat} {here : Location} {name : String} {names : List String}
    {needsFolder : Bool} (h : LooksUp purpose name names needsFolder) :
    walk files purpose links here (name :: names) needsFolder =
      match files.find? (here ++ [name]) with
      | none => if names = [] then .ok (.absent here name) else .error .noSuchEntry
      | some .folder => walk files purpose links (here ++ [name]) names needsFolder
      | some (.file contents) =>
        if names = [] ∧ !needsFolder then .ok (.present (here ++ [name]) (.file contents))
        else .error .notAFolder
      | some (.link target) =>
        if purpose = .lookAtLink ∧ names = [] ∧ !needsFolder then
          .ok (.present (here ++ [name]) (.link target))
        else
          walkLink files purpose links (if (⟨target⟩ : Path).isAbsolute then [] else here)
            ((⟨target⟩ : Path).names ++ names)
            (needsFolder || (names = [] && (⟨target⟩ : Path).endsInSlash)) := by
  rw [walk_eq_follow, follow, if_neg h.notHere, if_neg h.notAbove, if_neg h.notFolder]
  exact if_neg h.notLong

/-- What each step of following a path keeps holds of the whole way. -/
theorem walk_induction (files : FileSystem) (purpose : Purpose)
    {motive : Nat → Location → List String → Bool → Prop}
    (nil : ∀ links here needsFolder, motive links here [] needsFolder)
    (stay : ∀ links here names needsFolder,
      motive links here names needsFolder → motive links here ("." :: names) needsFolder)
    (above : ∀ links here names needsFolder,
      motive links here.dropLast names needsFolder → motive links here (".." :: names) needsFolder)
    (fault : ∀ links here name names needsFolder fault,
      walk files purpose links here (name :: names) needsFolder = .error fault →
      motive links here (name :: names) needsFolder)
    (absent : ∀ links here name needsFolder, LooksUp purpose name [] needsFolder →
      files.find? (here ++ [name]) = none →
      walk files purpose links here [name] needsFolder = .ok (.absent here name) →
      motive links here [name] needsFolder)
    (folder : ∀ links here name names needsFolder, LooksUp purpose name names needsFolder →
      files.find? (here ++ [name]) = some .folder →
      walk files purpose links here (name :: names) needsFolder =
        walk files purpose links (here ++ [name]) names needsFolder →
      motive links (here ++ [name]) names needsFolder →
      motive links here (name :: names) needsFolder)
    (file : ∀ links here name contents, LooksUp purpose name [] false →
      files.find? (here ++ [name]) = some (.file contents) →
      walk files purpose links here [name] false =
        .ok (.present (here ++ [name]) (.file contents)) →
      motive links here [name] false)
    (endLink : ∀ links here name target, purpose = .lookAtLink →
      LooksUp purpose name [] false → files.find? (here ++ [name]) = some (.link target) →
      walk files purpose links here [name] false =
        .ok (.present (here ++ [name]) (.link target)) →
      motive links here [name] false)
    (link : ∀ links here name names needsFolder target, LooksUp purpose name names needsFolder →
      ¬ (purpose = .lookAtLink ∧ names = [] ∧ (!needsFolder) = true) →
      files.find? (here ++ [name]) = some (.link target) →
      walk files purpose (links + 1) here (name :: names) needsFolder =
        walk files purpose links (if (⟨target⟩ : Path).isAbsolute then [] else here)
          ((⟨target⟩ : Path).names ++ names)
          (needsFolder || (names = [] && (⟨target⟩ : Path).endsInSlash)) →
      motive links (if (⟨target⟩ : Path).isAbsolute then [] else here)
        ((⟨target⟩ : Path).names ++ names)
        (needsFolder || (names = [] && (⟨target⟩ : Path).endsInSlash)) →
      motive (links + 1) here (name :: names) needsFolder)
    (links : Nat) (here : Location) (names : List String) (needsFolder : Bool) :
    motive links here names needsFolder := by
  -- the outer induction is on the links that may still be followed, the inner one on the names
  induction links using Nat.strongRecOn generalizing here names needsFolder with
  | ind links ihLinks =>
    induction names generalizing here with
    | nil => exact nil _ _ _
    | cons name names ih =>
      by_cases hhere : name = "."
      · subst hhere
        exact stay _ _ _ _ (ih here)
      by_cases habove : name = ".."
      · subst habove
        exact above _ _ _ _ (ih here.dropLast)
      by_cases hfolder : purpose = .write ∧ names = [] ∧ needsFolder = true
      · refine fault _ _ _ _ _ .isAFolder ?_
        rw [walk_eq_follow, follow, if_neg hhere, if_neg habove, if_pos hfolder]
      by_cases hlong : name.utf8ByteSize > nameLimit
      · refine fault _ _ _ _ _ .nameTooLong ?_
        rw [walk_eq_follow, follow, if_neg hhere, if_neg habove, if_neg hfolder, if_pos hlong]
      have hlooks : LooksUp purpose name names needsFolder := ⟨hhere, habove, hfolder, hlong⟩
      have hwalk := @walk_of_looksUp files purpose links here name names needsFolder hlooks
      cases hfind : files.find? (here ++ [name]) with
      | none =>
        rw [hfind] at hwalk
        by_cases hlast : names = []
        · subst hlast
          exact absent _ _ _ _ hlooks hfind hwalk
        · exact fault _ _ _ _ _ _ (hwalk.trans (if_neg hlast))
      | some node =>
        rw [hfind] at hwalk
        cases node with
        | folder => exact folder _ _ _ _ _ hlooks hfind hwalk (ih _)
        | file contents =>
          by_cases hlast : names = [] ∧ (!needsFolder) = true
          · obtain ⟨rfl, hneeds⟩ := hlast
            obtain rfl : needsFolder = false := by simpa using hneeds
            exact file _ _ _ _ hlooks hfind hwalk
          · exact fault _ _ _ _ _ _ (hwalk.trans (if_neg hlast))
        | link target =>
          by_cases hlast : purpose = .lookAtLink ∧ names = [] ∧ (!needsFolder) = true
          · have hend := hwalk.trans (if_pos hlast)
            obtain ⟨hpurpose, rfl, hneeds⟩ := hlast
            obtain rfl : needsFolder = false := by simpa using hneeds
            exact endLink _ _ _ _ hpurpose hlooks hfind hend
          · have hlink := hwalk.trans (if_neg hlast)
            cases links with
            | zero => exact fault _ _ _ _ _ _ hlink
            | succ links =>
              exact link _ _ _ _ _ _ hlooks hlast hfind hlink (ihLinks links (by omega) _ _ _)

variable {links : Nat} {here : Location} {names : List String} {needsFolder : Bool} {place : Place}

/-- A way that goes on behind some names goes through the folder that these lead to. -/
theorem exists_walk_of_append {more : List String} (hmore : more ≠ [])
    (h : walk files purpose links here (names ++ more) needsFolder = .ok place) :
    ∃ left folder, walk files .look links here names true = .ok (.present folder .folder) ∧
      walk files purpose left folder more needsFolder = .ok place := by
  generalize hall : names ++ more = all at h
  -- at each step the names are either used up, and the folder is reached, or the step is one of theirs
  induction links, here, all, needsFolder using walk_induction files purpose
    generalizing names with
  | nil links here needsFolder => exact absurd (List.append_eq_nil_iff.mp hall).2 hmore
  | stay links here rest needsFolder ih =>
    rcases List.append_eq_cons_iff.mp hall with ⟨rfl, rfl⟩ | ⟨tail, rfl, rfl⟩
    · exact ⟨links, here, walk_nil, h⟩
    · rw [walk_stay] at h ⊢
      exact ih rfl h
  | above links here rest needsFolder ih =>
    rcases List.append_eq_cons_iff.mp hall with ⟨rfl, rfl⟩ | ⟨tail, rfl, rfl⟩
    · exact ⟨links, here, walk_nil, h⟩
    · rw [walk_above] at h ⊢
      exact ih rfl h
  | fault links here name rest needsFolder fault hwalk =>
    rw [hwalk] at h
    cases h
  | absent links here name needsFolder hlooks hfind hwalk =>
    rcases List.append_eq_cons_iff.mp hall with ⟨rfl, rfl⟩ | ⟨tail, rfl, hnil⟩
    · exact ⟨links, here, walk_nil, h⟩
    · exact absurd (List.append_eq_nil_iff.mp hnil.symm).2 hmore
  | folder links here name rest needsFolder hlooks hfind hwalk ih =>
    rcases List.append_eq_cons_iff.mp hall with ⟨rfl, rfl⟩ | ⟨tail, rfl, rfl⟩
    · exact ⟨links, here, walk_nil, h⟩
    · rw [walk_of_looksUp (hlooks.look tail), hfind]
      exact ih rfl (hwalk ▸ h)
  | file links here name contents hlooks hfind hwalk =>
    rcases List.append_eq_cons_iff.mp hall with ⟨rfl, rfl⟩ | ⟨tail, rfl, hnil⟩
    · exact ⟨links, here, walk_nil, h⟩
    · exact absurd (List.append_eq_nil_iff.mp hnil.symm).2 hmore
  | endLink links here name target hpurpose hlooks hfind hwalk =>
    rcases List.append_eq_cons_iff.mp hall with ⟨rfl, rfl⟩ | ⟨tail, rfl, hnil⟩
    · exact ⟨links, here, walk_nil, h⟩
    · exact absurd (List.append_eq_nil_iff.mp hnil.symm).2 hmore
  | link links here name rest needsFolder target hlooks hgoes hfind hwalk ih =>
    rcases List.append_eq_cons_iff.mp hall with ⟨rfl, rfl⟩ | ⟨tail, rfl, rfl⟩
    · exact ⟨links + 1, here, walk_nil, h⟩
    · rw [walk_of_looksUp (hlooks.look tail), hfind]
      rw [hwalk] at h
      obtain ⟨left, folder, hfirst, hrest⟩ := ih (List.append_assoc _ _ _) h
      exact ⟨left, folder, (if_neg (by simp)).trans hfirst, by simpa [hmore] using hrest⟩

/-- One place lies below another if the way to it goes on from there. -/
theorem isBelow_iff {location above : Location} :
    isBelow location above = true ↔ above <+: location ∧ location ≠ above := by
  simp [isBelow]

/-- What names lead to from a place lies below it, if there are any. -/
theorem isBelow_of_ne_nil {below : List String} (hbelow : below ≠ []) (above : Location) :
    isBelow (above ++ below) above = true :=
  isBelow_iff.mpr ⟨List.prefix_append _ _, fun hsame => hbelow (by simpa using hsame)⟩

/-- What is named in a folder lies below all that the folder is or lies in. -/
theorem isBelow_append {folder : Location} (h : folder <+: here) (name : String) :
    isBelow (here ++ [name]) folder = true := by
  refine isBelow_iff.mpr ⟨h.trans (List.prefix_append _ _), fun hsame => ?_⟩
  have hlength := h.length_le
  rw [← hsame, List.length_append, List.length_singleton] at hlength
  omega

/-- What lies below a folder lies below every other one that this one is or lies in. -/
theorem isBelow_of_prefix {location folder above : Location} (h : above <+: folder)
    (hbelow : isBelow location folder = true) : isBelow location above = true := by
  obtain ⟨hinitial, hne⟩ := isBelow_iff.mp hbelow
  refine isBelow_iff.mpr ⟨h.trans hinitial, fun hsame => hne ?_⟩
  subst hsame
  exact List.IsPrefix.eq_of_length h (Nat.le_antisymm h.length_le hinitial.length_le) ▸ rfl

/-- Whether no link lies below a folder, however deep. -/
def HasNoLinks (files : FileSystem) (folder : Location) : Prop :=
  ∀ location target, isBelow location folder = true → files.find? location ≠ some (.link target)

/-- Names lead from a folder without links to the very place that they name there, and what is found
there lies there. -/
theorem place_of_walk {folder : Location} (hlinks : files.HasNoLinks folder)
    (hhere : folder <+: here) (hnames : ∀ name ∈ names, IsName name)
    (h : walk files purpose links here names needsFolder = .ok place) :
    place.location = here ++ names ∧ (names ≠ [] → files.find? (here ++ names) = place.node?) := by
  induction links, here, names, needsFolder using walk_induction files purpose with
  | nil links here needsFolder =>
    rw [walk_nil] at h
    cases h
    exact ⟨(List.append_nil here).symm, fun hnot => absurd rfl hnot⟩
  | stay links here rest needsFolder ih =>
    exact absurd rfl (hnames "." List.mem_cons_self).notHere
  | above links here rest needsFolder ih =>
    exact absurd rfl (hnames ".." List.mem_cons_self).notAbove
  | fault links here name rest needsFolder fault hwalk =>
    rw [hwalk] at h
    cases h
  | absent links here name needsFolder hlooks hfind hwalk =>
    rw [hwalk] at h
    cases h
    exact ⟨rfl, fun _ => hfind⟩
  | folder links here name rest needsFolder hlooks hfind hwalk ih =>
    obtain ⟨hplace, hnode⟩ := ih (hhere.trans (List.prefix_append _ _))
      (fun other hother => hnames other (List.mem_cons_of_mem _ hother)) (hwalk ▸ h)
    rw [List.append_assoc, List.singleton_append] at hplace hnode
    refine ⟨hplace, fun _ => ?_⟩
    cases rest with
    | nil =>
      rw [hwalk, walk_nil] at h
      cases h
      exact hfind
    | cons next rest => exact hnode (List.cons_ne_nil _ _)
  | file links here name contents hlooks hfind hwalk =>
    rw [hwalk] at h
    cases h
    exact ⟨rfl, fun _ => hfind⟩
  -- a link would lie below the folder
  | endLink links here name target hpurpose hlooks hfind hwalk =>
    exact absurd hfind (hlinks _ _ (isBelow_append hhere name))
  | link links here name rest needsFolder target hlooks hgoes hfind hwalk ih =>
    exact absurd hfind (hlinks _ _ (isBelow_append hhere name))

/-- A file system in which the folders and links of another one are still there. -/
def KeepsWays (files after : FileSystem) : Prop :=
  ∀ location node, files.find? location = some node → (∀ contents, node ≠ .file contents) →
    after.find? location = some node

/-- A way to a folder stays one where folders and links are kept. -/
theorem walk_of_keepsWays {after : FileSystem} {location : Location} (hkeeps : files.KeepsWays after)
    (h : walk files purpose links here names needsFolder = .ok (.present location .folder)) :
    walk after purpose links here names needsFolder = .ok (.present location .folder) := by
  induction links, here, names, needsFolder using walk_induction files purpose with
  | nil links here needsFolder => rwa [walk_nil] at h ⊢
  | stay links here rest needsFolder ih =>
    rw [walk_stay] at h ⊢
    exact ih h
  | above links here rest needsFolder ih =>
    rw [walk_above] at h ⊢
    exact ih h
  | fault links here name rest needsFolder fault hwalk =>
    rw [hwalk] at h
    cases h
  | absent links here name needsFolder hlooks hfind hwalk =>
    rw [hwalk] at h
    cases h
  | folder links here name rest needsFolder hlooks hfind hwalk ih =>
    rw [walk_of_looksUp hlooks, hkeeps _ _ hfind (by simp)]
    exact ih (hwalk ▸ h)
  | file links here name contents hlooks hfind hwalk =>
    rw [hwalk] at h
    cases h
  | endLink links here name target hpurpose hlooks hfind hwalk =>
    rw [hwalk] at h
    cases h
  | link links here name rest needsFolder target hlooks hgoes hfind hwalk ih =>
    rw [walk_of_looksUp hlooks, hkeeps _ _ hfind (by simp)]
    exact (if_neg hgoes).trans (ih (hwalk ▸ h))

/-- A way to a folder ends there also where a folder is asked for. -/
theorem walk_needsFolder {location : Location}
    (h : walk files .look links here names needsFolder = .ok (.present location .folder)) :
    walk files .look links here names true = .ok (.present location .folder) := by
  induction links, here, names, needsFolder using walk_induction files .look with
  | nil links here needsFolder => rwa [walk_nil] at h ⊢
  | stay links here rest needsFolder ih =>
    rw [walk_stay] at h ⊢
    exact ih h
  | above links here rest needsFolder ih =>
    rw [walk_above] at h ⊢
    exact ih h
  | fault links here name rest needsFolder fault hwalk =>
    rw [hwalk] at h
    cases h
  | absent links here name needsFolder hlooks hfind hwalk =>
    rw [hwalk] at h
    cases h
  | folder links here name rest needsFolder hlooks hfind hwalk ih =>
    rw [walk_of_looksUp (hlooks.look rest), hfind]
    exact ih (hwalk ▸ h)
  | file links here name contents hlooks hfind hwalk =>
    rw [hwalk] at h
    cases h
  | endLink links here name target hpurpose hlooks hfind hwalk =>
    rw [hwalk] at h
    cases h
  | link links here name rest needsFolder target hlooks hgoes hfind hwalk ih =>
    rw [walk_of_looksUp (hlooks.look rest), hfind]
    exact (if_neg (by simp)).trans (ih (hwalk ▸ h))

/-- Where a folder is asked for, nothing but a folder is found. -/
theorem node?_of_walk (h : walk files purpose links here names true = .ok place) :
    place.node? = some .folder ∨ place.node? = none := by
  generalize hneeds : true = needs at h
  induction links, here, names, needs using walk_induction files purpose with
  | nil links here needs =>
    rw [walk_nil] at h
    cases h
    exact .inl rfl
  | stay links here rest needs ih => exact ih hneeds (walk_stay ▸ h)
  | above links here rest needs ih => exact ih hneeds (walk_above ▸ h)
  | fault links here name rest needs fault hwalk =>
    rw [hwalk] at h
    cases h
  | absent links here name needs hname hfind hwalk =>
    rw [hwalk] at h
    cases h
    exact .inr rfl
  | folder links here name rest needs hname hfind hwalk ih => exact ih hneeds (hwalk ▸ h)
  | file links here name contents hname hfind hwalk => cases hneeds
  | endLink links here name text hpurpose hname hfind hwalk => cases hneeds
  | link links here name rest needs text hname hgoes hfind hwalk ih =>
    subst hneeds
    exact ih rfl (hwalk ▸ h)

/-- What is found at the end of a way lies there, unless it is a folder, and what is missing there is
missing. -/
theorem find?_of_walk (h : walk files purpose links here names needsFolder = .ok place)
    (hplace : place.node? ≠ some .folder) : files.find? place.location = place.node? := by
  induction links, here, names, needsFolder using walk_induction files purpose with
  | nil links here needsFolder =>
    rw [walk_nil] at h
    cases h
    exact absurd rfl hplace
  | stay links here rest needsFolder ih => exact ih (walk_stay ▸ h)
  | above links here rest needsFolder ih => exact ih (walk_above ▸ h)
  | fault links here name rest needsFolder fault hwalk =>
    rw [hwalk] at h
    cases h
  | absent links here name needsFolder hlooks hfind hwalk =>
    rw [hwalk] at h
    cases h
    exact hfind
  | folder links here name rest needsFolder hlooks hfind hwalk ih => exact ih (hwalk ▸ h)
  | file links here name contents hlooks hfind hwalk =>
    rw [hwalk] at h
    cases h
    exact hfind
  | endLink links here name target hpurpose hlooks hfind hwalk =>
    rw [hwalk] at h
    cases h
    exact hfind
  | link links here name rest needsFolder target hlooks hgoes hfind hwalk ih => exact ih (hwalk ▸ h)

/-- A way goes from place to place over names. -/
theorem isPlace_of_walk (hhere : IsPlace here)
    (hnames : ∀ name ∈ names, name ≠ "" ∧ '/' ∉ name.toList)
    (h : walk files purpose links here names needsFolder = .ok place) :
    IsPlace place.location := by
  induction links, here, names, needsFolder using walk_induction files purpose with
  | nil links here needsFolder =>
    rw [walk_nil] at h
    cases h
    exact hhere
  | stay links here rest needsFolder ih =>
    exact ih hhere (fun name hname => hnames name (List.mem_cons_of_mem _ hname)) (walk_stay ▸ h)
  | above links here rest needsFolder ih =>
    exact ih (fun name hname => hhere name ((List.dropLast_sublist here).subset hname))
      (fun name hname => hnames name (List.mem_cons_of_mem _ hname)) (walk_above ▸ h)
  | fault links here name rest needsFolder fault hwalk =>
    rw [hwalk] at h
    cases h
  | absent links here name needsFolder hlooks hfind hwalk =>
    rw [hwalk] at h
    cases h
    exact hhere.append (hlooks.isName (hnames name List.mem_cons_self))
  | folder links here name rest needsFolder hlooks hfind hwalk ih =>
    exact ih (hhere.append (hlooks.isName (hnames name List.mem_cons_self)))
      (fun name hname => hnames name (List.mem_cons_of_mem _ hname)) (hwalk ▸ h)
  | file links here name contents hlooks hfind hwalk =>
    rw [hwalk] at h
    cases h
    exact hhere.append (hlooks.isName (hnames name List.mem_cons_self))
  | endLink links here name target hpurpose hlooks hfind hwalk =>
    rw [hwalk] at h
    cases h
    exact hhere.append (hlooks.isName (hnames name List.mem_cons_self))
  | link links here name rest needsFolder target hlooks hgoes hfind hwalk ih =>
    -- what a link says is a path, so the names that it adds are names too
    refine ih ?_ ?_ (hwalk ▸ h)
    · split
      · exact fun _ hnil => absurd hnil List.not_mem_nil
      · exact hhere
    · intro other hother
      rcases List.mem_append.mp hother with htarget | hrest
      · exact Path.of_mem_names htarget
      · exact hnames other (List.mem_cons_of_mem _ hrest)

/-- A file system in which all places are named by names and none is listed twice. -/
structure WellFormed (files : FileSystem) : Prop where
  isPlace : ∀ entry ∈ files.entries, IsPlace entry.1
  nodup : (files.entries.map (·.1)).Nodup

/-- A place that is listed once holds what it is listed with. -/
theorem find?_of_mem_of_nodup {location : Location} {node : Node}
    (hnodup : (files.entries.map (·.1)).Nodup) (hroot : location ≠ [])
    (h : (location, node) ∈ files.entries) : files.find? location = some node := by
  obtain ⟨before, after, hentries⟩ := List.append_of_mem h
  refine (if_neg hroot).trans (List.lookup_eq_some_iff.mpr ⟨before, after, hentries, ?_⟩)
  intro entry hentry
  rw [hentries, List.map_append, List.map_cons, List.nodup_append] at hnodup
  have hne := hnodup.2.2 entry.1 (List.mem_map_of_mem hentry) location List.mem_cons_self
  exact bne_iff_ne.mpr hne.symm

/-- A place holds what it is listed with. -/
theorem WellFormed.find?_of_mem {location : Location} {node : Node} (hformed : files.WellFormed)
    (hroot : location ≠ []) (h : (location, node) ∈ files.entries) :
    files.find? location = some node :=
  find?_of_mem_of_nodup hformed.nodup hroot h

/-- A place that holds something is the root or is listed. -/
theorem mem_of_find? {location : Location} {node : Node} (h : files.find? location = some node) :
    location = [] ∧ node = .folder ∨ (location, node) ∈ files.entries := by
  unfold find? at h
  split at h
  · next hroot =>
    cases h
    exact .inl ⟨hroot, rfl⟩
  · obtain ⟨before, after, hentries, -⟩ := List.lookup_eq_some_iff.mp h
    exact .inr (by simp [hentries])

/-- A place other than the root is listed, if it is listed no more than once, with what it holds. -/
theorem mem_entries_iff {location : Location} {node : Node}
    (hnodup : (files.entries.map (·.1)).Nodup) (hroot : location ≠ []) :
    (location, node) ∈ files.entries ↔ files.find? location = some node := by
  refine ⟨find?_of_mem_of_nodup hnodup hroot, fun hfound => ?_⟩
  rcases mem_of_find? hfound with ⟨hnil, -⟩ | hmem
  · exact absurd hnil hroot
  · exact hmem

/-- Where no link is listed, there are none below any folder. -/
theorem hasNoLinks_of_entries {folder : Location}
    (h : ∀ entry ∈ files.entries, ∀ target, entry.2 ≠ .link target) : files.HasNoLinks folder := by
  intro location target _ hlink
  rcases mem_of_find? hlink with ⟨-, ⟨⟩⟩ | hmem
  exact h _ hmem target rfl

/-- A place that holds something is named by names. -/
theorem WellFormed.isPlace_of_find? {location : Location} {node : Node} (hformed : files.WellFormed)
    (h : files.find? location = some node) : IsPlace location := by
  rcases mem_of_find? h with ⟨hroot, -⟩ | hmem
  · subst hroot
    exact fun _ hnil => absurd hnil List.not_mem_nil
  · exact hformed.isPlace (location, node) hmem

variable {path : Path}

/-- The place where a path starts is named by names. -/
theorem WellFormed.isPlace_origin {start : Location} (hformed : files.WellFormed)
    (h : files.origin path = .ok start) : IsPlace start := by
  unfold origin at h
  split at h
  · cases h
    exact fun _ hnil => absurd hnil List.not_mem_nil
  · split at h
    · next hstart =>
      cases h
      exact hformed.isPlace_of_find? hstart
    · cases h

/-- A path is followed from where it starts, if it can be given to the operating system. -/
theorem resolve_eq_ok_iff : files.resolve purpose path = .ok place ↔
    checkPath path = .ok () ∧ ∃ start, files.origin path = .ok start ∧
      walk files purpose linkLimit start path.names path.endsInSlash = .ok place := by
  unfold resolve
  cases checkPath path with
  | error fault => simp [bind, Except.bind]
  | ok _ => cases files.origin path <;> simp [bind, Except.bind]

/-- Where a path ends is named by names. -/
theorem WellFormed.isPlace_resolve (hformed : files.WellFormed)
    (h : files.resolve purpose path = .ok place) : IsPlace place.location := by
  obtain ⟨-, start, hstart, hwalk⟩ := resolve_eq_ok_iff.mp h
  exact isPlace_of_walk (hformed.isPlace_origin hstart) (fun _ => Path.of_mem_names) hwalk

/-- What a path ends at lies there, unless it is a folder, and what is missing there is missing. -/
theorem find?_of_resolve (h : files.resolve purpose path = .ok place)
    (hplace : place.node? ≠ some .folder) : files.find? place.location = place.node? := by
  obtain ⟨-, start, -, hwalk⟩ := resolve_eq_ok_iff.mp h
  exact find?_of_walk hwalk hplace

/-- A folder is found where a path leads. -/
theorem folderAt_eq_ok_iff {location : Location} : files.folderAt path = .ok location ↔
    files.resolve .look path = .ok (.present location .folder) := by
  unfold folderAt
  cases files.resolve .look path with
  | error fault => simp [bind, Except.bind]
  | ok place =>
    cases place with
    | absent folder name => simp [bind, Except.bind]
    | present other node => cases node <;> simp [bind, Except.bind, pure, Except.pure]

/-- A path leads to a folder if one is found there. -/
theorem isFolder_iff : files.isFolder path = true ↔ ∃ location, files.folderAt path = .ok location := by
  unfold isFolder
  cases files.folderAt path <;> simp [Except.toOption]

/-- The last name of a path, unless it is dots. -/
def lastName? (path : Path) : Option String :=
  path.names.getLast?.filter fun name => name ≠ "." && name ≠ ".."

/-- A path whose last name is not dots ends in that name. -/
theorem names_of_lastName? {name : String} (h : lastName? path = some name) :
    path.names = path.names.dropLast ++ [name] ∧ name ≠ "." ∧ name ≠ ".." := by
  obtain ⟨hlast, hproper⟩ := Option.filter_eq_some_iff.mp h
  obtain ⟨front, hnames⟩ := List.getLast?_eq_some_iff.mp hlast
  refine ⟨?_, by simpa using hproper⟩
  rw [hnames, List.dropLast_concat]

/-- The last name of a path is the last one of its names, unless that is dots. -/
theorem lastName?_of_names {front : List String} {name : String}
    (hnames : path.names = front ++ [name]) :
    lastName? path = if name = "." ∨ name = ".." then none else some name := by
  rw [lastName?, hnames, List.getLast?_concat]
  by_cases hdots : name = "." ∨ name = ".."
  · rw [if_pos hdots, Option.filter_some_neg]
    simpa [Classical.or_iff_not_imp_left] using hdots
  · rw [if_neg hdots, Option.filter_some_pos]
    simpa [not_or] using hdots

/-- The folder that the last name of a path lies in is where the other names lead, if the path can be
given to the operating system and the name is no longer than it may be. -/
theorem resolveParent_eq_ok_iff {folder : Location} {name? : Option String} :
    files.resolveParent path = .ok (folder, name?) ↔
      checkPath path = .ok () ∧ (∃ start, files.origin path = .ok start ∧
        walk files .look linkLimit start path.names.dropLast true =
          .ok (.present folder .folder)) ∧
      name? = lastName? path ∧ ∀ name, name? = some name → ¬ name.utf8ByteSize > nameLimit := by
  unfold resolveParent
  cases hcheck : checkPath path with
  | error fault => simp [bind, Except.bind]
  | ok _ =>
    cases hstart : files.origin path with
    | error fault => simp [bind, Except.bind]
    | ok start =>
      cases hwalk : walk files .look linkLimit start path.names.dropLast true with
      | error fault => simp [bind, Except.bind, hwalk]
      | ok place =>
        cases place with
        | absent above missing => simp [bind, Except.bind, hwalk, throw, throwThe, MonadExceptOf.throw]
        | present above node =>
          obtain rfl : node = .folder := by
            rcases node?_of_walk hwalk with hfolder | ⟨⟨⟩⟩
            exact Option.some.inj hfolder
          simp only [bind, Except.bind, hwalk]
          change (if (lastName? path).any (·.utf8ByteSize > nameLimit) = true
            then Except.error Fault.nameTooLong else Except.ok (above, lastName? path)) = _ ↔ _
          split
          · next hlong =>
            obtain ⟨last, hlast, hlonger⟩ := (Option.any_eq_true _ _).mp hlong
            apply iff_of_false nofun
            rintro ⟨-, -, rfl, hshort⟩
            exact hshort last hlast (by simpa using hlonger)
          · next hshort =>
            constructor
            · rintro ⟨⟩
              refine ⟨trivial, ⟨start, rfl, hwalk⟩, rfl, fun name hname => ?_⟩
              simpa [hname] using hshort
            · rintro ⟨-, ⟨_, ⟨⟩, hsame⟩, rfl, -⟩
              rw [hwalk] at hsame
              cases hsame
              rfl

/-- The place of the last name of a path is named by names. -/
theorem WellFormed.isPlace_resolveParent {folder : Location} {name : String}
    (hformed : files.WellFormed) (h : files.resolveParent path = .ok (folder, some name)) :
    IsPlace (folder ++ [name]) := by
  obtain ⟨-, ⟨start, hstart, hwalk⟩, hname, -⟩ := resolveParent_eq_ok_iff.mp h
  obtain ⟨hnames, hhere, habove⟩ := names_of_lastName? hname.symm
  have hmem : name ∈ path.names := hnames ▸ List.mem_append_right _ List.mem_cons_self
  have hfolder : IsPlace (Place.present folder .folder).location :=
    isPlace_of_walk (hformed.isPlace_origin hstart)
      (fun _ hother => Path.of_mem_names ((List.dropLast_sublist _).subset hother)) hwalk
  obtain ⟨hne, hslash⟩ := Path.of_mem_names hmem
  exact hfolder.append ⟨hne, hhere, habove, hslash⟩

/-- Whether the names on a path lead to a folder from where the path starts. The empty path leads to
the working folder. -/
def LeadsTo (files : FileSystem) (path : Path) (folder : Location) : Prop :=
  ∃ start, files.origin path = .ok start ∧
    walk files .look linkLimit start path.names true = .ok (.present folder .folder)

/-- Where folders are kept, paths start where they started. -/
theorem KeepsWays.origin_eq {after : FileSystem} {start : Location} (hkeeps : files.KeepsWays after)
    (hsame : after.start = files.start) (hstart : files.origin path = .ok start) :
    after.origin path = .ok start := by
  unfold origin at hstart ⊢
  by_cases habsolute : path.isAbsolute = true
  · rwa [if_pos habsolute] at hstart ⊢
  · rw [if_neg habsolute] at hstart ⊢
    split at hstart
    · next hfolder =>
      rw [hsame, if_pos (hkeeps _ _ hfolder (by simp))]
      exact hstart
    · cases hstart

/-- Where folders and links are kept, a path that leads to a folder still does. -/
theorem KeepsWays.leadsTo {after : FileSystem} {folder : Location} (hkeeps : files.KeepsWays after)
    (hsame : after.start = files.start) (hleads : files.LeadsTo path folder) :
    after.LeadsTo path folder := by
  obtain ⟨start, hstart, hwalk⟩ := hleads
  exact ⟨start, hkeeps.origin_eq hsame hstart, walk_of_keepsWays hkeeps hwalk⟩

/-- A path leads to the folder that is found there. -/
theorem leadsTo_of_folderAt {folder : Location} (h : files.folderAt path = .ok folder) :
    files.LeadsTo path folder := by
  obtain ⟨-, start, hstart, hwalk⟩ := resolve_eq_ok_iff.mp (folderAt_eq_ok_iff.mp h)
  exact ⟨start, hstart, walk_needsFolder hwalk⟩

/-- A path leads to one folder at most. -/
theorem LeadsTo.unique {folder other : Location} (h : files.LeadsTo path folder)
    (hother : files.LeadsTo path other) : folder = other := by
  obtain ⟨start, hstart, hwalk⟩ := h
  obtain ⟨same, hsame, hfollow⟩ := hother
  rw [hstart] at hsame
  cases hsame
  rw [hwalk] at hfollow
  cases hfollow
  rfl

/-- What is found by names below a path lies just there below the folder that the path leads to, if
there are no links in it. -/
theorem LeadsTo.place_of_resolve {target : Path} {folder : Location} {below : List String}
    (h : files.LeadsTo target folder) (hlinks : files.HasNoLinks folder)
    (hnames : path.names = target.names ++ below) (habsolute : path.isAbsolute = target.isAbsolute)
    (hbelow : below ≠ []) (hproper : ∀ name ∈ below, IsName name)
    (hplace : files.resolve purpose path = .ok place) :
    place.location = folder ++ below ∧ files.find? (folder ++ below) = place.node? := by
  obtain ⟨-, start, hstart, hwalk⟩ := resolve_eq_ok_iff.mp hplace
  rw [hnames] at hwalk
  obtain ⟨left, other, hfirst, hrest⟩ := exists_walk_of_append hbelow hwalk
  have hsame : files.LeadsTo target other := ⟨start, by rw [← hstart, origin, origin, habsolute], hfirst⟩
  obtain rfl := h.unique hsame
  obtain ⟨hlocation, hnode⟩ := place_of_walk hlinks (List.prefix_refl _) hproper hrest
  exact ⟨hlocation, hnode hbelow⟩

/-- What is found by names below a path lies below the folder that the path leads to, if there are
no links in it. -/
theorem LeadsTo.prefix_of_resolve {target : Path} {folder : Location} {below : List String}
    (h : files.LeadsTo target folder) (hlinks : files.HasNoLinks folder)
    (hnames : path.names = target.names ++ below) (habsolute : path.isAbsolute = target.isAbsolute)
    (hbelow : below ≠ []) (hproper : ∀ name ∈ below, IsName name)
    (hplace : files.resolve purpose path = .ok place) : folder <+: place.location := by
  rw [(h.place_of_resolve hlinks hnames habsolute hbelow hproper hplace).1]
  exact List.prefix_append _ _

end WorkingCopies.FileSystem
