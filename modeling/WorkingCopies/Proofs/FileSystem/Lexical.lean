import WorkingCopies.Proofs.FileSystem.Walk

/-!
# Where paths lead by their text

Where there are no links, the text of a path alone says where it leads: every name goes down by one,
two dots go up by one, and a dot stays. The paths above a path have the names that it starts with, so
they lead to places on the way to it.
-/

namespace WorkingCopies

namespace Path

/-- Dropping idle pieces drops them at the end. -/
theorem dropIdle_suffix (isAbsolute : Bool) (pieces : List (List Char)) :
    dropIdle isAbsolute pieces <:+ pieces := by
  fun_induction dropIdle isAbsolute pieces with
  | case1 => exact List.suffix_refl _
  | case2 piece => exact List.nil_suffix
  | case3 piece => exact List.suffix_refl _
  | case4 piece pieces _ _ ih => exact ih.trans (List.suffix_cons _ _)
  | case5 piece pieces => exact List.suffix_refl _

/-- The names in pieces that were put together again are the pieces that are not empty. -/
theorem namesIn_intercalate {pieces : List (List Char)} (h : ∀ piece ∈ pieces, '/' ∉ piece) :
    namesIn (['/'].intercalate pieces) =
      (pieces.filter fun piece => !piece.isEmpty).map String.ofList := by
  cases pieces with
  | nil => rfl
  | cons piece pieces => rw [namesIn, List.splitOn_intercalate _ h (by simp)]

/-- The pieces of a path behind the root, if the path starts there. -/
def piecesBehindRoot (path : Path) : List (List Char) :=
  if path.isAbsolute then path.pieces.drop 1 else path.pieces

/-- The names on a path are the pieces behind the root that are not empty. -/
theorem names_eq_piecesBehindRoot (path : Path) :
    path.names = (path.piecesBehindRoot.filter fun piece => !piece.isEmpty).map String.ofList := by
  unfold piecesBehindRoot
  split
  · next habsolute =>
    have hhead : path.text.toList.head? = some '/' := by simpa [isAbsolute] using habsolute
    obtain ⟨rest, hrest⟩ := List.head?_eq_some_iff.mp hhead
    have hpieces : path.pieces = [] :: rest.splitOn '/' := by
      rw [pieces, hrest, List.splitOn_cons_eq_if_modifyHead, if_pos (by decide)]
    rw [names, hpieces]
    rfl
  · rfl

/-- No piece behind the root has a slash. -/
theorem not_mem_of_mem_piecesBehindRoot {path : Path} {piece : List Char}
    (h : piece ∈ path.piecesBehindRoot) : '/' ∉ piece := by
  unfold piecesBehindRoot at h
  split at h
  · exact not_mem_of_mem_splitOn (List.mem_of_mem_drop h)
  · exact not_mem_of_mem_splitOn h

/-- The first piece of a relative path does not start with a slash. -/
theorem head?_intercalate_ne {path : Path} {rest : List (List Char)}
    (habsolute : path.isAbsolute = false) (hrest : rest <+: path.pieces) :
    (['/'].intercalate rest).head? ≠ some '/' := by
  unfold pieces at hrest
  cases htext : path.text.toList with
  | nil =>
    rw [htext, List.splitOn_nil] at hrest
    rcases List.prefix_cons_iff.mp hrest with rfl | ⟨more, rfl, hmore⟩
    · simp
    · simp [List.prefix_nil.mp hmore]
  | cons c text =>
    have hc : c ≠ '/' := by
      rintro rfl
      simp [isAbsolute, htext] at habsolute
    obtain ⟨first, others, hothers⟩ :=
      List.exists_cons_of_ne_nil (List.splitOn_ne_nil '/' text)
    rw [htext, List.splitOn_cons_eq_if_modifyHead, if_neg (by simpa using hc), hothers,
      List.modifyHead_cons] at hrest
    rcases List.prefix_cons_iff.mp hrest with rfl | ⟨more, rfl, -⟩
    · simp
    · cases more <;> simp [List.intercalate, hc]

/-- The folder of a path is made of the pieces in front of the last one that is not idle. -/
theorem exists_of_parent? {path parent : Path} (h : path.parent? = some parent) :
    ∃ last above, dropIdle path.isAbsolute path.piecesBehindRoot.reverse = last :: above ∧
      parent.text.toList = (if path.isAbsolute then ['/'] else []) ++
        ['/'].intercalate (dropIdle path.isAbsolute above).reverse := by
  unfold parent? at h
  dsimp only at h
  split at h
  · cases h
  · next last above hdropped =>
    obtain rfl := Option.some.inj h
    exact ⟨last, above, hdropped, String.toList_ofList⟩

/-- The folder of a path has names that the path starts with, and starts where the path starts. -/
theorem of_parent? {path parent : Path} (h : path.parent? = some parent) :
    parent.names <+: path.names ∧ parent.isAbsolute = path.isAbsolute := by
  obtain ⟨last, above, hdropped, htext⟩ := exists_of_parent? h
  have hrest : (dropIdle path.isAbsolute above).reverse <+: path.piecesBehindRoot := by
    have hsuffix : dropIdle path.isAbsolute above <:+ path.piecesBehindRoot.reverse :=
      (dropIdle_suffix _ _).trans ((List.suffix_cons last above).trans
        (hdropped ▸ dropIdle_suffix _ _))
    rw [← List.reverse_prefix] at hsuffix
    rwa [List.reverse_reverse] at hsuffix
  have hnames : namesIn (['/'].intercalate (dropIdle path.isAbsolute above).reverse) <+:
      path.names := by
    rw [namesIn_intercalate fun piece hpiece => not_mem_of_mem_piecesBehindRoot
      (hrest.mem hpiece), names_eq_piecesBehindRoot]
    exact (hrest.filter _).map _
  cases habsolute : path.isAbsolute with
  | true =>
    rw [habsolute, if_pos rfl] at htext
    rw [habsolute] at hnames
    constructor
    · rw [names_eq_namesIn, htext]
      exact hnames
    · simp [isAbsolute, htext]
  | false =>
    rw [habsolute, if_neg Bool.false_ne_true, List.nil_append] at htext
    rw [habsolute] at hnames hrest
    constructor
    · rw [names_eq_namesIn, htext]
      exact hnames
    · have hpieces : path.piecesBehindRoot = path.pieces := by
        rw [piecesBehindRoot, habsolute, if_neg Bool.false_ne_true]
      simpa [isAbsolute, htext] using head?_intercalate_ne habsolute (hpieces ▸ hrest)

/-- The paths that are passed when the folder of a path is taken over and over again. -/
inductive HasAbove : Path → Path → Prop where
  | self (path : Path) : HasAbove path path
  | parent {path folder above : Path} (hfolder : path.parent? = some folder)
      (habove : HasAbove folder above) : HasAbove path above

/-- The paths above a path have the names that it starts with, and start where it starts. -/
theorem HasAbove.names_prefix {path above : Path} (h : path.HasAbove above) :
    above.names <+: path.names ∧ above.isAbsolute = path.isAbsolute := by
  induction h with
  | self path => exact ⟨List.prefix_refl _, rfl⟩
  | parent hfolder _ ih =>
    obtain ⟨hnames, habsolute⟩ := of_parent? hfolder
    exact ⟨ih.1.trans hnames, ih.2.trans habsolute⟩

end Path

namespace FileSystem

variable {files : FileSystem} {purpose : Purpose} {start here location : Location} {path : Path}
  {names : List String}

/-- Where a name leads from a place. -/
def stepTo (here : Location) (name : String) : Location :=
  if name = "." then here else if name = ".." then here.dropLast else here ++ [name]

/-- Where names lead from a place. -/
def lexical (here : Location) (names : List String) : Location := names.foldl stepTo here

/-- Where a path starts, if relative paths start in some place. -/
def lexicalOrigin (start : Location) (path : Path) : Location :=
  if path.isAbsolute then [] else start

/-- Where a path leads, if relative paths start in some place. -/
def lexicalPlace (start : Location) (path : Path) : Location :=
  lexical (lexicalOrigin start path) path.names

/-- Whether a place is passed on the way of a path or is its end. -/
def OnWay (start : Location) (path : Path) (location : Location) : Prop :=
  ∃ passed, passed <+: path.names ∧ location = lexical (lexicalOrigin start path) passed

/-- A name that is neither dots leads down. -/
theorem stepTo_of_ne {name : String} (hhere : name ≠ ".") (habove : name ≠ "..") :
    stepTo here name = here ++ [name] := by
  rw [stepTo, if_neg hhere, if_neg habove]

/-- Behind some names more names lead on from there. -/
theorem lexical_append (names more : List String) :
    lexical here (names ++ more) = lexical (lexical here names) more := List.foldl_append

/-- The end of a way is on it. -/
theorem onWay_lexicalPlace (start : Location) (path : Path) :
    OnWay start path (lexicalPlace start path) := ⟨path.names, List.prefix_refl _, rfl⟩

/-- The end of each path above a path is on its way. -/
theorem OnWay.of_hasAbove {above : Path} (h : path.HasAbove above) :
    OnWay start path (lexicalPlace start above) := by
  obtain ⟨hnames, habsolute⟩ := h.names_prefix
  refine ⟨above.names, hnames, ?_⟩
  rw [lexicalPlace, lexicalOrigin, habsolute, lexicalOrigin]

/-- What is on the way of the folder of a path is on the way of the path. -/
theorem OnWay.of_parent? {parent : Path} (h : OnWay start parent location)
    (hparent : path.parent? = some parent) : OnWay start path location := by
  obtain ⟨hnames, habsolute⟩ := Path.of_parent? hparent
  obtain ⟨passed, hpassed, rfl⟩ := h
  refine ⟨passed, hpassed.trans hnames, ?_⟩
  rw [lexicalOrigin, habsolute, lexicalOrigin]

/-- Names that do not lead up lead down from where they start. -/
theorem prefix_lexical (h : ".." ∉ names) : here <+: lexical here names := by
  induction names generalizing here with
  | nil => exact List.prefix_refl _
  | cons name names ih =>
    obtain ⟨hname, hnames⟩ := not_or.mp (mt List.mem_cons.mpr h)
    have hfirst : here <+: stepTo here name := by
      unfold stepTo
      rw [if_neg (Ne.symm hname)]
      split
      · exact List.prefix_refl _
      · exact List.prefix_append _ _
    exact hfirst.trans (ih hnames)

/-- What is on a way that does not lead up lies above where the way ends, or is its end. -/
theorem OnWay.prefix_of_not_above (h : OnWay start path location) (hnames : ".." ∉ path.names) :
    location <+: lexicalPlace start path := by
  obtain ⟨passed, ⟨rest, hrest⟩, rfl⟩ := h
  rw [lexicalPlace, ← hrest, lexical_append]
  exact prefix_lexical fun hrise => hnames (hrest ▸ List.mem_append_right _ hrise)

/-- Whether names that start some levels below a place never lead up from there. -/
def staysBelow : Nat → List String → Bool
  | _, [] => true
  | depth, name :: names =>
    if name = "." then staysBelow depth names
    else if name = ".." then depth ≠ 0 && staysBelow (depth - 1) names
    else staysBelow (depth + 1) names

/-- Names never lead up from a place exactly if all that they pass lies at it or below it, wherever
that place is. -/
theorem staysBelow_iff {more : List String} : staysBelow more.length names = true ↔
    ∀ here passed, passed <+: names → here <+: lexical (here ++ more) passed := by
  induction names generalizing more with
  | nil =>
    refine iff_of_true rfl fun here passed hpassed => ?_
    rw [List.prefix_nil.mp hpassed]
    exact List.prefix_append _ _
  | cons name names ih =>
    -- nothing is passed at first, and then the name is
    have hcons : (∀ here passed, passed <+: name :: names → here <+: lexical (here ++ more) passed) ↔
        ∀ here passed, passed <+: names → here <+: lexical (stepTo (here ++ more) name) passed := by
      constructor
      · exact fun h here passed hpassed => h here (name :: passed) (List.cons_prefix_cons.mpr
          ⟨rfl, hpassed⟩)
      · intro h here passed hpassed
        rcases List.prefix_cons_iff.mp hpassed with rfl | ⟨rest, rfl, hrest⟩
        · exact List.prefix_append _ _
        · exact h here rest hrest
    rw [hcons, staysBelow]
    split
    · next hname => simpa [stepTo, hname] using ih
    · next hhere =>
      split
      · next habove =>
        rcases more.eq_nil_or_concat with rfl | ⟨front, last, rfl⟩
        · refine iff_of_false (by simp) fun h => ?_
          simpa [stepTo, habove, lexical] using h [""] [] List.nil_prefix
        · have hdrop (here : Location) : stepTo (here ++ (front ++ [last])) name = here ++ front := by
            rw [stepTo, if_neg hhere, if_pos habove, ← List.append_assoc, List.dropLast_concat]
          simpa [hdrop] using @ih front
      · next habove =>
        have hdown (here : Location) : stepTo (here ++ more) name = here ++ (more ++ [name]) := by
          rw [stepTo_of_ne hhere habove, List.append_assoc]
        simpa [hdown] using @ih (more ++ [name])

/-- A path starts where its text says. -/
theorem lexicalOrigin_of_origin (h : files.origin path = .ok start) :
    start = lexicalOrigin files.start path := by
  unfold origin at h
  unfold lexicalOrigin
  split at h
  · next habsolute =>
    rw [if_pos habsolute]
    exact (Except.ok.inj h).symm
  · next hrelative =>
    rw [if_neg hrelative]
    split at h
    · exact (Except.ok.inj h).symm
    · cases h

/-- Without links names lead where their text says. -/
theorem location_of_walk {links : Nat} {needsFolder : Bool} {place : Place}
    (hlinks : files.HasNoLinks [])
    (h : walk files purpose links here names needsFolder = .ok place) :
    place.location = lexical here names := by
  have hnone {name : String} {target : String} {here : Location}
      (hfind : files.find? (here ++ [name]) = some (.link target)) : False :=
    hlinks _ _ (isBelow_append List.nil_prefix name) hfind
  induction links, here, names, needsFolder using walk_induction files purpose with
  | nil links here needsFolder =>
    rw [walk_nil] at h
    cases h
    rfl
  | stay links here rest needsFolder ih => exact ih (walk_stay ▸ h)
  | above links here rest needsFolder ih => exact ih (walk_above ▸ h)
  | fault links here name rest needsFolder fault hwalk =>
    rw [hwalk] at h
    cases h
  | absent links here name needsFolder hlooks hfind hwalk =>
    rw [hwalk] at h
    cases h
    exact (stepTo_of_ne hlooks.notHere hlooks.notAbove).symm
  | folder links here name rest needsFolder hlooks hfind hwalk ih =>
    rw [ih (hwalk ▸ h), lexical, lexical, List.foldl_cons,
      stepTo_of_ne hlooks.notHere hlooks.notAbove]
  | file links here name contents hlooks hfind hwalk =>
    rw [hwalk] at h
    cases h
    exact (stepTo_of_ne hlooks.notHere hlooks.notAbove).symm
  | endLink links here name target hpurpose hlooks hfind hwalk => exact (hnone hfind).elim
  | link links here name rest needsFolder target hlooks hgoes hfind hwalk ih =>
    exact (hnone hfind).elim

/-- Without links a path leads where its text says. -/
theorem location_of_resolve {place : Place} (hlinks : files.HasNoLinks [])
    (h : files.resolve purpose path = .ok place) :
    place.location = lexicalPlace files.start path := by
  obtain ⟨-, start, hstart, hwalk⟩ := resolve_eq_ok_iff.mp h
  obtain rfl := lexicalOrigin_of_origin hstart
  exact location_of_walk hlinks hwalk

/-- Without links the last name of a path stands where the text of the path says. -/
theorem location_of_resolveParent {folder : Location} {name : String}
    (hlinks : files.HasNoLinks []) (h : files.resolveParent path = .ok (folder, some name)) :
    folder ++ [name] = lexicalPlace files.start path := by
  obtain ⟨-, ⟨start, hstart, hwalk⟩, hname, -⟩ := resolveParent_eq_ok_iff.mp h
  obtain rfl := lexicalOrigin_of_origin hstart
  obtain ⟨hnames, hhere, habove⟩ := names_of_lastName? hname.symm
  have hfolder : folder = lexical (lexicalOrigin files.start path) path.names.dropLast :=
    location_of_walk hlinks hwalk
  rw [lexicalPlace, hnames, lexical_append, ← hfolder]
  exact (stepTo_of_ne hhere habove).symm

/-- Whether a path can be that of a file: it ends in a name. -/
def NamesFile (path : Path) : Prop :=
  ∃ front name, path.names = front ++ [name] ∧ name ≠ "." ∧ name ≠ ".." ∧ path.endsInSlash = false

/-- Without links a file is written only where the last of the names is one. -/
theorem namesFile_of_walk {links : Nat} {needsFolder : Bool} {place : Place}
    (hlinks : files.HasNoLinks [])
    (h : walk files .write links here names needsFolder = .ok place)
    (hplace : place.node? ≠ some .folder) :
    ∃ front name, names = front ++ [name] ∧ name ≠ "." ∧ name ≠ ".." ∧ needsFolder = false := by
  have hnone {name : String} {target : String} {here : Location}
      (hfind : files.find? (here ++ [name]) = some (.link target)) : False :=
    hlinks _ _ (isBelow_append List.nil_prefix name) hfind
  have hmore {name : String} {rest : List String} {needsFolder : Bool}
      (hrest : ∃ front last, rest = front ++ [last] ∧ last ≠ "." ∧ last ≠ ".." ∧
        needsFolder = false) :
      ∃ front last, name :: rest = front ++ [last] ∧ last ≠ "." ∧ last ≠ ".." ∧
        needsFolder = false := by
    obtain ⟨front, last, rfl, hlast⟩ := hrest
    exact ⟨name :: front, last, rfl, hlast⟩
  induction links, here, names, needsFolder using walk_induction files .write with
  | nil links here needsFolder =>
    rw [walk_nil] at h
    cases h
    exact absurd rfl hplace
  | stay links here rest needsFolder ih => exact hmore (ih (walk_stay ▸ h))
  | above links here rest needsFolder ih => exact hmore (ih (walk_above ▸ h))
  | fault links here name rest needsFolder fault hwalk =>
    rw [hwalk] at h
    cases h
  | absent links here name needsFolder hlooks hfind hwalk =>
    refine ⟨[], name, rfl, hlooks.notHere, hlooks.notAbove, ?_⟩
    simpa using hlooks.notFolder
  | folder links here name rest needsFolder hlooks hfind hwalk ih => exact hmore (ih (hwalk ▸ h))
  | file links here name contents hlooks hfind hwalk =>
    exact ⟨[], name, rfl, hlooks.notHere, hlooks.notAbove, rfl⟩
  | endLink links here name target hpurpose hlooks hfind hwalk => exact (hnone hfind).elim
  | link links here name rest needsFolder target hlooks hgoes hfind hwalk ih =>
    exact (hnone hfind).elim

/-- Without links a file is written only to a path that can be that of a file. -/
theorem namesFile_of_resolve {place : Place} (hlinks : files.HasNoLinks [])
    (h : files.resolve .write path = .ok place) (hplace : place.node? ≠ some .folder) :
    NamesFile path := by
  obtain ⟨-, start, -, hwalk⟩ := resolve_eq_ok_iff.mp h
  exact namesFile_of_walk hlinks hwalk hplace

end FileSystem

end WorkingCopies
