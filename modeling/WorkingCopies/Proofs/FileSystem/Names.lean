import WorkingCopies.FileSystem.Copy

/-!
# The names on a path

The names on a joined path are those of the one path followed by those of the other, and a relative
path of names has just these names. So what lies below a folder can be reached by a path that starts
with the path of the folder.
-/

namespace WorkingCopies

open FileSystem (Location pathBelow relativePath)

/-- Whether a text can be the name of something in a folder. -/
structure IsName (name : String) : Prop where
  nonempty : name ≠ ""
  notHere : name ≠ "."
  notAbove : name ≠ ".."
  noSlash : '/' ∉ name.toList

instance : DecidablePred IsName := fun name =>
  decidable_of_iff (name ≠ "" ∧ name ≠ "." ∧ name ≠ ".." ∧ '/' ∉ name.toList)
    ⟨fun ⟨hne, hhere, habove, hslash⟩ => ⟨hne, hhere, habove, hslash⟩,
      fun h => ⟨h.nonempty, h.notHere, h.notAbove, h.noSlash⟩⟩

/-- Whether all names on the way to a place are names. -/
def FileSystem.IsPlace (location : Location) : Prop := ∀ name ∈ location, IsName name

namespace Path

/-- The names in a text, between slashes. -/
def namesIn (text : List Char) : List String :=
  ((text.splitOn '/').filter fun piece => !piece.isEmpty).map String.ofList

/-- The names on a path are those in its text. -/
theorem names_eq_namesIn (path : Path) : path.names = namesIn path.text.toList := rfl

/-- A slash stands between names. -/
theorem namesIn_append_slash (first rest : List Char) :
    namesIn (first ++ '/' :: rest) = namesIn first ++ namesIn rest := by
  unfold namesIn List.splitOn
  rw [List.splitOnP_append_cons first rest (by simp), List.filter_append, List.map_append]

/-- A text without a slash holds one name, unless it is empty. -/
theorem namesIn_of_not_mem {text : List Char} (hne : text ≠ []) (h : '/' ∉ text) :
    namesIn text = [String.ofList text] := by
  have hsplit : text.splitOn '/' = [text] := List.splitOn_eq_singleton h
  simp [namesIn, hsplit, hne]

/-- Behind a text that ends in a slash new names start. -/
theorem namesIn_append_of_getLast? {first : List Char} (h : first.getLast? = some '/')
    (rest : List Char) : namesIn (first ++ rest) = namesIn first ++ namesIn rest := by
  obtain ⟨start, rfl⟩ := List.getLast?_eq_some_iff.mp h
  have hstart : namesIn (start ++ ['/']) = namesIn start := by
    rw [namesIn_append_slash]
    simp [namesIn]
  rw [hstart, List.append_assoc, List.singleton_append, namesIn_append_slash]

/-- A relative path is joined by adding its names. -/
theorem names_join {path : Path} (base : Path) (h : path.isAbsolute = false) :
    (base.join path).names = base.names ++ path.names := by
  obtain ⟨text⟩ := base
  unfold join
  rw [h, Bool.false_or]
  by_cases hempty : text.isEmpty = true
  · obtain rfl : text = "" := String.isEmpty_iff.mp hempty
    rfl
  · rw [if_neg hempty]
    split
    · next hslash =>
      have hlast : text.toList.getLast? = some '/' := by simpa [endsInSlash] using hslash
      simp only [names_eq_namesIn, String.toList_append]
      exact namesIn_append_of_getLast? hlast _
    · simp only [names_eq_namesIn, String.toList_append, List.append_assoc]
      exact namesIn_append_slash _ _

/-- A relative path leaves it to the other one whether the joined path is absolute. -/
theorem isAbsolute_join {path : Path} (base : Path) (h : path.isAbsolute = false) :
    (base.join path).isAbsolute = base.isAbsolute := by
  obtain ⟨text⟩ := base
  unfold join
  rw [h, Bool.false_or]
  by_cases hempty : text.isEmpty = true
  · obtain rfl : text = "" := String.isEmpty_iff.mp hempty
    rw [if_pos hempty, h]
    rfl
  · have hne : text.toList ≠ [] := by simpa using hempty
    obtain ⟨c, rest, hcons⟩ := List.exists_cons_of_ne_nil hne
    rw [if_neg hempty]
    split <;> simp [isAbsolute, String.toList_append, hcons]

/-- A joined path ends as the path that is joined to it, if that is not empty. -/
theorem endsInSlash_join {path : Path} (base : Path) (h : path.isAbsolute = false)
    (hne : path.text ≠ "") : (base.join path).endsInSlash = path.endsInSlash := by
  have htext : path.text.toList ≠ [] := by simpa using hne
  have hlast (first : List Char) :
      (first ++ path.text.toList).getLast? = path.text.toList.getLast? := by
    rw [List.getLast?_append, List.getLast?_eq_some_getLast htext, Option.some_or]
  unfold join
  rw [h, Bool.false_or]
  split
  · rfl
  · split <;> simp only [endsInSlash, String.toList_append, hlast]

/-- A text has no more characters than bytes. -/
theorem length_le_utf8ByteSize (text : List Char) :
    text.length ≤ (String.ofList text).utf8ByteSize := by
  induction text with
  | nil => exact Nat.zero_le _
  | cons c text ih =>
    have hc := c.utf8Size_pos
    rw [String.ofList_cons, String.utf8ByteSize_append, String.utf8ByteSize_singleton,
      List.length_cons]
    omega

/-- There are no more names in a text than characters. -/
theorem length_namesIn_le (text : List Char) : (namesIn text).length ≤ text.length := by
  rw [namesIn, List.length_map]
  induction text with
  | nil => simp
  | cons c text ih =>
    rw [List.splitOn_cons_eq_if_modifyHead]
    split
    · simpa using Nat.le_succ_of_le ih
    · obtain ⟨first, rest, hcons⟩ := List.exists_cons_of_ne_nil (List.splitOn_ne_nil '/' text)
      rw [hcons] at ih ⊢
      cases first <;> simp at ih ⊢ <;> omega

/-- A path has no more names than bytes. -/
theorem length_names_le (path : Path) : path.names.length ≤ path.text.utf8ByteSize := by
  have hbytes := length_le_utf8ByteSize path.text.toList
  rw [String.ofList_toList] at hbytes
  exact Nat.le_trans (length_namesIn_le _) hbytes

/-- What stands between slashes has no slash. -/
theorem not_mem_of_mem_splitOn {text piece : List Char} (h : piece ∈ text.splitOn '/') :
    '/' ∉ piece := by
  induction text generalizing piece with
  | nil =>
    rw [List.splitOn_nil, List.mem_singleton] at h
    simp [h]
  | cons c text ih =>
    rw [List.splitOn_cons_eq_if_modifyHead] at h
    split at h
    · rcases List.mem_cons.mp h with rfl | hrest
      · exact List.not_mem_nil
      · exact ih hrest
    · next hc =>
      obtain ⟨first, rest, hcons⟩ := List.exists_cons_of_ne_nil (List.splitOn_ne_nil '/' text)
      rw [hcons, List.modifyHead_cons] at h
      rcases List.mem_cons.mp h with rfl | hrest
      · have hfirst : '/' ∉ first := ih (by simp [hcons])
        have hslash : '/' ≠ c := fun hsame => hc (by simp [← hsame])
        simp [hslash, hfirst]
      · exact ih (by simp [hcons, hrest])

/-- The names on a path are not empty and have no slash. -/
theorem of_mem_names {path : Path} {name : String} (h : name ∈ path.names) :
    name ≠ "" ∧ '/' ∉ name.toList := by
  obtain ⟨piece, hpiece, rfl⟩ := List.mem_map.mp h
  obtain ⟨hmem, hne⟩ := List.mem_filter.mp hpiece
  refine ⟨by simpa using hne, ?_⟩
  rw [String.toList_ofList]
  exact not_mem_of_mem_splitOn hmem

end Path

open WorkingCopies.Path (namesIn)

/-- A name by itself is a relative path to it. -/
theorem IsName.names_mk {name : String} (h : IsName name) :
    (⟨name⟩ : Path).names = [name] ∧ (⟨name⟩ : Path).isAbsolute = false := by
  have hne : name.toList ≠ [] := by simpa using h.nonempty
  constructor
  · rw [Path.names_eq_namesIn, Path.namesIn_of_not_mem hne h.noSlash, String.ofList_toList]
  · obtain ⟨c, rest, hcons⟩ := List.exists_cons_of_ne_nil hne
    have hc : c ≠ '/' := fun hslash => h.noSlash (by simp [hcons, hslash])
    simp [Path.isAbsolute, hcons, hc]

/-- A name does not end in a slash. -/
theorem IsName.endsInSlash_mk {name : String} (h : IsName name) :
    (⟨name⟩ : Path).endsInSlash = false := by
  have hlast : name.toList.getLast? ≠ some '/' := fun hslash =>
    h.noSlash (List.mem_of_getLast? hslash)
  simpa [Path.endsInSlash] using hlast

namespace FileSystem

/-- The relative path of some names has these names. -/
theorem names_relativePath {names : List String} (h : ∀ name ∈ names, IsName name) :
    (relativePath names).names = names ∧ (relativePath names).isAbsolute = false := by
  cases names with
  | nil => exact ⟨rfl, rfl⟩
  | cons first rest =>
    have htext : (relativePath (first :: rest)).text.toList =
        ['/'].intercalate ((first :: rest).map String.toList) := String.toList_intercalate
    constructor
    · have hsplit : (relativePath (first :: rest)).pieces = (first :: rest).map String.toList := by
        unfold Path.pieces
        rw [htext, List.splitOn_intercalate _ ?_ (by simp)]
        intro piece hpiece
        obtain ⟨name, hname, rfl⟩ := List.mem_map.mp hpiece
        exact (h name hname).noSlash
      have hfilter : ((first :: rest).map String.toList).filter (fun piece => !piece.isEmpty) =
          (first :: rest).map String.toList := by
        rw [List.filter_eq_self]
        intro piece hpiece
        obtain ⟨name, hname, rfl⟩ := List.mem_map.mp hpiece
        simpa using (h name hname).nonempty
      unfold Path.names
      rw [hsplit, hfilter, List.map_map]
      simp [Function.comp_def, String.ofList_toList]
    · have hfirst := (h first List.mem_cons_self).names_mk.2
      have hne : first.toList ≠ [] := by simpa using (h first List.mem_cons_self).nonempty
      obtain ⟨c, more, hcons⟩ := List.exists_cons_of_ne_nil hne
      unfold Path.isAbsolute at hfirst ⊢
      rw [htext]
      cases rest <;> simpa [hcons, List.intercalate] using hfirst

/-- A path joined with names has its own names and, behind them, these. -/
theorem names_join_relativePath {names : List String} (h : ∀ name ∈ names, IsName name)
    (path : Path) :
    (path.join (relativePath names)).names = path.names ++ names ∧
      (path.join (relativePath names)).isAbsolute = path.isAbsolute := by
  obtain ⟨hnames, hrelative⟩ := names_relativePath h
  rw [Path.names_join path hrelative, hnames]
  exact ⟨rfl, Path.isAbsolute_join path hrelative⟩

/-- Names can be added to a path one by one. -/
theorem names_pathBelow {names : List String} (path : Path) (h : ∀ name ∈ names, IsName name) :
    (pathBelow path names).names = path.names ++ names ∧
      (pathBelow path names).isAbsolute = path.isAbsolute := by
  induction names generalizing path with
  | nil => simp [pathBelow]
  | cons name names ih =>
    obtain ⟨hnames, habsolute⟩ := (h name List.mem_cons_self).names_mk
    obtain ⟨hrest, hsame⟩ := ih (path.join ⟨name⟩) fun other hother =>
      h other (List.mem_cons_of_mem _ hother)
    constructor
    · rw [pathBelow, List.foldl_cons]
      exact hrest.trans (by rw [Path.names_join path habsolute, hnames, List.append_assoc]; rfl)
    · rw [pathBelow, List.foldl_cons]
      exact hsame.trans (Path.isAbsolute_join path habsolute)

/-- Names that are added to a path do not end in a slash. -/
theorem endsInSlash_pathBelow {front : List String} {name : String} (path : Path) (h : IsName name) :
    (pathBelow path (front ++ [name])).endsInSlash = false := by
  have hjoin : pathBelow path (front ++ [name]) = (pathBelow path front).join ⟨name⟩ := by
    simp [pathBelow]
  rw [hjoin, Path.endsInSlash_join _ h.names_mk.2 h.nonempty, h.endsInSlash_mk]

/-- A relative path of names is not empty if there are any. -/
theorem text_relativePath_ne {names : List String} (hne : names ≠ []) (h : ∀ name ∈ names, IsName name) :
    (relativePath names).text ≠ "" := by
  intro hempty
  have hnone : (relativePath names).names = (⟨""⟩ : Path).names := congrArg (Path.names ⟨·⟩) hempty
  rw [(names_relativePath h).1] at hnone
  exact hne hnone

/-- A path joined with names is not empty if there are any. -/
theorem text_join_relativePath_ne {names : List String} (path : Path) (hne : names ≠ [])
    (h : ∀ name ∈ names, IsName name) : (path.join (relativePath names)).text ≠ "" := by
  intro hempty
  have hnone : (path.join (relativePath names)).names = (⟨""⟩ : Path).names :=
    congrArg (Path.names ⟨·⟩) hempty
  rw [(names_join_relativePath h path).1] at hnone
  exact hne (List.append_eq_nil_iff.mp hnone).2

/-- A relative path of names does not end in a slash. -/
theorem endsInSlash_relativePath {names : List String} (h : ∀ name ∈ names, IsName name) :
    (relativePath names).endsInSlash = false := by
  induction names with
  | nil => rfl
  | cons name names ih =>
    have hname := h name List.mem_cons_self
    cases names with
    | nil => exact hname.endsInSlash_mk
    | cons next names =>
      have hrest : ∀ other ∈ next :: names, IsName other := fun other hother =>
        h other (List.mem_cons_of_mem _ hother)
      have hjoin : relativePath (name :: next :: names) =
          (⟨name⟩ : Path).join (relativePath (next :: names)) := by
        unfold Path.join
        rw [(names_relativePath hrest).2, hname.endsInSlash_mk, if_neg (by simpa using hname.nonempty)]
        apply congrArg Path.mk
        apply String.toList_injective
        simp [relativePath, String.toList_intercalate]
      rw [hjoin, Path.endsInSlash_join _ (names_relativePath hrest).2
        (text_relativePath_ne (List.cons_ne_nil _ _) hrest), ih hrest]

/-- A path joined with names does not end in a slash. -/
theorem endsInSlash_join_relativePath {names : List String} (path : Path) (hne : names ≠ [])
    (h : ∀ name ∈ names, IsName name) : (path.join (relativePath names)).endsInSlash = false := by
  rw [Path.endsInSlash_join _ (names_relativePath h).2 (text_relativePath_ne hne h),
    endsInSlash_relativePath h]

end FileSystem

end WorkingCopies
