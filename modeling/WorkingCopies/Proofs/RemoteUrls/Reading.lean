import Mathlib.Data.List.TakeWhile
import WorkingCopies.Proofs.Text.Percent
import WorkingCopies.RemoteUrls
import WorkingCopies.Text.Replace

/-!
# Reading a URL

A URL is read from its marks. Behind the scheme stands the authority, up to the next slash, question
mark or number sign; up to its last at sign it names who is let in, the login in front of the first
colon and the password behind it, with percent signs for bytes; what is left of it is the host. The
URL of a hosted repository is put together without regard to these marks, so a login or a password
with a mark of its own may be read as something else.
-/

namespace WorkingCopies

open Text (encode percentDecode? stripInitial?)

variable {c : Char} {text before after : List Char}

namespace Text

/-- The parts of a text in front of the first of some character and behind it. -/
def splitFirst (c : Char) : List Char → Option (List Char × List Char)
  | [] => none
  | x :: text =>
    if x = c then some ([], text)
    else (splitFirst c text).map fun parts => (x :: parts.1, parts.2)

/-- The parts of a text in front of the last of some character and behind it. -/
def splitLast (c : Char) (text : List Char) : Option (List Char × List Char) :=
  (splitFirst c text.reverse).map fun parts => (parts.2.reverse, parts.1.reverse)

/-- A text is split where the character stands and not before. -/
theorem splitFirst_eq_some_iff :
    splitFirst c text = some (before, after) ↔ text = before ++ c :: after ∧ c ∉ before := by
  induction text generalizing before with
  | nil => simp [splitFirst]
  | cons x text ih =>
    by_cases hx : x = c
    · subst hx
      cases before with
      | nil => simp [splitFirst]
      | cons y before => simp +contextual [splitFirst]
    · rw [splitFirst, if_neg hx, Option.map_eq_some_iff]
      constructor
      · intro hparts
        obtain ⟨⟨start, rest⟩, hsplit, hparts⟩ := hparts
        obtain ⟨rfl, rfl⟩ := Prod.mk.inj hparts
        obtain ⟨hrest, hstart⟩ := ih.mp hsplit
        exact ⟨congrArg (x :: ·) hrest, by simp [Ne.symm hx, hstart]⟩
      · intro hwhole
        obtain ⟨hwhole, hbefore⟩ := hwhole
        cases before with
        | nil => exact absurd (List.cons.inj hwhole).1 hx
        | cons y before =>
          obtain ⟨rfl, hrest⟩ := List.cons.inj hwhole
          rw [List.mem_cons, not_or] at hbefore
          exact ⟨(before, after), ih.mpr ⟨hrest, hbefore.2⟩, rfl⟩

/-- A text is split where the character stands and not after. -/
theorem splitLast_eq_some_iff :
    splitLast c text = some (before, after) ↔ text = before ++ c :: after ∧ c ∉ after := by
  have hback : splitLast c text = some (before, after) ↔
      splitFirst c text.reverse = some (after.reverse, before.reverse) := by
    unfold splitLast
    rw [Option.map_eq_some_iff]
    constructor
    · intro hparts
      obtain ⟨⟨start, rest⟩, hsplit, hparts⟩ := hparts
      obtain ⟨rfl, rfl⟩ := Prod.mk.inj hparts
      simpa using hsplit
    · intro hsplit
      exact ⟨_, hsplit, by simp⟩
  rw [hback, splitFirst_eq_some_iff, List.mem_reverse, List.reverse_eq_iff]
  simp

end Text

namespace RemoteUrls

/-- Who is let in by a URL. -/
structure Access where
  login : Bytes
  /-- The password, where there is a colon behind the login. -/
  password : Option Bytes
  deriving DecidableEq

/-- What a URL says. -/
structure Reading where
  /-- Who is let in, where the URL says so. -/
  access : Option Access
  host : List Char
  path : List Char
  deriving DecidableEq

/-- Whether a character ends the authority. -/
def endsAuthority (c : Char) : Bool := c = '/' || c = '?' || c = '#'

/-- Read who is let in. -/
def readAccess (text : List Char) : Option Access :=
  match Text.splitFirst ':' text with
  | some (login, password) => do
    return { login := ← percentDecode? login, password := some (← percentDecode? password) }
  | none => do return { login := ← percentDecode? text, password := none }

/-- Read what stands behind the scheme. -/
def readBehind (text : List Char) : Option Reading :=
  let authority := text.takeWhile fun c => !endsAuthority c
  let path := (text.drop authority.length).takeWhile fun c => c ≠ '?' && c ≠ '#'
  match Text.splitLast '@' authority with
  | some (access, host) => (readAccess access).map fun access => { access := some access, host, path }
  | none => some { access := none, host := authority, path }

/-- Read a URL. There is nothing to read in a text without the scheme, and in one with percent signs
that stand for no byte. -/
def read (url : String) : Option Reading := do
  readBehind (← stripInitial? "https://".toList url.toList)

/-- A login and a password are read from what stands in front of the first colon and behind it. -/
theorem readAccess_eq_some_iff {login password : Bytes} :
    readAccess text = some ⟨login, some password⟩ ↔
      ∃ first second, text = first ++ ':' :: second ∧ ':' ∉ first ∧
        percentDecode? first = some login ∧ percentDecode? second = some password := by
  unfold readAccess
  constructor
  · intro hread
    cases hsplit : Text.splitFirst ':' text with
    | none =>
      rw [hsplit] at hread
      obtain ⟨_, -, haccess⟩ := Option.bind_eq_some_iff.mp hread
      cases haccess
    | some parts =>
      obtain ⟨htext, hfirst⟩ := Text.splitFirst_eq_some_iff.mp hsplit
      rw [hsplit] at hread
      refine ⟨parts.1, parts.2, htext, hfirst, ?_⟩
      simpa [Option.bind_eq_some_iff] using hread
  · intro hparts
    obtain ⟨first, second, htext, hfirst, hlogin, hpassword⟩ := hparts
    have hsplit : Text.splitFirst ':' text = some (first, second) :=
      Text.splitFirst_eq_some_iff.mpr ⟨htext, hfirst⟩
    simp [hsplit, hlogin, hpassword]

/-- What is read of a URL that lets somebody in with a password is read off its marks. -/
theorem of_readBehind_eq_some {login password : Bytes} {host path : List Char}
    (h : readBehind text = some ⟨some ⟨login, some password⟩, host, path⟩) :
    ∃ first second behind, text = first ++ ':' :: second ++ '@' :: host ++ behind ∧
      (∀ c ∈ first ++ ':' :: second ++ '@' :: host, endsAuthority c = false) ∧ ':' ∉ first ∧
      percentDecode? first = some login ∧ percentDecode? second = some password := by
  unfold readBehind at h
  dsimp only at h
  have hauthority : ∀ c ∈ text.takeWhile fun c => !endsAuthority c, endsAuthority c = false := by
    intro c hc
    simpa using List.mem_takeWhile_imp hc
  split at h
  · next access found hsplit =>
    obtain ⟨read, hread, hreading⟩ := Option.map_eq_some_iff.mp h
    cases hreading
    obtain ⟨first, second, rfl, hfirst, hlogin, hpassword⟩ := readAccess_eq_some_iff.mp hread
    obtain ⟨hparts, -⟩ := Text.splitLast_eq_some_iff.mp hsplit
    rw [hparts] at hauthority
    refine ⟨first, second, text.dropWhile fun c => !endsAuthority c, ?_, hauthority, hfirst, hlogin,
      hpassword⟩
    rw [← hparts, List.takeWhile_append_dropWhile]
  · cases h

/-- A text that is put together from a login, a password, a host and a path is read so, as long as
the marks are found where they were put. -/
theorem readBehind_eq_some {login password : Bytes} {first second host path : List Char}
    (hauthority : ∀ c ∈ first ++ ':' :: second ++ '@' :: host, endsAuthority c = false)
    (hpath : ∀ c ∈ path, c ≠ '?' ∧ c ≠ '#') (hfirst : ':' ∉ first) (hhost : '@' ∉ host)
    (hlogin : percentDecode? first = some login)
    (hpassword : percentDecode? second = some password) :
    readBehind (first ++ ':' :: second ++ '@' :: host ++ '/' :: path) =
      some ⟨some ⟨login, some password⟩, host, '/' :: path⟩ := by
  generalize hwhole : first ++ ':' :: second ++ '@' :: host = authority at hauthority ⊢
  have htake : (authority ++ '/' :: path).takeWhile (fun c => !endsAuthority c) = authority := by
    rw [List.takeWhile_append_of_pos (by simpa using hauthority)]
    simp [endsAuthority]
  have hall : ('/' :: path).takeWhile (fun c => c ≠ '?' && c ≠ '#') = '/' :: path := by
    simpa using hpath
  have hsplit : Text.splitLast '@' authority = some (first ++ ':' :: second, host) :=
    Text.splitLast_eq_some_iff.mpr ⟨hwhole.symm, hhost⟩
  have haccess : readAccess (first ++ ':' :: second) = some ⟨login, some password⟩ :=
    readAccess_eq_some_iff.mpr ⟨first, second, rfl, hfirst, hlogin, hpassword⟩
  unfold readBehind
  rw [htake]
  dsimp only
  rw [List.drop_left, hall, hsplit]
  dsimp only
  rw [haccess]
  rfl

/-- An authority that is read where another one was put, and counts no fewer bytes, is that one: it
ends no later, since there is a slash. -/
theorem authority_eq {read put behind path : List Char}
    (hwhole : put ++ '/' :: path = read ++ behind) (hread : ∀ c ∈ read, endsAuthority c = false)
    (hlength : String.utf8Len put ≤ String.utf8Len read) : read = put := by
  have hprefix : read <+: put := by
    rcases List.append_eq_append_iff.mp hwhole with ⟨rest, hrest, hslash⟩ | ⟨rest, hrest, -⟩
    · cases rest with
      | nil =>
        rw [List.append_nil] at hrest
        exact hrest ▸ List.prefix_rfl
      | cons c rest =>
        obtain ⟨rfl, -⟩ := List.cons.inj hslash
        have hends := hread '/' (by simp [hrest])
        cases hends
    · exact ⟨rest, hrest.symm⟩
  exact Text.eq_of_prefix_of_utf8Len hprefix hlength

/-- Two pairs of texts with a colon between them that come to the same are the same, if neither text
of the one pair counts fewer bytes than that of the other. -/
theorem parts_eq {first second login password : List Char}
    (hwhole : first ++ ':' :: second = login ++ ':' :: password)
    (hlogin : String.utf8Len login ≤ String.utf8Len first)
    (hpassword : String.utf8Len password ≤ String.utf8Len second) :
    first = login ∧ second = password := by
  have hcounts := congrArg String.utf8Len hwhole
  simp only [String.utf8Len_append, String.utf8Len_cons] at hcounts
  have hfirst : first = login := by
    have hstart : first <+: login ++ ':' :: password := hwhole ▸ List.prefix_append _ _
    rcases List.prefix_or_prefix_of_prefix hstart (List.prefix_append login _) with h | h
    · exact Text.eq_of_prefix_of_utf8Len h hlogin
    · exact (Text.eq_of_prefix_of_utf8Len h (by omega)).symm
  refine ⟨hfirst, ?_⟩
  rw [hfirst] at hwhole
  exact (List.cons.inj (List.append_cancel_left hwhole)).2

/-- Whether a part of a URL is free of some marks. -/
def FreeOf (marks text : String) : Prop := ∀ c ∈ text.toList, c ∉ marks.toList

instance (marks text : String) : Decidable (FreeOf marks text) :=
  List.decidableBAll (fun c => c ∉ marks.toList) text.toList

/-- A part that is free of some marks is free of fewer. -/
theorem FreeOf.mono {marks fewer part : String} (h : FreeOf marks part)
    (hfewer : fewer.toList ⊆ marks.toList) : FreeOf fewer part :=
  fun c hc hmark => h c hc (hfewer hmark)

/-- A part that is free of the marks in question has none that ends the authority and no percent
sign. -/
theorem freeOf_iff {part : String} :
    FreeOf "/?#%" part ↔ (∀ c ∈ part.toList, endsAuthority c = false) ∧ '%' ∉ part.toList := by
  constructor
  · intro hfree
    constructor
    · intro c hc
      have hmarks := hfree c hc
      simp only [String.reduceToList, List.mem_cons, not_or] at hmarks
      simp [endsAuthority, hmarks.1, hmarks.2.1, hmarks.2.2.1]
    · exact fun hpercent => hfree '%' hpercent (by decide)
  · intro hfree c hc hmark
    obtain ⟨hends, hpercent⟩ := hfree
    have hnoEnd : endsAuthority c = false := hends c hc
    simp only [String.reduceToList, List.mem_cons, List.not_mem_nil, or_false] at hmark
    rcases hmark with rfl | rfl | rfl | rfl
    · cases hnoEnd
    · cases hnoEnd
    · cases hnoEnd
    · exact hpercent hc

/-- The same for a login, which must have no colon either. -/
theorem freeOf_colon_iff {part : String} :
    FreeOf ":/?#%" part ↔ ':' ∉ part.toList ∧ FreeOf "/?#%" part := by
  have hmarks : ":/?#%".toList = ':' :: "/?#%".toList := by decide
  constructor
  · intro hfree
    unfold FreeOf at hfree
    simp only [hmarks, List.mem_cons, not_or] at hfree
    exact ⟨fun hcolon => (hfree ':' hcolon).1 rfl, fun c hc => (hfree c hc).2⟩
  · intro hfree c hc
    rw [hmarks, List.mem_cons, not_or]
    refine ⟨?_, hfree.2 c hc⟩
    intro hcolon
    exact hfree.1 (hcolon ▸ hc)

section Hosted

variable {login password : String} {host path readPath : List Char}

/-- A text in which the login and the password are read back is free of the marks that would be read
in their stead. -/
theorem freeOf_of_readBehind
    (h : readBehind (login.toList ++ ':' :: password.toList ++ '@' :: host ++ '/' :: path) =
      some ⟨some ⟨encode login, some (encode password)⟩, host, readPath⟩) :
    FreeOf ":/?#%" login ∧ FreeOf "/?#%" password := by
  obtain ⟨first, second, behind, hwhole, hauthority, hcolon, hlogin, hpassword⟩ :=
    of_readBehind_eq_some h
  have hfirst := Text.utf8Len_of_percentDecode? hlogin
  have hsecond := Text.utf8Len_of_percentDecode? hpassword
  have hput : first ++ ':' :: second ++ '@' :: host =
      login.toList ++ ':' :: password.toList ++ '@' :: host := by
    apply authority_eq hwhole hauthority
    simp only [String.utf8Len_append, String.utf8Len_cons]
    omega
  obtain ⟨rfl, rfl⟩ := parts_eq (List.append_cancel_right hput) (by omega) (by omega)
  have hloginPercent : '%' ∉ login.toList := List.count_eq_zero.mp (by omega)
  have hpasswordPercent : '%' ∉ password.toList := List.count_eq_zero.mp (by omega)
  rw [freeOf_colon_iff, freeOf_iff, freeOf_iff]
  have hloginEnds : ∀ c ∈ login.toList, endsAuthority c = false :=
    fun c hc => hauthority c (by simp [hc])
  have hpasswordEnds : ∀ c ∈ password.toList, endsAuthority c = false :=
    fun c hc => hauthority c (by simp [hc])
  exact ⟨⟨hcolon, hloginEnds, hloginPercent⟩, hpasswordEnds, hpasswordPercent⟩

/-- A text that is put together from parts that are free of these marks is read back. -/
theorem readBehind_of_freeOf (hlogin : FreeOf ":/?#%" login) (hpassword : FreeOf "/?#%" password)
    (hhost : ∀ c ∈ host, endsAuthority c = false) (hat : '@' ∉ host)
    (hpath : ∀ c ∈ path, c ≠ '?' ∧ c ≠ '#') :
    readBehind (login.toList ++ ':' :: password.toList ++ '@' :: host ++ '/' :: path) =
      some ⟨some ⟨encode login, some (encode password)⟩, host, '/' :: path⟩ := by
  rw [freeOf_colon_iff, freeOf_iff] at hlogin
  rw [freeOf_iff] at hpassword
  obtain ⟨hcolon, hloginEnds, hloginPercent⟩ := hlogin
  obtain ⟨hpasswordEnds, hpasswordPercent⟩ := hpassword
  have hdecoded {part : String} (h : '%' ∉ part.toList) :
      percentDecode? part.toList = some (encode part) := by
    rw [Text.percentDecode?_of_not_mem h, String.ofList_toList]
  apply readBehind_eq_some ?_ hpath hcolon hat (hdecoded hloginPercent) (hdecoded hpasswordPercent)
  intro c hc
  simp only [List.mem_append, List.mem_cons] at hc
  rcases hc with (hc | rfl | hc) | rfl | hc
  · exact hloginEnds c hc
  · rfl
  · exact hpasswordEnds c hc
  · rfl
  · exact hhost c hc

end Hosted

/-- The path of a hosted repository behind its first slash. -/
def hostedPath (user repository : String) : List Char :=
  user.toList ++ '/' :: repository.toList ++ ".git".toList

/-- The characters of the path of a hosted repository. -/
theorem toList_path (user repository : String) :
    ("/" ++ user ++ "/" ++ repository ++ ".git").toList = '/' :: hostedPath user repository := by
  simp [hostedPath]

/-- A part that is free of all marks has none that ends the authority. -/
theorem FreeOf.endsAuthority {part : String} (h : FreeOf "/@:?#%" part) :
    ∀ c ∈ part.toList, endsAuthority c = false :=
  (freeOf_iff.mp (h.mono (by decide))).1

/-- Nothing ends the path of a repository if nothing in its parts does. -/
theorem hostedPath_free {user repository : String} (huser : FreeOf "/@:?#%" user)
    (hrepository : FreeOf "/@:?#%" repository) :
    ∀ c ∈ hostedPath user repository, c ≠ '?' ∧ c ≠ '#' := by
  have hplain {c : Char} (h : endsAuthority c = false) : c ≠ '?' ∧ c ≠ '#' := by
    simp only [endsAuthority, Bool.or_eq_false_iff, decide_eq_false_iff_not] at h
    exact ⟨h.1.2, h.2⟩
  intro c hc
  simp only [hostedPath, List.mem_append, List.mem_cons] at hc
  rcases hc with (hc | rfl | hc) | hc
  · exact hplain (huser.endsAuthority c hc)
  · decide
  · exact hplain (hrepository.endsAuthority c hc)
  · simp only [String.reduceToList, List.mem_cons, List.not_mem_nil, or_false] at hc
    rcases hc with rfl | rfl | rfl | rfl <;> decide

/-- Behind the scheme of the URL with a login stand the login, the password, the server and the
path, with a mark between each two of them. -/
theorem read_authenticated_eq {server user repository : String} {credentials : Credentials}
    {environment : Environment} (hlogin : credentials.login ≠ "") :
    read (hosted server user repository credentials environment).authenticated =
      readBehind (credentials.login.toList ++ ':' :: (credentials.resolve environment).toList ++
        '@' :: server.toList ++ '/' :: hostedPath user repository) := by
  have hurl : (hosted server user repository credentials environment).authenticated.toList =
      "https://".toList ++ (credentials.login.toList ++
        ':' :: (credentials.resolve environment).toList ++ '@' :: server.toList ++
          '/' :: hostedPath user repository) := by
    simp [hosted, hlogin, hostedPath]
  rw [read, hurl, Text.stripInitial?_append]
  rfl

/-- The URL with a login, read back, gives the login, the password, the server, the user and the
repository exactly if the login is free of colons and it and the password are free of slashes,
question marks, number signs and percent signs: other characters, the at sign and the colon of a
password among them, move no boundary of the URL. -/
theorem read_authenticated_iff {server user repository : String} {credentials : Credentials}
    {environment : Environment} (hlogin : credentials.login ≠ "")
    (hserver : FreeOf "/@:?#%" server) (huser : FreeOf "/@:?#%" user)
    (hrepository : FreeOf "/@:?#%" repository) :
    let password := credentials.resolve environment
    read (hosted server user repository credentials environment).authenticated =
        some ⟨some ⟨encode credentials.login, some (encode password)⟩, server.toList,
          ("/" ++ user ++ "/" ++ repository ++ ".git").toList⟩ ↔
      FreeOf ":/?#%" credentials.login ∧ FreeOf "/?#%" password := by
  intro password
  rw [read_authenticated_eq hlogin, toList_path]
  constructor
  · exact freeOf_of_readBehind
  · intro hfree
    have hat : '@' ∉ server.toList := fun hat => hserver '@' hat (by decide)
    exact readBehind_of_freeOf hfree.1 hfree.2 hserver.endsAuthority hat
      (hostedPath_free huser hrepository)

/-- An at sign and a colon in the password are read back. -/
theorem read_authenticated_of_marks :
    let credentials : Credentials := { login := "ci", password := "p@s:s" }
    FreeOf ":/?#%" "ci" ∧ FreeOf "/?#%" "p@s:s" ∧
      read (hosted "git.example" "acme" "widgets" credentials ⟨[]⟩).authenticated =
        some ⟨some ⟨encode "ci", some (encode "p@s:s")⟩, "git.example".toList,
          "/acme/widgets.git".toList⟩ := by
  intro credentials
  have hlogin : FreeOf ":/?#%" "ci" := by decide +kernel
  have hpassword : FreeOf "/?#%" "p@s:s" := by decide +kernel
  have hread := (@read_authenticated_iff "git.example" "acme" "widgets" credentials ⟨[]⟩
    (by decide) (by decide +kernel) (by decide +kernel) (by decide +kernel)).mpr ⟨hlogin, hpassword⟩
  exact ⟨hlogin, hpassword, hread⟩

/-- A slash in the password ends the authority: what stands in front of it is read as the host, and
nobody is let in. -/
theorem read_authenticated_of_slash :
    let credentials : Credentials := { login := "ci", password := "Qx/y" }
    read (hosted "github.com" "acme" "widgets" credentials ⟨[]⟩).authenticated =
      some ⟨none, "ci:Qx".toList, "/y@github.com/acme/widgets.git".toList⟩ := by
  decide +kernel

end RemoteUrls

end WorkingCopies
