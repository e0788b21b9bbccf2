import WorkingCopies.Proofs.Git.Failure
import WorkingCopies.Proofs.Masking
import WorkingCopies.RemoteUrls

/-!
# The URL with a login

With a login the two URLs of a hosted repository differ, and the one with the login has the password
between parts that are the same for every password.
-/

namespace WorkingCopies.RemoteUrls

open Git (SparedBy)
open Text (NoBlankEnds OnlyWithin)

variable {c : Char} {server user repository : String} {credentials : Credentials}
  {environment : Environment}

/-- The URL with a login, from its parts. -/
theorem authenticated_eq (hlogin : credentials.login ≠ "") :
    (hosted server user repository credentials environment).authenticated =
      "https://" ++ credentials.login ++ ":" ++ credentials.resolve environment ++ "@" ++ server ++
        "/" ++ user ++ "/" ++ repository ++ ".git" := by
  simp [hosted, hlogin, String.append_assoc]

/-- The URL that may be shown, from its parts. -/
theorem visible_eq :
    (hosted server user repository credentials environment).visible =
      "https://" ++ server ++ "/" ++ user ++ "/" ++ repository ++ ".git" := by
  simp [hosted, String.append_assoc]

/-- With a login there are two URLs. -/
theorem needAccess_of_login (hlogin : credentials.login ≠ "") :
    (hosted server user repository credentials environment).needAccess = true := by
  apply decide_eq_true
  intro hsame
  have hlength := congrArg (fun url => url.toList.length) hsame
  simp only [authenticated_eq hlogin, visible_eq, String.toList_append, List.length_append] at hlength
  have hcolon : ":".toList.length = 1 := rfl
  omega

/-- There is no white space at the ends of the URL with a login. -/
theorem noBlankEnds_authenticated (hlogin : credentials.login ≠ "") :
    NoBlankEnds (hosted server user repository credentials environment).authenticated.toList := by
  refine ⟨'h', ("ttps://" ++ credentials.login ++ ":" ++ credentials.resolve environment ++ "@" ++
    server ++ "/" ++ user ++ "/" ++ repository ++ ".gi").toList, 't', ?_, by decide, by decide⟩
  rw [authenticated_eq hlogin]
  simp

/-- How two URLs keep a character of a password secret: in the one it stands in the password alone,
and in the other nowhere. -/
structure KeepSecret (urls : RemoteUrls) (password : String) (c : Char) : Prop where
  mem : c ∈ password.toList
  around : ∃ before after, urls.authenticated.toList = before ++ (password.toList ++ after) ∧
    c ∉ before ∧ c ∉ after
  ends : NoBlankEnds urls.authenticated.toList
  visible : c ∉ urls.visible.toList

namespace KeepSecret

variable {urls : RemoteUrls} {password : String}

/-- A text that has the character nowhere but in copies of the URL with the password loses it when
the password is redacted. -/
theorem not_mem_redact (h : urls.KeepSecret password c) (hhidden : c ∉ hiddenPassword.toList)
    {text : String} (htext : OnlyWithin c urls.authenticated.toList text.toList) :
    c ∉ (redact password text).toList := by
  obtain ⟨before, after, hauthenticated, hbefore, hafter⟩ := h.around
  rw [hauthenticated] at htext
  exact WorkingCopies.not_mem_redact (htext.inside hbefore hafter) hhidden

/-- So does this URL itself. -/
theorem not_mem_redact_authenticated (h : urls.KeepSecret password c)
    (hhidden : c ∉ hiddenPassword.toList) :
    c ∉ (redact password urls.authenticated).toList := by
  apply h.not_mem_redact hhidden
  have hcopy : OnlyWithin c urls.authenticated.toList (urls.authenticated.toList ++ []) :=
    .copy .nil
  rwa [List.append_nil] at hcopy

/-- The URL that may be shown has nothing to redact. -/
theorem redact_visible (h : urls.KeepSecret password c) :
    redact password urls.visible = urls.visible := by
  apply Mask.hide_eq_self
  intro hpassword
  exact h.visible (hpassword.mem h.mem)

end KeepSecret

/-- The texts of the program in a URL. -/
def addressTexts : List String := ["https://", ":", "@", "/", ".git"]

/-- The URLs of a hosted repository keep a character of the password secret that is in no other part
of them. -/
theorem keepSecret_hosted (hlogin : credentials.login ≠ "")
    (hpassword : c ∈ (credentials.resolve environment).toList)
    (hparts : SparedBy c [credentials.login, server, user, repository])
    (htexts : SparedBy c addressTexts) :
    (hosted server user repository credentials environment).KeepSecret
      (credentials.resolve environment) c := by
  have hpart {text : String} (htext : text ∈ [credentials.login, server, user, repository]) :
      c ∉ text.toList := hparts text htext
  have hfixed {text : String} (htext : text ∈ addressTexts) : c ∉ text.toList := htexts text htext
  have haddress : c ∉ (server ++ "/" ++ user ++ "/" ++ repository ++ ".git").toList := by
    simp only [String.toList_append, List.mem_append, not_or]
    exact ⟨⟨⟨⟨⟨hpart (by simp), hfixed (by simp [addressTexts])⟩, hpart (by simp)⟩,
      hfixed (by simp [addressTexts])⟩, hpart (by simp)⟩, hfixed (by simp [addressTexts])⟩
  constructor
  · exact hpassword
  · refine ⟨("https://" ++ credentials.login ++ ":").toList,
      ("@" ++ (server ++ "/" ++ user ++ "/" ++ repository ++ ".git")).toList, ?_, ?_, ?_⟩
    · rw [authenticated_eq hlogin]
      simp
    · simp only [String.toList_append, List.mem_append, not_or]
      exact ⟨⟨hfixed (by simp [addressTexts]), hpart (by simp)⟩, hfixed (by simp [addressTexts])⟩
    · rw [String.toList_append, List.mem_append, not_or]
      exact ⟨hfixed (by simp [addressTexts]), haddress⟩
  · exact noBlankEnds_authenticated hlogin
  · have hvisible : (hosted server user repository credentials environment).visible =
        "https://" ++ (server ++ "/" ++ user ++ "/" ++ repository ++ ".git") := rfl
    rw [hvisible, String.toList_append, List.mem_append, not_or]
    exact ⟨hfixed (by simp [addressTexts]), haddress⟩

end WorkingCopies.RemoteUrls
