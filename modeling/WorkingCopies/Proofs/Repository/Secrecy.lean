import WorkingCopies.Proofs.Origin.Discretion
import WorkingCopies.Proofs.Repository.Download

/-!
# Git is told the password and nobody else

With a login git is given the URL as it is, password included. Wherever the program hands this URL
to git, or finds it in the origin, it shows no character of the password that stands nowhere else.
-/

namespace WorkingCopies

open FileSystem (createFaults refusedBy_createFolders)
open Git (Call Command SparedBy)
open Origin (Alone Trusted originTexts restore runAuthenticated setUrl setUrlArguments
  urlArguments)
open RemoteUrls (KeepSecret)
open Repository (primaryBranch)

variable {c : Char} {host : Host} {urls : RemoteUrls} {password : String}
  {workingCopy target : Path} {git : Git}

/-- Whether an operation gives git some arguments, call by call, and withholds a character as long as
the calls bring it nowhere but in copies of what git was given, or of some URL that it was asked
for. -/
def Confides {α : Type} (c : Char) (url : String) (host : Host) (operation : Operation α)
    (given : List (List (List String))) : Prop :=
  ∀ before, Ensures operation host before fun result calls after =>
    calls.map (·.arguments) ∈ given ∧
      ((∀ call ∈ calls, Trusted c url call) → Withholds c (fun _ => True) before result after)

/-- What is discreet confides what it gives to git. -/
theorem Discreet.confides {α : Type} {url : String} {operation : Operation α}
    {given : List (List (List String))}
    (h : Discreet c (Trusted c url) host operation fun _ => True)
    (hgiven : ∀ before, Ensures operation host before fun _ calls _ =>
      calls.map (·.arguments) ∈ given) : Confides c url host operation given :=
  fun before => (hgiven before).both (h before)

/-- The texts of the program in a clone. -/
def cloneTexts : List String :=
  ["clone", "-b", primaryBranch] ++ createFaults.map fun fault => (Failure.fileSystem fault).message

/-- Cloning shows the character nowhere, also where there is no folder for the working copy. -/
theorem Origin.Alone.discreet_clone (h : Alone c urls password workingCopy)
    (htarget : c ∉ target.text.toList) (htexts : SparedBy c cloneTexts) :
    Discreet c (Trusted c urls.authenticated) host
      (WorkingCopy.clone urls.authenticated (redact password urls.authenticated) primaryBranch
        target) fun _ => True := by
  have hides : (WorkingCopy.cloneCommand urls.authenticated
      (redact password urls.authenticated) primaryBranch target).Hides c := by
    have hfirst : SparedBy c ["clone", "-b", primaryBranch] :=
      htexts.mono (List.subset_append_left _ _)
    have hrest : SparedBy c [target.text] := by simpa [SparedBy] using htarget
    exact Command.hides_of_secret hfirst hrest
      (h.secret.not_mem_redact_authenticated h.not_mem_hiddenPassword) fun _ => h.secret.ends
  have hrun : Discreet c (Trusted c urls.authenticated) host
      (WorkingCopy.cloneCommand urls.authenticated (redact password urls.authenticated)
        primaryBranch target).run fun _ => True := h.discreet_run hides
  have hfaults : ∀ fault ∈ createFaults, (Failure.fileSystem fault).Lacks c :=
    fun fault hfault => htexts _ (List.mem_append_right _ (List.mem_map_of_mem hfault))
  unfold WorkingCopy.clone
  split
  · apply Discreet.bind (.edit (refusedBy_createFolders _) hfaults)
    · exact fun _ => Makes.discard (Makes.run fun _ _ => trivial)
    · exact fun _ _ => .discard hrun
  · exact .discard hrun

section Given

variable (hgit : host.git = some git)

include hgit in
/-- Setting a URL gives git the URL. -/
theorem Origin.given_setUrl {url : String} (before : Workspace) :
    Ensures (setUrl workingCopy url password) host before fun _ calls _ =>
      calls.map (·.arguments) ∈ [[setUrlArguments url]] := by
  apply (Origin.ensures_setUrl hgit).mono
  intro _ _ _ hset
  obtain ⟨set, hruns, rfl, -⟩ := hset
  simp [(Origin.of_runs_setUrlWithin hruns).2]

include hgit in
/-- Putting the visible URL back gives git this URL. -/
theorem Origin.given_restore (hurls : urls.needAccess = true) (before : Workspace) :
    Ensures (restore workingCopy urls password) host before fun _ calls _ =>
      calls.map (·.arguments) ∈ [[setUrlArguments urls.visible]] := by
  apply (Origin.ensures_restore hgit hurls).mono
  intro _ _ _ hback
  obtain ⟨-, back, hruns, rfl⟩ := hback
  simp [(Origin.of_runs_setUrlWithin hruns).2]

include hgit in
/-- A command that is run with the login stands between the two URLs, or is left out where the first
one could not be set. -/
theorem Origin.given_runAuthenticated {arguments : List String} (hurls : urls.needAccess = true)
    (before : Workspace) :
    Ensures (runAuthenticated workingCopy urls password (.plain arguments)) host before
      fun _ calls _ => calls.map (·.arguments) ∈ [[setUrlArguments urls.authenticated],
        [setUrlArguments urls.authenticated, arguments, setUrlArguments urls.visible]] := by
  apply (Origin.ensures_runAuthenticated hgit hurls).mono
  intro _ _ _ hguarded
  obtain ⟨set, hset, ⟨-, rfl, -⟩ | ⟨-, run, back, hrun, hback, rfl, -⟩⟩ := hguarded
  · simp [(Origin.of_runs_setUrlWithin hset).2]
  · have harguments : run.arguments = arguments := by
      rw [hrun.arguments, Command.map_text_plain_within]
    simp [(Origin.of_runs_setUrlWithin hset).2, (Origin.of_runs_setUrlWithin hback).2, harguments]

include hgit in
/-- Setting the origin right asks git for the URL, and may give it the visible one. -/
theorem Origin.given_repair {expected : String} (before : Workspace) :
    Ensures (Origin.repair workingCopy expected password) host before fun _ calls _ =>
      calls.map (·.arguments) ∈ [[urlArguments], [urlArguments, setUrlArguments expected]] := by
  have hurl : Ensures (Origin.url workingCopy) host before fun _ calls _ =>
      calls.map (·.arguments) = [urlArguments] := by
    have hrun : Ensures ((Command.plain urlArguments).within workingCopy).run host before
        fun _ calls _ => calls.map (·.arguments) = [urlArguments] := by
      apply (ensures_run_of_git hgit).mono
      intro _ _ _ hcall
      obtain ⟨call, hruns, rfl, -⟩ := hcall
      simp [hruns.arguments]
    apply Ensures.bind hrun
    · intro _ calls _ hcalls
      apply Ensures.pure
      rwa [List.append_nil]
    · exact fun _ _ _ hcalls => hcalls
  unfold Origin.repair
  apply Ensures.bind hurl
  · intro current calls between hcalls
    split
    · refine Ensures.step rfl rfl ?_
      apply Ensures.pure
      simp [hcalls]
    · refine Ensures.step rfl rfl ?_
      apply Ensures.bind (Origin.given_setUrl hgit _)
      · intro _ more _ hmore
        apply Ensures.pure
        simp [hcalls, List.mem_singleton.mp hmore]
      · intro _ more _ hmore
        simp [hcalls, List.mem_singleton.mp hmore]
  · intro _ calls _ hcalls
    simp [hcalls]

include hgit in
/-- Cloning gives git the URL with the login, or nothing where there is no folder for the working
copy. -/
theorem given_clone {shown : String} (before : Workspace) :
    Ensures (WorkingCopy.clone urls.authenticated shown primaryBranch target) host before
      fun _ calls _ => calls.map (·.arguments) ∈ [[], [cloneArguments urls target]] := by
  apply (WorkingCopy.ensures_clone hgit).mono
  intro _ _ _ hclone
  rcases hclone with ⟨rfl, -⟩ | ⟨call, hruns, rfl, -⟩
  · simp
  · have harguments : call.arguments = cloneArguments urls target := hruns.arguments
    simp [harguments]

end Given

/-- The texts of the program in all that is done with the URLs of a hosted repository. -/
def urlTexts : List String := RemoteUrls.addressTexts ++ cloneTexts ++ originTexts

/-- All that is done with the URLs of a hosted repository gives git the URLs as they are and shows
no character of the password that stands nowhere else, whatever succeeds or fails: setting either
URL, the clone of a download, a command between setting the URL with the login and putting the
visible one back, putting it back by itself, and setting the origin right. -/
theorem confides_urls {server user repository : String} {credentials : Credentials}
    {environment : Environment} {arguments : List String} (hlogin : credentials.login ≠ "")
    (hpassword : c ∈ (credentials.resolve environment).toList)
    (hinputs : SparedBy c ([credentials.login, server, user, repository, workingCopy.text,
      target.text] ++ arguments)) (htexts : SparedBy c urlTexts) :
    let host : Host := ⟨some git, environment⟩
    let urls := RemoteUrls.hosted server user repository credentials environment
    let password := credentials.resolve environment
    (∀ url ∈ [urls.authenticated, urls.visible],
        Confides c urls.authenticated host (setUrl workingCopy url password)
          [[setUrlArguments url]]) ∧
      Confides c urls.authenticated host
        (WorkingCopy.clone urls.authenticated (redact password urls.authenticated) primaryBranch
          target) [[], [cloneArguments urls target]] ∧
      Confides c urls.authenticated host
        (runAuthenticated workingCopy urls password (.plain arguments))
        [[setUrlArguments urls.authenticated],
          [setUrlArguments urls.authenticated, arguments, setUrlArguments urls.visible]] ∧
      Confides c urls.authenticated host (restore workingCopy urls password)
        [[setUrlArguments urls.visible]] ∧
      Confides c urls.authenticated host (Origin.repair workingCopy urls.visible password)
        [[urlArguments], [urlArguments, setUrlArguments urls.visible]] := by
  intro host urls password
  have hgit : host.git = some git := rfl
  have hurls : urls.needAccess = true := RemoteUrls.needAccess_of_login hlogin
  have hspared {text : String} (htext : text ∈ [credentials.login, server, user, repository,
      workingCopy.text, target.text]) : c ∉ text.toList :=
    hinputs text (List.mem_append_left _ htext)
  have hparts : SparedBy c [credentials.login, server, user, repository] :=
    hinputs.mono (by simp)
  have hsecret : urls.KeepSecret password c :=
    RemoteUrls.keepSecret_hosted hlogin hpassword hparts (htexts.mono (by simp [urlTexts]))
  have halone : Alone c urls password workingCopy :=
    ⟨hsecret, hspared (by simp), htexts.mono (by simp [urlTexts])⟩
  have hclone : SparedBy c cloneTexts := htexts.mono (by simp [urlTexts])
  have harguments : SparedBy c arguments := hinputs.mono (List.subset_append_right _ _)
  refine ⟨?_, ?_, ?_, ?_, ?_⟩
  · intro url hurl
    exact (halone.discreet_setUrl hurl).confides (Origin.given_setUrl hgit)
  · exact (halone.discreet_clone (hspared (by simp)) hclone).confides (given_clone hgit)
  · exact (halone.discreet_runAuthenticated harguments).confides
      (Origin.given_runAuthenticated hgit hurls)
  · exact halone.discreet_restore.confides (Origin.given_restore hgit hurls)
  · exact halone.discreet_repair.confides (Origin.given_repair hgit)

/-- A clone fails, and git complains about the URL with the login: the failure shows the URL without
the password. -/
theorem confides_urls_of_failed_clone :
    let url := "https://ci:Qx@h/u/r.git"
    let git : Git := fun _ files _ =>
      .ok (⟨128, [], Text.encode ("fatal: " ++ url)⟩, files)
    let clone := WorkingCopy.clone url (redact "Qx" url) primaryBranch ⟨"/w"⟩
    let outcome := Action.outcome clone ⟨some git, ⟨[]⟩⟩ { files := {} }
    outcome.1 = .error (.commandFailed
        "git clone -b master https://ci:<password-hidden>@h/u/r.git /w"
        "fatal: https://ci:<password-hidden>@h/u/r.git") ∧
      Withholds 'Q' (fun _ => True) { files := {} } outcome.1 outcome.2 := by
  intro url git clone outcome
  have hinputs : SparedBy 'Q' (["ci", "h", "u", "r", "/w", "/w"] ++
      ["fetch", "--tags"]) := by
    unfold SparedBy
    decide +kernel
  have htexts : SparedBy 'Q' urlTexts := by
    unfold SparedBy
    decide +kernel
  have hconfides := @confides_urls 'Q' ⟨"/w"⟩ ⟨"/w"⟩ git "h" "u" "r"
    ⟨"ci", "Qx", ""⟩ ⟨[]⟩ ["fetch", "--tags"] (by decide) (by decide) hinputs htexts
  have hurl : (RemoteUrls.hosted "h" "u" "r" ⟨"ci", "Qx", ""⟩
      ⟨[]⟩).authenticated = url := by decide +kernel
  have hpassword : Credentials.resolve ⟨"ci", "Qx", ""⟩ ⟨[]⟩ = "Qx" := by decide +kernel
  dsimp only at hconfides
  rw [hurl, hpassword] at hconfides
  obtain ⟨-, hclone, -⟩ := hconfides
  obtain ⟨calls, hcalls, -, hwithholds⟩ := hclone { files := {} }
  refine ⟨by decide +kernel, hwithholds fun call hcall => ?_⟩
  have hdata : (KeepsCalls.calls outcome.2).map (fun call => (call.arguments, call.outcome)) =
      [(["clone", "-b", "master", url, "/w"],
        .finished [] ⟨128, [], Text.encode ("fatal: " ++ url)⟩)] := by
    decide +kernel
  have hcomplaint : (Text.decodeLossy (Text.encode ("fatal: " ++ url))).toList =
      "fatal: ".toList ++ (url.toList ++ []) := by decide +kernel
  have hmade : KeepsCalls.calls outcome.2 = calls.reverse ++ [] := hcalls
  rw [hmade, List.append_nil, List.map_reverse, List.reverse_eq_iff] at hdata
  have hpair : (call.arguments, call.outcome) ∈ calls.map fun call =>
    (call.arguments, call.outcome) := List.mem_map_of_mem hcall
  rw [hdata, List.reverse_singleton, List.mem_singleton] at hpair
  obtain ⟨harguments, houtcome⟩ := Prod.mk.inj hpair
  refine .inl ⟨url, by simp [harguments], ?_⟩
  intro text htext
  rw [houtcome] at htext
  rcases List.mem_pair.mp htext with rfl | rfl
  · rw [hcomplaint]
    exact .append_of_not_mem (by decide) (.copy .nil)
  · rw [Text.toList_decodeLossy_nil]
    exact .nil

end WorkingCopies
