import WorkingCopies.Proofs.RemoteUrls.Access
import WorkingCopies.Proofs.Repository.Download
import WorkingCopies.Proofs.Repository.FetchFirst

/-!
# What a failure shows of the login

While the origin has the URL with the login, git may write this URL into what it complains about.
The commands that run then have no secrets of their own, so nothing hides the URL: where such a
command fails, its failure is the answer and shows the password exactly if the URL is in what git
wrote, or in the reason for which git was not started.
-/

namespace WorkingCopies

open Git (Call Command SparedBy)
open Origin (setUrlCommand setUrlWithin)

variable {c : Char}

/-- With a login there are two URLs, and the one with the login has the password in it and no white
space at its ends. -/
theorem Hosted.urls_of_login {hosted : Hosted} {environment : Environment}
    (hlogin : hosted.credentials.login ≠ "")
    (hpassword : c ∈ (hosted.password environment).toList) :
    (hosted.urls environment).needAccess = true ∧
      c ∈ (hosted.urls environment).authenticated.toList ∧
      Text.NoBlankEnds (hosted.urls environment).authenticated.toList := by
  have hmem : c ∈ (hosted.urls environment).authenticated.toList := by
    rw [Hosted.urls, RemoteUrls.authenticated_eq hlogin]
    simp only [String.toList_append, List.mem_append]
    simp [show c ∈ (hosted.credentials.resolve environment).toList from hpassword]
  exact ⟨RemoteUrls.needAccess_of_login hlogin, hmem, RemoteUrls.noBlankEnds_authenticated hlogin⟩

/-- The failures of a checkout and of the submodules end a checkout. -/
theorem surfaces_checkout {workingCopy : Path} {reference : String} :
    Surfaces ["checkout", "submodule"] (checkout workingCopy reference) := by
  have hclassify : Surfaces ["checkout", "submodule"]
      (Reference.classify workingCopy reference) := by
    refine .of_makes ((Reference.makes_classify reference).mono fun call hcall name hname => ?_)
    exact hcall.head_ne (by revert name; decide)
  have hreport {level : Log.Level} {topic : Log.Topic} {text : String} :
      Surfaces ["checkout", "submodule"] (Operation.report level topic text) :=
    .of_makes Makes.report
  refine .bind hclassify fun kind => .bind ?_ fun _ => .bind (.discard .execute) fun _ =>
    .discard .execute
  unfold checkoutKind
  dsimp only
  split <;> exact .bind hreport fun _ => .discard .execute

namespace Repository

/-- The texts of the program in the commands that run with the login in the origin, and in their
failures. -/
def exposedTexts : List String :=
  ["fetch", "--tags", "checkout", "-b", "tags/", "submodule", "init", "update"] ++
    Git.failureTexts

namespace Request

/-- The commands that a request runs with the login in the origin. -/
def exposed : Request → List String
  | .fetchFile .. | .update .. => ["fetch"]
  | .download .. => ["checkout", "submodule"]
  | _ => []

/-- The texts that come with a request. -/
def texts : Request → List String
  | .commit => []
  | .setCommit reference => [reference]
  | .fetchFile workingCopy file folder => [workingCopy.text, file, folder.text]
  | .download reference target => [reference, target.text]
  | .update workingCopy reference | .hashOf workingCopy reference | .namesOf workingCopy reference
  | .kindOf workingCopy reference => [workingCopy.text, reference]
  | .repairOrigin workingCopy | .hasChanges workingCopy => [workingCopy.text]

end Request

variable {hosted : Hosted} {git : Git} {host : Host} {repository : Repository}
  {workspace : Workspace} {urls : RemoteUrls} {password : String} {workingCopy : Path}
  {answer : Except Failure Answer} {calls : List Call}

/-- Where a fetch fails, its failure is the answer. -/
theorem FetchesFirst.surfaces (hurls : urls.needAccess = true)
    (h : FetchesFirst urls password workingCopy answer calls) :
    ∀ call ∈ calls, call.arguments.head? = some "fetch" →
      call.arguments = fetchArguments ∧ call.Surfaces answer := by
  obtain ⟨result, first, rest, rfl, hstep, hrest, hfailure⟩ := h
  intro call hcall hhead
  -- of the three calls of a guarded fetch only the one between the others is the fetch
  have hnotSet {set : Call} {url : String}
      (hset : set.Runs (setUrlWithin workingCopy url password)) : call ≠ set := by
    intro hsame
    subst hsame
    rw [hset.arguments] at hhead
    exact absurd hhead (by simp [setUrlCommand, Command.within])
  rcases List.mem_append.mp hcall with hfirst | hcall
  · rcases hstep with ⟨-, rfl⟩ | ⟨output, rfl, hstep⟩
    · cases hfirst
    · rw [if_pos hurls] at hstep
      obtain ⟨set, hset, ⟨-, rfl, -⟩ | ⟨-, run, back, hrun, hback, rfl, rfl⟩⟩ := hstep
      · exact absurd (List.mem_singleton.mp hfirst) (hnotSet hset)
      · simp only [List.mem_cons, List.not_mem_nil, or_false, hnotSet hset, hnotSet hback,
          false_or] at hfirst
        subst hfirst
        have harguments : call.arguments = fetchArguments := by
          rw [hrun.arguments, Command.map_text_plain_within]
        refine ⟨harguments, ⟨workingCopy, by rwa [harguments]⟩, fun hfailed => ?_⟩
        rw [harguments]
        obtain ⟨failure, hcause⟩ : ∃ failure,
            fetchCommand.conclude call.outcome = .error failure := Command.exists_failure hfailed
        refine ⟨failure, hcause, (hfailure failure ?_).2⟩
        rw [Command.conclude_within, hcause]
        rfl
  · exact absurd hhead ((hrest call hcall).head_ne (by decide))

/-- Where a checkout of a download fails, its failure is the result. -/
theorem surfaces_downloadFrom_hosted (reference : String) (target : Path) :
    Surfaces ["checkout", "submodule"] (downloadFrom reference target (.hosted hosted)) := by
  have hclone (url shown : String) : Surfaces ["checkout", "submodule"]
      (WorkingCopy.clone url shown primaryBranch target) := by
    refine .of_makes ((WorkingCopy.makes_clone _ _ _ _).mono fun call hcall name hname => ?_)
    rw [hcall.2]
    simp only [List.head?_cons, ne_eq, Option.some.injEq]
    revert name
    decide
  refine .bind (.of_makes (Makes.silent fun _ _ => rfl)) fun _ =>
    .bind (.of_makes Makes.report) fun _ => .bind (hclone _ _) fun _ => ?_
  exact Origin.surfaces_restoringAfter _ _ (by decide) surfaces_checkout

/-- The commands of the checkout of a download. -/
theorem makes_downloadFrom_hosted (reference : String) (target : Path) :
    Makes (downloadFrom reference target (.hosted hosted)) fun call =>
      (∃ name ∈ ["checkout", "submodule"], call.arguments.head? = some name) →
        call.arguments ∈ checkoutArguments reference := by
  have hvacuous {call : Call} {name : String} (hhead : call.arguments.head? = some name)
      (hname : name ∉ ["checkout", "submodule"]) :
      (∃ name ∈ ["checkout", "submodule"], call.arguments.head? = some name) →
        call.arguments ∈ checkoutArguments reference := by
    intro hnamed
    obtain ⟨other, hother, hsame⟩ := hnamed
    obtain rfl := Option.some.inj (hhead.symm.trans hsame)
    exact absurd hother hname
  have hprobes : ∀ name ∈ Reference.probeCommands, name ∉ ["checkout", "submodule"] := by decide
  refine Makes.bind (Makes.silent fun _ _ => rfl) fun _ => Makes.bind Makes.report fun _ => ?_
  refine Makes.bind ((WorkingCopy.makes_clone _ _ _ _).mono fun call hcall => ?_) fun _ => ?_
  · exact hvacuous (by rw [hcall.2]; rfl) (by decide)
  · refine Origin.makes_restoringAfter _ _ (fun call hcall => ?_)
      ((makes_checkout_arguments reference).mono fun call hcall => ?_)
    · exact hvacuous (by rw [hcall.2]; rfl) (by decide)
    · rcases hcall with ⟨-, name, hname, hhead⟩ | ⟨-, harguments⟩
      · exact hvacuous hhead (hprobes name hname)
      · exact fun _ => harguments

/-- A character that no text of the program has is none of the arguments of the fetch. -/
theorem spared_fetchArguments (hprogram : SparedBy c exposedTexts) :
    SparedBy c fetchArguments :=
  fun text htext => hprogram text (by
    simp only [fetchArguments, List.mem_cons, List.not_mem_nil, or_false] at htext
    rcases htext with rfl | rfl <;> simp [exposedTexts])

/-- Nor is it in the arguments of a checkout, if the reference lacks it, too. -/
theorem spared_checkoutArguments {reference : String} (hreference : c ∉ reference.toList)
    (hprogram : SparedBy c exposedTexts) (arguments : List String)
    (harguments : arguments ∈ checkoutArguments reference) : SparedBy c arguments := by
  have hfixed {text : String} (htext : text ∈ exposedTexts) : c ∉ text.toList := hprogram text htext
  have htag : c ∉ (Reference.qualify reference .tag).toList := by
    show c ∉ ("tags/" ++ reference).toList
    rw [String.toList_append, List.mem_append, not_or]
    exact ⟨hfixed (by simp [exposedTexts]), hreference⟩
  simp only [checkoutArguments, List.mem_cons, List.not_mem_nil, or_false] at harguments
  rcases harguments with rfl | rfl | rfl | rfl <;> intro text htext <;>
    simp only [List.mem_cons, List.not_mem_nil, or_false] at htext
  · rcases htext with rfl | rfl
    · exact hfixed (by simp [exposedTexts])
    · exact hreference
  · rcases htext with rfl | rfl | rfl | rfl
    · exact hfixed (by simp [exposedTexts])
    · exact htag
    · exact hfixed (by simp [exposedTexts])
    · exact hreference
  · rcases htext with rfl | rfl <;> exact hfixed (by simp [exposedTexts])
  · rcases htext with rfl | rfl <;> exact hfixed (by simp [exposedTexts])

/-- What a request runs with the login in the origin has nothing of the password in its arguments,
and where it fails, its failure is the answer. -/
theorem ensures_serve_surfaces {request : Request} (hgit : host.git = some git)
    (hsource : repository.source = .hosted hosted)
    (hurls : (hosted.urls host.environment).needAccess = true)
    (htexts : SparedBy c request.texts) (hprogram : SparedBy c exposedTexts) :
    Ensures request.serve host (repository, workspace) fun answer calls _ =>
      ∀ call ∈ calls, (∃ name ∈ request.exposed, call.arguments.head? = some name) →
        SparedBy c call.arguments ∧ call.Surfaces answer := by
  have hfetch {workingCopy : Path} {answer : Except Failure Answer} {calls : List Call}
      (h : FetchesFirst (hosted.urls host.environment) (hosted.password host.environment)
        workingCopy answer calls) (call : Call) (hcall : call ∈ calls)
      (hnamed : ∃ name ∈ ["fetch"], call.arguments.head? = some name) :
      SparedBy c call.arguments ∧ call.Surfaces answer := by
    obtain ⟨name, hname, hhead⟩ := hnamed
    rw [List.mem_singleton.mp hname] at hhead
    obtain ⟨harguments, hanswer⟩ := h.surfaces hurls call hcall hhead
    exact ⟨harguments ▸ spared_fetchArguments hprogram, hanswer⟩
  have hsilent (hexposed : request.exposed = []) :
      Ensures request.serve host (repository, workspace) fun answer calls _ =>
        ∀ call ∈ calls, (∃ name ∈ request.exposed, call.arguments.head? = some name) →
          SparedBy c call.arguments ∧ call.Surfaces answer := by
    refine (request.makes_serve _ _).mono fun _ _ _ _ call _ hnamed => ?_
    rw [hexposed] at hnamed
    obtain ⟨name, hname, -⟩ := hnamed
    cases hname
  cases request with
  | fetchFile workingCopy file folder =>
    exact (ensures_serve_fetchesFirst hgit hsource rfl).mono fun _ _ _ h => hfetch h
  | update workingCopy reference =>
    exact (ensures_serve_fetchesFirst hgit hsource rfl).mono fun _ _ _ h => hfetch h
  | download reference target =>
    have hreference : c ∉ reference.toList := htexts reference List.mem_cons_self
    refine ensures_serve_download hsource
      (((surfaces_downloadFrom_hosted reference target _ _).both
        (makes_downloadFrom_hosted reference target _ _)).mono ?_)
    intro result calls _ hdownload call hcall hnamed
    obtain ⟨hsurfaces, harguments⟩ := hdownload
    exact ⟨spared_checkoutArguments hreference hprogram _ (harguments call hcall hnamed),
      (hsurfaces call hcall hnamed).map⟩
  | commit => exact hsilent rfl
  | setCommit reference => exact hsilent rfl
  | repairOrigin workingCopy => exact hsilent rfl
  | hashOf workingCopy reference => exact hsilent rfl
  | namesOf workingCopy reference => exact hsilent rfl
  | kindOf workingCopy reference => exact hsilent rfl
  | hasChanges workingCopy => exact hsilent rfl

/-- A command that runs with the login in the origin and fails gives the answer. The answer shows a
character of the password, if no other text has it, exactly if the call has brought the URL with the
login. -/
theorem exposed_failure_shows_iff {environment : Environment} {request : Request} (git : Git)
    (workspace : Workspace) (hsource : repository.source = .hosted hosted)
    (hlogin : hosted.credentials.login ≠ "") (hpassword : c ∈ (hosted.password environment).toList)
    (htexts : SparedBy c request.texts) (hprogram : SparedBy c exposedTexts) :
    Ensures request.serve ⟨some git, environment⟩ (repository, workspace) fun answer calls _ =>
      ∀ call ∈ calls, (∃ name ∈ request.exposed, call.arguments.head? = some name) →
        call.succeeded = false →
          call.OnlyWithin c (hosted.urls environment).authenticated →
            ∃ failure, answer = .error failure ∧
              (c ∈ failure.message.toList ↔
                call.Shows (hosted.urls environment).authenticated) := by
  obtain ⟨hurls, hmem, hends⟩ := Hosted.urls_of_login hlogin hpassword
  have hfailures : SparedBy c Git.failureTexts := by
    intro text htext
    exact hprogram text (List.mem_append_right _ htext)
  have hgit : (⟨some git, environment⟩ : Host).git = some git := rfl
  refine (ensures_serve_surfaces hgit hsource hurls htexts hprogram).mono ?_
  intro answer calls _ hcalls call hcall hnamed hfailed honly
  obtain ⟨hspared, ⟨folder, hruns⟩, hanswer⟩ := hcalls call hcall hnamed
  obtain ⟨failure, hfailure, rfl⟩ := hanswer hfailed
  exact ⟨failure, rfl, Git.mem_message_iff hruns hfailure hfailures hspared hends hmem honly⟩

/-- A fetch that fails and complains without the URL shows the complaint and what came before it, and
nothing of the password. -/
theorem exposed_failure_shows_iff_of_complaint :
    let hosted : Hosted := ⟨"", "acme", "widgets", ⟨"ci", "Qx", ""⟩⟩
    let git : Git := fun _ files request =>
      .ok (if request.arguments = fetchArguments then
        ⟨128, Text.encode "Fetching origin\n", Text.encode "fatal: unable to access the server\n"⟩
      else {}, files)
    ∃ failure, ((Request.update ⟨"/"⟩ "main").serve.carryOut ⟨some git, ⟨[]⟩⟩
        { source := .hosted hosted } { files := {} }).1 = .error failure ∧
      failure = .commandFailed "git fetch --tags"
        "fatal: unable to access the server\nFetching origin" ∧
      'Q' ∉ failure.message.toList := by
  intro hosted git
  have hsource : Repository.source { source := .hosted hosted } = .hosted hosted := rfl
  have htexts : SparedBy 'Q' (Request.update ⟨"/"⟩ "main").texts := by
    unfold SparedBy
    decide
  have hprogram : SparedBy 'Q' exposedTexts := by
    unfold SparedBy
    decide +kernel
  have hpassword : 'Q' ∈ (hosted.password ⟨[]⟩).toList := by decide
  obtain ⟨calls, hcalls, hshows⟩ :=
    exposed_failure_shows_iff git { files := {} } hsource (by decide) hpassword htexts hprogram
  let complained : Git.Outcome := .finished []
    ⟨128, Text.encode "Fetching origin\n", Text.encode "fatal: unable to access the server\n"⟩
  have hserved : (KeepsCalls.calls (Action.outcome (Request.update ⟨"/"⟩ "main").serve
      ⟨some git, ⟨[]⟩⟩ ({ source := .hosted hosted }, { files := {} })).2).map
        (fun call => (call.arguments, call.outcome)) =
      [(Origin.setUrlArguments "https://github.com/acme/widgets.git", .finished [] {}),
        (fetchArguments, complained),
        (Origin.setUrlArguments "https://ci:Qx@github.com/acme/widgets.git", .finished [] {})] := by
    decide +kernel
  have hfailed : ((Request.update ⟨"/"⟩ "main").serve.carryOut ⟨some git, ⟨[]⟩⟩
      { source := .hosted hosted } { files := {} }).1 = .error (.commandFailed "git fetch --tags"
        "fatal: unable to access the server\nFetching origin") := by
    decide +kernel
  rw [hcalls] at hserved
  change (calls.reverse ++ []).map _ = _ at hserved
  rw [List.append_nil, List.map_reverse, List.reverse_eq_iff] at hserved
  have hfetch : (fetchArguments, complained) ∈ calls.map fun call =>
      (call.arguments, call.outcome) := by
    rw [hserved]
    simp
  obtain ⟨call, hcall, hpair⟩ := List.mem_map.mp hfetch
  obtain ⟨harguments, houtcome⟩ := Prod.mk.inj hpair
  -- none of the texts of the call has the character, so none has the URL either
  have hnone : ∀ text ∈ call.outcome.texts, 'Q' ∉ text.toList := by
    rw [houtcome]
    decide +kernel
  have honly : call.OnlyWithin 'Q' (hosted.urls ⟨[]⟩).authenticated :=
    fun text htext => .of_not_mem (hnone text htext)
  obtain ⟨failure, hanswer, hiff⟩ := hshows call hcall ⟨"fetch", by decide, by rw [harguments]; rfl⟩
    (by rw [Call.succeeded, houtcome]; rfl) honly
  refine ⟨failure, hanswer, Except.error.inj (hanswer.symm.trans hfailed), fun hmem => ?_⟩
  obtain ⟨text, htext, hwritten⟩ := hiff.mp hmem
  exact hnone text htext (hwritten.mem (by decide +kernel))

/-- A fetch that fails and writes the URL it was given shows the password. -/
theorem shows_password_of_failed_fetch :
    let hosted : Hosted := ⟨"", "acme", "widgets", ⟨"ci", "Qx", ""⟩⟩
    let url := "https://ci:Qx@github.com/acme/widgets.git"
    let request : Request := .update ⟨"/"⟩ "main"
    let git : Git := fun _ files request =>
      .ok (if request.arguments = fetchArguments then
        ⟨128, [], Text.encode ("fatal: unable to access " ++ url)⟩
      else {}, files)
    (hosted.urls ⟨[]⟩).authenticated = url ∧
      SparedBy 'Q' (["ci", "github.com", "acme", "widgets", hiddenPassword] ++ request.texts ++
        exposedTexts) ∧
      (∀ calls files request, ∃ reply, git calls files request = .ok (reply, files) ∧
        ∀ bytes ∈ [reply.errorOutput, reply.output],
          Text.OnlyWithin 'Q' url.toList (Text.decodeLossy bytes).toList) ∧
      ∃ failure, (request.serve.carryOut ⟨some git, ⟨[]⟩⟩ { source := .hosted hosted }
        { files := {} }).1 = .error failure ∧ 'Q' ∈ failure.message.toList := by
  intro hosted url request git
  have hcomplaint : (Text.decodeLossy (Text.encode ("fatal: unable to access " ++ url))).toList =
      "fatal: unable to access ".toList ++ (url.toList ++ []) := by decide +kernel
  have hanswer : (request.serve.carryOut ⟨some git, ⟨[]⟩⟩ { source := .hosted hosted }
      { files := {} }).1 =
        .error (.commandFailed "git fetch --tags" ("fatal: unable to access " ++ url)) := by
    decide +kernel
  refine ⟨by decide +kernel, by unfold SparedBy; decide +kernel, ?_, _, hanswer, by decide⟩
  intro calls files request
  refine ⟨_, rfl, fun bytes hbytes => ?_⟩
  have hpart : bytes = Text.encode ("fatal: unable to access " ++ url) ∨ bytes = [] := by
    split at hbytes
    · simpa using hbytes
    · exact .inr (by simpa using hbytes)
  rcases hpart with rfl | rfl
  · rw [hcomplaint]
    exact .append_of_not_mem (by decide) (.copy .nil)
  · rw [Text.toList_decodeLossy_nil]
    exact .nil

end Repository

end WorkingCopies
