import Mathlib.Data.List.Forall2
import WorkingCopies.Proofs.Commands
import WorkingCopies.Proofs.Lockstep
import WorkingCopies.Proofs.Origin.Guard
import WorkingCopies.Proofs.Repository.Episode

/-!
# Hosted repositories without a login

Where neither a login nor a password is known, the public URL is the one that lets git in. Then the
origin is never set for the sake of a command and nothing has to be hidden, so a repository on a
server is used exactly as one that is known by this URL: the same requests lead to the same calls of
git, the same files and the same answers. The logs differ in the entries that announce what is done,
of which each kind of source has its own.
-/

namespace WorkingCopies

open Git (Command)

/-- Entries of the log that are the same, or announce the same with a hosted repository and with one
at a URL. -/
def Log.Entry.Announces (first second : Log.Entry) : Prop :=
  first = second ∨ first.level = second.level ∧ first.topic = .hosted ∧ second.topic = .remote

/-- Workspaces in which git finds the same, and whose logs differ in announcements alone. -/
structure SameButAnnouncements (first second : Workspace) : Prop where
  view : first.view = second.view
  log : List.Forall₂ Log.Entry.Announces first.log second.log

variable {α : Type} {host : Host}

namespace SameButAnnouncements

/-- Entries that are the same or announce the same keep step. -/
theorem inStep_report {level : Log.Level} {topic otherTopic : Log.Topic} {text otherText : String}
    (h : Log.Entry.Announces ⟨level, topic, text⟩ ⟨level, otherTopic, otherText⟩) :
    InStep SameButAnnouncements Eq host host (Operation.report level topic text)
      (Operation.report level otherTopic otherText) :=
  fun _ _ hsame => ⟨.ok rfl, hsame.view, .cons h hsame.log⟩

/-- Commands keep step. -/
theorem inStep_run (command : Command) :
    InStep SameButAnnouncements Eq host host command.run command.run := by
  refine .run fun git _ first second hsame => ?_
  have hcall : command.callBy git first = command.callBy git second :=
    Git.attempt_eq_of_view hsame.view _ _
  have hcalls : first.calls = second.calls := congrArg Prod.fst hsame.view
  rw [hcall]
  refine ⟨rfl, ?_, .cons (.inl rfl) hsame.log⟩
  show (_ :: first.calls, _) = (_ :: second.calls, _)
  rw [hcalls]
  rfl

/-- Edits keep step. -/
theorem inStep_edit (change : FileSystem.Edit α) :
    InStep SameButAnnouncements Eq host host (Operation.edit change) (Operation.edit change) := by
  intro first second hsame
  obtain ⟨hcalls, hfiles⟩ : first.calls = second.calls ∧ first.files = second.files :=
    Prod.mk.inj hsame.view
  rw [resultsAgree_eq_iff, outcome_edit, outcome_edit, hfiles]
  refine ⟨rfl, ?_, hsame.log⟩
  show (first.calls, _) = (second.calls, _)
  rw [hcalls]

/-- What is made of commands keeps step. -/
theorem inStep_of_madeOf {allowed : Command → Prop} {operation : Operation α}
    (h : MadeOf allowed operation) :
    InStep SameButAnnouncements Eq host host operation operation :=
  h.inStep rfl (fun _ _ _ => inStep_report (.inl rfl)) fun command _ => inStep_run command

variable {workingCopy : Path}

/-- Writing a file as it is at a reference keeps step. -/
theorem inStep_showFile (reference file : String) (folder : Path) :
    InStep SameButAnnouncements Eq host host
      (WorkingCopy.showFile workingCopy reference file folder)
      (WorkingCopy.showFile workingCopy reference file folder) := by
  have hname : InStep SameButAnnouncements Eq host host
      (Reference.qualifiedName workingCopy reference)
      (Reference.qualifiedName workingCopy reference) :=
    inStep_of_madeOf (Reference.madeOf_qualifiedName reference)
  refine .bind (inStep_edit _) fun _ _ _ => .bind hname fun name _ hsame => ?_
  subst hsame
  refine .bind (inStep_report (.inl rfl)) fun _ _ _ => .bind (inStep_run _) fun contents _ hsame => ?_
  subst hsame
  cases (folder.join ⟨file⟩).parent? with
  | none => exact inStep_edit _
  | some parent => exact .bind (inStep_edit _) fun _ _ _ => inStep_edit _

/-- Cloning keeps step. -/
theorem inStep_clone (url shown branch : String) (target : Path) :
    InStep SameButAnnouncements Eq host host (WorkingCopy.clone url shown branch target)
      (WorkingCopy.clone url shown branch target) := by
  unfold WorkingCopy.clone
  cases target.parent? with
  | none => exact (inStep_run _).discard
  | some parent => exact .bind (inStep_edit _) fun _ _ _ => (inStep_run _).discard

end SameButAnnouncements

/-- Nothing stands in place of the empty password. -/
theorem redact_empty (text : String) : redact "" text = text := rfl

/-- A repository of which neither a login nor a password is known. -/
structure Hosted.IsAnonymous (hosted : Hosted) (environment : Environment) : Prop where
  login : hosted.credentials.login = ""
  password : hosted.password environment = ""

variable {hosted : Hosted}

/-- Without a login the public URL lets git in. -/
theorem Hosted.IsAnonymous.authenticated_eq {environment : Environment}
    (h : hosted.IsAnonymous environment) :
    (hosted.urls environment).authenticated = (hosted.urls environment).visible := by
  simp [Hosted.urls, RemoteUrls.hosted, h.login]

/-- Without a login no command needs another URL than the public one. -/
theorem Hosted.IsAnonymous.needAccess_eq_false {environment : Environment}
    (h : hosted.IsAnonymous environment) : (hosted.urls environment).needAccess = false :=
  decide_eq_false fun hne => hne h.authenticated_eq

namespace Repository

open SameButAnnouncements

variable {workingCopy : Path}

/-- Fetching from either source is the same command. -/
theorem inStep_fetchFrom (h : hosted.IsAnonymous host.environment) :
    InStep SameButAnnouncements Eq host host (fetchFrom workingCopy (.hosted hosted))
      (fetchFrom workingCopy (.remote (hosted.urls host.environment).visible)) := by
  refine .bind (inStep_report (.inr ⟨rfl, rfl, rfl⟩)) fun _ _ _ => .environment_left ?_
  rw [Origin.runAuthenticated_eq h.needAccess_eq_false]
  exact (inStep_run _).discard

/-- Downloading from either source is the same clone and the same checkout. -/
theorem inStep_downloadFrom (reference : String) (target : Path)
    (h : hosted.IsAnonymous host.environment) :
    InStep SameButAnnouncements Eq host host (downloadFrom reference target (.hosted hosted))
      (downloadFrom reference target (.remote (hosted.urls host.environment).visible)) := by
  refine .environment_left ?_
  dsimp only
  rw [h.password, redact_empty, h.authenticated_eq, Origin.restoringAfter_eq h.needAccess_eq_false]
  exact .bind (inStep_report (.inr ⟨rfl, rfl, rfl⟩)) fun _ _ _ =>
    .bind (inStep_clone _ _ _ _) fun _ _ _ => inStep_of_madeOf (madeOf_checkout reference)

/-- Setting the origin right keeps step. -/
theorem inStep_repair (expected password : String) :
    InStep SameButAnnouncements Eq host host (Origin.repair workingCopy expected password)
      (Origin.repair workingCopy expected password) := by
  have hurl : InStep SameButAnnouncements Eq host host (Origin.url workingCopy)
      (Origin.url workingCopy) :=
    .bind (inStep_run _) fun _ _ hbytes => .pure (hbytes ▸ rfl)
  refine .bind hurl fun current _ hsame => ?_
  subst hsame
  split
  · exact .bind (inStep_report (.inl rfl)) fun _ _ _ => .pure rfl
  · exact .bind (inStep_report (.inl rfl)) fun _ _ _ =>
      .bind (inStep_run _).discard fun _ _ _ => .pure rfl

/-- Setting the origin of either source right expects the public URL and hides nothing. -/
theorem inStep_repairOrigin (h : hosted.IsAnonymous host.environment) :
    InStep SameButAnnouncements Eq host host (repairOrigin workingCopy (.hosted hosted))
      (repairOrigin workingCopy (.remote (hosted.urls host.environment).visible)) := by
  refine .environment_left ?_
  rw [h.password]
  exact (inStep_repair _ _).discard

/-- Repositories that are alike but for their sources, a server that hosts one and a URL. -/
structure HostedAndRemote (hosted : Hosted) (url : String) (first second : Repository) : Prop where
  hosted : first.source = .hosted hosted
  remote : second.source = .remote url
  commit : first.commit = second.commit
  fetched : first.fetched = second.fetched

/-- States in which a repository on a server and one at a URL are used alike. -/
abbrev UsedAlike (hosted : Hosted) (url : String) :=
  Paired (HostedAndRemote hosted url) SameButAnnouncements

/-- The sources of such states are the one on the server and the one at the URL. -/
theorem inStep_source {url : String} :
    InStep (UsedAlike hosted url)
      (fun first second => first = .hosted hosted ∧ second = .remote url) host host
      Task.source Task.source :=
  .bind .get fun _ _ hused => .pure ⟨hused.1.hosted, hused.1.remote⟩

/-- Fetches under the latch keep step. -/
theorem inStep_fetch (h : hosted.IsAnonymous host.environment) :
    InStep (UsedAlike hosted (hosted.urls host.environment).visible) Eq host host
      (fetch workingCopy) (fetch workingCopy) := by
  refine .fetch_of (fun _ _ halike => halike.fetched) ?_ ?_
  · exact fun _ _ _ halike => ⟨halike.hosted, halike.remote, halike.commit, rfl⟩
  · intro first second halike
    rw [halike.hosted, halike.remote]
    exact inStep_fetchFrom h

/-- Every request comes to the same with either source. -/
theorem inStep_serve (request : Request) (h : hosted.IsAnonymous host.environment) :
    InStep (UsedAlike hosted (hosted.urls host.environment).visible) Eq host host
      request.serve request.serve := by
  have hdone {task following : Task Unit}
      (htask : InStep (UsedAlike hosted (hosted.urls host.environment).visible) Eq host host task
        following) :
      InStep (UsedAlike hosted (hosted.urls host.environment).visible) Eq host host
        (task >>= fun _ => pure Answer.done) (following >>= fun _ => pure Answer.done) :=
    .bind htask fun _ _ _ => .pure rfl
  cases request with
  | commit => exact .bind .get fun _ _ hused => .pure (congrArg _ hused.1.commit)
  | setCommit reference =>
    intro first second hused
    obtain ⟨⟨hhosted, hremote, -, hfetched⟩, hworkspace⟩ := hused
    exact ⟨.ok rfl, ⟨hhosted, hremote, rfl, hfetched⟩, hworkspace⟩
  | fetchFile workingCopy file folder =>
    refine hdone (.bind inStep_source fun _ _ hsources => ?_)
    obtain ⟨rfl, rfl⟩ := hsources
    refine .bind (inStep_fetch h) fun _ _ _ => .bind .get fun _ _ hused => ?_
    rw [hused.1.commit]
    exact (inStep_showFile _ _ _).ofOperation
  | download reference target =>
    refine hdone (.bind inStep_source fun _ _ hsources => ?_)
    obtain ⟨rfl, rfl⟩ := hsources
    exact (inStep_downloadFrom reference target h).ofOperation
  | update workingCopy reference =>
    refine hdone (.bind inStep_source fun _ _ hsources => ?_)
    obtain ⟨rfl, rfl⟩ := hsources
    have hcheckout : InStep SameButAnnouncements Eq host host (checkout workingCopy reference)
        (checkout workingCopy reference) := inStep_of_madeOf (madeOf_checkout reference)
    have hmerge : InStep SameButAnnouncements Eq host host
        (checkoutAndMerge workingCopy reference) (checkoutAndMerge workingCopy reference) :=
      inStep_of_madeOf (madeOf_checkoutAndMerge reference)
    exact .bind (inStep_fetch h) fun _ _ _ => .bind hmerge.ofOperation fun _ _ _ =>
      hcheckout.ofOperation
  | repairOrigin workingCopy =>
    refine .bind inStep_source fun _ _ hsources => ?_
    obtain ⟨rfl, rfl⟩ := hsources
    exact .bind (inStep_repairOrigin h).ofOperation fun _ _ _ => .pure rfl
  | hashOf workingCopy reference =>
    have hhash : InStep SameButAnnouncements Eq host host (WorkingCopy.hashOf workingCopy reference)
        (WorkingCopy.hashOf workingCopy reference) :=
      inStep_of_madeOf (WorkingCopy.madeOf_hashOf reference)
    exact .bind hhash.ofOperation fun _ _ hsame => .pure (congrArg _ hsame)
  | namesOf workingCopy reference =>
    have hnames : InStep SameButAnnouncements Eq host host
        (WorkingCopy.namesOf workingCopy reference) (WorkingCopy.namesOf workingCopy reference) :=
      inStep_of_madeOf (WorkingCopy.madeOf_namesOf reference)
    exact .bind hnames.ofOperation fun _ _ hsame => .pure (congrArg _ hsame)
  | kindOf workingCopy reference =>
    have hclassify : InStep SameButAnnouncements Eq host host
        (Reference.classify workingCopy reference) (Reference.classify workingCopy reference) :=
      inStep_of_madeOf (Reference.madeOf_classify reference)
    exact .bind hclassify.ofOperation fun _ _ hsame => .pure (congrArg _ hsame)
  | hasChanges workingCopy =>
    have hchanges : InStep SameButAnnouncements Eq host host (WorkingCopy.hasChanges workingCopy)
        (WorkingCopy.hasChanges workingCopy) := inStep_of_madeOf WorkingCopy.madeOf_hasChanges
    exact .bind hchanges.ofOperation fun _ _ hsame => .pure (congrArg _ hsame)

/-- Episodes of two runs that differ in the announcements of their logs alone: the same is asked and
answered, git is called in the same way, and the same files and the same chosen reference are
left. -/
structure Episode.Matches (host : Host) (first second : Episode) : Prop where
  request : first.request = second.request
  answer : first.answer = second.answer
  calls : first.calls = second.calls
  commit : (first.finish host).1.commit = (second.finish host).1.commit
  files : (first.finish host).2.files = (second.finish host).2.files
  log : List.Forall₂ Log.Entry.Announces (first.finish host).2.log (second.finish host).2.log

/-- Runs from states in which the two repositories are used alike match episode by episode. -/
theorem matches_episodes (h : hosted.IsAnonymous host.environment)
    {first second : Repository × Workspace}
    (hused : UsedAlike hosted (hosted.urls host.environment).visible first second)
    (requests : List Request) :
    List.Forall₂ (Episode.Matches host) (episodes host first requests)
      (episodes host second requests) := by
  -- a request leaves the repositories used alike, so the rest of the run starts as this one does
  induction requests generalizing first second with
  | nil => exact .nil
  | cons request requests ih =>
    obtain ⟨hanswers, hafter⟩ := inStep_serve request h first second hused
    have hcalls : first.2.calls = second.2.calls := congrArg Prod.fst hused.2.view
    have hmore : (request.serve.carryOut host first.1 first.2).2.2.calls =
        (request.serve.carryOut host second.1 second.2).2.2.calls :=
      congrArg Prod.fst hafter.2.view
    have hsince : (request.serve.carryOut host first.1 first.2).2.2.callsSince first.2 =
        (request.serve.carryOut host second.1 second.2).2.2.callsSince second.2 := by
      rw [Workspace.callsSince, Workspace.callsSince, hmore, hcalls]
    refine .cons ?_ (ih hafter)
    constructor
    · rfl
    · exact resultsAgree_eq_iff.mp hanswers
    · exact hsince
    · exact hafter.1.commit
    · exact congrArg Prod.snd hafter.2.view
    · exact hafter.2.log

/-- A repository on a server of which neither a login nor a password is known can be exchanged for
one at its public URL: whatever git answers and whatever is asked, both give the same answers, call
git in the same way, and leave the same files and the same chosen reference. -/
theorem hosted_matches_remote {host : Host} {hosted : Hosted} {commit : String} {fetched : Latch}
    {workspace : Workspace} {requests : List Request}
    (h : hosted.IsAnonymous host.environment) :
    List.Forall₂ (Episode.Matches host)
      (episodes host ({ source := .hosted hosted, commit, fetched }, workspace) requests)
      (episodes host ({ source := .remote (hosted.urls host.environment).visible, commit, fetched },
        workspace) requests) := by
  have hlog : List.Forall₂ Log.Entry.Announces workspace.log workspace.log :=
    List.forall₂_same.mpr fun entry _ => .inl rfl
  have hused : UsedAlike hosted (hosted.urls host.environment).visible
      ({ source := .hosted hosted, commit, fetched }, workspace)
      ({ source := .remote (hosted.urls host.environment).visible, commit, fetched }, workspace) :=
    ⟨⟨rfl, rfl, rfl, rfl⟩, rfl, hlog⟩
  exact matches_episodes h hused requests

/-- A run without a login in which the fetch fails and the origin is set right afterwards, as one at
the public URL of the default server. -/
theorem hosted_matches_remote_of_failed_fetch :
    let hosted : Hosted := ⟨"", "acme", "widgets", { passwordVariable := "TOKEN" }⟩
    let git : Git := fun calls files _ => .ok (⟨if calls.isEmpty then 128 else 0, [], []⟩, files)
    let host : Host := ⟨some git, ⟨[]⟩⟩
    let requests : List Request := [.update ⟨"/"⟩ "HEAD", .repairOrigin ⟨"/"⟩]
    let url := "https://github.com/acme/widgets.git"
    let run := episodes host ({ source := .hosted hosted }, { files := {} }) requests
    hosted.IsAnonymous host.environment ∧
      run.map (fun episode => episode.calls.map (·.arguments)) =
        [[["fetch", "--tags"]],
          [["config", "--get", "remote.origin.url"], ["remote", "set-url", "origin", url]]] ∧
      List.Forall₂ (Episode.Matches host) run
        (episodes host ({ source := .remote url }, { files := {} }) requests) := by
  intro hosted git host requests url run
  have h : hosted.IsAnonymous host.environment := ⟨rfl, rfl⟩
  have hurl : (hosted.urls host.environment).visible = url := by decide
  have hmatches := @hosted_matches_remote host hosted "" {} { files := {} } requests h
  rw [hurl] at hmatches
  exact ⟨h, by decide +kernel, hmatches⟩

end Repository

end WorkingCopies
