import WorkingCopies.Proofs.Git.Step
import WorkingCopies.Proofs.Git.View
import WorkingCopies.Proofs.Origin.Commands
import WorkingCopies.Proofs.Text.ReadBack

/-!
# When the origin is right

The URL that git stores is read as a text without white space at its ends and compared with the
expected URL as it was declared. The two are the same exactly where the stored URL is, as long as the
reading loses nothing. Where it does, a URL that is as expected may be set again, and one that is not
may be taken for it; and an expected URL with white space at an end is never found, so that every
repair warns and sets it anew.
-/

namespace WorkingCopies

open Git (Call Command)

/-- The warnings of a workspace, the last one first. -/
def Workspace.warnings (workspace : Workspace) : List Log.Entry :=
  workspace.log.filter (·.level = .warning)

namespace Origin

open Text (decodeLossy encode newline trim)

variable {host : Host} {git : Git} {before : Workspace} {workingCopy : Path}
  {stored : Git.View → Bytes} {url : Bytes} {expected password : String}
  {result : Except Failure Bool} {calls : List Call} {warnings : List Log.Entry} {left : Bytes}

/-- A stored URL as it is read: without white space at its ends, and with the replacement character
for each part that is no text. -/
def readUrl (url : Bytes) : String := trim (decodeLossy url)

/-- The warning that a repair writes. -/
def driftWarning (current expected password : String) : Log.Entry where
  level := .warning
  topic := .origin
  text := "Repo's \"origin\" remote points to unexpected URL: " ++ redact password current ++
    "; correcting it to " ++ expected ++ ". Repo contents may be incorrect."

/-- A git that keeps a URL for the origin of a working copy, read off what it can go by. Asked for
it, it prints the URL with a newline behind it; told a URL, it stores that one. It may fail to do
either, at any time, and then the URL stays as it is. -/
structure KeepsUrl (git : Git) (workingCopy : Path) (stored : Git.View → Bytes) : Prop where
  prints (workspace : Workspace) (output : Bytes) :
    (Command.plain urlArguments).conclude
        (git.attempt workspace (some workingCopy) urlArguments).outcome = .ok output →
      output = stored workspace.view ++ newline
  stays (workspace : Workspace) :
    stored (workspace.view.behind (git.attempt workspace (some workingCopy) urlArguments)) =
      stored workspace.view
  stores (workspace : Workspace) (url : String) :
    let call := git.attempt workspace (some workingCopy) (setUrlArguments url)
    stored (workspace.view.behind call) =
      if call.succeeded then encode url else stored workspace.view

/-- The ways in which a repair goes where some URL is stored: its result, its calls, its warnings
and the URL that is left. -/
inductive Repair (workingCopy : Path) (expected password : String) (url : Bytes) :
    Except Failure Bool → List Call → List Log.Entry → Bytes → Prop where
  | unread {read : Call} {failure : Failure} (hread : read.Asks (some workingCopy) [urlArguments])
      (hfailed : read.succeeded = false)
      (hfailure : (Command.plain urlArguments).conclude read.outcome = .error failure) :
      Repair workingCopy expected password url (.error failure) [read] [] url
  | right {read : Call} (hread : read.Asks (some workingCopy) [urlArguments])
      (hsucceeded : read.succeeded = true) (hright : readUrl url = expected) :
      Repair workingCopy expected password url (.ok false) [read] [] url
  | unset {read set : Call} {failure : Failure}
      (hread : read.Asks (some workingCopy) [urlArguments])
      (hsucceeded : read.succeeded = true) (hdrift : readUrl url ≠ expected)
      (hset : set.Asks (some workingCopy) [setUrlArguments expected])
      (hfailed : set.succeeded = false)
      (hfailure : (setUrlCommand expected password).conclude set.outcome = .error failure) :
      Repair workingCopy expected password url (.error failure) [read, set]
        [driftWarning (readUrl url) expected password] url
  | set {read set : Call} (hread : read.Asks (some workingCopy) [urlArguments])
      (hsucceeded : read.succeeded = true) (hdrift : readUrl url ≠ expected)
      (hset : set.Asks (some workingCopy) [setUrlArguments expected])
      (hset_succeeded : set.succeeded = true) :
      Repair workingCopy expected password url (.ok true) [read, set]
        [driftWarning (readUrl url) expected password] (encode expected)

namespace Repair

/-- A repair gives an answer exactly if all its commands succeed. -/
theorem exists_ok_iff (h : Repair workingCopy expected password url result calls warnings left) :
    (∃ answer, result = .ok answer) ↔ ∀ call ∈ calls, call.succeeded = true := by
  cases h <;> simp_all

/-- The answer says whether the URL is read as another one than the expected one. -/
theorem answer_eq_true_iff {answer : Bool}
    (h : Repair workingCopy expected password url (.ok answer) calls warnings left) :
    answer = true ↔ readUrl url ≠ expected := by
  cases h with
  | right _ _ hright => simp [hright]
  | set _ _ hdrift _ _ => simp [hdrift]

/-- Behind an answer the URL is the one that was set, if one was set, and else as it was. -/
theorem left_eq {answer : Bool}
    (h : Repair workingCopy expected password url (.ok answer) calls warnings left) :
    left = if answer then encode expected else url := by
  cases h <;> rfl

/-- Behind an answer the URL is read as the expected one without white space at its ends. -/
theorem readUrl_left {answer : Bool}
    (h : Repair workingCopy expected password url (.ok answer) calls warnings left) :
    readUrl left = trim expected := by
  cases h with
  | right _ _ hright =>
    rw [← hright]
    exact (Text.trim_trim _).symm
  | set _ _ _ _ _ => rw [readUrl, Text.decodeLossy_encode]

end Repair

/-- Reading the URL is one call, which adds no warning and leaves the URL as it is. -/
theorem KeepsUrl.ensures_url (h : KeepsUrl git workingCopy stored) (hgit : host.git = some git) :
    Ensures (Origin.url workingCopy) host before fun result calls after =>
      ∃ read : Call, read.Asks (some workingCopy) [urlArguments] ∧ calls = [read] ∧
        after.warnings = before.warnings ∧ stored after.view = stored before.view ∧
        ((read.succeeded = true ∧ result = .ok (readUrl (stored before.view))) ∨
          (read.succeeded = false ∧ ∃ failure, result = .error failure ∧
            (Command.plain urlArguments).conclude read.outcome = .error failure)) := by
  have hrun : Ensures ((Command.plain urlArguments).within workingCopy).run host before
      fun result calls after =>
        ∃ read, read = git.attempt before (some workingCopy) urlArguments ∧ calls = [read] ∧
          after.warnings = before.warnings ∧ after.view = before.view.behind read ∧
          result = (Command.plain urlArguments).conclude read.outcome := by
    refine ensures_run (by simp [hgit]) ?_
    intro other hother call hcall
    obtain rfl : git = other := Option.some.inj (hgit.symm.trans hother)
    rw [Command.callBy, Command.folder_within, Command.map_text_plain_within] at hcall
    exact ⟨call, hcall, rfl, by simp [Workspace.warnings, Command.leave], rfl, rfl⟩
  have hasks := git.asks_attempt before (some workingCopy) urlArguments
  refine Ensures.bind hrun ?_ ?_
  · intro output calls after hread
    obtain ⟨_, rfl, rfl, hwarnings, hview, houtput⟩ := hread
    refine Ensures.pure ⟨_, hasks, by simp, hwarnings, by rw [hview, h.stays], .inl ⟨?_, ?_⟩⟩
    · obtain ⟨folder, reply, houtcome, hstatus, -⟩ := Command.of_conclude_eq_ok houtput.symm
      simp [Call.succeeded, houtcome, hstatus]
    · rw [h.prints before output houtput.symm, Text.trim_decodeLossy_newline, readUrl]
  · intro failure calls after hread
    obtain ⟨_, rfl, rfl, hwarnings, hview, hfailure⟩ := hread
    refine ⟨_, hasks, rfl, hwarnings, by rw [hview, h.stays], .inr ⟨?_, failure, rfl, hfailure.symm⟩⟩
    rw [← Command.isSome_toOption_conclude (Command.plain urlArguments), ← hfailure]
    rfl

/-- Setting the URL is one call, which adds no warning; if it succeeds the URL is stored, and else
the one that was stored stays. -/
theorem KeepsUrl.ensures_setUrl (h : KeepsUrl git workingCopy stored) (hgit : host.git = some git) :
    Ensures (setUrl workingCopy expected password) host before fun result calls after =>
      ∃ set : Call, set.Asks (some workingCopy) [setUrlArguments expected] ∧ calls = [set] ∧
        after.warnings = before.warnings ∧
        stored after.view = (if set.succeeded then encode expected else stored before.view) ∧
        result = ((setUrlCommand expected password).conclude set.outcome).map fun _ => () := by
  refine Ensures.discard (ensures_run (by simp [hgit]) ?_)
  intro other hother call hcall
  obtain rfl : git = other := Option.some.inj (hgit.symm.trans hother)
  have hattempt : call = git.attempt before (some workingCopy) (setUrlArguments expected) := hcall
  have hview : stored ((setUrlWithin workingCopy expected password).leave before call).view =
      if call.succeeded then encode expected else stored before.view := by
    rw [hattempt]
    exact h.stores before expected
  refine ⟨call, ?_, rfl, by simp [Workspace.warnings, Command.leave], hview, rfl⟩
  rw [hattempt]
  exact git.asks_attempt before _ _

/-- Where git keeps a URL, a repair goes in one of its ways. -/
theorem KeepsUrl.ensures_repair (h : KeepsUrl git workingCopy stored) (hgit : host.git = some git) :
    Ensures (repair workingCopy expected password) host before fun result calls after =>
      ∃ warnings, after.warnings = warnings ++ before.warnings ∧
        Repair workingCopy expected password (stored before.view) result calls warnings
          (stored after.view) := by
  refine Ensures.bind (h.ensures_url hgit) ?_ ?_
  · intro current calls after hread
    obtain ⟨read, hread, rfl, hwarnings, hview, ⟨hsucceeded, hcurrent⟩ | ⟨-, _, ⟨⟩, -⟩⟩ := hread
    obtain rfl := Except.ok.inj hcurrent
    split
    · next hright =>
      refine Ensures.step rfl rfl (Ensures.pure ⟨[], ?_, ?_⟩)
      · exact hwarnings
      · show Repair _ _ _ _ _ _ _ (stored after.view)
        rw [hview]
        exact .right hread hsucceeded hright
    · next hdrift =>
      let warned : Workspace := { after with
        log := driftWarning (readUrl (stored before.view)) expected password :: after.log }
      have hadded : warned.warnings =
          [driftWarning (readUrl (stored before.view)) expected password] ++ before.warnings := by
        rw [← hwarnings]
        rfl
      have hreport : Action.outcome (Operation.report .warning .origin
          (driftWarning (readUrl (stored before.view)) expected password).text) host after =
          (.ok (), warned) := rfl
      refine Ensures.step hreport rfl ?_
      refine Ensures.bind (h.ensures_setUrl hgit) ?_ ?_
      · intro _ calls last hset
        obtain ⟨set, hset, rfl, hkept, hlast, hresult⟩ := hset
        have hset_succeeded := Command.succeeded_of_map_conclude hresult.symm
        rw [if_pos hset_succeeded] at hlast
        refine Ensures.pure ⟨_, hkept.trans hadded, ?_⟩
        rw [hlast]
        exact .set hread hsucceeded hdrift hset hset_succeeded
      · intro failure calls last hset
        obtain ⟨set, hset, rfl, hkept, hlast, hresult⟩ := hset
        obtain ⟨hfailed, hfailure⟩ := Command.failed_of_map_conclude hresult.symm
        rw [if_neg (by simp [hfailed])] at hlast
        refine ⟨_, hkept.trans hadded, ?_⟩
        rw [hlast]
        show Repair _ _ _ _ _ _ _ (stored after.view)
        rw [hview]
        exact .unset hread hsucceeded hdrift hset hfailed hfailure
  · intro failure calls after hread
    obtain ⟨read, hread, rfl, hwarnings, hview, ⟨-, ⟨⟩⟩ | ⟨hfailed, _, ⟨⟩, hfailure⟩⟩ := hread
    refine ⟨[], hwarnings, ?_⟩
    rw [hview]
    exact .unread hread hfailed hfailure

/-- Where git keeps a URL, a repair either fails with the failure of a command and leaves the URL as
it was, or says whether the URL is read as another one than the expected one. It then has written one
warning and set the expected URL once, or done neither. Its answer is about the URL that is stored
exactly where reading tells that URL from others, as it does for every text without white space at
its ends. A second repair finds nothing to do exactly if the expected URL has no white space at its
ends. -/
theorem repair_settles_iff {environment : Environment} (h : KeepsUrl git workingCopy stored) :
    let host : Host := ⟨some git, environment⟩
    let url := stored before.view
    let repaired := (repair workingCopy expected password).carryOut host before
    let left := stored repaired.2.view
    let again := (repair workingCopy expected password).carryOut host repaired.2
    (∃ calls warnings, repaired.2.calls = calls.reverse ++ before.calls ∧
      repaired.2.warnings = warnings ++ before.warnings ∧
      Repair workingCopy expected password url repaired.1 calls warnings left ∧
      ((∃ answer, repaired.1 = .ok answer) ↔ ∀ call ∈ calls, call.succeeded = true)) ∧
    (∀ answer, repaired.1 = .ok answer →
      (answer = true ↔ readUrl url ≠ expected) ∧
      (left = encode expected ↔ answer = true ∨ url = encode expected) ∧
      ∃ calls warnings, again.2.calls = calls.reverse ++ repaired.2.calls ∧
        again.2.warnings = warnings ++ repaired.2.warnings ∧
        Repair workingCopy expected password left again.1 calls warnings (stored again.2.view) ∧
        ∀ second, again.1 = .ok second → (second = false ↔ trim expected = expected)) ∧
    (∀ text, url = encode text → trim text = text →
      (readUrl url = expected ↔ url = encode expected)) := by
  intro host url repaired left again
  have hgit : host.git = some git := rfl
  obtain ⟨calls, hcalls, warnings, hwarnings, hrepair⟩ :
    Ensures (repair workingCopy expected password) host before _ := h.ensures_repair hgit
  have hrepair : Repair workingCopy expected password url repaired.1 calls warnings left := hrepair
  obtain ⟨more, hmore, others, hothers, hagain⟩ :
    Ensures (repair workingCopy expected password) host repaired.2 _ := h.ensures_repair hgit
  have hagain : Repair workingCopy expected password left again.1 more others _ := hagain
  refine ⟨⟨calls, warnings, hcalls, hwarnings, hrepair, hrepair.exists_ok_iff⟩, ?_, ?_⟩
  · intro answer hanswer
    rw [hanswer] at hrepair
    refine ⟨hrepair.answer_eq_true_iff, ?_, more, others, hmore, hothers, hagain, ?_⟩
    · rw [hrepair.left_eq]
      cases answer <;> simp
    · intro second hsecond
      rw [hsecond] at hagain
      have hread := hagain.answer_eq_true_iff
      rw [hrepair.readUrl_left] at hread
      cases second <;> simp_all
  · intro text hurl htext
    have hread : readUrl url = text := by rw [hurl, readUrl, Text.decodeLossy_encode, htext]
    rw [hread, hurl]
    exact ⟨fun hsame => by rw [hsame], fun hsame => by
      rw [← Text.decodeLossy_encode text, hsame, Text.decodeLossy_encode]⟩

section Keeper

/-- The URL that is stored behind some calls, the last one first. -/
def storedBehind (start : Bytes) : List Call → Bytes
  | [] => start
  | call :: calls =>
    match call.arguments with
    | ["remote", "set-url", "origin", url] =>
      if call.succeeded then encode url else storedBehind start calls
    | _ => storedBehind start calls

/-- The git that keeps a URL and does nothing else. -/
def urlKeeper (start : Bytes) : Git := fun calls files request =>
  match request.arguments with
  | ["config", "--get", "remote.origin.url"] =>
    .ok ({ output := storedBehind start calls ++ newline }, files)
  | ["remote", "set-url", "origin", _] => .ok ({}, files)
  | _ => .ok ({ status := 1 }, files)

/-- The git that keeps a URL is one that does. -/
theorem keepsUrl_urlKeeper (start : Bytes) (workingCopy : Path) :
    KeepsUrl (urlKeeper start) workingCopy fun view => storedBehind start view.1 where
  prints workspace output houtput := by
    obtain ⟨folder, reply, houtcome, -, rfl⟩ := Command.of_conclude_eq_ok houtput
    obtain rfl : { output := storedBehind start workspace.calls ++ newline } = reply :=
      congrArg Prod.fst (Except.ok.inj (Git.of_outcome_attempt_eq_finished houtcome))
    rfl
  stays workspace := by
    show storedBehind start (_ :: workspace.calls) = _
    rw [storedBehind, Git.arguments_attempt]
    rfl
  stores workspace url := by
    intro call
    show storedBehind start (call :: workspace.calls) = _
    have harguments : call.arguments = ["remote", "set-url", "origin", url] :=
      Git.arguments_attempt _ _ _ _
    rw [storedBehind, harguments]
    rfl

end Keeper

/-- A working copy whose origin has moved is set right by the first repair, and the second one finds
nothing to do. -/
theorem repair_settles_iff_of_moved :
    let git := urlKeeper (encode "https://old.example/w.git")
    let repaired := (repair ⟨"/"⟩ "https://git.example/w.git" "Qx").carryOut ⟨some git, ⟨[]⟩⟩
      { files := {} }
    let again := (repair ⟨"/"⟩ "https://git.example/w.git" "Qx").carryOut ⟨some git, ⟨[]⟩⟩
      repaired.2
    repaired.1 = .ok true ∧ again.1 = .ok false ∧
      storedBehind (encode "https://old.example/w.git") repaired.2.calls =
        encode "https://git.example/w.git" := by
  intro git repaired again
  have hrepaired : repaired.1 = .ok true := by decide +kernel
  obtain ⟨-, hanswer, -⟩ := repair_settles_iff (keepsUrl_urlKeeper _ ⟨"/"⟩)
  obtain ⟨-, hleft, -⟩ := hanswer true hrepaired
  exact ⟨hrepaired, by decide +kernel, hleft.mpr (.inl rfl)⟩

/-- An expected URL with a blank behind it is set anew by every repair, though it is the one that is
stored; and a stored URL with a blank behind it is taken for the expected one and stays. -/
theorem repair_unsettled_of_blank :
    let git (start : String) := urlKeeper (encode start)
    let repaired (start expected : String) :=
      (repair ⟨"/"⟩ expected "").carryOut ⟨some (git start), ⟨[]⟩⟩ { files := {} }
    let first := repaired "https://git.example/w.git " "https://git.example/w.git "
    let other := repaired "https://git.example/w.git " "https://git.example/w.git"
    KeepsUrl (git "https://git.example/w.git ") ⟨"/"⟩
        (fun view => storedBehind (encode "https://git.example/w.git ") view.1) ∧
      first.1 = .ok true ∧
      ((repair ⟨"/"⟩ "https://git.example/w.git " "").carryOut
        ⟨some (git "https://git.example/w.git "), ⟨[]⟩⟩ first.2).1 = .ok true ∧
      other.1 = .ok false ∧
      storedBehind (encode "https://git.example/w.git ") other.2.calls ≠
        encode "https://git.example/w.git" := by
  intro git repaired first other
  refine ⟨keepsUrl_urlKeeper _ _, ?_, ?_, ?_, ?_⟩ <;> decide +kernel

end Origin

end WorkingCopies
