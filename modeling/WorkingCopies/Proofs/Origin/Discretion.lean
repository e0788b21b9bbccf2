import WorkingCopies.Proofs.Git.Discretion
import WorkingCopies.Proofs.Origin.Commands
import WorkingCopies.Proofs.RemoteUrls.Access

/-!
# The password stays out of what is shown

Everything that is done to the origin gives git the URL with the login and shows it nowhere: neither
in the log nor in a failure, whatever git does, as long as git writes the URL only where it was
given it or was asked for it.
-/

namespace WorkingCopies.Origin

open Git (Call Command SparedBy)
open RemoteUrls (KeepSecret)
open Text (OnlyWithin)

variable {c : Char} {host : Host} {urls : RemoteUrls} {password : String} {workingCopy : Path}

/-- Whether a call has brought a character nowhere but in copies of an argument, or, where git was
asked for the URL of the remote and gave it, in copies of some URL. -/
def Trusted (c : Char) (url : String) (call : Call) : Prop :=
  call.Echoes c ∨
    (call.arguments = urlArguments ∧ call.succeeded = true ∧ call.OnlyWithin c url)

/-- A trusted call that failed has brought the character nowhere but in copies of an argument. -/
theorem Trusted.echoes {url : String} {call : Call} (h : Trusted c url call)
    (hfailed : call.succeeded = false) : call.Echoes c := by
  rcases h with hechoes | ⟨-, hsucceeded, -⟩
  · exact hechoes
  · rw [hfailed] at hsucceeded
    cases hsucceeded

/-- The texts of the program in what is done to the origin. -/
def originTexts : List String :=
  ["remote", "set-url", Reference.remoteName, hiddenPassword,
    "Failed to restore public origin URL for ", ": ", "Origin of ", " is ",
    "Repo's \"origin\" remote points to unexpected URL: ", "; correcting it to ",
    ". Repo contents may be incorrect."] ++ urlArguments ++ Command.runTexts

/-- What the statements below have in common: the character stands nowhere but in the password. -/
structure Alone (c : Char) (urls : RemoteUrls) (password : String) (workingCopy : Path) : Prop where
  secret : urls.KeepSecret password c
  workingCopy : c ∉ workingCopy.text.toList
  texts : SparedBy c originTexts

namespace Alone

variable (h : Alone c urls password workingCopy)

include h in
/-- The texts around a command are among those of the program. -/
theorem runTexts : SparedBy c Command.runTexts :=
  h.texts.mono (List.subset_append_right _ _)

include h in
/-- The text that stands for a password lacks the character. -/
theorem not_mem_hiddenPassword : c ∉ hiddenPassword.toList := h.texts _ (by simp [originTexts])

include h in
/-- The command that sets one of the URLs hides the character. -/
theorem hides_setUrl {url : String} (hurl : url ∈ [urls.authenticated, urls.visible]) :
    (setUrlWithin workingCopy url password).Hides c := by
  have hfirst : SparedBy c ["remote", "set-url", Reference.remoteName] :=
    h.texts.mono (by simp [originTexts])
  have hrest : SparedBy c [] := by simp [SparedBy]
  have hcommand : (setUrlCommand url password).Hides c := by
    apply Command.hides_of_secret hfirst hrest
    · rcases List.mem_cons.mp hurl with rfl | hurl
      · exact h.secret.not_mem_redact_authenticated h.not_mem_hiddenPassword
      · rw [List.mem_singleton.mp hurl, h.secret.redact_visible]
        exact h.secret.visible
    · intro hc
      rcases List.mem_cons.mp hurl with rfl | hurl
      · exact h.secret.ends
      · rw [List.mem_singleton.mp hurl] at hc
        exact absurd hc h.secret.visible
  exact hcommand.within h.workingCopy

include h in
/-- A command that hides the character shows it nowhere when it is run. -/
theorem discreet_run {command : Command} (hides : command.Hides c) :
    Discreet c (Trusted c urls.authenticated) host command.run fun _ => True :=
  .run h.runTexts hides (fun _ _ htrusted => htrusted.echoes) fun _ _ _ _ _ => trivial

include h in
/-- Setting one of the URLs shows the character nowhere. -/
theorem discreet_setUrl {url : String} (hurl : url ∈ [urls.authenticated, urls.visible]) :
    Discreet c (Trusted c urls.authenticated) host (setUrl workingCopy url password)
      fun _ => True :=
  .discard (h.discreet_run (h.hides_setUrl hurl))

include h in
/-- Putting the visible URL back shows the character nowhere, also where it fails: the failure is
reported without it. -/
theorem discreet_restore :
    Discreet c (Trusted c urls.authenticated) host (restore workingCopy urls password)
      fun _ => True := by
  unfold restore
  split
  · apply Discreet.bind (.attempt (h.discreet_setUrl (by simp)))
    · intro result
      cases result with
      | ok _ => exact Makes.pure
      | error failure => exact Makes.report
    · intro result hsafe
      cases result with
      | ok _ => exact .pure trivial
      | error failure =>
        have hmessage : c ∉ failure.message.toList := hsafe.1 failure rfl
        apply Discreet.report
        simp only [String.toList_append, List.mem_append, not_or]
        exact ⟨⟨⟨h.texts _ (by simp [originTexts]), h.workingCopy⟩, h.texts _ (by simp [originTexts])⟩,
          not_mem_redact (.of_not_mem hmessage) h.not_mem_hiddenPassword⟩
  · exact .pure trivial

include h in
/-- What is followed by putting the visible URL back shows the character nowhere if it does not by
itself. -/
theorem discreet_restoringAfter {α : Type} {operation : Operation α} {safe : α → Prop}
    (hoperation : Discreet c (Trusted c urls.authenticated) host operation safe) :
    Discreet c (Trusted c urls.authenticated) host
      (restoringAfter workingCopy urls password operation) safe := by
  have hmakes {result : Except Failure α} :
      Makes (restore workingCopy urls password >>= fun _ => Operation.ofExcept result)
        fun _ => True := by
    apply Makes.bind
    · exact fun host before => (ensures_restore_ok urls password host before).mono
        fun _ _ _ _ _ _ => trivial
    · exact fun _ => Makes.ofExcept
  apply Discreet.bind (.attempt hoperation) fun _ => hmakes
  intro result hsafe
  apply Discreet.bind h.discreet_restore fun _ => Makes.ofExcept
  exact fun _ _ => .ofExcept hsafe.1 hsafe.2

include h in
/-- A command without secrets that is run with the login shows the character nowhere, and neither
does what is done to the origin for it. -/
theorem discreet_runAuthenticated {arguments : List String} (harguments : SparedBy c arguments) :
    Discreet c (Trusted c urls.authenticated) host
      (runAuthenticated workingCopy urls password (.plain arguments)) fun _ => True := by
  have hrun : Discreet c (Trusted c urls.authenticated) host
      ((Command.plain arguments).within workingCopy).run fun _ => True :=
    h.discreet_run ((Command.hides_plain harguments).within h.workingCopy)
  have hrest := h.discreet_restoringAfter hrun
  unfold runAuthenticated
  split
  · apply Discreet.bind (h.discreet_setUrl (by simp))
    · exact fun _ => makes_restoringAfter urls password (fun _ _ => trivial)
        (Makes.run fun _ _ => trivial)
    · exact fun _ _ => hrest
  · exact hrest

include h in
/-- Asking for the URL of the remote shows the character nowhere; in the answer it stands in copies
of the URL with the login alone. -/
theorem discreet_url :
    Discreet c (Trusted c urls.authenticated) host (url workingCopy) fun current =>
      OnlyWithin c urls.authenticated.toList current.toList := by
  have harguments : SparedBy c urlArguments :=
    h.texts.mono fun text htext => by simp [originTexts, htext]
  have hrun : Discreet c (Trusted c urls.authenticated) host
      ((Command.plain urlArguments).within workingCopy).run fun output =>
        OnlyWithin c urls.authenticated.toList (Text.decodeLossy output).toList := by
    apply Discreet.run h.runTexts ((Command.hides_plain harguments).within h.workingCopy)
      fun _ _ htrusted => htrusted.echoes
    intro call hruns htrusted output houtput
    obtain ⟨folder, reply, hfinished, -, rfl⟩ := Command.of_conclude_eq_ok houtput
    have houtput : Text.decodeLossy reply.output ∈ call.outcome.texts := by
      rw [hfinished]
      exact List.mem_cons_of_mem _ (List.mem_singleton_self _)
    rcases htrusted with ⟨text, htext, honly⟩ | ⟨-, -, honly⟩
    · -- none of the arguments has the character, so the answer does not have it either
      have hnone : c ∉ text.toList := by
        rw [hruns.arguments, Command.map_text_plain_within] at htext
        rcases List.mem_cons.mp htext with rfl | htext
        · simp
        · exact harguments text htext
      exact .of_not_mem ((honly _ houtput).not_mem hnone)
    · exact honly _ houtput
  apply Discreet.bind hrun fun _ => Makes.pure
  intro output houtput
  exact .pure (Git.onlyWithin_trim (fun _ => h.secret.ends) houtput)

include h in
/-- Setting the origin right shows the character nowhere, whatever URL is found there. -/
theorem discreet_repair :
    Discreet c (Trusted c urls.authenticated) host (repair workingCopy urls.visible password)
      fun _ => True := by
  have htext {text : String} (htext : text ∈ originTexts) : c ∉ text.toList := h.texts text htext
  unfold repair
  apply Discreet.bind h.discreet_url
  · intro current
    apply Makes.ite
    · exact fun _ => Makes.bind Makes.report fun _ => Makes.pure
    · intro _
      apply Makes.bind Makes.report
      exact fun _ => Makes.bind ((makes_setUrl _ _).mono fun _ _ => trivial) fun _ => Makes.pure
  · intro current hcurrent
    split
    · apply Discreet.bind (.report ?_) (fun _ => Makes.pure) fun _ _ => .pure trivial
      simp only [String.toList_append, List.mem_append, not_or]
      exact ⟨⟨⟨htext (by simp [originTexts]), h.workingCopy⟩, htext (by simp [originTexts])⟩,
        h.secret.visible⟩
    · have hset : Discreet c (Trusted c urls.authenticated) host
          (setUrl workingCopy urls.visible password) fun _ => True := h.discreet_setUrl (by simp)
      have hmakes : Makes (setUrl workingCopy urls.visible password) fun _ => True :=
        (makes_setUrl _ _).mono fun _ _ => trivial
      apply Discreet.bind (.report ?_)
      · exact fun _ => Makes.bind hmakes fun _ => Makes.pure
      · exact fun _ _ => .bind hset (fun _ => Makes.pure) fun _ _ => .pure trivial
      · simp only [String.toList_append, List.mem_append, not_or]
        exact ⟨⟨⟨⟨htext (by simp [originTexts]),
          h.secret.not_mem_redact h.not_mem_hiddenPassword hcurrent⟩,
          htext (by simp [originTexts])⟩, h.secret.visible⟩, htext (by simp [originTexts])⟩

end Alone

end WorkingCopies.Origin
