import WorkingCopies.Proofs.FileSystem.Refuse
import WorkingCopies.Proofs.Git.Failure
import WorkingCopies.Proofs.Masking

/-!
# Operations that keep a character to themselves

A secret is followed by a character that stands nowhere else. What git writes, and the reason for
which the system refuses to start it, may have it in copies of what git was given, and a command that
hides its secret lets none of them through: neither its line in the log nor its failure has the
character. `Discreet` says so of longer operations, for all their reports and failures, and the rules
below carry it from the parts to the whole. An operation that goes on with what another one gave has
to know that this is safe, so the values are a part of the statement.
-/

namespace WorkingCopies

open Git (Call Command Reply SparedBy failureTexts)
open Text (NoBlankEnds OnlyWithin)

variable {c : Char}

/-- Hiding several secrets brings in nothing but what is shown in their place. -/
theorem Mask.mem_of_mem_hideAll {masks : List Mask} {text : String}
    (h : c ∈ (hideAll masks text).toList) :
    c ∈ text.toList ∨ ∃ mask ∈ masks, c ∈ mask.shown.toList := by
  induction masks generalizing text with
  | nil => exact .inl h
  | cons mask masks ih =>
    rcases ih h with htext | ⟨other, hother, hshown⟩
    · rcases mem_of_mem_hide htext with hbefore | hshown
      · exact .inl hbefore
      · exact .inr ⟨mask, List.mem_cons_self, hshown⟩
    · exact .inr ⟨other, List.mem_cons_of_mem _ hother, hshown⟩

namespace Git

variable {command : Command} {call : Call} {reply : Reply}

/-- Whether a call has brought a character nowhere but in copies of one of its arguments, or not at
all. -/
def Call.Echoes (call : Call) (c : Char) : Prop :=
  ∃ text ∈ "" :: call.arguments, call.OnlyWithin c text

/-- Texts that have a character nowhere but in copies of a secret are joined to such a text. -/
theorem onlyWithin_intercalate {separator : String} {texts : List String} {secret : List Char}
    (hseparator : c ∉ separator.toList) (h : ∀ text ∈ texts, OnlyWithin c secret text.toList) :
    OnlyWithin c secret (separator.intercalate texts).toList := by
  induction texts with
  | nil => exact .nil
  | cons text texts ih =>
    have hrest := ih fun other hother => h other (List.mem_cons_of_mem _ hother)
    have hfirst := h text List.mem_cons_self
    cases texts with
    | nil => simpa using hfirst
    | cons next texts =>
      rw [String.intercalate_cons_cons, String.toList_append, String.toList_append,
        List.append_assoc]
      exact hfirst.append (hrest.append_of_not_mem hseparator)

/-- A trimmed text has a character nowhere but in copies of a secret if the text does and the secret
has no white space at its ends. -/
theorem onlyWithin_trim {secret : List Char} {text : String}
    (hends : c ∈ secret → NoBlankEnds secret) (h : OnlyWithin c secret text.toList) :
    OnlyWithin c secret (Text.trim text).toList := by
  have htrimmed : (Text.trim text).toList = Text.trimChars text.toList := by
    simp [Text.trim]
  rw [htrimmed]
  by_cases hc : c ∈ secret
  · exact h.trimChars (hends hc)
  · exact .of_not_mem fun hmem => h.not_mem hc (Text.mem_of_mem_trimChars hmem)

/-- What git wrote has a character nowhere but in copies of a secret if its two parts do. -/
theorem Reply.onlyWithin_written {secret : List Char} (hline : c ∉ "\n".toList)
    (hends : c ∈ secret → NoBlankEnds secret)
    (herrors : OnlyWithin c secret (Text.decodeLossy reply.errorOutput).toList)
    (houtput : OnlyWithin c secret (Text.decodeLossy reply.output).toList) :
    OnlyWithin c secret reply.written.toList := by
  apply onlyWithin_intercalate hline
  intro text htext
  obtain ⟨bytes, hbytes, rfl⟩ := List.mem_map.mp (List.mem_filter.mp htext).1
  rcases List.mem_cons.mp hbytes with rfl | hbytes
  · exact onlyWithin_trim hends herrors
  · rw [List.mem_singleton.mp hbytes]
    exact onlyWithin_trim hends houtput

namespace Command

/-- The texts of the program around a command: in its line in the log, and in its failure. -/
def runTexts : List String :=
  ["[", "] ", (Failure.toolMissing "git").message] ++ failureTexts

/-- Whether a command hides a character: it shows it nowhere, and an argument that has it is the only
secret of the command and has no white space at its ends. -/
structure Hides (command : Command) (c : Char) : Prop where
  folder : ∀ folder, command.folder = some folder → c ∉ folder.text.toList
  shown : ∀ argument ∈ command.arguments, c ∉ argument.shown.toList
  secret : ∀ argument ∈ command.arguments, c ∈ argument.text.toList →
    NoBlankEnds argument.text.toList ∧ command.masks = [⟨argument.text, argument.shown⟩]

namespace Hides

/-- What is shown in place of secrets lacks the character. -/
theorem not_mem_masks (h : command.Hides c) : ∀ mask ∈ command.masks, c ∉ mask.shown.toList := by
  intro mask hmask
  obtain ⟨argument, hargument, hsome⟩ := List.mem_filterMap.mp hmask
  split at hsome
  · obtain rfl := Option.some.inj hsome
    exact h.shown argument hargument
  · cases hsome

/-- A text without the character does not get it. -/
theorem not_mem_mask (h : command.Hides c) {text : String} (htext : c ∉ text.toList) :
    c ∉ (command.mask text).toList := by
  intro hmem
  rcases Mask.mem_of_mem_hideAll hmem with hbefore | ⟨mask, hmask, hshown⟩
  · exact htext hbefore
  · exact h.not_mem_masks mask hmask hshown

/-- A text that has the character nowhere but in copies of an argument loses it. -/
theorem not_mem_mask_of_onlyWithin (h : command.Hides c) {argument : Argument} {text : String}
    (hargument : argument ∈ command.arguments)
    (htext : OnlyWithin c argument.text.toList text.toList) : c ∉ (command.mask text).toList := by
  by_cases hc : c ∈ argument.text.toList
  · rw [mask, (h.secret argument hargument hc).2]
    exact Mask.not_mem_hide htext (h.shown argument hargument)
  · exact h.not_mem_mask (htext.not_mem hc)

/-- A copy of an argument, or of nothing, has no white space at its ends where it has the character,
and a text that has the character nowhere but in such copies loses it. -/
theorem not_mem_mask_of_echo (h : command.Hides c) {secret : String}
    (hsecret : secret ∈ "" :: command.arguments.map (·.text)) :
    (c ∈ secret.toList → NoBlankEnds secret.toList) ∧
      ∀ {text : String}, OnlyWithin c secret.toList text.toList →
        c ∉ (command.mask text).toList := by
  rcases List.mem_cons.mp hsecret with rfl | hsecret
  · exact ⟨by simp, fun htext => h.not_mem_mask (htext.not_mem (by simp))⟩
  · obtain ⟨argument, hargument, rfl⟩ := List.mem_map.mp hsecret
    exact ⟨fun hc => (h.secret argument hargument hc).1, h.not_mem_mask_of_onlyWithin hargument⟩

variable (htexts : SparedBy c runTexts)

include htexts in
/-- The texts of failures are among these. -/
theorem spared_failureTexts : SparedBy c failureTexts :=
  htexts.mono (List.subset_append_right _ _)

include htexts in
/-- The command line lacks the character. -/
theorem not_mem_display (h : command.Hides c) : c ∉ command.display.toList :=
  Command.not_mem_display (htexts "git" (by simp [runTexts, failureTexts]))
    (htexts " " (by simp [runTexts, failureTexts])) h.shown

include htexts in
/-- The line in the log lacks the character. -/
theorem not_mem_logText (h : command.Hides c) : c ∉ command.logText.toList := by
  have hdisplay := h.not_mem_display htexts
  unfold logText
  split
  · next folder hfolder =>
    have hopen : c ∉ "[".toList := htexts _ (by simp [runTexts])
    have hclose : c ∉ "] ".toList := htexts _ (by simp [runTexts])
    simp only [String.toList_append, List.mem_append, not_or]
    exact ⟨⟨⟨hopen, h.folder folder hfolder⟩, hclose⟩, hdisplay⟩
  · exact hdisplay

include htexts in
/-- A failure lacks the character if the call brought it nowhere but in copies of an argument. -/
theorem not_mem_message (h : command.Hides c) {failure : Failure} (hruns : call.Runs command)
    (hechoes : call.Echoes c) (hfailure : command.conclude call.outcome = .error failure) :
    c ∉ failure.message.toList := by
  have hdisplay := h.not_mem_display htexts
  have hfailureTexts := spared_failureTexts htexts
  obtain ⟨secret, hsecret, honly⟩ := hechoes
  obtain ⟨hends, hmasked⟩ := h.not_mem_mask_of_echo (hruns.arguments ▸ hsecret)
  cases houtcome : call.outcome with
  | notStarted fault =>
    rw [houtcome] at hfailure
    obtain rfl := Except.error.inj hfailure
    rw [mem_commandFailed_iff hfailureTexts hdisplay]
    rcases hruns.fault fault houtcome with hfault | ⟨reason, rfl⟩
    · apply h.not_mem_mask
      apply hfailureTexts
      exact List.mem_append_right _ (List.mem_map_of_mem hfault)
    · exact hmasked (honly reason (by simp [houtcome, Outcome.texts]))
  | finished place reply =>
    rw [houtcome] at hfailure
    dsimp only [conclude] at hfailure
    split at hfailure
    · cases hfailure
    · obtain rfl := Except.error.inj hfailure
      have hline : c ∉ "\n".toList := hfailureTexts "\n" (by simp [failureTexts])
      have herrors := honly (Text.decodeLossy reply.errorOutput) (by simp [houtcome, Outcome.texts])
      have houtput := honly (Text.decodeLossy reply.output) (by simp [houtcome, Outcome.texts])
      rw [mem_commandFailed_iff hfailureTexts hdisplay]
      exact hmasked (Reply.onlyWithin_written hline hends herrors houtput)

end Hides

/-- A command without secrets hides a character that is in none of its arguments. -/
theorem hides_plain {arguments : List String} (h : SparedBy c arguments) :
    (plain arguments).Hides c := by
  have hargument {argument : Argument} (hargument : argument ∈ (plain arguments).arguments) :
      c ∉ argument.text.toList ∧ c ∉ argument.shown.toList := by
    obtain ⟨text, htext, rfl⟩ := List.mem_map.mp hargument
    exact ⟨h text htext, h text htext⟩
  constructor
  · intro folder hfolder
    cases hfolder
  · exact fun argument hmem => (hargument hmem).2
  · exact fun argument hmem hc => absurd hc (hargument hmem).1

/-- A command with one secret, which is shown in another form, hides a character that is nowhere but
in the secret. -/
theorem hides_of_secret {first rest : List String} {secret shown : String}
    (hfirst : SparedBy c first) (hrest : SparedBy c rest) (hshown : c ∉ shown.toList)
    (hends : c ∈ secret.toList → NoBlankEnds secret.toList) :
    (⟨first.map ({ text := · }) ++ { text := secret, shown } :: rest.map ({ text := · }), none⟩ :
      Command).Hides c := by
  have hplain {texts : List String} (htexts : SparedBy c texts) {argument : Argument}
      (hargument : argument ∈ texts.map fun text => ({ text } : Argument)) :
      c ∉ argument.text.toList ∧ c ∉ argument.shown.toList := by
    obtain ⟨text, htext, rfl⟩ := List.mem_map.mp hargument
    exact ⟨htexts text htext, htexts text htext⟩
  constructor
  · intro folder hfolder
    cases hfolder
  · intro argument hargument
    rcases List.mem_append.mp hargument with hargument | hargument
    · exact (hplain hfirst hargument).2
    · rcases List.mem_cons.mp hargument with rfl | hargument
      · exact hshown
      · exact (hplain hrest hargument).2
  · intro argument hargument hc
    rcases List.mem_append.mp hargument with hargument | hargument
    · exact absurd hc (hplain hfirst hargument).1
    · rcases List.mem_cons.mp hargument with rfl | hargument
      · refine ⟨hends hc, ?_⟩
        have hempty : secret ≠ "" := by
          intro hempty
          rw [hempty] at hc
          simp at hc
        have hother : secret ≠ shown := fun hsame => hshown (hsame ▸ hc)
        simp [masks, List.filterMap_append, hempty, hother]
      · exact absurd hc (hplain hrest hargument).1

/-- Hiding a character in a folder whose name lacks it. -/
theorem Hides.within (h : command.Hides c) {folder : Path} (hfolder : c ∉ folder.text.toList) :
    (command.within folder).Hides c := by
  constructor
  · intro other hother
    cases hother
    exact hfolder
  · exact h.shown
  · exact h.secret

end Command

end Git

variable {α β : Type} {trusted : Call → Prop} {host : Host}

/-- Whether a failure shows a character nowhere. -/
def Failure.Lacks (failure : Failure) (c : Char) : Prop := c ∉ failure.message.toList

/-- What an operation has reported, and how it failed, lacks a character, and a value that it gives
is safe. -/
structure Withholds (c : Char) (safe : α → Prop) (before : Workspace) (result : Except Failure α)
    (after : Workspace) : Prop where
  log : ∃ entries, after.log = entries ++ before.log ∧ ∀ entry ∈ entries, c ∉ entry.text.toList
  failure : ∀ failure, result = .error failure → failure.Lacks c
  value : ∀ value, result = .ok value → safe value

/-- Whether an operation withholds a character wherever it is carried out on a host, as long as all
calls that it makes can be trusted. -/
def Discreet (c : Char) (trusted : Call → Prop) (host : Host) (operation : Operation α)
    (safe : α → Prop) : Prop :=
  ∀ before, Ensures operation host before fun result calls after =>
    (∀ call ∈ calls, trusted call) → Withholds c safe before result after

/-- What is withheld before some state and behind it is withheld from the start to the end. -/
theorem Withholds.trans {middle : α → Prop} {safe : β → Prop} {before between after : Workspace}
    {value : α} {result : Except Failure β} (h : Withholds c middle before (.ok value) between)
    (hrest : Withholds c safe between result after) : Withholds c safe before result after := by
  obtain ⟨entries, hentries, hlack⟩ := h.log
  obtain ⟨more, hmore, hmoreLack⟩ := hrest.log
  refine ⟨⟨more ++ entries, ?_, ?_⟩, hrest.failure, hrest.value⟩
  · rw [hmore, hentries, List.append_assoc]
  · intro entry hentry
    exact (List.mem_append.mp hentry).elim (hmoreLack entry) (hlack entry)

namespace Discreet

variable {safe : α → Prop}

/-- A safe value may be given. -/
theorem pure {value : α} (h : safe value) : Discreet c trusted host (Pure.pure value) safe := by
  intro before
  apply Ensures.pure
  intro _
  refine ⟨⟨[], rfl, by simp⟩, ?_, ?_⟩
  · intro failure hfailure
    cases hfailure
  · intro other hother
    cases hother
    exact h

/-- A failure that lacks the character may be thrown. -/
theorem throw {failure : Failure} (h : failure.Lacks c) :
    Discreet c trusted host (MonadExcept.throw failure) safe := by
  intro before
  apply Ensures.throw
  intro _
  refine ⟨⟨[], rfl, by simp⟩, ?_, ?_⟩
  · intro other hother
    cases hother
    exact h
  · intro value hvalue
    cases hvalue

/-- What follows an operation that gives a safe value may go on with it. That all its calls are made
on top of the others has to be known in any case, since a call that was made before may be one that
cannot be trusted. -/
theorem bind {operation : Operation α} {next : α → Operation β} {safe : β → Prop}
    {middle : α → Prop} (first : Discreet c trusted host operation middle)
    (hmakes : ∀ value, Makes (next value) fun _ => True)
    (rest : ∀ value, middle value → Discreet c trusted host (next value) safe) :
    Discreet c trusted host (operation >>= next) safe := by
  intro before
  apply Ensures.bind (first before)
  · intro value calls between hfirst
    by_cases htrusted : ∀ call ∈ calls, trusted call
    · have hvalue : middle value := (hfirst htrusted).value value rfl
      apply (rest value hvalue between).mono
      intro result more after hrest hall
      exact (hfirst htrusted).trans (hrest fun call hcall => hall call (List.mem_append_right _ hcall))
    · apply (hmakes value host between).mono
      intro result more after _ hall
      exact absurd (fun call hcall => hall call (List.mem_append_left _ hcall)) htrusted
  · intro failure calls after hfirst htrusted
    obtain ⟨hlog, hfailure, -⟩ := hfirst htrusted
    refine ⟨hlog, ?_, ?_⟩
    · intro other hother
      cases hother
      exact hfailure failure rfl
    · intro value hvalue
      cases hvalue

/-- The result of an attempt is safe: a failure lacks the character, and a value is as safe as it
was. -/
theorem attempt {operation : Operation α} (h : Discreet c trusted host operation safe) :
    Discreet c trusted host operation.attempt fun result =>
      (∀ failure, result = .error failure → failure.Lacks c) ∧
        ∀ value, result = .ok value → safe value := by
  intro before
  apply Ensures.attempt
  apply (h before).mono
  intro result calls after hwithholds hcalls
  obtain ⟨hlog, hfailure, hvalue⟩ := hwithholds hcalls
  refine ⟨hlog, ?_, ?_⟩
  · intro failure hnever
    cases hnever
  · intro other hother
    cases hother
    exact ⟨hfailure, hvalue⟩

/-- A report that lacks the character may be made. -/
theorem report {level : Log.Level} {topic : Log.Topic} {text : String} (h : c ∉ text.toList) :
    Discreet c trusted host (Operation.report level topic text) fun _ => True := by
  intro before
  apply Ensures.report
  intro _
  refine ⟨⟨[⟨level, topic, text⟩], rfl, by simpa using h⟩, ?_, fun _ _ => trivial⟩
  intro failure hfailure
  cases hfailure

/-- A result may be given whose failure lacks the character and whose value is safe. -/
theorem ofExcept {result : Except Failure α}
    (hfailure : ∀ failure, result = .error failure → failure.Lacks c)
    (hvalue : ∀ value, result = .ok value → safe value) :
    Discreet c trusted host (Operation.ofExcept result) safe := by
  cases result with
  | ok value => exact pure (hvalue value rfl)
  | error failure => exact throw (hfailure failure rfl)

/-- Forgetting a value leaves nothing to be safe. -/
theorem discard {operation : Operation α} (h : Discreet c trusted host operation safe) :
    Discreet c trusted host (Functor.discard operation) fun _ => True := by
  intro before
  apply Ensures.discard
  apply (h before).mono
  intro result calls after hwithholds hcalls
  obtain ⟨hlog, hfailure, -⟩ := hwithholds hcalls
  refine ⟨hlog, ?_, fun _ _ => trivial⟩
  intro failure hresult
  cases result with
  | ok value => cases hresult
  | error cause =>
    cases hresult
    exact hfailure _ rfl

/-- A change of the files may be made if it is refused for reasons alone that lack the character. -/
theorem edit {change : FileSystem.Edit α} {faults : List FileSystem.Fault}
    (hrefused : change.RefusedBy faults)
    (hfaults : ∀ fault ∈ faults, (Failure.fileSystem fault).Lacks c) :
    Discreet c trusted host (Operation.edit change) fun _ => True := by
  intro before
  apply Ensures.edit
  intro _
  refine ⟨⟨[], rfl, by simp⟩, ?_, fun _ _ => trivial⟩
  intro failure hfailure
  have hchange := hrefused before.files
  unfold FileSystem.Edit.Ensures FileSystem.Edit.outcome at hchange
  cases hresult : (change.run.run before.files).1 with
  | ok value =>
    rw [hresult] at hfailure
    cases hfailure
  | error fault =>
    rw [hresult] at hfailure hchange
    cases hfailure
    exact hfaults fault (hchange fault rfl)

/-- A command that hides the character may be run, if a call of it that failed has nothing but what
it was given, and what a call gave is safe. -/
theorem run {command : Command} {safe : Bytes → Prop} (htexts : SparedBy c Command.runTexts)
    (hides : command.Hides c)
    (hechoes : ∀ call : Call, call.Runs command → trusted call → call.succeeded = false →
      call.Echoes c)
    (hvalue : ∀ call : Call, call.Runs command → trusted call → ∀ output,
      command.conclude call.outcome = .ok output → safe output) :
    Discreet c trusted host command.run safe := by
  intro before
  apply ensures_run
  · intro _ _
    refine ⟨⟨[], rfl, by simp⟩, ?_, ?_⟩
    · intro failure hfailure
      cases hfailure
      exact htexts _ (by simp [Command.runTexts])
    · intro output houtput
      cases houtput
  · intro git _ call hcall htrusted
    have hruns : call.Runs command := hcall ▸ command.callBy_runs git before
    have hcallTrusted : trusted call := htrusted call List.mem_cons_self
    refine ⟨⟨[⟨.debug, .git, command.logText⟩], rfl, ?_⟩, ?_, ?_⟩
    · simpa using hides.not_mem_logText htexts
    · intro failure hfailure
      have hfailed : call.succeeded = false := by
        rcases command.conclude_cases call with ⟨-, output, houtput⟩ | ⟨hfailed, -⟩
        · rw [houtput] at hfailure
          cases hfailure
        · exact hfailed
      exact hides.not_mem_message htexts hruns (hechoes call hruns hcallTrusted hfailed) hfailure
    · exact fun output houtput => hvalue call hruns hcallTrusted output houtput

end Discreet

end WorkingCopies
