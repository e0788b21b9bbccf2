import WorkingCopies.Proofs.Git.Attempt
import WorkingCopies.Proofs.Text.Within

/-!
# What a failed command shows

A command without secrets hides nothing: its failure shows the arguments and all that git wrote, but
for the white space at the ends, or the reason for which the system refused to start git. A character
that is in none of the arguments and in no text of the program is therefore shown exactly if it stands
there.
-/

namespace WorkingCopies.Git

open Text (OnlyWithin isBlank trimChars)

variable {c : Char} {arguments : List String} {secret : String}

/-- The texts of the program in the failure of a command. -/
def failureTexts : List String :=
  ["Git command failed: ", "\n", "git", " "] ++ startFaults.map (·.message)

/-- A character that is in none of some texts. -/
def SparedBy (c : Char) (texts : List String) : Prop := ∀ text ∈ texts, c ∉ text.toList

/-- A character that is in none of some texts is in none of fewer. -/
theorem SparedBy.mono {texts fewer : List String} (h : SparedBy c texts) (hfewer : fewer ⊆ texts) :
    SparedBy c fewer :=
  fun text htext => h text (hfewer htext)

/-- The texts that an attempt to run git brings: what git wrote, errors first, or the reason for which
the system refused to start it. -/
def Outcome.texts : Outcome → List String
  | .finished _ reply => [Text.decodeLossy reply.errorOutput, Text.decodeLossy reply.output]
  | .notStarted (.other reason) => [reason]
  | .notStarted _ => []

/-- Where git was not started nothing is said but the words of the fault. -/
theorem Outcome.eq_message_of_mem_texts {fault : FileSystem.Fault} {text : String}
    (h : text ∈ (Outcome.notStarted fault).texts) : text = fault.message := by
  cases fault with
  | other reason => exact List.mem_singleton.mp h
  | _ => cases h

namespace Call

/-- Whether a call has brought some text. -/
def Shows (call : Call) (secret : String) : Prop :=
  ∃ text ∈ call.outcome.texts, secret.toList <:+: text.toList

/-- A call whose texts have a character nowhere but in copies of a secret. -/
def OnlyWithin (call : Call) (c : Char) (secret : String) : Prop :=
  ∀ text ∈ call.outcome.texts, Text.OnlyWithin c secret.toList text.toList

end Call

namespace Command

/-- A command line that is gone on with shows blanks and the arguments as they are shown. -/
theorem not_mem_foldl_shown {rest : List Argument} {line : String} (hblank : c ∉ " ".toList)
    (hline : c ∉ line.toList) (hrest : ∀ argument ∈ rest, c ∉ argument.shown.toList) :
    c ∉ (rest.foldl (fun line argument => line ++ " " ++ argument.shown) line).toList := by
  induction rest generalizing line with
  | nil => exact hline
  | cons argument rest ih =>
    refine ih ?_ fun other hother => hrest other (List.mem_cons_of_mem _ hother)
    simp only [String.toList_append, List.mem_append, not_or]
    exact ⟨⟨hline, hblank⟩, hrest argument List.mem_cons_self⟩

/-- A command line shows the word git, blanks and the arguments as they are shown. -/
theorem not_mem_display {command : Command} (hgit : c ∉ "git".toList) (hblank : c ∉ " ".toList)
    (hshown : ∀ argument ∈ command.arguments, c ∉ argument.shown.toList) :
    c ∉ command.display.toList :=
  not_mem_foldl_shown hblank hgit hshown

/-- A command without secrets shows its arguments. -/
theorem not_mem_display_plain (hgit : c ∉ "git".toList) (hblank : c ∉ " ".toList)
    (harguments : SparedBy c arguments) : c ∉ (plain arguments).display.toList := by
  apply not_mem_display hgit hblank
  intro argument hargument
  obtain ⟨text, htext, rfl⟩ := List.mem_map.mp hargument
  exact harguments text htext

/-- A command without secrets hides nothing. -/
theorem mask_plain (text : String) : (plain arguments).mask text = text := by
  have hmasks : (plain arguments).masks = [] := by
    simp [masks, plain]
  rw [mask, hmasks]
  rfl

end Command

/-- Texts with a separator between them have the characters of the texts, but for those of the
separator. -/
theorem mem_intercalate_iff {separator : String} {texts : List String}
    (hseparator : c ∉ separator.toList) :
    c ∈ (separator.intercalate texts).toList ↔ ∃ text ∈ texts, c ∈ text.toList := by
  induction texts with
  | nil => simp
  | cons text texts ih =>
    cases texts with
    | nil => simp
    | cons next texts =>
      rw [String.intercalate_cons_cons]
      simp only [String.toList_append, List.mem_append, hseparator, or_false, ih]
      simp

/-- Empty texts have no characters, so nothing is lost where they are left out. -/
theorem exists_mem_filled_iff {texts : List String} :
    (∃ text ∈ texts.filter fun text => !text.isEmpty, c ∈ text.toList) ↔
      ∃ text ∈ texts, c ∈ text.toList := by
  constructor
  · intro hmember
    obtain ⟨text, htext, hmem⟩ := hmember
    exact ⟨text, (List.mem_filter.mp htext).1, hmem⟩
  · intro hmember
    obtain ⟨text, htext, hmem⟩ := hmember
    refine ⟨text, List.mem_filter.mpr ⟨htext, ?_⟩, hmem⟩
    cases hempty : text.isEmpty with
    | false => rfl
    | true =>
      rw [String.isEmpty_iff.mp hempty] at hmem
      simp at hmem

/-- What git wrote has the characters of its two parts. -/
theorem Reply.mem_written_iff {reply : Reply} (hline : c ∉ "\n".toList) :
    c ∈ reply.written.toList ↔
      c ∈ trimChars (Text.decodeLossy reply.errorOutput).toList ∨
        c ∈ trimChars (Text.decodeLossy reply.output).toList := by
  unfold Reply.written
  rw [mem_intercalate_iff hline, exists_mem_filled_iff]
  simp [Text.trim]

/-- The failure of a command has a character that its command line and the texts of the program lack
exactly if what it has written has it. -/
theorem mem_commandFailed_iff {display output : String} (htexts : SparedBy c failureTexts)
    (hdisplay : c ∉ display.toList) :
    c ∈ (Failure.commandFailed display output).message.toList ↔ c ∈ output.toList := by
  have hinitial : c ∉ "Git command failed: ".toList := htexts _ (by simp [failureTexts])
  have hline : c ∉ "\n".toList := htexts "\n" (by simp [failureTexts])
  show c ∈ ("Git command failed: " ++ display ++
    (if output.isEmpty then "" else "\n" ++ output)).toList ↔ _
  cases hempty : output.isEmpty with
  | false =>
    simp only [Bool.false_eq_true, if_false, String.toList_append, List.mem_append, hinitial,
      hdisplay, hline, false_or]
  | true =>
    rw [String.isEmpty_iff.mp hempty]
    simp only [if_true, String.toList_append, List.mem_append, hinitial, hdisplay, false_or]

/-- The failure of a call of a plain command has a character that its arguments and the texts of the
program lack exactly if the call has brought the secret that the character stands in. -/
theorem mem_message_iff {call : Call} {failure : Failure} {folder : Path}
    (hruns : call.Runs ((Command.plain arguments).within folder))
    (hfailure : (Command.plain arguments).conclude call.outcome = .error failure)
    (htexts : SparedBy c failureTexts) (harguments : SparedBy c arguments)
    (hends : Text.NoBlankEnds secret.toList) (hmem : c ∈ secret.toList)
    (honly : call.OnlyWithin c secret) :
    c ∈ failure.message.toList ↔ call.Shows secret := by
  have hdisplay : c ∉ (Command.plain arguments).display.toList :=
    Command.not_mem_display_plain (htexts "git" (by simp [failureTexts]))
      (htexts " " (by simp [failureTexts])) harguments
  have hline : c ∉ "\n".toList := htexts "\n" (by simp [failureTexts])
  unfold Call.OnlyWithin at honly
  unfold Call.Shows
  cases houtcome : call.outcome with
  | notStarted fault =>
    rw [houtcome] at hfailure honly
    obtain rfl := Except.error.inj hfailure
    rw [mem_commandFailed_iff htexts hdisplay, Command.mask_plain]
    constructor
    · intro hshown
      rcases hruns.fault fault houtcome with hfault | ⟨reason, rfl⟩
      · exact absurd hshown (htexts _ (List.mem_append_right _ (List.mem_map_of_mem hfault)))
      · exact ⟨reason, List.mem_singleton_self reason,
          (honly reason (List.mem_singleton_self reason)).isInfix_of_mem hshown⟩
    · rintro ⟨text, htext, hshows⟩
      rw [Outcome.eq_message_of_mem_texts htext] at hshows
      exact hshows.mem hmem
  | finished place reply =>
    rw [houtcome] at hfailure honly
    dsimp only [Command.conclude] at hfailure
    split at hfailure
    · cases hfailure
    · obtain rfl := Except.error.inj hfailure
      have herrors := honly (Text.decodeLossy reply.errorOutput) (by simp [Outcome.texts])
      have houtput := honly (Text.decodeLossy reply.output) (by simp [Outcome.texts])
      rw [mem_commandFailed_iff htexts hdisplay, Command.mask_plain, Reply.mem_written_iff hline,
        herrors.mem_trimChars_iff hends hmem, houtput.mem_trimChars_iff hends hmem]
      simp [Outcome.texts]

end WorkingCopies.Git
