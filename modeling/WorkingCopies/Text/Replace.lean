/-!
# Replacing one text by another

Occurrences are found from the left and do not overlap: after a replacement the search goes on
behind the replaced part, so what was put in is never searched again.
-/

namespace WorkingCopies.Text

/-- What is left of a text behind an initial part. -/
def stripInitial? : List Char → List Char → Option (List Char)
  | [], text => some text
  | _ :: _, [] => none
  | p :: part, c :: text => if p = c then stripInitial? part text else none

/-- A stripped text is the initial part followed by what is left. -/
theorem eq_append_of_stripInitial? {part text rest : List Char}
    (h : stripInitial? part text = some rest) : text = part ++ rest := by
  fun_induction stripInitial? part text with
  | case1 text => simp_all
  | case2 => simp at h
  | case3 p part text ih => simp [ih h]
  | case4 => simp at h

/-- An initial part can be stripped from every text that starts with it. -/
theorem stripInitial?_append (part rest : List Char) :
    stripInitial? part (part ++ rest) = some rest := by
  induction part with
  | nil => rfl
  | cons c part ih => simp [stripInitial?, ih]

/-- Replace the text `first :: part` wherever it occurs. -/
def replaceChars (first : Char) (part new : List Char) : List Char → List Char
  | [] => []
  | c :: text =>
    match _h : stripInitial? (first :: part) (c :: text) with
    | some rest => new ++ replaceChars first part new rest
    | none => c :: replaceChars first part new text
termination_by text => text.length
decreasing_by
  · have := congrArg List.length (eq_append_of_stripInitial? _h)
    simp at this ⊢
    omega
  · simp

/-- Replace every occurrence of a text. The empty text is taken to occur nowhere. -/
def replace (old new text : String) : String :=
  match old.toList with
  | [] => text
  | first :: part => String.ofList (replaceChars first part new.toList text.toList)

end WorkingCopies.Text
