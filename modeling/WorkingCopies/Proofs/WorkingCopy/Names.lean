import WorkingCopies.Proofs.Git.Attempt
import WorkingCopies.Proofs.Text.Listing
import WorkingCopies.Proofs.Text.Order
import WorkingCopies.WorkingCopy

/-!
# The names of a commit

The names of a commit are listed where its hash is found and git lists the references at it, and
nowhere else. The hash and the names that git wrote are sorted by their bytes: none is lost and none
is listed more often than git did. As long as names have no white space, nothing else of what git
wrote has a part in the list, neither its order nor the ends of its lines.
-/

namespace WorkingCopies

open Git (Command)
open Text (Listing)

variable {host : Host} {before : Workspace} {workingCopy : Path} {reference hash : String}
  {output : Bytes}

/-- Two operations in turn give a value where both do, the second one where the first left off. -/
theorem Operation.result_bind_eq_ok_iff {α β : Type} {operation : Operation α}
    {next : α → Operation β} {value : β} :
    ((operation >>= next).carryOut host before).1 = .ok value ↔
      ∃ found, (operation.carryOut host before).1 = .ok found ∧
        ((next found).carryOut host (operation.carryOut host before).2).1 = .ok value := by
  rw [carryOut_bind]
  rcases operation.carryOut host before with ⟨failure | found, after⟩ <;> simp

/-- A command gives what its call wrote, if the call succeeded. -/
theorem Git.Command.conclude_eq_ok_iff {command : Command} {outcome : Outcome} :
    command.conclude outcome = .ok output ↔
      ∃ folder reply, outcome = .finished folder reply ∧ reply.status = 0 ∧
        reply.output = output := by
  cases outcome with
  | notStarted fault => simp [conclude]
  | finished folder reply => by_cases hstatus : reply.status = 0 <;> simp [conclude, hstatus]

/-- Git gives what it wrote where it is installed and the command succeeds. -/
theorem Git.result_execute_eq_ok_iff {arguments : List String} :
    ((execute workingCopy arguments).carryOut host before).1 = .ok output ↔
      ∃ git folder reply, host.git = some git ∧
        (git.attempt before (some workingCopy) arguments).outcome = .finished folder reply ∧
        reply.status = 0 ∧ reply.output = output := by
  have hrun : ((execute workingCopy arguments).carryOut host before).1 = _ :=
    congrArg Prod.fst (outcome_run ((Command.plain arguments).within workingCopy) host before)
  rw [hrun]
  cases host.git with
  | none => simp
  | some git => simp [Command.callBy, Command.conclude_eq_ok_iff]

namespace WorkingCopy

section Sorting

variable {names others : List String}

/-- Sorting loses no name and adds none. -/
theorem sortNames_perm (names : List String) : (sortNames names).Perm names :=
  List.mergeSort_perm names _

/-- Sorted names are in the order of names. -/
theorem pairwise_sortNames (names : List String) :
    (sortNames names).Pairwise fun name other => name ≤ other := by
  have htrans (a b c : String) (hab : decide (a ≤ b) = true) (hbc : decide (b ≤ c) = true) :
      decide (a ≤ c) = true :=
    decide_eq_true (String.le_trans (of_decide_eq_true hab) (of_decide_eq_true hbc))
  have htotal (a b : String) : (decide (a ≤ b) || decide (b ≤ a)) = true := by
    simpa using String.le_total a b
  simpa only [sortNames, decide_eq_true_eq] using
    List.pairwise_mergeSort htrans htotal names

/-- The order in which names come has no part in how they are sorted. -/
theorem sortNames_eq_of_perm (h : names.Perm others) : sortNames names = sortNames others := by
  refine List.Perm.eq_of_pairwise (fun _ _ _ _ => String.le_antisymm) (pairwise_sortNames names)
    (pairwise_sortNames others) ?_
  exact (sortNames_perm names).trans (h.trans (sortNames_perm others).symm)

end Sorting

/-- The arguments that ask for the references that point at a commit. -/
def pointingArguments (hash : String) : List String :=
  ["for-each-ref", "--format=%(refname:short)", "--points-at", hash]

/-- Whether the hash of a reference is found, and git lists the references at it by writing
something. -/
def Lists (host : Host) (before : Workspace) (workingCopy : Path) (reference hash : String)
    (output : Bytes) : Prop :=
  ((hashOf workingCopy reference).carryOut host before).1 = .ok hash ∧
    ∃ git folder reply, host.git = some git ∧
      (git.attempt ((hashOf workingCopy reference).carryOut host before).2 (some workingCopy)
        (pointingArguments hash)).outcome = .finished folder reply ∧
      reply.status = 0 ∧ reply.output = output

/-- Names are given exactly where the hash is found and git lists the references at it. They are the
hash and the lines that git wrote, sorted. -/
theorem result_namesOf_eq_ok_iff {names : List String} :
    ((namesOf workingCopy reference).carryOut host before).1 = .ok names ↔
      ∃ hash output, Lists host before workingCopy reference hash output ∧
        sortNames (hash :: filledLines (Text.trim (Text.decodeLossy output))) = names := by
  have hnames : namesOf workingCopy reference =
      hashOf workingCopy reference >>= fun hash =>
        (Git.execute workingCopy (pointingArguments hash) >>= fun output =>
          pure (Text.trim (Text.decodeLossy output))) >>= fun listed =>
            pure (sortNames (hash :: filledLines listed)) := rfl
  have hlists {hash : String} {output : Bytes} :
      Lists host before workingCopy reference hash output ↔
        ((hashOf workingCopy reference).carryOut host before).1 = .ok hash ∧
          ((Git.execute workingCopy (pointingArguments hash)).carryOut host
            ((hashOf workingCopy reference).carryOut host before).2).1 = .ok output := by
    rw [Git.result_execute_eq_ok_iff, Lists]
  simp only [hnames, Operation.result_bind_eq_ok_iff, Operation.carryOut_pure, Except.ok.injEq,
    hlists]
  constructor
  · rintro ⟨hash, hhash, _, ⟨output, houtput, rfl⟩, hsorted⟩
    exact ⟨hash, output, ⟨hhash, houtput⟩, hsorted⟩
  · rintro ⟨hash, output, ⟨hhash, houtput⟩, hsorted⟩
    exact ⟨hash, hhash, _, ⟨output, houtput, rfl⟩, hsorted⟩

/-- Names that are listed plainly are read as they are. -/
theorem filledLines_trim_bytes {listing : Listing UInt8} (h : listing.read.IsPlain) :
    filledLines (Text.trim (Text.decodeLossy listing.bytes)) = listing.names :=
  Listing.filter_lines_trim_bytes h

/-- The names of a commit are given exactly where its hash is found and git lists the references at
it. They are in the order of their bytes, and are the hash together with the lines that are not
empty of what git wrote, each as often as it is there. If git lists names without white space, any
other listing of the same names gives the same list, in whatever order and with whatever ends of
lines they are written, wherever the same hash is found. -/
theorem namesOf_lists (workingCopy : Path) (reference : String) (host : Host)
    (before : Workspace) :
    let result := ((namesOf workingCopy reference).carryOut host before).1
    ((∃ names, result = .ok names) ↔
      ∃ hash output, Lists host before workingCopy reference hash output) ∧
    ∀ hash output, Lists host before workingCopy reference hash output →
      ∃ names, result = .ok names ∧
        names.Pairwise (fun name other => Text.encode name ≤ Text.encode other) ∧
        names.Perm (hash ::
          (Text.lines (Text.trim (Text.decodeLossy output))).filter fun line => !line.isEmpty) ∧
        ∀ listing : Listing UInt8, listing.bytes = output → listing.read.IsPlain →
          names.Perm (hash :: listing.names) ∧
          ∀ (place : Path) (name : String) (computer : Host) (start : Workspace)
            (other : Listing UInt8), Lists computer start place name hash other.bytes →
            other.read.IsPlain → other.names.Perm listing.names →
              ((namesOf place name).carryOut computer start).1 = .ok names := by
  intro result
  refine ⟨?_, ?_⟩
  · constructor
    · rintro ⟨names, hnames⟩
      obtain ⟨hash, output, hlists, -⟩ := result_namesOf_eq_ok_iff.mp hnames
      exact ⟨hash, output, hlists⟩
    · rintro ⟨hash, output, hlists⟩
      exact ⟨_, result_namesOf_eq_ok_iff.mpr ⟨hash, output, hlists, rfl⟩⟩
  · intro hash output hlists
    refine ⟨_, result_namesOf_eq_ok_iff.mpr ⟨hash, output, hlists, rfl⟩, ?_, ?_, ?_⟩
    · exact (pairwise_sortNames _).imp Text.encode_le_encode_of_le
    · exact sortNames_perm _
    · rintro listing rfl hplain
      rw [filledLines_trim_bytes hplain]
      refine ⟨sortNames_perm _, ?_⟩
      intro place name computer start other hother hotherPlain hnames
      refine result_namesOf_eq_ok_iff.mpr ⟨hash, other.bytes, hother, ?_⟩
      rw [filledLines_trim_bytes hotherPlain]
      -- the other names are the same, each as often, and that is all that sorting goes by
      exact sortNames_eq_of_perm (hnames.cons hash)

/-- Two gits that list a branch and a tag of a commit, each in its own way. -/
theorem namesOf_lists_of_branch_and_tag :
    let listing : Listing UInt8 := ⟨[(Text.encode "v2", .feed), (Text.encode "release", .feed)], []⟩
    let other : Listing UInt8 :=
      ⟨[([], .returnFeed), (Text.encode "release", .returnFeed), ([], .feed)], Text.encode "v2"⟩
    let git (listed : Bytes) : Git := fun _ files request =>
      match request.arguments with
      | "rev-parse" :: _ => .ok ({ output := Text.encode "c0\n" }, files)
      | "for-each-ref" :: _ => .ok ({ output := listed }, files)
      | _ => .ok ({}, files)
    let host (listed : Bytes) : Host := ⟨some (git listed), ⟨[]⟩⟩
    listing.read.IsPlain ∧ other.read.IsPlain ∧ other.names.Perm listing.names ∧
      Lists (host listing.bytes) { files := {} } ⟨"/"⟩ "HEAD" "c0" listing.bytes ∧
      Lists (host other.bytes) { files := {} } ⟨"/"⟩ "v2" "c0" other.bytes ∧
      ∃ names, names.Perm ["c0", "v2", "release"] ∧
        ((namesOf ⟨"/"⟩ "HEAD").carryOut (host listing.bytes) { files := {} }).1 = .ok names ∧
        ((namesOf ⟨"/"⟩ "v2").carryOut (host other.bytes) { files := {} }).1 = .ok names := by
  intro listing other git host
  have hplain : listing.read.IsPlain := by decide +kernel
  have hotherPlain : other.read.IsPlain := by decide +kernel
  have hnames : other.names.Perm listing.names := by decide +kernel
  have hlists : Lists (host listing.bytes) { files := {} } ⟨"/"⟩ "HEAD" "c0" listing.bytes :=
    ⟨by decide +kernel, _, [], { output := listing.bytes }, rfl, by decide +kernel, rfl, rfl⟩
  have hother : Lists (host other.bytes) { files := {} } ⟨"/"⟩ "v2" "c0" other.bytes :=
    ⟨by decide +kernel, _, [], { output := other.bytes }, rfl, by decide +kernel, rfl, rfl⟩
  obtain ⟨names, hresult, -, -, hlisted⟩ :=
    (namesOf_lists ⟨"/"⟩ "HEAD" (host listing.bytes) { files := {} }).2 _ _ hlists
  obtain ⟨hperm, hsame⟩ := hlisted listing rfl hplain
  have hread : listing.names = ["v2", "release"] := by decide +kernel
  rw [hread] at hperm
  exact ⟨hplain, hotherPlain, hnames, hlists, hother, names, hperm, hresult,
    hsame ⟨"/"⟩ "v2" (host other.bytes) { files := {} } other hother hotherPlain hnames⟩

end WorkingCopy

end WorkingCopies
