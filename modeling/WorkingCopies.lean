import WorkingCopies.CommandLine.Run
import WorkingCopies.Git.Script
import WorkingCopies.Main
import WorkingCopies.Repository.Request
import WorkingCopies.Proofs.Reference.Classify
import WorkingCopies.Proofs.WorkingCopy.Hash
import WorkingCopies.Proofs.WorkingCopy.Landing
import WorkingCopies.Proofs.Repository.BestEffort
import WorkingCopies.Proofs.Repository.Exposure
import WorkingCopies.Proofs.Repository.FetchedCopy
import WorkingCopies.Proofs.Repository.Guarded
import WorkingCopies.Proofs.Git.View
import WorkingCopies.Proofs.WorkingCopy.Branches
import WorkingCopies.Proofs.Repository.Upkeep
import WorkingCopies.Proofs.Repository.WithoutLogin
import WorkingCopies.Proofs.FileSystem.Names
import WorkingCopies.Proofs.FileSystem.Walk
import WorkingCopies.Proofs.FileSystem.Edit
import WorkingCopies.Proofs.FileSystem.Grow
import WorkingCopies.Proofs.FileSystem.Copy
import WorkingCopies.Proofs.FileSystem.Remove
import WorkingCopies.Proofs.Repository.SourceFolder
import WorkingCopies.Proofs.Git.Step
import WorkingCopies.Proofs.Repository.Steps
import WorkingCopies.Proofs.CommandLine.Work
import WorkingCopies.Proofs.CommandLine.ExitStatus
import WorkingCopies.Proofs.CommandLine.Confined
import WorkingCopies.Proofs.CommandLine.Changes
import WorkingCopies.Proofs.Repository.WithoutGit
import WorkingCopies.Proofs.Configuration.Declarations
import WorkingCopies.Proofs.Configuration.Credentials
import WorkingCopies.Proofs.RemoteUrls.Reading
import WorkingCopies.Proofs.Repository.Secrecy
import WorkingCopies.Proofs.WorkingCopy.FailStop
import WorkingCopies.Proofs.Origin.Repair
import WorkingCopies.Proofs.Repository.FailedUpdate
import WorkingCopies.Proofs.Repository.FetchedFile
import WorkingCopies.Proofs.Repository.ShownFile
import WorkingCopies.Proofs.FileSystem.FolderCopy
import WorkingCopies.Proofs.FileSystem.Reproduce
import WorkingCopies.Proofs.Repository.FreshCopy
import WorkingCopies.Proofs.Text.Order
import WorkingCopies.Proofs.Text.Listing
import WorkingCopies.Proofs.WorkingCopy.Names
import WorkingCopies.Proofs.Configuration.Precedence
import WorkingCopies.Proofs.Configuration.Reading
import WorkingCopies.Proofs.CommandLine.Listing
import WorkingCopies.Proofs.Latch.Lineage
