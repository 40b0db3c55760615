import AccountVault.Notice.Format
import AccountVault.Timeline.Handle
import AccountVault.Proofs.Json.Tokens
import AccountVault.Proofs.Json.RoundTrip
import AccountVault.Proofs.Record.RoundTrip
import AccountVault.Proofs.Account.Edits
import AccountVault.Proofs.System.Basic
import AccountVault.Proofs.System.Moves
import AccountVault.Proofs.System.Turns
import AccountVault.Proofs.System.Playing
import AccountVault.Proofs.System.Following
import AccountVault.Proofs.System.Goals
import AccountVault.Proofs.Opening
import AccountVault.Proofs.Desk.Basic
import AccountVault.Proofs.Desk.Simulation
import AccountVault.Proofs.Desk.Sound
import AccountVault.Proofs.Desk.Run
import AccountVault.Proofs.Desk.Commit
import AccountVault.Proofs.Desk.Life
import AccountVault.Proofs.Durability
import AccountVault.Proofs.Reporting
import AccountVault.Proofs.Stream
import AccountVault.Proofs.Stale
import AccountVault.Proofs.Deletion
import AccountVault.Proofs.Mark
import AccountVault.Proofs.CallingOff
import AccountVault.Proofs.Sessions
import AccountVault.Proofs.Record.Reached
import AccountVault.Proofs.Catalog.Declared
import AccountVault.Proofs.Scope.Ranking
import AccountVault.Proofs.System.Frames
import AccountVault.Proofs.Precedence
import AccountVault.Proofs.System.Closing
import AccountVault.Proofs.Restart
import AccountVault.Proofs.Account.InPlace
import AccountVault.Proofs.Commands
import AccountVault.Proofs.System.Agreement
import AccountVault.Proofs.System.Erasure
import AccountVault.Proofs.Failure
import AccountVault.Proofs.Storage.Names
import AccountVault.Proofs.Storage.Paths
import AccountVault.Proofs.Storage.Files
import AccountVault.Proofs.Storage.Refinement
import AccountVault.Proofs.Notice.Events
import AccountVault.Proofs.Delivery
import AccountVault.Proofs.Scope.Isolation
import AccountVault.Proofs.Scope.Merged
import AccountVault.Proofs.Listing
import AccountVault.Proofs.Scope.SignIn
import AccountVault.Proofs.Waiting
import AccountVault.Proofs.Storage.Interruption
import AccountVault.Proofs.Scope.Tags
import AccountVault.Proofs.Scope.Typed
import AccountVault.Proofs.Scope.Offering
import AccountVault.Proofs.System.Visits
import AccountVault.Proofs.System.Sweeping
import AccountVault.Proofs.Flushing
import AccountVault.Proofs.Admission
import AccountVault.Proofs.Numbering
import AccountVault.Proofs.Filtering
import AccountVault.Proofs.Storage.Spellings
import AccountVault.Proofs.Setting.Grammar
import AccountVault.Proofs.Account.Bookkeeping
import AccountVault.Proofs.Catalog.Places
import AccountVault.Proofs.Catalog.Defined
import AccountVault.Proofs.System.Filling
import AccountVault.Proofs.Setting.Making
import AccountVault.Proofs.Holdings
