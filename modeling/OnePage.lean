import OnePage.Command.Gate
import OnePage.Command.Smoke
import OnePage.Interface
import OnePage.Main
import OnePage.Proofs.Command.Ending
import OnePage.Proofs.Json.RoundTrip
import OnePage.Proofs.Page.Modes
import OnePage.Proofs.Site.Again
import OnePage.Proofs.Site.Failing
import OnePage.Proofs.Site.Loading
import OnePage.Proofs.Site.Unordered
import OnePage.Proofs.Storage.AllOrNothing
import OnePage.Proofs.Storage.CopyOverlap
import OnePage.Proofs.Storage.Cycles
import OnePage.Proofs.Storage.Descent
import OnePage.Proofs.Template.Address
import OnePage.Proofs.Template.Lookup
import OnePage.Proofs.Template.Seam
import OnePage.Proofs.Watch.Differences
import OnePage.Proofs.Watch.Fresh
import OnePage.Proofs.Watch.Replay
import OnePage.Proofs.Watch.Survive
