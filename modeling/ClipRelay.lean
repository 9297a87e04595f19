import ClipRelay.Device.LinkRun
import ClipRelay.Device.ManifestFolder
import ClipRelay.Device.RelaySync
import ClipRelay.Device.SignIn
import ClipRelay.Device.StoreSync
import ClipRelay.Device.SyncRun
import ClipRelay.Http.Router
import ClipRelay.Relay.Settings
import ClipRelay.Relay.Socket
import ClipRelay.Proofs.Binary.Exact
import ClipRelay.Proofs.Binary.Messages
import ClipRelay.Proofs.Binary.Prefixes
import ClipRelay.Proofs.Clip.Names
import ClipRelay.Relay.Run
import ClipRelay.Proofs.Relay.Sound
import ClipRelay.Proofs.Relay.Members
import ClipRelay.Proofs.Relay.Effects
import ClipRelay.Proofs.Relay.Locality
import ClipRelay.Proofs.Relay.Isolation
import ClipRelay.Proofs.Relay.Clash
import ClipRelay.Proofs.Relay.Admission
import ClipRelay.Proofs.Relay.Binding
import ClipRelay.Proofs.Relay.ItemTexts
import ClipRelay.Proofs.Relay.Rules
import ClipRelay.Proofs.Relay.Log
import ClipRelay.Proofs.Relay.Convergence
import ClipRelay.Proofs.Relay.FanOut
import ClipRelay.Proofs.Relay.Retrieval
import ClipRelay.Proofs.Relay.Deliveries
import ClipRelay.Proofs.Account.Tokens
import ClipRelay.Proofs.Account.Lifetimes
import ClipRelay.Proofs.Relay.Anonymous
import ClipRelay.Proofs.Relay.FirstSecret
import ClipRelay.Proofs.Relay.Postings
import ClipRelay.Proofs.Relay.WellFormed
import ClipRelay.Proofs.Relay.LatestText
import ClipRelay.Proofs.Http.Downloads
import ClipRelay.Proofs.Relay.PublishedFiles
import ClipRelay.Proofs.Relay.Summaries
import ClipRelay.Proofs.Relay.ClaimedHashes
import ClipRelay.Proofs.Relay.Completions
import ClipRelay.Proofs.Device.LinkCalls
import ClipRelay.Proofs.Device.Reconnects
import ClipRelay.Proofs.Device.ManifestLists
import ClipRelay.Proofs.Device.SharedManifest
import ClipRelay.Proofs.Device.LinkStates
import ClipRelay.Proofs.Device.TextSync
import ClipRelay.Proofs.Device.PointerSync
import ClipRelay.Proofs.Device.GuardTraces
import ClipRelay.Proofs.Device.FailedPublishes
import ClipRelay.Proofs.Device.SameDecisions
import ClipRelay.Proofs.Device.ManifestRooms
import ClipRelay.Proofs.Device.ManifestItems
import ClipRelay.Proofs.Account.Identity
