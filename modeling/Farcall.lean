import Farcall.Channel.Script
import Farcall.Client.Script
import Farcall.Proofs.Channel.Agreement
import Farcall.Proofs.Channel.Confinement
import Farcall.Proofs.Channel.Lifetime
import Farcall.Proofs.Correlation.Fates
import Farcall.Proofs.Correlation.Leaks
import Farcall.Proofs.Correlation.Representation
import Farcall.Proofs.Wire.Streaming
import Farcall.Proofs.Frame.Delimiting
import Farcall.Proofs.Correlation.Reuse
import Farcall.Proofs.Correlation.Slots
import Farcall.Proofs.Correlation.Staleness
import Farcall.Proofs.Client.Sites
import Farcall.Proofs.Client.Course
import Farcall.Proofs.Client.Places
import Farcall.Proofs.Client.Elsewhere
import Farcall.Proofs.Client.Order
import Farcall.Proofs.Client.Invariant
import Farcall.Proofs.Client.Residue
import Farcall.Proofs.Client.Provenance
import Farcall.Proofs.Client.Steps
import Farcall.Proofs.Client.Alike
import Farcall.Proofs.Client.Settling
import Farcall.Proofs.Client.Loss
import Farcall.Proofs.Client.Transparency
import Farcall.Proofs.Client.Completion
import Farcall.Proofs.Correlation.Registration
import Farcall.Proofs.Frame.Canonical
import Farcall.Proofs.Client.Resolution
import Farcall.Proofs.Correlation.ReuseDistance
import Farcall.Proofs.Value.Codec
import Farcall.Proofs.Correlation.Claims
import Farcall.Proofs.Client.Interceptors
import Farcall.Proofs.Frame.Contents
import Farcall.Proofs.Value.Identity
import Farcall.Proofs.Client.Announced
import Farcall.Proofs.Client.Votes
import Farcall.Proofs.Wire.Packed
import Farcall.Proofs.Correlation.Counters
import Farcall.Proofs.Correlation.Severance
