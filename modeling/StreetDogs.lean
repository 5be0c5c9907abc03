import StreetDogs.Main
import StreetDogs.Clock.Timeline
import StreetDogs.Proofs.Binary.Nearest
import StreetDogs.Proofs.Binary.Canonical
import StreetDogs.Proofs.Binary.Rounding
import StreetDogs.Proofs.Binary.Arithmetic
import StreetDogs.Proofs.Binary64.Arithmetic
import StreetDogs.Proofs.Binary64.Order
import StreetDogs.Proofs.Binary64.Conversion
import StreetDogs.Proofs.Motion.Box
import StreetDogs.Proofs.Motion.Reach
import StreetDogs.Proofs.Motion.Candidate
import StreetDogs.Proofs.Motion.Contacts
import StreetDogs.Proofs.Motion.Segment
import StreetDogs.Proofs.Motion.Follow
import StreetDogs.Proofs.Motion.Travel
import StreetDogs.Proofs.Motion.Advance
import StreetDogs.Proofs.Binary64.Bits
import StreetDogs.Proofs.Random.Uniform
import StreetDogs.Proofs.Motion.Spawn
import StreetDogs.Proofs.Registry.Directory
import StreetDogs.Proofs.Registry.Run
import StreetDogs.Proofs.Registry.Steps
import StreetDogs.Proofs.Registry.Consistency
import StreetDogs.Proofs.Registry.Admission
import StreetDogs.Proofs.Registry.Dogs
import StreetDogs.Proofs.Registry.Integrity
import StreetDogs.Proofs.Registry.Placement
import StreetDogs.Proofs.Registry.History
import StreetDogs.Proofs.Registry.InPlace
import StreetDogs.Proofs.Registry.Players
import StreetDogs.Proofs.Registry.Rejoin
import StreetDogs.Proofs.Registry.Isolation
import StreetDogs.Proofs.Registry.StepOrder
import StreetDogs.Proofs.Server.Requests
import StreetDogs.Proofs.Server.Contract
import StreetDogs.Proofs.Server.Accounting
import StreetDogs.Proofs.Server.Traffic
import StreetDogs.Proofs.Decimal.Digits
import StreetDogs.Proofs.Json.Lexeme
import StreetDogs.Proofs.Json.Document
import StreetDogs.Proofs.Json.Number
import StreetDogs.Proofs.Json.Decoder
import StreetDogs.Proofs.Json.Value
import StreetDogs.Proofs.Atlas.RoundTrip
import StreetDogs.Proofs.Api.RoundTrip
import StreetDogs.Motion.InPlace
import StreetDogs.Proofs.Motion.Clamp
import StreetDogs.Proofs.Motion.Crossing
import StreetDogs.Proofs.Motion.Corner
import StreetDogs.Proofs.Server.Timekeeping
import StreetDogs.Proofs.Motion.Search
import StreetDogs.Proofs.Motion.Walk
import StreetDogs.Proofs.Motion.Scan
import StreetDogs.Proofs.Motion.Legs
import StreetDogs.Proofs.Motion.Symmetry
import StreetDogs.Proofs.Motion.Equivariance
import StreetDogs.Proofs.Registry.Steering
import StreetDogs.Proofs.Token.Grammar
import StreetDogs.Proofs.Server.Credentials
import StreetDogs.Proofs.Atlas.Description
import StreetDogs.Proofs.Atlas.Faults
import StreetDogs.Proofs.Api.MemberOrder
import StreetDogs.Proofs.Motion.Junctions
import StreetDogs.Proofs.Motion.Visits
import StreetDogs.Proofs.Motion.Classification
import StreetDogs.Proofs.Binary32.Product
import StreetDogs.Proofs.Metrics.TickTimes
import StreetDogs.Proofs.Registry.Drawing
