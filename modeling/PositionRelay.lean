import PositionRelay.Main
import PositionRelay.Proofs.Network.Run
import PositionRelay.Proofs.Registry.Fate
import PositionRelay.Proofs.Network.Step
import PositionRelay.Proofs.Network.Evolution
import PositionRelay.Proofs.Network.Membership
import PositionRelay.Proofs.Registry.Refresh
import PositionRelay.Proofs.Network.Convergence
import PositionRelay.Proofs.Network.Stream
import PositionRelay.Proofs.Network.Inbound
import PositionRelay.Proofs.Wire.Grammar
import PositionRelay.Proofs.Wire.RoundTrip
import PositionRelay.Proofs.Wire.Delivery
import PositionRelay.Proofs.Network.Outbound
import PositionRelay.Proofs.Network.Teardown
import PositionRelay.Proofs.Network.Shutdown
import PositionRelay.Proofs.Session.Patience
import PositionRelay.Proofs.Registry.Movement
import PositionRelay.Proofs.Network.Isolation
import PositionRelay.Proofs.Network.Entry
import PositionRelay.Proofs.Network.Deadlines
import PositionRelay.Proofs.Registry.Stages
import PositionRelay.Proofs.Session.Handshake
import PositionRelay.Proofs.Network.Feed
import PositionRelay.Proofs.Session.Reports
import PositionRelay.Proofs.Network.Agreement
import PositionRelay.Proofs.Registry.Cascade
import PositionRelay.Proofs.Registry.Room
import PositionRelay.Proofs.Registry.PlainSet
import PositionRelay.Proofs.Network.Occupancy
import PositionRelay.Proofs.Registry.Removal
import PositionRelay.Proofs.Wire.Delimiting
import PositionRelay.Proofs.Wire.Alignment
import PositionRelay.Proofs.Network.Issuing
import PositionRelay.Proofs.Cell.History
import PositionRelay.Proofs.Session.Position
