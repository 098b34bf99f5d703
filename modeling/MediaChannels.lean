import MediaChannels.Config.Writer
import MediaChannels.Main
import MediaChannels.Proofs.Client
import MediaChannels.Proofs.Command.Signals
import MediaChannels.Proofs.Config.Creation
import MediaChannels.Proofs.Config.Overlay
import MediaChannels.Proofs.Control.Grammar
import MediaChannels.Proofs.EventLanes.Waiting
import MediaChannels.Proofs.Forward.Activity
import MediaChannels.Proofs.Mail.Sharing
import MediaChannels.Proofs.Memory.Tiling
import MediaChannels.Proofs.PacketRing.ArbitraryMemory
import MediaChannels.Proofs.PacketRing.Stream
import MediaChannels.Proofs.Recovery
import MediaChannels.Proofs.Segment.Admission
import MediaChannels.Proofs.Segment.AnyMemory
import MediaChannels.Proofs.Segment.AttachErrors
import MediaChannels.Proofs.Segment.Blocks
import MediaChannels.Proofs.Segment.Refusals
import MediaChannels.Proofs.Segment.Traffic
import MediaChannels.Proofs.Session.Pattern
import MediaChannels.Proofs.Session.Reach
import MediaChannels.Proofs.Session.Runs
import MediaChannels.Proofs.Session.States
import MediaChannels.Proofs.SharedMemory.FailedCreation
import MediaChannels.Proofs.SharedMemory.Owners
import MediaChannels.Thread
import MediaChannels.Watchdog
import MediaChannels.Workbench.Running
