import HopsFormal.Capture.NoStuckKey
import HopsFormal.Trust.Authority
import HopsFormal.Trust.CrashSafe
import HopsFormal.Trust.Store
import HopsFormal.Trust.Saver
import HopsFormal.Pairing.Board
import HopsFormal.Pairing.Machine
import HopsFormal.Pairing.Moves
import HopsFormal.Pairing.Kept
import HopsFormal.Pairing.OneNumber
import HopsFormal.Pairing.Confirmed
import HopsFormal.Pairing.MatchCode
import HopsFormal.Pairing.Choices
import HopsFormal.Pairing.Network
import HopsFormal.Pairing.Agreement
import HopsFormal.Pairing.Order
import HopsFormal.Pairing.Failing
import HopsFormal.Capture.NoLoss
import HopsFormal.Emulation.InputEmulation
import HopsFormal.Emulation.Injected
import HopsFormal.Emulation.LettingGo
import HopsFormal.Emulation.Shared
import HopsFormal.Emulation.PeerQueues
import HopsFormal.Emulation.Receiver
import HopsFormal.Emulation.Gate
import HopsFormal.Emulation.Listener
import HopsFormal.Emulation.Owners
import HopsFormal.Emulation.Closings
import HopsFormal.Links.Clients
import HopsFormal.Links.Lookups
import HopsFormal.Links.Outbound
import HopsFormal.Links.Touches
import HopsFormal.Links.Recorded
import HopsFormal.Links.Current
import HopsFormal.Links.Permitted
import HopsFormal.Trust.Spelling
import HopsFormal.Trust.Expiring
import HopsFormal.Trust.Announced
import HopsFormal.Lib.BigEndian
import HopsFormal.Wire.Codec
import HopsFormal.Wire.RoundTrip
import HopsFormal.Wire.Frames
import HopsFormal.Emulation.Driven
import HopsFormal.Edges.OnePerEdge
import HopsFormal.Removal.Machines
import HopsFormal.Removal.Notices
import HopsFormal.Removal.OnlyThatPairing
import HopsFormal.Config.Entries
import HopsFormal.Config.Merge
import HopsFormal.Config.ThreeWay
import HopsFormal.Lib.Places
import HopsFormal.Config.Saving
import HopsFormal.Trust.Migrating
import HopsFormal.Trust.Approving
import HopsFormal.Trust.OldCopy
import HopsFormal.Lib.LastSplit
import HopsFormal.Trust.Seal
import HopsFormal.Ipc.Admission
import HopsFormal.Ipc.Agreement
import HopsFormal.Ipc.Lines
import HopsFormal.Ipc.Matching
import HopsFormal.Ipc.Undisturbed
import HopsFormal.Links.Pins
import HopsFormal.Links.Repinned
import HopsFormal.Links.Reloads
import HopsFormal.Links.OneMachine
import HopsFormal.Config.Aligned
import HopsFormal.Config.Reading
import HopsFormal.Config.Seen
import HopsFormal.Config.Recognised
import HopsFormal.Removal.ByHand
import HopsFormal.Removal.Reappearing
import HopsFormal.Removal.StaysRemoved
import HopsFormal.Removal.NothingByALine
import HopsFormal.Lib.Recent
import HopsFormal.Prompts.SharedAddress
import HopsFormal.Prompts.RateLimits
import HopsFormal.Prompts.Withholding
import HopsFormal.Pairing.Binding
import HopsFormal.Emulation.Turns
import HopsFormal.Edges.ReloadPlan
import HopsFormal.Edges.Incoming
import HopsFormal.Capture.Coalescing
import HopsFormal.Capture.FanOut
import HopsFormal.Capture.LockKeys
import HopsFormal.Clipboard.Discreet
import HopsFormal.Clipboard.Inbox
import HopsFormal.Config.LetterCase
import HopsFormal.Discovery.Peers
import HopsFormal.Discovery.Reannounced
import HopsFormal.Discovery.Withdrawn
import HopsFormal.Emulation.HeldBack
import HopsFormal.Frontend.AppModel
import HopsFormal.Frontend.CardBinds
import HopsFormal.Frontend.ConnectedIn
import HopsFormal.Frontend.NeverReplayed
import HopsFormal.LayerShell.Grab
import HopsFormal.LayerShell.Outputs
import HopsFormal.LayerShell.Scroll
import HopsFormal.Lib.Flags
import HopsFormal.Emulation.Congested
import HopsFormal.Emulation.HeldModifiers
import HopsFormal.Emulation.KeyRepeat
import HopsFormal.Emulation.WholePixels
import HopsFormal.Macos.Calls
import HopsFormal.Macos.Delivered
import HopsFormal.Macos.ModifierStrokes
import HopsFormal.Macos.Watched
import HopsFormal.Windows.Corners
import HopsFormal.Windows.Procs
import HopsFormal.Macos.LocalHolds
import HopsFormal.Libei.Nearest
import HopsFormal.Canvas.Drops
import HopsFormal.Permissions.Warranted
import HopsFormal.Ipc.Minting
import HopsFormal.Files.CreatedWhole
import HopsFormal.EdgePressure.Learning
