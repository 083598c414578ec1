import EmuScheduler.Cheats.Editor
import EmuScheduler.Config.File
import EmuScheduler.Engine.Scripted
import EmuScheduler.Engine.TestPattern
import EmuScheduler.Events
import EmuScheduler.Frame.Lock
import EmuScheduler.Frame.Rate
import EmuScheduler.Gate
import EmuScheduler.Mailbox
import EmuScheduler.Main
import EmuScheduler.WorkingTree
import EmuScheduler.Proofs.Effects
import EmuScheduler.Proofs.Loop
import EmuScheduler.Proofs.Run
import EmuScheduler.Proofs.EngineProtocol
import EmuScheduler.Proofs.LatestModes
import EmuScheduler.Proofs.LoadEvents
import EmuScheduler.Proofs.Interleaving
import EmuScheduler.Proofs.Replay
import EmuScheduler.Proofs.Wakeup
import EmuScheduler.Proofs.FrameAccounting
import EmuScheduler.Proofs.Sound
import EmuScheduler.Proofs.Pausing
import EmuScheduler.Proofs.FailedStart
import EmuScheduler.Proofs.ForeignCheats
import EmuScheduler.Proofs.Listing
import EmuScheduler.Proofs.Persisting
import EmuScheduler.Proofs.LateChanges
import EmuScheduler.Proofs.Lifecycle
import EmuScheduler.Proofs.Coalescing
import EmuScheduler.Proofs.LoadOutcome
import EmuScheduler.Proofs.Saving
import EmuScheduler.Proofs.PurgeOrder
import EmuScheduler.Proofs.Staging
import EmuScheduler.Proofs.Parking
import EmuScheduler.Proofs.EditSequences
import EmuScheduler.Proofs.StalePause
import EmuScheduler.Proofs.FirstRun
import EmuScheduler.Proofs.EarlyPauses
import EmuScheduler.Proofs.CreatedTrees
import EmuScheduler.Proofs.PartialConfigs
import EmuScheduler.Proofs.SessionEnds
import EmuScheduler.Proofs.RateWindows
import EmuScheduler.Proofs.Scrolling
