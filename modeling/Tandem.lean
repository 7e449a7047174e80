import Tandem.Main
import Tandem.Monitor.Core
import Tandem.Monitor.Mailbox
import Tandem.Monitor.Session
import Tandem.Proofs.Machine.Quiet
import Tandem.Proofs.Machine.Account
import Tandem.Proofs.Machine.Lockstep
import Tandem.Proofs.Mailbox.Exchange
import Tandem.Proofs.Mailbox.Waiting
import Tandem.Proofs.Mailbox.Delivery
import Tandem.Proofs.Archive.Container
import Tandem.Proofs.Archive.Field
import Tandem.Proofs.Archive.Payload
import Tandem.Proofs.Storage.Replace
import Tandem.Proofs.Archive.File
import Tandem.Proofs.Archive.Attempts
import Tandem.Proofs.Sound.FrameRing
import Tandem.Proofs.Machine.Parts
import Tandem.Proofs.Machine.Snapshot
import Tandem.Proofs.Demo.Snapshot
import Tandem.Proofs.Machine.Save
import Tandem.Proofs.Machine.Load
import Tandem.Proofs.Machine.SingleStep
import Tandem.Proofs.Course
import Tandem.Proofs.Machine.Words
import Tandem.Proofs.Session.Status
import Tandem.Proofs.Machine.Interlude
import Tandem.Proofs.Machine.Anatomy
import Tandem.Proofs.Machine.Recent
import Tandem.Proofs.Machine.Reliable
import Tandem.Proofs.Machine.Vblank
import Tandem.Proofs.Machine.Cadence
import Tandem.Proofs.Machine.Tenure
import Tandem.Proofs.Session.Turned
import Tandem.Proofs.Session.Teardown
import Tandem.Proofs.Session.Ledger
import Tandem.Proofs.Session.Service
import Tandem.Proofs.Session.Handles
import Tandem.Proofs.Capture.Recording
import Tandem.Proofs.Machine.Apart
import Tandem.Proofs.Capture.Recorders
import Tandem.Proofs.Capture.Footage
import Tandem.Proofs.Demo.Blanking
import Tandem.Proofs.Demo.Counters
import Tandem.Proofs.Machine.Clocks
import Tandem.Proofs.Session.Patience
import Tandem.Proofs.Session.Standstill
import Tandem.Proofs.Session.Freeze
import Tandem.Proofs.Machine.Budgets
import Tandem.Proofs.Machine.SingleTick
import Tandem.Proofs.Machine.Passes
import Tandem.Proofs.Machine.Resemblance
import Tandem.Proofs.Machine.Alike
import Tandem.Proofs.Machine.AlikeInterlude
import Tandem.Proofs.Machine.Publication
import Tandem.Proofs.Machine.WordCourse
import Tandem.Proofs.Machine.AsNew
import Tandem.Proofs.Clock.Pacing
import Tandem.Proofs.Sound.Batches
import Tandem.Proofs.Machine.Workload
import Tandem.Proofs.Demo.Slumber
import Tandem.Proofs.Archive.Reading
import Tandem.Proofs.Mailbox.Nesting
import Tandem.Proofs.Mailbox.Barrier
import Tandem.Proofs.Mailbox.Processing
import Tandem.Proofs.Mailbox.PlainCalls
import Tandem.Proofs.Mailbox.Breakpoint
import Tandem.Proofs.Sound.Resampling
import Tandem.Proofs.Sound.SquareWave
import Tandem.Proofs.Sound.Playback
import Tandem.Proofs.Sound.Channels
import Tandem.Proofs.Demo.Memories
import Tandem.Proofs.Storage.Write
import Tandem.Proofs.Capture.DumpFile
import Tandem.Proofs.Machine.Wiring
import Tandem.Proofs.Machine.BudgetLoops
