import TraceRing.Log.Bounded
import TraceRing.Log.Logger
import TraceRing.Log.Notice
import TraceRing.Text.Blank
import TraceRing.Text.Quoted
import TraceRing.Ring.Image
import TraceRing.Clock.Bench
import TraceRing.Clock.Elapsed
import TraceRing.Producer
import TraceRing.Consumer
import TraceRing.Transport
import TraceRing.Files.Calls
import TraceRing.Region
import TraceRing.Streams
import TraceRing.Shutdown
import TraceRing.Config
import TraceRing.Program.Run
import TraceRing.Main
import TraceRing.Proofs.Grid.Places
import TraceRing.Proofs.Ring.Carries
import TraceRing.Proofs.Clock.Monotone
import TraceRing.Proofs.Clock.Preemption
import TraceRing.Proofs.Clock.Scripts
import TraceRing.Proofs.Producer.Headers
import TraceRing.Proofs.Ring.Exchange
import TraceRing.Proofs.Producer.Calls
import TraceRing.Proofs.Consumer.Courses
import TraceRing.Proofs.Ring.Image
import TraceRing.Proofs.Consumer.Tours
import TraceRing.Proofs.Transport.History
import TraceRing.Proofs.Transport.Queues
import TraceRing.Proofs.Transport.Ownership
import TraceRing.Proofs.Consumer.Visits
import TraceRing.Proofs.Transport.Isolation
import TraceRing.Proofs.Producer.Openings
import TraceRing.Proofs.Producer.Discipline
import TraceRing.Proofs.Transport.Tenures
import TraceRing.Proofs.Transport.Succession
import TraceRing.Proofs.Transport.Sessions
import TraceRing.Proofs.Producer.Backoff
import TraceRing.Proofs.Producer.Takeover
import TraceRing.Proofs.Files.Trees
import TraceRing.Proofs.Program.Regions
import TraceRing.Proofs.Program.Restart
import TraceRing.Proofs.Files.Walks
import TraceRing.Proofs.Region.Accesses
import TraceRing.Proofs.Region.Setups
import TraceRing.Proofs.Region.Generations
import TraceRing.Proofs.Program.Teardown
import TraceRing.Proofs.Clock.Strides
import TraceRing.Proofs.Clock.Snapshots
import TraceRing.Proofs.Consumer.Sweeps
import TraceRing.Proofs.Producer.Pace
import TraceRing.Proofs.Consumer.Pieces
import TraceRing.Proofs.Files.Whole
import TraceRing.Proofs.Region.Outcomes
import TraceRing.Proofs.Transport.Places
import TraceRing.Proofs.Clock.Stops
import TraceRing.Proofs.Clock.Counters
import TraceRing.Proofs.Clock.Widths
import TraceRing.Proofs.Log.Messages
import TraceRing.Proofs.Transport.Texts
import TraceRing.Proofs.Consumer.Drains
import TraceRing.Proofs.Producer.Attempts
import TraceRing.Proofs.Producer.Recordings
import TraceRing.Proofs.Consumer.Closings
import TraceRing.Proofs.Consumer.Readings
import TraceRing.Proofs.Transport.Silences
import TraceRing.Proofs.Transport.Reports
import TraceRing.Proofs.Settings.Numerals
import TraceRing.Proofs.Settings.Builds
import TraceRing.Proofs.Settings.Overrides
import TraceRing.Proofs.Files.Paths
import TraceRing.Proofs.Files.Arrivals
import TraceRing.Proofs.Files.Directories
import TraceRing.Proofs.Streams.Names
import TraceRing.Proofs.Streams.Creations
import TraceRing.Proofs.Streams.Setups
import TraceRing.Proofs.Log.Lines
import TraceRing.Proofs.Ring.Slots
import TraceRing.Proofs.Log.Writers
