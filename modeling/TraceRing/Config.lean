import TraceRing.Ring.Image
import TraceRing.Grid
import TraceRing.Settings

/-!
# Configurations

The settings of a build as the transport uses them: its grid, the geometry of its rings, and where
producers and consumer meet.
-/

namespace TraceRing

structure Config where
  grid : Grid
  geometry : Geometry
  /-- The clock units a producer waits before it looks at a full ring again. -/
  timeout : Nat
  /-- The microseconds a consumer sleeps after an idle sweep. -/
  pollMicros : Nat
  regionName : String

namespace Config

/-- The configuration with some settings, if its rings are admitted. -/
def ofValues? (v : Settings.Values) : Option Config := do
  let rows ← v.number? "CORES_ROWS"
  let cols ← v.number? "CORES_COLS"
  let packetSize ← v.number? "PACKET_SIZE"
  let slots ← v.number? "RINGBUF_SIZE"
  let timeout ← v.number? "BACKEND_CHECK_TIMEOUT"
  let pollMicros ← v.number? "CONSUMER_POLL_DELAY_US"
  let geometry ← Geometry.ofSizes? slots packetSize
  if h : 0 < rows ∧ 0 < cols then
    return ⟨⟨rows, cols, h.1, h.2⟩, geometry, timeout, pollMicros, v.name⟩
  else none

def ofEnvironment? (env : Settings.Environment) : Option Config :=
  match (Settings.configure env).result with
  | .ok v => ofValues? v
  | .error _ => none

def regionDirectory : String := "/dev/shm"

/-- The trace directory, unless another is given. -/
def traceDirectory : String := "ctf"

def regionPath (c : Config) : String :=
  regionDirectory ++ "/" ++ c.regionName

def ringSize (c : Config) : Nat :=
  Ring.imageSize c.geometry

def regionSize (c : Config) : Nat :=
  Ring.regionSize c.geometry c.grid.count

end Config

end TraceRing
