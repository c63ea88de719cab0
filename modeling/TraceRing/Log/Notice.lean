import TraceRing.Failure
import TraceRing.Log.Level
import TraceRing.Text.Duration

/-!
# Notices

Everything the transport tells its operator, as causes. The wording and the level of each notice
are decided here and nowhere else.
-/

namespace TraceRing.Log

/-- Something worth telling the operator. -/
inductive Notice where
  | tracingStarted (core : Core)
  | tracingStopped (core : Core) (published dropped : UInt32)
  /-- A packet is about to be moved to its stream. -/
  | packetFound (core : Core) (producerIndex consumerIndex : UInt32) (slot : Nat)
  /-- A core left a new diagnostic text. -/
  | coreText (core : Core) (text : Bytes)
  /-- A consumer starts its work. -/
  | consuming (cores pollNanos : Nat)
  /-- A consumer stops its work. -/
  | shutdownRequested (consumed : Nat)
  | flushFailed (core : Core) (source : IoError)
  | creatingStream (path : Bytes)
  /-- A region file was created and is about to be sized. -/
  | allocatingRegion (bytes : Nat) (path : Bytes)
  /-- A region file exists already. -/
  | attachingRegion (path : Bytes)
  | releasingRegion (path : Bytes)
  | removalFailed (path : Bytes) (source : IoError)
  | handlerInstalled
  | version (text : String)
  | streamsWritten (packets : Nat) (directory : Bytes)
  | releaseFailed (path : Bytes) (source : IoError)
  | failed (report : String)
  deriving DecidableEq

namespace Notice

open TransportFailure (showPath)

def level : Notice → Level
  | tracingStarted .. | tracingStopped .. | creatingStream .. | allocatingRegion ..
  | attachingRegion .. | releasingRegion .. | handlerInstalled => .debug
  | packetFound .. | coreText .. | consuming .. | shutdownRequested .. | version ..
  | streamsWritten .. => .info
  | removalFailed .. | releaseFailed .. => .warn
  | flushFailed .. | failed .. => .error

def message : Notice → String
  | tracingStarted core => "core " ++ core.display ++ ": tracing initialized"
  | tracingStopped core published dropped =>
    "core " ++ core.display ++ ": tracing stopped (" ++ toString published.toNat
      ++ " published, " ++ toString dropped.toNat ++ " dropped)"
  | packetFound core producerIndex consumerIndex slot =>
    "core " ++ core.display ++ ": producer index " ++ toString producerIndex.toNat
      ++ ", consumer index " ++ toString consumerIndex.toNat ++ ", slot " ++ toString slot
  | coreText core text => "core " ++ core.display ++ ": " ++ Text.lossy text
  | consuming cores pollNanos =>
    "consuming " ++ toString cores ++ " cores, poll delay " ++ Text.duration pollNanos
  | shutdownRequested consumed =>
    "shutdown requested, " ++ toString consumed ++ " packets consumed"
  | flushFailed core source =>
    "core " ++ core.display ++ ": flushing stream failed: " ++ source.text
  | creatingStream path => "creating stream file " ++ showPath path
  | allocatingRegion bytes path =>
    "allocating " ++ toString bytes ++ " bytes of shared memory in " ++ showPath path
  | attachingRegion path =>
    "allocation failed; attaching to shared memory region " ++ showPath path
  | releasingRegion path => "releasing shared memory region " ++ showPath path
  | removalFailed path source => "cannot remove " ++ showPath path ++ ": " ++ source.text
  | handlerInstalled => "shutdown handler installed for SIGINT and SIGTERM"
  | version text => text
  | streamsWritten packets directory =>
    toString packets ++ " packets written to " ++ showPath directory
  | releaseFailed path source =>
    "cannot release shared memory region " ++ showPath path ++ ": " ++ source.text
  | failed report => report

def render (n : Notice) : String :=
  n.level.name ++ ": " ++ n.message

end Notice

end TraceRing.Log
