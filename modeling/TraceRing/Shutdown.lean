import TraceRing.Log.Notice

/-!
# Shutdown signals

An interrupt and a termination signal ask the consumer to shut down. Once the handler is
installed, either sets a flag the consumer looks at; before that, a signal ends the process.
-/

namespace TraceRing

/-- The signals that ask for shutdown. -/
inductive Signal where
  | interrupt
  | terminate
  deriving DecidableEq, Repr

/-- The shutdown flag of a process. -/
structure ShutdownFlag where
  handled : Bool
  requested : Bool
  deriving DecidableEq, Repr

namespace ShutdownFlag

def new : ShutdownFlag :=
  ⟨false, false⟩

/-- Installs the handler; doing so again changes nothing. -/
def install (f : ShutdownFlag) : ShutdownFlag × Log.Notice :=
  ({ f with handled := true }, .handlerInstalled)

/-- Delivers a signal; none if the process ends. -/
def deliver (f : ShutdownFlag) (_signal : Signal) : Option ShutdownFlag :=
  if f.handled then some { f with requested := true } else none

/-- Takes the request back. -/
def clear (f : ShutdownFlag) : ShutdownFlag :=
  { f with requested := false }

end ShutdownFlag

end TraceRing
