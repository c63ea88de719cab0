import TraceRing.Log.Line

/-!
# Loggers

A logger writes the lines of the records its filter keeps. A process has one place for a logger:
the first to be installed stays there, and every later attempt is refused and changes nothing.
-/

namespace TraceRing.Log

structure Logger where
  filter : Filter
  deriving DecidableEq

namespace Logger

def isEnabled (l : Logger) (level : Level) : Bool :=
  l.filter.keeps level

def write (l : Logger) (line : Line) : String :=
  if l.isEnabled line.level then line.render else ""

end Logger

/-- The logging of a process: whether its place is taken, and the most that is let through. -/
structure Facade where
  taken : Bool
  limit : Filter
  deriving DecidableEq

namespace Facade

/-- Why a logger was refused. -/
def refusal : String :=
  "attempted to set a logger after the logging system was already initialized"

/-- Installs a logger with a filter, unless another one is in place. -/
def install (f : Facade) (filter : Filter) : Except String Facade :=
  if f.taken then .error refusal else .ok ⟨true, filter⟩

end Facade

end TraceRing.Log
