/-!
# Log levels

The severity of a log record, and how much of the records a logger keeps.
-/

namespace TraceRing.Log

/-- The severity of a record, gravest first. -/
inductive Level where
  | error
  | warn
  | info
  | debug
  | trace
  deriving DecidableEq, Repr

namespace Level

/-- The place of a level, the gravest being 1. -/
def rank : Level → Nat
  | error => 1
  | warn => 2
  | info => 3
  | debug => 4
  | trace => 5

def name : Level → String
  | error => "ERROR"
  | warn => "WARN"
  | info => "INFO"
  | debug => "DEBUG"
  | trace => "TRACE"

def all : List Level :=
  [error, warn, info, debug, trace]

def ofName? (name : String) : Option Level :=
  all.find? fun level => level.name == name

end Level

/-- How much is kept: nothing, or everything at least as grave as a level. -/
inductive Filter where
  | off
  | upTo (level : Level)
  deriving DecidableEq, Repr

namespace Filter

/-- Whether records of a level are kept. -/
def keeps : Filter → Level → Bool
  | off, _ => false
  | upTo limit, level => level.rank ≤ limit.rank

def name : Filter → String
  | off => "OFF"
  | upTo level => level.name

def ofName? (name : String) : Option Filter :=
  if name = "OFF" then some .off else (Level.ofName? name).map .upTo

end Filter

end TraceRing.Log
