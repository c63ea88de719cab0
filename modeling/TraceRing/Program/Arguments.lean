import TraceRing.Program.Usage
import TraceRing.Text.Similarity

/-!
# Arguments

The command line is read from left to right. A word after two dashes is a flag, letters after one
dash are a flag each, and everything else is the trace directory, which may be given once. After
`--` nothing is a flag any more. A call for help or for the version is answered at once, whatever
follows it; what precedes it has to be in order.
-/

namespace TraceRing.Program

/-- What a run of the program is asked to do. -/
structure Options where
  verbose : Bool
  directory : String
  deriving DecidableEq, Repr

/-- What a command line asks for. -/
inductive Request where
  | run (options : Options)
  | help
  | version
  | refused (e : UsageError)
  deriving DecidableEq, Repr

/-- What was read of a command line so far. -/
structure Reading where
  verbose : Bool
  /-- The trace directory, if it was given. -/
  directory : Option String
  /-- Whether the trace directory was given and not checked yet. -/
  pending : Bool
  deriving DecidableEq, Repr

namespace Reading

def start : Reading :=
  ⟨false, none, false⟩

def flags (r : Reading) : List Flag :=
  if r.verbose then [.verbose] else []

/-- Checks the trace directory. -/
def settle (r : Reading) : Except Request Reading :=
  if r.pending = true ∧ r.directory = some "" then .error (.refused .emptyDirectory)
  else .ok { r with pending := false }

/-- The reading after a flag, or the request it amounts to. -/
def take (r : Reading) (flag : Flag) : Except Request Reading :=
  match r.settle with
  | .error request => .error request
  | .ok r =>
    match flag with
    | .help => .error .help
    | .version => .error .version
    | .verbose =>
      if r.verbose then .error (.refused (.repeated .verbose)) else .ok { r with verbose := true }

/-! ## Words -/

/-- A flag is offered instead of a word only above this similarity. -/
def leastSimilarity : Float :=
  0.7

/-- The flag a word is most similar to, if it is similar enough; of two the later one. -/
def nearest? (word : String) : Option Flag :=
  let rated := Flag.all.map fun flag => (flag, Text.similarity word.toList flag.word.toList)
  let near := rated.filter fun entry => decide (leastSimilarity < entry.2)
  let best := near.foldl
    (fun best entry =>
      match best with
      | none => some entry
      | some leader => if leader.2 ≤ entry.2 then some entry else some leader)
    none
  best.map Prod.fst

def unknownWord (r : Reading) (word : String) : UsageError :=
  let given := r.directory.isSome
  match nearest? word with
  | some flag =>
    .unknown ("--" ++ word) (.similar flag) (.each (r.flags ++ [flag]).eraseDups given)
  | none => .unknown ("--" ++ word) .asValue (.each r.flags given)

def unexpectedValue (r : Reading) (flag : Flag) (value : String) : UsageError :=
  .unexpectedValue flag value (if r.verbose then .beside flag else .each [flag] false)

/-- Reads what follows two dashes: a word, and a value behind an equals sign. -/
def readWord (r : Reading) (text : List Char) : Except Request Reading :=
  let word := String.ofList (text.takeWhile (· != '='))
  match Flag.ofWord? word, text.dropWhile (· != '=') with
  | some flag, [] => r.take flag
  | some flag, _ :: value =>
    .error (.refused (r.unexpectedValue flag (String.ofList value)))
  | none, _ => .error (.refused (r.unknownWord word))

/-! ## Letters and directories -/

/-- Reads the letters behind one dash. -/
def readLetters : Reading → List Char → Except Request Reading
  | r, [] => .ok r
  | r, c :: rest =>
    match Flag.ofLetter? c with
    | none =>
      .error (.refused (.unknown (String.ofList ['-', c]) .asValue .none))
    | some flag =>
      match r.take flag with
      | .error request => .error request
      | .ok r => readLetters r rest

def readDirectory (r : Reading) (text : String) : Except Request Reading :=
  match r.directory with
  | some _ => .error (.refused (.unknown text .none .none))
  | none => .ok { r with directory := some text, pending := true }

/-! ## Whole command lines -/

/-- Reads arguments none of which is a flag. -/
def readPlain : Reading → List String → Except Request Reading
  | r, [] => .ok r
  | r, text :: rest =>
    match r.readDirectory text with
    | .error request => .error request
    | .ok r => readPlain r rest

def readAll : Reading → List String → Except Request Reading
  | r, [] => .ok r
  | r, text :: rest =>
    let one := match text.toList with
      | '-' :: '-' :: word => if word = [] then none else some (r.readWord word)
      | '-' :: c :: letters => some (r.readLetters (c :: letters))
      | _ => some (r.readDirectory text)
    match one with
    | none => readPlain r rest
    | some (.error request) => .error request
    | some (.ok r) => readAll r rest

def options (r : Reading) : Options :=
  ⟨r.verbose, r.directory.getD Config.traceDirectory⟩

end Reading

def request (arguments : List String) : Request :=
  match (Reading.start.readAll arguments).bind Reading.settle with
  | .error request => request
  | .ok r => .run r.options

end TraceRing.Program
