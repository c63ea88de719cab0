import TraceRing.Text.Blank
import TraceRing.Text.Lossy
import TraceRing.Text.Quoted

/-!
# Build settings

The sizes of a transport are fixed when it is built, because the layout of the region follows from
them. Each has a default and an environment variable that overrides it. The value of a variable
is a decimal number; blanks around it and underscores in it do not count. A value that is no text
counts as unset.

`configure` reads the variables in the order of the parameters and stops at the first that does
not denote an admitted value. What it tells the build tool on the way is part of its answer.
-/

namespace TraceRing.Settings

/-! ## Parameters -/

structure Parameter where
  /-- The name of its constant; its variable is named after it. -/
  constant : String
  type : String
  default : Nat
  minimum : Nat
  powerOfTwo : Bool
  deriving DecidableEq, Repr

/-- The variable that overrides a constant. -/
def variableOf (constant : String) : String :=
  "CTF_" ++ constant

def parameters : List Parameter :=
  [⟨"CORES_ROWS", "usize", 4, 1, false⟩,
   ⟨"CORES_COLS", "usize", 4, 1, false⟩,
   ⟨"PACKET_SIZE", "usize", 256, 4, true⟩,
   ⟨"RINGBUF_SIZE", "usize", 4, 2, true⟩,
   ⟨"BACKEND_CHECK_TIMEOUT", "u64", 10000000, 0, false⟩,
   ⟨"CONSUMER_POLL_DELAY_US", "u64", 5000, 0, false⟩]

def nameConstant : String := "SMEM_NAME"

def defaultName : String := "ctf-tracing"

/-! ## Values -/

/-- Why a build is refused. -/
inductive Refusal where
  | notANumber (key raw : String)
  | belowMinimum (key : String) (value minimum : Nat)
  | notAPowerOfTwo (key : String) (value : Nat)
  | badRegionName (key raw : String)
  deriving DecidableEq, Repr

def Refusal.message : Refusal → String
  | notANumber key raw => key ++ ": '" ++ raw ++ "' is not an unsigned integer"
  | belowMinimum key value minimum =>
    key ++ ": " ++ toString value ++ " is below the minimum of " ++ toString minimum
  | notAPowerOfTwo key value =>
    key ++ ": " ++ toString value ++ " must be a power of two"
  | badRegionName key raw => key ++ ": '" ++ raw ++ "' is not a valid region name"

def digitsValue (digits : List Char) : Nat :=
  digits.foldl (fun n d => 10 * n + (d.toNat - '0'.toNat)) 0

/-- Reads a number of 64 bits: digits, with a plus sign before them or none. -/
def readDigits (cs : List Char) : Option Nat :=
  let digits := match cs with
    | '+' :: rest => rest
    | _ => cs
  if digits ≠ [] ∧ digits.all Char.isDigit = true ∧ digitsValue digits < 2 ^ 64 then
    some (digitsValue digits)
  else none

def readNumber (raw : String) : Option Nat :=
  readDigits ((Text.trim raw.toList).filter fun c => c ≠ '_')

def isPowerOfTwo (n : Nat) : Bool :=
  n == 2 ^ n.log2

/-- The value of a parameter; without a text it is the default. -/
def Parameter.value (p : Parameter) (raw : Option String) : Except Refusal Nat :=
  let checked (n : Nat) : Except Refusal Nat :=
    if n < p.minimum then .error (.belowMinimum (variableOf p.constant) n p.minimum)
    else if p.powerOfTwo ∧ isPowerOfTwo n = false then
      .error (.notAPowerOfTwo (variableOf p.constant) n)
    else .ok n
  match raw with
  | none => checked p.default
  | some raw =>
    match readNumber raw with
    | none => .error (.notANumber (variableOf p.constant) raw)
    | some n => checked n

/-- The name of the region; without a text it is the default. -/
def regionName (raw : Option String) : Except Refusal String :=
  let name := raw.getD defaultName
  if name = "" ∨ name.contains '/' then .error (.badRegionName (variableOf nameConstant) name)
  else .ok name

/-! ## A build -/

/-- The settings of a build: the value of every parameter, in order, and the name of the
region. -/
structure Values where
  numbers : List (Parameter × Nat)
  name : String
  deriving DecidableEq

/-- The variables that are set, with their values as bytes. -/
abbrev Environment := List (String × Bytes)

/-- The text of bytes that are UTF-8. -/
def textOf? (bytes : Bytes) : Option String :=
  String.fromUTF8? ⟨bytes.toArray⟩

/-- The text a variable is set to, if it is set and holds text. -/
def lookup (env : Environment) (key : String) : Option String :=
  (env.lookup key).bind textOf?

/-- How a build ended: the lines for the build tool, and the settings. -/
structure Build where
  directives : List String
  result : Except Refusal Values

def version : String := "ctf-shm-transport v0.1.0-gunknown"

/-- The lines every build starts with. -/
def openingDirectives : List String :=
  ["cargo:rerun-if-changed=build.rs",
   "cargo:rustc-env=GIT_HASH=unknown",
   "cargo:rustc-env=VERSION_STRING=" ++ version]

/-- The line that makes a build depend on a variable. -/
def dependsOn (constant : String) : String :=
  "cargo:rerun-if-env-changed=" ++ variableOf constant

/-- The line every successful build ends with. -/
def closingDirective : String := "cargo:rerun-if-changed=.git/HEAD"

/-- Reads parameters in order, up to the first that is refused. -/
def readParameters (env : Environment) :
    List Parameter → List String × Except Refusal (List (Parameter × Nat))
  | [] => ([], .ok [])
  | p :: rest =>
    match p.value (lookup env (variableOf p.constant)) with
    | .error r => ([dependsOn p.constant], .error r)
    | .ok n =>
      let later := readParameters env rest
      (dependsOn p.constant :: later.1, later.2.map ((p, n) :: ·))

def configure (env : Environment) : Build :=
  let read := readParameters env parameters
  match read.2 with
  | .error r => ⟨openingDirectives ++ read.1, .error r⟩
  | .ok numbers =>
    let directives := openingDirectives ++ read.1 ++ [dependsOn nameConstant]
    match regionName (lookup env (variableOf nameConstant)) with
    | .error r => ⟨directives, .error r⟩
    | .ok name => ⟨directives ++ [closingDirective], .ok ⟨numbers, name⟩⟩

/-! ## The generated text -/

def remark (words constant : String) : String :=
  "/// " ++ words ++ " (override with `" ++ variableOf constant ++ "`).\n"

def renderNumber (entry : Parameter × Nat) : String :=
  remark "Build-time parameter" entry.1.constant ++ "pub const " ++ entry.1.constant ++ ": "
    ++ entry.1.type ++ " = " ++ toString entry.2 ++ ";\n\n"

def Values.render (v : Values) : String :=
  "// @generated by build.rs. Do not edit.\n\n" ++ String.join (v.numbers.map renderNumber)
    ++ remark "Shared-memory region name" nameConstant ++ "pub const " ++ nameConstant
    ++ ": &str = " ++ Text.quoted v.name ++ ";\n"

def Values.number? (v : Values) (constant : String) : Option Nat :=
  (v.numbers.find? fun entry => entry.1.constant == constant).map Prod.snd

end TraceRing.Settings
