import TraceRing.Log.Level
import TraceRing.Text.Decimal

/-!
# Log lines

A record of the host is one line: its time in microseconds, right-aligned in ten columns between
brackets, its level and its message. `Line.parse` reads such a line back, whatever the message
holds and however wide the time is.
-/

namespace TraceRing.Log

structure Line where
  /-- Microseconds since the program started. -/
  timestamp : Nat
  level : Level
  message : String
  deriving DecidableEq

namespace Line

/-- The line, its newline included. -/
def render (line : Line) : String :=
  "[" ++ Text.padLeft 10 ' ' (toString line.timestamp) ++ "] " ++ line.level.name ++ ": "
    ++ line.message ++ "\n"

/-- A text after the line was appended to it. -/
def appendTo (out : String) (line : Line) : String :=
  out ++ line.render

/-! ## Reading a line back -/

def readNumber (digits : List Char) : Nat :=
  digits.foldl (fun n d => 10 * n + (d.toNat - '0'.toNat)) 0

/-- The level a text starts with, and what follows its colon and blank. -/
def readLevel (cs : List Char) : Option (Level × List Char) :=
  Level.all.findSome? fun level =>
    let opening := (level.name ++ ": ").toList
    if opening.isPrefixOf cs then some (level, cs.drop opening.length) else none

/-- Reads a line: a bracket, blanks, digits, a bracket and a blank, a level, and the message up to
the last newline. -/
def parse (text : String) : Option Line :=
  match text.toList with
  | '[' :: rest =>
    let digits := (rest.dropWhile (· == ' ')).takeWhile Char.isDigit
    match (rest.dropWhile (· == ' ')).dropWhile Char.isDigit with
    | ']' :: ' ' :: after =>
      match readLevel after with
      | some (level, message) =>
        if message.getLast? = some '\n' then
          some ⟨readNumber digits, level, String.ofList message.dropLast⟩
        else none
      | none => none
    | _ => none
  | _ => none

end Line

end TraceRing.Log
