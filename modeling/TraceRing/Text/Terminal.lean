import TraceRing.Bytes

/-!
# Terminals

What a terminal shows of a text. Characters stand for themselves, except that an escape starts a
sequence that steers the terminal and is not shown, and that a control other than a blank is not
shown either. Every kind of sequence ends at characters of its own; a cancel ends all of them, and
another escape starts anew.
-/

namespace TraceRing.Text

/-- What a terminal makes of the next character. -/
inductive Place where
  | text
  /-- It is the first one behind an escape. -/
  | escape
  /-- It is a later one behind an escape. -/
  | escapeRest
  /-- It belongs to a command, which a letter ends. -/
  | command
  | device
  /-- It may be a parameter of a device string. -/
  | deviceParameter
  /-- It stands between the parameters of a device string and its body. -/
  | deviceIntermediate
  /-- It belongs to the body of a device string. -/
  | deviceBody
  /-- It belongs to a remark, which has no effect. -/
  | remark
  /-- It belongs to a title, which a bell ends. -/
  | title
  deriving DecidableEq, Repr

namespace Place

/-! ## Characters -/

/-- Whether a character is a blank other than the space. -/
def isBlankControl (c : Char) : Bool :=
  c == '\t' || c == '\n' || c == '\x0c' || c == '\r'

/-- Whether a character is one that text consists of. -/
def isGraphic (c : Char) : Bool :=
  0x20 ≤ c.toNat && c.toNat != 0x7F

/-- Whether a character has the byte in it that ends a string. -/
def hasTerminator (c : Char) : Bool :=
  (Bytes.ofText (String.singleton c)).contains 0x9C

def within (low high : Nat) (c : Char) : Bool :=
  low ≤ c.toNat && c.toNat ≤ high

def shows : Place → Char → Bool
  | text, c => isGraphic c || isBlankControl c
  | escape, c | escapeRest, c | command, c => isBlankControl c
  | _, _ => false

/-! ## Sequences -/

/-- Where the character behind an escape leads. -/
def ofEscape (c : Char) : Place :=
  if within 0x20 0x2F c then escapeRest
  else if c = '[' then command
  else if c = ']' then title
  else if c = 'P' then device
  else if c = 'X' ∨ c = '^' ∨ c = '_' then remark
  else if within 0x30 0x7E c then text
  else escape

/-- Where a character leads from a place. -/
def next (p : Place) (c : Char) : Place :=
  if c = '\x1b' then escape
  else if c = '\x18' ∨ c = '\x1a' then text
  else
    match p with
    | text => text
    | escape => ofEscape c
    | escapeRest => if within 0x30 0x7E c then text else escapeRest
    | command => if within 0x40 0x7E c then text else command
    | device =>
      if within 0x20 0x2F c then deviceIntermediate
      else if within 0x30 0x3F c then deviceParameter
      else if within 0x40 0x7E c then deviceBody
      else device
    | deviceParameter =>
      if within 0x20 0x2F c then deviceIntermediate
      else if within 0x3C 0x7E c then deviceBody
      else deviceParameter
    | deviceIntermediate => if within 0x30 0x7E c then deviceBody else deviceIntermediate
    | deviceBody => if hasTerminator c then text else deviceBody
    | remark => if hasTerminator c then text else remark
    | title => if c = '\x07' then text else title

end Place

/-! ## Texts -/

/-- What is shown of the characters from a place on. Once one of them is shown, those that follow
are shown as text, and only behind the last of them the sequence goes on that the first one stood
in; a character outside ASCII ends that sequence. -/
def plainFrom (shownBefore : Bool) (p : Place) : List Char → List Char
  | [] => []
  | c :: rest =>
    if (if shownBefore then .text else p : Place).shows c then
      c :: plainFrom true (if c.toNat < 0x80 then p else .text) rest
    else plainFrom false (p.next c) rest

/-- What is shown of a text. -/
def plain (text : String) : String :=
  String.ofList (plainFrom false .text text.toList)

end TraceRing.Text
