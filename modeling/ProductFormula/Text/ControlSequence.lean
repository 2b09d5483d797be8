/-
  Texts without the control sequences of a terminal.

  A message may be emphasised for a terminal, and a text that it quotes may hold
  control sequences of its own.  Where there is no terminal only what can be
  read is kept: characters from the space on, without U+007F, and of the control
  characters tabs, line feeds, form feeds and carriage returns (`isSpacing`).

  A sequence starts with U+001B and ends as its kind says (`Sequence.next`);
  U+0018 and U+001A cancel it.  Before its end a spacing character is kept all
  the same and interrupts it: the text behind is kept too, up to the next
  control character, where the sequence goes on (`Position.text`).

  * `emphasised` is a text as it is written for a terminal;
  * `withoutSequences` is what is kept of a text.
-/

namespace ProductFormula.Text

/-! ## Characters -/

/-- Control characters that move on in a text. -/
def isSpacing (c : Char) : Bool := c == '\t' || c == '\n' || c == '\x0c' || c == '\r'

def isControl (c : Char) : Bool := c.toNat < 0x20 || c == '\x7f'

/-- From one code point to another. -/
def isWithin (first last : Nat) (c : Char) : Bool := first ≤ c.toNat && c.toNat ≤ last

/-- A character with the byte of the string terminator in its UTF-8. -/
def hasTerminator (c : Char) : Bool := (String.utf8EncodeChar c).contains 0x9c

/-! ## Sequences -/

/-- How far a sequence has come. -/
inductive Sequence where
  /-- behind U+001B -/
  | escape
  /-- an escape of more than one character -/
  | intermediate
  /-- behind `[`, up to a letter -/
  | control
  /-- behind `]`, up to U+0007 -/
  | systemCommand
  /-- behind `P`, up to its parameters, if it has any, or its string -/
  | deviceControl
  /-- in the parameters of a device control; a private marker after the first of
      them makes the rest a string -/
  | deviceParameters
  /-- between the parameters of a device control and its string -/
  | deviceIntermediate
  /-- a string up to its terminator, to whatever it belongs -/
  | string
deriving DecidableEq

namespace Sequence

/-- What the character behind U+001B starts, if it does not end the sequence. -/
def opened? (c : Char) : Option Sequence :=
  if c = '[' then some control
  else if c = ']' then some systemCommand
  else if c = 'P' then some deviceControl
  else if c = 'X' ∨ c = '^' ∨ c = '_' then some string
  else if isWithin 0x20 0x2f c then some intermediate
  else if isWithin 0x30 0x7e c then none
  else some escape

/-- The sequence with one character more; none if that ends it. -/
def next (c : Char) : Sequence → Option Sequence
  | escape => opened? c
  | intermediate => if isWithin 0x30 0x7e c then none else some intermediate
  | control => if isWithin 0x40 0x7e c then none else some control
  | systemCommand => if c = '\x07' then none else some systemCommand
  | deviceControl =>
    if isWithin 0x20 0x2f c then some deviceIntermediate
    else if isWithin 0x30 0x3f c then some deviceParameters
    else if isWithin 0x40 0x7e c then some string
    else some deviceControl
  | deviceParameters =>
    if isWithin 0x20 0x2f c then some deviceIntermediate
    else if isWithin 0x3c 0x7e c then some string
    else some deviceParameters
  | deviceIntermediate => if isWithin 0x30 0x7e c then some string else some deviceIntermediate
  | string => if hasTerminator c then none else some string

/-- Whether spacing characters are kept; in a string they are part of it. -/
def keepsSpacing : Sequence → Bool
  | escape | intermediate | control => true
  | systemCommand | deviceControl | deviceParameters | deviceIntermediate | string => false

end Sequence

/-! ## Reading -/

/-- Where a reader of a text is. -/
inductive Position where
  /-- In the text, with the sequence that is interrupted, if one is. -/
  | text (interrupted : Option Sequence)
  | inside (s : Sequence)
deriving DecidableEq

namespace Position

/-- In the text if there is no sequence. -/
def ofSequence : Option Sequence → Position
  | some s => inside s
  | none => text none

/-- The position behind a character that can be read; only one beyond ASCII
    makes an interrupted sequence forgotten. -/
def afterReadable (c : Char) (interrupted : Option Sequence) : Position :=
  if c.toNat < 0x80 then text interrupted else text none

/-- The position behind a character, and whether the character is kept. -/
def step (c : Char) (position : Position) : Position × Bool :=
  if c = '\x1b' then (inside .escape, false)
  else if c = '\x18' ∨ c = '\x1a' then (text none, false)
  else
    match position with
    | text interrupted =>
      if isControl c && !isSpacing c then (ofSequence interrupted, false)
      else (afterReadable c interrupted, true)
    | inside s =>
      if isSpacing c && s.keepsSpacing then (text (some s), true)
      else (ofSequence (s.next c), false)

/-- The characters that are kept of a text that starts at a position. -/
def kept (position : Position) : List Char → List Char
  | [] => []
  | c :: cs =>
    let (behind, isKept) := position.step c
    if isKept then c :: kept behind cs else kept behind cs

end Position

/-- The text as it is read where there is no terminal. -/
def withoutSequences (s : String) : String := .ofList (Position.kept (.text none) s.toList)

/-- The text with emphasis on a terminal. -/
def emphasised (s : String) : String := "\x1b[1m" ++ s ++ "\x1b[0m"

end ProductFormula.Text
