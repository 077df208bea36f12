import RecordQuery.Text.Mark
import RecordQuery.Text.Space

set_option autoImplicit false

/-!
# Lines of an environment file

The bytes of an environment file are read up to one line feed after the other, and what has been read
so far is acted on before the rest is looked at: bytes that are no text are no obstacle to the lines
before them.

A line ends at the first line feed outside quotes, so that a quoted value may run over several lines
of the text.  Outside quotes a number sign after white space begins a comment, which is dropped; a
line that begins with a number sign is dropped as a whole.  A line is whole only where nothing is
open behind its last character: inside quotes, behind a backslash or behind a blank that could still
begin a comment no line ends.
-/

namespace RecordQuery.EnvFile

open Text (isSpace)

/-- What the characters read so far say about the next one. -/
inductive Quoting where
  /-- outside quotes -/
  | plain
  /-- outside quotes, behind white space that could begin a comment -/
  | space
  /-- outside quotes, behind a backslash -/
  | escape
  /-- between apostrophes -/
  | strong
  /-- between apostrophes, behind a backslash -/
  | strongEscape
  /-- between quotes -/
  | weak
  /-- between quotes, behind a backslash -/
  | weakEscape
  deriving DecidableEq, Repr

/-- The quoting behind a character that stands outside quotes. -/
def Quoting.outside (c : Char) : Quoting :=
  if c = '\x5c' then escape
  else if c = '\x22' then weak
  else if c = '\x27' then strong
  else plain

/-- The quoting behind a character.  Of several blanks in a row every other one could begin a
comment. -/
def Quoting.next : Quoting → Char → Quoting
  | plain, c => if isSpace c && c != '\n' && c != '\r' then space else outside c
  | space, c => outside c
  | escape, _ => plain
  | strong, c => if c = '\x5c' then strongEscape else if c = '\x27' then plain else strong
  | strongEscape, _ => strong
  | weak, c => if c = '\x5c' then weakEscape else if c = '\x22' then plain else weak
  | weakEscape, _ => weak

/-- The characters up to a comment, and the quoting behind them; `none` where a comment began. -/
def uncomment : Quoting → List Char → List Char × Option Quoting
  | quoting, [] => ([], some quoting)
  | quoting, c :: rest =>
    if quoting = .space ∧ c = '#' then ([], none)
    else
      let (text, last) := uncomment (quoting.next c) rest
      (c :: text, last)

/-- Pieces with items put before the first of them. -/
def prepend {α : Type} (front : List α) : List (List α) → List (List α)
  | [] => [front]
  | piece :: pieces => (front ++ piece) :: pieces

/-- A list cut behind each of its items that end a piece. -/
def cutBehind {α : Type} (ends : α → Bool) : List α → List (List α)
  | [] => []
  | a :: rest =>
    if ends a then [a] :: cutBehind ends rest else prepend [a] (cutBehind ends rest)

/-- The text that bytes stand for. -/
def decode? (bytes : List UInt8) : Option (List Char) :=
  (String.fromUTF8? bytes.toByteArray).map String.toList

/-- A text in pieces without the byte order mark that it may begin with. -/
def withoutMark : List (Option (List Char)) → List (Option (List Char))
  | some piece :: pieces => some (Text.withoutMark piece) :: pieces
  | pieces => pieces

/-- The texts between the line feeds of a file, `none` for one that is no text. -/
def pieces (content : ByteArray) : List (Option (List Char)) :=
  withoutMark ((cutBehind (· == 0x0A) content.data.toList).map decode?)

/-- A line without its line end. -/
def chomp (line : List Char) : List Char :=
  match line.reverse with
  | '\n' :: '\r' :: rest => rest.reverse
  | '\n' :: rest => rest.reverse
  | _ => line

/-- The lines of a text in pieces, given what has been read of an unfinished line.  A piece that is
no text, or a line that stays unfinished, is the last line and none that can be read. -/
def joinPieces : Option (List Char × Quoting) → List (Option (List Char)) →
    List (Option (List Char))
  | none, [] => []
  | some _, [] => [none]
  | _, none :: _ => [none]
  | unfinished, some piece :: rest =>
    let (read, quoting) := unfinished.getD ([], .plain)
    if ((read ++ piece).dropWhile isSpace).head? = some '#' then joinPieces none rest
    else
      match uncomment quoting piece with
      | (text, none) => some (read ++ text) :: joinPieces none rest
      | (text, some .plain) => some (chomp (read ++ text)) :: joinPieces none rest
      | (text, some quoting) => joinPieces (some (read ++ text, quoting)) rest

/-- The lines of an environment file, `none` for one that cannot be read. -/
def lines (content : ByteArray) : List (Option (List Char)) := joinPieces none (pieces content)

end RecordQuery.EnvFile
