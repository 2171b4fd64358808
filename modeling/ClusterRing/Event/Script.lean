import ClusterRing.Event.Document
import ClusterRing.Text.Blank
import ClusterRing.Text.Separated

/-!
# Event scripts

A script holds one event on each line. Blank lines and lines that begin with a
number sign are comments. The first line that is neither a comment nor an event
makes the script unreadable, and its number says where.
-/

namespace ClusterRing.Script

/-- Whether a line is blank or a comment. -/
def isComment (line : List Char) : Bool :=
  match Text.trim line with
  | [] => true
  | char :: _ => char = '#'

/-- The events on lines of which the first has a number; the number of an unreadable line if there is one. -/
def readLines (number : Nat) : List (List Char) → Except Nat (List Event)
  | [] => .ok []
  | line :: rest =>
    if isComment line then
      readLines (number + 1) rest
    else
      match Event.parse? line with
      | none => .error number
      | some event => (readLines (number + 1) rest).map (event :: ·)

/-- The events of a script, or the number of its first unreadable line, counted from one. -/
def parse (script : String) : Except Nat (List Event) :=
  readLines 1 (Text.lines script.toList)

end ClusterRing.Script
