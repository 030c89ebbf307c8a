import GraphScript.Source.Span

namespace GraphScript

/-!
# Named source texts

A source file is kept beside the program read from it, so that a diagnostic
can quote the line it speaks of.
-/

/-- The first line of a text and the lines after it. A line feed belongs to no line. -/
def splitLines :
    List Char →
    List Char × List (List Char)
  | [] =>
      ([], [])
  | character :: rest =>
      let (line, later) := splitLines rest
      if character = '\n' then
        ([], line :: later)
      else
        (character :: line, later)

/-- A line without the carriage returns at its end. -/
def trimReturns
    (line : List Char) :
    List Char :=
  (line.reverse.dropWhile (· = '\r')).reverse

/-- A source text and the name it is reported under. -/
structure SourceFile where
  name : String
  contents : String
  deriving DecidableEq, Repr

namespace SourceFile

/-- All lines of the text. A text has one line more than line feeds. -/
def lines
    (file : SourceFile) :
    List (List Char) :=
  let (first, later) := splitLines file.contents.toList
  first :: later

/-- The line with the given number, counted from one and without its end. -/
def line?
    (file : SourceFile)
    (number : Nat) :
    Option String :=
  match number with
  | 0 =>
      none
  | index + 1 =>
      file.lines[index]?.map (String.ofList ∘ trimReturns)

/-- The number of lines. -/
def lineCount
    (file : SourceFile) :
    Nat :=
  file.lines.length

end SourceFile

end GraphScript
