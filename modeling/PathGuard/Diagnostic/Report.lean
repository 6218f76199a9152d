import PathGuard.Rule.Violation
import PathGuard.Text.Lines
import Std.Data.TreeMap.Basic
/-!
# Reports

Diagnostics as text for people: the place, how grave it is, the message, the line of the source with
the span marked below it, and advice for violations of the rule. Colors are sequences for a
terminal.
-/

namespace PathGuard

inductive Ink where
  | red | boldRed | boldYellow | boldBlue | boldCyan | boldGreen | brightBlue
  deriving DecidableEq, Repr

namespace Ink

def parameters : Ink → String
  | red => "31"
  | boldRed => "1;31"
  | boldYellow => "1;33"
  | boldBlue => "1;34"
  | boldCyan => "1;36"
  | boldGreen => "1;32"
  | brightBlue => "94"

def ofSeverity : Severity → Ink
  | .error => boldRed
  | .warning => boldYellow
  | .suggestion => boldBlue
  | .message => boldCyan

end Ink

/-- The lines of a text without their ends, which are a line feed or a carriage return with a line
feed behind it. An end of the text right behind a line's end makes no line. -/
def textLines : List Char → List (List Char)
  | [] => []
  | '\n' :: rest => [] :: textLines rest
  | '\r' :: '\n' :: rest => [] :: textLines rest
  | c :: rest =>
    match textLines rest with
    | [] => [[c]]
    | line :: more => (c :: line) :: more

structure Reporter where
  color : Bool
  sources : Std.TreeMap String LineMap

namespace Reporter

def ofColor (color : Bool) : Reporter := ⟨color, ∅⟩

def addSource (r : Reporter) (file source : String) : Reporter :=
  { r with sources := r.sources.insert file (.ofText source.toList) }

def paint (r : Reporter) (ink : Ink) (text : String) : String :=
  if r.color then "\x1b[" ++ ink.parameters ++ "m" ++ text ++ "\x1b[0m" else text

def location? (r : Reporter) (file : String) (offset : Nat) : Option String :=
  r.sources[file]?.map fun lines =>
    let place := lines.position offset
    file ++ ":" ++ (place.line + 1).repr ++ ":" ++ (place.character + 1).repr

def placeText (r : Reporter) (d : Diagnostic) : String :=
  match r.location? d.file d.start with
  | some location => location
  | none => if d.file.isEmpty then "<unknown>" else d.file

def codePart (r : Reporter) (code : Nat) : String :=
  if code = 0 then "" else " " ++ r.paint .brightBlue (Diagnostic.codeText code)

def lineNumber (n : Nat) : String :=
  String.ofList (List.replicate (3 - n.repr.length) ' ') ++ n.repr

/-- What stands below the characters before a span, so that the marks stand below the span. -/
def indentUnder (text : List Char) : List Char := text.map fun c => if c = '\t' then '\t' else ' '

def lastOffset : Nat := offsetCount - 1

/-- The columns of the line `lineLength` characters long in which the span begins: the first, and how
many are marked. What lies behind the line is cut off, but at least one column is marked. -/
def markedColumns (start stop : Position) (lineLength : Nat) : Nat × Nat :=
  let first := min start.character lineLength
  let last := if stop.line = start.line then min stop.character lineLength else lineLength
  (first, max (last - first) 1)

def snippet (r : Reporter) (d : Diagnostic) (label : Option String) : String :=
  match r.sources[d.file]? with
  | none => ""
  | some lines =>
    if d.length = 0 then ""
    else
      let start := lines.position d.start
      let stop := lines.position (min (d.start + d.length) lastOffset)
      let text := lines.lineText start.line
      let (first, width) := markedColumns start stop text.length
      let labelPart :=
        match label with
        | some label => " " ++ r.paint .red label
        | none => ""
      "\n  " ++ lineNumber (start.line + 1) ++ "   " ++ String.ofList text ++ "\n        "
        ++ String.ofList (indentUnder (text.take first))
        ++ r.paint .red (String.ofList (List.replicate width '~')) ++ labelPart

def helpLines (r : Reporter) : List (List Char) → String
  | [] => ""
  | line :: more =>
    "\n  = " ++ r.paint .boldGreen "help" ++ ": " ++ String.ofList line
      ++ String.join (more.map fun line => "\n          " ++ String.ofList line)

def advice (r : Reporter) (kind : ViolationKind) (path : String) : String :=
  "\n  = " ++ r.paint .boldCyan "note" ++ ": " ++ kind.note
    ++ r.helpLines (textLines (kind.help path).toList)

def relatedLine (r : Reporter) (place : RelatedPlace) : String :=
  "\n  Related: " ++ (r.location? place.file place.start).getD place.file ++ " - " ++ place.message

def format (r : Reporter) (d : Diagnostic) : String :=
  let kind := ViolationKind.ofCode? d.code
  let advicePart :=
    match kind with
    | some kind => r.advice kind (d.arguments.headD "")
    | none => ""
  r.placeText d ++ " - " ++ r.paint (.ofSeverity d.severity) d.severity.label ++ r.codePart d.code
    ++ ": " ++ d.message ++ r.snippet d (kind.map ViolationKind.label) ++ advicePart
    ++ String.join (d.related.map r.relatedLine)

def render (r : Reporter) (ds : List Diagnostic) : String := "\n".intercalate (ds.map r.format)

end Reporter

def formatDiagnostic (d : Diagnostic) (source : String) : String :=
  ((Reporter.ofColor false).addSource d.file source).format d

end PathGuard
