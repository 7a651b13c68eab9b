import StyledTiles.Metrics.Registry

/-!
# Reports of metrics

A registry is reported as text, family by family: a line of help, a line with the kind, and a line for
each sample with its labels in order. Help escapes backslashes and line ends; label values escape
quotation marks besides.

Names are made of ASCII letters, digits and underscores, those of metrics of colons too, and do not start
with a digit. Any other name is written with an underscore for each character that does not fit. A name
followed by one line end counts as a name and is written as it is.
-/
namespace StyledTiles

namespace Exposition

def escapeHelp (s : String) : String :=
  String.ofList (s.toList.flatMap fun c =>
    if c = '\\' then ['\\', '\\'] else if c = '\n' then ['\\', 'n'] else [c])

def escapeValue (s : String) : String :=
  String.ofList (s.toList.flatMap fun c =>
    if c = '\\' ∨ c = '"' then ['\\', c] else if c = '\n' then ['\\', 'n'] else [c])

/-- Whether a character fits at its place in a name, which is the first or a later one. -/
def fits (colons first : Bool) (c : Char) : Bool :=
  c.isAlpha || c = '_' || (colons && c = ':') || (!first && c.isDigit)

def areFit (colons : Bool) : List Char → Bool
  | [] => false
  | c :: cs => fits colons true c && cs.all (fits colons false)

/-- The characters without one line end at their end. -/
def dropLineEnd (cs : List Char) : List Char := if cs.getLast? = some '\n' then cs.dropLast else cs

/-- A name as it is written. -/
def escapeName (colons : Bool) (name : String) : String :=
  let fitting (first : Bool) (c : Char) := if fits colons first c then c else '_'
  match name.toList with
  | [] => name
  | c :: cs =>
    if areFit colons (dropLineEnd (c :: cs)) then name
    else String.ofList (fitting true c :: cs.map (fitting false))

def metricName (name : String) : String := escapeName true name

def labelName (name : String) : String := escapeName false name

/-- Labels in order of their own names, in braces; nothing for no labels. -/
def labelsText (labels : Labels) : String :=
  match labels with
  | [] => ""
  | _ =>
    let sorted := labels.mergeSort fun a b => decide (a.1 ≤ b.1)
    "\x7b" ++ ",".intercalate (sorted.map fun (name, value) =>
      labelName name ++ "=\"" ++ escapeValue value ++ "\"") ++ "\x7d"

def sampleLine (s : Sample Binary64) : String :=
  metricName s.name ++ labelsText s.labels ++ " " ++ amountText s.value

/-- The name of a family in its head lines. -/
def headName (family : Family Binary64) : String :=
  metricName (match family.kind with
    | .counter => family.stem ++ "_total"
    | .histogram => family.stem)

def familyLines (family : Family Binary64) : List String :=
  let name := headName family
  ["# HELP " ++ name ++ " " ++ escapeHelp family.help, "# TYPE " ++ name ++ " " ++ family.kind.name]
    ++ family.samples.map sampleLine

def lines (r : Registry Binary64) : List String :=
  r.families.flatMap familyLines

/-- A report, in which each line ends with a line end. -/
def text (r : Registry Binary64) : String := String.join ((lines r).map (· ++ "\n"))

/-- The client that reports in this form. -/
def client : MetricsClient (Registry Binary64) Binary64 MetricError := Registry.client text

end Exposition

end StyledTiles
