/-!
# Text for a terminal

A report is a list of lines, a line a list of spans, and a span may have a style. Styles are written
as escape codes around the text, or not at all.
-/
namespace FormCheck

/-- How a span stands out. -/
inductive Style where
  | bold
  | dimmed
  | red
  | green
  | yellow
  | cyan
  | boldRed
  | boldGreen
deriving DecidableEq

namespace Style

/-- The parameters of a style's escape code. -/
def codes : Style → String
  | bold => "1"
  | dimmed => "2"
  | red => "31"
  | green => "32"
  | yellow => "33"
  | cyan => "36"
  | boldRed => "1;31"
  | boldGreen => "1;32"

/-- The escape code that ends every style. -/
def reset : List Char := ['\x1b', '[', '0', 'm']

/-- The escape code that begins a style. -/
def start (style : Style) : List Char := '\x1b' :: '[' :: style.codes.toList ++ ['m']

/-- A text in a style. Where the text itself ends all styles, the style begins again. -/
def resume (style : Style) : List Char → List Char
  | '\x1b' :: '[' :: '0' :: 'm' :: rest => reset ++ style.start ++ resume style rest
  | c :: rest => c :: resume style rest
  | [] => []

/-- A text between the escape codes of a style. -/
def paint (style : Style) (text : String) : String :=
  String.ofList (style.start ++ style.resume text.toList ++ reset)

end Style

/-- A piece of a line. -/
structure Span where
  text : String
  style : Option Style := none
deriving DecidableEq

namespace Span

/-- A span without a style. -/
def plain (text : String) : Span := ⟨text, none⟩

/-- A span as it is written with colours or without. -/
def render (color : Bool) (span : Span) : String :=
  match span.style with
  | some style => if color then style.paint span.text else span.text
  | none => span.text

@[simp] theorem text_plain (text : String) : (plain text).text = text := rfl

@[simp] theorem render_plain (color : Bool) (text : String) :
    (plain text).render color = text := rfl

@[simp] theorem render_false (span : Span) : span.render false = span.text := by
  unfold render
  cases span.style <;> rfl

end Span

/-- A text with a style. -/
def Style.span (style : Style) (text : String) : Span := ⟨text, some style⟩

@[simp] theorem Style.text_span (style : Style) (text : String) :
    (style.span text).text = text := rfl

/-- The spans of a line. -/
abbrev Line := List Span

namespace Line

/-- A line as it is written. -/
def render (color : Bool) (line : Line) : String := String.join (line.map (Span.render color))

/-- Lines as they are written, each with its line end. -/
def renderAll (color : Bool) (lines : List Line) : String :=
  String.join (lines.map fun line => render color line ++ "\n")

end Line

/-- Whether colours are wanted. An environment setting counts as on unless it is zero. Forcing
colours wins over refusing them; otherwise they need a terminal and must not be switched off. -/
def wantsColor (force refuse allow : Option String) (terminal : Bool) : Bool :=
  if force.any (· ≠ "0") then true
  else if refuse.isSome then false
  else allow.all (· ≠ "0") && terminal

end FormCheck
