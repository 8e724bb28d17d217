import UiCatalog.Log.Directive

/-!
# Log filters

A filter is a list of directives, separated by commas in its text. Of the directives that are about an event,
the closest decides whether it passes.
-/
namespace UiCatalog.Log

/-- Directives in the order in which they are given. -/
structure Filter where
  directives : List Directive := []
  deriving DecidableEq, Repr

namespace Filter

/-- The pieces of a filter text that are not empty. -/
def parts (text : String) : List (List Char) :=
  (Text.splitAt ',' text.toList).filter fun part => !part.isEmpty

/-- The filter of a text; what is no directive is left out. -/
def ofText (text : String) : Filter :=
  ⟨(parts text).filterMap fun part => ((Directive.parse part).toOption).join⟩

/-- The parts of a text that are no directives, each with its fault. -/
def faults (text : String) : List (String × DirectiveFault) :=
  (parts text).filterMap fun part =>
    match Directive.parse part with
    | .ok _ => none
    | .error fault => some (String.ofList part, fault)

def add (f : Filter) (d : Directive) : Filter := ⟨f.directives ++ [d]⟩

/-- The directive that decides about an event: of those that are equally close, the last. -/
def deciding? (f : Filter) (e : Event) : Option Directive :=
  (f.directives.filter (·.isAbout e)).foldl (fun best d =>
    if best.all fun b => b.yieldsTo d then some d else best) none

def passes (f : Filter) (e : Event) : Bool := (f.deciding? e).any fun d => e.passes d.threshold?

end Filter

end UiCatalog.Log
