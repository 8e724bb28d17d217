import UiCatalog.Text.Printable
import UiCatalog.Text.Blank
import UiCatalog.Text.Case

/-!
# Log events

An event has a level, a topic, a message and fields. It is written on one line, level first and without its
topic, unless a value holds line feeds.
-/
namespace UiCatalog

namespace Log

inductive Level where
  | error
  | warn
  | info
  | debug
  | trace
  deriving DecidableEq, Repr

namespace Level

/-- The number of more severe levels. -/
def rank : Level → Nat
  | error => 0
  | warn => 1
  | info => 2
  | debug => 3
  | trace => 4

def name : Level → String
  | error => "ERROR"
  | warn => "WARN"
  | info => "INFO"
  | debug => "DEBUG"
  | trace => "TRACE"

/-- The level of a name in any case. -/
def ofName? (name : String) : Option Level :=
  [error, warn, info, debug, trace].find? fun level =>
    Text.lower level.name.toList == Text.lower name.toList

end Level

/-- The value of a field. -/
inductive Value where
  /-- A text that is shown as it is. -/
  | bare (s : String)
  /-- A text that is shown in quotes. -/
  | quoted (s : String)
  | number (n : Int)
  deriving DecidableEq, Repr

def Value.text : Value → String
  | bare s => s
  | quoted s => Text.quoted s
  | number n => toString n

/-- The part of the program that an event comes from. -/
inductive Topic where
  | program
  | gathering
  | registry
  | messages
  | sessions
  | routes
  deriving DecidableEq, Repr

def Topic.name : Topic → String
  | program => "ui_docs_mcp"
  | gathering => "ui_docs_mcp::docs::pipeline"
  | registry => "ui_docs_mcp::docs::registry"
  | messages => "ui_docs_mcp::mcp::handler"
  | sessions => "ui_docs_mcp::mcp::transport"
  | routes => "ui_docs_mcp::mcp::http"

/-- Something that happened. -/
structure Event where
  level : Level
  topic : Topic := .program
  message : String
  fields : List (String × Value) := []
  deriving DecidableEq, Repr

namespace Event

/-- The event has a field of that name; the message is one of its fields. -/
def hasField (e : Event) (name : String) : Bool := name == "message" || e.fields.any (·.1 == name)

/-- The event as text: level, message and fields. -/
def text (e : Event) : String :=
  e.level.name ++ " " ++ e.message ++
    String.join (e.fields.map fun (name, value) => " " ++ name ++ "=" ++ value.text)

/-- The lines of an event, which a line feed ends, without the blanks before them. -/
def lines (e : Event) : List String :=
  (Text.lines (e.text.toList ++ ['\n'])).map fun line => String.ofList (Text.trimStart line)

/-- The event is at least as severe as the threshold, which lets nothing through when it is absent. -/
def passes (threshold : Option Level) (e : Event) : Bool :=
  threshold.any fun level => e.level.rank ≤ level.rank

end Event

def lines (threshold : Option Level) (events : List Event) : List String :=
  (events.filter (·.passes threshold)).flatMap Event.lines

end Log

end UiCatalog
