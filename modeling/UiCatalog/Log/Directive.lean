import UiCatalog.Log
import UiCatalog.Log.ValuePattern
import UiCatalog.Text.Numeral
import UiCatalog.Text.Utf8

/-!
# Log directives

A directive such as `catalog[{path}]=info` tells how severe events have to be. It is about the events whose
topic starts with the given text and that have the given field; both can be left out, and so can the level.

The parts of a directive are found in its text without the blanks around it, and are then cut out of the text
as it is written, at the places where they were found. Blanks before a directive thus shift its parts.
-/
namespace UiCatalog.Log

open Text

/-- How severe the events have to be that a directive is about; without a threshold none of them passes. -/
structure Directive where
  /-- The start of the names of the topics. -/
  topic? : Option String := none
  /-- The name of a field. -/
  field? : Option String := none
  threshold? : Option Level
  deriving DecidableEq, Repr

/-- Why a text is no directive. -/
inductive DirectiveFault where
  | malformed
  | noLevel
  /-- The value asked for is no regular expression. -/
  | noPattern
  /-- The value asked for depends on the edges of words. -/
  | wordEdge
  deriving DecidableEq, Repr

def DirectiveFault.message : DirectiveFault → String
  | malformed => "invalid filter directive"
  | noLevel => "error parsing level filter: expected one of \"off\", \"error\", \"warn\", " ++
      "\"info\", \"debug\", \"trace\", or a number 0-5"
  | noPattern => "invalid field filter: error building NFA"
  | wordEdge => "invalid field filter: unsupported regex feature for DFAs: cannot build DFAs for " ++
      "regexes with Unicode word boundaries; switch to ASCII word boundaries, or heuristically " ++
      "enable Unicode word boundaries or use a different regex engine"

/-- The thresholds from the tightest on, the first of which lets nothing through. -/
def thresholds : List (String × Option Level) :=
  [("off", none), ("error", some .error), ("warn", some .warn), ("info", some .info),
    ("debug", some .debug), ("trace", some .trace)]

/-- The number that decimal digits stand for, which may have a plus sign. -/
def ordinal? (word : List Char) : Option Nat :=
  let digits := if word.head? = some '+' then word.drop 1 else word
  if areDigits digits then some (digits.foldl (fun n c => n * 10 + (c.toNat - '0'.toNat)) 0) else none

/-- The threshold that a number or a name stands for. -/
def thresholdOf? (word : List Char) : Option (Option Level) :=
  match ordinal? word with
  | some n => thresholds[n]?.map Prod.snd
  | none => (thresholds.find? fun (name, _) => asciiLower word = name.toList).map Prod.snd

namespace Directive

def part (text : List Char) (start stop : Nat) : Except DirectiveFault (List Char) :=
  (slice? start stop text).elim (.error .malformed) .ok

/-- The threshold behind an equals sign; where nothing follows, everything passes. -/
def readThreshold (word : List Char) : Except DirectiveFault (Option Level) :=
  if word.isEmpty then .ok (some .trace) else (thresholdOf? word).elim (.error .noLevel) .ok

/-- The threshold that follows from a place on: `rest` is what was found there. -/
def thresholdAt (text : List Char) (place : Nat) (rest : List Char) :
    Except DirectiveFault (Option Level) :=
  match rest with
  | [] => .ok (some .trace)
  | '=' :: _ => do readThreshold (← part text (place + 1) (byteSize text))
  | _ => .error .malformed

/-- The value that is asked for can be compared with others. -/
def checkValue (value : List Char) : Except DirectiveFault Unit :=
  if isNumeric value then .ok ()
  else if !ValuePattern.isWellFormed value then .error .noPattern
  else if ValuePattern.asksWordEdge value then .error .wordEdge
  else .ok ()

/-- The field that is asked for between braces; none if it has to have a value, which no event is asked. -/
def readField (text : List Char) : Except DirectiveFault (Option String) := do
  if text.isEmpty then throw .malformed
  let name := text.takeWhile (· != '=')
  match text.drop name.length with
  | [] => return some (String.ofList name)
  | _ :: value =>
    checkValue (value.takeWhile (· != '='))
    return none

/-- Reads a condition in brackets, which begins at the given place, and the threshold behind it. A condition
on more than a field is one that no event meets: such a directive is read and dropped. -/
def ofCondition (text : List Char) (topic? : Option String) (start : Nat) (rest : List Char) :
    Except DirectiveFault (Option Directive) :=
  let scope := rest.takeWhile fun c => c != ']' && c != '{'
  let place := start + byteSize scope + 1
  match rest.drop scope.length with
  | ']' :: rest => (thresholdAt text place rest).map fun _ => none
  | '{' :: rest =>
    let found := rest.takeWhile (· != '}')
    let stop := place + byteSize found
    match rest.drop found.length with
    | '}' :: rest => do
      let field? ← readField (← part text place stop)
      match rest with
      | ']' :: rest =>
        let threshold? ← thresholdAt text (stop + 2) rest
        return if scope.isEmpty then field?.map fun field => { topic?, field? := some field, threshold? }
          else none
      | _ => throw .malformed
    | _ => .error .malformed
  | _ => .error .malformed

/-- Reads a text without punctuation: it is a level, or else a topic of which everything passes. -/
def ofWord (text : List Char) : Directive :=
  match thresholdOf? text with
  | some threshold? => { threshold? }
  | none => { topic? := some (String.ofList text), threshold? := some .trace }

def startsTopic (c : Char) : Bool := c == '-' || c == ':' || c == '_' || isAlphanumeric c

/-- Reads a directive; one that no event meets is none. -/
def parse (text : List Char) : Except DirectiveFault (Option Directive) :=
  match trim text with
  | [] => .error .malformed
  | '[' :: rest => ofCondition text none 1 rest
  | first :: others =>
    let inner := first :: others
    let topic := inner.takeWhile fun c => c != '=' && c != '['
    let stop := byteSize topic
    if !startsTopic first then .error .malformed
    else match inner.drop topic.length with
      | [] => .ok (some (ofWord text))
      | '=' :: rest => do
        let topic ← part text 0 stop
        let threshold? ← thresholdAt text stop ('=' :: rest)
        return some { topic? := some (String.ofList topic), threshold? }
      | _ :: rest => do
        let topic ← part text 0 stop
        ofCondition text (some (String.ofList topic)) (stop + 1) rest

def isAbout (d : Directive) (e : Event) : Bool :=
  d.topic?.all (fun start => start.toList.isPrefixOf e.topic.name.toList) && d.field?.all e.hasField

/-- The size of the topic; a directive for all topics comes before one for an empty start. -/
def topicSize (d : Directive) : Nat := d.topic?.elim 0 fun topic => topic.utf8ByteSize + 1

/-- The first directive is at most as close to its events as the second: the longer topic counts, then a field,
then the later name of a field. -/
def yieldsTo (a b : Directive) : Bool :=
  if a.topicSize ≠ b.topicSize then a.topicSize < b.topicSize
  else match a.field?, b.field? with
    | none, _ => true
    | some _, none => false
    | some x, some y => x ≤ y

end Directive

end UiCatalog.Log
