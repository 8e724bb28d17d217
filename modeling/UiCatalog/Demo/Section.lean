import UiCatalog.Demo.Markup

/-!
# Sections of a demo page

A demo page is divided by `Section` elements with titles. What follows a section's start, up to the next
one, belongs to it.
-/
namespace UiCatalog.Demo

open Text Pattern

/-- The start of a section. -/
structure Section where
  /-- The number of characters before it. -/
  start : Nat
  title : List Char

/-- A section start up to its title, which is one of groups 1 to 3. -/
def sectionPattern : Pattern :=
  text "<Section" ++ wordEdge ++ few (· != '>') ++ wordEdge ++ text "title=" ++
    (quotedBy '"' 1 <|> quotedBy '\'' 2 <|>
      (char '\x7b' ++ blanks ++ one isQuoteMark ++ group 3 (many fun c => !isQuoteMark c) ++
        one isQuoteMark ++ blanks ++ char '\x7d'))

/-- The sections of a page, in order. -/
def sections (source : List Char) : List Section :=
  (sectionPattern.findAll source).filterMap fun found =>
    (found.firstOf [1, 2, 3]).map fun title => ⟨found.start, title⟩

/-- The title of the last section that starts before a place. -/
def titleBefore? (sections : List Section) (place : Nat) : Option (List Char) :=
  ((sections.takeWhile (·.start < place)).getLast?).map (·.title)

/-- The part of a page from the start of the first section with such a title up to the next section. -/
def region? (isTitle : List Char → Bool) (source : List Char) : Option (List Char) :=
  match (sections source).dropWhile fun s => !isTitle s.title with
  | [] => none
  | [s] => some (source.drop s.start)
  | s :: next :: _ => some ((source.drop s.start).take (next.start - s.start))

end UiCatalog.Demo
