import Mathlib.Data.List.Basic
import UiCatalog.Registry

/-!
# A registry loads once

The file of a registry may change between any two calls. The first call that finds no file, or a file that
holds a catalog, decides on the catalog of all calls from then on. A call that comes earlier answers as from an
empty catalog and leaves the registry as it was.
-/
namespace UiCatalog.Registry

/-- What a registry is asked for. -/
inductive Call where
  | load
  | list
  | find (name : String)
  | search (query : String)
  | metadata

/-- What a registry gives. -/
inductive Answer where
  | loaded (result : Except CatalogError Catalog)
  | components (found : List Descriptor)
  | component (found : Option Descriptor)
  | header (generatedAt : Option String) (totalComponents : Nat)

namespace Call

/-- The answer from a catalog. -/
def answer (catalog : Catalog) : Call → Answer
  | load => .loaded (.ok catalog)
  | list => .components catalog.components
  | find name => .component (catalog.find? name)
  | search query => .components (catalog.search query)
  | metadata => .header catalog.generatedAt catalog.totalComponents

/-- The answer when a catalog is wanted: without one only `load` tells why. -/
def reply : Except CatalogError Catalog → Call → Answer
  | .ok catalog, call => call.answer catalog
  | .error e, load => .loaded (.error e)
  | .error _, call => call.answer .empty

end Call

/-- What a path holds. What is no file counts as an empty catalog. -/
def found (t : FileTree) (path : Path) : Except CatalogError Catalog :=
  match t.bytes? path with
  | none => .ok .empty
  | some bytes =>
    match Text.Utf8.text? bytes with
    | none => .error (.unreadable path)
    | some text =>
      match Catalog.ofText? text with
      | none => .error (.malformed path)
      | some catalog => .ok catalog

/-- The registry after a call on the files of `t`, and what it gives. -/
def ask (r : Registry) (t : FileTree) : Call → Registry × Answer
  | .load => ((r.load t).1, .loaded (r.load t).2.1)
  | call => ((r.catalog t).1, call.answer (r.catalog t).2.1)

/-- The registry after calls that each meet files of their own. -/
def after (r : Registry) (steps : List (FileTree × Call)) : Registry :=
  steps.foldl (fun r s => (r.ask s.1 s.2).1) r

def answers : Registry → List (FileTree × Call) → List Answer
  | _, [] => []
  | r, (t, call) :: steps => (r.ask t call).2 :: answers (r.ask t call).1 steps

variable {r : Registry} {t : FileTree} {path : Path} {catalog : Catalog} {call : Call}
  {steps later : List (FileTree × Call)}

/-! ## One call -/

lemma fetch_fst (t : FileTree) (path : Path) : (fetch t path).1 = found t path := by
  unfold fetch found Catalog.ofFile FileTree.isFile FileTree.text?
  cases hbytes : t.bytes? path with
  | none => rfl
  | some bytes =>
    cases htext : Text.Utf8.text? bytes with
    | none => simp [htext]
    | some text =>
      cases hcatalog : Catalog.ofText? text with
      | none => simp [htext, hcatalog]
      | some catalog => simp [htext, hcatalog]

lemma ask_of_loaded (h : r.loaded? = some catalog) (t : FileTree) (call : Call) :
    r.ask t call = (r, call.answer catalog) := by
  have hload : r.load t = (r, .ok catalog, []) := by simp [load, h]
  have hcatalog : r.catalog t = (r, catalog, []) := by simp [Registry.catalog, hload]
  cases call <;> simp [ask, hload, hcatalog, Call.answer]

/-- A registry without a catalog keeps what it finds, if that is one. -/
lemma ask_of_unloaded (h : r.loaded? = none) (t : FileTree) (call : Call) :
    r.ask t call = ({ r with loaded? := (found t r.path).toOption }, call.reply (found t r.path)) := by
  have hload : r.load t = ({ r with loaded? := (found t r.path).toOption }, found t r.path, (fetch t r.path).2) := by
    simp only [load, h, ← fetch_fst]
  cases hfound : found t r.path with
  | ok catalog =>
    rw [hfound] at hload
    have hcatalog : r.catalog t = ({ r with loaded? := some catalog }, catalog, (fetch t r.path).2) := by
      simp [Registry.catalog, hload, Except.toOption]
    cases call <;> simp [ask, hload, hcatalog, Call.reply, Except.toOption, Call.answer]
  | error e =>
    rw [hfound] at hload
    have hcatalog : r.catalog t =
        ({ r with loaded? := none }, .empty, (fetch t r.path).2 ++ [unavailableEvent e]) := by
      simp [Registry.catalog, hload, Except.toOption]
    cases call <;> simp [ask, hload, hcatalog, Call.reply, Except.toOption]

lemma ask_of_broken {e : CatalogError} (hfound : found t path = .error e) (call : Call) :
    ask { path } t call = ({ path }, call.reply (found t path)) := by
  have hask := ask_of_unloaded (r := { path }) rfl t call
  rw [hask, hfound]
  rfl

/-! ## Runs -/

lemma after_append (r : Registry) (steps later : List (FileTree × Call)) :
    r.after (steps ++ later) = (r.after steps).after later :=
  List.foldl_append

lemma answers_append (r : Registry) (steps later : List (FileTree × Call)) :
    r.answers (steps ++ later) = r.answers steps ++ (r.after steps).answers later := by
  induction steps generalizing r with
  | nil => rfl
  | cons s steps ih => exact congrArg ((r.ask s.1 s.2).2 :: ·) (ih _)

/-- A catalog that is there stays, whatever becomes of the file. -/
lemma run_of_loaded (h : r.loaded? = some catalog) (steps : List (FileTree × Call)) :
    r.after steps = r ∧ r.answers steps = steps.map fun s => s.2.answer catalog := by
  induction steps with
  | nil => exact ⟨rfl, rfl⟩
  | cons s steps ih =>
    have hask := ask_of_loaded h s.1 s.2
    constructor
    · rw [after, List.foldl_cons, hask]
      exact ih.1
    · rw [answers, hask, ih.2, List.map_cons]

lemma run_of_broken (h : ∀ s ∈ steps, ∃ e, found s.1 path = .error e) :
    after { path } steps = { path } ∧
      answers { path } steps = steps.map fun s => s.2.reply (found s.1 path) := by
  induction steps with
  | nil => exact ⟨rfl, rfl⟩
  | cons s steps ih =>
    obtain ⟨⟨e, hfound⟩, hsteps⟩ := List.forall_mem_cons.1 h
    have hask := ask_of_broken hfound s.2
    constructor
    · rw [after, List.foldl_cons, hask]
      exact (ih hsteps).1
    · rw [answers, hask, (ih hsteps).2, List.map_cons]

/--
As long as the file is broken, calls are answered as from an empty catalog and nothing is kept. The first call
that meets no file or a catalog is answered from it, as are all later ones whatever they meet.
-/
theorem loads_once (path : Path) (early : List (FileTree × Call))
    (hearly : ∀ s ∈ early, ∃ e, found s.1 path = .error e) :
    after { path } early = { path } ∧
      (answers { path } early = early.map fun s => s.2.reply (found s.1 path)) ∧
      ∀ t call catalog late, found t path = .ok catalog →
        after { path } (early ++ (t, call) :: late) = { path, loaded? := some catalog } ∧
        answers { path } (early ++ (t, call) :: late) =
          (early.map fun s => s.2.reply (found s.1 path)) ++
            call.answer catalog :: late.map fun s => s.2.answer catalog := by
  obtain ⟨hafter, hanswers⟩ := run_of_broken hearly
  refine ⟨hafter, hanswers, ?_⟩
  intro t call catalog late hfound
  -- the call in the middle is the last one that the file decides on
  have hask : ask { path } t call = ({ path, loaded? := some catalog }, call.answer catalog) := by
    rw [ask_of_unloaded rfl]
    simp [hfound, Call.reply, Except.toOption]
  obtain ⟨hlast, hlate⟩ := run_of_loaded (r := { path, loaded? := some catalog }) rfl late
  constructor
  · rw [after_append, hafter, after, List.foldl_cons, hask]
    exact hlast
  · rw [answers_append, hafter, hanswers, answers, hask, hlate]

def oneFile (bytes : List UInt8) : FileTree := { entries := [(["c.json"], .file bytes)] }

lemma bytes?_oneFile (bytes : List UInt8) : (oneFile bytes).bytes? ⟨"c.json"⟩ = some bytes := by
  rfl

/-- A file that is no text is repaired, and then removed. -/
theorem loads_once_of_repaired :
    let repaired := oneFile (Text.Utf8.encode "[\"now\"]")
    found (oneFile [255]) ⟨"c.json"⟩ = .error (.unreadable ⟨"c.json"⟩) ∧
    found repaired ⟨"c.json"⟩ = .ok { generatedAt := some "now" } ∧
    answers { path := ⟨"c.json"⟩ }
        [(oneFile [255], .load), (oneFile [255], .list), (repaired, .metadata), ({}, .load)] =
      [.loaded (.error (.unreadable ⟨"c.json"⟩)), .components [], .header (some "now") 0,
        .loaded (.ok { generatedAt := some "now" })] := by
  have hbroken : found (oneFile [255]) ⟨"c.json"⟩ = .error (.unreadable ⟨"c.json"⟩) := by
    rw [found, bytes?_oneFile]
    rfl
  have htext : Text.Utf8.text? (Text.Utf8.encode "[\"now\"]") = some "[\"now\"]" := by
    decide +kernel
  have hwritten : Json.Written.ofText? "[\"now\"]" = some (.array [.string [.char 'n', .char 'o', .char 'w']]) := by
    cbv
  have hcatalog : Catalog.ofText? "[\"now\"]" = some { generatedAt := some "now" } := by
    rw [Catalog.ofText?, hwritten]
    rfl
  have hrepaired : found (oneFile (Text.Utf8.encode "[\"now\"]")) ⟨"c.json"⟩ = .ok { generatedAt := some "now" } := by
    rw [found, bytes?_oneFile]
    simp only [htext, hcatalog]
  have hearly : ∀ s ∈ [(oneFile [255], Call.load), (oneFile [255], .list)],
      ∃ e, found s.1 ⟨"c.json"⟩ = .error e := by
    simp [hbroken]
  obtain ⟨-, -, hlate⟩ := loads_once ⟨"c.json"⟩ _ hearly
  refine ⟨hbroken, hrepaired, ?_⟩
  have hanswers := (hlate _ .metadata _ [({}, .load)] hrepaired).2
  simpa [hbroken, Call.reply, Call.answer, Catalog.empty] using hanswers

end UiCatalog.Registry
