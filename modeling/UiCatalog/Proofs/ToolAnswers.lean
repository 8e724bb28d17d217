import UiCatalog.Proofs.Lifecycle
import UiCatalog.Proofs.MessageGrammar

/-!
# Answers of the tools

Whatever a tool is called with, it answers with one text item. The call fails unless the tool can read its arguments
and finds the component that they name. A call that fails is still answered with a result, never with an error.
-/
namespace UiCatalog

open Json

namespace Json

/-! ## Texts of objects -/

lemma treeText_string (s : String) : TreeText (string s).tree (quote s) := .string (piecesText_pieces s)

/-- A count has a numeral, be it one of more than 64 bits. -/
lemma treeText_nat (n : ℕ) : TreeText (nat n).tree (Nat.toDigits 10 n) := by
  have htext := NumeralText.mk false (isDigits_toDigits n) (lone_zero n) .none .none
  exact .number (by simpa [Number.numeral] using htext)

lemma memberTreesText_pretty {members : List (String × Json)} {level : ℕ} {w : List Char}
    (h : ∀ m ∈ members, TreeText m.2.tree (m.2.prettyChars level)) (hne : members ≠ []) (hw : IsGap w) :
    MemberTreesText (memberTrees members) (prettyMembers level members ++ w) := by
  have hblank : IsGap [' '] := by simp [IsGap, Written.isSpace]
  induction members with
  | nil => exact absurd rfl hne
  | cons m ms ih =>
    obtain ⟨key, v⟩ := m
    obtain ⟨hv, hms⟩ := List.forall_mem_cons.1 h
    have hmember : MemberTreeText (pieces key, v.tree) _ :=
      .mk (isGap_newLine level) (piecesText_pieces key) isGap_nil hblank hv
    cases ms with
    | nil =>
      have hlast := MemberTreesText.last hmember hw
      simpa [prettyMembers, quote, memberTrees] using hlast
    | cons m' ms =>
      have htail := MemberTreesText.cons hmember isGap_nil (ih hms (by simp))
      simpa [prettyMembers, quote, memberTrees] using htail

lemma isText_pretty_object {members : List (String × Json)} (hne : members ≠ [])
    (h : ∀ m ∈ members, TreeText m.2.tree (m.2.prettyChars 1)) :
    IsText (object members).pretty (object members).tree := by
  have hmembers := memberTreesText_pretty h hne (isGap_newLine 0)
  refine ⟨[], (object members).prettyChars 0, [], by simp [pretty], isGap_nil, ?_, isGap_nil⟩
  rw [prettyChars, if_neg (by simpa using hne), tree]
  exact .object hmembers

end Json

/-! ## Readable arguments -/

namespace SnippetRequest

def fieldNames : List String := ["componentName", "variant", "size", "children", "props"]

/-- What a field has to be for a request to be read. -/
def FieldFits (key : String) (v : Json) : Prop :=
  (key = "componentName" → v.text?.isSome) ∧
  (key ∈ ["variant", "size", "children"] → v = .null ∨ v.text?.isSome) ∧
  (key = "props" → ∃ members, v = .object members)

/-- The arguments read as a request for the component of a name. -/
structure Reads (arguments : Json) (name : String) : Prop where
  record : arguments.IsRecord fieldNames.length
  fits : ∀ m ∈ arguments.entries fieldNames, m.1 ∈ fieldNames → FieldFits m.1 m.2
  named : arguments.field? fieldNames "componentName" = some (.string name)

lemma map_decodeOptional_ok_iff {σ : Type} {v : Json} {f : Option String → σ} :
    (∃ s', (decodeOptional decodeText v).map f = .ok s') ↔ v = .null ∨ v.text?.isSome := by
  cases v <;> simp [decodeOptional, decodeText, Json.text?, Except.map]

lemma take_ok_iff (k : String) (take : Json → Draft → Except DecodeError Draft) (hmem : (k, take) ∈ shape.fields)
    (v : Json) (s : Draft) : (∃ s', take v s = .ok s') ↔ FieldFits k v := by
  simp only [shape, List.mem_cons, Prod.mk.injEq, List.not_mem_nil, or_false] at hmem
  obtain ⟨rfl, rfl⟩ | ⟨rfl, rfl⟩ | ⟨rfl, rfl⟩ | ⟨rfl, rfl⟩ | ⟨rfl, rfl⟩ := hmem
  · simp [Rpc.Message.map_decodeText_ok_iff, FieldFits]
  · simp [map_decodeOptional_ok_iff, FieldFits]
  · simp [map_decodeOptional_ok_iff, FieldFits]
  · simp [map_decodeOptional_ok_iff, FieldFits]
  · cases v <;> simp [decodeMap, Except.map, FieldFits]

lemma decides_name : RecordShape.Decides shape.fields "componentName" Draft.componentName Json.text? := by
  refine .of_take (by decide) fun k take hmem v s s' h => ?_
  simp only [shape, List.mem_cons, Prod.mk.injEq, List.not_mem_nil, or_false] at hmem
  obtain ⟨rfl, rfl⟩ | ⟨rfl, rfl⟩ | ⟨rfl, rfl⟩ | ⟨rfl, rfl⟩ | ⟨rfl, rfl⟩ := hmem
  · obtain ⟨x, hx, rfl⟩ := RecordShape.map_ok h
    exact (Rpc.Message.decodeText_ok_iff.1 hx).symm
  all_goals
    obtain ⟨x, -, rfl⟩ := RecordShape.map_ok h
    rfl

/-- What is needed of arguments for a request to be read, and for which component it then asks. -/
lemma decode_iff {arguments : Json} {name : String} :
    (∃ request, decode arguments = .ok request ∧ request.componentName = name) ↔ Reads arguments name := by
  have hmissing (s : Draft) : shape.missing? s = none ↔ s.componentName.isSome := by
    cases h : s.componentName <;> simp [shape, h]
  have hshape : (∃ s, shape.decode {} arguments = .ok s ∧ s.componentName = some name) ↔ Reads arguments name := by
    rw [RecordShape.exists_decode_iff take_ok_iff (by decide) decides_name hmissing rfl,
      Rpc.Message.bind_text?_eq_some_iff]
    constructor
    · rintro ⟨hrecord, hfits, hnamed⟩
      exact ⟨hrecord, hfits, hnamed⟩
    · exact fun h => ⟨h.record, h.fits, h.named⟩
  rw [← hshape]
  constructor
  · rintro ⟨request, h, rfl⟩
    obtain ⟨s, hs, rfl⟩ := RecordShape.map_ok h
    obtain ⟨name, hname⟩ := Option.isSome_iff_exists.1 ((hmissing s).1 (RecordShape.missing?_of_decode hs))
    exact ⟨s, hs, by simp [hname]⟩
  · rintro ⟨s, hs, hname⟩
    exact ⟨_, by rw [decode, hs]; rfl, by simp [hname]⟩

end SnippetRequest

namespace Rpc.ToolCall

def fieldNames : List String := ["name", "arguments"]

/-- The parameters read as a call of a tool with arguments, which are null if they are not given. -/
structure Reads (params : Json) (tool : String) (arguments : Json) : Prop where
  record : params.IsRecord fieldNames.length
  fits : ∀ m ∈ params.entries fieldNames, m.1 = "name" → m.2.text?.isSome
  named : params.field? fieldNames "name" = some (.string tool)
  given : (params.field? fieldNames "arguments").getD .null = arguments

lemma take_ok_iff (k : String) (take : Json → ToolCall → Except DecodeError ToolCall) (hmem : (k, take) ∈ shape.fields)
    (v : Json) (s : ToolCall) : (∃ s', take v s = .ok s') ↔ (k = "name" → v.text?.isSome) := by
  simp only [shape, List.mem_cons, Prod.mk.injEq, List.not_mem_nil, or_false] at hmem
  obtain ⟨rfl, rfl⟩ | ⟨rfl, rfl⟩ := hmem
  · simp [Message.map_decodeText_ok_iff]
  · simp

lemma decides_name : RecordShape.Decides shape.fields "name" ToolCall.name Json.text? := by
  refine .of_take (by decide) fun k take hmem v s s' h => ?_
  simp only [shape, List.mem_cons, Prod.mk.injEq, List.not_mem_nil, or_false] at hmem
  obtain ⟨rfl, rfl⟩ | ⟨rfl, rfl⟩ := hmem
  · obtain ⟨x, hx, rfl⟩ := RecordShape.map_ok h
    exact (Message.decodeText_ok_iff.1 hx).symm
  · cases h
    rfl

/-- What is needed of parameters for a call to be read, and what it then calls. -/
lemma decode_iff {params : Json} {tool : String} {arguments : Json} :
    shape.decode {} params = .ok ⟨some tool, arguments⟩ ↔ Reads params tool arguments := by
  have hmissing (s : ToolCall) : shape.missing? s = none ↔ s.name.isSome := by
    cases h : s.name <;> simp [shape, h]
  have hempty : ToolCall.name {} = none := rfl
  have hshape := RecordShape.exists_decode_iff take_ok_iff (by decide) decides_name hmissing hempty params tool
  have hgiven {s : ToolCall} (hs : shape.decode {} params = .ok s) :
      (params.field? fieldNames "arguments").getD .null = s.arguments := by
    rw [RecordShape.part_decode decides_arguments (by decide) hs, Option.map_id]
    rfl
  rw [Message.bind_text?_eq_some_iff] at hshape
  constructor
  · intro hs
    obtain ⟨hrecord, hfits, hnamed⟩ := hshape.1 ⟨_, hs, rfl⟩
    exact ⟨hrecord, fun m hm hkey => hfits m hm (by simp [hkey, shape]) hkey, hnamed, hgiven hs⟩
  · rintro ⟨hrecord, hfits, hnamed, rfl⟩
    obtain ⟨s, hs, hname⟩ := hshape.2 ⟨hrecord, fun m hm _ => hfits m hm, hnamed⟩
    rw [hs, hgiven hs, ← hname]

end Rpc.ToolCall

/-! ## The answers -/

namespace Tool

variable {catalog : Catalog} {tool : String} {arguments : Json} {answer : Descriptor → Result}

/-- A component of the catalog has the name, up to the case of ASCII letters. -/
def Known (catalog : Catalog) (name : String) : Prop :=
  ∃ d ∈ catalog.components, Text.eqIgnoreAsciiCase d.name name = true

/-- The tools that answer for the component of a name. -/
def namedTools : List String := ["get_component", "get_component_props", "get_component_examples"]

/-- The calls that do not fail. -/
def Succeeds (catalog : Catalog) (tool : String) (arguments : Json) : Prop :=
  tool = "list_components" ∨
  (tool ∈ namedTools ∧ ∃ name, arguments.member? "name" = some (.string name) ∧ Known catalog name) ∨
  (tool = "search_components" ∧ ∃ query, arguments.member? "query" = some (.string query)) ∨
  (tool = "generate_snippet" ∧ ∃ name, SnippetRequest.Reads arguments name ∧ Known catalog name)

/-- The message for a component without examples. -/
def noExamples (d : Descriptor) : String :=
  "No examples are available for '" ++ d.name ++ "'. Use get_component for its props and " ++
    "generate_snippet for a starting point."

lemma isSome_find?_iff {name : String} : (catalog.find? name).isSome ↔ Known catalog name := List.find?_isSome

/-- What a tool for the component of a name fails for, whatever it answers for the component. -/
lemma isError_withComponent (hanswer : ∀ d, (answer d).isError = false) :
    (withComponent catalog arguments answer).isError = false ↔
      ∃ name, arguments.member? "name" = some (.string name) ∧ Known catalog name := by
  simp only [← Rpc.Message.bind_text?_eq_some_iff, ← isSome_find?_iff]
  rw [withComponent]
  cases hname : (arguments.member? "name").bind Json.text? with
  | none => simp [Result.failed]
  | some name => cases hfind : catalog.find? name <;> simp [Result.failed, hfind, hanswer]

lemma isError_search : (searchComponents catalog arguments).isError = false ↔
    ∃ query, arguments.member? "query" = some (.string query) := by
  simp only [← Rpc.Message.bind_text?_eq_some_iff]
  rw [searchComponents]
  cases (arguments.member? "query").bind Json.text? <;> simp [Result.failed, Result.json, Result.ok]

lemma isError_snippet : (generateSnippet catalog arguments).isError = false ↔
    ∃ name, SnippetRequest.Reads arguments name ∧ Known catalog name := by
  simp only [← SnippetRequest.decode_iff, ← isSome_find?_iff]
  rw [generateSnippet]
  cases SnippetRequest.decode arguments with
  | error e => simp [Result.failed]
  | ok request => cases hfind : catalog.find? request.componentName <;>
      simp [Result.failed, snippetAnswer, Result.json, Result.ok, hfind]

lemma isError_examplesAnswer (d : Descriptor) : (examplesAnswer d).isError = false := by
  rw [examplesAnswer]
  split_ifs <;> rfl

lemma isError_call : (call catalog tool arguments).isError = false ↔ Succeeds catalog tool arguments := by
  unfold call
  split
  · exact iff_of_true rfl (.inl rfl)
  · rw [isError_withComponent fun d => show (componentAnswer d).isError = false from rfl]
    simp [Succeeds, namedTools]
  · rw [isError_withComponent fun d => show (propertiesAnswer d).isError = false from rfl]
    simp [Succeeds, namedTools]
  · rw [isError_withComponent isError_examplesAnswer]
    simp [Succeeds, namedTools]
  · simp [Succeeds, namedTools, isError_search]
  · simp [Succeeds, namedTools, isError_snippet]
  · simp_all [Succeeds, namedTools, Result.failed]

/-- The text is JSON. It has a value, since its only number of which the size is not known is a count of components. -/
def IsJson (catalog : Catalog) (text : String) : Prop :=
  (∃ w, IsText text w) ∧ (catalog.components.length < Numeral.wordBound → ∃ v, valueOf? text = some v)

lemma isJson_of_shows {r : Result} {v : Json} (h : Catalog.Shows r v) : IsJson catalog r.text := by
  obtain ⟨w, hw, -⟩ := Option.bind_eq_some_iff.1 h.2
  exact ⟨⟨w, ofText?_eq_some_iff.1 hw⟩, fun _ => ⟨v, h.2⟩⟩

lemma isJson_properties (d : Descriptor) : IsJson catalog (propertiesAnswer d).text := by
  rw [propertiesAnswer, Catalog.properties_eq_restrict]
  exact isJson_of_shows (Catalog.shows_sorted (fits_restrict d.fits_toJson _))

lemma isJson_examples {d : Descriptor} (hne : d.examples ≠ []) : IsJson catalog (examplesAnswer d).text := by
  rw [examplesAnswer, if_neg (by simpa using hne), Catalog.examples_eq_restrict]
  exact isJson_of_shows (Catalog.shows_sorted (fits_restrict d.fits_toJson _))

lemma isJson_snippet (request : SnippetRequest) (d : Descriptor) : IsJson catalog (snippetAnswer request d).text :=
  isJson_of_shows (Catalog.shows_sorted (by simp [Fits]))

/-- The members of the answer of a search in the order of their keys. -/
lemma sortKeys_found (query : String) (n : ℕ) (results : Json) :
    (Json.object [("query", .string query), ("count", Json.nat n), ("results", results)]).sortKeys =
      .object [("count", Json.nat n), ("query", .string query), ("results", results.sortKeys)] := by
  simp only [sortKeys, sortValues, Json.nat]
  generalize results.sortKeys = results
  cbv

lemma isJson_search {query : String} (h : arguments.member? "query" = some (.string query)) :
    IsJson catalog (searchComponents catalog arguments).text := by
  have hresults : (Json.array ((catalog.search query).map searchResult)).Fits :=
    fits_map (fun d => by simp [searchResult, Fits]) _
  rw [searchComponents, Rpc.Message.bind_text?_eq_some_iff.2 h]
  refine ⟨?_, fun hcount => ?_⟩
  · simp only [Result.json, Result.ok, sortKeys_found]
    refine ⟨_, isText_pretty_object (by simp) ?_⟩
    simp only [List.forall_mem_cons]
    exact ⟨treeText_nat _, treeText_string query, treeText_of_valueText (valueText_pretty (fits_sortKeys hresults) 1),
      by simp⟩
  · have hfound : (catalog.search query).length < Numeral.wordBound :=
      (List.length_filter_le _ _).trans_lt hcount
    refine ⟨_, (Catalog.shows_sorted ?_).2⟩
    simp only [Fits, membersFit_iff, List.forall_mem_cons] at hresults ⊢
    exact ⟨trivial, hfound, hresults, by simp⟩

/-- An answer for the component of a name is a message, or one about the component that is found. -/
lemma withComponent_cases (h : (withComponent catalog arguments answer).isError = false) :
    ∃ name d, arguments.member? "name" = some (.string name) ∧ catalog.find? name = some d ∧
      withComponent catalog arguments answer = answer d := by
  rw [withComponent] at h ⊢
  cases hname : (arguments.member? "name").bind Json.text? with
  | none => simp [hname, Result.failed] at h
  | some name =>
    cases hfind : catalog.find? name with
    | none => simp [hname, hfind, Result.failed] at h
    | some d => exact ⟨name, d, Rpc.Message.bind_text?_eq_some_iff.1 hname, hfind, by simp [hfind]⟩

lemma isJson_call (h : (call catalog tool arguments).isError = false) :
    (tool = "get_component_examples" ∧ ∃ name d, arguments.member? "name" = some (.string name) ∧
      catalog.find? name = some d ∧ d.examples = [] ∧ (call catalog tool arguments).text = noExamples d) ∨
    IsJson catalog (call catalog tool arguments).text := by
  unfold call at h ⊢
  split at h
  · exact .inr (isJson_of_shows (Catalog.shows_json (Catalog.fits_summaries catalog)))
  · obtain ⟨name, d, -, -, heq⟩ := withComponent_cases h
    rw [heq]
    exact .inr (isJson_of_shows (Catalog.shows_json d.fits_toJson))
  · obtain ⟨name, d, -, -, heq⟩ := withComponent_cases h
    rw [heq]
    exact .inr (isJson_properties d)
  · obtain ⟨name, d, hname, hfind, heq⟩ := withComponent_cases h
    rw [heq]
    by_cases hnone : d.examples = []
    · refine .inl ⟨rfl, name, d, hname, hfind, hnone, ?_⟩
      rw [examplesAnswer, hnone]
      rfl
    · exact .inr (isJson_examples hnone)
  · obtain ⟨query, hquery⟩ := isError_search.1 h
    exact .inr (isJson_search hquery)
  · rw [generateSnippet] at h ⊢
    cases hrequest : SnippetRequest.decode arguments with
    | error e => simp [hrequest, Result.failed] at h
    | ok request =>
      cases hfind : catalog.find? request.componentName with
      | none => simp [hrequest, hfind, Result.failed] at h
      | some d => exact .inr (by simpa [hfind] using isJson_snippet request d)
  · cases h

/-- A running handler answers every call that it can read with what the tool answers, be it a failure. -/
lemma reply_of_call {h : Rpc.Handler} {raw : String} {r : Rpc.Request} {params : Json} (hphase : h.phase = .running)
    (hr : Rpc.Message.parse raw = .ok (.request r)) (hmethod : r.method = "tools/call")
    (hparams : r.params = some params) (hreads : Rpc.ToolCall.Reads params tool arguments) :
    (h.handle catalog raw).reply = some (.result r.id (call catalog tool arguments).toJson.sortKeys) := by
  have hanswer : (h.answer catalog r).2.1 = .ok (call catalog tool arguments).toJson.sortKeys := by
    simp [Rpc.Handler.answer, Rpc.runningAnswer, hmethod, hphase, Rpc.Request.decodeParams, hparams,
      Rpc.ToolCall.decode_iff.2 hreads]
  rw [(Rpc.Handler.handle_request hr).2, hanswer, Rpc.Handler.replyTo]

lemma content_toJson (r : Result) :
    r.toJson.member? "content" = some (.array [.object [("type", .string "text"), ("text", .string r.text)]]) := rfl

/-- Every call has one text item, which marks a failure for exactly the calls that do not succeed and is JSON for the
others. A running handler passes it on, whatever it is. -/
theorem call_total (catalog : Catalog) :
    (∀ tool arguments,
      (call catalog tool arguments).toJson.member? "content" =
        some (.array [.object [("type", .string "text"), ("text", .string (call catalog tool arguments).text)]]) ∧
      ((call catalog tool arguments).isError = false ↔ Succeeds catalog tool arguments) ∧
      ((call catalog tool arguments).isError = false →
        (tool = "get_component_examples" ∧ ∃ name d, arguments.member? "name" = some (.string name) ∧
          catalog.find? name = some d ∧ d.examples = [] ∧ (call catalog tool arguments).text = noExamples d) ∨
        IsJson catalog (call catalog tool arguments).text)) ∧
    ∀ (h : Rpc.Handler) raw r params tool arguments, h.phase = .running →
      Rpc.Message.parse raw = .ok (.request r) → r.method = "tools/call" → r.params = some params →
      Rpc.ToolCall.Reads params tool arguments →
      (h.handle catalog raw).reply = some (.result r.id (call catalog tool arguments).toJson.sortKeys) :=
  ⟨fun _ _ => ⟨content_toJson _, isError_call, isJson_call⟩,
    fun _ _ _ _ _ _ hphase hr hmethod hparams hreads => reply_of_call hphase hr hmethod hparams hreads⟩

/-- A call of which the parameters and the arguments are arrays. -/
def arrayCallText : String :=
  "\x7b\"jsonrpc\":\"2.0\",\"id\":\"a\",\"method\":\"tools/call\",\"params\":[\"get_component\",[\"Card\"]]\x7d"

def arrayCall : Rpc.Request :=
  ⟨.text "a", "tools/call", some (.array [.string "get_component", .array [.string "Card"]])⟩

set_option maxRecDepth 20000 in
/-- The call fails with a result, although the same component is found by a proper one. -/
theorem call_total_of_arrays :
    Rpc.Message.parse arrayCallText = .ok (.request arrayCall) ∧
      Rpc.ToolCall.Reads (.array [.string "get_component", .array [.string "Card"]]) "get_component"
        (.array [.string "Card"]) ∧
      (Rpc.Handler.handle Catalog.compoundCatalog ⟨.running, some Rpc.protocolVersion⟩ arrayCallText).reply =
        some (.result (.text "a") (Result.failed "Missing required parameter: name").toJson.sortKeys) ∧
      (call Catalog.compoundCatalog "get_component" (Catalog.nameArgument "cARD")).isError = false ∧
      IsJson Catalog.compoundCatalog
        (call Catalog.compoundCatalog "get_component" (Catalog.nameArgument "cARD")).text := by
  have hparse : Rpc.Message.parse arrayCallText = .ok (.request arrayCall) := by cbv
  have hreads : Rpc.ToolCall.Reads (.array [.string "get_component", .array [.string "Card"]]) "get_component"
      (.array [.string "Card"]) := by
    refine ⟨by simp [IsRecord, Rpc.ToolCall.fieldNames], ?_, rfl, rfl⟩
    simp [entries, Rpc.ToolCall.fieldNames, Json.text?]
  obtain ⟨hcalls, hreplies⟩ := call_total Catalog.compoundCatalog
  obtain ⟨-, hsucceeds, hjson⟩ := hcalls "get_component" (Catalog.nameArgument "cARD")
  have hfound : Succeeds Catalog.compoundCatalog "get_component" (Catalog.nameArgument "cARD") :=
    .inr (.inl ⟨by decide, "cARD", rfl, isSome_find?_iff.1 (by decide)⟩)
  have hok := hsucceeds.2 hfound
  refine ⟨hparse, hreads, hreplies ⟨.running, some Rpc.protocolVersion⟩ _ _ _ _ _ rfl hparse rfl rfl hreads, hok, ?_⟩
  exact (hjson hok).resolve_left fun h => absurd h.1 (by decide)

end Tool

end UiCatalog
