import UiCatalog.Proofs.CatalogViews
import UiCatalog.Proofs.RecordFields
import UiCatalog.Proofs.VariantText
import UiCatalog.Rpc.Handler

/-!
# The order of a snippet's attributes

A snippet has its variant and its size first, and then one attribute for each of the properties that the call
asks for, by the order of their names. That is the order of the call just when the call has them sorted.
-/
namespace UiCatalog

open Json

namespace SnippetRequest

/-- The attributes of a snippet with their values, `further` being those behind the variant and the size. -/
def attributesWith (r : SnippetRequest) (further : List (String × Json)) : List (String × String) :=
  (r.variant.map (Prod.mk "variant")).toList ++ (r.size.map (Prod.mk "size")).toList ++
    further.map fun m => (m.1, valueText m.2)

/-- The element of a component with the given attributes, one after the other. -/
def element (d : Descriptor) (children : Option String) (attributes : List (String × String)) : String :=
  let opening := "<" ++ d.name ++ String.join (attributes.map fun a => attributeText a.1 a.2)
  if voidComponents.contains d.name then opening ++ " />"
  else opening ++ ">" ++ children.getD d.name ++ "</" ++ d.name ++ ">"

lemma render_eq_element (r : SnippetRequest) (d : Descriptor) :
    r.render d = element d r.children (r.attributesWith r.attributes.entries) := by
  have htexts : r.attributesText =
      String.join ((r.attributesWith r.attributes.entries).map fun a => attributeText a.1 a.2) := by
    unfold attributesText attributesWith
    cases r.variant <;> cases r.size <;> simp [Function.comp_def]
  unfold render element
  rw [htexts]

/-- The attributes that a value of `props` stands for. -/
def entriesOf : Json → List (String × Json)
  | .object members => (OrderedMap.ofList members).entries
  | _ => []

lemma decides_attributes :
    RecordShape.Decides shape.fields "props" (fun s => s.request.attributes.entries) entriesOf := by
  refine .of_take (by decide) fun k take hmem v s s' htake => ?_
  simp only [shape, List.mem_cons, Prod.mk.injEq, List.not_mem_nil, or_false] at hmem
  obtain ⟨rfl, rfl⟩ | ⟨rfl, rfl⟩ | ⟨rfl, rfl⟩ | ⟨rfl, rfl⟩ | ⟨rfl, rfl⟩ := hmem
  case inr.inr.inr.inr =>
    cases v <;> cases htake
    rfl
  all_goals
    obtain ⟨x, -, rfl⟩ := RecordShape.map_ok htake
    rfl

/-- A decoded request has its attributes in the order of their names. -/
lemma entries_decode {arguments : Json} {request : SnippetRequest} (h : decode arguments = .ok request) :
    request.attributes.entries =
      ((arguments.field? (shape.fields.map Prod.fst) "props").map entriesOf).getD [] := by
  obtain ⟨s, hs, rfl⟩ := RecordShape.map_ok h
  exact RecordShape.part_decode decides_attributes (by decide) hs

end SnippetRequest

namespace Rpc

/-- A value that is absent when it is null. -/
def given : Json → Option Json
  | .null => none
  | v => some v

lemma decides_params : RecordShape.Decides Message.requestShape.fields "params" Message.Draft.params given := by
  refine .of_take (by decide) fun k take hmem v s s' htake => ?_
  simp only [Message.requestShape, List.mem_cons, Prod.mk.injEq, List.not_mem_nil, or_false] at hmem
  obtain ⟨rfl, rfl⟩ | ⟨rfl, rfl⟩ | ⟨rfl, rfl⟩ | ⟨rfl, rfl⟩ := hmem
  · obtain ⟨x, -, rfl⟩ := RecordShape.map_ok htake
    rfl
  · unfold Message.takeId at htake
    split at htake <;> cases htake
    rfl
  · obtain ⟨x, -, rfl⟩ := RecordShape.map_ok htake
    rfl
  · cases v <;> cases htake <;> rfl

lemma decides_arguments : RecordShape.Decides ToolCall.shape.fields "arguments" ToolCall.arguments id := by
  refine .of_take (by decide) fun k take hmem v s s' htake => ?_
  simp only [ToolCall.shape, List.mem_cons, Prod.mk.injEq, List.not_mem_nil, or_false] at hmem
  obtain ⟨rfl, rfl⟩ | ⟨rfl, rfl⟩ := hmem
  · obtain ⟨x, -, rfl⟩ := RecordShape.map_ok htake
    rfl
  · cases htake
    rfl

/-- A text that asks a running handler for a snippet. -/
def AsksSnippet (raw : String) (id : RequestId) (request : SnippetRequest) : Prop :=
  ∃ r call, Message.parse raw = .ok (.request r) ∧ r.id = id ∧ r.method = "tools/call" ∧
    r.decodeParams (ToolCall.shape.decode {}) = .ok call ∧ call.name = some "generate_snippet" ∧
      SnippetRequest.decode call.arguments = .ok request

/-- The attributes that a text asks for with their values, in the order in which they stand in the text. -/
def writtenAttributes? (raw : String) : Option (List (String × Json)) := do
  let message ← Written.ofText? raw
  let params ← message.field? (Message.requestShape.fields.map Prod.fst) "params"
  let arguments ← params.field? (ToolCall.shape.fields.map Prod.fst) "arguments"
  match arguments.field? (SnippetRequest.shape.fields.map Prod.fst) "props" with
  | none => some []
  | some (.object members) => Written.membersWithin? Written.maxDepth members
  | some _ => none

variable {raw : String} {id : RequestId} {request : SnippetRequest} {r : Request} {written : List (String × Json)}

lemma decode_of_ofRequest {v : Json} (h : Message.ofRequest v = .ok (.request r)) :
    ∃ s, Message.requestShape.decode {} v = .ok s ∧ s.params = r.params := by
  unfold Message.ofRequest at h
  split at h
  · next id method params hdecode =>
    split_ifs at h
    cases h
    exact ⟨_, hdecode, rfl⟩
  · cases h
  · cases h

/-- The parameters of a request are what its text has for them. -/
lemma params_of_parse (h : Message.parse raw = .ok (.request r)) :
    ∃ w v, Written.ofText? raw = some w ∧ w.value? = some v ∧
      r.params = ((v.field? (Message.requestShape.fields.map Prod.fst) "params").map given).getD none := by
  unfold Message.parse at h
  split at h
  · cases h
  · next v hv =>
    obtain ⟨w, hw, hvalue⟩ := Option.bind_eq_some_iff.1 hv
    refine ⟨w, v, hw, hvalue, ?_⟩
    have hrequest : Message.ofRequest v = .ok (.request r) := by
      unfold Message.ofJson at h
      split at h
      · split_ifs at h
        · exact h
        · unfold Message.ofNotification at h
          split at h <;> cases h
      · cases h
    obtain ⟨s, hs, hparams⟩ := decode_of_ofRequest hrequest
    rw [← hparams]
    exact RecordShape.part_decode decides_params (by decide) hs

lemma eq_some_of_given {v? : Option Json} {v : Json} (h : (v?.map given).getD none = some v) : v? = some v := by
  cases v? with
  | none => cases h
  | some v' => cases v' <;> cases h <;> rfl

lemma params_of_decodeParams {α : Type} {decode : Decoder α} {a : α} (h : r.decodeParams decode = .ok a) :
    ∃ v, r.params = some v ∧ decode v = .ok a := by
  unfold Request.decodeParams at h
  split at h
  · cases h
  · next v hv =>
    split at h
    · next a' ha =>
      cases h
      exact ⟨v, hv, ha⟩
    · cases h

/-- Written members are the members of the object that they make, in the order of their keys. -/
lemma entriesOf_object {room : Nat} {ws : List (List Piece × Written)} {v : Json}
    (hv : Written.valueWithin? room (.object ws) = some v) (extra : Nat)
    (hwritten : Written.membersWithin? (room - 1 + extra) ws = some written) :
    SnippetRequest.entriesOf v = sortMembers written := by
  rw [Written.valueWithin?] at hv
  split_ifs at hv
  obtain ⟨ms, hms, rfl⟩ := Option.map_eq_some_iff.1 hv
  have hsame : ms = written := Option.some.inj ((membersWithin?_add hms extra).symm.trans hwritten)
  have hentries := OrderedMap.entries_foldl_insert OrderedMap.empty (sortMembers ms)
    (by simpa [OrderedMap.empty] using nodup_of_sorted (sorted_sortMembers ms))
  rw [SnippetRequest.entriesOf, OrderedMap.ofList, hentries, hsame]
  rfl

/-- The attributes of a request are those that stand in its text, in the order of their names. -/
lemma entries_of_asks (h : AsksSnippet raw id request) (hwritten : writtenAttributes? raw = some written) :
    request.attributes.entries = sortMembers written := by
  obtain ⟨r, call, hparse, -, -, hcall, -, hrequest⟩ := h
  obtain ⟨w, v, hw, hvalue, hparams⟩ := params_of_parse hparse
  obtain ⟨params, hsome, hcall⟩ := params_of_decodeParams hcall
  have hparams := eq_some_of_given (hparams.symm.trans hsome)
  have harguments := RecordShape.part_decode decides_arguments (by decide) hcall
  have hentries := SnippetRequest.entries_decode hrequest
  simp only [writtenAttributes?, hw, Option.bind_eq_bind, Option.bind_some, Option.bind_eq_some_iff] at hwritten
  obtain ⟨wparams, hwparams, warguments, hwarguments, hwritten⟩ := hwritten
  -- one level after the other, from the text of the message to that of its `props`
  obtain ⟨v₁, hv₁, hparamsText⟩ := field?_of_written hvalue hwparams
  obtain rfl : params = v₁ := Option.some.inj (hparams.symm.trans hv₁)
  obtain ⟨v₂, hv₂, hargumentsText⟩ := field?_of_written hparamsText hwarguments
  obtain rfl : call.arguments = v₂ := by rwa [hv₂] at harguments
  rw [hentries]
  split at hwritten
  · next hnone =>
    cases hwritten
    rw [field?_of_not_written hargumentsText hnone]
    rfl
  · next members hmembers =>
    obtain ⟨v₃, hv₃, hpropsText⟩ := field?_of_written hargumentsText hmembers
    rw [hv₃]
    exact entriesOf_object hpropsText 4 hwritten
  · cases hwritten

lemma reply_of_asks {h : Handler} (catalog : Catalog) (hphase : h.phase = .running)
    (hasks : AsksSnippet raw id request) :
    ∃ arguments, SnippetRequest.decode arguments = .ok request ∧
      (h.handle catalog raw).reply =
        some (.result id (Tool.call catalog "generate_snippet" arguments).toJson.sortKeys) := by
  obtain ⟨r, call, hparse, rfl, hmethod, hcall, hname, hrequest⟩ := hasks
  refine ⟨call.arguments, hrequest, ?_⟩
  have hanswer : (h.answer catalog r).2.1 =
      .ok (Tool.call catalog "generate_snippet" call.arguments).toJson.sortKeys := by
    simp [Handler.answer, runningAnswer, hmethod, hphase, hcall, hname]
  simp only [Handler.handle, hparse, Handler.handleRequest, hanswer, Handler.replyTo]

/--
A running handler answers with a snippet that has the attributes of the text, all of them, by the order of their
names. They stand as in the text if and only if the text has them in that order.
-/
theorem snippet_sorts_attributes {h : Handler} {catalog : Catalog} {d : Descriptor} (hphase : h.phase = .running)
    (hasks : AsksSnippet raw id request) (hfound : catalog.find? request.componentName = some d)
    (hwritten : writtenAttributes? raw = some written) :
    (∃ text, (h.handle catalog raw).reply = some (.result id (Tool.Result.ok text).toJson.sortKeys) ∧
      valueOf? text = some (.object [("component", .string d.name), ("importStatement", .string d.importStatement),
        ("snippet", .string
          (SnippetRequest.element d request.children (request.attributesWith (sortMembers written))))])) ∧
    ((written.map Prod.fst).Nodup → (sortMembers written).Perm written) ∧
    (sortMembers written = written ↔ Sorted written) := by
  obtain ⟨arguments, hrequest, hreply⟩ := reply_of_asks catalog hphase hasks
  obtain ⟨hok, hvalue⟩ := Catalog.snippet_shown hrequest hfound
  refine ⟨⟨(Tool.call catalog "generate_snippet" arguments).text, ?_, ?_⟩, perm_sortMembers, ?_,
    sortMembers_of_sorted⟩
  · rw [hreply, Tool.Result.ok, ← hok]
  · rwa [SnippetRequest.render_eq_element, entries_of_asks hasks hwritten] at hvalue
  · intro hsame
    rw [← hsame]
    exact sorted_sortMembers written

/-- Attributes with texts as their values. -/
def textMembers (attributes : List (String × String)) : List (String × Json) :=
  attributes.map fun a => (a.1, .string a.2)

/-- A call for a large card with further attributes. -/
def cardCall (attributes : List (String × String)) : Json :=
  .object [("jsonrpc", .string "2.0"), ("id", Json.nat 1), ("method", .string "tools/call"), ("params", .object [
    ("name", .string "generate_snippet"), ("arguments", .object [
      ("componentName", .string "card"), ("size", .string "lg"),
      ("props", .object (textMembers attributes))])])]

def cardRequest (attributes : List (String × String)) : SnippetRequest where
  componentName := "card"
  size := some "lg"
  attributes := OrderedMap.ofList (sortMembers (textMembers attributes))

lemma sortValues_textMembers (attributes : List (String × String)) :
    sortValues (textMembers attributes) = textMembers attributes := by
  rw [sortValues_eq_map, textMembers, List.map_map]
  rfl

lemma sortKeys_cardCall (attributes : List (String × String)) : (cardCall attributes).sortKeys =
    .object [("id", Json.nat 1), ("jsonrpc", .string "2.0"), ("method", .string "tools/call"), ("params", .object [
      ("arguments", .object [("componentName", .string "card"),
        ("props", .object (sortMembers (textMembers attributes))), ("size", .string "lg")]),
      ("name", .string "generate_snippet")])] := by
  simp only [cardCall, sortKeys, sortValues, sortValues_textMembers, Json.nat]
  generalize sortMembers (textMembers attributes) = members
  cbv

lemma fits_cardCall (attributes : List (String × String)) : (cardCall attributes).Fits := by
  have hprops : (Json.object (textMembers attributes)).Fits := by
    rw [Fits, membersFit_iff, textMembers, List.forall_mem_map]
    intro a _
    trivial
  have hid : (Json.nat 1).Fits := by
    change 1 < Numeral.wordBound
    decide
  simp only [cardCall, Fits, membersFit_iff, List.forall_mem_cons] at hprops ⊢
  exact ⟨trivial, hid, trivial, ⟨trivial, ⟨trivial, trivial, hprops, by simp⟩, by simp⟩, by simp⟩

lemma depth_cardCall (attributes : List (String × String)) : (cardCall attributes).depth ≤ Written.maxDepth := by
  have hprops : depthOfMembers (textMembers attributes) ≤ 0 := by
    rw [depthOfMembers_le_iff, textMembers, List.forall_mem_map]
    intro a _
    exact Nat.le_refl 0
  simp only [cardCall, depth, depthOfMembers, Json.nat, Written.maxDepth]
  omega

lemma asks_cardCall (attributes : List (String × String)) :
    AsksSnippet (cardCall attributes).pretty (.number 1) (cardRequest attributes) := by
  have hparse := parse?_pretty (fits_cardCall attributes) (depth_cardCall attributes)
  rw [sortKeys_cardCall] at hparse
  unfold AsksSnippet Message.parse
  rw [hparse]
  exact ⟨_, _, rfl, rfl, rfl, rfl, rfl, rfl⟩

lemma writtenAttributes?_cardCall (attributes : List (String × String)) :
    writtenAttributes? (cardCall attributes).pretty = some (textMembers attributes) := by
  have hvalues : Written.membersWithin? Written.maxDepth (memberTrees (textMembers attributes)) =
      some (textMembers attributes) := by
    rw [membersWithin?_memberTrees, sortValues_textMembers]
    rw [textMembers, List.forall_mem_map]
    intro a _
    exact valueWithin?_tree trivial (Nat.zero_le _)
  unfold writtenAttributes?
  rw [ofText?_pretty (fits_cardCall attributes)]
  simpa [cardCall, tree, memberTrees, Written.field?] using hvalues

def running : Handler := ⟨.running, some protocolVersion⟩

def card : Descriptor := { name := "Card", importStatement := "import \x7b Card \x7d from \"@ui/card\"" }

def cardCatalog : Catalog := { totalComponents := 1, components := [card] }

/-- Attributes in the order of their names are rendered in the order of the call. -/
theorem snippet_keeps_sorted_attributes :
    running.phase = .running ∧ AsksSnippet (cardCall [("title", "a"), ("tone", "b")]).pretty (.number 1)
        (cardRequest [("title", "a"), ("tone", "b")]) ∧
    cardCatalog.find? "card" = some card ∧ Sorted [("title", Json.string "a"), ("tone", .string "b")] ∧
    ∃ text, (running.handle cardCatalog (cardCall [("title", "a"), ("tone", "b")]).pretty).reply =
        some (.result (.number 1) (Tool.Result.ok text).toJson.sortKeys) ∧
      valueOf? text = some (.object [("component", .string "Card"),
        ("importStatement", .string "import \x7b Card \x7d from \"@ui/card\""),
        ("snippet", .string "<Card size=\"lg\" title=\"a\" tone=\"b\">Card</Card>")]) := by
  have hasks := asks_cardCall [("title", "a"), ("tone", "b")]
  have hfound : cardCatalog.find? "card" = some card := rfl
  have hlt : "title" < "tone" := by rw [String.lt_iff_toList_lt]; decide
  have hsorted : Sorted [("title", Json.string "a"), ("tone", .string "b")] :=
    sorted_cons.2 ⟨List.forall_mem_singleton.2 hlt, List.pairwise_singleton _ _⟩
  obtain ⟨⟨text, hreply, hvalue⟩, -, hiff⟩ :=
    snippet_sorts_attributes (h := running) rfl hasks hfound (writtenAttributes?_cardCall _)
  refine ⟨rfl, hasks, hfound, hsorted, text, hreply, ?_⟩
  rw [hiff.2 hsorted] at hvalue
  exact hvalue

/-- Attributes in any other order are not rendered in the order of the call. -/
theorem snippet_reorders_attributes :
    writtenAttributes? (cardCall [("tone", "b"), ("title", "a")]).pretty =
      some [("tone", .string "b"), ("title", .string "a")] ∧
    SnippetRequest.element card none ((cardRequest [("tone", "b"), ("title", "a")]).attributesWith
      [("tone", .string "b"), ("title", .string "a")]) = "<Card size=\"lg\" tone=\"b\" title=\"a\">Card</Card>" ∧
    ∃ text, (running.handle cardCatalog (cardCall [("tone", "b"), ("title", "a")]).pretty).reply =
        some (.result (.number 1) (Tool.Result.ok text).toJson.sortKeys) ∧
      valueOf? text = some (.object [("component", .string "Card"),
        ("importStatement", .string "import \x7b Card \x7d from \"@ui/card\""),
        ("snippet", .string "<Card size=\"lg\" title=\"a\" tone=\"b\">Card</Card>")]) := by
  obtain ⟨arguments, hrequest, hreply⟩ :=
    reply_of_asks (h := running) cardCatalog rfl (asks_cardCall [("tone", "b"), ("title", "a")])
  have hfound : cardCatalog.find? "card" = some card := rfl
  obtain ⟨hok, hvalue⟩ := Catalog.snippet_shown hrequest hfound
  have hrender : (cardRequest [("tone", "b"), ("title", "a")]).render card =
      "<Card size=\"lg\" title=\"a\" tone=\"b\">Card</Card>" := by cbv
  rw [hrender] at hvalue
  refine ⟨writtenAttributes?_cardCall _, by cbv, _, ?_, hvalue⟩
  rw [hreply, Tool.Result.ok, ← hok]

end Rpc

end UiCatalog
