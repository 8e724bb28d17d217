import UiCatalog.Proofs.CatalogText
import UiCatalog.Resource

/-!
# The views of a catalog

The tools and the resources write the same components on their own, some in the order of the fields and some
with sorted keys, some all of a component and some a part of it. As JSON values they agree.
-/
namespace UiCatalog

open Json

namespace Json

/-! ## Values that a text can hold -/

lemma fits_sortKeys {v : Json} (h : v.Fits) : v.sortKeys.Fits := by
  induction v using inductionOn with
  | null | bool | number | string => exact h
  | array items ih =>
    rw [Fits, itemsFit_iff] at h
    rw [sortKeys, Fits, itemsFit_iff, sortItems_eq_map, List.forall_mem_map]
    exact fun v hv => ih v hv (h v hv)
  | object members ih =>
    rw [Fits, membersFit_iff] at h
    rw [sortKeys, Fits, membersFit_iff]
    intro m hm
    obtain ⟨m', hm', rfl⟩ := exists_of_mem_sorted hm
    exact ih m' hm' (h m' hm')

lemma fits_restrict {v : Json} (h : v.Fits) (keys : List String) : (v.restrict keys).Fits := by
  cases v with
  | object members =>
    rw [Fits, membersFit_iff] at h
    rw [restrict, Fits, membersFit_iff]
    intro m hm
    exact h m (List.mem_of_mem_filter hm)
  | _ => exact h

lemma fits_map {α : Type} {f : α → Json} (hf : ∀ a, (f a).Fits) (items : List α) : (Json.array (items.map f)).Fits := by
  rw [Fits, itemsFit_iff, List.forall_mem_map]
  exact fun a _ => hf a

end Json

/-! ## What a call answers -/

namespace Tool

variable {catalog : Catalog} {name : String} {d : Descriptor} {arguments : Json}

lemma call_component (catalog : Catalog) (arguments : Json) :
    call catalog "get_component" arguments = withComponent catalog arguments componentAnswer := rfl

lemma call_properties (catalog : Catalog) (arguments : Json) :
    call catalog "get_component_props" arguments = withComponent catalog arguments propertiesAnswer := rfl

lemma call_snippet (catalog : Catalog) (arguments : Json) :
    call catalog "generate_snippet" arguments = generateSnippet catalog arguments := rfl

lemma withComponent_found (hname : arguments.member? "name" = some (.string name)) (h : catalog.find? name = some d)
    (answer : Descriptor → Result) : withComponent catalog arguments answer = answer d := by
  rw [withComponent, hname]
  simp only [Option.bind_some, text?, h]

end Tool

namespace Catalog

open Tool

/-- A call succeeds, and its text has the value. -/
def Shows (r : Result) (v : Json) : Prop := r.isError = false ∧ valueOf? r.text = some v

def nameArgument (name : String) : Json := .object [("name", .string name)]

variable {catalog : Catalog} {name : String} {d : Descriptor} {v : Json}

lemma shows_json (h : v.Fits) : Shows (.json v) v.sortKeys := ⟨rfl, valueOf?_pretty h⟩

/-- The order of the keys in which a value is written makes no difference. -/
lemma shows_sorted (h : v.Fits) : Shows (.json v.sortKeys) v.sortKeys := by
  have hshows := shows_json (fits_sortKeys h)
  rwa [sortKeys_sortKeys] at hshows

/-! ## One component -/

lemma properties_eq_restrict (d : Descriptor) :
    .object [("name", .string d.name), ("importStatement", .string d.importStatement),
      ("props", .array (d.properties.map Property.toJson)), ("variants", variantsJson d.variants),
      ("defaultVariants", defaultVariantsJson d.defaultVariants)] =
    d.toJson.restrict ["name", "importStatement", "props", "variants", "defaultVariants"] := by
  rw [Descriptor.toJson_eq, restrict, Descriptor.members, List.filter_append]
  split_ifs <;> simp [Descriptor.fixedMembers]

lemma examples_eq_restrict (d : Descriptor) :
    .object [("name", .string d.name), ("examples", .array (d.examples.map Example.toJson))] =
    d.toJson.restrict ["name", "examples"] := by
  rw [Descriptor.toJson_eq, restrict, Descriptor.members, List.filter_append]
  split_ifs <;> simp [Descriptor.fixedMembers]

lemma value?_scheme_append (catalog : Catalog) (name : String) :
    Resource.value? catalog (Resource.scheme ++ name) =
      match catalog.find? name with
      | some d => some d.toJson
      | none => if Resource.scheme ++ name = Resource.listingUri then some (Resource.listing catalog) else none := by
  have hstrip : Text.stripStart? Resource.scheme.toList (Resource.scheme ++ name).toList = some name.toList := by
    rw [String.toList_append, Text.stripStart?, if_pos (List.isPrefixOf_iff_prefix.2 (List.prefix_append _ _)),
      List.drop_left]
  cases hfind : catalog.find? name <;>
    simp only [Resource.value?, hstrip, Option.bind_eq_bind, Option.bind_some, String.ofList_toList, hfind]

lemma component_shown (h : catalog.find? name = some d) :
    Shows (call catalog "get_component" (nameArgument name)) d.toJson.sortKeys := by
  rw [call_component, withComponent_found rfl h]
  exact shows_json d.fits_toJson

lemma resource_shown (h : catalog.find? name = some d) :
    ∃ r, Resource.read? catalog (Resource.scheme ++ name) = some r ∧ valueOf? r.text = some d.toJson.sortKeys := by
  rw [Resource.read?, value?_scheme_append, h]
  exact ⟨_, rfl, (shows_sorted d.fits_toJson).2⟩

lemma snippet_shown {arguments : Json} {request : SnippetRequest}
    (hrequest : SnippetRequest.decode arguments = .ok request) (h : catalog.find? request.componentName = some d) :
    Shows (call catalog "generate_snippet" arguments)
      (.object [("component", .string d.name), ("importStatement", .string d.importStatement),
        ("snippet", .string (request.render d))]) := by
  have hanswer : generateSnippet catalog arguments = snippetAnswer request d := by
    rw [generateSnippet, hrequest]
    dsimp only
    rw [h]
  have hsorted : Sorted [("component", Json.string d.name), ("importStatement", .string d.importStatement),
      ("snippet", .string (request.render d))] := by
    have hcomponent : "component" < "importStatement" := by rw [String.lt_iff_toList_lt]; decide
    have himport : "importStatement" < "snippet" := by rw [String.lt_iff_toList_lt]; decide
    simp only [Sorted, List.pairwise_cons, List.forall_mem_cons]
    exact ⟨⟨hcomponent, hcomponent.trans himport, by simp⟩, ⟨himport, by simp⟩, by simp⟩
  have hkeys := sortKeys_of_sorted hsorted (by simp [sortKeys])
  have hshows := shows_sorted (v := .object [("component", .string d.name),
    ("importStatement", .string d.importStatement), ("snippet", .string (request.render d))]) (by simp [Fits])
  rw [call_snippet, hanswer, snippetAnswer]
  rwa [hkeys] at hshows ⊢

lemma fits_summaries (catalog : Catalog) : (Json.array (catalog.components.map summary)).Fits :=
  fits_map (fun d => by simp [summary, Json.strings, Fits]) _

lemma sortKeys_summaries (catalog : Catalog) : (Json.array (catalog.components.map summary)).sortKeys =
    .array (catalog.components.map fun d => (summary d).sortKeys) := by
  rw [sortKeys, sortItems_eq_map, List.map_map]
  rfl

lemma summaries_shown (catalog : Catalog) (arguments : Json) :
    Shows (call catalog "list_components" arguments)
      (.array (catalog.components.map fun d => (summary d).sortKeys)) := by
  have hshows := shows_json (fits_summaries catalog)
  rwa [sortKeys_summaries] at hshows

end Catalog

end UiCatalog
