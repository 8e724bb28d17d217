import UiCatalog.Proofs.CatalogViews
import UiCatalog.Proofs.RecordFields

/-!
# The order of variant categories

A component keeps its variant categories and its defaults in the order of the source. The whole description of a
component is written in that order. The properties of a component and its resource are written with sorted keys, so that
they show the categories in the order of the source just when that is the order of their names.
-/
namespace UiCatalog

open Json

namespace Json

/-- The keys of an object in the order in which they are written. -/
def Written.keys? : Written → Option (List String)
  | .object members => members.mapM fun m => Written.text? m.1
  | _ => none

/-- The keys of the object that a JSON text has under a key of its own, in the order in which they are written. -/
def writtenKeys? (text key : String) : Option (List String) := do
  let w ← Written.ofText? text
  let value ← w.field? [] key
  value.keys?

variable {members inner : List (String × Json)} {key : String}

lemma find?_eq_lookup {α : Type} (members : List (String × α)) (key : String) :
    members.find? (fun m => m.1 == key) = (members.lookup key).map (Prod.mk key) := by
  induction members with
  | nil => rfl
  | cons m ms ih =>
    rw [lookup_cons_ite]
    by_cases h : m.1 = key
    · subst h
      simp
    · have hne : ¬ key = m.1 := fun heq => h heq.symm
      simp [h, hne, ih]

lemma keys?_tree (members : List (String × Json)) : (object members).tree.keys? = some (members.map Prod.fst) := by
  rw [tree, Written.keys?, memberTrees_eq_map]
  induction members with
  | nil => rfl
  | cons m ms ih =>
    rw [List.map_cons, List.mapM_cons, ih, text?_pieces]
    rfl

lemma field?_tree (members : List (String × Json)) (names : List String) (key : String) :
    (object members).tree.field? names key = (members.reverse.lookup key).map tree := by
  have htext (m : String × Json) : (Written.text? (pieces m.1) == some key) = (m.1 == key) := by
    rw [text?_pieces]
    rfl
  rw [tree, Written.field?, memberTrees_eq_map, ← List.map_reverse, List.find?_map]
  simp only [Function.comp_def, htext, find?_eq_lookup, Option.map_map]

/-- A text shows the keys of an object in the order of its members. -/
lemma writtenKeys?_pretty (hfits : (object members).Fits) (hdistinct : (members.map Prod.fst).Nodup)
    (h : members.lookup key = some (object inner)) :
    writtenKeys? (object members).pretty key = some (inner.map Prod.fst) := by
  simp only [writtenKeys?, ofText?_pretty hfits, Option.bind_eq_bind, Option.bind_some, field?_tree,
    lookup_reverse hdistinct, h, Option.map_some, keys?_tree]

lemma keys_sortMembers {α : Type} {members : List (String × α)} (hdistinct : (members.map Prod.fst).Nodup) :
    (sortMembers members).map Prod.fst = (members.map Prod.fst).mergeSort := by
  have hsorted : ((sortMembers members).map Prod.fst).Pairwise (· ≤ ·) :=
    List.pairwise_map.2 ((sorted_sortMembers members).imp le_of_lt)
  have hmerged : (members.map Prod.fst).mergeSort.Pairwise (· ≤ ·) := List.pairwise_mergeSort' _ _
  have hperm : ((sortMembers members).map Prod.fst).Perm (members.map Prod.fst).mergeSort :=
    ((perm_sortMembers hdistinct).map _).trans (List.mergeSort_perm _ _).symm
  exact hperm.eq_of_pairwise (fun _ _ _ _ => le_antisymm) hsorted hmerged

/-- With sorted keys it shows them in the order of their names. -/
lemma writtenKeys?_sortKeys (hfits : (object members).Fits) (hdistinct : (members.map Prod.fst).Nodup)
    (h : members.lookup key = some (object inner)) (hinner : (inner.map Prod.fst).Nodup) :
    writtenKeys? (object members).sortKeys.pretty key = some (inner.map Prod.fst).mergeSort := by
  have hmember := member?_sortKeys hdistinct key
  have hsorted := sorted_sortMembers (sortValues members)
  have hkeys : (sortValues inner).map Prod.fst = inner.map Prod.fst := by
    rw [sortValues_eq_map, List.map_map]
    rfl
  have hfits' := fits_sortKeys hfits
  rw [h, Option.map_some, sortKeys, sortKeys, member?] at hmember
  rw [sortKeys] at hfits' ⊢
  rw [writtenKeys?_pretty hfits' (nodup_of_sorted hsorted) hmember, keys_sortMembers (hkeys ▸ hinner), hkeys]

end Json

namespace Catalog

open Tool

/-- A text shows the categories and the defaults of a component in these orders. -/
def ShowsOrder (text : String) (categories defaults : List String) : Prop :=
  writtenKeys? text "variants" = some categories ∧ writtenKeys? text "defaultVariants" = some defaults

variable {catalog : Catalog} {name : String} {d : Descriptor} {arguments : Json}

lemma mergeSort_eq_self_iff {keys : List String} (hdistinct : keys.Nodup) :
    keys.mergeSort = keys ↔ keys.Pairwise (· < ·) := by
  constructor
  · intro h
    have hsorted : keys.mergeSort.Pairwise (· ≤ ·) := List.pairwise_mergeSort' _ _
    rw [h] at hsorted
    exact (hsorted.and hdistinct).imp fun hboth => lt_of_le_of_ne hboth.1 hboth.2
  · intro h
    exact List.mergeSort_of_pairwise (h.imp fun hlt => by simpa using le_of_lt hlt)

/-- A text that shows the keys by name shows them in their own order if that is the order of their names. -/
lemma ShowsOrder.iff {text : String} {categories defaults : List String} (hcategories : categories.Nodup)
    (hdefaults : defaults.Nodup) (h : ShowsOrder text categories.mergeSort defaults.mergeSort) :
    ShowsOrder text categories defaults ↔ categories.Pairwise (· < ·) ∧ defaults.Pairwise (· < ·) := by
  rw [ShowsOrder, h.1, h.2, Option.some.injEq, Option.some.injEq, mergeSort_eq_self_iff hcategories,
    mergeSort_eq_self_iff hdefaults]

/-- A field with a map shows its keys in their own order, and with sorted keys by name. -/
lemma writtenKeys?_map {α : Type} {members : List (String × Json)} {key : String} {m : OrderedMap α} {f : α → Json}
    (hfits : (Json.object members).Fits) (hdistinct : (members.map Prod.fst).Nodup)
    (h : members.lookup key = some (.object (m.entries.map fun e => (e.1, f e.2)))) :
    writtenKeys? (Json.object members).pretty key = some m.keys ∧
      writtenKeys? (Json.object members).sortKeys.pretty key = some m.keys.mergeSort := by
  have hkeys : (m.entries.map fun e => (e.1, f e.2)).map Prod.fst = m.keys := by
    rw [List.map_map]
    rfl
  rw [← hkeys]
  exact ⟨writtenKeys?_pretty hfits hdistinct h, writtenKeys?_sortKeys hfits hdistinct h (hkeys ▸ m.distinct)⟩

lemma showsOrder_members {members : List (String × Json)} (hfits : (Json.object members).Fits)
    (hdistinct : (members.map Prod.fst).Nodup) (hvariants : members.lookup "variants" = some (variantsJson d.variants))
    (hdefaults : members.lookup "defaultVariants" = some (defaultVariantsJson d.defaultVariants)) :
    ShowsOrder (Json.object members).pretty d.variants.keys d.defaultVariants.keys ∧
    ShowsOrder (Json.object members).sortKeys.pretty d.variants.keys.mergeSort d.defaultVariants.keys.mergeSort := by
  obtain ⟨hcategories, hsortedCategories⟩ := writtenKeys?_map (f := Json.strings) hfits hdistinct hvariants
  obtain ⟨hown, hsortedDefaults⟩ := writtenKeys?_map (f := Json.string) hfits hdistinct hdefaults
  exact ⟨⟨hcategories, hown⟩, hsortedCategories, hsortedDefaults⟩

lemma showsOrder_toJson (d : Descriptor) : ShowsOrder d.toJson.pretty d.variants.keys d.defaultVariants.keys ∧
    ShowsOrder d.toJson.sortKeys.pretty d.variants.keys.mergeSort d.defaultVariants.keys.mergeSort := by
  have hlookup (key : String) (v : Json) (hfixed : d.fixedMembers.lookup key = some v) :
      d.members.lookup key = some v := by
    rw [Descriptor.members, List.lookup_append, hfixed, Option.some_or]
  rw [d.toJson_eq]
  exact showsOrder_members (d.toJson_eq ▸ d.fits_toJson) (d.sublist_members.nodup (by decide))
    (hlookup "variants" _ rfl) (hlookup "defaultVariants" _ rfl)

lemma showsOrder_properties (d : Descriptor) :
    ShowsOrder (propertiesAnswer d).text d.variants.keys.mergeSort d.defaultVariants.keys.mergeSort := by
  have hfits := properties_eq_restrict d ▸ fits_restrict d.fits_toJson
    ["name", "importStatement", "props", "variants", "defaultVariants"]
  exact (showsOrder_members hfits (by simp) rfl rfl).2

lemma read?_component (h : catalog.find? name = some d) : Resource.read? catalog (Resource.scheme ++ name) =
    some ⟨Resource.scheme ++ name, Resource.jsonType, d.toJson.sortKeys.pretty⟩ := by
  rw [Resource.read?, value?_scheme_append, h]
  rfl

/--
The whole description of a component shows its categories and its defaults in their own order. Its properties and its
resource show them by name, which is their own order if and only if they stand in it by name.
-/
theorem categories_shown (hname : arguments.member? "name" = some (.string name)) (h : catalog.find? name = some d) :
    ShowsOrder (call catalog "get_component" arguments).text d.variants.keys d.defaultVariants.keys ∧
    ∃ r, Resource.read? catalog (Resource.scheme ++ name) = some r ∧
      ∀ text ∈ [(call catalog "get_component_props" arguments).text, r.text],
        ShowsOrder text d.variants.keys.mergeSort d.defaultVariants.keys.mergeSort ∧
        (ShowsOrder text d.variants.keys d.defaultVariants.keys ↔
          d.variants.keys.Pairwise (· < ·) ∧ d.defaultVariants.keys.Pairwise (· < ·)) := by
  have hdescription : (call catalog "get_component" arguments).text = d.toJson.pretty := by
    rw [call_component, withComponent_found hname h]
    rfl
  obtain ⟨howner, hsorted⟩ := showsOrder_toJson d
  rw [hdescription, call_properties, withComponent_found hname h, read?_component h]
  refine ⟨howner, _, rfl, ?_⟩
  simp only [List.forall_mem_cons]
  refine ⟨⟨showsOrder_properties d, ?_⟩, ⟨hsorted, ?_⟩, by simp⟩
  · exact (showsOrder_properties d).iff d.variants.distinct d.defaultVariants.distinct
  · exact hsorted.iff d.variants.distinct d.defaultVariants.distinct

/-- A component whose categories stand by name. -/
def sizedCard : Descriptor where
  name := "Card"
  variants := ⟨[("size", ["sm", "lg"]), ("tone", ["b", "a"])], by decide⟩
  defaultVariants := ⟨[("tone", "b")], by decide⟩

def sizedCatalog : Catalog := { totalComponents := 1, components := [sizedCard] }

theorem categories_shown_of_sized :
    (nameArgument "cARD").member? "name" = some (.string "cARD") ∧ sizedCatalog.find? "cARD" = some sizedCard ∧
    sizedCard.variants.keys = ["size", "tone"] ∧
    ShowsOrder (call sizedCatalog "get_component" (nameArgument "cARD")).text ["size", "tone"] ["tone"] ∧
    ShowsOrder (call sizedCatalog "get_component_props" (nameArgument "cARD")).text ["size", "tone"] ["tone"] ∧
    ∃ r, Resource.read? sizedCatalog (Resource.scheme ++ "cARD") = some r ∧
      ShowsOrder r.text ["size", "tone"] ["tone"] := by
  have hname : (nameArgument "cARD").member? "name" = some (.string "cARD") := rfl
  have hfound : sizedCatalog.find? "cARD" = some sizedCard := rfl
  obtain ⟨hdescription, r, hread, htexts⟩ := categories_shown hname hfound
  have hsorted : sizedCard.variants.keys.Pairwise (· < ·) ∧ sizedCard.defaultVariants.keys.Pairwise (· < ·) :=
    ⟨List.pairwise_pair.2 (by rw [String.lt_iff_toList_lt]; decide), List.pairwise_singleton _ _⟩
  have hown {text : String} (hmem : text ∈ _) := (htexts text hmem).2.2 hsorted
  exact ⟨hname, hfound, rfl, hdescription, hown (.head _), r, hread, hown (.tail _ (.head _))⟩

/-- The properties and the resource of a component show two categories in another order than it has them. -/
theorem categories_reordered : ∃ d r, compoundCatalog.find? "Card" = some d ∧ d.variants.keys = ["tone", "size"] ∧
    writtenKeys? (call compoundCatalog "get_component_props" (nameArgument "Card")).text "variants" =
      some ["size", "tone"] ∧
    Resource.read? compoundCatalog (Resource.scheme ++ "Card") = some r ∧
    writtenKeys? r.text "variants" = some ["size", "tone"] := by
  have hname : (nameArgument "Card").member? "name" = some (.string "Card") := rfl
  obtain ⟨d, hfound⟩ : ∃ d, compoundCatalog.find? "Card" = some d := ⟨_, rfl⟩
  have hkeys : d.variants.keys = ["tone", "size"] := by
    obtain rfl := Option.some.inj hfound
    rfl
  have hsorted : d.variants.keys.mergeSort = ["size", "tone"] := by
    rw [hkeys]
    cbv
  have hproperties := (showsOrder_properties d).1
  have hresource := (showsOrder_toJson d).2.1
  rw [hsorted] at hproperties hresource
  rw [call_properties, withComponent_found hname hfound, read?_component hfound]
  exact ⟨d, _, hfound, hkeys, hproperties, rfl, hresource⟩

end Catalog

end UiCatalog
