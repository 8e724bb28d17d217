import UiCatalog.Proofs.CatalogViews
import UiCatalog.Proofs.Gathering
import UiCatalog.Proofs.Properties

/-!
# Components are found under their names

A component is listed under the name that its directory gives it, and asked for by that name. The first component
of a name answers to it, so one whose name comes again, up to the case of ASCII letters, is listed and not found.
-/
namespace UiCatalog

open Text FileTree

namespace Text

variable {s t : String}

lemma eqIgnoreAsciiCase_iff : eqIgnoreAsciiCase s t = true ↔ asciiLower s.toList = asciiLower t.toList := beq_iff_eq

lemma eqIgnoreAsciiCase_self (s : String) : eqIgnoreAsciiCase s s = true := eqIgnoreAsciiCase_iff.2 rfl

/-! ## Names up to case -/

def IsAscii (s : List Char) : Prop := ∀ c ∈ s, c.toNat < 0x80

instance : DecidablePred IsAscii := fun s => inferInstanceAs (Decidable (∀ c ∈ s, c.toNat < 0x80))

lemma asciiLower_upperChar {c : Char} (h : c.toNat < 0x80) : asciiLower (upperChar c) = [c.toLower] := by
  have hlower : c.toUpper.toLower = c.toLower :=
    forall_ascii (p := fun c => c.toUpper.toLower = c.toLower) (by decide) h
  rw [upperChar, if_pos h, asciiLower, List.map_singleton, hlower]

lemma asciiLower_append (s t : List Char) : asciiLower (s ++ t) = asciiLower s ++ asciiLower t := List.map_append

/-- Capitals change nothing but the case. -/
lemma asciiLower_capitaliseAfter {s : List Char} (h : IsAscii s) (atStart : Bool) :
    asciiLower (capitaliseAfter atStart s) = asciiLower (s.filter (!isNameSeparator ·)) := by
  induction s generalizing atStart with
  | nil => rfl
  | cons c s ih =>
    obtain ⟨hc, hs⟩ := List.forall_mem_cons.1 h
    rw [capitaliseAfter, List.filter_cons]
    by_cases hseparator : isNameSeparator c = true
    · simp [hseparator, ih hs]
    · have hletter : asciiLower (if atStart then upperChar c else [c]) = [c.toLower] := by
        split_ifs
        · exact asciiLower_upperChar hc
        · rfl
      simp only [hseparator, Bool.false_eq_true, if_false, Bool.not_false, if_true, asciiLower_append, hletter, ih hs]
      rfl

end Text

/-- Two directory names in ASCII give one component name, up to case, just when they have the same letters in any
case between their separators. -/
lemma eq_componentName_iff {a b : String} (ha : IsAscii a.toList) (hb : IsAscii b.toList) :
    eqIgnoreAsciiCase (componentName a) (componentName b) = true ↔
      asciiLower (a.toList.filter (!isNameSeparator ·)) = asciiLower (b.toList.filter (!isNameSeparator ·)) := by
  rw [eqIgnoreAsciiCase_iff, componentName, componentName, String.toList_ofList, String.toList_ofList,
    asciiLower_capitaliseAfter ha, asciiLower_capitaliseAfter hb]

/-! ## A descriptor keeps its name -/

namespace Descriptor

lemma name_build (source : List Char) (name package : String) : (build source name package).name = name := by
  rw [build_frame (·.name) (fun _ _ => rfl) (fun _ _ => rfl) (fun _ _ _ => rfl) fun _ _ _ => rfl]

lemma name_mergeDemo (d : Descriptor) (demo : Option DemoPage) : (d.mergeDemo demo).name = d.name := by
  cases demo <;> rfl

end Descriptor

namespace Project

variable {p : Project} {t : FileTree} {directory : Path} {d : Descriptor} {time : String} {catalog : Catalog}

lemma name_describeSource (p : Project) (source name : String) : (p.describeSource source name).name = name := by
  unfold describeSource
  split_ifs
  · exact Descriptor.name_build _ _ _
  · exact Descriptor.name_build _ _ _

lemma name_of_descriptor? (h : (p.outcome t directory).descriptor? = some d) :
    d.name = componentName (stem directory) := by
  unfold outcome Outcome.descriptor? describe at h
  dsimp only at h
  split at h
  · cases h
  · split at h
    · cases h
    · cases h
    · rw [Except.toOption, Option.join_some, Option.some.injEq] at h
      rw [← h, located, Descriptor.name_mergeDemo, name_describeSource]

/-! ## Finding a component -/

/-- What is asked for under the name of a component is that component. -/
structure Reached (catalog : Catalog) (d : Descriptor) : Prop where
  found : catalog.find? d.name = some d
  component : Catalog.Shows (Tool.call catalog "get_component" (Catalog.nameArgument d.name)) d.toJson.sortKeys
  resource : ∃ r, Resource.read? catalog (Resource.scheme ++ d.name) = some r ∧
    Json.valueOf? r.text = some d.toJson.sortKeys

/-- A directory holds a component with the name of another one's, up to the case of ASCII letters. -/
def shadows (p : Project) (t : FileTree) (first directory : Path) : Bool :=
  (p.outcome t first).descriptor?.isSome &&
    eqIgnoreAsciiCase (componentName (stem first)) (componentName (stem directory))

/-- For names in ASCII only the letters between the separators count, in any case. -/
lemma shadows_iff_of_ascii {first : Path} (hfirst : IsAscii (stem first).toList)
    (hdirectory : IsAscii (stem directory).toList) : p.shadows t first directory = true ↔
      (p.outcome t first).descriptor?.isSome ∧ asciiLower ((stem first).toList.filter (!isNameSeparator ·)) =
        asciiLower ((stem directory).toList.filter (!isNameSeparator ·)) := by
  rw [shadows, Bool.and_eq_true, eq_componentName_iff hfirst hdirectory]

lemma reached_of_find? (h : catalog.find? d.name = some d) : Reached catalog d where
  found := h
  component := Catalog.component_shown h
  resource := Catalog.resource_shown h

/-- The first directory whose component has the name answers to it. -/
lemma find?_of_first {before after : List Path} {first : Path} {e : Descriptor} (hcomponents : catalog.components =
      (before ++ first :: after).filterMap fun directory => (p.outcome t directory).descriptor?)
    (hbefore : ∀ earlier ∈ before, p.shadows t earlier directory = false)
    (he : (p.outcome t first).descriptor? = some e)
    (hname : eqIgnoreAsciiCase (componentName (stem first)) (componentName (stem directory)) = true) :
    catalog.find? (componentName (stem directory)) = some e := by
  rw [filterMap_middle, he] at hcomponents
  rw [Catalog.find?, hcomponents, List.find?_eq_some_iff_append]
  refine ⟨?_, _, _, rfl, fun e' he' => ?_⟩
  · rwa [name_of_descriptor? he]
  · obtain ⟨earlier, hearlier, he'⟩ := List.mem_filterMap.1 he'
    have hother := hbefore earlier hearlier
    rw [shadows, he', Option.isSome_some, Bool.true_and] at hother
    rw [name_of_descriptor? he', hother]
    rfl

lemma find?_of_shadows {before after : List Path} {first : Path} (hcomponents : catalog.components =
      (before ++ after).filterMap fun directory => (p.outcome t directory).descriptor?)
    (hfirst : before.find? (p.shadows t · directory) = some first) :
    catalog.find? (componentName (stem directory)) = (p.outcome t first).descriptor? := by
  obtain ⟨hshadows, earlier, later, hbefore, hearlier⟩ := List.find?_eq_some_iff_append.1 hfirst
  obtain ⟨hholds, hname⟩ := Bool.and_eq_true_iff.1 hshadows
  obtain ⟨e, he⟩ := Option.isSome_iff_exists.1 hholds
  rw [hbefore, List.append_assoc, List.cons_append] at hcomponents
  rw [he]
  refine find?_of_first hcomponents (fun directory' h => ?_) he hname
  rw [← Bool.not_eq_true']
  exact hearlier directory' h

/-! ## The listing -/

lemma member?_name_summary (d : Descriptor) : (Tool.summary d).sortKeys.member? "name" = some (.string d.name) := by
  rw [Tool.summary, Json.member?_sortKeys (by simp)]
  rfl

lemma listed_names (catalog : Catalog) (arguments : Json) : ∃ listed,
    Catalog.Shows (Tool.call catalog "list_components" arguments) (.array listed) ∧
    listed.map (Json.member? "name") = catalog.components.map fun d => some (.string d.name) := by
  refine ⟨_, Catalog.summaries_shown catalog arguments, ?_⟩
  rw [List.map_map]
  exact List.map_congr_left fun d _ => member?_name_summary d

/-- Every listed component is found under its name, unless an earlier directory has a component of that name; then
the first such component is found. -/
theorem listed_found (h : (p.gather t time).1 = .ok catalog) : ∃ directories, p.directories t = .ok directories ∧
    catalog.components = directories.filterMap (fun directory => (p.outcome t directory).descriptor?) ∧
    (∀ arguments, ∃ listed, Catalog.Shows (Tool.call catalog "list_components" arguments) (.array listed) ∧
      listed.map (Json.member? "name") = catalog.components.map fun d => some (.string d.name)) ∧
    ∀ before directory after d, directories = before ++ directory :: after →
      (p.outcome t directory).descriptor? = some d → d.name = componentName (stem directory) ∧
        ((∀ earlier ∈ before, p.shadows t earlier directory = false) → Reached catalog d) ∧
        ∀ first, before.find? (p.shadows t · directory) = some first →
          catalog.find? d.name = (p.outcome t first).descriptor? := by
  rw [gather_fst] at h
  cases hdirectories : p.directories t with
  | error e =>
    rw [hdirectories] at h
    cases h
  | ok directories =>
    rw [hdirectories, Except.map, Except.ok.injEq] at h
    subst h
    refine ⟨directories, rfl, rfl, listed_names _, ?_⟩
    rintro before directory after d rfl hd
    have hname := name_of_descriptor? hd
    refine ⟨hname, fun hbefore => reached_of_find? ?_, fun first hfirst => ?_⟩
    · rw [hname]
      exact find?_of_first rfl hbefore hd (eqIgnoreAsciiCase_self _)
    · rw [hname]
      exact find?_of_shadows rfl hfirst

/-- Components of which two have names that differ in case alone. -/
def aliasedComponents : FileTree where
  entries := [(["ui"], .directory), (["ui", "alert-dialog"], .directory),
    (["ui", "alert-dialog", "AlertDialog.tsx"], .file []), (["ui", "alertdialog"], .directory),
    (["ui", "alertdialog", "Alertdialog.tsx"], .file [])]

lemma subdirectories_aliasedComponents :
    aliasedComponents.subdirectories ["ui"] = ["alert-dialog", "alertdialog"] := by
  have hlt : "alert-dialog" < "alertdialog" := by rw [String.lt_iff_toList_lt]; decide
  refine subdirectories_pair hlt rfl rfl fun name hdashed hplain => ?_
  simp [isDirectoryAt, entry?, aliasedComponents, List.lookup_cons, beq_false_of_ne hdashed, beq_false_of_ne hplain]

lemma exists_descriptor (component : String) (path : Path) (hname : componentName (stem directory) = component)
    (hsource : source? t directory component = some path) (htext : t.text? path = some "")
    (hdemo : p.demo? t directory component = none) : ∃ d, (p.outcome t directory).descriptor? = some d := by
  rw [← Option.ne_none_iff_exists', Ne, descriptor?_eq_none_iff, hname]
  simp [Lost, hsource, htext, hdemo]

lemma gather_aliasedComponents : ∃ dashed plain,
    uiProject.directories aliasedComponents = .ok [⟨"ui/alert-dialog"⟩, ⟨"ui/alertdialog"⟩] ∧
    (uiProject.outcome aliasedComponents ⟨"ui/alert-dialog"⟩).descriptor? = some dashed ∧
    (uiProject.outcome aliasedComponents ⟨"ui/alertdialog"⟩).descriptor? = some plain ∧
    (uiProject.gather aliasedComponents "now").1 = .ok (Catalog.ofComponents "now" [dashed, plain]) := by
  have hplace : aliasedComponents.locate? uiProject.componentsDir = some ["ui"] := by decide
  have hbase : uiProject.componentsDir.listed? = some ⟨"ui"⟩ := by decide
  have hdirectories :
      uiProject.directories aliasedComponents = .ok [⟨"ui/alert-dialog"⟩, ⟨"ui/alertdialog"⟩] := by
    rw [directories_of_listed hplace (by decide) hbase, subdirectories_aliasedComponents]
    rfl
  obtain ⟨dashed, hdashed⟩ : ∃ d, (uiProject.outcome aliasedComponents ⟨"ui/alert-dialog"⟩).descriptor? = some d :=
    exists_descriptor "AlertDialog" ⟨"ui/alert-dialog/AlertDialog.tsx"⟩ (by decide) (by decide) (by decide) (by decide)
  obtain ⟨plain, hplain⟩ : ∃ d, (uiProject.outcome aliasedComponents ⟨"ui/alertdialog"⟩).descriptor? = some d :=
    exists_descriptor "Alertdialog" ⟨"ui/alertdialog/Alertdialog.tsx"⟩ (by decide) (by decide) (by decide) (by decide)
  refine ⟨dashed, plain, hdirectories, hdashed, hplain, ?_⟩
  rw [gather_fst, hdirectories, Except.map]
  simp [hdashed, hplain]

/-- One of them is found under both names. -/
theorem listed_found_of_alias : ∃ catalog dashed plain, (uiProject.gather aliasedComponents "now").1 = .ok catalog ∧
    catalog.components = [dashed, plain] ∧ plain.name = "Alertdialog" ∧ Reached catalog dashed ∧
    catalog.find? plain.name = some dashed := by
  obtain ⟨dashed, plain, hlisted, hdashed, hplain, hgather⟩ := gather_aliasedComponents
  obtain ⟨directories, hdirectories, hcomponents, -, hfound⟩ := listed_found hgather
  obtain rfl := Except.ok.inj (hlisted.symm.trans hdirectories)
  obtain ⟨-, hreached, -⟩ := hfound [] _ [⟨"ui/alertdialog"⟩] dashed rfl hdashed
  obtain ⟨hname, -, hshadowed⟩ := hfound [⟨"ui/alert-dialog"⟩] _ [] plain rfl hplain
  have hshadows : uiProject.shadows aliasedComponents ⟨"ui/alert-dialog"⟩ ⟨"ui/alertdialog"⟩ = true :=
    (shadows_iff_of_ascii (by decide) (by decide)).2 ⟨by rw [hdashed]; rfl, by decide⟩
  refine ⟨_, dashed, plain, hgather, rfl, hname.trans (by decide), hreached (by simp), ?_⟩
  rw [hshadowed _ (List.find?_cons_of_pos hshadows), hdashed]

/-- A component whose name comes again in another case is listed, and another one is found under its name. -/
theorem alias_not_found : ∃ catalog dashed plain, (uiProject.gather aliasedComponents "now").1 = .ok catalog ∧
    plain ∈ catalog.components ∧ catalog.find? plain.name = some dashed ∧ dashed ≠ plain := by
  obtain ⟨dashed, plain, -, hdashed, hplain, hgather⟩ := gather_aliasedComponents
  have hdashedName : dashed.name = "AlertDialog" := (name_of_descriptor? hdashed).trans (by decide)
  have hplainName : plain.name = "Alertdialog" := (name_of_descriptor? hplain).trans (by decide)
  refine ⟨_, dashed, plain, hgather, by simp [Catalog.ofComponents], ?_, ?_⟩
  · rw [Catalog.find?, Catalog.ofComponents]
    refine List.find?_cons_of_pos ?_
    rw [hdashedName, hplainName]
    decide
  · rintro rfl
    rw [hdashedName] at hplainName
    exact absurd hplainName (by decide)

end Project

end UiCatalog
