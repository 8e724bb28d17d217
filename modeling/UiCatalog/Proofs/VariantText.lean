import UiCatalog.Proofs.ObjectText
import UiCatalog.VariantConfig

/-!
# Style configurations as they may be written

The arguments of a `cva` call in every layout: a literal with the base classes, and an object literal with the
categories and the defaults. The arguments of a configuration read as that configuration.
-/
namespace UiCatalog

open Text Code

namespace OrderedMap

variable {α : Type} {key : String} {value : α} {entries : List (String × α)}

lemma put_of_not_mem (h : key ∉ entries.map Prod.fst) : put key value entries = entries ++ [(key, value)] := by
  induction entries with
  | nil => rfl
  | cons e rest ih =>
    rw [List.map_cons, List.mem_cons, not_or] at h
    rw [put, if_neg (Ne.symm h.1), ih h.2, List.cons_append]

lemma entries_foldl_insert (m : OrderedMap α) (entries : List (String × α))
    (h : ((m.entries ++ entries).map Prod.fst).Nodup) :
    (entries.foldl (fun m e => m.insert e.1 e.2) m).entries = m.entries ++ entries := by
  induction entries generalizing m with
  | nil => simp
  | cons e rest ih =>
    have hput : (m.insert e.1 e.2).entries = m.entries ++ [e] := by
      refine put_of_not_mem fun hmem => ?_
      rw [List.map_append, List.nodup_append] at h
      exact h.2.2 _ hmem _ (by simp) rfl
    rw [List.foldl_cons, ih, hput, List.append_assoc]
    · rfl
    · rwa [hput, List.append_assoc]

/-- The entries of a map make that map. -/
lemma ofList_entries (m : OrderedMap α) : ofList m.entries = m := by
  have h := entries_foldl_insert empty m.entries (by simpa [empty] using m.distinct)
  cases hm : ofList m.entries with
  | mk entries distinct =>
    have hentries : entries = m.entries := by
      rw [ofList] at hm
      rw [hm] at h
      simpa [empty] using h
    subst hentries
    rfl

end OrderedMap

namespace VariantConfig

/-! ## Layouts -/

/-- The name of the call that declares style variants does not occur. -/
def CvaFree (t : List Char) : Prop := ¬ "cva".toList <:+: t

instance : DecidablePred CvaFree := fun t => inferInstanceAs (Decidable (¬ "cva".toList <:+: t))

/-- The base classes as a literal, with any white space around and between them. -/
def BaseText (base : String) : List Char → Prop :=
  Padded fun core => ∃ classes content, SpacedWords classes content ∧ Quotes CvaFree content core ∧
    base.toList = join [' '] classes

/-- What an option stands for: any literal. -/
def StyleText (t : List Char) : Prop := IsLiteral t ∧ CvaFree t

def OptionsText (options : List String) : List Char → Prop :=
  ObjectText CvaFree (options.map fun option => (option, Padded StyleText))

def CategoriesText (variants : OrderedMap (List String)) : List Char → Prop :=
  ObjectText CvaFree (variants.entries.map fun e => (e.1, OptionsText e.2))

def DefaultsText (defaults : OrderedMap String) : List Char → Prop :=
  ObjectText CvaFree (defaults.entries.map fun e => (e.1, Padded (Quotes CvaFree e.2.toList)))

def ConfigText (config : VariantConfig) : List Char → Prop :=
  ObjectText CvaFree
    [("variants", CategoriesText config.variants), ("defaultVariants", DefaultsText config.defaults)]

/-- The arguments of the call. -/
def ArgumentsText (config : VariantConfig) : List Char → Prop :=
  ListText [BaseText config.base, ConfigText config]

/-- What a configuration may hold to be written down: names that are not empty, no option twice in a category,
and trimmed defaults. -/
structure Admissible (config : VariantConfig) : Prop where
  categories : "" ∉ config.variants.keys
  options : ∀ e ∈ config.variants.entries, e.2.Nodup ∧ "" ∉ e.2
  defaults : ∀ e ∈ config.defaults.entries, trim e.2.toList = e.2.toList ∧ e.2 ≠ ""

variable {config : VariantConfig} {base : String} {options : List String} {variants : OrderedMap (List String)}
  {defaults : OrderedMap String} {free : Char → Prop} {body t : List Char}

/-! ## Pieces -/

lemma writable_options (h : "" ∉ options) : Writable (options.map fun option => (option, Padded StyleText)) := by
  intro e he
  obtain ⟨option, hoption, rfl⟩ := List.mem_map.mp he
  refine ⟨fun heq => h (heq ▸ hoption), fun v hv => ?_⟩
  exact piece_of_padded hv (fun _ hu => piece_literal hu.1) not_comma_of_blank

lemma writable_categories (h : Admissible config) :
    Writable (config.variants.entries.map fun e => (e.1, OptionsText e.2)) := by
  intro e he
  obtain ⟨category, hcategory, rfl⟩ := List.mem_map.mp he
  refine ⟨fun heq => h.categories (List.mem_map.mpr ⟨category, hcategory, heq⟩), fun v hv => ?_⟩
  exact piece_of_objectText hv (writable_options (h.options category hcategory).2) not_comma_of_blank

lemma writable_defaults (h : "" ∉ defaults.keys) :
    Writable (defaults.entries.map fun e => (e.1, Padded (Quotes CvaFree e.2.toList))) := by
  intro e he
  obtain ⟨default, hdefault, rfl⟩ := List.mem_map.mp he
  refine ⟨fun heq => h (List.mem_map.mpr ⟨default, hdefault, heq⟩), fun v hv => ?_⟩
  exact piece_of_padded hv (fun _ hu => piece_literal (isLiteral_of_quotes hu)) not_comma_of_blank

lemma writable_config (h : Admissible config) (hdefaults : "" ∉ config.defaults.keys) :
    Writable [("variants", CategoriesText config.variants), ("defaultVariants", DefaultsText config.defaults)] := by
  intro e he
  simp only [List.mem_cons, List.not_mem_nil, or_false] at he
  rcases he with rfl | rfl
  · exact ⟨by simp, fun v hv => piece_of_objectText hv (writable_categories h) not_comma_of_blank⟩
  · exact ⟨by simp, fun v hv => piece_of_objectText hv (writable_defaults hdefaults) not_comma_of_blank⟩

/-! ## Reading the arguments back -/

lemma readBase_baseText (h : BaseText base t) : readBase t = base.toList := by
  obtain ⟨core, ⟨classes, content, hwords, hquotes, hbase⟩, htrim⟩ :=
    trim_padded h fun u ⟨_, _, _, hquotes, _⟩ => trim_quotes hquotes
  rw [readBase, htrim]
  simp only [unquote?_quotes hquotes, squeeze, words_of_spacedWords hwords, hbase]

lemma objectBody?_of_trim (h : trim t = '\x7b' :: (body ++ ['\x7d'])) (hbody : Piece (fun _ => True) body) :
    objectBody? t = some body := by
  rw [objectBody?, h]
  exact bracketBody?_group (by decide) (by decide) hbody rfl

lemma foldl_of_nodup (names options : List String) (h : (names ++ options).Nodup) :
    options.foldl (fun names name => if names.contains name then names else names ++ [name]) names =
      names ++ options := by
  induction options generalizing names with
  | nil => simp
  | cons option options ih =>
    have hnew : names.contains option = false := by
      rw [List.nodup_append] at h
      simpa using fun hmem => h.2.2 _ hmem option (by simp) rfl
    rw [List.foldl_cons, hnew, if_neg Bool.false_ne_true, ih _ (by simpa using h), List.append_assoc]
    rfl

/-- What was read is what was written, in order, if each entry is. -/
lemma filterMap_of_forall₂ {α β : Type} {read : β → Option α} {xs : List α} {ys : List β}
    (h : List.Forall₂ (fun x y => read y = some x) xs ys) : ys.filterMap read = xs := by
  induction h with
  | nil => rfl
  | cons hread _ ih => rw [List.filterMap_cons_some hread, ih]

/-- An option is read as its name, whatever literal it stands for. -/
lemma readOptions_body (h : List.Forall₂ (fun e r => ∃ v, e.2 v ∧ r = (e.1.toList, trim v))
      (options.map fun option => (option, Padded StyleText)) (objectEntries body)) (hnodup : options.Nodup) :
    readOptions body = options := by
  have hkeys : (objectEntries body).map (fun r => String.ofList r.1) = options := by
    rw [List.forall₂_map_left_iff] at h
    generalize objectEntries body = entries at h
    clear hnodup
    induction h with
    | nil => rfl
    | cons hr _ ih =>
      obtain ⟨v, -, rfl⟩ := hr
      rw [List.map_cons, ih, String.ofList_toList]
  have hfold : readOptions body = ((objectEntries body).map fun r => String.ofList r.1).foldl
      (fun names name => if names.contains name then names else names ++ [name]) [] := by
    rw [List.foldl_map]
    rfl
  rw [hfold, hkeys, foldl_of_nodup [] options hnodup, List.nil_append]

lemma objectBody?_optionsText (h : OptionsText options t) (hne : "" ∉ options) (hnodup : options.Nodup) :
    (objectBody? (trim t)).map readOptions = some options := by
  obtain ⟨body, htrim, hbody, hread⟩ := objectText_read h (writable_options hne)
  rw [objectBody?_of_trim (by rwa [trim_trim]) hbody, Option.map_some, readOptions_body hread hnodup]

lemma readCategories_categoriesText (h : CategoriesText config.variants t) (hc : Admissible config) :
    readCategories (trim t) = config.variants := by
  obtain ⟨body, htrim, hbody, hread⟩ := objectText_read h (writable_categories hc)
  rw [List.forall₂_map_left_iff] at hread
  rw [readCategories, objectBody?_of_trim (by rwa [trim_trim]) hbody, Option.getD_some, filterMap_of_forall₂,
    OrderedMap.ofList_entries]
  refine ((List.forall₂_and_left _ _).mpr ⟨hc.options, hread⟩).imp ?_
  rintro e _ ⟨⟨hnodup, hne⟩, v, hv, rfl⟩
  obtain ⟨options, hbody?, hoptions⟩ := Option.map_eq_some_iff.mp (objectBody?_optionsText hv hne hnodup)
  simp only [hbody?, Option.map_some, hoptions, String.ofList_toList]

lemma readDefaults_defaultsText (h : DefaultsText config.defaults t) (hc : Admissible config)
    (hdefaults : "" ∉ config.defaults.keys) : readDefaults (trim t) = config.defaults := by
  obtain ⟨body, htrim, hbody, hread⟩ := objectText_read h (writable_defaults hdefaults)
  rw [List.forall₂_map_left_iff] at hread
  rw [readDefaults, objectBody?_of_trim (by rwa [trim_trim]) hbody, Option.getD_some, filterMap_of_forall₂,
    OrderedMap.ofList_entries]
  refine ((List.forall₂_and_left _ _).mpr ⟨hc.defaults, hread⟩).imp ?_
  rintro e _ ⟨⟨htrimmed, hne⟩, v, hv, rfl⟩
  obtain ⟨core, hquotes, hcore⟩ := trim_padded hv fun _ hu => trim_quotes hu
  have hempty : e.2.toList.isEmpty = false := by simpa using hne
  simp only [hcore, unquote?_quotes hquotes, Option.getD_some, htrimmed, hempty, Bool.false_eq_true, if_false,
    String.ofList_toList]

lemma piece_of_baseText (h : BaseText base t) : Piece (· ≠ ',') t ∧ ¬ IsSpace t := by
  refine ⟨piece_of_padded h (fun _ ⟨_, _, _, hquotes, _⟩ => piece_literal (isLiteral_of_quotes hquotes))
    not_comma_of_blank, ?_⟩
  obtain ⟨w, _, w', -, ⟨_, _, -, ⟨quote, hq, -, -, -, rfl⟩, -⟩, -, rfl⟩ := h
  exact not_isSpace_of_mem (c := quote) (by simp) (not_blank_of_quote hq)

lemma piece_of_configText (h : ConfigText config t) (hc : Admissible config)
    (hdefaults : "" ∉ config.defaults.keys) : Piece (· ≠ ',') t ∧ ¬ IsSpace t := by
  refine ⟨piece_of_objectText h (writable_config hc hdefaults) not_comma_of_blank, ?_⟩
  obtain ⟨w, _, w', -, ⟨body, -, rfl⟩, -, rfl⟩ := h
  exact not_isSpace_of_mem (c := '\x7b') (by simp) (by decide)

lemma lastValue?_config (variants defaults : List Char) :
    lastValue? "variants" [("variants".toList, variants), ("defaultVariants".toList, defaults)] = some variants ∧
      lastValue? "defaultVariants" [("variants".toList, variants), ("defaultVariants".toList, defaults)] =
        some defaults := by
  constructor <;> rfl

/-- The arguments of a call read as the configuration that they are written for. -/
theorem ofArguments?_argumentsText (h : ArgumentsText config t) (hc : Admissible config)
    (hdefaults : "" ∉ config.defaults.keys) :
    Piece (fun _ => True) t ∧ ofArguments? config.name.toList t = some config := by
  obtain ⟨hpiece, hitems⟩ := splitTopLevel_listText h fun kind hkind u hu => by
    simp only [List.mem_cons, List.not_mem_nil, or_false] at hkind
    rcases hkind with rfl | rfl
    · exact piece_of_baseText hu
    · exact piece_of_configText hu hc hdefaults
  refine ⟨hpiece, ?_⟩
  generalize hpieces : splitTopLevel ',' t = pieces at hitems
  obtain _ | ⟨hbase, _ | ⟨hconfig, _ | _⟩⟩ := hitems
  obtain ⟨body, htrim, hbody, hread⟩ := objectText_read hconfig (writable_config hc hdefaults)
  generalize hentries : objectEntries body = entries at hread
  obtain _ | ⟨⟨v, hv, rfl⟩, _ | ⟨⟨v', hv', rfl⟩, _ | _⟩⟩ := hread
  obtain ⟨hlast, hlast'⟩ := lastValue?_config (trim v) (trim v')
  rw [ofArguments?, hpieces]
  simp only [objectBody?_of_trim htrim hbody, hentries, Option.map_some, hlast, hlast', Option.getD_some,
    readBase_baseText hbase, readCategories_categoriesText hv hc, readDefaults_defaultsText hv' hc hdefaults,
    String.ofList_toList]

end VariantConfig

end UiCatalog
