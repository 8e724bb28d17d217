import UiCatalog.Proofs.Properties

/-!
# Which source of knowledge decides a property

The doc comment, the parameters, the style categories and the standard properties are four lists that may name
the same property. What a descriptor holds after each step of a build is what the lists so far say of every
name first, with the style configuration written over its categories.
-/
namespace UiCatalog.Descriptor

variable {p : Property} {ps known : List Property} {d : Descriptor} {change : Property → Property}

/-- The field tags of the comment of a declaration. -/
def fieldsOf (source : List Char) (name : String) : List FieldTag :=
  ((DocBlock.attached? source name).map (·.fields)).getD []

/-- The fields whose name is the container of no other field, in order. -/
def ungrouped (fields : List FieldTag) : List FieldTag :=
  (fields.zipIdx.filter fun (field, i) => !(containers (fields.eraseIdx i)).contains field.name).map (·.1)

/-- What a style configuration alone knows of the properties that it names. -/
def categoryProperties (config? : Option VariantConfig) : List Property :=
  ((config?.map (·.variants.keys)).getD []).map fun category => { name := category }

def standardProperties (forwardsRef : Bool) : List Property :=
  [classNameProperty, childrenProperty] ++ if forwardsRef then [refProperty] else []

/-- All that is known of properties, in the order in which it counts. -/
def knowledge (source : List Char) (name : String) : List Property :=
  commentProperties source (fieldsOf source name) ++
    parameterProperties (destructuredParameters source name) ++
    categoryProperties (VariantConfig.first? source) ++
    standardProperties (forwardRefCall.isMatch source)

/-- A property with the style configuration written over it. -/
def restyle (config? : Option VariantConfig) (p : Property) : Property :=
  match config?.bind (·.variants.get? p.name) with
  | none => p
  | some options => styled options (config?.bind (·.defaults.get? p.name)) p

/-- How `p` comes from what was said first, when `options?` and `option?` are the options and the default of a
style category of that name. -/
structure Decided (options? : Option (List String)) (option? : Option String) (first p : Property) : Prop where
  name : p.name = first.name
  description : p.description = first.description
  untouched : options? = none → p = first
  type : ∀ options, options? = some options →
    p.type = String.intercalate " | " (options.map fun option => "'" ++ option ++ "'")
  chosen : ∀ option, options?.isSome → option? = some option →
    p.default? = some ("'" ++ option ++ "'") ∧ p.required = false
  unchosen : option? = none → p.default? = first.default? ∧ p.required = first.required

/-- The descriptor holds what is known, each name at its first place, with the configuration written over. -/
structure Holds (known : List Property) (config? : Option VariantConfig) (d : Descriptor) : Prop where
  names : names d.properties = (names known).eraseDups
  property? : ∀ n, d.property? n = (known.find? (·.name == n)).map (restyle config?)

/-! ## Looking properties up -/

lemma find?_appendNew (p : Property) (ps : List Property) (n : String) :
    (appendNew p ps).find? (·.name == n) =
      (ps.find? (·.name == n)).or ([p].find? (·.name == n)) := by
  rw [appendNew]
  split_ifs with hp
  · rw [any_name_eq, decide_eq_true_eq] at hp
    by_cases hn : p.name = n
    · obtain ⟨q, hq, hqn⟩ := List.mem_map.mp hp
      have hsome : (ps.find? (·.name == n)).isSome := by
        rw [List.find?_isSome]
        exact ⟨q, hq, by simp [hqn, hn]⟩
      obtain ⟨r, hr⟩ := Option.isSome_iff_exists.mp hsome
      simp [hr]
    · simp [hn]
  · exact List.find?_append

lemma find?_updateFirst (hc : ∀ p, (change p).name = p.name) (m : String) (ps : List Property) (n : String) :
    (updateFirst m change ps).find? (·.name == n) =
      if n = m then (ps.find? (·.name == n)).map change else ps.find? (·.name == n) := by
  induction ps with
  | nil => simp [updateFirst]
  | cons p ps ih =>
    rw [updateFirst]
    by_cases hp : p.name = m
    · by_cases hn : p.name = n
      · simp [hp, hc, ← hn]
      · have hnm : n ≠ m := fun h => hn (hp.trans h.symm)
        simp [hp, hnm, hc, Ne.symm hnm]
    · by_cases hn : p.name = n
      · have hnm : n ≠ m := fun h => hp (hn.trans h)
        simp [hn, hnm]
      · simp [hp, hn, ih]

lemma find?_eq_none_iff {n : String} : ps.find? (·.name == n) = none ↔ n ∉ names ps := by
  simp [names, List.find?_eq_none]

lemma names_appendNew_eraseDups (h : names ps = (names known).eraseDups) (p : Property) :
    names (appendNew p ps) = (names (known ++ [p])).eraseDups := by
  have hmem : p.name ∈ names ps ↔ p.name ∈ names known := by rw [h, List.mem_eraseDups]
  rw [names_appendNew, names_append, List.eraseDups_append, h]
  by_cases hp : p.name ∈ names known
  · simp [hp, List.removeAll]
  · simp [hp, List.removeAll, List.eraseDups_cons]

/-! ## The steps of a build -/

variable {config? : Option VariantConfig}

lemma holds_nil (h : d.properties = []) : Holds [] none d where
  names := by rw [h]; rfl
  property? n := by rw [Descriptor.property?, h]; rfl

/-- A property may be added that is known already or that is no style category. -/
lemma holds_addProperty (h : Holds known config? d) (hp : p.name ∉ names known → restyle config? p = p) :
    Holds (known ++ [p]) config? (d.addProperty p) where
  names := names_appendNew_eraseDups h.names p
  property? n := by
    have hd : d.properties.find? (·.name == n) = _ := h.property? n
    rw [Descriptor.property?, addProperty, find?_appendNew, hd, List.find?_append]
    cases hk : known.find? (·.name == n) with
    | some first => rfl
    | none =>
      by_cases hn : p.name = n
      · subst hn
        simp [hp (find?_eq_none_iff.mp hk)]
      · simp [hn]

lemma holds_addAll (h : Holds known config? d) (hps : ∀ p ∈ ps, p.name ∉ names known → restyle config? p = p) :
    Holds (known ++ ps) config? (d.addAll ps) := by
  induction ps generalizing known d with
  | nil =>
    rw [List.append_nil]
    exact h
  | cons p ps ih =>
    have hstep := holds_addProperty h (hps p (.head _))
    have hrest := ih hstep fun q hq hn => hps q (.tail _ hq) fun hk => hn (by simp [hk])
    rw [List.append_assoc] at hrest
    exact hrest

lemma restyle_none (p : Property) : restyle none p = p := rfl

lemma holds_annotate (source : List Char) (h : d.properties = []) :
    Holds (commentProperties source (fieldsOf source d.name) ++
      parameterProperties (destructuredParameters source d.name)) none (annotate source d) := by
  rw [annotate, fieldsOf]
  refine holds_addAll ?_ fun p _ _ => restyle_none p
  cases DocBlock.attached? source d.name with
  | none => exact holds_nil h
  | some block =>
    exact holds_addAll (holds_nil (d := { d with description := block.description }) h)
      fun p _ _ => restyle_none p

lemma find?_addCategory (defaults : OrderedMap String) (d : Descriptor) (category : String × List String)
    (n : String) :
    (addCategory defaults d category).property? n =
      if n = category.1 then
        some (styled category.2 (defaults.get? n) ((d.property? n).getD { name := n }))
      else d.property? n := by
  rw [property?, addCategory, find?_updateFirst (name_styled _ _), addProperty, find?_appendNew]
  by_cases hn : n = category.1
  · subst hn
    cases hd : d.properties.find? (·.name == category.1) <;> simp [property?, hd]
  · have hc : category.1 ≠ n := fun h => hn h.symm
    simp [hn, hc, property?]

/-- No later category of a configuration has the name of an earlier one. -/
lemma find?_addCategories (defaults : OrderedMap String) (entries : List (String × List String))
    (hd : (entries.map Prod.fst).Nodup) (d : Descriptor) (n : String) :
    (entries.foldl (addCategory defaults) d).property? n =
      match entries.lookup n with
      | none => d.property? n
      | some options => some (styled options (defaults.get? n) ((d.property? n).getD { name := n })) := by
  induction entries generalizing d with
  | nil => rfl
  | cons entry entries ih =>
    obtain ⟨category, options⟩ := entry
    rw [List.map_cons, List.nodup_cons] at hd
    rw [List.foldl_cons, ih hd.2, find?_addCategory]
    by_cases hn : n = category
    · subst hn
      -- The later categories do not write over this one.
      have hlookup : entries.lookup n = none := by
        rw [List.lookup_eq_none_iff]
        rintro ⟨k, v⟩ hkv
        have hk : k ∈ entries.map Prod.fst := List.mem_map.mpr ⟨(k, v), hkv, rfl⟩
        have hne : n ≠ k := fun h => hd.1 (h ▸ hk)
        simpa using hne
      simp [hlookup]
    · have hb : (n == category) = false := beq_eq_false_iff_ne.mpr hn
      rw [if_neg hn, List.lookup_cons, hb]

lemma names_addCategories (defaults : OrderedMap String) (entries : List (String × List String))
    (h : names d.properties = (names known).eraseDups) :
    names (entries.foldl (addCategory defaults) d).properties =
      (names (known ++ (entries.map Prod.fst).map fun category => { name := category })).eraseDups := by
  induction entries generalizing known d with
  | nil => simpa using h
  | cons entry entries ih =>
    have hstep : names (addCategory defaults d entry).properties =
        (names (known ++ [{ name := entry.1 }])).eraseDups := by
      rw [addCategory, names_updateFirst (name_styled _ _)]
      exact names_appendNew_eraseDups h _
    have hrest := ih hstep
    rw [List.append_assoc] at hrest
    exact hrest

lemma find?_categoryProperties (config : VariantConfig) (n : String) :
    (categoryProperties (some config)).find? (·.name == n) =
      (config.variants.get? n).map fun _ => { name := n } := by
  rw [categoryProperties, OrderedMap.get?]
  simp only [Option.map_some, Option.getD_some, OrderedMap.keys]
  induction config.variants.entries with
  | nil => rfl
  | cons entry entries ih =>
    by_cases hn : n = entry.1
    · rw [List.lookup_cons]
      simp [hn]
    · have hc : (entry.1 == n) = false := beq_eq_false_iff_ne.mpr fun h => hn h.symm
      have hb : (n == entry.1) = false := beq_eq_false_iff_ne.mpr hn
      rw [List.map_cons, List.map_cons, List.find?_cons_of_neg (by simp [hc]), List.lookup_cons, hb, ih]

lemma restyle_of_no_category {config : VariantConfig} (h : config.variants.get? p.name = none) :
    restyle (some config) p = p := by
  simp [restyle, h]

lemma restyle_of_category {config : VariantConfig} {options : List String}
    (h : config.variants.get? p.name = some options) :
    restyle (some config) p = styled options (config.defaults.get? p.name) p := by
  simp [restyle, h]

lemma name_of_find? {n : String} (h : ps.find? (·.name == n) = some p) : p.name = n := by
  simpa using List.find?_some h

lemma holds_applyVariants (h : Holds known none d) (config : VariantConfig) :
    Holds (known ++ categoryProperties (some config)) (some config) (d.applyVariants config) where
  names := names_addCategories config.defaults config.variants.entries h.names
  property? n := by
    have hfold := find?_addCategories config.defaults config.variants.entries config.variants.distinct d n
    have hd : d.property? n = known.find? (·.name == n) := by rw [h.property? n]; exact Option.map_id'
    change (config.variants.entries.foldl (addCategory config.defaults) d).property? n = _
    rw [hfold, List.find?_append, find?_categoryProperties, hd, ← OrderedMap.get?]
    cases hc : config.variants.get? n with
    | none =>
      cases hk : known.find? (·.name == n) with
      | none => rfl
      | some first =>
        have hn := name_of_find? hk
        simp [restyle_of_no_category (hn ▸ hc)]
    | some options =>
      cases hk : known.find? (·.name == n) with
      | none => simp [restyle_of_category (p := { name := n }) hc]
      | some first =>
        have hn := name_of_find? hk
        subst hn
        simp [restyle_of_category hc]

/-! ## What a build adds last -/

lemma addStandard_eq (d : Descriptor) :
    d.addStandard = { d with
      properties := (d.addAll (standardProperties d.forwardsRef)).properties.filter
        fun p => d.forwardsRef || p.name != "ref" } := by
  rw [addStandard]
  cases hf : d.forwardsRef <;> simp [standardProperties, addAll, addProperty, hf]

/-- The standard properties come last, and a `ref` that is not passed on goes. -/
lemma holds_addStandard (h : Holds known config? d)
    (hp : ∀ p ∈ standardProperties d.forwardsRef, p.name ∉ names known → restyle config? p = p) :
    let all := known ++ standardProperties d.forwardsRef
    names d.addStandard.properties =
        ((names all).eraseDups).filter (fun n => d.forwardsRef || n != "ref") ∧
      ∀ n ∈ names d.addStandard.properties,
        d.addStandard.property? n = (all.find? (·.name == n)).map (restyle config?) := by
  intro all
  have hall : Holds all config? (d.addAll (standardProperties d.forwardsRef)) := holds_addAll h hp
  have hnames : names d.addStandard.properties =
      ((names all).eraseDups).filter (fun n => d.forwardsRef || n != "ref") := by
    rw [addStandard_eq, names_filter _ (fun n => d.forwardsRef || n != "ref"), hall.names]
  refine ⟨hnames, fun n hn => ?_⟩
  have hkeep : (d.forwardsRef || n != "ref") = true := by
    rw [hnames] at hn
    exact (List.mem_filter.mp hn).2
  rw [← hall.property? n, property?, property?, addStandard_eq, List.find?_filter]
  congr 1
  funext p
  by_cases hpn : p.name = n
  · simp only [hpn, hkeep, beq_self_eq_true, and_self, decide_true]
  · simp [hpn]

/-! ## Fields that only group others -/

lemma mem_containers_iff_of_place {fields : List FieldTag} {field : FieldTag} {i : ℕ}
    (h : fields[i]? = some field) (name : String) :
    name ∈ containers fields ↔ field.container = some name ∨ name ∈ containers (fields.eraseIdx i) := by
  obtain ⟨hi, rfl⟩ := List.getElem?_eq_some_iff.mp h
  have hperm : (fields[i] :: fields.eraseIdx i).Perm fields := List.getElem_cons_eraseIdx_perm hi
  simp only [containers]
  rw [← (hperm.filterMap _).mem_iff]
  simp [List.mem_filterMap]

lemma filter_eq_map_zipIdx (p : FieldTag → Bool) (fields : List FieldTag) :
    fields.filter p = (fields.zipIdx.filter fun entry => p entry.1).map (·.1) := by
  conv_lhs => rw [← List.zipIdx_map_fst 0 fields]
  exact List.filter_map

/-- What a stronger filter leaves out shows in the length. -/
lemma map_filter_eq_iff {α β : Type*} {p q : α → Bool} {f : α → β} {l : List α}
    (h : ∀ a ∈ l, p a = true → q a = true) :
    (l.filter p).map f = (l.filter q).map f ↔ ∀ a ∈ l, q a = true → p a = true := by
  constructor
  · intro heq a ha hq
    have htwice : l.filter p = (l.filter q).filter p := by
      rw [List.filter_filter]
      refine List.filter_congr fun b hb => ?_
      have hstrong := h b hb
      cases hp : p b <;> simp_all
    have hlength := congrArg List.length heq
    rw [htwice, List.length_map, List.length_map, List.length_filter_eq_length_iff] at hlength
    exact hlength a (List.mem_filter.mpr ⟨ha, hq⟩)
  · intro hback
    rw [List.filter_congr fun a ha => Bool.eq_iff_iff.mpr ⟨h a ha, hback a ha⟩]

/-- A field that groups no other one is lost just when it is alone in a container of its own name. -/
lemma filter_eq_ungrouped_iff (fields : List FieldTag) :
    (fields.filter fun field => !(containers fields).contains field.name) = ungrouped fields ↔
      ∀ i field, fields[i]? = some field → field.container = some field.name →
        field.name ∈ containers (fields.eraseIdx i) := by
  have hplace : ∀ {field : FieldTag} {i : ℕ}, (field, i) ∈ fields.zipIdx →
      (field.name ∈ containers fields ↔
        field.container = some field.name ∨ field.name ∈ containers (fields.eraseIdx i)) := fun hm =>
    mem_containers_iff_of_place (List.mem_zipIdx_iff_getElem?.mp hm) _
  rw [filter_eq_map_zipIdx, ungrouped, map_filter_eq_iff]
  · constructor
    · intro hkept i field hi hown
      have hm : (field, i) ∈ fields.zipIdx := List.mem_zipIdx_iff_getElem?.mpr hi
      by_contra hother
      have hlost := hkept (field, i) hm (by simp [hother])
      simp [hplace hm, hown] at hlost
    · rintro hshared ⟨field, i⟩ hm hother
      have hown := hshared i field (List.mem_zipIdx_iff_getElem?.mp hm)
      simp_all [hplace hm]
  · rintro ⟨field, i⟩ hm hkept
    simp_all [hplace hm]

/-! ## Built descriptors -/

lemma decided_restyle (config? : Option VariantConfig) (p : Property) :
    Decided (config?.bind (·.variants.get? p.name)) (config?.bind (·.defaults.get? p.name)) p
      (restyle config? p) := by
  rw [restyle]
  cases config?.bind (·.variants.get? p.name) with
  | none => exact ⟨rfl, rfl, fun _ => rfl, by simp, by simp, fun _ => ⟨rfl, rfl⟩⟩
  | some options =>
    cases config?.bind (·.defaults.get? p.name) with
    | none => exact ⟨rfl, rfl, by simp, by rintro _ ⟨⟩; rfl, by simp, fun _ => ⟨rfl, rfl⟩⟩
    | some option => exact ⟨rfl, rfl, by simp, by rintro _ ⟨⟩; rfl, by rintro _ _ ⟨⟩; exact ⟨rfl, rfl⟩, by simp⟩

lemma restyle_of_not_mem (h : p.name ∉ names (categoryProperties config?)) : restyle config? p = p := by
  cases config? with
  | none => rfl
  | some config =>
    rw [← find?_eq_none_iff, find?_categoryProperties] at h
    exact restyle_of_no_category (by simpa using h)

lemma names_commentProperties (source : List Char) (fields : List FieldTag) :
    names (commentProperties source fields) =
      (fields.filter fun field => !(containers fields).contains field.name).map (·.name) := by
  simp [names, commentProperties, ofFieldTag, Function.comp_def]

lemma names_parameterProperties (parameters : List (String × Option String)) :
    names (parameterProperties parameters) = (parameters.map (·.1)).filter (!isStandard ·) := by
  simp [names, parameterProperties, ofParameter, Function.comp_def, List.filter_map]

lemma names_categoryProperties (config? : Option VariantConfig) :
    names (categoryProperties config?) = (config?.map (·.variants.keys)).getD [] := by
  simp [names, categoryProperties, Function.comp_def]

lemma names_standardProperties (forwardsRef : Bool) :
    names (standardProperties forwardsRef) =
      ["className", "children"] ++ if forwardsRef then ["ref"] else [] := by
  cases forwardsRef <;> rfl

/-- A descriptor before the last step of its build. -/
def collect (source : List Char) (name : String) : Descriptor :=
  let annotated := annotate source { name, forwardsRef := forwardRefCall.isMatch source }
  match VariantConfig.first? source with
  | some config => annotated.applyVariants config
  | none => annotated

lemma holds_collect (source : List Char) (name : String) :
    Holds (commentProperties source (fieldsOf source name) ++
        parameterProperties (destructuredParameters source name) ++
        categoryProperties (VariantConfig.first? source))
      (VariantConfig.first? source) (collect source name) := by
  have hannotated := holds_annotate (d := { name, forwardsRef := forwardRefCall.isMatch source }) source rfl
  rw [collect]
  cases VariantConfig.first? source with
  | none => simpa [categoryProperties] using hannotated
  | some config => exact holds_applyVariants hannotated config

lemma forwardsRef_collect (source : List Char) (name : String) :
    (collect source name).forwardsRef = forwardRefCall.isMatch source := by
  have hannotated := annotate_frame (·.forwardsRef) (fun _ _ => rfl) (fun _ _ => rfl) source
    { name, forwardsRef := forwardRefCall.isMatch source }
  rw [collect]
  cases VariantConfig.first? source with
  | none => exact hannotated
  | some config =>
    exact (applyVariants_frame (·.forwardsRef) (fun _ _ => rfl) (fun _ _ _ => rfl) config _).trans hannotated

lemma variants_collect (source : List Char) (name : String) :
    (collect source name).variants = ((VariantConfig.first? source).map (·.variants)).getD .empty ∧
      (collect source name).defaultVariants = ((VariantConfig.first? source).map (·.defaults)).getD .empty := by
  rw [collect]
  cases VariantConfig.first? source with
  | none =>
    exact ⟨annotate_frame (·.variants) (fun _ _ => rfl) (fun _ _ => rfl) source _,
      annotate_frame (·.defaultVariants) (fun _ _ => rfl) (fun _ _ => rfl) source _⟩
  | some config => exact ⟨rfl, rfl⟩

lemma build_eq (source : List Char) (name package : String) :
    build source name package =
      { collect source name with
        subComponents := UiCatalog.subComponents source name
        importStatement := importStatementOf
          (name :: (UiCatalog.subComponents source name).map SubComponent.name) package }.addStandard := rfl

/-- A built descriptor holds what is known, but for a `ref` that is not passed on. -/
lemma holds_build (source : List Char) (name package : String) :
    let d := build source name package
    names d.properties = ((names (knowledge source name)).eraseDups).filter
        (fun n => forwardRefCall.isMatch source || n != "ref") ∧
      ∀ n ∈ names d.properties, d.property? n =
        ((knowledge source name).find? (·.name == n)).map (restyle (VariantConfig.first? source)) := by
  have hcollect := holds_collect source name
  have hall := holds_addStandard (d := { collect source name with
      subComponents := UiCatalog.subComponents source name
      importStatement := importStatementOf
        (name :: (UiCatalog.subComponents source name).map SubComponent.name) package })
    ⟨hcollect.names, hcollect.property?⟩ fun p _ hp => restyle_of_not_mem fun hm => hp (by simp [hm])
  rw [← build_eq] at hall
  simp only [forwardsRef_collect source name] at hall
  exact hall

/-- The properties of a built descriptor are what its sources of knowledge say, the first one to name a property
first: field tags, parameters, style categories, standard properties. The style configuration is written over
its categories and nothing else, and a `ref` that is not passed on is left out. The field tags that count are those
that group no other field, provided that none is alone in a container of its own name. -/
theorem build_follows_precedence (source : List Char) (name package : String) :
    let d := build source name package
    let fields := fieldsOf source name
    let counting := fields.filter fun field => !(containers fields).contains field.name
    let config? := VariantConfig.first? source
    names d.properties =
      ((counting.map (·.name) ++
        ((destructuredParameters source name).map (·.1)).filter (!isStandard ·) ++
        ((config?.map (·.variants.keys)).getD []) ++
        (["className", "children"] ++ if d.forwardsRef then ["ref"] else [])).eraseDups).filter
          (fun n => d.forwardsRef || n != "ref") ∧
    (∀ n ∈ names d.properties, ∃ first p,
      (knowledge source name).find? (·.name == n) = some first ∧ d.property? n = some p ∧
      Decided (config?.bind (·.variants.get? n)) (config?.bind (·.defaults.get? n)) first p) ∧
    d.variants = (config?.map (·.variants)).getD .empty ∧
    d.defaultVariants = (config?.map (·.defaults)).getD .empty ∧
    (counting = ungrouped fields ↔
      ∀ i field, fields[i]? = some field → field.container = some field.name →
        field.name ∈ containers (fields.eraseIdx i)) := by
  intro d fields counting config?
  have hd : d.forwardsRef = forwardRefCall.isMatch source := by
    rw [← forwardsRef_collect source name]
    simp only [d, build_eq, addStandard_eq]
  obtain ⟨hnames, hprops⟩ := holds_build source name package
  refine ⟨?_, fun n hn => ?_, ?_, ?_, filter_eq_ungrouped_iff fields⟩
  · rw [hd, hnames]
    simp only [knowledge, names_append, names_commentProperties, names_parameterProperties, names_categoryProperties,
      names_standardProperties, fields, counting, config?]
  · have hsome : (d.property? n).isSome := by
      rw [← Option.ne_none_iff_isSome]
      exact fun hnone => find?_eq_none_iff.mp hnone hn
    obtain ⟨p, hp⟩ := Option.isSome_iff_exists.mp hsome
    obtain ⟨first, hfirst, rfl⟩ := Option.map_eq_some_iff.mp ((hprops n hn).symm.trans hp)
    have hn : first.name = n := name_of_find? hfirst
    subst hn
    exact ⟨first, restyle config? first, hfirst, hp, decided_restyle config? first⟩
  · simp only [d, build_eq, addStandard_eq]
    exact (variants_collect source name).1
  · simp only [d, build_eq, addStandard_eq]
    exact (variants_collect source name).2

/-- A comment with one field tag, whose container has the name of the field. -/
def selfGroupedSource : List Char :=
  "/** @param \x7bstring\x7d props.props - x */ function Tag() \x7b\x7d".toList

set_option maxRecDepth 20000 in
/-- A field tag counts as a group of itself: it documents no property, though no other tag names it as one. -/
theorem dropped_of_selfGrouped :
    ∃ field ∈ fieldsOf selfGroupedSource "Tag",
      (∀ other ∈ fieldsOf selfGroupedSource "Tag", other ≠ field → other.container ≠ some field.name) ∧
      field.name ∉ names (build selfGroupedSource "Tag" "@/components/ui").properties := by
  have hfields : fieldsOf selfGroupedSource "Tag" =
      [⟨"props", some "props", "string", "x", false, none⟩] := by cbv
  have hnames : names (build selfGroupedSource "Tag" "@/components/ui").properties =
      ["className", "children"] := by cbv
  rw [hfields, hnames]
  refine ⟨_, .head _, fun other hother hne => ?_, by decide⟩
  exact absurd (List.mem_singleton.mp hother) hne

end UiCatalog.Descriptor
