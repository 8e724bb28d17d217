import Mathlib
import UiCatalog.Descriptor.Build

/-!
# The properties of built descriptors

Five steps of a build add properties, change them or take them away. Each of them keeps the properties orderly,
and the last one sees to it that the standard ones are there.
-/
namespace UiCatalog

/-- A property that has to be given has no default. -/
def Property.Consistent (p : Property) : Prop := p.required = true → p.default? = none

namespace Descriptor

/-- The names of properties, in order. -/
def names (ps : List Property) : List String := ps.map (·.name)

/-- No name occurs twice, and every property is consistent. -/
structure Orderly (ps : List Property) : Prop where
  distinct : (names ps).Nodup
  consistent : ∀ p ∈ ps, p.Consistent

/-- The properties are orderly, and those that every component has are each there once. -/
structure Complete (d : Descriptor) : Prop extends Orderly d.properties where
  className : (names d.properties).count "className" = 1
  children : (names d.properties).count "children" = 1

/-- The properties are complete, and there is a `ref` just when one is passed on. -/
structure Standard (d : Descriptor) : Prop extends Complete d where
  ref : "ref" ∈ names d.properties ↔ d.forwardsRef = true

/-! ## Lists of properties -/

variable {p : Property} {ps : List Property} {name : String} {change : Property → Property}

@[simp] lemma names_nil : names [] = [] := rfl

@[simp] lemma names_cons : names (p :: ps) = p.name :: names ps := rfl

@[simp] lemma names_append (ps qs : List Property) : names (ps ++ qs) = names ps ++ names qs :=
  List.map_append

lemma any_name_eq (ps : List Property) (name : String) :
    ps.any (·.name == name) = decide (name ∈ names ps) := by
  induction ps with
  | nil => rfl
  | cons p ps ih =>
    have hc : (p.name == name) = decide (name = p.name) := by simp [eq_comm, beq_eq_decide]
    simp [ih, hc]

lemma names_filter (ps : List Property) (keep : String → Bool) :
    names (ps.filter fun p => keep p.name) = (names ps).filter keep := by
  simp [names, List.filter_map, Function.comp_def]

/-- What is appended comes last, unless its name is there already. -/
lemma names_appendNew (p : Property) (ps : List Property) :
    names (appendNew p ps) = if p.name ∈ names ps then names ps else names ps ++ [p.name] := by
  rw [appendNew, any_name_eq]
  by_cases hp : p.name ∈ names ps <;> simp [hp]

@[simp] lemma mem_names_appendNew : name ∈ names (appendNew p ps) ↔ name ∈ names ps ∨ name = p.name := by
  rw [names_appendNew]
  split_ifs with hp
  · exact ⟨.inl, fun h => h.elim id fun he => he ▸ hp⟩
  · simp

lemma mem_appendNew {q : Property} (h : q ∈ appendNew p ps) : q ∈ ps ∨ q = p := by
  rw [appendNew] at h
  split_ifs at h
  · exact .inl h
  · simpa using h

@[simp] lemma names_updateFirst (hc : ∀ p, (change p).name = p.name) (ps : List Property) :
    names (updateFirst name change ps) = names ps := by
  induction ps with
  | nil => rfl
  | cons p ps ih =>
    rw [updateFirst]
    split_ifs <;> simp [hc, ih]

lemma mem_updateFirst {q : Property} (h : q ∈ updateFirst name change ps) : q ∈ ps ∨ ∃ p ∈ ps, q = change p := by
  induction ps with
  | nil => simp [updateFirst] at h
  | cons p ps ih =>
    rw [updateFirst] at h
    split_ifs at h
    · rcases List.mem_cons.mp h with rfl | hm
      · exact .inr ⟨p, .head _, rfl⟩
      · exact .inl (.tail _ hm)
    · rcases List.mem_cons.mp h with rfl | hm
      · exact .inl (.head _)
      · rcases ih hm with hq | ⟨p', hp', rfl⟩
        · exact .inl (.tail _ hq)
        · exact .inr ⟨p', .tail _ hp', rfl⟩

lemma nodup_names_appendNew (h : (names ps).Nodup) : (names (appendNew p ps)).Nodup := by
  rw [names_appendNew]
  split_ifs with hm
  · exact h
  · rw [← List.concat_eq_append]
    exact h.concat hm

lemma orderly_nil : Orderly [] := ⟨.nil, by simp⟩

lemma orderly_appendNew (h : Orderly ps) (hp : p.Consistent) : Orderly (appendNew p ps) where
  distinct := nodup_names_appendNew h.distinct
  consistent q hq := by
    rcases mem_appendNew hq with hq | rfl
    · exact h.consistent q hq
    · exact hp

lemma orderly_updateFirst (h : Orderly ps) (hn : ∀ p, (change p).name = p.name)
    (hc : ∀ p, p.Consistent → (change p).Consistent) : Orderly (updateFirst name change ps) where
  distinct := by rw [names_updateFirst hn]; exact h.distinct
  consistent q hq := by
    rcases mem_updateFirst hq with hq | ⟨p, hp, rfl⟩
    · exact h.consistent q hq
    · exact hc p (h.consistent p hp)

lemma orderly_filter (h : Orderly ps) (keep : String → Bool) : Orderly (ps.filter fun p => keep p.name) where
  distinct := by rw [names_filter]; exact h.distinct.filter _
  consistent p hp := h.consistent p (List.mem_of_mem_filter hp)

/-! ## The steps of a build -/

variable {d : Descriptor}

lemma orderly_addProperty (h : Orderly d.properties) (hp : p.Consistent) :
    Orderly (d.addProperty p).properties :=
  orderly_appendNew h hp

lemma orderly_addAll (h : Orderly d.properties) (hps : ∀ p ∈ ps, p.Consistent) :
    Orderly (d.addAll ps).properties :=
  List.foldlRecOn (motive := fun d => Orderly d.properties) ps addProperty h
    fun _ hd p hp => orderly_addProperty hd (hps p hp)

lemma consistent_ofFieldTag (source : List Char) (field : FieldTag) :
    (ofFieldTag source field).Consistent := by
  intro h
  exact Option.isNone_iff_eq_none.mp (Bool.and_eq_true_iff.mp h).2

lemma orderly_annotate (source : List Char) (h : Orderly d.properties) :
    Orderly (annotate source d).properties := by
  rw [annotate]
  refine orderly_addAll ?_ fun p hp => ?_
  · cases DocBlock.attached? source d.name with
    | none => exact h
    | some block =>
      refine orderly_addAll (d := { d with description := block.description }) h fun p hp => ?_
      obtain ⟨field, -, rfl⟩ := List.mem_map.mp hp
      exact consistent_ofFieldTag source field
  · obtain ⟨parameter, -, rfl⟩ := List.mem_map.mp hp
    exact fun hr => absurd hr (by simp [ofParameter])

lemma name_styled (options : List String) (default? : Option String) (p : Property) :
    (styled options default? p).name = p.name := by
  cases default? <;> rfl

/-- A default from the style configuration makes the property optional. -/
lemma consistent_styled (options : List String) (default? : Option String) (h : p.Consistent) :
    (styled options default? p).Consistent := by
  cases default? with
  | none => exact h
  | some option => exact fun hr => absurd hr (by simp [styled])

lemma orderly_addCategory (defaults : OrderedMap String) (category : String × List String)
    (h : Orderly d.properties) : Orderly (addCategory defaults d category).properties :=
  orderly_updateFirst (orderly_addProperty h fun hr => absurd hr (by simp)) (name_styled _ _)
    fun _ => consistent_styled _ _

lemma orderly_applyVariants (config : VariantConfig) (h : Orderly d.properties) :
    Orderly (d.applyVariants config).properties :=
  List.foldlRecOn (motive := fun d => Orderly d.properties) config.variants.entries
    (addCategory config.defaults) h fun _ hd category _ => orderly_addCategory _ category hd

lemma complete_of_mem (h : Orderly d.properties) (hc : "className" ∈ names d.properties)
    (hk : "children" ∈ names d.properties) : d.Complete :=
  ⟨h, List.count_eq_one_of_mem h.distinct hc, List.count_eq_one_of_mem h.distinct hk⟩

/-- Whatever was collected, the standard properties are there after the last step. -/
lemma standard_addStandard (h : Orderly d.properties) : d.addStandard.Standard := by
  have hadded : Orderly ((d.addProperty classNameProperty).addProperty childrenProperty).properties :=
    orderly_addProperty (orderly_addProperty h fun hr => absurd hr (by simp [classNameProperty]))
      fun hr => absurd hr (by simp [childrenProperty])
  rw [addStandard]
  split_ifs with hf
  · have href := orderly_addProperty hadded (p := refProperty) fun hr => absurd hr (by simp [refProperty])
    refine ⟨complete_of_mem href ?_ ?_, iff_of_true ?_ hf⟩
    all_goals simp [addProperty, classNameProperty, childrenProperty, refProperty]
  · have hkept := orderly_filter hadded (· != "ref")
    refine ⟨complete_of_mem hkept ?_ ?_, iff_of_false ?_ hf⟩
    all_goals
      rw [names_filter _ (· != "ref")]
      simp [addProperty, classNameProperty, childrenProperty]

/-! ## What a build leaves alone -/

section Frame

variable {α : Type} (view : Descriptor → α)

lemma addAll_frame (hv : ∀ d ps, view { d with properties := ps } = view d) (d : Descriptor) (ps : List Property) :
    view (d.addAll ps) = view d :=
  List.foldlRecOn (motive := fun e => view e = view d) ps addProperty rfl fun e he _ _ => (hv e _).trans he

lemma annotate_frame (hv : ∀ d ps, view { d with properties := ps } = view d)
    (hd : ∀ d text, view { d with description := text } = view d) (source : List Char) (d : Descriptor) :
    view (annotate source d) = view d := by
  rw [annotate, addAll_frame view hv]
  cases DocBlock.attached? source d.name with
  | none => rfl
  | some block => exact (addAll_frame view hv _ _).trans (hd d _)

lemma applyVariants_frame (hv : ∀ d ps, view { d with properties := ps } = view d)
    (hs : ∀ d vs ds, view { d with variants := vs, defaultVariants := ds } = view d) (config : VariantConfig)
    (d : Descriptor) : view (d.applyVariants config) = view d := by
  have hcategories : view (config.variants.entries.foldl (addCategory config.defaults) d) = view d := by
    refine List.foldlRecOn (motive := fun e => view e = view d) _ _ rfl fun e he category _ => ?_
    exact (hv _ _).trans ((hv e _).trans he)
  exact (hs _ _ _).trans hcategories

lemma addStandard_frame (hv : ∀ d ps, view { d with properties := ps } = view d) (d : Descriptor) :
    view d.addStandard = view d := by
  rw [addStandard]
  split_ifs
  · exact (hv _ _).trans ((hv _ _).trans (hv d _))
  · exact (hv _ _).trans ((hv _ _).trans (hv d _))

/-- What a build does not give it starts with. -/
lemma build_frame (hv : ∀ d ps, view { d with properties := ps } = view d)
    (hd : ∀ d text, view { d with description := text } = view d)
    (hs : ∀ d vs ds, view { d with variants := vs, defaultVariants := ds } = view d)
    (hi : ∀ d subs line, view { d with subComponents := subs, importStatement := line } = view d)
    (source : List Char) (name package : String) :
    view (build source name package) = view { name, forwardsRef := forwardRefCall.isMatch source } := by
  rw [build, addStandard_frame view hv]
  refine (hi _ _ _).trans ?_
  cases VariantConfig.first? source with
  | none => exact annotate_frame view hv hd source _
  | some config => exact (applyVariants_frame view hv hs config _).trans (annotate_frame view hv hd source _)

end Frame

/-! ## Built descriptors -/

lemma standard_build (source : List Char) (name package : String) :
    (build source name package).Standard := by
  rw [build]
  refine standard_addStandard ?_
  cases VariantConfig.first? source with
  | none => exact orderly_annotate source orderly_nil
  | some config => exact orderly_applyVariants config (orderly_annotate source orderly_nil)

/-- Secondary components have no secondary components of their own. -/
lemma subDescriptors_build (source : List Char) (name package : String) :
    (build source name package).subDescriptors = [] := by
  rw [build_frame (·.subDescriptors) (fun _ _ => rfl) (fun _ _ => rfl) (fun _ _ _ => rfl) fun _ _ _ => rfl]

lemma standard_buildSub (source : List Char) (package name : String) :
    (buildSub source package name).Standard :=
  standard_addStandard (orderly_annotate source orderly_nil)

lemma standard_buildCompound (source : List Char) (name package : String) :
    (buildCompound source name package).Standard :=
  let ⟨⟨horderly, hclass, hchildren⟩, href⟩ := standard_build source name package
  ⟨⟨horderly, hclass, hchildren⟩, href⟩

/-- Whatever the source says, a built descriptor is standard, and so are those of its secondary components. -/
theorem standard_built (source : List Char) (name package : String) :
    ((build source name package).Standard ∧
      ∀ sub ∈ (build source name package).subDescriptors, sub.Standard) ∧
    (buildCompound source name package).Standard ∧
      ∀ sub ∈ (buildCompound source name package).subDescriptors, sub.Standard := by
  refine ⟨⟨standard_build source name package, ?_⟩, standard_buildCompound source name package, ?_⟩
  · simp [subDescriptors_build]
  · intro sub hsub
    obtain ⟨secondary, -, rfl⟩ := List.mem_map.mp hsub
    exact standard_buildSub source package secondary.name

end Descriptor

end UiCatalog
