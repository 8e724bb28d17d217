import Mathlib.Data.List.Basic
import UiCatalog.Catalog

/-!
# Searching for parts of texts

A search compares the query and the texts of a component in lower case, and lower case depends on the place of a
character only for the capital sigma, which has a form of its own at the end of a word. So a part of a text is found
whenever its capital sigmas take the same form in the part alone as they do in the whole text, and a longer query then
finds no more than a part of it.
-/
namespace UiCatalog

namespace Text

/-- Lower case of `s` between the characters `before`, nearest first, and `after`. -/
def lowerWithin (before after : List Char) : List Char → List Char
  | [] => []
  | c :: cs =>
    (if c = 'Σ' then [lowerSigma before (cs ++ after)] else lowerChar c) ++ lowerWithin (c :: before) after cs

/-- Every capital sigma of `part` takes the same form between `front` and `back` as it does without them. -/
def SameSigmas (front part back : List Char) : Prop :=
  ∀ a b, part = a ++ 'Σ' :: b → lowerSigma (a.reverse ++ front.reverse) (b ++ back) = lowerSigma a.reverse b

variable {before before' after after' front part back s t u : List Char}

lemma lowerAfter_append (before s t : List Char) :
    lowerAfter before (s ++ t) = lowerWithin before t s ++ lowerAfter (s.reverse ++ before) t := by
  induction s generalizing before with
  | nil => rfl
  | cons c s ih =>
    rw [List.cons_append, lowerAfter, lowerWithin, ih, List.reverse_cons, List.append_assoc, List.append_assoc]
    rfl

lemma lowerWithin_nil (before s : List Char) : lowerWithin before [] s = lowerAfter before s := by
  have h := lowerAfter_append before s []
  rw [List.append_nil, lowerAfter, List.append_nil] at h
  exact h.symm

/-- Between other characters a text has another lower case only where a capital sigma takes another form. -/
lemma lowerWithin_eq_iff : lowerWithin before after s = lowerWithin before' after' s ↔
    ∀ a b, s = a ++ 'Σ' :: b →
      lowerSigma (a.reverse ++ before) (b ++ after) = lowerSigma (a.reverse ++ before') (b ++ after') := by
  induction s generalizing before before' with
  | nil => simp [lowerWithin]
  | cons c s ih =>
    have hsplit : (∀ a b, c :: s = a ++ 'Σ' :: b →
        lowerSigma (a.reverse ++ before) (b ++ after) = lowerSigma (a.reverse ++ before') (b ++ after')) ↔
        (c = 'Σ' → lowerSigma before (s ++ after) = lowerSigma before' (s ++ after')) ∧
        ∀ a b, s = a ++ 'Σ' :: b →
          lowerSigma (a.reverse ++ c :: before) (b ++ after) =
            lowerSigma (a.reverse ++ c :: before') (b ++ after') := by
      constructor
      · refine fun h => ⟨fun hc => h [] s (by rw [hc]; rfl), fun a b hs => ?_⟩
        have hlater := h (c :: a) b (by rw [hs]; rfl)
        rwa [List.reverse_cons, List.append_assoc, List.append_assoc] at hlater
      · rintro ⟨hfirst, hlater⟩ a b hs
        cases a with
        | nil =>
          obtain ⟨rfl, rfl⟩ := List.cons.inj hs
          exact hfirst rfl
        | cons d a =>
          obtain ⟨rfl, htail⟩ := List.cons.inj hs
          rw [List.reverse_cons, List.append_assoc, List.append_assoc]
          exact hlater a b htail
    rw [hsplit, ← ih, lowerWithin, lowerWithin]
    split_ifs with hc
    · simp [hc]
    · simp [hc]

lemma sameSigmas_iff : SameSigmas front part back ↔ lowerWithin front.reverse back part = lower part := by
  rw [lower, ← lowerWithin_nil, lowerWithin_eq_iff, SameSigmas]
  simp

/-- Without a capital sigma the lower case of a part does not depend on what stands around it. -/
lemma sameSigmas_of_not_mem (h : 'Σ' ∉ part) : SameSigmas front part back := by
  rintro a b rfl
  exact absurd (List.mem_append_right a List.mem_cons_self) h

lemma lower_part (h : SameSigmas front part back) : lower part <:+: lower (front ++ (part ++ back)) := by
  have hwhole : lower (front ++ (part ++ back)) = lowerWithin [] (part ++ back) front ++
      (lower part ++ lowerAfter (part.reverse ++ front.reverse) back) := by
    rw [← sameSigmas_iff.1 h, lower, lowerAfter_append, lowerAfter_append, List.append_nil]
  rw [hwhole]
  exact ⟨_, _, List.append_assoc _ _ _⟩

lemma contains_iff (part s : List Char) : contains part s = true ↔ part <:+: s := by
  induction s with
  | nil => simp [contains]
  | cons c s ih => rw [contains, Bool.or_eq_true, ih, List.isPrefixOf_iff_prefix, List.infix_cons_iff]

end Text

namespace Catalog

open Text

/-- The texts of a component that a search looks at. -/
inductive IsTextOf (d : Descriptor) : String → Prop
  | name : IsTextOf d d.name
  | description : IsTextOf d d.description
  | propertyName {p} : p ∈ d.properties → IsTextOf d p.name
  | propertyDescription {p} : p ∈ d.properties → IsTextOf d p.description
  | subComponentName {s} : s ∈ d.subComponents → IsTextOf d s.name
  | subComponentDescription {s} : s ∈ d.subComponents → IsTextOf d s.description

variable {catalog : Catalog} {d : Descriptor} {query text : String} {front part back : String}

lemma mem_searchedTexts_iff : text ∈ searchedTexts d ↔ IsTextOf d text := by
  simp only [searchedTexts, List.mem_append, List.mem_flatMap, List.mem_cons, List.not_mem_nil, or_false]
  constructor
  · rintro (((rfl | rfl) | ⟨p, hp, rfl | rfl⟩) | ⟨s, hs, rfl | rfl⟩)
    · exact .name
    · exact .description
    · exact .propertyName hp
    · exact .propertyDescription hp
    · exact .subComponentName hs
    · exact .subComponentDescription hs
  · intro h
    cases h with
    | name => exact .inl (.inl (.inl rfl))
    | description => exact .inl (.inl (.inr rfl))
    | propertyName hp => exact .inl (.inr ⟨_, hp, .inl rfl⟩)
    | propertyDescription hp => exact .inl (.inr ⟨_, hp, .inr rfl⟩)
    | subComponentName hs => exact .inr ⟨_, hs, .inl rfl⟩
    | subComponentDescription hs => exact .inr ⟨_, hs, .inr rfl⟩

lemma hits_iff : hits query text = true ↔ lower query.toList <:+: lower text.toList := contains_iff _ _

lemma mem_search_iff : d ∈ catalog.search query ↔
    d ∈ catalog.components ∧ ∃ text, IsTextOf d text ∧ lower query.toList <:+: lower text.toList := by
  simp only [search, List.mem_filter, List.any_eq_true, mem_searchedTexts_iff, hits_iff]

lemma search_sublist_of_infix {query' : String} (h : lower query.toList <:+: lower query'.toList) :
    (catalog.search query').Sublist (catalog.search query) := by
  refine List.monotone_filter_right _ fun d hd => ?_
  simp only [List.any_eq_true, hits_iff] at hd ⊢
  obtain ⟨text, htext, hhit⟩ := hd
  exact ⟨text, htext, h.trans hhit⟩

/--
A search finds every component with a text that the query is a part of, and a query finds no more than any part of it
does, if the capital sigmas of the part take the same form in it alone. Without such a sigma that is always so.
-/
theorem search_finds_parts (catalog : Catalog) :
    (∀ d ∈ catalog.components, ∀ front part back, IsTextOf d (front ++ part ++ back) →
      SameSigmas front.toList part.toList back.toList → d ∈ catalog.search part) ∧
    (∀ front part back, SameSigmas front.toList part.toList back.toList →
      (catalog.search (front ++ part ++ back)).Sublist (catalog.search part)) ∧
    (∀ query, (catalog.search query).Sublist catalog.components) ∧
    ∀ front part back : List Char, 'Σ' ∉ part → SameSigmas front part back := by
  have hpart (front part back : String) (h : SameSigmas front.toList part.toList back.toList) :
      lower part.toList <:+: lower (front ++ part ++ back).toList := by
    rw [String.toList_append, String.toList_append, List.append_assoc]
    exact lower_part h
  refine ⟨fun d hd front part back htext hsame => ?_, fun front part back hsame => ?_, fun query => ?_,
    fun _ _ _ => sameSigmas_of_not_mem⟩
  · exact mem_search_iff.2 ⟨hd, _, htext, hpart front part back hsame⟩
  · exact search_sublist_of_infix (hpart front part back hsame)
  · exact List.filter_sublist

/-- A component with a word in capitals as its description. -/
def sign : Descriptor := { name := "Sign", description := "ΟΔΟΣΗΜΑ" }

def signCatalog : Catalog := { totalComponents := 1, components := [sign] }

/-- A sigma inside the word keeps its form where the part goes on behind it. -/
theorem search_finds_parts_of_sign :
    sign ∈ signCatalog.components ∧ IsTextOf sign ("ΟΔ" ++ "ΟΣΗ" ++ "ΜΑ") ∧
    SameSigmas "ΟΔ".toList "ΟΣΗ".toList "ΜΑ".toList ∧ sign ∈ signCatalog.search "ΟΣΗ" ∧
    (signCatalog.search ("ΟΔ" ++ "ΟΣΗ" ++ "ΜΑ")).Sublist (signCatalog.search "ΟΣΗ") := by
  have hmem : sign ∈ signCatalog.components := List.mem_singleton.2 rfl
  have htext : IsTextOf sign ("ΟΔ" ++ "ΟΣΗ" ++ "ΜΑ") := .description
  have hsame : SameSigmas "ΟΔ".toList "ΟΣΗ".toList "ΜΑ".toList := sameSigmas_iff.2 (by decide +kernel)
  obtain ⟨hfinds, hfewer, -⟩ := search_finds_parts signCatalog
  exact ⟨hmem, htext, hsame, hfinds sign hmem _ _ _ htext hsame, hfewer _ _ _ hsame⟩

/-- At the end of the query the sigma takes its other form: the component is not found by the start of its description,
but it is by all of it. -/
theorem search_misses_start_of_word :
    sign ∈ signCatalog.components ∧ sign.description = "" ++ "ΟΔΟΣ" ++ "ΗΜΑ" ∧ sign ∉ signCatalog.search "ΟΔΟΣ" ∧
    ¬ (signCatalog.search ("" ++ "ΟΔΟΣ" ++ "ΗΜΑ")).Sublist (signCatalog.search "ΟΔΟΣ") := by
  have hmem : sign ∈ signCatalog.components := List.mem_singleton.2 rfl
  have hnone : signCatalog.search "ΟΔΟΣ" = [] := by decide +kernel
  have hfound : sign ∈ signCatalog.search ("" ++ "ΟΔΟΣ" ++ "ΗΜΑ") :=
    mem_search_iff.2 ⟨hmem, _, .description, by decide +kernel⟩
  rw [hnone]
  exact ⟨hmem, rfl, List.not_mem_nil, fun hsub => List.not_mem_nil (hsub.mem hfound)⟩

end Catalog

end UiCatalog
