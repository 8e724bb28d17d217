import Mathlib.Data.String.Basic
import UiCatalog.Proofs.JsonText

/-!
# Values with sorted keys

Members in the order of their keys are determined by what is found under every key. So sorting a second time
changes nothing, and a choice of keys can be made before or after sorting.
-/
namespace UiCatalog.Json

variable {α : Type} {members members' : List (String × α)} {key k : String} {value : α} {v : Json}

/-- Members in strictly increasing order of their keys. -/
def Sorted (members : List (String × α)) : Prop := members.Pairwise fun m m' => m.1 < m'.1

/-- The members under some of the keys. -/
def restrict (keys : List String) : Json → Json
  | object members => object (members.filter fun m => keys.contains m.1)
  | v => v

/-! ## Looking up -/

lemma lookup_cons_ite (m : String × α) (members : List (String × α)) (k : String) :
    (m :: members).lookup k = if k = m.1 then some m.2 else members.lookup k := by
  obtain ⟨key, value⟩ := m
  by_cases h : k = key
  · simp [h]
  · rw [List.lookup_cons, beq_false_of_ne h, if_neg h]

lemma lookup_map_snd {β : Type} (f : α → β) (members : List (String × α)) (k : String) :
    (members.map fun m => (m.1, f m.2)).lookup k = (members.lookup k).map f := by
  induction members with
  | nil => rfl
  | cons m ms ih =>
    rw [List.map_cons, lookup_cons_ite, lookup_cons_ite, ih]
    split_ifs <;> rfl

lemma lookup_insertSorted (key : String) (value : α) (members : List (String × α)) (k : String) :
    (insertSorted key value members).lookup k = if k = key then some value else members.lookup k := by
  induction members with
  | nil => exact lookup_cons_ite (key, value) [] k
  | cons m ms ih =>
    obtain ⟨k', v'⟩ := m
    rw [insertSorted]
    by_cases hlt : key < k'
    · rw [if_pos hlt, lookup_cons_ite]
    · rw [if_neg hlt]
      by_cases heq : key = k'
      · rw [if_pos heq, lookup_cons_ite, lookup_cons_ite, heq]
        split_ifs <;> rfl
      · rw [if_neg heq, lookup_cons_ite, lookup_cons_ite, ih]
        split_ifs with hk' hk
        · exact absurd (hk.symm.trans hk') heq
        · rfl
        · rfl
        · rfl

lemma lookup_sortMembers (members : List (String × α)) (k : String) :
    (sortMembers members).lookup k = members.reverse.lookup k := by
  have hfold (sorted : List (String × α)) :
      (members.foldl (fun sorted m => insertSorted m.1 m.2 sorted) sorted).lookup k =
        (members.reverse.lookup k).or (sorted.lookup k) := by
    induction members generalizing sorted with
    | nil => rfl
    | cons m ms ih =>
      rw [List.foldl_cons, ih, lookup_insertSorted, List.reverse_cons, List.lookup_append, Option.or_assoc,
        lookup_cons_ite]
      split_ifs <;> rfl
  rw [sortMembers, hfold, List.lookup_nil, Option.or_none]

lemma sorted_cons {m : String × α} : Sorted (m :: members) ↔ (∀ m' ∈ members, m.1 < m'.1) ∧ Sorted members :=
  List.pairwise_cons

lemma lookup_of_lt (h : ∀ m ∈ members, key < m.1) : members.lookup key = none := by
  rw [List.lookup_eq_none_iff]
  intro m hm
  simpa using (h m hm).ne

lemma mem_insertSorted {m : String × α} (h : m ∈ insertSorted key value members) :
    m = (key, value) ∨ m ∈ members := by
  induction members with
  | nil => exact .inl (List.mem_singleton.1 h)
  | cons m' ms ih =>
    obtain ⟨k', v'⟩ := m'
    rw [insertSorted] at h
    split_ifs at h
    · rcases List.mem_cons.1 h with rfl | h
      · exact .inl rfl
      · exact .inr h
    · rcases List.mem_cons.1 h with rfl | h
      · exact .inl rfl
      · exact .inr (List.mem_cons_of_mem _ h)
    · rcases List.mem_cons.1 h with rfl | h
      · exact .inr List.mem_cons_self
      · exact (ih h).imp_right (List.mem_cons_of_mem _)

lemma sorted_insertSorted (h : Sorted members) (key : String) (value : α) :
    Sorted (insertSorted key value members) := by
  induction members with
  | nil => exact List.pairwise_singleton _ _
  | cons m ms ih =>
    obtain ⟨k', v'⟩ := m
    obtain ⟨hfirst, hms⟩ := sorted_cons.1 h
    rw [insertSorted]
    split_ifs with hlt heq
    · refine sorted_cons.2 ⟨?_, h⟩
      intro m hm
      rcases List.mem_cons.1 hm with rfl | hm
      · exact hlt
      · exact hlt.trans (hfirst m hm)
    · exact sorted_cons.2 ⟨heq ▸ hfirst, hms⟩
    · refine sorted_cons.2 ⟨?_, ih hms⟩
      intro m hm
      rcases mem_insertSorted hm with rfl | hm
      · exact lt_of_le_of_ne (not_lt.1 hlt) (Ne.symm heq)
      · exact hfirst m hm

lemma perm_insertSorted (hnew : key ∉ members.map Prod.fst) (value : α) :
    (insertSorted key value members).Perm ((key, value) :: members) := by
  induction members with
  | nil => exact List.Perm.refl _
  | cons m ms ih =>
    obtain ⟨k', v'⟩ := m
    rw [List.map_cons, List.mem_cons, not_or] at hnew
    rw [insertSorted, if_neg hnew.1]
    split_ifs
    · exact List.Perm.refl _
    · exact ((ih hnew.2).cons _).trans (List.Perm.swap _ _ _)

/-- Members without a key twice are the same members when they are sorted. -/
lemma perm_sortMembers (hdistinct : (members.map Prod.fst).Nodup) : (sortMembers members).Perm members := by
  suffices hfold : ∀ sorted : List (String × α), ((sorted ++ members).map Prod.fst).Nodup →
      (members.foldl (fun sorted m => insertSorted m.1 m.2 sorted) sorted).Perm (sorted ++ members) from
    hfold [] hdistinct
  clear hdistinct
  induction members with
  | nil =>
    intro sorted _
    rw [List.append_nil]
    exact List.Perm.refl _
  | cons m ms ih =>
    intro sorted hdistinct
    have hnew : m.1 ∉ sorted.map Prod.fst := by
      rw [List.map_append, List.nodup_append] at hdistinct
      intro hmem
      exact hdistinct.2.2 _ hmem _ (by simp) rfl
    have hstep : (insertSorted m.1 m.2 sorted ++ ms).Perm (sorted ++ m :: ms) :=
      ((perm_insertSorted hnew m.2).append_right ms).trans List.perm_middle.symm
    exact (ih _ ((hstep.map _).nodup_iff.2 hdistinct)).trans hstep

lemma sorted_sortMembers (members : List (String × α)) : Sorted (sortMembers members) :=
  List.foldlRecOn (motive := Sorted) members _ List.Pairwise.nil
    fun _ hs m _ => sorted_insertSorted hs m.1 m.2

/-- No key before the first is found. -/
lemma le_of_lookup {m : String × α} (h : Sorted (m :: members)) (hfound : (m :: members).lookup key ≠ none) :
    m.1 ≤ key := by
  by_contra hlt
  have hbefore : ∀ m' ∈ m :: members, key < m'.1 := by
    rw [List.forall_mem_cons]
    exact ⟨not_le.1 hlt, fun m' hm' => (not_le.1 hlt).trans ((sorted_cons.1 h).1 m' hm')⟩
  exact hfound (lookup_of_lt hbefore)

/-- Sorted members are determined by what is found under every key. -/
lemma sorted_ext (h : Sorted members) (h' : Sorted members') (heq : ∀ k, members.lookup k = members'.lookup k) :
    members = members' := by
  have hself (m : String × α) (ms : List (String × α)) : (m :: ms).lookup m.1 ≠ none := by
    simp [lookup_cons_ite]
  induction members generalizing members' with
  | nil =>
    cases members' with
    | nil => rfl
    | cons m' ms' => exact absurd (heq m'.1).symm (hself m' ms')
  | cons m ms ih =>
    cases members' with
    | nil => exact absurd (heq m.1) (hself m ms)
    | cons m' ms' =>
      -- The first key of either list is found in the other one, so neither comes before the other.
      have hkey : m.1 = m'.1 :=
        le_antisymm (le_of_lookup h (heq m'.1 ▸ hself m' ms')) (le_of_lookup h' (heq m.1 ▸ hself m ms))
      obtain ⟨k, v₁⟩ := m
      obtain ⟨k₂, v₂⟩ := m'
      obtain rfl : k = k₂ := hkey
      have hvalue : v₁ = v₂ := by simpa [lookup_cons_ite] using heq k
      subst hvalue
      obtain ⟨hfirst, hms⟩ := sorted_cons.1 h
      obtain ⟨hfirst', hms'⟩ := sorted_cons.1 h'
      have hrest (k' : String) : ms.lookup k' = ms'.lookup k' := by
        by_cases hk : k' = k
        · subst hk
          rw [lookup_of_lt hfirst, lookup_of_lt hfirst']
        · have hfound := heq k'
          simpa [lookup_cons_ite, hk] using hfound
      rw [ih hms hms' hrest]

lemma lookup_reverse (hdistinct : (members.map Prod.fst).Nodup) (k : String) :
    members.reverse.lookup k = members.lookup k := by
  induction members with
  | nil => rfl
  | cons m ms ih =>
    rw [List.map_cons, List.nodup_cons] at hdistinct
    rw [List.reverse_cons, List.lookup_append, ih hdistinct.2, lookup_cons_ite, lookup_cons_ite]
    split_ifs with hk
    · have hnone : ms.lookup k = none := by
        rw [List.lookup_eq_none_iff]
        intro m' hm'
        have hmem : m'.1 ∈ ms.map Prod.fst := List.mem_map_of_mem hm'
        have hne : k ≠ m'.1 := by
          rintro rfl
          exact hdistinct.1 (hk ▸ hmem)
        simpa using hne
      rw [hnone]
      rfl
    · exact Option.or_none

lemma lookup_eq_some_iff_mem (hdistinct : (members.map Prod.fst).Nodup) :
    members.lookup key = some value ↔ (key, value) ∈ members := by
  induction members with
  | nil => simp
  | cons m ms ih =>
    obtain ⟨k, v⟩ := m
    rw [List.map_cons, List.nodup_cons] at hdistinct
    rw [lookup_cons_ite, List.mem_cons, Prod.mk.injEq, ← ih hdistinct.2]
    by_cases hk : key = k
    · subst hk
      have hnone : ms.lookup key ≠ some value := fun hfound =>
        hdistinct.1 (List.mem_map.2 ⟨_, (ih hdistinct.2).1 hfound, rfl⟩)
      simp [hnone, eq_comm]
    · simp [hk]

lemma nodup_of_sorted (h : Sorted members) : (members.map Prod.fst).Nodup :=
  List.pairwise_map.2 (h.imp fun hlt => hlt.ne)

lemma sortMembers_of_sorted (h : Sorted members) : sortMembers members = members := by
  refine sorted_ext (sorted_sortMembers members) h fun k => ?_
  rw [lookup_sortMembers, lookup_reverse (nodup_of_sorted h)]

/-! ## Values -/

lemma sortItems_eq_map (items : List Json) : sortItems items = items.map sortKeys := by
  induction items with
  | nil => rfl
  | cons v vs ih => rw [sortItems, ih, List.map_cons]

lemma sortValues_eq_map (members : List (String × Json)) :
    sortValues members = members.map fun m => (m.1, m.2.sortKeys) := by
  induction members with
  | nil => rfl
  | cons m ms ih => rw [sortValues, ih, List.map_cons]

lemma mem_of_mem_sortMembers {m : String × α} (h : m ∈ sortMembers members) : m ∈ members := by
  suffices hfold : ∀ sorted, m ∈ members.foldl (fun sorted m => insertSorted m.1 m.2 sorted) sorted →
      m ∈ sorted ∨ m ∈ members from (hfold [] h).resolve_left List.not_mem_nil
  clear h
  induction members with
  | nil => exact fun sorted hm => .inl hm
  | cons m' ms ih =>
    intro sorted hm
    rcases ih _ hm with hin | hin
    · rcases mem_insertSorted hin with rfl | hin
      · exact .inr List.mem_cons_self
      · exact .inl hin
    · exact .inr (List.mem_cons_of_mem _ hin)

lemma sortKeys_of_sorted {members : List (String × Json)} (h : Sorted members)
    (hvalues : ∀ m ∈ members, m.2.sortKeys = m.2) : (object members).sortKeys = object members := by
  have hfixed : ∀ m ∈ members, (m.1, m.2.sortKeys) = m := by
    intro m hm
    rw [hvalues m hm]
  rw [sortKeys, sortValues_eq_map, List.map_congr_left hfixed, List.map_id', sortMembers_of_sorted h]

lemma sortKeys_pair {a b : String} {v w : Json} (hlt : a < b) (hv : v.sortKeys = v) (hw : w.sortKeys = w) :
    (object [(a, v), (b, w)]).sortKeys = object [(a, v), (b, w)] := by
  refine sortKeys_of_sorted (List.pairwise_pair.2 hlt) ?_
  simp only [List.forall_mem_cons]
  exact ⟨hv, hw, by simp⟩

lemma exists_of_mem_sorted {members : List (String × Json)} {m : String × Json}
    (hm : m ∈ sortMembers (sortValues members)) : ∃ m' ∈ members, (m'.1, m'.2.sortKeys) = m := by
  have hmem := mem_of_mem_sortMembers hm
  rw [sortValues_eq_map] at hmem
  exact List.mem_map.1 hmem

@[simp] theorem sortKeys_sortKeys (v : Json) : v.sortKeys.sortKeys = v.sortKeys := by
  induction v using inductionOn with
  | null | bool | number | string => rfl
  | array items ih =>
    rw [sortKeys, sortKeys, sortItems_eq_map, sortItems_eq_map, List.map_map]
    exact congrArg array (List.map_congr_left ih)
  | object members ih =>
    rw [sortKeys]
    refine sortKeys_of_sorted (sorted_sortMembers _) fun m hm => ?_
    obtain ⟨m', hm', rfl⟩ := exists_of_mem_sorted hm
    exact ih m' hm'

lemma member?_sortKeys {members : List (String × Json)} (hdistinct : (members.map Prod.fst).Nodup) (key : String) :
    (sortKeys (.object members)).member? key = (members.lookup key).map sortKeys := by
  have hkeys : (sortValues members).map Prod.fst = members.map Prod.fst := by
    rw [sortValues_eq_map, List.map_map]
    rfl
  rw [sortKeys, member?, lookup_sortMembers, lookup_reverse (hkeys ▸ hdistinct), sortValues_eq_map, lookup_map_snd]

end UiCatalog.Json
