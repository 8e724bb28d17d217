import UiCatalog.Catalog
import UiCatalog.Proofs.JsonOrder
import UiCatalog.Proofs.VariantText

/-!
# Reading a catalog back

Every record is read back from the JSON that it is written as: texts and flags as they are, lists and maps in
their order, fields that are left out as their defaults. Secondary components are read one level further in,
so a catalog is read back from its file when it is not nested too deeply.
-/
namespace UiCatalog

open Json

namespace Json.Record

variable {α : Type} {read : Reader α} {x missing : α} {v w : Json} {members : List (String × Json)}
  {keys : List String} {key : String} {room : Nat}

/-- `read` gives `x` from the written form of `v`, if there is room for its levels. -/
def ReadsAs (read : Reader α) (v : Json) (x : α) : Prop := ∀ room, v.depth ≤ room → read room v.tree = some x

/-- An object with some of the fields, in their declared order. -/
def IsRecord (keys : List String) (v : Json) : Prop :=
  ∃ members, v = .object members ∧ (members.map Prod.fst).Sublist keys

/-- The fields of a record as they are written. -/
def writtenFields : Json → List (String × Written)
  | .object members => members.map fun m => (m.1, m.2.tree)
  | _ => []

/-! ## Fields -/

lemma lookup_writtenFields (v : Json) (key : String) : (writtenFields v).lookup key = (v.member? key).map tree := by
  cases v with
  | object members => exact lookup_map_snd tree members key
  | _ => rfl

lemma declaredFields_memberTrees (hkeys : ∀ m ∈ members, m.1 ∈ keys) (hdistinct : (members.map Prod.fst).Nodup) :
    declaredFields keys false (memberTrees members) = some (writtenFields (.object members)) := by
  induction members with
  | nil => rfl
  | cons m ms ih =>
    obtain ⟨key, v⟩ := m
    obtain ⟨hkey, hms⟩ := List.forall_mem_cons.1 hkeys
    rw [List.map_cons, List.nodup_cons] at hdistinct
    have hnone : (writtenFields (.object ms)).lookup key = none := by
      rw [lookup_writtenFields, Option.map_eq_none_iff, member?, List.lookup_eq_none_iff]
      intro m hm
      have hmem : m.1 ∈ ms.map Prod.fst := List.mem_map_of_mem hm
      have hne : key ≠ m.1 := by
        rintro rfl
        exact hdistinct.1 hmem
      simpa using hne
    have hrest := ih hms hdistinct.2
    have hin : keys.contains key = true := List.contains_iff_mem.2 hkey
    simp only [memberTrees, declaredFields, text?_pieces, hrest, hin, hnone, Option.bind_eq_bind, Option.bind_some,
      Option.isSome_none, if_true, Bool.false_eq_true, if_false]
    rfl

/-- Of a record that is written in the declared order all fields are found. -/
lemma fields?_tree (h : IsRecord keys v) (hdistinct : keys.Nodup) :
    fields? keys false v.tree = some (writtenFields v) := by
  obtain ⟨members, rfl, hkeys⟩ := h
  exact declaredFields_memberTrees (fun _ hm => hkeys.subset (List.mem_map_of_mem hm)) (hdistinct.sublist hkeys)

lemma exists_room (hv : v = .object members)
    (h : v.depth ≤ room) : ∃ k, room = k + 1 := by
  rw [hv, depth] at h
  exact ⟨room - 1, by omega⟩

lemma depth_member (h : v.member? key = some w) (hroom : v.depth ≤ room + 1) : w.depth ≤ room := by
  cases v with
  | object members =>
    rw [depth, Nat.add_le_add_iff_right, depthOfMembers_le_iff] at hroom
    obtain ⟨l₁, l₂, rfl, -⟩ := List.lookup_eq_some_iff.1 h
    exact hroom (key, w) (by simp)
  | _ => cases h

lemma required?_member (v : Json) (key : String) (hread : ReadsAs read w x) (h : v.member? key = some w)
    (hroom : v.depth ≤ room + 1) : required? (writtenFields v) key (read room) = some x := by
  rw [required?, lookup_writtenFields, h]
  exact hread room (depth_member h hroom)

lemma withDefault?_member (v : Json) (key : String) (missing : α) (hread : ReadsAs read w x)
    (h : v.member? key = some w) (hroom : v.depth ≤ room + 1) :
    withDefault? (writtenFields v) key missing (read room) = some x := by
  rw [withDefault?, lookup_writtenFields, h]
  exact hread room (depth_member h hroom)

lemma withDefault?_of_absent {read : Written → Option α} (h : v.member? key = none) :
    withDefault? (writtenFields v) key missing read = some missing := by
  rw [withDefault?, lookup_writtenFields, h]
  rfl

/-! ## Values -/

lemma readsAs_text (s : String) : ReadsAs readText (.string s) s := fun _ _ => text?_pieces s

lemma readsAs_bool (b : Bool) : ReadsAs readBool (.bool b) b := fun _ _ => rfl

lemma readsAs_optionalText (s : Option String) : ReadsAs (readOptional readText) (Json.ofText? s) s := by
  rintro room -
  cases s with
  | none => rfl
  | some s => exact congrArg (Option.map some) (text?_pieces s)

lemma readsAs_nat {n max : Nat} (hn : n ≤ max) (hmax : max < Numeral.wordBound) :
    ReadsAs (readNat max) (Json.nat n) n := by
  rintro room -
  have hlt : n < Numeral.wordBound := by omega
  simp [readNat, Json.nat, tree, Number.numeral, Numeral.integer?, naturalOf_toDigits, hlt, hn]

lemma mapM_map_of_forall {β γ : Type} {f : β → Option γ} {g : γ → β} {xs : List γ}
    (h : ∀ x ∈ xs, f (g x) = some x) : (xs.map g).mapM f = some xs := by
  induction xs with
  | nil => rfl
  | cons x xs ih =>
    obtain ⟨hx, hxs⟩ := List.forall_mem_cons.1 h
    rw [List.map_cons, List.mapM_cons, hx, ih hxs]
    rfl

lemma readsAs_list {f : α → Json} {xs : List α} (h : ∀ x ∈ xs, ReadsAs read (f x) x) :
    ReadsAs (readList read) (.array (xs.map f)) xs := by
  rintro room hroom
  obtain ⟨room, rfl⟩ : ∃ k, room = k + 1 := ⟨room - 1, by rw [depth] at hroom; omega⟩
  rw [depth, Nat.add_le_add_iff_right, depthOfItems_le_iff, List.forall_mem_map] at hroom
  rw [tree, trees_eq_map, List.map_map]
  exact mapM_map_of_forall fun x hx => h x hx room (hroom x hx)

/-- A map is read back in its order. -/
lemma readsAs_map {f : α → Json} {m : OrderedMap α} (h : ∀ e ∈ m.entries, ReadsAs read (f e.2) e.2) :
    ReadsAs (readMap read) (.object (m.entries.map fun e => (e.1, f e.2))) m := by
  rintro room hroom
  obtain ⟨room, rfl⟩ : ∃ k, room = k + 1 := ⟨room - 1, by rw [depth] at hroom; omega⟩
  rw [depth, Nat.add_le_add_iff_right, depthOfMembers_le_iff, List.forall_mem_map] at hroom
  have hentries := mapM_map_of_forall (g := fun e => (pieces e.1, (f e.2).tree))
    (f := fun p => do return ((← Written.text? p.1), (← read room p.2))) fun e (he : e ∈ m.entries) => by
      simp [h e he room (hroom e he)]
  rw [tree, memberTrees_eq_map, List.map_map, readMap, enter]
  refine Eq.trans (congrArg (Option.bind · _) hentries) ?_
  exact congrArg some (OrderedMap.ofList_entries m)

end Json.Record

open Json.Record

/-! ## Records -/

lemma Property.readsAs (p : Property) : ReadsAs Property.read p.toJson p := by
  intro room hroom
  obtain ⟨room, rfl⟩ := exists_room rfl hroom
  have hrecord : IsRecord ["name", "type", "description", "default", "required"] p.toJson :=
    ⟨_, rfl, by cases p.default? <;> simp⟩
  have hfields := fields?_tree hrecord (by decide)
  have hname := required?_member p.toJson "name" (readsAs_text p.name) rfl hroom
  have htype := withDefault?_member p.toJson "type" "" (readsAs_text p.type) rfl hroom
  have hdescription := withDefault?_member p.toJson "description" "" (readsAs_text p.description) rfl hroom
  have hdefault :
      withDefault? (writtenFields p.toJson) "default" none (readOptional readText room) = some p.default? := by
    cases hcase : p.default? with
    | none => exact withDefault?_of_absent (by simp [Property.toJson, member?, hcase])
    | some text =>
      have hmember : p.toJson.member? "default" = some (Json.ofText? (some text)) := by
        simp [Property.toJson, member?, List.lookup_cons, hcase, Json.ofText?]
      exact withDefault?_member p.toJson "default" none (readsAs_optionalText (some text)) hmember hroom
  have hmember : p.toJson.member? "required" = some (.bool p.required) := by
    cases hcase : p.default? <;> simp [Property.toJson, member?, List.lookup_cons, hcase]
  have hrequired := withDefault?_member p.toJson "required" false (readsAs_bool p.required) hmember hroom
  simp only [Property.read, enter, hfields, hname, htype, hdescription, hdefault, hrequired, Option.bind_eq_bind,
    Option.bind_some, Option.pure_def]

lemma SubComponent.readsAs (s : SubComponent) : ReadsAs SubComponent.read s.toJson s := by
  intro room hroom
  obtain ⟨room, rfl⟩ := exists_room rfl hroom
  have hrecord : IsRecord ["name", "description"] s.toJson := ⟨_, rfl, .refl _⟩
  have hfields := fields?_tree hrecord (by decide)
  have hname := required?_member s.toJson "name" (readsAs_text s.name) rfl hroom
  have hdescription := withDefault?_member s.toJson "description" "" (readsAs_text s.description) rfl hroom
  simp only [SubComponent.read, enter, hfields, hname, hdescription, Option.bind_eq_bind, Option.bind_some,
    Option.pure_def]

lemma Example.Kind.readsAs (k : Example.Kind) : ReadsAs Example.Kind.read (.string k.name) k := by
  intro room _
  have hname : ofName? k.name = some k := by cases k <;> decide
  rw [tree, Example.Kind.read, text?_pieces, Option.bind_some, hname]

lemma Example.readsAs (e : Example) : ReadsAs Example.read e.toJson e := by
  intro room hroom
  obtain ⟨room, rfl⟩ := exists_room rfl hroom
  have hrecord : IsRecord ["title", "code", "type"] e.toJson := ⟨_, rfl, .refl _⟩
  have hfields := fields?_tree hrecord (by decide)
  have htitle := required?_member e.toJson "title" (readsAs_text e.title) rfl hroom
  have hcode := required?_member e.toJson "code" (readsAs_text e.code) rfl hroom
  have hkind := required?_member e.toJson "type" (Kind.readsAs e.kind) rfl hroom
  simp only [Example.read, enter, hfields, htitle, hcode, hkind, Option.bind_eq_bind, Option.bind_some, Option.pure_def]

lemma readsAs_variants (variants : OrderedMap (List String)) :
    ReadsAs (readMap (readList readText)) (variantsJson variants) variants :=
  readsAs_map (f := Json.strings) fun _ _ =>
    readsAs_list (f := Json.string) fun s _ => readsAs_text s

lemma readsAs_defaultVariants (defaults : OrderedMap String) :
    ReadsAs (readMap readText) (defaultVariantsJson defaults) defaults :=
  readsAs_map (f := Json.string) fun e _ => readsAs_text e.2

namespace Descriptor

variable {α : Type} {d : Descriptor} {read : Reader α} {v : Json} {x : α} {room : Nat}

lemma listToJson_eq_map (ds : List Descriptor) : listToJson ds = ds.map toJson := by
  induction ds with
  | nil => rfl
  | cons d ds ih => rw [listToJson, ih, List.map_cons]

/-- The fields that are always written. -/
def fixedMembers (d : Descriptor) : List (String × Json) :=
  [("name", .string d.name),
    ("description", .string d.description),
    ("importStatement", .string d.importStatement),
    ("props", .array (d.properties.map Property.toJson)),
    ("variants", variantsJson d.variants),
    ("defaultVariants", defaultVariantsJson d.defaultVariants),
    ("subComponents", .array (d.subComponents.map SubComponent.toJson)),
    ("hasForwardRef", .bool d.forwardsRef),
    ("examples", .array (d.examples.map Example.toJson)),
    ("filePath", .string d.filePath)]

def members (d : Descriptor) : List (String × Json) :=
  d.fixedMembers ++
    if d.subDescriptors.isEmpty then [] else [("subComponentDocs", .array (d.subDescriptors.map toJson))]

lemma toJson_eq (d : Descriptor) : d.toJson = .object d.members := by
  cases d
  rw [toJson, listToJson_eq_map]
  rfl

lemma sublist_members (d : Descriptor) : (d.members.map Prod.fst).Sublist fieldNames := by
  rw [members]
  split_ifs
  · exact List.sublist_append_left _ ["subComponentDocs"]
  · exact .refl _

lemma member?_toJson {key : String} {v : Json} (h : d.fixedMembers.lookup key = some v) :
    d.toJson.member? key = some v := by
  rw [toJson_eq, member?, members, List.lookup_append, h, Option.some_or]

/-- A field that is always written is read back. -/
lemma withDefault?_fixed (key : String) (missing : α) (hread : ReadsAs read v x)
    (h : d.fixedMembers.lookup key = some v) (hroom : d.toJson.depth ≤ room + 1) :
    withDefault? (writtenFields d.toJson) key missing (read room) = some x :=
  withDefault?_member d.toJson key missing hread (member?_toJson h) hroom

lemma sizeOf_lt_of_mem {s : Descriptor} (h : s ∈ d.subDescriptors) : sizeOf s < sizeOf d := by
  have hlt := List.sizeOf_lt_of_mem h
  cases d
  dsimp only at hlt
  simp only [mk.sizeOf_spec]
  omega

lemma read_succ (room : Nat) (w : Written) :
    Descriptor.read (room + 1) w = readFields room (readList Descriptor.read room) w := by
  cases room <;> rfl

lemma withDefault?_subDescriptors (h : ∀ s ∈ d.subDescriptors, ReadsAs Descriptor.read s.toJson s)
    (hroom : d.toJson.depth ≤ room + 1) :
    withDefault? (writtenFields d.toJson) "subComponentDocs" [] (readList Descriptor.read room) =
      some d.subDescriptors := by
  have hfixed : d.fixedMembers.lookup "subComponentDocs" = none := by simp [fixedMembers, List.lookup_cons]
  -- An empty list is not written, and reads as the default.
  by_cases hnone : d.subDescriptors = []
  · have habsent : d.toJson.member? "subComponentDocs" = none := by
      rw [toJson_eq, member?, members, List.lookup_append, hfixed, hnone]
      rfl
    rw [hnone]
    exact withDefault?_of_absent habsent
  · have hmember : d.toJson.member? "subComponentDocs" = some (.array (d.subDescriptors.map toJson)) := by
      rw [toJson_eq, member?, members, List.lookup_append, hfixed, if_neg (by simpa using hnone)]
      simp
    exact withDefault?_member d.toJson "subComponentDocs" [] (readsAs_list h) hmember hroom

/-- A descriptor is read back with all descriptors of its secondary components. -/
theorem readsAs (d : Descriptor) : ReadsAs Descriptor.read d.toJson d := by
  intro room hroom
  obtain ⟨room, rfl⟩ := exists_room (toJson_eq d) hroom
  have hrecord : IsRecord fieldNames d.toJson := ⟨_, toJson_eq d, sublist_members d⟩
  have hfields := fields?_tree hrecord (by decide)
  have hname := required?_member d.toJson "name" (readsAs_text d.name) (member?_toJson rfl) hroom
  have hdescription := withDefault?_fixed "description" "" (readsAs_text d.description) rfl hroom
  have himport := withDefault?_fixed "importStatement" "" (readsAs_text d.importStatement) rfl hroom
  have hproperties := withDefault?_fixed "props" [] (readsAs_list fun p _ => Property.readsAs p) rfl hroom
  have hvariants := withDefault?_fixed "variants" .empty (readsAs_variants d.variants) rfl hroom
  have hdefaults := withDefault?_fixed "defaultVariants" .empty (readsAs_defaultVariants d.defaultVariants) rfl hroom
  have hsubs := withDefault?_fixed "subComponents" [] (readsAs_list fun s _ => SubComponent.readsAs s) rfl hroom
  have hforwards := withDefault?_fixed "hasForwardRef" false (readsAs_bool d.forwardsRef) rfl hroom
  have hexamples := withDefault?_fixed "examples" [] (readsAs_list fun e _ => Example.readsAs e) rfl hroom
  have hpath := withDefault?_fixed "filePath" "" (readsAs_text d.filePath) rfl hroom
  have hdocs := withDefault?_subDescriptors (fun s _ => readsAs s) hroom
  rw [read_succ, readFields]
  simp only [hfields, hname, hdescription, himport, hproperties, hvariants, hdefaults, hsubs, hforwards, hexamples,
    hpath, hdocs, Option.bind_eq_bind, Option.bind_some, Option.pure_def]
  cases d
  rfl
termination_by d
decreasing_by exact sizeOf_lt_of_mem ‹s ∈ d.subDescriptors›

lemma fits_toJson (d : Descriptor) : d.toJson.Fits := by
  have hproperties : ∀ v ∈ d.properties.map Property.toJson, v.Fits := by
    intro v hv
    obtain ⟨p, -, rfl⟩ := List.mem_map.1 hv
    cases hdefault : p.default? <;> simp [Property.toJson, hdefault, Fits]
  have hvariants : (variantsJson d.variants).Fits := by
    rw [variantsJson, Fits, membersFit_iff, List.forall_mem_map]
    intro e _
    simp [Json.strings, Fits]
  have hdefaults : (defaultVariantsJson d.defaultVariants).Fits := by
    rw [defaultVariantsJson, Fits, membersFit_iff, List.forall_mem_map]
    intro e _
    trivial
  have hsubs : ∀ v ∈ d.subComponents.map SubComponent.toJson, v.Fits := by
    simp [SubComponent.toJson, Fits]
  have hexamples : ∀ v ∈ d.examples.map Example.toJson, v.Fits := by
    simp [Example.toJson, Fits]
  have hdocs : ∀ v ∈ d.subDescriptors.map toJson, v.Fits := by
    intro v hv
    obtain ⟨s, hs, rfl⟩ := List.mem_map.1 hv
    exact fits_toJson s
  have hfixed : ∀ m ∈ d.fixedMembers, m.2.Fits := by
    simp only [fixedMembers, List.forall_mem_cons, Fits, itemsFit_iff]
    exact ⟨trivial, trivial, trivial, hproperties, hvariants, hdefaults, hsubs, trivial, hexamples, trivial,
      by simp⟩
  rw [toJson_eq, Fits, membersFit_iff, members, List.forall_mem_append]
  refine ⟨hfixed, ?_⟩
  split_ifs
  · simp
  · simpa [Fits] using hdocs
termination_by d
decreasing_by exact sizeOf_lt_of_mem hs

end Descriptor

namespace Catalog

lemma fits_toJson {catalog : Catalog} (hcount : catalog.totalComponents ≤ maxCount) : catalog.toJson.Fits := by
  have htime : (Json.ofText? catalog.generatedAt).Fits := by
    cases catalog.generatedAt <;> trivial
  have htotal : (Json.nat catalog.totalComponents).Fits := by
    rw [maxCount] at hcount
    have hlt : catalog.totalComponents < twoPower 64 := by
      have hpos : 0 < twoPower 64 := by decide
      omega
    exact hlt
  have hcomponents : ∀ v ∈ catalog.components.map Descriptor.toJson, v.Fits := by
    intro v hv
    obtain ⟨d, -, rfl⟩ := List.mem_map.1 hv
    exact Descriptor.fits_toJson d
  simp only [toJson, Fits, membersFit_iff, List.forall_mem_cons, itemsFit_iff]
  exact ⟨htime, htotal, hcomponents, by simp⟩

lemma readsAs {catalog : Catalog} (hcount : catalog.totalComponents ≤ maxCount) :
    ReadsAs read catalog.toJson catalog := by
  intro room hroom
  obtain ⟨room, rfl⟩ := exists_room rfl hroom
  have hrecord : IsRecord ["generatedAt", "totalComponents", "components"] catalog.toJson := ⟨_, rfl, .refl _⟩
  have hfields := fields?_tree hrecord (by decide)
  have htime := withDefault?_member catalog.toJson "generatedAt" none (readsAs_optionalText catalog.generatedAt)
    rfl hroom
  have htotal := withDefault?_member catalog.toJson "totalComponents" 0 (readsAs_nat hcount (by decide)) rfl hroom
  have hcomponents := withDefault?_member catalog.toJson "components" []
    (readsAs_list fun d _ => Descriptor.readsAs d) rfl hroom
  simp only [read, enter, hfields, htime, htotal, hcomponents, Option.bind_eq_bind, Option.bind_some, Option.pure_def]

/-- A catalog is read back from its file: every field, and every list and map in its order. -/
theorem ofText?_fileText (catalog : Catalog) (hcount : catalog.totalComponents ≤ maxCount)
    (hdepth : catalog.toJson.depth ≤ Written.maxDepth) : ofText? catalog.fileText = some catalog := by
  have hgap : IsGap ['\n'] := by simp [IsGap, Written.isSpace]
  have hlines := valueText_pretty (fits_toJson hcount) 0
  have htree := ofText?_valueText hlines isGap_nil hgap
  have htext : catalog.fileText = String.ofList ([] ++ (catalog.toJson.prettyChars 0 ++ ['\n'])) := by
    rw [List.nil_append, String.ofList_append]
    rfl
  rw [ofText?, htext, htree]
  exact readsAs hcount _ hdepth

/-- A catalog with a compound component, in which no list and no map is in the order of its names. -/
def compoundCatalog : Catalog where
  generatedAt := some "2025-01-01T00:00:00Z"
  totalComponents := 7
  components := [{
    name := "Card"
    description := "A \"card\" \\ panel\n\t\x01 for 名前 and 🙂"
    importStatement := "import \x7b Card \x7d from \"@ui/card\""
    properties := [
      { name := "tone", type := "\"b\" | \"a\"", default? := some "\"b\"" },
      { name := "title", required := true }]
    variants := ⟨[("tone", ["b", "a"]), ("size", [])], by decide⟩
    defaultVariants := ⟨[("tone", "b"), ("size", "")], by decide⟩
    subComponents := [⟨"CardTitle", "Heading"⟩, ⟨"CardBody", ""⟩]
    forwardsRef := true
    examples := [⟨"", "<Card />", .live⟩, ⟨"Import", "", .importLine⟩]
    filePath := "src/components/card/Card.jsx"
    subDescriptors := [
      { name := "CardTitle", subDescriptors := [{ name := "Icon" }] },
      { name := "CardBody", properties := [{ name := "ref", default? := some "" }] }] }]

theorem ofText?_fileText_of_compound : compoundCatalog.totalComponents ≤ maxCount ∧
    compoundCatalog.toJson.depth ≤ Written.maxDepth ∧ ofText? compoundCatalog.fileText = some compoundCatalog := by
  have hcount : compoundCatalog.totalComponents ≤ maxCount := by decide
  have hdepth : compoundCatalog.toJson.depth ≤ Written.maxDepth := by cbv
  exact ⟨hcount, hdepth, ofText?_fileText compoundCatalog hcount hdepth⟩

end Catalog

end UiCatalog
