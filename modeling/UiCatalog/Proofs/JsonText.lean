import UiCatalog.Proofs.NumberText

/-!
# Texts of JSON values

A value may be written with any white space between its tokens. Every such text reads as the tree of the
value, and the tree stands for the value with its members in order, where the value is not nested too deeply.
The texts that `pretty` writes are among them.
-/
namespace UiCatalog.Json

open Written

/-! ## Trees -/

/-- A control character without a short escape is written by its number. -/
def pieceOf (c : Char) : Piece :=
  if c.toNat < 0x20 ∧ c ∉ ['\x08', '\t', '\n', '\x0c', '\r'] then .unit c.toNat else .char c

def pieces (s : String) : List Piece := s.toList.map pieceOf

mutual

/-- The tree that the texts of a value read as. -/
def tree : Json → Written
  | null => .null
  | bool b => .bool b
  | number n => .number n.numeral
  | string s => .string (pieces s)
  | array items => .array (trees items)
  | object members => .object (memberTrees members)

def trees : List Json → List Written
  | [] => []
  | v :: vs => v.tree :: trees vs

def memberTrees : List (String × Json) → List (List Piece × Written)
  | [] => []
  | (key, v) :: rest => (pieces key, v.tree) :: memberTrees rest

end

mutual

/-- The number of levels of arrays and objects. -/
def depth : Json → Nat
  | array items => depthOfItems items + 1
  | object members => depthOfMembers members + 1
  | _ => 0

def depthOfItems : List Json → Nat
  | [] => 0
  | v :: vs => max v.depth (depthOfItems vs)

def depthOfMembers : List (String × Json) → Nat
  | [] => 0
  | (_, v) :: rest => max v.depth (depthOfMembers rest)

end

mutual

/-- All numbers are integers of 64 bits. -/
def Fits : Json → Prop
  | number n => n.Fits
  | array items => ItemsFit items
  | object members => MembersFit members
  | _ => True

def ItemsFit : List Json → Prop
  | [] => True
  | v :: vs => v.Fits ∧ ItemsFit vs

def MembersFit : List (String × Json) → Prop
  | [] => True
  | (_, v) :: rest => v.Fits ∧ MembersFit rest

end

/-! ## Texts -/

mutual

/-- The texts of a value. -/
inductive ValueText : Json → List Char → Prop
  | null : ValueText .null "null".toList
  | bool (b : Bool) : ValueText (.bool b) (if b then "true" else "false").toList
  | number {n : Number} : n.Proper → ValueText (.number n) n.chars
  | string (s : String) : ValueText (.string s) (quote s)
  | noItems {w} : IsGap w → ValueText (.array []) ('[' :: (w ++ [']']))
  | array {items t} : ItemsText items t → ValueText (.array items) ('[' :: (t ++ [']']))
  | noMembers {w} : IsGap w → ValueText (.object []) ('\x7b' :: (w ++ ['\x7d']))
  | object {members t} : MembersText members t → ValueText (.object members) ('\x7b' :: (t ++ ['\x7d']))

inductive ItemsText : List Json → List Char → Prop
  | last {v w t w'} : IsGap w → ValueText v t → IsGap w' → ItemsText [v] (w ++ (t ++ w'))
  | cons {v vs w t w' rest} : IsGap w → ValueText v t → IsGap w' → ItemsText vs rest →
      ItemsText (v :: vs) (w ++ (t ++ (w' ++ ',' :: rest)))

inductive MemberText : String × Json → List Char → Prop
  | mk {key v w w' u t} : IsGap w → IsGap w' → IsGap u → ValueText v t →
      MemberText (key, v) (w ++ (quote key ++ (w' ++ ':' :: (u ++ t))))

inductive MembersText : List (String × Json) → List Char → Prop
  | last {m t w} : MemberText m t → IsGap w → MembersText [m] (t ++ w)
  | cons {m ms t w rest} : MemberText m t → IsGap w → MembersText ms rest →
      MembersText (m :: ms) (t ++ (w ++ ',' :: rest))

end

variable {v : Json} {s t w rest : List Char} {c : Char} {n bound room : Nat}

/-! ## Induction on values -/

/-- What holds of a value when it holds of its parts holds of every value. -/
@[elab_as_elim]
theorem inductionOn {motive : Json → Prop} (v : Json) (null : motive .null) (bool : ∀ b, motive (.bool b))
    (number : ∀ n, motive (.number n)) (string : ∀ s, motive (.string s))
    (array : ∀ items, (∀ v ∈ items, motive v) → motive (.array items))
    (object : ∀ members, (∀ m ∈ members, motive m.2) → motive (.object members)) : motive v :=
  match v with
  | .null => null
  | .bool b => bool b
  | .number n => number n
  | .string s => string s
  | .array items => array items fun v _ => inductionOn v null bool number string array object
  | .object members => object members fun m _ => inductionOn m.2 null bool number string array object
termination_by v
decreasing_by
  all_goals simp_wf
  · have hmem := List.sizeOf_lt_of_mem ‹v ∈ items›
    omega
  · have hmem := List.sizeOf_lt_of_mem ‹m ∈ members›
    have hvalue : sizeOf m = 1 + sizeOf m.1 + sizeOf m.2 := rfl
    omega

@[simp] lemma trees_eq_map (items : List Json) : trees items = items.map tree := by
  induction items with
  | nil => rfl
  | cons v vs ih => rw [trees, ih, List.map_cons]

@[simp] lemma memberTrees_eq_map (members : List (String × Json)) :
    memberTrees members = members.map fun m => (pieces m.1, m.2.tree) := by
  induction members with
  | nil => rfl
  | cons m ms ih => rw [memberTrees, ih, List.map_cons]

@[simp] lemma itemsFit_iff (items : List Json) : ItemsFit items ↔ ∀ v ∈ items, v.Fits := by
  induction items with
  | nil => simp [ItemsFit]
  | cons v vs ih => simp [ItemsFit, ih]

@[simp] lemma membersFit_iff (members : List (String × Json)) :
    MembersFit members ↔ ∀ m ∈ members, m.2.Fits := by
  induction members with
  | nil => simp [MembersFit]
  | cons m ms ih => rw [MembersFit, ih, List.forall_mem_cons]

@[simp] lemma depthOfItems_le_iff (items : List Json) :
    depthOfItems items ≤ room ↔ ∀ v ∈ items, v.depth ≤ room := by
  induction items with
  | nil => simp [depthOfItems]
  | cons v vs ih => rw [depthOfItems, Nat.max_le, ih, List.forall_mem_cons]

@[simp] lemma depthOfMembers_le_iff (members : List (String × Json)) :
    depthOfMembers members ≤ room ↔ ∀ m ∈ members, m.2.depth ≤ room := by
  induction members with
  | nil => simp [depthOfMembers]
  | cons m ms ih => rw [depthOfMembers, Nat.max_le, ih, List.forall_mem_cons]

/-! ## String literals -/

lemma hexDigit?_digitChar : ∀ d < 16, hexDigit? (Nat.digitChar d) = some d := by
  decide

lemma PiecesText.escapeChar (c : Char) {ps : List Piece} (h : PiecesText ps t) :
    PiecesText (pieceOf c :: ps) (escapeChar c ++ t) := by
  by_cases hshort : c ∈ ['"', '\\', '\x08', '\t', '\n', '\x0c', '\r']
  · simp only [List.mem_cons, List.not_mem_nil, or_false] at hshort
    rcases hshort with rfl | rfl | rfl | rfl | rfl | rfl | rfl <;> exact .short (by decide) h
  · simp only [List.mem_cons, List.not_mem_nil, or_false, not_or] at hshort
    obtain ⟨hquote, hback, h8, ht, hn, hc, hr⟩ := hshort
    by_cases hcontrol : c.toNat < 0x20
    · have hhigh := hexDigit?_digitChar (c.toNat / 16) (by omega)
      have hlow := hexDigit?_digitChar (c.toNat % 16) (by omega)
      have hzero : hexDigit? '0' = some 0 := by decide
      have hunit : hexUnit? '0' '0' (Nat.digitChar (c.toNat / 16)) (Nat.digitChar (c.toNat % 16)) = some c.toNat := by
        simp only [hexUnit?, hzero, hhigh, hlow, Option.bind_eq_bind, Option.bind_some, Option.pure_def,
          Option.some.injEq]
        omega
      have hpiece : pieceOf c = .unit c.toNat := by simp [pieceOf, *]
      have hself : Json.escapeChar c =
          ['\\', 'u', '0', '0', Nat.digitChar (c.toNat / 16), Nat.digitChar (c.toNat % 16)] := by
        simp [Json.escapeChar, *]
      rw [hpiece, hself]
      exact .unit hunit h
    · have hpiece : pieceOf c = .char c := by simp [pieceOf, hcontrol]
      have hself : Json.escapeChar c = [c] := by simp [Json.escapeChar, *]
      rw [hpiece, hself]
      exact .plain hquote hback hcontrol h

lemma piecesText_pieces (s : String) : PiecesText (pieces s) (s.toList.flatMap escapeChar) := by
  rw [pieces]
  induction s.toList with
  | nil => exact .nil
  | cons c cs ih => exact ih.escapeChar c

lemma mem_of_shortEscape? {e : Char} (h : shortEscape? e = some c) :
    e ∈ ['"', '\\', '/', 'b', 'f', 'n', 'r', 't'] := by
  simp only [List.mem_cons, List.not_mem_nil, or_false]
  unfold shortEscape? at h
  split_ifs at h <;> grind

lemma isAlphanum_of_hexDigit? (h : hexDigit? c = some n) : c.isAlphanum = true := by
  unfold hexDigit? at h
  split_ifs at h with hdigit hlower hupper
  · simp [Char.isAlphanum, hdigit]
  · have hz : 'f' ≤ 'z' := by decide
    have hletter : c.isLower = true := by simpa [Char.isLower] using ⟨hlower.1, Char.le_trans hlower.2 hz⟩
    simp [Char.isAlphanum, Char.isAlpha, hletter]
  · have hz : 'F' ≤ 'Z' := by decide
    have hletter : c.isUpper = true := by simpa [Char.isUpper] using ⟨hupper.1, Char.le_trans hupper.2 hz⟩
    simp [Char.isAlphanum, Char.isAlpha, hletter]

lemma isAlphanum_of_hexUnit? {h₁ h₂ h₃ h₄ : Char} (h : hexUnit? h₁ h₂ h₃ h₄ = some n) :
    ∀ c ∈ [h₁, h₂, h₃, h₄], c.isAlphanum = true := by
  simp only [hexUnit?, Option.bind_eq_bind, Option.bind_eq_some_iff] at h
  obtain ⟨_, h₁, _, h₂, _, h₃, _, h₄, -⟩ := h
  simp only [List.forall_mem_cons]
  exact ⟨isAlphanum_of_hexDigit? h₁, isAlphanum_of_hexDigit? h₂, isAlphanum_of_hexDigit? h₃,
    isAlphanum_of_hexDigit? h₄, by simp⟩

lemma decode?_pieceOf (c : Char) (rest : List Piece) : decode? (pieceOf c :: rest) = (decode? rest).map (c :: ·) := by
  rw [pieceOf]
  split_ifs with h
  · have hlow : isLowSurrogate c.toNat = false := by simp [isLowSurrogate]; omega
    have hhigh : isHighSurrogate c.toNat = false := by simp [isHighSurrogate]; omega
    rw [decode?.eq_def]
    simp [hlow, hhigh, Char.ofNat_toNat]
  · rfl

/-- A string literal stands for the text that it is written for. -/
@[simp] lemma text?_pieces (s : String) : Written.text? (pieces s) = some s := by
  have hchars (cs : List Char) : decode? (cs.map pieceOf) = some cs := by
    induction cs with
    | nil => rfl
    | cons c cs ih => rw [List.map_cons, decode?_pieceOf, ih]; rfl
  rw [Written.text?, pieces, hchars, Option.map_some, String.ofList_toList]

/-! ## Reading a text -/

mutual

/-- A text of a value is a text of its tree. -/
theorem treeText_of_valueText {v : Json} {t : List Char} (h : ValueText v t) : TreeText v.tree t := by
  cases h with
  | null => exact .null
  | bool b => exact .bool b
  | number hn => exact .number (numeralText_chars hn)
  | string s => exact .string (piecesText_pieces s)
  | noItems hw => exact .noItems hw
  | array ht => exact .array (itemTreesText_of_itemsText ht)
  | noMembers hw => exact .noMembers hw
  | object ht => exact .object (memberTreesText_of_membersText ht)

theorem itemTreesText_of_itemsText {items : List Json} {t : List Char} (h : ItemsText items t) :
    ItemTreesText (trees items) t := by
  cases h with
  | last hw hv hw' => exact .last hw (treeText_of_valueText hv) hw'
  | cons hw hv hw' hvs => exact .cons hw (treeText_of_valueText hv) hw' (itemTreesText_of_itemsText hvs)

theorem memberTreeText_of_memberText {m : String × Json} {t : List Char} (h : MemberText m t) :
    MemberTreeText (pieces m.1, m.2.tree) t := by
  cases h with
  | @mk key v w w' u t hw hw' hu hv =>
    have htext := MemberTreeText.mk hw (piecesText_pieces key) hw' hu (treeText_of_valueText hv)
    simpa [quote] using htext

theorem memberTreesText_of_membersText {members : List (String × Json)} {t : List Char}
    (h : MembersText members t) : MemberTreesText (memberTrees members) t := by
  cases h with
  | last hm hw => exact .last (memberTreeText_of_memberText hm) hw
  | cons hm hw hms => exact .cons (memberTreeText_of_memberText hm) hw (memberTreesText_of_membersText hms)

end

/-- Every text of a value reads as its tree, with white space around it. -/
theorem ofText?_valueText (h : ValueText v t) (hs : IsGap s) (hw : IsGap w) :
    Written.ofText? (String.ofList (s ++ (t ++ w))) = some v.tree :=
  ofText?_eq_some_iff.2 ⟨s, t, w, String.toList_ofList, hs, treeText_of_valueText h, hw⟩

/-! ## The two printers -/

lemma isGap_newLine (level : Nat) : IsGap (newLine level) := by
  intro c hc
  rcases List.mem_cons.1 hc with rfl | hc
  · rfl
  · rw [List.eq_of_mem_replicate hc]
    rfl

lemma itemsText_pretty {items : List Json} {level : Nat} (h : ∀ v ∈ items, ValueText v (v.prettyChars level))
    (hne : items ≠ []) (hw : IsGap w) : ItemsText items (prettyItems level items ++ w) := by
  induction items with
  | nil => exact absurd rfl hne
  | cons v vs ih =>
    obtain ⟨hv, hvs⟩ := List.forall_mem_cons.1 h
    cases vs with
    | nil =>
      rw [prettyItems, List.append_assoc]
      exact .last (isGap_newLine level) hv hw
    | cons v' vs =>
      have htail := ItemsText.cons (isGap_newLine level) hv isGap_nil (ih hvs (by simp))
      simpa [prettyItems] using htail

lemma membersText_pretty {members : List (String × Json)} {level : Nat}
    (h : ∀ m ∈ members, ValueText m.2 (m.2.prettyChars level)) (hne : members ≠ []) (hw : IsGap w) :
    MembersText members (prettyMembers level members ++ w) := by
  have hblank : IsGap [' '] := by simp [IsGap, isSpace]
  induction members with
  | nil => exact absurd rfl hne
  | cons m ms ih =>
    obtain ⟨key, v⟩ := m
    obtain ⟨hv, hms⟩ := List.forall_mem_cons.1 h
    have hmember : MemberText (key, v) _ := .mk (isGap_newLine level) isGap_nil hblank hv
    cases ms with
    | nil =>
      have hlast := MembersText.last hmember hw
      simpa [prettyMembers] using hlast
    | cons m' ms =>
      have htail := MembersText.cons hmember isGap_nil (ih hms (by simp))
      simpa [prettyMembers] using htail

lemma valueText_pretty (h : v.Fits) (level : Nat) : ValueText v (v.prettyChars level) := by
  induction v using inductionOn generalizing level with
  | null => exact .null
  | bool b => exact .bool b
  | number n => exact .number h.proper
  | string s => exact .string s
  | array items ih =>
    rw [Fits, itemsFit_iff] at h
    rw [prettyChars]
    split_ifs with hempty
    · rw [List.isEmpty_iff.1 hempty]
      exact .noItems isGap_nil
    · have hitems := itemsText_pretty (fun v hv => ih v hv (h v hv) (level + 1))
        (fun hnil => hempty (List.isEmpty_iff.2 hnil)) (isGap_newLine level)
      exact .array hitems
  | object members ih =>
    rw [Fits, membersFit_iff] at h
    rw [prettyChars]
    split_ifs with hempty
    · rw [List.isEmpty_iff.1 hempty]
      exact .noMembers isGap_nil
    · have hmembers := membersText_pretty (fun m hm => ih m hm (h m hm) (level + 1))
        (fun hnil => hempty (List.isEmpty_iff.2 hnil)) (isGap_newLine level)
      exact .object hmembers

/-! ## From trees to values -/

lemma valuesWithin?_trees {items : List Json} (h : ∀ v ∈ items, valueWithin? room v.tree = some v.sortKeys) :
    valuesWithin? room (trees items) = some (sortItems items) := by
  induction items with
  | nil => rfl
  | cons v vs ih =>
    obtain ⟨hv, hvs⟩ := List.forall_mem_cons.1 h
    rw [trees, valuesWithin?, hv, ih hvs, sortItems]
    rfl

lemma membersWithin?_memberTrees {members : List (String × Json)}
    (h : ∀ m ∈ members, valueWithin? room m.2.tree = some m.2.sortKeys) :
    membersWithin? room (memberTrees members) = some (sortValues members) := by
  induction members with
  | nil => rfl
  | cons m ms ih =>
    obtain ⟨hm, hms⟩ := List.forall_mem_cons.1 h
    rw [memberTrees, membersWithin?, hm, ih hms, text?_pieces, sortValues]
    rfl

/-- A tree stands for its value with sorted keys, if there is room for its levels. -/
theorem valueWithin?_tree (h : v.Fits) (hdepth : v.depth ≤ room) : valueWithin? room v.tree = some v.sortKeys := by
  induction v using inductionOn generalizing room with
  | null => rfl
  | bool b => rfl
  | number n => rw [tree, valueWithin?, value?_numeral h]; rfl
  | string s => rw [tree, valueWithin?, text?_pieces]; rfl
  | array items ih =>
    rw [Fits, itemsFit_iff] at h
    obtain ⟨room, rfl⟩ : ∃ k, room = k + 1 := ⟨room - 1, by rw [depth] at hdepth; omega⟩
    rw [depth, Nat.add_le_add_iff_right, depthOfItems_le_iff] at hdepth
    have hitems := valuesWithin?_trees fun v hv => ih v hv (h v hv) (hdepth v hv)
    rw [tree, valueWithin?, if_neg (by omega), Nat.add_sub_cancel, hitems, sortKeys]
    rfl
  | object members ih =>
    rw [Fits, membersFit_iff] at h
    obtain ⟨room, rfl⟩ : ∃ k, room = k + 1 := ⟨room - 1, by rw [depth] at hdepth; omega⟩
    rw [depth, Nat.add_le_add_iff_right, depthOfMembers_le_iff] at hdepth
    have hmembers := membersWithin?_memberTrees fun m hm => ih m hm (h m hm) (hdepth m hm)
    rw [tree, valueWithin?, if_neg (by omega), Nat.add_sub_cancel, hmembers, sortKeys]
    rfl

lemma ofText?_pretty (h : v.Fits) : Written.ofText? v.pretty = some v.tree := by
  have htext := ofText?_valueText (valueText_pretty h 0) isGap_nil isGap_nil
  rwa [List.nil_append, List.append_nil] at htext

/-- A value that is not nested too deeply is read back from its lines, with its members sorted. -/
theorem parse?_pretty (h : v.Fits) (hdepth : v.depth ≤ maxDepth) : parse? v.pretty = some v.sortKeys := by
  rw [parse?, ofText?_pretty h]
  exact valueWithin?_tree h hdepth

/-! ## Values of any depth -/

/-- The value of a text, however deeply it is nested. -/
def valueOf? (text : String) : Option Json := (Written.ofText? text).bind (valueWithin? (maxDepth + text.length))

mutual

theorem valueWithin?_add {room : Nat} {w : Written} {v : Json} (h : valueWithin? room w = some v) (extra : Nat) :
    valueWithin? (room + extra) w = some v := by
  cases w with
  | array items =>
    rw [valueWithin?] at h
    split_ifs at h with hroom
    have hless : room + extra - 1 = room - 1 + extra := by omega
    obtain ⟨vs, hvs, rfl⟩ := Option.map_eq_some_iff.1 h
    rw [valueWithin?, if_neg (by omega), hless, valuesWithin?_add hvs extra]
    rfl
  | object members =>
    rw [valueWithin?] at h
    split_ifs at h with hroom
    have hless : room + extra - 1 = room - 1 + extra := by omega
    obtain ⟨ms, hms, rfl⟩ := Option.map_eq_some_iff.1 h
    rw [valueWithin?, if_neg (by omega), hless, membersWithin?_add hms extra]
    rfl
  | _ => exact h

theorem valuesWithin?_add {room : Nat} {ws : List Written} {vs : List Json} (h : valuesWithin? room ws = some vs)
    (extra : Nat) : valuesWithin? (room + extra) ws = some vs := by
  cases ws with
  | nil => exact h
  | cons w ws =>
    simp only [valuesWithin?, Option.bind_eq_bind, Option.bind_eq_some_iff] at h ⊢
    obtain ⟨v, hv, rest, hrest, heq⟩ := h
    exact ⟨v, valueWithin?_add hv extra, rest, valuesWithin?_add hrest extra, heq⟩

theorem membersWithin?_add {room : Nat} {ws : List (List Piece × Written)} {ms : List (String × Json)}
    (h : membersWithin? room ws = some ms) (extra : Nat) : membersWithin? (room + extra) ws = some ms := by
  cases ws with
  | nil => exact h
  | cons w ws =>
    obtain ⟨p, w⟩ := w
    simp only [membersWithin?, Option.bind_eq_bind, Option.bind_eq_some_iff] at h ⊢
    obtain ⟨key, hkey, v, hv, rest, hrest, heq⟩ := h
    exact ⟨key, hkey, v, valueWithin?_add hv extra, rest, membersWithin?_add hrest extra, heq⟩

end

/-- Where a text is not nested too deeply to be parsed, its value is the one that it is parsed as. -/
theorem valueOf?_of_parse? {text : String} (h : parse? text = some v) : valueOf? text = some v := by
  obtain ⟨w, hw, hv⟩ := Option.bind_eq_some_iff.1 h
  rw [valueOf?, hw]
  exact valueWithin?_add hv text.length

lemma length_le_prettyItems {items : List Json} (h : v ∈ items) (level : Nat) :
    (v.prettyChars level).length ≤ (prettyItems level items).length := by
  induction items with
  | nil => exact absurd h List.not_mem_nil
  | cons v' vs ih =>
    cases vs with
    | nil =>
      rw [List.mem_singleton.1 h, prettyItems, List.length_append]
      omega
    | cons v'' vs =>
      simp only [prettyItems, List.length_append, List.length_cons]
      rcases List.mem_cons.1 h with rfl | h
      · omega
      · have hrest := ih h
        omega

lemma length_le_prettyMembers {members : List (String × Json)} {m : String × Json} (h : m ∈ members) (level : Nat) :
    (m.2.prettyChars level).length ≤ (prettyMembers level members).length := by
  induction members with
  | nil => exact absurd h List.not_mem_nil
  | cons m' ms ih =>
    cases ms with
    | nil =>
      rw [List.mem_singleton.1 h]
      simp only [prettyMembers, List.length_append, List.length_cons]
      omega
    | cons m'' ms =>
      simp only [prettyMembers, List.length_append, List.length_cons]
      rcases List.mem_cons.1 h with rfl | h
      · omega
      · have hrest := ih h
        omega

/-- Every level has its brackets. -/
lemma depth_le_length (v : Json) (level : Nat) : v.depth ≤ (v.prettyChars level).length := by
  induction v using inductionOn generalizing level with
  | null | bool | number | string => exact Nat.zero_le _
  | array items ih =>
    have hitems : depthOfItems items ≤ (prettyItems (level + 1) items).length := by
      rw [depthOfItems_le_iff]
      exact fun v hv => (ih v hv (level + 1)).trans (length_le_prettyItems hv (level + 1))
    cases items with
    | nil => simp [depth, depthOfItems, prettyChars]
    | cons v vs =>
      simp only [depth, prettyChars, List.isEmpty_cons, Bool.false_eq_true, if_false, List.length_cons,
        List.length_append]
      omega
  | object members ih =>
    have hmembers : depthOfMembers members ≤ (prettyMembers (level + 1) members).length := by
      rw [depthOfMembers_le_iff]
      exact fun m hm => (ih m hm (level + 1)).trans (length_le_prettyMembers hm (level + 1))
    cases members with
    | nil => simp [depth, depthOfMembers, prettyChars]
    | cons m ms =>
      simp only [depth, prettyChars, List.isEmpty_cons, Bool.false_eq_true, if_false, List.length_cons,
        List.length_append]
      omega

theorem valueOf?_pretty (h : v.Fits) : valueOf? v.pretty = some v.sortKeys := by
  have hdepth : v.depth ≤ v.pretty.length := by
    rw [pretty, String.length_ofList]
    exact depth_le_length v 0
  rw [valueOf?, ofText?_pretty h]
  exact valueWithin?_tree h (by omega)

end UiCatalog.Json
