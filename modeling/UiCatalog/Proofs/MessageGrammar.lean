import UiCatalog.Proofs.Meaning
import UiCatalog.Proofs.SnippetOrder

/-!
# The grammar of messages

Which texts are messages is decided by the values of their members, of which the last counts for every key. A
text that is no object is not understood at all, and neither is one that cannot be held: it has too many levels,
a number out of range or half of an escaped pair.
-/
namespace UiCatalog

open Json

/-! ## Texts that can be held -/

namespace Json.Written

/-- The tree has no more levels than there is room for, its numbers are in range and its escapes in pairs. -/
inductive Readable : ℕ → Written → Prop
  | null {room} : Readable room .null
  | bool {room} (b : Bool) : Readable room (.bool b)
  | number {room n} : n.value?.isSome → Readable room (.number n)
  | string {room pieces} : (text? pieces).isSome → Readable room (.string pieces)
  | array {room items} : (∀ w ∈ items, Readable room w) → Readable (room + 1) (.array items)
  | object {room members} : (∀ m ∈ members, (text? m.1).isSome) → (∀ m ∈ members, Readable room m.2) →
      Readable (room + 1) (.object members)

/-- The value of the last member with a key. -/
def given? (key : String) (members : List (List Piece × Written)) : Option Json :=
  ((members.reverse.find? fun m => text? m.1 == some key).map Prod.snd).bind value?

variable {room : ℕ} {w : Written} {ws : List (List Piece × Written)} {ms : List (String × Json)}

lemma exists_valuesWithin? {items : List Written} (h : ∀ w ∈ items, ∃ v, valueWithin? room w = some v) :
    ∃ vs, valuesWithin? room items = some vs := by
  induction items with
  | nil => exact ⟨[], rfl⟩
  | cons w items ih =>
    obtain ⟨⟨v, hv⟩, hitems⟩ := List.forall_mem_cons.1 h
    obtain ⟨vs, hvs⟩ := ih hitems
    exact ⟨v :: vs, by rw [valuesWithin?, hv, hvs]; rfl⟩

lemma exists_membersWithin? (hkeys : ∀ m ∈ ws, (text? m.1).isSome)
    (h : ∀ m ∈ ws, ∃ v, valueWithin? room m.2 = some v) : ∃ ms, membersWithin? room ws = some ms := by
  induction ws with
  | nil => exact ⟨[], rfl⟩
  | cons m ws ih =>
    obtain ⟨pieces, w⟩ := m
    obtain ⟨hkey, hkeys⟩ := List.forall_mem_cons.1 hkeys
    obtain ⟨key, hkey⟩ := Option.isSome_iff_exists.1 hkey
    obtain ⟨⟨v, hv⟩, hws⟩ := List.forall_mem_cons.1 h
    obtain ⟨ms, hms⟩ := ih hkeys hws
    exact ⟨(key, v) :: ms, by rw [membersWithin?, hkey, hv, hms]; rfl⟩

lemma exists_value_of_readable (h : Readable room w) : ∃ v, valueWithin? room w = some v := by
  induction h with
  | null | bool => exact ⟨_, rfl⟩
  | number hn =>
    obtain ⟨n, hn⟩ := Option.isSome_iff_exists.1 hn
    exact ⟨.number n, by rw [valueWithin?, hn]; rfl⟩
  | string hs =>
    obtain ⟨s, hs⟩ := Option.isSome_iff_exists.1 hs
    exact ⟨.string s, by rw [valueWithin?, hs]; rfl⟩
  | array _ ih =>
    obtain ⟨vs, hvs⟩ := exists_valuesWithin? ih
    exact ⟨.array vs, by rw [valueWithin?, if_neg (Nat.succ_ne_zero _), Nat.add_sub_cancel, hvs]; rfl⟩
  | object hkeys _ ih =>
    obtain ⟨ms, hms⟩ := exists_membersWithin? hkeys ih
    exact ⟨.object (sortMembers ms), by rw [valueWithin?, if_neg (Nat.succ_ne_zero _), Nat.add_sub_cancel, hms]; rfl⟩

mutual

theorem readable_of_value {room : ℕ} {w : Written} {v : Json} (h : valueWithin? room w = some v) :
    Readable room w := by
  cases w with
  | null => exact .null
  | bool b => exact .bool b
  | number n =>
    obtain ⟨n, hn, -⟩ := Option.map_eq_some_iff.1 h
    exact .number (Option.isSome_of_eq_some hn)
  | string pieces =>
    obtain ⟨s, hs, -⟩ := Option.map_eq_some_iff.1 h
    exact .string (Option.isSome_of_eq_some hs)
  | array items =>
    rw [valueWithin?] at h
    split_ifs at h with hroom
    obtain ⟨room, rfl⟩ := Nat.exists_eq_succ_of_ne_zero hroom
    obtain ⟨vs, hvs, -⟩ := Option.map_eq_some_iff.1 h
    exact .array (readable_of_values hvs)
  | object members =>
    rw [valueWithin?] at h
    split_ifs at h with hroom
    obtain ⟨room, rfl⟩ := Nat.exists_eq_succ_of_ne_zero hroom
    obtain ⟨ms, hms, -⟩ := Option.map_eq_some_iff.1 h
    exact .object (fun m hm => (readable_of_members hms m hm).1) fun m hm => (readable_of_members hms m hm).2

theorem readable_of_values {room : ℕ} {ws : List Written} {vs : List Json} (h : valuesWithin? room ws = some vs) :
    ∀ w ∈ ws, Readable room w := by
  cases ws with
  | nil => exact fun w hw => absurd hw List.not_mem_nil
  | cons w ws =>
    simp only [valuesWithin?, Option.bind_eq_bind, Option.bind_eq_some_iff] at h
    obtain ⟨v, hv, rest, hrest, -⟩ := h
    exact List.forall_mem_cons.2 ⟨readable_of_value hv, readable_of_values hrest⟩

theorem readable_of_members {room : ℕ} {ws : List (List Piece × Written)} {ms : List (String × Json)}
    (h : membersWithin? room ws = some ms) : ∀ m ∈ ws, (text? m.1).isSome ∧ Readable room m.2 := by
  cases ws with
  | nil => exact fun m hm => absurd hm List.not_mem_nil
  | cons m ws =>
    obtain ⟨pieces, w⟩ := m
    simp only [membersWithin?, Option.bind_eq_bind, Option.bind_eq_some_iff] at h
    obtain ⟨key, hkey, v, hv, rest, hrest, -⟩ := h
    exact List.forall_mem_cons.2 ⟨⟨Option.isSome_of_eq_some hkey, readable_of_value hv⟩, readable_of_members hrest⟩

end

lemma exists_object (h : valueWithin? room w = some (.object ms)) : ∃ ws, w = .object ws := by
  cases w with
  | object ws => exact ⟨ws, rfl⟩
  | null | bool => cases h
  | number | string | array => simp [valueWithin?] at h

lemma exists_number {n : Number} (h : valueWithin? room w = some (.number n)) :
    ∃ numeral : Numeral, w = .number numeral ∧ numeral.value? = some n := by
  cases w with
  | number numeral => exact ⟨numeral, rfl, by simpa [valueWithin?] using h⟩
  | null | bool => cases h
  | string | array | object => simp [valueWithin?] at h

/-- The members of the value are the last ones of the text. -/
lemma lookup_eq_given? (h : value? (.object ws) = some (.object ms)) (key : String) :
    ms.lookup key = given? key ws := by
  have hrel := rel_field? h [] key
  have hsorted : Sorted ms := by
    rw [value?, valueWithin?, if_neg (by decide)] at h
    obtain ⟨ms', -, heq⟩ := Option.map_eq_some_iff.1 h
    cases heq
    exact sorted_sortMembers ms'
  rw [field?, Json.field?, lookup_reverse (nodup_of_sorted hsorted)] at hrel
  rw [given?]
  cases hfind : (ws.reverse.find? fun m => text? m.1 == some key).map Prod.snd with
  | none =>
    rw [hfind] at hrel
    cases hlookup : ms.lookup key with
    | none => rfl
    | some v => rw [hlookup] at hrel; cases hrel
  | some w =>
    rw [hfind] at hrel
    cases hlookup : ms.lookup key with
    | none => rw [hlookup] at hrel; cases hrel
    | some v =>
      rw [hlookup] at hrel
      cases hrel with
      | some hv => exact (valueWithin?_add hv 1).symm

lemma exists_value_of_given? {key : String} {v : Json} (h : given? key ws = some v) : ∃ w, value? w = some v := by
  obtain ⟨w, -, hw⟩ := Option.bind_eq_some_iff.1 h
  exact ⟨w, hw⟩

end Json.Written

namespace Rpc

/-! ## Ids -/

namespace RequestId

/-- An integer id has 64 bits. -/
def InRange : RequestId → Prop
  | number n => -2 ^ 63 ≤ n ∧ n < 2 ^ 63
  | text _ => True

lemma ofInt_eq_natural_iff {i : ℤ} {n : ℕ} : Json.ofInt i = .number (.natural n) ↔ i = n := by
  simp only [Json.ofInt, Json.number.injEq]
  split_ifs with hi
  · rw [Json.Number.natural.injEq]
    omega
  · simp only [false_iff]
    omega

lemma ofInt_eq_negative_iff {i : ℤ} {n : ℕ} : Json.ofInt i = .number (.negative n) ↔ i = -(n : ℤ) - 1 := by
  simp only [Json.ofInt, Json.number.injEq]
  split_ifs with hi
  · simp only [false_iff]
    omega
  · rw [Json.Number.negative.injEq]
    omega

lemma ofInt_ne_float {i : ℤ} {x : Binary64} : Json.ofInt i ≠ .number (.float x) := by
  simp only [Json.ofInt, ne_eq, Json.number.injEq]
  split_ifs <;> simp

/-- A negative integer that is read has 64 bits. -/
lemma lt_of_value? {w : Written} {n : ℕ} (h : w.value? = some (.number (.negative n))) : n < 2 ^ 63 := by
  obtain ⟨numeral, -, hvalue⟩ := Written.exists_number h
  unfold Numeral.value? at hvalue
  split at hvalue
  · next i hinteger =>
    cases hvalue
    unfold Numeral.integer? at hinteger
    simp only at hinteger
    split_ifs at hinteger with _ _ hrange <;> cases hinteger
    have hle : Numeral.naturalOf numeral.whole ≤ 2 ^ 63 := hrange.2
    omega
  · obtain ⟨x, -, heq⟩ := Option.map_eq_some_iff.1 hvalue
    cases heq

/-- The values that are ids are the integers of 64 bits and the texts. -/
lemma ofJson?_eq_some_iff {v : Json} (hv : ∃ w, Written.value? w = some v) {id : RequestId} :
    ofJson? v = some id ↔ v = id.toJson ∧ id.InRange := by
  obtain ⟨w, hw⟩ := hv
  cases v with
  | number n =>
    cases id with
    | text s => cases n <;> simp [ofJson?, toJson]
    | number i =>
      rw [toJson, eq_comm (a := Json.number n)]
      cases n with
      | natural n =>
        have hword : twoPower 63 = 2 ^ 63 := rfl
        rw [ofInt_eq_natural_iff, ofJson?, hword, InRange]
        split_ifs with hn
        · rw [Option.some.injEq, number.injEq]
          omega
        · simp only [false_iff]
          omega
      | negative n =>
        have hn := lt_of_value? hw
        rw [ofInt_eq_negative_iff, ofJson?, InRange, Option.some.injEq, number.injEq]
        omega
      | float x => simp [ofJson?, ofInt_ne_float]
  | string s => cases id <;> simp [ofJson?, toJson, InRange, Json.ofInt, eq_comm]
  | null | bool | array | object => cases id <;> simp [ofJson?, toJson, Json.ofInt]

end RequestId

/-! ## Members -/

namespace Message

/-- What a member has to be for a message to be read. -/
def MemberFits (key : String) (v : Json) : Prop :=
  (key = "jsonrpc" → v.text?.isSome) ∧ (key = "id" → (RequestId.ofJson? v).isSome) ∧ (key = "method" → v.text?.isSome)

lemma decodeText_ok_iff {v : Json} {s : String} : decodeText v = .ok s ↔ v.text? = some s := by
  cases v <;> simp [decodeText, Json.text?]

lemma map_decodeText_ok_iff {σ : Type} {v : Json} {f : String → σ} :
    (∃ s', (decodeText v).map f = .ok s') ↔ v.text?.isSome := by
  cases v <;> simp [decodeText, Json.text?, Except.map]

lemma take_ok_iff (k : String) (take : Json → Draft → Except DecodeError Draft)
    (hmem : (k, take) ∈ requestShape.fields) (v : Json) (s : Draft) : (∃ s', take v s = .ok s') ↔ MemberFits k v := by
  simp only [requestShape, List.mem_cons, Prod.mk.injEq, List.not_mem_nil, or_false] at hmem
  obtain ⟨rfl, rfl⟩ | ⟨rfl, rfl⟩ | ⟨rfl, rfl⟩ | ⟨rfl, rfl⟩ := hmem
  · simp [takeVersion, map_decodeText_ok_iff, MemberFits]
  · cases hid : RequestId.ofJson? v <;> simp [takeId, hid, MemberFits]
  · simp [takeMethod, map_decodeText_ok_iff, MemberFits]
  · cases v <;> simp [takeParams, decodeOptional, Except.map, MemberFits]

/-- What a member sets, and what it leaves. -/
lemma parts_of_take {k : String} {take : Json → Draft → Except DecodeError Draft} {v : Json} {s s' : Draft}
    (hmem : (k, take) ∈ requestShape.fields) (h : take v s = .ok s') :
    s'.id = (if k = "id" then RequestId.ofJson? v else s.id) ∧
      s'.method = if k = "method" then v.text? else s.method := by
  simp only [requestShape, List.mem_cons, Prod.mk.injEq, List.not_mem_nil, or_false] at hmem
  obtain ⟨rfl, rfl⟩ | ⟨rfl, rfl⟩ | ⟨rfl, rfl⟩ | ⟨rfl, rfl⟩ := hmem
  · obtain ⟨x, -, rfl⟩ := RecordShape.map_ok h
    exact ⟨rfl, rfl⟩
  · unfold takeId at h
    split at h <;> cases h
    exact ⟨Eq.symm ‹_›, rfl⟩
  · obtain ⟨x, hx, rfl⟩ := RecordShape.map_ok h
    exact ⟨rfl, (decodeText_ok_iff.1 hx).symm⟩
  · obtain ⟨x, -, rfl⟩ := RecordShape.map_ok h
    exact ⟨rfl, rfl⟩

lemma decides_id : RecordShape.Decides requestShape.fields "id" Draft.id RequestId.ofJson? :=
  .of_take (by decide) fun _ _ hmem _ _ _ h => (parts_of_take hmem h).1

lemma decides_method : RecordShape.Decides requestShape.fields "method" Draft.method Json.text? :=
  .of_take (by decide) fun _ _ hmem _ _ _ h => (parts_of_take hmem h).2

variable {members : List (String × Json)}

/-- Declared members fit if what is found under their keys does. -/
lemma members_fit_iff (hdistinct : (members.map Prod.fst).Nodup) (keys : List String) :
    (∀ m ∈ members, m.1 ∈ keys → MemberFits m.1 m.2) ↔
      ∀ key ∈ keys, ∀ v, members.lookup key = some v → MemberFits key v := by
  constructor
  · exact fun h key hkey v hv => h (key, v) ((lookup_eq_some_iff_mem hdistinct).1 hv) hkey
  · exact fun h m hm hkey => h m.1 hkey m.2 ((lookup_eq_some_iff_mem hdistinct).2 hm)

/-- A part of a draft that one field decides on is read from the member under its key. -/
lemma part_of_takeMembers {β : Type} {shape : RecordShape Draft} {key : String} {part : Draft → Option β}
    {read : Json → Option β} {s : Draft} (hdistinct : (members.map Prod.fst).Nodup)
    (hpart : RecordShape.Decides shape.fields key part read) (hstart : part {} = none)
    (h : shape.takeMembers members {} = .ok s) : part s = (members.lookup key).bind read := by
  rw [RecordShape.part_takeMembers hpart h, hstart, lookup_reverse hdistinct]
  cases members.lookup key <;> rfl

lemma notificationFields_subset : notificationShape.fields ⊆ requestShape.fields := by
  simp [notificationShape, requestShape]

lemma decode_object {shape : RecordShape Draft} {s : Draft} (h : shape.takeMembers members {} = .ok s) :
    shape.decode {} (.object members) =
      match shape.missing? s with
      | some (_, name) => .error (.missingField name)
      | none => .ok s := by
  rw [RecordShape.decode, h]
  rfl

lemma memberFits_of_some {key : String} {v : Json} (hversion : (members.lookup "jsonrpc").bind Json.text? = some "2.0")
    (hid : key = "id" → ((members.lookup "id").bind RequestId.ofJson?).isSome)
    (hmethod : ((members.lookup "method").bind Json.text?).isSome) (hv : members.lookup key = some v) :
    MemberFits key v := by
  refine ⟨?_, ?_, ?_⟩ <;> rintro rfl
  · rw [hv] at hversion
    exact Option.isSome_of_eq_some hversion
  · have hsome := hid rfl
    rwa [hv] at hsome
  · rwa [hv] at hmethod

section Distinct

variable (hdistinct : (members.map Prod.fst).Nodup)
include hdistinct

lemma draft_of_takeMembers {s : Draft} (h : requestShape.takeMembers members {} = .ok s) :
    s = ⟨(members.lookup "id").bind RequestId.ofJson?, (members.lookup "method").bind Json.text?,
      (members.lookup "params").bind given⟩ := by
  obtain ⟨id, method, params⟩ := s
  have hid := part_of_takeMembers hdistinct decides_id rfl h
  have hmethod := part_of_takeMembers hdistinct decides_method rfl h
  have hparams := part_of_takeMembers hdistinct decides_params rfl h
  simp only at hid hmethod hparams
  rw [hid, hmethod, hparams]

lemma exists_takeMembers {shape : RecordShape Draft} (hsubset : shape.fields ⊆ requestShape.fields)
    (hfits : ∀ key ∈ shape.fields.map Prod.fst, ∀ v, members.lookup key = some v → MemberFits key v) :
    ∃ s, shape.takeMembers members {} = .ok s :=
  (RecordShape.takeMembers_ok_iff (fun k take hmem => take_ok_iff k take (hsubset hmem)) {}).2
    ((members_fit_iff hdistinct _).2 hfits)

/-- With an id, a request needs an id that is one and a method. -/
lemma ofRequest_object (hversion : (members.lookup "jsonrpc").bind Json.text? = some "2.0") :
    (∃ id method, (members.lookup "id").bind RequestId.ofJson? = some id ∧
      (members.lookup "method").bind Json.text? = some method ∧
      ofRequest (.object members) =
        if method = "" then .error ⟨some id, .invalidRequest "method field cannot be empty"⟩
        else .ok (.request ⟨id, method, (members.lookup "params").bind given⟩)) ∨
    ((members.lookup "id").bind RequestId.ofJson? = none ∨ (members.lookup "method").bind Json.text? = none) ∧
      ∃ message, ofRequest (.object members) = .error ⟨none, .invalidRequest message⟩ := by
  cases htake : requestShape.takeMembers members {} with
  | error e =>
    have herror : requestShape.decode {} (.object members) = .error e := by
      rw [RecordShape.decode, htake]
      rfl
    refine .inr ⟨?_, _, by rw [ofRequest, herror]⟩
    by_contra hsome
    rw [not_or] at hsome
    obtain ⟨s, hs⟩ := exists_takeMembers hdistinct (List.Subset.refl requestShape.fields) fun key _ v hv =>
      memberFits_of_some hversion (fun _ => Option.isSome_iff_ne_none.2 hsome.1)
        (Option.isSome_iff_ne_none.2 hsome.2) hv
    rw [htake] at hs
    cases hs
  | ok s =>
    have hdecode := decode_object htake
    rw [draft_of_takeMembers hdistinct htake] at hdecode
    cases hid : (members.lookup "id").bind RequestId.ofJson? with
    | none =>
      rw [hid] at hdecode
      exact .inr ⟨.inl rfl, _, by rw [ofRequest, hdecode]; rfl⟩
    | some id =>
      cases hmethod : (members.lookup "method").bind Json.text? with
      | none =>
        rw [hid, hmethod] at hdecode
        exact .inr ⟨.inr rfl, _, by rw [ofRequest, hdecode]; rfl⟩
      | some method =>
        rw [hid, hmethod] at hdecode
        exact .inl ⟨id, method, rfl, rfl, by rw [ofRequest, hdecode]; rfl⟩

/-- Without an id, a notification needs a method. -/
lemma ofNotification_object (hversion : (members.lookup "jsonrpc").bind Json.text? = some "2.0") :
    (∃ method, (members.lookup "method").bind Json.text? = some method ∧
      ofNotification (.object members) = .ok (.notification ⟨method, (members.lookup "params").bind given⟩)) ∨
    (members.lookup "method").bind Json.text? = none ∧
      ∃ message, ofNotification (.object members) = .error ⟨none, .invalidRequest message⟩ := by
  cases htake : notificationShape.takeMembers members {} with
  | error e =>
    have herror : notificationShape.decode {} (.object members) = .error e := by
      rw [RecordShape.decode, htake]
      rfl
    refine .inr ⟨?_, _, by rw [ofNotification, herror]⟩
    by_contra hsome
    obtain ⟨s, hs⟩ := exists_takeMembers hdistinct notificationFields_subset fun key hkey v hv =>
      memberFits_of_some hversion (fun hid => absurd (hid ▸ hkey) (by decide)) (Option.isSome_iff_ne_none.2 hsome) hv
    rw [htake] at hs
    cases hs
  | ok s =>
    have hdecode := decode_object htake
    have hmethod := part_of_takeMembers hdistinct
      (decides_method.of_subset notificationFields_subset (by decide)) rfl htake
    have hparams := part_of_takeMembers hdistinct
      (decides_params.of_subset notificationFields_subset (by decide)) rfl htake
    rw [← hmethod, ← hparams]
    cases hname : s.method with
    | none =>
      simp only [notificationShape, hname] at hdecode
      exact .inr ⟨rfl, _, by rw [ofNotification, notificationShape, hdecode]; rfl⟩
    | some method =>
      simp only [notificationShape, hname] at hdecode
      exact .inl ⟨method, rfl, by rw [ofNotification, notificationShape, hdecode]; simp [hname]⟩

end Distinct

/-! ## Texts -/

variable {ws : List (List Piece × Written)} {raw : String}

def Versioned (ws : List (List Piece × Written)) : Prop := Written.given? "jsonrpc" ws = some (.string "2.0")

/-- The id is an integer of 64 bits or a text. -/
def HasId (ws : List (List Piece × Written)) (id : RequestId) : Prop :=
  Written.given? "id" ws = some id.toJson ∧ id.InRange

def HasMethod (ws : List (List Piece × Written)) (method : String) : Prop :=
  Written.given? "method" ws = some (.string method)

/-- The parameters are there if they are given and not null. -/
def HasParams (ws : List (List Piece × Written)) (params : Option Json) : Prop :=
  ∀ v, params = some v ↔ Written.given? "params" ws = some v ∧ v ≠ .null

lemma bind_text?_eq_some_iff {v? : Option Json} {s : String} :
    v?.bind Json.text? = some s ↔ v? = some (.string s) := by
  cases v? with
  | none => simp
  | some v => cases v <;> simp [Json.text?]

lemma bind_ofJson?_eq_some_iff {id : RequestId} :
    (Written.given? "id" ws).bind RequestId.ofJson? = some id ↔ HasId ws id := by
  rw [HasId]
  cases hv : Written.given? "id" ws with
  | none => simp
  | some v =>
    rw [Option.bind_some, RequestId.ofJson?_eq_some_iff (Written.exists_value_of_given? hv), Option.some.injEq]

lemma hasParams_bind (ws : List (List Piece × Written)) :
    HasParams ws ((Written.given? "params" ws).bind given) := by
  intro v
  cases Written.given? "params" ws with
  | none => simp
  | some v' =>
    cases v' <;> simp only [Option.bind_some, given, Option.some.injEq, reduceCtorEq, false_iff, not_and, not_not]
    · exact Eq.symm
    all_goals exact ⟨fun h => ⟨h, by rw [← h]; simp⟩, And.left⟩

lemma HasParams.unique {params params' : Option Json} (h : HasParams ws params) (h' : HasParams ws params') :
    params = params' :=
  Option.ext fun v => (h v).trans (h' v).symm

/-- A readable text of an object is judged by its members. -/
lemma exists_members (htext : IsText raw (.object ws)) (hread : Written.Readable Written.maxDepth (.object ws)) :
    ∃ members : List (String × Json), (members.map Prod.fst).Nodup ∧
      (∀ key, members.lookup key = Written.given? key ws) ∧ parse raw = ofJson (.object members) := by
  obtain ⟨v, hv⟩ := Written.exists_value_of_readable hread
  have hparse : Json.parse? raw = some v := by
    rw [Json.parse?, ofText?_eq_some_iff.2 htext]
    exact hv
  rw [Written.valueWithin?, if_neg (by decide)] at hv
  obtain ⟨ms, hms, rfl⟩ := Option.map_eq_some_iff.1 hv
  refine ⟨sortMembers ms, nodup_of_sorted (sorted_sortMembers ms), Written.lookup_eq_given? ?_, by rw [parse, hparse]⟩
  rw [Written.value?, Written.valueWithin?, if_neg (by decide), hms]
  rfl

section Members

variable (hdistinct : (members.map Prod.fst).Nodup) (hlookup : ∀ key, members.lookup key = Written.given? key ws)
  (hversion : (members.lookup "jsonrpc").bind Json.text? = some "2.0")
include hdistinct hlookup hversion

lemma ofNotification_cases :
    (∃ n, ofNotification (.object members) = .ok (.notification n) ∧ HasMethod ws n.method ∧ HasParams ws n.params) ∨
    ∃ message, ofNotification (.object members) = .error ⟨none, .invalidRequest message⟩ ∧
      ¬ ∃ method, HasMethod ws method := by
  rcases ofNotification_object hdistinct hversion with ⟨method, hmethod, hok⟩ | ⟨hmethod, message, herror⟩
  · rw [hlookup, bind_text?_eq_some_iff] at hmethod
    rw [hlookup] at hok
    exact .inl ⟨_, hok, hmethod, hasParams_bind ws⟩
  · rw [hlookup] at hmethod
    refine .inr ⟨message, herror, ?_⟩
    rintro ⟨method, hhas⟩
    rw [bind_text?_eq_some_iff.2 hhas] at hmethod
    cases hmethod

lemma ofRequest_cases :
    (∃ r, ofRequest (.object members) = .ok (.request r) ∧ HasId ws r.id ∧ HasMethod ws r.method ∧ r.method ≠ "" ∧
      HasParams ws r.params) ∨
    (∃ id message, ofRequest (.object members) = .error ⟨some id, .invalidRequest message⟩ ∧ HasId ws id ∧
      HasMethod ws "") ∨
    ∃ message, ofRequest (.object members) = .error ⟨none, .invalidRequest message⟩ ∧
      ¬ ((∃ id, HasId ws id) ∧ ∃ method, HasMethod ws method) := by
  rcases ofRequest_object hdistinct hversion with ⟨id, method, hid, hmethod, heq⟩ | ⟨hnone, message, herror⟩
  · rw [hlookup, bind_ofJson?_eq_some_iff] at hid
    rw [hlookup, bind_text?_eq_some_iff] at hmethod
    rw [hlookup] at heq
    by_cases hempty : method = ""
    · rw [if_pos hempty] at heq
      exact .inr (.inl ⟨id, _, heq, hid, hempty ▸ hmethod⟩)
    · rw [if_neg hempty] at heq
      exact .inl ⟨_, heq, hid, hmethod, hempty, hasParams_bind ws⟩
  · rw [hlookup, hlookup] at hnone
    refine .inr (.inr ⟨message, herror, ?_⟩)
    rintro ⟨⟨id, hid⟩, method, hmethod⟩
    rcases hnone with hnone | hnone
    · rw [bind_ofJson?_eq_some_iff.2 hid] at hnone
      cases hnone
    · rw [bind_text?_eq_some_iff.2 hmethod] at hnone
      cases hnone

end Members

/-- What becomes of a readable text of an object. -/
lemma parse_cases (htext : IsText raw (.object ws)) (hread : Written.Readable Written.maxDepth (.object ws)) :
    (∃ r, parse raw = .ok (.request r) ∧ Versioned ws ∧ HasId ws r.id ∧ HasMethod ws r.method ∧ r.method ≠ "" ∧
      HasParams ws r.params) ∨
    (∃ n, parse raw = .ok (.notification n) ∧ Versioned ws ∧ Written.given? "id" ws = none ∧ HasMethod ws n.method ∧
      HasParams ws n.params) ∨
    (∃ id message, parse raw = .error ⟨some id, .invalidRequest message⟩ ∧ Versioned ws ∧ HasId ws id ∧
      HasMethod ws "") ∨
    ∃ message, parse raw = .error ⟨none, .invalidRequest message⟩ ∧
      ¬ (Versioned ws ∧ (Written.given? "id" ws = none ∨ ∃ id, HasId ws id) ∧ ∃ method, HasMethod ws method) := by
  obtain ⟨members, hdistinct, hlookup, hparse⟩ := exists_members htext hread
  by_cases hversion : (members.lookup "jsonrpc").bind Json.text? = some "2.0"
  · have hversioned : Versioned ws := by
      rw [hlookup, bind_text?_eq_some_iff] at hversion
      exact hversion
    rw [ofJson, if_pos hversion, hlookup "id"] at hparse
    cases hid : Written.given? "id" ws with
    | none =>
      rw [hid, Option.isSome_none, if_neg (by decide)] at hparse
      rcases ofNotification_cases hdistinct hlookup hversion with ⟨n, hok, hmethod, hparams⟩ | ⟨message, herror, hnone⟩
      · exact .inr (.inl ⟨n, hparse.trans hok, hversioned, rfl, hmethod, hparams⟩)
      · exact .inr (.inr (.inr ⟨message, hparse.trans herror, fun h => hnone h.2.2⟩))
    | some v =>
      rw [hid, Option.isSome_some, if_pos rfl] at hparse
      rcases ofRequest_cases hdistinct hlookup hversion with
        ⟨r, hok, hconditions⟩ | ⟨id, message, herror, hhas, hmethod⟩ | ⟨message, herror, hnone⟩
      · exact .inl ⟨r, hparse.trans hok, hversioned, hconditions⟩
      · exact .inr (.inr (.inl ⟨id, message, hparse.trans herror, hversioned, hhas, hmethod⟩))
      · refine .inr (.inr (.inr ⟨message, hparse.trans herror, fun h => hnone ⟨?_, h.2.2⟩⟩))
        exact h.2.1.resolve_left (by simp)
  · rw [ofJson, if_neg hversion] at hparse
    refine .inr (.inr (.inr ⟨_, hparse, fun h => hversion ?_⟩))
    rw [hlookup, bind_text?_eq_some_iff]
    exact h.1

lemma HasId.unique {id id' : RequestId} (h : HasId ws id) (h' : HasId ws id') : id = id' := by
  rw [← bind_ofJson?_eq_some_iff] at h h'
  exact Option.some.inj (h.symm.trans h')

lemma HasId.given {id : RequestId} (h : HasId ws id) : Written.given? "id" ws ≠ none := by
  rw [h.1]
  simp

lemma HasMethod.unique {method method' : String} (h : HasMethod ws method) (h' : HasMethod ws method') :
    method = method' := by
  rw [HasMethod, ← bind_text?_eq_some_iff] at h h'
  exact Option.some.inj (h.symm.trans h')

section Answers

variable (htext : IsText raw (.object ws)) (hread : Written.Readable Written.maxDepth (.object ws))
include htext hread

lemma parse_request_iff (r : Request) :
    parse raw = .ok (.request r) ↔
      Versioned ws ∧ HasId ws r.id ∧ HasMethod ws r.method ∧ r.method ≠ "" ∧ HasParams ws r.params := by
  constructor
  · intro h
    rcases parse_cases htext hread with ⟨r', heq, hconditions⟩ | ⟨n, heq, -⟩ | ⟨id, message, heq, -⟩ | ⟨message, heq, -⟩
    all_goals rw [h] at heq; cases heq
    exact hconditions
  · rintro ⟨hversion, hid, hmethod, hne, hparams⟩
    rcases parse_cases htext hread with ⟨⟨id', method', params'⟩, heq, -, hid', hmethod', -, hparams'⟩ |
      ⟨n, -, -, hnone, -⟩ |
      ⟨id, message, -, -, -, hempty⟩ | ⟨message, -, hnot⟩
    · obtain rfl : id' = r.id := hid'.unique hid
      obtain rfl : method' = r.method := hmethod'.unique hmethod
      obtain rfl : params' = r.params := hparams'.unique hparams
      exact heq
    · exact absurd hnone hid.given
    · exact absurd (hmethod.unique hempty) hne
    · exact absurd ⟨hversion, .inr ⟨_, hid⟩, _, hmethod⟩ hnot

lemma parse_notification_iff (n : Notification) :
    parse raw = .ok (.notification n) ↔
      Versioned ws ∧ Written.given? "id" ws = none ∧ HasMethod ws n.method ∧ HasParams ws n.params := by
  constructor
  · intro h
    rcases parse_cases htext hread with ⟨r, heq, -⟩ | ⟨n', heq, hconditions⟩ | ⟨id, message, heq, -⟩ | ⟨message, heq, -⟩
    all_goals rw [h] at heq; cases heq
    exact hconditions
  · rintro ⟨hversion, hid, hmethod, hparams⟩
    rcases parse_cases htext hread with ⟨r, -, -, hid', -⟩ | ⟨⟨method', params'⟩, heq, -, -, hmethod', hparams'⟩ |
      ⟨id, message, -, -, hid', -⟩ | ⟨message, -, hnot⟩
    · exact absurd hid hid'.given
    · obtain rfl : method' = n.method := hmethod'.unique hmethod
      obtain rfl : params' = n.params := hparams'.unique hparams
      exact heq
    · exact absurd hid hid'.given
    · exact absurd ⟨hversion, .inl hid, _, hmethod⟩ hnot

lemma parse_rejected_iff (id : RequestId) :
    (∃ message, parse raw = .error ⟨some id, .invalidRequest message⟩) ↔
      Versioned ws ∧ HasId ws id ∧ HasMethod ws "" := by
  constructor
  · rintro ⟨message, h⟩
    rcases parse_cases htext hread with
      ⟨r, heq, -⟩ | ⟨n, heq, -⟩ | ⟨id', message', heq, hconditions⟩ | ⟨message', heq, -⟩
    all_goals rw [h] at heq; cases heq
    exact hconditions
  · rintro ⟨hversion, hid, hmethod⟩
    rcases parse_cases htext hread with ⟨r, -, -, -, hmethod', hne, -⟩ | ⟨n, -, -, hnone, -⟩ |
      ⟨id', message, heq, -, hid', -⟩ | ⟨message, -, hnot⟩
    · exact absurd (hmethod'.unique hmethod) hne
    · exact absurd hnone hid.given
    · exact ⟨message, hid'.unique hid ▸ heq⟩
    · exact absurd ⟨hversion, .inr ⟨_, hid⟩, _, hmethod⟩ hnot

lemma parse_unnamed_iff :
    (∃ message, parse raw = .error ⟨none, .invalidRequest message⟩) ↔
      ¬ (Versioned ws ∧ (Written.given? "id" ws = none ∨ ∃ id, HasId ws id) ∧ ∃ method, HasMethod ws method) := by
  constructor
  · rintro ⟨message, h⟩
    rcases parse_cases htext hread with ⟨r, heq, -⟩ | ⟨n, heq, -⟩ | ⟨id, message', heq, -⟩ | ⟨message', heq, hnot⟩
    all_goals rw [h] at heq; cases heq
    exact hnot
  · intro hnot
    rcases parse_cases htext hread with ⟨r, -, hversion, hid, hmethod, -⟩ | ⟨n, -, hversion, hid, hmethod, -⟩ |
      ⟨id, message, -, hversion, hid, hmethod⟩ | ⟨message, heq, -⟩
    · exact absurd ⟨hversion, .inr ⟨_, hid⟩, _, hmethod⟩ hnot
    · exact absurd ⟨hversion, .inl hid, _, hmethod⟩ hnot
    · exact absurd ⟨hversion, .inr ⟨_, hid⟩, _, hmethod⟩ hnot
    · exact ⟨message, heq⟩

end Answers

/-- A text is not understood if it is no readable text of an object. -/
lemma parse_error_iff :
    parse raw = .error ⟨none, .parseError⟩ ↔
      ¬ ∃ ws, IsText raw (.object ws) ∧ Written.Readable Written.maxDepth (.object ws) := by
  constructor
  · rintro h ⟨ws, htext, hread⟩
    rcases parse_cases htext hread with ⟨r, heq, -⟩ | ⟨n, heq, -⟩ | ⟨id, message, heq, -⟩ | ⟨message, heq, -⟩
    all_goals rw [h] at heq; cases heq
  · intro hno
    cases hvalue : Json.parse? raw with
    | none => rw [parse, hvalue]
    | some v =>
      obtain ⟨w, hw, hv⟩ := Option.bind_eq_some_iff.1 hvalue
      rw [ofText?_eq_some_iff] at hw
      rw [parse, hvalue]
      cases v with
      | object members =>
        obtain ⟨ws, rfl⟩ := Written.exists_object hv
        exact absurd ⟨ws, hw, Written.readable_of_value hv⟩ hno
      | _ => rfl

/-- Which texts are messages, what they hold, and how the others are rejected. -/
theorem parse_grammar (raw : String) :
    (parse raw = .error ⟨none, .parseError⟩ ↔
      ¬ ∃ ws, IsText raw (.object ws) ∧ Written.Readable Written.maxDepth (.object ws)) ∧
    ∀ ws, IsText raw (.object ws) → Written.Readable Written.maxDepth (.object ws) →
      (∀ r, parse raw = .ok (.request r) ↔
        Versioned ws ∧ HasId ws r.id ∧ HasMethod ws r.method ∧ r.method ≠ "" ∧ HasParams ws r.params) ∧
      (∀ n, parse raw = .ok (.notification n) ↔
        Versioned ws ∧ Written.given? "id" ws = none ∧ HasMethod ws n.method ∧ HasParams ws n.params) ∧
      (∀ id, (∃ message, parse raw = .error ⟨some id, .invalidRequest message⟩) ↔
        Versioned ws ∧ HasId ws id ∧ HasMethod ws "") ∧
      ((∃ message, parse raw = .error ⟨none, .invalidRequest message⟩) ↔
        ¬ (Versioned ws ∧ (Written.given? "id" ws = none ∨ ∃ id, HasId ws id) ∧ ∃ method, HasMethod ws method)) :=
  ⟨parse_error_iff, fun _ htext hread => ⟨parse_request_iff htext hread, parse_notification_iff htext hread,
    parse_rejected_iff htext hread, parse_unnamed_iff htext hread⟩⟩

/-- A text that gives its version, its id and its parameters twice. -/
def repeatedText : String :=
  "\x7b\"jsonrpc\":\"1.0\",\"id\":null,\"params\":[],\"method\":\"m\",\"id\":7,\"params\":null,\"jsonrpc\":\"2.0\"\x7d"

def repeatedMembers : List (List Piece × Written) := [
  (pieces "jsonrpc", .string (pieces "1.0")), (pieces "id", .null), (pieces "params", .array []),
  (pieces "method", .string (pieces "m")), (pieces "id", .number ⟨false, ['7'], none, none⟩),
  (pieces "params", .null), (pieces "jsonrpc", .string (pieces "2.0"))]

set_option maxRecDepth 20000 in
theorem parse_grammar_of_repeated :
    IsText repeatedText (.object repeatedMembers) ∧ Written.Readable Written.maxDepth (.object repeatedMembers) ∧
      parse repeatedText = .ok (.request ⟨.number 7, "m", none⟩) := by
  have htext : IsText repeatedText (.object repeatedMembers) := ofText?_eq_some_iff.1 (by cbv)
  have hseven : Numeral.value? ⟨false, ['7'], none, none⟩ = some (.natural 7) := by decide
  have hread : Written.Readable (126 + 1) (.object repeatedMembers) := by
    refine .object (by simp [repeatedMembers]) ?_
    simp only [repeatedMembers, List.forall_mem_cons]
    exact ⟨.string (by simp), .null, .array (by simp), .string (by simp), .number (by rw [hseven]; rfl), .null,
      .string (by simp), by simp⟩
  have hid : HasId repeatedMembers (.number 7) :=
    ⟨by simp [repeatedMembers, Written.given?, Written.value?, Written.valueWithin?, hseven]; rfl,
      by simp [RequestId.InRange]⟩
  have hparams : HasParams repeatedMembers none := by
    simp [HasParams, repeatedMembers, Written.given?, Written.value?, Written.valueWithin?]
  exact ⟨htext, hread, (((parse_grammar repeatedText).2 _ htext hread).1 _).2
    ⟨by cbv, hid, by cbv, by decide, hparams⟩⟩

/-- An empty array inside a number of others. -/
def nested : ℕ → Json
  | 0 => .array []
  | n + 1 => .array [nested n]

lemma proper_nested (n : ℕ) : (nested n).Proper := by
  induction n with
  | zero => exact .array (by simp)
  | succ n ih => exact .array (by simpa using ih)

lemma valueWithin?_nested {n room : ℕ} (h : room ≤ n) : Written.valueWithin? room (nested n).tree = none := by
  induction n generalizing room with
  | zero =>
    obtain rfl : room = 0 := by omega
    rfl
  | succ n ih =>
    rw [nested, tree, Written.valueWithin?, trees, trees, Written.valuesWithin?, ih (show room - 1 ≤ n by omega)]
    simp

/-- A message whose parameters have a number of levels. -/
def nestedMessage (n : ℕ) : Json :=
  .object [("jsonrpc", .string "2.0"), ("method", .string "m"), ("params", nested n)]

lemma isText_nestedMessage (n : ℕ) : IsText (nestedMessage n).compact (nestedMessage n).tree := by
  refine ofText?_eq_some_iff.1 (ofText?_compact (.object ?_))
  simp only [List.forall_mem_cons]
  exact ⟨.string _, .string _, proper_nested n, by simp⟩

lemma parse_of_no_value {raw : String} {w : Written} (htext : IsText raw w) (hnone : w.value? = none) :
    parse raw = .error ⟨none, .parseError⟩ := by
  have hparse : Json.parse? raw = none := by
    rw [Json.parse?, ofText?_eq_some_iff.2 htext]
    exact hnone
  rw [parse, hparse]

/-- A message with too many levels is not understood. -/
lemma parse_nestedMessage {n : ℕ} (h : 126 ≤ n) : parse (nestedMessage n).compact = .error ⟨none, .parseError⟩ := by
  refine parse_of_no_value (isText_nestedMessage n) ?_
  simp [nestedMessage, tree, Written.value?, Written.valueWithin?, Written.membersWithin?, Written.maxDepth,
    valueWithin?_nested h]

/-- Parameters out of range. -/
def largeText : String := "\x7b\"jsonrpc\":\"2.0\",\"method\":\"m\",\"params\":1e400\x7d"

/-- Parameters with half of an escaped pair. -/
def halfText : String := "\x7b\"jsonrpc\":\"2.0\",\"method\":\"m\",\"params\":\"\\ud800\"\x7d"

/-- An id with a zero that has a sign. -/
def zeroText : String := "\x7b\"jsonrpc\":\"2.0\",\"method\":\"m\",\"id\":-0\x7d"

/-- The members of such a message. -/
def messageMembers (key : String) (w : Written) : List (List Piece × Written) :=
  [(pieces "jsonrpc", .string (pieces "2.0")), (pieces "method", .string (pieces "m")), (pieces key, w)]

lemma isText_largeText :
    IsText largeText
      (.object (messageMembers "params" (.number ⟨false, ['1'], none, some (false, ['4', '0', '0'])⟩))) :=
  ofText?_eq_some_iff.1 (by cbv)

lemma isText_halfText : IsText halfText (.object (messageMembers "params" (.string [.unit 0xD800]))) :=
  ofText?_eq_some_iff.1 (by cbv)

lemma isText_zeroText : IsText zeroText (.object (messageMembers "id" (.number ⟨true, ['0'], none, none⟩))) :=
  ofText?_eq_some_iff.1 (by cbv)

lemma parse_largeText : parse largeText = .error ⟨none, .parseError⟩ := by
  have hnumber : Numeral.value? ⟨false, ['1'], none, some (false, ['4', '0', '0'])⟩ = none := by decide
  refine parse_of_no_value isText_largeText ?_
  simp [messageMembers, Written.value?, Written.valueWithin?, Written.membersWithin?, hnumber]

lemma parse_halfText : parse halfText = .error ⟨none, .parseError⟩ := by
  have hstring : Written.text? [.unit 0xD800] = none := by decide
  refine parse_of_no_value isText_halfText ?_
  simp [messageMembers, Written.value?, Written.valueWithin?, Written.membersWithin?, hstring]

lemma parse_zeroText : ∃ message, parse zeroText = .error ⟨none, .invalidRequest message⟩ := by
  have hzero : Numeral.value? ⟨true, ['0'], none, none⟩ = some (.float (.zero true)) := by decide
  have hread : Written.Readable (126 + 1) (.object (messageMembers "id" (.number ⟨true, ['0'], none, none⟩))) := by
    refine .object (by simp [messageMembers]) ?_
    simp only [messageMembers, List.forall_mem_cons]
    exact ⟨.string (by simp), .string (by simp), .number (by rw [hzero]; rfl), by simp⟩
  have hid : Written.given? "id" (messageMembers "id" (.number ⟨true, ['0'], none, none⟩)) =
      some (.number (.float (.zero true))) := by
    simp [messageMembers, Written.given?, Written.value?, Written.valueWithin?, hzero]
  rw [parse_unnamed_iff isText_zeroText hread, hid]
  rintro ⟨-, hgiven | ⟨id, hhas⟩, -⟩
  · cases hgiven
  · have hread := bind_ofJson?_eq_some_iff.2 hhas
    rw [hid] at hread
    cases hread

/-- With one level more than can be held, a text of an object is rejected like one that is not JSON. So is one with a
number out of range or half of an escaped pair, and an id of `-0` is no integer. -/
theorem unheld_texts_rejected :
    ((∃ ws, IsText (nestedMessage 126).compact (.object ws)) ∧
      parse (nestedMessage 126).compact = .error ⟨none, .parseError⟩) ∧
    ((∃ ws, IsText largeText (.object ws)) ∧ parse largeText = .error ⟨none, .parseError⟩) ∧
    ((∃ ws, IsText halfText (.object ws)) ∧ parse halfText = .error ⟨none, .parseError⟩) ∧
    IsText zeroText (.object (messageMembers "id" (.number ⟨true, ['0'], none, none⟩))) ∧
      ∃ message, parse zeroText = .error ⟨none, .invalidRequest message⟩ :=
  ⟨⟨⟨_, isText_nestedMessage 126⟩, parse_nestedMessage (by decide)⟩, ⟨⟨_, isText_largeText⟩, parse_largeText⟩,
    ⟨⟨_, isText_halfText⟩, parse_halfText⟩, isText_zeroText, parse_zeroText⟩

end Message

end Rpc

end UiCatalog
