import Mathlib.Data.List.Forall2
import UiCatalog.Pattern
import UiCatalog.Proofs.Blanks
import UiCatalog.Proofs.Nesting

/-!
# Object literals as they may be written

How an object literal may be laid out: white space between the tokens, a comma behind the last entry, and keys
that are bare or quoted. Every layout of the same entries reads as these entries.
-/
namespace UiCatalog.Code

open Text

/-! ## Layouts -/

/-- A character of a key that stands without quotes. -/
def isBare (c : Char) : Bool := isPlain c && !isBlank c && !(['.', ',', ':', '='].contains c)

/-- A literal that holds `value` as it is, for values of which `inside` is true. -/
def Quotes (inside : List Char → Prop) (value t : List Char) : Prop :=
  ∃ quote, isQuote quote = true ∧ quote ∉ value ∧ '\\' ∉ value ∧ inside value ∧ t = quote :: (value ++ [quote])

/-- A key, bare or quoted. -/
def KeyText (inside : List Char → Prop) (key : String) (t : List Char) : Prop :=
  (key.toList ≠ [] ∧ (∀ c ∈ key.toList, isBare c = true) ∧ t = key.toList) ∨ Quotes inside key.toList t

/-- A text of the given kind with white space around it. -/
def Padded (kind : List Char → Prop) (t : List Char) : Prop :=
  ∃ w core w', IsSpace w ∧ kind core ∧ IsSpace w' ∧ t = w ++ (core ++ w')

/-- Items of the given kinds with commas between them, and perhaps one behind the last. -/
def ListText (kinds : List (List Char → Prop)) (t : List Char) : Prop :=
  ∃ pieces last, List.Forall₂ (fun kind piece => kind piece) kinds pieces ∧
    (last = [] ∨ ∃ w, IsSpace w ∧ last = [w]) ∧ t = join [','] (pieces ++ last)

def EntryText (inside : List Char → Prop) (entry : String × (List Char → Prop)) (t : List Char) : Prop :=
  ∃ w key w' v, IsSpace w ∧ KeyText inside entry.1 key ∧ IsSpace w' ∧ entry.2 v ∧ t = w ++ (key ++ (w' ++ ':' :: v))

/-- An object literal with the given keys and kinds of values. -/
def ObjectText (inside : List Char → Prop) (entries : List (String × (List Char → Prop))) : List Char → Prop :=
  Padded fun core => ∃ body, ListText (entries.map (EntryText inside)) body ∧ core = '\x7b' :: (body ++ ['\x7d'])

/-- Entries that read back: none has an empty key, and no value has a comma outside brackets. -/
def Writable (entries : List (String × (List Char → Prop))) : Prop :=
  ∀ e ∈ entries, e.1 ≠ "" ∧ ∀ v, e.2 v → Piece (· ≠ ',') v

variable {inside kind : List Char → Prop} {free : Char → Prop} {key : String} {value t u w : List Char} {c : Char}

/-! ## Characters -/

lemma mem_of_not_plain (h : isPlain c = false) : c ∈ "'\"\x60/\x7b\x7d()[]".toList := by
  simp only [isPlain, isQuote, depthStep, opensBracket, closesBracket] at h
  by_contra hc
  simp at hc
  simp [hc] at h

lemma plain_of_blank (h : isBlank c = true) : isPlain c = true := by
  by_contra hp
  have hnone : ∀ c ∈ "'\"\x60/\x7b\x7d()[]".toList, isBlank c = false := by decide
  exact absurd h (by simp [hnone c (mem_of_not_plain (by simpa using hp))])

lemma ne_of_blank {d : Char} (h : isBlank c = true) (hd : isBlank d = false) : c ≠ d := by
  rintro rfl
  exact absurd h (by simp [hd])

lemma not_blank_of_quote (h : isQuote c = true) : isBlank c = false := by
  rcases isQuote_iff.mp h with rfl | rfl | rfl <;> decide

lemma bare_iff : isBare c = true ↔
    isPlain c = true ∧ isBlank c = false ∧ c ≠ '.' ∧ c ≠ ',' ∧ c ≠ ':' ∧ c ≠ '=' := by
  simp [isBare, and_assoc]

/-! ## Pieces -/

lemma piece_of_isSpace (hw : IsSpace w) (hfree : ∀ c, isBlank c = true → free c) : Piece free w :=
  piece_of_plain fun c hc => ⟨plain_of_blank (hw c hc), hfree c (hw c hc)⟩

lemma literalBody_of_plain {quote : Char} (hq : quote ∉ t) (hback : '\\' ∉ t) : LiteralBody quote t := by
  induction t with
  | nil => exact .nil
  | cons c t ih =>
    simp only [List.mem_cons, not_or] at hq hback
    exact .plain (Ne.symm hq.1) (Ne.symm hback.1) (ih hq.2 hback.2)

lemma isLiteral_of_quotes (h : Quotes inside value t) : IsLiteral t := by
  obtain ⟨quote, hq, hvalue, hback, -, rfl⟩ := h
  exact ⟨quote, value, hq, literalBody_of_plain hvalue hback, rfl⟩

lemma piece_of_keyText (h : KeyText inside key t) (hfree : ∀ c, isBare c = true → free c) : Piece free t := by
  obtain ⟨-, hbare, rfl⟩ | hquotes := h
  · exact piece_of_plain fun c hc => ⟨(bare_iff.mp (hbare c hc)).1, hfree c (hbare c hc)⟩
  · exact piece_literal (isLiteral_of_quotes hquotes)

lemma piece_of_padded (h : Padded kind t) (hkind : ∀ u, kind u → Piece free u)
    (hfree : ∀ c, isBlank c = true → free c) : Piece free t := by
  obtain ⟨w, core, w', hw, hcore, hw', rfl⟩ := h
  exact (piece_of_isSpace hw hfree).append ((hkind core hcore).append (piece_of_isSpace hw' hfree))

lemma not_comma_of_blank : ∀ c, isBlank c = true → c ≠ ',' := fun _ h => ne_of_blank h (by decide)

lemma piece_of_entryText {entry : String × (List Char → Prop)} (h : EntryText inside entry t)
    (hvalue : ∀ v, entry.2 v → Piece (· ≠ ',') v) : Piece (· ≠ ',') t := by
  obtain ⟨w, key, w', v, hw, hkey, hw', hv, rfl⟩ := h
  have hcolon : Piece (· ≠ ',') [':'] := piece_of_plain (by simp; decide)
  have hk := piece_of_keyText hkey fun c hc => (bare_iff.mp hc).2.2.2.1
  exact (piece_of_isSpace hw not_comma_of_blank).append
    (hk.append ((piece_of_isSpace hw' not_comma_of_blank).append (hcolon.append (hvalue v hv))))

lemma piece_join {pieces : List (List Char)} (h : ∀ t ∈ pieces, Piece (· ≠ ',') t) :
    Piece (fun _ => True) (join [','] pieces) := by
  have hcomma : Piece (fun _ => True) [','] := piece_of_plain (by simp; decide)
  have hpiece (t : List Char) (ht : t ∈ pieces) : Piece (fun _ => True) t := (h t ht).mono fun _ _ => trivial
  induction pieces with
  | nil => exact piece_nil
  | cons t pieces ih =>
    cases pieces with
    | nil => exact hpiece t (.head _)
    | cons u pieces =>
      rw [join_cons _ _ (List.cons_ne_nil u pieces)]
      exact (hpiece t (.head _)).append
        (hcomma.append (ih (fun t ht => h t (.tail _ ht)) fun t ht => hpiece t (.tail _ ht)))

/-! ## Layouts without white space -/

lemma padded_self (h : kind t) : Padded kind t := ⟨[], t, [], isSpace_nil, h, isSpace_nil, by simp⟩

lemma quotes_self (quote : Char) {value : List Char}
    (h : isQuote quote = true ∧ quote ∉ value ∧ '\\' ∉ value ∧ inside value) :
    Quotes inside value (quote :: (value ++ [quote])) :=
  ⟨quote, h.1, h.2.1, h.2.2.1, h.2.2.2, rfl⟩

lemma keyText_bare (h : key.toList ≠ [] ∧ ∀ c ∈ key.toList, isBare c = true) : KeyText inside key key.toList :=
  .inl ⟨h.1, h.2, rfl⟩

lemma entryText_self (hkey : KeyText inside key t) (hvalue : kind u) : EntryText inside (key, kind) (t ++ ':' :: u) :=
  ⟨[], t, [], u, isSpace_nil, hkey, isSpace_nil, hvalue, rfl⟩

lemma listText_join {kinds : List (List Char → Prop)} {pieces : List (List Char)}
    (h : List.Forall₂ (fun kind piece => kind piece) kinds pieces) : ListText kinds (join [','] pieces) :=
  ⟨pieces, [], h, .inl rfl, by rw [List.append_nil]⟩

lemma objectText_join {entries : List (String × (List Char → Prop))} {pieces : List (List Char)}
    (h : List.Forall₂ (EntryText inside) entries pieces) :
    ObjectText inside entries ('\x7b' :: (join [','] pieces ++ ['\x7d'])) :=
  padded_self ⟨_, listText_join (List.forall₂_map_left_iff.mpr h), rfl⟩

/-! ## Reading layouts back -/

lemma trim_quotes (h : Quotes inside value t) : trim t = t := by
  obtain ⟨quote, hq, -, -, -, rfl⟩ := h
  exact trim_enclosed (not_blank_of_quote hq) (not_blank_of_quote hq) value

lemma unquote?_quotes (h : Quotes inside value t) : unquote? t = some value := by
  have htrim := trim_quotes h
  obtain ⟨quote, hq, -, -, -, rfl⟩ := h
  rw [unquote?, htrim]
  simp [hq]

lemma trim_padded (h : Padded kind t) (hkind : ∀ u, kind u → trim u = u) : ∃ core, kind core ∧ trim t = core := by
  obtain ⟨w, core, w', hw, hcore, hw', rfl⟩ := h
  refine ⟨core, hcore, ?_⟩
  rw [trim_space_append hw, trim_append_space hw', hkind core hcore]

lemma unquote?_of_not_quote (hc : isQuote c = false) (hb : isBlank c = false) (t : List Char) :
    unquote? (c :: t) = none := by
  rw [unquote?, trim_cons hb]
  simp [hc]

/-- A key reads as itself, and begins with something that is neither blank nor a dot. -/
lemma keyText_read (h : KeyText inside key t) :
    (unquote? t).getD t = key.toList ∧ trim t = t ∧ ∃ c u, t = c :: u ∧ isBlank c = false ∧ c ≠ '.' := by
  obtain ⟨hne, hbare, rfl⟩ | hquotes := h
  · have hrun : IsRun key.toList := ⟨hne, fun c hc => (bare_iff.mp (hbare c hc)).2.1⟩
    have htrim := trim_of_isRun hrun
    obtain ⟨c, u, hkey⟩ := List.exists_cons_of_ne_nil hne
    rw [hkey] at hbare htrim ⊢
    obtain ⟨hplain, hblank, hdot, -⟩ := bare_iff.mp (hbare c (.head _))
    have hquote : isQuote c = false := by
      simp only [isPlain, Bool.and_eq_true, Bool.not_eq_true'] at hplain
      exact hplain.1.1
    exact ⟨by rw [unquote?_of_not_quote hquote hblank]; rfl, htrim, c, u, rfl, hblank, hdot⟩
  · refine ⟨by rw [unquote?_quotes hquotes]; rfl, trim_quotes hquotes, ?_⟩
    obtain ⟨quote, hq, -, -, -, rfl⟩ := hquotes
    refine ⟨quote, _, rfl, not_blank_of_quote hq, ?_⟩
    rintro rfl
    exact absurd hq (by decide)

/-- An entry reads as its key with its trimmed value. -/
lemma readEntry_entryText {entry : String × (List Char → Prop)} (h : EntryText inside entry t)
    (hne : entry.1 ≠ "") : ∃ v, entry.2 v ∧ readEntry t = some (entry.1.toList, trim v) := by
  obtain ⟨w, key, w', v, hw, hkey, hw', hv, rfl⟩ := h
  refine ⟨v, hv, ?_⟩
  obtain ⟨hunquote, htrim, c, u, rfl, hblank, hdot⟩ := keyText_read hkey
  have hentry : trim (w ++ (c :: u ++ (w' ++ ':' :: v))) = (c :: u ++ w') ++ ':' :: trimEnd v := by
    rw [trim_space_append hw, List.cons_append, trim_cons hblank, ← List.append_assoc,
      trimEnd_append_cons (by decide)]
    rfl
  have hcolon : Piece (· ≠ ':') (c :: u ++ w') :=
    (piece_of_keyText hkey fun c hc => (bare_iff.mp hc).2.2.2.2.1).append
      (piece_of_isSpace hw' fun c hc => ne_of_blank hc (by decide))
  have hspread : isSpread ((c :: u ++ w') ++ ':' :: trimEnd v) = false := by
    simp [isSpread, List.isPrefixOf, Ne.symm hdot]
  have hkeyTrim : trim (c :: u ++ w') = c :: u := by rw [trim_append_space hw', htrim]
  have hname : entry.1.toList.isEmpty = false := by simpa using hne
  rw [readEntry, hentry]
  simp only [hspread, Bool.false_eq_true, if_false, colonOffset?_key hcolon]
  rw [List.take_left, ← List.drop_drop, List.drop_left, List.drop_one, List.tail_cons, hkeyTrim, trim_trimEnd, hunquote,
    hname]
  rfl

lemma exists_kind_of_mem {kinds : List (List Char → Prop)} {pieces : List (List Char)}
    (h : List.Forall₂ (fun kind piece => kind piece) kinds pieces) (hu : u ∈ pieces) : ∃ kind ∈ kinds, kind u := by
  induction h with
  | nil => exact absurd hu List.not_mem_nil
  | @cons kind piece kinds pieces hpiece _ ih =>
    rcases List.mem_cons.mp hu with rfl | hu
    · exact ⟨kind, .head _, hpiece⟩
    · obtain ⟨other, hother, hou⟩ := ih hu
      exact ⟨other, .tail _ hother, hou⟩

/-- A list is its items, in order, and perhaps white space behind the last comma. -/
lemma exists_pieces_of_listText {kinds : List (List Char → Prop)} (h : ListText kinds t)
    (hkinds : ∀ kind ∈ kinds, ∀ u, kind u → ¬ IsSpace u) : ∃ pieces, t = join [','] pieces ∧
      (∀ u ∈ pieces, (∃ kind ∈ kinds, kind u) ∨ IsSpace u) ∧
      List.Forall₂ (fun kind piece => kind piece) kinds (pieces.filter fun piece => !isBlankText piece) := by
  obtain ⟨pieces, last, hitems, hlast, rfl⟩ := h
  have hlastSpace : ∀ u ∈ last, IsSpace u := by
    obtain rfl | ⟨w, hw, rfl⟩ := hlast <;> simp [*]
  refine ⟨pieces ++ last, rfl, fun u hu => ?_, ?_⟩
  · rcases List.mem_append.mp hu with hu | hu
    · exact .inl (exists_kind_of_mem hitems hu)
    · exact .inr (hlastSpace u hu)
  -- A trailing comma leaves one more piece, and it is dropped as it is blank.
  · have hin : pieces.filter (fun piece => !isBlankText piece) = pieces :=
      List.filter_eq_self.mpr fun u hu => by
        obtain ⟨kind, hkind, hku⟩ := exists_kind_of_mem hitems hu
        rw [Bool.not_eq_true', ← Bool.not_eq_true, isBlankText_iff]
        exact hkinds kind hkind u hku
    have hout : last.filter (fun piece => !isBlankText piece) = [] :=
      List.filter_eq_nil_iff.mpr fun u hu => by simpa [isBlankText_iff] using hlastSpace u hu
    rwa [List.filter_append, hin, hout, List.append_nil]

lemma segment_join {pieces : List (List Char)} (h : ∀ t ∈ pieces, Segment (· ≠ ',') t) :
    Segment (fun _ => True) (join [','] pieces) := by
  have hopen {t : List Char} (ht : Segment (· ≠ ',') t) : Segment (fun _ => True) t :=
    ⟨ht.closed, ht.level.mono fun _ _ => trivial⟩
  induction pieces with
  | nil => exact piece_nil.segment
  | cons t pieces ih =>
    have ht := hopen (h t (.head _))
    cases pieces with
    | nil => exact ht
    | cons u pieces =>
      have hrest := ih fun t ht => h t (.tail _ ht)
      have hkeeps (rest : List Char) : KeepsSlash (',' :: rest) := by simp [KeepsSlash]
      have hmark (rest : List Char) : mark (',' :: rest) = (',', true) :: mark rest :=
        mark_cons_of_plain (by decide) rest
      rw [join_cons _ _ (List.cons_ne_nil u pieces), List.singleton_append]
      refine ⟨fun rest hr => ?_, ?_⟩
      · rw [List.append_assoc, List.cons_append, ht.closed _ (hkeeps _), hmark, hrest.closed rest hr,
          ht.closed _ (hkeeps _), hmark, List.append_assoc, List.cons_append]
      · rw [ht.closed _ (hkeeps _), hmark]
        exact ht.level.append (.plain (by decide) trivial hrest.level)

/-- The pieces of a list read as its items, in order. -/
lemma splitTopLevel_items {kinds : List (List Char → Prop)} (h : ListText kinds t)
    (hkinds : ∀ kind ∈ kinds, ∀ u, kind u → Segment (· ≠ ',') u ∧ ¬ IsSpace u) :
    Segment (fun _ => True) t ∧ List.Forall₂ (fun kind piece => kind piece) kinds (splitTopLevel ',' t) := by
  obtain ⟨pieces, rfl, hpieces, hitems⟩ := exists_pieces_of_listText h fun kind hkind u hu => (hkinds kind hkind u hu).2
  have hall : ∀ u ∈ pieces, Segment (· ≠ ',') u := by
    intro u hu
    rcases hpieces u hu with ⟨kind, hkind, hku⟩ | hspace
    · exact (hkinds kind hkind u hku).1
    · exact (piece_of_isSpace hspace not_comma_of_blank).segment
  refine ⟨segment_join hall, ?_⟩
  by_cases hnil : pieces = []
  · rw [hnil] at hitems ⊢
    exact hitems
  · rwa [splitTopLevel_segments (by decide) (by decide) hnil hall]

lemma splitTopLevel_listText {kinds : List (List Char → Prop)} (h : ListText kinds t)
    (hkinds : ∀ kind ∈ kinds, ∀ u, kind u → Piece (· ≠ ',') u ∧ ¬ IsSpace u) :
    Piece (fun _ => True) t ∧ List.Forall₂ (fun kind piece => kind piece) kinds (splitTopLevel ',' t) := by
  refine ⟨?_, (splitTopLevel_items h fun kind hkind u hu => (hkinds kind hkind u hu).imp_left Piece.segment).2⟩
  obtain ⟨pieces, rfl, hpieces, -⟩ := exists_pieces_of_listText h fun kind hkind u hu => (hkinds kind hkind u hu).2
  refine piece_join fun u hu => ?_
  rcases hpieces u hu with ⟨kind, hkind, hku⟩ | hspace
  · exact (hkinds kind hkind u hku).1
  · exact piece_of_isSpace hspace not_comma_of_blank

lemma not_isSpace_of_mem (hc : c ∈ t) (hblank : isBlank c = false) : ¬ IsSpace t := fun h =>
  absurd (h c hc) (by simp [hblank])

variable {entries : List (String × (List Char → Prop))}

/-- The body of an object literal reads as its entries, in order. -/
theorem objectEntries_listText (h : ListText (entries.map (EntryText inside)) t) (hw : Writable entries) :
    Piece (fun _ => True) t ∧
      List.Forall₂ (fun e r => ∃ v, e.2 v ∧ r = (e.1.toList, trim v)) entries (objectEntries t) := by
  obtain ⟨hpiece, hitems⟩ := splitTopLevel_listText h fun kind hkind u hu => by
    obtain ⟨e, he, rfl⟩ := List.mem_map.mp hkind
    refine ⟨piece_of_entryText hu (hw e he).2, ?_⟩
    obtain ⟨w, key, w', v, -, -, -, -, rfl⟩ := hu
    exact not_isSpace_of_mem (c := ':') (by simp) (by decide)
  refine ⟨hpiece, ?_⟩
  rw [List.forall₂_map_left_iff] at hitems
  rw [objectEntries]
  generalize splitTopLevel ',' t = pieces at hitems
  clear h hpiece
  induction hitems with
  | nil => exact .nil
  | cons hu _ ih =>
    obtain ⟨v, hv, hread⟩ := readEntry_entryText hu (hw _ (.head _)).1
    rw [List.filterMap_cons_some hread]
    exact .cons ⟨v, hv, rfl⟩ (ih fun e he => hw e (.tail _ he))

/-- An object literal has a body that reads as its entries. -/
theorem objectText_read (h : ObjectText inside entries t) (hw : Writable entries) :
    ∃ body, trim t = '\x7b' :: (body ++ ['\x7d']) ∧ Piece (fun _ => True) body ∧
      List.Forall₂ (fun e r => ∃ v, e.2 v ∧ r = (e.1.toList, trim v)) entries (objectEntries body) := by
  obtain ⟨core, ⟨body, hbody, rfl⟩, htrim⟩ := trim_padded h fun u ⟨body, _, hu⟩ => by
    rw [hu]
    exact trim_enclosed (by decide) (by decide) body
  obtain ⟨hpiece, hread⟩ := objectEntries_listText hbody hw
  exact ⟨body, htrim, hpiece, hread⟩

lemma piece_of_objectText (h : ObjectText inside entries t) (hw : Writable entries)
    (hfree : ∀ c, isBlank c = true → free c) : Piece free t :=
  piece_of_padded h (fun _ ⟨_, hbody, hu⟩ => hu ▸
    piece_group (by decide) (by decide) (objectEntries_listText hbody hw).1) hfree

end UiCatalog.Code
