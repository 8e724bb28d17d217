import UiCatalog.Proofs.IgnoredComments
import UiCatalog.Proofs.Matching
import UiCatalog.Proofs.ObjectText
import UiCatalog.Proofs.Precedence

/-!
# Defaults of documented parameters

The default of a property that a doc comment documents is searched for in the whole source, while the parameters
of the declaration are read entry by entry. The two agree where the entry of the declaration is the first text of
its shape in the source.
-/
namespace UiCatalog

open Text Pattern Code

namespace Parameters

/-! ## Entries as they may be written -/

/-- A character of a simple value without quotes. -/
def isSimple (c : Char) : Bool := noneOf ",\x7b\x7d()=>" c && !isBlank c

/-- A value that the search takes as a whole: a literal without its own quote inside, or simple characters. -/
def ValueText (v : List Char) : Prop :=
  (∃ quote inner, isQuote quote = true ∧ quote ∉ inner ∧ v = quote :: (inner ++ [quote])) ∨
    ∃ c cs, isQuote c = false ∧ (∀ d ∈ c :: cs, isSimple d = true) ∧ v = c :: cs

/-- An entry that gives the name `n` the default `v`. -/
def DefaultText (n v t : List Char) : Prop :=
  ∃ w w₁ w₂ w₃, IsSpace w ∧ IsSpace w₁ ∧ IsSpace w₂ ∧ IsSpace w₃ ∧
    t = w ++ (n ++ (w₁ ++ '=' :: (w₂ ++ (v ++ w₃))))

/-- A name that can be bound without quotes. -/
def IsName (n : List Char) : Prop := n ≠ [] ∧ ∀ c ∈ n, isBare c = true

variable {n v t u w rest : List Char} {c d : Char} {β : Type} {next : Point → Option β} {r : β} {p : Point}

/-! ## The search -/

lemma run_quoted {quote : Char} (inner rest : List Char) (hq : quote ∉ inner)
    (hp : p.rest = quote :: (inner ++ quote :: rest))
    (hnext : next (p.over (quote :: (inner ++ [quote])) rest) = some r) :
    run (char quote ++ many (· != quote) ++ char quote) p next = some r := by
  have hinner : ∀ c ∈ inner, (c != quote) = true := fun c hc => by
    simpa using ne_of_mem_of_not_mem hc hq
  rw [run_append, run_append, run_char hp]
  refine run_many inner (quote :: rest) rfl hinner (fun d hd => by simp [← Option.some.inj hd]) ?_
  rw [run_char rfl, Point.over_over, Point.over_over]
  exact hnext

lemma run_quoted_eq_none {quote : Char} (hp : p.rest = c :: rest) (hc : c ≠ quote) :
    run (char quote ++ many (· != quote) ++ char quote) p next = none := by
  rw [run_append, run_append]
  exact run_one_eq_none hp (by simpa using hc)

/-- A value is taken whole when what follows cannot go on with it. -/
lemma run_simpleValue (hv : ValueText v) (hp : p.rest = v ++ c :: rest) (hc : isSimple c = false)
    (hnext : next (p.over v (c :: rest)) = some r) : run simpleValue p next = some r := by
  obtain ⟨quote, inner, hq, hinner, rfl⟩ | ⟨d, ds, hd, hds, rfl⟩ := hv
  · have hrest : p.rest = quote :: (inner ++ quote :: c :: rest) := by simpa using hp
    have hrun := run_quoted inner (c :: rest) hinner hrest hnext
    rcases isQuote_iff.mp hq with rfl | rfl | rfl
    · exact run_orElse_left hrun
    · refine (run_orElse_right (run_quoted_eq_none hrest (by decide))).trans ?_
      exact run_orElse_left hrun
    · refine (run_orElse_right (run_quoted_eq_none hrest (by decide))).trans ?_
      refine (run_orElse_right (run_quoted_eq_none hrest (by decide))).trans ?_
      exact run_orElse_left hrun
  · have hne : d ≠ '\'' ∧ d ≠ '"' ∧ d ≠ '\x60' := by
      simpa [isQuote, and_assoc] using hd
    refine (run_orElse_right (run_quoted_eq_none hp hne.1)).trans ?_
    refine (run_orElse_right (run_quoted_eq_none hp hne.2.1)).trans ?_
    refine (run_orElse_right (run_quoted_eq_none hp hne.2.2)).trans ?_
    exact run_many1 (d :: ds) (c :: rest) hp (by simp) hds (fun e he => Option.some.inj he ▸ hc) hnext

lemma IsName.exists_cons (hn : IsName n) : ∃ c cs, n = c :: cs ∧ isBlank c = false ∧ c ≠ '.' := by
  obtain ⟨c, cs, rfl⟩ := List.exists_cons_of_ne_nil hn.1
  obtain ⟨-, hblank, hdot, -⟩ := bare_iff.mp (hn.2 c (.head _))
  exact ⟨c, cs, rfl, hblank, hdot⟩

lemma ValueText.ends (hv : ValueText v) : (∃ c cs, v = c :: cs ∧ isBlank c = false) ∧
    ∃ cs c, v = cs ++ [c] ∧ isBlank c = false := by
  obtain ⟨quote, inner, hq, -, rfl⟩ | ⟨d, ds, -, hds, rfl⟩ := hv
  · exact ⟨⟨quote, _, rfl, not_blank_of_quote hq⟩, quote :: inner, quote, rfl, not_blank_of_quote hq⟩
  · have hblank : ∀ c ∈ d :: ds, isBlank c = false := fun c hc => by
      have hsimple := hds c hc
      simp only [isSimple, Bool.and_eq_true, Bool.not_eq_true'] at hsimple
      exact hsimple.2
    refine ⟨⟨d, ds, rfl, hblank d (.head _)⟩, (d :: ds).dropLast, (d :: ds).getLast (by simp), ?_, ?_⟩
    · exact (List.dropLast_append_getLast _).symm
    · exact hblank _ (List.getLast_mem _)

lemma not_simple_of_blank (h : isBlank c = true) : isSimple c = false := by
  simp [isSimple, h]

/-- The search matches at an entry of its shape and takes the value. -/
lemma matchAt?_defaultText {n : String} (hn : IsName n.toList) (hv : ValueText v) (ht : DefaultText n.toList v t)
    (hc : c = '\x7b' ∨ c = ',') (hd : d = ',' ∨ d = '\x7d') (offset : Nat) :
    ∃ found, (∀ before, matchAt? (defaultPattern n) before offset (c :: (t ++ d :: rest)) = some found) ∧
      found.get 1 = v := by
  obtain ⟨w, w₁, w₂, w₃, hw, hw₁, hw₂, hw₃, rfl⟩ := ht
  obtain ⟨o, os, ho, hoblank, -⟩ := hn.exists_cons
  obtain ⟨⟨q, qs, hq, hqblank⟩, -⟩ := hv.ends
  have hd' : isSimple d = false := by rcases hd with rfl | rfl <;> simp [isSimple, noneOf]
  obtain ⟨e, tail, htail, he⟩ : ∃ e tail, w₃ ++ d :: rest = e :: tail ∧ isSimple e = false := by
    cases w₃ with
    | nil => exact ⟨d, rest, rfl, hd'⟩
    | cons e tail => exact ⟨e, tail ++ d :: rest, rfl, not_simple_of_blank (hw₃ e (.head _))⟩
  let value := v ++ e :: tail
  let binding := n.toList ++ (w₁ ++ '=' :: (w₂ ++ value))
  have hlist : c :: (w ++ (n.toList ++ (w₁ ++ '=' :: (w₂ ++ (v ++ w₃)))) ++ d :: rest) = c :: (w ++ binding) := by
    simp [binding, value, ← htail]
  rw [hlist]
  let captured : Capture := ⟨offset + (c :: (w ++ (n.toList ++ (w₁ ++ '=' :: w₂)))).length,
    offset + (c :: (w ++ (n.toList ++ (w₁ ++ '=' :: (w₂ ++ v))))).length, value⟩
  let whole : Capture :=
    ⟨offset, offset + (c :: (w ++ (n.toList ++ (w₁ ++ '=' :: (w₂ ++ v))))).length, c :: (w ++ binding)⟩
  refine ⟨⟨whole, [(1, captured)]⟩, fun before => ?_, ?_⟩
  · rw [matchAt?]
    simp only [defaultPattern, run_append, run_group]
    refine (run_one rfl (by rcases hc with rfl | rfl <;> rfl)).trans ?_
    refine run_many w binding rfl hw (fun d hd => ?_) ?_
    · have hhead : binding.head? = some o := by simp [binding, ho]
      rw [hhead] at hd
      exact Option.some.inj hd ▸ hoblank
    refine (run_chars n.toList _ rfl).trans ?_
    refine run_many w₁ _ rfl hw₁ (fun d hd => Option.some.inj hd ▸ (by decide)) ?_
    refine (run_char rfl).trans ?_
    refine run_many w₂ value rfl hw₂ (fun d hd => ?_) ?_
    · have hhead : value.head? = some q := by simp [value, hq]
      rw [hhead] at hd
      exact Option.some.inj hd ▸ hqblank
    refine run_simpleValue hv rfl he ?_
    simp [Point.over, whole, captured]
    omega
  · refine get_one_of_length ?_ (e :: tail)
    simp
    omega

/-! ## The entry of the declaration -/

lemma defaultIn?_trim (s : List Char) : defaultIn? (trim s) = defaultIn? s := by
  obtain ⟨w, hw, hsplit⟩ := exists_space_of_trimStart s
  have hequals : '=' ∉ w := not_mem_of_isSpace hw (by decide)
  rw [trim, defaultIn?_trimEnd]
  conv_rhs => rw [hsplit, defaultIn?_append hequals]

/-- Up to an equals sign or a colon the first part of an entry is its name. -/
lemma before_append (hequals : '=' ∉ n) (hcolon : ':' ∉ n) (ht : t = [] ∨ ∃ v, t = '=' :: v ∨ t = ':' :: v) :
    Parameters.before ':' (Parameters.before '=' (n ++ t)) = n := by
  have hpass {c : Char} (hc : c ∉ n) (t : List Char) :
      Parameters.before c (n ++ t) = n ++ Parameters.before c t :=
    List.takeWhile_append_of_pos fun d hd => by simpa using ne_of_mem_of_not_mem hd hc
  rw [hpass hequals, hpass hcolon]
  obtain rfl | ⟨v, rfl | rfl⟩ := ht
  · exact List.append_nil n
  · exact List.append_nil n
  · rw [Parameters.before.eq_1 '=', List.takeWhile_cons_of_pos (by decide)]
    exact List.append_nil n

/-- White space around an entry that begins with a name is cut off. -/
lemma trim_name (hn : IsName n) (hw : IsSpace w) (hu : IsSpace u) (ht : t = [] ∨ ∃ v, t = '=' :: v ∨ t = ':' :: v) :
    ∃ u' t', IsSpace u' ∧ (t' = [] ∨ ∃ v, t' = '=' :: v ∨ t' = ':' :: v) ∧
      trim (w ++ (n ++ u) ++ t) = n ++ u' ++ t' := by
  obtain ⟨c, cs, hcs, hblank, -⟩ := hn.exists_cons
  have hstart (t : List Char) : trimStart (n ++ t) = n ++ t := by
    rw [hcs]
    exact trimStart_cons hblank (cs ++ t)
  rw [List.append_assoc, trim_space_append hw]
  obtain rfl | ⟨v, rfl | rfl⟩ := ht
  · refine ⟨[], [], isSpace_nil, .inl rfl, ?_⟩
    rw [List.append_nil, trim_append_space hu, List.append_nil, List.append_nil]
    exact trim_of_isRun ⟨hn.1, fun c hc => (bare_iff.mp (hn.2 c hc)).2.1⟩
  · exact ⟨u, '=' :: trimEnd v, hu, .inr ⟨_, .inl rfl⟩, by rw [trim_append_cons (by decide), hstart]⟩
  · exact ⟨u, ':' :: trimEnd v, hu, .inr ⟨_, .inr rfl⟩, by rw [trim_append_cons (by decide), hstart]⟩

/-- A name with white space around it reads as itself, with the default behind it. -/
lemma readEntry_name (hn : IsName n) (hw : IsSpace w) (hu : IsSpace u)
    (ht : t = [] ∨ ∃ v, t = '=' :: v ∨ t = ':' :: v) :
    Parameters.readEntry (w ++ (n ++ u) ++ t) = some (String.ofList n, (defaultIn? t).map String.ofList) := by
  have hnot {u : List Char} {d : Char} (hu : IsSpace u) (hbare : isBare d = false) (hd : isBlank d = false) :
      d ∉ n ++ u := by
    rw [List.mem_append, not_or]
    exact ⟨fun hmem => absurd (hn.2 d hmem) (by simp [hbare]), not_mem_of_isSpace hu hd⟩
  have hdefault : defaultIn? (trim (w ++ (n ++ u) ++ t)) = defaultIn? t := by
    have hequals : '=' ∉ w ++ (n ++ u) := by
      rw [List.mem_append, not_or]
      exact ⟨not_mem_of_isSpace hw (by decide), hnot hu (by decide) (by decide)⟩
    rw [defaultIn?_trim, defaultIn?_append hequals]
  obtain ⟨u', t', hu', ht', hentry⟩ := trim_name hn hw hu ht
  have hname : trim (Parameters.before ':' (Parameters.before '=' (n ++ u' ++ t'))) = n := by
    rw [before_append (hnot hu' (by decide) (by decide)) (hnot hu' (by decide) (by decide)) ht',
      trim_append_space hu']
    exact trim_of_isRun ⟨hn.1, fun c hc => (bare_iff.mp (hn.2 c hc)).2.1⟩
  have hspread : isSpread (n ++ u' ++ t') = false := by
    obtain ⟨c, cs, rfl, -, hdot⟩ := hn.exists_cons
    simp [isSpread, List.isPrefixOf, Ne.symm hdot]
  have hne : n.isEmpty = false := by simpa using hn.1
  rw [← hdefault, Parameters.readEntry, hentry]
  simp only [hspread, hname, hne, Bool.false_eq_true, if_false]
  rfl

/-- An entry reads as its name with its value. -/
lemma readEntry_defaultText (hn : IsName n) (hv : ValueText v) (ht : DefaultText n v t) :
    Parameters.readEntry t = some (String.ofList n, some (String.ofList (showLiteral v))) := by
  obtain ⟨w, w₁, w₂, w₃, hw, hw₁, hw₂, hw₃, rfl⟩ := ht
  obtain ⟨⟨q, qs, hq, hqblank⟩, ls, l, hl, hlblank⟩ := hv.ends
  have hvalue : trim (w₂ ++ (v ++ w₃)) = v := by
    rw [trim_space_append hw₂, trim_append_space hw₃]
    exact trim_of_ends hq hqblank hl hlblank
  have hdefault : defaultIn? ('=' :: (w₂ ++ (v ++ w₃))) = some (showLiteral v) := by
    have hread := defaultIn?_equals (v := []) (by simp) (w₂ ++ (v ++ w₃))
    rwa [hvalue] at hread
  have hread := readEntry_name hn hw hw₁ (t := '=' :: (w₂ ++ (v ++ w₃))) (.inr ⟨_, .inl rfl⟩)
  rw [hdefault, List.append_assoc, List.append_assoc] at hread
  exact hread

/-! ## Both ways -/

variable {source body : List Char} {name n : String} {opening : Match} {place : Nat} {lead others : List (List Char)}

/-- The search takes the default of an entry when nothing of its shape starts before it. -/
lemma destructuredDefault?_of_first (hn : IsName n.toList) (hv : ValueText v) (ht : DefaultText n.toList v t)
    (hc : c = '\x7b' ∨ c = ',') (hd : d = ',' ∨ d = '\x7d') (hplace : source.drop place = c :: (t ++ d :: rest))
    (hfirst : ∀ found, (defaultPattern n).find? source = some found → place ≤ found.start) :
    destructuredDefault? source n = some (String.ofList (showLiteral v)) := by
  have hlen : (source.take place).length = place := by
    have hlt : place < source.length := by
      by_contra hge
      rw [List.drop_eq_nil_of_le (by omega)] at hplace
      simp at hplace
    rw [List.length_take]
    omega
  obtain ⟨found, hfound, hget⟩ := matchAt?_defaultText hn hv ht hc hd (0 + (source.take place).length)
  rw [← hplace] at hfound
  obtain ⟨first, hsearch, hbehind⟩ := findFrom?_of_matchAt? none (source.take place) hfound
  rw [List.take_append_drop] at hsearch
  rw [Nat.zero_add, hlen] at hbehind
  have hsame : first = found := hbehind.resolve_left (Nat.not_lt.mpr (hfirst first hsearch))
  rw [destructuredDefault?, show (defaultPattern n).find? source = some first from hsearch, hsame, Option.map_some,
    hget]

/-- The default that the parameter list of the declaration itself gives to `n`. -/
def ownDefault? (source : List Char) (name n : String) : Option String :=
  ((destructuredParameters source name).lookup n).join

lemma ownDefault?_of_first (hopening : (openingPattern name).find? source = some opening)
    (hbody : bracketBody? source (opening.stop - 1) = some body)
    (hentries : splitMarked ',' 0 (mark body) = lead ++ t :: others)
    (hlead : ∀ piece ∈ lead, ∀ value, Parameters.readEntry piece ≠ some (n, value))
    (hn : IsName n.toList) (hv : ValueText v) (ht : DefaultText n.toList v t) :
    ownDefault? source name n = some (String.ofList (showLiteral v)) := by
  have hread := readEntry_defaultText hn hv ht
  rw [String.ofList_toList] at hread
  have hkept : isBlankText t = false := by
    rw [← Bool.not_eq_true, isBlankText_iff]
    obtain ⟨w, w₁, w₂, w₃, -, -, -, -, rfl⟩ := ht
    exact not_isSpace_of_mem (c := '=') (by simp) (by decide)
  have hnone : ((lead.filter fun piece => !isBlankText piece).filterMap Parameters.readEntry).lookup n = none := by
    rw [List.lookup_eq_none_iff]
    rintro ⟨m, value⟩ hmem
    obtain ⟨piece, hpiece, hvalue⟩ := List.mem_filterMap.mp hmem
    have hne : m ≠ n := by
      rintro rfl
      exact hlead piece (List.mem_of_mem_filter hpiece) value hvalue
    simpa using Ne.symm hne
  rw [ownDefault?, destructuredParameters, hopening, Option.bind_some, hbody]
  simp only [splitTopLevel, hentries, List.filter_append, List.filter_cons, hkept, Bool.not_false, if_true,
    List.filterMap_append, List.filterMap_cons_some hread, List.lookup_append, hnone, List.lookup_cons_self]
  rfl

/-- What the declaration's own list says of the default of `n` is what the source says of it first: there is no text
of the shape of such an entry and no default, or the first text of that shape is the entry of the declaration. -/
inductive SpeaksFirst (source : List Char) (name n : String) : Prop
  | silent : (defaultPattern n).find? source = none → ownDefault? source name n = none → SpeaksFirst source name n
  | entry {opening body after lead others t v} :
      (openingPattern name).find? source = some opening →
      source.drop (opening.stop - 1) = '\x7b' :: (body ++ '\x7d' :: after) →
      bracketBody? source (opening.stop - 1) = some body →
      splitMarked ',' 0 (mark body) = lead ++ t :: others →
      (∀ piece ∈ lead, ∀ value, Parameters.readEntry piece ≠ some (n, value)) →
      IsName n.toList → ValueText v → DefaultText n.toList v t →
      (∀ found, (defaultPattern n).find? source = some found →
        opening.stop - 1 + (lead.flatMap (· ++ [','])).length ≤ found.start) →
      SpeaksFirst source name n

/-- The character before an entry opens the list or ends the entry before it. -/
lemma exists_before_entry (lead : List (List Char)) : ∃ xs c, '\x7b' :: lead.flatMap (· ++ [',']) = xs ++ [c] ∧
    (c = '\x7b' ∨ c = ',') ∧ xs.length = (lead.flatMap (· ++ [','])).length := by
  rcases List.eq_nil_or_concat lead with rfl | ⟨firsts, last, rfl⟩
  · exact ⟨[], '\x7b', rfl, .inl rfl, rfl⟩
  · refine ⟨'\x7b' :: (firsts.flatMap (· ++ [',']) ++ last), ',', by simp, .inr rfl, by simp [Nat.add_assoc]⟩

/-- The character behind an entry ends it or closes the list. -/
lemma exists_behind_entry (others : List (List Char)) (after : List Char) :
    ∃ d rest, others.flatMap (',' :: ·) ++ '\x7d' :: after = d :: rest ∧ (d = ',' ∨ d = '\x7d') := by
  cases others with
  | nil => exact ⟨'\x7d', after, rfl, .inr rfl⟩
  | cons t others => exact ⟨',', _, rfl, .inl rfl⟩

/-- The two ways of finding a default agree. -/
theorem destructuredDefault?_eq_own (h : SpeaksFirst source name n) :
    destructuredDefault? source n = ownDefault? source name n := by
  cases h with
  | silent hnone hown => rw [destructuredDefault?, hnone, hown]; rfl
  | @entry opening body after lead others t v hopening hsource hbody hentries hlead hn hv ht hfirst =>
    -- The pieces make up the body, so the entry stands as far behind the opening bracket as the pieces before it reach.
    have hjoin : body = lead.flatMap (· ++ [',']) ++ (t ++ others.flatMap (',' :: ·)) := by
      rw [← map_fst_mark body, ← join_splitMarked ',' 0, hentries]
      exact join_append_cons [','] t lead others
    obtain ⟨xs, c, hxs, hc, hlen⟩ := exists_before_entry lead
    obtain ⟨d, rest, hrest, hd⟩ := exists_behind_entry others after
    have hplace : source.drop (opening.stop - 1 + xs.length) = c :: (t ++ d :: rest) := by
      have hsplit : '\x7b' :: (body ++ '\x7d' :: after) = xs ++ c :: (t ++ d :: rest) := by
        rw [hjoin, ← hrest, List.append_cons xs c, ← hxs]
        simp
      rw [← List.drop_drop, hsource, hsplit, List.drop_left]
    rw [ownDefault?_of_first hopening hbody hentries hlead hn hv ht,
      destructuredDefault?_of_first hn hv ht hc hd hplace (hlen ▸ hfirst)]

end Parameters

namespace Descriptor

variable {source : List Char} {name : String} {field : FieldTag}

open Parameters

/-- A property that is documented without a default gets the one that is searched for, and nothing changes it. -/
lemma property?_of_fieldTag (package : String)
    (hfield : (fieldsOf source name).find? (·.name == field.name) = some field)
    (hcontainer : field.name ∉ containers (fieldsOf source name))
    (hcategory : ∀ config, VariantConfig.first? source = some config → field.name ∉ config.variants.keys)
    (href : field.name = "ref" → forwardRefCall.isMatch source = true) :
    (build source name package).property? field.name = some (ofFieldTag source field) := by
  have hknown : (knowledge source name).find? (·.name == field.name) = some (ofFieldTag source field) := by
    have hcomment : (commentProperties source (fieldsOf source name)).find? (·.name == field.name) =
        some (ofFieldTag source field) := by
      rw [commentProperties, List.find?_map, List.find?_filter]
      have hsame : (fun f : FieldTag => decide ((!(containers (fieldsOf source name)).contains f.name) = true ∧
          ((·.name == field.name) ∘ ofFieldTag source) f = true)) = (·.name == field.name) := by
        funext f
        by_cases hf : f.name = field.name <;> simp [ofFieldTag, hf, hcontainer]
      rw [hsame, hfield]
      rfl
    rw [knowledge, List.append_assoc, List.append_assoc, List.find?_append, hcomment]
    rfl
  have hplain : restyle (VariantConfig.first? source) (ofFieldTag source field) = ofFieldTag source field := by
    refine restyle_of_not_mem ?_
    rw [names_categoryProperties]
    cases hconfig : VariantConfig.first? source with
    | none => simp
    | some config => exact hcategory config hconfig
  obtain ⟨hnames, hprops⟩ := holds_build source name package
  have hmem : field.name ∈ names (build source name package).properties := by
    rw [hnames, List.mem_filter, List.mem_eraseDups]
    refine ⟨?_, ?_⟩
    · by_contra hnot
      rw [← find?_eq_none_iff, hknown] at hnot
      exact absurd hnot (by simp)
    · by_cases hname : field.name = "ref"
      · simp [href hname]
      · simp [hname]
  rw [hprops field.name hmem, hknown, Option.map_some, hplain]

/-- Documenting a property keeps the default that the parameter list of its declaration gives it, and it is required
just when it is not optional and has none, where the declaration speaks first. -/
theorem documented_default (package : String)
    (hfield : (fieldsOf source name).find? (·.name == field.name) = some field) (hnone : field.default? = none)
    (hcontainer : field.name ∉ containers (fieldsOf source name))
    (hcategory : ∀ config, VariantConfig.first? source = some config → field.name ∉ config.variants.keys)
    (href : field.name = "ref" → forwardRefCall.isMatch source = true)
    (hfirst : SpeaksFirst source name field.name) :
    ∃ p, (build source name package).property? field.name = some p ∧
      p.default? = ownDefault? source name field.name ∧
      (p.required = true ↔ field.optional = false ∧ ownDefault? source name field.name = none) := by
  refine ⟨_, property?_of_fieldTag package hfield hcontainer hcategory href, ?_, ?_⟩
  · simp only [ofFieldTag, hnone, Option.none_or, destructuredDefault?_eq_own hfirst]
  · simp only [ofFieldTag, hnone, Option.none_or, destructuredDefault?_eq_own hfirst]
    simp

/-- What `@param \x7bT\x7d hue - x` says. -/
def hueTag : FieldTag := ⟨"hue", none, "T", "x", false, none⟩

/-- A documented parameter with a default, and another declaration that gives the same name another default. -/
def hueSource : List Char :=
  "/** @param \x7bT\x7d hue - x */ function Tag(\x7b id, hue = 'red' \x7d)\x7b\x7d function B(\x7b hue = 1 \x7d)\x7b\x7d".toList

set_option maxRecDepth 20000 in
theorem documented_default_of_hue :
    ((fieldsOf hueSource "Tag").find? (·.name == hueTag.name) = some hueTag ∧ hueTag.default? = none ∧
      hueTag.name ∉ containers (fieldsOf hueSource "Tag") ∧
      (∀ config, VariantConfig.first? hueSource = some config → hueTag.name ∉ config.variants.keys) ∧
      (hueTag.name = "ref" → forwardRefCall.isMatch hueSource = true) ∧ SpeaksFirst hueSource "Tag" hueTag.name) ∧
    ∃ p, (build hueSource "Tag" "@/components/ui").property? hueTag.name = some p ∧
      p.default? = ownDefault? hueSource "Tag" hueTag.name ∧
      (p.required = true ↔ hueTag.optional = false ∧ ownDefault? hueSource "Tag" hueTag.name = none) := by
  have hfields : fieldsOf hueSource "Tag" = [hueTag] := by cbv
  have hconfig : VariantConfig.first? hueSource = none := by cbv
  have hfield : (fieldsOf hueSource "Tag").find? (·.name == hueTag.name) = some hueTag := by rw [hfields]; rfl
  have hcontainer : hueTag.name ∉ containers (fieldsOf hueSource "Tag") := by rw [hfields]; decide
  have hcategory : ∀ config, VariantConfig.first? hueSource = some config → hueTag.name ∉ config.variants.keys := by
    simp [hconfig]
  have href : hueTag.name = "ref" → forwardRefCall.isMatch hueSource = true := fun h => absurd h (by decide)
  have hfirst : SpeaksFirst hueSource "Tag" hueTag.name := by
    obtain ⟨opening, hopening, hstop⟩ := Option.map_eq_some_iff.mp
      (show ((openingPattern "Tag").find? hueSource).map (·.stop) = some 40 by cbv)
    have hsource : hueSource.drop 39 =
        '\x7b' :: (" id, hue = 'red' ".toList ++ '\x7d' :: ")\x7b\x7d function B(\x7b hue = 1 \x7d)\x7b\x7d".toList) := by
      decide +kernel
    have hbody : bracketBody? hueSource 39 = some " id, hue = 'red' ".toList := by decide +kernel
    have hentries : splitMarked ',' 0 (mark " id, hue = 'red' ".toList) =
        [" id".toList] ++ " hue = 'red' ".toList :: [] := by
      decide +kernel
    have hlead : ∀ piece ∈ [" id".toList], ∀ value, Parameters.readEntry piece ≠ some ("hue", value) := by
      have hid : Parameters.readEntry " id".toList = some ("id", none) := by decide +kernel
      rw [List.forall_mem_singleton, hid]
      simp
    have hentry : DefaultText "hue".toList "'red'".toList " hue = 'red' ".toList :=
      ⟨[' '], [' '], [' '], [' '], by decide, by decide, by decide, by decide, rfl⟩
    refine .entry hopening (by rw [hstop]; exact hsource) (by rw [hstop]; exact hbody) hentries hlead
      ⟨by decide, by decide⟩ (.inl ⟨'\'', "red".toList, by decide, by decide, rfl⟩) hentry fun found hfound => ?_
    have hstart : ((defaultPattern "hue").find? hueSource).map (·.start) = some 43 := by cbv
    rw [show (defaultPattern "hue").find? hueSource = some found from hfound, Option.map_some,
      Option.some.injEq] at hstart
    rw [hstop, hstart]
    decide
  exact ⟨⟨hfield, rfl, hcontainer, hcategory, href, hfirst⟩,
    documented_default "@/components/ui" hfield rfl hcontainer hcategory href hfirst⟩

/-- A parameter that is documented and has no default, behind another declaration that gives its name one. -/
def borrowedSource : List Char :=
  "function B(\x7b hue = 'red' \x7d)\x7b\x7d /** @param \x7bT\x7d hue - x */ function Tag(\x7b hue \x7d)\x7b\x7d".toList

/-- A documented parameter whose default is no simple value. -/
def lostSource : List Char :=
  "/** @param \x7bT\x7d hue - x */ function Tag(\x7b hue = \x7b\x7d \x7d)\x7b\x7d".toList

set_option maxRecDepth 20000 in
/-- A documented parameter may take its default from another declaration, and may lose its own. -/
theorem default_borrowed_and_lost :
    (fieldsOf borrowedSource "Tag" = [hueTag] ∧ VariantConfig.first? borrowedSource = none ∧
      destructuredParameters borrowedSource "Tag" = [("hue", none)] ∧
      ∃ p, (build borrowedSource "Tag" "@/components/ui").property? hueTag.name = some p ∧
        p.default? = some "'red'" ∧ p.required = false) ∧
    fieldsOf lostSource "Tag" = [hueTag] ∧ VariantConfig.first? lostSource = none ∧
      destructuredParameters lostSource "Tag" = [("hue", some "\x7b\x7d")] ∧
      ∃ p, (build lostSource "Tag" "@/components/ui").property? hueTag.name = some p ∧
        p.default? = none ∧ p.required = true := by
  have hbuilt (source : List Char) (hfields : fieldsOf source "Tag" = [hueTag])
      (hconfig : VariantConfig.first? source = none) :
      (build source "Tag" "@/components/ui").property? hueTag.name = some (ofFieldTag source hueTag) := by
    have hfield : (fieldsOf source "Tag").find? (·.name == hueTag.name) = some hueTag := by rw [hfields]; rfl
    have hcontainer : hueTag.name ∉ containers (fieldsOf source "Tag") := by rw [hfields]; decide
    refine property?_of_fieldTag "@/components/ui" hfield hcontainer (by simp [hconfig]) fun h => ?_
    exact absurd h (by decide)
  have hborrowed : fieldsOf borrowedSource "Tag" = [hueTag] := by cbv
  have hlost : fieldsOf lostSource "Tag" = [hueTag] := by cbv
  have hconfig : VariantConfig.first? borrowedSource = none := by cbv
  have hconfig' : VariantConfig.first? lostSource = none := by cbv
  have hsearch : destructuredDefault? borrowedSource hueTag.name = some "'red'" := by cbv
  have hsearch' : destructuredDefault? lostSource hueTag.name = none := by cbv
  refine ⟨⟨hborrowed, hconfig, by cbv, _, hbuilt _ hborrowed hconfig, ?_⟩, hlost, hconfig', by cbv, _,
    hbuilt _ hlost hconfig', ?_⟩
  · rw [ofFieldTag, hsearch]
    exact ⟨rfl, rfl⟩
  · rw [ofFieldTag, hsearch']
    exact ⟨rfl, rfl⟩

end Descriptor

end UiCatalog
