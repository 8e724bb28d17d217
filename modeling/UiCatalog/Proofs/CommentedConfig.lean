import UiCatalog.Proofs.Comments
import UiCatalog.Proofs.VariantRoundTrip

/-!
# Comments in style configurations

In the arguments of a `cva` call a comment changes nothing behind the colon of an option, behind the braces of a
category and of the two objects around the categories and the defaults, and in a piece of its own among these. The
search for the call sees nothing of what stands behind its bracket.
-/
namespace UiCatalog

open Text Pattern Code

variable {α : Type} {kind : List Char → List Char → Prop} {free : Char → Prop} {r t w x y : List Char}

namespace VariantConfig

/-! ## Places in the arguments of a call -/

/-- A place in the value of an object, or behind it, or in a value that is none. -/
def ObjectPlace (kind : List Char → List Char → Prop) (x y : List Char) : Prop :=
  InObject kind x y ∨ BehindObject x ∨ InOther x

def OptionPlace : List Char → List Char → Prop :=
  InList fun p q => InValue (fun _ _ _ => True) p q ∨ BehindDots p

/-- A place in a piece that names nothing. -/
def Apart (x y : List Char) : Prop := BehindDots x ∨ Alone x y

def CategoryPlace : List Char → List Char → Prop :=
  InList fun p q => InValue (fun _ => ObjectPlace OptionPlace) p q ∨ Apart p q

def DefaultPlace : List Char → List Char → Prop := InList Apart

/-- A place in the value of a key of the configuration, which is ignored unless it is one of the two. -/
def PartPlace (key x y : List Char) : Prop :=
  (key = "variants".toList → ObjectPlace CategoryPlace x y) ∧
    (key = "defaultVariants".toList → ObjectPlace DefaultPlace x y)

def ConfigPlace : List Char → List Char → Prop := InList fun p q => InValue PartPlace p q ∨ Apart p q

/-- A place in the object literal that is the second argument. -/
def ArgumentsPlace (x y : List Char) : Prop :=
  ∃ base v v' rest, ¬ IsSpace base ∧ InObject ConfigPlace v v' ∧
    (∀ t ∈ base :: (v ++ v') :: rest, Piece (· ≠ ',') t) ∧
    x = base ++ ',' :: v ∧ y = v' ++ rest.flatMap ([','] ++ ·)

/-! ## Objects -/

lemma objectBody?_group (hw : IsSpace w) (ht : Piece free t) (u : List Char) :
    objectBody? (w ++ '\x7b' :: (t ++ '\x7d' :: u)) = some t := by
  have htrim : trim (w ++ '\x7b' :: (t ++ '\x7d' :: u)) = '\x7b' :: (t ++ '\x7d' :: trimEnd u) := by
    rw [trim_space_append hw, trim_cons (by decide), trimEnd_append_cons (by decide)]
  rw [objectBody?, htrim]
  exact bracketBody?_group (by decide) (by decide) ht rfl

lemma objectBody?_inOther (h : InOther x) (s : List Char) : objectBody? (x ++ s) = none := by
  obtain ⟨w, c, t, hw, hblank, hc, rfl⟩ := h
  have htrim : trim (w ++ c :: t ++ s) = c :: trimEnd (t ++ s) := by
    rw [List.append_assoc, trim_space_append hw, List.cons_append, trim_cons hblank]
  rw [objectBody?, htrim]
  split
  · next heq => exact absurd (List.cons.inj heq).1 hc
  · rfl

lemma objectBody?_inObject (h : InObject kind x y) : ∃ body, objectBody? (x ++ y) = some body := by
  obtain ⟨w, b, b', t, hw, hbody, -, rfl, rfl⟩ := h
  have hgroup := objectBody?_group hw hbody t
  simp only [List.append_assoc, List.cons_append] at hgroup ⊢
  exact ⟨_, hgroup⟩

/-- The body of an object is read alike with a comment in it or behind it. -/
lemma map_objectBody? {f : List Char → α} (h : ObjectPlace kind x y) (hx : Closed x) (hr : IsComment r)
    (hf : ∀ b b', kind b b' → Closed b → f (b ++ (r ++ b')) = f (b ++ b')) :
    (objectBody? (x ++ (r ++ y))).map f = (objectBody? (x ++ y)).map f := by
  rcases h with ⟨w, b, b', t, hw, hbody, hb, rfl, rfl⟩ | ⟨w, b, t, hw, hb, rfl⟩ | h
  · have hopen : Closed (w ++ ['\x7b']) :=
      (closed_of_isSpace hw).append (closed_cons_of_bracket (by decide) fun _ => rfl)
    have hclosed : Closed b := hopen.of_append (by rwa [List.append_assoc])
    have hcommented : Piece (fun _ => True) (b ++ (r ++ b')) := piece_insert hbody hclosed hr trivial
    have hplain := objectBody?_group hw hbody t
    have hinside := objectBody?_group hw hcommented t
    simp only [List.append_assoc, List.cons_append] at hplain hinside ⊢
    rw [hplain, hinside, Option.map_some, Option.map_some, hf b b' hb hclosed]
  · have hbehind (s : List Char) : objectBody? (w ++ '\x7b' :: (b ++ '\x7d' :: t) ++ s) = some b := by
      rw [List.append_assoc, List.cons_append, List.append_assoc, List.cons_append]
      exact objectBody?_group hw hb (t ++ s)
    rw [hbehind, hbehind]
  · rw [objectBody?_inOther h, objectBody?_inOther h]

lemma objectBody?_trim (t : List Char) : objectBody? (trim t) = objectBody? t := by
  rw [objectBody?, objectBody?, trim_trim]

/-- What is read of the entries of an object does not depend on a comment that no entry shows. -/
lemma filterMap_objectEntries {g : List Char × List Char → Option α} (h : InList kind x y) (hx : Closed x)
    (hr : IsComment r)
    (hkind : ∀ p q, Closed p → kind p q → (readEntry (p ++ (r ++ q))).bind g = (readEntry (p ++ q)).bind g) :
    (objectEntries (x ++ (r ++ y))).filterMap g = (objectEntries (x ++ y)).filterMap g := by
  simp only [objectEntries, List.filterMap_filterMap]
  refine filterMap_inList h hx hr (fun t ht => ?_) hkind
  rw [readEntry_of_isSpace ht]
  rfl

lemma filterMap_objectPlace {g : List Char × List Char → Option α} (h : ObjectPlace (InList kind) x y) (hx : Closed x)
    (hr : IsComment r)
    (hkind : ∀ p q, Closed p → kind p q → (readEntry (p ++ (r ++ q))).bind g = (readEntry (p ++ q)).bind g) :
    (objectEntries ((objectBody? (trim (x ++ (r ++ y)))).getD [])).filterMap g =
      (objectEntries ((objectBody? (trim (x ++ y))).getD [])).filterMap g := by
  have hbody := map_objectBody? (f := fun body => (objectEntries body).filterMap g) h hx hr fun b b' hb hclosed =>
    filterMap_objectEntries hb hclosed hr hkind
  have hgetD (body? : Option (List Char)) : (objectEntries (body?.getD [])).filterMap g =
      (body?.map fun body => (objectEntries body).filterMap g).getD [] := by
    cases body? <;> rfl
  rw [objectBody?_trim, objectBody?_trim, hgetD, hgetD, hbody]

/-! ## Options, categories and defaults -/

lemma readOptions_keys (b : List Char) :
    readOptions b = (((objectEntries b).filterMap fun e => some (String.ofList e.1))).foldl
      (fun names name => if names.contains name then names else names ++ [name]) [] := by
  rw [List.filterMap_eq_map', List.foldl_map]
  rfl

lemma readOptions_place (h : OptionPlace x y) (hx : Closed x) (hr : IsComment r) :
    readOptions (x ++ (r ++ y)) = readOptions (x ++ y) := by
  rw [readOptions_keys, readOptions_keys, filterMap_objectEntries h hx hr]
  rintro p q hp (hvalue | hdots)
  · exact readEntry_inValue hvalue hp fun _ _ _ _ => rfl
  · rw [readEntry_behindDots hdots, readEntry_behindDots hdots]

/-- In a piece that names nothing a comment becomes a key without a value, if it is read at all. -/
lemma readEntry_apart {g : List Char × List Char → Option α} (hr : IsComment r) (hnone : ∀ t, g ('/' :: t, []) = none)
    (h : Apart x y) : (readEntry (x ++ (r ++ y))).bind g = (readEntry (x ++ y)).bind g := by
  rcases h with hdots | halone
  · rw [readEntry_behindDots hdots, readEntry_behindDots hdots]
  · have hspace : IsSpace (x ++ y) := List.forall_mem_append.mpr halone
    obtain ⟨t, ht⟩ := readEntry_alone hr halone
    rw [ht, readEntry_of_isSpace hspace, Option.bind_some, hnone]
    rfl

lemma readCategories_place (h : ObjectPlace CategoryPlace x y) (hx : Closed x) (hr : IsComment r) :
    readCategories (trim (x ++ (r ++ y))) = readCategories (trim (x ++ y)) := by
  refine congrArg OrderedMap.ofList (filterMap_objectPlace h hx hr ?_)
  rintro p q hp (hvalue | hapart)
  · refine readEntry_inValue hvalue hp fun key v hv hclosed => ?_
    simp only [objectBody?_trim]
    exact map_objectBody? hv hclosed hr fun b b' hb hclosed => by rw [readOptions_place hb hclosed hr]
  · exact readEntry_apart hr (fun _ => rfl) hapart

lemma readDefaults_place (h : ObjectPlace DefaultPlace x y) (hx : Closed x) (hr : IsComment r) :
    readDefaults (trim (x ++ (r ++ y))) = readDefaults (trim (x ++ y)) :=
  congrArg OrderedMap.ofList
    (filterMap_objectPlace h hx hr fun _ _ _ hapart => readEntry_apart hr (fun _ => rfl) hapart)

/-! ## Configurations -/

lemma map_lastValue? (read : List Char → α) (key : String) (entries : List (List Char × List Char)) :
    (lastValue? key entries).map read =
      (entries.filterMap fun e => if e.1 = key.toList then some (read e.2) else none).getLast? := by
  have hmap : (entries.filterMap fun e => if e.1 = key.toList then some (read e.2) else none) =
      (entries.filter fun e => e.1 == key.toList).map fun e => read e.2 := by
    induction entries with
    | nil => rfl
    | cons e entries ih =>
      by_cases he : e.1 = key.toList <;> simp [he, ih]
  rw [hmap, lastValue?, List.getLast?_map, Option.map_map]
  rfl

/-- What a key of the configuration stands for reads the same with a comment that its reader does not show. -/
lemma map_lastValue?_place {read : List Char → α} (key : String) (h : ConfigPlace x y) (hx : Closed x)
    (hr : IsComment r) (hkey : '/' ∉ key.toList)
    (hread : ∀ v q, PartPlace key.toList v q → Closed v → read (trim (v ++ (r ++ q))) = read (trim (v ++ q))) :
    (lastValue? key (objectEntries (x ++ (r ++ y)))).map read =
      (lastValue? key (objectEntries (x ++ y))).map read := by
  rw [map_lastValue?, map_lastValue?, filterMap_objectEntries h hx hr]
  rintro p q hp (hvalue | hapart)
  · refine readEntry_inValue hvalue hp fun other v hv hclosed => ?_
    by_cases heq : other = key.toList
    · subst heq
      simp only [if_true, hread v q hv hclosed]
    · simp only [heq, if_false]
  · refine readEntry_apart hr (fun t => if_neg fun heq => hkey ?_) hapart
    rw [← heq]
    exact List.mem_cons_self

def ofBody (name base body : List Char) : VariantConfig where
  name := String.ofList name
  base := String.ofList (readBase base)
  variants := ((lastValue? "variants" (objectEntries body)).map readCategories).getD .empty
  defaults := ((lastValue? "defaultVariants" (objectEntries body)).map readDefaults).getD .empty

lemma ofBody_place (h : ConfigPlace x y) (hx : Closed x) (hr : IsComment r) (name base : List Char) :
    ofBody name base (x ++ (r ++ y)) = ofBody name base (x ++ y) := by
  have hvariants := map_lastValue?_place "variants" h hx hr (by decide) fun v q hv hclosed =>
    readCategories_place (hv.1 rfl) hclosed hr
  have hdefaults := map_lastValue?_place "defaultVariants" h hx hr (by decide) fun v q hv hclosed =>
    readDefaults_place (hv.2 rfl) hclosed hr
  rw [ofBody, ofBody, hvariants, hdefaults]

lemma ofArguments?_pieces {base config : List Char} {rest : List (List Char)} (name : List Char)
    (hbase : ¬ IsSpace base) (hconfig : ¬ IsSpace config)
    (h : ∀ t ∈ base :: config :: rest, Piece (· ≠ ',') t) :
    ofArguments? name (join [','] (base :: config :: rest)) = (objectBody? config).map (ofBody name base) := by
  have hkept {t : List Char} (ht : ¬ IsSpace t) : isBlankText t = false := by
    rwa [← Bool.not_eq_true, isBlankText_iff]
  have hfilter : (base :: config :: rest).filter (fun piece => !isBlankText piece) =
      base :: config :: rest.filter fun piece => !isBlankText piece := by
    simp [hkept hbase, hkept hconfig]
  rw [ofArguments?, splitTopLevel_join (by decide) (by decide) (List.cons_ne_nil _ _) h, hfilter]
  rfl

/-- With a comment in the second argument the arguments of a call stay a list. -/
lemma argumentsPlace_insert (h : ArgumentsPlace x y) (hx : Closed x) (hr : IsComment r) :
    ∃ base v v' rest, ¬ IsSpace base ∧ InObject ConfigPlace v v' ∧ Closed v ∧
      (∀ config ∈ [v ++ v', v ++ (r ++ v')], ∀ t ∈ base :: config :: rest, Piece (· ≠ ',') t) ∧
      x ++ y = join [','] (base :: (v ++ v') :: rest) ∧
      x ++ (r ++ y) = join [','] (base :: (v ++ (r ++ v')) :: rest) := by
  obtain ⟨base, v, v', rest, hbase, hv, hpieces, rfl, rfl⟩ := h
  have hcomma : Closed [','] := closed_cons_of_plain (by decide) fun _ => rfl
  have hbaseClosed : Closed base := (hpieces base (.head _)).closed
  have hclosed : Closed v := (hbaseClosed.append hcomma).of_append (by rwa [List.append_assoc])
  have hinsert : Piece (· ≠ ',') (v ++ (r ++ v')) := piece_insert (hpieces _ (.tail _ (.head _))) hclosed hr (by decide)
  have hjoin (config : List Char) : join [','] (base :: config :: rest) =
      base ++ ',' :: (config ++ rest.flatMap ([','] ++ ·)) := by
    have hsplit := join_append_cons [','] config [base] rest
    rw [List.singleton_append] at hsplit
    rw [hsplit]
    simp
  refine ⟨base, v, v', rest, hbase, hv, hclosed, ?_, ?_, ?_⟩
  · simp only [List.forall_mem_cons] at hpieces ⊢
    exact ⟨hpieces, ⟨hpieces.1, hinsert, hpieces.2.2⟩, by simp⟩
  · rw [hjoin]
    simp
  · rw [hjoin]
    simp

/-- The arguments of a call read as the same configuration with a comment where it is ignored. -/
theorem ofArguments?_place (h : ArgumentsPlace x y) (hx : Closed x) (hr : IsComment r) (name : List Char) :
    Piece (fun _ => True) (x ++ y) ∧ Piece (fun _ => True) (x ++ (r ++ y)) ∧
      ∃ config, ofArguments? name (x ++ y) = some config ∧ ofArguments? name (x ++ (r ++ y)) = some config := by
  obtain ⟨base, v, v', rest, hbase, hv, hclosed, hpieces, hplain, hcommented⟩ := argumentsPlace_insert h hx hr
  simp only [List.forall_mem_cons (l := [_]), List.forall_mem_singleton] at hpieces
  obtain ⟨hpieces, hpieces'⟩ := hpieces
  have hbrace : '\x7b' ∈ v := by
    obtain ⟨w, b, _, _, -, -, -, rfl, -⟩ := hv
    simp
  have hspace (s : List Char) : ¬ IsSpace (v ++ s) :=
    not_isSpace_of_mem (List.mem_append_left s hbrace) (by decide)
  have hbody := map_objectBody? (f := ofBody name base) (.inl hv) hclosed hr fun b b' hb hbclosed =>
    ofBody_place hb hbclosed hr name base
  obtain ⟨body, hsome⟩ := objectBody?_inObject hv
  rw [hplain, hcommented]
  refine ⟨piece_join hpieces, piece_join hpieces', ofBody name base body, ?_, ?_⟩
  · rw [ofArguments?_pieces name hbase (hspace v') hpieces, hsome, Option.map_some]
  · rw [ofArguments?_pieces name hbase (hspace (r ++ v')) hpieces', hbody, hsome, Option.map_some]

/-! ## The first configuration of a source -/

/-- Whatever follows the bracket behind `lead`, it is the bracket of the first call that is read: earlier calls do not
read as configurations. -/
def FirstCall (name lead : List Char) : Prop :=
  ∀ t, ∃ earlier found later, bindingPattern.findAll (lead ++ '(' :: t) = earlier ++ found :: later ∧
    (∀ e ∈ earlier, configAt? (lead ++ '(' :: t) e = none) ∧ found.stop = lead.length + 1 ∧ found.get 1 = name

variable {name lead : List Char}

lemma first?_of_firstCall {body : List Char} {config : VariantConfig} (h : FirstCall name lead)
    (hbody : Piece (fun _ => True) body) (hread : ofArguments? name body = some config) (rest : List Char) :
    first? (lead ++ '(' :: (body ++ ')' :: rest)) = some config := by
  obtain ⟨earlier, found, later, hfound, hearlier, hstop, hname⟩ := h (body ++ ')' :: rest)
  have hconfig : configAt? (lead ++ '(' :: (body ++ ')' :: rest)) found = some config := by
    have hplace : found.stop - 1 = lead.length := by omega
    have hargs : bracketBody? (lead ++ '(' :: (body ++ ')' :: rest)) lead.length = some body :=
      bracketBody?_group (by decide) (by decide) hbody List.drop_left
    rw [configAt?, hplace, hargs, hname]
    exact hread
  have hnone : earlier.filterMap (configAt? (lead ++ '(' :: (body ++ ')' :: rest))) = [] :=
    List.filterMap_eq_nil_iff.mpr hearlier
  have hall : all (lead ++ '(' :: (body ++ ')' :: rest)) =
      (earlier ++ found :: later).filterMap (configAt? (lead ++ '(' :: (body ++ ')' :: rest))) := by
    rw [← hfound]
    rfl
  rw [first?, hall, List.filterMap_append, hnone, List.filterMap_cons_some hconfig]
  rfl

lemma HeadText.no_bracket {head : List Char} (h : HeadText name head) (hn : IsIdentifier name) : '(' ∉ head := by
  obtain ⟨keyword, w, w', hk, hw, -, hw', rfl⟩ := h
  have hkeyword : ∀ keyword ∈ keywords, '(' ∉ keyword := by decide
  have hpart : isIdentifierPart '(' = false := by decide
  simp only [List.mem_append, not_or]
  refine ⟨hkeyword keyword hk, not_mem_of_isSpace hw (by decide), fun hmem => ?_, not_mem_of_isSpace hw' (by decide)⟩
  exact absurd (hn.parts.2 _ hmem) (by simp [hpart])

/-- The bracket of a call is the last character that a match covers, so no match that starts before it sees what
follows it. -/
lemma quiet_behind_bracket (h : Quiet bindingPattern x (lead ++ ['('])) (t : List Char) :
    Quiet bindingPattern x (lead ++ '(' :: t) := by
  intro a b before offset hx hb
  refine matchAt?_bindingPattern_eq_none fun name' head callee after hn hhead hcallee hxs => ?_
  have hcall := hcallee
  obtain ⟨w, w', hw, hw', rfl⟩ := hcallee
  -- The match has no bracket before its last character, so it ends with the bracket behind `lead` or before it.
  have hfree : '(' ∉ head ++ '=' :: (w ++ ("cva".toList ++ w')) := by
    have hspace : '(' ∉ w ∧ '(' ∉ w' := ⟨not_mem_of_isSpace hw (by decide), not_mem_of_isSpace hw' (by decide)⟩
    simp [hhead.no_bracket hn, hspace]
  have hprefix : ∃ z, b ++ (lead ++ ['(']) = head ++ '=' :: (w ++ ("cva".toList ++ (w' ++ ['(']))) ++ z := by
    have heq : (head ++ '=' :: (w ++ ("cva".toList ++ w'))) ++ '(' :: after = (b ++ lead) ++ '(' :: t := by
      simpa using hxs.symm
    rcases List.append_eq_append_iff.mp heq with ⟨z, hz, hrest⟩ | ⟨z, hz, hrest⟩
    · cases z with
      | nil => exact ⟨[], by rw [← List.append_assoc, hz]; simp⟩
      | cons c z =>
        obtain ⟨rfl, -⟩ := List.cons.inj hrest
        exact ⟨z ++ ['('], by rw [← List.append_assoc, hz]; simp⟩
    · cases z with
      | nil => exact ⟨[], by rw [← List.append_assoc, ← List.append_nil (b ++ lead), ← hz]; simp⟩
      | cons c z =>
        obtain ⟨rfl, -⟩ := List.cons.inj hrest
        exact absurd (hz ▸ List.mem_append_right _ (.head _)) hfree
  obtain ⟨z, hz⟩ := hprefix
  obtain ⟨found', hfound', -, -⟩ := matchAt?_binding hhead hn hcall before offset z
  have hsome := h a b before offset hx hb
  rw [hz, List.append_assoc, List.cons_append, hfound'] at hsome
  exact absurd hsome (by simp)

/-- The first binding of a source opens the first call that is read. -/
lemma firstCall_of_quiet {head : List Char} (hhead : HeadText name head) (hn : IsIdentifier name) (hx : IsSpace x)
    (hy : IsSpace y) (hquiet : Quiet bindingPattern lead (head ++ '=' :: (x ++ ("cva".toList ++ y)) ++ ['('])) :
    FirstCall name (lead ++ (head ++ '=' :: (x ++ ("cva".toList ++ y)))) := by
  intro t
  let binding := head ++ '=' :: (x ++ ("cva".toList ++ y))
  have hcallee : CalleeText (x ++ ("cva".toList ++ (y ++ ['(']))) := ⟨x, y, hx, hy, rfl⟩
  obtain ⟨found, hfound, hstop, hname⟩ := matchAt?_binding hhead hn hcallee (lead.getLast?.or none) (0 + lead.length) t
  have hbinding : head ++ '=' :: (x ++ ("cva".toList ++ (y ++ ['(']))) = binding ++ ['('] := by simp [binding]
  have hrest : head ++ '=' :: (x ++ ("cva".toList ++ (y ++ ['('])) ++ t) = binding ++ ['('] ++ t := by simp [binding]
  rw [hrest] at hfound
  rw [hbinding] at hstop
  have hsource : lead ++ binding ++ '(' :: t = lead ++ (binding ++ '(' :: t) := List.append_assoc _ _ _
  have hopen : binding ++ '(' :: t = binding ++ ['('] ++ t := List.append_cons _ _ _
  have hlen : found.stop = (lead ++ binding).length + 1 := by
    simp only [hstop, List.length_append, List.length_singleton]
    omega
  have hfirst := findAllFrom_of_match (by simp) hfound hstop
  rw [← hopen, ← findAllFrom_of_quiet (quiet_behind_bracket hquiet t), ← hsource] at hfirst
  exact ⟨[], found, _, hfirst, fun e he => absurd he List.not_mem_nil, hlen, hname⟩

end VariantConfig

end UiCatalog
