import UiCatalog.Proofs.VariantBindings

/-!
# Reading every style configuration of a source

The search matches at the start of every binding, reads its arguments, and goes on behind the start of its call,
where nothing matches until the next binding. So every layout of a list of configurations reads as that list.
-/
namespace UiCatalog.VariantConfig

open Text Pattern Code

variable {config : VariantConfig} {configs : List VariantConfig} {name head callee rest source t : List Char}

/-! ## The match at a binding -/

variable {β : Type} {next : Point → Option β} {r : β} {place : Point} {keyword : List Char}

lemma run_bindingKeyword (hk : keyword ∈ keywords) (rest : List Char) (hp : place.rest = keyword ++ rest)
    (hnext : next (place.over keyword rest) = some r) : run bindingKeyword place next = some r := by
  have hrun : run (chars keyword) place next = some r := (run_chars keyword rest hp).trans hnext
  rcases mem_keywords.mp hk with rfl | rfl | rfl
  · exact run_orElse_left hrun
  · refine (run_orElse_right (run_chars_eq_none ?_)).trans (run_orElse_left hrun)
    rw [hp]
    simp
  · refine (run_orElse_right (run_chars_eq_none ?_)).trans
      ((run_orElse_right (run_chars_eq_none ?_)).trans hrun)
    · rw [hp]
      simp
    · rw [hp]
      simp

lemma run_identifier (hn : IsIdentifier name) (rest : List Char) (hp : place.rest = name ++ rest)
    (hrest : ∀ c, rest.head? = some c → isIdentifierPart c = false) (hnext : next (place.over name rest) = some r) :
    run identifier place next = some r := by
  obtain ⟨c, cs, hc, hcs, rfl⟩ := hn
  refine (run_append.trans (run_one hp hc)).trans (run_many cs rest rfl hcs hrest ?_)
  exact (congrArg next (Point.over_after place c cs (cs ++ rest) rest)).trans hnext

/-- What follows a run of a class does not begin with another character of it. -/
lemma head?_append_cons {q : Char → Bool} {c : Char} {t u : List Char} (ht : ∀ c ∈ t, q c = false) (hc : q c = false) :
    ∀ d, (t ++ c :: u).head? = some d → q d = false := by
  intro d hd
  cases t with
  | nil => exact Option.some.inj hd ▸ hc
  | cons e t => exact Option.some.inj hd ▸ ht e (.head _)

lemma matchAt?_binding (hhead : HeadText name head) (hn : IsIdentifier name) (hcallee : CalleeText callee)
    (before : Option Char) (offset : Nat) (rest : List Char) :
    ∃ found, matchAt? bindingPattern before offset (head ++ '=' :: (callee ++ rest)) = some found ∧
      found.stop = offset + (head ++ '=' :: callee).length ∧ found.get 1 = name := by
  obtain ⟨keyword, w₁, w₂, hk, hw₁, hne, hw₂, rfl⟩ := hhead
  obtain ⟨w₃, w₄, hw₃, hw₄, rfl⟩ := hcallee
  have hnotBlank : ∀ c ∈ name, isBlank c = false := hn.not_blank
  let call := "cva".toList ++ (w₄ ++ '(' :: rest)
  let binding := w₂ ++ '=' :: (w₃ ++ call)
  have hlist : keyword ++ (w₁ ++ (name ++ w₂)) ++ '=' :: (w₃ ++ ("cva".toList ++ (w₄ ++ ['('])) ++ rest) =
      keyword ++ (w₁ ++ (name ++ binding)) := by simp [binding, call]
  rw [hlist]
  let head := keyword ++ (w₁ ++ (name ++ w₂))
  let callee := w₃ ++ ("cva".toList ++ (w₄ ++ ['(']))
  let captured : Capture := ⟨offset + (keyword ++ w₁).length, offset + (keyword ++ w₁ ++ name).length, name ++ binding⟩
  let whole : Capture := ⟨offset, offset + (head ++ '=' :: callee).length, keyword ++ (w₁ ++ (name ++ binding))⟩
  refine ⟨⟨whole, [(1, captured)]⟩, ?_, rfl, ?_⟩
  · rw [matchAt?]
    simp only [bindingPattern, run_append, run_group]
    refine run_bindingKeyword hk (w₁ ++ (name ++ binding)) rfl ?_
    refine run_many1 w₁ (name ++ binding) rfl hne hw₁ ?_ ?_
    · obtain ⟨c, cs, -, -, rfl⟩ := hn
      exact fun d hd => hnotBlank d (Option.some.inj hd ▸ .head _)
    refine run_identifier hn binding rfl (head?_append_cons (not_part_of_isSpace hw₂) (by decide)) ?_
    refine run_many w₂ _ rfl hw₂ (fun d hd => Option.some.inj hd ▸ (by decide)) ?_
    refine (run_char rfl).trans ?_
    refine run_many w₃ call rfl hw₃ (fun d hd => Option.some.inj hd ▸ (by decide)) ?_
    refine (run_chars "cva".toList _ rfl).trans ?_
    refine run_many w₄ _ rfl hw₄ (fun d hd => Option.some.inj hd ▸ (by decide)) ?_
    refine (run_char rfl).trans ?_
    simp [Point.over, whole, captured, head, callee]
    omega
  · refine get_one_of_length ?_ binding
    simp only [List.length_append]
    omega

/-! ## All configurations of a source -/

/-- A configuration that can be written as a binding and found again. -/
structure Bindable (config : VariantConfig) : Prop where
  admissible : Admissible config
  name : IsIdentifier config.name.toList
  defaults : "" ∉ config.defaults.keys

/-- What a match of the binding pattern reads as. -/
def configAt? (source : List Char) (found : Match) : Option VariantConfig :=
  (bracketBody? source (found.stop - 1)).bind (ofArguments? (found.get 1))

lemma matchAt?_nil (before : Option Char) (offset : Nat) : matchAt? bindingPattern before offset [] = none := by
  refine matchAt?_bindingPattern_eq_none fun _ _ _ _ _ _ _ hnil => ?_
  simp at hnil

/-- A binding begins with a match that reads as its configuration, and what is left of it is mute. -/
lemma bindingText_read {binding : List Char} (h : BindingText config binding) (hc : Bindable config) :
    ∃ call lead, call ≠ [] ∧ Mute lead ∧ binding = call ++ lead ∧
      (∃ head u, HeadText config.name.toList head ∧ binding = head ++ '=' :: u) ∧
      ∀ (before : List Char) (last : Option Char) (rest : List Char), ∃ found,
        matchAt? bindingPattern last before.length (call ++ (lead ++ rest)) = some found ∧
        found.stop = before.length + call.length ∧
        configAt? (before ++ (binding ++ rest)) found = some config := by
  obtain ⟨head, callee, arguments, hhead, hcallee, harguments, rfl⟩ := h
  obtain ⟨hpiece, hread⟩ := ofArguments?_argumentsText harguments hc.admissible hc.defaults
  refine ⟨head ++ '=' :: callee, arguments ++ [')'], by simp,
    (mute_argumentsText harguments).append (mute_of_not_mem (by decide)), by simp, ⟨head, _, hhead, rfl⟩, ?_⟩
  intro before last rest
  obtain ⟨found, hfound, hstop, hget⟩ :=
    matchAt?_binding hhead hc.name hcallee last before.length ((arguments ++ [')']) ++ rest)
  refine ⟨found, by simpa using hfound, hstop, ?_⟩
  obtain ⟨w, w', -, -, rfl⟩ := hcallee
  have hbody : bracketBody? (before ++ (head ++ '=' :: (w ++ ("cva".toList ++ (w' ++ ['('])) ++ (arguments ++ [')'])) ++
      rest)) (found.stop - 1) = some arguments := by
    have hplace : found.stop - 1 = (before ++ (head ++ '=' :: (w ++ ("cva".toList ++ w')))).length := by
      rw [hstop]
      simp
      omega
    have hsource : before ++ (head ++ '=' :: (w ++ ("cva".toList ++ (w' ++ ['('])) ++ (arguments ++ [')'])) ++ rest) =
        (before ++ (head ++ '=' :: (w ++ ("cva".toList ++ w')))) ++ '(' :: (arguments ++ ')' :: rest) := by simp
    rw [hplace, hsource]
    exact bracketBody?_group (by decide) (by decide) hpiece List.drop_left
  rw [configAt?, hbody, hget]
  exact hread

/-- The search reads every binding of the rest of a source; `lead` is what is left of the binding before it. -/
lemma filterMap_findAllFrom {configs : List VariantConfig} (h : SourceText configs t)
    (hc : ∀ config ∈ configs, Bindable config) (before : List Char) {lead : List Char} (hlead : Mute lead)
    (last : Option Char) :
    (findAllFrom bindingPattern 0 last before.length (lead ++ t)).filterMap (configAt? (before ++ (lead ++ t))) =
      configs := by
  induction h generalizing before lead last with
  | @nil t hfree =>
    have hquiet : Quiet bindingPattern (lead ++ t) [] :=
      quiet_of_silent (silent_append (hlead _) (silent_of_cvaFree hfree (.inl rfl))) (.inl rfl)
    rw [← List.append_nil (lead ++ t), findAllFrom_of_quiet hquiet, findAllFrom, matchAt?_nil]
    rfl
  | @cons t binding rest config configs hfree hbinding _ ih =>
    have hfirst : Bindable config := hc config (.head _)
    obtain ⟨call, lead', hne, hlead', rfl, ⟨head, u, hhead, hu⟩, hcall⟩ := bindingText_read hbinding hfirst
    have hquiet : Quiet bindingPattern (lead ++ t) (call ++ lead' ++ rest) := by
      rw [hu, List.append_assoc, List.cons_append]
      exact quiet_of_silent (silent_append (hlead _) (silent_of_cvaFree hfree (.inr ⟨_, head, _, hhead, rfl⟩)))
        (.inr ⟨_, head, _, hfirst.name, hhead, rfl⟩)
    obtain ⟨found, hfound, hstop, hread⟩ := hcall (before ++ (lead ++ t)) ((lead ++ t).getLast?.or last) rest
    -- What is left of this binding leads the rest of the source.
    have hnext := ih (fun config hconfig => hc config (.tail _ hconfig)) (before ++ (lead ++ t) ++ call) hlead'
      (call.getLast?.or ((lead ++ t).getLast?.or last))
    have hsource : before ++ (lead ++ (t ++ (call ++ lead' ++ rest))) =
        before ++ (lead ++ t) ++ (call ++ lead' ++ rest) := by simp
    have hsource' : before ++ (lead ++ t) ++ (call ++ lead' ++ rest) =
        before ++ (lead ++ t) ++ call ++ (lead' ++ rest) := by simp
    rw [hsource, ← List.append_assoc lead, findAllFrom_of_quiet hquiet, List.append_assoc call, ← List.length_append,
      findAllFrom_of_match hne hfound hstop, ← List.length_append]
    rw [← List.append_assoc call, List.filterMap_cons_some hread, hsource']
    exact congrArg _ hnext

/-! ## Layouts in one line -/

/-- The object literal of a configuration in one line. -/
def oneLineConfig (categories defaults : List Char) : List Char :=
  '\x7b' :: (join [','] ["variants".toList ++ ':' :: categories, "defaultVariants".toList ++ ':' :: defaults] ++ ['\x7d'])

/-- A binding in one line. -/
def oneLine (name base categories defaults : List Char) : List Char :=
  ("const ".toList ++ (name ++ [' '])) ++ '=' ::
    (" cva(".toList ++ (join [','] [base, oneLineConfig categories defaults] ++ [')']))

/-- A configuration in one line, with its parts in any layout. -/
lemma sourceText_oneLine {b c d : List Char} (hb : BaseText config.base b) (hc : CategoriesText config.variants c)
    (hd : DefaultsText config.defaults d) : SourceText [config] (oneLine config.name.toList b c d) := by
  have hcategories : EntryText CvaFree ("variants", CategoriesText config.variants) ("variants".toList ++ ':' :: c) :=
    entryText_self (keyText_bare (by decide)) hc
  have hdefaults : EntryText CvaFree ("defaultVariants", DefaultsText config.defaults)
      ("defaultVariants".toList ++ ':' :: d) := entryText_self (keyText_bare (by decide)) hd
  have hconfig : ConfigText config (oneLineConfig c d) := objectText_join (.cons hcategories (.cons hdefaults .nil))
  have harguments : ArgumentsText config _ := listText_join (.cons hb (.cons hconfig .nil))
  have hspace : IsSpace [' '] := by decide
  have hhead : HeadText config.name.toList ("const ".toList ++ (config.name.toList ++ [' '])) :=
    ⟨"const".toList, [' '], [' '], .head _, hspace, List.cons_ne_nil _ _, hspace, by simp⟩
  have hcallee : CalleeText " cva(".toList := ⟨[' '], [], hspace, isSpace_nil, rfl⟩
  have hbinding : BindingText config (oneLine config.name.toList b c d) :=
    ⟨_, _, _, hhead, hcallee, harguments, rfl⟩
  have hnil : CvaFree [] := by decide
  rw [← List.append_nil (oneLine config.name.toList b c d)]
  exact .cons hnil hbinding (.nil hnil)

/-- Two classes, a category with two options, and two defaults. -/
def buttonConfig : VariantConfig where
  name := "button"
  base := "px-2 rounded"
  variants := ⟨[("size", ["sm", "x-l"])], by decide⟩
  defaults := ⟨[("size", "sm"), ("x y", "2")], by decide⟩

def buttonSource : List Char :=
  oneLine "button".toList "' px-2\n rounded '".toList
    "\x7bsize: \x7bsm:\"\x7d // ,\", 'x-l' : '\\'[:' , \x7d\x7d".toList
    "\x7bsize:'sm',\"x y\":\x602\x60\x7d".toList

lemma baseText_button : BaseText buttonConfig.base "' px-2\n rounded '".toList := by
  have hspace : IsSpace [' '] := by decide
  have hfirst : IsRun "px-2".toList := by decide
  have hsecond : IsRun "rounded".toList := by decide
  have hwords : SpacedWords ["px-2".toList, "rounded".toList] " px-2\n rounded ".toList :=
    .cons (c := '\n') hspace hfirst rfl (.cons (c := ' ') hspace hsecond rfl (.space isSpace_nil))
  have hquotes : Quotes CvaFree " px-2\n rounded ".toList "' px-2\n rounded '".toList :=
    quotes_self '\'' (by decide +kernel)
  exact padded_self ⟨_, _, hwords, hquotes, rfl⟩

/-- The options stand for a text with a bracket and a comment mark, and for one with an escaped quote. -/
lemma optionsText_button : OptionsText ["sm", "x-l"] " \x7bsm:\"\x7d // ,\", 'x-l' : '\\'[:' , \x7d".toList := by
  have hspace : IsSpace [' '] := by decide
  have hsm : EntryText CvaFree ("sm", Padded StyleText) "sm:\"\x7d // ,\"".toList := by
    have hbody : LiteralBody '"' "\x7d // ,".toList := literalBody_of_plain (by decide) (by decide)
    have hvalue : StyleText "\"\x7d // ,\"".toList := ⟨⟨'"', _, rfl, hbody, rfl⟩, by decide +kernel⟩
    exact entryText_self (keyText_bare (by decide)) (padded_self hvalue)
  have hxl : EntryText CvaFree ("x-l", Padded StyleText) " 'x-l' : '\\'[:' ".toList := by
    have hbody : LiteralBody '\'' "\\'[:".toList :=
      .escape (.plain (by decide) (by decide) (.plain (by decide) (by decide) .nil))
    have hvalue : StyleText "'\\'[:'".toList := ⟨⟨'\'', _, rfl, hbody, rfl⟩, by decide +kernel⟩
    have hkey : KeyText CvaFree "x-l" "'x-l'".toList := .inr (quotes_self '\'' (by decide +kernel))
    exact ⟨[' '], _, [' '], _, hspace, hkey, hspace, ⟨[' '], _, [' '], hspace, hvalue, hspace, rfl⟩, rfl⟩
  have hlist : ListText (["sm", "x-l"].map fun option => EntryText CvaFree (option, Padded StyleText))
      "sm:\"\x7d // ,\", 'x-l' : '\\'[:' , ".toList :=
    ⟨_, [[' ']], .cons hsm (.cons hxl .nil), .inr ⟨_, hspace, rfl⟩, rfl⟩
  exact ⟨[' '], _, [], hspace, ⟨_, hlist, rfl⟩, isSpace_nil, rfl⟩

lemma categoriesText_button :
    CategoriesText buttonConfig.variants "\x7bsize: \x7bsm:\"\x7d // ,\", 'x-l' : '\\'[:' , \x7d\x7d".toList := by
  have hsize : EntryText CvaFree ("size", OptionsText ["sm", "x-l"])
      "size: \x7bsm:\"\x7d // ,\", 'x-l' : '\\'[:' , \x7d".toList :=
    entryText_self (keyText_bare (by decide)) optionsText_button
  have h := objectText_join (.cons hsize .nil)
  exact h

lemma defaultsText_button : DefaultsText buttonConfig.defaults "\x7bsize:'sm',\"x y\":\x602\x60\x7d".toList := by
  have hsize : EntryText CvaFree ("size", Padded (Quotes CvaFree "sm".toList)) "size:'sm'".toList :=
    entryText_self (keyText_bare (by decide)) (padded_self (quotes_self '\'' (by decide +kernel)))
  have hxy : EntryText CvaFree ("x y", Padded (Quotes CvaFree "2".toList)) "\"x y\":\x602\x60".toList :=
    entryText_self (.inr (quotes_self '"' (by decide +kernel)))
      (padded_self (quotes_self '\x60' (by decide +kernel)))
  have h := objectText_join (.cons hsize (.cons hxy .nil))
  exact h

/-- Every layout of a list of configurations reads as that list. -/
theorem all_of_sourceText {configs : List VariantConfig} {source : List Char}
    (hc : ∀ config ∈ configs, Bindable config) (h : SourceText configs source) :
    all source = configs ∧ first? source = configs.head? := by
  have hmute : Mute [] := mute_of_not_mem List.not_mem_nil
  have hall : all source = configs := filterMap_findAllFrom h hc [] hmute none
  exact ⟨hall, by rw [first?, hall]⟩

/-- Quotes, brackets, comment marks and commas inside the literals, white space and trailing commas between them. -/
theorem all_of_buttonSource :
    (∀ config ∈ [buttonConfig], Bindable config) ∧ SourceText [buttonConfig] buttonSource ∧
      all buttonSource = [buttonConfig] ∧ first? buttonSource = some buttonConfig := by
  have hbindable : ∀ config ∈ [buttonConfig], Bindable config := by
    rw [List.forall_mem_singleton]
    exact ⟨⟨by decide, by decide, by decide⟩, ⟨'b', "utton".toList, by decide, by decide, rfl⟩, by decide⟩
  have hsource := sourceText_oneLine baseText_button categoriesText_button defaultsText_button
  exact ⟨hbindable, hsource, all_of_sourceText hbindable hsource⟩

/-- What else is admissible does not read back: a default without a key is left out, and a name that starts with a
letter outside ASCII is no name. -/
theorem unread_of_emptyKey_of_foreignName :
    (∃ config source, Admissible config ∧ IsIdentifier config.name.toList ∧ SourceText [config] source ∧
      all source ≠ [config]) ∧
    ∃ config source, Admissible config ∧ "" ∉ config.defaults.keys ∧ config.name = "élan" ∧
      SourceText [config] source ∧ all source ≠ [config] := by
  have hbase : BaseText "" "''".toList :=
    padded_self ⟨[], [], .space isSpace_nil, quotes_self '\'' (by decide), rfl⟩
  have hnone : ObjectText CvaFree [] "\x7b\x7d".toList := objectText_join .nil
  have hcategories : CategoriesText .empty "\x7b\x7d".toList := hnone
  have hempty : DefaultsText .empty "\x7b\x7d".toList := hnone
  have hkey : DefaultsText ⟨[("", "x")], by decide⟩ "\x7b'':'x'\x7d".toList := by
    have hentry : EntryText CvaFree ("", Padded (Quotes CvaFree "x".toList)) "'':'x'".toList :=
      entryText_self (.inr (quotes_self '\'' (by decide)))
        (padded_self (quotes_self '\'' (by decide)))
    have h := objectText_join (.cons hentry .nil)
    exact h
  constructor
  · refine ⟨⟨"v", "", .empty, ⟨[("", "x")], by decide⟩⟩, _, ⟨by decide, by decide, by decide⟩,
      ⟨'v', [], by decide, by decide, rfl⟩, sourceText_oneLine hbase hcategories hkey, fun h => ?_⟩
    have hread := congrArg (List.map fun config => config.defaults.keys) h
    exact absurd hread (by decide +kernel)
  · refine ⟨⟨"élan", "", .empty, .empty⟩, _, ⟨by decide, by decide, by decide⟩, by decide, rfl,
      sourceText_oneLine hbase hcategories hempty, fun h => ?_⟩
    have hread := congrArg List.isEmpty h
    exact absurd hread (by decide +kernel)

end UiCatalog.VariantConfig
