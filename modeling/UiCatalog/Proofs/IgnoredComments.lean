import UiCatalog.Parameters
import UiCatalog.Proofs.CommentedConfig

/-!
# Comments that are ignored

In a parameter pattern a comment changes nothing behind the dots of the rest and behind the colon of a renaming.
Together with the places in style configurations these are the places where comments are ignored; before a key a
comment becomes part of it.
-/
namespace UiCatalog

open Text Pattern Code

variable {kind : List Char → List Char → Prop} {free : Char → Prop} {r t v w x y : List Char}

namespace Parameters

/-! ## Parameter patterns -/

/-- A place behind the colon of a renaming and before its default. -/
def BehindColon (x : List Char) : Prop := ':' ∈ x ∧ '=' ∉ x

/-- A place in a parameter pattern where the comment `r` is ignored. -/
def PatternPlace (r : List Char) : List Char → List Char → Prop :=
  InList fun p _ => BehindDots p ∨ (BehindColon p ∧ '=' ∉ r)

/-- Whatever follows the brace behind `lead`, it opens the first parameter in the declaration of `name`. -/
def Declares (name : String) (lead : List Char) : Prop :=
  ∀ t, ∃ opening, (openingPattern name).find? (lead ++ '\x7b' :: t) = some opening ∧ opening.stop = lead.length + 1

/-- The default behind the first equals sign. -/
def defaultIn? (s : List Char) : Option (List Char) :=
  if s.contains '=' then some (showLiteral (trim ((s.dropWhile (· != '=')).drop 1))) else none

lemma defaultIn?_append (hv : '=' ∉ v) (s : List Char) : defaultIn? (v ++ s) = defaultIn? s := by
  have hdrop : (v ++ s).dropWhile (· != '=') = s.dropWhile (· != '=') :=
    List.dropWhile_append_of_pos fun c hc => by simpa using ne_of_mem_of_not_mem hc hv
  have hcontains : (v ++ s).contains '=' = s.contains '=' := by simp [hv]
  rw [defaultIn?, defaultIn?, hdrop, hcontains]

lemma defaultIn?_of_not_mem (h : '=' ∉ t) : defaultIn? t = none := by
  simp [defaultIn?, h]

lemma defaultIn?_equals (hv : '=' ∉ v) (s : List Char) : defaultIn? (v ++ '=' :: s) = some (showLiteral (trim s)) := by
  rw [defaultIn?_append hv, defaultIn?]
  simp

lemma defaultIn?_trimEnd (s : List Char) : defaultIn? (trimEnd s) = defaultIn? s := by
  by_cases hmem : '=' ∈ s
  · obtain ⟨v, s, rfl, hv⟩ := List.eq_append_cons_of_mem hmem
    rw [trimEnd_append_cons (by decide), defaultIn?_equals hv, defaultIn?_equals hv, trim_trimEnd]
  · obtain ⟨w, -, hsplit⟩ := exists_space_of_trimEnd s
    have hend : '=' ∉ trimEnd s := fun hin => hmem (hsplit ▸ List.mem_append_left w hin)
    rw [defaultIn?_of_not_mem hmem, defaultIn?_of_not_mem hend]

/-- A renaming reads as the name before its colon with the default behind it. -/
lemma readEntry_colon {k : List Char} (hequals : '=' ∉ k) (hcolon : ':' ∉ k) (s : List Char) :
    Parameters.readEntry (k ++ ':' :: s) =
      if isSpread (trimStart k) then none
      else if (trim k).isEmpty then none
      else some (String.ofList (trim k), (defaultIn? s).map String.ofList) := by
  obtain ⟨w, -, hsplit⟩ := exists_space_of_trimStart k
  have hnot {c : Char} (hc : c ∉ k) : c ∉ trimStart k := fun hin => hc (hsplit ▸ List.mem_append_right w hin)
  -- The name is cut at the first equals sign and then at the first colon, and neither stands before this one.
  have hbefore : Parameters.before ':' (Parameters.before '=' (trimStart k ++ ':' :: trimEnd s)) = trimStart k := by
    have hskip : ∀ c ∈ trimStart k, (c != '=') = true := fun c hc => by
      simpa using ne_of_mem_of_not_mem hc (hnot hequals)
    rw [Parameters.before.eq_1 '=', List.takeWhile_append_of_pos hskip, List.takeWhile_cons_of_pos (by decide)]
    exact takeWhile_append_cons (hnot hcolon) _
  have hdefault : defaultIn? (trimStart k ++ ':' :: trimEnd s) = defaultIn? s := by
    have hlead : '=' ∉ trimStart k ++ [':'] := by simp [hnot hequals]
    rw [List.append_cons, defaultIn?_append hlead, defaultIn?_trimEnd]
  rw [Parameters.readEntry, trim_append_cons (by decide)]
  simp only [isSpread_append_colon, hbefore, trim_trimStart]
  rw [← hdefault]
  rfl

lemma readEntry_behindColon (h : BehindColon x) (hr : '=' ∉ r) (y : List Char) :
    Parameters.readEntry (x ++ (r ++ y)) = Parameters.readEntry (x ++ y) := by
  obtain ⟨hcolon, hequals⟩ := h
  obtain ⟨k, v, rfl, hk⟩ := List.eq_append_cons_of_mem hcolon
  simp only [List.mem_append, List.mem_cons, not_or] at hequals
  obtain ⟨hkequals, -, hv⟩ := hequals
  have hdefault : defaultIn? (v ++ (r ++ y)) = defaultIn? (v ++ y) := by
    rw [defaultIn?_append hv, defaultIn?_append hr, defaultIn?_append hv]
  rw [List.append_assoc, List.append_assoc, List.cons_append, List.cons_append, readEntry_colon hkequals hk,
    readEntry_colon hkequals hk, hdefault]

lemma readEntry_of_isSpace (hw : IsSpace w) : Parameters.readEntry w = none := by
  rw [Parameters.readEntry, trim_of_isSpace hw]
  rfl

lemma readEntry_behindDots (h : BehindDots x) (s : List Char) : Parameters.readEntry (x ++ s) = none := by
  rw [Parameters.readEntry, isSpread_behindDots h]
  rfl

variable {name : String} {lead body : List Char}

lemma destructuredParameters_of_declares (h : Declares name lead) (hbody : Piece free body) (rest : List Char) :
    destructuredParameters (lead ++ '\x7b' :: (body ++ '\x7d' :: rest)) name =
      (splitTopLevel ',' body).filterMap Parameters.readEntry := by
  obtain ⟨opening, hopening, hstop⟩ := h (body ++ '\x7d' :: rest)
  have hplace : opening.stop - 1 = lead.length := by omega
  have hread : bracketBody? (lead ++ '\x7b' :: (body ++ '\x7d' :: rest)) lead.length = some body :=
    bracketBody?_group (by decide) (by decide) hbody List.drop_left
  rw [destructuredParameters, hopening, Option.bind_some, hplace, hread]

/-- A parameter pattern reads the same with a comment where it is ignored. -/
theorem destructuredParameters_place (h : Declares name lead) (hplace : PatternPlace r x y) (hx : Closed x)
    (hr : IsComment r) (rest : List Char) :
    destructuredParameters (lead ++ '\x7b' :: (x ++ (r ++ y) ++ '\x7d' :: rest)) name =
      destructuredParameters (lead ++ '\x7b' :: (x ++ y ++ '\x7d' :: rest)) name := by
  obtain ⟨hplain, hcommented⟩ := piece_inList hplace hx hr
  rw [destructuredParameters_of_declares h hcommented, destructuredParameters_of_declares h hplain]
  refine filterMap_inList hplace hx hr (fun t ht => readEntry_of_isSpace ht) ?_
  rintro p q - (hdots | ⟨hcolon, hequals⟩)
  · rw [readEntry_behindDots hdots, readEntry_behindDots hdots]
  · exact readEntry_behindColon hcolon hequals q

end Parameters

namespace Code

open VariantConfig Parameters

/-! ## Comments that are read -/

/-- A comment before an entry always becomes the beginning of its name. -/
theorem name_of_leading_comment (hr : IsComment r) (hx : IsSpace x) (s : List Char) :
    (∃ t value, Code.readEntry (x ++ (r ++ s)) = some ('/' :: t, value)) ∧
      ∃ t default?, Parameters.readEntry (x ++ (r ++ s)) = some (String.ofList ('/' :: t), default?) := by
  obtain ⟨e, hentry⟩ : ∃ e, trim (x ++ (r ++ s)) = '/' :: e := by
    obtain ⟨u, rfl⟩ : ∃ u, r = '/' :: u := by cases hr <;> exact ⟨_, rfl⟩
    exact ⟨_, by rw [trim_space_append hx, List.cons_append, trim_cons (by decide)]⟩
  have hspread : isSpread ('/' :: e) = false := rfl
  constructor
  · have hquote (t : List Char) : unquote? ('/' :: t) = none := unquote?_of_not_quote (by decide) (by decide) t
    rw [Code.readEntry, hentry]
    simp only [hspread, Bool.false_eq_true, if_false]
    obtain ⟨n?, hcolon⟩ := colonOffset?_slash e
    rw [hcolon]
    cases n? with
    | none => exact ⟨_, _, by simp only [Option.map_none, hquote, Option.getD_none]; rfl⟩
    | some n =>
      have hkey : trim (List.take (n + 1) ('/' :: e)) = '/' :: trimEnd (List.take n e) := by
        rw [List.take_succ_cons, trim_cons (by decide)]
      exact ⟨_, _, by simp only [Option.map_some, hkey, hquote, Option.getD_none]; rfl⟩
  · have hname : trim (Parameters.before ':' (Parameters.before '=' ('/' :: e))) =
        '/' :: trimEnd (Parameters.before ':' (Parameters.before '=' e)) := trim_cons (by decide) _
    rw [Parameters.readEntry, hentry]
    simp only [hspread, Bool.false_eq_true, if_false, hname, List.isEmpty_cons]
    exact ⟨_, _, rfl⟩

/-! ## A configuration and a parameter pattern -/

/-- The text of an entry up to a place in its object literal, and the rest of that entry. -/
def fieldFront (k x : List Char) : List Char := k ++ ':' :: ([' '] ++ '\x7b' :: x)

def fieldBack (y : List Char) : List Char := y ++ '\x7d' :: [' ']

lemma piece_space : Piece (· ≠ ',') [' '] := piece_of_isSpace (by decide) not_comma_of_blank

lemma piece_object (h : Piece (· ≠ ',') (x ++ y)) : Piece (· ≠ ',') ([' '] ++ '\x7b' :: x ++ fieldBack y) := by
  have hgroup : Piece (· ≠ ',') ('\x7b' :: ((x ++ y) ++ ['\x7d'])) :=
    piece_group (by decide) (by decide) (h.mono fun _ _ => trivial)
  have htext : [' '] ++ '\x7b' :: x ++ fieldBack y = [' '] ++ ('\x7b' :: ((x ++ y) ++ ['\x7d']) ++ [' ']) := by
    simp [fieldBack]
  rw [htext]
  exact piece_space.append (hgroup.append piece_space)

lemma piece_field {k : List Char} (hk : Piece (· ≠ ',') k) (h : Piece (· ≠ ',') (x ++ y)) :
    Piece (· ≠ ',') (fieldFront k x ++ fieldBack y) := by
  have hcolon : Piece (· ≠ ',') [':'] := piece_of_plain (by decide)
  have htext : fieldFront k x ++ fieldBack y = k ++ ([':'] ++ ([' '] ++ '\x7b' :: x ++ fieldBack y)) := by
    simp [fieldFront]
  rw [htext]
  exact hk.append (hcolon.append (piece_object h))

lemma inObject_field (h : Piece (· ≠ ',') (x ++ y)) (hkind : kind x y) :
    InObject kind ([' '] ++ '\x7b' :: x) (fieldBack y) :=
  ⟨[' '], x, y, [' '], by decide, h.mono fun _ _ => trivial, hkind, rfl, rfl⟩

lemma inValue_key {valueKind : List Char → List Char → List Char → Prop} {k key : List Char}
    (hk : Piece (· ≠ ':') k) (hkey : entryKey? k = some key) (h : valueKind key x y) :
    InValue valueKind (k ++ ':' :: x) y :=
  ⟨k, x, hk, fun _ hother => Option.some.inj (hkey.symm.trans hother) ▸ h, rfl⟩

lemma inList_self (h : Piece (· ≠ ',') (x ++ y)) (hkind : kind x y) : InList kind x y :=
  ⟨[], x, y, [], by simpa using h, hkind, rfl, by simp⟩

lemma closed_field {k : List Char} (hk : Piece (· ≠ ',') k) (hx : Closed x) : Closed (fieldFront k x) := by
  have hlabel : Closed k := hk.closed
  exact hlabel.append
    (closed_cons_of_plain (by decide) (closed_cons_of_plain (by decide) (closed_cons_of_bracket (by decide) hx)))

/-- Up to the bracket of the call. -/
def callLead : List Char :=
  "import \x7b cva \x7d from 'x'\n".toList ++ ("const v ".toList ++ '=' :: ([' '] ++ ("cva".toList ++ [])))

/-- The categories up to the value of an option of `size`. -/
def categoriesFront : List Char := fieldFront " size".toList (" sm".toList ++ [':'])

def optionBack : List Char := "'s'".toList ++ [' ']

/-- The arguments up to the value of the option, and the rest of them. -/
def argumentsFront : List Char :=
  "'px'".toList ++ ',' :: ([' '] ++ '\x7b' :: fieldFront " variants".toList categoriesFront)

def argumentsBack : List Char := fieldBack (fieldBack (fieldBack optionBack)) ++ []

lemma firstCall_callLead : FirstCall "v".toList callLead := by
  have hname : IsIdentifier "v".toList := ⟨'v', [], by decide, by decide, rfl⟩
  have hspace : IsSpace [' '] := by decide
  have hhead : HeadText "v".toList "const v ".toList :=
    ⟨"const".toList, [' '], [' '], .head _, hspace, List.cons_ne_nil _ _, hspace, rfl⟩
  have himport : '=' ∉ "import \x7b cva \x7d from 'x'\n".toList := by decide
  have hquiet := quiet_of_silent
    (mute_of_not_mem himport ("const v ".toList ++ '=' :: ([' '] ++ ("cva".toList ++ [])) ++ ['(']))
    (.inr ⟨_, _, _, hname, hhead, by rw [List.append_assoc]; rfl⟩)
  exact firstCall_of_quiet hhead hname hspace isSpace_nil hquiet

lemma piece_base : Piece free "'px'".toList :=
  piece_literal ⟨'\'', "px".toList, rfl, literalBody_of_plain (by decide) (by decide), rfl⟩

lemma piece_option : Piece (· ≠ ',') (" sm".toList ++ [':'] ++ optionBack) := by
  have hkey : Piece (· ≠ ',') " sm".toList := piece_of_plain (by decide)
  have hcolon : Piece (· ≠ ',') [':'] := piece_of_plain (by decide)
  have hliteral : Piece (· ≠ ',') "'s'".toList :=
    piece_literal ⟨'\'', "s".toList, rfl, literalBody_of_plain (by decide) (by decide), rfl⟩
  exact (hkey.append hcolon).append (hliteral.append piece_space)

lemma closed_argumentsFront : Closed argumentsFront := by
  have hsize : Piece (· ≠ ',') " size".toList := piece_of_plain (by decide)
  have hvariants : Piece (· ≠ ',') " variants".toList := piece_of_plain (by decide)
  have hsm : Piece (· ≠ ',') (" sm".toList ++ [':']) := piece_of_plain (by decide)
  have hbase : Piece (fun _ => True) "'px'".toList := piece_base
  have hclosed : Closed "'px'".toList := hbase.closed
  have hconfig : Closed (fieldFront " variants".toList categoriesFront) :=
    closed_field hvariants (closed_field hsize hsm.closed)
  exact hclosed.append
    (closed_cons_of_plain (by decide) (closed_cons_of_plain (by decide) (closed_cons_of_bracket (by decide) hconfig)))

lemma argumentsPlace_front : ArgumentsPlace argumentsFront argumentsBack := by
  have hsize : Piece (· ≠ ',') (categoriesFront ++ fieldBack optionBack) :=
    piece_field (piece_of_plain (by decide)) piece_option
  have hvariants :
      Piece (· ≠ ',') (fieldFront " variants".toList categoriesFront ++ fieldBack (fieldBack optionBack)) :=
    piece_field (piece_of_plain (by decide)) hsize
  -- The place stands in the option, and with it in every object around the option.
  have hoption : OptionPlace (" sm".toList ++ [':']) optionBack := by
    have hkey : Piece (· ≠ ':') " sm".toList := piece_of_plain (by decide)
    exact inList_self piece_option (.inl (inValue_key hkey rfl trivial))
  have hcategory : CategoryPlace categoriesFront (fieldBack optionBack) := by
    have hkey : Piece (· ≠ ':') " size".toList := piece_of_plain (by decide)
    exact inList_self hsize (.inl (inValue_key hkey rfl (.inl (inObject_field piece_option hoption))))
  have hplace : ConfigPlace (fieldFront " variants".toList categoriesFront) (fieldBack (fieldBack optionBack)) := by
    have hkey : Piece (· ≠ ':') " variants".toList := piece_of_plain (by decide)
    have hpart : PartPlace "variants".toList ([' '] ++ '\x7b' :: categoriesFront) (fieldBack (fieldBack optionBack)) :=
      ⟨fun _ => .inl (inObject_field hsize hcategory), fun h => absurd h (by decide)⟩
    exact inList_self hvariants (.inl (inValue_key hkey rfl hpart))
  have hbase : ¬ IsSpace "'px'".toList := by decide
  refine ⟨_, _, _, [], hbase, inObject_field hvariants hplace, ?_, rfl, rfl⟩
  simp only [List.forall_mem_cons]
  exact ⟨piece_base, piece_object hvariants, by simp⟩

def patternFront : List Char := " size:".toList

def patternBack : List Char := " local = 'md', ...rest ".toList

lemma patternPlace_front (hr : '=' ∉ r) : PatternPlace r patternFront patternBack := by
  have hsize : Piece (· ≠ ',') " size: local = 'md'".toList := by
    have hplain : Piece (· ≠ ',') " size: local = ".toList := piece_of_plain (by decide)
    have hliteral : Piece (· ≠ ',') "'md'".toList :=
      piece_literal ⟨'\'', "md".toList, rfl, literalBody_of_plain (by decide) (by decide), rfl⟩
    exact hplain.append hliteral
  have hrest : Piece (· ≠ ',') " ...rest ".toList := piece_of_plain (by decide)
  have hcolon : BehindColon patternFront := ⟨by decide, by decide⟩
  have hpieces : ∀ t ∈ [" size: local = 'md'".toList, " ...rest ".toList], Piece (· ≠ ',') t := by
    simp only [List.forall_mem_cons]
    exact ⟨hsize, hrest, by simp⟩
  exact ⟨[], patternFront, " local = 'md'".toList, [" ...rest ".toList], hpieces, .inr ⟨hcolon, hr⟩, rfl, rfl⟩

def trickyComment : List Char := "/* ',:(\x7b const w : cva( */".toList

def configSource (r : List Char) : List Char :=
  "const v = cva('', \x7b".toList ++ (r ++ " variants: \x7b size: \x7b sm: 'a' \x7d \x7d \x7d)".toList)

def parameterSource (r : List Char) : List Char :=
  "export function Tag(\x7b".toList ++ (r ++ " size = 'md' \x7d) \x7b\x7d".toList)

/-! ## Both readers -/

/-- A comment that stands where it is ignored changes neither the first configuration of a source nor the parameters of
a declaration. -/
theorem comment_ignored (hr : IsComment r) (hx : Closed x) :
    (∀ name lead rest, FirstCall name lead → ArgumentsPlace x y →
      ∃ config, first? (lead ++ '(' :: (x ++ y ++ ')' :: rest)) = some config ∧
        first? (lead ++ '(' :: (x ++ (r ++ y) ++ ')' :: rest)) = some config) ∧
    ∀ name lead rest, Declares name lead → PatternPlace r x y →
      destructuredParameters (lead ++ '\x7b' :: (x ++ (r ++ y) ++ '\x7d' :: rest)) name =
        destructuredParameters (lead ++ '\x7b' :: (x ++ y ++ '\x7d' :: rest)) name := by
  constructor
  · intro name lead rest hcall hplace
    obtain ⟨hplain, hcommented, config, hread, hread'⟩ := ofArguments?_place hplace hx hr name
    exact ⟨config, first?_of_firstCall hcall hplain hread rest, first?_of_firstCall hcall hcommented hread' rest⟩
  · intro name lead rest hdeclares hplace
    exact destructuredParameters_place hdeclares hplace hx hr rest

/-- A comment that looks like a binding behind the colon of an option and behind that of a renaming. -/
theorem comment_ignored_behind_colons :
    (IsComment trickyComment ∧ Closed argumentsFront ∧ FirstCall "v".toList callLead ∧
      ArgumentsPlace argumentsFront argumentsBack ∧
      ∃ config, first? (callLead ++ '(' :: (argumentsFront ++ argumentsBack ++ [')'])) = some config ∧
        first? (callLead ++ '(' :: (argumentsFront ++ (trickyComment ++ argumentsBack) ++ [')'])) = some config) ∧
    Closed patternFront ∧ Declares "Tag" "export function Tag(".toList ∧
      PatternPlace trickyComment patternFront patternBack ∧
      destructuredParameters ("export function Tag(".toList ++
          '\x7b' :: (patternFront ++ (trickyComment ++ patternBack) ++ '\x7d' :: ") \x7b\x7d".toList)) "Tag" =
        destructuredParameters ("export function Tag(".toList ++
          '\x7b' :: (patternFront ++ patternBack ++ '\x7d' :: ") \x7b\x7d".toList)) "Tag" := by
  have hbody : ¬ ['*', '/'] <:+: " ',:(\x7b const w : cva( ".toList := by decide +kernel
  have hr : IsComment trickyComment := .block hbody
  have hfront : Piece (fun _ => True) patternFront := piece_of_plain (by decide)
  have hdeclares : Declares "Tag" "export function Tag(".toList := fun _ => ⟨_, rfl, rfl⟩
  have hplace : PatternPlace trickyComment patternFront patternBack := patternPlace_front (by decide)
  exact ⟨⟨hr, closed_argumentsFront, firstCall_callLead, argumentsPlace_front,
      (comment_ignored hr closed_argumentsFront).1 _ _ [] firstCall_callLead argumentsPlace_front⟩,
    hfront.closed, hdeclares, hplace, (comment_ignored hr hfront.closed).2 _ _ _ hdeclares hplace⟩

/-- Before a key a comment becomes part of it. -/
theorem comment_read_before_key :
    IsComment "/* x */".toList ∧
      (first? (configSource [])).map (·.variants.entries) = some [("size", ["sm"])] ∧
      (first? (configSource "/* x */".toList)).map (·.variants.entries) = some [] ∧
      destructuredParameters (parameterSource []) "Tag" = [("size", some "'md'")] ∧
      destructuredParameters (parameterSource "/* x */".toList) "Tag" = [("/* x */ size", some "'md'")] := by
  have hbody : ¬ ['*', '/'] <:+: " x ".toList := by decide
  exact ⟨.block hbody, by decide +kernel, by decide +kernel, by decide +kernel, by decide +kernel⟩

end Code

end UiCatalog
