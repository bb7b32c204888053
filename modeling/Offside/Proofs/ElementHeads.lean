import Mathlib
import Offside.Proofs.ElementParts

/-!
# Heads of elements, written and read back

The head of an element is a row of names, each behind the character that says what it names, and
then at most one marker that says what the content is.  This file goes from what was written to what
is read.

**Cutting.**  The characters of names and their signs do not end a head, so cutting a line takes
them to the head as they are (`splitHead_append`).  What stands behind the head is content if it
does not begin with a group of options (`ElementParts.ofLine?_of_splitHead`).

**Tokens.**  A name ends where the next token begins, because no token begins with a character that
a name can hold.  So the tokens of the head are the ones that were written
(`HeadToken.tokens_flatMap_written`).

**Elements.**  What is read is therefore told by the names of each kind in their order, the marker
and the content (`Element.ofLine_headLine`): how names of different kinds are mixed makes no
difference.
-/

namespace Offside

/-! ## Cutting a line -/

/-- A character that is part of a head wherever it stands. -/
def isHeadChar (c : Char) : Bool :=
  !(c == ' ' || c == '@' || c == '=' || c == '\x7b' || c == '[')

lemma splitHead_cons {c : Char} (hc : isHeadChar c = true) (inTarget : Bool) (rest : Text) :
    splitHead inTarget (c :: rest) = (splitHead inTarget rest).map (·.addToHead [c]) := by
  simp only [isHeadChar, Bool.not_eq_true', Bool.or_eq_false_iff] at hc
  obtain ⟨⟨⟨⟨hspace, hat⟩, hequals⟩, hbrace⟩, hbracket⟩ := hc
  rw [splitHead.eq_def]
  simp only [hspace, hat, hequals, hbrace, hbracket, Bool.false_and, Bool.false_eq_true, if_false]

lemma splitHead_append {t : Text} (ht : ∀ c ∈ t, isHeadChar c = true) (inTarget : Bool)
    (rest : Text) :
    splitHead inTarget (t ++ rest) = (splitHead inTarget rest).map (·.addToHead t) := by
  induction t with
  | nil =>
      have hnone : (fun parts : ElementParts => parts.addToHead []) = id := rfl
      rw [List.nil_append, hnone, Option.map_id, id]
  | cons c t ih =>
      obtain ⟨hc, ht⟩ := List.forall_mem_cons.1 ht
      rw [List.cons_append, splitHead_cons hc, ih ht, Option.map_map]
      rfl

/-- Content that is not taken for anything else: it does not begin with white space, and with a
brace only if that opens an expression or an instruction. -/
structure IsContent (content : Text) : Prop where
  first : ∀ c ∈ content.head?, Text.isBlank c = false
  brace : content.head? = some '\x7b' → content[1]? = some '\x7b' ∨ content[1]? = some '%'

lemma IsContent.splitGroups {content : Text} (h : IsContent content) :
    splitGroups content = some ([], content) := by
  have hstart : startsGroup content = false := by
    have hbrace := h.brace
    unfold startsGroup
    split
    · rfl
    · rfl
    · next rest hexpression hinstruction =>
        cases rest with
        | nil => simp at hbrace
        | cons c rest =>
            rcases hbrace rfl with hc | hc
            · exact absurd (Option.some.inj hc) fun hc => hexpression rest (by rw [hc])
            · exact absurd (Option.some.inj hc) fun hc => hinstruction rest (by rw [hc])
    · rfl
  rw [Offside.splitGroups, hstart]
  rfl

lemma ElementParts.ofLine?_of_splitHead {line content : Text} {parts : ElementParts}
    (hcut : splitHead false line = some parts) (hcontent : IsContent content)
    (htrim : Text.trimStart parts.content = content) :
    ElementParts.ofLine? line = some { parts with content := content } := by
  simp [ElementParts.ofLine?, hcut, htrim, hcontent.splitGroups]

/-! ## Tokens -/

namespace HeadToken

/-- How a token is written. -/
def written : HeadToken → Text
  | tag name => '%' :: name
  | id name => '#' :: name
  | className name => '.' :: name
  | object code => '[' :: code ++ [']']
  | target written => '@' :: written
  | expression => ['=']
  | translate => ['$']
  | selfClose => ['/']

/-- A tag, an id or a class with a name made of the characters for it. -/
def IsName : HeadToken → Prop
  | tag name => name ≠ [] ∧ ∀ c ∈ name, isTagChar c = true
  | id name => name ≠ [] ∧ ∀ c ∈ name, isNameChar c = true
  | className name => name ≠ [] ∧ ∀ c ∈ name, isNameChar c = true
  | _ => False

lemma isTagChar_of_isNameChar {c : Char} (h : isNameChar c = true) : isTagChar c = true := by
  rw [isTagChar, h, Bool.true_or]

/-- No character of a name has a meaning of its own. -/
lemma ne_of_isTagChar {c d : Char} (hc : isTagChar c = true) (hd : isTagChar d = false) :
    c ≠ d := by
  rintro rfl
  rw [hc] at hd
  cases hd

/-- A text that a name in front of it does not run on into. -/
def EndsName (rest : Text) : Prop := ∀ c ∈ rest.head?, isTagChar c = false

lemma EndsName.isNameChar {rest : Text} (h : EndsName rest) :
    ∀ c ∈ rest.head?, isNameChar c = false := by
  intro c hc
  have htag := h c hc
  rw [isTagChar, Bool.or_eq_false_iff] at htag
  exact htag.1

/-- A name is read up to the first character that cannot be part of it. -/
lemma ofName_append {make : Text → HeadToken} {isPart : Char → Bool} {name rest : Text}
    (hne : name ≠ []) (hname : ∀ c ∈ name, isPart c = true)
    (hrest : ∀ c ∈ rest.head?, isPart c = false) :
    ofName make isPart (name ++ rest) = (some (make name), rest) := by
  have htake : rest.takeWhile isPart = [] ∧ rest.dropWhile isPart = rest := by
    cases rest with
    | nil => exact ⟨rfl, rfl⟩
    | cons c rest => simp [hrest c rfl]
  rw [ofName, List.takeWhile_append_of_pos hname, List.dropWhile_append_of_pos hname, htake.1,
    htake.2, List.append_nil, if_neg (by simpa using hne)]

lemma tokens_cons (c : Char) (rest : Text) :
    tokens (c :: rest) = (read c rest).1.toList ++ tokens (read c rest).2 := by
  rw [tokens]

lemma tokens_written_append {token : HeadToken} (h : token.IsName) {rest : Text}
    (hrest : EndsName rest) : tokens (token.written ++ rest) = token :: tokens rest := by
  cases token with
  | tag name =>
      have hread : read '%' (name ++ rest) = (some (tag name), rest) :=
        ofName_append h.1 h.2 hrest
      rw [written, List.cons_append, tokens_cons, hread]
      rfl
  | id name =>
      have hread : read '#' (name ++ rest) = (some (id name), rest) :=
        ofName_append h.1 h.2 hrest.isNameChar
      rw [written, List.cons_append, tokens_cons, hread]
      rfl
  | className name =>
      have hread : read '.' (name ++ rest) = (some (className name), rest) :=
        ofName_append h.1 h.2 hrest.isNameChar
      rw [written, List.cons_append, tokens_cons, hread]
      rfl
  | _ => exact h.elim

lemma endsName_written_append {token : HeadToken} (h : token.IsName) (rest : Text) :
    EndsName (token.written ++ rest) := by
  cases token with
  | tag name => simp [EndsName, written]; decide
  | id name => simp [EndsName, written]; decide
  | className name => simp [EndsName, written]; decide
  | _ => exact h.elim

/-- **The tokens of a row of names are the names**, and what comes behind them. -/
lemma tokens_flatMap_written {names : List HeadToken} (hnames : ∀ token ∈ names, token.IsName)
    {rest : Text} (hrest : EndsName rest) :
    tokens (names.flatMap written ++ rest) = names ++ tokens rest := by
  induction names with
  | nil => rfl
  | cons token names ih =>
      obtain ⟨htoken, hnames⟩ := List.forall_mem_cons.1 hnames
      have hends : EndsName (names.flatMap written ++ rest) := by
        cases names with
        | nil => exact hrest
        | cons next names =>
            rw [List.flatMap_cons, List.append_assoc]
            exact endsName_written_append (hnames next List.mem_cons_self) _
      rw [List.flatMap_cons, List.append_assoc, tokens_written_append htoken hends, ih hnames]
      rfl

lemma isHeadChar_of_isTagChar {c : Char} (h : isTagChar c = true) : isHeadChar c = true := by
  have hne : ∀ d, isTagChar d = false → (c == d) = false := fun d hd =>
    beq_false_of_ne (ne_of_isTagChar h hd)
  rw [isHeadChar, hne ' ' (by decide), hne '@' (by decide), hne '=' (by decide),
    hne '\x7b' (by decide), hne '[' (by decide)]
  rfl

lemma isHeadChar_of_mem_written {token : HeadToken} (h : token.IsName) :
    ∀ c ∈ token.written, isHeadChar c = true := by
  cases token with
  | tag name =>
      exact List.forall_mem_cons.2 ⟨by decide, fun c hc => isHeadChar_of_isTagChar (h.2 c hc)⟩
  | id name =>
      exact List.forall_mem_cons.2 ⟨by decide, fun c hc =>
        isHeadChar_of_isTagChar (isTagChar_of_isNameChar (h.2 c hc))⟩
  | className name =>
      exact List.forall_mem_cons.2 ⟨by decide, fun c hc =>
        isHeadChar_of_isTagChar (isTagChar_of_isNameChar (h.2 c hc))⟩
  | _ => exact h.elim

end HeadToken

/-! ## Lines -/

/-- What the head says about the content. -/
inductive ContentMarker where
  /-- Nothing: it is text. -/
  | plain
  /-- It is an expression. -/
  | expression
  /-- It is text to be translated. -/
  | translated
  /-- It is an expression whose value is translated. -/
  | translatedExpression
  /-- There is to be no closing tag. -/
  | selfClosing
  deriving Repr, DecidableEq

namespace ContentMarker

/-- The tokens that a marker is written with. -/
def tokens : ContentMarker → List HeadToken
  | plain => []
  | expression => [.expression]
  | translated => [.translate]
  | translatedExpression => [.expression, .translate]
  | selfClosing => [.selfClose]

/-- The text of a marker. -/
def written (marker : ContentMarker) : Text := marker.tokens.flatMap HeadToken.written

/-- What the content becomes. -/
def shown (settings : TemplateSettings) (content : Text) : ContentMarker → Text
  | plain => content
  | selfClosing => content
  | expression => if content = [] then [] else outputMarks content
  | translated =>
      outputMarks (settings.translateFunction ++ "(text=" ++ quoteLiteral content ++ ")")
  | translatedExpression => outputMarks (settings.translateFunction ++ "(text=" ++ content ++ ")")

end ContentMarker

/-- Content behind a space, or nothing. -/
def behindHead (content? : Option Text) : Text := (content?.map (' ' :: ·)).getD []

/-- An element line: names, a marker, and the content behind a space if there is any. -/
def headLine (names : List HeadToken) (marker : ContentMarker) (content? : Option Text) : Text :=
  names.flatMap HeadToken.written ++ marker.written ++ behindHead content?

lemma splitHead_behindHead (inTarget : Bool) (content? : Option Text) :
    splitHead inTarget (behindHead content?) = some ⟨[], [], behindHead content?⟩ := by
  cases content? with
  | none => rw [behindHead, Option.map_none, Option.getD_none, splitHead]
  | some content =>
      rw [behindHead, Option.map_some, Option.getD_some, splitHead.eq_def]
      rfl

lemma trimStart_behindHead {content? : Option Text}
    (h : ∀ content ∈ content?, IsContent content) :
    Text.trimStart (behindHead content?) = content?.getD [] := by
  cases content? with
  | none => rfl
  | some content => exact trimStart_eq_self (h content rfl).first

namespace ContentMarker

lemma endsName_written (marker : ContentMarker) : HeadToken.EndsName marker.written := by
  cases marker <;> simp [written, tokens, HeadToken.written, HeadToken.EndsName] <;> decide

lemma tokens_written (marker : ContentMarker) :
    HeadToken.tokens marker.written = marker.tokens := by
  cases marker <;> simp [written, tokens, HeadToken.written, HeadToken.tokens, HeadToken.read]

/-- The head ends with the marker. -/
lemma splitHead_written_append (marker : ContentMarker) (content? : Option Text) :
    splitHead false (marker.written ++ behindHead content?)
      = some ⟨marker.written, [], behindHead content?⟩ := by
  have hnames : ∀ {t : Text}, (∀ c ∈ t, isHeadChar c = true) →
      splitHead false (t ++ behindHead content?) = some ⟨t, [], behindHead content?⟩ := by
    intro t ht
    rw [splitHead_append ht, splitHead_behindHead]
    simp [ElementParts.addToHead]
  cases marker with
  | plain => exact hnames (t := []) (by simp)
  | translated => exact hnames (t := ['$']) (List.forall_mem_singleton.2 rfl)
  | selfClosing => exact hnames (t := ['/']) (List.forall_mem_singleton.2 rfl)
  -- An equals sign ends the head by itself, and takes a dollar sign with it.
  | expression =>
      cases content? <;>
      · rw [splitHead.eq_def]
        rfl
  | translatedExpression =>
      rw [splitHead.eq_def]
      rfl

end ContentMarker

/-- What an element line is cut into. -/
lemma ElementParts.ofLine?_headLine {names : List HeadToken}
    (hnames : ∀ token ∈ names, token.IsName) (marker : ContentMarker) {content? : Option Text}
    (hcontent : ∀ content ∈ content?, IsContent content) :
    ElementParts.ofLine? (headLine names marker content?)
      = some ⟨names.flatMap HeadToken.written ++ marker.written, [], content?.getD []⟩ := by
  have hhead : ∀ c ∈ names.flatMap HeadToken.written, isHeadChar c = true := by
    intro c hc
    obtain ⟨token, htoken, hc⟩ := List.mem_flatMap.1 hc
    exact HeadToken.isHeadChar_of_mem_written (hnames token htoken) c hc
  have hcut : splitHead false (headLine names marker content?)
      = some ⟨names.flatMap HeadToken.written ++ marker.written, [], behindHead content?⟩ := by
    rw [headLine, List.append_assoc, splitHead_append hhead, marker.splitHead_written_append]
    rfl
  have hgiven : IsContent (content?.getD []) := by
    cases content? with
    | none => exact ⟨by simp, by simp⟩
    | some content => exact hcontent content rfl
  exact ofLine?_of_splitHead hcut hgiven (trimStart_behindHead hcontent)

lemma tokens_headLine {names : List HeadToken} (hnames : ∀ token ∈ names, token.IsName)
    (marker : ContentMarker) :
    HeadToken.tokens (names.flatMap HeadToken.written ++ marker.written)
      = names ++ marker.tokens := by
  rw [HeadToken.tokens_flatMap_written hnames marker.endsName_written, marker.tokens_written]

/-! ## Elements -/

/-- The attributes that ids and classes give. -/
def namedAttributes (ids classes : List Text) : Table Text :=
  (if classes = [] then [] else [("class".toList, Text.join " " classes)]) ++
    (ids.getLast?.map fun id => ("id".toList, id)).toList

/-- The element that is told by names, a marker and content. -/
def elementOf (settings : TemplateSettings) (tags ids classes : List Text)
    (marker : ContentMarker) (content : Text) : Element where
  tag := tags.getLast?.getD "div"
  attributes := namedAttributes ids classes
  object := none
  content := marker.shown settings content
  selfClosing := marker = .selfClosing ∨ tags.getLast?.getD "div" ∈ selfClosingTags

/-- Without options and targets, attributes come from ids and classes only. -/
lemma attributesOf_of_no_target (settings : TemplateSettings) (tag : Text)
    {tokens : List HeadToken} (h : tokens.filterMap HeadToken.target? = []) :
    Element.attributesOf settings tag [] tokens
      = namedAttributes (tokens.filterMap HeadToken.id?)
          (tokens.filterMap HeadToken.className?) := by
  have hboth : ∀ id classes : Text, Table.insert "class" classes [("id".toList, id)]
      = [("class".toList, classes), ("id".toList, id)] := fun _ _ => rfl
  simp only [Element.attributesOf, h, namedAttributes, List.flatMap_nil, List.map_nil,
    List.getLast?_nil, List.isEmpty_iff]
  cases (tokens.filterMap HeadToken.id?).getLast? with
  | none => split_ifs <;> rfl
  | some id =>
      split_ifs
      · rfl
      · exact hboth id _

/-- A marker has no part that a name can have. -/
lemma filterMap_append_marker (names : List HeadToken) (marker : ContentMarker)
    (part : HeadToken → Option Text) (hexpression : part .expression = none)
    (htranslate : part .translate = none) (hclose : part .selfClose = none) :
    (names ++ marker.tokens).filterMap part = names.filterMap part := by
  have hmarker : marker.tokens.filterMap part = [] := by
    cases marker <;> simp [ContentMarker.tokens, hexpression, htranslate, hclose]
  rw [List.filterMap_append, hmarker, List.append_nil]

section

variable {names : List HeadToken} (hnames : ∀ token ∈ names, token.IsName)
  (marker : ContentMarker)
include hnames

/-- Whether a token that is no name occurs is told by the marker. -/
lemma contains_append_marker {token : HeadToken} (h : ¬token.IsName) :
    (names ++ marker.tokens).contains token = marker.tokens.contains token := by
  have hnone : names.contains token = false := by
    rw [List.contains_eq_mem, decide_eq_false_iff_not]
    exact fun hmem => h (hnames token hmem)
  rw [List.contains_append, hnone, Bool.false_or]

/-- Whether a token that is no name comes last is told by the marker. -/
lemma getLast?_append_marker (token : HeadToken) (h : ¬token.IsName) :
    ((names ++ marker.tokens).getLast? == some token)
      = (marker.tokens.getLast? == some token) := by
  cases hlast : marker.tokens.getLast? with
  | some last => rw [List.getLast?_append, hlast, Option.some_or]
  | none =>
      rw [List.getLast?_append, hlast, Option.none_or]
      refine beq_false_of_ne fun hname => ?_
      exact h (hnames token (List.mem_of_getLast? hname))

/-- Names are neither targets nor objects. -/
lemma filterMap_names {part : HeadToken → Option Text}
    (hpart : ∀ token : HeadToken, token.IsName → part token = none) : names.filterMap part = [] :=
  List.filterMap_eq_nil_iff.2 fun token htoken => hpart token (hnames token htoken)

lemma elementContent_marker {settings : TemplateSettings} (hembed : settings.embedCode = true)
    (content : Text) :
    elementContent settings ((names ++ marker.tokens).contains .expression)
      ((names ++ marker.tokens).getLast? == some .translate) content
      = marker.shown settings content := by
  rw [contains_append_marker hnames marker (by simp [HeadToken.IsName]),
    getLast?_append_marker hnames marker _ (by simp [HeadToken.IsName]), elementContent, hembed]
  cases marker with
  | plain => rfl
  | selfClosing => rfl
  | expression => cases content <;> rfl
  | translated => rfl
  | translatedExpression => rfl

/-- The element with a head of names and a marker. -/
lemma ofParts_names {settings : TemplateSettings} (hembed : settings.embedCode = true)
    (content : Text) :
    Element.ofParts settings ⟨names.flatMap HeadToken.written ++ marker.written, [], content⟩
      = elementOf settings (names.filterMap HeadToken.tag?) (names.filterMap HeadToken.id?)
          (names.filterMap HeadToken.className?) marker content := by
  have htags := filterMap_append_marker names marker HeadToken.tag? rfl rfl rfl
  have hids := filterMap_append_marker names marker HeadToken.id? rfl rfl rfl
  have hclasses := filterMap_append_marker names marker HeadToken.className? rfl rfl rfl
  have hobjects : (names ++ marker.tokens).filterMap HeadToken.object? = [] := by
    rw [filterMap_append_marker names marker _ rfl rfl rfl]
    refine filterMap_names hnames fun token htoken => ?_
    cases token with
    | tag | id | className => rfl
    | _ => exact htoken.elim
  have htargets : (names ++ marker.tokens).filterMap HeadToken.target? = [] := by
    rw [filterMap_append_marker names marker _ rfl rfl rfl]
    refine filterMap_names hnames fun token htoken => ?_
    cases token with
    | tag | id | className => rfl
    | _ => exact htoken.elim
  have hclosing : ∀ tag : Text, (marker.tokens.getLast? == some HeadToken.selfClose ||
      selfClosingTags.contains tag)
      = decide (marker = .selfClosing ∨ tag ∈ selfClosingTags) := by
    intro tag
    rw [Bool.decide_or, List.contains_eq_mem]
    cases marker <;> rfl
  simp only [Element.ofParts, elementOf, tokens_headLine hnames, hembed, if_true,
    elementContent_marker hnames marker hembed, hobjects, attributesOf_of_no_target _ _ htargets,
    htags, hids, hclasses, getLast?_append_marker hnames marker .selfClose id, hclosing,
    List.getLast?_nil]

end

/-- **Elements are read as they are written.**  Take any row of tags, ids and classes, in any order
and number, a marker, and content behind a space or none.  With code written, the element on this
line has the last tag, or `div`; the last id if there is one, and all classes in their order if
there are any, as its only attributes; no object; and the content as the marker says.  It has no
closing tag exactly if the marker says so or the tag never has one.  So every other row with the
same tags, the same ids and the same classes, each in the same order, gives the same element. -/
theorem Element.ofLine_headLine {settings : TemplateSettings} (hembed : settings.embedCode = true)
    (number : Nat) {names : List HeadToken} (hnames : ∀ token ∈ names, token.IsName)
    (marker : ContentMarker) {content? : Option Text}
    (hcontent : ∀ content ∈ content?, IsContent content) :
    Element.ofLine settings number (headLine names marker content?)
      = .ok (elementOf settings (names.filterMap HeadToken.tag?) (names.filterMap HeadToken.id?)
          (names.filterMap HeadToken.className?) marker (content?.getD [])) ∧
    ∀ others : List HeadToken, (∀ token ∈ others, token.IsName) →
      others.filterMap HeadToken.tag? = names.filterMap HeadToken.tag? →
      others.filterMap HeadToken.id? = names.filterMap HeadToken.id? →
      others.filterMap HeadToken.className? = names.filterMap HeadToken.className? →
      Element.ofLine settings number (headLine others marker content?)
        = Element.ofLine settings number (headLine names marker content?) := by
  have hread : ∀ {row : List HeadToken}, (∀ token ∈ row, token.IsName) →
      Element.ofLine settings number (headLine row marker content?)
        = .ok (elementOf settings (row.filterMap HeadToken.tag?) (row.filterMap HeadToken.id?)
            (row.filterMap HeadToken.className?) marker (content?.getD [])) := by
    intro row hrow
    rw [Element.ofLine, ElementParts.ofLine?_headLine hrow marker hcontent]
    simp only [ofParts_names hrow marker hembed]
  refine ⟨hread hnames, fun others hothers htags hids hclasses => ?_⟩
  rw [hread hothers, hread hnames, htags, hids, hclasses]

/-- Names of every kind, mixed up. -/
def mixedNames : List HeadToken :=
  [.className "a-1".toList, .tag "p".toList, .id "x".toList, .className "b".toList,
    .tag "h:r".toList, .id "_y".toList]

/-- The same names in other places. -/
def sortedNames : List HeadToken :=
  [.tag "p".toList, .tag "h:r".toList, .id "x".toList, .id "_y".toList, .className "a-1".toList,
    .className "b".toList]

theorem Element.ofLine_headLine_mixedNames :
    (∀ token ∈ mixedNames, token.IsName) ∧ (∀ token ∈ sortedNames, token.IsName) ∧
    headLine mixedNames .translated (some "say \"hi\"".toList)
      = ".a-1%p#x.b%h:r#_y$ say \"hi\"".toList ∧
    Element.ofLine .standard 1 ".a-1%p#x.b%h:r#_y$ say \"hi\"".toList
      = .ok ⟨"h:r".toList, [("class".toList, "a-1 b".toList), ("id".toList, "_y".toList)], none,
          "\x7b\x7b translate(text='say \"hi\"') \x7d\x7d".toList, false⟩ ∧
    Element.ofLine .standard 1 "%p%h:r#x#_y.a-1.b$ say \"hi\"".toList
      = Element.ofLine .standard 1 ".a-1%p#x.b%h:r#_y$ say \"hi\"".toList ∧
    Element.ofLine .standard 1 "=".toList = .ok ⟨"div".toList, [], none, [], false⟩ := by
  have hmixed : ∀ token ∈ mixedNames, token.IsName := by
    simp [mixedNames, HeadToken.IsName, HeadToken.isTagChar, HeadToken.isNameChar]
  have hsorted : ∀ token ∈ sortedNames, token.IsName := by
    simp [sortedNames, HeadToken.IsName, HeadToken.isTagChar, HeadToken.isNameChar]
  have hsaid : ∀ content ∈ some "say \"hi\"".toList, IsContent content := by
    rintro _ ⟨⟩
    exact ⟨by rintro _ ⟨⟩; rfl, by simp⟩
  have hread := @Element.ofLine_headLine .standard rfl 1 _ hmixed .translated _ hsaid
  have hline : headLine mixedNames .translated (some "say \"hi\"".toList)
      = ".a-1%p#x.b%h:r#_y$ say \"hi\"".toList := by decide +kernel
  have hother : headLine sortedNames .translated (some "say \"hi\"".toList)
      = "%p%h:r#x#_y.a-1.b$ say \"hi\"".toList := by decide +kernel
  rw [hline] at hread
  refine ⟨hmixed, hsorted, hline, hread.1.trans (by decide +kernel), ?_, ?_⟩
  · rw [← hother]
    exact hread.2 sortedNames hsorted (by decide +kernel) (by decide +kernel) (by decide +kernel)
  · exact (@Element.ofLine_headLine .standard rfl 1 [] (by simp) .expression none (by simp)).1

end Offside
