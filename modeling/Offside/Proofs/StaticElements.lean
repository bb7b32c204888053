import Mathlib
import Offside.Proofs.ElementTags

/-!
# Static elements

With host code switched off, what is written for an element should be static: no expression and no
instruction is opened in it.

**Static text.**  A text is static if no brace is followed by a brace or a per cent sign (`Static`).
Any part of a static text is static, and static texts can be put together unless host code is opened
where they meet.

**Parts.**  The head of a static line is static once its groups of options are taken out, and the
groups and the content stand in the line as they are (`ElementParts.within_of_ofLine?`).

**Attributes.**  What is in an attribute comes from an option, from a token of the head or from the
settings (`attributesFrom_attributesOf`).  A value is written as it is, except that a dollar sign
makes an expression of it (`renderValue_cases`), whether or not host code is switched on.  So in a
static line the values of attributes are all that can open host code
(`Element.Literal.static_openTag_iff`), and they do not if none begins with a dollar sign
(`Element.static_values_ofParts`).
-/

namespace Offside

/-! ## Static text -/

/-- No host code is opened in a text: neither an expression nor an instruction. -/
def Static (t : Text) : Prop := ¬"\x7b\x7b".toList <:+: t ∧ ¬"\x7b%".toList <:+: t

instance (t : Text) : Decidable (Static t) :=
  inferInstanceAs (Decidable (¬"\x7b\x7b".toList <:+: t ∧ ¬"\x7b%".toList <:+: t))

/-- No host code is opened by the first of two neighbouring characters. -/
def Unopened (a b : Char) : Prop := ¬(a = '\x7b' ∧ (b = '\x7b' ∨ b = '%'))

lemma static_iff_isChain {t : Text} : Static t ↔ t.IsChain Unopened := by
  constructor
  · rintro ⟨hexpression, hinstruction⟩
    refine (List.isChain_isInfix t).imp ?_
    rintro a b hab ⟨rfl, rfl | rfl⟩
    · exact hexpression hab
    · exact hinstruction hab
  · intro h
    have hpair : ∀ {a b : Char}, [a, b] <:+: t → Unopened a b := by
      rintro a b ⟨front, back, rfl⟩
      have hmiddle := (List.isChain_append.1 (List.isChain_append.1 h).1).2.1
      exact List.isChain_pair.1 hmiddle
    exact ⟨fun hopen => hpair hopen ⟨rfl, .inl rfl⟩, fun hopen => hpair hopen ⟨rfl, .inr rfl⟩⟩

lemma Static.of_isInfix {s t : Text} (h : Static t) (hst : s <:+: t) : Static s :=
  ⟨fun hopen => h.1 (hopen.trans hst), fun hopen => h.2 (hopen.trans hst)⟩

lemma static_of_notMem {t : Text} (h : '\x7b' ∉ t) : Static t :=
  ⟨fun hopen => h (hopen.subset (by decide)), fun hopen => h (hopen.subset (by decide))⟩

/-- Static texts can follow each other, unless host code is opened where they meet. -/
lemma Static.append {s t : Text} (hs : Static s) (ht : Static t)
    (hmeet : (∀ c ∈ s.getLast?, c ≠ '\x7b') ∨ ∀ c ∈ t.head?, c ≠ '\x7b' ∧ c ≠ '%') :
    Static (s ++ t) := by
  rw [static_iff_isChain] at *
  refine List.isChain_append.2 ⟨hs, ht, ?_⟩
  rintro a ha b hb ⟨hopen, hnext⟩
  rcases hmeet with hmeet | hmeet
  · exact hmeet a ha hopen
  · exact hnext.elim (hmeet b hb).1 (hmeet b hb).2

lemma mem_head?_append {s t : Text} {c : Char} (h : c ∈ (s ++ t).head?) :
    c ∈ s.head? ∨ c ∈ t.head? := by
  cases s with
  | nil => exact .inr h
  | cons d ds => exact .inl h

lemma mem_getLast?_append {s t : Text} {c : Char} (h : c ∈ (s ++ t).getLast?) :
    c ∈ s.getLast? ∨ c ∈ t.getLast? := by
  rw [List.getLast?_append] at h
  exact (Option.or_eq_some_iff.1 h).elim .inr fun h => .inl h.2

/-- A static text that any static text can follow. -/
structure Sealed (t : Text) : Prop where
  static : Static t
  last : ∀ c ∈ t.getLast?, c ≠ '\x7b'

lemma Sealed.append {s t : Text} (hs : Sealed s) (ht : Sealed t) : Sealed (s ++ t) where
  static := hs.static.append ht.static (.inl hs.last)
  last c hc := (mem_getLast?_append hc).elim (hs.last c) (ht.last c)

/-- A static text that opens no host code with what stands before or after it. -/
structure Closed (t : Text) : Prop extends Sealed t where
  first : ∀ c ∈ t.head?, c ≠ '\x7b' ∧ c ≠ '%'

namespace Closed

variable {s t : Text}

lemma nil : Closed [] := ⟨⟨static_of_notMem (by simp), by simp⟩, by simp⟩

lemma of_notMem (h : '\x7b' ∉ t) (hfirst : ∀ c ∈ t.head?, c ≠ '%') : Closed t where
  static := static_of_notMem h
  last _ hc hopen := h (hopen ▸ List.mem_of_getLast? hc)
  first c hc := ⟨fun hopen => h (hopen ▸ List.mem_of_head? hc), hfirst c hc⟩

lemma append (hs : Closed s) (ht : Closed t) : Closed (s ++ t) where
  toSealed := hs.toSealed.append ht.toSealed
  first c hc := (mem_head?_append hc).elim (hs.first c) (ht.first c)

end Closed

lemma Static.append_closed {s t : Text} (hs : Static s) (ht : Closed t) : Static (s ++ t) :=
  hs.append ht.static (.inr ht.first)

/-- Between two closed texts there is room for any static one. -/
lemma Static.enclosed {before t after : Text} (h : Static t) (hbefore : Closed before)
    (hafter : Closed after) (hne : before ≠ []) (hne' : after ≠ []) :
    Closed (before ++ t ++ after) where
  static := (hbefore.static.append h (.inl hbefore.last)).append_closed hafter
  last c hc := hafter.last c (by rwa [List.getLast?_append_of_ne_nil _ hne'] at hc)
  first c hc := hbefore.first c (by
    rwa [List.append_assoc, List.head?_append_of_ne_nil _ hne] at hc)

lemma Padding.closed {t : Text} (h : Padding t) : Closed t := by
  refine .of_notMem (fun hopen => ?_) fun c hc => ?_
  · rcases h _ hopen with hopen | hopen <;> cases hopen
  · rcases h c (List.mem_of_head? hc) with rfl | rfl <;> decide

lemma closed_flatMap {α : Type} {f : α → Text} {items : List α}
    (h : ∀ item ∈ items, Closed (f item)) : Closed (items.flatMap f) := by
  induction items with
  | nil => exact .nil
  | cons item items ih =>
      rw [List.flatMap_cons]
      exact (h item List.mem_cons_self).append
        (ih fun other hother => h other (List.mem_cons_of_mem _ hother))

/-! ## Options -/

/-- Pieces of a text whose first one begins it. -/
def PiecesOf (t : Text) (pieces : List Text) : Prop :=
  ∀ first rest, pieces = first :: rest → first <+: t ∧ ∀ piece ∈ rest, piece <:+: t

/-- A character more makes the first piece longer. -/
lemma PiecesOf.extend (c : Char) {cs : Text} {pieces : List Text} :
    PiecesOf cs pieces → PiecesOf (c :: cs) (match pieces with
      | [] => [[c]]
      | piece :: pieces => (c :: piece) :: pieces) := by
  intro h first rest heq
  cases pieces with
  | nil =>
      cases heq
      exact ⟨List.prefix_append [c] cs, by simp⟩
  | cons piece later =>
      cases heq
      obtain ⟨hpiece, hlater⟩ := h piece _ rfl
      exact ⟨(List.prefix_cons_inj c).2 hpiece, fun other hother =>
        (hlater other hother).trans (List.suffix_cons c cs).isInfix⟩

lemma PiecesOf.cut {c : Char} {cs : Text} {pieces : List Text} (h : PiecesOf cs pieces) :
    PiecesOf (c :: cs) ([] :: pieces) := by
  intro first rest heq
  cases heq
  refine ⟨List.nil_prefix, fun piece hpiece => ?_⟩
  cases pieces with
  | nil => cases hpiece
  | cons next later =>
      obtain ⟨hnext, hlater⟩ := h next later rfl
      refine List.IsInfix.trans ?_ (List.suffix_cons c cs).isInfix
      rcases List.mem_cons.1 hpiece with rfl | hpiece
      · exact hnext.isInfix
      · exact hlater piece hpiece

lemma piecesOf_splitUnquoted (separator : Char) (openQuote : Option Char) (t : Text) :
    PiecesOf t (splitUnquoted separator openQuote t) := by
  induction t generalizing openQuote with
  | nil =>
      intro first rest heq
      cases openQuote <;> cases heq <;> exact ⟨List.prefix_rfl, by simp⟩
  | cons c cs ih =>
      cases openQuote with
      | some mark => exact (ih (if c == mark then none else some mark)).extend c
      | none =>
          rw [splitUnquoted]
          split_ifs
          · exact (ih (some c)).extend c
          · exact (ih none).cut
          · exact (ih none).extend c

lemma isInfix_of_mem_splitUnquoted {separator : Char} {openQuote : Option Char} {t piece : Text}
    (h : piece ∈ splitUnquoted separator openQuote t) : piece <:+: t := by
  cases hsplit : splitUnquoted separator openQuote t with
  | nil => simp [hsplit] at h
  | cons first rest =>
      obtain ⟨hfirst, hrest⟩ := piecesOf_splitUnquoted separator openQuote t first rest hsplit
      rw [hsplit] at h
      rcases List.mem_cons.1 h with rfl | h
      · exact hfirst.isInfix
      · exact hrest piece h

lemma splitArrow_parts (t : Text) : (splitArrow t).1 <+: t ∧ (splitArrow t).2 <:+ t := by
  fun_induction splitArrow t with
  | case1 => exact ⟨List.prefix_rfl, List.suffix_rfl⟩
  | case2 value => exact ⟨List.nil_prefix, List.suffix_append ['=', '>'] value⟩
  | case3 c rest _ ih =>
      exact ⟨(List.prefix_cons_inj c).2 ih.1, ih.2.trans (List.suffix_cons c rest)⟩

lemma trimColons_isInfix (t : Text) : trimColons t <:+: t := by
  have hend : trimColons t <+: t.dropWhile (· == ':') := List.rdropWhile_prefix (· == ':') _
  exact hend.isInfix.trans (List.dropWhile_suffix _).isInfix

/-- The name and the value of an option are parts of the group it stands in. -/
lemma isInfix_of_mem_readOptions {group : Text} {option : Text × Text}
    (h : option ∈ readOptions group) : option.1 <:+: group ∧ option.2 <:+: group := by
  obtain ⟨written, hwritten, rfl⟩ := List.mem_map.1 (List.mem_filter.1 h).1
  have hpiece := isInfix_of_mem_splitUnquoted (List.mem_filter.1 hwritten).1
  obtain ⟨hname, hvalue⟩ := splitArrow_parts written
  exact ⟨((trimColons_isInfix _).trans (trim_isInfix _)).trans (hname.isInfix.trans hpiece),
    ((trimColons_isInfix _).trans (trim_isInfix _)).trans (hvalue.isInfix.trans hpiece)⟩

/-- A value that is written as an expression. -/
def isExpressionValue (value : Text) : Bool := (Text.trim value).head? == some '$'

/-- A value is an expression, or it is written as it stands in the line. -/
lemma renderValue_cases (value : Text) :
    (isExpressionValue value = true ∧
        ∃ code, code <:+: value ∧ renderValue value = outputMarks code)
      ∨ (isExpressionValue value = false ∧ renderValue value <:+: value) := by
  rw [renderValue]
  split
  · next code hcode =>
      have hpart : code <:+: value := by
        have htrim := trim_isInfix value
        rw [hcode] at htrim
        exact (List.suffix_cons '$' code).isInfix.trans htrim
      have hdollar : isExpressionValue value = true := by simp [isExpressionValue, hcode]
      exact .inl ⟨hdollar, _, (trim_isInfix code).trans hpart, rfl⟩
  · next hdollar =>
      right
      have hliteral : isExpressionValue value = false := by
        rw [isExpressionValue]
        cases hvalue : Text.trim value with
        | nil => rfl
        | cons c cs =>
            have hc : c ≠ '$' := by
              rintro rfl
              exact hdollar cs hvalue
            simpa using hc
      refine ⟨hliteral, ?_⟩
      cases hsingle : betweenQuotes? '\'' (Text.trim value) with
      | some inner => exact (isInfix_of_betweenQuotes? hsingle).trans (trim_isInfix value)
      | none =>
          cases hdouble : betweenQuotes? '"' (Text.trim value) with
          | some inner => exact (isInfix_of_betweenQuotes? hdouble).trans (trim_isInfix value)
          | none => exact trim_isInfix value

/-! ## Parts of a line -/

/-- Static text on one line. -/
structure Inline (t : Text) : Prop where
  static : Static t
  unbroken : '\n' ∉ t

namespace Inline

variable {s t : Text}

lemma of_isInfix (h : Inline t) (hst : s <:+: t) : Inline s :=
  ⟨h.static.of_isInfix hst, fun hmem => h.unbroken (hst.subset hmem)⟩

lemma append (hs : Inline s) (ht : Inline t) (hlast : ∀ c ∈ s.getLast?, c ≠ '\x7b') :
    Inline (s ++ t) := by
  refine ⟨hs.static.append ht.static (.inl hlast), ?_⟩
  rw [List.mem_append, not_or]
  exact ⟨hs.unbroken, ht.unbroken⟩

end Inline

namespace ElementParts

/-- The parts of a static line.  The head is static once its groups of options are taken out, the
rest stands in the line as it is. -/
structure Within (line : Text) (parts : ElementParts) : Prop where
  head : Inline parts.head
  groups : ∀ group ∈ parts.groups, group <:+: line
  content : parts.content <:+: line

lemma Within.addToHead {line rest t : Text} {parts : ElementParts} (h : parts.Within rest)
    (hrest : rest <:+: line) (ht : Inline t) (hlast : ∀ c ∈ t.getLast?, c ≠ '\x7b') :
    (parts.addToHead t).Within line where
  head := ht.append h.head hlast
  groups group hgroup := (h.groups group hgroup).trans hrest
  content := h.content.trans hrest

lemma Within.addGroup {line rest group : Text} {parts : ElementParts} (h : parts.Within rest)
    (hrest : rest <:+: line) (hgroup : group <:+: line) : (parts.addGroup group).Within line where
  head := h.head
  groups other hother := by
    rcases List.mem_cons.1 hother with rfl | hother
    · exact hgroup
    · exact (h.groups other hother).trans hrest
  content := h.content.trans hrest

end ElementParts

/-- In the head of a static line, a brace that begins no group stands between square brackets. -/
lemma within_of_splitHead {inTarget : Bool} {line : Text} {parts : ElementParts}
    (h : splitHead inTarget line = some parts) (hline : Inline line) : parts.Within line := by
  have hcut := headCut_of_splitHead h
  clear h
  have hempty : Inline [] := hline.of_isInfix List.nil_infix
  have hequals : Inline "=$" := ⟨by decide, by decide⟩
  induction hcut with
  | done => exact ⟨hempty, by simp, List.infix_rfl⟩
  | space content => exact ⟨hempty, by simp, List.infix_rfl⟩
  | equals content =>
      exact ⟨hequals.of_isInfix (List.prefix_append ['='] ['$']).isInfix, by simp,
        (List.suffix_cons '=' content).isInfix⟩
  | equalsDollar content =>
      exact ⟨hequals, by simp, (List.suffix_append ['=', '$'] content).isInfix⟩
  | @group group rest parts _ _ ih =>
      have hrest : rest <:+: '\x7b' :: (group ++ '\x7d' :: rest) :=
        ⟨'\x7b' :: group ++ ['\x7d'], [], by simp⟩
      have hgroup : group <:+: '\x7b' :: (group ++ '\x7d' :: rest) :=
        ⟨['\x7b'], '\x7d' :: rest, by simp⟩
      exact (ih (hline.of_isInfix hrest)).addGroup hrest hgroup
  | @brackets inner rest parts _ ih =>
      have hrest : rest <:+: '[' :: (inner ++ ']' :: rest) := ⟨'[' :: inner ++ [']'], [], by simp⟩
      have hinner : ['['] ++ inner ++ [']'] <:+: '[' :: (inner ++ ']' :: rest) :=
        ⟨[], rest, by simp⟩
      refine (ih (hline.of_isInfix hrest)).addToHead hrest (hline.of_isInfix hinner) fun d hd => ?_
      rw [List.getLast?_append_of_ne_nil _ (by decide)] at hd
      cases hd
      decide
  | @character c rest parts _ hbrace _ ih =>
      have hrest : rest <:+: c :: rest := (List.suffix_cons c rest).isInfix
      have hc : Inline [c] := hline.of_isInfix (List.prefix_append [c] rest).isInfix
      refine (ih (hline.of_isInfix hrest)).addToHead hrest hc fun d hd => ?_
      cases hd
      exact hbrace

/-- Groups of options and the content after them are parts of the text that they are taken off. -/
lemma isInfix_of_splitGroups {t content : Text} {groups : List Text}
    (h : splitGroups t = some (groups, content)) :
    (∀ group ∈ groups, group <:+: t) ∧ content <:+: t := by
  fun_induction splitGroups t generalizing groups content with
  | case1 t _ group rest hfound ih =>
      obtain ⟨⟨later, after⟩, hlater, heq⟩ := Option.map_eq_some_iff.1 h
      cases heq
      have hcut := eq_append_of_splitOnce? hfound
      have hrest : Text.trimStart rest <:+: t := by
        refine (List.dropWhile_suffix _).isInfix.trans ?_
        exact ⟨group ++ ['\x7d'], [], by simp [hcut]⟩
      obtain ⟨hgroups, hcontent⟩ := ih hlater
      refine ⟨fun other hother => ?_, hcontent.trans hrest⟩
      rcases List.mem_cons.1 hother with rfl | hother
      · refine (List.drop_suffix 1 group).isInfix.trans ?_
        exact ⟨[], '\x7d' :: rest, by simp [hcut]⟩
      · exact (hgroups other hother).trans hrest
  | case2 => cases h
  | case3 =>
      cases h
      exact ⟨by simp, List.infix_rfl⟩

lemma ElementParts.within_of_ofLine? {line : Text} {parts : ElementParts}
    (h : ElementParts.ofLine? line = some parts) (hline : Inline line) : parts.Within line := by
  simp only [ElementParts.ofLine?, Option.bind_eq_bind, Option.bind_eq_some_iff] at h
  obtain ⟨cut, hcut, ⟨groups, content⟩, hgroups, hparts⟩ := h
  cases hparts
  have hwithin := within_of_splitHead hcut hline
  have hrest : Text.trimStart cut.content <:+: line :=
    (List.dropWhile_suffix _).isInfix.trans hwithin.content
  obtain ⟨hlater, hcontent⟩ := isInfix_of_splitGroups hgroups
  refine ⟨hwithin.head, fun group hgroup => ?_, hcontent.trans hrest⟩
  rcases List.mem_append.1 hgroup with hgroup | hgroup
  · exact hwithin.groups group hgroup
  · exact (hlater group hgroup).trans hrest

/-! ## Attributes -/

/-- Where an attribute of an element comes from. -/
inductive AttributeFrom (settings : TemplateSettings) (groups : List Text)
    (tokens : List HeadToken) : Text × Text → Prop where
  | option {group : Text} {option : Text × Text} : group ∈ groups → option ∈ readOptions group →
      AttributeFrom settings groups tokens (option.1, renderValue option.2)
  | id {token : HeadToken} {name : Text} : token ∈ tokens → token.id? = some name →
      AttributeFrom settings groups tokens ("id", name)
  | classes : AttributeFrom settings groups tokens
      ("class", Text.join " " (tokens.filterMap HeadToken.className?))
  | target {token : HeadToken} {written name root : Text} : token ∈ tokens →
      token.target? = some written → name ∈ ["href".toList, "src".toList] →
      root ∈ [[], settings.scriptRoot, settings.imageRoot] →
      AttributeFrom settings groups tokens (name, targetAddress root written)
  | script : AttributeFrom settings groups tokens ("type", "text/javascript")
  | image : AttributeFrom settings groups tokens ("alt", [])

lemma Table.mem_ofList {α : Type} {values : List (Text × α)} {entry : Text × α}
    (h : entry ∈ Table.ofList values) : entry ∈ values := by
  have hfold : ∀ (values : List (Text × α)) (table : Table α),
      entry ∈ Table.insertAll values table → entry ∈ values ∨ entry ∈ table := by
    intro values
    induction values with
    | nil => exact fun table hentry => .inr hentry
    | cons value values ih =>
        intro table hentry
        rcases ih _ hentry with hentry | hentry
        · exact .inl (List.mem_cons_of_mem _ hentry)
        · rcases Table.mem_insert hentry with rfl | hentry
          · exact .inl List.mem_cons_self
          · exact .inr hentry
  exact (hfold values [] h).resolve_right (by simp)

section

variable {settings : TemplateSettings} {groups : List Text} {tokens : List HeadToken}

/-- Every attribute of a table comes from the element. -/
def AttributesFrom (settings : TemplateSettings) (groups : List Text) (tokens : List HeadToken)
    (table : Table Text) : Prop :=
  ∀ entry ∈ table, AttributeFrom settings groups tokens entry

lemma AttributesFrom.insert {table : Table Text} (h : AttributesFrom settings groups tokens table)
    {name value : Text} (hentry : AttributeFrom settings groups tokens (name, value)) :
    AttributesFrom settings groups tokens (Table.insert name value table) := by
  intro entry hmem
  rcases Table.mem_insert hmem with rfl | hmem
  · exact hentry
  · exact h entry hmem

lemma AttributesFrom.applyTarget {table : Table Text}
    (h : AttributesFrom settings groups tokens table) {token : HeadToken} {written : Text}
    (htoken : token ∈ tokens) (hwritten : token.target? = some written) (tag : Text) :
    AttributesFrom settings groups tokens (applyTarget settings tag written table) := by
  rw [Offside.applyTarget]
  split_ifs
  · exact h.insert (.target htoken hwritten (by simp) (by simp))
  · exact AttributesFrom.insert (h.insert (.target htoken hwritten (by simp) (by simp))) .script
  · have hsource : AttributesFrom settings groups tokens
        (Table.insert "src" (targetAddress settings.imageRoot written) table) :=
      h.insert (.target htoken hwritten (by simp) (by simp))
    dsimp only
    split_ifs
    · exact hsource
    · exact hsource.insert .image
  · exact h

lemma attributesFrom_options (settings : TemplateSettings) (groups : List Text)
    (tokens : List HeadToken) : AttributesFrom settings groups tokens (Table.ofList
      ((groups.flatMap readOptions).map fun (name, value) => (name, renderValue value))) := by
  intro entry hentry
  obtain ⟨option, hoption, rfl⟩ := List.mem_map.1 (Table.mem_ofList hentry)
  obtain ⟨group, hgroup, hoption⟩ := List.mem_flatMap.1 hoption
  exact .option hgroup hoption

/-- The attributes of an element come from its options, from the tokens of its head and from the
settings. -/
lemma attributesFrom_attributesOf (settings : TemplateSettings) (tag : Text) (groups : List Text)
    (tokens : List HeadToken) : AttributesFrom settings groups tokens
      (Element.attributesOf settings tag groups tokens) := by
  have hoptions := attributesFrom_options settings groups tokens
  have hid : ∀ {table : Table Text}, AttributesFrom settings groups tokens table →
      ∀ {name : Text}, (tokens.filterMap HeadToken.id?).getLast? = some name →
      AttributesFrom settings groups tokens (Table.insert "id" name table) := by
    intro table htable name hname
    obtain ⟨token, htoken, hid⟩ := List.mem_filterMap.1 (List.mem_of_getLast? hname)
    exact htable.insert (.id htoken hid)
  have hclass : ∀ {table : Table Text}, AttributesFrom settings groups tokens table →
      AttributesFrom settings groups tokens
        (if (tokens.filterMap HeadToken.className?).isEmpty then table
          else Table.insert "class" (Text.join " " (tokens.filterMap HeadToken.className?))
            table) := by
    intro table htable
    split_ifs
    · exact htable
    · exact htable.insert .classes
  rw [Element.attributesOf]
  dsimp only
  cases hids : (tokens.filterMap HeadToken.id?).getLast? with
  | none =>
      split
      · next written hwritten =>
          obtain ⟨token, htoken, htarget⟩ := List.mem_filterMap.1 (List.mem_of_getLast? hwritten)
          exact (hclass hoptions).applyTarget htoken htarget tag
      · exact hclass hoptions
  | some name =>
      split
      · next written hwritten =>
          obtain ⟨token, htoken, htarget⟩ := List.mem_filterMap.1 (List.mem_of_getLast? hwritten)
          exact (hclass (hid hoptions hids)).applyTarget htoken htarget tag
      · exact hclass (hid hoptions hids)

end

/-! ## Values of attributes -/

lemma unbroken_renderValue {value : Text} (h : '\n' ∉ value) : '\n' ∉ renderValue value := by
  rcases renderValue_cases value with ⟨-, code, hcode, heq⟩ | ⟨-, hpart⟩
  · rw [heq, outputMarks, List.mem_append, List.mem_append, not_or, not_or]
    exact ⟨⟨by decide, fun hmem => h (hcode.subset hmem)⟩, by decide⟩
  · exact fun hmem => h (hpart.subset hmem)

lemma unbroken_targetAddress {root written : Text} (hroot : '\n' ∉ root) (h : '\n' ∉ written) :
    '\n' ∉ targetAddress root written := by
  rw [targetAddress]
  split
  · next name hname =>
      rw [List.mem_append, not_or]
      refine ⟨hroot, unbroken_renderValue fun hmem => h ?_⟩
      exact (isInfix_of_namedTarget? hname).subset hmem
  · exact h

lemma static_renderValue {value : Text} (h : Static value)
    (hliteral : isExpressionValue value = false) : Static (renderValue value) := by
  rcases renderValue_cases value with ⟨hexpression, -⟩ | ⟨-, hpart⟩
  · rw [hliteral] at hexpression
    cases hexpression
  · exact h.of_isInfix hpart

lemma static_targetAddress {root written : Text} (hroot : Sealed root) (h : Static written)
    (hliteral : (namedTarget? written).any isExpressionValue = false) :
    Static (targetAddress root written) := by
  rw [targetAddress]
  split
  · next name hname =>
      have hvalue : isExpressionValue name = false := by simpa [hname] using hliteral
      exact hroot.static.append
        (static_renderValue (h.of_isInfix (isInfix_of_namedTarget? hname)) hvalue) (.inl hroot.last)
  · exact h

/-- Whether a value of an element is written as an expression. -/
def ElementParts.usesExpression (parts : ElementParts) : Bool :=
  ((parts.groups.flatMap readOptions).any fun option => isExpressionValue option.2) ||
    ((HeadToken.tokens parts.head).filterMap HeadToken.target?).any fun written =>
      (namedTarget? written).any isExpressionValue

/-- The directories of the settings are static, whatever name is put behind them. -/
structure TemplateSettings.StaticRoots (settings : TemplateSettings) : Prop where
  script : Sealed settings.scriptRoot
  image : Sealed settings.imageRoot

lemma TemplateSettings.StaticRoots.of_mem {settings : TemplateSettings} (h : settings.StaticRoots)
    {root : Text} (hroot : root ∈ [[], settings.scriptRoot, settings.imageRoot]) : Sealed root := by
  simp only [List.mem_cons, List.not_mem_nil, or_false] at hroot
  rcases hroot with rfl | rfl | rfl
  · exact Closed.nil.toSealed
  · exact h.script
  · exact h.image

namespace AttributeFrom

variable {settings : TemplateSettings} {line : Text} {parts : ElementParts} {entry : Text × Text}

/-- Of a token in a static line no more than the line itself is written. -/
lemma inline_payload (h : parts.Within line) {token : HeadToken}
    (htoken : token ∈ HeadToken.tokens parts.head) : Inline token.payload :=
  h.head.of_isInfix ((HeadToken.readFrom_tail_of_mem_tokens htoken).payload.trans
    (List.tail_suffix _).isInfix)

lemma inline_classes (h : parts.Within line) :
    Inline (Text.join " " ((HeadToken.tokens parts.head).filterMap HeadToken.className?)) := by
  have hnames : ∀ name ∈ (HeadToken.tokens parts.head).filterMap HeadToken.className?,
      Inline name := by
    intro name hname
    obtain ⟨token, htoken, hclass⟩ := List.mem_filterMap.1 hname
    rw [← HeadToken.payload_of_className? hclass]
    exact inline_payload h htoken
  have hspace : Inline [' '] := ⟨by decide, by decide⟩
  refine join_of_forall (c := ' ') ⟨by decide, by decide⟩ (fun s t hs ht => ?_) hnames
  have hlater : Inline ([' '] ++ t) := hspace.append ht (by simp)
  refine ⟨hs.static.append hlater.static (.inr (by simp)), ?_⟩
  rw [List.mem_append, not_or]
  exact ⟨hs.unbroken, hlater.unbroken⟩

/-- The name of an attribute is static. -/
lemma inline_name (h : AttributeFrom settings parts.groups (HeadToken.tokens parts.head) entry)
    (hline : Inline line) (hparts : parts.Within line) : Inline entry.1 := by
  have hfixed : ∀ name ∈ ["id".toList, "class".toList, "href".toList, "src".toList, "type".toList,
      "alt".toList], Static name ∧ '\n' ∉ name := by decide
  have hgiven : ∀ name ∈ ["id".toList, "class".toList, "href".toList, "src".toList, "type".toList,
      "alt".toList], Inline name := fun name hname => ⟨(hfixed name hname).1, (hfixed name hname).2⟩
  cases h with
  | option hgroup hoption =>
      exact hline.of_isInfix
        ((isInfix_of_mem_readOptions hoption).1.trans (hparts.groups _ hgroup))
  | id => exact hgiven _ (by simp)
  | classes => exact hgiven _ (by simp)
  | target _ _ hname _ =>
      simp only [List.mem_cons, List.not_mem_nil, or_false] at hname
      rcases hname with rfl | rfl <;> exact hgiven _ (by simp)
  | script => exact hgiven _ (by simp)
  | image => exact hgiven _ (by simp)

/-- The value of an attribute stands on one line. -/
lemma unbroken_value (h : AttributeFrom settings parts.groups (HeadToken.tokens parts.head) entry)
    (hline : Inline line) (hparts : parts.Within line)
    (hroots : '\n' ∉ settings.scriptRoot ∧ '\n' ∉ settings.imageRoot) : '\n' ∉ entry.2 := by
  cases h with
  | option hgroup hoption =>
      exact unbroken_renderValue (hline.of_isInfix
        ((isInfix_of_mem_readOptions hoption).2.trans (hparts.groups _ hgroup))).unbroken
  | id htoken hid =>
      rw [← HeadToken.payload_of_id? hid]
      exact (inline_payload hparts htoken).unbroken
  | classes => exact (inline_classes hparts).unbroken
  | @target token written name root htoken htarget _ hroot =>
      have hwritten : Inline written := by
        rw [← HeadToken.payload_of_target? htarget]
        exact inline_payload hparts htoken
      have hbroken : '\n' ∉ root := by
        simp only [List.mem_cons, List.not_mem_nil, or_false] at hroot
        rcases hroot with rfl | rfl | rfl
        · exact List.not_mem_nil
        · exact hroots.1
        · exact hroots.2
      exact unbroken_targetAddress hbroken hwritten.unbroken
  | script => decide
  | image => exact List.not_mem_nil

/-- The value of an attribute is static, unless it is written as an expression or the settings say
otherwise. -/
lemma static_value (h : AttributeFrom settings parts.groups (HeadToken.tokens parts.head) entry)
    (hline : Inline line) (hparts : parts.Within line) (hroots : settings.StaticRoots)
    (hliteral : parts.usesExpression = false) : Static entry.2 := by
  obtain ⟨hoptions, htargets⟩ := Bool.or_eq_false_iff.1 hliteral
  cases h with
  | option hgroup hoption =>
      have hvalue := hline.of_isInfix
        ((isInfix_of_mem_readOptions hoption).2.trans (hparts.groups _ hgroup))
      refine static_renderValue hvalue.static ?_
      simpa using List.any_eq_false.1 hoptions _ (List.mem_flatMap.2 ⟨_, hgroup, hoption⟩)
  | id htoken hid =>
      rw [← HeadToken.payload_of_id? hid]
      exact (inline_payload hparts htoken).static
  | classes => exact (inline_classes hparts).static
  | @target token written name root htoken htarget _ hroot =>
      have hwritten : Inline written := by
        rw [← HeadToken.payload_of_target? htarget]
        exact inline_payload hparts htoken
      refine static_targetAddress (hroots.of_mem hroot) hwritten.static ?_
      simpa using List.any_eq_false.1 htargets _ (List.mem_filterMap.2 ⟨_, htoken, htarget⟩)
  | script => decide
  | image => decide

end AttributeFrom

/-! ## Elements -/

namespace Element

/-- An element that opens no host code but in the values of its attributes. -/
structure Literal (e : Element) : Prop where
  tag : ∀ c ∈ e.tag, HeadToken.isTagChar c = true
  names : ∀ entry ∈ e.attributes, Inline entry.1
  values : ∀ entry ∈ e.attributes, '\n' ∉ entry.2
  object : e.object = none
  content : Inline e.content

variable {settings : TemplateSettings} {parts : ElementParts} {line : Text}

lemma attributesFrom_ofParts (settings : TemplateSettings) (parts : ElementParts) :
    AttributesFrom settings parts.groups (HeadToken.tokens parts.head)
      (ofParts settings parts).attributes :=
  attributesFrom_attributesOf settings _ parts.groups _

/-- With host code switched off, the element on a static line is literal. -/
lemma literal_ofParts (hembed : settings.embedCode = false)
    (hroots : '\n' ∉ settings.scriptRoot ∧ '\n' ∉ settings.imageRoot) (hline : Inline line)
    (hparts : parts.Within line) : (ofParts settings parts).Literal where
  tag := (tag_ofParts settings parts).2
  names entry hentry :=
    (attributesFrom_ofParts settings parts entry hentry).inline_name hline hparts
  values entry hentry :=
    (attributesFrom_ofParts settings parts entry hentry).unbroken_value hline hparts hroots
  object := by simp [ofParts, hembed]
  content := by
    have hcontent : (ofParts settings parts).content <:+: parts.content := by
      simp only [ofParts, elementContent, hembed, Bool.not_false, ↓reduceIte]
      split_ifs
      · exact List.nil_infix
      · exact List.infix_rfl
    exact hline.of_isInfix (hcontent.trans hparts.content)

lemma static_values_ofParts (hroots : settings.StaticRoots) (hline : Inline line)
    (hparts : parts.Within line) (hliteral : parts.usesExpression = false) :
    ∀ entry ∈ (ofParts settings parts).attributes, Static entry.2 := fun entry hentry =>
  (attributesFrom_ofParts settings parts entry hentry).static_value hline hparts hroots hliteral

namespace Literal

variable {e : Element}

lemma notMem_tag (h : e.Literal) {c : Char} (hc : HeadToken.isTagChar c = false) : c ∉ e.tag := by
  intro hmem
  rw [h.tag c hmem] at hc
  cases hc

lemma openTag_eq (h : e.Literal) : e.openTag
    = '<' :: e.tag ++ e.attributes.flatMap fun (name, value) => attributeText name value := by
  rw [openTag, h.object]
  simp

lemma unbroken_attributeText {name value : Text} (hname : '\n' ∉ name) (hvalue : '\n' ∉ value) :
    '\n' ∉ attributeText name value := by
  simp [attributeText, hname, hvalue]

lemma unbroken_openTag (h : e.Literal) : '\n' ∉ e.openTag := by
  rw [h.openTag_eq, List.cons_append, List.mem_cons, List.mem_append, not_or, not_or]
  refine ⟨by decide, h.notMem_tag (by decide), fun hmem => ?_⟩
  obtain ⟨entry, hentry, hmem⟩ := List.mem_flatMap.1 hmem
  exact unbroken_attributeText (h.names entry hentry).unbroken (h.values entry hentry) hmem

lemma unbroken_closeTag (h : e.Literal) : '\n' ∉ e.closeTag := by
  simp [closeTag, h.notMem_tag (c := '\n') (by decide)]

lemma closed_attributeText {name value : Text} (hname : Static name) (hvalue : Static value) :
    Closed (attributeText name value) := by
  have hfront : Closed ([' '] ++ name ++ "=\"".toList) :=
    hname.enclosed (.of_notMem (by decide) (by simp)) (.of_notMem (by decide) (by simp))
      (by simp) (by decide)
  exact hvalue.enclosed hfront (.of_notMem (by decide) (by simp)) (by simp) (by decide)

lemma closed_openTag (h : e.Literal) (hvalues : ∀ entry ∈ e.attributes, Static entry.2) :
    Closed e.openTag := by
  rw [h.openTag_eq]
  refine Closed.append ?_ (closed_flatMap fun entry hentry => ?_)
  · exact .of_notMem (by simp [h.notMem_tag (c := '\x7b') (by decide)]) (by simp)
  · exact closed_attributeText (h.names entry hentry).static (hvalues entry hentry)

lemma closed_closeTag (h : e.Literal) : Closed e.closeTag :=
  .of_notMem (by simp [closeTag, h.notMem_tag (c := '\x7b') (by decide)]) (by simp [closeTag])

/-- In the tag of a literal element host code is opened exactly if a value of an attribute opens it.
-/
lemma static_openTag_iff (h : e.Literal) :
    Static e.openTag ↔ ∀ entry ∈ e.attributes, Static entry.2 := by
  refine ⟨fun hstatic entry hentry => ?_, fun hvalues => (h.closed_openTag hvalues).static⟩
  rw [h.openTag_eq] at hstatic
  have htext : entry.2 <:+: attributeText entry.1 entry.2 :=
    ⟨[' '] ++ entry.1 ++ "=\"".toList, "\"".toList, by simp [attributeText]⟩
  have hall : attributeText entry.1 entry.2
      <:+: e.attributes.flatMap fun (name, value) => attributeText name value :=
    List.infix_of_mem_flatten (List.mem_map_of_mem hentry)
  exact hstatic.of_isInfix (htext.trans (hall.trans (List.suffix_append _ _).isInfix))

end Literal

end Element

end Offside
