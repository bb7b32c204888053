import Mathlib
import Offside.Proofs.OptionGroups

/-!
# Options with quoted values

An element line can have options with their values between quotes.  This file compares the element
that is read with what was written.

**Finding the group.**  A group of options is found by its braces, and these are looked for without
regard to quotes.  A group never holds a closing brace (`ElementParts.notMem_of_mem_groups`).

**What comes back.**  Without closing braces in the values, the line is cut as it was written
(`ofLine?_optionsLine_iff`) and all of it comes back (`readsBack_of_notMem`).

**What does not.**  A value with a closing brace is cut off there.  It could come back only as an
expression (`AttributeFrom.exists_expression`), but what is left of the group holds none
(`not_isExpressionValue_of_outputMarks`).  `Element.ofLine_optionsLine` puts both together.
-/

namespace Offside

/-! ## Tables -/

namespace Table

variable {α : Type}

lemma perm_insert {name : Text} {value : α} {table : Table α} (h : name ∉ table.map Prod.fst) :
    (insert name value table).Perm ((name, value) :: table) := by
  induction table with
  | nil => exact .rfl
  | cons entry table ih =>
      obtain ⟨known, old⟩ := entry
      rw [List.map_cons, List.mem_cons, not_or] at h
      have hknown : (known == name) = false := beq_false_of_ne (Ne.symm h.1)
      rw [insert, hknown, if_neg Bool.false_ne_true]
      split_ifs
      · exact .rfl
      · exact ((ih h.2).cons _).trans (.swap ..)

/-- With each name once, a table holds the values that it was made from and no others. -/
lemma perm_ofList {values : List (Text × α)} (h : (values.map Prod.fst).Nodup) :
    (ofList values).Perm values := by
  have hall : ∀ (values : List (Text × α)) (table : Table α),
      ((values ++ table).map Prod.fst).Nodup → (insertAll values table).Perm (values ++ table) := by
    intro values
    induction values with
    | nil => exact fun table _ => .rfl
    | cons value values ih =>
        intro table hnodup
        have hnew : value.1 ∉ table.map Prod.fst := by
          rw [List.cons_append, List.map_cons, List.nodup_cons] at hnodup
          exact fun hmem => hnodup.1 (by rw [List.map_append]; exact List.mem_append_right _ hmem)
        have hinsert : (insert value.1 value.2 table).Perm (value :: table) := perm_insert hnew
        have hmoved : (values ++ insert value.1 value.2 table).Perm (value :: values ++ table) :=
          (hinsert.append_left values).trans List.perm_middle
        exact (ih _ ((hmoved.map Prod.fst).nodup_iff.2 hnodup)).trans hmoved
  simpa [ofList] using hall values [] (by simpa using h)

end Table

/-! ## Finding the group -/

lemma splitHead_group {group : Text} (hgroup : '\x7d' ∉ group) (inTarget : Bool) (rest : Text) :
    splitHead inTarget ('\x7b' :: (group ++ '\x7d' :: rest))
      = (splitHead inTarget rest).map (·.addGroup group) := by
  have hfound := splitOnce?_append hgroup rest
  rw [splitHead.eq_def]
  simp only [show ('\x7b' == ' ') = false from rfl, show ('\x7b' == '@') = false from rfl,
    show ('\x7b' == '=') = false from rfl, beq_self_eq_true, Bool.false_and, Bool.false_eq_true,
    if_false, if_true]
  split
  · next found after hcut =>
      rw [hfound] at hcut
      cases hcut
      rfl
  · next hcut =>
      rw [hfound] at hcut
      cases hcut

namespace ElementParts

lemma groups_addToHead (t : Text) (parts : ElementParts) :
    (parts.addToHead t).groups = parts.groups := rfl

lemma notMem_of_splitHead {inTarget : Bool} {line : Text} {parts : ElementParts}
    (h : splitHead inTarget line = some parts) : ∀ group ∈ parts.groups, '\x7d' ∉ group := by
  have hcut := headCut_of_splitHead h
  clear h
  induction hcut with
  | done => simp
  | space => simp
  | equals => simp
  | equalsDollar => simp
  | group closed _ ih => exact List.forall_mem_cons.2 ⟨closed, ih⟩
  | brackets _ ih => rwa [groups_addToHead]
  | character _ _ _ ih => rwa [groups_addToHead]

lemma notMem_of_splitGroups {t content : Text} {groups : List Text}
    (h : splitGroups t = some (groups, content)) : ∀ group ∈ groups, '\x7d' ∉ group := by
  fun_induction splitGroups t generalizing groups content with
  | case1 t _ group rest hfound ih =>
      obtain ⟨⟨later, after⟩, hlater, heq⟩ := Option.map_eq_some_iff.1 h
      cases heq
      refine List.forall_mem_cons.2 ⟨fun hmem => ?_, ih hlater⟩
      exact notMem_of_splitOnce? hfound (List.mem_of_mem_drop hmem)
  | case2 => cases h
  | case3 =>
      cases h
      simp

/-- A group of options ends at the first closing brace. -/
lemma notMem_of_mem_groups {line : Text} {parts : ElementParts}
    (h : ElementParts.ofLine? line = some parts) : ∀ group ∈ parts.groups, '\x7d' ∉ group := by
  simp only [ElementParts.ofLine?, Option.bind_eq_bind, Option.bind_eq_some_iff] at h
  obtain ⟨cut, hcut, ⟨groups, content⟩, hgroups, hparts⟩ := h
  cases hparts
  intro group hgroup
  rcases List.mem_append.1 hgroup with hgroup | hgroup
  · exact notMem_of_splitHead hcut group hgroup
  · exact notMem_of_splitGroups hgroups group hgroup

end ElementParts

/-- Content that begins neither with white space nor with a brace. -/
def BeginsPlain (content : Text) : Prop :=
  ∀ c ∈ content.head?, Text.isBlank c = false ∧ c ≠ '\x7b'

lemma BeginsPlain.isContent {content : Text} (h : BeginsPlain content) : IsContent content where
  first c hc := (h c hc).1
  brace hbrace := absurd rfl (h _ hbrace).2

/-- A tag, a group that ends at its brace, and more of the head up to a space. -/
lemma ElementParts.ofLine?_group {tag group more content : Text}
    (htag : (HeadToken.tag tag).IsName) (hgroup : '\x7d' ∉ group)
    (hmore : ∀ c ∈ more, isHeadChar c = true) (hcontent : BeginsPlain content) :
    ElementParts.ofLine?
        ('%' :: tag ++ '\x7b' :: (group ++ '\x7d' :: (more ++ ' ' :: content)))
      = some ⟨'%' :: tag ++ more, [group], content⟩ := by
  have hcut : splitHead false
      ('%' :: tag ++ '\x7b' :: (group ++ '\x7d' :: (more ++ ' ' :: content)))
      = some ⟨'%' :: tag ++ more, [group], ' ' :: content⟩ := by
    have hhead : ∀ c ∈ '%' :: tag, isHeadChar c = true := HeadToken.isHeadChar_of_mem_written htag
    have hspace := splitHead_behindHead false (some content)
    rw [behindHead, Option.map_some, Option.getD_some] at hspace
    rw [splitHead_append hhead, splitHead_group hgroup, splitHead_append hmore, hspace]
    simp [addToHead, addGroup]
  exact ofLine?_of_splitHead hcut hcontent.isContent (trimStart_eq_self hcontent.isContent.first)

lemma mem_join_of_mem (sep : Text) {pieces : List Text} {piece : Text} (hpiece : piece ∈ pieces)
    {c : Char} (hc : c ∈ piece) : c ∈ Text.join sep pieces := by
  induction pieces with
  | nil => cases hpiece
  | cons first pieces ih =>
      cases pieces with
      | nil =>
          rw [List.mem_singleton.1 hpiece] at hc
          exact hc
      | cons next rest =>
          rw [join_cons_cons, List.mem_append, List.mem_append]
          rcases List.mem_cons.1 hpiece with rfl | hpiece
          · exact .inl (.inl hc)
          · exact .inr (ih hpiece)

/-- Only its value can bring a closing brace into an option. -/
lemma QuotedOption.Proper.mem_of_mem_opened {o : QuotedOption} (h : o.Proper) {inner : Text}
    (hmem : '\x7d' ∈ o.opened inner) : '\x7d' ∈ inner := by
  have hmark : '\x7d' ≠ o.mark := (h.mark.ne (by simp [IsQuoteMark])).symm
  have hname : '\x7d' ∉ o.name := fun hmem => absurd (h.name _ hmem) (by decide)
  simpa [opened, hmark, hname] using hmem

lemma QuotedOption.Proper.mem_written_iff {o : QuotedOption} (h : o.Proper) :
    '\x7d' ∈ o.written ↔ '\x7d' ∈ o.value := by
  constructor
  · intro hmem
    have hmark : '\x7d' ≠ o.mark := (h.mark.ne (by simp [IsQuoteMark])).symm
    simpa [hmark] using h.mem_of_mem_opened hmem
  · intro hmem
    simp [written, opened, hmem]

/-- Only a value can bring a closing brace into a group. -/
lemma notMem_optionsText_iff {options : List QuotedOption} (hoptions : ∀ o ∈ options, o.Proper) :
    '\x7d' ∉ optionsText options ↔ ∀ o ∈ options, '\x7d' ∉ o.value := by
  constructor
  · intro hnone o ho hmem
    have hwritten := (hoptions o ho).mem_written_iff.2 hmem
    exact hnone (mem_join_of_mem _ (List.mem_map_of_mem ho) hwritten)
  · intro hvalues hmem
    rcases mem_join hmem with ⟨piece, hpiece, hmem⟩ | hmem
    · obtain ⟨o, ho, rfl⟩ := List.mem_map.1 hpiece
      exact hvalues o ho ((hoptions o ho).mem_written_iff.1 hmem)
    · exact absurd hmem (by decide)

lemma notMem_optionsBefore {options : List QuotedOption} (hoptions : ∀ o ∈ options, o.Proper)
    (hvalues : ∀ o ∈ options, '\x7d' ∉ o.value) : '\x7d' ∉ optionsBefore options := by
  intro hmem
  obtain ⟨o, ho, hmem⟩ := List.mem_flatMap.1 hmem
  rcases List.mem_append.1 hmem with hmem | hmem
  · exact hvalues o ho ((hoptions o ho).mem_written_iff.1 hmem)
  · exact absurd hmem (by decide)

/-! ## What comes back -/

/-- An element line with a tag, a group of options, and content. -/
def optionsLine (tag : Text) (options : List QuotedOption) (content : Text) : Text :=
  '%' :: tag ++ '\x7b' :: optionsText options ++ '\x7d' :: ' ' :: content

/-- The attribute that an option gives. -/
def QuotedOption.given (o : QuotedOption) : Text × Text := (o.name, o.value)

/-- A line comes back as it was written: the element has the tag, the content, and the options with
their values as its attributes. -/
def ReadsBack (settings : TemplateSettings) (number : Nat) (tag : Text)
    (options : List QuotedOption) (content : Text) : Prop :=
  ∃ e, Element.ofLine settings number (optionsLine tag options content) = .ok e ∧ e.tag = tag ∧
    e.content = content ∧ e.attributes.Perm (options.map QuotedOption.given)

section

variable {settings : TemplateSettings} {number : Nat} {tag : Text} {options : List QuotedOption}
  {content : Text}

/-- The options are found as they were written unless a value holds a closing brace. -/
lemma ofLine?_optionsLine_iff (htag : (HeadToken.tag tag).IsName)
    (hoptions : ∀ o ∈ options, o.Proper) (hcontent : BeginsPlain content) :
    ElementParts.ofLine? (optionsLine tag options content)
        = some ⟨'%' :: tag, [optionsText options], content⟩
      ↔ ∀ o ∈ options, '\x7d' ∉ o.value := by
  rw [← notMem_optionsText_iff hoptions]
  constructor
  · intro hparts
    exact ElementParts.notMem_of_mem_groups hparts _ List.mem_cons_self
  · intro hgroup
    have hparts := @ElementParts.ofLine?_group _ _ [] _ htag hgroup (by simp) hcontent
    simpa [optionsLine] using hparts

/-- Then all of the line comes back. -/
lemma readsBack_of_notMem (htag : (HeadToken.tag tag).IsName)
    (hoptions : ∀ o ∈ options, o.Proper) (hnodup : (options.map QuotedOption.name).Nodup)
    (hcontent : BeginsPlain content)
    (hvalues : ∀ o ∈ options, o.name ≠ [] ∧ '\x7d' ∉ o.value) :
    ReadsBack settings number tag options content := by
  have hparts := (ofLine?_optionsLine_iff htag hoptions hcontent).2 fun o ho => (hvalues o ho).2
  have htokens : HeadToken.tokens ('%' :: tag) = [.tag tag] := by
    have hwritten := @HeadToken.tokens_written_append _ htag [] (by simp [HeadToken.EndsName])
    simpa [HeadToken.written, HeadToken.tokens] using hwritten
  refine ⟨Element.ofParts settings ⟨'%' :: tag, [optionsText options], content⟩, ?_, ?_, ?_, ?_⟩
  · rw [Element.ofLine, hparts]
  · simp [Element.ofParts, htokens, HeadToken.tag?]
  · simp [Element.ofParts, htokens, elementContent]
  · have hattributes : (Element.ofParts settings
        ⟨'%' :: tag, [optionsText options], content⟩).attributes
          = Table.ofList (options.map QuotedOption.given) := by
      have hread := readOptions_optionsText hoptions fun o ho => (hvalues o ho).1
      simp only [Element.ofParts, Element.attributesOf, htokens, HeadToken.id?,
        HeadToken.className?, HeadToken.target?, List.filterMap_cons, List.filterMap_nil,
        List.getLast?_nil, List.isEmpty_nil, if_true, List.flatMap_cons, List.flatMap_nil,
        List.append_nil, hread, List.map_map]
      exact congrArg Table.ofList (List.map_congr_left fun o ho =>
        Prod.ext rfl (renderValue_mark (hoptions o ho).mark o.value))
    rw [hattributes]
    refine Table.perm_ofList ?_
    rw [List.map_map]
    exact hnodup

/-- With a value that ends in two closing braces, the group ends before them. -/
lemma optionsLine_eq_append (tag : Text) (first : List QuotedOption) {o : QuotedOption}
    (ho : o.Proper) (rest : List QuotedOption) {inner : Text}
    (hvalue : o.value = inner ++ "\x7d\x7d") (hcontent : BeginsPlain content) :
    ∃ more after, (∀ c ∈ more, isHeadChar c = true) ∧ BeginsPlain after ∧
      optionsLine tag (first ++ o :: rest) content
        = '%' :: tag ++ '\x7b' :: ((optionsBefore first ++ o.opened inner) ++
            '\x7d' :: (more ++ ' ' :: after)) := by
  have hmark : isHeadChar o.mark = true := by
    rcases ho.mark with hmark | hmark <;> rw [hmark] <;> decide
  have hwritten : o.written = o.opened inner ++ ['\x7d', '\x7d', o.mark] := by
    simp [QuotedOption.written, QuotedOption.opened, hvalue]
  cases rest with
  | nil =>
      have htext : optionsText [o] = o.written := rfl
      refine ⟨['\x7d', o.mark, '\x7d'], content, ?_, hcontent, ?_⟩
      · simp [hmark, show isHeadChar '\x7d' = true from rfl]
      · rw [optionsLine, optionsText_append, htext, hwritten]
        simp
  | cons next rest =>
      have htext : optionsText (o :: next :: rest)
          = o.written ++ ',' :: ' ' :: optionsText (next :: rest) := by
        have hpair := optionsText_append [o] next rest
        simpa [optionsBefore] using hpair
      have hcolon : ∃ later, optionsText (next :: rest) = ':' :: later := by
        cases rest with
        | nil => exact ⟨_, rfl⟩
        | cons => exact ⟨_, rfl⟩
      obtain ⟨later, hlater⟩ := hcolon
      refine ⟨['\x7d', o.mark, ','], ':' :: later ++ '\x7d' :: ' ' :: content, ?_, ?_, ?_⟩
      · simp [hmark, show isHeadChar '\x7d' = true from rfl, show isHeadChar ',' = true from rfl]
      · rintro c ⟨⟩
        exact ⟨rfl, by decide⟩
      · rw [optionsLine, optionsText_append, htext, hwritten, hlater]
        simp

end

/-! ## What does not come back -/

/-- The names of ids and classes are made of the characters for names. -/
lemma HeadToken.isNameChar_of_mem_tokens {head name : Text} {token : HeadToken}
    (h : token ∈ tokens head) (hname : token.id? = some name ∨ token.className? = some name) :
    ∀ c ∈ name, isNameChar c = true := by
  fun_induction tokens head with
  | case1 => simp at h
  | case2 c rest ih =>
      rcases List.mem_append.1 h with h | h
      · have hread := Option.mem_toList.1 h
        unfold read at hread
        split_ifs at hread
        · obtain ⟨rfl, -⟩ := eq_of_mem_ofName hread
          simp [id?, className?] at hname
        · obtain ⟨rfl, -⟩ := eq_of_mem_ofName hread
          rcases hname with ⟨⟨⟩⟩ | ⟨⟨⟩⟩
          exact fun c hc => List.mem_takeWhile_imp hc
        · obtain ⟨rfl, -⟩ := eq_of_mem_ofName hread
          rcases hname with ⟨⟨⟩⟩ | ⟨⟨⟩⟩
          exact fun c hc => List.mem_takeWhile_imp hc
        · split at hread
          · cases hread
            simp [id?, className?] at hname
          · cases hread
        all_goals
          cases hread
          simp [id?, className?] at hname
      · exact ih h

/-- An attribute that holds a closing brace, though no group of options does, is written as an
expression. -/
lemma AttributeFrom.exists_expression {settings : TemplateSettings} {groups : List Text}
    {head name value : Text}
    (h : AttributeFrom settings groups (HeadToken.tokens head) (name, value))
    (hgroups : ∀ group ∈ groups, '\x7d' ∉ group) (hname : name ≠ "href" ∧ name ≠ "src")
    (hvalue : '\x7d' ∈ value) :
    ∃ group ∈ groups, ∃ option ∈ readOptions group, isExpressionValue option.2 = true ∧
      ∃ code, '\x7d' ∉ code ∧ value = outputMarks code := by
  cases h with
  | @option group option hgroup hoption =>
      have hpart := (isInfix_of_mem_readOptions hoption).2
      rcases renderValue_cases option.2 with ⟨hexpression, code, hcode, heq⟩ | ⟨-, hliteral⟩
      · refine ⟨group, hgroup, option, hoption, hexpression, code, fun hmem => ?_, heq⟩
        exact hgroups group hgroup ((hcode.trans hpart).subset hmem)
      · exact absurd ((hliteral.trans hpart).subset hvalue) (hgroups group hgroup)
  | id htoken hid =>
      exact absurd (HeadToken.isNameChar_of_mem_tokens htoken (.inl hid) _ hvalue) (by decide)
  | classes =>
      rcases mem_join hvalue with ⟨given, hgiven, hmem⟩ | hmem
      · obtain ⟨token, htoken, hclass⟩ := List.mem_filterMap.1 hgiven
        exact absurd (HeadToken.isNameChar_of_mem_tokens htoken (.inr hclass) _ hmem) (by decide)
      · exact absurd hmem (by decide)
  | target _ _ hgiven =>
      simp only [List.mem_cons, List.not_mem_nil, or_false] at hgiven
      exact absurd hgiven (not_or.2 hname)
  | script => exact absurd hvalue (by decide)
  | image => exact absurd hvalue (by decide)

/-- Every attribute has a name. -/
lemma AttributeFrom.name_ne_nil {settings : TemplateSettings} {groups : List Text}
    {tokens : List HeadToken} {entry : Text × Text}
    (h : AttributeFrom settings groups tokens entry) : entry.1 ≠ [] := by
  cases h with
  | option _ hoption => simpa using (List.mem_filter.1 hoption).2
  | target _ _ hgiven =>
      simp only [List.mem_cons, List.not_mem_nil, or_false] at hgiven
      rcases hgiven with rfl | rfl <;> simp
  | id | classes | script | image => simp

/-- Where the first value with a closing brace is an expression in its braces, the group ends before
them, and holds no expression. -/
lemma not_isExpressionValue_of_outputMarks {tag : Text} (htag : (HeadToken.tag tag).IsName)
    {first rest : List QuotedOption} {o : QuotedOption} (hfirst : ∀ p ∈ first, p.Proper)
    (hvalues : ∀ p ∈ first, '\x7d' ∉ p.value) (ho : o.Proper) {code : Text} (hcode : '\x7d' ∉ code)
    (hvalue : o.value = outputMarks code) {content : Text} (hcontent : BeginsPlain content)
    {parts : ElementParts}
    (hparts : ElementParts.ofLine? (optionsLine tag (first ++ o :: rest) content) = some parts) :
    ∀ group ∈ parts.groups, ∀ option ∈ readOptions group, isExpressionValue option.2 = false := by
  obtain ⟨inner, hinner, hends⟩ : ∃ inner : Text, '\x7d' ∉ inner ∧
      o.value = inner ++ "\x7d\x7d" := by
    refine ⟨"\x7b\x7b " ++ code ++ [' '], ?_, ?_⟩
    · simp [hcode]
    · simp [hvalue, outputMarks]
  have hmark : o.mark ∉ inner := fun hmem => ho.value (by simp [hends, hmem])
  obtain ⟨more, after, hmore, hafter, hline⟩ :=
    optionsLine_eq_append tag first ho rest hends hcontent
  have hgroup : '\x7d' ∉ optionsBefore first ++ o.opened inner := by
    rw [List.mem_append, not_or]
    exact ⟨notMem_optionsBefore hfirst hvalues, fun hmem => hinner (ho.mem_of_mem_opened hmem)⟩
  rw [hline, ElementParts.ofLine?_group htag hgroup hmore hafter] at hparts
  cases hparts
  intro group hgroup option hoption
  rw [List.mem_singleton.1 hgroup] at hoption
  exact not_isExpressionValue_of_mem_readOptions hfirst ho hmark hoption

section

variable {settings : TemplateSettings} {number : Nat} {tag : Text} {options : List QuotedOption}
  {content : Text}

/-- What comes back are attributes of the parts that the line is cut into. -/
lemma ReadsBack.exists_parts (h : ReadsBack settings number tag options content) :
    ∃ parts, ElementParts.ofLine? (optionsLine tag options content) = some parts ∧
      ∀ o ∈ options, AttributeFrom settings parts.groups (HeadToken.tokens parts.head)
        (o.name, o.value) := by
  obtain ⟨e, hread, -, -, hattributes⟩ := h
  cases hparts : ElementParts.ofLine? (optionsLine tag options content) with
  | none =>
      rw [Element.ofLine, hparts] at hread
      cases hread
  | some parts =>
      rw [Element.ofLine, hparts] at hread
      cases hread
      refine ⟨parts, rfl, fun o ho => ?_⟩
      exact Element.attributesFrom_ofParts settings parts _
        (hattributes.mem_iff.2 (List.mem_map_of_mem ho))

/-- A value with a closing brace does not come back. -/
lemma ReadsBack.notMem_value (h : ReadsBack settings number tag options content)
    (htag : (HeadToken.tag tag).IsName) (hoptions : ∀ o ∈ options, o.Proper)
    (hcontent : BeginsPlain content)
    (hnames : ∀ o ∈ options, o.name ≠ "href" ∧ o.name ≠ "src") :
    ∀ o ∈ options, '\x7d' ∉ o.value := by
  obtain ⟨parts, hparts, hfrom⟩ := h.exists_parts
  -- The first value with a brace could come back as an expression only, and there is none.
  by_contra hbrace
  obtain ⟨o, hfound⟩ : ∃ o, options.find? (fun o => '\x7d' ∈ o.value) = some o := by
    rw [← Option.isSome_iff_exists, List.find?_isSome]
    simpa using hbrace
  obtain ⟨hmem, first, rest, rfl, hfirst⟩ := List.find?_eq_some_iff_append.1 hfound
  have ho : o ∈ first ++ o :: rest := by simp
  obtain ⟨group, hgroup, option, hoption, hexpression, code, hcode, hvalue⟩ :=
    (hfrom o ho).exists_expression (ElementParts.notMem_of_mem_groups hparts) (hnames o ho)
      (by simpa using hmem)
  have hnone := not_isExpressionValue_of_outputMarks htag (fun p hp => hoptions p (by simp [hp]))
    (fun p hp => by simpa using hfirst p hp) (hoptions o ho) hcode hvalue hcontent hparts
  rw [hnone group hgroup option hoption] at hexpression
  cases hexpression

end

/-- **Quotes protect all of a value but its closing braces.**  Take a tag, options with different
names and values in quotes of either kind, and content that begins neither with white space nor with
a brace.  The line with them is cut into the tag, the text of the options and the content exactly if
no value holds a closing brace.  In this case, if each option has a name, the element has the tag,
the content, and the options with their values as its attributes and no others, whatever the
settings.  Otherwise it has not, unless an option has a name that a target gives to an attribute. -/
theorem Element.ofLine_optionsLine (settings : TemplateSettings) (number : Nat) {tag : Text}
    (htag : (HeadToken.tag tag).IsName) {options : List QuotedOption}
    (hoptions : ∀ o ∈ options, o.Proper) (hdistinct : (options.map QuotedOption.name).Nodup)
    {content : Text} (hcontent : BeginsPlain content) :
    (ElementParts.ofLine? (optionsLine tag options content)
        = some ⟨'%' :: tag, [optionsText options], content⟩
      ↔ ∀ o ∈ options, '\x7d' ∉ o.value) ∧
    ((∀ o ∈ options, o.name ≠ [] ∧ '\x7d' ∉ o.value) →
      ReadsBack settings number tag options content) ∧
    ((∀ o ∈ options, o.name ≠ "href" ∧ o.name ≠ "src") →
      ReadsBack settings number tag options content →
      ∀ o ∈ options, o.name ≠ [] ∧ '\x7d' ∉ o.value) := by
  refine ⟨ofLine?_optionsLine_iff htag hoptions hcontent,
    readsBack_of_notMem htag hoptions hdistinct hcontent, fun hnames hread o ho => ⟨?_, ?_⟩⟩
  · obtain ⟨parts, -, hfrom⟩ := hread.exists_parts
    exact (hfrom o ho).name_ne_nil
  · exact hread.notMem_value htag hoptions hcontent hnames o ho

/-- Options whose values hold what has a meaning without quotes. -/
def crowdedOptions : List QuotedOption :=
  [⟨"title".toList, "a, :b => $c: 'd' \x7be @f=[ ".toList, '"'⟩,
    ⟨"href".toList, "$say \"hi\", => :".toList, '\''⟩, ⟨"data-x_1".toList, [], '"'⟩]

/-- An option whose value holds a closing brace. -/
def bracedOption : QuotedOption := ⟨"title".toList, "x\x7dy".toList, '"'⟩

theorem Element.ofLine_optionsLine_crowdedOptions :
    (HeadToken.tag "h:r".toList).IsName ∧ (∀ o ∈ crowdedOptions, o.Proper) ∧
    bracedOption.Proper ∧ (crowdedOptions.map QuotedOption.name).Nodup ∧
    BeginsPlain "= c \x7d".toList ∧
    optionsLine "h:r".toList crowdedOptions "= c \x7d".toList
      = ("%h:r\x7b:title => \"a, :b => $c: 'd' \x7be @f=[ \", :href => '$say \"hi\", => :', " ++
          ":data-x_1 => \"\"\x7d = c \x7d").toList ∧
    ReadsBack .standard 1 "h:r".toList crowdedOptions "= c \x7d".toList ∧
    ¬ReadsBack .standard 1 "h:r".toList [bracedOption] "= c \x7d".toList ∧
    Element.ofLine .standard 1 (optionsLine "h:r".toList [bracedOption] "= c \x7d".toList)
      = .ok ⟨"h:ry".toList, [("title".toList, "\"x".toList)], none, "= c \x7d".toList, false⟩ := by
  have htag : (HeadToken.tag "h:r".toList).IsName :=
    ⟨by decide, List.all_eq_true.1 (by decide)⟩
  have hcrowded : ∀ o ∈ crowdedOptions, o.Proper := by
    simp only [crowdedOptions, List.forall_mem_cons]
    exact ⟨⟨List.all_eq_true.1 (by decide), .inr rfl, by decide⟩,
      ⟨List.all_eq_true.1 (by decide), .inl rfl, by decide⟩,
      ⟨List.all_eq_true.1 (by decide), .inr rfl, by decide⟩, by simp⟩
  have hbraced : bracedOption.Proper :=
    ⟨List.all_eq_true.1 (by decide), .inr rfl, by decide⟩
  have hdistinct : (crowdedOptions.map QuotedOption.name).Nodup := by decide
  have hcontent : BeginsPlain "= c \x7d".toList := by
    rintro c ⟨⟩
    exact ⟨rfl, by decide⟩
  have hread := Element.ofLine_optionsLine .standard 1 htag hcrowded hdistinct hcontent
  have hfail := Element.ofLine_optionsLine .standard 1 htag (List.forall_mem_singleton.2 hbraced)
    (by simp) hcontent
  refine ⟨htag, hcrowded, hbraced, hdistinct, hcontent, by decide +kernel, ?_, ?_,
    by decide +kernel⟩
  · refine hread.2.1 ?_
    simp [crowdedOptions]
  · intro hback
    have hvalue := hfail.2.2 (by simp [bracedOption]) hback bracedOption List.mem_cons_self
    simp [bracedOption] at hvalue

end Offside
