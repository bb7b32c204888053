import Mathlib
import Offside.Proofs.Layout

/-!
# The parts of an element

What an element is written from comes from its line, and from three texts of the settings.  If the
line has no brackets, braces and per cent signs but for the one that a tag begins with, then the
parts of the element have none either.

**Head.**  A line without braces is its head followed by its content (`cutFrom_of_splitHead`), and
what a token of the head holds stands after the first character of the head
(`HeadToken.readFrom_tail_of_mem_tokens`).

**Attributes and content.**  So the attributes hold nothing that would end the tag
(`safeAttributes_attributesOf`), and the content nothing that would begin another
(`calm_elementContent`).
-/

namespace Offside

/-! ## Characters -/

/-- A character that means nothing in markup: no bracket, brace or per cent sign. -/
def isProse (c : Char) : Bool := !"<>\x7b\x7d%".toList.contains c

lemma ne_of_isProse {c d : Char} (hc : isProse c = true) (hd : isProse d = false) : c ≠ d := by
  rintro rfl
  rw [hc] at hd
  exact absurd hd (by decide)

/-- A text that means nothing in markup. -/
def Prose (t : Text) : Prop := ∀ c ∈ t, isProse c = true

/-- A text that does not end a tag. -/
def TagSafe (t : Text) : Prop := '>' ∉ t

lemma Prose.mono {s t : Text} (h : Prose t) (hst : s ⊆ t) : Prose s := fun c hc => h c (hst hc)

lemma Prose.append {s t : Text} (hs : Prose s) (ht : Prose t) : Prose (s ++ t) := by
  intro c hc
  rcases List.mem_append.1 hc with hc | hc
  · exact hs c hc
  · exact ht c hc

lemma Prose.not_mem {t : Text} (h : Prose t) {c : Char} (hc : isProse c = false) : c ∉ t :=
  fun hmem => ne_of_isProse (h c hmem) hc rfl

lemma Prose.tame {t : Text} (h : Prose t) : Tame t := fun c hc =>
  ⟨ne_of_isProse (h c hc) (by decide), ne_of_isProse (h c hc) (by decide)⟩

lemma Prose.tagSafe {t : Text} (h : Prose t) : TagSafe t := h.not_mem (by decide)

lemma Prose.neutral {t : Text} (h : Prose t) : Neutral t :=
  h.tame.calm.neutral fun c hc => ne_of_isProse (h c (List.mem_of_getLast? hc)) (by decide)

instance (t : Text) : Decidable (TagSafe t) := inferInstanceAs (Decidable ('>' ∉ t))

lemma TagSafe.mono {s t : Text} (h : TagSafe t) (hst : s ⊆ t) : TagSafe s :=
  fun hmem => h (hst hmem)

lemma TagSafe.append {s t : Text} (hs : TagSafe s) (ht : TagSafe t) : TagSafe (s ++ t) := by
  rw [TagSafe, List.mem_append, not_or]
  exact ⟨hs, ht⟩

lemma TagSafe.trim {t : Text} (h : TagSafe t) : TagSafe (Text.trim t) :=
  h.mono fun _ hc => mem_of_mem_trim hc

lemma tame_of_all {t : Text} (h : (t.all fun c => c != '<' && c != '%') = true) : Tame t := by
  intro c hc
  simpa using List.all_eq_true.1 h c hc

lemma tagSafe_outputMarks {code : Text} (h : TagSafe code) : TagSafe (outputMarks code) :=
  (TagSafe.append (by decide) h).append (by decide)

lemma tame_outputMarks {code : Text} (h : Tame code) : Tame (outputMarks code) :=
  ((tame_of_all (by decide)).append h).append (tame_of_all (by decide))

lemma getLast?_outputMarks (code : Text) : (outputMarks code).getLast? = some '\x7d' := by
  rw [outputMarks, List.getLast?_append_of_ne_nil _ (by decide)]
  rfl

/-! ## The head of a line -/

/-- Cutting at the first separator takes nothing away but the separator. -/
lemma eq_append_of_splitOnce? {sep : Char} {t before after : Text}
    (h : Text.splitOnce? sep t = some (before, after)) : t = before ++ sep :: after := by
  induction t generalizing before with
  | nil => simp [Text.splitOnce?] at h
  | cons c cs ih =>
      rw [Text.splitOnce?] at h
      split_ifs at h with hc
      · obtain ⟨rfl, rfl⟩ := Prod.mk.inj (Option.some.inj h)
        rw [hc]
        rfl
      · obtain ⟨⟨first, rest⟩, hsplit, hpair⟩ := Option.map_eq_some_iff.1 h
        obtain ⟨rfl, rfl⟩ := Prod.mk.inj hpair
        rw [ih hsplit]
        rfl

lemma notMem_of_splitOnce? {sep : Char} {t before after : Text}
    (h : Text.splitOnce? sep t = some (before, after)) : sep ∉ before := by
  induction t generalizing before with
  | nil => simp [Text.splitOnce?] at h
  | cons c t ih =>
      rw [Text.splitOnce?] at h
      split_ifs at h with hc
      · cases h
        exact List.not_mem_nil
      · obtain ⟨⟨first, rest⟩, hsplit, hpair⟩ := Option.map_eq_some_iff.1 h
        cases hpair
        rw [List.mem_cons, not_or]
        exact ⟨Ne.symm hc, ih hsplit⟩

/-- The ways to cut a line where its head ends. -/
inductive HeadCut : Text → ElementParts → Prop
  | done : HeadCut [] ⟨[], [], []⟩
  | space (content : Text) : HeadCut (' ' :: content) ⟨[], [], ' ' :: content⟩
  | equals (content : Text) : HeadCut ('=' :: content) ⟨"=", [], content⟩
  | equalsDollar (content : Text) : HeadCut ('=' :: '$' :: content) ⟨"=$", [], content⟩
  | group {group rest : Text} {parts : ElementParts} (closed : '\x7d' ∉ group)
      (later : HeadCut rest parts) :
      HeadCut ('\x7b' :: (group ++ '\x7d' :: rest)) (parts.addGroup group)
  | brackets {inner rest : Text} {parts : ElementParts} (later : HeadCut rest parts) :
      HeadCut ('[' :: (inner ++ ']' :: rest)) (parts.addToHead ("[" ++ inner ++ "]"))
  | character {c : Char} {rest : Text} {parts : ElementParts} (space : c ≠ ' ')
      (brace : c ≠ '\x7b') (later : HeadCut rest parts) :
      HeadCut (c :: rest) (parts.addToHead [c])

lemma headCut_of_splitHead {inTarget : Bool} {line : Text} {parts : ElementParts}
    (h : splitHead inTarget line = some parts) : HeadCut line parts := by
  induction hlength : line.length using Nat.strong_induction_on
    generalizing inTarget line parts with
  | _ n ih =>
  subst hlength
  cases line with
  | nil =>
      rw [splitHead] at h
      cases h
      exact .done
  | cons c rest =>
      have hcharacter : ∀ {target : Bool}, (c == ' ') ≠ true → (c == '\x7b') ≠ true →
          (splitHead target rest).map (·.addToHead [c]) = some parts →
          HeadCut (c :: rest) parts := by
        intro target hspace hbrace hcut
        obtain ⟨later, hlater, rfl⟩ := Option.map_eq_some_iff.1 hcut
        exact .character (by simpa using hspace) (by simpa using hbrace)
          (ih _ (Nat.lt_succ_self _) hlater rfl)
      rw [splitHead.eq_def] at h
      simp only at h
      split_ifs at h with hspace htarget hequals hbrace hbracket
      · obtain rfl := beq_iff_eq.1 hspace
        cases h
        exact .space rest
      · refine hcharacter hspace ?_ h
        rw [beq_iff_eq.1 htarget]
        decide
      · obtain rfl := beq_iff_eq.1 (Bool.and_eq_true_iff.1 hequals).1
        split at h
        · cases h
          exact .equalsDollar _
        · cases h
          exact .equals rest
      · obtain rfl := beq_iff_eq.1 hbrace
        split at h
        · next group after hfound =>
            obtain ⟨later, hlater, rfl⟩ := Option.map_eq_some_iff.1 h
            have hshort := Nat.lt_succ_of_lt (length_of_splitOnce? hfound)
            rw [eq_append_of_splitOnce? hfound]
            exact .group (notMem_of_splitOnce? hfound) (ih _ hshort hlater rfl)
        · cases h
      · obtain rfl := beq_iff_eq.1 hbracket
        split at h
        · next inner after hfound =>
            obtain ⟨later, hlater, rfl⟩ := Option.map_eq_some_iff.1 h
            have hshort := Nat.lt_succ_of_lt (length_of_splitOnce? hfound)
            rw [eq_append_of_splitOnce? hfound]
            exact .brackets (ih _ hshort hlater rfl)
        · exact hcharacter hspace hbrace h
      · exact hcharacter hspace hbrace h

namespace ElementParts

/-- The parts of a line that has no groups of options: its head and its content. -/
structure CutFrom (line : Text) (parts : ElementParts) : Prop where
  groups : parts.groups = []
  eq_append : line = parts.head ++ parts.content
  /-- Only a space at the beginning leaves no head. -/
  head_ne : ∀ c ∈ line.head?, c ≠ ' ' → parts.head ≠ []

lemma CutFrom.addToHead {rest : Text} {parts : ElementParts} (h : parts.CutFrom rest) {t : Text}
    (ht : t ≠ []) : (parts.addToHead t).CutFrom (t ++ rest) where
  groups := h.groups
  eq_append := by
    rw [h.eq_append]
    simp [ElementParts.addToHead]
  head_ne := by simp [ElementParts.addToHead, ht]

end ElementParts

/-- A line without braces is its head and its content. -/
lemma cutFrom_of_splitHead {inTarget : Bool} {line : Text} {parts : ElementParts}
    (h : splitHead inTarget line = some parts) (hbrace : '\x7b' ∉ line) : parts.CutFrom line := by
  have hcut := headCut_of_splitHead h
  clear h
  induction hcut with
  | done => exact ⟨rfl, rfl, by simp⟩
  | space content =>
      refine ⟨rfl, rfl, fun d hd hspace => ?_⟩
      cases hd
      exact absurd rfl hspace
  | equals content => exact ⟨rfl, rfl, by simp⟩
  | equalsDollar content => exact ⟨rfl, rfl, by simp⟩
  -- A group of options would begin with a brace, and there is none.
  | group => exact absurd List.mem_cons_self hbrace
  | @brackets inner rest parts _ ih =>
      have hrest := ih fun hmem => hbrace (by simp [hmem])
      simpa using hrest.addToHead (t := "[" ++ inner ++ "]") (by simp)
  | character _ _ _ ih =>
      have hrest := ih fun hmem => hbrace (List.mem_cons_of_mem _ hmem)
      exact hrest.addToHead (List.cons_ne_nil _ [])

lemma splitGroups_eq {content : Text} (h : '\x7b' ∉ content) :
    splitGroups content = some ([], content) := by
  have hstart : startsGroup content = false := by
    cases content with
    | nil => rfl
    | cons c cs =>
        have hc : c ≠ '\x7b' := fun hc => h (hc ▸ List.mem_cons_self)
        unfold startsGroup
        split <;> simp_all
  rw [splitGroups, if_neg (by rw [hstart]; exact Bool.false_ne_true)]

/-- Without braces all that a line holds stands after its first character. -/
lemma ElementParts.subset_tail_of_ofLine? {line : Text} {parts : ElementParts}
    (h : ElementParts.ofLine? line = some parts) (hbrace : '\x7b' ∉ line)
    (hstart : TemplateLine.startsElement line = true) :
    parts.groups = [] ∧ parts.head.tail ⊆ line.tail ∧ parts.content ⊆ line.tail := by
  simp only [ElementParts.ofLine?, Option.bind_eq_bind, Option.bind_eq_some_iff] at h
  obtain ⟨cut, hcut, ⟨groups, content⟩, hgroups, hparts⟩ := h
  cases hparts
  have hfrom := cutFrom_of_splitHead hcut hbrace
  have hrest : Text.trimStart cut.content ⊆ cut.content := (List.dropWhile_suffix _).subset
  have hplain : '\x7b' ∉ Text.trimStart cut.content := by
    intro hmem
    rw [hfrom.eq_append] at hbrace
    exact hbrace (List.mem_append_right _ (hrest hmem))
  rw [splitGroups_eq hplain] at hgroups
  cases hgroups
  have hne : cut.head ≠ [] := by
    cases line with
    | nil => simp [TemplateLine.startsElement] at hstart
    | cons c cs =>
        refine hfrom.head_ne c rfl ?_
        rintro rfl
        exact absurd hstart (by simp [TemplateLine.startsElement])
  obtain ⟨c, head, hhead⟩ := List.exists_cons_of_ne_nil hne
  have hline := hfrom.eq_append
  rw [hhead] at hline
  refine ⟨by simp [hfrom.groups], ?_, ?_⟩
  · rw [hline, hhead]
    exact List.subset_append_left _ _
  · rw [hline]
    exact List.Subset.trans hrest (List.subset_append_right _ _)

/-! ## Tokens -/

namespace HeadToken

/-- What a token holds. -/
def payload : HeadToken → Text
  | tag name => name
  | id name => name
  | className name => name
  | object code => code
  | target written => written
  | _ => []

/-- A token that was read from a text: what it holds is part of the text, and the name of a tag is
one. -/
structure ReadFrom (source : Text) (token : HeadToken) : Prop where
  payload : token.payload <:+: source
  tagName : ∀ name ∈ token.tag?, name ≠ [] ∧ ∀ c ∈ name, isTagChar c = true

lemma ReadFrom.mono {s t : Text} {token : HeadToken} (h : token.ReadFrom s) (hst : s <:+: t) :
    token.ReadFrom t :=
  ⟨h.payload.trans hst, h.tagName⟩

lemma ofName_suffix (make : Text → HeadToken) (isPart : Char → Bool) (t : Text) :
    (ofName make isPart t).2 <:+ t := by
  rw [ofName]
  split
  · exact List.suffix_refl _
  · exact List.dropWhile_suffix _

/-- What is left after a token is the end of the text. -/
lemma read_suffix (c : Char) (rest : Text) : (read c rest).2 <:+ rest := by
  unfold read
  split_ifs
  · exact ofName_suffix ..
  · exact ofName_suffix ..
  · exact ofName_suffix ..
  · split
    · next code after hcode =>
        rw [eq_append_of_splitOnce? hcode]
        exact ⟨code ++ [']'], by simp⟩
    · exact List.nil_suffix
  · exact List.dropWhile_suffix _
  all_goals exact List.suffix_refl _

lemma eq_of_mem_ofName {make : Text → HeadToken} {isPart : Char → Bool} {t : Text}
    {token : HeadToken} (h : token ∈ (ofName make isPart t).1) :
    token = make (t.takeWhile isPart) ∧ t.takeWhile isPart ≠ [] := by
  rw [ofName] at h
  split at h
  · cases h
  · next hne =>
      cases h
      exact ⟨rfl, fun hempty => hne (by rw [hempty]; rfl)⟩

lemma readFrom_of_mem_read {c : Char} {rest : Text} {token : HeadToken}
    (h : token ∈ (read c rest).1) : token.ReadFrom rest := by
  have htake : ∀ p : Char → Bool, rest.takeWhile p <:+: rest := fun p =>
    (List.takeWhile_prefix p).isInfix
  have hempty : ([] : Text) <:+: rest := List.nil_infix
  unfold read at h
  split_ifs at h
  · obtain ⟨rfl, hne⟩ := eq_of_mem_ofName h
    refine ⟨htake _, fun name hname => ?_⟩
    cases hname
    exact ⟨hne, fun c hc => List.mem_takeWhile_imp hc⟩
  · obtain ⟨rfl, -⟩ := eq_of_mem_ofName h
    exact ⟨htake _, by simp [tag?]⟩
  · obtain ⟨rfl, -⟩ := eq_of_mem_ofName h
    exact ⟨htake _, by simp [tag?]⟩
  · split at h
    · next code after hcode =>
        cases h
        refine ⟨?_, by simp [tag?]⟩
        rw [eq_append_of_splitOnce? hcode]
        exact (trim_isInfix code).trans (List.prefix_append _ _).isInfix
    · cases h
  · cases h
    exact ⟨htake _, by simp [tag?]⟩
  · cases h
    exact ⟨hempty, by simp [tag?]⟩
  · cases h
    exact ⟨hempty, by simp [tag?]⟩
  · cases h
    exact ⟨hempty, by simp [tag?]⟩
  · cases h

/-- What a token of a head holds stands after the first character of the head. -/
lemma readFrom_tail_of_mem_tokens {head : Text} {token : HeadToken} (h : token ∈ tokens head) :
    token.ReadFrom head.tail := by
  fun_induction tokens head with
  | case1 => simp at h
  | case2 c rest ih =>
      rcases List.mem_append.1 h with h | h
      · exact readFrom_of_mem_read (Option.mem_toList.1 h)
      · exact (ih h).mono ((List.tail_suffix _).trans (read_suffix c rest)).isInfix

end HeadToken

/-! ## Attributes -/

lemma isInfix_of_betweenQuotes? {mark : Char} {t inner : Text}
    (h : betweenQuotes? mark t = some inner) : inner <:+: t := by
  unfold betweenQuotes? at h
  split at h
  · next first second rest =>
      split_ifs at h
      cases h
      exact (List.dropLast_prefix _).isInfix.trans (List.suffix_cons first _).isInfix
  · cases h

lemma tagSafe_renderValue {value : Text} (h : TagSafe value) : TagSafe (renderValue value) := by
  rw [renderValue]
  split
  · next code hcode =>
      have hdollar := h.trim
      rw [hcode] at hdollar
      exact tagSafe_outputMarks (hdollar.mono (List.subset_cons_self _ _)).trim
  · cases hsingle : betweenQuotes? '\'' (Text.trim value) with
    | some inner => exact h.trim.mono (isInfix_of_betweenQuotes? hsingle).subset
    | none =>
        cases hdouble : betweenQuotes? '"' (Text.trim value) with
        | some inner => exact h.trim.mono (isInfix_of_betweenQuotes? hdouble).subset
        | none => exact h.trim

/-- What a target names is part of it. -/
lemma isInfix_of_namedTarget? {written name : Text} (h : namedTarget? written = some name) :
    name <:+: written := by
  obtain ⟨⟨before, after⟩, hsplit, rfl⟩ := Option.map_eq_some_iff.1 h
  rw [eq_append_of_splitOnce? hsplit]
  exact (trim_isInfix after).trans ⟨before ++ ['='], [], by simp⟩

lemma tagSafe_targetAddress {root written : Text} (hroot : TagSafe root) (h : TagSafe written) :
    TagSafe (targetAddress root written) := by
  rw [targetAddress]
  split
  · next name hname =>
      exact hroot.append (tagSafe_renderValue (h.mono (isInfix_of_namedTarget? hname).subset))
  · exact h

/-- A table of attributes that do not end the tag. -/
def SafeAttributes (table : Table Text) : Prop :=
  ∀ entry ∈ table, TagSafe entry.1 ∧ TagSafe entry.2

lemma Table.mem_insert {α : Type} {name : Text} {value : α} {table : Table α} {entry : Text × α}
    (h : entry ∈ Table.insert name value table) : entry = (name, value) ∨ entry ∈ table := by
  induction table with
  | nil => exact Or.inl (List.mem_singleton.1 h)
  | cons first rest ih =>
      rw [Table.insert] at h
      split_ifs at h
      · rcases List.mem_cons.1 h with h | h
        · exact Or.inl h
        · exact Or.inr (List.mem_cons_of_mem _ h)
      · rcases List.mem_cons.1 h with h | h
        · exact Or.inl h
        · exact Or.inr h
      · rcases List.mem_cons.1 h with h | h
        · exact Or.inr (h ▸ List.mem_cons_self)
        · exact (ih h).imp id (List.mem_cons_of_mem _)

lemma SafeAttributes.insert {table : Table Text} (h : SafeAttributes table) {name value : Text}
    (hname : TagSafe name) (hvalue : TagSafe value) :
    SafeAttributes (Table.insert name value table) := by
  intro entry hentry
  rcases Table.mem_insert hentry with rfl | hentry
  · exact ⟨hname, hvalue⟩
  · exact h entry hentry

/-- The texts of the settings that are written into elements do not interfere with tags. -/
structure TemplateSettings.KeepsTags (settings : TemplateSettings) : Prop where
  translate : Calm settings.translateFunction
  script : TagSafe settings.scriptRoot
  image : TagSafe settings.imageRoot

lemma SafeAttributes.applyTarget {settings : TemplateSettings} (hsettings : settings.KeepsTags)
    {written : Text} (hwritten : TagSafe written) {table : Table Text} (h : SafeAttributes table)
    (tag : Text) : SafeAttributes (applyTarget settings tag written table) := by
  rw [Offside.applyTarget]
  split_ifs
  · exact h.insert (by decide) (tagSafe_targetAddress (by decide) hwritten)
  · refine SafeAttributes.insert (h.insert (by decide) ?_)
      (by decide) (by decide)
    exact tagSafe_targetAddress hsettings.script hwritten
  · have hsource : SafeAttributes
        (Table.insert "src" (targetAddress settings.imageRoot written) table) :=
      h.insert (by decide) (tagSafe_targetAddress hsettings.image hwritten)
    dsimp only
    split_ifs
    · exact hsource
    · exact hsource.insert (by decide) (by decide)
  · exact h

namespace HeadToken

lemma payload_of_id? {token : HeadToken} {name : Text} (h : token.id? = some name) :
    token.payload = name := by
  cases token <;> simp_all [id?, payload]

lemma payload_of_className? {token : HeadToken} {name : Text} (h : token.className? = some name) :
    token.payload = name := by
  cases token <;> simp_all [className?, payload]

lemma payload_of_object? {token : HeadToken} {code : Text} (h : token.object? = some code) :
    token.payload = code := by
  cases token <;> simp_all [object?, payload]

lemma payload_of_target? {token : HeadToken} {written : Text} (h : token.target? = some written) :
    token.payload = written := by
  cases token <;> simp_all [target?, payload]

/-- Tokens that hold nothing that ends a tag give nothing that does. -/
lemma tagSafe_of_mem_filterMap {tokens : List HeadToken} {part : HeadToken → Option Text}
    (hpart : ∀ {token : HeadToken} {t : Text}, part token = some t → token.payload = t)
    (h : ∀ token ∈ tokens, TagSafe token.payload) {t : Text} (ht : t ∈ tokens.filterMap part) :
    TagSafe t := by
  obtain ⟨token, htoken, hsome⟩ := List.mem_filterMap.1 ht
  rw [← hpart hsome]
  exact h token htoken

end HeadToken

lemma safeAttributes_id {tokens : List HeadToken}
    (h : ∀ token ∈ tokens, TagSafe token.payload) :
    SafeAttributes (match (tokens.filterMap HeadToken.id?).getLast? with
      | some id => Table.insert "id" id []
      | none => []) := by
  have hempty : SafeAttributes [] := by simp [SafeAttributes]
  split
  · next id hlast =>
      exact hempty.insert (by decide)
        (HeadToken.tagSafe_of_mem_filterMap HeadToken.payload_of_id? h
          (List.mem_of_getLast? hlast))
  · exact hempty

/-- The attributes of an element without options come from the tokens of its head. -/
lemma safeAttributes_attributesOf {settings : TemplateSettings} (hsettings : settings.KeepsTags)
    {tokens : List HeadToken} (h : ∀ token ∈ tokens, TagSafe token.payload) (tag : Text) :
    SafeAttributes (Element.attributesOf settings tag [] tokens) := by
  have hid := safeAttributes_id h
  have hclasses : TagSafe (Text.join " " (tokens.filterMap HeadToken.className?)) := by
    intro hmem
    rcases mem_join hmem with ⟨name, hname, hmem⟩ | hmem
    · exact HeadToken.tagSafe_of_mem_filterMap HeadToken.payload_of_className? h hname hmem
    · exact absurd hmem (by decide)
  have hclass := hid.insert (show TagSafe "class" by decide) hclasses
  rw [Element.attributesOf]
  split
  · next written hlast =>
      refine SafeAttributes.applyTarget hsettings ?_ ?_ tag
      · exact HeadToken.tagSafe_of_mem_filterMap HeadToken.payload_of_target? h
          (List.mem_of_getLast? hlast)
      · split_ifs
        · exact hid
        · exact hclass
  · split_ifs
    · exact hid
    · exact hclass

/-! ## Content -/

lemma mem_literalPieces {piece t part : Text} (h : part ∈ literalPieces piece t) {c : Char}
    (hc : c ∈ part) : c ∈ piece ∨ c ∈ t := by
  induction t generalizing piece with
  | nil => exact Or.inl (List.mem_singleton.1 h ▸ hc)
  | cons d ds ih =>
      rw [literalPieces] at h
      split_ifs at h
      · rcases List.mem_cons.1 h with rfl | h
        · exact Or.inl hc
        · rcases ih h with hd | hds
          · exact Or.inr (List.mem_singleton.1 hd ▸ List.mem_cons_self)
          · exact Or.inr (List.mem_cons_of_mem _ hds)
      · rcases ih h with hd | hds
        · rcases List.mem_append.1 hd with hd | hd
          · exact Or.inl hd
          · exact Or.inr (List.mem_singleton.1 hd ▸ List.mem_cons_self)
        · exact Or.inr (List.mem_cons_of_mem _ hds)

lemma tame_quotePiece {piece : Text} (h : Tame piece) : Tame (quotePiece piece) := by
  have hmark : ∀ mark ∈ quoteMarks, mark ≠ '<' ∧ mark ≠ '%' := by simp [quoteMarks]
  have hfound : (quoteMarks.find? fun mark => !piece.contains mark).getD '"' ∈ quoteMarks := by
    cases hfind : quoteMarks.find? fun mark => !piece.contains mark with
    | none => exact List.mem_cons_self
    | some mark => exact List.mem_of_find?_eq_some hfind
  intro c hc
  rw [quotePiece, List.cons_append, List.mem_cons, List.mem_append, List.mem_singleton] at hc
  rcases hc with rfl | hc | rfl
  · exact hmark _ hfound
  · exact h c hc
  · exact hmark _ hfound

lemma tame_quoteLiteral {t : Text} (h : Tame t) : Tame (quoteLiteral t) := by
  intro c hc
  rcases mem_join hc with ⟨piece, hpiece, hc⟩ | hc
  · obtain ⟨part, hpart, rfl⟩ := List.mem_map.1 hpiece
    have htame : Tame part := by
      intro d hd
      rcases mem_literalPieces hpart hd with hd | hd
      · cases hd
      · exact h d hd
    exact tame_quotePiece htame c hc
  · exact tame_of_all (t := " ~ ") (by decide) c hc

lemma calm_outputMarks {code : Text} (h : Calm code) : Calm (outputMarks code) := by
  have hopen : Calm ("\x7b\x7b " ++ code) :=
    (tame_of_all (by decide)).calm.append h (Or.inl fun c hc => by cases hc; decide)
  exact hopen.append (tame_of_all (by decide)).calm (Or.inr fun c hc => by cases hc; decide)

/-- The content of an element is prose, or an expression between its marks. -/
lemma calm_elementContent {settings : TemplateSettings} (hsettings : settings.KeepsTags)
    (hembed : settings.embedCode = true) {content : Text} (h : Prose content)
    (isExpression isTranslated : Bool) :
    Calm (elementContent settings isExpression isTranslated content) ∧
      ∀ c ∈ (elementContent settings isExpression isTranslated content).getLast?, c ≠ '\x7b' := by
  have hmarked : ∀ {code : Text}, Calm code →
      Calm (outputMarks code) ∧ ∀ c ∈ (outputMarks code).getLast?, c ≠ '\x7b' := by
    intro code hcode
    refine ⟨calm_outputMarks hcode, fun c hc => ?_⟩
    rw [getLast?_outputMarks] at hc
    cases hc
    decide
  have htranslated : ∀ {argument : Text}, Tame argument →
      Calm (settings.translateFunction ++ "(text=" ++ argument ++ ")") := by
    intro argument hargument
    have hcall : Tame ("(text=" ++ argument ++ ")") :=
      ((tame_of_all (by decide)).append hargument).append (tame_of_all (by decide))
    have hall := hsettings.translate.append hcall.calm (Or.inr fun c hc => by cases hc; decide)
    simpa only [List.append_assoc] using hall
  rw [elementContent, hembed, Bool.not_true, if_neg Bool.false_ne_true]
  split_ifs
  · exact hmarked (htranslated h.tame)
  · exact hmarked (htranslated (tame_quoteLiteral h.tame))
  · exact hmarked h.tame.calm
  · exact ⟨h.tame.calm, fun c hc => (h.neutral.last c hc).2⟩

end Offside
