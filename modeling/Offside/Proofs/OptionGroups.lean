import Mathlib
import Offside.Proofs.ElementHeads
import Offside.Proofs.StaticElements

/-!
# Groups of options

A group of options is cut at its commas, each option is cut at its arrow, and a value loses the
quotes around it.  This file tells what is read of a group whose values stand between quotes.

**Cutting at commas.**  Between quotes nothing separates, so an option with its quotes closed is
taken over whole (`QuotedOption.Proper.splitUnquoted_written_append`), and a quote that stays open
hides all that follows (`QuotedOption.Proper.splitUnquoted_opened_eq`).  So a group is cut into its
options (`splitUnquoted_pieces`).

**One option.**  The first arrow stands behind the name, and the quotes keep the value from being
trimmed (`QuotedOption.Proper.readOption_written`) and from being taken for an expression
(`renderValue_mark`).

**A group.**  What is read are the names and the values that were written
(`readOptions_optionsText`).  If the last option is cut off in its value, none is an expression
(`not_isExpressionValue_of_mem_readOptions`).
-/

namespace Offside

/-! ## Characters of names -/

lemma HeadToken.isBlank_of_isTagChar {c : Char} (h : isTagChar c = true) :
    Text.isBlank c = false := by
  have hrange : (48 ≤ c.toNat ∧ c.toNat ≤ 58) ∨ (65 ≤ c.toNat ∧ c.toNat ≤ 90) ∨
      (97 ≤ c.toNat ∧ c.toNat ≤ 122) ∨ c.toNat = 95 ∨ c.toNat = 45 := by
    simp only [isTagChar, isNameChar, Char.isAlphanum, Char.isAlpha, Char.isUpper, Char.isLower,
      Char.isDigit, Bool.or_eq_true, Bool.and_eq_true, decide_eq_true_eq, beq_iff_eq] at h
    rcases h with ((((h | h) | h) | rfl) | rfl) | rfl
    · exact .inr (.inl h)
    · exact .inr (.inr (.inl h))
    · exact .inl ⟨h.1, h.2.trans (by decide)⟩
    all_goals decide
  simp only [Text.isBlank, Bool.or_eq_false_iff, Bool.and_eq_false_iff, decide_eq_false_iff_not,
    beq_eq_false_iff_ne]
  omega

/-! ## Cutting at commas -/

/-- Put a text in front of the first piece. -/
def prependTo (t : Text) : List Text → List Text
  | [] => [t]
  | piece :: pieces => (t ++ piece) :: pieces

lemma prependTo_prependTo (s t : Text) (pieces : List Text) :
    prependTo s (prependTo t pieces) = prependTo (s ++ t) pieces := by
  cases pieces with
  | nil => rfl
  | cons piece pieces => simp [prependTo]

lemma prependTo_ne_nil (t : Text) (pieces : List Text) : prependTo t pieces ≠ [] := by
  cases pieces <;> exact List.cons_ne_nil _ _

/-- The two quotes that a value can stand between. -/
def IsQuoteMark (c : Char) : Prop := c = '\'' ∨ c = '"'

lemma IsQuoteMark.isBlank {mark : Char} (h : IsQuoteMark mark) : Text.isBlank mark = false := by
  rcases h with rfl | rfl <;> decide

lemma IsQuoteMark.beq_colon {mark : Char} (h : IsQuoteMark mark) : (mark == ':') = false := by
  rcases h with rfl | rfl <;> decide

lemma IsQuoteMark.ne {mark c : Char} (h : IsQuoteMark mark) (hc : ¬IsQuoteMark c) : mark ≠ c := by
  rintro rfl
  exact hc h

section Split

variable {separator mark : Char} {t : Text} (c : Char) (rest : Text)

lemma splitUnquoted_none_cons :
    splitUnquoted separator none (c :: rest)
      = if c == '\'' || c == '"' then prependTo [c] (splitUnquoted separator (some c) rest)
        else if c == separator then [] :: splitUnquoted separator none rest
        else prependTo [c] (splitUnquoted separator none rest) := by
  rw [splitUnquoted]
  rfl

/-- Between quotes only the same quote counts. -/
lemma splitUnquoted_some_cons :
    splitUnquoted separator (some mark) (c :: rest)
      = prependTo [c] (splitUnquoted separator (if c == mark then none else some mark) rest) := by
  rw [splitUnquoted]
  rfl

lemma prependTo_nil (openQuote : Option Char) :
    prependTo [] (splitUnquoted separator openQuote rest)
      = splitUnquoted separator openQuote rest := by
  have hne : splitUnquoted separator openQuote rest ≠ [] := by
    cases rest with
    | nil => simp [splitUnquoted]
    | cons c rest =>
        cases openQuote with
        | some mark =>
            rw [splitUnquoted_some_cons]
            exact prependTo_ne_nil _ _
        | none =>
            rw [splitUnquoted_none_cons]
            split_ifs
            · exact prependTo_ne_nil _ _
            · exact List.cons_ne_nil _ _
            · exact prependTo_ne_nil _ _
  obtain ⟨piece, pieces, hpieces⟩ := List.exists_cons_of_ne_nil hne
  rw [hpieces]
  rfl

lemma splitUnquoted_plain_append (ht : ∀ c ∈ t, ¬IsQuoteMark c ∧ c ≠ separator) :
    splitUnquoted separator none (t ++ rest)
      = prependTo t (splitUnquoted separator none rest) := by
  induction t with
  | nil => rw [List.nil_append, prependTo_nil]
  | cons c t ih =>
      obtain ⟨⟨hquote, hseparator⟩, ht⟩ := List.forall_mem_cons.1 ht
      rw [List.cons_append, splitUnquoted_none_cons, if_neg (by simpa [IsQuoteMark] using hquote),
        if_neg (by simpa using hseparator), ih ht]
      exact prependTo_prependTo [c] t _

lemma splitUnquoted_mark_cons (hmark : IsQuoteMark mark) :
    splitUnquoted separator none (mark :: rest)
      = prependTo [mark] (splitUnquoted separator (some mark) rest) := by
  rw [splitUnquoted_none_cons, if_pos (by simpa [IsQuoteMark] using hmark)]

lemma splitUnquoted_quoted_append (ht : mark ∉ t) :
    splitUnquoted separator (some mark) (t ++ rest)
      = prependTo t (splitUnquoted separator (some mark) rest) := by
  induction t with
  | nil => rw [List.nil_append, prependTo_nil]
  | cons c t ih =>
      rw [List.mem_cons, not_or] at ht
      rw [List.cons_append, splitUnquoted_some_cons, if_neg (by simpa using Ne.symm ht.1), ih ht.2]
      exact prependTo_prependTo [c] t _

lemma splitUnquoted_close_cons :
    splitUnquoted separator (some mark) (mark :: rest)
      = prependTo [mark] (splitUnquoted separator none rest) := by
  rw [splitUnquoted_some_cons, if_pos (beq_self_eq_true mark)]

end Split

/-! ## Options as they are written -/

/-- An option whose value stands between quotes. -/
structure QuotedOption where
  name : Text
  value : Text
  /-- The quote on both sides of the value. -/
  mark : Char
  deriving Repr, DecidableEq

namespace QuotedOption

/-- The name is made of the characters for names, and the value does not hold its own quote. -/
structure Proper (o : QuotedOption) : Prop where
  name : ∀ c ∈ o.name, HeadToken.isNameChar c = true
  mark : IsQuoteMark o.mark
  value : o.mark ∉ o.value

/-- An option up to where its value begins, and then any text. -/
def opened (o : QuotedOption) (inner : Text) : Text := ':' :: o.name ++ " => " ++ o.mark :: inner

/-- The text of an option. -/
def written (o : QuotedOption) : Text := o.opened (o.value ++ [o.mark])

end QuotedOption

/-- A group of options, without its braces. -/
def optionsText (options : List QuotedOption) : Text :=
  Text.join ", " (options.map QuotedOption.written)

namespace QuotedOption

variable {o : QuotedOption}

lemma Proper.not_isQuoteMark (h : o.Proper) :
    ∀ c ∈ ':' :: o.name ++ " => ".toList, ¬IsQuoteMark c ∧ c ≠ ',' := by
  intro c hc
  rcases List.mem_append.1 hc with hc | hc
  · have htag : HeadToken.isTagChar c = true := by
      rcases List.mem_cons.1 hc with rfl | hc
      · rfl
      · exact HeadToken.isTagChar_of_isNameChar (h.name c hc)
    refine ⟨?_, HeadToken.ne_of_isTagChar htag (by decide)⟩
    rintro (rfl | rfl) <;> exact absurd htag (by decide)
  · simp only [String.reduceToList, List.mem_cons, List.not_mem_nil, or_false] at hc
    rcases hc with rfl | rfl | rfl | rfl <;> exact ⟨by simp [IsQuoteMark], by decide⟩

/-- Up to its value, an option is not cut. -/
lemma Proper.splitUnquoted_opened (h : o.Proper) (inner : Text) :
    splitUnquoted ',' none (o.opened inner)
      = prependTo (o.opened []) (splitUnquoted ',' (some o.mark) inner) := by
  rw [opened, splitUnquoted_plain_append _ h.not_isQuoteMark, splitUnquoted_mark_cons _ h.mark,
    prependTo_prependTo, opened]

/-- An option with its quotes closed is taken over whole. -/
lemma Proper.splitUnquoted_written_append (h : o.Proper) (rest : Text) :
    splitUnquoted ',' none (o.written ++ rest)
      = prependTo o.written (splitUnquoted ',' none rest) := by
  have hopened : o.written ++ rest = o.opened (o.value ++ o.mark :: rest) := by
    simp [written, opened]
  rw [hopened, h.splitUnquoted_opened, splitUnquoted_quoted_append _ h.value,
    splitUnquoted_close_cons, prependTo_prependTo, prependTo_prependTo]
  simp [written, opened]

/-- A quote that stays open hides all that follows. -/
lemma Proper.splitUnquoted_opened_eq (h : o.Proper) {inner : Text} (hinner : o.mark ∉ inner) :
    splitUnquoted ',' none (o.opened inner) = [o.opened inner] := by
  have hall := @splitUnquoted_quoted_append ',' _ _ [] hinner
  rw [List.append_nil] at hall
  rw [h.splitUnquoted_opened, hall, prependTo_prependTo]
  simp [splitUnquoted, prependTo, opened]

end QuotedOption

/-! ## Groups of options -/

/-- Options that more options follow. -/
def optionsBefore (options : List QuotedOption) : Text :=
  options.flatMap fun o => o.written ++ (", " : Text)

lemma optionsText_append (first : List QuotedOption) (o : QuotedOption)
    (rest : List QuotedOption) :
    optionsText (first ++ o :: rest) = optionsBefore first ++ optionsText (o :: rest) := by
  induction first with
  | nil => rfl
  | cons next first ih =>
      obtain ⟨second, others, hothers⟩ : ∃ second others, first ++ o :: rest = second :: others :=
        List.exists_cons_of_ne_nil (by simp)
      have hjoin : optionsText (next :: second :: others)
          = next.written ++ (", " : Text) ++ optionsText (second :: others) := rfl
      rw [List.cons_append, hothers, hjoin, ← hothers, ih, optionsBefore, optionsBefore,
        List.flatMap_cons, ← List.append_assoc]

/-- Pieces between commas with spaces behind them: all but the first have one in front. -/
def spaced : List Text → List Text
  | [] => []
  | first :: others => first :: others.map (' ' :: ·)

lemma exists_of_mem_spaced {pieces : List Text} {piece : Text} (h : piece ∈ spaced pieces) :
    ∃ lead whole, piece = lead ++ whole ∧ Text.isBlankText lead = true ∧ whole ∈ pieces := by
  cases pieces with
  | nil => cases h
  | cons first others =>
      rcases List.mem_cons.1 h with rfl | h
      · exact ⟨[], piece, rfl, rfl, List.mem_cons_self⟩
      · obtain ⟨other, hother, rfl⟩ := List.mem_map.1 h
        exact ⟨[' '], other, rfl, rfl, List.mem_cons_of_mem _ hother⟩

/-- Options that are closed, and then one that may not be, are cut at the commas between them. -/
lemma splitUnquoted_pieces {options : List QuotedOption} (hoptions : ∀ o ∈ options, o.Proper)
    {last : Text} (hlast : splitUnquoted ',' none last = [last]) :
    splitUnquoted ',' none (optionsBefore options ++ last)
      = spaced (options.map QuotedOption.written ++ [last]) := by
  induction options with
  | nil => exact hlast
  | cons o options ih =>
      obtain ⟨ho, hoptions⟩ := List.forall_mem_cons.1 hoptions
      have hcomma : ∀ rest : Text, splitUnquoted ',' none ((", " : Text) ++ rest)
          = [] :: prependTo [' '] (splitUnquoted ',' none rest) := fun rest => by
        have htwo : (", " : Text) ++ rest = ',' :: ' ' :: rest := rfl
        rw [htwo, splitUnquoted_none_cons, splitUnquoted_none_cons]
        rfl
      obtain ⟨next, rest, hrest⟩ : ∃ next rest,
          options.map QuotedOption.written ++ [last] = next :: rest :=
        List.exists_cons_of_ne_nil (by simp)
      rw [optionsBefore, List.flatMap_cons, List.append_assoc, List.append_assoc,
        ho.splitUnquoted_written_append, hcomma]
      rw [← optionsBefore, ih hoptions, List.map_cons, List.cons_append, hrest]
      simp [spaced, prependTo]

/-! ## One option -/

lemma splitArrow_append {t : Text} (ht : '=' ∉ t) (value : Text) :
    splitArrow (t ++ '=' :: '>' :: value) = (t, value) := by
  induction t with
  | nil => rw [List.nil_append, splitArrow]
  | cons c t ih =>
      rw [List.mem_cons, not_or] at ht
      rw [List.cons_append, splitArrow, ih ht.2]
      rintro _ rfl
      exact absurd rfl ht.1

lemma dropEndWhile_cons (p : Char → Bool) {c : Char} (hc : p c = false) (t : Text) :
    Text.dropEndWhile p (c :: t) = c :: Text.dropEndWhile p t :=
  @dropEndWhile_append p [c] (by simpa using hc) t

lemma dropEndWhile_concat (p : Char → Bool) {c : Char} (hc : p c = false) (t : Text) :
    Text.dropEndWhile p (t ++ [c]) = t ++ [c] := by
  simp [Text.dropEndWhile, hc]

lemma trimColons_cons {c : Char} (hc : (c == ':') = false) (t : Text) :
    trimColons (c :: t) = c :: Text.dropEndWhile (· == ':') t := by
  rw [trimColons, List.dropWhile_cons, hc, if_neg Bool.false_ne_true,
    dropEndWhile_cons (· == ':') hc]

lemma trim_space_cons {c : Char} (hc : Text.isBlank c = false) (t : Text) :
    Text.trim (' ' :: c :: t) = c :: Text.dropEndWhile Text.isBlank t := by
  have hstart : Text.trimStart (' ' :: c :: t) = c :: t := by
    simp [Text.trimStart, hc, show Text.isBlank ' ' = true from rfl]
  rw [Text.trim, hstart, Text.trimEnd, dropEndWhile_cons _ hc]

section Name

variable {name : Text} (hname : ∀ c ∈ name, HeadToken.isNameChar c = true)
include hname

/-- The name of an option is what stands behind its colon. -/
lemma trimColons_name : trimColons (':' :: name) = name := by
  have hcolon : ∀ c ∈ name, (c == ':') = false := fun c hc => by
    refine beq_false_of_ne ?_
    rintro rfl
    exact absurd (hname _ hc) (by decide)
  have hstart : (':' :: name).dropWhile (· == ':') = name := by
    cases name with
    | nil => rfl
    | cons c name => simp [hcolon c List.mem_cons_self]
  have hend := dropEndWhile_append (p := (· == ':'))
    (fun c hc => hcolon c (List.mem_of_getLast? hc)) []
  rw [trimColons, hstart]
  simpa [Text.dropEndWhile] using hend

lemma trim_name {lead : Text} (hlead : Text.isBlankText lead = true) :
    Text.trim (lead ++ ':' :: name ++ [' ']) = ':' :: name := by
  have hblank : ∀ c ∈ (':' :: name).getLast?, Text.isBlank c = false := by
    intro c hc
    rcases List.mem_cons.1 (List.mem_of_getLast? hc) with rfl | hc
    · rfl
    · exact HeadToken.isBlank_of_isTagChar (HeadToken.isTagChar_of_isNameChar (hname c hc))
  have hstart : Text.trimStart (lead ++ ':' :: name ++ [' ']) = ':' :: name ++ [' '] := by
    rw [List.append_assoc, Text.trimStart, List.dropWhile_append_of_pos (List.all_eq_true.1 hlead)]
    rfl
  rw [Text.trim, hstart, Text.trimEnd, dropEndWhile_append hblank]
  simp [Text.dropEndWhile, Text.isBlank]

lemma notMem_name {lead : Text} (hlead : Text.isBlankText lead = true) :
    '=' ∉ lead ++ ':' :: name ++ [' '] := by
  simp only [List.mem_append, List.mem_cons, List.not_mem_nil, or_false, not_or]
  refine ⟨⟨fun hmem => ?_, by decide, fun hmem => ?_⟩, by decide⟩
  · exact absurd (List.all_eq_true.1 hlead _ hmem) (by decide)
  · exact absurd (hname _ hmem) (by decide)

end Name

namespace QuotedOption

variable {o : QuotedOption}

/-- An option is cut at its first arrow, and its value keeps the quote it begins with. -/
lemma Proper.readOption_opened (h : o.Proper) (lead : Text) (hlead : Text.isBlankText lead = true)
    (inner : Text) :
    readOption (lead ++ o.opened inner)
      = (o.name,
          o.mark :: Text.dropEndWhile (· == ':') (Text.dropEndWhile Text.isBlank inner)) := by
  have harrow : splitArrow (lead ++ o.opened inner)
      = (lead ++ ':' :: o.name ++ [' '], ' ' :: o.mark :: inner) := by
    rw [← splitArrow_append (notMem_name h.name hlead)]
    simp [opened]
  simp only [readOption, harrow, trim_name h.name hlead, trimColons_name h.name,
    trim_space_cons h.mark.isBlank, trimColons_cons h.mark.beq_colon]

/-- A closed option is read as its name, and its value with the quotes. -/
lemma Proper.readOption_written (h : o.Proper) (lead : Text)
    (hlead : Text.isBlankText lead = true) :
    readOption (lead ++ o.written) = (o.name, o.mark :: o.value ++ [o.mark]) := by
  rw [written, h.readOption_opened lead hlead, dropEndWhile_concat _ h.mark.isBlank,
    dropEndWhile_concat (· == ':') h.mark.beq_colon]
  rfl

end QuotedOption

lemma betweenQuotes?_mark (mark : Char) (value : Text) :
    betweenQuotes? mark (mark :: value ++ [mark]) = some value := by
  cases value with
  | nil => simp [betweenQuotes?]
  | cons c value =>
      have hlast : (c :: (value ++ [mark])).getLast? = some mark := by
        rw [← List.cons_append, List.getLast?_concat]
      have hinner : (c :: (value ++ [mark])).dropLast = c :: value := by
        rw [← List.cons_append, List.dropLast_concat]
      simp only [List.cons_append, betweenQuotes?, hlast, hinner, beq_self_eq_true, Bool.and_self,
        if_true]

/-- Quotes keep a value as it is, and from being an expression. -/
lemma renderValue_mark {mark : Char} (hmark : IsQuoteMark mark) (value : Text) :
    renderValue (mark :: value ++ [mark]) = value := by
  have htrim : Text.trim (mark :: value ++ [mark]) = mark :: value ++ [mark] := by
    refine Trimmed.trim_eq ⟨by simpa using hmark.isBlank, ?_⟩
    rw [List.getLast?_concat]
    simpa using hmark.isBlank
  rw [renderValue, htrim]
  split
  · next code hcode =>
      obtain ⟨hdollar, -⟩ := List.cons.inj hcode
      rcases hmark with rfl | rfl <;> cases hdollar
  · rcases hmark with rfl | rfl
    · rw [betweenQuotes?_mark]
    · have hother : betweenQuotes? '\'' ('"' :: value ++ ['"']) = none := by
        cases value <;> simp [betweenQuotes?]
      rw [hother, betweenQuotes?_mark]
      rfl

/-! ## What a group gives -/

lemma map_spaced {f : Text → Text × Text} {pieces : List Text}
    (h : ∀ piece ∈ pieces, f (' ' :: piece) = f piece) : (spaced pieces).map f = pieces.map f := by
  cases pieces with
  | nil => rfl
  | cons first others =>
      rw [spaced, List.map_cons, List.map_cons, List.map_map]
      exact congrArg _ (List.map_congr_left fun piece hpiece =>
        h piece (List.mem_cons_of_mem _ hpiece))

lemma not_isBlankText_opened (o : QuotedOption) (lead inner : Text) :
    Text.isBlankText (lead ++ o.opened inner) = false := by
  simp [QuotedOption.opened, Text.isBlankText, show Text.isBlank ':' = false from rfl]

/-- The options of a group, if each has a name. -/
lemma readOptions_optionsText {options : List QuotedOption} (hoptions : ∀ o ∈ options, o.Proper)
    (hnames : ∀ o ∈ options, o.name ≠ []) :
    readOptions (optionsText options)
      = options.map fun o => (o.name, o.mark :: o.value ++ [o.mark]) := by
  rcases List.eq_nil_or_concat' options with rfl | ⟨first, last, rfl⟩
  · rfl
  · have hlast := hoptions last (by simp)
    have hcut : splitUnquoted ',' none (optionsText (first ++ [last]))
        = spaced ((first ++ [last]).map QuotedOption.written) := by
      have hwhole := hlast.splitUnquoted_written_append []
      rw [List.append_nil] at hwhole
      rw [optionsText_append, List.map_append]
      refine splitUnquoted_pieces (fun o ho => hoptions o (by simp [ho])) (hwhole.trans ?_)
      rw [splitUnquoted, prependTo, List.append_nil]
      rfl
    have hfull : ∀ piece ∈ spaced ((first ++ [last]).map QuotedOption.written),
        (!Text.isBlankText piece) = true := by
      intro piece hpiece
      obtain ⟨lead, whole, rfl, -, hwhole⟩ := exists_of_mem_spaced hpiece
      obtain ⟨o, -, rfl⟩ := List.mem_map.1 hwhole
      rw [QuotedOption.written, not_isBlankText_opened]
      rfl
    have hspace : ∀ piece ∈ (first ++ [last]).map QuotedOption.written,
        readOption (' ' :: piece) = readOption piece := by
      intro piece hpiece
      obtain ⟨o, ho, rfl⟩ := List.mem_map.1 hpiece
      exact ((hoptions o ho).readOption_written [' '] rfl).trans
        ((hoptions o ho).readOption_written [] rfl).symm
    have hread : ((first ++ [last]).map QuotedOption.written).map readOption
        = (first ++ [last]).map fun o => (o.name, o.mark :: o.value ++ [o.mark]) := by
      rw [List.map_map]
      exact List.map_congr_left fun o ho => (hoptions o ho).readOption_written [] rfl
    rw [readOptions, hcut, List.filter_eq_self.2 hfull, map_spaced hspace, hread,
      List.filter_eq_self]
    intro option hoption
    obtain ⟨o, ho, rfl⟩ := List.mem_map.1 hoption
    simpa using hnames o ho

/-- However its value goes on, an option that begins with a quote is no expression. -/
lemma not_isExpressionValue_of_mem_readOptions {options : List QuotedOption}
    (hoptions : ∀ o ∈ options, o.Proper) {o : QuotedOption} (ho : o.Proper) {inner : Text}
    (hinner : o.mark ∉ inner) {option : Text × Text}
    (h : option ∈ readOptions (optionsBefore options ++ o.opened inner)) :
    isExpressionValue option.2 = false := by
  obtain ⟨piece, hpiece, rfl⟩ := List.mem_map.1 (List.mem_filter.1 h).1
  have hcut := splitUnquoted_pieces hoptions (ho.splitUnquoted_opened_eq hinner)
  rw [hcut] at hpiece
  obtain ⟨lead, whole, rfl, hlead, hwhole⟩ := exists_of_mem_spaced (List.mem_filter.1 hpiece).1
  obtain ⟨other, hother, rest, rfl⟩ : ∃ other : QuotedOption, other.Proper ∧
      ∃ rest, whole = other.opened rest := by
    rcases List.mem_append.1 hwhole with hwhole | hwhole
    · obtain ⟨other, hother, rfl⟩ := List.mem_map.1 hwhole
      exact ⟨other, hoptions other hother, _, rfl⟩
    · exact ⟨o, ho, inner, List.mem_singleton.1 hwhole⟩
  have hblank := hother.mark.isBlank
  have hdollar : other.mark ≠ '$' := hother.mark.ne (by simp [IsQuoteMark])
  rw [hother.readOption_opened lead hlead, isExpressionValue, Text.trim,
    trimStart_eq_self (by simpa using hblank), Text.trimEnd, dropEndWhile_cons _ hblank]
  simpa using hdollar

end Offside
