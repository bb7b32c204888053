import Mathlib
import Offside.Proofs.Mixtures

/-!
# Settled results

A result that was left as a mixture of units may be reduced again, as part of a longer expression or
because it stood in parentheses.  `Settled` says which results that does not change: those that no
operator takes apart, and mixtures of a length and a settled rest that no other operator takes
apart, as in `1px + 2em + 3ex`.

Other mixtures do change.  In `1px - -1em` the two signs become one.  In `1 + 2em`, which is what is
left of `10px + 2em` when the text `0px` is taken out of it, the operator now applies.

A settled text reduces to itself by induction on how it is built (`Settled.reduces`).  The converse
is by induction on the number of operators (`settled_of_reduces`): a text that reduces to itself has
kept its operators, so that all rounds have done to it is one mixture at most.  For expressions of
numerals and lengths this says what parentheses around them do (`calculate_grouped_iff`).
-/

namespace Offside

/-! ## Settled texts -/

/-- The results that stay as they are when they are reduced once more. -/
inductive Settled : Text → Prop
  /-- A tidied text that no operator takes apart. -/
  | plain {t : Text} (htidied : tidied t = t) (hwhole : ∀ op, splitBinary op t = none) : Settled t
  /-- A length and a settled text with an operator between them that does not apply to them.  The
  text does not bring a minus sign next to a sign, and no other operator takes the mixture apart. -/
  | mixture {a : Float} {unit : LengthUnit} {op : Operator} {right : Text}
      (hvalue : (Quantity.ofText (Quantity.length a unit).written).apply op (Quantity.ofText right)
        = .ok (.text (mixtureText (Quantity.length a unit).written op right)))
      (hright : Settled right) (hne : right ≠ [])
      (hsigns : ∀ c ∈ right.head?, SignsApart op.symbol c)
      (hother : ∀ o, o ≠ op →
        splitBinary o (tidied (mixtureText (Quantity.length a unit).written op right)) = none) :
      Settled (mixtureText (Quantity.length a unit).written op right)

/-- What settled texts have in common. -/
structure Steady (t : Text) : Prop where
  trimmed : Trimmed t
  apart : t.IsChain SignsApart
  count : operatorCount (tidied t) = operatorCount t

lemma steady_of_tidied_eq {t : Text} (hq : '"' ∉ t) (h : tidied t = t) : Steady t := by
  obtain ⟨htidied, hchain, -⟩ := tidied_of_operatorCount_le hq (by rw [h])
  rw [h] at htidied hchain
  refine ⟨?_, hchain, by rw [h]⟩
  rw [htidied]
  exact (trimmed_trim t).tightenFrom false

lemma Steady.tidied_eq {t : Text} (h : Steady t) (hq : '"' ∉ t) :
    tidied t = tightenFrom false t ∧ (tidied t).IsChain SignsApart := by
  obtain ⟨htidied, hchain, -⟩ := tidied_of_operatorCount_le hq h.count.ge
  rw [h.trimmed.trim_eq] at htidied
  exact ⟨htidied, hchain⟩

lemma Steady.head?_tidied {t : Text} (h : Steady t) (hq : '"' ∉ t) :
    (tidied t).head? = t.head? := by
  rw [(h.tidied_eq hq).1, head?_tightenFrom false h.trimmed.first]

lemma Steady.tidied_ne_nil {t : Text} (h : Steady t) (hq : '"' ∉ t) (hne : t ≠ []) :
    tidied t ≠ [] := by
  rw [(h.tidied_eq hq).1]
  exact tightenFrom_ne_nil false hne h.trimmed.last

lemma quote_notMem_of_mixtureText {left right : Text} {op : Operator}
    (h : '"' ∉ mixtureText left op right) : '"' ∉ right := fun hmem =>
  h (by simp [mixtureText, hmem])

lemma Operand.ne_of_mem_body (x : Operand) {c d : Char} (hc : c ∈ x.body)
    (hd : isOperator d = true) : c ≠ d := by
  rintro rfl
  rw [x.noOperator c hc] at hd
  cases hd

lemma Operand.last_ne_sign (x : Operand) : ∀ c ∈ x.text.getLast?, c ≠ '+' ∧ c ≠ '-' := by
  intro c hc
  rw [x.getLast?_text] at hc
  have hbody := List.mem_of_getLast? hc
  exact ⟨x.ne_of_mem_body hbody rfl, x.ne_of_mem_body hbody rfl⟩

/-- A mixture is steady when its right side is and the signs stay apart. -/
lemma Steady.mixtureText {right : Text} (h : Steady right) (hq : '"' ∉ right) (hne : right ≠ [])
    (x : Operand) {op : Operator} (hsigns : ∀ c ∈ right.head?, SignsApart op.symbol c) :
    Steady (mixtureText x.text op right) := by
  have htrimmed := trimmed_mixtureText x op h.trimmed hne
  refine ⟨htrimmed, isChain_mixtureText x op h.apart, ?_⟩
  obtain ⟨htidied, hchain⟩ := h.tidied_eq hq
  have hrest : (op.symbol :: tidied right).IsChain SignsApart := by
    refine List.isChain_cons.2 ⟨?_, hchain⟩
    rwa [h.head?_tidied hq]
  have hmixture : (x.text ++ op.symbol :: tidied right).IsChain SignsApart :=
    isChain_signsApart_append x.isChain_signsApart hrest (Or.inl x.last_ne_sign)
  rw [Offside.tidied_eq (quote_notMem_mixtureText x op hq), htrimmed.trim_eq,
    tightenFrom_mixtureText x op h.trimmed, ← htidied, normalizeSigns_of_isChain hmixture,
    operatorCount_append, operatorCount_symbol_cons, operatorCount_mixtureText, h.count]
  omega

lemma Settled.steady {t : Text} (h : Settled t) (hq : '"' ∉ t) : Steady t := by
  induction h with
  | plain htidied _ => exact steady_of_tidied_eq hq htidied
  | @mixture a unit op right _ _ hne hsigns _ ih =>
      obtain ⟨x, hx⟩ := Quantity.exists_operand_length a unit
      have hqr := quote_notMem_of_mixtureText hq
      rw [← hx]
      exact (ih hqr).mixtureText hqr hne x hsigns

/-! ## Settled texts reduce to themselves -/

/-- A mixture that keeps its operators is taken apart into its two sides. -/
lemma splitBinary_mixtureText (x : Operand) {op : Operator} {right : Text} (hq : '"' ∉ right)
    (hright : Trimmed right) (hne : tidied right ≠ [])
    (hcount : operatorCount (mixtureText x.text op right)
      ≤ operatorCount (tidied (mixtureText x.text op right))) :
    splitBinary op (tidied (mixtureText x.text op right)) = some (x.text, tidied right) := by
  rw [tidied_mixtureText x op hq hright hcount, splitBinary_text_append x op hne]

lemma Operand.reduces_text (x : Operand) : Reduces x.text (.ok x.text) :=
  reduces_iff.2 (x.reduceWithin_text _)

/-- A later operator takes a steady text apart if it takes the tidied text apart. -/
lemma Steady.forall_later_iff {t : Text} (h : Steady t) (hq : '"' ∉ t)
    (hfirst : ∀ c ∈ t.head?, c ≠ '*' ∧ c ≠ '/') {op : Operator} {earlier later : List Operator}
    (hall : Operator.all = earlier ++ op :: later) :
    (∀ o ∈ later, splitBinary o (tidied t) = none) ↔ ∀ o ∈ later, splitBinary o t = none := by
  obtain ⟨htidied, hchain⟩ := h.tidied_eq hq
  have hfirst' : ∀ c ∈ (tidied t).head?, c ≠ '*' ∧ c ≠ '/' := by
    rwa [h.head?_tidied hq]
  rw [Offside.forall_later_iff (quote_notMem_tidied hq) hchain hfirst' hall,
    Offside.forall_later_iff hq h.apart hfirst hall, htidied]
  simp only [symbol_mem_interior_tightenFrom h.trimmed]

lemma Operand.head?_text_ne (x : Operand) (rest : Text) :
    ∀ c ∈ (x.text ++ rest).head?, c ≠ '*' ∧ c ≠ '/' := by
  intro c hc
  rw [List.head?_append_of_ne_nil _ x.text_ne_nil] at hc
  unfold Operand.text at hc
  split_ifs at hc
  · cases hc
    decide
  · have hbody := List.mem_of_head? hc
    exact ⟨x.ne_of_mem_body hbody rfl, x.ne_of_mem_body hbody rfl⟩

lemma Settled.reduces {t : Text} (h : Settled t) (hq : '"' ∉ t) : Reduces t (.ok t) := by
  induction h with
  | plain htidied hwhole =>
      rw [Reduces, htidied]
      exact rounds_of_none fun op _ => hwhole op
  | @mixture a unit op right hvalue hright hne hsigns hother ih =>
      have hqr := quote_notMem_of_mixtureText hq
      have hsteadyRight := hright.steady hqr
      obtain ⟨x, hx⟩ := Quantity.exists_operand_length a unit
      rw [← hx] at hvalue hother hq ⊢
      have hsteady := hsteadyRight.mixtureText hqr hne x hsigns
      have hsplit := splitBinary_mixtureText x hqr hsteadyRight.trimmed
        (hsteadyRight.tidied_ne_nil hqr hne) hsteady.count.ge
      obtain ⟨earlier, later, hall, hearlier⟩ := op.exists_all_eq
      have hlater : ∀ o ∈ later, splitBinary o (mixtureText x.text op right) = none := by
        refine (hsteady.forall_later_iff hq (x.head?_text_ne _) hall).1 fun o ho => hother o ?_
        rintro rfl
        have hnodup : Operator.all.Nodup := by decide
        rw [hall] at hnodup
        exact (List.nodup_cons.1 (List.nodup_append.1 hnodup).2.1).1 ho
      -- what is called for is the tidied right side, and tidying it again changes nothing
      have hrightReduces : Reduces (tidied right) (.ok right) := by
        rw [Reduces, (tidied_of_operatorCount_le hqr hsteadyRight.count.ge).2.2]
        exact ih hqr
      rw [Reduces, hall]
      refine rounds_append (fun o ho => hother o ?_)
        (.computed hsplit x.reduces_text hrightReduces hvalue ?_)
      · rintro rfl
        exact hearlier ho
      · rw [Quantity.written, normalizeSigns_of_isChain hsteady.apart]
        exact rounds_of_none hlater

/-! ## Texts that reduce to themselves are settled -/

lemma tidied_trim (t : Text) : tidied (Text.trim t) = tidied t := by
  rw [tidied, (trimmed_trim t).trim_eq, tidied]

lemma Operand.tidied_text (x : Operand) : tidied x.text = x.text := by
  rw [tidied, x.trimmed_text.trim_eq, x.tighten_text, x.normalizeSigns_text]

lemma Operand.settled_text (x : Operand) : Settled x.text := .plain x.tidied_text x.splitBinary_text

lemma trimmed_written_ofText (t : Text) : Trimmed (Quantity.ofText t).written := by
  rcases (Quantity.ofText t).exists_operand with ⟨s, hs⟩ | ⟨x, hx⟩
  · rw [hs, Quantity.written, eq_trim_of_ofText hs]
    exact trimmed_trim t
  · rw [← hx]
    exact x.trimmed_text

lemma Reduces.eq {t r r' : Text} (h : Reduces t (.ok r)) (h' : Reduces t (.ok r')) : r = r' := by
  have heq := (reduces_iff.1 h).symm.trans (reduces_iff.1 h')
  exact Except.ok.inj heq

/-- What is written for the right side of a mixture reduces to itself. -/
lemma settled_written_ofText {right : Text} (hq : '"' ∉ right)
    (h : Reduces (Quantity.ofText right).written (.ok right))
    (ih : Reduces right (.ok right) → Settled right) :
    Settled right ∧ (Quantity.ofText right).written = right := by
  rcases (Quantity.ofText right).exists_operand with ⟨s, hs⟩ | ⟨x, hx⟩
  · rw [hs, Quantity.written, eq_trim_of_ofText hs] at h ⊢
    rw [Reduces, tidied_trim] at h
    have hright := ih h
    exact ⟨hright, (hright.steady hq).trimmed.trim_eq⟩
  · rw [← hx] at h ⊢
    have hsame := h.eq x.reduces_text
    rw [hsame]
    exact ⟨x.settled_text, rfl⟩

/-- If a mixture that keeps its operators is taken apart at all, then into its two sides, and the
right one keeps its operators, too. -/
lemma eq_of_splitBinary_mixtureText (x : Operand) {op : Operator} {right l r : Text}
    (hq : '"' ∉ right) (hright : Trimmed right)
    (hcount : operatorCount (mixtureText x.text op right)
      ≤ operatorCount (tidied (mixtureText x.text op right)))
    (hsplit : splitBinary op (tidied (mixtureText x.text op right)) = some (l, r)) :
    l = x.text ∧ r = tidied right ∧ operatorCount right ≤ operatorCount (tidied right) := by
  have htidied := tidied_mixtureText x op hq hright hcount
  have hne : tidied right ≠ [] := by
    intro hempty
    rw [htidied, hempty, splitBinary_text_concat] at hsplit
    cases hsplit
  rw [splitBinary_mixtureText x hq hright hne hcount] at hsplit
  cases hsplit
  rw [htidied, operatorCount_mixtureText, operatorCount_append, operatorCount_symbol_cons] at hcount
  exact ⟨rfl, rfl, by omega⟩

/-- A mixture is settled when the rounds for the earlier operators find nothing in it tidied, and
those for the later ones nothing in it as it is written. -/
lemma settled_mixtureText {a : Float} {unit : LengthUnit} {op : Operator} {right : Text}
    {earlier later : List Operator} (hall : Operator.all = earlier ++ op :: later)
    (hq : '"' ∉ right) (hright : Settled right) (hne : right ≠ [])
    (hcount : operatorCount (mixtureText (Quantity.length a unit).written op right)
      ≤ operatorCount (tidied (mixtureText (Quantity.length a unit).written op right)))
    (hvalue : (Quantity.ofText (Quantity.length a unit).written).apply op (Quantity.ofText right)
      = .ok (.text (mixtureText (Quantity.length a unit).written op right)))
    (hearlier : ∀ o ∈ earlier,
      splitBinary o (tidied (mixtureText (Quantity.length a unit).written op right)) = none)
    (hlater : ∀ o ∈ later,
      splitBinary o (mixtureText (Quantity.length a unit).written op right) = none) :
    Settled (mixtureText (Quantity.length a unit).written op right) := by
  obtain ⟨x, hx⟩ := Quantity.exists_operand_length a unit
  have hsteadyRight := hright.steady hq
  rw [← hx] at hcount hearlier hlater
  have hq' := quote_notMem_mixtureText x op hq
  have hsigns : ∀ c ∈ right.head?, SignsApart op.symbol c := by
    have hchain := (tidied_of_operatorCount_le hq' hcount).2.1
    rw [tidied_mixtureText x op hq hsteadyRight.trimmed hcount] at hchain
    rw [← hsteadyRight.head?_tidied hq]
    exact (List.isChain_cons.1 (List.isChain_append.1 hchain).2.1).1
  have hsteady := hsteadyRight.mixtureText hq hne x hsigns
  refine .mixture hvalue hright hne hsigns fun o ho => ?_
  rw [← hx]
  have hmem : o ∈ earlier ++ op :: later := by
    rw [← hall]
    cases o <;> decide
  rcases List.mem_append.1 hmem with hmem | hmem
  · exact hearlier o hmem
  · refine (hsteady.forall_later_iff hq' (x.head?_text_ne _) hall).2 hlater o ?_
    exact (List.mem_cons.1 hmem).resolve_left ho

-- The induction is on the number of operators: the right side of a mixture has fewer.
lemma settled_of_reduces {t : Text} (h : Reduces t (.ok t)) (hq : '"' ∉ t) : Settled t := by
  induction hn : operatorCount t using Nat.strong_induction_on generalizing t with
  | _ n ih =>
      have hcount : operatorCount t ≤ operatorCount (tidied t) :=
        isWeight_isOperator.countP_rounds_le h
      have hunreduced :=
        Rounds.unreduced h (by decide) (quote_notMem_tidied hq) (innerCount_tidied_le hq)
      generalize hcurrent : tidied t = current at hunreduced
      cases hunreduced with
      | whole hwhole => exact .plain hcurrent fun op => hwhole op (by cases op <;> decide)
      | @mixture earlier op later l r left right a unit hall hearlier hsplit _ hleft hright _ hvalue
          hlater =>
          obtain ⟨x, hx⟩ := Quantity.exists_operand_length a unit
          rw [written_unresolved, ← hx] at hq hn hcount hcurrent hlater ⊢
          subst hcurrent
          have hqw := quote_notMem_of_mixtureText hq
          obtain ⟨rfl, rfl, hkeeps⟩ :=
            eq_of_splitBinary_mixtureText x hqw (trimmed_written_ofText right) hcount hsplit
          rw [Reduces, (tidied_of_operatorCount_le hqw hkeeps).2.2] at hright
          have hqr := notMem_of_countP_le (isWeight_quote.countP_reduces_le hright) hqw
          have hfewer : operatorCount right < n := by
            have hle : operatorCount right ≤ operatorCount (Quantity.ofText right).written :=
              isWeight_isOperator.countP_reduces_le hright
            rw [operatorCount_mixtureText] at hn
            omega
          obtain ⟨hsettled, hsame⟩ :=
            settled_written_ofText hqr hright fun hr => ih _ hfewer hr hqr rfl
          have hne : right ≠ [] := by
            rintro rfl
            rw [hsame] at hsplit
            exact (ne_nil_of_splitBinary hsplit).2 rfl
          rw [hsame, hx] at hcount hearlier hlater ⊢
          rw [hleft.eq x.reduces_text, hx, Quantity.unresolved_eq, hsame] at hvalue
          exact settled_mixtureText hall hqr hsettled hne hcount hvalue hearlier hlater

theorem reduces_self_iff {t : Text} (hq : '"' ∉ t) : Reduces t (.ok t) ↔ Settled t :=
  ⟨fun h => settled_of_reduces h hq, fun h => h.reduces hq⟩

/-! ## Groups of plain text -/

/-- Merging signs first does not make a text settle that would not settle otherwise. -/
lemma reduces_normalizeSigns_iff {t : Text} (hq : '"' ∉ t) :
    Reduces (normalizeSigns t) (.ok t) ↔ Settled t := by
  constructor
  · intro h
    have hsigns : normalizeSigns t = t := by
      refine (operatorCount_normalizeSigns t).resolve_right fun hlt => ?_
      have hle : operatorCount t ≤ operatorCount (normalizeSigns t) :=
        isWeight_isOperator.countP_reduces_le h
      omega
    rw [hsigns] at h
    exact settled_of_reduces h hq
  · intro h
    rw [normalizeSigns_of_isChain (h.steady hq).apart]
    exact h.reduces hq

/-- A text without quotes and parentheses. -/
structure Ungrouped (t : Text) : Prop where
  quote : '"' ∉ t
  opening : '(' ∉ t
  closing : ')' ∉ t

lemma Ungrouped.of_countP_le {s t : Text} (ht : Ungrouped t)
    (h : ∀ {p : Char → Bool}, IsWeight p → s.countP p ≤ t.countP p) : Ungrouped s :=
  ⟨notMem_of_countP_le (h isWeight_quote) ht.quote,
    notMem_of_countP_le (h (isWeight_beq (Or.inl rfl))) ht.opening,
    notMem_of_countP_le (h (isWeight_beq (Or.inr (Or.inl rfl)))) ht.closing⟩

lemma Ungrouped.firstGroup_eq {t : Text} (h : Ungrouped t) : firstGroup t = .ok none := by
  have hpassed := firstGroupFrom_append h.quote h.opening h.closing t [] [] []
  rw [List.append_nil] at hpassed
  rw [firstGroup, hpassed]
  rfl

lemma Ungrouped.firstGroup_grouped {t : Text} (h : Ungrouped t) :
    firstGroup ('(' :: (t ++ [')'])) = .ok (some ⟨[], t, []⟩) := by
  rw [firstGroup, firstGroupFrom_open, firstGroupFrom_append h.quote h.opening h.closing]
  exact firstGroupFrom_close rfl _ t [] []

lemma Ungrouped.calculate_eq {t : Text} (h : Ungrouped t) (hcolors : expandColors t = t) :
    Calculator.empty.calculate t = reduce t := by
  refine calculates_iff.1 (.flat ?_ (reduces_iff.2 rfl))
  rw [Calculator.substitute_empty, hcolors]
  exact .flat h.firstGroup_eq

/-- In parentheses, what a text reduces to is reduced once more. -/
lemma Ungrouped.calculate_grouped {t r : Text} (h : Ungrouped t)
    (hcolors : expandColors ('(' :: (t ++ [')'])) = '(' :: (t ++ [')']))
    (hvalue : reduce t = .ok r) :
    Calculator.empty.calculate ('(' :: (t ++ [')'])) = reduce (normalizeSigns r) := by
  have hreduces : Reduces t (.ok r) := reduces_iff.2 hvalue
  have hresult : Ungrouped (normalizeSigns r) := h.of_countP_le fun hp =>
    (hp.countP_normalizeSigns_le r).trans (hp.countP_reduces_le hreduces)
  refine calculates_iff.1 (.flat ?_ (reduces_iff.2 rfl))
  rw [Calculator.substitute_empty, hcolors]
  refine .replaced h.firstGroup_grouped hreduces ?_
  rw [List.nil_append, List.append_nil]
  exact .flat hresult.firstGroup_eq

/-! ## Flat expressions -/

/-- The letters that no unit is written with.  Every color name has one of them. -/
def nameLetters : Text := "abdfghjkloqrsuvwyz"

/-- A character that begins no hexadecimal color and is, up to case, none of these letters. -/
def isColorless (c : Char) : Bool := c != '#' && !nameLetters.contains (Text.fold c)

/-- A character that flat expressions may have. -/
def isFlat (c : Char) : Bool := isColorless c && c != '"' && c != '(' && c != ')'

lemma exists_fold_eq {name t rest : Text} (h : Text.dropFoldPrefix? name t = some rest) {d : Char}
    (hd : d ∈ name) : ∃ c ∈ t, Text.fold d = Text.fold c := by
  induction name generalizing t with
  | nil => cases hd
  | cons p ps ih =>
      cases t with
      | nil => cases h
      | cons c cs =>
          rw [Text.dropFoldPrefix?] at h
          split_ifs at h with hfold
          rcases List.mem_cons.1 hd with rfl | hd
          · exact ⟨c, List.mem_cons_self, beq_iff_eq.1 hfold⟩
          · obtain ⟨e, he, hsame⟩ := ih h hd
            exact ⟨e, List.mem_cons_of_mem c he, hsame⟩

lemma colorNameAt?_eq_none {t : Text} (h : ∀ c ∈ t, isColorless c = true) :
    colorNameAt? t = none := by
  have hletters : (colorNames.all fun p => p.1.any fun d => nameLetters.contains (Text.fold d))
      = true := by decide
  rw [colorNameAt?, List.findSome?_eq_none_iff]
  rintro ⟨name, color⟩ hp
  obtain ⟨d, hd, hletter⟩ := List.any_eq_true.1 (List.all_eq_true.1 hletters _ hp)
  have hnone : Text.dropFoldPrefix? name t = none := by
    refine Option.eq_none_iff_forall_ne_some.2 fun rest hrest => ?_
    obtain ⟨c, hc, hsame⟩ := exists_fold_eq hrest hd
    have hcolorless := h c hc
    rw [isColorless, ← hsame, hletter, Bool.not_true, Bool.and_false] at hcolorless
    cases hcolorless
  simp [hnone]

lemma expandNamesFrom_eq_self {t : Text} (h : ∀ c ∈ t, isColorless c = true)
    (previous : Option Char) : expandNamesFrom 0 previous t = t := by
  induction t generalizing previous with
  | nil => rfl
  | cons c cs ih =>
      have hcs := ih fun d hd => h d (List.mem_cons_of_mem c hd)
      simp [expandNamesFrom, colorNameAt?_eq_none h, hcs]

lemma expandColors_eq_self {t : Text} (h : ∀ c ∈ t, isColorless c = true) :
    expandColors t = t := by
  have hhash : '#' ∉ t := fun hmem => absurd (h _ hmem) (by decide)
  rw [expandColors, expandNames, expandNamesFrom_eq_self h, expandHexFrom_eq_self hhash]

lemma isFlat_of_isBlank {c : Char} (h : Text.isBlank c = true) : isFlat c = true := by
  have hall : ([0x9, 0xa, 0xb, 0xc, 0xd, 0x20, 0x85, 0xa0, 0x1680, 0x2000, 0x2001, 0x2002, 0x2003,
      0x2004, 0x2005, 0x2006, 0x2007, 0x2008, 0x2009, 0x200a, 0x2028, 0x2029, 0x202f, 0x205f,
      0x3000].all fun n => isFlat (Char.ofNat n)) = true := by decide +kernel
  simp only [Text.isBlank, Bool.or_eq_true, Bool.and_eq_true, decide_eq_true_eq, beq_iff_eq] at h
  have hflat := List.all_eq_true.1 hall c.toNat (by simp only [List.mem_cons]; omega)
  rwa [Char.ofNat_toNat] at hflat

lemma toLower_eq_self {c : Char} (h : 0x80 ≤ c.toNat) : c.toLower = c := by
  unfold Char.toLower
  rw [dif_neg]
  rintro ⟨-, hle⟩
  rw [UInt32.le_iff_toNat_le] at hle
  exact absurd (h.trans hle) (by decide)

lemma isFlat_of_toLower {c : Char} (h : c.toLower ∈ magnitudeChars) : isFlat c = true := by
  have hascii : ∀ n < 0x80, magnitudeChars.contains (Char.ofNat n).toLower = true →
      isFlat (Char.ofNat n) = true := by decide +kernel
  have hlow : c.toNat < 0x80 := by
    by_contra hhigh
    rw [toLower_eq_self (Nat.le_of_not_lt hhigh)] at h
    have hchars := List.all_eq_true.1
      (by decide : magnitudeChars.all (fun d => d.toNat < 0x80) = true) c h
    exact hhigh (of_decide_eq_true hchars)
  have hflat := hascii c.toNat hlow
  rw [Char.ofNat_toNat] at hflat
  exact hflat (List.contains_iff_mem.2 h)

/-- A numeral or a length, with its unit in any case, with or without a sign, and with white space
around it. -/
structure FlatTerm where
  before : Text
  negative : Bool
  numeral : Text
  unit : Text
  after : Text
  blankBefore : Text.isBlankText before = true
  decimal : isDecimal numeral = true
  known : unit = [] ∨ (LengthUnit.ofText? unit).isSome = true
  blankAfter : Text.isBlankText after = true

def FlatTerm.text (x : FlatTerm) : Text :=
  x.before ++ ((if x.negative then "-" else "") ++ x.numeral ++ x.unit) ++ x.after

/-- Terms with operators between them. -/
def flatText (first : FlatTerm) (rest : List (Operator × FlatTerm)) : Text :=
  first.text ++ rest.flatMap fun (op, x) => op.symbol :: x.text

lemma FlatTerm.isFlat_of_mem_unit (x : FlatTerm) : ∀ c ∈ x.unit, isFlat c = true := by
  intro c hc
  rcases x.known with hnone | hsome
  · rw [hnone] at hc
    cases hc
  · obtain ⟨unit, hunit⟩ := Option.isSome_iff_exists.1 hsome
    have hlower : unit.text = Text.lowerAscii x.unit :=
      beq_iff_eq.1 (List.find?_some (p := fun u : LengthUnit => u.text == _) hunit)
    have hmem : c.toLower ∈ unit.text := by
      rw [hlower]
      exact List.mem_map_of_mem hc
    exact isFlat_of_toLower (mem_magnitudeChars_of_unit unit _ hmem)

lemma isFlat_of_isDecimal {t : Text} (h : isDecimal t = true) : ∀ c ∈ t, isFlat c = true :=
  fun c hc => List.all_eq_true.1 (by decide +kernel : decimalChars.all isFlat = true) c
    (mem_decimalChars h c hc)

lemma FlatTerm.isFlat_of_mem (x : FlatTerm) : ∀ c ∈ x.text, isFlat c = true := by
  intro c hc
  simp only [FlatTerm.text, List.mem_append] at hc
  rcases hc with (hc | (hc | hc) | hc) | hc
  · exact isFlat_of_isBlank (List.all_eq_true.1 x.blankBefore c hc)
  · split_ifs at hc
    · rw [List.mem_singleton.1 hc]
      decide +kernel
    · cases hc
  · exact isFlat_of_isDecimal x.decimal c hc
  · exact x.isFlat_of_mem_unit c hc
  · exact isFlat_of_isBlank (List.all_eq_true.1 x.blankAfter c hc)

lemma isFlat_of_mem_flatText {first : FlatTerm} {rest : List (Operator × FlatTerm)} :
    ∀ c ∈ flatText first rest, isFlat c = true := by
  intro c hc
  rcases List.mem_append.1 hc with hc | hc
  · exact first.isFlat_of_mem c hc
  · obtain ⟨⟨op, x⟩, -, hc⟩ := List.mem_flatMap.1 hc
    rcases List.mem_cons.1 hc with rfl | hc
    · cases op <;> decide +kernel
    · exact x.isFlat_of_mem c hc

section

variable (first : FlatTerm) (rest : List (Operator × FlatTerm))

lemma ungrouped_flatText : Ungrouped (flatText first rest) := by
  have hne : ∀ c, isFlat c = false → c ∉ flatText first rest := by
    intro c hc hmem
    rw [isFlat_of_mem_flatText c hmem] at hc
    cases hc
  exact ⟨hne _ (by decide), hne _ (by decide), hne _ (by decide)⟩

lemma isColorless_of_mem_flatText : ∀ c ∈ flatText first rest, isColorless c = true := by
  intro c hc
  have hflat := isFlat_of_mem_flatText c hc
  simp only [isFlat, Bool.and_eq_true] at hflat
  exact hflat.1.1.1

lemma expandColors_flatText : expandColors (flatText first rest) = flatText first rest :=
  expandColors_eq_self (isColorless_of_mem_flatText first rest)

lemma expandColors_grouped_flatText :
    expandColors ('(' :: (flatText first rest ++ [')']))
      = '(' :: (flatText first rest ++ [')']) := by
  refine expandColors_eq_self fun c hc => ?_
  rw [List.mem_cons, List.mem_append, List.mem_singleton] at hc
  rcases hc with rfl | hc | rfl
  · decide
  · exact isColorless_of_mem_flatText first rest c hc
  · decide

end

/-- **Parentheses reduce a result once more.**  What a flat expression gives in parentheses is what
its result reduces to, with the signs that meet in it merged.  It is the same result just when that
is settled: a number or length, or a mixture whose parts are settled and whose operator is the only
one that takes it apart.  These are the results that do not change when they are reduced. -/
theorem calculate_grouped_iff (first : FlatTerm) (rest : List (Operator × FlatTerm)) {r : Text}
    (h : Calculator.empty.calculate (flatText first rest) = .ok r) :
    Calculator.empty.calculate ('(' :: (flatText first rest ++ [')'])) = reduce (normalizeSigns r) ∧
      (Calculator.empty.calculate ('(' :: (flatText first rest ++ [')'])) = .ok r ↔ Settled r) ∧
      (reduce r = .ok r ↔ Settled r) := by
  have hplain := ungrouped_flatText first rest
  rw [hplain.calculate_eq (expandColors_flatText first rest)] at h
  have hgrouped := hplain.calculate_grouped (expandColors_grouped_flatText first rest) h
  have hquote : '"' ∉ r :=
    notMem_of_countP_le (isWeight_quote.countP_reduces_le (reduces_iff.2 h)) hplain.quote
  refine ⟨hgrouped, ?_, ?_⟩
  · rw [hgrouped, ← reduces_iff]
    exact reduces_normalizeSigns_iff hquote
  · rw [← reduces_iff]
    exact reduces_self_iff hquote

/-- The term of a numeral and a unit with a blank on either side. -/
def FlatTerm.spaced (numeral unit : Text) (decimal : isDecimal numeral = true)
    (known : unit = [] ∨ (LengthUnit.ofText? unit).isSome = true) : FlatTerm :=
  ⟨" ", false, numeral, unit, " ", rfl, decimal, known, rfl⟩

theorem calculate_grouped_iff_mixtures :
    Settled "1px + 2em + 3ex" ∧ ¬Settled "1 + 2em" ∧ ¬Settled "1px - -1em" := by
  have hkept := calculate_grouped_iff (.spaced "1" "px" (by decide) (by decide))
    [(.add, .spaced "2" "em" (by decide) (by decide)),
      (.add, .spaced "3" "Ex" (by decide) (by decide))] (r := "1px + 2em + 3ex") (by decide +kernel)
  have herased := calculate_grouped_iff (.spaced "10" "px" (by decide) (by decide))
    [(.add, .spaced "2" "em" (by decide) (by decide)),
      (.sub, .spaced "0" "px" (by decide) (by decide))] (r := "1 + 2em") (by decide +kernel)
  have hsigned := calculate_grouped_iff (.spaced "1" "px" (by decide) (by decide))
    [(.sub, .spaced "2" "em" (by decide) (by decide)),
      (.sub, .spaced "3" "em" (by decide) (by decide))] (r := "1px - -1em") (by decide +kernel)
  refine ⟨hkept.2.1.1 (by decide +kernel), fun h => ?_, fun h => ?_⟩
  · exact absurd (herased.2.1.2 h) (by decide +kernel)
  · exact absurd (hsigned.2.1.2 h) (by decide +kernel)

end Offside
