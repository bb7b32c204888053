import Mathlib
import Offside.Proofs.Operand

/-!
# The value of a formula

A formula is a tree of operations over numbers, lengths and colors.  Written with a pair of
parentheses around every operation it is an expression for the calculator, which knows no trees: it
looks for the group that is closed first, replaces it by its value, and starts again.
`calculate_formula` says that what comes out is the value of the tree, computed from the leaves up,
and that the first operation to fail, in that order, is the one whose error is reported.

**Holes.**  The proof follows the tree.  While a subtree is worked on, the text around it is a
`Hole`: the parentheses before it are open groups, and whatever operand is put in, no two signs
meet.  `resolveGroups_hole` says that the subtree in a hole is replaced by its value, one group for
each of its operations; its induction hypothesis is used at the holes of the left and the right
operand.

**Signs.**  The value of a right operand may begin with a minus sign.  The calculator then takes an
addition for a subtraction and the other way around (`liftSign`), which is part of what is computed
and not something to be argued away.
-/

namespace Offside

/-! ## Formulas -/

/-- A numeral of the digits `0` to `9`, with at most one point among them. -/
def isDecimal (t : Text) : Bool :=
  t.all (fun c => c.isDigit || c == '.') && t.count '.' ≤ 1 && t.any Char.isDigit

/-- What a formula computes with.  A number or length is written without a sign. -/
inductive Leaf where
  | number (numeral : Text) (decimal : isDecimal numeral = true)
  | length (numeral : Text) (decimal : isDecimal numeral = true) (unit : LengthUnit)
  | color (value : Rgb)

/-- How a leaf is written. -/
def Leaf.text : Leaf → Text
  | number numeral _ => numeral
  | length numeral _ unit => numeral ++ unit.text
  | color value => value.text

/-- A tree of operations. -/
inductive Formula where
  | leaf (value : Leaf)
  | node (left : Formula) (op : Operator) (right : Formula)

/-- The operation that is done with a right operand: a minus sign in front of it turns an addition
into a subtraction of what follows, and a subtraction into an addition. -/
def liftSign : Operator → Text → Operator × Text
  | .add, '-' :: right => (.sub, right)
  | .sub, '-' :: right => (.add, right)
  | op, right => (op, right)

/-- The written result of an operation on two written operands. -/
def operate (left : Text) (op : Operator) (right : Text) : Except CalculationError Text :=
  ((Quantity.ofText left).apply (liftSign op right).1
    (Quantity.ofText (liftSign op right).2)).map Quantity.written

/-- A decimal, or a decimal with a unit after it. -/
def isMagnitude (t : Text) : Bool :=
  isDecimal t || LengthUnit.all.any fun unit => (Text.dropSuffix? unit.text t).any isDecimal

/-- The spelling of a color. -/
def isColorText (t : Text) : Bool := (Rgb.ofText? t).any fun color => color.text == t

/-- A signed decimal, a signed decimal with a unit, or a color. -/
def isResult : Text → Bool
  | '-' :: t => isMagnitude t
  | t => isMagnitude t || isColorText t

namespace Formula

/-- A formula as an expression, with parentheses around every operation. -/
def text : Formula → Text
  | leaf value => value.text
  | node left op right => '(' :: (left.text ++ ' ' :: op.symbol :: ' ' :: (right.text ++ [')']))

/-- The value of a formula: the left operand, then the right one, then the operation. -/
def value : Formula → Except CalculationError Text
  | leaf value => .ok value.text
  | node left op right => do
    let x ← left.value
    let y ← right.value
    operate x op y

/-- Whether every operation up to the first that fails gives a decimal, a length or a color, and not
an operation left as it was written, or a number that is infinite or none at all. -/
def resolves : Formula → Bool
  | leaf _ => true
  | node left op right =>
    left.resolves &&
      match left.value with
      | .error _ => true
      | .ok x =>
        right.resolves &&
          match right.value with
          | .error _ => true
          | .ok y =>
            match operate x op y with
            | .error _ => true
            | .ok result => isResult result

/-- How many operations a formula has. -/
def operations : Formula → Nat
  | leaf _ => 0
  | node left _ right => left.operations + right.operations + 1

end Formula

/-! ## Leaves and results are operands -/

/-- The digits `0` to `9`. -/
def digitChars : Text := "0123456789"

/-- The characters of decimals. -/
def decimalChars : Text := digitChars ++ "."

/-- The characters of decimals and units. -/
def magnitudeChars : Text := decimalChars ++ "pxemtinc%"

/-- The characters between the parentheses of a color. -/
def channelChars : Text := digitChars ++ ", "

lemma mem_digitChars {c : Char} (h : c.isDigit = true) : c ∈ digitChars := by
  have hc : c = Char.ofNat c.toNat := (Char.ofNat_toNat c).symm
  simp only [Char.isDigit, Bool.and_eq_true, decide_eq_true_eq, UInt32.le_iff_toNat_le] at h
  have hlow : 48 ≤ c.toNat := h.1
  have hhigh : c.toNat ≤ 57 := h.2
  rw [hc]
  interval_cases c.toNat <;> decide

lemma isDecimal_ne_nil {t : Text} (h : isDecimal t = true) : t ≠ [] := by
  rintro rfl
  simp [isDecimal] at h

lemma mem_decimalChars {t : Text} (h : isDecimal t = true) : ∀ c ∈ t, c ∈ decimalChars := by
  intro c hc
  simp only [isDecimal, Bool.and_eq_true, List.all_eq_true, Bool.or_eq_true, beq_iff_eq] at h
  rcases h.1.1 c hc with hdigit | rfl
  · exact List.mem_append_left _ (mem_digitChars hdigit)
  · decide

lemma mem_magnitudeChars_of_isDecimal {t : Text} (h : isDecimal t = true) :
    ∀ c ∈ t, c ∈ magnitudeChars :=
  fun c hc => List.mem_append_left _ (mem_decimalChars h c hc)

lemma mem_of_all_contains {s t : Text} (h : s.all t.contains = true) : ∀ c ∈ s, c ∈ t :=
  fun c hc => List.contains_iff_mem.1 (List.all_eq_true.1 h c hc)

lemma mem_magnitudeChars_of_unit (u : LengthUnit) : ∀ c ∈ u.text, c ∈ magnitudeChars :=
  mem_of_all_contains (by cases u <;> decide)

lemma mem_magnitudeChars_of_isMagnitude {t : Text} (h : isMagnitude t = true) :
    t ≠ [] ∧ ∀ c ∈ t, c ∈ magnitudeChars := by
  rw [isMagnitude, Bool.or_eq_true, List.any_eq_true] at h
  rcases h with h | ⟨u, -, hu⟩
  · exact ⟨isDecimal_ne_nil h, mem_magnitudeChars_of_isDecimal h⟩
  · obtain ⟨numeral, hdrop, hnumeral⟩ := (Option.any_eq_true _ _).1 hu
    rw [eq_append_of_dropSuffix? hdrop]
    refine ⟨by simp [isDecimal_ne_nil hnumeral], fun c hc => ?_⟩
    rcases List.mem_append.1 hc with hc | hc
    · exact mem_magnitudeChars_of_isDecimal hnumeral c hc
    · exact mem_magnitudeChars_of_unit u c hc

/-- What stands between the parentheses of a color. -/
def Rgb.inner (c : Rgb) : Text :=
  Text.ofNat c.red.toNat ++ ", " ++ Text.ofNat c.green.toNat ++ ", " ++ Text.ofNat c.blue.toNat

lemma Rgb.text_eq (c : Rgb) : c.text = "rgb(" ++ c.inner ++ ")" := by
  unfold Rgb.text Rgb.inner
  simp only [List.append_assoc]

lemma Rgb.mem_channelChars (color : Rgb) : ∀ c ∈ color.inner, c ∈ channelChars := by
  have hnat : ∀ n : Nat, ∀ c ∈ Text.ofNat n, c ∈ channelChars := fun n c hc =>
    List.mem_append_left _ (mem_digitChars (Nat.isDigit_of_mem_toDigits (by decide) (by decide) hc))
  intro c hc
  simp only [Rgb.inner, List.mem_append] at hc
  rcases hc with (((hc | hc) | hc) | hc) | hc
  · exact hnat _ c hc
  · exact mem_of_all_contains (by decide) c hc
  · exact hnat _ c hc
  · exact mem_of_all_contains (by decide) c hc
  · exact hnat _ c hc

/-- A character that means nothing to the calculator. -/
def isOrdinary (c : Char) : Bool := !isOperator c && c != '"' && c != '(' && c != ')'

lemma isOrdinary_iff {c : Char} :
    isOrdinary c = true ↔ ((isOperator c = false ∧ c ≠ '"') ∧ c ≠ '(') ∧ c ≠ ')' := by
  simp [isOrdinary]

lemma isOrdinary_of_mem_magnitudeChars {c : Char} (h : c ∈ magnitudeChars) :
    isOrdinary c = true ∧ Text.isBlank c = false := by
  have hall : magnitudeChars.all (fun d => isOrdinary d && !Text.isBlank d) = true := by decide
  simpa using List.all_eq_true.1 hall c h

lemma isOrdinary_of_mem_channelChars {c : Char} (h : c ∈ channelChars) : isOrdinary c = true :=
  List.all_eq_true.1 (by decide) c h

lemma notMem_of_isOrdinary {t : Text} (h : ∀ c ∈ t, isOrdinary c = true) {c : Char}
    (hc : isOrdinary c = false) : c ∉ t := fun hmem => by
  simp [h c hmem] at hc

namespace Operand

/-- A signed magnitude as an operand. -/
def ofMagnitude (negative : Bool) (t : Text) (hne : t ≠ []) (h : ∀ c ∈ t, c ∈ magnitudeChars) :
    Operand :=
  have hordinary : ∀ c ∈ t, isOrdinary c = true := fun c hc =>
    (isOrdinary_of_mem_magnitudeChars (h c hc)).1
  have hvisible : ∀ c ∈ t, Text.isBlank c = false := fun c hc =>
    (isOrdinary_of_mem_magnitudeChars (h c hc)).2
  { negative := negative
    body := t
    nonempty := hne
    noOperator := fun c hc => (isOrdinary_iff.1 (hordinary c hc)).1.1.1
    noQuote := notMem_of_isOrdinary hordinary (by decide)
    trimmed := ⟨fun c hc => hvisible c (List.mem_of_head? hc),
      fun c hc => hvisible c (List.mem_of_getLast? hc)⟩
    parens := Or.inl ⟨notMem_of_isOrdinary hordinary (by decide),
      notMem_of_isOrdinary hordinary (by decide)⟩ }

/-- A color as an operand. -/
def ofColor (color : Rgb) : Operand :=
  have hinner : ∀ c ∈ color.inner, isOrdinary c = true := fun c hc =>
    isOrdinary_of_mem_channelChars (color.mem_channelChars c hc)
  { negative := false
    body := color.text
    nonempty := by simp [Rgb.text_eq]
    noOperator := by
      intro c hc
      rw [Rgb.text_eq, List.mem_append, List.mem_append] at hc
      rcases hc with (hc | hc) | hc
      · simpa using List.all_eq_true.1 (by decide : "rgb(".toList.all (!isOperator ·) = true) c hc
      · exact (isOrdinary_iff.1 (hinner c hc)).1.1.1
      · simpa using List.all_eq_true.1 (by decide : ")".toList.all (!isOperator ·) = true) c hc
    noQuote := by
      rw [Rgb.text_eq, List.mem_append, List.mem_append]
      rintro ((hc | hc) | hc)
      · exact absurd hc (by decide)
      · exact notMem_of_isOrdinary hinner (by decide) hc
      · exact absurd hc (by decide)
    trimmed := by
      rw [Rgb.text_eq]
      refine ⟨fun c hc => ?_, fun c hc => ?_⟩
      · have hr : c = 'r' := by simpa using hc.symm
        rw [hr]
        rfl
      · rw [List.getLast?_append_of_ne_nil _ (by decide)] at hc
        cases hc
        rfl
    parens := Or.inr ⟨color.inner, color.text_eq, notMem_of_isOrdinary hinner (by decide),
      notMem_of_isOrdinary hinner (by decide)⟩ }

end Operand

lemma exists_operand_of_isMagnitude {t : Text} (h : isMagnitude t = true) (negative : Bool) :
    ∃ x : Operand, x.text = if negative then '-' :: t else t := by
  obtain ⟨hne, hmem⟩ := mem_magnitudeChars_of_isMagnitude h
  exact ⟨.ofMagnitude negative t hne hmem, rfl⟩

lemma exists_operand_of_isResult {t : Text} (h : isResult t = true) :
    ∃ x : Operand, x.text = t := by
  unfold isResult at h
  split at h
  · exact exists_operand_of_isMagnitude h true
  · rcases Bool.or_eq_true _ _ ▸ h with hmagnitude | hcolor
    · exact exists_operand_of_isMagnitude hmagnitude false
    · obtain ⟨color, -, htext⟩ := (Option.any_eq_true _ _).1 hcolor
      exact ⟨.ofColor color, beq_iff_eq.1 htext⟩

lemma Leaf.exists_operand (l : Leaf) : ∃ x : Operand, x.text = l.text := by
  cases l with
  | number numeral decimal =>
      exact ⟨.ofMagnitude false numeral (isDecimal_ne_nil decimal)
        (mem_magnitudeChars_of_isDecimal decimal), rfl⟩
  | length numeral decimal unit =>
      have hne : numeral ++ unit.text ≠ [] := by simp [isDecimal_ne_nil decimal]
      refine ⟨.ofMagnitude false (numeral ++ unit.text) hne ?_, rfl⟩
      intro c hc
      rcases List.mem_append.1 hc with hc | hc
      · exact mem_magnitudeChars_of_isDecimal decimal c hc
      · exact mem_magnitudeChars_of_unit unit c hc
  | color value => exact ⟨.ofColor value, rfl⟩

/-! ## Neighbouring characters

Two passes look for pairs of neighbours that a formula does not have: a sign with a minus sign after
it, which `normalizeSigns` would rewrite, and the first two letters of a color name, which could be
the beginning of one for `expandNames`.
-/

/-- Not a sign with a minus sign after it. -/
def SignsApart (a b : Char) : Prop := ¬((a = '+' ∨ a = '-') ∧ b = '-')

/-- Not the first two letters of a color name. -/
def NamesApart (a b : Char) : Prop :=
  ∀ p ∈ colorNames,
    (p.1.head?.any (Text.sameFold · a) && p.1.tail.head?.any (Text.sameFold · b)) = false

/-- Neighbours that neither pass rewrites. -/
def Apart (a b : Char) : Prop := SignsApart a b ∧ NamesApart a b

instance (a b : Char) : Decidable (SignsApart a b) := inferInstanceAs (Decidable (¬ _))

instance (a b : Char) : Decidable (NamesApart a b) := inferInstanceAs (Decidable (∀ p ∈ _, _))

instance (a b : Char) : Decidable (Apart a b) := inferInstanceAs (Decidable (_ ∧ _))

lemma normalizeSigns_of_isChain {t : Text} (h : t.IsChain SignsApart) : normalizeSigns t = t := by
  have hm : mergeMinus t = t := by
    induction t with
    | nil => rfl
    | cons c cs ih =>
        rw [mergeMinus, ih h.tail]
        rintro rest rfl rfl
        exact (List.isChain_cons_cons.1 h).1 ⟨Or.inr rfl, rfl⟩
  have hp : dropPlus t = t := by
    clear hm
    induction t with
    | nil => rfl
    | cons c cs ih =>
        rw [dropPlus, ih h.tail]
        rintro rest rfl rfl
        exact (List.isChain_cons_cons.1 h).1 ⟨Or.inl rfl, rfl⟩
  rw [normalizeSigns, hm, hp]

/-- Color names have two letters at least, so two neighbours are enough to rule them out. -/
lemma colorNameAt?_of_isChain {c : Char} {cs : Text} (h : (c :: cs).IsChain NamesApart) :
    colorNameAt? (c :: cs) = none := by
  have hlong : ∀ p ∈ colorNames, ∃ a b rest, p.1 = a :: b :: rest := by
    intro p hp
    have : 2 ≤ p.1.length := (by decide : ∀ q ∈ colorNames, 2 ≤ q.1.length) p hp
    match hname : p.1 with
    | [] => simp [hname] at this
    | [a] => simp [hname] at this
    | a :: b :: rest => exact ⟨a, b, rest, rfl⟩
  rw [colorNameAt?, List.findSome?_eq_none_iff]
  rintro ⟨name, color⟩ hp
  obtain ⟨a, b, rest, hname⟩ := hlong _ hp
  simp only at hname
  have hnone : Text.dropFoldPrefix? name (c :: cs) = none := by
    rw [hname, Text.dropFoldPrefix?]
    split_ifs with ha
    · cases cs with
      | nil => rfl
      | cons d ds =>
          have hb : Text.sameFold b d = false := by
            simpa [hname, ha] using (List.isChain_cons_cons.1 h).1 _ hp
          simp [Text.dropFoldPrefix?, hb]
    · rfl
  simp [hnone]

lemma expandNamesFrom_of_isChain {t : Text} (h : t.IsChain NamesApart) (previous : Option Char) :
    expandNamesFrom 0 previous t = t := by
  induction t generalizing previous with
  | nil => rfl
  | cons c cs ih => simp [expandNamesFrom, colorNameAt?_of_isChain h, ih h.tail]

lemma expandHexFrom_eq_self {t : Text} (h : '#' ∉ t) : expandHexFrom 0 t = t := by
  induction t with
  | nil => rfl
  | cons c cs ih =>
      rw [List.mem_cons, not_or] at h
      simp [expandHexFrom, Ne.symm h.1, ih h.2]

/-- A character that stands apart from any other after it. -/
def isQuietBefore (a : Char) : Bool :=
  a != '+' && a != '-' && colorNames.all fun p => !p.1.head?.any (Text.sameFold · a)

/-- A character that stands apart from any other before it. -/
def isQuietAfter (b : Char) : Bool :=
  b != '-' && colorNames.all fun p => !p.1.tail.head?.any (Text.sameFold · b)

lemma apart_of_isQuietBefore {a : Char} (h : isQuietBefore a = true) (b : Char) : Apart a b := by
  simp only [isQuietBefore, Bool.and_eq_true, bne_iff_ne, List.all_eq_true, Bool.not_eq_true'] at h
  refine ⟨fun hs => ?_, fun p hp => by rw [h.2 p hp, Bool.false_and]⟩
  rcases hs.1 with ha | ha
  · exact h.1.1 ha
  · exact h.1.2 ha

lemma apart_of_isQuietAfter {b : Char} (h : isQuietAfter b = true) (a : Char) : Apart a b := by
  simp only [isQuietAfter, Bool.and_eq_true, bne_iff_ne, List.all_eq_true, Bool.not_eq_true'] at h
  exact ⟨fun hs => h.1 hs.2, fun p hp => by rw [h.2 p hp, Bool.and_false]⟩

lemma isChain_apart_append {t rest : Text} (h : ∀ c ∈ t, isQuietBefore c = true)
    (hrest : rest.IsChain Apart) : (t ++ rest).IsChain Apart := by
  induction t with
  | nil => exact hrest
  | cons c cs ih =>
      have hcs := ih fun d hd => h d (List.mem_cons_of_mem _ hd)
      refine List.isChain_cons.2 ⟨fun d _ => ?_, hcs⟩
      exact apart_of_isQuietBefore (h c List.mem_cons_self) d

/-- What stands on the two sides of a parenthesis or blank does not meet. -/
lemma isChain_apart_append_cons {s t : Text} {c : Char} (hbefore : isQuietBefore c = true)
    (hafter : isQuietAfter c = true) (hs : s.IsChain Apart) (ht : t.IsChain Apart) :
    (s ++ c :: t).IsChain Apart := by
  refine List.isChain_append.2 ⟨hs, ?_, fun a _ b hb => ?_⟩
  · exact List.isChain_cons.2 ⟨fun d _ => apart_of_isQuietBefore hbefore d, ht⟩
  · cases hb
    exact apart_of_isQuietAfter hafter a

lemma Leaf.isChain_apart (l : Leaf) : l.text.IsChain Apart := by
  have hdecimal : ∀ {t : Text}, isDecimal t = true → ∀ c ∈ t, isQuietBefore c = true :=
    fun h c hc =>
      List.all_eq_true.1 (by decide : decimalChars.all isQuietBefore = true) c
        (mem_decimalChars h c hc)
  cases l with
  | number numeral decimal =>
      have := isChain_apart_append (hdecimal decimal) List.isChain_nil
      rwa [List.append_nil] at this
  | length numeral decimal unit =>
      exact isChain_apart_append (hdecimal decimal) (by cases unit <;> decide)
  | color value =>
      have hinner : (value.inner ++ [')']).IsChain Apart := by
        refine isChain_apart_append (fun c hc => ?_) (List.isChain_singleton _)
        exact List.all_eq_true.1 (by decide : channelChars.all isQuietBefore = true) c
          (value.mem_channelChars c hc)
      rw [Leaf.text, Rgb.text_eq, List.append_assoc]
      exact isChain_apart_append_cons (s := "rgb".toList) (by decide) (by decide) (by decide) hinner

lemma Formula.isChain_apart (e : Formula) : e.text.IsChain Apart := by
  induction e with
  | leaf l => exact l.isChain_apart
  | node left op right ihl ihr =>
      have hright : (right.text ++ [')']).IsChain Apart :=
        isChain_apart_append_cons (by decide) (by decide) ihr List.isChain_nil
      have hop : ([op.symbol] ++ ' ' :: (right.text ++ [')'])).IsChain Apart :=
        isChain_apart_append_cons (by decide) (by decide) (List.isChain_singleton _) hright
      have hleft := isChain_apart_append_cons (c := ' ') (by decide) (by decide) ihl hop
      exact isChain_apart_append_cons (c := '(') (by decide) (by decide) List.isChain_nil hleft

lemma Leaf.hash_notMem (l : Leaf) : '#' ∉ l.text := by
  intro h
  cases l with
  | number numeral decimal =>
      exact absurd (mem_decimalChars decimal _ h) (by decide)
  | length numeral decimal unit =>
      rcases List.mem_append.1 h with h | h
      · exact absurd (mem_decimalChars decimal _ h) (by decide)
      · exact absurd (mem_magnitudeChars_of_unit unit _ h) (by decide)
  | color value =>
      rw [Leaf.text, Rgb.text_eq, List.mem_append, List.mem_append] at h
      rcases h with (h | h) | h
      · exact absurd h (by decide)
      · exact absurd (value.mem_channelChars _ h) (by decide)
      · exact absurd h (by decide)

lemma Formula.hash_notMem (e : Formula) : '#' ∉ e.text := by
  induction e with
  | leaf l => exact l.hash_notMem
  | node left op right ihl ihr =>
      have hop : '#' ≠ op.symbol := by cases op <;> decide
      simp [Formula.text, ihl, ihr, hop]

lemma Formula.expandColors_text (e : Formula) : expandColors e.text = e.text := by
  have hnames : e.text.IsChain NamesApart := e.isChain_apart.imp fun _ _ h => h.2
  rw [expandColors, expandNames, expandNamesFrom_of_isChain hnames,
    expandHexFrom_eq_self e.hash_notMem]

/-! ## Holes -/

lemma isChain_signsApart_append {s t : Text} (hs : s.IsChain SignsApart) (ht : t.IsChain SignsApart)
    (h : (∀ c ∈ s.getLast?, c ≠ '+' ∧ c ≠ '-') ∨ ∀ c ∈ t.head?, c ≠ '-') :
    (s ++ t).IsChain SignsApart := by
  refine List.isChain_append.2 ⟨hs, ht, fun a ha b hb hpair => ?_⟩
  rcases h with h | h
  · rcases hpair.1 with rfl | rfl
    · exact (h _ ha).1 rfl
    · exact (h _ ha).2 rfl
  · exact h b hb hpair.2

lemma isChain_signsApart_of_minus_notMem {t : Text} (h : '-' ∉ t) : t.IsChain SignsApart := by
  induction t with
  | nil => exact List.isChain_nil
  | cons c cs ih =>
      rw [List.mem_cons, not_or] at h
      refine List.isChain_cons.2 ⟨fun d hd hpair => ?_, ih h.2⟩
      exact h.2 (hpair.2 ▸ List.mem_of_head? hd)

lemma Operand.isChain_signsApart (x : Operand) : x.text.IsChain SignsApart := by
  have hbody := isChain_signsApart_of_minus_notMem x.minus_notMem_body
  unfold Operand.text
  split_ifs
  · refine List.isChain_cons.2 ⟨fun d hd hpair => ?_, hbody⟩
    exact x.minus_notMem_body (hpair.2 ▸ List.mem_of_head? hd)
  · exact hbody

/-- The text around an operand that is worked on.  Reading `before` leaves the groups of `opened`
open, and the signs of the operand do not meet any others. -/
structure Hole (before : Text) (opened : List Text) (after : Text) : Prop where
  scan : ∀ whole rest, firstGroupFrom whole false [] [] (before ++ rest)
    = firstGroupFrom whole false opened before.reverse rest
  notColor : opensColor before.reverse = false
  signsBefore : before.IsChain SignsApart
  lastBefore : ∀ c ∈ before.getLast?, c ≠ '+' ∧ c ≠ '-'
  signsAfter : after.IsChain SignsApart
  firstAfter : ∀ c ∈ after.head?, c ≠ '-'

namespace Hole

variable {before after : Text} {opened : List Text}

/-- The hole that a whole expression stands in. -/
lemma whole : Hole [] [] [] where
  scan _ _ := rfl
  notColor := rfl
  signsBefore := List.isChain_nil
  lastBefore c hc := by simp at hc
  signsAfter := List.isChain_nil
  firstAfter c hc := by simp at hc

/-- The hole of a left operand. -/
lemma left (h : Hole before opened after) (op : Operator) (right : Formula) :
    Hole (before ++ ['(']) (before.reverse :: opened)
      (' ' :: op.symbol :: ' ' :: (right.text ++ ')' :: after)) where
  scan whole rest := by
    rw [List.append_assoc, h.scan]
    simp [firstGroupFrom]
  notColor := by simp [opensColor, Text.startsWith, Text.lowerAscii, Text.dropPrefix?]
  signsBefore :=
    isChain_signsApart_append h.signsBefore (List.isChain_singleton _) (Or.inl h.lastBefore)
  lastBefore c hc := by
    rw [List.getLast?_append_of_ne_nil _ (by simp)] at hc
    cases hc
    decide
  signsAfter := by
    have hright : (right.text ++ ')' :: after).IsChain SignsApart := by
      refine isChain_signsApart_append (right.isChain_apart.imp fun _ _ hc => hc.1) ?_ ?_
      · exact isChain_signsApart_append (List.isChain_singleton ')') h.signsAfter
          (Or.inr h.firstAfter)
      · exact Or.inr fun c hc => by cases hc; decide
    refine isChain_signsApart_append (s := [' ', op.symbol, ' ']) ?_ hright ?_
    · cases op <;> decide
    · refine Or.inl fun c hc => ?_
      rw [show [' ', op.symbol, ' '].getLast? = some ' ' from rfl] at hc
      cases hc
      decide
  firstAfter c hc := by
    cases hc
    decide

/-- The hole of a right operand, once the left one has its value. -/
lemma right (h : Hole before opened after) (x : Operand) (op : Operator) :
    Hole (before ++ '(' :: (x.text ++ [' ', op.symbol, ' '])) (before.reverse :: opened)
      (')' :: after) where
  scan whole rest := by
    have hquote : op.symbol ≠ '"' := by cases op <;> decide
    have hopen : op.symbol ≠ '(' := by cases op <;> decide
    have hclose : op.symbol ≠ ')' := by cases op <;> decide
    rw [List.append_assoc, h.scan]
    simp [firstGroupFrom, x.firstGroupFrom_text, hquote, hopen, hclose]
  notColor := by simp [opensColor, Text.startsWith, Text.lowerAscii, Text.dropPrefix?]
  signsBefore := by
    refine isChain_signsApart_append h.signsBefore ?_ (Or.inl h.lastBefore)
    refine isChain_signsApart_append (s := ['(']) (List.isChain_singleton _) ?_ ?_
    · refine isChain_signsApart_append x.isChain_signsApart (by cases op <;> decide) ?_
      exact Or.inr fun c hc => by cases hc; decide
    · exact Or.inl fun c hc => by cases hc; decide
  lastBefore c hc := by
    rw [show before ++ '(' :: (x.text ++ [' ', op.symbol, ' '])
        = before ++ '(' :: (x.text ++ [' ', op.symbol]) ++ [' '] by simp,
      List.getLast?_concat] at hc
    cases hc
    decide
  signsAfter :=
    isChain_signsApart_append (List.isChain_singleton ')') h.signsAfter (Or.inr h.firstAfter)
  firstAfter c hc := by
    cases hc
    decide

lemma normalizeSigns_eq (h : Hole before opened after) (x : Operand) :
    normalizeSigns (before ++ x.text ++ after) = before ++ x.text ++ after := by
  refine normalizeSigns_of_isChain (isChain_signsApart_append ?_ h.signsAfter (Or.inr h.firstAfter))
  exact isChain_signsApart_append h.signsBefore x.isChain_signsApart (Or.inl h.lastBefore)

/-- An operation on two operands is the group that is closed first. -/
lemma firstGroup_eq (h : Hole before opened after) (x : Operand) (op : Operator) (y : Operand) :
    firstGroup (before ++ '(' :: (x.text ++ ' ' :: op.symbol :: ' ' :: (y.text ++ ')' :: after)))
      = .ok (some ⟨before, x.text ++ ' ' :: op.symbol :: ' ' :: y.text, after⟩) := by
  have hscan := (h.right x op).scan
    (before ++ '(' :: (x.text ++ ' ' :: op.symbol :: ' ' :: (y.text ++ ')' :: after)))
    (y.text ++ ')' :: after)
  have hpassed : y.text.reverse ++ (before ++ '(' :: (x.text ++ [' ', op.symbol, ' '])).reverse
      = (x.text ++ ' ' :: op.symbol :: ' ' :: y.text).reverse ++ '(' :: before.reverse := by simp
  simp only [List.append_assoc, List.cons_append, List.nil_append] at hscan
  rw [firstGroup, hscan, y.firstGroupFrom_text, hpassed, firstGroupFrom_close h.notColor,
    List.reverse_reverse]

end Hole

/-! ## The value of a formula -/

lemma liftSign_text (op : Operator) (y : Operand) :
    liftSign op y.text = ((Operand.settle op y).1, (Operand.settle op y).2.text) := by
  have hbody : ∀ o, liftSign o y.body = (o, y.body) := by
    intro o
    obtain ⟨c, cs, hc⟩ := List.exists_cons_of_ne_nil y.nonempty
    have hminus : c ≠ '-' := by
      rintro rfl
      exact y.minus_notMem_body (hc ▸ List.mem_cons_self)
    rw [hc]
    cases o <;> simp [liftSign, hminus]
  cases hneg : y.negative with
  | false => cases op <;> simp [Operand.settle, Operand.text, hneg, hbody]
  | true => cases op <;> simp [Operand.settle, Operand.text, Operand.unsigned, hneg, liftSign]

lemma operate_text (x : Operand) (op : Operator) (y : Operand) :
    operate x.text op y.text = (x.computed op y).map Quantity.written := by
  rw [operate, liftSign_text]
  rfl

/-- An operation on two operands is computed. -/
lemma reduce_operate (x : Operand) (op : Operator) (y : Operand)
    (h : ∀ result, operate x.text op y.text = .ok result → isResult result = true) :
    reduce (x.text ++ ' ' :: op.symbol :: ' ' :: y.text) = operate x.text op y.text := by
  rw [operate_text] at h ⊢
  cases hvalue : x.computed op y with
  | error e =>
      rw [Operand.reduce_operation_of_error hvalue]
      rfl
  | ok value =>
      obtain ⟨z, hz⟩ := exists_operand_of_isResult (h value.written (by rw [hvalue]; rfl))
      rw [Operand.reduce_operation_of_ok hvalue hz.symm, hz]
      rfl

namespace Formula

lemma resolves_node {left right : Formula} {op : Operator}
    (h : (node left op right).resolves = true) :
    left.resolves = true ∧ ∀ x, left.value = .ok x → right.resolves = true ∧
      ∀ y, right.value = .ok y →
        ∀ result, operate x op y = .ok result → isResult result = true := by
  rw [resolves, Bool.and_eq_true] at h
  refine ⟨h.1, fun x hx => ?_⟩
  have hright := h.2
  rw [hx, Bool.and_eq_true] at hright
  refine ⟨hright.1, fun y hy result hresult => ?_⟩
  have hlast := hright.2
  rw [hy] at hlast
  simpa only [hresult] using hlast

/-- The value of a formula that resolves is an operand. -/
lemma exists_operand_of_value {e : Formula} (h : e.resolves = true) {v : Text}
    (hv : e.value = .ok v) : ∃ x : Operand, x.text = v := by
  cases e with
  | leaf l =>
      cases hv
      exact l.exists_operand
  | node left op right =>
      obtain ⟨-, hleft⟩ := resolves_node h
      rw [value] at hv
      cases hx : left.value with
      | error e => rw [hx] at hv; cases hv
      | ok x =>
          cases hy : right.value with
          | error e => rw [hx, hy] at hv; cases hv
          | ok y =>
              rw [hx, hy] at hv
              exact exists_operand_of_isResult ((hleft x hx).2 y hy v hv)

/-- A formula in a hole is replaced by its value, one group for each operation. -/
lemma resolveGroups_hole {e : Formula} (he : e.resolves = true) {before after : Text}
    {opened : List Text} (h : Hole before opened after) (count : Nat) :
    resolveGroupsWithin (count + e.operations) (before ++ e.text ++ after)
      = e.value >>= fun v => resolveGroupsWithin count (before ++ v ++ after) := by
  induction e generalizing before after opened count with
  | leaf l => rfl
  | node left op right ihl ihr =>
      obtain ⟨hl, hrest⟩ := resolves_node he
      -- first the left operand, in its hole
      have htext : before ++ (node left op right).text ++ after = before ++ ['('] ++ left.text ++
          ' ' :: op.symbol :: ' ' :: (right.text ++ ')' :: after) := by
        simp [text]
      have hcount : count + (node left op right).operations
          = count + 1 + right.operations + left.operations := by
        rw [operations]
        omega
      rw [htext, hcount, ihl hl (h.left op right), value]
      cases hx : left.value with
      | error e => rfl
      | ok x =>
          obtain ⟨hr, hresult⟩ := hrest x hx
          obtain ⟨X, rfl⟩ := exists_operand_of_value hl hx
          -- then the right one
          have hright := ihr hr (h.right X op) (count + 1)
          simp only [List.append_assoc, List.cons_append, List.nil_append] at hright
          change resolveGroupsWithin _ (before ++ ['('] ++ X.text ++ _) = _
          simp only [List.append_assoc, List.cons_append, List.nil_append]
          rw [hright]
          cases hy : right.value with
          | error e => rfl
          | ok y =>
              obtain ⟨Y, rfl⟩ := exists_operand_of_value hr hy
              -- and now the operation is the first group
              have hreduce := reduce_operate X op Y (hresult Y.text hy)
              change resolveGroupsWithin (count + 1) _ = operate X.text op Y.text >>= _
              rw [resolveGroupsWithin, h.firstGroup_eq, ← hreduce]
              cases hz : reduce (X.text ++ ' ' :: op.symbol :: ' ' :: Y.text) with
              | error e => simp only [bind, Except.bind, hz]
              | ok z =>
                  rw [hreduce] at hz
                  obtain ⟨Z, rfl⟩ := exists_operand_of_isResult (hresult Y.text hy z hz)
                  rw [← hreduce] at hz
                  have hsigns := h.normalizeSigns_eq Z
                  simp only [List.append_assoc] at hsigns
                  simp only [bind, Except.bind, hz, hsigns, List.append_assoc]

lemma operations_le (e : Formula) : e.operations ≤ e.text.count '(' := by
  induction e with
  | leaf l => exact Nat.zero_le _
  | node left op right ihl ihr =>
      simp only [operations, text, List.count_cons, List.count_append, beq_self_eq_true, if_true]
      omega

end Formula

/-- **The calculator computes the value of a formula**, and fails with the error of the first
operation that fails. -/
theorem calculate_formula (e : Formula) (h : e.resolves = true) :
    Calculator.empty.calculate e.text = e.value := by
  obtain ⟨extra, hextra⟩ := Nat.exists_eq_add_of_le e.operations_le
  have hgroups := Formula.resolveGroups_hole h Hole.whole (extra + 1)
  simp only [List.nil_append, List.append_nil] at hgroups
  have hcount : e.text.count '(' + 1 = extra + 1 + e.operations := by omega
  rw [Calculator.calculate, Calculator.substitute_empty, e.expandColors_text, resolveGroups, hcount,
    hgroups]
  cases hv : e.value with
  | error e => rfl
  | ok v =>
      obtain ⟨x, rfl⟩ := Formula.exists_operand_of_value h hv
      have hnone : firstGroup x.text = .ok none := by
        have := x.firstGroupFrom_text x.text [] [] []
        rw [List.append_nil] at this
        rw [firstGroup, this]
        rfl
      change (resolveGroupsWithin (extra + 1) x.text >>= reduce) = _
      rw [resolveGroupsWithin, hnone]
      exact x.reduceWithin_text _

/-- The formula `((2px * 3) - ((1 - 3) * 2px))`, whose right operand is negative, and the formula
`(1 + (10px / (2 - 2)))`, which fails below its root. -/
theorem calculate_formula_signed_and_failing :
    let two : Formula := .leaf (.number "2" (by decide))
    let product : Formula := .node (.leaf (.length "2" (by decide) .px)) .mul
      (.leaf (.number "3" (by decide)))
    let negative : Formula := .node
      (.node (.leaf (.number "1" (by decide))) .sub (.leaf (.number "3" (by decide)))) .mul
      (.leaf (.length "2" (by decide) .px))
    let failing : Formula := .node (.leaf (.number "1" (by decide))) .add
      (.node (.leaf (.length "10" (by decide) .px)) .div (.node two .sub two))
    Calculator.empty.calculate (Formula.node product .sub negative).text = .ok "10px".toList ∧
      Calculator.empty.calculate failing.text = .error (.divisionByZero "10 / 0".toList) :=
  ⟨(calculate_formula _ (by decide +kernel)).trans (by decide +kernel),
    (calculate_formula _ (by decide +kernel)).trans (by decide +kernel)⟩

end Offside
