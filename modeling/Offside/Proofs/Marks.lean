import Mathlib
import Offside.Proofs.Operand

/-!
# The marks of a text

The calculator replaces groups and operations in the text of an expression by the texts of their
values.  To follow the parentheses through such a run, a text is reduced to its `Marks`: what is
left of its parentheses when those that belong together are taken out, first closing and then
opening ones, and the number of its quotes.

**Products.**  Marks multiply when texts are put together, so each pass over an expression has one
equation: the marks stay the same (`marks_trim`, `marks_tightenFrom`, `marks_normalizeSigns`,
`marks_expandColors`).  A text without quotes is balanced exactly when its marks are one
(`marks_eq_one_iff`).

**Quantities.**  A number, a length and a color are written without marks, and so is every text that
is read as one of them; reading a text as a quantity and writing it again keeps its marks
(`Quantity.marks_written_ofText`).
-/

namespace Offside

/-! ## Balance -/

/-- How many parentheses are open after a text, when `opened` were before it; `none` if one is
closed that was not open. -/
def nesting (opened : Nat) : Text → Option Nat
  | [] => some opened
  | c :: rest =>
    if c = '(' then nesting (opened + 1) rest
    else if c = ')' then if opened = 0 then none else nesting (opened - 1) rest
    else nesting opened rest

/-- Every parenthesis has its partner. -/
def Balanced (t : Text) : Prop := nesting 0 t = some 0

instance (t : Text) : Decidable (Balanced t) := inferInstanceAs (Decidable (_ = _))

/-! ## Marks -/

/-- The parentheses of a text that have no partner in it, the closing ones before the opening ones,
and how many quotes it has. -/
@[ext] structure Marks where
  closing : Nat
  opening : Nat
  quotes : Nat
  deriving DecidableEq

namespace Marks

/-- Opening ones on the left meet closing ones on the right. -/
instance : Mul Marks where
  mul x y :=
    ⟨x.closing + (y.closing - x.opening), y.opening + (x.opening - y.closing), x.quotes + y.quotes⟩

instance : One Marks where
  one := ⟨0, 0, 0⟩

@[simp] lemma closing_mul (x y : Marks) :
    (x * y).closing = x.closing + (y.closing - x.opening) := rfl

@[simp] lemma opening_mul (x y : Marks) :
    (x * y).opening = y.opening + (x.opening - y.closing) := rfl

@[simp] lemma quotes_mul (x y : Marks) : (x * y).quotes = x.quotes + y.quotes := rfl

@[simp] lemma closing_one : (1 : Marks).closing = 0 := rfl

@[simp] lemma opening_one : (1 : Marks).opening = 0 := rfl

@[simp] lemma quotes_one : (1 : Marks).quotes = 0 := rfl

instance : Monoid Marks where
  mul_assoc x y z := by ext <;> simp <;> omega
  one_mul x := by ext <;> simp
  mul_one x := by ext <;> simp

end Marks

/-- The marks of one character. -/
def mark (c : Char) : Marks :=
  if c = '(' then ⟨0, 1, 0⟩ else if c = ')' then ⟨1, 0, 0⟩ else if c = '"' then ⟨0, 0, 1⟩ else 1

/-- The marks of a text. -/
def marks (t : Text) : Marks := (t.map mark).prod

@[simp] lemma marks_nil : marks [] = 1 := rfl

@[simp] lemma marks_cons (c : Char) (t : Text) : marks (c :: t) = mark c * marks t := by
  simp [marks]

@[simp] lemma marks_append (s t : Text) : marks (s ++ t) = marks s * marks t := by
  simp [marks]

lemma nesting_eq (t : Text) (opened : Nat) :
    nesting opened t
      = if (marks t).closing ≤ opened then some (opened - (marks t).closing + (marks t).opening)
        else none := by
  induction t generalizing opened with
  | nil => simp [nesting]
  | cons c cs ih =>
      simp only [nesting, marks_cons, mark, ih]
      by_cases hopen : c = '('
      · simp only [if_pos hopen, Marks.closing_mul, Marks.opening_mul]
        grind
      by_cases hclose : c = ')'
      · simp only [if_neg hopen, if_pos hclose, Marks.closing_mul, Marks.opening_mul]
        grind
      -- Neither a quote nor any other character counts for the nesting.
      by_cases hquote : c = '"' <;> simp [hopen, hclose, hquote]

lemma quotes_marks (t : Text) : (marks t).quotes = t.count '"' := by
  induction t with
  | nil => rfl
  | cons c cs ih =>
      rw [marks_cons, Marks.quotes_mul, ih, List.count_cons, mark]
      split_ifs <;> simp_all [Nat.add_comm]

/-- Marks of one mean no quotes, and balanced parentheses. -/
lemma marks_eq_one_iff {t : Text} : marks t = 1 ↔ '"' ∉ t ∧ Balanced t := by
  rw [Balanced, nesting_eq, ← List.count_eq_zero, ← quotes_marks, Marks.ext_iff]
  constructor
  · rintro ⟨hclosing, hopening, hquotes⟩
    exact ⟨hquotes, by rw [hclosing, hopening]; rfl⟩
  · rintro ⟨hquotes, hnesting⟩
    split_ifs at hnesting with hclosing
    have hopening := Option.some.inj hnesting
    exact ⟨Nat.le_zero.1 hclosing, by simpa using (Nat.add_eq_zero_iff.1 hopening).2, hquotes⟩

/-- A character that is neither parenthesis nor quote. -/
def isPlain (c : Char) : Bool := c != '(' && c != ')' && c != '"'

lemma mark_of_isPlain {c : Char} (h : isPlain c = true) : mark c = 1 := by
  simp only [isPlain, Bool.and_eq_true, bne_iff_ne] at h
  rw [mark, if_neg h.1.1, if_neg h.1.2, if_neg h.2]

lemma marks_of_isPlain {t : Text} (h : ∀ c ∈ t, isPlain c = true) : marks t = 1 := by
  induction t with
  | nil => rfl
  | cons c cs ih =>
      rw [marks_cons, mark_of_isPlain (h c List.mem_cons_self),
        ih fun d hd => h d (List.mem_cons_of_mem _ hd), one_mul]

/-- What is true of no parenthesis and no quote holds of plain characters only. -/
lemma isPlain_of_test {p : Char → Bool} (hp : "()\"".toList.any p = false) {c : Char}
    (h : p c = true) : isPlain c = true := by
  simp only [isPlain, Bool.and_eq_true, bne_iff_ne]
  refine ⟨⟨?_, ?_⟩, ?_⟩ <;> rintro rfl <;> simp [h] at hp

lemma isPlain_of_isBlank {c : Char} (h : Text.isBlank c = true) : isPlain c = true :=
  isPlain_of_test (by decide) h

lemma isPlain_of_isDigit {c : Char} (h : Text.isDigit c = true) : isPlain c = true :=
  isPlain_of_test (by decide) h

/-! ## Passes over an expression -/

lemma marks_takeWhile {p : Char → Bool} (hp : ∀ c, p c = true → isPlain c = true) (t : Text) :
    marks (t.takeWhile p) = 1 :=
  marks_of_isPlain fun c hc => hp c (List.mem_takeWhile_imp hc)

lemma marks_dropWhile {p : Char → Bool} (hp : ∀ c, p c = true → isPlain c = true) (t : Text) :
    marks (t.dropWhile p) = marks t := by
  conv_rhs => rw [← List.takeWhile_append_dropWhile (p := p) (l := t)]
  rw [marks_append, marks_takeWhile hp, one_mul]

@[simp] lemma marks_trimStart (t : Text) : marks (Text.trimStart t) = marks t :=
  marks_dropWhile (fun _ => isPlain_of_isBlank) t

@[simp] lemma marks_trimEnd (t : Text) : marks (Text.trimEnd t) = marks t := by
  have hrev : t = Text.trimEnd t ++ (t.reverse.takeWhile Text.isBlank).reverse := by
    rw [Text.trimEnd, Text.dropEndWhile, ← List.reverse_append, List.takeWhile_append_dropWhile,
      List.reverse_reverse]
  have hblank : marks (t.reverse.takeWhile Text.isBlank).reverse = 1 :=
    marks_of_isPlain fun c hc =>
      isPlain_of_isBlank (List.mem_takeWhile_imp (List.mem_reverse.1 hc))
  conv_rhs => rw [hrev]
  rw [marks_append, hblank, mul_one]

@[simp] lemma marks_trim (t : Text) : marks (Text.trim t) = marks t := by
  rw [Text.trim, marks_trimEnd, marks_trimStart]

@[simp] lemma marks_tightenFrom (after : Bool) (t : Text) :
    marks (tightenFrom after t) = marks t := by
  induction t generalizing after with
  | nil => rfl
  | cons c cs ih =>
      rw [tightenFrom]
      split_ifs with hblank
      · dsimp only
        split_ifs
        · rw [ih, marks_cons, mark_of_isPlain (isPlain_of_isBlank hblank), one_mul]
        · rw [marks_cons, ih, marks_cons]
      · rw [marks_cons, ih, marks_cons]

@[simp] lemma marks_mergeMinus (t : Text) : marks (mergeMinus t) = marks t := by
  fun_induction mergeMinus t with
  | case1 rest ih => simp [ih, mark]
  | case2 c rest _ ih => rw [marks_cons, ih, marks_cons]
  | case3 => rfl

@[simp] lemma marks_dropPlus (t : Text) : marks (dropPlus t) = marks t := by
  fun_induction dropPlus t with
  | case1 rest ih => simp [ih, mark]
  | case2 c rest _ ih => rw [marks_cons, ih, marks_cons]
  | case3 => rfl

@[simp] lemma marks_normalizeSigns (t : Text) : marks (normalizeSigns t) = marks t := by
  rw [normalizeSigns, marks_dropPlus, marks_mergeMinus]

lemma isPlain_symbol (op : Operator) : isPlain op.symbol = true := by
  cases op <;> rfl

lemma eq_append_of_splitBinaryFrom {op : Operator} {quoted : Bool} {before t left right : Text}
    (h : splitBinaryFrom op quoted before t = some (left, right)) :
    before.reverse ++ t = left ++ op.symbol :: right := by
  induction t generalizing quoted before with
  | nil => simp [splitBinaryFrom] at h
  | cons c cs ih =>
      rw [splitBinaryFrom] at h
      split_ifs at h with hquote hsplit
      · simpa using ih h
      · simp only [Bool.and_eq_true, beq_iff_eq] at hsplit
        obtain ⟨rfl, rfl⟩ := Prod.mk.inj (Option.some.inj h)
        rw [hsplit.1.1.1.2]
      · simpa using ih h

/-- The operator at which a text is taken apart has no marks. -/
lemma marks_of_splitBinary {op : Operator} {t left right : Text}
    (h : splitBinary op t = some (left, right)) : marks t = marks left * marks right := by
  have happend := eq_append_of_splitBinaryFrom h
  rw [List.reverse_nil, List.nil_append] at happend
  rw [happend, marks_append, marks_cons, mark_of_isPlain (isPlain_symbol op), one_mul]

lemma marks_eraseFirst {piece : Text} (h : marks piece = 1) (t : Text) :
    marks (Text.eraseFirst piece t) = marks t := by
  induction t with
  | nil => rfl
  | cons c cs ih =>
      rw [Text.eraseFirst]
      split
      next rest hrest => rw [eq_append_of_dropPrefix? hrest, marks_append, h, one_mul]
      next => rw [marks_cons, ih, marks_cons]

lemma mark_toLower (c : Char) : mark c.toLower = mark c := by
  by_cases h : c.val ≥ 'A'.val ∧ c.val ≤ 'Z'.val
  · have hlow : 65 ≤ c.toNat := h.1
    have hhigh : c.toNat ≤ 90 := h.2
    rw [← Char.ofNat_toNat c]
    interval_cases c.toNat <;> rfl
  · rw [Char.toLower, dif_neg h]

lemma marks_lowerAscii (t : Text) : marks (Text.lowerAscii t) = marks t := by
  induction t with
  | nil => rfl
  | cons c cs ih =>
      rw [Text.lowerAscii, List.map_cons, marks_cons, mark_toLower, marks_cons]
      rw [← ih, Text.lowerAscii]

/-! ## Quantities -/

lemma isPlain_of_mem_ofNat (n : Nat) (c : Char) (hc : c ∈ Text.ofNat n) : isPlain c = true :=
  isPlain_of_test (p := Char.isDigit) (by decide)
    (Nat.isDigit_of_mem_toDigits (by decide) (by decide) hc)

@[simp] lemma marks_ofNat (n : Nat) : marks (Text.ofNat n) = 1 :=
  marks_of_isPlain (isPlain_of_mem_ofNat n)

@[simp] lemma marks_rgbText (color : Rgb) : marks color.text = 1 := by
  unfold Rgb.text
  simp only [marks_append, marks_ofNat, mul_one]
  decide

@[simp] lemma marks_unitText (unit : LengthUnit) : marks unit.text = 1 := by
  cases unit <;> rfl

lemma marks_positional (d : Decimal.Digits) : marks d.positional = 1 := by
  have hdigits := isPlain_of_mem_ofNat d.digits
  have hzeros : ∀ count, marks (List.replicate count '0') = 1 := fun count =>
    marks_of_isPlain fun c hc => by rw [List.eq_of_mem_replicate hc]; rfl
  have htake : ∀ count, marks ((Text.ofNat d.digits).take count) = 1 := fun count =>
    marks_of_isPlain fun c hc => hdigits c (List.mem_of_mem_take hc)
  have hdrop : ∀ count, marks ((Text.ofNat d.digits).drop count) = 1 := fun count =>
    marks_of_isPlain fun c hc => hdigits c (List.mem_of_mem_drop hc)
  unfold Decimal.Digits.positional
  dsimp only
  split_ifs
  · rw [marks_append, marks_ofNat, hzeros, one_mul]
  · rw [marks_append, marks_append, htake, hdrop]
    rfl
  · rw [marks_append, marks_append, hzeros, marks_ofNat]
    rfl

@[simp] lemma marks_numberText (x : Float) : marks (numberText x) = 1 := by
  unfold numberText Decimal.positional Decimal.written
  dsimp only
  split_ifs
  · rfl
  · split
    next => rfl
    next => split_ifs <;> rfl
    next negative mantissa exponent _ =>
      have hmagnitude : marks (if mantissa = 0 then "0"
          else (Decimal.shortestDigits mantissa exponent).positional) = 1 := by
        split_ifs
        · rfl
        · exact marks_positional _
      by_cases hnegative : negative = true
      · rw [if_pos hnegative, marks_append, hmagnitude]
        rfl
      · rw [if_neg hnegative, hmagnitude]

/-! ## Reading a quantity -/

/-- The digits at the beginning of a text have no marks. -/
lemma marks_of_spanAnyDigits {t digits rest : Text} (h : spanAnyDigits t = (digits, rest)) :
    marks digits = 1 ∧ marks t = marks rest := by
  rw [spanAnyDigits, List.span_eq_takeWhile_dropWhile] at h
  obtain ⟨rfl, rfl⟩ := Prod.mk.inj h
  exact ⟨marks_takeWhile (fun _ => isPlain_of_isDigit) t,
    (marks_dropWhile (fun _ => isPlain_of_isDigit) t).symm⟩

lemma marks_of_spanUnsigned? {t numeral rest : Text} (h : spanUnsigned? t = some (numeral, rest)) :
    marks t = marks rest := by
  have hpoint : mark '.' = 1 := rfl
  unfold spanUnsigned? at h
  split at h
  next after hspan =>
    obtain ⟨-, ht⟩ := marks_of_spanAnyDigits hspan
    split at h
    next => exact absurd h (by simp)
    next fraction after' _ hspan' =>
      obtain ⟨-, hafter⟩ := marks_of_spanAnyDigits hspan'
      obtain ⟨-, rfl⟩ := Prod.mk.inj (Option.some.inj h)
      rw [ht, marks_cons, hpoint, one_mul, hafter]
  next => exact absurd h (by simp)
  next whole after _ hspan =>
    obtain ⟨-, ht⟩ := marks_of_spanAnyDigits hspan
    obtain ⟨-, hafter⟩ := marks_of_spanAnyDigits (t := after) rfl
    obtain ⟨-, rfl⟩ := Prod.mk.inj (Option.some.inj h)
    rw [ht, marks_cons, hpoint, one_mul, hafter]
  next whole rest' _ _ hspan =>
    obtain ⟨-, ht⟩ := marks_of_spanAnyDigits hspan
    obtain ⟨-, rfl⟩ := Prod.mk.inj (Option.some.inj h)
    exact ht

lemma marks_of_spanNumeral? {t numeral rest : Text} (h : spanNumeral? t = some (numeral, rest)) :
    marks t = marks rest := by
  unfold spanNumeral? at h
  split at h
  next t =>
    obtain ⟨⟨numeral, rest'⟩, hspan, hpair⟩ := Option.map_eq_some_iff.1 h
    obtain ⟨-, rfl⟩ := Prod.mk.inj hpair
    rw [marks_cons, marks_of_spanUnsigned? hspan]
    exact one_mul _
  next => exact marks_of_spanUnsigned? h

lemma marks_of_ofText?_unit {t : Text} {unit : LengthUnit} (h : LengthUnit.ofText? t = some unit) :
    marks t = 1 := by
  have hlower : unit.text = Text.lowerAscii t := by
    simpa using List.find?_some h
  rw [← marks_lowerAscii, ← hlower, marks_unitText]

lemma marks_of_spanChannel? {stop : Char} {t digits rest : Text}
    (h : spanChannel? stop t = some (digits, rest)) : marks t = mark stop * marks rest := by
  unfold spanChannel? at h
  split at h
  next first after hspan =>
    obtain ⟨-, ht⟩ := marks_of_spanAnyDigits hspan
    rw [marks_trimStart] at ht
    split_ifs at h
    rw [ht, ← marks_trimStart after]
    split at h
    next c cs hcs =>
      split_ifs at h with hstop
      obtain ⟨-, rfl⟩ := Prod.mk.inj (Option.some.inj h)
      rw [hcs, marks_cons, hstop]
    next => exact absurd h (by simp)

lemma marks_of_ofText?_rgb {t : Text} {color : Rgb} (h : Rgb.ofText? t = some color) :
    marks t = 1 := by
  simp only [Rgb.ofText?, Option.bind_eq_bind, Option.bind_eq_some_iff] at h
  obtain ⟨⟨⟩, hname, ⟨red, afterRed⟩, hred, ⟨green, afterGreen⟩, hgreen, ⟨blue, afterBlue⟩, hblue,
    ⟨⟩, hend, -⟩ := h
  rw [Option.guard_eq_some'] at hname hend
  have hopen : marks (t.take 4) = ⟨0, 1, 0⟩ := by
    rw [← marks_lowerAscii, hname]
    rfl
  have hempty : afterBlue = [] := List.isEmpty_iff.1 hend
  rw [← List.take_append_drop 4 t, marks_append, hopen, marks_of_spanChannel? hred,
    marks_of_spanChannel? hgreen, marks_of_spanChannel? hblue, hempty]
  rfl

lemma marks_of_numberOf? {t : Text} {value : Float} (h : Quantity.numberOf? t = some value) :
    marks t = 1 := by
  unfold Quantity.numberOf? at h
  split at h
  next numeral hspan => rw [marks_of_spanNumeral? hspan, marks_nil]
  next => exact absurd h (by simp)

lemma marks_of_lengthOf? {t : Text} {value : Float × LengthUnit}
    (h : Quantity.lengthOf? t = some value) : marks t = 1 := by
  simp only [Quantity.lengthOf?, Option.bind_eq_bind, Option.bind_eq_some_iff] at h
  obtain ⟨⟨numeral, rest⟩, hspan, -, -, unit, hunit, -⟩ := h
  rw [marks_of_spanNumeral? hspan, marks_of_ofText?_unit hunit]

namespace Quantity

/-- A quantity that is computed with is written without marks; a text is itself. -/
@[simp] lemma marks_written_ofText (t : Text) : marks (ofText t).written = marks t := by
  rw [← marks_trim t]
  unfold ofText
  dsimp only
  split
  next color hcolor => rw [written, marks_rgbText, marks_of_ofText?_rgb hcolor]
  next =>
    split
    next value hvalue => rw [written, marks_numberText, marks_of_numberOf? hvalue]
    next =>
      split
      next value unit hlength =>
        rw [written, marks_append, marks_numberText, marks_unitText, marks_of_lengthOf? hlength,
          one_mul]
      next => rw [written]

end Quantity

/-! ## Colors -/

lemma sameFold_of_dropFoldPrefix? {name t rest : Text}
    (h : Text.dropFoldPrefix? name t = some rest) :
    ∀ c ∈ t.take name.length, name.any (Text.sameFold · c) = true := by
  induction name generalizing t with
  | nil => simp
  | cons p ps ih =>
      cases t with
      | nil => simp
      | cons d ds =>
          rw [Text.dropFoldPrefix?] at h
          split_ifs at h with hfold
          intro c hc
          rw [List.length_cons, List.take_succ_cons, List.mem_cons] at hc
          rcases hc with rfl | hc
          · simp [hfold]
          · simp [ih h c hc]

/-- A color name is spelled without parentheses and quotes, in whatever case. -/
lemma marks_of_colorNameAt? {c : Char} {cs spelled : Text}
    (h : colorNameAt? (c :: cs) = some spelled) :
    marks spelled = 1 ∧ marks (c :: cs) = marks (cs.drop (spelled.length - 1)) := by
  obtain ⟨⟨name, color⟩, hmem, hsome⟩ := List.exists_of_findSome?_eq_some h
  have hall : (colorNames.all fun known => !known.1.isEmpty &&
      !"()\"".toList.any fun c => known.1.any (Text.sameFold · c)) = true := by decide +kernel
  have hname := List.all_eq_true.1 hall _ hmem
  rw [Bool.and_eq_true, Bool.not_eq_true', Bool.not_eq_true'] at hname
  dsimp only at hsome
  split at hsome
  next rest hrest =>
    split_ifs at hsome
    cases hsome
    have hmarks : marks ((c :: cs).take name.length) = 1 :=
      marks_of_isPlain fun d hd =>
        isPlain_of_test hname.2 (sameFold_of_dropFoldPrefix? hrest d hd)
    refine ⟨hmarks, ?_⟩
    obtain ⟨p, ps, rfl⟩ := List.exists_cons_of_ne_nil (List.isEmpty_eq_false_iff.1 hname.1)
    have hdrop : cs.drop (((c :: cs).take (p :: ps).length).length - 1)
        = (c :: cs).drop (p :: ps).length := by
      simp
    rw [hdrop, ← List.take_append_drop (p :: ps).length (c :: cs), marks_append, hmarks, one_mul,
      List.take_append_drop]
  next => exact absurd hsome (by simp)

lemma marks_expandNamesFrom (skip : Nat) (previous : Option Char) (t : Text) :
    marks (expandNamesFrom skip previous t) = marks (t.drop skip) := by
  induction t generalizing skip previous with
  | nil => cases skip <;> simp [expandNamesFrom]
  | cons c cs ih =>
      cases skip with
      | succ skip => exact ih skip (some c)
      | zero =>
          rw [expandNamesFrom]
          dsimp only
          split
          next spelled hname =>
            split_ifs at hname
            obtain ⟨hspelled, hrest⟩ := marks_of_colorNameAt? hname
            have hreplaced : marks (((colorOfName? spelled).map Rgb.text).getD spelled) = 1 := by
              cases colorOfName? spelled with
              | none => exact hspelled
              | some color => exact marks_rgbText color
            rw [marks_append, hreplaced, one_mul, ih, ← hrest, List.drop_zero]
          next => rw [marks_cons, ih, List.drop_zero, List.drop_zero, marks_cons]

lemma marks_of_hexDigitsAt? {t digits : Text} (h : hexDigitsAt? t = some digits) :
    marks t = marks (t.drop digits.length) := by
  have htake : ∃ count, digits = (t.takeWhile fun c => (Text.hexDigit? c).isSome).take count := by
    unfold hexDigitsAt? at h
    dsimp only at h
    split_ifs at h <;> exact ⟨_, (Option.some.inj h).symm⟩
  obtain ⟨count, hdigits⟩ := htake
  have hmarks : marks digits = 1 := by
    refine marks_of_isPlain fun c hc => ?_
    rw [hdigits] at hc
    have hdigit := List.mem_takeWhile_imp (List.mem_of_mem_take hc)
    exact isPlain_of_test (p := fun d => (Text.hexDigit? d).isSome) (by decide) hdigit
  have hstart : digits <+: t := by
    rw [hdigits]
    exact (List.take_prefix _ _).trans (List.takeWhile_prefix _)
  obtain ⟨rest, rfl⟩ := hstart
  rw [List.drop_left, marks_append, hmarks, one_mul]

lemma marks_expandHexFrom (skip : Nat) (t : Text) :
    marks (expandHexFrom skip t) = marks (t.drop skip) := by
  induction t generalizing skip with
  | nil => cases skip <;> simp [expandHexFrom]
  | cons c cs ih =>
      have hkeep : marks (c :: expandHexFrom 0 cs) = marks (c :: cs) := by
        rw [marks_cons, ih, List.drop_zero, marks_cons]
      cases skip with
      | succ skip => exact ih skip
      | zero =>
          rw [expandHexFrom, List.drop_zero]
          split
          next digits hdigits =>
            split
            next color _ =>
              split_ifs at hdigits with hhash
              rw [marks_append, marks_rgbText, one_mul, ih, ← marks_of_hexDigitsAt? hdigits,
                marks_cons, hhash]
              exact (one_mul _).symm
            next => exact hkeep
          next => exact hkeep

@[simp] lemma marks_expandColors (t : Text) : marks (expandColors t) = marks t := by
  rw [expandColors, expandNames, marks_expandHexFrom, List.drop_zero, marks_expandNamesFrom,
    List.drop_zero]

end Offside
