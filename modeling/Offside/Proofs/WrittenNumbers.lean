import Mathlib
import Offside.Proofs.Formula

/-!
# Numbers as they are written

The value of an operation is put back into the expression as a text, and that text is what decides
how the expression is taken apart from then on.  This file says what a written number looks like,
whatever the double is: a minus sign at most, and then characters that mean nothing to the
calculator (`numberText_cases`).  So a quantity that is not a text is written as an operand
(`Quantity.exists_operand`).

**Signs.**  A numeral without a minus sign is read as a double whose sign bit is not set
(`unsigned_of_read?`), and such a double is written without a minus sign.  On the way it is
multiplied, rounded and divided again, so this is about the arithmetic of doubles: products and
quotients of unsigned doubles are unsigned (`Unsigned.mul`, `Unsigned.div`).
-/

namespace Offside

open Float.Model Float.Model.UnpackedFloat

/-! ## Doubles without a sign -/

/-- A double whose sign bit is not set. -/
def Unsigned (x : Float) : Prop := x.toBits.toBitVec.msb = false

/-- An unpacked double without a minus sign. -/
def IsPositive : UnpackedFloat → Prop
  | .notANumber => True
  | .infinity sign => sign = .positive
  | .zero sign => sign = .positive
  | .finite sign _ _ _ => sign = .positive

lemma msb_packComponents (exponent : BitVec Format.binary64.exponentBits)
    (mantissa : BitVec Format.binary64.mantissaBitsWithoutImplicit) :
    (packComponents Format.binary64 .positive exponent mantissa).msb = false := by
  change BitVec.msb (0#1 ++ exponent ++ mantissa) = false
  rw [BitVec.msb_append, BitVec.msb_append]
  simp

lemma IsPositive.unsigned_pack {f : UnpackedFloat} (h : IsPositive f) :
    Unsigned (.ofModel (Float.Model.pack f)) := by
  change (UnpackedFloat.pack Format.binary64 f).msb = false
  cases f with
  | notANumber => exact msb_packComponents _ _
  | infinity sign => cases h; exact msb_packComponents _ _
  | zero sign => cases h; exact msb_packComponents _ _
  | finite sign mantissa exponent _ =>
      cases h
      simp only [UnpackedFloat.pack]
      split_ifs <;> exact msb_packComponents _ _

lemma unpackSign_eq_zero {bits : BitVec 64} (h : bits.msb = false) :
    @unpackSign Format.binary64 bits = 0#1 := by
  have hlast : (@unpackSign Format.binary64 bits).getLsbD 0 = bits.getLsbD 63 := by
    simp only [unpackSign, BitVec.getLsbD_cast, BitVec.getLsbD_extractLsb]
    rfl
  refine BitVec.eq_of_getLsbD_eq fun i hi => ?_
  obtain rfl : i = 0 := by omega
  rw [hlast]
  exact BitVec.msb_eq_getLsbD_last bits ▸ h

lemma Unsigned.isPositive_unpack {x : Float} (h : Unsigned x) : IsPositive x.toModel.unpack := by
  have hzero : @unpackSign Format.binary64 x.toModel.toBits.toBitVec = 0#1 := unpackSign_eq_zero h
  have hsign : Sign.ofBitVec (@unpackSign Format.binary64 x.toModel.toBits.toBitVec)
      = .positive := by
    rw [hzero]
    rfl
  unfold Float.Model.unpack UnpackedFloat.unpack
  dsimp only
  split_ifs
  · exact hsign
  · trivial
  · exact hsign
  · exact hsign
  · exact hsign

lemma isPositive_roundWithAccuracy (spec : Format) (mantissa : Nat) (exponent : Int)
    (accuracy : Accuracy) :
    IsPositive (roundWithAccuracy spec .positive mantissa exponent accuracy) := by
  unfold roundWithAccuracy
  dsimp only
  split_ifs <;> rfl

lemma IsPositive.mul {x y : UnpackedFloat} (hx : IsPositive x) (hy : IsPositive y) :
    IsPositive (UnpackedFloat.mul Format.binary64 x y) := by
  cases x <;> cases y <;> cases hx <;> cases hy <;> first
    | exact isPositive_roundWithAccuracy _ _ _ _
    | rfl
    | trivial

lemma IsPositive.div {x y : UnpackedFloat} (hx : IsPositive x) (hy : IsPositive y) :
    IsPositive (UnpackedFloat.div Format.binary64 x y) := by
  cases x <;> cases y <;> cases hx <;> cases hy <;> first
    | exact isPositive_roundWithAccuracy _ _ _ _
    | rfl
    | trivial

lemma Unsigned.mul {x y : Float} (hx : Unsigned x) (hy : Unsigned y) : Unsigned (x * y) :=
  (hx.isPositive_unpack.mul hy.isPositive_unpack).unsigned_pack

lemma Unsigned.div {x y : Float} (hx : Unsigned x) (hy : Unsigned y) : Unsigned (x / y) :=
  (hx.isPositive_unpack.div hy.isPositive_unpack).unsigned_pack

lemma isPositive_ofNat (n : Nat) : IsPositive (UnpackedFloat.ofNat Format.binary64 n) := by
  unfold UnpackedFloat.ofNat UnpackedFloat.ofInt UnpackedFloat.normalize
  split
  next h =>
    have hlt : (n : Int) < 0 := Int.compare_eq_lt.1 h
    omega
  next => rfl
  next => exact isPositive_roundWithAccuracy _ _ _ _

lemma isPositive_ofScientific (mantissa : Nat) (exponent : Int) :
    IsPositive (UnpackedFloat.ofScientific Format.binary64 mantissa exponent) := by
  unfold UnpackedFloat.ofScientific
  split_ifs
  · rfl
  · rfl
  · rfl
  · exact IsPositive.mul rfl rfl
  · exact IsPositive.div rfl rfl

lemma unsigned_powersOfTen : ∀ x ∈ Float.exactlyRepresentablePowersOfTen.toList, Unsigned x := by
  unfold Unsigned
  decide +kernel

lemma unsigned_ofScientific (mantissa : Nat) (negative : Bool) (exponent : Nat) :
    Unsigned (Float.ofScientific mantissa negative exponent) := by
  have hmantissa : Unsigned (mantissa.toUInt64.toFloat) := (isPositive_ofNat _).unsigned_pack
  unfold Float.ofScientific
  dsimp only
  split_ifs
  · exact hmantissa.div (unsigned_powersOfTen _ (by simp))
  · exact hmantissa.mul (unsigned_powersOfTen _ (by simp))
  · exact (isPositive_ofScientific _ _).unsigned_pack
  · exact (isPositive_ofScientific _ _).unsigned_pack

lemma unsigned_ofNat (n : Nat) : Unsigned (Float.ofNat n) := unsigned_ofScientific n false 0

/-! ## Reading -/

lemma unsigned_nearest (digits : Nat) (exponent : Int) :
    Unsigned (Decimal.nearest digits exponent) := by
  unfold Decimal.nearest
  dsimp only
  split_ifs
  · exact unsigned_ofNat 0
  · exact (unsigned_ofNat 1).div (unsigned_ofNat 0)
  · exact unsigned_ofNat 0
  · exact unsigned_ofScientific _ _ _

lemma unsigned_of_readMagnitude? {t : Text} {x : Float} (h : Decimal.readMagnitude? t = some x) :
    Unsigned x := by
  unfold Decimal.readMagnitude? at h
  dsimp only at h
  split_ifs at h
  · cases h
    exact (unsigned_ofNat 1).div (unsigned_ofNat 0)
  · cases h
    exact (unsigned_ofNat 0).div (unsigned_ofNat 0)
  · obtain ⟨exponent, -, rfl⟩ := Option.map_eq_some_iff.1 h
    exact unsigned_nearest _ _

/-- A decimal without a minus sign is read as a double without one. -/
lemma unsigned_of_read? {t : Text} {x : Float} (h : Decimal.read? t = some x) (ht : '-' ∉ t) :
    Unsigned x := by
  unfold Decimal.read? at h
  split at h
  next => simp at ht
  next => exact unsigned_of_readMagnitude? h
  next => exact unsigned_of_readMagnitude? h

lemma eq_append_of_spanAnyDigits {t digits rest : Text} (h : spanAnyDigits t = (digits, rest)) :
    t = digits ++ rest := by
  rw [spanAnyDigits, List.span_eq_takeWhile_dropWhile] at h
  obtain ⟨rfl, rfl⟩ := Prod.mk.inj h
  exact List.takeWhile_append_dropWhile.symm

lemma eq_append_of_spanUnsigned? {t numeral rest : Text}
    (h : spanUnsigned? t = some (numeral, rest)) : t = numeral ++ rest := by
  unfold spanUnsigned? at h
  split at h
  next after hspan =>
    split at h
    next => exact absurd h (by simp)
    next fraction after' _ hspan' =>
      obtain ⟨rfl, rfl⟩ := Prod.mk.inj (Option.some.inj h)
      rw [eq_append_of_spanAnyDigits hspan, eq_append_of_spanAnyDigits hspan']
      rfl
  next => exact absurd h (by simp)
  next whole after _ hspan =>
    cases hspan' : spanAnyDigits after with
    | mk fraction after' =>
        rw [hspan'] at h
        obtain ⟨rfl, rfl⟩ := Prod.mk.inj (Option.some.inj h)
        rw [eq_append_of_spanAnyDigits hspan, eq_append_of_spanAnyDigits hspan', List.append_assoc,
          List.cons_append]
  next whole rest' _ _ hspan =>
    obtain ⟨rfl, rfl⟩ := Prod.mk.inj (Option.some.inj h)
    exact eq_append_of_spanAnyDigits hspan

lemma eq_append_of_spanNumeral? {t numeral rest : Text}
    (h : spanNumeral? t = some (numeral, rest)) : t = numeral ++ rest := by
  unfold spanNumeral? at h
  split at h
  next t =>
    obtain ⟨⟨numeral, rest'⟩, hspan, hpair⟩ := Option.map_eq_some_iff.1 h
    obtain ⟨rfl, rfl⟩ := Prod.mk.inj hpair
    rw [eq_append_of_spanUnsigned? hspan]
    rfl
  next => exact eq_append_of_spanUnsigned? h

namespace Quantity

lemma unsigned_of_numberOf? {t : Text} {value : Float} (h : numberOf? t = some value)
    (ht : '-' ∉ t) : Unsigned value := by
  unfold numberOf? at h
  split at h
  next numeral hspan =>
    rw [eq_append_of_spanNumeral? hspan, List.append_nil] at ht
    exact unsigned_of_read? h ht
  next => exact absurd h (by simp)

lemma unsigned_of_lengthOf? {t : Text} {value : Float} {unit : LengthUnit}
    (h : lengthOf? t = some (value, unit)) (ht : '-' ∉ t) : Unsigned value := by
  simp only [lengthOf?, Option.bind_eq_bind, Option.bind_eq_some_iff] at h
  obtain ⟨⟨numeral, rest⟩, hspan, value', hread, unit', -, hpair⟩ := h
  cases hpair
  rw [eq_append_of_spanNumeral? hspan, List.mem_append, not_or] at ht
  exact unsigned_of_read? hread ht.1

end Quantity

/-! ## Writing -/

/-- Whether a double has a minus sign. -/
def isNegative : Decimal.Binary → Bool
  | .notANumber => false
  | .infinite negative => negative
  | .finite negative _ _ => negative

namespace Unsigned

variable {x : Float}

lemma isNegative_decode (h : Unsigned x) : isNegative (Decimal.decode x) = false := by
  have hbits : (x.toBits.toNat / Decimal.signBit == 1) = false := by
    have hlt : 2 * x.toBits.toBitVec.toNat < 2 ^ 64 := BitVec.msb_eq_false_iff_two_mul_lt.1 h
    rw [UInt64.toNat_toBitVec] at hlt
    rw [Nat.div_eq_of_lt (by rw [Decimal.signBit]; omega)]
    rfl
  unfold Decimal.decode
  dsimp only
  rw [hbits]
  split_ifs <;> rfl

lemma roundWhole (h : Unsigned x) : Unsigned (Decimal.roundWhole x) := by
  unfold Decimal.roundWhole
  split
  next negative mantissa down hdecode =>
    have hnegative : negative = false := by simpa only [hdecode] using! h.isNegative_decode
    rw [hnegative]
    exact unsigned_ofNat _
  next => exact h

lemma roundNoise (h : Unsigned x) : Unsigned (roundNoise x) :=
  (h.mul (unsigned_ofScientific _ _ _)).roundWhole.div (unsigned_ofScientific _ _ _)

end Unsigned

/-- The characters of numbers and lengths, those of the words `NaN` and `inf` among them. -/
def writtenChars : Text := magnitudeChars ++ "Naf"

lemma mem_writtenChars_of_mem_ofNat {n : Nat} {c : Char} (h : c ∈ Text.ofNat n) :
    c ∈ writtenChars := by
  have hdigit := mem_digitChars (Nat.isDigit_of_mem_toDigits (by decide) (by decide) h)
  exact mem_of_all_contains (by decide : digitChars.all writtenChars.contains = true) c hdigit

lemma mem_writtenChars_of_mem_positional {d : Decimal.Digits} {c : Char} (h : c ∈ d.positional) :
    c ∈ writtenChars := by
  have hzeros : ∀ count, c ∈ List.replicate count '0' → c ∈ writtenChars := by
    intro count hc
    rw [List.eq_of_mem_replicate hc]
    decide
  unfold Decimal.Digits.positional at h
  simp only at h
  split_ifs at h
  · rcases List.mem_append.1 h with h | h
    · exact mem_writtenChars_of_mem_ofNat h
    · exact hzeros _ h
  · rw [List.mem_append, List.mem_append] at h
    rcases h with (h | h) | h
    · exact mem_writtenChars_of_mem_ofNat (List.mem_of_mem_take h)
    · exact mem_of_all_contains (by decide) c h
    · exact mem_writtenChars_of_mem_ofNat (List.mem_of_mem_drop h)
  · rw [List.mem_append, List.mem_append] at h
    rcases h with (h | h) | h
    · exact mem_of_all_contains (by decide) c h
    · exact hzeros _ h
    · exact mem_writtenChars_of_mem_ofNat h

lemma positional_ne_nil (d : Decimal.Digits) : d.positional ≠ [] := by
  have hdigits : Text.ofNat d.digits ≠ [] := Nat.toDigits_ne_nil
  unfold Decimal.Digits.positional
  dsimp only
  split_ifs <;> simp [hdigits]

/-- A written number is a body of ordinary characters, after a minus sign only if the double has
one. -/
lemma numberText_cases (x : Float) :
    ∃ (negative : Bool) (body : Text), numberText x = (if negative then '-' :: body else body) ∧
      body ≠ [] ∧ (∀ c ∈ body, c ∈ writtenChars) ∧ (Unsigned x → negative = false) := by
  have hword : ∀ t : Text, t.all writtenChars.contains = true → ∀ c ∈ t, c ∈ writtenChars :=
    fun t => mem_of_all_contains
  unfold numberText Decimal.positional Decimal.written
  dsimp only
  split_ifs
  · exact ⟨false, "0", rfl, by decide, hword _ (by decide), fun _ => rfl⟩
  · split
    next => exact ⟨false, "NaN", rfl, by decide, hword _ (by decide), fun _ => rfl⟩
    next negative hdecode =>
      refine ⟨negative, "inf", ?_, by decide, hword _ (by decide), fun hx => ?_⟩
      · cases negative <;> rfl
      · simpa only [hdecode] using! hx.roundNoise.isNegative_decode
    next negative mantissa exponent hdecode =>
      refine ⟨negative, if mantissa = 0 then "0"
          else (Decimal.shortestDigits mantissa exponent).positional, rfl, ?_, ?_, fun hx => ?_⟩
      · split_ifs
        · decide
        · exact positional_ne_nil _
      · split_ifs
        · exact hword _ (by decide)
        · exact fun c hc => mem_writtenChars_of_mem_positional hc
      · simpa only [hdecode] using! hx.roundNoise.isNegative_decode

/-! ## Quantities as operands -/

lemma isOrdinary_of_mem_writtenChars {c : Char} (h : c ∈ writtenChars) :
    isOrdinary c = true ∧ Text.isBlank c = false := by
  have hall : writtenChars.all (fun d => isOrdinary d && !Text.isBlank d) = true := by decide
  simpa using List.all_eq_true.1 hall c h

lemma exists_operand_of_writtenChars (negative : Bool) (body : Text) (hne : body ≠ [])
    (h : ∀ c ∈ body, c ∈ writtenChars) :
    ∃ X : Operand, X.text = if negative then '-' :: body else body := by
  have hordinary : ∀ c ∈ body, isOrdinary c = true := fun c hc =>
    (isOrdinary_of_mem_writtenChars (h c hc)).1
  have hvisible : ∀ c ∈ body, Text.isBlank c = false := fun c hc =>
    (isOrdinary_of_mem_writtenChars (h c hc)).2
  let X : Operand :=
    { negative := negative
      body := body
      nonempty := hne
      noOperator := fun c hc => (isOrdinary_iff.1 (hordinary c hc)).1.1.1
      noQuote := notMem_of_isOrdinary hordinary (by decide)
      trimmed := ⟨fun c hc => hvisible c (List.mem_of_head? hc),
        fun c hc => hvisible c (List.mem_of_getLast? hc)⟩
      parens := Or.inl ⟨notMem_of_isOrdinary hordinary (by decide),
        notMem_of_isOrdinary hordinary (by decide)⟩ }
  exact ⟨X, rfl⟩

lemma mem_writtenChars_of_unit (unit : LengthUnit) : ∀ c ∈ unit.text, c ∈ writtenChars :=
  fun c hc => List.mem_append_left _ (mem_magnitudeChars_of_unit unit c hc)

lemma exists_operand_numberText (x : Float) (after : Text) (h : ∀ c ∈ after, c ∈ writtenChars) :
    ∃ X : Operand, X.text = numberText x ++ after := by
  obtain ⟨negative, body, htext, hne, hbody, -⟩ := numberText_cases x
  have hmem : ∀ c ∈ body ++ after, c ∈ writtenChars := fun c hc =>
    (List.mem_append.1 hc).elim (hbody c) (h c)
  obtain ⟨X, hX⟩ := exists_operand_of_writtenChars negative (body ++ after) (by simp [hne]) hmem
  refine ⟨X, ?_⟩
  rw [hX, htext]
  cases negative <;> rfl

/-- Whatever is not a text is written as an operand. -/
lemma Quantity.exists_operand (q : Quantity) :
    (∃ t, q = .text t) ∨ ∃ X : Operand, X.text = q.written := by
  cases q with
  | number value =>
      obtain ⟨X, hX⟩ := exists_operand_numberText value [] (by simp)
      exact Or.inr ⟨X, by rw [hX, List.append_nil]; rfl⟩
  | length value unit =>
      exact Or.inr (exists_operand_numberText value unit.text (mem_writtenChars_of_unit unit))
  | color value => exact Or.inr ⟨.ofColor value, rfl⟩
  | text value => exact Or.inl ⟨value, rfl⟩

end Offside
