import Mathlib
import Offside.Proofs.Balance
import Offside.Proofs.Runs
import Offside.Proofs.WrittenNumbers

/-!
# The weight of a text

The calculator takes the text of an expression apart, puts the texts of values in, and takes the
result apart again.  A value can be longer than what it was computed from, and it can bring
operators and parentheses along, so neither the length nor the depth of a text gets smaller.  What
does not grow is the number of its operator characters and the numbers of its parentheses and
quotes.

All of them count the characters with some property.  What such a property needs to have is
`IsWeight`, and for every one of them reducing makes no text heavier (`IsWeight.countP_reduce_le`).
The proof goes through a list of everything that an operation can do, `Quantity.Outcome`.
-/

namespace Offside

/-! ## Passes leave characters out -/

/-- A text without white space at its ends and around its operators, and with its signs merged. -/
def tidied (t : Text) : Text := normalizeSigns (tighten (Text.trim t))

lemma tightenFrom_sublist (after : Bool) (t : Text) : (tightenFrom after t).Sublist t := by
  induction t generalizing after with
  | nil => exact List.Sublist.refl _
  | cons c cs ih =>
      rw [tightenFrom]
      split_ifs
      · dsimp only
        split_ifs
        · exact (ih after).cons c
        · exact (ih false).cons_cons c
      · exact (ih _).cons_cons c

lemma exists_mapUnquoted_cons (f : Text → Text) (piece : Text) (pieces : List Text) :
    ∃ others, mapUnquoted f (piece :: pieces) = f piece :: others := by
  cases pieces with
  | nil => exact ⟨[], rfl⟩
  | cons inside rest => exact ⟨_, rfl⟩

lemma join_mapUnquoted_sublist {f : Text → Text} (hf : ∀ t, (f t).Sublist t) (sep : Text)
    (pieces : List Text) :
    (Text.join sep (mapUnquoted f pieces)).Sublist (Text.join sep pieces) := by
  induction pieces using mapUnquoted.induct with
  | case1 => exact List.Sublist.refl _
  | case2 outside => exact hf outside
  | case3 outside inside rest ih =>
      have houtside := (hf outside).append_right sep
      rw [mapUnquoted, join_cons_cons, join_cons_cons]
      cases rest with
      | nil => exact houtside.append_right _
      | cons next more =>
          obtain ⟨others, hothers⟩ := exists_mapUnquoted_cons f next more
          rw [hothers] at ih ⊢
          rw [join_cons_cons, join_cons_cons]
          exact houtside.append (ih.append_left _)

lemma tighten_sublist (t : Text) : (tighten t).Sublist t := by
  have h := join_mapUnquoted_sublist (tightenFrom_sublist false) ['"'] (Text.splitOn '"' t)
  rwa [join_splitOn] at h

lemma dropPlus_sublist (t : Text) : (dropPlus t).Sublist t := by
  fun_induction dropPlus t with
  | case1 rest ih => exact (ih.cons_cons '-').cons '+'
  | case2 c rest _ ih => exact ih.cons_cons c
  | case3 => exact List.Sublist.refl _

lemma eraseFirst_sublist (piece t : Text) : (Text.eraseFirst piece t).Sublist t := by
  induction t with
  | nil => exact List.Sublist.refl _
  | cons c cs ih =>
      rw [Text.eraseFirst]
      split
      next rest hrest =>
        rw [eq_append_of_dropPrefix? hrest]
        exact List.sublist_append_right piece rest
      next => exact ih.cons_cons c

lemma eq_append_of_splitBinary {op : Operator} {t left right : Text}
    (h : splitBinary op t = some (left, right)) : t = left ++ op.symbol :: right := by
  have happend := eq_append_of_splitBinaryFrom h
  rwa [List.reverse_nil, List.nil_append] at happend

/-! ## What an operation can do -/

namespace Quantity

lemma requote_unquote (t : Text) : requote (unquote t).2 (unquote t).1 = t := by
  unfold unquote
  split
  next rest =>
    split
    next hlast =>
      obtain ⟨front, rfl⟩ := List.getLast?_eq_some_iff.1 hlast
      simp [requote]
    next => rfl
  next => rfl

/-- What the value of an operation can be. -/
inductive Outcome (left : Quantity) (op : Operator) (right : Quantity) : Quantity → Prop
  | number (x : Float) : Outcome left op right (.number x)
  | length (x : Float) (unit : LengthUnit) : Outcome left op right (.length x unit)
  | color (side value : Rgb) (h : left = .color side ∨ right = .color side) :
      Outcome left op right (.color value)
  /-- The units do not go together, and the operation stays as it is written. -/
  | kept (a : Float) (unit : LengthUnit) (h : left = .length a unit) :
      Outcome left op right (unresolved a unit op right)
  | glued (h : op = .add) :
      Outcome left op right (.text (requote (unquote left.written).2
        ((unquote left.written).1 ++ (unquote right.written).1)))
  | erased (h : op = .sub) :
      Outcome left op right (.text (requote (unquote left.written).2
        (Text.eraseFirst (unquote right.written).1 (unquote left.written).1)))

variable {left right value : Quantity} {op : Operator}

lemma outcome_computeLengths {a b : Float} {unit other : LengthUnit}
    (h : computeLengths a unit op b other = .ok value) :
    (∃ x, value = .length x unit) ∨
      other ≠ unit ∧ value = unresolved a unit op (.length b other) := by
  unfold computeLengths at h
  split_ifs at h with hunit
  · cases hcompute : compute a op b with
    | error e => rw [hcompute] at h; cases h
    | ok x => rw [hcompute] at h; cases h; exact Or.inl ⟨x, rfl⟩
  · dsimp only at h
    split at h
    next x _ => cases h; exact Or.inl ⟨x, rfl⟩
    next => cases h; exact Or.inr ⟨hunit, rfl⟩

lemma outcome_applyColor {color : Rgb} (h : applyColor color op right = .ok value) :
    ∃ c, value = .color c := by
  have hcompute : ∀ r g b, computeColor color op r g b = .ok value → ∃ c, value = .color c := by
    intro r g b hcolor
    obtain ⟨red, -, hcolor⟩ := bind_eq_ok_iff.1 hcolor
    obtain ⟨green, -, hcolor⟩ := bind_eq_ok_iff.1 hcolor
    obtain ⟨blue, -, hcolor⟩ := bind_eq_ok_iff.1 hcolor
    cases hcolor
    exact ⟨_, rfl⟩
  cases right with
  | number b => exact hcompute _ _ _ h
  | length b unit => exact hcompute _ _ _ h
  | color other => exact hcompute _ _ _ h
  | text t => cases h

lemma outcome_applyText (left : Quantity) (h : applyText left.written op right = .ok value) :
    Outcome left op right value := by
  unfold applyText at h
  cases op with
  | add => cases h; exact .glued rfl
  | sub => cases h; exact .erased rfl
  | mul => cases h
  | div => cases h

/-- Every operation that succeeds has one of the outcomes. -/
lemma outcome_of_apply (h : left.apply op right = .ok value) : Outcome left op right value := by
  cases left with
  | number a =>
      cases right with
      | number b =>
          cases hcompute : compute a op b with
          | error e => rw [apply, hcompute] at h; cases h
          | ok x => rw [apply, hcompute] at h; cases h; exact .number _
      | length b unit =>
          rcases outcome_computeLengths h with ⟨x, rfl⟩ | ⟨hunit, -⟩
          · exact .length x unit
          · exact absurd rfl hunit
      | color other =>
          rw [apply] at h
          obtain ⟨c, rfl⟩ := outcome_applyColor h
          exact .color other c (Or.inr rfl)
      | text t => exact outcome_applyText (.number a) h
  | length a unit =>
      cases right with
      | number b =>
          rcases outcome_computeLengths h with ⟨x, rfl⟩ | ⟨hunit, -⟩
          · exact .length x unit
          · exact absurd rfl hunit
      | length b other =>
          rcases outcome_computeLengths h with ⟨x, rfl⟩ | ⟨-, rfl⟩
          · exact .length x unit
          · exact .kept a unit rfl
      | color other => cases h; exact .kept a unit rfl
      | text t => cases h; exact .kept a unit rfl
  | color color =>
      obtain ⟨c, rfl⟩ := outcome_applyColor h
      exact .color color c (Or.inl rfl)
  | text t => exact outcome_applyText (.text t) h

end Quantity

/-! ## Weights -/

/-- A property of characters that the calculator can be weighed by: the four operators are alike,
and the characters of numbers, lengths and colors do not count, parentheses apart. -/
structure IsWeight (p : Char → Bool) : Prop where
  operators : ∀ op : Operator, p op.symbol = p '-'
  quiet : ((writtenChars ++ "rgb, ").all fun c => !p c) = true

lemma isWeight_isOperator : IsWeight isOperator :=
  ⟨fun op => by cases op <;> rfl, by decide⟩

lemma isWeight_beq {c : Char} (h : c = '(' ∨ c = ')' ∨ c = '"') : IsWeight (· == c) := by
  rcases h with rfl | rfl | rfl
  · exact ⟨fun op => by cases op <;> rfl, by decide⟩
  · exact ⟨fun op => by cases op <;> rfl, by decide⟩
  · exact ⟨fun op => by cases op <;> rfl, by decide⟩

namespace IsWeight

variable {p : Char → Bool}

/-! ### Passes -/

lemma countP_mergeMinus_le (hp : IsWeight p) (t : Text) :
    (mergeMinus t).countP p ≤ t.countP p := by
  fun_induction mergeMinus t with
  | case1 rest ih =>
      have hplus : p '+' = p '-' := hp.operators .add
      simp only [List.countP_cons, hplus]
      omega
  | case2 c rest _ ih =>
      simp only [List.countP_cons]
      omega
  | case3 => exact le_refl _

lemma countP_normalizeSigns_le (hp : IsWeight p) (t : Text) :
    (normalizeSigns t).countP p ≤ t.countP p :=
  ((dropPlus_sublist _).countP_le).trans (hp.countP_mergeMinus_le t)

lemma countP_tidied_le (hp : IsWeight p) (t : Text) : (tidied t).countP p ≤ t.countP p :=
  calc (tidied t).countP p
      ≤ (tighten (Text.trim t)).countP p := hp.countP_normalizeSigns_le _
    _ ≤ (Text.trim t).countP p := (tighten_sublist _).countP_le
    _ ≤ t.countP p := (trim_isInfix t).sublist.countP_le

/-- Taking a text apart takes an operator away. -/
lemma countP_of_splitBinary (hp : IsWeight p) {op : Operator} {t left right : Text}
    (h : splitBinary op t = some (left, right)) :
    t.countP p = left.countP p + ['-'].countP p + right.countP p := by
  simp only [eq_append_of_splitBinary h, List.countP_append, List.countP_cons, hp.operators,
    List.countP_nil]
  omega

/-! ### Quantities -/

lemma eq_false (hp : IsWeight p) {c : Char} (h : (writtenChars ++ "rgb, ").contains c = true) :
    p c = false := by
  simpa using List.all_eq_true.1 hp.quiet c (List.contains_iff_mem.1 h)

lemma countP_eq_zero_of_written (hp : IsWeight p) {t : Text} (h : ∀ c ∈ t, c ∈ writtenChars) :
    t.countP p = 0 :=
  List.countP_eq_zero.2 fun c hc => by
    simp [hp.eq_false (List.contains_iff_mem.2 (List.mem_append_left _ (h c hc)))]

/-- A number or length weighs as much as its sign. -/
lemma countP_numberText (hp : IsWeight p) (x : Float) (after : Text)
    (h : ∀ c ∈ after, c ∈ writtenChars) :
    (numberText x ++ after).countP p ≤ ['-'].countP p ∧
      (Unsigned x → (numberText x ++ after).countP p = 0) := by
  obtain ⟨negative, body, htext, -, hbody, hsign⟩ := numberText_cases x
  have hrest : (body ++ after).countP p = 0 := hp.countP_eq_zero_of_written fun c hc =>
    (List.mem_append.1 hc).elim (hbody c) (h c)
  rw [htext]
  constructor
  · cases negative with
    | false => simp [hrest]
    | true =>
        simp only [if_true, List.cons_append, List.countP_cons, hrest, List.countP_nil]
        exact le_refl _
  · intro hx
    rw [hsign hx]
    exact hrest

lemma countP_rgbText (hp : IsWeight p) (color : Rgb) :
    color.text.countP p = ['('].countP p + [')'].countP p := by
  have hnat : ∀ n, (Text.ofNat n).countP p = 0 := fun n =>
    hp.countP_eq_zero_of_written fun c hc => mem_writtenChars_of_mem_ofNat hc
  have hname : "rgb(".toList.countP p = ['('].countP p := by
    change ['r', 'g', 'b', '('].countP p = _
    simp [List.countP_cons, hp.eq_false (c := 'r') (by decide), hp.eq_false (c := 'g') (by decide),
      hp.eq_false (c := 'b') (by decide)]
  have hcomma : ", ".toList.countP p = 0 := by
    change [',', ' '].countP p = 0
    simp [hp.eq_false (c := ',') (by decide), hp.eq_false (c := ' ') (by decide)]
  have hclose : ")".toList.countP p = [')'].countP p := rfl
  unfold Rgb.text
  rw [List.countP_append, List.countP_append, List.countP_append, List.countP_append,
    List.countP_append, List.countP_append, hname, hcomma, hnat, hnat, hnat, hclose]
  simp only [Nat.add_zero]

lemma suffix_of_spanChannel? {stop : Char} {t digits rest : Text}
    (h : spanChannel? stop t = some (digits, rest)) : stop :: rest <:+ t := by
  unfold spanChannel? at h
  split at h
  next first after hspan =>
    have hafter : after <:+ t :=
      List.IsSuffix.trans ⟨first, (eq_append_of_spanAnyDigits hspan).symm⟩ (List.dropWhile_suffix _)
    split_ifs at h
    split at h
    next c cs hcs =>
      split_ifs at h with hstop
      obtain ⟨-, rfl⟩ := Prod.mk.inj (Option.some.inj h)
      rw [← hstop, ← hcs]
      exact (List.dropWhile_suffix _).trans hafter
    next => exact absurd h (by simp)

/-- A written color has its two parentheses. -/
lemma parens_sublist_of_ofText? {t : Text} {color : Rgb} (h : Rgb.ofText? t = some color) :
    ['(', ')'].Sublist t := by
  simp only [Rgb.ofText?, Option.bind_eq_bind, Option.bind_eq_some_iff] at h
  obtain ⟨⟨⟩, hname, ⟨red, afterRed⟩, hred, ⟨green, afterGreen⟩, hgreen, ⟨blue, afterBlue⟩, hblue,
    -⟩ := h
  rw [Option.guard_eq_some'] at hname
  have hopen : '(' ∈ t.take 4 := by
    have hlower : '(' ∈ Text.lowerAscii (t.take 4) := by rw [hname]; decide
    obtain ⟨c, hc, hparen⟩ := List.mem_map.1 hlower
    -- a character and its lower case have the same marks
    have hmark : (mark c).opening = 1 := by rw [← mark_toLower, hparen]; rfl
    by_cases hc' : c = '('
    · rwa [← hc']
    · rw [mark, if_neg hc'] at hmark
      split_ifs at hmark
  have hclose : ')' ∈ t.drop 4 :=
    (suffix_of_spanChannel? hred).subset (List.mem_cons_of_mem _
      ((suffix_of_spanChannel? hgreen).subset (List.mem_cons_of_mem _
        ((suffix_of_spanChannel? hblue).subset List.mem_cons_self))))
  rw [← List.take_append_drop 4 t]
  exact (List.singleton_sublist.2 hopen).append (List.singleton_sublist.2 hclose)

/-- Reading a quantity and writing it again makes no text heavier.  For the operators this says that
a number without a sign is written without one. -/
lemma countP_written_ofText_le (hp : IsWeight p) (t : Text) :
    (Quantity.ofText t).written.countP p ≤ t.countP p := by
  refine le_trans ?_ (trim_isInfix t).sublist.countP_le
  -- a sign that is written was there before
  have hnumber : ∀ (x : Float) (after : Text), (∀ c ∈ after, c ∈ writtenChars) →
      ('-' ∉ Text.trim t → Unsigned x) →
      (numberText x ++ after).countP p ≤ (Text.trim t).countP p := by
    intro x after hafter hx
    obtain ⟨hsign, hnone⟩ := hp.countP_numberText x after hafter
    by_cases hminus : '-' ∈ Text.trim t
    · exact hsign.trans (List.singleton_sublist.2 hminus).countP_le
    · rw [hnone (hx hminus)]
      exact Nat.zero_le _
  unfold Quantity.ofText
  dsimp only
  split
  next color hcolor =>
    rw [Quantity.written, hp.countP_rgbText]
    have h := (parens_sublist_of_ofText? hcolor).countP_le (p := p)
    rwa [show ['(', ')'] = ['('] ++ [')'] from rfl, List.countP_append] at h
  next =>
    split
    next value hvalue =>
      have h := hnumber value [] (by simp) (Quantity.unsigned_of_numberOf? hvalue)
      rwa [List.append_nil] at h
    next =>
      split
      next value unit hlength =>
        exact hnumber value unit.text (mem_writtenChars_of_unit unit)
          (Quantity.unsigned_of_lengthOf? hlength)
      next => exact le_refl _

lemma countP_requote (t : Text) (quoted : Bool) :
    (Quantity.requote quoted t).countP p = (Quantity.requote quoted []).countP p + t.countP p := by
  cases quoted with
  | false => simp [Quantity.requote]
  | true =>
      simp only [Quantity.requote, if_true, List.countP_append, List.countP_nil]
      omega

lemma countP_unquote_le (t : Text) : (unquote t).1.countP p ≤ t.countP p := by
  have h := countP_requote (p := p) (unquote t).1 (unquote t).2
  rw [Quantity.requote_unquote] at h
  omega

/-- The value of an operation is no heavier than its sides and the operator between them. -/
lemma countP_outcome_le (hp : IsWeight p) {left right value : Quantity} {op : Operator}
    (h : Quantity.Outcome left op right value) :
    value.written.countP p
      ≤ left.written.countP p + ['-'].countP p + right.written.countP p := by
  have hleft := countP_requote (p := p) (unquote left.written).1 (unquote left.written).2
  rw [Quantity.requote_unquote] at hleft
  have hright := countP_unquote_le (p := p) right.written
  cases h with
  | number x =>
      have hsign := (hp.countP_numberText x [] (by simp)).1
      rw [List.append_nil] at hsign
      exact hsign.trans (by omega)
  | length x unit =>
      exact ((hp.countP_numberText x unit.text (mem_writtenChars_of_unit unit)).1).trans (by omega)
  | color side value h =>
      have hside : value.text.countP p = side.text.countP p := by
        rw [hp.countP_rgbText, hp.countP_rgbText]
      rcases h with rfl | rfl
      · change value.text.countP p ≤ side.text.countP p + _ + _
        omega
      · change value.text.countP p ≤ _ + _ + side.text.countP p
        omega
  | kept a unit h =>
      have hblank : p ' ' = false := hp.eq_false (by decide)
      rw [h]
      simp only [Quantity.unresolved, Quantity.written, List.countP_append, List.countP_cons,
        List.countP_nil, hp.operators]
      have hspace : " ".toList.countP p = 0 := by
        change [' '].countP p = 0
        simp [hblank]
      omega
  | glued h =>
      rw [Quantity.written, countP_requote, List.countP_append]
      omega
  | erased h =>
      have herase := (eraseFirst_sublist (unquote right.written).1
        (unquote left.written).1).countP_le (p := p)
      rw [Quantity.written, countP_requote]
      omega

/-! ### Reducing -/

lemma countP_value_le (hp : IsWeight p) {l r left right : Text} {op : Operator} {value : Quantity}
    (hl : left.countP p ≤ l.countP p) (hr : right.countP p ≤ r.countP p)
    (h : (Quantity.ofText left).apply op (Quantity.ofText right) = .ok value) :
    (normalizeSigns value.written).countP p ≤ l.countP p + ['-'].countP p + r.countP p := by
  have hvalue := hp.countP_outcome_le (Quantity.outcome_of_apply h)
  have hleft := hp.countP_written_ofText_le left
  have hright := hp.countP_written_ofText_le right
  have hsigns := hp.countP_normalizeSigns_le value.written
  omega

lemma countP_reduceAt_le (hp : IsWeight p) {depth : Nat}
    (ih : ∀ t r, reduceWithin depth t = .ok r → r.countP p ≤ t.countP p) {t r : Text}
    {op : Operator} (h : reduceAt depth t op = .ok r) : r.countP p ≤ t.countP p := by
  unfold reduceAt at h
  cases hsplit : splitBinary op t with
  | none =>
      rw [hsplit] at h
      cases h
      exact le_refl _
  | some sides =>
      rw [hsplit] at h
      obtain ⟨left, hleft, h⟩ := bind_eq_ok_iff.1 h
      obtain ⟨right, hright, h⟩ := bind_eq_ok_iff.1 h
      obtain ⟨value, hvalue, h⟩ := bind_eq_ok_iff.1 h
      cases h
      rw [hp.countP_of_splitBinary hsplit]
      exact hp.countP_value_le (ih _ _ hleft) (ih _ _ hright) hvalue

lemma countP_foldlM_reduceAt_le (hp : IsWeight p) {depth : Nat}
    (ih : ∀ t r, reduceWithin depth t = .ok r → r.countP p ≤ t.countP p) {ops : List Operator}
    {t r : Text} (h : ops.foldlM (reduceAt depth) t = .ok r) : r.countP p ≤ t.countP p :=
  foldlM_induction (P := fun _ s => s.countP p ≤ t.countP p) (le_refl _)
    (fun _ _ _ _ hs hstep => (hp.countP_reduceAt_le ih hstep).trans hs) h

lemma countP_reduceWithin_le (hp : IsWeight p) (depth : Nat) :
    ∀ t r, reduceWithin depth t = .ok r → r.countP p ≤ t.countP p := by
  induction depth with
  | zero =>
      intro t r h
      cases h
      exact le_refl _
  | succ depth ih =>
      intro t r h
      exact (hp.countP_foldlM_reduceAt_le ih h).trans (hp.countP_tidied_le t)

/-- **Reducing makes no text heavier.** -/
lemma countP_reduce_le (hp : IsWeight p) {t r : Text} (h : reduce t = .ok r) :
    r.countP p ≤ t.countP p :=
  hp.countP_reduceWithin_le _ t r h

end IsWeight

/-! ## Signs -/

lemma operatorCount_mergeMinus (t : Text) :
    mergeMinus t = t ∨ operatorCount (mergeMinus t) < operatorCount t := by
  fun_induction mergeMinus t with
  | case1 rest ih =>
      right
      have hle : operatorCount (mergeMinus rest) ≤ operatorCount rest :=
        isWeight_isOperator.countP_mergeMinus_le rest
      simp only [operatorCount, List.countP_cons_of_pos (p := isOperator) (a := '+') rfl,
        List.countP_cons_of_pos (p := isOperator) (a := '-') rfl] at hle ⊢
      omega
  | case2 c rest _ ih =>
      refine ih.imp (congrArg (c :: ·)) fun hlt => ?_
      simp only [operatorCount, List.countP_cons] at hlt ⊢
      omega
  | case3 => exact Or.inl rfl

lemma operatorCount_dropPlus (t : Text) :
    dropPlus t = t ∨ operatorCount (dropPlus t) < operatorCount t := by
  fun_induction dropPlus t with
  | case1 rest ih =>
      right
      have hle : operatorCount (dropPlus rest) ≤ operatorCount rest :=
        (dropPlus_sublist rest).countP_le
      simp only [operatorCount, List.countP_cons_of_pos (p := isOperator) (a := '+') rfl,
        List.countP_cons_of_pos (p := isOperator) (a := '-') rfl] at hle ⊢
      omega
  | case2 c rest _ ih =>
      refine ih.imp (congrArg (c :: ·)) fun hlt => ?_
      simp only [operatorCount, List.countP_cons] at hlt ⊢
      omega
  | case3 => exact Or.inl rfl

lemma operatorCount_normalizeSigns (t : Text) :
    normalizeSigns t = t ∨ operatorCount (normalizeSigns t) < operatorCount t := by
  rcases operatorCount_mergeMinus t with hmerge | hmerge
  · rw [normalizeSigns, hmerge]
    exact operatorCount_dropPlus t
  · exact Or.inr (lt_of_le_of_lt (dropPlus_sublist _).countP_le hmerge)

/-- Signs are left alone when no two of them can be merged, and only then. -/
lemma normalizeSigns_eq_self_iff {t : Text} : normalizeSigns t = t ↔ t.IsChain SignsApart := by
  refine ⟨fun h => ?_, normalizeSigns_of_isChain⟩
  have hmerge : mergeMinus t = t := by
    refine (operatorCount_mergeMinus t).resolve_right fun hlt => ?_
    have hle : operatorCount (normalizeSigns t) ≤ operatorCount (mergeMinus t) :=
      (dropPlus_sublist _).countP_le
    rw [h] at hle
    omega
  rw [normalizeSigns, hmerge] at h
  induction t with
  | nil => exact List.isChain_nil
  | cons c cs ih =>
      have hfirst : ∀ d ∈ cs.head?, SignsApart c d := by
        rintro d hd ⟨hc, rfl⟩
        obtain ⟨rest, rfl⟩ : ∃ rest, cs = '-' :: rest := by
          cases cs with
          | nil => cases hd
          | cons e es => cases hd; exact ⟨es, rfl⟩
        rcases hc with rfl | rfl
        · simp [dropPlus] at h
        · simp [mergeMinus] at hmerge
      refine List.isChain_cons.2 ⟨hfirst, ih ?_ ?_⟩
      · rw [dropPlus] at h
        · exact (List.cons.inj h).2
        · rintro rest rfl rfl
          exact hfirst '-' rfl ⟨Or.inl rfl, rfl⟩
      · rw [mergeMinus] at hmerge
        · exact (List.cons.inj hmerge).2
        · rintro rest rfl rfl
          exact hfirst '-' rfl ⟨Or.inr rfl, rfl⟩

end Offside
