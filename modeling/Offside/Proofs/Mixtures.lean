import Mathlib
import Offside.Proofs.Termination

/-!
# What reducing leaves of a text

Reducing a text takes operators out of it, with one exception: an operation on lengths that its
operator does not apply to is written out as a mixture, `10px + 2em`, and the operator stays.  The
measure that tells the two cases apart is the number of operators behind the first character
(`innerCount`), because a result has no operator but the sign that it may begin with.

No round raises the measure (`Rounds.innerCount_le`).  When rounds leave it as it was, they have
either found no operator at all or have done a single operation, whose result is a mixture
(`Rounds.unreduced`).  The last two sections say how a mixture is read again: where the operators
stand that take it apart, and that it is tidied side by side (`tidied_mixtureText`).

All of this is about texts without quotes: quoted text keeps its operators whatever is done to it.
-/

namespace Offside

/-! ## Tidied texts -/

lemma head?_trimStart_tightenFrom (after : Bool) (t : Text) :
    (Text.trimStart (tightenFrom after t)).head? = (Text.trimStart t).head? := by
  induction t generalizing after with
  | nil => rfl
  | cons c cs ih =>
      rw [tightenFrom]
      by_cases hc : Text.isBlank c = true
      · have hskip : ∀ rest, Text.trimStart (c :: rest) = Text.trimStart rest := fun rest => by
          rw [Text.trimStart, List.dropWhile_cons_of_pos hc]
          rfl
        rw [if_pos hc, hskip]
        dsimp only
        split_ifs
        · exact ih after
        · rw [hskip]
          exact ih false
      · have hstay : ∀ rest, Text.trimStart (c :: rest) = c :: rest := fun rest =>
          List.dropWhile_cons_of_neg hc
        rw [if_neg hc, hstay, hstay]
        rfl

lemma tightenFrom_tightenFrom (after : Bool) (t : Text) :
    tightenFrom after (tightenFrom after t) = tightenFrom after t := by
  induction t generalizing after with
  | nil => rfl
  | cons c cs ih =>
      rw [tightenFrom]
      by_cases hc : Text.isBlank c = true
      · rw [if_pos hc]
        dsimp only
        split_ifs with hdrop
        · exact ih after
        · rw [tightenFrom, if_pos hc]
          dsimp only
          rw [head?_trimStart_tightenFrom, if_neg hdrop, ih false]
      · rw [if_neg hc, tightenFrom, if_neg hc, ih]

lemma getLast?_tightenFrom (after : Bool) {t : Text}
    (h : ∀ c ∈ t.getLast?, Text.isBlank c = false) :
    (tightenFrom after t).getLast? = t.getLast? := by
  induction t generalizing after with
  | nil => rfl
  | cons c cs ih =>
      cases cs with
      | nil =>
          have hc := h c rfl
          simp [tightenFrom, hc]
      | cons d ds =>
          rw [List.getLast?_cons_cons] at h ⊢
          have hne : ∀ b, tightenFrom b (d :: ds) ≠ [] := by
            intro b hempty
            have hlast := ih b h
            rw [hempty, eq_comm, List.getLast?_nil, List.getLast?_eq_none_iff] at hlast
            cases hlast
          rw [tightenFrom]
          dsimp only
          split_ifs
          · exact ih after h
          · rw [List.getLast?_cons_of_ne_nil (hne _), ih false h]
          · rw [List.getLast?_cons_of_ne_nil (hne _), ih _ h]

lemma head?_tightenFrom (after : Bool) {t : Text} (h : ∀ c ∈ t.head?, Text.isBlank c = false) :
    (tightenFrom after t).head? = t.head? := by
  cases t with
  | nil => rfl
  | cons c cs => simp [tightenFrom, h c rfl]

lemma Trimmed.tightenFrom {t : Text} (h : Trimmed t) (after : Bool) :
    Trimmed (tightenFrom after t) := by
  refine ⟨?_, ?_⟩
  · rw [head?_tightenFrom after h.first]
    exact h.first
  · rw [getLast?_tightenFrom after h.last]
    exact h.last

lemma tidied_eq {t : Text} (h : '"' ∉ t) :
    tidied t = normalizeSigns (tightenFrom false (Text.trim t)) := by
  rw [tidied, tighten_eq_tightenFrom fun hmem => h (mem_of_mem_trim hmem)]

/-- A text that keeps all its operators when it is tidied only loses white space. -/
lemma tidied_of_operatorCount_le {t : Text} (hq : '"' ∉ t)
    (h : operatorCount t ≤ operatorCount (tidied t)) :
    tidied t = tightenFrom false (Text.trim t) ∧ (tidied t).IsChain SignsApart ∧
      tidied (tidied t) = tidied t := by
  have hle : operatorCount (tightenFrom false (Text.trim t)) ≤ operatorCount t :=
    ((tightenFrom_sublist _ _).trans (trim_isInfix t).sublist).countP_le
  have hsigns :
      normalizeSigns (tightenFrom false (Text.trim t)) = tightenFrom false (Text.trim t) := by
    refine (operatorCount_normalizeSigns _).resolve_right fun hlt => ?_
    rw [← tidied_eq hq] at hlt
    omega
  have htidied : tidied t = tightenFrom false (Text.trim t) := by rw [tidied_eq hq, hsigns]
  have hq' : '"' ∉ tidied t := by
    rw [htidied]
    exact fun hmem => hq (mem_of_mem_trim ((tightenFrom_sublist _ _).subset hmem))
  refine ⟨htidied, ?_, ?_⟩
  · rw [htidied]
    exact normalizeSigns_eq_self_iff.1 hsigns
  · rw [tidied_eq hq', htidied, ((trimmed_trim t).tightenFrom false).trim_eq,
      tightenFrom_tightenFrom, hsigns]

/-! ## Operators inside of a text -/

/-- How many operator characters a text has behind its first character. -/
def innerCount (t : Text) : Nat := operatorCount t.tail

lemma innerCount_le_operatorCount (t : Text) : innerCount t ≤ operatorCount t :=
  (List.tail_sublist t).countP_le

lemma innerCount_le_of_sublist {s t : Text} (h : s.Sublist t) : innerCount s ≤ innerCount t :=
  h.tail.countP_le

lemma operatorCount_append (s t : Text) :
    operatorCount (s ++ t) = operatorCount s + operatorCount t := List.countP_append

lemma operatorCount_symbol_cons (op : Operator) (t : Text) :
    operatorCount (op.symbol :: t) = operatorCount t + 1 :=
  List.countP_cons_of_pos (isOperator_symbol op)

lemma innerCount_append {s : Text} (hs : s ≠ []) (t : Text) :
    innerCount (s ++ t) = innerCount s + operatorCount t := by
  rw [innerCount, List.tail_append_of_ne_nil hs, operatorCount_append, innerCount]

lemma innerCount_append_le (s t : Text) :
    innerCount (s ++ t) ≤ innerCount s + operatorCount t := by
  cases s with
  | nil => exact (innerCount_le_operatorCount t).trans (Nat.le_add_left _ _)
  | cons c cs => exact (innerCount_append (List.cons_ne_nil c cs) t).le

lemma innerCount_mergeMinus (t : Text) :
    mergeMinus t = t ∨ innerCount (mergeMinus t) < innerCount t := by
  fun_cases mergeMinus t with
  | case1 rest =>
      right
      have hle : operatorCount (mergeMinus rest) ≤ operatorCount rest :=
        isWeight_isOperator.countP_mergeMinus_le rest
      have hinner : innerCount ('-' :: '-' :: rest) = operatorCount rest + 1 :=
        operatorCount_symbol_cons .sub rest
      rw [hinner]
      exact Nat.lt_succ_of_le hle
  | case2 c rest =>
      exact (operatorCount_mergeMinus rest).imp (congrArg (c :: ·)) id
  | case3 => exact Or.inl rfl

lemma innerCount_dropPlus (t : Text) :
    dropPlus t = t ∨ innerCount (dropPlus t) < innerCount t := by
  fun_cases dropPlus t with
  | case1 rest =>
      right
      have hle : operatorCount (dropPlus rest) ≤ operatorCount rest :=
        (dropPlus_sublist rest).countP_le
      have hinner : innerCount ('+' :: '-' :: rest) = operatorCount rest + 1 :=
        operatorCount_symbol_cons .sub rest
      rw [hinner]
      exact Nat.lt_succ_of_le hle
  | case2 c rest =>
      exact (operatorCount_dropPlus rest).imp (congrArg (c :: ·)) id
  | case3 => exact Or.inl rfl

lemma innerCount_normalizeSigns (t : Text) :
    normalizeSigns t = t ∨ innerCount (normalizeSigns t) < innerCount t := by
  rcases innerCount_mergeMinus t with hmerge | hmerge
  · rw [normalizeSigns, hmerge]
    exact innerCount_dropPlus t
  · exact Or.inr (lt_of_le_of_lt (innerCount_le_of_sublist (dropPlus_sublist _)) hmerge)

lemma Operand.innerCount_text (x : Operand) : innerCount x.text = 0 := by
  have hbody : operatorCount x.body = 0 := List.countP_eq_zero.2 fun c hc => by
    simp [x.noOperator c hc]
  unfold Operand.text
  split_ifs
  · exact hbody
  · exact Nat.le_zero.1 ((innerCount_le_operatorCount _).trans hbody.le)

/-! ## What rounds leave inside -/

lemma eq_trim_of_ofText {t s : Text} (h : Quantity.ofText t = .text s) : s = Text.trim t := by
  unfold Quantity.ofText at h
  dsimp only at h
  split at h
  next => cases h
  next =>
    split at h
    next => cases h
    next =>
      split at h
      next => cases h
      next => cases h; rfl

lemma innerCount_written_ofText_le (t : Text) :
    innerCount (Quantity.ofText t).written ≤ innerCount t := by
  rcases (Quantity.ofText t).exists_operand with ⟨s, hs⟩ | ⟨x, hx⟩
  · rw [hs, Quantity.written, eq_trim_of_ofText hs]
    exact innerCount_le_of_sublist (trim_isInfix t).sublist
  · rw [← hx, x.innerCount_text]
    exact Nat.zero_le _

/-- An operation as it is written when it stays as it is. -/
def mixtureText (left : Text) (op : Operator) (right : Text) : Text :=
  left ++ ' ' :: op.symbol :: ' ' :: right

lemma Quantity.unresolved_eq (a : Float) (unit : LengthUnit) (op : Operator) (right : Quantity) :
    Quantity.unresolved a unit op right
      = .text (mixtureText (Quantity.length a unit).written op right.written) := by
  simp [mixtureText, Quantity.unresolved, Quantity.written]

lemma written_unresolved (a : Float) (unit : LengthUnit) (op : Operator) (right : Quantity) :
    (Quantity.unresolved a unit op right).written
      = mixtureText (Quantity.length a unit).written op right.written := by
  rw [Quantity.unresolved_eq]
  rfl

lemma Quantity.exists_operand_length (a : Float) (unit : LengthUnit) :
    ∃ x : Operand, x.text = (Quantity.length a unit).written := by
  rcases (Quantity.length a unit).exists_operand with ⟨t, ht⟩ | hx
  · cases ht
  · exact hx

lemma innerCount_unresolved (a : Float) (unit : LengthUnit) (op : Operator) (right : Quantity) :
    innerCount (Quantity.unresolved a unit op right).written = operatorCount right.written + 1 := by
  obtain ⟨x, hx⟩ := Quantity.exists_operand_length a unit
  rw [written_unresolved, ← hx, mixtureText, innerCount_append x.text_ne_nil, x.innerCount_text,
    Nat.zero_add]
  exact operatorCount_symbol_cons op (' ' :: right.written)

/-- An operation leaves fewer operators inside, unless it is a mixture that stays as it is. -/
lemma innerCount_outcome {left right value : Quantity} {op : Operator} (hq : '"' ∉ left.written)
    (h : Quantity.Outcome left op right value) :
    innerCount value.written ≤ innerCount left.written + operatorCount right.written ∨
      ∃ a unit, left = .length a unit ∧ value = .unresolved a unit op right := by
  have hoperand : (∀ t, value ≠ .text t) →
      innerCount value.written ≤ innerCount left.written + operatorCount right.written := by
    intro hne
    rcases value.exists_operand with ⟨t, ht⟩ | ⟨x, hx⟩
    · exact absurd ht (hne t)
    · rw [← hx, x.innerCount_text]
      exact Nat.zero_le _
  have hunquote : (unquote right.written).1.countP isOperator ≤ operatorCount right.written :=
    IsWeight.countP_unquote_le right.written
  cases h with
  | number x => exact Or.inl (hoperand fun t => Quantity.noConfusion)
  | length x unit => exact Or.inl (hoperand fun t => Quantity.noConfusion)
  | color side value h => exact Or.inl (hoperand fun t => Quantity.noConfusion)
  | kept a unit h => exact Or.inr ⟨a, unit, h, rfl⟩
  | glued h =>
      left
      rw [Quantity.unquote_eq_self hq]
      exact (innerCount_append_le _ _).trans (Nat.add_le_add_left hunquote _)
  | erased h =>
      left
      rw [Quantity.unquote_eq_self hq]
      exact (innerCount_le_of_sublist (eraseFirst_sublist _ _)).trans (Nat.le_add_right _ _)

lemma isWeight_quote : IsWeight (· == '"') := isWeight_beq (Or.inr (Or.inr rfl))

lemma notMem_of_countP_le {c : Char} {s t : Text} (h : s.countP (· == c) ≤ t.countP (· == c))
    (ht : c ∉ t) : c ∉ s := by
  have hzero : t.count c = 0 := List.count_eq_zero.2 ht
  exact List.count_eq_zero.1 (Nat.le_zero.1 (h.trans hzero.le))

lemma ne_nil_of_splitBinary {op : Operator} {t left right : Text}
    (h : splitBinary op t = some (left, right)) : left ≠ [] ∧ right ≠ [] := by
  have hfrom : ∀ (quoted : Bool) (before t : Text),
      splitBinaryFrom op quoted before t = some (left, right) → left ≠ [] ∧ right ≠ [] := by
    intro quoted before t h
    induction t generalizing quoted before with
    | nil => cases h
    | cons c cs ih =>
        rw [splitBinaryFrom] at h
        split_ifs at h with hquote hsplit
        · exact ih _ _ h
        · simp only [Bool.and_eq_true, Bool.not_eq_true', List.isEmpty_eq_false_iff] at hsplit
          cases h
          exact ⟨by simpa using hsplit.1.1.2, hsplit.1.2⟩
        · exact ih _ _ h
  exact hfrom _ _ _ h

/-- What a round leaves inside: no more operators than before, and as many only if the operation
stays as it is. -/
lemma innerCount_round {op : Operator} {current l r left right : Text} {value : Quantity}
    (hsplit : splitBinary op current = some (l, r)) (hq : '"' ∉ left)
    (hleft : innerCount left ≤ innerCount l) (hright : operatorCount right ≤ operatorCount r)
    (hvalue : (Quantity.ofText left).apply op (Quantity.ofText right) = .ok value) :
    innerCount (normalizeSigns value.written) ≤ innerCount current ∧
      (innerCount current ≤ innerCount (normalizeSigns value.written) →
        ∃ a unit, Quantity.ofText left = .length a unit ∧
          value = .unresolved a unit op (Quantity.ofText right) ∧
          normalizeSigns value.written = value.written ∧ innerCount l = 0) := by
  have hcurrent : innerCount current = innerCount l + (operatorCount r + 1) := by
    rw [eq_append_of_splitBinary hsplit, innerCount_append (ne_nil_of_splitBinary hsplit).1,
      operatorCount_symbol_cons]
  have hq' : '"' ∉ (Quantity.ofText left).written :=
    notMem_of_countP_le (isWeight_quote.countP_written_ofText_le left) hq
  have hsigns := innerCount_normalizeSigns value.written
  have hl := innerCount_written_ofText_le left
  have hr : operatorCount (Quantity.ofText right).written ≤ operatorCount right :=
    isWeight_isOperator.countP_written_ofText_le right
  have hle : innerCount (normalizeSigns value.written) ≤ innerCount value.written := by
    rcases hsigns with hsame | hlt
    · rw [hsame]
    · exact hlt.le
  have houtcome := innerCount_outcome hq' (Quantity.outcome_of_apply hvalue)
  rcases houtcome with hfew | ⟨a, unit, hlength, rfl⟩
  · exact ⟨by omega, fun h => by omega⟩
  · rw [innerCount_unresolved] at hle hsigns
    refine ⟨by omega, fun h => ⟨a, unit, hlength, rfl, ?_, by omega⟩⟩
    rcases hsigns with hsame | hlt
    · exact hsame
    · omega

lemma quote_notMem_of_splitBinary {op : Operator} {t left right : Text}
    (h : splitBinary op t = some (left, right)) (hq : '"' ∉ t) : '"' ∉ left ∧ '"' ∉ right := by
  rw [eq_append_of_splitBinary h, List.mem_append, List.mem_cons, not_or, not_or] at hq
  exact ⟨hq.1, hq.2.2⟩

lemma innerCount_tidied_le {t : Text} (hq : '"' ∉ t) : innerCount (tidied t) ≤ innerCount t := by
  have hle : innerCount (tightenFrom false (Text.trim t)) ≤ innerCount t :=
    innerCount_le_of_sublist ((tightenFrom_sublist _ _).trans (trim_isInfix t).sublist)
  rw [tidied_eq hq]
  rcases innerCount_normalizeSigns (tightenFrom false (Text.trim t)) with hsame | hlt
  · rwa [hsame]
  · exact hlt.le.trans hle

lemma quote_notMem_tidied {t : Text} (hq : '"' ∉ t) : '"' ∉ tidied t :=
  notMem_of_countP_le (isWeight_quote.countP_tidied_le t) hq

lemma IsWeight.countP_reduces_le {p : Char → Bool} (hp : IsWeight p) {t r : Text}
    (h : Reduces t (.ok r)) : r.countP p ≤ t.countP p :=
  (hp.countP_rounds_le h).trans (hp.countP_tidied_le t)

lemma quote_notMem_round {op : Operator} {current l r left right : Text} {value : Quantity}
    (hsplit : splitBinary op current = some (l, r)) (hleft : Reduces l (.ok left))
    (hright : Reduces r (.ok right))
    (hvalue : (Quantity.ofText left).apply op (Quantity.ofText right) = .ok value)
    (hq : '"' ∉ current) : '"' ∉ normalizeSigns value.written := by
  refine notMem_of_countP_le ?_ hq
  rw [isWeight_quote.countP_of_splitBinary hsplit]
  exact isWeight_quote.countP_value_le (isWeight_quote.countP_reduces_le hleft)
    (isWeight_quote.countP_reduces_le hright) hvalue

/-- Rounds leave no more operators inside than there were. -/
lemma Rounds.innerCount_le {ops : List Operator} {current r : Text}
    (h : Rounds ops current (.ok r)) (hq : '"' ∉ current) : innerCount r ≤ innerCount current := by
  generalize hout : (Except.ok r : Except CalculationError Text) = out at h
  induction h generalizing r with
  | done current => cases hout; exact le_refl _
  | absent hsplit _ ih => exact ih hq hout
  | leftFails _ _ _ => cases hout
  | rightFails _ _ _ _ _ => cases hout
  | fails _ _ _ _ _ _ => cases hout
  | computed hsplit hleft hright hvalue hnext ihl ihr ih =>
      obtain ⟨hql, hqr⟩ := quote_notMem_of_splitBinary hsplit hq
      have hinner := (ihl (quote_notMem_tidied hql) rfl).trans (innerCount_tidied_le hql)
      have hround := innerCount_round hsplit
        (notMem_of_countP_le (isWeight_quote.countP_reduces_le hleft) hql) hinner
        (isWeight_isOperator.countP_reduces_le hright) hvalue
      exact (ih (quote_notMem_round hsplit hleft hright hvalue hq) hout).trans hround.1

lemma Reduces.innerCount_le {t r : Text} (h : Reduces t (.ok r)) (hq : '"' ∉ t) :
    innerCount r ≤ innerCount t :=
  (Rounds.innerCount_le h (quote_notMem_tidied hq)).trans (innerCount_tidied_le hq)

/-- What rounds have done to a text when they have left as many operators inside as there were:
nothing at all, or a single operation, which stays as it is written. -/
inductive Unreduced (ops : List Operator) (current : Text) : Text → Prop
  | whole (h : ∀ o ∈ ops, splitBinary o current = none) : Unreduced ops current current
  | mixture {earlier op later l r left right a unit} (hops : ops = earlier ++ op :: later)
      (hearlier : ∀ o ∈ earlier, splitBinary o current = none)
      (hsplit : splitBinary op current = some (l, r)) (hinner : innerCount l = 0)
      (hleft : Reduces l (.ok left)) (hright : Reduces r (.ok right))
      (hlength : Quantity.ofText left = .length a unit)
      (hvalue : (Quantity.ofText left).apply op (Quantity.ofText right)
        = .ok (.unresolved a unit op (Quantity.ofText right)))
      (hlater : ∀ o ∈ later,
        splitBinary o (Quantity.unresolved a unit op (Quantity.ofText right)).written = none) :
      Unreduced ops current (Quantity.unresolved a unit op (Quantity.ofText right)).written

lemma Operator.symbol_injective : Function.Injective Operator.symbol := by
  intro a b h
  cases a <;> cases b <;> first | rfl | exact absurd h (by decide)

/-- No other operator stands before the operator of a mixture. -/
lemma innerCount_pos_of_splitBinary {a : Float} {unit : LengthUnit} {op o : Operator}
    {right : Quantity} {l r : Text} (hne : o ≠ op)
    (h : splitBinary o (Quantity.unresolved a unit op right).written = some (l, r)) :
    0 < innerCount l := by
  obtain ⟨x, hx⟩ := Quantity.exists_operand_length a unit
  have happend := eq_append_of_splitBinary h
  rw [written_unresolved, ← hx, mixtureText, List.append_cons x.text] at happend
  have hsymbol : op.symbol ≠ o.symbol := fun hsame => hne (Operator.symbol_injective hsame.symm)
  rcases List.append_eq_append_iff.1 happend with ⟨more, hl, hmore⟩ | ⟨more, hx', hmore⟩
  · cases more with
    | nil => exact absurd (List.cons.inj hmore).1 hsymbol
    | cons c cs =>
        rw [hl, ← (List.cons.inj hmore).1, innerCount_append (by simp), operatorCount_symbol_cons]
        omega
  · cases more with
    | nil => exact absurd (List.cons.inj hmore).1.symm hsymbol
    | cons c cs =>
        -- the operator would stand in the length
        have hinner : innerCount (x.text ++ [' ']) = 0 := by
          rw [innerCount_append x.text_ne_nil, x.innerCount_text]
          rfl
        rw [hx', ← (List.cons.inj hmore).1, innerCount_append (ne_nil_of_splitBinary h).1,
          operatorCount_symbol_cons] at hinner
        omega

lemma Rounds.unreduced {ops : List Operator} {current t : Text} (h : Rounds ops current (.ok t))
    (hops : ops.Nodup) (hq : '"' ∉ current) (hin : innerCount current ≤ innerCount t) :
    Unreduced ops current t := by
  generalize hout : (Except.ok t : Except CalculationError Text) = out at h
  induction h with
  | done current => cases hout; exact .whole (by simp)
  | absent hsplit _ ih =>
      cases ih hops.of_cons hq hin hout with
      | whole h => exact .whole (List.forall_mem_cons.2 ⟨hsplit, h⟩)
      | mixture hall hearlier hsplit' hinner hleft hright hlength hvalue hlater =>
          exact .mixture (by rw [hall]; rfl) (List.forall_mem_cons.2 ⟨hsplit, hearlier⟩) hsplit'
            hinner hleft hright hlength hvalue hlater
  | leftFails _ _ _ => cases hout
  | rightFails _ _ _ _ _ => cases hout
  | fails _ _ _ _ _ _ => cases hout
  | @computed op ops _ _ _ _ _ _ _ hsplit hleft hright hvalue hnext _ _ ih =>
      subst hout
      obtain ⟨hql, hqr⟩ := quote_notMem_of_splitBinary hsplit hq
      have hqn := quote_notMem_round hsplit hleft hright hvalue hq
      obtain ⟨hle, hkept⟩ := innerCount_round hsplit
        (notMem_of_countP_le (isWeight_quote.countP_reduces_le hleft) hql)
        (Reduces.innerCount_le hleft hql) (isWeight_isOperator.countP_reduces_le hright) hvalue
      obtain ⟨a, unit, hlength, rfl, hsigns, hinner⟩ :=
        hkept (hin.trans (Rounds.innerCount_le hnext hqn))
      have hrest := ih hops.of_cons hqn (hle.trans hin) rfl
      rw [hsigns] at hrest
      cases hrest with
      | whole h =>
          exact .mixture (List.nil_append (op :: ops)).symm (by simp) hsplit hinner hleft hright
            hlength hvalue h
      | @mixture _ o _ _ _ _ _ _ _ hall _ hsplit' hinner' =>
          have hne : o ≠ op := by
            rintro rfl
            exact (List.nodup_cons.1 hops).1 (by rw [hall]; simp)
          exact absurd hinner' (innerCount_pos_of_splitBinary hne hsplit').ne'

/-! ## Where an operator can stand -/

/-- A text without its first and last character. -/
def interior (t : Text) : Text := t.tail.dropLast

lemma splitBinary_eq_none {op : Operator} {t : Text} (h : op.symbol ∉ interior t) :
    splitBinary op t = none := by
  refine Option.eq_none_iff_forall_ne_some.2 fun ⟨left, right⟩ hsplit => h ?_
  obtain ⟨hleft, hright⟩ := ne_nil_of_splitBinary hsplit
  rw [eq_append_of_splitBinary hsplit, interior, List.tail_append_of_ne_nil hleft,
    List.dropLast_append_of_ne_nil (List.cons_ne_nil _ _), List.dropLast_cons_of_ne_nil hright]
  simp

/-- A minus sign after another operator is no subtraction. -/
def Subtracts (op : Operator) (a b : Char) : Prop := op = .sub → b = '-' → isOperator a = false

lemma splitBinaryFrom_isSome {op : Operator} {t : Text} (hq : '"' ∉ t) {c : Char}
    (hchain : (c :: t).IsChain (Subtracts op)) (h : op.symbol ∈ t.dropLast) (before : Text) :
    (splitBinaryFrom op false (c :: before) t).isSome = true := by
  induction t generalizing c before with
  | nil => cases h
  | cons d ds ih =>
      rw [List.mem_cons, not_or] at hq
      have hds : ds ≠ [] := by
        rintro rfl
        cases h
      rw [splitBinaryFrom, if_neg (Ne.symm hq.1)]
      split_ifs with hsplit
      · rfl
      · refine ih hq.2 hchain.tail ?_ (c :: before)
        rw [List.dropLast_cons_of_ne_nil hds, List.mem_cons] at h
        refine h.resolve_left fun hd => hsplit ?_
        have hbefore := (List.isChain_cons_cons.1 hchain).1
        cases op with
        | sub => simp [← hd, hds, hbefore rfl hd.symm]
        | add => simp [← hd, hds]
        | mul => simp [← hd, hds]
        | div => simp [← hd, hds]

/-- An operator inside of a text takes it apart. -/
lemma notMem_interior {op : Operator} {t : Text} (hq : '"' ∉ t) (hchain : t.IsChain (Subtracts op))
    (h : splitBinary op t = none) : op.symbol ∉ interior t := by
  intro hmem
  cases t with
  | nil => cases hmem
  | cons c cs =>
      rw [List.mem_cons, not_or] at hq
      have hsome := splitBinaryFrom_isSome hq.2 hchain hmem []
      rw [splitBinary, splitBinaryFrom, if_neg (Ne.symm hq.1), if_neg (by simp)] at h
      rw [h] at hsome
      cases hsome

lemma isChain_subtracts {op : Operator} {t : Text} (hchain : t.IsChain SignsApart)
    (h : op = .sub → ∀ c ∈ t.dropLast, c ≠ '*' ∧ c ≠ '/') : t.IsChain (Subtracts op) := by
  induction t with
  | nil => exact List.isChain_nil
  | cons c cs ih =>
      cases cs with
      | nil => exact List.isChain_singleton c
      | cons d ds =>
          rw [List.isChain_cons_cons] at hchain ⊢
          refine ⟨fun hop hd => ?_, ih hchain.2 fun hop e he => h hop e (List.mem_cons_of_mem c he)⟩
          have hfactor := h hop c List.mem_cons_self
          have hplus : c ≠ '+' := fun hc => hchain.1 ⟨Or.inl hc, hd⟩
          have hminus : c ≠ '-' := fun hc => hchain.1 ⟨Or.inr hc, hd⟩
          simp [isOperator, hplus, hminus, hfactor]

/-- Which of the later operators take a text apart is a matter of the characters inside. -/
lemma forall_later_iff {t : Text} (hq : '"' ∉ t) (hchain : t.IsChain SignsApart)
    (hfirst : ∀ c ∈ t.head?, c ≠ '*' ∧ c ≠ '/') {op : Operator} {earlier later : List Operator}
    (hall : Operator.all = earlier ++ op :: later) :
    (∀ o ∈ later, splitBinary o t = none) ↔ ∀ o ∈ later, o.symbol ∉ interior t := by
  refine ⟨fun h o ho => ?_, fun h o ho => splitBinary_eq_none (h o ho)⟩
  refine notMem_interior hq (isChain_subtracts hchain ?_) (h o ho)
  rintro rfl c hc
  -- multiplication and division come later than subtraction
  have hsuffix : later ∈ Operator.all.tails :=
    (List.mem_tails _ _).2 ⟨earlier ++ [op], by rw [hall, List.append_assoc]; rfl⟩
  obtain ⟨hmul, hdiv⟩ := (by decide : ∀ ops ∈ Operator.all.tails, Operator.sub ∈ ops →
    Operator.mul ∈ ops ∧ Operator.div ∈ ops) later hsuffix ho
  have hfactor : ∀ o ∈ later, o ≠ .sub → o.symbol ∉ interior t := fun o ho hne =>
    notMem_interior hq (isChain_subtracts hchain fun hsub => absurd hsub hne) (h o ho)
  cases t with
  | nil => cases hc
  | cons d ds =>
      cases ds with
      | nil => cases hc
      | cons e es =>
          rcases List.mem_cons.1 hc with rfl | hc
          · exact hfirst c rfl
          · refine ⟨?_, ?_⟩
            · rintro rfl
              exact hfactor .mul hmul (by decide) hc
            · rintro rfl
              exact hfactor .div hdiv (by decide) hc

lemma tightenFrom_ne_nil (after : Bool) {t : Text} (hne : t ≠ [])
    (h : ∀ c ∈ t.getLast?, Text.isBlank c = false) : tightenFrom after t ≠ [] := by
  intro hempty
  have hlast := getLast?_tightenFrom after h
  rw [hempty, eq_comm, List.getLast?_nil, List.getLast?_eq_none_iff] at hlast
  exact hne hlast

lemma mem_dropLast_tightenFrom (after : Bool) {t : Text} {c : Char}
    (h : ∀ d ∈ t.getLast?, Text.isBlank d = false) (hc : Text.isBlank c = false)
    (hmem : c ∈ t.dropLast) : c ∈ (tightenFrom after t).dropLast := by
  induction t generalizing after with
  | nil => cases hmem
  | cons d ds ih =>
      have hds : ds ≠ [] := by
        rintro rfl
        cases hmem
      rw [List.getLast?_cons_of_ne_nil hds] at h
      rw [List.dropLast_cons_of_ne_nil hds, List.mem_cons] at hmem
      rw [tightenFrom]
      dsimp only
      split_ifs with hblank hdrop
      · refine ih after h (hmem.resolve_left ?_)
        rintro rfl
        rw [hc] at hblank
        cases hblank
      · rw [List.dropLast_cons_of_ne_nil (tightenFrom_ne_nil _ hds h), List.mem_cons]
        exact hmem.imp_right (ih false h)
      · rw [List.dropLast_cons_of_ne_nil (tightenFrom_ne_nil _ hds h), List.mem_cons]
        exact hmem.imp_right (ih _ h)

/-- Tightening a text keeps the operators inside of it inside. -/
lemma symbol_mem_interior_tightenFrom {t : Text} (ht : Trimmed t) (op : Operator) :
    op.symbol ∈ interior (tightenFrom false t) ↔ op.symbol ∈ interior t := by
  constructor
  · intro h
    have hsub := (tightenFrom_sublist false t).tail.reverse.tail
    rw [List.tail_reverse, List.tail_reverse, List.reverse_sublist] at hsub
    exact hsub.subset h
  · intro h
    cases t with
    | nil => cases h
    | cons c cs =>
        have hcs : cs ≠ [] := by
          rintro rfl
          cases h
        have hlast := ht.last
        rw [List.getLast?_cons_of_ne_nil hcs] at hlast
        have hsymbol : Text.isBlank op.symbol = false := by cases op <;> rfl
        rw [tightenFrom, if_neg (by simp [ht.first c rfl])]
        exact mem_dropLast_tightenFrom _ hlast hsymbol h

/-! ## Mixtures read again -/

section Mixture

variable (x : Operand) (op : Operator) {right : Text}

lemma trimmed_mixtureText (hright : Trimmed right) (hne : right ≠ []) :
    Trimmed (mixtureText x.text op right) := by
  refine ⟨?_, ?_⟩
  · rw [mixtureText, List.head?_append_of_ne_nil _ x.text_ne_nil]
    exact x.trimmed_text.first
  · rw [mixtureText, List.getLast?_append_of_ne_nil _ (List.cons_ne_nil _ _),
      List.getLast?_cons_cons, List.getLast?_cons_cons, List.getLast?_cons_of_ne_nil hne]
    exact hright.last

lemma tightenFrom_mixtureText (hright : Trimmed right) :
    tightenFrom false (mixtureText x.text op right)
      = x.text ++ op.symbol :: tightenFrom false right := by
  have hsymbol : Text.isBlank op.symbol = false := by cases op <;> rfl
  have hnext : (Text.trimStart (op.symbol :: ' ' :: right)).head? = some op.symbol := by
    rw [Text.trimStart, List.dropWhile_cons_of_neg (by simp [hsymbol])]
    rfl
  rw [mixtureText, x.tightenFrom_text, ← tightenFrom_of_first true hright.first]
  simp [tightenFrom, hsymbol, hnext, show Text.isBlank ' ' = true from rfl]

lemma isChain_mixtureText (hright : right.IsChain SignsApart) :
    (mixtureText x.text op right).IsChain SignsApart := by
  have hmiddle : [' ', op.symbol, ' '].IsChain SignsApart := by cases op <;> decide
  have hleft : (x.text ++ [' ', op.symbol, ' ']).IsChain SignsApart :=
    isChain_signsApart_append x.isChain_signsApart hmiddle (Or.inr (by rintro c ⟨⟩; decide))
  have hlast : (x.text ++ [' ', op.symbol, ' ']).getLast? = some ' ' := by simp
  have hmixture := isChain_signsApart_append hleft hright
    (Or.inl (by rw [hlast]; rintro c ⟨⟩; decide))
  rwa [List.append_assoc] at hmixture

lemma operatorCount_mixtureText :
    operatorCount (mixtureText x.text op right)
      = operatorCount x.text + 1 + operatorCount right := by
  have hsymbol := operatorCount_symbol_cons op (' ' :: right)
  have hblank : ∀ t, operatorCount (' ' :: t) = operatorCount t := fun t =>
    List.countP_cons_of_neg (by decide)
  rw [mixtureText, operatorCount_append, hblank, hsymbol, hblank]
  omega

lemma quote_notMem_mixtureText (hq : '"' ∉ right) : '"' ∉ mixtureText x.text op right := by
  have hsymbol : '"' ≠ op.symbol := by cases op <;> decide
  simp [mixtureText, x.quote_notMem_text, hsymbol, hq]

lemma tightenFrom_trim_mixtureText (hright : Trimmed right) :
    tightenFrom false (Text.trim (mixtureText x.text op right))
      = x.text ++ op.symbol :: tightenFrom false right := by
  by_cases hne : right = []
  · -- the blank behind the operator is the last character then
    have hsymbol : Text.isBlank op.symbol = false := by cases op <;> rfl
    have hfirst : ∀ c ∈ (x.text ++ [' ', op.symbol] ++ [' ']).head?, Text.isBlank c = false := by
      rw [List.append_assoc, List.head?_append_of_ne_nil _ x.text_ne_nil]
      exact x.trimmed_text.first
    have htrim : Text.trim (x.text ++ [' ', op.symbol] ++ [' ']) = x.text ++ [' ', op.symbol] := by
      rw [Text.trim, trimStart_eq_self hfirst, Text.trimEnd,
        dropEndWhile_append (by simp [hsymbol])]
      exact List.append_nil _
    have hnext : (Text.trimStart [op.symbol]).head? = some op.symbol := by
      simp [Text.trimStart, hsymbol]
    have htext : mixtureText x.text op [] = x.text ++ [' ', op.symbol] ++ [' '] := by
      simp [mixtureText]
    rw [hne, htext, htrim, x.tightenFrom_text]
    simp [tightenFrom, hsymbol, hnext, show Text.isBlank ' ' = true from rfl]
  · rw [(trimmed_mixtureText x op hright hne).trim_eq, tightenFrom_mixtureText x op hright]

/-- A mixture that keeps its operators is tidied side by side. -/
lemma tidied_mixtureText (hq : '"' ∉ right) (hright : Trimmed right)
    (h : operatorCount (mixtureText x.text op right)
      ≤ operatorCount (tidied (mixtureText x.text op right))) :
    tidied (mixtureText x.text op right) = x.text ++ op.symbol :: tidied right := by
  obtain ⟨htidied, hchain, -⟩ :=
    tidied_of_operatorCount_le (quote_notMem_mixtureText x op hq) h
  rw [tightenFrom_trim_mixtureText x op hright] at htidied
  rw [htidied] at hchain ⊢
  have hsigns : normalizeSigns (tightenFrom false right) = tightenFrom false right :=
    normalizeSigns_of_isChain (List.isChain_append.1 hchain).2.1.tail
  rw [tidied_eq hq, hright.trim_eq, hsigns]

lemma splitBinary_text_concat (o : Operator) : splitBinary o (x.text ++ [op.symbol]) = none := by
  refine splitBinary_eq_none fun hmem => ?_
  rw [interior, List.tail_append_of_ne_nil x.text_ne_nil, List.dropLast_concat] at hmem
  have hpos : 0 < innerCount x.text := List.countP_pos_iff.2 ⟨_, hmem, isOperator_symbol o⟩
  rw [x.innerCount_text] at hpos
  exact absurd hpos (lt_irrefl 0)

lemma splitBinary_text_append (hne : right ≠ []) :
    splitBinary op (x.text ++ op.symbol :: right) = some (x.text, right) := by
  have hquote : op.symbol ≠ '"' := by cases op <;> decide
  have hlast : x.text.getLast?.any isOperator = false := by
    rw [x.getLast?_text]
    cases hbody : x.body.getLast? with
    | none => rfl
    | some c => exact x.noOperator c (List.mem_of_getLast? hbody)
  rw [splitBinary, x.splitBinaryFrom_text op _ _ rfl, List.append_nil, splitBinaryFrom,
    if_neg hquote]
  simp [x.text_ne_nil, hne, hlast]

end Mixture

end Offside
