import Mathlib
import Offside.Proofs.Marks

/-!
# Balanced parentheses

Every operation of the calculator puts a text with the marks of `left ++ right` in the place of
`left op right`, with one exception: the subtraction of texts, where the right side is gone
afterwards.  The operator that an expression is taken apart at may stand inside of the parentheses
of a color, and then neither side is balanced.

**Runs.**  `Calculator.operations` lists what a run computes, and `Operation.takenAway?` is the text
that one of these operations makes disappear.  `calculate_balanced` says that a run in which only
balanced texts disappear keeps the parentheses of its expression balanced, and never complains about
them.

**Groups.**  While the group that is closed first is looked for, what has been passed since the last
open parenthesis is balanced (`Opened`).  So the group found is balanced inside, and putting its
value in its place keeps the marks of the whole.
-/

namespace Offside

/-! ## Outcomes -/

/-- An outcome that is no complaint about parentheses, and whose value, if there is one, has the
property `P`. -/
def Fine {α : Type} (P : α → Prop) : Except CalculationError α → Prop
  | .ok a => P a
  | .error e => ∀ t, e ≠ .unbalanced t

lemma Fine.bind {α β : Type} {P : α → Prop} {Q : β → Prop} {x : Except CalculationError α}
    {f : α → Except CalculationError β} (hx : Fine P x)
    (hf : ∀ a, x = .ok a → P a → Fine Q (f a)) : Fine Q (x >>= f) := by
  cases x with
  | ok a => exact hf a rfl hx
  | error e => exact hx

lemma Fine.map {α β : Type} {P : α → Prop} {Q : β → Prop} {x : Except CalculationError α}
    {f : α → β} (hx : Fine P x) (hf : ∀ a, P a → Q (f a)) : Fine Q (x.map f) := by
  cases x with
  | ok a => exact hf a hx
  | error e => exact hx

namespace Quantity

lemma fine_compute (a : Float) (op : Operator) (b : Float) :
    Fine (fun _ => True) (compute a op b) := by
  cases op with
  | div =>
      rw [compute]
      split_ifs
      · intro t
        simp
      · trivial
  | _ => trivial

lemma fine_computeColor (color : Rgb) (op : Operator) (red green blue : Float) :
    Fine (fun v => marks v.written = 1) (computeColor color op red green blue) := by
  have hchannel : ∀ a b, Fine (fun _ => True) (computeChannel a op b) := fun a b =>
    (fine_compute _ op b).map fun _ _ => trivial
  refine (hchannel _ _).bind fun r _ _ => (hchannel _ _).bind fun g _ _ =>
    (hchannel _ _).bind fun b _ _ => ?_
  exact marks_rgbText _

@[simp] lemma marks_written_length (value : Float) (unit : LengthUnit) :
    marks (written (.length value unit)) = 1 := by
  rw [written, marks_append, marks_numberText, marks_unitText, one_mul]

lemma marks_unresolved (a : Float) (unit : LengthUnit) (op : Operator) (right : Quantity) :
    marks (unresolved a unit op right).written = marks right.written := by
  simp only [unresolved, written, marks_append, marks_cons, marks_nil, marks_numberText,
    marks_unitText, mark_of_isPlain (isPlain_symbol op), one_mul, mul_one]
  exact one_mul _

lemma fine_computeLengths (a : Float) (unit : LengthUnit) (op : Operator) (b : Float)
    (other : LengthUnit) :
    Fine (fun v => marks v.written = 1) (computeLengths a unit op b other) := by
  unfold computeLengths
  split_ifs
  · exact (fine_compute a op b).map fun value _ => marks_written_length value unit
  · dsimp only
    split
    next value _ => exact marks_written_length value unit
    next => exact (marks_unresolved _ _ _ _).trans (marks_written_length _ _)

/-- A length on the left has no marks, and neither has what is computed with it. -/
lemma fine_applyLength (a : Float) (unit : LengthUnit) (op : Operator) (right : Quantity) :
    Fine (fun v => marks v.written = marks right.written) (applyLength a unit op right) := by
  cases right with
  | number b =>
      rw [written, marks_numberText]
      exact fine_computeLengths a unit op b unit
  | length b other =>
      rw [marks_written_length]
      exact fine_computeLengths a unit op b other
  | color other => exact marks_unresolved a unit op _
  | text t => exact marks_unresolved a unit op _

lemma fine_applyColor (color : Rgb) (op : Operator) (right : Quantity) :
    Fine (fun v => marks v.written = marks right.written) (applyColor color op right) := by
  cases right with
  | number b =>
      rw [written, marks_numberText]
      exact fine_computeColor color op b b b
  | length b unit =>
      rw [marks_written_length]
      exact fine_computeColor color op b b b
  | color other =>
      rw [written, marks_rgbText]
      exact fine_computeColor color op _ _ _
  | text t =>
      intro x
      simp

lemma unquote_eq_self {t : Text} (h : '"' ∉ t) : unquote t = (t, false) := by
  unfold unquote
  split
  next => simp at h
  next => rfl

lemma fine_applyText {left : Text} {op : Operator} {right : Quantity} (hleft : '"' ∉ left)
    (hright : '"' ∉ right.written) (htaken : op = .sub → marks right.written = 1) :
    Fine (fun v => marks v.written = marks left * marks right.written)
      (applyText left op right) := by
  unfold applyText
  rw [unquote_eq_self hleft, unquote_eq_self hright]
  cases op with
  | add => exact marks_append left right.written
  | sub =>
      change marks (Text.eraseFirst right.written left) = _
      rw [marks_eraseFirst (htaken rfl), htaken rfl, mul_one]
  | mul => simp [Fine]
  | div => simp [Fine]

/-- The text that an operation takes away: the right side of a subtraction of texts.  A number is
taken for a text when a text is on its right. -/
def takenAway? : Quantity → Operator → Quantity → Option Text
  | .text _, .sub, right => some right.written
  | .number _, .sub, .text t => some t
  | _, _, _ => none

/-- An operation keeps the marks of its sides, unless it takes a text with marks away. -/
lemma fine_apply {left right : Quantity} {op : Operator} (hleft : '"' ∉ left.written)
    (hright : '"' ∉ right.written) (htaken : ∀ t ∈ takenAway? left op right, marks t = 1) :
    Fine (fun v => marks v.written = marks left.written * marks right.written)
      (left.apply op right) := by
  cases left with
  | number a =>
      rw [show marks (written (.number a)) = 1 from marks_numberText a]
      simp only [one_mul]
      cases right with
      | number b =>
          rw [show marks (written (.number b)) = 1 from marks_numberText b]
          exact (fine_compute a op b).map fun value _ => marks_numberText _
      | length b unit => exact fine_applyLength a unit op _
      | color other => exact fine_applyColor _ op _
      | text t =>
          have h : Fine (fun v => marks v.written = marks (numberText a) * marks t)
              (applyText (numberText a) op (.text t)) :=
            fine_applyText hleft hright (by rintro rfl; exact htaken t rfl)
          simpa only [marks_numberText, one_mul] using! h
  | length a unit =>
      rw [marks_written_length, one_mul]
      exact fine_applyLength a unit op right
  | color color =>
      rw [show marks (written (.color color)) = 1 from marks_rgbText color, one_mul]
      exact fine_applyColor color op right
  | text t =>
      exact fine_applyText hleft hright (by rintro rfl; exact htaken _ rfl)

end Quantity

/-! ## What a run computes -/

/-- An operation, with its sides as they were reduced. -/
structure Operation where
  left : Text
  op : Operator
  right : Text
  deriving Repr, DecidableEq

/-- The text that an operation takes away, if it takes one away. -/
def Operation.takenAway? (o : Operation) : Option Text :=
  (Quantity.ofText o.left).takenAway? o.op (Quantity.ofText o.right)

/-- What follows a success; nothing follows an error. -/
def onSuccess {α β : Type} (x : Except CalculationError α) (f : α → List β) : List β :=
  match x with
  | .ok a => f a
  | .error _ => []

/-- The operations of one round of `reduceWithin`; `inner` gives those of the two sides. -/
def operationsAt (inner : Text → List Operation) (depth : Nat) (current : Text) (op : Operator) :
    List Operation :=
  match splitBinary op current with
  | none => []
  | some (left, right) =>
    inner left ++ onSuccess (reduceWithin depth left) fun l =>
      inner right ++ onSuccess (reduceWithin depth right) fun r => [⟨l, op, r⟩]

/-- The operations of the rounds for the given operators. -/
def operationsFrom (inner : Text → List Operation) (depth : Nat) :
    List Operator → Text → List Operation
  | [], _ => []
  | op :: ops, current =>
    operationsAt inner depth current op ++
      onSuccess (reduceAt depth current op) (operationsFrom inner depth ops)

/-- The operations that `reduceWithin` performs, in order. -/
def operationsWithin : Nat → Text → List Operation
  | 0, _ => []
  | depth + 1, t =>
    operationsFrom (operationsWithin depth) depth Operator.all
      (normalizeSigns (tighten (Text.trim t)))

/-- The operations that `reduce` performs. -/
def reduceOperations (t : Text) : List Operation := operationsWithin (operatorCount t + 1) t

/-- The operations that `resolveGroupsWithin` performs. -/
def groupOperations : Nat → Text → List Operation
  | 0, _ => []
  | count + 1, t =>
    onSuccess (firstGroup t) fun
      | none => []
      | some group =>
        reduceOperations group.inside ++ onSuccess (reduce group.inside) fun value =>
          groupOperations count (normalizeSigns (group.before ++ value ++ group.after))

/-- The operations that the value of an expression takes, in the order in which they are
performed. -/
def Calculator.operations (c : Calculator) (expression : Text) : List Operation :=
  let t := expandColors (c.substitute expression)
  groupOperations (t.count '(' + 1) t ++ onSuccess (resolveGroups t) reduceOperations

/-- Every text that the operations take away is balanced. -/
def TakeBalanced (operations : List Operation) : Prop :=
  ∀ o ∈ operations, ∀ t ∈ o.takenAway?, Balanced t

lemma takeBalanced_append {first second : List Operation} :
    TakeBalanced (first ++ second) ↔ TakeBalanced first ∧ TakeBalanced second := by
  simp only [TakeBalanced, List.mem_append, or_imp, forall_and]

/-! ## Reducing -/

lemma quote_notMem {t : Text} (h : (marks t).quotes = 0) : '"' ∉ t := by
  rwa [quotes_marks, List.count_eq_zero] at h

lemma quotes_takenAway? {left right : Quantity} {op : Operator} (h : '"' ∉ right.written) :
    ∀ t ∈ left.takenAway? op right, '"' ∉ t := by
  intro t ht
  unfold Quantity.takenAway? at ht
  split at ht
  next => cases ht; exact h
  next => cases ht; exact h
  next => cases ht

lemma fine_reduceAt {inner : Text → List Operation} {depth : Nat}
    (ih : ∀ t, (marks t).quotes = 0 → TakeBalanced (inner t) →
      Fine (fun r => marks r = marks t) (reduceWithin depth t))
    {current : Text} {op : Operator} (hq : (marks current).quotes = 0)
    (h : TakeBalanced (operationsAt inner depth current op)) :
    Fine (fun r => marks r = marks current) (reduceAt depth current op) := by
  unfold operationsAt at h
  unfold reduceAt
  cases hsplit : splitBinary op current with
  | none => exact rfl
  | some sides =>
      obtain ⟨left, right⟩ := sides
      rw [hsplit] at h
      have hmarks := marks_of_splitBinary hsplit
      rw [hmarks, Marks.quotes_mul, Nat.add_eq_zero_iff] at hq
      obtain ⟨hinnerLeft, h⟩ := takeBalanced_append.1 h
      refine (ih left hq.1 hinnerLeft).bind fun l hl hmarksLeft => ?_
      rw [hl] at h
      obtain ⟨hinnerRight, h⟩ := takeBalanced_append.1 h
      refine (ih right hq.2 hinnerRight).bind fun r hr hmarksRight => ?_
      rw [hr] at h
      have hleft : '"' ∉ (Quantity.ofText l).written :=
        quote_notMem (by rw [Quantity.marks_written_ofText, hmarksLeft, hq.1])
      have hright : '"' ∉ (Quantity.ofText r).written :=
        quote_notMem (by rw [Quantity.marks_written_ofText, hmarksRight, hq.2])
      have htaken : ∀ t ∈ (Quantity.ofText l).takenAway? op (Quantity.ofText r), marks t = 1 :=
        fun t ht => marks_eq_one_iff.2
          ⟨quotes_takenAway? hright t ht, h _ (List.mem_singleton.2 rfl) t ht⟩
      refine (Quantity.fine_apply hleft hright htaken).bind fun v _ hv => ?_
      change marks (normalizeSigns v.written) = _
      rw [marks_normalizeSigns, hv, Quantity.marks_written_ofText, Quantity.marks_written_ofText,
        hmarksLeft, hmarksRight, hmarks]

lemma fine_foldlM_reduceAt {inner : Text → List Operation} {depth : Nat}
    (ih : ∀ t, (marks t).quotes = 0 → TakeBalanced (inner t) →
      Fine (fun r => marks r = marks t) (reduceWithin depth t))
    (ops : List Operator) {current : Text} (hq : (marks current).quotes = 0)
    (h : TakeBalanced (operationsFrom inner depth ops current)) :
    Fine (fun r => marks r = marks current) (ops.foldlM (reduceAt depth) current) := by
  induction ops generalizing current with
  | nil => exact rfl
  | cons op ops ihops =>
      obtain ⟨hat, hlater⟩ := takeBalanced_append.1 h
      rw [List.foldlM_cons]
      refine (fine_reduceAt ih hq hat).bind fun next hnext hmarks => ?_
      rw [hnext] at hlater
      rw [← hmarks] at hq ⊢
      exact ihops hq hlater

/-- Reducing keeps the marks of a text. -/
lemma fine_reduceWithin (depth : Nat) {t : Text} (hq : (marks t).quotes = 0)
    (h : TakeBalanced (operationsWithin depth t)) :
    Fine (fun r => marks r = marks t) (reduceWithin depth t) := by
  induction depth generalizing t with
  | zero => exact rfl
  | succ depth ih =>
      have hmarks : marks (normalizeSigns (tighten (Text.trim t))) = marks t := by
        have hquote : '"' ∉ Text.trim t := quote_notMem (by rwa [marks_trim])
        rw [marks_normalizeSigns, tighten_eq_tightenFrom hquote, marks_tightenFrom, marks_trim]
      rw [← hmarks] at hq ⊢
      exact fine_foldlM_reduceAt (fun _ => ih) Operator.all hq h

/-! ## Groups -/

/-- What `opened` is while the group that is closed first is looked for: each parenthesis in it is
the last one before what is passed now that has no partner. -/
def Opened : List Text → Text → Prop
  | [], passed => marks passed.reverse = 1
  | before :: outer, passed =>
    (∃ inside, passed = inside ++ '(' :: before ∧ marks inside.reverse = 1) ∧ Opened outer before

lemma Opened.append {opened : List Text} {passed piece : Text} (h : Opened opened passed)
    (hpiece : marks piece.reverse = 1) : Opened opened (piece ++ passed) := by
  cases opened with
  | nil =>
      have hpassed : marks passed.reverse = 1 := h
      change marks (piece ++ passed).reverse = 1
      rw [List.reverse_append, marks_append, hpassed, hpiece, one_mul]
  | cons before outer =>
      obtain ⟨⟨inside, rfl, hinside⟩, houter⟩ := h
      refine ⟨⟨piece ++ inside, by rw [List.append_assoc], ?_⟩, houter⟩
      rw [List.reverse_append, marks_append, hinside, hpiece, one_mul]

lemma firstGroupFrom_open (whole passed rest : Text) (opened : List Text) :
    firstGroupFrom whole false opened passed ('(' :: rest)
      = firstGroupFrom whole false (passed :: opened) ('(' :: passed) rest := by
  cases opened <;> simp [firstGroupFrom]

lemma firstGroupFrom_closeColor {before : Text} (h : opensColor before = true)
    (whole passed rest : Text) (outer : List Text) :
    firstGroupFrom whole false (before :: outer) passed (')' :: rest)
      = firstGroupFrom whole false outer (')' :: passed) rest := by
  simp [firstGroupFrom, h]

/-- In a balanced text there is no group, or the first one is balanced inside. -/
lemma firstGroupFrom_cases {opened : List Text} {passed rest : Text} (whole : Text)
    (hopened : Opened opened passed) (hrest : ⟨0, opened.length, 0⟩ * marks rest = 1) :
    firstGroupFrom whole false opened passed rest = .ok none ∨
      ∃ group, firstGroupFrom whole false opened passed rest = .ok (some group) ∧
        passed.reverse ++ rest = group.before ++ '(' :: (group.inside ++ ')' :: group.after) ∧
        marks group.inside = 1 := by
  induction rest generalizing opened passed with
  | nil =>
      left
      have hlength : opened.length = 0 := by simpa using congrArg Marks.opening hrest
      rw [List.length_eq_zero_iff.1 hlength]
      rfl
  | cons c cs ih =>
      rw [marks_cons, ← mul_assoc] at hrest
      by_cases hquote : c = '"'
      · subst hquote
        exact absurd (congrArg Marks.quotes hrest) (by simp [mark])
      by_cases hopen : c = '('
      · subst hopen
        have hnew : Opened (passed :: opened) ('(' :: passed) := ⟨⟨[], rfl, rfl⟩, hopened⟩
        have hcount : (⟨0, opened.length, 0⟩ : Marks) * mark '(' = ⟨0, opened.length + 1, 0⟩ := by
          ext <;> simp [mark, Nat.add_comm]
        rw [hcount] at hrest
        rw [firstGroupFrom_open]
        simpa using ih hnew hrest
      by_cases hclose : c = ')'
      · subst hclose
        cases opened with
        | nil => exact absurd (congrArg Marks.closing hrest) (by simp [mark])
        | cons before outer =>
            obtain ⟨⟨inside, rfl, hinside⟩, houter⟩ := hopened
            by_cases hcolor : opensColor before = true
            · rw [firstGroupFrom_closeColor hcolor]
              -- the color is one more balanced piece of what has been passed
              have hpiece : marks (')' :: inside ++ ['(']).reverse = 1 := by
                simp only [List.cons_append, List.reverse_cons, List.reverse_append,
                  List.reverse_nil, List.nil_append, marks_append, marks_cons, marks_nil, hinside,
                  mul_one]
                rfl
              have hcount : (⟨0, (before :: outer).length, 0⟩ : Marks) * mark ')'
                  = ⟨0, outer.length, 0⟩ := by
                ext <;> simp [mark]
              rw [hcount] at hrest
              simpa using ih (houter.append hpiece) hrest
            · have hgroup := firstGroupFrom_close (Bool.eq_false_iff.2 hcolor) whole
                inside.reverse cs outer
              rw [List.reverse_reverse] at hgroup
              exact Or.inr ⟨_, hgroup, by simp, hinside⟩
      · have hc : mark c = 1 := mark_of_isPlain (by simp [isPlain, hquote, hopen, hclose])
        rw [hc, mul_one] at hrest
        rw [firstGroupFrom_cons hquote hopen hclose]
        have hnew : Opened opened ([c] ++ passed) := hopened.append (by simp [hc])
        simpa using ih hnew hrest

lemma fine_resolveGroupsWithin (count : Nat) {t : Text} (ht : marks t = 1)
    (h : TakeBalanced (groupOperations count t)) :
    Fine (fun r => marks r = 1) (resolveGroupsWithin count t) := by
  induction count generalizing t with
  | zero => exact ht
  | succ count ih =>
      rw [groupOperations] at h
      rw [resolveGroupsWithin]
      have hopened : Opened [] [] := rfl
      rcases firstGroupFrom_cases t hopened (by rw [ht]; rfl : ⟨0, 0, 0⟩ * marks t = 1) with
        hnone | ⟨group, hgroup, hwhole, hinside⟩
      · rw [firstGroup, hnone]
        exact ht
      · rw [firstGroup, hgroup] at h ⊢
        obtain ⟨hreduce, hlater⟩ := takeBalanced_append.1 h
        have hvalue : Fine (fun r => marks r = marks group.inside) (reduce group.inside) :=
          fine_reduceWithin _ (by rw [hinside]; rfl) hreduce
        refine hvalue.bind fun value hok hmarks => ?_
        rw [hok] at hlater
        refine ih ?_ hlater
        -- in place of the group stands its value, and neither has marks
        have hpair : mark '(' * mark ')' = 1 := rfl
        rw [List.reverse_nil, List.nil_append] at hwhole
        rw [hwhole, marks_append, marks_cons, marks_append, marks_cons, hinside, one_mul,
          ← mul_assoc (mark '('), hpair, one_mul] at ht
        rw [marks_normalizeSigns, marks_append, marks_append, hmarks, hinside, mul_one, ht]

/-! ## Calculating -/

/-- A run keeps the marks of its expression, with the constants put in. -/
lemma Calculator.fine_calculate {c : Calculator} {expression : Text}
    (hmarks : marks (c.substitute expression) = 1) (h : TakeBalanced (c.operations expression)) :
    Fine (fun result => marks result = 1) (c.calculate expression) := by
  obtain ⟨hgroups, hreduce⟩ := takeBalanced_append.1 h
  have hflat : Fine (fun flat => marks flat = 1)
      (resolveGroups (expandColors (c.substitute expression))) :=
    fine_resolveGroupsWithin _ (by rw [marks_expandColors, hmarks]) hgroups
  refine hflat.bind fun flat hok hone => ?_
  rw [hok] at hreduce
  have hvalue : Fine (fun r => marks r = marks flat) (reduce flat) :=
    fine_reduceWithin _ (by rw [hone]; rfl) hreduce
  rwa [hone] at hvalue

/-- **A balanced expression stays balanced**, as long as every text that is taken away is balanced:
no parenthesis is ever reported to be missing, and the result is balanced. -/
theorem calculate_balanced (expression : Text) (hquote : '"' ∉ expression)
    (hbalanced : Balanced expression)
    (htaken : ∀ o ∈ Calculator.empty.operations expression, ∀ t ∈ o.takenAway?, Balanced t) :
    (∀ t, Calculator.empty.calculate expression ≠ .error (.unbalanced t)) ∧
      ∀ result, Calculator.empty.calculate expression = .ok result → Balanced result := by
  have hmarks : marks (Calculator.empty.substitute expression) = 1 := by
    rw [Calculator.substitute_empty]
    exact marks_eq_one_iff.2 ⟨hquote, hbalanced⟩
  have hfine : Fine (fun result => marks result = 1) (Calculator.empty.calculate expression) :=
    Calculator.fine_calculate hmarks htaken
  refine ⟨fun t herror => ?_, fun result hok => ?_⟩
  · rw [herror] at hfine
    exact hfine t rfl
  · rw [hok] at hfine
    exact (marks_eq_one_iff.1 hfine).2

/-- A color, a group, and a text that is taken away with the parentheses in it. -/
theorem calculate_balanced_color_taken_away :
    (⟨"Xrgb(1,2,3)y", .sub, "rgb(1,2,3)y"⟩ : Operation)
        ∈ Calculator.empty.operations "Xrgb(1,2,3)y - rgb(1,2,3)y + (3px - 1)" ∧
    (⟨"Xrgb(1,2,3)y", .sub, "rgb(1,2,3)y"⟩ : Operation).takenAway? = some "rgb(1,2,3)y" ∧
    (∀ t, Calculator.empty.calculate "Xrgb(1,2,3)y - rgb(1,2,3)y + (3px - 1)"
      ≠ .error (.unbalanced t)) ∧
    ∀ result, Calculator.empty.calculate "Xrgb(1,2,3)y - rgb(1,2,3)y + (3px - 1)" = .ok result →
      Balanced result :=
  ⟨by decide +kernel, by decide +kernel,
    calculate_balanced _ (by decide) (by decide) (by decide +kernel)⟩

/-- A subtraction inside of a color takes an unbalanced text away. -/
example : Calculator.empty.operations "rgb(1 - 2, 3, 4)" = [⟨"rgb(1", .sub, "2, 3, 4)"⟩] ∧
    Calculator.empty.calculate "rgb(1 - 2, 3, 4)" = .ok "rgb(1" ∧
    Calculator.empty.calculate "(rgb(1 - 2, 3, 4))" = .error (.unbalanced "rgb(1") := by
  decide +kernel

end Offside
