import Mathlib
import Offside.Calculator
import Offside.Proofs.Text

/-!
# Operands in an expression

The calculator works on the text of an expression, and every value it computes is put back into the
text.  This file says what its passes do where the text of a value stands.  An `Operand` is such a
text taken apart: a sign, and a body without operators and quotes.

**Passing an operand.**  Each pass over an expression (`tightenFrom`, `mergeMinus`, `dropPlus`,
`splitBinaryFrom`, `firstGroupFrom`) goes over the text of an operand without changing it, whatever
follows: the lemmas `Operand.tightenFrom_text`, `Operand.splitBinaryFrom_text` and so on.  The sign
is the only difficulty: it is no operation because nothing, or another operator, stands before it.

**One operation.**  `x op y`, written with blanks, is reduced to what the operation computes
(`reduceWithin_operation`).  The sign of `y` may first be taken into the operation: `Operand.settle`
is what `normalizeSigns` does there.
-/

namespace Offside

/-! ## Passing a text without operators -/

/-- Dropping white space in front of a text that ends with something visible stops inside it. -/
lemma head?_trimStart_append {t : Text} (hne : t ≠ [])
    (hlast : ∀ c ∈ t.getLast?, Text.isBlank c = false) (rest : Text) :
    ∃ c ∈ t, (Text.trimStart (t ++ rest)).head? = some c := by
  induction t with
  | nil => exact absurd rfl hne
  | cons c cs ih =>
      by_cases hc : Text.isBlank c = true
      · have hcs : cs ≠ [] := by
          rintro rfl
          simp [hlast c rfl] at hc
        obtain ⟨d, hd, hhead⟩ := ih hcs (by rwa [List.getLast?_cons_of_ne_nil hcs] at hlast)
        refine ⟨d, List.mem_cons_of_mem _ hd, ?_⟩
        simpa [Text.trimStart, hc] using hhead
      · exact ⟨c, List.mem_cons_self, by simp [Text.trimStart, hc]⟩

/-- Without quotes there is one piece, and it is outside of quotes. -/
lemma tighten_eq_tightenFrom {t : Text} (h : '"' ∉ t) : tighten t = tightenFrom false t := by
  rw [tighten, splitOn_eq_singleton h]
  rfl

lemma tightenFrom_append {t rest : Text} (hop : ∀ c ∈ t, isOperator c = false)
    (hlast : ∀ c ∈ t.getLast?, Text.isBlank c = false) :
    tightenFrom false (t ++ rest) = t ++ tightenFrom false rest := by
  induction t with
  | nil => rfl
  | cons c cs ih =>
      have hcs : ∀ d ∈ cs.getLast?, Text.isBlank d = false := by
        intro d hd
        refine hlast d ?_
        cases cs with
        | nil => simp at hd
        | cons e es => simpa using hd
      have hrest := ih (fun d hd => hop d (List.mem_cons_of_mem _ hd)) hcs
      have hc : isOperator c = false := hop c List.mem_cons_self
      by_cases hblank : Text.isBlank c = true
      · -- the blank stays, because the next visible character is still one of the text
        have hne : cs ≠ [] := by
          rintro rfl
          simp [hlast c rfl] at hblank
        obtain ⟨d, hd, hhead⟩ := head?_trimStart_append hne hcs rest
        simp [tightenFrom, hblank, hhead, hop d (List.mem_cons_of_mem _ hd), hrest]
      · simp [tightenFrom, hblank, hc, hrest]

lemma tightenFrom_of_first {t : Text} (after : Bool)
    (h : ∀ c ∈ t.head?, Text.isBlank c = false) : tightenFrom after t = tightenFrom false t := by
  cases t with
  | nil => rfl
  | cons c cs => simp [tightenFrom, h c rfl]

lemma mergeMinus_append {t : Text} (h : '-' ∉ t) (rest : Text) :
    mergeMinus (t ++ rest) = t ++ mergeMinus rest := by
  induction t with
  | nil => rfl
  | cons c cs ih =>
      rw [List.mem_cons, not_or] at h
      rw [List.cons_append, mergeMinus, ih h.2, List.cons_append]
      rintro _ hc
      exact absurd hc.symm h.1

lemma dropPlus_append {t : Text} (h : '+' ∉ t) (rest : Text) :
    dropPlus (t ++ rest) = t ++ dropPlus rest := by
  induction t with
  | nil => rfl
  | cons c cs ih =>
      rw [List.mem_cons, not_or] at h
      rw [List.cons_append, dropPlus, ih h.2, List.cons_append]
      rintro _ hc
      exact absurd hc.symm h.1

@[simp] lemma isOperator_symbol (op : Operator) : isOperator op.symbol = true := by
  cases op <;> rfl

lemma splitBinaryFrom_append {op : Operator} {t before rest : Text}
    (hop : ∀ c ∈ t, isOperator c = false) (hquote : '"' ∉ t) :
    splitBinaryFrom op false before (t ++ rest)
      = splitBinaryFrom op false (t.reverse ++ before) rest := by
  induction t generalizing before with
  | nil => rfl
  | cons c cs ih =>
      rw [List.mem_cons, not_or] at hquote
      have hc : c ≠ op.symbol := by
        rintro rfl
        simpa using hop _ List.mem_cons_self
      rw [List.cons_append, splitBinaryFrom, if_neg (Ne.symm hquote.1)]
      simp only [Bool.not_false, Bool.true_and, beq_eq_false_iff_ne.2 hc, Bool.false_and,
        Bool.false_eq_true, if_false]
      rw [ih (fun d hd => hop d (List.mem_cons_of_mem _ hd)) hquote.2]
      simp

/-- A character that is neither quote nor parenthesis is passed. -/
lemma firstGroupFrom_cons {whole passed rest : Text} {quoted : Bool} {opened : List Text} {c : Char}
    (hquote : c ≠ '"') (hopen : c ≠ '(') (hclose : c ≠ ')') :
    firstGroupFrom whole quoted opened passed (c :: rest)
      = firstGroupFrom whole quoted opened (c :: passed) rest := by
  cases opened <;> simp [firstGroupFrom, hquote, hopen, hclose]

lemma firstGroupFrom_append {t : Text} (hquote : '"' ∉ t) (hopen : '(' ∉ t) (hclose : ')' ∉ t)
    (whole passed rest : Text) (opened : List Text) :
    firstGroupFrom whole false opened passed (t ++ rest)
      = firstGroupFrom whole false opened (t.reverse ++ passed) rest := by
  induction t generalizing passed with
  | nil => rfl
  | cons c cs ih =>
      rw [List.mem_cons, not_or] at hquote hopen hclose
      rw [List.cons_append,
        firstGroupFrom_cons (Ne.symm hquote.1) (Ne.symm hopen.1) (Ne.symm hclose.1),
        ih hquote.2 hopen.2 hclose.2]
      simp

/-- The parentheses of a color are passed, too. -/
lemma firstGroupFrom_color {inner : Text} (hquote : '"' ∉ inner) (hopen : '(' ∉ inner)
    (hclose : ')' ∉ inner) (whole passed rest : Text) (opened : List Text) :
    firstGroupFrom whole false opened passed ("rgb(" ++ inner ++ ")" ++ rest)
      = firstGroupFrom whole false opened (("rgb(" ++ inner ++ ")").reverse ++ passed) rest := by
  have hcolor : opensColor ('b' :: 'g' :: 'r' :: passed) = true := by
    simp [opensColor, Text.startsWith, Text.lowerAscii, Text.dropPrefix?]
  have hinner := firstGroupFrom_append hquote hopen hclose whole
    ('(' :: 'b' :: 'g' :: 'r' :: passed) (')' :: rest) (('b' :: 'g' :: 'r' :: passed) :: opened)
  simp [firstGroupFrom, hinner, hcolor]

/-- A parenthesis closes the group that was opened last. -/
lemma firstGroupFrom_close {before : Text} (h : opensColor before = false)
    (whole inside rest : Text) (outer : List Text) :
    firstGroupFrom whole false (before :: outer) (inside.reverse ++ '(' :: before) (')' :: rest)
      = .ok (some ⟨before.reverse, inside, rest⟩) := by
  have htake : (inside.reverse ++ '(' :: before).take
      ((inside.reverse ++ '(' :: before).length - before.length - 1) = inside.reverse := by
    refine List.take_left' ?_
    simp only [List.length_append, List.length_reverse, List.length_cons]
    omega
  simp only [firstGroupFrom, h, htake, List.reverse_reverse, Bool.false_eq_true, if_false]
  rfl

/-! ## Operands -/

/-- The text of a value, taken apart into a sign and the rest.  It has no parentheses, or those of a
color. -/
structure Operand where
  negative : Bool
  body : Text
  nonempty : body ≠ []
  noOperator : ∀ c ∈ body, isOperator c = false
  noQuote : '"' ∉ body
  trimmed : Trimmed body
  parens : ('(' ∉ body ∧ ')' ∉ body) ∨
    ∃ inner, body = "rgb(" ++ inner ++ ")" ∧ '(' ∉ inner ∧ ')' ∉ inner

namespace Operand

/-- The operand as it stands in an expression. -/
def text (x : Operand) : Text := if x.negative then '-' :: x.body else x.body

lemma text_ne_nil (x : Operand) : x.text ≠ [] := by
  have := x.nonempty
  unfold text
  split_ifs <;> simp [this]

lemma quote_notMem_text (x : Operand) : '"' ∉ x.text := by
  have := x.noQuote
  unfold text
  split_ifs <;> simp [this]

lemma minus_notMem_body (x : Operand) : '-' ∉ x.body := fun h => by
  have := x.noOperator _ h
  simp [isOperator] at this

lemma plus_notMem_body (x : Operand) : '+' ∉ x.body := fun h => by
  have := x.noOperator _ h
  simp [isOperator] at this

lemma getLast?_text (x : Operand) : x.text.getLast? = x.body.getLast? := by
  unfold text
  split_ifs
  · exact List.getLast?_cons_of_ne_nil x.nonempty
  · rfl

lemma trimmed_text (x : Operand) : Trimmed x.text := by
  refine ⟨?_, ?_⟩
  · unfold text
    split_ifs
    · rintro c hc
      cases hc
      rfl
    · exact x.trimmed.first
  · rw [getLast?_text]
    exact x.trimmed.last

lemma tightenFrom_text (x : Operand) (after : Bool) (rest : Text) :
    tightenFrom after (x.text ++ rest) = x.text ++ tightenFrom false rest := by
  have hbody : ∀ b, tightenFrom b (x.body ++ rest) = x.body ++ tightenFrom false rest := by
    intro b
    rw [tightenFrom_of_first b (t := x.body ++ rest),
      tightenFrom_append x.noOperator x.trimmed.last]
    intro c hc
    refine x.trimmed.first c ?_
    rwa [List.head?_append_of_ne_nil _ x.nonempty] at hc
  unfold text
  split_ifs
  · simp [tightenFrom, Text.isBlank, isOperator, hbody]
  · exact hbody after

lemma mergeMinus_text (x : Operand) (rest : Text) :
    mergeMinus (x.text ++ rest) = x.text ++ mergeMinus rest := by
  have hbody := mergeMinus_append x.minus_notMem_body rest
  have hminus := x.minus_notMem_body
  obtain ⟨c, cs, hc⟩ := List.exists_cons_of_ne_nil x.nonempty
  unfold text
  split_ifs
  · rw [List.cons_append, mergeMinus, hbody, List.cons_append]
    rintro tail - htail
    simp only [hc, List.cons_append, List.cons.injEq] at htail
    rw [hc, htail.1] at hminus
    exact hminus List.mem_cons_self
  · exact hbody

lemma dropPlus_text (x : Operand) (rest : Text) :
    dropPlus (x.text ++ rest) = x.text ++ dropPlus rest := by
  refine dropPlus_append ?_ rest
  have := x.plus_notMem_body
  unfold text
  split_ifs <;> simp [this]

lemma normalizeSigns_text_append (x : Operand) (rest : Text) :
    normalizeSigns (x.text ++ rest) = x.text ++ normalizeSigns rest := by
  rw [normalizeSigns, mergeMinus_text, dropPlus_text, ← normalizeSigns]

/-- A sign is passed where no operator could stand: at the beginning, or after an operator. -/
lemma splitBinaryFrom_text (x : Operand) (op : Operator) (before rest : Text)
    (hb : before.head?.all isOperator = true) :
    splitBinaryFrom op false before (x.text ++ rest)
      = splitBinaryFrom op false (x.text.reverse ++ before) rest := by
  unfold text
  split_ifs
  · rw [List.cons_append, splitBinaryFrom, if_neg (by decide), if_neg]
    · rw [splitBinaryFrom_append x.noOperator x.noQuote]
      simp
    · cases before with
      | nil => simp
      | cons c cs =>
          have hc : isOperator c = true := by simpa using hb
          cases op <;> simp [Operator.symbol, hc]
  · exact splitBinaryFrom_append x.noOperator x.noQuote

lemma firstGroupFrom_text (x : Operand) (whole passed rest : Text) (opened : List Text) :
    firstGroupFrom whole false opened passed (x.text ++ rest)
      = firstGroupFrom whole false opened (x.text.reverse ++ passed) rest := by
  have hbody : ∀ passed, firstGroupFrom whole false opened passed (x.body ++ rest)
      = firstGroupFrom whole false opened (x.body.reverse ++ passed) rest := by
    intro passed
    have hquote := x.noQuote
    rcases x.parens with ⟨hopen, hclose⟩ | ⟨inner, hinner, hopen, hclose⟩
    · exact firstGroupFrom_append hquote hopen hclose whole passed rest opened
    · rw [hinner] at hquote ⊢
      simp only [List.mem_append, not_or] at hquote
      exact firstGroupFrom_color hquote.1.2 hopen hclose whole passed rest opened
  unfold text
  split_ifs
  · rw [List.cons_append, firstGroupFrom_cons (by decide) (by decide) (by decide), hbody]
    simp
  · exact hbody passed

lemma tighten_text (x : Operand) : tighten x.text = x.text := by
  have h := x.tightenFrom_text false []
  rw [List.append_nil, tightenFrom, List.append_nil] at h
  rw [tighten_eq_tightenFrom x.quote_notMem_text, h]

lemma normalizeSigns_text (x : Operand) : normalizeSigns x.text = x.text := by
  have h := x.normalizeSigns_text_append []
  rwa [List.append_nil, show normalizeSigns [] = [] from rfl, List.append_nil] at h

lemma splitBinary_text (x : Operand) (op : Operator) : splitBinary op x.text = none := by
  have h := x.splitBinaryFrom_text op [] [] rfl
  rw [List.append_nil] at h
  rw [splitBinary, h]
  rfl

/-! ## Two operands around an operator -/

/-- The operand without its sign. -/
def unsigned (x : Operand) : Operand := { x with negative := false }

/-- An addition or subtraction of a negative operand is the other operation without the sign. -/
def settle (op : Operator) (y : Operand) : Operator × Operand :=
  match op, y.negative with
  | .add, true => (.sub, y.unsigned)
  | .sub, true => (.add, y.unsigned)
  | _, _ => (op, y)

lemma tighten_operation (x : Operand) (op : Operator) (y : Operand) :
    tighten (x.text ++ ' ' :: op.symbol :: ' ' :: y.text) = x.text ++ op.symbol :: y.text := by
  have hquote : '"' ∉ x.text ++ ' ' :: op.symbol :: ' ' :: y.text := by
    have hsym : '"' ≠ op.symbol := by cases op <;> decide
    simp [x.quote_notMem_text, y.quote_notMem_text, hsym]
  have hsym : Text.isBlank op.symbol = false := by cases op <;> rfl
  have hy : tightenFrom true y.text = y.text := by
    simpa [tightenFrom] using y.tightenFrom_text true []
  rw [tighten_eq_tightenFrom hquote, tightenFrom_text]
  simp [tightenFrom, Text.trimStart, hsym, hy, show Text.isBlank ' ' = true from rfl]

/-- `settle` is what `normalizeSigns` does to an operation. -/
lemma normalizeSigns_operation (x : Operand) (op : Operator) (y : Operand) :
    normalizeSigns (x.text ++ op.symbol :: y.text)
      = x.text ++ (settle op y).1.symbol :: (settle op y).2.text := by
  have hm : mergeMinus y.body = y.body := by
    simpa [mergeMinus] using mergeMinus_append y.minus_notMem_body []
  have hp : dropPlus y.body = y.body := by
    simpa [dropPlus] using dropPlus_append y.plus_notMem_body []
  have hminus : mergeMinus ('-' :: y.body) = '-' :: y.body := by
    simpa [text, mergeMinus] using mergeMinus_text { y with negative := true } []
  have hplus : dropPlus ('+' :: y.body) = '+' :: y.body := by
    rw [dropPlus, hp]
    rintro rest - hrest
    exact y.minus_notMem_body (hrest ▸ List.mem_cons_self)
  rw [normalizeSigns_text_append]
  cases op <;> cases hneg : y.negative <;>
    simp [settle, text, unsigned, hneg, Operator.symbol, normalizeSigns, mergeMinus, dropPlus, hm,
      hp, hminus, hplus]

/-- The operator between two operands is the only one that an expression can be split at. -/
lemma splitBinary_operation (x : Operand) (op o : Operator) (y : Operand) :
    splitBinary o (x.text ++ op.symbol :: y.text)
      = if o = op then some (x.text, y.text) else none := by
  have hquote : op.symbol ≠ '"' := by cases op <;> decide
  have hlast : x.text.getLast?.any isOperator = false := by
    rw [getLast?_text]
    cases hbody : x.body.getLast? with
    | none => rfl
    | some c => exact x.noOperator c (List.mem_of_getLast? hbody)
  rw [splitBinary, splitBinaryFrom_text x o _ _ rfl, List.append_nil, splitBinaryFrom,
    if_neg hquote]
  by_cases ho : o = op
  · subst ho
    simp [x.text_ne_nil, y.text_ne_nil, hlast]
  · have hsym : op.symbol ≠ o.symbol := by
      revert ho
      cases o <;> cases op <;> decide
    rw [if_neg (by simp [hsym]), if_neg ho]
    have hy := y.splitBinaryFrom_text o (op.symbol :: x.text.reverse) [] (by simp)
    rw [List.append_nil] at hy
    rw [hy]
    rfl

end Operand

/-! ## Reducing -/

/-- One round of `reduceWithin`: take a text apart at one operator. -/
def reduceAt (depth : Nat) (current : Text) (op : Operator) : Except CalculationError Text :=
  match splitBinary op current with
  | none => .ok current
  | some (left, right) => do
    let left ← reduceWithin depth left
    let right ← reduceWithin depth right
    let value ← (Quantity.ofText left).apply op (Quantity.ofText right)
    return normalizeSigns value.written

lemma reduceWithin_succ (depth : Nat) (t : Text) :
    reduceWithin (depth + 1) t
      = Operator.all.foldlM (reduceAt depth) (normalizeSigns (tighten (Text.trim t))) := rfl

lemma foldlM_reduceAt_of_none {depth : Nat} {t : Text} (ops : List Operator)
    (h : ∀ op ∈ ops, splitBinary op t = none) : ops.foldlM (reduceAt depth) t = .ok t := by
  induction ops with
  | nil => rfl
  | cons op ops ih =>
      rw [List.foldlM_cons, reduceAt, h op List.mem_cons_self]
      exact ih fun o ho => h o (List.mem_cons_of_mem _ ho)

lemma Operator.exists_all_eq (op : Operator) :
    ∃ earlier later, Operator.all = earlier ++ op :: later ∧ op ∉ earlier := by
  cases op with
  | add => exact ⟨[], _, rfl, by simp⟩
  | sub => exact ⟨[.add], _, rfl, by decide⟩
  | mul => exact ⟨[.add, .sub], _, rfl, by decide⟩
  | div => exact ⟨[.add, .sub, .mul], _, rfl, by decide⟩

namespace Operand

/-- An operand is its own value. -/
lemma reduceWithin_text (x : Operand) (depth : Nat) : reduceWithin depth x.text = .ok x.text := by
  cases depth with
  | zero => rfl
  | succ depth =>
      rw [reduceWithin_succ, x.trimmed_text.trim_eq, x.tighten_text, x.normalizeSigns_text]
      exact foldlM_reduceAt_of_none _ fun op _ => x.splitBinary_text op

/-- What is computed for `x op y`. -/
def computed (x : Operand) (op : Operator) (y : Operand) : Except CalculationError Quantity :=
  (Quantity.ofText x.text).apply (settle op y).1 (Quantity.ofText (settle op y).2.text)

/-- Up to the operator that two operands stand around, reducing changes nothing; there they are
computed, and the later operators are looked for in the result. -/
lemma reduceWithin_operation (x : Operand) (op : Operator) (y : Operand) (depth : Nat) :
    ∃ later : List Operator,
      reduceWithin (depth + 1) (x.text ++ ' ' :: op.symbol :: ' ' :: y.text)
        = x.computed op y >>= fun value =>
            later.foldlM (reduceAt depth) (normalizeSigns value.written) := by
  have htrim : Trimmed (x.text ++ ' ' :: op.symbol :: ' ' :: y.text) := by
    refine ⟨fun c hc => x.trimmed_text.first c ?_, fun c hc => y.trimmed_text.last c ?_⟩
    · rwa [List.head?_append_of_ne_nil _ x.text_ne_nil] at hc
    · rwa [show x.text ++ ' ' :: op.symbol :: ' ' :: y.text
          = (x.text ++ [' ', op.symbol, ' ']) ++ y.text by simp,
        List.getLast?_append_of_ne_nil _ y.text_ne_nil] at hc
  obtain ⟨earlier, later, hall, hearlier⟩ := Operator.exists_all_eq (settle op y).1
  refine ⟨later, ?_⟩
  rw [reduceWithin_succ, htrim.trim_eq, tighten_operation, normalizeSigns_operation, hall,
    List.foldlM_append, foldlM_reduceAt_of_none]
  · change (Except.ok _ >>= fun current => List.foldlM (reduceAt depth) current (_ :: later)) = _
    simp only [List.foldlM_cons, reduceAt, splitBinary_operation, if_true, bind, Except.bind,
      reduceWithin_text, computed]
    cases (Quantity.ofText x.text).apply (settle op y).1
      (Quantity.ofText (settle op y).2.text) <;> rfl
  · intro o ho
    rw [splitBinary_operation, if_neg]
    rintro rfl
    exact hearlier ho

/-- An operation whose value is an operand again is reduced to it. -/
lemma reduce_operation_of_ok {x y z : Operand} {op : Operator} {value : Quantity}
    (h : x.computed op y = .ok value) (hz : value.written = z.text) :
    reduce (x.text ++ ' ' :: op.symbol :: ' ' :: y.text) = .ok z.text := by
  obtain ⟨later, hreduce⟩ := x.reduceWithin_operation op y
    (operatorCount (x.text ++ ' ' :: op.symbol :: ' ' :: y.text))
  rw [reduce, hreduce, h]
  change later.foldlM _ (normalizeSigns value.written) = _
  rw [hz, normalizeSigns_text]
  exact foldlM_reduceAt_of_none _ fun o _ => z.splitBinary_text o

/-- An operation that fails is reduced to its error. -/
lemma reduce_operation_of_error {x y : Operand} {op : Operator} {e : CalculationError}
    (h : x.computed op y = .error e) :
    reduce (x.text ++ ' ' :: op.symbol :: ' ' :: y.text) = .error e := by
  obtain ⟨later, hreduce⟩ := x.reduceWithin_operation op y
    (operatorCount (x.text ++ ' ' :: op.symbol :: ' ' :: y.text))
  rw [reduce, hreduce, h]
  rfl

end Operand

lemma Calculator.substitute_empty (t : Text) : Calculator.empty.substitute t = t := by
  simp [Calculator.substitute, Calculator.longestFirst, Calculator.empty]

end Offside
