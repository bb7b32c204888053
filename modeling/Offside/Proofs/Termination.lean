import Mathlib
import Offside.Proofs.Weights

/-!
# Calculating comes to an end

`reduce` and `resolveGroups` carry a bound along.  `Reduces`, `Resolves` and `Calculates` are the
derivations of the program without it, which has no other reason to stop than that a derivation is
finished.  Every call is on a lighter text, so the bound is never reached, and
`calculate_terminates` says that every expression has a derivation, of the result that is computed.
-/

namespace Offside

/-! ## Reducing without a bound -/

lemma operatorCount_reduce_le {t r : Text} (h : reduce t = .ok r) :
    operatorCount r ≤ operatorCount t :=
  isWeight_isOperator.countP_reduce_le h

lemma operatorCount_of_splitBinary {op : Operator} {t left right : Text}
    (h : splitBinary op t = some (left, right)) :
    operatorCount t = operatorCount left + 1 + operatorCount right :=
  isWeight_isOperator.countP_of_splitBinary h

/-- The rounds of reducing a text: `Rounds ops current out` when taking `current` apart at each of
`ops` in turn gives `out`.  The two sides of an operator are reduced by rounds of their own, and
nothing bounds how many there are. -/
inductive Rounds : List Operator → Text → Except CalculationError Text → Prop
  | done (current : Text) : Rounds [] current (.ok current)
  | absent {op ops current out} (hsplit : splitBinary op current = none)
      (hnext : Rounds ops current out) : Rounds (op :: ops) current out
  | leftFails {op ops current l r e} (hsplit : splitBinary op current = some (l, r))
      (hleft : Rounds Operator.all (tidied l) (.error e)) : Rounds (op :: ops) current (.error e)
  | rightFails {op ops current l r left e} (hsplit : splitBinary op current = some (l, r))
      (hleft : Rounds Operator.all (tidied l) (.ok left))
      (hright : Rounds Operator.all (tidied r) (.error e)) : Rounds (op :: ops) current (.error e)
  | fails {op ops current l r left right e} (hsplit : splitBinary op current = some (l, r))
      (hleft : Rounds Operator.all (tidied l) (.ok left))
      (hright : Rounds Operator.all (tidied r) (.ok right))
      (hvalue : (Quantity.ofText left).apply op (Quantity.ofText right) = .error e) :
      Rounds (op :: ops) current (.error e)
  | computed {op ops current l r left right value out}
      (hsplit : splitBinary op current = some (l, r))
      (hleft : Rounds Operator.all (tidied l) (.ok left))
      (hright : Rounds Operator.all (tidied r) (.ok right))
      (hvalue : (Quantity.ofText left).apply op (Quantity.ofText right) = .ok value)
      (hnext : Rounds ops (normalizeSigns value.written) out) : Rounds (op :: ops) current out

/-- Reducing a text without a bound gives `out`. -/
def Reduces (t : Text) (out : Except CalculationError Text) : Prop :=
  Rounds Operator.all (tidied t) out

/-- Operators that do not occur leave the text to the later ones. -/
lemma rounds_append {earlier later : List Operator} {t : Text} {out : Except CalculationError Text}
    (hearlier : ∀ op ∈ earlier, splitBinary op t = none) (h : Rounds later t out) :
    Rounds (earlier ++ later) t out := by
  induction earlier with
  | nil => exact h
  | cons op earlier ih =>
      rw [List.forall_mem_cons] at hearlier
      exact .absent hearlier.1 (ih hearlier.2)

lemma rounds_of_none {ops : List Operator} {t : Text} (h : ∀ op ∈ ops, splitBinary op t = none) :
    Rounds ops t (.ok t) := by
  have hrounds := rounds_append h (.done t)
  rwa [List.append_nil] at hrounds

/-- The texts that reducing `t` calls itself on: the sides of an operator in what the rounds before
have made of `t`. -/
inductive ReduceCalls (t : Text) : Text → Prop
  | left {earlier op later current l r} (hall : Operator.all = earlier ++ op :: later)
      (hcurrent : Rounds earlier (tidied t) (.ok current))
      (hsplit : splitBinary op current = some (l, r)) : ReduceCalls t l
  | right {earlier op later current l r left} (hall : Operator.all = earlier ++ op :: later)
      (hcurrent : Rounds earlier (tidied t) (.ok current))
      (hsplit : splitBinary op current = some (l, r)) (hleft : Reduces l (.ok left)) :
      ReduceCalls t r

lemma operatorCount_tidied_le (t : Text) : operatorCount (tidied t) ≤ operatorCount t :=
  isWeight_isOperator.countP_tidied_le t

lemma operatorCount_reduceAt_le {depth : Nat} {t r : Text} {op : Operator}
    (h : reduceAt depth t op = .ok r) : operatorCount r ≤ operatorCount t :=
  isWeight_isOperator.countP_reduceAt_le (isWeight_isOperator.countP_reduceWithin_le depth) h

lemma reduceAt_of_some {depth : Nat} {op : Operator} {current l r : Text}
    (hsplit : splitBinary op current = some (l, r)) :
    reduceAt depth current op = (do
      let left ← reduceWithin depth l
      let right ← reduceWithin depth r
      let value ← (Quantity.ofText left).apply op (Quantity.ofText right)
      return normalizeSigns value.written) := by
  rw [reduceAt, hsplit]

lemma reduceAt_of_value {depth : Nat} {op : Operator} {current l r left right : Text}
    {value : Quantity} (hsplit : splitBinary op current = some (l, r))
    (hleft : reduceWithin depth l = .ok left) (hright : reduceWithin depth r = .ok right)
    (hvalue : (Quantity.ofText left).apply op (Quantity.ofText right) = .ok value) :
    reduceAt depth current op = .ok (normalizeSigns value.written) := by
  rw [reduceAt_of_some hsplit, hleft, hright]
  change (Quantity.apply _ _ _ >>= _) = _
  rw [hvalue]
  rfl

/-- A round with a large enough bound is a round without one. -/
lemma rounds_cons_reduceAt {depth : Nat}
    (ih : ∀ t, operatorCount t < depth → Reduces t (reduceWithin depth t)) {op : Operator}
    {ops : List Operator} {current : Text} (hcurrent : operatorCount current ≤ depth)
    (hnext : ∀ next, operatorCount next ≤ depth →
      Rounds ops next (ops.foldlM (reduceAt depth) next)) :
    Rounds (op :: ops) current ((op :: ops).foldlM (reduceAt depth) current) := by
  rw [List.foldlM_cons]
  cases hsplit : splitBinary op current with
  | none =>
      have hround : reduceAt depth current op = .ok current := by rw [reduceAt, hsplit]
      rw [hround]
      exact .absent hsplit (hnext current hcurrent)
  | some sides =>
      obtain ⟨l, r⟩ := sides
      have hcount := operatorCount_of_splitBinary hsplit
      have hl := ih l (by omega)
      have hr := ih r (by omega)
      cases hleft : reduceWithin depth l with
      | error e =>
          rw [reduceAt_of_some hsplit, hleft]
          rw [hleft] at hl
          exact .leftFails hsplit hl
      | ok left =>
          rw [hleft] at hl
          cases hright : reduceWithin depth r with
          | error e =>
              rw [reduceAt_of_some hsplit, hleft, hright]
              rw [hright] at hr
              exact .rightFails hsplit hl hr
          | ok right =>
              rw [hright] at hr
              cases hvalue : (Quantity.ofText left).apply op (Quantity.ofText right) with
              | error e =>
                  rw [reduceAt_of_some hsplit, hleft, hright]
                  change Rounds _ _ ((Quantity.apply _ _ _ >>= _) >>= _)
                  rw [hvalue]
                  exact .fails hsplit hl hr hvalue
              | ok value =>
                  have hnew := reduceAt_of_value hsplit hleft hright hvalue
                  rw [hnew]
                  exact .computed hsplit hl hr hvalue
                    (hnext _ ((operatorCount_reduceAt_le hnew).trans hcurrent))

/-- **The bound is never reached.**  A bound larger than the number of operator characters gives
what reducing without a bound gives. -/
lemma reduces_reduceWithin (depth : Nat) :
    ∀ t, operatorCount t < depth → Reduces t (reduceWithin depth t) := by
  induction depth with
  | zero => intro t ht; exact absurd ht (Nat.not_lt_zero _)
  | succ depth ih =>
      intro t ht
      have hrounds : ∀ (ops : List Operator) (current : Text), operatorCount current ≤ depth →
          Rounds ops current (ops.foldlM (reduceAt depth) current) := by
        intro ops
        induction ops with
        | nil => exact fun current _ => .done current
        | cons op ops hnext => exact fun current hcurrent => rounds_cons_reduceAt ih hcurrent hnext
      exact hrounds _ _ ((operatorCount_tidied_le t).trans (Nat.lt_succ_iff.1 ht))

/-- Rounds without a bound give what rounds with a large enough bound give. -/
lemma Rounds.foldlM_reduceAt_eq {ops : List Operator} {current : Text}
    {out : Except CalculationError Text} (h : Rounds ops current out) {depth : Nat}
    (hdepth : operatorCount current ≤ depth) : ops.foldlM (reduceAt depth) current = out := by
  -- the sides of an operator are reduced with what is left of the bound
  have hside : ∀ {s : Text} {out : Except CalculationError Text} {depth : Nat},
      (∀ {d : Nat}, operatorCount (tidied s) ≤ d →
        Operator.all.foldlM (reduceAt d) (tidied s) = out) →
      operatorCount s < depth → reduceWithin depth s = out := by
    intro s out depth ih hs
    obtain ⟨d, rfl⟩ : ∃ d, depth = d + 1 := ⟨depth - 1, by omega⟩
    exact ih ((operatorCount_tidied_le s).trans (Nat.lt_succ_iff.1 hs))
  induction h generalizing depth with
  | done current => rfl
  | absent hsplit _ ih =>
      rw [List.foldlM_cons, reduceAt, hsplit]
      exact ih hdepth
  | leftFails hsplit _ ihl =>
      have hcount := operatorCount_of_splitBinary hsplit
      rw [List.foldlM_cons, reduceAt_of_some hsplit, hside ihl (by omega)]
      rfl
  | rightFails hsplit _ _ ihl ihr =>
      have hcount := operatorCount_of_splitBinary hsplit
      rw [List.foldlM_cons, reduceAt_of_some hsplit, hside ihl (by omega), hside ihr (by omega)]
      rfl
  | fails hsplit _ _ hvalue ihl ihr =>
      have hcount := operatorCount_of_splitBinary hsplit
      rw [List.foldlM_cons, reduceAt_of_some hsplit, hside ihl (by omega), hside ihr (by omega)]
      change (Quantity.apply _ _ _ >>= _) >>= _ = _
      rw [hvalue]
      rfl
  | computed hsplit _ _ hvalue _ ihl ihr ih =>
      have hcount := operatorCount_of_splitBinary hsplit
      have hleft := hside ihl (show _ < depth by omega)
      have hright := hside ihr (show _ < depth by omega)
      have hround := reduceAt_of_value hsplit hleft hright hvalue
      rw [List.foldlM_cons, hround]
      exact ih ((operatorCount_reduceAt_le hround).trans hdepth)

/-- Rounds make no text heavier. -/
lemma IsWeight.countP_rounds_le {p : Char → Bool} (hp : IsWeight p) {ops : List Operator}
    {current r : Text} (h : Rounds ops current (.ok r)) : r.countP p ≤ current.countP p :=
  hp.countP_foldlM_reduceAt_le (hp.countP_reduceWithin_le _) (h.foldlM_reduceAt_eq (le_refl _))

lemma reduces_iff {t : Text} {out : Except CalculationError Text} :
    Reduces t out ↔ reduce t = out := by
  constructor
  · intro h
    exact h.foldlM_reduceAt_eq (operatorCount_tidied_le t)
  · rintro rfl
    exact reduces_reduceWithin _ t (Nat.lt_succ_self _)

/-- **Every call is on a lighter text**, however long it is. -/
lemma ReduceCalls.operatorCount_lt {t half : Text} (h : ReduceCalls t half) :
    operatorCount half < operatorCount t := by
  have hcurrent : ∀ {earlier : List Operator} {current : Text},
      Rounds earlier (tidied t) (.ok current) → operatorCount current ≤ operatorCount t :=
    fun hrounds =>
      (isWeight_isOperator.countP_rounds_le hrounds).trans (operatorCount_tidied_le t)
  cases h with
  | left _ hrounds hsplit =>
      have hcount := operatorCount_of_splitBinary hsplit
      have hle := hcurrent hrounds
      omega
  | right _ hrounds hsplit _ =>
      have hcount := operatorCount_of_splitBinary hsplit
      have hle := hcurrent hrounds
      omega

/-! ## Groups without a bound -/

/-- The group that is found is a piece of the text.  What had been passed before a parenthesis that
is still open stands, with the parenthesis, at the end of what has been passed by now. -/
lemma eq_append_of_firstGroupFrom {whole passed rest : Text} {quoted : Bool} {opened : List Text}
    {group : Group} (hopened : ∀ before ∈ opened, '(' :: before <:+ passed)
    (h : firstGroupFrom whole quoted opened passed rest = .ok (some group)) :
    passed.reverse ++ rest = group.before ++ '(' :: (group.inside ++ ')' :: group.after) := by
  induction rest generalizing quoted opened passed with
  | nil =>
      rw [firstGroupFrom] at h
      split_ifs at h
      cases h
  | cons c cs ih =>
      have hpassed : ∀ before ∈ opened, '(' :: before <:+ c :: passed :=
        fun before hbefore => (hopened before hbefore).trans (List.suffix_cons c passed)
      have hsplit : passed.reverse ++ c :: cs = (c :: passed).reverse ++ cs := by simp
      unfold firstGroupFrom at h
      split_ifs at h with hquote hopen hclose
      · rw [hsplit]
        exact ih hpassed h
      · rw [Bool.and_eq_true, decide_eq_true_eq] at hopen
        rw [hsplit]
        refine ih (fun before hbefore => ?_) h
        rcases List.mem_cons.1 hbefore with rfl | hbefore
        · rw [hopen.1]
        · exact hpassed before hbefore
      · rw [Bool.and_eq_true, decide_eq_true_eq] at hclose
        split at h
        next => cases h
        next before outer =>
          split_ifs at h with hcolor
          · rw [hsplit]
            exact ih (fun b hb => hpassed b (List.mem_cons_of_mem _ hb)) h
          · obtain ⟨inside, rfl⟩ := hopened before List.mem_cons_self
            have hlength :
                (inside ++ '(' :: before).length - before.length - 1 = inside.length := by
              rw [List.length_append, List.length_cons]
              omega
            rw [hlength, List.take_left' rfl] at h
            cases h
            simp [hclose.1]
      · rw [hsplit]
        exact ih hpassed h

lemma eq_append_of_firstGroup {t : Text} {group : Group} (h : firstGroup t = .ok (some group)) :
    t = group.before ++ '(' :: (group.inside ++ ')' :: group.after) :=
  eq_append_of_firstGroupFrom (by simp) h

/-- A text with its first group replaced by the value of the group. -/
inductive ReplacesGroup (t : Text) : Text → Prop
  | intro {group value} (hgroup : firstGroup t = .ok (some group))
      (hvalue : reduce group.inside = .ok value) :
      ReplacesGroup t (normalizeSigns (group.before ++ value ++ group.after))

/-- **Every replacement takes a parenthesis away**, whatever the value brings along. -/
lemma ReplacesGroup.count_lt {t next : Text} (h : ReplacesGroup t next) :
    next.count '(' < t.count '(' := by
  cases h with
  | @intro group value hgroup hvalue =>
      have hparen : IsWeight (· == '(') := isWeight_beq (Or.inl rfl)
      have hinside : value.count '(' ≤ group.inside.count '(' := hparen.countP_reduce_le hvalue
      calc (normalizeSigns (group.before ++ value ++ group.after)).count '('
          ≤ (group.before ++ value ++ group.after).count '(' := hparen.countP_normalizeSigns_le _
        _ < (group.before ++ '(' :: (group.inside ++ ')' :: group.after)).count '(' := by
            simp only [List.count_append, List.count_cons_self]
            have hclose := List.count_le_count_cons (a := '(') (b := ')') (l := group.after)
            omega
        _ = t.count '(' := by rw [← eq_append_of_firstGroup hgroup]

/-- Replacing the groups of a text gives `out`, and nothing bounds how many there are. -/
inductive Resolves : Text → Except CalculationError Text → Prop
  | flat {t} (hgroup : firstGroup t = .ok none) : Resolves t (.ok t)
  | unbalanced {t e} (hgroup : firstGroup t = .error e) : Resolves t (.error e)
  | fails {t group e} (hgroup : firstGroup t = .ok (some group))
      (hvalue : Reduces group.inside (.error e)) : Resolves t (.error e)
  | replaced {t group value out} (hgroup : firstGroup t = .ok (some group))
      (hvalue : Reduces group.inside (.ok value))
      (hnext : Resolves (normalizeSigns (group.before ++ value ++ group.after)) out) :
      Resolves t out

lemma resolves_resolveGroupsWithin (count : Nat) :
    ∀ t : Text, t.count '(' < count → Resolves t (resolveGroupsWithin count t) := by
  induction count with
  | zero => intro t ht; exact absurd ht (Nat.not_lt_zero _)
  | succ count ih =>
      intro t ht
      rw [resolveGroupsWithin]
      cases hgroup : firstGroup t with
      | error e => exact .unbalanced hgroup
      | ok found =>
          cases found with
          | none => exact .flat hgroup
          | some group =>
              change Resolves t (reduce group.inside >>= _)
              cases hvalue : reduce group.inside with
              | error e => exact .fails hgroup (reduces_iff.2 hvalue)
              | ok value =>
                  have hlt := (ReplacesGroup.intro hgroup hvalue).count_lt
                  exact .replaced hgroup (reduces_iff.2 hvalue) (ih _ (by omega))

lemma Resolves.resolveGroupsWithin_eq {t : Text} {out : Except CalculationError Text}
    (h : Resolves t out) {count : Nat} (hcount : t.count '(' ≤ count) :
    resolveGroupsWithin (count + 1) t = out := by
  induction h generalizing count with
  | flat hgroup => rw [resolveGroupsWithin, hgroup]; rfl
  | unbalanced hgroup => rw [resolveGroupsWithin, hgroup]; rfl
  | fails hgroup hvalue =>
      rw [resolveGroupsWithin, hgroup]
      change reduce _ >>= _ = _
      rw [reduces_iff.1 hvalue]
      rfl
  | replaced hgroup hvalue _ ih =>
      have hlt := (ReplacesGroup.intro hgroup (reduces_iff.1 hvalue)).count_lt
      obtain ⟨n, rfl⟩ : ∃ n, count = n + 1 := ⟨count - 1, by omega⟩
      rw [resolveGroupsWithin, hgroup]
      change reduce _ >>= _ = _
      rw [reduces_iff.1 hvalue]
      exact ih (by omega)

lemma resolves_iff {t : Text} {out : Except CalculationError Text} :
    Resolves t out ↔ resolveGroups t = out := by
  constructor
  · intro h
    exact h.resolveGroupsWithin_eq (le_refl _)
  · rintro rfl
    exact resolves_resolveGroupsWithin _ t (Nat.lt_succ_self _)

/-! ## Calculating -/

/-- Calculating an expression without any bound gives `out`. -/
inductive Calculates (c : Calculator) (e : Text) : Except CalculationError Text → Prop
  | fails {err} (hgroups : Resolves (expandColors (c.substitute e)) (.error err)) :
      Calculates c e (.error err)
  | flat {t out} (hgroups : Resolves (expandColors (c.substitute e)) (.ok t))
      (hvalue : Reduces t out) : Calculates c e out

lemma calculates_iff {c : Calculator} {e : Text} {out : Except CalculationError Text} :
    Calculates c e out ↔ c.calculate e = out := by
  rw [Calculator.calculate]
  constructor
  · intro h
    cases h with
    | fails hgroups => rw [resolves_iff.1 hgroups]; rfl
    | flat hgroups hvalue => rw [resolves_iff.1 hgroups]; exact reduces_iff.1 hvalue
  · rintro rfl
    cases hgroups : resolveGroups (expandColors (c.substitute e)) with
    | error err => exact .fails (resolves_iff.2 hgroups)
    | ok t => exact .flat (resolves_iff.2 hgroups) (reduces_iff.2 rfl)

/-- **Calculating comes to an end.**  Reducing a text adds neither operator characters nor opening
parentheses; the texts that `reduce` calls itself on have fewer operator characters, and the text
that replaces a group leaves fewer opening parentheses.  So for every text, and every expression
with whatever constants, the unbounded program reaches a result, and it is the one computed. -/
theorem calculate_terminates :
    (∀ s r, reduce s = .ok r →
      operatorCount r ≤ operatorCount s ∧ r.count '(' ≤ s.count '(') ∧
    (∀ s half, ReduceCalls s half → operatorCount half < operatorCount s) ∧
    (∀ s next, ReplacesGroup s next → next.count '(' < s.count '(') ∧
    (∀ s out, Reduces s out ↔ reduce s = out) ∧
    (∀ s out, Resolves s out ↔ resolveGroups s = out) ∧
    ∀ (c : Calculator) (e : Text) out, Calculates c e out ↔ c.calculate e = out :=
  ⟨fun _ _ h => ⟨operatorCount_reduce_le h, (isWeight_beq (Or.inl rfl)).countP_reduce_le h⟩,
    fun _ _ h => h.operatorCount_lt, fun _ _ h => h.count_lt, fun _ _ => reduces_iff,
    fun _ _ => resolves_iff, fun _ _ _ => calculates_iff⟩

end Offside
