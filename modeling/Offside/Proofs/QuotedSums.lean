import Mathlib
import Offside.Proofs.Termination

/-!
# Sums of quoted texts

Text in double quotes is left alone by most of the calculator: white space in it is kept, operators
in it do not take an expression apart, and parentheses in it make no groups.  The one pass that does
not look at quotes is the merging of signs.  It goes over an expression several times, first over
the texts one by one and then over what they have been added up to, so how often it goes over a text
depends on where in the sum the text stands.

`MergesInto` says what is common to any number of such passes: nothing but signs is lost, and every
change leaves fewer operators.  So signs that were merged cannot be the signs that were written, and
a sum of quoted texts is their concatenation exactly when there is nothing to merge
(`calculate_quotedSum`).
-/

namespace Offside

/-! ## Sums of quoted texts -/

/-- A text in double quotes. -/
def inQuotes (t : Text) : Text := '"' :: (t ++ ['"'])

/-- Texts in quotes, with `plus` between them. -/
def quotedSum (plus : Text) (ts : List Text) : Text := Text.join plus (ts.map inQuotes)

lemma quotedSum_cons_cons (plus t u : Text) (ts : List Text) :
    quotedSum plus (t :: u :: ts) = inQuotes t ++ (plus ++ quotedSum plus (u :: ts)) := by
  rw [quotedSum, List.map_cons, List.map_cons, join_cons_cons, List.append_assoc]
  rfl

lemma exists_quotedSum_eq (plus t : Text) (ts : List Text) :
    ∃ rest, quotedSum plus (t :: ts) = '"' :: rest := by
  cases ts with
  | nil => exact ⟨_, rfl⟩
  | cons u us => exact ⟨_, quotedSum_cons_cons plus t u us⟩

lemma getLast?_quotedSum (plus t : Text) (ts : List Text) :
    (quotedSum plus (t :: ts)).getLast? = some '"' := by
  induction ts generalizing t with
  | nil => exact List.getLast?_concat (l := '"' :: t)
  | cons u us ih =>
      rw [quotedSum_cons_cons, List.getLast?_append, List.getLast?_append, ih]
      rfl

lemma trim_quotedSum (plus t : Text) (ts : List Text) :
    Text.trim (quotedSum plus (t :: ts)) = quotedSum plus (t :: ts) := by
  refine Trimmed.trim_eq ⟨?_, ?_⟩
  · obtain ⟨rest, hrest⟩ := exists_quotedSum_eq plus t ts
    rw [hrest]
    rintro c ⟨⟩
    rfl
  · rw [getLast?_quotedSum]
    rintro c ⟨⟩
    rfl

/-! ## Passes over quoted texts -/

lemma inQuotes_append (t rest : Text) : inQuotes t ++ rest = '"' :: (t ++ '"' :: rest) := by
  simp [inQuotes]

lemma tighten_inQuotes_append {outside t : Text} (ho : '"' ∉ outside) (ht : '"' ∉ t) (rest : Text) :
    tighten (outside ++ (inQuotes t ++ rest))
      = tightenFrom false outside ++ (inQuotes t ++ tighten rest) := by
  obtain ⟨piece, pieces, hpieces⟩ := List.exists_cons_of_ne_nil (splitOn_ne_nil '"' rest)
  obtain ⟨others, hothers⟩ := exists_mapUnquoted_cons (tightenFrom false) piece pieces
  have hrest : tighten rest = Text.join "\"" (tightenFrom false piece :: others) := by
    rw [tighten, hpieces, hothers]
  rw [hrest, tighten, inQuotes_append, splitOn_append_cons, splitOn_eq_singleton ho,
    splitOn_append_cons, splitOn_eq_singleton ht, hpieces, List.singleton_append,
    List.singleton_append, mapUnquoted, hothers, join_cons_cons, join_cons_cons, inQuotes_append]
  simp

/-- Only the space around the plus signs is dropped. -/
lemma tighten_quotedSum (plus : Text) (hplus : tightenFrom false plus = "+") (hq : '"' ∉ plus)
    {t : Text} {ts : List Text} (h : ∀ s ∈ t :: ts, '"' ∉ s) (outside : Text)
    (ho : '"' ∉ outside) :
    tighten (outside ++ quotedSum plus (t :: ts))
      = tightenFrom false outside ++ quotedSum "+" (t :: ts) := by
  induction ts generalizing t outside with
  | nil =>
      have hone := tighten_inQuotes_append ho (h t List.mem_cons_self) []
      rwa [List.append_nil, show tighten [] = [] from rfl, List.append_nil] at hone
  | cons u us ih =>
      rw [List.forall_mem_cons] at h
      rw [quotedSum_cons_cons, tighten_inQuotes_append ho h.1, ih h.2 plus hq, hplus,
        quotedSum_cons_cons]

lemma mergeMinus_append_quote (t rest : Text) :
    mergeMinus (t ++ '"' :: rest) = mergeMinus t ++ '"' :: mergeMinus rest := by
  fun_induction mergeMinus t with
  | case1 t ih => simp [mergeMinus, ih]
  | case2 c t hne ih =>
      rw [List.cons_append, mergeMinus, ih, List.cons_append]
      rintro more rfl hmore
      cases t with
      | nil => cases hmore
      | cons d ds => cases hmore; exact hne ds rfl rfl
  | case3 => simp [mergeMinus]

lemma dropPlus_append_quote (t rest : Text) :
    dropPlus (t ++ '"' :: rest) = dropPlus t ++ '"' :: dropPlus rest := by
  fun_induction dropPlus t with
  | case1 t ih => simp [dropPlus, ih]
  | case2 c t hne ih =>
      rw [List.cons_append, dropPlus, ih, List.cons_append]
      rintro more rfl hmore
      cases t with
      | nil => cases hmore
      | cons d ds => cases hmore; exact hne ds rfl rfl
  | case3 => simp [dropPlus]

lemma normalizeSigns_inQuotes_append (outside t rest : Text) :
    normalizeSigns (outside ++ (inQuotes t ++ rest))
      = normalizeSigns outside ++ (inQuotes (normalizeSigns t) ++ normalizeSigns rest) := by
  rw [inQuotes_append, inQuotes_append]
  simp only [normalizeSigns, mergeMinus_append_quote, dropPlus_append_quote]

/-- Quotes do not keep signs from being merged. -/
lemma normalizeSigns_quotedSum (t : Text) (ts : List Text) (outside : Text) :
    normalizeSigns (outside ++ quotedSum "+" (t :: ts))
      = normalizeSigns outside ++ quotedSum "+" ((t :: ts).map normalizeSigns) := by
  induction ts generalizing t outside with
  | nil =>
      have hone := normalizeSigns_inQuotes_append outside t []
      rwa [List.append_nil, show normalizeSigns [] = [] from rfl, List.append_nil] at hone
  | cons u us ih =>
      rw [quotedSum_cons_cons, normalizeSigns_inQuotes_append, ih]
      simp only [List.map_cons, quotedSum_cons_cons]
      rfl

lemma tidied_quotedSum (plus : Text) (hplus : tightenFrom false plus = "+") (hq : '"' ∉ plus)
    {t : Text} {ts : List Text} (h : ∀ s ∈ t :: ts, '"' ∉ s) :
    tidied (quotedSum plus (t :: ts)) = quotedSum "+" ((t :: ts).map normalizeSigns) := by
  have htight := tighten_quotedSum plus hplus hq h [] (by simp)
  have hsigns := normalizeSigns_quotedSum t ts []
  simp only [List.nil_append, tightenFrom] at htight hsigns
  rw [tidied, trim_quotedSum, htight, hsigns, show normalizeSigns [] = [] from rfl, List.nil_append]

lemma splitBinaryFrom_inQuotes_append (op : Operator) {t : Text} (h : '"' ∉ t)
    (before rest : Text) :
    splitBinaryFrom op false before (inQuotes t ++ rest)
      = splitBinaryFrom op false ((inQuotes t).reverse ++ before) rest := by
  have hquoted : ∀ before, splitBinaryFrom op true before (t ++ '"' :: rest)
      = splitBinaryFrom op true (t.reverse ++ before) ('"' :: rest) := by
    induction t with
    | nil => intro before; rfl
    | cons c cs ih =>
        intro before
        rw [List.mem_cons, not_or] at h
        rw [List.cons_append, splitBinaryFrom, if_neg (Ne.symm h.1), Bool.not_true]
        simp only [Bool.false_and, Bool.false_eq_true, if_false]
        rw [ih h.2, List.reverse_cons, List.append_assoc]
        rfl
  rw [inQuotes_append, splitBinaryFrom, if_pos rfl, Bool.not_false, hquoted, splitBinaryFrom,
    if_pos rfl]
  simp [inQuotes]

lemma splitBinary_inQuotes (op : Operator) {t : Text} (h : '"' ∉ t) :
    splitBinary op (inQuotes t) = none := by
  have hpass := splitBinaryFrom_inQuotes_append op h [] []
  rw [List.append_nil] at hpass
  rw [splitBinary, hpass]
  rfl

/-- A sum is taken apart at its first plus sign. -/
lemma splitBinary_quotedSum {t : Text} (h : '"' ∉ t) (u : Text) (ts : List Text) :
    splitBinary .add (quotedSum "+" (t :: u :: ts))
      = some (inQuotes t, quotedSum "+" (u :: ts)) := by
  obtain ⟨rest, hrest⟩ := exists_quotedSum_eq "+" u ts
  rw [splitBinary, quotedSum_cons_cons, splitBinaryFrom_inQuotes_append .add h, hrest]
  simp [splitBinaryFrom, Operator.symbol, inQuotes]

lemma firstGroupFrom_inQuotes_append {t : Text} (h : '"' ∉ t) (whole passed rest : Text) :
    firstGroupFrom whole false [] passed (inQuotes t ++ rest)
      = firstGroupFrom whole false [] ((inQuotes t).reverse ++ passed) rest := by
  have hquoted : ∀ passed, firstGroupFrom whole true [] passed (t ++ '"' :: rest)
      = firstGroupFrom whole true [] (t.reverse ++ passed) ('"' :: rest) := by
    induction t with
    | nil => intro passed; rfl
    | cons c cs ih =>
        intro passed
        rw [List.mem_cons, not_or] at h
        rw [List.cons_append, firstGroupFrom, if_neg (Ne.symm h.1), Bool.not_true]
        simp only [Bool.and_false, Bool.false_eq_true, if_false]
        rw [ih h.2, List.reverse_cons, List.append_assoc]
        rfl
  rw [inQuotes_append, firstGroupFrom, if_pos rfl, Bool.not_false, hquoted, firstGroupFrom,
    if_pos rfl]
  simp [inQuotes]

/-- Parentheses in quotes make no group. -/
lemma firstGroupFrom_quotedSum {t : Text} {ts : List Text} (h : ∀ s ∈ t :: ts, '"' ∉ s)
    (whole passed : Text) :
    firstGroupFrom whole false [] passed (quotedSum " + " (t :: ts)) = .ok none := by
  induction ts generalizing t passed with
  | nil =>
      have hone := firstGroupFrom_inQuotes_append (h t List.mem_cons_self) whole passed []
      rw [List.append_nil] at hone
      exact hone
  | cons u us ih =>
      rw [List.forall_mem_cons] at h
      rw [quotedSum_cons_cons, firstGroupFrom_inQuotes_append h.1,
        firstGroupFrom_append (by decide) (by decide) (by decide), ih h.2]

/-! ## Merging signs -/

/-- What is left of a text without its signs. -/
def withoutSigns (t : Text) : Text := t.filter fun c => c != '+' && c != '-'

/-- A text some of whose signs may have been merged. -/
structure MergesInto (t merged : Text) : Prop where
  kept : withoutSigns merged = withoutSigns t
  apart : t.IsChain SignsApart → merged = t
  fewer : merged = t ∨ operatorCount merged < operatorCount t

namespace MergesInto

variable {a b c d t merged : Text}

lemma refl (t : Text) : MergesInto t t := ⟨rfl, fun _ => rfl, Or.inl rfl⟩

lemma trans (h : MergesInto a b) (h' : MergesInto b c) : MergesInto a c := by
  refine ⟨h'.kept.trans h.kept, fun ha => ?_, ?_⟩
  · have hb := h.apart ha
    rw [h'.apart (hb ▸ ha), hb]
  · rcases h.fewer with rfl | hlt
    · exact h'.fewer
    · right
      rcases h'.fewer with rfl | hlt'
      · exact hlt
      · exact hlt'.trans hlt

lemma append (h : MergesInto a b) (h' : MergesInto c d) : MergesInto (a ++ c) (b ++ d) := by
  refine ⟨?_, fun hapart => ?_, ?_⟩
  · rw [withoutSigns, withoutSigns, List.filter_append, List.filter_append]
    exact congrArg₂ _ h.kept h'.kept
  · obtain ⟨ha, hc, -⟩ := List.isChain_append.1 hapart
    rw [h.apart ha, h'.apart hc]
  · have hcount : ∀ s s' : Text, operatorCount (s ++ s') = operatorCount s + operatorCount s' :=
      fun s s' => List.countP_append
    rw [hcount, hcount]
    rcases h.fewer with rfl | hlt
    · rcases h'.fewer with rfl | hlt'
      · exact Or.inl rfl
      · right; omega
    · rcases h'.fewer with rfl | hlt'
      · right; omega
      · right; omega

lemma normalizeSigns (t : Text) : MergesInto t (normalizeSigns t) := by
  have hmerge : ∀ t, withoutSigns (mergeMinus t) = withoutSigns t := by
    intro t
    fun_induction mergeMinus t with
    | case1 rest ih => simpa [withoutSigns] using ih
    | case2 c rest _ ih =>
        rw [withoutSigns] at ih ⊢
        rw [List.filter_cons, ih, withoutSigns, withoutSigns, List.filter_cons]
    | case3 => rfl
  have hdrop : ∀ t, withoutSigns (dropPlus t) = withoutSigns t := by
    intro t
    fun_induction dropPlus t with
    | case1 rest ih => simpa [withoutSigns] using ih
    | case2 c rest _ ih =>
        rw [withoutSigns] at ih ⊢
        rw [List.filter_cons, ih, withoutSigns, withoutSigns, List.filter_cons]
    | case3 => rfl
  exact ⟨(hdrop _).trans (hmerge t), normalizeSigns_of_isChain, operatorCount_normalizeSigns t⟩

lemma flatten_map_normalizeSigns (ts : List Text) :
    MergesInto ts.flatten (ts.map Offside.normalizeSigns).flatten := by
  induction ts with
  | nil => exact refl []
  | cons t ts ih => exact (normalizeSigns t).append ih

lemma quote_notMem (h : MergesInto t merged) (ht : '"' ∉ t) : '"' ∉ merged := by
  intro hmem
  have hkept : '"' ∈ withoutSigns merged := List.mem_filter.2 ⟨hmem, rfl⟩
  rw [h.kept] at hkept
  exact ht (List.mem_filter.1 hkept).1

/-- The signs of a text can be merged away, but not brought back. -/
lemma normalizeSigns_eq_iff (h : MergesInto t merged) :
    Offside.normalizeSigns merged = t ↔ t.IsChain SignsApart := by
  constructor
  · intro hsame
    rcases h.fewer with rfl | hlt
    · exact normalizeSigns_eq_self_iff.1 hsame
    · have hle := isWeight_isOperator.countP_normalizeSigns_le merged
      rw [hsame] at hle
      exact absurd (lt_of_le_of_lt hle hlt) (lt_irrefl _)
  · intro hapart
    rw [h.apart hapart]
    exact normalizeSigns_of_isChain hapart

end MergesInto

/-! ## Adding quoted texts -/

lemma trim_inQuotes (t : Text) : Text.trim (inQuotes t) = inQuotes t := trim_quotedSum [] t []

/-- A text with quotes is neither a color nor a number nor a length. -/
lemma ofText_inQuotes (t : Text) : Quantity.ofText (inQuotes t) = .text (inQuotes t) := by
  have hquotes : marks (inQuotes t) ≠ 1 := by
    intro h
    exact (marks_eq_one_iff.1 h).1 List.mem_cons_self
  unfold Quantity.ofText
  rw [trim_inQuotes]
  dsimp only
  split
  next color hcolor => exact absurd (marks_of_ofText?_rgb hcolor) hquotes
  next =>
    split
    next value hvalue => exact absurd (marks_of_numberOf? hvalue) hquotes
    next =>
      split
      next value unit hlength => exact absurd (marks_of_lengthOf? hlength) hquotes
      next => rfl

lemma unquote_inQuotes (t : Text) : unquote (inQuotes t) = (t, true) := by
  simp [unquote, inQuotes]

lemma apply_inQuotes (t u : Text) :
    (Quantity.ofText (inQuotes t)).apply .add (Quantity.ofText (inQuotes u))
      = .ok (.text (inQuotes (t ++ u))) := by
  rw [ofText_inQuotes, ofText_inQuotes, Quantity.apply, Quantity.applyText, Quantity.written,
    unquote_inQuotes, unquote_inQuotes]
  simp [Quantity.requote, inQuotes]

lemma normalizeSigns_inQuotes (t : Text) :
    normalizeSigns (inQuotes t) = inQuotes (normalizeSigns t) := by
  have hone := normalizeSigns_inQuotes_append [] t []
  rwa [List.append_nil, List.nil_append, show normalizeSigns [] = [] from rfl, List.append_nil,
    List.nil_append] at hone

lemma reduces_inQuotes {t : Text} (h : '"' ∉ t) :
    Reduces (inQuotes t) (.ok (inQuotes (normalizeSigns t))) := by
  have htidied : tidied (inQuotes t) = inQuotes (normalizeSigns t) :=
    tidied_quotedSum "+" rfl (by decide) (List.forall_mem_singleton.2 h)
  rw [Reduces, htidied]
  exact rounds_of_none fun op _ =>
    splitBinary_inQuotes op ((MergesInto.normalizeSigns t).quote_notMem h)

/-- A sum of quoted texts is their concatenation, once in quotes, after the signs of the pieces and
of the whole have been merged. -/
lemma exists_reduces_quotedSum (plus : Text) (hplus : tightenFrom false plus = "+")
    (hq : '"' ∉ plus) {t : Text} {ts : List Text} (h : ∀ s ∈ t :: ts, '"' ∉ s) :
    ∃ pieces, MergesInto (t :: ts).flatten pieces ∧
      Reduces (quotedSum plus (t :: ts)) (.ok (inQuotes (normalizeSigns pieces))) := by
  induction hn : ts.length generalizing t ts plus with
  | zero =>
      rw [List.length_eq_zero_iff.1 hn]
      refine ⟨t, ?_, reduces_inQuotes (h t List.mem_cons_self)⟩
      simpa using MergesInto.refl t
  | succ n ih =>
      obtain ⟨u, us, rfl⟩ : ∃ u us, ts = u :: us := List.exists_cons_of_length_eq_add_one hn
      have hsides : ∀ s ∈ (t :: u :: us).map normalizeSigns, '"' ∉ s := by
        intro s hs
        obtain ⟨s', hs', rfl⟩ := List.mem_map.1 hs
        exact (MergesInto.normalizeSigns s').quote_notMem (h s' hs')
      rw [List.map_cons, List.forall_mem_cons] at hsides
      obtain ⟨pieces, hpieces, hright⟩ := ih "+" rfl (by decide) hsides.2 (by simpa using hn)
      have hleft := reduces_inQuotes hsides.1
      have hmerges : MergesInto (t ++ (u :: us).flatten)
          (normalizeSigns (normalizeSigns t) ++ normalizeSigns pieces) :=
        ((MergesInto.normalizeSigns t).trans (.normalizeSigns _)).append
          ((MergesInto.flatten_map_normalizeSigns (u :: us)).trans
            (hpieces.trans (.normalizeSigns pieces)))
      refine ⟨_, hmerges, ?_⟩
      rw [Reduces, tidied_quotedSum plus hplus hq h]
      have hvalue := apply_inQuotes (normalizeSigns (normalizeSigns t)) (normalizeSigns pieces)
      have hsplit := splitBinary_quotedSum hsides.1 (normalizeSigns u) (us.map normalizeSigns)
      refine .computed hsplit hleft hright hvalue ?_
      rw [Quantity.written, normalizeSigns_inQuotes]
      exact rounds_of_none fun op _ => splitBinary_inQuotes op
        ((hmerges.trans (.normalizeSigns _)).quote_notMem (by simpa using h))

/-- **Quoted texts are added up to their signs.**  The sum of quoted texts is a quoted text, and
without the signs it is the concatenation, whatever operators, parentheses and spaces there are.  It
is the concatenation itself just when no sign stands before a minus sign in it: signs are merged in
quotes, too, and also where two texts meet. -/
theorem calculate_quotedSum (ts : List Text) (hne : ts ≠ []) (hquote : ∀ t ∈ ts, '"' ∉ t)
    (hcolors : expandColors (quotedSum " + " ts) = quotedSum " + " ts) :
    ∃ sum, Calculator.empty.calculate (quotedSum " + " ts) = .ok (inQuotes sum) ∧
      withoutSigns sum = withoutSigns ts.flatten ∧
      (sum = ts.flatten ↔ ts.flatten.IsChain SignsApart) := by
  obtain ⟨t, rest, rfl⟩ := List.exists_cons_of_ne_nil hne
  obtain ⟨pieces, hpieces, hreduces⟩ :=
    exists_reduces_quotedSum " + " rfl (by decide) hquote
  refine ⟨normalizeSigns pieces, ?_, (hpieces.trans (.normalizeSigns pieces)).kept,
    hpieces.normalizeSigns_eq_iff⟩
  have hexpanded : expandColors (Calculator.empty.substitute (quotedSum " + " (t :: rest)))
      = quotedSum " + " (t :: rest) := by
    rw [Calculator.substitute_empty, hcolors]
  have hgroups := Resolves.flat (firstGroupFrom_quotedSum hquote (quotedSum " + " (t :: rest)) [])
  refine calculates_iff.1 (.flat ?_ hreduces)
  rwa [hexpanded]

theorem calculate_quotedSum_signs_meet :
    ∃ sum, Calculator.empty.calculate "\"(1 -\" + \"- 2\" + \"-*3\"" = .ok (inQuotes sum) ∧
      withoutSigns sum = "(1  2*3" ∧ sum ≠ "(1 -- 2-*3" := by
  obtain ⟨sum, hsum, hkept, hsame⟩ := calculate_quotedSum ["(1 -", "- 2", "-*3"] (by simp)
    (by decide) (by decide +kernel)
  exact ⟨sum, hsum, hkept, fun h => absurd (hsame.1 h) (by decide)⟩

example : Calculator.empty.calculate "\"a--b\"" = .ok "\"a+b\"" := by decide +kernel

end Offside
