import Mathlib
import Offside.Calculator

/-!
# Putting in constants

The calculator puts its constants in one after the other, so the text that one constant has left
behind is searched for the next.  This file says when that makes no difference: when it is the same
as going through the text once and putting in, behind every mark `!`, the longest name that follows
(`replaceMarked`, `constantAt?`).

Values hold no marks, so whatever is found later was behind a mark from the beginning.  What has to
be ruled out is that a name is completed by a value further on, and a character before the next mark
that occurs in no name does this (`Guarded`, `firstOf_replaceMarked`).  Then two passes in a row are
one pass for either name, and all of them are one pass for the first name in the order of
substitution (`foldl_substituteFrom`), which is the longest.  Nothing in it depends on the order of
the definitions, except that of several definitions of one name the last one counts.

A constant is passed over if there is no pattern for the name it was first defined under.  This is
the same as leaving its definitions out (`usableDefinitions`, `filter_constants_ofList`).
-/

namespace Offside

/-! ## One pass -/

/-- Whether a text begins with a name, up to case. -/
def follows (t name : Text) : Bool := (Text.dropFoldPrefix? name t).isSome

/-- The value that was given to a name last, under any spelling in the letters A to Z. -/
def lastValue? (definitions : List (Text × Text)) (name : Text) : Option Text :=
  (definitions.reverse.find? fun d => Text.sameIgnoringCase d.1 name).map (·.2)

/-- The constant at the beginning of a text: of the defined names that the text begins with, the
longest.  What is found is the length of the name and its value. -/
def constantAt? (definitions : List (Text × Text)) (t : Text) : Option (Nat × Text) := do
  let name ← ((definitions.map (·.1)).filter (follows t)).argmax List.length
  let value ← lastValue? definitions name
  return (name.length, value)

/-- Go through a text once, from left to right, and put in the value of what is found behind a `!`,
for the `!` and as many characters as were found.  The given number of characters is skipped
first. -/
def replaceMarked (find : Text → Option (Nat × Text)) : Nat → Text → Text
  | _, [] => []
  | skip + 1, _ :: cs => replaceMarked find skip cs
  | 0, c :: cs =>
    if c = '!' then
      match find cs with
      | some (length, value) => value ++ replaceMarked find length cs
      | none => c :: replaceMarked find 0 cs
    else c :: replaceMarked find 0 cs

section Pass

variable {find : Text → Option (Nat × Text)}

lemma replaceMarked_drop (skip : Nat) (t : Text) :
    replaceMarked find skip t = replaceMarked find 0 (t.drop skip) := by
  induction t generalizing skip with
  | nil => simp [replaceMarked]
  | cons c cs ih =>
      cases skip with
      | zero => rfl
      | succ skip => rw [replaceMarked, ih, List.drop_succ_cons]

lemma replaceMarked_cons {c : Char} (h : c ≠ '!') (cs : Text) :
    replaceMarked find 0 (c :: cs) = c :: replaceMarked find 0 cs := by
  rw [replaceMarked, if_neg h]

lemma replaceMarked_of_none {cs : Text} (h : find cs = none) :
    replaceMarked find 0 ('!' :: cs) = '!' :: replaceMarked find 0 cs := by
  rw [replaceMarked, if_pos rfl, h]

lemma replaceMarked_of_some {cs value : Text} {length : Nat} (h : find cs = some (length, value)) :
    replaceMarked find 0 ('!' :: cs) = value ++ replaceMarked find 0 (cs.drop length) := by
  rw [replaceMarked, if_pos rfl, h]
  dsimp only
  rw [replaceMarked_drop]

lemma replaceMarked_append {t : Text} (h : '!' ∉ t) (rest : Text) :
    replaceMarked find 0 (t ++ rest) = t ++ replaceMarked find 0 rest := by
  induction t with
  | nil => rfl
  | cons c cs ih =>
      rw [List.mem_cons, not_or] at h
      rw [List.cons_append, replaceMarked_cons (Ne.symm h.1), ih h.2, List.cons_append]

end Pass

/-! ## One constant after the other -/

/-- The first of the constants that a text begins with. -/
def firstOf (constants : List (Text × Text)) (t : Text) : Option (Nat × Text) :=
  (constants.find? fun d => follows t d.1).map fun d => (d.1.length, d.2)

lemma firstOf_append (first second : List (Text × Text)) (t : Text) :
    firstOf (first ++ second) t = (firstOf first t).or (firstOf second t) := by
  rw [firstOf, List.find?_append, Option.map_or]
  rfl

lemma substituteFrom_eq (name value t : Text) (skip : Nat) :
    Calculator.substituteFrom name value skip t
      = replaceMarked (firstOf [(name, value)]) skip t := by
  induction t generalizing skip with
  | nil => simp [Calculator.substituteFrom, replaceMarked]
  | cons c cs ih =>
      cases skip with
      | succ skip => rw [Calculator.substituteFrom, replaceMarked, ih]
      | zero =>
          by_cases hc : c = '!'
          · cases hname : Text.dropFoldPrefix? name cs with
            | none =>
                simp [Calculator.substituteFrom, replaceMarked, firstOf, follows, hc, hname, ih]
            | some rest =>
                simp [Calculator.substituteFrom, replaceMarked, firstOf, follows, hc, hname, ih]
          · simp [Calculator.substituteFrom, replaceMarked, hc, ih]

lemma follows_iff {t name : Text} :
    follows t name = true ↔ name.map Text.fold <+: t.map Text.fold := by
  induction name generalizing t with
  | nil => simp [follows, Text.dropFoldPrefix?]
  | cons p ps ih =>
      cases t with
      | nil => simp [follows, Text.dropFoldPrefix?]
      | cons c cs =>
          rw [List.map_cons, List.map_cons, List.cons_prefix_cons, ← ih]
          simp only [follows, Text.dropFoldPrefix?, Text.sameFold, beq_iff_eq]
          split_ifs with h
          · simp [h]
          · simp [h]

/-- A name does not reach beyond a character that occurs in no name. -/
lemma follows_append {front name : Text} {c : Char} (hlast : c ∈ front.getLast?)
    (hc : name.any (Text.sameFold · c) = false) (rest : Text) :
    follows (front ++ rest) name = follows front name := by
  rw [Bool.eq_iff_iff, follows_iff, follows_iff, List.map_append]
  constructor
  · intro h
    rcases List.prefix_or_prefix_of_prefix h (List.prefix_append _ _) with hshort | hlong
    · exact hshort
    · have hmem : Text.fold c ∈ name.map Text.fold :=
        hlong.subset (List.mem_map_of_mem (List.mem_of_mem_getLast? hlast))
      obtain ⟨x, hx, hfold⟩ := List.mem_map.1 hmem
      exact absurd (beq_iff_eq.2 hfold) (List.any_eq_false.1 hc x hx)
  · intro h
    exact h.trans (List.prefix_append _ _)

lemma eq_mark_of_fold {c : Char} (hc : c.toNat < 0x80) (h : Text.fold c = '!') : c = '!' := by
  have hall : ∀ n < 0x80, (Char.ofNat n).toLower = '!' → Char.ofNat n = '!' := by decide
  rw [Text.fold, if_pos hc] at h
  have hself := hall c.toNat hc
  rw [Char.ofNat_toNat] at hself
  exact hself h

/-- Names in the basic alphabet, and neither names nor values that hold the mark. -/
structure PlainDefinitions (definitions : List (Text × Text)) : Prop where
  ascii : ∀ d ∈ definitions, ∀ c ∈ d.1, c.toNat < 0x80
  name : ∀ d ∈ definitions, '!' ∉ d.1
  value : ∀ d ∈ definitions, '!' ∉ d.2

lemma PlainDefinitions.of_subset {first second : List (Text × Text)} (h : PlainDefinitions second)
    (hsub : first ⊆ second) : PlainDefinitions first :=
  ⟨fun d hd => h.ascii d (hsub hd), fun d hd => h.name d (hsub hd), fun d hd => h.value d (hsub hd)⟩

/-- What a name stands for in a text holds no mark. -/
lemma PlainDefinitions.of_firstOf {l : List (Text × Text)} (h : PlainDefinitions l) {t value : Text}
    {length : Nat} (hfound : firstOf l t = some (length, value)) :
    '!' ∉ value ∧ '!' ∉ t.take length ∧ length ≤ t.length := by
  obtain ⟨d, hd, heq⟩ := Option.map_eq_some_iff.1 hfound
  obtain ⟨rfl, rfl⟩ := Prod.mk.inj heq
  have hmem := List.mem_of_find?_eq_some hd
  have hfollows : follows t d.1 = true := by simpa using List.find?_some hd
  have hprefix := follows_iff.1 hfollows
  refine ⟨h.value d hmem, fun hmark => ?_, by simpa using hprefix.length_le⟩
  have htake : d.1.map Text.fold = (t.take d.1.length).map Text.fold := by
    have htake := List.prefix_iff_eq_take.1 hprefix
    rwa [List.length_map, ← List.map_take] at htake
  have hfold : Text.fold '!' ∈ d.1.map Text.fold := by
    rw [htake]
    exact List.mem_map_of_mem hmark
  obtain ⟨c, hc, hcfold⟩ := List.mem_map.1 hfold
  have hself := eq_mark_of_fold (h.ascii d hmem c hc) hcfold
  exact h.name d hmem (hself ▸ hc)

/-- Before a mark there is another character, which occurs in no name, up to case. -/
def Guarded (names : List Text) (a b : Char) : Prop :=
  b = '!' → a ≠ '!' ∧ ∀ name ∈ names, name.any (Text.sameFold · a) = false

instance (names : List Text) (a b : Char) : Decidable (Guarded names a b) :=
  inferInstanceAs (Decidable (_ → _))

lemma isChain_guarded_of_subset {names names' : List Text} {t : Text}
    (h : t.IsChain (Guarded names)) (hsub : names' ⊆ names) : t.IsChain (Guarded names') :=
  h.imp fun _ _ hguard hmark =>
    ⟨(hguard hmark).1, fun name hname => (hguard hmark).2 name (hsub hname)⟩

lemma firstOf_congr {l : List (Text × Text)} {s t : Text}
    (h : ∀ d ∈ l, follows s d.1 = follows t d.1) : firstOf l s = firstOf l t := by
  rw [firstOf, List.find?_congr h, firstOf]

/-- Replacing further on in a text does not change what the text behind a mark begins with. -/
lemma firstOf_replaceMarked {l : List (Text × Text)} {names : List Text}
    (hl : ∀ d ∈ l, d.1 ∈ names) {t : Text} (ht : ('!' :: t).IsChain (Guarded names))
    (find : Text → Option (Nat × Text)) :
    firstOf l (replaceMarked find 0 t) = firstOf l t := by
  have hfront : '!' ∉ t.takeWhile (· != '!') := fun h => by simpa using List.mem_takeWhile_imp h
  have hsplit := List.takeWhile_append_dropWhile (p := (· != '!')) (l := t)
  generalize t.takeWhile (· != '!') = front at hfront hsplit
  cases hrest : t.dropWhile (· != '!') with
  | nil =>
      rw [hrest, List.append_nil] at hsplit
      have hself : replaceMarked find 0 (front ++ []) = front ++ [] :=
        replaceMarked_append hfront []
      rw [List.append_nil, hsplit] at hself
      rw [hself]
  | cons c rest =>
      have hc : c = '!' := by
        have hnot := List.head?_dropWhile_not (· != '!') t
        simpa [hrest] using hnot
      rw [hrest, hc] at hsplit
      rw [← hsplit, ← List.cons_append] at ht
      -- the front ends with a character that occurs in no name
      obtain ⟨last, hlast⟩ : ∃ last, last ∈ front.getLast? := by
        cases front with
        | nil => exact absurd rfl ((List.isChain_cons_cons.1 ht).1 rfl).1
        | cons d ds => exact ⟨_, List.getLast?_cons⟩
      have hguard := (List.isChain_append.1 ht).2.2 last
        (List.getLast?_cons_of_ne_nil (List.ne_nil_of_mem (List.mem_of_mem_getLast? hlast)) ▸ hlast)
        '!' rfl rfl
      rw [← hsplit, replaceMarked_append hfront]
      refine firstOf_congr fun d hd => ?_
      have hname := hguard.2 d.1 (hl d hd)
      rw [follows_append hlast hname, follows_append hlast hname]

/-- Two passes in a row are one pass, when the second finds nothing where the first has been. -/
lemma replaceMarked_append_singleton {l : List (Text × Text)} {d : Text × Text}
    (hplain : PlainDefinitions (l ++ [d])) {t : Text}
    (ht : t.IsChain (Guarded ((l ++ [d]).map (·.1)))) :
    replaceMarked (firstOf [d]) 0 (replaceMarked (firstOf l) 0 t)
      = replaceMarked (firstOf (l ++ [d])) 0 t := by
  have hfirst := hplain.of_subset (List.subset_append_left l [d])
  have hsecond := hplain.of_subset (List.subset_append_right l [d])
  induction hn : t.length using Nat.strong_induction_on generalizing t with
  | _ n ih =>
      subst hn
      cases t with
      | nil => rfl
      | cons c cs =>
          have hnext : ∀ k, replaceMarked (firstOf [d]) 0 (replaceMarked (firstOf l) 0 (cs.drop k))
              = replaceMarked (firstOf (l ++ [d])) 0 (cs.drop k) := fun k =>
            ih _ (by simp) (ht.tail.suffix (List.drop_suffix k cs)) rfl
          have hcs := hnext 0
          rw [List.drop_zero] at hcs
          by_cases hc : c = '!'
          · subst hc
            have happend := firstOf_append l [d] cs
            cases hl : firstOf l cs with
            | some found =>
                obtain ⟨length, value⟩ := found
                rw [hl, Option.some_or] at happend
                rw [replaceMarked_of_some hl, replaceMarked_of_some happend,
                  replaceMarked_append (hfirst.of_firstOf hl).1, hnext]
            | none =>
                rw [hl, Option.none_or] at happend
                have hsame := firstOf_replaceMarked (l := [d])
                  (fun x hx => List.mem_map_of_mem (List.mem_append_right l hx)) ht (firstOf l)
                rw [replaceMarked_of_none hl]
                cases hd : firstOf [d] cs with
                | none =>
                    rw [hd] at hsame happend
                    rw [replaceMarked_of_none hsame, replaceMarked_of_none happend, hcs]
                | some found =>
                    obtain ⟨length, value⟩ := found
                    rw [hd] at hsame happend
                    obtain ⟨-, hmark, hlength⟩ := hsecond.of_firstOf hd
                    -- the name stands in the text as it was
                    have hdrop : (replaceMarked (firstOf l) 0 cs).drop length
                        = replaceMarked (firstOf l) 0 (cs.drop length) := by
                      conv_lhs => rw [← List.take_append_drop length cs, replaceMarked_append hmark]
                      exact List.drop_left' (by simpa using hlength)
                    rw [replaceMarked_of_some hsame, replaceMarked_of_some happend, hdrop, hnext]
          · rw [replaceMarked_cons hc, replaceMarked_cons hc, replaceMarked_cons hc, hcs]

/-- Putting in one constant after the other is one pass for the first that is found. -/
lemma foldl_substituteFrom {l : List (Text × Text)} (hplain : PlainDefinitions l) {t : Text}
    (ht : t.IsChain (Guarded (l.map (·.1)))) :
    l.foldl (fun t d => Calculator.substituteFrom d.1 d.2 0 t) t
      = replaceMarked (firstOf l) 0 t := by
  induction l using List.reverseRecOn with
  | nil =>
      clear hplain ht
      induction t with
      | nil => rfl
      | cons c cs ih =>
          by_cases hc : c = '!'
          · rw [hc, replaceMarked_of_none rfl, ← ih, List.foldl_nil, List.foldl_nil]
          · rw [replaceMarked_cons hc, ← ih, List.foldl_nil, List.foldl_nil]
  | append_singleton l d ih =>
      have hsub : l ⊆ l ++ [d] := List.subset_append_left l [d]
      rw [List.foldl_append, ih (hplain.of_subset hsub)
        (isChain_guarded_of_subset ht (List.map_subset _ hsub)),
        ← replaceMarked_append_singleton hplain ht]
      exact substituteFrom_eq d.1 d.2 _ 0

/-! ## The constants of a list of definitions -/

lemma sameIgnoringCase_iff {a b : Text} :
    Text.sameIgnoringCase a b = true ↔ Text.lowerAscii a = Text.lowerAscii b := by
  rw [Text.sameIgnoringCase, beq_iff_eq]

lemma lastValue?_congr (definitions : List (Text × Text)) {a b : Text}
    (h : Text.lowerAscii a = Text.lowerAscii b) :
    lastValue? definitions a = lastValue? definitions b := by
  simp only [lastValue?, Text.sameIgnoringCase, h]

namespace Calculator

lemma ofList_concat (definitions : List (Text × Text)) (d : Text × Text) :
    ofList (definitions ++ [d]) = (ofList definitions).define d.1 d.2 := by
  rw [ofList, List.foldl_append]
  rfl

/-- The names of the constants stay as they are, or one that is new is added. -/
lemma map_defineIn (name value : Text) (constants : List (Text × Text)) :
    (defineIn name value constants).map (·.1) = constants.map (·.1) ∨
      (defineIn name value constants).map (·.1) = constants.map (·.1) ++ [name] ∧
        ∀ known ∈ constants.map (·.1), Text.sameIgnoringCase known name = false := by
  induction constants with
  | nil => exact Or.inr ⟨rfl, by simp⟩
  | cons d rest ih =>
      obtain ⟨known, old⟩ := d
      rw [defineIn]
      split_ifs with hsame
      · exact Or.inl rfl
      · rcases ih with ih | ⟨ih, hnew⟩
        · exact Or.inl (congrArg (known :: ·) ih)
        · refine Or.inr ⟨congrArg (known :: ·) ih, ?_⟩
          rw [List.map_cons, List.forall_mem_cons]
          exact ⟨Bool.eq_false_iff.2 hsame, hnew⟩

lemma find?_defineIn (name value other : Text) (constants : List (Text × Text)) :
    ((defineIn name value constants).find? fun d => Text.sameIgnoringCase d.1 other).map (·.2)
      = if Text.sameIgnoringCase name other then some value
        else (constants.find? fun d => Text.sameIgnoringCase d.1 other).map (·.2) := by
  induction constants with
  | nil =>
      rw [defineIn, List.find?_cons]
      cases Text.sameIgnoringCase name other with
      | true => rfl
      | false => rfl
  | cons d rest ih =>
      obtain ⟨known, old⟩ := d
      rw [defineIn]
      by_cases hsame : Text.sameIgnoringCase known name = true
      · have hknown : Text.sameIgnoringCase known other = Text.sameIgnoringCase name other := by
          rw [Text.sameIgnoringCase, Text.sameIgnoringCase, sameIgnoringCase_iff.1 hsame]
        rw [if_pos hsame, List.find?_cons, List.find?_cons]
        cases hother : Text.sameIgnoringCase name other with
        | true => simp [hknown, hother]
        | false => simp [hknown, hother]
      · rw [if_neg hsame, List.find?_cons, List.find?_cons]
        cases hknown : Text.sameIgnoringCase known other with
        | false => exact ih
        | true =>
            have hother : ¬ Text.sameIgnoringCase name other = true := by
              rw [sameIgnoringCase_iff] at hsame hknown ⊢
              rwa [hknown, eq_comm] at hsame
            rw [if_neg hother]

/-- The value of a constant is the one that was given to it last. -/
lemma constant?_ofList (definitions : List (Text × Text)) (name : Text) :
    (ofList definitions).constant? name = lastValue? definitions name := by
  induction definitions using List.reverseRecOn with
  | nil => rfl
  | append_singleton definitions d ih =>
      rw [ofList_concat, constant?, define, find?_defineIn, lastValue?, List.reverse_append,
        List.reverse_singleton, List.singleton_append, List.find?_cons]
      cases hsame : Text.sameIgnoringCase d.1 name with
      | true => rfl
      | false => exact ih

/-- The names of the constants are defined names, and differ by more than case. -/
lemma names_ofList (definitions : List (Text × Text)) :
    ((ofList definitions).constants.map (·.1)) ⊆ definitions.map (·.1) ∧
      ((ofList definitions).constants.map (·.1)).Pairwise
        fun a b => Text.sameIgnoringCase a b = false := by
  induction definitions using List.reverseRecOn with
  | nil => exact ⟨by simp [ofList, empty], List.Pairwise.nil⟩
  | append_singleton definitions d ih =>
      rw [ofList_concat, define, List.map_append]
      rcases map_defineIn d.1 d.2 (ofList definitions).constants with hnames | ⟨hnames, hnew⟩
      · rw [hnames]
        exact ⟨List.subset_append_of_subset_left _ ih.1, ih.2⟩
      · rw [hnames]
        refine ⟨List.append_subset.2 ⟨List.subset_append_of_subset_left _ ih.1, by simp⟩, ?_⟩
        exact List.pairwise_append.2 ⟨ih.2, List.pairwise_singleton _ _, by simpa using hnew⟩

/-- Every defined name is the name of a constant, up to case. -/
lemma exists_mem_ofList {definitions : List (Text × Text)} {name : Text}
    (h : name ∈ definitions.map (·.1)) :
    ∃ d ∈ (ofList definitions).constants, Text.lowerAscii d.1 = Text.lowerAscii name := by
  obtain ⟨e, he, rfl⟩ := List.mem_map.1 h
  have hsome : ((ofList definitions).constant? e.1).isSome = true := by
    rw [constant?_ofList, lastValue?, Option.isSome_map, List.find?_isSome]
    exact ⟨e, List.mem_reverse.2 he, sameIgnoringCase_iff.2 rfl⟩
  rw [constant?, Option.isSome_map] at hsome
  obtain ⟨d, hd⟩ := Option.isSome_iff_exists.1 hsome
  refine ⟨d, List.mem_of_find?_eq_some hd, sameIgnoringCase_iff.1 ?_⟩
  simpa using List.find?_some hd

/-- A constant has the name that was defined first, of all that are the same up to case. -/
lemma find?_of_mem_ofList {definitions : List (Text × Text)} {name : Text}
    (h : name ∈ (ofList definitions).constants.map (·.1)) :
    (definitions.find? fun d => Text.sameIgnoringCase d.1 name).map (·.1) = some name := by
  induction definitions using List.reverseRecOn with
  | nil => simp [ofList, empty] at h
  | append_singleton definitions d ih =>
      rw [List.find?_append, Option.map_or]
      rw [ofList_concat, define] at h
      rcases map_defineIn d.1 d.2 (ofList definitions).constants with hnames | ⟨hnames, hnew⟩
      · rw [hnames] at h
        rw [ih h, Option.some_or]
      · rw [hnames] at h
        rcases List.mem_append.1 h with h | h
        · rw [ih h, Option.some_or]
        · obtain rfl := List.mem_singleton.1 h
          have hnone : definitions.find? (fun e => Text.sameIgnoringCase e.1 d.1) = none := by
            refine List.find?_eq_none.2 fun e he hsame => ?_
            obtain ⟨known, hknown, hlower⟩ := exists_mem_ofList (List.mem_map_of_mem he)
            have hfalse := hnew known.1 (List.mem_map_of_mem hknown)
            rw [Bool.eq_false_iff, ne_eq, sameIgnoringCase_iff, hlower] at hfalse
            exact hfalse (sameIgnoringCase_iff.1 hsame)
          rw [hnone, Option.map_none, Option.none_or, List.find?_singleton,
            sameIgnoringCase_iff.2 rfl]
          rfl

section Kept

variable (keep : Text → Bool)

/-- A definition that is left out leaves the others as they are. -/
lemma filter_defineIn (hkeep : ∀ a b, Text.sameIgnoringCase a b = true → keep a = keep b)
    (name value : Text) (constants : List (Text × Text)) :
    (defineIn name value constants).filter (fun d => keep d.1)
      = if keep name then defineIn name value (constants.filter fun d => keep d.1)
        else constants.filter fun d => keep d.1 := by
  induction constants with
  | nil => simp [defineIn, List.filter_cons]
  | cons d rest ih =>
      obtain ⟨known, old⟩ := d
      rw [defineIn]
      by_cases hsame : Text.sameIgnoringCase known name = true
      · have hknown := hkeep known name hsame
        cases hname : keep name with
        | true => simp [hsame, hknown, hname, defineIn]
        | false => simp [hsame, hknown, hname]
      · rw [if_neg hsame, List.filter_cons, ih, List.filter_cons]
        cases hname : keep name with
        | true =>
            cases hknown : keep known with
            | true => simp [defineIn, hsame]
            | false => simp
        | false => simp

lemma filter_ofList (hkeep : ∀ a b, Text.sameIgnoringCase a b = true → keep a = keep b)
    (definitions : List (Text × Text)) :
    (ofList definitions).constants.filter (fun d => keep d.1)
      = (ofList (definitions.filter fun d => keep d.1)).constants := by
  induction definitions using List.reverseRecOn with
  | nil => rfl
  | append_singleton definitions d ih =>
      rw [ofList_concat, define, filter_defineIn keep hkeep, List.filter_append, ih]
      cases hd : keep d.1 with
      | true => simp [hd, ofList_concat, define]
      | false => simp [hd]

end Kept

end Calculator

/-- The calculator with other patterns. -/
def Calculator.withPatterns (c : Calculator) (hasPattern : Text → Bool) : Calculator :=
  { c with hasPattern := hasPattern }

/-- The definitions of names that have a pattern, under the spelling they were first defined with.
-/
def usableDefinitions (hasPattern : Text → Bool) (definitions : List (Text × Text)) :
    List (Text × Text) :=
  definitions.filter fun d =>
    (definitions.find? fun e => Text.sameIgnoringCase e.1 d.1).any fun e => hasPattern e.1

lemma usableDefinitions_subset (hasPattern : Text → Bool) (definitions : List (Text × Text)) :
    usableDefinitions hasPattern definitions ⊆ definitions :=
  List.filter_subset_self _

/-- Passing over constants is leaving out their definitions. -/
lemma filter_constants_ofList (hasPattern : Text → Bool) (definitions : List (Text × Text)) :
    (Calculator.ofList definitions).constants.filter (fun d => hasPattern d.1)
      = (Calculator.ofList (usableDefinitions hasPattern definitions)).constants := by
  have hfirst : ∀ d ∈ (Calculator.ofList definitions).constants, hasPattern d.1
      = (definitions.find? fun e => Text.sameIgnoringCase e.1 d.1).any fun e => hasPattern e.1 := by
    intro d hd
    have hname := Calculator.find?_of_mem_ofList (List.mem_map_of_mem (f := (·.1)) hd)
    obtain ⟨e, he, hsame⟩ := Option.map_eq_some_iff.1 hname
    rw [he, Option.any_some, hsame]
  rw [List.filter_congr hfirst, usableDefinitions]
  refine Calculator.filter_ofList (fun name =>
    (definitions.find? fun e => Text.sameIgnoringCase e.1 name).any fun e => hasPattern e.1) ?_ _
  intro a b hsame
  simp only [Text.sameIgnoringCase, sameIgnoringCase_iff.1 hsame]

/-- Among names that differ by more than case, each is found with its own value. -/
lemma find?_of_pairwise {l : List (Text × Text)}
    (h : l.Pairwise fun a b => Text.sameIgnoringCase a.1 b.1 = false) {d : Text × Text}
    (hd : d ∈ l) : l.find? (fun e => Text.sameIgnoringCase e.1 d.1) = some d := by
  obtain ⟨before, after, rfl⟩ := List.append_of_mem hd
  have hbefore : ∀ e ∈ before, ¬ Text.sameIgnoringCase e.1 d.1 = true := fun e he =>
    Bool.eq_false_iff.1 ((List.pairwise_append.1 h).2.2 e he d List.mem_cons_self)
  rw [List.find?_append, List.find?_eq_none.2 hbefore, Option.none_or, List.find?_cons,
    sameIgnoringCase_iff.2 rfl]

lemma lastValue?_of_mem_ofList {definitions : List (Text × Text)} {d : Text × Text}
    (hd : d ∈ (Calculator.ofList definitions).constants) :
    lastValue? definitions d.1 = some d.2 := by
  have hpairwise := List.pairwise_map.1 (Calculator.names_ofList definitions).2
  rw [← Calculator.constant?_ofList, Calculator.constant?, find?_of_pairwise hpairwise hd]
  rfl

lemma PlainDefinitions.constants {definitions : List (Text × Text)}
    (h : PlainDefinitions definitions) :
    PlainDefinitions (Calculator.ofList definitions).constants := by
  have hconstant : ∀ d ∈ (Calculator.ofList definitions).constants,
      (∃ e ∈ definitions, e.1 = d.1) ∧ ∃ e ∈ definitions, e.2 = d.2 := by
    intro d hd
    refine ⟨List.mem_map.1 ((Calculator.names_ofList definitions).1 (List.mem_map_of_mem hd)), ?_⟩
    obtain ⟨e, he, hvalue⟩ := Option.map_eq_some_iff.1 (lastValue?_of_mem_ofList hd)
    exact ⟨e, List.mem_reverse.1 (List.mem_of_find?_eq_some he), hvalue⟩
  refine ⟨fun d hd => ?_, fun d hd => ?_, fun d hd => ?_⟩
  · obtain ⟨⟨e, he, hname⟩, -⟩ := hconstant d hd
    exact hname ▸ h.ascii e he
  · obtain ⟨⟨e, he, hname⟩, -⟩ := hconstant d hd
    exact hname ▸ h.name e he
  · obtain ⟨-, e, he, hvalue⟩ := hconstant d hd
    exact hvalue ▸ h.value e he

/-! ## The longest name -/

/-- The longest defined names that a text begins with. -/
@[mk_iff]
structure LongestName (definitions : List (Text × Text)) (t name : Text) : Prop where
  mem : name ∈ definitions.map (·.1)
  begins : follows t name = true
  longest : ∀ other ∈ definitions.map (·.1), follows t other = true → other.length ≤ name.length

section Ascii

variable {definitions : List (Text × Text)}

lemma PlainDefinitions.map_fold (h : PlainDefinitions definitions) {name : Text}
    (hname : name ∈ definitions.map (·.1)) : name.map Text.fold = Text.lowerAscii name := by
  obtain ⟨d, hd, rfl⟩ := List.mem_map.1 hname
  refine List.map_congr_left fun c hc => ?_
  rw [Text.fold, if_pos (h.ascii d hd c hc)]

lemma PlainDefinitions.byteLength_eq (h : PlainDefinitions definitions) {name : Text}
    (hname : name ∈ definitions.map (·.1)) : Text.byteLength name = name.length := by
  obtain ⟨d, hd, rfl⟩ := List.mem_map.1 hname
  have hall : ∀ t : Text, (∀ c ∈ t, c.toNat < 0x80) → Text.byteLength t = t.length := by
    intro t ht
    induction t with
    | nil => rfl
    | cons c cs ih =>
        rw [List.forall_mem_cons] at ht
        have hc : c.utf8Size = 1 :=
          Char.utf8Size_eq_one_iff.2 (UInt32.le_iff_toNat_le.2 (Nat.le_of_lt_succ ht.1))
        rw [Text.byteLength, ih ht.2, hc, List.length_cons, Nat.add_comm]
  exact hall d.1 (h.ascii d hd)

/-- Names of one length that a text begins with are the same up to case. -/
lemma PlainDefinitions.lowerAscii_eq (h : PlainDefinitions definitions) {t a b : Text}
    (ha : a ∈ definitions.map (·.1)) (hb : b ∈ definitions.map (·.1)) (hta : follows t a = true)
    (htb : follows t b = true) (hlength : a.length = b.length) :
    Text.lowerAscii a = Text.lowerAscii b := by
  rw [follows_iff, h.map_fold ha] at hta
  rw [follows_iff, h.map_fold hb] at htb
  refine (List.prefix_of_prefix_length_le hta htb ?_).eq_of_length ?_
  · simp [Text.lowerAscii, hlength]
  · simp [Text.lowerAscii, hlength]

lemma PlainDefinitions.follows_congr (h : PlainDefinitions definitions) {a b : Text}
    (ha : a ∈ definitions.map (·.1)) (hb : b ∈ definitions.map (·.1))
    (hab : Text.lowerAscii a = Text.lowerAscii b) (t : Text) : follows t a = follows t b := by
  rw [Bool.eq_iff_iff, follows_iff, follows_iff, h.map_fold ha, h.map_fold hb, hab]

lemma longestName_of_argmax {t name : Text}
    (h : ((definitions.map (·.1)).filter (follows t)).argmax List.length = some name) :
    LongestName definitions t name := by
  obtain ⟨hmem, hbegins⟩ := List.mem_filter.1 (List.argmax_mem h)
  exact ⟨hmem, hbegins, fun other hother hfollows =>
    List.le_of_mem_argmax (List.mem_filter.2 ⟨hother, hfollows⟩) h⟩

lemma constantAt?_eq_none {t : Text} (h : ∀ name, ¬ LongestName definitions t name) :
    constantAt? definitions t = none := by
  refine Option.eq_none_iff_forall_ne_some.2 fun found hfound => ?_
  obtain ⟨name, hname, -⟩ := Option.bind_eq_some_iff.1 hfound
  exact h name (longestName_of_argmax hname)

/-- Whichever spelling of the longest name is taken, what is found is the same. -/
lemma constantAt?_of_longestName (h : PlainDefinitions definitions) {t name value : Text}
    (hname : LongestName definitions t name) (hvalue : lastValue? definitions name = some value) :
    constantAt? definitions t = some (name.length, value) := by
  cases hmax : ((definitions.map (·.1)).filter (follows t)).argmax List.length with
  | none =>
      have hmem := List.mem_filter.2 ⟨hname.mem, hname.begins⟩
      rw [List.argmax_eq_none.1 hmax] at hmem
      cases hmem
  | some chosen =>
      have hchosen := longestName_of_argmax hmax
      have hlength : chosen.length = name.length :=
        le_antisymm (hname.longest _ hchosen.mem hchosen.begins)
          (hchosen.longest _ hname.mem hname.begins)
      have hlower := h.lowerAscii_eq hchosen.mem hname.mem hchosen.begins hname.begins hlength
      rw [constantAt?, hmax]
      simp only [Option.bind_eq_bind, Option.bind_some, lastValue?_congr definitions hlower, hvalue,
        hlength]
      rfl

end Ascii

lemma pairwise_longestFirst (c : Calculator) :
    c.longestFirst.Pairwise fun a b => Text.byteLength b.1 ≤ Text.byteLength a.1 := by
  refine (List.pairwise_mergeSort ?_ ?_ c.constants).imp fun h => of_decide_eq_true h
  · intro a b d hab hbd
    exact decide_eq_true ((of_decide_eq_true hbd).trans (of_decide_eq_true hab))
  · intro a b
    rw [Bool.or_eq_true, decide_eq_true_eq, decide_eq_true_eq]
    exact le_total _ _

/-- The first of the constants is the longest, if long names come first. -/
lemma firstOf_sorted {definitions l : List (Text × Text)} (h : PlainDefinitions definitions)
    (hperm : l.Perm (Calculator.ofList definitions).constants)
    (hsorted : l.Pairwise fun a b => Text.byteLength b.1 ≤ Text.byteLength a.1) (t : Text) :
    firstOf l t = constantAt? definitions t := by
  have hnames : ∀ d ∈ l, d.1 ∈ definitions.map (·.1) := fun d hd =>
    (Calculator.names_ofList definitions).1 (List.mem_map_of_mem (hperm.subset hd))
  -- every defined name stands among the constants, under the spelling it was first defined with
  have hspelled : ∀ name ∈ definitions.map (·.1), follows t name = true →
      ∃ e ∈ l, follows t e.1 = true ∧ e.1.length = name.length := by
    intro name hname hfollows
    obtain ⟨e, he, hlower⟩ := Calculator.exists_mem_ofList hname
    have hin := hperm.symm.subset he
    refine ⟨e, hin, ?_, ?_⟩
    · rwa [h.follows_congr (hnames e hin) hname hlower]
    · simpa [Text.lowerAscii] using congrArg List.length hlower
  cases hfirst : l.find? fun d => follows t d.1 with
  | none =>
      rw [firstOf, hfirst, Option.map_none]
      refine (constantAt?_eq_none fun name hname => ?_).symm
      obtain ⟨e, he, hfollows, -⟩ := hspelled name hname.mem hname.begins
      exact List.find?_eq_none.1 hfirst e he hfollows
  | some d =>
      rw [firstOf, hfirst, Option.map_some]
      obtain ⟨hd, before, after, hsplit, hbefore⟩ := List.find?_eq_some_iff_append.1 hfirst
      have hin := List.mem_of_find?_eq_some hfirst
      refine (constantAt?_of_longestName h ⟨hnames d hin, hd, ?_⟩
        (lastValue?_of_mem_ofList (hperm.subset hin))).symm
      intro other hother hfollows
      obtain ⟨e, he, hbegins, hlength⟩ := hspelled other hother hfollows
      have hbytes := h.byteLength_eq (hnames e he)
      rw [hsplit] at hsorted he
      rw [← hlength]
      rcases List.mem_append.1 he with he | he
      · exact absurd hbegins (by simpa using hbefore e he)
      · rcases List.mem_cons.1 he with rfl | he
        · exact le_refl _
        · have hle := List.rel_of_pairwise_cons (List.pairwise_append.1 hsorted).2.1 he
          rwa [hbytes, h.byteLength_eq (hnames d hin)] at hle

/-! ## The order of definitions -/

/-- No two definitions of the same name, up to case. -/
def DistinctNames (definitions : List (Text × Text)) : Prop :=
  definitions.Pairwise fun a b => Text.sameIgnoringCase a.1 b.1 = false

lemma sameIgnoringCase_comm {a b : Text} (h : Text.sameIgnoringCase a b = false) :
    Text.sameIgnoringCase b a = false := by
  rwa [Text.sameIgnoringCase, Bool.beq_comm]

lemma DistinctNames.constantAt?_eq {definitions : List (Text × Text)}
    (hdistinct : DistinctNames definitions) (h : PlainDefinitions definitions) {t : Text}
    {d : Text × Text} (hd : d ∈ definitions) (hname : LongestName definitions t d.1) :
    constantAt? definitions t = some (d.1.length, d.2) := by
  have hreverse : definitions.reverse.Pairwise fun a b => Text.sameIgnoringCase a.1 b.1 = false :=
    List.pairwise_reverse.2 (hdistinct.imp sameIgnoringCase_comm)
  refine constantAt?_of_longestName h hname ?_
  rw [lastValue?, find?_of_pairwise hreverse (List.mem_reverse.2 hd)]
  rfl

/-- Definitions of different names can be made in any order. -/
lemma DistinctNames.constantAt?_perm {definitions other : List (Text × Text)}
    (hdistinct : DistinctNames definitions) (h : PlainDefinitions definitions)
    (hperm : definitions.Perm other) (t : Text) :
    constantAt? other t = constantAt? definitions t := by
  have hdistinct' : DistinctNames other := (hperm.pairwise_iff sameIgnoringCase_comm).1 hdistinct
  have h' := h.of_subset hperm.symm.subset
  have hmem : ∀ name, name ∈ other.map (·.1) ↔ name ∈ definitions.map (·.1) :=
    fun name => (hperm.symm.map _).mem_iff
  have hlongest : ∀ name, LongestName other t name ↔ LongestName definitions t name := by
    intro name
    simp only [longestName_iff, hmem]
  by_cases hfound : ∃ d ∈ definitions, LongestName definitions t d.1
  · obtain ⟨d, hd, hname⟩ := hfound
    rw [hdistinct.constantAt?_eq h hd hname,
      hdistinct'.constantAt?_eq h' (hperm.subset hd) ((hlongest d.1).2 hname)]
  · have hnone : ∀ name, ¬ LongestName definitions t name := by
      intro name hname
      obtain ⟨d, hd, rfl⟩ := List.mem_map.1 hname.mem
      exact hfound ⟨d, hd, hname⟩
    rw [constantAt?_eq_none hnone,
      constantAt?_eq_none fun name hname => hnone name ((hlongest name).1 hname)]

lemma DistinctNames.usableDefinitions_eq {definitions : List (Text × Text)}
    (h : DistinctNames definitions) (hasPattern : Text → Bool) :
    usableDefinitions hasPattern definitions = definitions.filter fun d => hasPattern d.1 := by
  refine List.filter_congr fun d hd => ?_
  rw [find?_of_pairwise h hd, Option.any_some]

lemma DistinctNames.filter {definitions : List (Text × Text)} (h : DistinctNames definitions)
    (p : Text × Text → Bool) : DistinctNames (definitions.filter p) :=
  h.sublist List.filter_sublist

/-! ## Substitution -/

lemma Calculator.substitute_eq_foldl_filter (c : Calculator) (t : Text) :
    c.substitute t = (c.longestFirst.filter fun d => c.hasPattern d.1).foldl
      (fun t d => substituteFrom d.1 d.2 0 t) t := by
  rw [List.foldl_filter]
  rfl

lemma substitute_ofList {definitions : List (Text × Text)} (h : PlainDefinitions definitions)
    (hasPattern : Text → Bool) {t : Text} (ht : t.IsChain (Guarded (definitions.map (·.1)))) :
    ((Calculator.ofList definitions).withPatterns hasPattern).substitute t
      = replaceMarked (constantAt? (usableDefinitions hasPattern definitions)) 0 t := by
  let c := (Calculator.ofList definitions).withPatterns hasPattern
  let usable := usableDefinitions hasPattern definitions
  have hsub : usable ⊆ definitions := usableDefinitions_subset hasPattern definitions
  have hperm : (c.longestFirst.filter fun d => hasPattern d.1).Perm
      (Calculator.ofList usable).constants := by
    rw [← filter_constants_ofList]
    exact (List.mergeSort_perm _ _).filter _
  have hsorted := (pairwise_longestFirst c).filter fun d => hasPattern d.1
  have hnames : (c.longestFirst.filter fun d => hasPattern d.1).map (·.1)
      ⊆ definitions.map (·.1) := by
    refine List.Subset.trans (hperm.map _).subset ?_
    exact List.Subset.trans (Calculator.names_ofList usable).1 (List.map_subset _ hsub)
  have hplain := (h.of_subset hsub).constants.of_subset hperm.subset
  rw [← funext (firstOf_sorted (h.of_subset hsub) hperm hsorted),
    ← foldl_substituteFrom hplain (isChain_guarded_of_subset ht hnames)]
  exact c.substitute_eq_foldl_filter t

/-- **Constants are put in at once, whatever the order of their definitions.**  In a text in which
another character, one that occurs in no name, stands before every mark but a first one, putting in
the constants one after the other is a single pass that takes the longest name behind each mark and
the value that this name was given last.  Whichever names have a pattern, those that have none are
taken as not defined.  So definitions of different names can be made in any order. -/
theorem substitute_eq_replaceMarked (hasPattern : Text → Bool) (definitions : List (Text × Text))
    (h : PlainDefinitions definitions) (t : Text)
    (ht : t.IsChain (Guarded (definitions.map (·.1)))) :
    ((Calculator.ofList definitions).withPatterns hasPattern).substitute t
        = replaceMarked (constantAt? (usableDefinitions hasPattern definitions)) 0 t ∧
      ((∀ d ∈ definitions, hasPattern d.1 = true) →
        usableDefinitions hasPattern definitions = definitions) ∧
      (DistinctNames definitions → ∀ other, definitions.Perm other →
        ((Calculator.ofList other).withPatterns hasPattern).substitute t
          = ((Calculator.ofList definitions).withPatterns hasPattern).substitute t) := by
  refine ⟨substitute_ofList h hasPattern ht, fun hall => ?_, fun hdistinct other hperm => ?_⟩
  · refine List.filter_eq_self.2 fun d hd => ?_
    cases hfirst : definitions.find? fun e => Text.sameIgnoringCase e.1 d.1 with
    | none => exact absurd (sameIgnoringCase_iff.2 rfl) (List.find?_eq_none.1 hfirst d hd)
    | some e => exact hall e (List.mem_of_find?_eq_some hfirst)
  · have hdistinct' : DistinctNames other := (hperm.pairwise_iff sameIgnoringCase_comm).1 hdistinct
    have h' := h.of_subset hperm.symm.subset
    have ht' := isChain_guarded_of_subset ht (hperm.symm.map (·.1)).subset
    have hplain := h.of_subset (usableDefinitions_subset hasPattern definitions)
    rw [hdistinct.usableDefinitions_eq] at hplain
    rw [substitute_ofList h hasPattern ht, substitute_ofList h' hasPattern ht',
      hdistinct.usableDefinitions_eq, hdistinct'.usableDefinitions_eq]
    exact congrArg (replaceMarked · 0 t)
      (funext ((hdistinct.filter _).constantAt?_perm hplain (hperm.filter _)))

/-- Two names, of which one begins with the other, defined in either order; and the same where there
is no pattern for the longer one. -/
theorem substitute_eq_replaceMarked_either_order :
    let first : List (Text × Text) := [("base", "10px"), ("Baseline", "3px")]
    let second : List (Text × Text) := [("Baseline", "3px"), ("base", "10px")]
    let short : Text → Bool := fun name => name.length < 6
    PlainDefinitions first ∧ DistinctNames first ∧ first.Perm second ∧
      ("!BASELINE+!base/!bas" : Text).IsChain (Guarded (first.map (·.1))) ∧
      (Calculator.ofList first).substitute "!BASELINE+!base/!bas" = "3px+10px/!bas" ∧
      (Calculator.ofList second).substitute "!BASELINE+!base/!bas" = "3px+10px/!bas" ∧
      ((Calculator.ofList second).withPatterns short).substitute "!BASELINE+!base/!bas"
        = "10pxLINE+10px/!bas" := by
  intro first second short
  have hplain : PlainDefinitions first := ⟨by simp [first], by decide, by decide⟩
  have hdistinct : DistinctNames first := by unfold DistinctNames; decide
  have hperm : first.Perm second := List.Perm.swap _ _ _
  have hguarded : ("!BASELINE+!base/!bas" : Text).IsChain (Guarded (first.map (·.1))) := by
    decide +kernel
  obtain ⟨hpass, hall, horder⟩ :=
    substitute_eq_replaceMarked (fun _ => true) first hplain _ hguarded
  obtain ⟨hshort, -, hshortOrder⟩ := substitute_eq_replaceMarked short first hplain _ hguarded
  have hvalue : replaceMarked (constantAt? first) 0 "!BASELINE+!base/!bas" = "3px+10px/!bas" := by
    decide +kernel
  have hshortValue : replaceMarked (constantAt? (usableDefinitions short first)) 0
      "!BASELINE+!base/!bas" = "10pxLINE+10px/!bas" := by
    decide +kernel
  rw [hall fun _ _ => rfl, hvalue] at hpass
  rw [hshortValue] at hshort
  exact ⟨hplain, hdistinct, hperm, hguarded, hpass,
    (horder hdistinct second hperm).trans hpass, (hshortOrder hdistinct second hperm).trans hshort⟩

/-- A mark before a mark occurs in no name, either, but it is not enough: the value of the second
completes a name behind the first, if this name has its turn later. -/
theorem substitute_marks_touch :
    PlainDefinitions [("a".toList, "b".toList), ("b".toList, "X".toList)] ∧
      (∀ name ∈ ["a".toList, "b".toList], name.any (Text.sameFold · '!') = false) ∧
      replaceMarked (constantAt? [("a".toList, "b".toList), ("b".toList, "X".toList)]) 0 "!!a"
        = "!b" ∧
      (Calculator.ofList [("a".toList, "b".toList), ("b".toList, "X".toList)]).substitute "!!a"
        = "X" ∧
      (Calculator.ofList [("b".toList, "X".toList), ("a".toList, "b".toList)]).substitute "!!a"
        = "!b" :=
  ⟨⟨by simp, by decide, by decide⟩, by decide +kernel, by decide +kernel, by cbv, by cbv⟩

end Offside
