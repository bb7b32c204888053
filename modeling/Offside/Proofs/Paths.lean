import Mathlib
import Offside.Files.Path
import Offside.Proofs.Text

/-!
# Laws of paths

Paths are cut and put together as texts.  This file says what comes out in terms of the names that a
path is made of.

**Names.**  A name stands between slashes and is neither empty nor a dot or two (`IsName`).  Behind
a text that is empty or ends in a slash it is what the path ends in: the last part, the file name
and the extension are those of the name alone (`lastPart_append` and what follows).

**Extensions.**  Another extension is put in the place of what follows the last dot, unless the name
begins with this dot.  The name that comes out is `renamed`.  A name that begins with two dots and
holds no others, such as `..x`, is cut back to the two dots, which is no name any more, and then
nothing is put behind it.

**Parents.**  What is left of a path without its last part is a beginning of the path that ends
before a slash (`parent?_cases`).
-/

namespace Offside

/-! ## Cutting at a character -/

lemma notMem_of_mem_splitOn {sep : Char} {t piece : Text} (h : piece ∈ Text.splitOn sep t) :
    sep ∉ piece := by
  induction t generalizing piece with
  | nil =>
      simp only [Text.splitOn, List.mem_singleton] at h
      simp [h]
  | cons c cs ih =>
      rw [Text.splitOn] at h
      split_ifs at h with hc
      · rcases List.mem_cons.1 h with rfl | h
        · simp
        · exact ih h
      · cases hcs : Text.splitOn sep cs with
        | nil => exact absurd hcs (splitOn_ne_nil sep cs)
        | cons first rest =>
            simp only [hcs] at h ih
            rcases List.mem_cons.1 h with rfl | h
            · have hfirst := ih List.mem_cons_self
              simp [Ne.symm hc, hfirst]
            · exact ih (List.mem_cons_of_mem _ h)

lemma splitOn_join {sep : Char} {pieces : List Text} (hne : pieces ≠ [])
    (h : ∀ piece ∈ pieces, sep ∉ piece) : Text.splitOn sep (Text.join [sep] pieces) = pieces := by
  induction pieces with
  | nil => exact absurd rfl hne
  | cons piece pieces ih =>
      have hpiece := splitOn_eq_singleton (h piece List.mem_cons_self)
      cases pieces with
      | nil => exact hpiece
      | cons next rest =>
          have hrest := ih (by simp) fun other hother => h other (List.mem_cons_of_mem _ hother)
          rw [Text.join, List.append_assoc, List.singleton_append, splitOn_append_cons, hpiece,
            hrest, List.singleton_append]
          simp

/-- A text is what stands behind its last separator and what ends in this separator before. -/
lemma exists_append_last (sep : Char) (t : Text) :
    ∃ pre last : Text, t = pre ++ last ∧ (∀ c ∈ pre.getLast?, c = sep) ∧ sep ∉ last := by
  have happend := List.takeWhile_append_dropWhile (p := (· != sep)) (l := t.reverse)
  refine ⟨(t.reverse.dropWhile (· != sep)).reverse, (t.reverse.takeWhile (· != sep)).reverse,
    ?_, ?_, ?_⟩
  · rw [← List.reverse_append, happend, List.reverse_reverse]
  · intro c hc
    have hnot := List.head?_dropWhile_not (· != sep) t.reverse
    rw [List.getLast?_reverse] at hc
    simpa [Option.mem_def.1 hc] using hnot
  · intro hmem
    simpa using List.mem_takeWhile_imp (List.mem_reverse.1 hmem)

lemma eq_nil_or_append_of_getLast? {sep : Char} {pre : Text} (h : ∀ c ∈ pre.getLast?, c = sep) :
    pre = [] ∨ ∃ front, pre = front ++ [sep] := by
  rcases List.eq_nil_or_concat' pre with hnil | ⟨front, c, hfront⟩
  · exact .inl hnil
  · exact .inr ⟨front, by rw [hfront, h c (by simp [hfront])]⟩

lemma forall_mem_reverse_bne {sep : Char} {t : Text} (h : sep ∉ t) :
    ∀ c ∈ t.reverse, (c != sep) = true := by
  intro c hc
  simp only [bne_iff_ne, ne_eq]
  rintro rfl
  exact h (List.mem_reverse.1 hc)

namespace FilePath

/-! ## Names -/

/-- A text that names a file or a directory. -/
structure IsName (name : Text) : Prop where
  ne_nil : name ≠ []
  slash : '/' ∉ name
  ne_dot : name ≠ "."
  ne_dots : name ≠ ".."

instance (name : Text) : Decidable (IsName name) :=
  decidable_of_iff (name ≠ [] ∧ '/' ∉ name ∧ name ≠ "." ∧ name ≠ "..")
    ⟨fun h => ⟨h.1, h.2.1, h.2.2.1, h.2.2.2⟩, fun h => ⟨h.ne_nil, h.slash, h.ne_dot, h.ne_dots⟩⟩

variable {pre name extension : Text}

/-- What stands between slashes is not cut off from the end of a path, unless it is a dot. -/
lemma trimTail_append (hne : name ≠ []) (hslash : '/' ∉ name) (hdot : name ≠ ".") (rest : Text) :
    trimTail (name.reverse ++ rest) = name.reverse ++ rest := by
  obtain ⟨c, cs, hcs⟩ := List.exists_cons_of_ne_nil (List.reverse_ne_nil_iff.2 hne)
  have hmem : ∀ d ∈ c :: cs, d ≠ '/' := by
    rintro d hd rfl
    rw [← hcs, List.mem_reverse] at hd
    exact hslash hd
  rw [hcs, List.cons_append]
  unfold trimTail
  split
  · next heq => exact heq.symm
  · next heq =>
      cases heq
      exact absurd rfl (hmem '/' List.mem_cons_self)
  · next heq =>
      obtain ⟨rfl, hrest⟩ := List.cons.inj heq
      cases cs with
      | nil =>
          have hname := congrArg List.reverse hcs
          exact absurd (by simpa using hname) hdot
      | cons d ds =>
          obtain ⟨rfl, -⟩ := List.cons.inj hrest
          exact absurd rfl (hmem '/' (by simp))
  · rfl

lemma lastPart_append (hne : name ≠ []) (hslash : '/' ∉ name) (hdot : name ≠ ".")
    (hpre : ∀ c ∈ pre.getLast?, c = '/') :
    lastPart (pre ++ name) = (name.reverse, pre.reverse) := by
  have hall := forall_mem_reverse_bne hslash
  rw [lastPart, List.reverse_append, trimTail_append hne hslash hdot,
    List.span_eq_takeWhile_dropWhile, List.takeWhile_append_of_pos hall,
    List.dropWhile_append_of_pos hall]
  cases hrev : pre.reverse with
  | nil => simp
  | cons c cs =>
      have hc : c = '/' := hpre c (by simp [List.getLast?_eq_head?_reverse, hrev])
      simp [hc]

/-- A path that ends in a text between slashes ends in this name, if it is one. -/
lemma fileName?_eq (hne : name ≠ []) (hslash : '/' ∉ name) (hdot : name ≠ ".")
    (hpre : ∀ c ∈ pre.getLast?, c = '/') :
    fileName? (pre ++ name) = if name = ".." then none else some name := by
  have hdot' : name ≠ ['.'] := hdot
  simp only [fileName?, lastPart_append hne hslash hdot hpre, List.reverse_reverse]
  simp [hne, hdot']

lemma fileName?_append (hname : IsName name) (hpre : ∀ c ∈ pre.getLast?, c = '/') :
    fileName? (pre ++ name) = some name := by
  rw [fileName?_eq hname.ne_nil hname.slash hname.ne_dot hpre, if_neg hname.ne_dots]

lemma parent?_append (hne : name ≠ []) (hslash : '/' ∉ name) (hdot : name ≠ ".")
    (hpre : ∀ c ∈ pre.getLast?, c = '/') :
    parent? (pre ++ name) = some (trimTail pre.reverse).reverse := by
  have htrim := trimTail_append hne hslash hdot pre.reverse
  have hlast := lastPart_append hne hslash hdot hpre
  rw [lastPart, List.reverse_append, htrim, List.span_eq_takeWhile_dropWhile] at hlast
  rw [parent?, List.reverse_append, htrim]
  split
  · next heq => simp [hne] at heq
  · next heq =>
      cases hrev : name.reverse with
      | nil => exact absurd (List.reverse_eq_nil_iff.1 hrev) hne
      | cons c cs =>
          rw [hrev] at heq
          obtain ⟨rfl, -⟩ := List.cons.inj heq
          exact absurd (List.mem_reverse.1 (hrev ▸ List.mem_cons_self)) hslash
  · rw [(Prod.mk.inj hlast).2]

lemma isAbsolute_eq_false (hslash : '/' ∉ name) : isAbsolute name = false := by
  cases name with
  | nil => rfl
  | cons c cs =>
      simp only [List.mem_cons, not_or] at hslash
      simp [isAbsolute, Ne.symm hslash.1]

/-! ## Extensions -/

/-- A name is cut at its last dot. -/
lemma splitName_append {stem old : Text} (hstem : stem ≠ []) (hold : '.' ∉ old) :
    splitName (stem ++ '.' :: old) = (stem, some old) := by
  have hall := forall_mem_reverse_bne hold
  have hspan : (stem ++ '.' :: old).reverse.span (· != '.')
      = (old.reverse, '.' :: stem.reverse) := by
    rw [List.span_eq_takeWhile_dropWhile, List.reverse_append, List.reverse_cons,
      List.append_assoc, List.takeWhile_append_of_pos hall, List.dropWhile_append_of_pos hall]
    simp
  rw [splitName, hspan]
  split
  · next heq => simp at heq
  · next heq => simp [hstem] at heq
  · next heq =>
      obtain ⟨rfl, hrest⟩ := Prod.mk.inj heq
      simp [← (List.cons.inj hrest).2]

/-- A name that holds no dot behind its first character is not cut. -/
lemma splitName_cases (name : Text) :
    splitName name = (name, none) ∨
      ∃ stem old, splitName name = (stem, some old) ∧ name = stem ++ '.' :: old ∧ stem ≠ [] ∧
        '.' ∉ old := by
  obtain ⟨pre, old, rfl, hpre, hold⟩ := exists_append_last '.' name
  have hall := forall_mem_reverse_bne hold
  rcases eq_nil_or_append_of_getLast? hpre with rfl | ⟨stem, rfl⟩
  · left
    rw [List.nil_append, splitName, List.span_eq_takeWhile_dropWhile,
      List.dropWhile_eq_nil_iff.2 hall]
  · rcases eq_or_ne stem [] with rfl | hstem
    · left
      rw [splitName, List.span_eq_takeWhile_dropWhile, List.reverse_append,
        List.takeWhile_append_of_pos hall, List.dropWhile_append_of_pos hall]
      simp
    · right
      have hname : stem ++ ['.'] ++ old = stem ++ '.' :: old := by simp
      exact ⟨stem, old, hname ▸ splitName_append hstem hold, hname, hstem, hold⟩

/-- A name with another extension. -/
def renamed (name extension : Text) : Text :=
  let stem := (splitName name).1
  if stem = "." then ".." else if extension = [] then stem else stem ++ '.' :: extension

lemma IsName.stem_ne_nil (hname : IsName name) : (splitName name).1 ≠ [] := by
  rcases splitName_cases name with hnone | ⟨stem, old, hsome, -, hstem, -⟩
  · rw [hnone]
    exact hname.ne_nil
  · rw [hsome]
    exact hstem

lemma IsName.slash_stem (hname : IsName name) : '/' ∉ (splitName name).1 := by
  rcases splitName_cases name with hnone | ⟨stem, old, hsome, heq, -, -⟩
  · rw [hnone]
    exact hname.slash
  · rw [hsome]
    have hslash := heq ▸ hname.slash
    simp only [List.mem_append, not_or] at hslash
    exact hslash.1

lemma setExtension_append (hname : IsName name) (hpre : ∀ c ∈ pre.getLast?, c = '/')
    (extension : Text) :
    setExtension (pre ++ name) extension
      = pre ++ if extension = [] then (splitName name).1
          else (splitName name).1 ++ '.' :: extension := by
  simp only [setExtension, fileName?_append hname hpre,
    lastPart_append hname.ne_nil hname.slash hname.ne_dot hpre, List.reverse_reverse,
    List.isEmpty_iff]
  split_ifs <;> simp

lemma withExtension_append (hname : IsName name) (hpre : ∀ c ∈ pre.getLast?, c = '/')
    (extension : Text) : withExtension (pre ++ name) extension = pre ++ renamed name extension := by
  rw [withExtension, extension?, fileName?_append hname hpre, Option.bind_some]
  rcases splitName_cases name with hnone | ⟨stem, old, hsome, hcut, hstem, -⟩
  · simp only [hnone, renamed, setExtension_append hname hpre, if_neg hname.ne_dot]
  · -- The old extension is cut off first, and the dot is still there.
    have htake : (pre ++ name).take ((pre ++ name).length - old.length)
        = pre ++ (stem ++ ['.']) := by
      rw [hcut, show pre ++ (stem ++ '.' :: old) = pre ++ (stem ++ ['.']) ++ old by simp,
        List.length_append, Nat.add_sub_cancel, List.take_left]
    simp only [hsome, renamed, htake]
    have hslash : '/' ∉ stem ++ ['.'] := by
      have hall := hcut ▸ hname.slash
      simp only [List.mem_append, List.mem_cons, not_or] at hall
      simp [hall.1]
    by_cases hstuck : stem = "."
    · rw [if_pos hstuck, setExtension, fileName?_eq (by simp) hslash (by simp [hstem]) hpre,
        if_pos (by rw [hstuck]; rfl), hstuck]
      rfl
    · have hcutName : IsName (stem ++ ['.']) := by
        refine ⟨by simp, hslash, ?_, ?_⟩
        · simp [hstem]
        · intro hdots
          have hsplit : (".." : Text) = ['.'] ++ ['.'] := rfl
          exact hstuck (List.append_cancel_right (hdots.trans hsplit))
      have hstemName : splitName (stem ++ ['.']) = (stem, some []) :=
        splitName_append hstem (by simp)
      rw [if_neg hstuck, setExtension_append hcutName hpre, hstemName]

lemma slash_renamed (hname : IsName name) (hextension : '/' ∉ extension) :
    '/' ∉ renamed name extension := by
  have hstem := hname.slash_stem
  simp only [renamed]
  split_ifs
  · decide
  · exact hstem
  · simp [hstem, hextension]

lemma renamed_ne_nil (hname : IsName name) : renamed name extension ≠ [] := by
  have hstem := hname.stem_ne_nil
  simp only [renamed]
  split_ifs
  · decide
  · exact hstem
  · simp [hstem]

lemma renamed_ne_dot (hname : IsName name) : renamed name extension ≠ "." := by
  have hstem := hname.stem_ne_nil
  simp only [renamed]
  split_ifs with hdot
  · decide
  · exact hdot
  · intro h
    have hlength := congrArg List.length h
    have hpos := List.length_pos_of_ne_nil hstem
    simp at hlength
    omega

/-- With an extension the new name is one, unless the old one was cut back to two dots. -/
lemma isName_renamed (hname : IsName name) (hne : extension ≠ []) (hextension : '/' ∉ extension)
    (hstem : (splitName name).1 ≠ ".") : IsName (renamed name extension) := by
  refine ⟨renamed_ne_nil hname, slash_renamed hname hextension, renamed_ne_dot hname, ?_⟩
  intro h
  have hpos := List.length_pos_of_ne_nil hname.stem_ne_nil
  have hlong := List.length_pos_of_ne_nil hne
  have hlength := congrArg List.length h
  simp only [renamed, hstem, hne, if_false, List.length_append, List.length_cons] at hlength
  simp at hlength
  omega

/-- The extension that a name was given is read back exactly if it holds no dot. -/
lemma splitName_renamed (hname : IsName name) (hne : extension ≠ [])
    (hstem : (splitName name).1 ≠ ".") :
    (splitName (renamed name extension)).2 = some extension ↔ '.' ∉ extension := by
  have hrenamed : renamed name extension = (splitName name).1 ++ '.' :: extension := by
    simp only [renamed, if_neg hstem, if_neg hne]
  rw [hrenamed]
  constructor
  · intro hread
    rcases splitName_cases ((splitName name).1 ++ '.' :: extension) with
      hnone | ⟨stem, old, hsome, -, -, hold⟩
    · simp [hnone] at hread
    · rw [hsome] at hread
      exact Option.some.inj hread ▸ hold
  · intro hdot
    rw [splitName_append hname.stem_ne_nil hdot]

/-! ## Steps -/

/-- Whether a part of a path leads from one place to another. -/
def isStep (piece : Text) : Bool := !piece.isEmpty && piece != "."

/-- The parts of a path that lead from one place to another. -/
def steps (p : FilePath) : List Text := (Text.splitOn '/' p).filter isStep

@[simp] lemma steps_nil : steps [] = [] := rfl

lemma steps_append_cons (a b : Text) : steps (a ++ '/' :: b) = steps a ++ steps b := by
  rw [steps, splitOn_append_cons, List.filter_append, steps, steps]

lemma steps_slash (b : Text) : steps ('/' :: b) = steps b := steps_append_cons [] b

lemma steps_append_slash (a : Text) : steps (a ++ ['/']) = steps a := by
  rw [steps_append_cons, steps_nil, List.append_nil]

/-- A text between slashes is a step, unless it is a dot. -/
lemma steps_eq_singleton (hne : name ≠ []) (hslash : '/' ∉ name) (hdot : name ≠ ".") :
    steps name = [name] := by
  have hdot' : name ≠ ['.'] := hdot
  simp [steps, isStep, splitOn_eq_singleton hslash, hne, hdot']

lemma IsName.steps_eq (hname : IsName name) : steps name = [name] :=
  steps_eq_singleton hname.ne_nil hname.slash hname.ne_dot

lemma steps_append (hname : IsName name) (hpre : ∀ c ∈ pre.getLast?, c = '/') :
    steps (pre ++ name) = steps pre ++ [name] := by
  rcases eq_nil_or_append_of_getLast? hpre with rfl | ⟨start, rfl⟩
  · exact hname.steps_eq
  · rw [List.append_assoc, List.singleton_append, steps_append_cons, steps_append_slash,
      hname.steps_eq]

lemma steps_join {names : List Text} (h : ∀ name ∈ names, IsName name) :
    steps (Text.join "/" names) = names := by
  rcases eq_or_ne names [] with rfl | hne
  · rfl
  · have hsplit : Text.splitOn '/' (Text.join "/" names) = names :=
      splitOn_join hne fun name hname => (h name hname).slash
    rw [steps, hsplit, List.filter_eq_self]
    intro name hname
    have hdot : name ≠ ['.'] := (h name hname).ne_dot
    simp [isStep, (h name hname).ne_nil, hdot]

lemma mem_steps {p : FilePath} {step : Text} (h : step ∈ steps p) (hdots : step ≠ "..") :
    IsName step := by
  obtain ⟨hpiece, hkept⟩ := List.mem_filter.1 h
  simp only [isStep, Bool.and_eq_true, Bool.not_eq_true', List.isEmpty_eq_false_iff,
    bne_iff_ne] at hkept
  exact ⟨hkept.1, notMem_of_mem_splitOn hpiece, hkept.2, hdots⟩

/-- What is cut off from the end of a path leads nowhere else. -/
lemma steps_reverse_trimTail (t : Text) : steps (trimTail t).reverse = steps t.reverse := by
  fun_induction trimTail t with
  | case1 => rfl
  | case2 rest _ ih => rw [ih, List.reverse_cons, steps_append_slash]
  | case3 rest ih =>
      rw [ih, List.reverse_cons, steps_append_slash, List.reverse_cons, List.reverse_cons,
        List.append_assoc, List.singleton_append, steps_append_cons, show steps ['.'] = [] from rfl,
        List.append_nil]
  | case4 => rfl

/-! ## Joining -/

/-- A path with a slash behind it, unless there is one or nothing is there. -/
def opened (base : FilePath) : Text :=
  if base = [] ∨ base.getLast? = some '/' then base else base ++ ['/']

lemma join_eq (base : FilePath) {p : FilePath} (h : isAbsolute p = false) :
    join base p = opened base ++ p := by
  by_cases hempty : base = []
  · simp [join, opened, h, hempty]
  · by_cases hlast : base.getLast? = some '/'
    · simp [join, opened, h, hempty, hlast]
    · simp [join, opened, h, hempty, hlast]

lemma getLast?_opened (base : FilePath) : ∀ c ∈ (opened base).getLast?, c = '/' := by
  intro c hc
  unfold opened at hc
  split_ifs at hc with hbase
  · rcases hbase with rfl | hslash
    · cases hc
    · rw [hslash] at hc
      exact (Option.some.inj hc).symm
  · simpa using hc.symm

@[simp] lemma steps_opened (base : FilePath) : steps (opened base) = steps base := by
  unfold opened
  split_ifs
  · rfl
  · exact steps_append_slash base

/-- Behind a name there is always room for a slash. -/
lemma opened_append (hne : name ≠ []) (hslash : '/' ∉ name) (pre : Text) :
    opened (pre ++ name) = pre ++ name ++ ['/'] := by
  have hends : (pre ++ name).getLast? ≠ some '/' := by
    rw [List.getLast?_append_of_ne_nil _ hne]
    exact fun hlast => hslash (List.mem_of_getLast? hlast)
  rw [opened, if_neg]
  simp only [hends, List.append_eq_nil_iff, hne, and_false, or_self, not_false_eq_true]

lemma opened_ne_nil {base : FilePath} (h : base ≠ []) : opened base ≠ [] := by
  unfold opened
  split_ifs
  · exact h
  · simp

lemma head?_opened {base : FilePath} (h : base ≠ []) : (opened base).head? = base.head? := by
  unfold opened
  split_ifs
  · rfl
  · exact List.head?_append_of_ne_nil base h

/-! ## Parents -/

lemma trimTail_trimTail (t : Text) : trimTail (trimTail t) = trimTail t := by
  fun_induction trimTail t with
  | case1 => rfl
  | case2 rest _ ih => exact ih
  | case3 rest ih => exact ih
  | case4 t h₁ h₂ h₃ =>
      unfold trimTail
      split <;> simp_all

lemma length_trimTail_le (t : Text) : (trimTail t).length ≤ t.length := by
  fun_induction trimTail t with
  | case1 => simp
  | case2 rest _ ih => simp; omega
  | case3 rest ih => simp at ih ⊢; omega
  | case4 => simp

lemma getLast?_trimTail (t : Text) : (trimTail t).getLast? = t.getLast? := by
  fun_induction trimTail t with
  | case1 => rfl
  | case2 rest hrest ih =>
      have hne : rest ≠ [] := by
        rintro rfl
        exact hrest rfl
      rw [ih, List.getLast?_cons_of_ne_nil hne]
  | case3 rest ih => rw [ih, List.getLast?_cons_cons]
  | case4 => rfl

lemma isAbsolute_reverse_trimTail (t : Text) :
    isAbsolute (trimTail t).reverse = isAbsolute t.reverse := by
  simp [isAbsolute, getLast?_trimTail]

/-- A path from whose end nothing is cut off is made of a text between slashes and what stands
before it, with few exceptions. -/
lemma trimmed_cases {p : FilePath} (h : trimTail p.reverse = p.reverse) :
    p = [] ∨ p = "/" ∨ p = "." ∨ ∃ pre last : Text, p = pre ++ last ∧
      (∀ c ∈ pre.getLast?, c = '/') ∧ last ≠ [] ∧ '/' ∉ last ∧ last ≠ "." := by
  obtain ⟨pre, last, hp, hpre, hslash⟩ := exists_append_last '/' p
  -- A slash or a dot at the end would have been cut off with the slash before it.
  have hcut : ∀ t : Text, trimTail t.reverse = p.reverse → p.length ≤ t.length := by
    intro t ht
    simpa [ht] using length_trimTail_le t.reverse
  rcases eq_nil_or_append_of_getLast? hpre with hnil | ⟨start, hstart⟩
  · by_cases hempty : last = []
    · left
      rw [hp, hnil, hempty, List.nil_append]
    · by_cases hdot : last = "."
      · right; right; left
        rw [hp, hnil, hdot, List.nil_append]
      · right; right; right
        exact ⟨pre, last, hp, hpre, hempty, hslash, hdot⟩
  · have hends : p = start ++ '/' :: last := by simp [hp, hstart]
    by_cases hempty : last = []
    · right; left
      by_contra hroot
      have hshort : start ≠ [] := by
        rintro rfl
        exact hroot (by rw [hends, hempty]; rfl)
      have hrev : p.reverse = '/' :: start.reverse := by simp [hends, hempty]
      have hstep : trimTail ('/' :: start.reverse) = trimTail start.reverse := by
        rw [trimTail]
        simpa using hshort
      have hle := hcut start (by rw [← hstep, ← hrev, h])
      simp [hends] at hle
    · by_cases hdot : last = "."
      · have hrev : p.reverse = '.' :: '/' :: start.reverse := by simp [hends, hdot]
        have hle := hcut (start ++ ['/']) (by
          rw [List.reverse_append, List.reverse_singleton, List.singleton_append, ← h, hrev]
          rfl)
        simp [hends, hdot] at hle
      · right; right; right
        exact ⟨pre, last, hp, hpre, hempty, hslash, hdot⟩

/-- What a path with a parent is made of, if nothing is cut off from its end. -/
lemma parent?_cases_of_trimmed {p parent : FilePath} (htrimmed : trimTail p.reverse = p.reverse)
    (h : parent? p = some parent) :
    ∃ last : List Text, steps p = steps parent ++ last ∧ parent.length < p.length ∧
      trimTail parent.reverse = parent.reverse ∧
      isAbsolute parent = isAbsolute p ∧
      ∀ name, fileName? p = some name → IsName name ∧ last = [name] := by
  rcases trimmed_cases htrimmed with rfl | rfl | rfl | ⟨pre, last, rfl, hpre, hne, hslash, hdot⟩
  · cases h
  · cases h
  · obtain rfl : [] = parent := Option.some.inj h
    refine ⟨[], rfl, by simp, rfl, rfl, ?_⟩
    intro name hfile
    cases hfile
  · rw [parent?_append hne hslash hdot hpre] at h
    obtain rfl := Option.some.inj h
    refine ⟨steps last, ?_, ?_, ?_, ?_, ?_⟩
    · rcases eq_nil_or_append_of_getLast? hpre with rfl | ⟨start, rfl⟩
      · rfl
      · rw [steps_reverse_trimTail, List.reverse_reverse, List.append_assoc, List.singleton_append,
          steps_append_cons, steps_append_slash]
    · have hle := length_trimTail_le pre.reverse
      have hpos := List.length_pos_of_ne_nil hne
      simp at hle ⊢
      omega
    · rw [List.reverse_reverse, trimTail_trimTail]
    · rw [isAbsolute_reverse_trimTail, List.reverse_reverse]
      rcases eq_or_ne pre [] with rfl | hfull
      · exact (isAbsolute_eq_false hslash).symm
      · rw [isAbsolute, isAbsolute, List.head?_append_of_ne_nil _ hfull]
    · intro name hfile
      rw [fileName?_eq hne hslash hdot hpre] at hfile
      split_ifs at hfile with hdots
      obtain rfl := Option.some.inj hfile
      exact ⟨⟨hne, hslash, hdot, hdots⟩, steps_eq_singleton hne hslash hdot⟩

/-- What a path with a parent is made of.  Its last part is a single step, which is its name if it
has one; only a path that is a dot has no step there. -/
lemma parent?_cases {p parent : FilePath} (h : parent? p = some parent) :
    ∃ last : List Text, steps p = steps parent ++ last ∧ parent.length < p.length ∧
      trimTail parent.reverse = parent.reverse ∧
      isAbsolute parent = isAbsolute p ∧
      ∀ name, fileName? p = some name → IsName name ∧ last = [name] := by
  -- Only what is left after cutting matters.
  set q := (trimTail p.reverse).reverse with hq
  have hqp : trimTail q.reverse = trimTail p.reverse := by
    rw [hq, List.reverse_reverse, trimTail_trimTail]
  have hparent : parent? q = some parent := by rw [← h, parent?, parent?, hqp]
  have hname : fileName? p = fileName? q := by
    rw [fileName?, fileName?, lastPart, lastPart, hqp]
  have hsteps : steps q = steps p := by
    rw [hq, steps_reverse_trimTail, List.reverse_reverse]
  have habsolute : isAbsolute q = isAbsolute p := by
    rw [hq, isAbsolute_reverse_trimTail, List.reverse_reverse]
  have hlength : q.length ≤ p.length := by
    simpa [hq] using length_trimTail_le p.reverse
  have htrimmed : trimTail q.reverse = q.reverse := by rw [hqp, hq, List.reverse_reverse]
  obtain ⟨last, hlast, hshorter, hrest⟩ := parent?_cases_of_trimmed htrimmed hparent
  rw [← hsteps, ← habsolute, hname]
  exact ⟨last, hlast, hshorter.trans_le hlength, hrest⟩

end FilePath

end Offside
