import Mathlib
import Offside.Proofs.ElementHeads
import Offside.Proofs.LineForms

/-!
# Patterns and the cuts that compute them

What a line of a stylesheet or the head of an element is made of can be said by patterns: so many
characters of one class, then so many of another.  The definitions know no patterns.  They cut a
text where the characters of a class end.  Here the patterns are written down, with what it means to
match one, and the cuts are shown to find the matches.

**Lines.**  A line is matched as a whole.  Where several cuts fit a pattern the greedy one counts:
each part, from left to right, takes as much as leaves a match for the parts behind it (`Greedy`).
There is one as soon as anything fits (`Pattern.Matches.exists_greedy`).  What a line says is told
by the first pattern that matches it (`StyleLine.Reads`), and this is what `StyleLine.ofText`
computes (`StyleLine.reads_trim_iff`).

**Heads.**  A head is cut into tokens from left to right, each as long as any pattern allows.  Where
none matches, what can begin a match is passed over, and one character if nothing can
(`HeadToken.Lexes`).  This is what `HeadToken.tokens` computes (`HeadToken.lexes_iff`).
-/

namespace Offside

/-! ## Patterns -/

/-- A part of a pattern: so many characters of a class. -/
structure PatternPart where
  isPart : Char → Bool
  least : Nat
  /-- Without it there can be any number. -/
  most : Option Nat

namespace PatternPart

/-- One character of a class. -/
def one (isPart : Char → Bool) : PatternPart := ⟨isPart, 1, some 1⟩

/-- One character of a class or more. -/
def many (isPart : Char → Bool) : PatternPart := ⟨isPart, 1, none⟩

/-- Any number of characters of a class. -/
def any (isPart : Char → Bool) : PatternPart := ⟨isPart, 0, none⟩

/-- A text that a part stands for. -/
structure Fits (part : PatternPart) (piece : Text) : Prop where
  mem : ∀ c ∈ piece, part.isPart c = true
  least_le : part.least ≤ piece.length
  le_most : ∀ n ∈ part.most, piece.length ≤ n

variable {isPart : Char → Bool} {piece : Text}

lemma fits_one : (one isPart).Fits piece ↔ ∃ c, isPart c = true ∧ piece = [c] := by
  constructor
  · rintro ⟨hmem, hleast, hmost⟩
    obtain ⟨c, rfl⟩ := List.length_eq_one_iff.1 (le_antisymm (hmost 1 rfl) hleast)
    exact ⟨c, hmem c (List.mem_singleton_self c), rfl⟩
  · rintro ⟨c, hc, rfl⟩
    refine ⟨fun d hd => ?_, le_rfl, fun n hn => ?_⟩
    · rwa [List.mem_singleton.1 hd]
    · exact (Option.some.inj hn).le

lemma fits_many : (many isPart).Fits piece ↔ piece ≠ [] ∧ ∀ c ∈ piece, isPart c = true := by
  constructor
  · rintro ⟨hmem, hleast, -⟩
    exact ⟨List.length_pos_iff.1 hleast, hmem⟩
  · rintro ⟨hne, hmem⟩
    exact ⟨hmem, List.length_pos_iff.2 hne, fun n hn => by cases hn⟩

lemma fits_any : (any isPart).Fits piece ↔ ∀ c ∈ piece, isPart c = true := by
  constructor
  · exact Fits.mem
  · intro hmem
    exact ⟨hmem, Nat.zero_le _, fun n hn => by cases hn⟩

/-- A part without a bound can take another character. -/
lemma Fits.concat {part : PatternPart} {c : Char} (h : part.Fits piece) (hmost : part.most = none)
    (hc : part.isPart c = true) : part.Fits (piece ++ [c]) := by
  refine ⟨fun d hd => ?_, h.least_le.trans (by simp), fun n hn => ?_⟩
  · rcases List.mem_append.1 hd with hd | hd
    · exact h.mem d hd
    · rwa [List.mem_singleton.1 hd]
  · rw [hmost] at hn
    cases hn

end PatternPart

/-- A pattern has its parts one behind the other. -/
abbrev Pattern := List PatternPart

namespace Pattern

/-- Some cut of the text fits the parts one by one. -/
def Matches (pattern : Pattern) (t : Text) : Prop :=
  ∃ pieces, List.Forall₂ PatternPart.Fits pattern pieces ∧ pieces.flatten = t

lemma matches_nil {t : Text} : Matches [] t ↔ t = [] := by
  constructor
  · rintro ⟨pieces, hfits, rfl⟩
    cases hfits
    rfl
  · rintro rfl
    exact ⟨[], .nil, rfl⟩

lemma matches_cons {part : PatternPart} {pattern : Pattern} {t : Text} :
    Matches (part :: pattern) t ↔
      ∃ piece rest, part.Fits piece ∧ pattern.Matches rest ∧ piece ++ rest = t := by
  constructor
  · rintro ⟨pieces, hfits, rfl⟩
    cases hfits with
    | cons hpiece hpieces => exact ⟨_, _, hpiece, ⟨_, hpieces, rfl⟩, rfl⟩
  · rintro ⟨piece, rest, hpiece, ⟨pieces, hpieces, rfl⟩, rfl⟩
    exact ⟨piece :: pieces, .cons hpiece hpieces, rfl⟩

lemma matches_singleton {part : PatternPart} {t : Text} : Matches [part] t ↔ part.Fits t := by
  simp [matches_cons, matches_nil]

lemma matches_one_cons {isPart : Char → Bool} {pattern : Pattern} {t : Text} :
    Matches (.one isPart :: pattern) t ↔
      ∃ c rest, isPart c = true ∧ pattern.Matches rest ∧ c :: rest = t := by
  rw [matches_cons]
  constructor
  · rintro ⟨piece, rest, hpiece, hrest, rfl⟩
    obtain ⟨c, hc, rfl⟩ := PatternPart.fits_one.1 hpiece
    exact ⟨c, rest, hc, hrest, rfl⟩
  · rintro ⟨c, rest, hc, hrest, rfl⟩
    exact ⟨[c], rest, PatternPart.fits_one.2 ⟨c, hc, rfl⟩, hrest, rfl⟩

end Pattern

/-! ## Greedy matches -/

/-- The match that counts: each part takes as much as leaves a match for the parts behind it. -/
inductive Greedy : Pattern → Text → List Text → Prop
  | nil : Greedy [] [] []
  | cons {part : PatternPart} {pattern : Pattern} {piece rest : Text} {pieces : List Text}
      (fits : part.Fits piece) (later : Greedy pattern rest pieces)
      (longest : ∀ longer back, longer ++ back = piece ++ rest → part.Fits longer →
        pattern.Matches back → longer.length ≤ piece.length) :
      Greedy (part :: pattern) (piece ++ rest) (piece :: pieces)

/-- Among the beginnings of a text with a property there is a longest. -/
lemma exists_longest_beginning {P : Text → Prop} {t front : Text} (hfront : front <+: t)
    (h : P front) : ∃ longest, longest <+: t ∧ P longest ∧
      ∀ other, other <+: t → P other → other.length ≤ longest.length := by
  have hfinite : {other | other <+: t ∧ P other}.Finite :=
    (List.finite_toSet t.inits).subset fun other hother => (List.mem_inits _ _).2 hother.1
  obtain ⟨longest, ⟨hbegins, hlongest⟩, hmax⟩ :=
    Set.exists_max_image _ List.length hfinite ⟨front, hfront, h⟩
  exact ⟨longest, hbegins, hlongest, fun other hbegins hother => hmax other ⟨hbegins, hother⟩⟩

lemma Pattern.Matches.exists_greedy {pattern : Pattern} {t : Text} (h : pattern.Matches t) :
    ∃ pieces, Greedy pattern t pieces := by
  induction pattern generalizing t with
  | nil =>
      obtain rfl := Pattern.matches_nil.1 h
      exact ⟨[], .nil⟩
  | cons part pattern ih =>
      obtain ⟨piece, rest, hpiece, hrest, rfl⟩ := Pattern.matches_cons.1 h
      obtain ⟨longest, ⟨back, hback⟩, ⟨hfits, hleft⟩, hmax⟩ := exists_longest_beginning
        (P := fun front => part.Fits front ∧
          ∀ back, front ++ back = piece ++ rest → Pattern.Matches pattern back)
        (List.prefix_append piece rest)
        ⟨hpiece, fun back hback => List.append_cancel_left hback ▸ hrest⟩
      obtain ⟨pieces, hpieces⟩ := ih (hleft back hback)
      refine ⟨longest :: pieces, hback ▸ .cons hfits hpieces fun longer after hcut hlonger hafter =>
        hmax longer ⟨after, hcut.trans hback⟩ ⟨hlonger, fun other hother => ?_⟩⟩
      rwa [List.append_cancel_left (hother.trans (hcut.trans hback).symm)]

/-- A part that could go on ends where its characters end, if something else is at the end of the
text. -/
lemma Greedy.head_of_last {part : PatternPart} {isPart : Char → Bool} {t piece last : Text}
    (h : Greedy [part, .many isPart] t [piece, last]) (hmost : part.most = none)
    (hlast : ∀ c ∈ t.getLast?, part.isPart c = false) :
    ∀ c ∈ last.head?, part.isPart c = false := by
  intro c hc
  obtain ⟨after, rfl⟩ : ∃ after, last = c :: after := List.head?_eq_some_iff.1 hc
  rw [← Bool.not_eq_true]
  intro hpart
  cases h with
  | @cons _ _ _ rest _ fits later longest =>
      obtain ⟨hnext, hrest⟩ : (PatternPart.many isPart).Fits (c :: after) ∧ rest = c :: after := by
        cases later with
        | cons hnext hend =>
            cases hend
            exact ⟨hnext, List.append_nil _⟩
      subst hrest
      have hafter : after ≠ [] := by
        rintro rfl
        have hc' := hlast c (by simp)
        rw [hpart] at hc'
        cases hc'
      have hmatches : Pattern.Matches [PatternPart.many isPart] after :=
        Pattern.matches_singleton.2 (PatternPart.fits_many.2
          ⟨hafter, fun d hd => (PatternPart.fits_many.1 hnext).2 d (List.mem_cons_of_mem _ hd)⟩)
      have hlength := longest (piece ++ [c]) after (by simp) (fits.concat hmost hpart) hmatches
      simp at hlength

lemma Greedy.exists_of_cons {part : PatternPart} {pattern : Pattern} {t : Text}
    {pieces : List Text} (h : Greedy (part :: pattern) t pieces) :
    ∃ piece rest later, pieces = piece :: later ∧ t = piece ++ rest ∧ part.Fits piece ∧
      Greedy pattern rest later := by
  cases h with
  | cons fits later _ => exact ⟨_, _, _, rfl, rfl, fits, later⟩

lemma Greedy.exists_of_one_cons {isPart : Char → Bool} {pattern : Pattern} {t : Text}
    {pieces : List Text} (h : Greedy (.one isPart :: pattern) t pieces) :
    ∃ c rest later, pieces = [c] :: later ∧ t = c :: rest ∧ isPart c = true ∧
      Greedy pattern rest later := by
  obtain ⟨piece, rest, later, rfl, rfl, hpiece, hlater⟩ := h.exists_of_cons
  obtain ⟨c, hc, rfl⟩ := PatternPart.fits_one.1 hpiece
  exact ⟨c, rest, later, rfl, rfl, hc, hlater⟩

/-! ## Lines of a stylesheet -/

namespace StyleLine

/-- A name, an equals sign and a value behind a mark. -/
def assignmentPattern (mark : Char) : Pattern :=
  [.one (· == mark), .many isNameBeforeEquals, .any Text.isBlank, .one (· == '='),
    .any Text.isBlank, .many (· != '\n')]

/-- A name and a value behind a colon, with white space between them. -/
def settingPattern : Pattern :=
  [.one (· == ':'), .many (!Text.isBlank ·), .many Text.isBlank, .many (· != '\n')]

/-- A name behind a colon. -/
def groupPattern : Pattern := [.one (· == ':'), .many (!Text.isBlank ·)]

/-- The patterns in the order in which they are tried. -/
def patterns : List Pattern :=
  [assignmentPattern '!', assignmentPattern ':', settingPattern, groupPattern]

/-- What a line without white space around it says, told by the first pattern that matches it. -/
inductive Reads : Text → StyleLine → Prop
  | blank : Reads [] .blank
  | constant {t mark name gap sign skipped value : Text}
      (h : Greedy (assignmentPattern '!') t [mark, name, gap, sign, skipped, value]) :
      Reads t (.constant name (dropQuotes (Text.trim value)))
  | computed {t mark name gap sign skipped value : Text}
      (first : ∀ earlier ∈ patterns.take 1, ¬ earlier.Matches t)
      (h : Greedy (assignmentPattern ':') t [mark, name, gap, sign, skipped, value]) :
      Reads t (.computed name (Text.trim value))
  | literal {t mark name gap value : Text}
      (first : ∀ earlier ∈ patterns.take 2, ¬ earlier.Matches t)
      (h : Greedy settingPattern t [mark, name, gap, value]) :
      Reads t (.literal name (Text.trim value))
  | group {t mark name : Text} (first : ∀ earlier ∈ patterns.take 3, ¬ earlier.Matches t)
      (h : Greedy groupPattern t [mark, name]) : Reads t (.group name)
  | comment {t : Text} (first : ∀ earlier ∈ patterns, ¬ earlier.Matches t)
      (h : ['/', '/'] <+: t) : Reads t .comment
  | rule {t : Text} (hne : t ≠ []) (first : ∀ earlier ∈ patterns, ¬ earlier.Matches t)
      (h : ¬ ['/', '/'] <+: t) : Reads t (.rule t)

/-! ### What the cuts find -/

section Cuts

variable {t : Text} {pieces : List Text}

/-- The value is what is left when white space is dropped. -/
lemma exists_of_greedy_value {part : PatternPart}
    (h : Greedy [part, .many (· != '\n')] t pieces) (hblank : part.isPart = Text.isBlank)
    (hmost : part.most = none) (hlast : ∀ c ∈ t.getLast?, Text.isBlank c = false) :
    ∃ skipped value, pieces = [skipped, value] ∧ t = skipped ++ value ∧ part.Fits skipped ∧
      Text.trimStart t = value ∧ isValue value = true ∧ Trimmed value := by
  obtain ⟨skipped, rest, later, rfl, rfl, hskipped, hlater⟩ := h.exists_of_cons
  obtain ⟨value, after, later, rfl, rfl, hvalue, hend⟩ := hlater.exists_of_cons
  cases hend
  rw [List.append_nil] at h hlast ⊢
  obtain ⟨hne, hline⟩ := PatternPart.fits_many.1 hvalue
  have hhead : ∀ c ∈ value.head?, Text.isBlank c = false := by
    have := h.head_of_last hmost (by rwa [hblank])
    rwa [hblank] at this
  refine ⟨skipped, value, rfl, rfl, hskipped, ?_, ?_, hhead, fun c hc => hlast c ?_⟩
  · exact trimStart_append (hblank ▸ hskipped.mem) hhead
  · have hbreak : '\n' ∉ value := fun hmem => by simpa using hline _ hmem
    simp [isValue, hne, hbreak]
  · exact List.mem_getLast?_append_of_mem_getLast? hc

lemma exists_of_greedy_assignment {mark : Char}
    (h : Greedy (assignmentPattern mark) t pieces)
    (hlast : ∀ c ∈ t.getLast?, Text.isBlank c = false) :
    ∃ name gap skipped value rest, pieces = [[mark], name, gap, ['='], skipped, value] ∧
      t = mark :: rest ∧ splitAssignment? rest = some (name, value) ∧ Trimmed value := by
  obtain ⟨c, rest, later, rfl, rfl, hc, hname⟩ := h.exists_of_one_cons
  obtain ⟨name, rest, later, rfl, rfl, hnamed, hgap⟩ := hname.exists_of_cons
  obtain ⟨gap, rest, later, rfl, rfl, hblank, hsign⟩ := hgap.exists_of_cons
  obtain ⟨sign, after, later, rfl, rfl, hequals, hvalue⟩ := hsign.exists_of_one_cons
  obtain rfl := beq_iff_eq.1 hc
  obtain rfl := beq_iff_eq.1 hequals
  have hafter : ∀ d ∈ after.getLast?, Text.isBlank d = false := fun d hd => hlast d <| by
    have hmem : d ∈ ((c :: (name ++ (gap ++ ['=']))) ++ after).getLast? :=
      List.mem_getLast?_append_of_mem_getLast? hd
    simpa using hmem
  obtain ⟨skipped, value, rfl, rfl, -, htrim, hisValue, htrimmed⟩ :=
    exists_of_greedy_value hvalue rfl rfl hafter
  refine ⟨name, gap, skipped, value, _, rfl, rfl, ?_, htrimmed⟩
  obtain ⟨hne, hplain⟩ := PatternPart.fits_many.1 hnamed
  have hfull : ∃ d ∈ skipped ++ value, Text.isBlank d = false := by
    cases value with
    | nil => cases hisValue
    | cons d value => exact ⟨d, by simp, htrimmed.first d rfl⟩
  let parts : Assignment := ⟨name, gap, skipped ++ value, hne, fun d hd => by
    simpa [isNameBeforeEquals] using hplain d hd, hblank.mem, hfull⟩
  have hcut := parts.splitAssignment?_of_isValue (htrim.symm ▸ hisValue)
  rwa [htrim] at hcut

lemma exists_of_greedy_setting (h : Greedy settingPattern t pieces)
    (hlast : ∀ c ∈ t.getLast?, Text.isBlank c = false) :
    ∃ name gap value rest, pieces = [[':'], name, gap, value] ∧ t = ':' :: rest ∧
      splitLiteral? rest = some (name, value) ∧ Trimmed value := by
  obtain ⟨c, rest, later, rfl, rfl, hc, hname⟩ := h.exists_of_one_cons
  obtain ⟨name, rest, later, rfl, rfl, hnamed, hvalue⟩ := hname.exists_of_cons
  obtain rfl := beq_iff_eq.1 hc
  have hrest : ∀ d ∈ rest.getLast?, Text.isBlank d = false := fun d hd => hlast d <| by
    have hmem : d ∈ ((':' :: name) ++ rest).getLast? :=
      List.mem_getLast?_append_of_mem_getLast? hd
    simpa using hmem
  obtain ⟨gap, value, rfl, rfl, hgap, -, hisValue, htrimmed⟩ :=
    exists_of_greedy_value hvalue rfl rfl hrest
  refine ⟨name, gap, value, _, rfl, rfl, ?_, htrimmed⟩
  obtain ⟨hne, hplain⟩ := PatternPart.fits_many.1 hnamed
  obtain ⟨hspaced, hblank⟩ := PatternPart.fits_many.1 hgap
  have hvalued : value ≠ [] := by
    rintro rfl
    cases hisValue
  let parts : Setting := ⟨name, gap, value, hne, fun d hd => by simpa using hplain d hd, hspaced,
    hblank, hvalued, htrimmed.first⟩
  exact parts.splitLiteral?_of_isValue hisValue

lemma exists_of_greedy_group (h : Greedy groupPattern t pieces) :
    ∃ name, pieces = [[':'], name] ∧ t = ':' :: name ∧ isName name = true := by
  obtain ⟨c, rest, later, rfl, rfl, hc, hname⟩ := h.exists_of_one_cons
  obtain ⟨name, rest, later, rfl, rfl, hnamed, hend⟩ := hname.exists_of_cons
  obtain rfl := beq_iff_eq.1 hc
  cases hend
  obtain ⟨hne, hplain⟩ := PatternPart.fits_many.1 hnamed
  exact ⟨name, rfl, by rw [List.append_nil], by simpa [isName, hne] using hplain⟩

lemma fits_of_isValue (h : isValue t = true) : (PatternPart.many (· != '\n')).Fits t := by
  simp only [isValue, Bool.and_eq_true, Bool.not_eq_true', List.isEmpty_eq_false_iff,
    List.contains_eq_mem, decide_eq_false_iff_not] at h
  refine PatternPart.fits_many.2 ⟨h.1, fun c hc => bne_iff_ne.2 ?_⟩
  rintro rfl
  exact h.2 hc

lemma matches_assignment {mark : Char} {cut : Text × Text} (h : splitAssignment? t = some cut) :
    (assignmentPattern mark).Matches (mark :: t) := by
  obtain ⟨a, rfl, -, hvalue⟩ := exists_assignment h
  refine ⟨[[mark], a.name, a.gap, ['='], a.after.takeWhile Text.isBlank, Text.trimStart a.after],
    ?_, ?_⟩
  · refine .cons ?_ (.cons ?_ (.cons ?_ (.cons ?_ (.cons ?_ (.cons ?_ .nil)))))
    · exact PatternPart.fits_one.2 ⟨mark, beq_self_eq_true mark, rfl⟩
    · exact PatternPart.fits_many.2 ⟨a.named, fun c hc => by
        simpa [isNameBeforeEquals] using a.plain c hc⟩
    · exact PatternPart.fits_any.2 a.blank
    · exact PatternPart.fits_one.2 ⟨'=', rfl, rfl⟩
    · exact PatternPart.fits_any.2 fun c hc => List.mem_takeWhile_imp hc
    · exact fits_of_isValue (hvalue ▸ isValue_of_splitAssignment? h)
  · simp [Assignment.written, Text.trimStart]

lemma matches_setting {cut : Text × Text} (h : splitLiteral? t = some cut) :
    settingPattern.Matches (':' :: t) := by
  obtain ⟨p, rfl, -, hvalue⟩ := exists_setting h
  refine ⟨[[':'], p.name, p.gap, p.value], ?_, by simp [Setting.written]⟩
  refine .cons ?_ (.cons ?_ (.cons ?_ (.cons ?_ .nil)))
  · exact PatternPart.fits_one.2 ⟨':', rfl, rfl⟩
  · exact PatternPart.fits_many.2 ⟨p.named, fun c hc => by simpa using p.plain c hc⟩
  · exact PatternPart.fits_many.2 ⟨p.spaced, p.blank⟩
  · exact fits_of_isValue (hvalue ▸ isValue_of_splitLiteral? h)

lemma matches_group (h : isName t = true) : groupPattern.Matches (':' :: t) := by
  simp only [isName, Bool.and_eq_true, Bool.not_eq_true', List.isEmpty_eq_false_iff,
    List.all_eq_true] at h
  refine ⟨[[':'], t], .cons ?_ (.cons ?_ .nil), by simp⟩
  · exact PatternPart.fits_one.2 ⟨':', rfl, rfl⟩
  · exact PatternPart.fits_many.2 ⟨h.1, fun c hc => by simpa using h.2 c hc⟩

/-- What is cut off a line comes from a match. -/
lemma exists_matches_of_some {kind : StyleLine}
    (h : (constant? t).or (attribute? t) = some kind) :
    ∃ pattern ∈ patterns, pattern.Matches t := by
  rcases Option.or_eq_some_iff.1 h with hconstant | ⟨-, hattribute⟩
  · rw [constant?.eq_def] at hconstant
    split at hconstant
    · obtain ⟨cut, hcut, -⟩ := Option.map_eq_some_iff.1 hconstant
      exact ⟨_, by simp [patterns], matches_assignment hcut⟩
    · cases hconstant
  · rw [attribute?.eq_def] at hattribute
    split at hattribute
    · split at hattribute
      · rename_i hcut
        exact ⟨_, by simp [patterns], matches_assignment hcut⟩
      · split at hattribute
        · rename_i hcut
          exact ⟨_, by simp [patterns], matches_setting hcut⟩
        · split_ifs at hattribute with hname
          exact ⟨_, by simp [patterns], matches_group hname⟩
    · cases hattribute

lemma splitAssignment?_eq_none (h : ¬ (assignmentPattern ':').Matches (':' :: t)) :
    splitAssignment? t = none :=
  Option.eq_none_iff_forall_ne_some.2 fun _ hcut => h (matches_assignment hcut)

lemma splitLiteral?_eq_none (h : ¬ settingPattern.Matches (':' :: t)) : splitLiteral? t = none :=
  Option.eq_none_iff_forall_ne_some.2 fun _ hcut => h (matches_setting hcut)

end Cuts

/-! ### What a line says -/

lemma exists_reads {t : Text} (hlast : ∀ c ∈ t.getLast?, Text.isBlank c = false) :
    ∃ kind, Reads t kind := by
  rcases eq_or_ne t [] with rfl | hne
  · exact ⟨_, .blank⟩
  by_cases hconstant : (assignmentPattern '!').Matches t
  · obtain ⟨pieces, hgreedy⟩ := hconstant.exists_greedy
    obtain ⟨name, gap, skipped, value, rest, rfl, -⟩ := exists_of_greedy_assignment hgreedy hlast
    exact ⟨_, .constant hgreedy⟩
  by_cases hcomputed : (assignmentPattern ':').Matches t
  · obtain ⟨pieces, hgreedy⟩ := hcomputed.exists_greedy
    obtain ⟨name, gap, skipped, value, rest, rfl, -⟩ := exists_of_greedy_assignment hgreedy hlast
    exact ⟨_, .computed (by simpa [patterns] using hconstant) hgreedy⟩
  by_cases hliteral : settingPattern.Matches t
  · obtain ⟨pieces, hgreedy⟩ := hliteral.exists_greedy
    obtain ⟨name, gap, value, rest, rfl, -⟩ := exists_of_greedy_setting hgreedy hlast
    exact ⟨_, .literal (by simpa [patterns] using ⟨hconstant, hcomputed⟩) hgreedy⟩
  by_cases hgroup : groupPattern.Matches t
  · obtain ⟨pieces, hgreedy⟩ := hgroup.exists_greedy
    obtain ⟨name, rfl, -⟩ := exists_of_greedy_group hgreedy
    exact ⟨_, .group (by simpa [patterns] using ⟨hconstant, hcomputed, hliteral⟩) hgreedy⟩
  have hfirst : ∀ earlier ∈ patterns, ¬ earlier.Matches t := by
    simpa [patterns] using ⟨hconstant, hcomputed, hliteral, hgroup⟩
  by_cases hremark : ['/', '/'] <+: t
  · exact ⟨_, .comment hfirst hremark⟩
  · exact ⟨_, .rule hne hfirst hremark⟩

lemma startsWith_remark_iff {t : Text} : Text.startsWith "//" t = true ↔ ['/', '/'] <+: t := by
  rw [Text.startsWith, Option.isSome_iff_exists]
  constructor
  · rintro ⟨rest, hrest⟩
    exact ⟨rest, (eq_append_of_dropPrefix? hrest).symm⟩
  · rintro ⟨rest, rfl⟩
    exact ⟨rest, dropPrefix?_append _ rest⟩

lemma Reads.ofText_eq {line t : Text} {kind : StyleLine} (h : Reads t kind)
    (ht : Text.trim line = t) : ofText line = kind := by
  have hlast : ∀ c ∈ t.getLast?, Text.isBlank c = false := ht ▸ (trimmed_trim line).last
  have hnone : (∀ earlier ∈ patterns, ¬ earlier.Matches t) →
      (constant? t).or (attribute? t) = none := by
    intro hfirst
    refine Option.eq_none_iff_forall_ne_some.2 fun kind hkind => ?_
    obtain ⟨pattern, hmem, hmatches⟩ := exists_matches_of_some hkind
    exact hfirst pattern hmem hmatches
  cases h with
  | blank => simp [ofText, ht]
  | constant hgreedy =>
      obtain ⟨name, gap, skipped, value, rest, hpieces, rfl, hcut, htrimmed⟩ :=
        exists_of_greedy_assignment hgreedy hlast
      cases hpieces
      refine Form.ofText_of_some ht (List.cons_ne_nil _ _) ?_
      simp [constant?, hcut, htrimmed.trim_eq]
  | computed first hgreedy =>
      obtain ⟨name, gap, skipped, value, rest, hpieces, rfl, hcut, htrimmed⟩ :=
        exists_of_greedy_assignment hgreedy hlast
      cases hpieces
      refine Form.ofText_of_attribute? ht ?_
      simp [attribute?, hcut, htrimmed.trim_eq]
  | literal first hgreedy =>
      obtain ⟨name, gap, value, rest, hpieces, rfl, hcut, htrimmed⟩ :=
        exists_of_greedy_setting hgreedy hlast
      cases hpieces
      have hassign := splitAssignment?_eq_none (first _ (by simp [patterns]))
      refine Form.ofText_of_attribute? ht ?_
      simp [attribute?, hassign, hcut, htrimmed.trim_eq]
  | group first hgreedy =>
      obtain ⟨name, hpieces, rfl, hname⟩ := exists_of_greedy_group hgreedy
      cases hpieces
      have hassign := splitAssignment?_eq_none (first _ (by simp [patterns]))
      have hsetting := splitLiteral?_eq_none (first _ (by simp [patterns]))
      refine Form.ofText_of_attribute? ht ?_
      simp [attribute?, hassign, hsetting, hname]
  | comment first hremark =>
      have hne : t ≠ [] := by
        rintro rfl
        simp at hremark
      rw [Form.ofText_of_none ht hne (hnone first), if_pos (startsWith_remark_iff.2 hremark)]
  | rule hne first hremark =>
      rw [Form.ofText_of_none ht hne (hnone first),
        if_neg fun hstart => hremark (startsWith_remark_iff.1 hstart)]

/-- **A line says what the first pattern that matches it tells.**  The cuts find the greedy
match. -/
theorem reads_trim_iff {line : Text} {kind : StyleLine} :
    Reads (Text.trim line) kind ↔ ofText line = kind := by
  constructor
  · intro h
    exact h.ofText_eq rfl
  · rintro rfl
    obtain ⟨kind, hkind⟩ := exists_reads (trimmed_trim line).last
    rwa [hkind.ofText_eq rfl]

end StyleLine

/-! ## Heads of elements -/

namespace HeadToken

/-- The kinds of tokens. -/
inductive Kind where
  | tag
  | id
  | className
  | object
  | target
  | expression
  | translate
  | selfClose

namespace Kind

/-- The character that a token begins with. -/
def mark : Kind → Char
  | tag => '%'
  | id => '#'
  | className => '.'
  | object => '['
  | target => '@'
  | expression => '='
  | translate => '$'
  | selfClose => '/'

/-- What follows this character. -/
def body : Kind → Pattern
  | tag => [.many isTagChar]
  | id => [.many isNameChar]
  | className => [.many isNameChar]
  | object => [.any (· != ']'), .one (· == ']')]
  | target => [.any (· != '\n')]
  | expression => []
  | translate => []
  | selfClose => []

/-- The pattern of a token. -/
def pattern (kind : Kind) : Pattern := .one (· == kind.mark) :: kind.body

/-- The token that is made from a text that matches the pattern. -/
def token : Kind → Text → HeadToken
  | tag, t => .tag t.tail
  | id, t => .id t.tail
  | className, t => .className t.tail
  | object, t => .object (Text.trim t.tail.dropLast)
  | target, t => .target t.tail
  | expression, _ => .expression
  | translate, _ => .translate
  | selfClose, _ => .selfClose

/-- The text can be continued to a match. -/
def Begins (kind : Kind) (t : Text) : Prop := ∃ more, kind.pattern.Matches (t ++ more)

end Kind

/-- The tokens of a text, each as long as any pattern allows.  Where no pattern matches, the longest
text that can begin a match is passed over, and at least one character. -/
inductive Lexes : Text → List HeadToken → Prop
  | nil : Lexes [] []
  | token {kind : Kind} {matched rest : Text} {later : List HeadToken}
      (fits : kind.pattern.Matches matched)
      (longest : ∀ (other : Kind) (front : Text), front <+: matched ++ rest →
        other.pattern.Matches front → front.length ≤ matched.length)
      (lexes : Lexes rest later) : Lexes (matched ++ rest) (kind.token matched :: later)
  | passed {c : Char} {ignored rest : Text} {later : List HeadToken}
      (unmatched : ∀ (kind : Kind) (front : Text), front <+: c :: (ignored ++ rest) →
        ¬ kind.pattern.Matches front)
      (begins : ignored = [] ∨ ∃ kind : Kind, kind.Begins (c :: ignored))
      (longest : ∀ (kind : Kind) (front : Text), front <+: c :: (ignored ++ rest) →
        kind.Begins front → front.length ≤ (c :: ignored).length)
      (lexes : Lexes rest later) : Lexes (c :: (ignored ++ rest)) later

namespace Kind

variable {kind other : Kind} {t rest : Text}

lemma mark_injective : Function.Injective mark := by
  intro kind other h
  cases kind <;> cases other <;> first | rfl | exact absurd h (by decide)

lemma matches_pattern : kind.pattern.Matches t ↔
    ∃ after, kind.body.Matches after ∧ kind.mark :: after = t := by
  rw [pattern, Pattern.matches_one_cons]
  simp

lemma matches_pattern_cons {after : Text} :
    kind.pattern.Matches (kind.mark :: after) ↔ kind.body.Matches after := by
  simp [matches_pattern]

lemma eq_mark_of_begins {c : Char} (h : kind.Begins (c :: t)) : kind.mark = c := by
  obtain ⟨more, hmore⟩ := h
  obtain ⟨after, -, hafter⟩ := matches_pattern.1 hmore
  exact (List.cons.inj hafter).1

lemma begins_cons {after : Text} :
    kind.Begins (kind.mark :: after) ↔ ∃ more, kind.body.Matches (after ++ more) := by
  simp only [Begins, List.cons_append, matches_pattern_cons]

/-- The longest text of a part without a bound ends where its characters end. -/
lemma head_of_longest {part : PatternPart} {piece : Text} (h : part.Fits piece)
    (hmost : part.most = none) (longest : ∀ front, front <+: piece ++ rest →
      Pattern.Matches [part] front → front.length ≤ piece.length) :
    ∀ c ∈ rest.head?, part.isPart c = false := by
  intro c hc
  obtain ⟨after, rfl⟩ : ∃ after, rest = c :: after := List.head?_eq_some_iff.1 hc
  rw [← Bool.not_eq_true]
  intro hpart
  have hlength := longest (piece ++ [c]) ⟨after, by simp⟩
    (Pattern.matches_singleton.2 (h.concat hmost hpart))
  simp at hlength

lemma read_eq_some {after : Text} (h : kind.body.Matches after)
    (longest : ∀ front, front <+: after ++ rest → kind.body.Matches front →
      front.length ≤ after.length) :
    read kind.mark (after ++ rest) = (some (kind.token (kind.mark :: after)), rest) := by
  have hname : ∀ {make isPart}, Pattern.Matches [.many isPart] after →
      (∀ front, front <+: after ++ rest → Pattern.Matches [.many isPart] front →
        front.length ≤ after.length) →
      ofName make isPart (after ++ rest) = (some (make after), rest) := by
    intro make isPart h longest
    have hfits := Pattern.matches_singleton.1 h
    obtain ⟨hne, hmem⟩ := PatternPart.fits_many.1 hfits
    exact ofName_append hne hmem (head_of_longest hfits rfl longest)
  cases kind with
  | tag => exact hname h longest
  | id => exact hname h longest
  | className => exact hname h longest
  | object =>
      obtain ⟨code, close, hcode, hclose, rfl⟩ := Pattern.matches_cons.1 h
      obtain ⟨c, hc, rfl⟩ := PatternPart.fits_one.1 (Pattern.matches_singleton.1 hclose)
      obtain rfl := beq_iff_eq.1 hc
      have hopen : ']' ∉ code := fun hmem => by simpa using PatternPart.fits_any.1 hcode _ hmem
      have hcut := splitOnce?_append hopen rest
      simp [read, mark, token, hcut]
  | target =>
      have hfits := Pattern.matches_singleton.1 h
      have hspan := span_append (PatternPart.fits_any.1 hfits) (head_of_longest hfits rfl longest)
      rw [List.span_eq_takeWhile_dropWhile] at hspan
      obtain ⟨htake, hdrop⟩ := Prod.mk.inj hspan
      simp [read, mark, token, htake, hdrop]
  | expression =>
      obtain rfl := Pattern.matches_nil.1 h
      rfl
  | translate =>
      obtain rfl := Pattern.matches_nil.1 h
      rfl
  | selfClose =>
      obtain rfl := Pattern.matches_nil.1 h
      rfl

/-- What is passed over behind a mark without a match: all that can begin one. -/
structure PassedOver (kind : Kind) (after ignored rest : Text) : Prop where
  eq_append : after = ignored ++ rest
  read_eq : read kind.mark after = (none, rest)
  begins : kind.Begins (kind.mark :: ignored)
  longest : ∀ front, front <+: after → kind.Begins (kind.mark :: front) →
    front.length ≤ ignored.length

/-- Without a name only its mark is passed over. -/
lemma passedOver_name {make : Text → HeadToken} {isPart : Char → Bool} {after : Text}
    (hbody : kind.body = [.many isPart]) (hread : ∀ t, read kind.mark t = ofName make isPart t)
    (hletter : isPart 'a' = true) (h : ∀ front, front <+: after → ¬ kind.body.Matches front) :
    PassedOver kind after [] after := by
  simp only [hbody, Pattern.matches_singleton, PatternPart.fits_many] at h
  have hhead : ∀ c ∈ after.head?, isPart c = false := by
    intro c hc
    obtain ⟨later, rfl⟩ : ∃ later, after = c :: later := List.head?_eq_some_iff.1 hc
    rw [← Bool.not_eq_true]
    exact fun hpart => h [c] ⟨later, rfl⟩ ⟨by simp, by simpa using hpart⟩
  refine ⟨rfl, ?_, begins_cons.2 ⟨['a'], ?_⟩, fun front hfront hbegins => ?_⟩
  · have hspan := @span_append isPart [] after (by simp) hhead
    rw [List.nil_append, List.span_eq_takeWhile_dropWhile] at hspan
    rw [hread, ofName, (Prod.mk.inj hspan).1]
    rfl
  · rw [hbody, Pattern.matches_singleton, PatternPart.fits_many]
    exact ⟨by simp, by simpa using hletter⟩
  · obtain ⟨more, hmore⟩ := begins_cons.1 hbegins
    rw [hbody, Pattern.matches_singleton, PatternPart.fits_many] at hmore
    cases front with
    | nil => exact le_rfl
    | cons c front =>
        obtain ⟨later, rfl⟩ := hfront
        have hc := hhead c rfl
        rw [hmore.2 c (by simp)] at hc
        cases hc

/-- A bracket that is not closed takes everything with it. -/
lemma passedOver_object {after : Text}
    (h : ∀ front, front <+: after → ¬ object.body.Matches front) :
    PassedOver object after after [] := by
  have hmatches : ∀ code : Text, ']' ∉ code → object.body.Matches (code ++ [']']) := by
    intro code hcode
    refine Pattern.matches_cons.2 ⟨code, [']'], PatternPart.fits_any.2 fun c hc => ?_, ?_, rfl⟩
    · exact bne_iff_ne.2 fun hclose => hcode (hclose ▸ hc)
    · exact Pattern.matches_singleton.2 (PatternPart.fits_one.2 ⟨']', rfl, rfl⟩)
  have hopen : ']' ∉ after := by
    intro hmem
    obtain ⟨code, rest, rfl, hcode⟩ := List.eq_append_cons_of_mem hmem
    exact h (code ++ [']']) ⟨rest, by simp⟩ (hmatches code hcode)
  have hnone : Text.splitOnce? ']' after = none := by
    refine Option.eq_none_iff_forall_ne_some.2 fun cut hcut => hopen ?_
    rw [eq_append_of_splitOnce? hcut]
    simp
  refine ⟨(List.append_nil _).symm, ?_, begins_cons.2 ⟨[']'], hmatches after hopen⟩,
    fun front hfront _ => hfront.length_le⟩
  simp [read, mark, hnone]

lemma exists_passedOver {after : Text}
    (h : ∀ front, front <+: after → ¬ kind.body.Matches front) :
    ∃ ignored rest, PassedOver kind after ignored rest := by
  cases kind with
  | tag => exact ⟨_, _, passedOver_name rfl (fun _ => rfl) rfl h⟩
  | id => exact ⟨_, _, passedOver_name rfl (fun _ => rfl) rfl h⟩
  | className => exact ⟨_, _, passedOver_name rfl (fun _ => rfl) rfl h⟩
  | object => exact ⟨_, _, passedOver_object h⟩
  | target =>
      have hempty : target.body.Matches [] :=
        Pattern.matches_singleton.2 (PatternPart.fits_any.2 fun c hc => by cases hc)
      exact absurd hempty (h [] List.nil_prefix)
  | expression => exact absurd (Pattern.matches_nil.2 rfl) (h [] List.nil_prefix)
  | translate => exact absurd (Pattern.matches_nil.2 rfl) (h [] List.nil_prefix)
  | selfClose => exact absurd (Pattern.matches_nil.2 rfl) (h [] List.nil_prefix)

end Kind

lemma read_of_ne_mark {c : Char} (h : ∀ kind : Kind, kind.mark ≠ c) (rest : Text) :
    read c rest = (none, rest) := by
  have hne : ∀ kind : Kind, (c == kind.mark) = false := fun kind => beq_false_of_ne (h kind).symm
  simp only [read, show (c == '%') = false from hne .tag, show (c == '#') = false from hne .id,
    show (c == '.') = false from hne .className, show (c == '[') = false from hne .object,
    show (c == '@') = false from hne .target, show (c == '=') = false from hne .expression,
    show (c == '$') = false from hne .translate, show (c == '/') = false from hne .selfClose,
    Bool.false_eq_true, if_false]

lemma Lexes.tokens_eq {head : Text} {found : List HeadToken} (h : Lexes head found) :
    tokens head = found := by
  induction h with
  | nil => rw [tokens]
  | @token kind matched rest later fits longest _ ih =>
      obtain ⟨after, hafter, rfl⟩ := Kind.matches_pattern.1 fits
      have hread := @Kind.read_eq_some kind rest after hafter fun front hfront hmatches => by
        have hlength := longest kind (kind.mark :: front) ((List.prefix_cons_inj _).2 hfront)
          (Kind.matches_pattern_cons.2 hmatches)
        simpa using hlength
      rw [List.cons_append, tokens_cons, hread, ih]
      rfl
  | @passed c ignored rest later unmatched begins longest _ ih =>
      rw [tokens_cons, ← ih]
      by_cases hmark : ∃ kind : Kind, kind.mark = c
      · obtain ⟨kind, rfl⟩ := hmark
        obtain ⟨others, left, hpassed⟩ := @Kind.exists_passedOver kind (ignored ++ rest)
          fun front hfront hmatches => unmatched kind (kind.mark :: front)
            ((List.prefix_cons_inj _).2 hfront) (Kind.matches_pattern_cons.2 hmatches)
        have hle : others.length ≤ ignored.length := by
          have hlength := longest kind (kind.mark :: others)
            ((List.prefix_cons_inj _).2 ⟨left, hpassed.eq_append.symm⟩) hpassed.begins
          simpa using hlength
        have hge : ignored.length ≤ others.length := by
          rcases begins with rfl | ⟨other, hbegins⟩
          · exact Nat.zero_le _
          · obtain rfl := Kind.mark_injective (Kind.eq_mark_of_begins hbegins)
            exact hpassed.longest ignored (List.prefix_append _ _) hbegins
        obtain ⟨-, rfl⟩ := List.append_inj hpassed.eq_append (le_antisymm hge hle)
        rw [hpassed.read_eq]
        rfl
      · push Not at hmark
        rcases begins with rfl | ⟨kind, hbegins⟩
        · rw [read_of_ne_mark hmark]
          rfl
        · exact absurd (Kind.eq_mark_of_begins hbegins) (hmark kind)

/-- There is a longest text that can begin a match, or nothing but one character to pass over. -/
lemma exists_passed (c : Char) (t : Text) : ∃ ignored rest, t = ignored ++ rest ∧
    (ignored = [] ∨ ∃ kind : Kind, kind.Begins (c :: ignored)) ∧
    ∀ (kind : Kind) (front : Text), front <+: c :: t → kind.Begins front →
      front.length ≤ (c :: ignored).length := by
  obtain ⟨passed, ⟨rest, hrest⟩, hbegins, hlongest⟩ := exists_longest_beginning
    (P := fun front => front = [c] ∨ ∃ kind : Kind, kind.Begins front)
    (List.prefix_append [c] t) (.inl rfl)
  have hsome := hlongest [c] (List.prefix_append [c] t) (.inl rfl)
  cases passed with
  | nil => simp at hsome
  | cons d ignored =>
      obtain ⟨rfl, rfl⟩ := List.cons.inj hrest
      exact ⟨ignored, rest, rfl, hbegins.imp_left fun hone => (List.cons.inj hone).2,
        fun kind front hfront hkind => hlongest front hfront (.inr ⟨kind, hkind⟩)⟩

lemma exists_lexes (head : Text) : ∃ found, Lexes head found := by
  induction hlength : head.length using Nat.strong_induction_on generalizing head with
  | _ n ih =>
  subst hlength
  cases head with
  | nil => exact ⟨[], .nil⟩
  | cons c t =>
      by_cases hmatch : ∃ front, front <+: c :: t ∧ ∃ kind : Kind, kind.pattern.Matches front
      · obtain ⟨front, hfront, hfits⟩ := hmatch
        obtain ⟨matched, ⟨rest, hrest⟩, ⟨kind, hkind⟩, hlongest⟩ :=
          exists_longest_beginning (P := fun front => ∃ kind : Kind, kind.pattern.Matches front)
            hfront hfits
        rw [← hrest] at ih hlongest ⊢
        have hshort : rest.length < (matched ++ rest).length := by
          obtain ⟨after, -, rfl⟩ := Kind.matches_pattern.1 hkind
          simp
        obtain ⟨later, hlater⟩ := ih _ hshort rest rfl
        exact ⟨_, .token hkind (fun other front hfront hother =>
          hlongest front hfront ⟨other, hother⟩) hlater⟩
      · push Not at hmatch
        obtain ⟨ignored, rest, rfl, hbegins, hlongest⟩ := exists_passed c t
        have hshort : rest.length < (c :: (ignored ++ rest)).length := by simp
        obtain ⟨later, hlater⟩ := ih _ hshort rest rfl
        exact ⟨later, .passed (fun kind front hfront => hmatch front hfront kind) hbegins
          hlongest hlater⟩

/-- **The tokens of a head are the longest matches from left to right.** -/
theorem lexes_iff {head : Text} {found : List HeadToken} :
    Lexes head found ↔ tokens head = found := by
  constructor
  · exact Lexes.tokens_eq
  · rintro rfl
    obtain ⟨found, hfound⟩ := exists_lexes head
    rwa [hfound.tokens_eq]

end HeadToken

end Offside
