import Mathlib
import Offside.Proofs.Text
import Offside.Stylesheet.Line

/-!
# The forms of a stylesheet line

Which kind a line is of is read off its characters by cutting it: where a name ends, where white
space ends, behind an equals sign.  Here the kinds are given by how such a line is written.  A form
(`Form`) has the parts of the line with what is asked of them, and `Form.written` puts them
together.

**A form has one line, and a line has at most one form of each kind.**  A name ends at the first
character that it cannot hold, so the parts can be told from the line
(`Assignment.written_injective`, `Setting.written_injective`).

**A line is of the first kind that it has a form of.**  Every form is either what the line is
taken for, or the line has a form of an earlier kind (`Form.ofText_eq_or`); the kinds are in the
order of `Form.rank`.
-/

namespace Offside

lemma span_append {p : Char → Bool} {front back : Text} (hfront : ∀ c ∈ front, p c = true)
    (hback : ∀ c ∈ back.head?, p c = false) : (front ++ back).span p = (front, back) := by
  have hstop : back.takeWhile p = [] ∧ back.dropWhile p = back := by
    cases back with
    | nil => simp
    | cons c cs => simp [hback c rfl]
  rw [List.span_eq_takeWhile_dropWhile, List.takeWhile_append_of_pos hfront,
    List.dropWhile_append_of_pos hfront, hstop.1, hstop.2, List.append_nil]

lemma trimStart_append {front back : Text} (hfront : ∀ c ∈ front, Text.isBlank c = true)
    (hback : ∀ c ∈ back.head?, Text.isBlank c = false) : Text.trimStart (front ++ back) = back := by
  rw [Text.trimStart, List.dropWhile_append_of_pos hfront]
  exact trimStart_eq_self hback

/-- White space has to be dropped only at the beginning if none is at the end. -/
lemma trim_eq_trimStart {t : Text} (h : ∀ c ∈ t.getLast?, Text.isBlank c = false) :
    Text.trim t = Text.trimStart t := by
  refine trimEnd_eq_self fun c hc => h c ?_
  obtain ⟨blanks, hblanks⟩ : Text.trimStart t <:+ t := List.dropWhile_suffix _
  rw [← hblanks]
  exact List.mem_getLast?_append_of_mem_getLast? hc

namespace StyleLine

/-! ## Assignments -/

/-- The parts of `name = after`: a name without white space and equals signs, white space or none,
and a text that is not blank. -/
@[ext]
structure Assignment where
  name : Text
  gap : Text
  after : Text
  named : name ≠ []
  plain : ∀ c ∈ name, Text.isBlank c = false ∧ c ≠ '='
  blank : ∀ c ∈ gap, Text.isBlank c = true
  full : ∃ c ∈ after, Text.isBlank c = false

namespace Assignment

variable (a : Assignment)

/-- The parts put together. -/
def written : Text := a.name ++ (a.gap ++ '=' :: a.after)

lemma span_written : a.written.span isNameBeforeEquals = (a.name, a.gap ++ '=' :: a.after) := by
  refine span_append (fun c hc => ?_) fun c hc => ?_
  · simpa [isNameBeforeEquals] using a.plain c hc
  · cases hgap : a.gap with
    | nil =>
        obtain rfl : '=' = c := by simpa [hgap] using hc
        rfl
    | cons d ds =>
        obtain rfl : d = c := by simpa [hgap] using hc
        have hd := a.blank d (by simp [hgap])
        simp [isNameBeforeEquals, hd]

lemma trimStart_gap : Text.trimStart (a.gap ++ '=' :: a.after) = '=' :: a.after :=
  trimStart_append a.blank fun c hc => by
    obtain rfl : '=' = c := by simpa using hc
    rfl

lemma written_injective : Function.Injective written := by
  intro a b hab
  have hspan : (a.name, a.gap ++ '=' :: a.after) = (b.name, b.gap ++ '=' :: b.after) := by
    rw [← span_written, ← span_written, hab]
  obtain ⟨hname, hrest⟩ := Prod.mk.inj hspan
  have hafter : '=' :: a.after = '=' :: b.after := by
    rw [← trimStart_gap a, hrest, trimStart_gap b]
  rw [hafter] at hrest
  exact Assignment.ext hname (List.append_cancel_right hrest) (List.cons.inj hafter).2

lemma splitAssignment?_of_isValue (h : isValue (Text.trimStart a.after) = true) :
    splitAssignment? a.written = some (a.name, Text.trimStart a.after) := by
  have hnamed : a.name.isEmpty = false := by simpa using a.named
  simp only [splitAssignment?, span_written, trimStart_gap, hnamed, h]
  rfl

lemma splitAssignment?_written (h : '\n' ∉ a.written) :
    splitAssignment? a.written = some (a.name, Text.trimStart a.after) := by
  obtain ⟨c, hc, hsolid⟩ := a.full
  have hne : Text.trimStart a.after ≠ [] := by
    intro hnil
    have hblank := List.dropWhile_eq_nil_iff.1 hnil c hc
    simp [hsolid] at hblank
  have hline : '\n' ∉ Text.trimStart a.after := by
    intro hmem
    refine h ?_
    simp [written, (List.dropWhile_suffix _).subset hmem]
  exact a.splitAssignment?_of_isValue (by simp [isValue, hne, hline])

end Assignment

lemma exists_assignment {t name value : Text} (h : splitAssignment? t = some (name, value)) :
    ∃ a : Assignment, a.written = t ∧ a.name = name ∧ Text.trimStart a.after = value := by
  simp only [splitAssignment?, List.span_eq_takeWhile_dropWhile] at h
  split at h
  · rename_i after hafter
    split_ifs at h with hparts
    simp only [Bool.and_eq_true, Bool.not_eq_true', List.isEmpty_eq_false_iff, isValue] at hparts
    obtain ⟨rfl, rfl⟩ := Prod.mk.inj (Option.some.inj h)
    have hfull : ∃ c ∈ after, Text.isBlank c = false := by
      by_contra hblank
      push Not at hblank
      refine hparts.2.1 (List.dropWhile_eq_nil_iff.2 fun c hc => ?_)
      simpa using hblank c hc
    refine ⟨⟨t.takeWhile isNameBeforeEquals,
      (t.dropWhile isNameBeforeEquals).takeWhile Text.isBlank, after, hparts.1, ?_,
      fun c hc => List.mem_takeWhile_imp hc, hfull⟩, ?_, rfl, rfl⟩
    · intro c hc
      simpa [isNameBeforeEquals] using List.mem_takeWhile_imp hc
    · rw [Assignment.written, ← hafter]
      simp only [Text.trimStart, List.takeWhile_append_dropWhile]
  · cases h

lemma isValue_of_splitAssignment? {t name value : Text}
    (h : splitAssignment? t = some (name, value)) : isValue value = true := by
  simp only [splitAssignment?] at h
  split at h
  · split_ifs at h with hparts
    obtain ⟨-, rfl⟩ := Prod.mk.inj (Option.some.inj h)
    exact (Bool.and_eq_true_iff.1 hparts).2
  · cases h

/-! ## Settings -/

/-- The parts of `name value`: a name without white space, white space, and a value. -/
@[ext]
structure Setting where
  name : Text
  gap : Text
  value : Text
  named : name ≠ []
  plain : ∀ c ∈ name, Text.isBlank c = false
  spaced : gap ≠ []
  blank : ∀ c ∈ gap, Text.isBlank c = true
  valued : value ≠ []
  solid : ∀ c ∈ value.head?, Text.isBlank c = false

namespace Setting

variable (p : Setting)

/-- The parts put together. -/
def written : Text := p.name ++ (p.gap ++ p.value)

lemma span_written :
    (p.written.span fun c => !Text.isBlank c) = (p.name, p.gap ++ p.value) := by
  refine span_append (fun c hc => by simp [p.plain c hc]) fun c hc => ?_
  rw [List.head?_append_of_ne_nil _ p.spaced] at hc
  simp [p.blank c (List.mem_of_mem_head? hc)]

lemma trimStart_gap : Text.trimStart (p.gap ++ p.value) = p.value :=
  trimStart_append p.blank p.solid

lemma written_injective : Function.Injective written := by
  intro p q hpq
  have hspan : (p.name, p.gap ++ p.value) = (q.name, q.gap ++ q.value) := by
    rw [← span_written, ← span_written, hpq]
  obtain ⟨hname, hrest⟩ := Prod.mk.inj hspan
  have hvalue : p.value = q.value := by
    rw [← trimStart_gap p, hrest, trimStart_gap q]
  rw [hvalue] at hrest
  exact Setting.ext hname (List.append_cancel_right hrest) hvalue

lemma splitLiteral?_of_isValue (h : isValue p.value = true) :
    splitLiteral? p.written = some (p.name, p.value) := by
  have hnamed : p.name.isEmpty = false := by simpa using p.named
  simp only [splitLiteral?, span_written, trimStart_gap, hnamed, h]
  rfl

lemma splitLiteral?_written (h : '\n' ∉ p.written) :
    splitLiteral? p.written = some (p.name, p.value) := by
  have hline : '\n' ∉ p.value := by
    intro hmem
    exact h (by simp [written, hmem])
  exact p.splitLiteral?_of_isValue (by simp [isValue, p.valued, hline])

end Setting

lemma exists_setting {t name value : Text} (h : splitLiteral? t = some (name, value)) :
    ∃ p : Setting, p.written = t ∧ p.name = name ∧ p.value = value := by
  simp only [splitLiteral?, List.span_eq_takeWhile_dropWhile] at h
  split_ifs at h with hparts
  simp only [Bool.and_eq_true, Bool.not_eq_true', List.isEmpty_eq_false_iff, isValue] at hparts
  obtain ⟨rfl, rfl⟩ := Prod.mk.inj (Option.some.inj h)
  have hspaced : (t.dropWhile fun c => !Text.isBlank c).takeWhile Text.isBlank ≠ [] := by
    have hfirst := List.head?_dropWhile_not (fun c => !Text.isBlank c) t
    cases hrest : t.dropWhile fun c => !Text.isBlank c with
    | nil => simp [hrest, Text.trimStart] at hparts
    | cons c cs =>
        rw [hrest] at hfirst
        have hc : Text.isBlank c = true := by simpa using hfirst
        simp [hc]
  refine ⟨⟨_, _, _, hparts.1, ?_, hspaced, fun c hc => List.mem_takeWhile_imp hc, hparts.2.1, ?_⟩,
    ?_, rfl, rfl⟩
  · intro c hc
    simpa using List.mem_takeWhile_imp hc
  · intro c hc
    have hsolid := List.head?_dropWhile_not Text.isBlank (t.dropWhile fun c => !Text.isBlank c)
    rw [Text.trimStart] at hc
    rwa [Option.mem_def.1 hc] at hsolid
  · simp only [Setting.written, Text.trimStart, List.takeWhile_append_dropWhile]

lemma isValue_of_splitLiteral? {t name value : Text}
    (h : splitLiteral? t = some (name, value)) : isValue value = true := by
  simp only [splitLiteral?] at h
  split_ifs at h with hparts
  obtain ⟨-, rfl⟩ := Prod.mk.inj (Option.some.inj h)
  exact (Bool.and_eq_true_iff.1 hparts).2

/-! ## Quotes -/

/-- A value without the quotes around it: one is taken off the beginning and then one off the end,
where there are any. -/
def Unquoted (t value : Text) : Prop :=
  ∃ front back : Text, t = front ++ (value ++ back) ∧
    (front = ['"'] ∨ front = [] ∧ t.head? ≠ some '"') ∧
    (back = ['"'] ∨ back = [] ∧ value.getLast? ≠ some '"')

lemma dropPrefix?_quote_eq_none {t : Text} (h : t.head? ≠ some '"') :
    Text.dropPrefix? ['"'] t = none := by
  cases hdrop : Text.dropPrefix? ['"'] t with
  | none => rfl
  | some rest =>
      rw [eq_append_of_dropPrefix? hdrop] at h
      exact absurd rfl h

lemma dropSuffix?_concat (t : Text) (c : Char) : Text.dropSuffix? [c] (t ++ [c]) = some t := by
  rw [Text.dropSuffix?, List.reverse_append, dropPrefix?_append, Option.map_some,
    List.reverse_reverse]

lemma dropSuffix?_quote_eq_none {t : Text} (h : t.getLast? ≠ some '"') :
    Text.dropSuffix? ['"'] t = none := by
  rw [Text.dropSuffix?, List.reverse_singleton, dropPrefix?_quote_eq_none, Option.map_none]
  rwa [List.head?_reverse]

lemma Unquoted.dropQuotes_eq {t value : Text} (h : Unquoted t value) : dropQuotes t = value := by
  obtain ⟨front, back, ht, hfront, hback⟩ := h
  have hrest : (Text.dropPrefix? ['"'] t).getD t = value ++ back := by
    rcases hfront with rfl | ⟨rfl, hhead⟩
    · rw [ht, dropPrefix?_append, Option.getD_some]
    · rw [dropPrefix?_quote_eq_none hhead, Option.getD_none, ht, List.nil_append]
  show (Text.dropSuffix? ['"'] ((Text.dropPrefix? ['"'] t).getD t)).getD
    ((Text.dropPrefix? ['"'] t).getD t) = value
  rw [hrest]
  rcases hback with rfl | ⟨rfl, hlast⟩
  · rw [dropSuffix?_concat, Option.getD_some]
  · rw [List.append_nil, dropSuffix?_quote_eq_none hlast, Option.getD_none]

lemma exists_unquoted (t : Text) : ∃ value, Unquoted t value := by
  obtain ⟨front, rest, ht, hfront⟩ : ∃ front rest, t = front ++ rest ∧
      (front = ['"'] ∨ front = [] ∧ t.head? ≠ some '"') := by
    by_cases hhead : t.head? = some '"'
    · exact ⟨['"'], t.tail, (List.cons_head?_tail hhead).symm, .inl rfl⟩
    · exact ⟨[], t, rfl, .inr ⟨rfl, hhead⟩⟩
  by_cases hlast : rest.getLast? = some '"'
  · refine ⟨rest.dropLast, front, ['"'], ?_, hfront, .inl rfl⟩
    rw [List.dropLast_append_getLast? _ hlast, ht]
  · exact ⟨rest, front, [], by rw [List.append_nil, ht], hfront, .inr ⟨rfl, hlast⟩⟩

lemma unquoted_dropQuotes (t : Text) : Unquoted t (dropQuotes t) := by
  obtain ⟨value, hvalue⟩ := exists_unquoted t
  rwa [hvalue.dropQuotes_eq]

/-! ## Forms -/

/-- A way to write a line, with the parts that it is made of. -/
inductive Form where
  | blank
  | constant (parts : Assignment) (value : Text) (h : Unquoted (Text.trim parts.after) value)
  | computed (parts : Assignment)
  | literal (parts : Setting)
  | group (name : Text) (named : name ≠ []) (plain : ∀ c ∈ name, Text.isBlank c = false)
  | comment (remark : Text)
  | rule (selector : Text)

namespace Form

/-- The line that has the form. -/
def written : Form → Text
  | blank => []
  | constant parts _ _ => '!' :: parts.written
  | computed parts => ':' :: parts.written
  | literal parts => ':' :: parts.written
  | group name _ _ => ':' :: name
  | comment remark => '/' :: '/' :: remark
  | rule selector => selector

/-- What a line of the form says. -/
def meaning : Form → StyleLine
  | blank => .blank
  | constant parts value _ => .constant parts.name value
  | computed parts => .computed parts.name (Text.trim parts.after)
  | literal parts => .literal parts.name parts.value
  | group name _ _ => .group name
  | comment _ => .comment
  | rule selector => .rule selector

/-- The place of its kind in the order in which the kinds are tried. -/
def rank : Form → Nat
  | blank => 0
  | constant .. => 1
  | computed _ => 2
  | literal _ => 3
  | group .. => 4
  | comment _ => 5
  | rule _ => 6

/-- A line has at most one form of each kind. -/
lemma eq_of_written_eq {form other : Form} (hwritten : form.written = other.written)
    (hrank : form.rank = other.rank) : form = other := by
  cases form with
  | blank =>
      cases other with
      | blank => rfl
      | _ => cases hrank
  | constant parts value h =>
      cases other with
      | constant parts' value' h' =>
          obtain rfl := Assignment.written_injective (List.cons.inj hwritten).2
          obtain rfl : value = value' := h.dropQuotes_eq.symm.trans h'.dropQuotes_eq
          rfl
      | _ => cases hrank
  | computed parts =>
      cases other with
      | computed parts' => rw [Assignment.written_injective (List.cons.inj hwritten).2]
      | _ => cases hrank
  | literal parts =>
      cases other with
      | literal parts' => rw [Setting.written_injective (List.cons.inj hwritten).2]
      | _ => cases hrank
  | group name named plain =>
      cases other with
      | group name' named' plain' =>
          obtain rfl : name = name' := (List.cons.inj hwritten).2
          rfl
      | _ => cases hrank
  | comment remark =>
      cases other with
      | comment remark' =>
          obtain rfl : remark = remark' := (List.cons.inj (List.cons.inj hwritten).2).2
          rfl
      | _ => cases hrank
  | rule selector =>
      cases other with
      | rule selector' =>
          obtain rfl : selector = selector' := hwritten
          rfl
      | _ => cases hrank

section Taken

variable {line : Text}

/-- The end of an assignment is the end of its line. -/
lemma trim_after {first : Char} {parts : Assignment} (h : Trimmed (first :: parts.written)) :
    Text.trim parts.after = Text.trimStart parts.after := by
  refine trim_eq_trimStart fun c hc => h.last c ?_
  have hmem : c ∈ ((first :: (parts.name ++ (parts.gap ++ ['=']))) ++ parts.after).getLast? :=
    List.mem_getLast?_append_of_mem_getLast? hc
  simpa [Assignment.written] using hmem

lemma ofText_of_some {t : Text} {kind : StyleLine} (ht : Text.trim line = t) (hne : t ≠ [])
    (h : (constant? t).or (attribute? t) = some kind) : ofText line = kind := by
  simp only [ofText, ht, List.isEmpty_iff, hne, if_false, h]

lemma ofText_of_attribute? {t : Text} {kind : StyleLine} (ht : Text.trim line = ':' :: t)
    (h : attribute? (':' :: t) = some kind) : ofText line = kind :=
  ofText_of_some ht (List.cons_ne_nil _ _) h

lemma ofText_of_none {t : Text} (ht : Text.trim line = t) (hne : t ≠ [])
    (h : (constant? t).or (attribute? t) = none) :
    ofText line = if Text.startsWith "//" t then .comment else .rule t := by
  simp only [ofText, ht, List.isEmpty_iff, hne, if_false, h]

/-- What is taken for a constant, an attribute or a group has that form. -/
lemma exists_of_some {t : Text} {kind : StyleLine}
    (h : (constant? t).or (attribute? t) = some kind) :
    ∃ form : Form, form.written = t ∧ form.rank < 5 := by
  rcases Option.or_eq_some_iff.1 h with hconstant | ⟨-, hattribute⟩
  · rw [constant?.eq_def] at hconstant
    split at hconstant
    · obtain ⟨⟨name, value⟩, hsplit, -⟩ := Option.map_eq_some_iff.1 hconstant
      obtain ⟨parts, rfl, -, -⟩ := exists_assignment hsplit
      exact ⟨constant parts _ (unquoted_dropQuotes _), rfl, by simp [rank]⟩
    · cases hconstant
  · rw [attribute?.eq_def] at hattribute
    split at hattribute
    · split at hattribute
      · rename_i hsplit
        obtain ⟨parts, rfl, -, -⟩ := exists_assignment hsplit
        exact ⟨computed parts, rfl, by simp [rank]⟩
      · split at hattribute
        · rename_i hsplit
          obtain ⟨parts, rfl, -, -⟩ := exists_setting hsplit
          exact ⟨literal parts, rfl, by simp [rank]⟩
        · split_ifs at hattribute with hname
          simp only [isName, Bool.and_eq_true, Bool.not_eq_true', List.isEmpty_eq_false_iff,
            List.all_eq_true] at hname
          exact ⟨group _ hname.1 fun c hc => hname.2 c hc, rfl, by simp [rank]⟩
    · cases hattribute

/-- A form is what its line is taken for, or the line has a form of an earlier kind. -/
lemma ofText_eq_or (hline : '\n' ∉ line) {form : Form} (h : form.written = Text.trim line) :
    ofText line = form.meaning ∨ ∃ other : Form, other.written = form.written ∧
      other.rank < form.rank := by
  have htrimmed : Trimmed form.written := h ▸ trimmed_trim line
  have hbreak : '\n' ∉ form.written := fun hmem => hline (mem_of_mem_trim (h ▸ hmem))
  cases form with
  | blank =>
      left
      rw [ofText, ← h]
      rfl
  | constant parts value hvalue =>
      left
      have hsplit := parts.splitAssignment?_written fun hmem => hbreak (List.mem_cons_of_mem _ hmem)
      refine ofText_of_some h.symm (List.cons_ne_nil _ _) ?_
      simp only [written, constant?, hsplit, Option.map_some, Option.some_or, meaning,
        ← trim_after htrimmed, hvalue.dropQuotes_eq]
  | computed parts =>
      left
      have hsplit := parts.splitAssignment?_written fun hmem => hbreak (List.mem_cons_of_mem _ hmem)
      refine ofText_of_attribute? h.symm ?_
      simp only [attribute?, hsplit, meaning, trim_after htrimmed]
  | literal parts =>
      cases hassign : splitAssignment? parts.written with
      | some cut =>
          obtain ⟨others, hothers, -, -⟩ := exists_assignment hassign
          exact .inr ⟨computed others, congrArg (':' :: ·) hothers, by simp [rank]⟩
      | none =>
          left
          have hsplit := parts.splitLiteral?_written fun hmem =>
            hbreak (List.mem_cons_of_mem _ hmem)
          refine ofText_of_attribute? h.symm ?_
          simp only [attribute?, hassign, hsplit, meaning]
  | group name named plain =>
      cases hassign : splitAssignment? name with
      | some cut =>
          obtain ⟨others, hothers, -, -⟩ := exists_assignment hassign
          exact .inr ⟨computed others, congrArg (':' :: ·) hothers, by simp [rank]⟩
      | none =>
          cases hliteral : splitLiteral? name with
          | some cut =>
              obtain ⟨others, hothers, -, -⟩ := exists_setting hliteral
              exact .inr ⟨literal others, congrArg (':' :: ·) hothers, by simp [rank]⟩
          | none =>
              left
              have hname : isName name = true := by simpa [isName, named] using plain
              refine ofText_of_attribute? h.symm ?_
              simp only [attribute?, hassign, hliteral, hname, if_true, meaning]
  | comment remark =>
      left
      exact ofText_of_none h.symm (List.cons_ne_nil _ _) rfl
  | rule selector =>
      rcases eq_or_ne selector [] with rfl | hne
      · exact .inr ⟨blank, rfl, by simp [rank]⟩
      · cases hkind : (constant? selector).or (attribute? selector) with
        | some kind =>
            obtain ⟨other, hother, hrank⟩ := exists_of_some hkind
            exact .inr ⟨other, hother, hrank.trans (by simp [rank])⟩
        | none =>
            have htaken := ofText_of_none h.symm hne hkind
            split_ifs at htaken with hstart
            · right
              obtain ⟨remark, hremark⟩ := Option.isSome_iff_exists.1 hstart
              exact ⟨comment remark, (eq_append_of_dropPrefix? hremark).symm, by simp [rank]⟩
            · exact .inl htaken

end Taken

end Form

/-- **A line is of the first kind that it is written as.**  Take the line without the white space
around it.  It has a form, and is taken for what the first of its forms says, in the order of the
kinds; and it has at most one form of each kind, so that the name and the value can be told from the
line, and are all of it but white space between them and quotes. -/
theorem ofText_eq_first_form {line : Text} (h : '\n' ∉ line) :
    (∃ form : Form, form.written = Text.trim line ∧
      (∀ other : Form, other.written = Text.trim line → form.rank ≤ other.rank) ∧
      ofText line = form.meaning) ∧
    ∀ form other : Form, form.written = Text.trim line → other.written = Text.trim line →
      form.rank = other.rank → form = other := by
  constructor
  · have hne : {form : Form | form.written = Text.trim line}.Nonempty :=
      ⟨.rule (Text.trim line), rfl⟩
    obtain ⟨form, hform, hfirst⟩ := WellFounded.has_min (measure Form.rank).wf _ hne
    refine ⟨form, hform, fun other hother => Nat.le_of_not_lt (hfirst other hother), ?_⟩
    rcases Form.ofText_eq_or h hform with htaken | ⟨other, hother, hrank⟩
    · exact htaken
    · exact absurd hrank (hfirst other (hother.trans hform))
  · intro form other hform hother hrank
    exact Form.eq_of_written_eq (hform.trans hother.symm) hrank

/-- A no-break space before the equals sign, and another equals sign behind it. -/
theorem ofText_eq_first_form_second_equals :
    let line : Text := "\t:margin\u00a0= =1px "
    '\n' ∉ line ∧ ofText line = .computed "margin" "=1px" ∧
      ∃ form : Form, form.written = ":margin\u00a0= =1px" ∧
        (∀ other : Form, other.written = ":margin\u00a0= =1px" → form.rank ≤ other.rank) ∧
        form.meaning = .computed "margin" "=1px" := by
  intro line
  have hline : '\n' ∉ line := by decide +kernel
  have htrim : Text.trim line = ":margin\u00a0= =1px" := by decide +kernel
  have hkind : ofText line = .computed "margin" "=1px" := by decide +kernel
  obtain ⟨form, hform, hfirst, htaken⟩ := (ofText_eq_first_form hline).1
  rw [htrim] at hform hfirst
  exact ⟨hline, hkind, form, hform, hfirst, htaken.symm.trans hkind⟩

end StyleLine

end Offside
