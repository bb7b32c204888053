import Mathlib
import Offside.Proofs.ElementParts

/-!
# The tags of an element

An element on a line of prose is well formed (`Element.WellFormed`): the name of its tag is made of
the characters of names, its attributes hold nothing that would end the tag, and its content nothing
that would begin another.

What stands between the name and the bracket of the opening tag is empty, or begins with a space or
a brace and ends with a quote or a brace (`TagBody`).  So the tag is never taken for one without
content, and however it is laid out it puts exactly its element on the stack, which the closing tag
takes off again.
-/

namespace Offside

/-! ## Tags -/

lemma MadeFrom.tagSafe {s t : Text} (h : MadeFrom t s) (ht : TagSafe t) : TagSafe s := by
  intro hmem
  rcases h _ hmem with hmem | hmem | hmem
  · exact ht hmem
  · cases hmem
  · cases hmem

/-- What stands between the name of a tag and its bracket: attributes, and an expression for more of
them. -/
structure TagBody (t : Text) : Prop where
  safe : TagSafe t
  first : ∀ c ∈ t.head?, c = ' ' ∨ c = '\x7b'
  last : ∀ c ∈ t.getLast?, c = '"' ∨ c = '\x7d'

lemma TagBody.nil : TagBody [] := ⟨by decide, by simp, by simp⟩

lemma TagBody.append {s t : Text} (hs : TagBody s) (ht : TagBody t) : TagBody (s ++ t) := by
  refine ⟨hs.safe.append ht.safe, fun c hc => ?_, fun c hc => ?_⟩
  · cases s with
    | nil => exact ht.first c hc
    | cons d ds => exact hs.first c hc
  · cases t with
    | nil => exact hs.last c (by simpa using hc)
    | cons d ds =>
        rw [List.getLast?_append_of_ne_nil _ (List.cons_ne_nil d ds)] at hc
        exact ht.last c hc

/-- A body that is not empty has a first and a last character that are different. -/
lemma TagBody.eq_nil_or {t : Text} (h : TagBody t) :
    t = [] ∨ ∃ x middle y, t = x :: middle ++ [y] := by
  cases t with
  | nil => exact Or.inl rfl
  | cons x rest =>
      rcases List.eq_nil_or_concat rest with rfl | ⟨middle, y, rfl⟩
      · have hx := h.first x rfl
        have hy := h.last x rfl
        rcases hx with rfl | rfl <;> simp at hy
      · exact Or.inr ⟨x, middle, y, by simp⟩

lemma tagBody_attributeText {name value : Text} (hname : TagSafe name) (hvalue : TagSafe value) :
    TagBody (Element.attributeText name value) where
  safe := (((TagSafe.append (by decide) hname).append (by decide)).append hvalue).append (by decide)
  first := by simp [Element.attributeText]
  last := by
    intro c hc
    rw [Element.attributeText, List.getLast?_append_of_ne_nil _ (by decide)] at hc
    exact Or.inl (Option.some.inj hc).symm

lemma tagBody_attributes {table : Table Text} (h : SafeAttributes table) :
    TagBody (table.flatMap fun (name, value) => Element.attributeText name value) := by
  induction table with
  | nil => exact TagBody.nil
  | cons entry rest ih =>
      obtain ⟨hname, hvalue⟩ := h entry List.mem_cons_self
      exact (tagBody_attributeText hname hvalue).append
        (ih fun other hother => h other (List.mem_cons_of_mem _ hother))

namespace Element

/-- An element whose tags and whose content stand for themselves when the code is scanned. -/
structure WellFormed (e : Element) : Prop where
  tag_ne : e.tag ≠ []
  tag_chars : ∀ c ∈ e.tag, HeadToken.isTagChar c = true
  attributes : SafeAttributes e.attributes
  object : ∀ code ∈ e.object, TagSafe code
  content : Calm e.content
  content_last : ∀ c ∈ e.content.getLast?, c ≠ '\x7b'

/-- The name of a tag is one, whatever else stands in the head. -/
lemma tag_ofParts (settings : TemplateSettings) (parts : ElementParts) :
    (ofParts settings parts).tag ≠ [] ∧
      ∀ c ∈ (ofParts settings parts).tag, HeadToken.isTagChar c = true := by
  rw [ofParts]
  cases hlast : ((HeadToken.tokens parts.head).filterMap HeadToken.tag?).getLast? with
  | none =>
      have hne : "div".toList ≠ [] := by decide
      have hall : ("div".toList.all HeadToken.isTagChar) = true := by decide
      exact ⟨hne, List.all_eq_true.1 hall⟩
  | some name =>
      obtain ⟨token, htoken, hname⟩ := List.mem_filterMap.1 (List.mem_of_getLast? hlast)
      exact (HeadToken.readFrom_tail_of_mem_tokens htoken).tagName name hname

/-- An element on a line of prose is well formed; only the first character of the line may be a per
cent sign. -/
lemma wellFormed_of_ofLine {settings : TemplateSettings} (hsettings : settings.KeepsTags)
    (hembed : settings.embedCode = true) {number : Nat} {line : Text}
    (hline : Prose line.tail) (hstart : TemplateLine.startsElement line = true)
    {e : Element} (h : Element.ofLine settings number line = .ok e) : e.WellFormed := by
  have hbrace : '\x7b' ∉ line := by
    cases line with
    | nil => simp
    | cons c cs =>
        rintro hmem
        rcases List.mem_cons.1 hmem with rfl | hmem
        · simp [TemplateLine.startsElement] at hstart
        · exact absurd (hline _ hmem) (by decide)
  rw [Element.ofLine] at h
  split at h
  · next parts hparts =>
      cases h
      obtain ⟨hgroups, hhead, hcontent⟩ :=
        ElementParts.subset_tail_of_ofLine? hparts hbrace hstart
      have hsafe : ∀ token ∈ HeadToken.tokens parts.head, TagSafe token.payload :=
        fun token htoken => (hline.mono (List.Subset.trans
          (HeadToken.readFrom_tail_of_mem_tokens htoken).payload.subset hhead)).tagSafe
      have htag := tag_ofParts settings parts
      have hplain := calm_elementContent hsettings hembed (hline.mono hcontent)
      refine ⟨htag.1, htag.2, ?_, ?_, (hplain _ _).1, (hplain _ _).2⟩
      · rw [ofParts, hgroups]
        exact safeAttributes_attributesOf hsettings hsafe _
      · intro code hcode
        rw [ofParts, hembed, if_pos rfl] at hcode
        exact HeadToken.tagSafe_of_mem_filterMap HeadToken.payload_of_object? hsafe
          (List.mem_of_getLast? hcode)
  · cases h

end Element

namespace ScanState

lemma tag_of_ne_slash {c : Char} (hc : c ≠ '/') (rest : Text) (s : ScanState) :
    s.tag (c :: rest)
      = if (c :: rest).getLast? = some '/' then some s
        else some (s.push (.element ((c :: rest).takeWhile HeadToken.isTagChar))) := by
  rw [ScanState.tag]
  · intro name heq
    exact hc (List.cons.inj heq).1
  · intro name _ _ heq
    exact absurd (List.cons.inj heq).1 hc

/-- A tag with a name and attributes opens an element. -/
lemma tag_open {name body : Text} (hne : name ≠ [])
    (hname : ∀ c ∈ name, HeadToken.isTagChar c = true) (hbody : TagBody body) (s : ScanState) :
    s.tag (name ++ body) = some (s.push (.element name)) := by
  have htake : (name ++ body).takeWhile HeadToken.isTagChar = name := by
    rw [List.takeWhile_append_of_pos hname]
    cases body with
    | nil => simp
    | cons c cs =>
        have hc : HeadToken.isTagChar c = false := by
          rcases hbody.first c rfl with rfl | rfl <;> decide
        simp [hc]
  have hlast : (name ++ body).getLast? ≠ some '/' := by
    intro hlast
    rcases List.eq_nil_or_concat body with rfl | ⟨front, y, rfl⟩
    · rw [List.append_nil] at hlast
      exact absurd (hname _ (List.mem_of_getLast? hlast)) (by decide)
    · rw [List.concat_eq_append, ← List.append_assoc, List.getLast?_concat] at hlast
      rcases hbody.last y (by simp) with rfl | rfl <;> cases hlast
  obtain ⟨c, cs, rfl⟩ := List.exists_cons_of_ne_nil hne
  have hc : c ≠ '/' := by
    rintro rfl
    exact absurd (hname _ List.mem_cons_self) (by decide)
  rw [List.cons_append] at hlast htake ⊢
  rw [tag_of_ne_slash hc, if_neg hlast, htake]

/-- A tag that ends with a slash leaves everything as it is. -/
lemma tag_selfClosing {name rest : Text} (hne : name ≠ [])
    (hname : ∀ c ∈ name, HeadToken.isTagChar c = true) (s : ScanState) :
    s.tag (name ++ rest ++ ['/']) = some s := by
  obtain ⟨c, cs, rfl⟩ := List.exists_cons_of_ne_nil hne
  have hc : c ≠ '/' := by
    rintro rfl
    exact absurd (hname _ List.mem_cons_self) (by decide)
  have hlast : (c :: (cs ++ rest ++ ['/'])).getLast? = some '/' :=
    List.getLast?_concat (l := c :: (cs ++ rest))
  rw [List.cons_append, List.cons_append, tag_of_ne_slash hc, if_pos hlast]

lemma tag_close (name : Text) (s : ScanState) :
    (s.push (.element name)).tag ('/' :: name) = some s := by
  simp [push, ScanState.tag]

end ScanState

/-- Dropping ends of blocks inside of a tag leaves a tag. -/
lemma TagBody.of_kept {body kept : Text} (h : TagBody body) (hsafe : '>' ∉ kept)
    (hfirst : ∀ c ∈ kept.head?, c ∈ body.head? ∨ c = '\x7b')
    (hlast : kept.getLast? = body.getLast?) : TagBody kept where
  safe := hsafe
  first := fun c hc => by
    rcases hfirst c hc with hc | hc
    · exact h.first c hc
    · exact Or.inr hc
  last := fun c hc => h.last c (hlast ▸ hc)

namespace Element

namespace WellFormed

variable {e : Element}

lemma tagBody_object (h : e.WellFormed) :
    TagBody (match e.object with
      | some code => outputMarks ("object_attributes(value=" ++ code ++ ")")
      | none => []) := by
  cases hcode : e.object with
  | none => exact TagBody.nil
  | some code =>
      refine ⟨tagSafe_outputMarks ((TagSafe.append (by decide) (h.object code hcode)).append
        (by decide)), by simp [outputMarks], fun c hc => ?_⟩
      rw [getLast?_outputMarks] at hc
      exact Or.inr (Option.some.inj hc).symm

lemma exists_openTag_eq (h : e.WellFormed) :
    ∃ body, TagBody body ∧ e.openTag = '<' :: e.tag ++ body := by
  refine ⟨_, (tagBody_attributes h.attributes).append h.tagBody_object, ?_⟩
  rw [openTag]
  simp only [List.append_assoc]
  rfl

lemma not_mem_tag (h : e.WellFormed) {c : Char} (hc : HeadToken.isTagChar c = false) :
    c ∉ e.tag := by
  intro hmem
  rw [h.tag_chars c hmem] at hc
  cases hc

/-- However an opening tag is laid out, it stays a tag with the same name. -/
lemma exists_indentText_openTag (h : e.WellFormed) (ending : Text) (hending : '\n' ∉ ending)
    (canIndent : Bool) (level : Nat) (newline : Bool) :
    ∃ before body after, Padding before ∧ TagBody body ∧ Padding after ∧
      indentText canIndent level newline (e.openTag ++ ending)
        = before ++ ('<' :: (e.tag ++ body) ++ ending) ++ after := by
  obtain ⟨body, hbody, hopen⟩ := h.exists_openTag_eq
  have htag : '\n' ∉ '<' :: e.tag := by simp [h.not_mem_tag (c := '\n') (by decide)]
  -- Values of attributes can be broken over lines.  The name with what follows it, and the end of
  -- the body with what closes the tag, are never broken apart.
  rcases hbody.eq_nil_or with rfl | ⟨x, middle, y, rfl⟩
  · have hfirst : '\n' ∉ '<' :: e.tag ++ ending := by
      rw [List.mem_append, not_or]
      exact ⟨htag, hending⟩
    obtain ⟨before, after, hbefore, hafter, heq⟩ :=
      exists_indentText_unbroken hfirst canIndent level newline
    refine ⟨before, [], after, hbefore, TagBody.nil, hafter, ?_⟩
    rw [hopen]
    simpa using heq
  · have hx : x = ' ' ∨ x = '\x7b' := hbody.first x rfl
    have hy : y = '"' ∨ y = '\x7d' := hbody.last y List.getLast?_concat
    have hfirst : '\n' ∉ '<' :: e.tag ++ [x] := by
      rw [List.mem_append, not_or]
      exact ⟨htag, by rcases hx with rfl | rfl <;> decide⟩
    have hlast : '\n' ∉ y :: ending := by
      rw [List.mem_cons, not_or]
      exact ⟨by rcases hy with rfl | rfl <;> decide, hending⟩
    obtain ⟨before, inner, after, hbefore, hinner, hafter, heq⟩ :=
      exists_indentText_eq hfirst hlast canIndent level newline middle
    have hsafe : TagSafe ([x] ++ inner ++ [y]) := by
      have hfront : TagSafe [x] := hbody.safe.mono (by simp)
      have hmiddle : TagSafe middle := hbody.safe.mono fun c hc => by simp [hc]
      have hback : TagSafe [y] := hbody.safe.mono (by simp)
      exact (hfront.append (hinner.tagSafe hmiddle)).append hback
    have hbodyLast : ∀ c ∈ (x :: inner ++ [y]).getLast?, c = '"' ∨ c = '\x7d' := by
      intro c hc
      rw [List.getLast?_concat] at hc
      cases hc
      exact hy
    refine ⟨before, x :: inner ++ [y], after, hbefore, ⟨hsafe, by simpa using hx, hbodyLast⟩,
      hafter, ?_⟩
    · rw [hopen]
      simpa using heq

lemma startsTag_tag (h : e.WellFormed) : e.tag.head?.any startsTag = true := by
  obtain ⟨c, cs, hcs⟩ := List.exists_cons_of_ne_nil h.tag_ne
  have hc : HeadToken.isTagChar c = true := h.tag_chars c (by simp [hcs])
  simp [hcs, startsTag, hc]

/-- A tag with the name of the element is taken in as a whole, whatever stands around it. -/
lemma exists_scanCode_tag (h : e.WellFormed) {before body after : Text} (hbefore : Padding before)
    (hbody : '>' ∉ body) (hafter : Padding after) (s : ScanState) (rest : Text) :
    ∃ kept, '>' ∉ kept ∧ (∀ c ∈ kept.head?, c ∈ body.head? ∨ c = '\x7b') ∧
      kept.getLast? = body.getLast? ∧
      scanCode s (before ++ ('<' :: (e.tag ++ body) ++ ">") ++ after ++ rest)
        = (s.tag (e.tag ++ kept)).bind fun s => scanCode s rest := by
  obtain ⟨kept, hkept, hfirst, hlast, hscan⟩ :=
    Offside.exists_scanCode_tag h.startsTag_tag (h.not_mem_tag (by decide))
      (h.not_mem_tag (by decide)) hbody s (after ++ rest)
  refine ⟨kept, hkept, hfirst, hlast, ?_⟩
  simp only [scanCode_neutral hafter.neutral] at hscan
  rw [← hscan, List.append_assoc, List.append_assoc, scanCode_neutral hbefore.neutral]
  simp

/-- The tag of an element that is not closed at once puts the element on the stack. -/
lemma scanCode_openTag (h : e.WellFormed) (canIndent : Bool) (level : Nat) (newline : Bool)
    (s : ScanState) (rest : Text) :
    scanCode s (indentText canIndent level newline (e.openTag ++ ">") ++ rest)
      = scanCode (s.push (.element e.tag)) rest := by
  obtain ⟨before, body, after, hbefore, hbody, hafter, heq⟩ :=
    h.exists_indentText_openTag ">" (by decide) canIndent level newline
  obtain ⟨kept, hkept, hfirst, hlast, hscan⟩ :=
    h.exists_scanCode_tag hbefore hbody.safe hafter s rest
  rw [heq, hscan, ScanState.tag_open h.tag_ne h.tag_chars (hbody.of_kept hkept hfirst hlast)]
  rfl

/-- A tag that is closed at once changes nothing. -/
lemma scanCode_selfClosing (h : e.WellFormed) (canIndent : Bool) (level : Nat) (newline : Bool)
    (s : ScanState) (rest : Text) :
    scanCode s (indentText canIndent level newline (e.openTag ++ " />") ++ rest)
      = scanCode s rest := by
  obtain ⟨before, body, after, hbefore, hbody, hafter, heq⟩ :=
    h.exists_indentText_openTag " />" (by decide) canIndent level newline
  have hslash : TagSafe (body ++ " /") := hbody.safe.append (by decide)
  obtain ⟨kept, -, -, hlast, hscan⟩ := h.exists_scanCode_tag hbefore hslash hafter s rest
  rw [List.getLast?_append_of_ne_nil _ (by decide)] at hlast
  obtain ⟨front, rfl⟩ : ∃ front, kept = front ++ ['/'] := List.getLast?_eq_some_iff.1 hlast
  rw [← List.append_assoc e.tag front, ScanState.tag_selfClosing h.tag_ne h.tag_chars] at hscan
  rw [heq]
  simpa using hscan

lemma newline_not_mem_closeTag (h : e.WellFormed) : '\n' ∉ e.closeTag := by
  simp [closeTag, h.not_mem_tag (c := '\n') (by decide)]

/-- The closing tag takes the element off the stack. -/
lemma scanCode_closeTag (h : e.WellFormed) (canIndent : Bool) (level : Nat) (newline : Bool)
    (s : ScanState) (rest : Text) :
    scanCode (s.push (.element e.tag)) (indentText canIndent level newline e.closeTag ++ rest)
      = scanCode s rest := by
  obtain ⟨before, after, hbefore, hafter, heq⟩ :=
    exists_indentText_unbroken h.newline_not_mem_closeTag canIndent level newline
  have hbrace : '\x7b' ∉ '/' :: e.tag := by simp [h.not_mem_tag (c := '\x7b') (by decide)]
  have hclose : '>' ∉ '/' :: e.tag := by simp [h.not_mem_tag (c := '>') (by decide)]
  have hstart : ('/' :: e.tag).head?.any startsTag = true := by simp [startsTag]
  obtain ⟨kept, -, -, hlast, hscan⟩ := Offside.exists_scanCode_tag hstart hbrace hclose
    (List.not_mem_nil (a := '>')) (s.push (.element e.tag)) (after ++ rest)
  obtain rfl : kept = [] := List.getLast?_eq_none_iff.1 hlast
  rw [List.append_nil, ScanState.tag_close] at hscan
  rw [heq, List.append_assoc, List.append_assoc, scanCode_neutral hbefore.neutral]
  refine Eq.trans ?_ (hscan.trans (scanCode_neutral hafter.neutral s rest))
  simp [closeTag]

end WellFormed

end Element

end Offside
