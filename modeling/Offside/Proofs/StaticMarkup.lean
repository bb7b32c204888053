import Mathlib
import Offside.Proofs.LineUse
import Offside.Proofs.StaticElements
import Offside.Proofs.WellNested

/-!
# Static markup

With host code switched off, the code of static lines is static, but for what two paths still put
into it.

**Written lines.**  Comments that are not written and instructions take what stands below them with
them.  The other lines are written one after the other (`forestWritten`), and of each this file says
what its code opens and where it could run into the next line (`LineCode.Lays`).

**Values.**  An option or a target that begins with a dollar sign is written as an expression, and
names of scripts and images are put behind directories of the settings.  So a written line is static
if the values of its attributes are, and in debug mode the name of its file
(`WrittenLine.IsStatic`).

**Seams.**  Where nothing is indented, text that begins with a bracket does not end its line.  If it
ends with a brace, the next line can open host code with it (`WrittenLine.runsOn`).  In debug mode
every line begins with its mark, so nothing runs on.

`static_templateCode_iff` puts these together.
-/

namespace Offside

/-! ## Layout of static text -/

lemma Padding.singleton {c : Char} (hc : c = ' ' ∨ c = '\n') : Padding [c] := by
  intro d hd
  rwa [List.mem_singleton.1 hd]

lemma Static.append_blank {s t : Text} (hs : Static s) {c : Char} (hc : c = ' ' ∨ c = '\n')
    (ht : Static t) : Static (s ++ c :: t) := by
  have hpad := (Padding.singleton hc).closed
  have hleft : Sealed (s ++ [c]) :=
    ⟨hs.append_closed hpad, fun d hd => hpad.last d (by simpa using hd)⟩
  simpa using hleft.static.append ht (.inl hleft.last)

lemma Static.sealed_append {t : Text} (h : Static t) {c : Char} (hc : c = ' ' ∨ c = '\n') :
    Sealed (t ++ [c]) where
  static := h.append_blank hc Closed.nil.static
  last d hd := by
    rw [List.getLast?_concat] at hd
    cases hd
    rcases hc with rfl | rfl <;> decide

lemma Static.wrapWords {t : Text} (h : Static t) (width : Nat) : Static (wrapWords width t) :=
  wrapWords_of_forall Closed.nil.static (fun _ _ hs ht => hs.append_blank (.inl rfl) ht)
    (fun _ _ hs ht => hs.append_blank (.inr rfl) ht) (fun _ hword => h.of_isInfix hword) width

lemma Static.relay {t : Text} (h : Static t) (level : Nat) :
    Static (relay level (lineEnding true) t) := by
  rw [static_iff_isChain] at *
  refine isChain_relay ?_ h level
  rintro a b (rfl | rfl) ⟨hopen, -⟩ <;> exact absurd hopen (by decide)

lemma Static.ite_nil {t : Text} (h : Static t) {b : Bool} : Static (if b then [] else t) := by
  cases b
  · exact h
  · exact Closed.nil.static

lemma Sealed.ite_nil {t : Text} (h : Sealed t) {b : Bool} : Sealed (if b then [] else t) := by
  cases b
  · exact h
  · exact Closed.nil.toSealed

/-- A text that does not end its line where nothing is indented, but ends with a brace. -/
def runsInto (t : Text) : Bool := Text.startsWith "<" t && t.getLast? == some '\x7b'

/-- Static text stays static on lines of its own. -/
lemma static_indentText {t : Text} (h : Static t) (canIndent : Bool) (level : Nat) :
    Static (indentText canIndent level true t) := by
  cases canIndent with
  | true =>
      rw [indentText_eq, List.append_assoc]
      have hlines : Sealed (relay level (lineEnding true) t ++ lineEnding true) :=
        (h.relay level).sealed_append (.inr rfl)
      exact ((padding_times level).closed.toSealed.append hlines).static
  | false =>
      rw [indentText, if_neg Bool.false_ne_true]
      split_ifs
      · exact h
      · exact (h.sealed_append (.inr rfl)).static

lemma sealed_indentText {t : Text} (h : Static t) {canIndent : Bool}
    (hruns : canIndent = false → runsInto t = false) (level : Nat) :
    Sealed (indentText canIndent level true t) := by
  refine ⟨static_indentText h canIndent level, ?_⟩
  cases canIndent with
  | true =>
      rw [indentText_eq, List.getLast?_append_of_ne_nil _ (by decide)]
      rintro c hc rfl
      cases hc
  | false =>
      rw [indentText, if_neg Bool.false_ne_true]
      split_ifs with hstart
      · rintro c hc rfl
        rw [Option.mem_def] at hc
        have hfalse := hruns rfl
        rw [runsInto, hstart, hc] at hfalse
        cases hfalse
      · exact (h.sealed_append (.inr rfl)).last

/-- A text with nothing but padding around it. -/
def Padded (t text : Text) : Prop :=
  ∃ before after, Padding before ∧ Padding after ∧ text = before ++ t ++ after

namespace Padded

variable {t text : Text}

lemma refl (t : Text) : Padded t t := ⟨[], [], .nil, .nil, by simp⟩

lemma isInfix (h : Padded t text) : t <:+: text := by
  obtain ⟨before, after, -, -, rfl⟩ := h
  exact ⟨before, after, rfl⟩

lemma closed (h : Padded t text) (ht : Closed t) : Closed text := by
  obtain ⟨before, after, hbefore, hafter, rfl⟩ := h
  exact (hbefore.closed.append ht).append hafter.closed

end Padded

lemma padded_indentText {t : Text} (h : '\n' ∉ t) (canIndent : Bool) (level : Nat)
    (newline : Bool) : Padded t (indentText canIndent level newline t) :=
  exists_indentText_unbroken h canIndent level newline

namespace CodeWriter

/-- Text that shares its line with its neighbours is static, and it runs into them only where
nothing is indented. -/
lemma static_textCode (w : CodeWriter) (scope : Scope) (place : Place) {t : Text} (h : Inline t) :
    Static (w.textCode scope place t) ∧
      ((scope.canIndent = false → runsInto t = false) → Sealed (w.textCode scope place t)) := by
  have hsealed : ∀ {code : Text}, Sealed code →
      Static code ∧ ((scope.canIndent = false → runsInto t = false) → Sealed code) :=
    fun hcode => ⟨hcode.static, fun _ => hcode⟩
  rw [textCode]
  split_ifs
  · split
    · exact hsealed (sealed_indentText h.static (by simp) _)
    · obtain ⟨before, after, hbefore, hafter, heq⟩ :=
        padded_indentText h.unbroken true place.depth false
      have hstatic : Static (before ++ t ++ after) :=
        (hbefore.closed.static.append h.static (.inl hbefore.closed.last)).append_closed
          hafter.closed
      rw [heq]
      exact hsealed (hstatic.sealed_append (.inl rfl))
    · exact hsealed (h.static.sealed_append (.inr rfl))
    · exact hsealed (h.static.sealed_append (.inl rfl))
  · exact ⟨static_indentText h.static _ _, fun hruns => sealed_indentText h.static hruns _⟩

end CodeWriter

/-! ## Written lines -/

/-- Whether a line is passed over with all that stands below it while host code is switched off. -/
def TemplateLine.isDropped : TemplateLine → Bool
  | .internalComment => true
  | .instruction _ => true
  | _ => false

/-- The element of a line. -/
def TemplateNode.element? (settings : TemplateSettings) (node : TemplateNode) : Option Element :=
  match node.kind with
  | .element line => (ElementParts.ofLine? line).map (Element.ofParts settings)
  | _ => none

/-- A line that is written. -/
structure WrittenLine where
  /-- Whether it can be indented. -/
  canIndent : Bool
  hasChildren : Bool
  node : TemplateNode
  deriving Repr, DecidableEq

namespace WrittenLine

/-- Whether the lines below a line can be indented. -/
def indentsBelow (settings : TemplateSettings) (line : WrittenLine) : Bool :=
  line.canIndent &&
    !(line.node.element? settings).any fun e => !e.selfClosing && e.isPreformatted

/-- The text of a line that is not indented and that other lines follow. -/
def unindented? (settings : TemplateSettings) (line : WrittenLine) : Option Text :=
  match line.node.kind with
  | .text content => if line.canIndent then none else some content
  | .comment _ t => if line.canIndent || !line.hasChildren then none else some t
  | .element _ =>
    (line.node.element? settings).bind fun e =>
      if e.selfClosing || !line.hasChildren then none
      else if e.isPreformatted then some e.content
      else if line.canIndent then none
      else some (wrapWords settings.wrapWidth e.content)
  | _ => none

/-- Whether the next line can open host code with the end of a line. -/
def runsOn (settings : TemplateSettings) (line : WrittenLine) : Bool :=
  (line.unindented? settings).any runsInto

/-- The values of the attributes of a line open no host code. -/
def HasStaticValues (settings : TemplateSettings) (line : WrittenLine) : Prop :=
  ∀ e ∈ line.node.element? settings, ∀ entry ∈ e.attributes, Static entry.2

/-- What is written into a line besides its own text opens no host code. -/
structure IsStatic (settings : TemplateSettings) (line : WrittenLine) : Prop where
  values : line.HasStaticValues settings
  origin : settings.debug = true → ∀ path ∈ line.node.origin, Static path

end WrittenLine

mutual

/-- The lines of a tree that are written while host code is switched off. -/
def treeWritten (settings : TemplateSettings) (canIndent : Bool) :
    OutlineTree TemplateNode → List WrittenLine
  | .node _ node children =>
    if node.kind.isDropped then []
    else
      let line : WrittenLine := ⟨canIndent, !children.isEmpty, node⟩
      line :: forestWritten settings (line.indentsBelow settings) children

/-- The lines of a forest that are written while host code is switched off. -/
def forestWritten (settings : TemplateSettings) (canIndent : Bool) :
    List (OutlineTree TemplateNode) → List WrittenLine
  | [] => []
  | tree :: rest => treeWritten settings canIndent tree ++ forestWritten settings canIndent rest

end

/-! ## The code of one line -/

/-- How the code of a line is laid out: the values of its attributes are all that can open host code
in it, and a line that does not run on can be followed by any static text. -/
structure LineCode.Lays (settings : TemplateSettings) (line : WrittenLine) (code : LineCode) :
    Prop where
  below : code.scope.canIndent = line.indentsBelow settings
  values : Static code.opening → line.HasStaticValues settings
  opening : line.HasStaticValues settings → Closed code.opening
  body : Static code.body
  closing : Closed code.closing
  ends : line.runsOn settings = false →
    Sealed code.body ∨ (line.hasChildren = false ∧ code.closing ≠ [])

/-- A line of static text that is no text block. -/
structure TemplateNode.Literal (node : TemplateNode) : Prop where
  content : Inline node.content
  block : node.kind.isTextBlock = false

namespace CodeWriter

variable {w : CodeWriter} {scope : Scope} {place : Place} {hasChildren : Bool} {node : TemplateNode}

/-- A line that is only a body, and no element. -/
lemma lays_body {settings : TemplateSettings} {mark body : Text}
    (helement : node.element? settings = none) (hbody : Static body)
    (hends : WrittenLine.runsOn settings ⟨scope.canIndent, hasChildren, node⟩ = false →
      Sealed body) :
    LineCode.Lays settings ⟨scope.canIndent, hasChildren, node⟩
      ⟨mark, [], body, [], ⟨scope.canIndent, false⟩⟩ where
  below := by simp [WrittenLine.indentsBelow, helement]
  values _ e he := by
    rw [helement] at he
    cases he
  opening _ := .nil
  body := hbody
  closing := .nil
  ends hruns := .inl (hends hruns)

/-- A document type is static if its kind is. -/
lemma sealed_doctype {kind : Text} (h : Static kind) : Sealed (doctype kind ++ "\n") := by
  refine Static.sealed_append ?_ (.inr rfl)
  have hknown : ∀ entry ∈ knownDoctypes, Static entry.2 := by decide +kernel
  rcases doctype_cases kind with ⟨entry, hentry, heq⟩ | heq
  · rw [heq]
    exact hknown entry hentry
  · have hname : Closed ("<!DOCTYPE ".toList ++ kind ++ ">".toList) :=
      h.enclosed (.of_notMem (by decide) (by simp)) (.of_notMem (by decide) (by simp))
        (by decide) (by decide)
    rw [heq]
    exact hname.static

/-- A comment around the lines below it. -/
lemma lays_commentLines {settings : TemplateSettings} {opening closing t mark : Text}
    (hopening : Closed opening ∧ '\n' ∉ opening) (hclosing : Closed closing ∧ '\n' ∉ closing)
    (ht : Static t) {condition : Option Text} (hkind : node.kind = .comment condition t)
    (scope : Scope) (depth : Nat) :
    LineCode.Lays settings ⟨scope.canIndent, true, node⟩
      ⟨mark, indentText scope.canIndent depth true opening,
        if t.isEmpty then [] else indentText scope.canIndent (depth + 1) true t,
        indentText scope.canIndent depth true closing, ⟨scope.canIndent, false⟩⟩ := by
  have helement : node.element? settings = none := by rw [TemplateNode.element?, hkind]
  refine ⟨?_, ?_, ?_, ?_, (padded_indentText hclosing.2 _ _ _).closed hclosing.1, ?_⟩
  · simp [WrittenLine.indentsBelow, helement]
  · intro _ e he
    rw [helement] at he
    cases he
  · exact fun _ => (padded_indentText hopening.2 _ _ _).closed hopening.1
  · exact (static_indentText ht _ _).ite_nil
  · intro hruns
    rw [WrittenLine.runsOn, WrittenLine.unindented?, hkind] at hruns
    refine .inl (sealed_indentText ht (fun hindent => ?_) _).ite_nil
    simpa [hindent] using hruns

/-- A comment on one line. -/
lemma lays_commentLine {settings : TemplateSettings} {opening closing t mark : Text}
    (hopening : Closed opening ∧ '\n' ∉ opening) (hclosing : Closed closing) (ht : Static t)
    {condition : Option Text} (hkind : node.kind = .comment condition t) (scope : Scope)
    (depth : Nat) :
    LineCode.Lays settings ⟨scope.canIndent, false, node⟩
      ⟨mark, indentText scope.canIndent depth false (opening ++ " "), t, " " ++ closing ++ "\n",
        ⟨scope.canIndent, false⟩⟩ := by
  have helement : node.element? settings = none := by rw [TemplateNode.element?, hkind]
  have hpad : ∀ {c : Char}, c = ' ' ∨ c = '\n' → Closed [c] := fun hc =>
    (Padding.singleton hc).closed
  refine ⟨?_, ?_, ?_, ht, ((hpad (.inl rfl)).append hclosing).append (hpad (.inr rfl)), ?_⟩
  · simp [WrittenLine.indentsBelow, helement]
  · intro _ e he
    rw [helement] at he
    cases he
  · intro _
    refine (padded_indentText ?_ _ _ _).closed (hopening.1.append (hpad (.inl rfl)))
    simp [hopening.2]
  · exact fun _ => .inr ⟨rfl, by simp⟩

/-- The marks around a comment are static if its condition is. -/
lemma lays_comment {settings : TemplateSettings} {mark t : Text} {condition : Option Text}
    (hcondition : Inline (condition.getD [])) (ht : Static t)
    (hkind : node.kind = .comment condition t) :
    LineCode.Lays settings ⟨scope.canIndent, hasChildren, node⟩
      (commentCode scope place hasChildren mark condition t) := by
  have hplain : ∀ {text : Text}, (text.all fun c => c != '\x7b' && c != '%' && c != '\n') = true →
      Closed text ∧ '\n' ∉ text := by
    intro text htext
    have hchar : ∀ c ∈ text, c ≠ '\x7b' ∧ c ≠ '%' ∧ c ≠ '\n' := by
      simpa [and_assoc] using htext
    exact ⟨.of_notMem (fun hmem => (hchar _ hmem).1 rfl) fun c hc =>
      (hchar c (List.mem_of_head? hc)).2.1, fun hmem => (hchar _ hmem).2.2 rfl⟩
  cases condition with
  | none =>
      have hopening : Closed "<!--" ∧ '\n' ∉ "<!--".toList := hplain (by decide)
      have hclosing : Closed "-->" ∧ '\n' ∉ "-->".toList := hplain (by decide)
      cases hasChildren with
      | true => exact lays_commentLines hopening hclosing ht hkind scope place.depth
      | false => exact lays_commentLine hopening hclosing.1 ht hkind scope place.depth
  | some condition =>
      have hopening : Closed ("<!--[".toList ++ condition ++ "]>".toList) :=
        hcondition.static.enclosed (hplain (by decide)).1 (hplain (by decide)).1
          (by decide) (by decide)
      have hline : '\n' ∉ "<!--[".toList ++ condition ++ "]>".toList := by
        have hunbroken : '\n' ∉ condition := hcondition.unbroken
        simp [hunbroken]
      have hclosing : Closed "<![endif]-->" ∧ '\n' ∉ "<![endif]-->".toList := hplain (by decide)
      cases hasChildren with
      | true => exact lays_commentLines ⟨hopening, hline⟩ hclosing ht hkind scope place.depth
      | false => exact lays_commentLine ⟨hopening, hline⟩ hclosing.1 ht hkind scope place.depth

/-- In the tags of a literal element only values can open host code. -/
lemma lays_tags {settings : TemplateSettings} {line : WrittenLine} {e : Element} {code : LineCode}
    (helement : line.node.element? settings = some e) (h : e.Literal)
    (hbelow : code.scope.canIndent = line.indentsBelow settings) {ending : Text}
    (hending : Closed ending) (hopening : Padded (e.openTag ++ ending) code.opening)
    (hbody : Static code.body) (hclosing : Closed code.closing)
    (hends : line.runsOn settings = false →
      Sealed code.body ∨ (line.hasChildren = false ∧ code.closing ≠ [])) :
    code.Lays settings line where
  below := hbelow
  values hstatic other hother := by
    rw [helement] at hother
    cases hother
    refine h.static_openTag_iff.1 (hstatic.of_isInfix ?_)
    exact (List.prefix_append _ ending).isInfix.trans hopening.isInfix
  opening hvalues := hopening.closed ((h.closed_openTag (hvalues e helement)).append hending)
  body := hbody
  closing := hclosing
  ends := hends

/-- An element, whatever its layout. -/
lemma lays_elementCode {line mark : Text} {e : Element} (hkind : node.kind = .element line)
    (helement : node.element? w.settings = some e) (h : e.Literal) :
    LineCode.Lays w.settings ⟨scope.canIndent, hasChildren, node⟩
      (w.elementCode scope place hasChildren mark e) := by
  have hend : ∀ {c : Char}, c = ' ' ∨ c = '\n' → Closed [c] := fun hc =>
    (Padding.singleton hc).closed
  have hbracket : Closed ">" := .of_notMem (by decide) (by simp)
  have hslash : Closed " />" := .of_notMem (by decide) (by simp)
  have hopen : '\n' ∉ e.openTag ++ ">".toList := by simp [h.unbroken_openTag]
  have hclosed : '\n' ∉ e.openTag ++ " />".toList := by simp [h.unbroken_openTag]
  have hclosing : ∀ {c : Char}, c = ' ' ∨ c = '\n' → Closed (e.closeTag ++ [c]) := fun hc =>
    h.closed_closeTag.append (hend hc)
  have hbelow : WrittenLine.indentsBelow w.settings ⟨scope.canIndent, hasChildren, node⟩
      = (scope.canIndent && !(!e.selfClosing && e.isPreformatted)) := by
    simp [WrittenLine.indentsBelow, helement]
  have hruns : WrittenLine.runsOn w.settings ⟨scope.canIndent, hasChildren, node⟩
      = Option.any runsInto (if e.selfClosing || !hasChildren then none
        else if e.isPreformatted then some e.content
        else if scope.canIndent then none
        else some (wrapWords w.settings.wrapWidth e.content)) := by
    rw [WrittenLine.runsOn, WrittenLine.unindented?, hkind]
    simp [helement]
  rw [elementCode]
  dsimp only
  by_cases hself : e.selfClosing = true
  · rw [if_pos hself]
    exact lays_tags helement h (by simp [hbelow, hself]) hslash (padded_indentText hclosed _ _ _)
      Closed.nil.static .nil fun _ => .inl Closed.nil.toSealed
  rw [if_neg hself]
  by_cases hpre : e.isPreformatted = true
  · rw [if_pos hpre]
    refine lays_tags helement h (by simp [hbelow, hself, hpre]) hbracket
      (padded_indentText hopen false 0 false) (static_indentText h.content.static _ _).ite_nil
      (hclosing (.inr rfl)) fun hquiet => ?_
    rw [hruns] at hquiet
    cases hasChildren with
    | false => exact .inr ⟨rfl, by simp⟩
    | true =>
        refine .inl (sealed_indentText h.content.static (fun _ => ?_) _).ite_nil
        simpa [hself, hpre] using hquiet
  rw [if_neg hpre]
  by_cases hchildren : hasChildren = true
  · rw [if_pos hchildren]
    refine lays_tags helement h (by simp [hbelow, hpre]) hbracket (padded_indentText hopen _ _ _)
      (static_indentText (h.content.static.wrapWords _) _ _).ite_nil
      ((padded_indentText h.unbroken_closeTag _ _ _).closed h.closed_closeTag) fun hquiet => ?_
    refine .inl (sealed_indentText (h.content.static.wrapWords _) (fun hlevel => ?_) _).ite_nil
    rw [hruns] at hquiet
    simpa [hself, hpre, hchildren, hlevel] using hquiet
  rw [if_neg hchildren]
  -- Without lines below it, the closing tag follows the content at once.
  have hends : ∀ {code : LineCode}, code.closing ≠ [] →
      Sealed code.body ∨ (hasChildren = false ∧ code.closing ≠ []) :=
    fun hne => .inr ⟨by simpa using hchildren, hne⟩
  split
  · refine lays_tags helement h (by simp [hbelow, hpre]) hbracket ?_ h.content.static
      (hclosing (.inr rfl)) fun _ => hends (by simp)
    exact ⟨['\n'], [], .singleton (.inr rfl), .nil, by simp⟩
  split
  · refine lays_tags helement h (by simp [hbelow, hpre]) hbracket ?_ h.content.static ?_
      fun _ => hends (by simp [Element.closeTag])
    · dsimp only
      split
      · exact padded_indentText hopen _ _ _
      · exact .refl _
    · dsimp only
      split
      · exact hclosing (.inr rfl)
      · exact hclosing (.inl rfl)
  · exact lays_tags helement h (by simp [hbelow, hpre]) hbracket
      (padded_indentText hopen true _ false) h.content.static (hclosing (.inr rfl))
      fun _ => hends (by simp)

lemma lineCode_of_isDropped (hembed : w.settings.embedCode = false)
    (hdropped : node.kind.isDropped = true) :
    w.lineCode scope place hasChildren node = .ok none := by
  rw [lineCode]
  cases hkind : node.kind with
  | internalComment => rfl
  | instruction code => simp [hembed, pure, Except.pure]
  | _ => simp [hkind, TemplateLine.isDropped] at hdropped

/-- Every other line is written, and laid out as said. -/
lemma exists_lays_of_lineCode (hembed : w.settings.embedCode = false)
    (hroots : '\n' ∉ w.settings.scriptRoot ∧ '\n' ∉ w.settings.imageRoot) (hnode : node.Literal)
    (hkept : node.kind.isDropped = false) {result : Option LineCode}
    (h : w.lineCode scope place hasChildren node = .ok result) :
    ∃ code, result = some code ∧ code.mark = w.debugMark node ∧
      code.Lays w.settings ⟨scope.canIndent, hasChildren, node⟩ := by
  have hread := TemplateLine.readFrom_ofText node.content
  rw [← TemplateNode.kind] at hread
  have htail : ∀ {t : Text}, t <:+: node.content.tail → Inline t := fun ht =>
    hnode.content.of_isInfix (ht.trans (List.tail_suffix _).isInfix)
  have hother : (∀ line, node.kind ≠ .element line) → node.element? w.settings = none := by
    intro hkind
    rw [TemplateNode.element?]
    split
    · next line hline => exact absurd hline (hkind line)
    · rfl
  cases hkind : node.kind with
  | internalComment => simp [hkind, TemplateLine.isDropped] at hkept
  | instruction code => simp [hkind, TemplateLine.isDropped] at hkept
  | textBlock name =>
      have hblock := hnode.block
      rw [hkind] at hblock
      cases hblock
  | dynamicInclude code =>
      rw [lineCode, hkind] at h
      dsimp only at h
      rw [includeCode, hembed] at h
      cases h
      exact ⟨_, rfl, rfl, lays_body (hother (by simp [hkind])) Closed.nil.static
        fun _ => Closed.nil.toSealed⟩
  | doctype kind =>
      rw [lineCode, hkind] at h
      cases h
      rw [hkind] at hread
      have hsealed := sealed_doctype (htail hread).static
      exact ⟨_, rfl, rfl, lays_body (hother (by simp [hkind])) hsealed.static fun _ => hsealed⟩
  | expression code =>
      rw [lineCode, hkind] at h
      dsimp only at h
      rw [expressionCode, hembed] at h
      cases h
      have hline : Closed ['\n'] := (Padding.singleton (.inr rfl)).closed
      exact ⟨_, rfl, rfl, lays_body (hother (by simp [hkind])) hline.static
        fun _ => hline.toSealed⟩
  | comment condition t =>
      rw [lineCode, hkind] at h
      cases h
      rw [hkind] at hread
      refine ⟨_, rfl, ?_, lays_comment (htail hread.1) (htail hread.2).static hkind⟩
      cases condition <;> cases hasChildren <;> rfl
  | element line =>
      rw [lineCode_element hkind, Element.ofLine] at h
      cases hparts : ElementParts.ofLine? line with
      | none =>
          rw [hparts] at h
          cases h
      | some parts =>
          rw [hparts] at h
          cases h
          rw [hkind] at hread
          have hline : Inline line := hread.1 ▸ hnode.content
          have helement : node.element? w.settings = some (Element.ofParts w.settings parts) := by
            rw [TemplateNode.element?, hkind]
            simp [hparts]
          have hliteral := Element.literal_ofParts hembed hroots hline
            (ElementParts.within_of_ofLine? hparts hline)
          refine ⟨_, rfl, ?_, lays_elementCode hkind helement hliteral⟩
          rw [elementCode]
          dsimp only
          split_ifs <;> rfl
  | text content =>
      rw [lineCode, hkind] at h
      cases h
      rw [hkind] at hread
      have hcode := static_textCode w scope place (hread.1 ▸ hnode.content)
      refine ⟨_, rfl, rfl, lays_body (hother (by simp [hkind])) hcode.1 fun hruns =>
        hcode.2 fun hindent => ?_⟩
      simpa [WrittenLine.runsOn, WrittenLine.unindented?, hkind, hindent] using hruns

end CodeWriter

/-! ## Outlines -/

/-- Static code that other code can follow: without debug marks it ends with no brace, and with them
it begins with a mark. -/
structure Joins (debug : Bool) (t : Text) : Prop where
  static : Static t
  last : debug = false → ∀ c ∈ t.getLast?, c ≠ '\x7b'
  first : debug = true → ∀ c ∈ t.head?, c ≠ '\x7b' ∧ c ≠ '%'

lemma Closed.joins {t : Text} (h : Closed t) (debug : Bool) : Joins debug t :=
  ⟨h.static, fun _ => h.last, fun _ => h.first⟩

lemma Joins.append {debug : Bool} {s t : Text} (hs : Joins debug s) (ht : Joins debug t) :
    Joins debug (s ++ t) where
  static := by
    cases debug with
    | false => exact hs.static.append ht.static (.inl (hs.last rfl))
    | true => exact hs.static.append ht.static (.inr (ht.first rfl))
  last hdebug c hc := (mem_getLast?_append hc).elim (hs.last hdebug c) (ht.last hdebug c)
  first hdebug c hc := (mem_head?_append hc).elim (hs.first hdebug c) (ht.first hdebug c)

/-- A line and what stands below it join the lines after it, if what is written into them opens no
host code. -/
lemma LineCode.Lays.joins {settings : TemplateSettings} {line : WrittenLine} {code : LineCode}
    (h : code.Lays settings line) (hvalues : line.HasStaticValues settings)
    (hmark : Closed code.mark) (hdebug : settings.debug = true → code.mark ≠ [])
    (hruns : settings.debug = false → code.mark = [] ∧ line.runsOn settings = false)
    {inner again : Text} (hinner : Joins settings.debug inner)
    (hempty : line.hasChildren = false → inner = []) (hagain : again = [] ∨ again = code.mark) :
    Joins settings.debug
      (code.mark ++ code.opening ++ code.body ++ inner ++ again ++ code.closing) := by
  have hfront := hmark.append (h.opening hvalues)
  have hbody : Static (code.mark ++ code.opening ++ code.body) :=
    hfront.static.append h.body (.inl hfront.last)
  have hback : Closed (again ++ code.closing) := by
    refine Closed.append ?_ h.closing
    rcases hagain with rfl | rfl
    · exact .nil
    · exact hmark
  rw [List.append_assoc _ again]
  cases hmode : settings.debug with
  | true =>
      -- Whatever the body ends with, a mark or a tag comes next.
      rw [hmode] at hinner
      refine ⟨(hbody.append hinner.static (.inr (hinner.first rfl))).append_closed hback, by simp,
        fun _ c hc => hmark.first c ?_⟩
      simpa [List.head?_append_of_ne_nil _ (hdebug hmode)] using hc
  | false =>
      rw [hmode] at hinner
      obtain ⟨hnone, hquiet⟩ := hruns hmode
      rcases h.ends hquiet with hsealed | ⟨hchildren, hne⟩
      · have hjoined : Joins false (code.mark ++ code.opening ++ code.body) :=
          ⟨hbody, fun _ => (hfront.toSealed.append hsealed).last, by simp⟩
        exact (hjoined.append hinner).append (hback.joins false)
      · have hall : Static (code.mark ++ code.opening ++ code.body ++ inner) := by
          rwa [hempty hchildren, List.append_nil]
        refine ⟨hall.append_closed hback, fun _ c hc => hback.last c ?_, by simp⟩
        rwa [List.getLast?_append_of_ne_nil _ (by simp [hne])] at hc

namespace CodeWriter

variable {w : CodeWriter} {scope : Scope} {depth : Nat} {before : List TemplateLine}
  {node : TemplateNode}

lemma closed_debugMark (h : w.settings.debug = true → ∀ path ∈ node.origin, Static path) :
    Closed (w.debugMark node) := by
  have hnumber : ∀ c ∈ Text.ofNat node.line, c ≠ '\x7b' ∧ c ≠ '%' := by
    intro c hc
    have hdigit : c.isDigit = true := Nat.isDigit_of_mem_toDigits (by decide) (by decide) hc
    constructor <;> rintro rfl <;> exact absurd hdigit (by decide)
  have hclosed : Closed (Text.ofNat node.line) :=
    .of_notMem (fun hmem => (hnumber _ hmem).1 rfl) fun c hc => (hnumber c (List.mem_of_head? hc)).2
  cases hmode : w.settings.debug with
  | false =>
      simp only [debugMark, hmode, Bool.not_false, ↓reduceIte]
      exact .nil
  | true =>
      cases horigin : node.origin with
      | none =>
          simp only [debugMark, hmode, horigin, Bool.not_true, Bool.false_eq_true, ↓reduceIte]
          exact hclosed.append (.of_notMem (by decide) (by simp))
      | some path =>
          simp only [debugMark, hmode, horigin, Bool.not_true, Bool.false_eq_true, ↓reduceIte]
          have hopening : Closed " (" := .of_notMem (by decide) (by simp)
          exact (h hmode path horigin).enclosed (hclosed.append hopening)
            (.of_notMem (by decide) (by simp)) (by simp) (by decide)

lemma debugMark_ne_nil (hdebug : w.settings.debug = true) : w.debugMark node ≠ [] := by
  rw [debugMark, hdebug]
  cases node.origin <;> simp

lemma isInfix_debugMark (hdebug : w.settings.debug = true) {path : FilePath}
    (hpath : node.origin = some path) : path <:+: w.debugMark node := by
  rw [debugMark, hdebug, hpath]
  exact ⟨Text.ofNat node.line ++ " (".toList, "):\t".toList, by simp⟩

/-- **Static lines join each other.** -/
lemma joins_forestCode (hembed : w.settings.embedCode = false)
    (hroots : '\n' ∉ w.settings.scriptRoot ∧ '\n' ∉ w.settings.imageRoot)
    {forest : List (OutlineTree TemplateNode)} (hforest : ForestAll TemplateNode.Literal forest)
    (hruns : w.settings.debug = false → ∀ line ∈ forestWritten w.settings scope.canIndent forest,
      line.runsOn w.settings = false)
    (hstatic : ∀ line ∈ forestWritten w.settings scope.canIndent forest, line.IsStatic w.settings)
    {code : Text} (h : w.forestCode scope depth before forest = .ok code) :
    Joins w.settings.debug code := by
  induction hforest generalizing scope depth before code with
  | nil =>
      cases h
      exact Closed.nil.joins _
  | @cons id node children siblings hnode _ _ ihChildren ihSiblings =>
      obtain ⟨result, here, after, hresult, hafter, rfl, hnone, hsome⟩ := exists_forestCode_eq h
      rw [forestWritten, treeWritten] at hruns hstatic
      have hlater : Joins w.settings.debug after :=
        ihSiblings (fun hdebug line hline => hruns hdebug line (List.mem_append_right _ hline))
          (fun line hline => hstatic line (List.mem_append_right _ hline)) hafter
      refine Joins.append ?_ hlater
      cases hdropped : node.kind.isDropped with
      | true =>
          rw [lineCode_of_isDropped hembed hdropped] at hresult
          cases hresult
          rw [hnone rfl]
          exact Closed.nil.joins _
      | false =>
          obtain ⟨line, rfl, hmark, hlays⟩ :=
            exists_lays_of_lineCode hembed hroots hnode hdropped hresult
          obtain ⟨inner, hinner, rfl⟩ := hsome line rfl
          simp only [hdropped, Bool.false_eq_true, ↓reduceIte, List.cons_append] at hruns hstatic
          rw [← hlays.below] at hruns hstatic
          have hfirst := hstatic _ List.mem_cons_self
          have hbelow : Joins w.settings.debug inner :=
            ihChildren
              (fun hdebug line hline => hruns hdebug line
                (List.mem_cons_of_mem _ (List.mem_append_left _ hline)))
              (fun line hline => hstatic line
                (List.mem_cons_of_mem _ (List.mem_append_left _ hline))) hinner
          refine hlays.joins hfirst.values (hmark ▸ closed_debugMark hfirst.origin)
            (fun hdebug => hmark ▸ debugMark_ne_nil hdebug)
            (fun hdebug => ⟨?_, hruns hdebug _ List.mem_cons_self⟩) hbelow (fun hchildren => ?_) ?_
          · simp [hmark, debugMark, hdebug]
          · have hnil : children = [] := by simpa using hchildren
            rw [hnil] at hinner
            cases hinner
            rfl
          · split_ifs
            · exact .inl rfl
            · exact .inr rfl

/-- What is written into a line stands in the code. -/
lemma isStatic_of_forestCode (hembed : w.settings.embedCode = false)
    (hroots : '\n' ∉ w.settings.scriptRoot ∧ '\n' ∉ w.settings.imageRoot)
    {forest : List (OutlineTree TemplateNode)} (hforest : ForestAll TemplateNode.Literal forest)
    {code : Text} (h : w.forestCode scope depth before forest = .ok code) (hstatic : Static code) :
    ∀ line ∈ forestWritten w.settings scope.canIndent forest, line.IsStatic w.settings := by
  induction hforest generalizing scope depth before code with
  | nil => simp [forestWritten]
  | @cons id node children siblings hnode _ _ ihChildren ihSiblings =>
      obtain ⟨result, here, after, hresult, hafter, rfl, hnone, hsome⟩ := exists_forestCode_eq h
      have hlater := ihSiblings hafter (hstatic.of_isInfix (List.suffix_append _ _).isInfix)
      rw [forestWritten, treeWritten]
      cases hdropped : node.kind.isDropped with
      | true => simpa [hdropped] using hlater
      | false =>
          obtain ⟨line, rfl, hmark, hlays⟩ :=
            exists_lays_of_lineCode hembed hroots hnode hdropped hresult
          obtain ⟨inner, hinner, rfl⟩ := hsome line rfl
          have hpart : ∀ {t : Text}, t <:+: line.mark ++ line.opening ++ line.body ++ inner →
              Static t := by
            intro t ht
            refine hstatic.of_isInfix (ht.trans (List.IsPrefix.isInfix ?_))
            exact ((List.prefix_append _ _).trans (List.prefix_append _ _)).trans
              (List.prefix_append _ _)
          have hbelow := ihChildren hinner (hpart (List.suffix_append _ _).isInfix)
          rw [hlays.below] at hbelow
          have hfirst : WrittenLine.IsStatic w.settings
              ⟨scope.canIndent, !children.isEmpty, node⟩ := by
            refine ⟨hlays.values (hpart ⟨line.mark, line.body ++ inner, by simp⟩),
              fun hdebug path hpath => hpart ?_⟩
            refine (isInfix_debugMark (w := w) hdebug hpath).trans ?_
            exact ⟨[], line.opening ++ line.body ++ inner, by simp [hmark]⟩
          intro other hother
          simp only [Bool.false_eq_true, ↓reduceIte, List.cons_append, List.mem_cons,
            List.mem_append] at hother
          rcases hother with rfl | hother | hother
          · exact hfirst
          · exact hbelow other hother
          · exact hlater other hother

end CodeWriter

/-! ## The whole template -/

/-- Both the end of a block and the branch after it begin an instruction. -/
lemma exists_of_branchAfterEnd? {t branch : Text} (h : branchAfterEnd? t = some branch) :
    (∃ rest, t = "\x7b% end".toList ++ rest) ∧ ∃ rest, branch = "\x7b% el".toList ++ rest := by
  unfold branchAfterEnd? at h
  split at h
  · cases h
  next after hafter =>
    refine ⟨⟨after, eq_append_of_dropPrefix? hafter⟩, ?_⟩
    split_ifs at h
    split at h
    · cases h
    · split_ifs at h with hbranch
      cases h
      obtain ⟨word, hword, hbegins⟩ := List.any_eq_true.1 hbranch
      split at hbegins
      · next rest hrest =>
          rw [eq_append_of_dropPrefix? hrest]
          simp only [List.mem_cons, List.not_mem_nil, or_false] at hword
          rcases hword with rfl | rfl
          · exact ⟨"se".toList ++ rest, rfl⟩
          · exact ⟨"if".toList ++ rest, rfl⟩
      · cases hbegins

lemma not_static_of_instruction (t : Text) : ¬Static ('\x7b' :: '%' :: t) := fun h =>
  h.2 (List.prefix_append ['\x7b', '%'] t).isInfix

/-- Where something is dropped, an instruction is left: the branch that the dropped end stood
before. -/
lemma joinBranches_eq_or (t : Text) :
    joinBranches t = t ∨ (¬Static t ∧ ¬Static (joinBranches t)) := by
  fun_induction joinBranches t with
  | case1 => exact .inl rfl
  | case2 c rest branch hbranch =>
      right
      obtain ⟨⟨later, hlater⟩, ⟨after, rfl⟩⟩ := exists_of_branchAfterEnd? hbranch
      have hmark : branchAfterEnd? ('%' :: (" el".toList ++ after)) = none :=
        branchAfterEnd?_of_unmarked fun d _ hmark => by cases hmark.1
      have hjoin : joinBranches ("\x7b% el".toList ++ after)
          = '\x7b' :: '%' :: joinBranches (" el".toList ++ after) := by
        have hopen : branchAfterEnd? ('\x7b' :: '%' :: (" el".toList ++ after)) = none := rfl
        rw [← joinBranches_cons hmark]
        exact joinBranches_cons hopen
      rw [hlater, hjoin]
      exact ⟨not_static_of_instruction _, not_static_of_instruction _⟩
  | case3 c rest _ ih =>
      rcases ih with heq | ⟨hrest, hjoin⟩
      · exact .inl (by rw [heq])
      · have hsuffix : ∀ t : Text, t <:+: c :: t := fun t => (List.suffix_cons c t).isInfix
        exact .inr ⟨fun h => hrest (h.of_isInfix (hsuffix _)),
          fun h => hjoin (h.of_isInfix (hsuffix _))⟩

lemma static_joinBranches_iff {t : Text} : Static (joinBranches t) ↔ Static t := by
  rcases joinBranches_eq_or t with heq | ⟨ht, hjoin⟩
  · rw [heq]
  · exact iff_of_false hjoin ht

/-- What all nodes of a forest have, the written ones have. -/
lemma ForestAll.forall_mem_forestWritten {p : TemplateNode → Prop}
    {forest : List (OutlineTree TemplateNode)} (h : ForestAll p forest)
    (settings : TemplateSettings) (canIndent : Bool) :
    ∀ line ∈ forestWritten settings canIndent forest, p line.node := by
  induction h generalizing canIndent with
  | nil => simp [forestWritten]
  | @cons id node children siblings hnode _ _ ihChildren ihSiblings =>
      intro line hline
      rw [forestWritten, treeWritten] at hline
      rcases List.mem_append.1 hline with hline | hline
      · split_ifs at hline
        · cases hline
        · rcases List.mem_cons.1 hline with rfl | hline
          · exact hnode
          · exact ihChildren _ line hline
      · exact ihSiblings canIndent line hline

/-- Whether a value of the element on a line is written as an expression. -/
def OriginLine.usesExpression (line : OriginLine) : Bool :=
  match TemplateLine.ofText (Text.trim line.text) with
  | .element content => (ElementParts.ofLine? content).any ElementParts.usesExpression
  | _ => false

/-- The values of an element on a static line are static, if none is written as an expression. -/
lemma hasStaticValues_of_usesExpression {settings : TemplateSettings}
    (hroots : settings.StaticRoots) {line : OriginLine} (hline : Inline line.text)
    (hliteral : line.usesExpression = false) (canIndent hasChildren : Bool) (number : Nat) :
    WrittenLine.HasStaticValues settings
      ⟨canIndent, hasChildren, ⟨number, Text.trim line.text, line.origin⟩⟩ := by
  intro e he
  rw [OriginLine.usesExpression] at hliteral
  rw [TemplateNode.element?, TemplateNode.kind] at he
  dsimp only at he
  have hread := TemplateLine.readFrom_ofText (Text.trim line.text)
  cases hkind : TemplateLine.ofText (Text.trim line.text) with
  | element content =>
      rw [hkind] at hliteral he hread
      obtain ⟨parts, hparts, rfl⟩ := Option.map_eq_some_iff.1 he
      have hcontent : Inline content := by
        rw [hread.1]
        exact hline.of_isInfix (trim_isInfix _)
      refine Element.static_values_ofParts hroots hcontent
        (ElementParts.within_of_ofLine? hparts hcontent) ?_
      simpa [hparts] using hliteral
  | _ =>
      rw [hkind] at he
      cases he

/-- **Static markup.**  Without host code, the code of static lines that do not run on is static
exactly if the values of attributes are, and in debug mode the names of files.  So it is where no
value is written as an expression and the settings are static. -/
theorem static_templateCode_iff {settings : TemplateSettings} (hembed : settings.embedCode = false)
    (hroots : '\n' ∉ settings.scriptRoot ∧ '\n' ∉ settings.imageRoot) {lines : List OriginLine}
    (hlines : ∀ line ∈ lines, Static line.text ∧ '\n' ∉ line.text ∧
      (TemplateLine.ofText (Text.trim line.text)).isTextBlock = false) {unit : IndentUnit}
    (hruns : settings.debug = false →
      ∀ line ∈ forestWritten settings true (templateOutline unit lines).trees,
        line.runsOn settings = false)
    {blocks : Registry TextBlock} {code : Text}
    (h : templateCode settings blocks (templateOutline unit lines) lines = .ok code) :
    (Static code ↔ ∀ line ∈ forestWritten settings true (templateOutline unit lines).trees,
      line.IsStatic settings) ∧
    (settings.StaticRoots →
      (settings.debug = true → ∀ line ∈ lines, ∀ path ∈ line.origin, Static path) →
      (∀ line ∈ lines, line.usesExpression = false) → Static code) := by
  obtain ⟨written, hwritten, h⟩ := bind_eq_ok_iff.1 h
  cases h
  rw [static_joinBranches_iff]
  have hinline : ∀ line ∈ lines, Inline line.text := fun line hline =>
    ⟨(hlines line hline).1, (hlines line hline).2.1⟩
  have hforest : ForestAll TemplateNode.Literal (templateOutline unit lines).trees :=
    forestAll_templateOutline (fun line hline _ _ =>
      ⟨(hinline line hline).of_isInfix (trim_isInfix _), (hlines line hline).2.2⟩) unit
  have hiff : Static written ↔ ∀ line ∈ forestWritten settings true
      (templateOutline unit lines).trees, line.IsStatic settings :=
    ⟨CodeWriter.isStatic_of_forestCode hembed hroots hforest hwritten,
      fun hstatic =>
        (CodeWriter.joins_forestCode hembed hroots hforest hruns hstatic hwritten).static⟩
  refine ⟨hiff, fun hstaticRoots horigins hliteral => hiff.2 ?_⟩
  have hnodes : ForestAll (fun node => ∀ canIndent hasChildren,
      WrittenLine.IsStatic settings ⟨canIndent, hasChildren, node⟩)
      (templateOutline unit lines).trees :=
    forestAll_templateOutline (fun line hline _ number canIndent hasChildren =>
      ⟨hasStaticValues_of_usesExpression hstaticRoots (hinline line hline) (hliteral line hline) _ _
        number, fun hdebug => horigins hdebug line hline⟩) unit
  exact fun line hline => hnodes.forall_mem_forestWritten settings true line hline _ _

/-- Settings without host code. -/
def staticSettings : TemplateSettings := { TemplateSettings.standard with embedCode := false }

lemma staticRoots_staticSettings : staticSettings.StaticRoots :=
  ⟨⟨by decide, by simp [staticSettings, TemplateSettings.standard]⟩,
    ⟨by decide, by simp [staticSettings, TemplateSettings.standard]⟩⟩

/-- A page with braces, a hidden comment and an instruction, and text that is not indented. -/
def staticPage : List OriginLine :=
  ["!!! 5", "%ul.nav", "\t%li\x7b:title => 'a, b'\x7d one \x7b", "\t%li@x two", "\t// hidden",
    "\t- if user", "\t\t%p gone", "%pre", "\t<b>", "\tx \x7b", "%img@=logo.png", "= value",
    "/ note"].map fun line : String => ⟨line.toList, none⟩

/-- What is written for it. -/
def staticPageCode : Text :=
  "<!DOCTYPE html>\n<ul class=\"nav\">\n  <li title=\"a, b\">one \x7b</li>\n" ++
    "  <li>two</li>\n</ul>\n" ++
    "<pre><b>x \x7b\n</pre>\n<img alt=\"\" src=\"/img/logo.png\" />\n\n<!-- note -->\n"

/-- A line with a value that is written as an expression. -/
def linkLines : List OriginLine := [⟨"%a\x7b:href => $url\x7d x", none⟩]

theorem static_templateCode_iff_page :
    (templateCode staticSettings .empty (templateOutline .tab staticPage) staticPage
        = .ok staticPageCode ∧ Static staticPageCode) ∧
      templateCode staticSettings .empty (templateOutline .tab linkLines) linkLines
        = .ok "<a href=\"\x7b\x7b url \x7d\x7d\">x</a>\n" ∧
      ¬∀ line ∈ forestWritten staticSettings true (templateOutline .tab linkLines).trees,
        line.IsStatic staticSettings := by
  have hpage : templateCode staticSettings .empty (templateOutline .tab staticPage) staticPage
      = .ok staticPageCode := by
    decide +kernel
  have hlink : templateCode staticSettings .empty (templateOutline .tab linkLines) linkLines
      = .ok "<a href=\"\x7b\x7b url \x7d\x7d\">x</a>\n" := by
    decide +kernel
  have hroots : '\n' ∉ staticSettings.scriptRoot ∧ '\n' ∉ staticSettings.imageRoot := by decide
  refine ⟨⟨hpage, ?_⟩, hlink, ?_⟩
  · exact (static_templateCode_iff rfl hroots (by decide +kernel) (by decide +kernel) hpage).2
      staticRoots_staticSettings (by decide) (by decide +kernel)
  · rw [← (static_templateCode_iff rfl hroots (by decide +kernel) (by decide +kernel) hlink).1]
    decide +kernel

-- Each condition has a part in this.  A target that begins with a dollar sign opens host code.
example :
    let lines : List OriginLine := [⟨"%a@=$url x", none⟩]
    templateCode staticSettings .empty (templateOutline .tab lines) lines
      = .ok "<a href=\"\x7b\x7b url \x7d\x7d\">x</a>\n" := by
  decide +kernel

-- The end of a directory of the settings opens it with the beginning of a target.
example :
    let lines : List OriginLine := [⟨"%script@=%x", none⟩]
    templateCode { staticSettings with scriptRoot := "\x7b" } .empty (templateOutline .tab lines)
        lines
      = .ok "<script src=\"\x7b%x\" type=\"text/javascript\"></script>\n" := by
  decide +kernel

-- Text that is not indented runs into the next line.
example :
    let lines : List OriginLine := [⟨"%pre", none⟩, ⟨"\t<b>\x7b", none⟩, ⟨"\t\x7bx\x7d", none⟩]
    templateCode staticSettings .empty (templateOutline .tab lines) lines
      = .ok "<pre><b>\x7b\x7bx\x7d\n</pre>\n" := by
  decide +kernel

-- In debug mode the name of a file is written.
example :
    let lines : List OriginLine := [⟨"x", some "\x7b\x7b"⟩]
    templateCode { staticSettings with debug := true } .empty (templateOutline .tab lines) lines
      = .ok "1 (\x7b\x7b):\tx\n" := by
  decide +kernel

end Offside
