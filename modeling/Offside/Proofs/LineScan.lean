import Mathlib
import Offside.Proofs.EnclosingCode

/-!
# What the code of one line does to a scan

Every line of a template plays one of four parts (`BlockRole`).  It is hidden, it opens a block, it
goes on with one, or it is none of these.  For each part this file says what the code that is
written for the line does, whatever follows.

**Plain lines.**  What they open they close (`CodeWriter.exists_encloses_of_lineCode`).

**Blocks.**  A line that opens a block puts it on the stack (`LineCode.Opens`).  A line that goes on
with a block takes the place of the tag that closed it, and finds it on the stack
(`LineCode.Continues`).  Both end with the tag that closes the block.

All of this holds for lines of prose (`isPlainLine`), where no instruction pretends to end a block
and the words that go on with one are words of their own.
-/

namespace Offside

/-! ## Lines of prose -/

/-- A line that means nothing in markup, but for the per cent sign that a tag can begin with. -/
def isProseLine (content : Text) : Bool :=
  content.tail.all isProse && content.head?.all fun c => isProse c || c == '%'

namespace TemplateLine

/-- What the kind of a line says about the line: where the texts that it holds come from. -/
def ReadFrom (content : Text) : TemplateLine → Prop
  | dynamicInclude code => code <:+: content.tail
  | doctype kind => kind <:+: content.tail
  | internalComment => True
  | instruction code => code <:+: content.tail ∧ Trimmed code
  | textBlock name => name <:+: content.tail
  | expression code => code <:+: content.tail
  | comment condition t => condition.getD [] <:+: content.tail ∧ t <:+: content.tail
  | element line => line = content ∧ startsElement content = true
  | text t => t = content ∧ startsElement content = false

lemma readFrom_ofComment (c : Char) (rest : Text) : (ofComment rest).ReadFrom (c :: rest) := by
  have hstart : Text.trimStart rest <:+: rest := (List.dropWhile_suffix _).isInfix
  have hempty : ([] : Text) <:+: rest := List.nil_infix
  rw [ofComment]
  split
  · next inner hinner =>
      split
      · next condition after hsplit =>
          rw [hinner, eq_append_of_splitOnce? hsplit] at hstart
          have hcondition : condition <:+: '[' :: (condition ++ ']' :: after) :=
            ⟨['['], ']' :: after, by simp⟩
          have hafter : after <:+: '[' :: (condition ++ ']' :: after) :=
            ⟨'[' :: (condition ++ [']']), [], by simp⟩
          exact ⟨(trim_isInfix condition).trans (hcondition.trans hstart),
            (trim_isInfix after).trans (hafter.trans hstart)⟩
      · exact ⟨hempty, (trim_isInfix _).trans hstart⟩
  · exact ⟨hempty, (trim_isInfix _).trans hstart⟩

/-- The kinds are tried one after the other, as in the definition. -/
lemma readFrom_ofText (content : Text) : (ofText content).ReadFrom content := by
  have hrest : ∀ {c : Char} {start rest : Text}, Text.dropPrefix? (c :: start) content = some rest →
      rest <:+: content.tail := by
    intro c start rest hdrop
    rw [eq_append_of_dropPrefix? hdrop]
    exact (List.suffix_append start rest).isInfix
  unfold ofText
  split
  · next hdrop => exact (trim_isInfix _).trans (hrest hdrop)
  split
  · next hdrop => exact (trim_isInfix _).trans (hrest hdrop)
  split
  · trivial
  split
  · next hdrop => exact ⟨(trim_isInfix _).trans (hrest hdrop), trimmed_trim _⟩
  split
  · next name hname =>
      unfold blockName? at hname
      split at hname
      · split_ifs at hname
        cases hname
        exact trim_isInfix _
      · cases hname
  split
  · next hdrop => exact hrest hdrop
  split
  · exact readFrom_ofComment _ _
  split
  · next helement => exact ⟨rfl, helement⟩
  · next helement => exact ⟨rfl, Bool.not_eq_true _ ▸ helement⟩

end TemplateLine

/-! ## Parts in blocks -/

/-- The part that a line plays in the blocks around it. -/
inductive BlockRole where
  | hidden
  | plain
  | opens
  | continues
  deriving Repr, DecidableEq

/-- Comments that are not written are hidden, and instructions with a block keyword open a block or
go on with one. -/
def TemplateLine.role : TemplateLine → BlockRole
  | .internalComment => .hidden
  | .instruction code =>
    match BlockKeyword.ofCode? code with
    | none => .plain
    | some keyword => if keyword.continues then .continues else .opens
  | _ => .plain

lemma TemplateLine.eq_internalComment_of_role {line : TemplateLine} (h : line.role = .hidden) :
    line = .internalComment := by
  cases line with
  | internalComment => rfl
  | instruction code =>
      rw [role] at h
      split at h
      · cases h
      · split_ifs at h
  | _ => cases h

/-- A line that opens a block or goes on with one is an instruction with a block keyword. -/
lemma TemplateLine.exists_keyword_of_role {line : TemplateLine} (continues : Bool)
    (h : line.role = if continues then .continues else .opens) :
    ∃ code keyword, line = .instruction code ∧ BlockKeyword.ofCode? code = some keyword ∧
      keyword.continues = continues := by
  cases line with
  | instruction code =>
      rw [role] at h
      split at h
      · cases continues <;> cases h
      · next keyword hkeyword =>
          refine ⟨code, keyword, rfl, hkeyword, ?_⟩
          cases hcontinues : keyword.continues <;> cases continues <;> simp_all
  | _ => cases continues <;> cases h

/-- Not a text block, not an instruction that pretends to end a block, and not a word that goes on
with a block but has something other than white space after it. -/
def TemplateLine.isPlain : TemplateLine → Bool
  | .textBlock _ => false
  | .instruction code =>
    match BlockKeyword.ofCode? code with
    | none => !Text.startsWith "end" code
    | some keyword => !keyword.continues || (code.drop keyword.text.length).head?.all Text.isBlank
  | _ => true

/-- A line of prose whose kind is plain. -/
def isPlainLine (content : Text) : Bool :=
  isProseLine content && (TemplateLine.ofText content).isPlain

/-! ## Instructions -/

namespace BlockKeyword

lemma firstWord_of_ofCode? {code : Text} {keyword : BlockKeyword}
    (h : ofCode? code = some keyword) : firstWord code = keyword.text := by
  have hfound := List.find?_some h
  exact (beq_iff_eq.1 hfound).symm

/-- The code of a block instruction is its keyword and what follows it. -/
lemma eq_append_of_ofCode? {code : Text} {keyword : BlockKeyword}
    (h : ofCode? code = some keyword) :
    code = keyword.text ++ code.drop keyword.text.length := by
  have hprefix : keyword.text <+: code := by
    rw [← firstWord_of_ofCode? h]
    exact List.takeWhile_prefix _
  exact List.prefix_iff_eq_append.1 hprefix |>.symm

/-- Code without a block keyword begins with no word that a scan knows. -/
lemma firstWord_not_mem_of_ofCode? {code : Text} (h : ofCode? code = none) :
    firstWord code ∉ blockWords ∧ firstWord code ∉ branchWords := by
  have hknown : ∀ word ∈ blockWords ++ branchWords, ∃ keyword ∈ all, keyword.text = word := by
    decide
  have hnone : firstWord code ∉ blockWords ++ branchWords := by
    intro hmem
    obtain ⟨keyword, hkeyword, htext⟩ := hknown _ hmem
    have hmiss := List.find?_eq_none.1 h keyword hkeyword
    simp [htext] at hmiss
  rwa [List.mem_append, not_or] at hnone

lemma text_mem_blockWords {keyword : BlockKeyword} (hsupported : keyword.isSupported = true)
    (hopens : keyword.continues = false) : keyword.text ∈ blockWords := by
  revert hsupported hopens
  cases keyword <;> decide

end BlockKeyword

lemma dropPrefix?_of_startsWith {start t : Text} (h : Text.startsWith start t = false) :
    Text.dropPrefix? start t = none := by
  simpa [Text.startsWith] using h

/-- An instruction that begins with another word is no further branch. -/
lemma neverBranch_instruction {code : Text} (h : BlockKeyword.firstWord code ∉ branchWords) :
    NeverBranch (CodeWriter.instructionMarks code) := by
  refine fun rest => noBranch_instruction (List.any_eq_false.2 fun word hmem hbegins => ?_) rest
  have hchars : (branchWords.all fun word => word.all BlockKeyword.isWordChar) = true := by decide
  have hfirst := firstWord_of_beginsWith
    (List.all_eq_true.1 (List.all_eq_true.1 hchars word hmem)) hbegins
  exact h (hfirst ▸ hmem)

/-- The end of a block is no further branch. -/
lemma neverBranch_end {keyword : Text} (h : keyword ∈ blockWords) :
    NeverBranch (CodeWriter.instructionMarks ("end" ++ keyword)) := by
  have hall : ∀ word ∈ blockWords,
      BlockKeyword.firstWord ("end".toList ++ word) ∉ branchWords := by decide
  exact neverBranch_instruction (hall keyword h)

/-- An instruction without a block is passed. -/
lemma encloses_instruction {code : Text} (hprose : Prose code) (htrim : Trimmed code)
    (hnone : BlockKeyword.ofCode? code = none) (hend : Text.startsWith "end" code = false)
    (scope : Scope) :
    LineCode.Encloses ⟨[], CodeWriter.instructionMarks code, [], [], scope⟩ [] := by
  obtain ⟨hblock, hbranch⟩ := BlockKeyword.firstWord_not_mem_of_ofCode? hnone
  have hdrop := dropPrefix?_of_startsWith hend
  have hword : Text.dropPrefix? "end" (BlockKeyword.firstWord code) = none := by
    cases hopt : Text.dropPrefix? "end" (BlockKeyword.firstWord code) with
    | none => rfl
    | some rest =>
        have hcode : code = "end" ++ (rest ++ code.dropWhile BlockKeyword.isWordChar) := by
          rw [← List.append_assoc, ← eq_append_of_dropPrefix? hopt]
          exact List.takeWhile_append_dropWhile.symm
        rw [hcode] at hdrop
        cases hdrop
  refine ⟨rfl, fun s rest => ?_, fun s rest => rfl, ?_, fun rest hrest => hrest⟩
  · rw [List.append_nil, scanCode_instruction (hprose.not_mem (by decide))
      (hprose.not_mem (by decide)) hdrop, ScanState.instruction_plain htrim hblock hbranch hword]
    rfl
  · rw [List.append_nil]
    exact neverBranch_instruction hbranch

/-! ## Blocks -/

namespace LineCode

/-- The code of a line opens a block, and ends with the tag that closes it. -/
structure Opens (code : LineCode) (keyword : Text) : Prop where
  supported : keyword ∈ blockWords
  mark : code.mark = []
  enter : ∀ (s : ScanState) (rest : Text),
    scanCode s (code.opening ++ code.body ++ rest) = scanCode (s.openBlock keyword) rest
  begins : NeverBranch (code.opening ++ code.body)
  closing : code.closing = CodeWriter.instructionMarks ("end" ++ keyword)

/-- The code of a line takes the place of the tag that closed a block, finds the block on the stack,
and ends with that tag again. -/
structure Continues (code : LineCode) (keyword : Text) : Prop where
  mark : code.mark = []
  enter : keyword ∈ blockWords → ∀ (opened number : Nat) (outer : List Enclosure)
    (branches : List Nat) (rest : Text),
    scanCode ⟨opened, .block number keyword :: outer, branches⟩
        (CodeWriter.instructionMarks ("end" ++ keyword) ++ (code.opening ++ code.body ++ rest))
      = scanCode ⟨opened, .block number keyword :: outer, branches ++ [number]⟩ rest
  closing : code.closing = CodeWriter.instructionMarks ("end" ++ keyword)

end LineCode

lemma opens_instruction {code : Text} (hprose : Prose code) (htrim : Trimmed code)
    {keyword : BlockKeyword} (hkeyword : BlockKeyword.ofCode? code = some keyword)
    (hsupported : keyword.isSupported = true) (hopens : keyword.continues = false) (scope : Scope) :
    LineCode.Opens ⟨[], CodeWriter.instructionMarks code, [],
      CodeWriter.instructionMarks ("end" ++ keyword.text), scope⟩ keyword.text := by
  have hmem := BlockKeyword.text_mem_blockWords hsupported hopens
  have hword := BlockKeyword.firstWord_of_ofCode? hkeyword
  have hbranch : BlockKeyword.firstWord code ∉ branchWords := by
    have hall : ∀ word ∈ blockWords, word ∉ branchWords := by decide
    exact hword ▸ hall _ hmem
  have hend : Text.dropPrefix? "end" code = none := by
    rw [BlockKeyword.eq_append_of_ofCode? hkeyword]
    simp only [blockWords, List.mem_cons, List.not_mem_nil, or_false] at hmem
    rcases hmem with h | h | h | h | h | h <;> rw [h] <;> rfl
  refine ⟨hmem, rfl, fun s rest => ?_, ?_, rfl⟩
  · rw [List.append_nil, scanCode_instruction (hprose.not_mem (by decide))
      (hprose.not_mem (by decide)) hend, ScanState.instruction_block htrim (hword ▸ hmem), hword]
    rfl
  · rw [List.append_nil]
    exact neverBranch_instruction hbranch

/-- The code points of white space. -/
def blankPoints : List Nat :=
  [0x9, 0xa, 0xb, 0xc, 0xd, 0x20, 0x85, 0xa0, 0x1680, 0x2000, 0x2001, 0x2002, 0x2003, 0x2004,
    0x2005, 0x2006, 0x2007, 0x2008, 0x2009, 0x200a, 0x2028, 0x2029, 0x202f, 0x205f, 0x3000]

/-- White space is no part of a word. -/
lemma isWord_of_isBlank {c : Char} (h : Text.isBlank c = true) : Text.isWord c = false := by
  have hpoints : (blankPoints.all fun n => !Text.isWord (Char.ofNat n)) = true := by decide +kernel
  have hmem : c.toNat ∈ blankPoints := by
    simp only [Text.isBlank, Bool.or_eq_true, Bool.and_eq_true, decide_eq_true_eq, beq_iff_eq] at h
    simp only [blankPoints, List.mem_cons, List.not_mem_nil, or_false]
    omega
  have hc := List.all_eq_true.1 hpoints _ hmem
  rw [Char.ofNat_toNat] at hc
  simpa using hc

/-- A branch word that white space follows makes an instruction a further branch. -/
lemma continues_instruction {word after : Text} (hword : word ∈ branchWords) (hprose : Prose after)
    (hblank : after.head?.all Text.isBlank = true) (htrim : Trimmed (word ++ after))
    (keyword : Text) (scope : Scope) :
    LineCode.Continues ⟨[], CodeWriter.instructionMarks (word ++ after), [],
      CodeWriter.instructionMarks ("end" ++ keyword), scope⟩ keyword := by
  have hbegins : beginsWith word (word ++ after) = true := by
    rw [beginsWith, dropPrefix?_append]
    cases after with
    | nil => rfl
    | cons c cs =>
        have hc : Text.isBlank c = true := by simpa using hblank
        simp [isWord_of_isBlank hc]
  have hchars : (branchWords.all fun word =>
      word.all fun c => BlockKeyword.isWordChar c && isProse c) = true := by decide
  have hwordChars : ∀ c ∈ word, BlockKeyword.isWordChar c = true ∧ isProse c = true := by
    simpa using List.all_eq_true.1 (List.all_eq_true.1 hchars word hword)
  have hfirst : BlockKeyword.firstWord (word ++ after) = word :=
    firstWord_of_beginsWith (fun c hc => (hwordChars c hc).1) hbegins
  have hcode : Prose (word ++ after) := Prose.append (fun c hc => (hwordChars c hc).2) hprose
  have hend : Text.dropPrefix? "end" (word ++ after) = none := by
    simp only [branchWords, List.mem_cons, List.not_mem_nil, or_false] at hword
    rcases hword with rfl | rfl <;> rfl
  refine ⟨rfl, fun hkeyword opened number outer branches rest => ?_, rfl⟩
  have hbranch : startsBranch (CodeWriter.instructionMarks (word ++ after) ++ rest) = true := by
    rw [startsBranch_instruction]
    exact List.any_eq_true.2 ⟨word, hword, hbegins⟩
  rw [List.append_nil, scanCode_end_branch hkeyword (by rwa [trimStart_instructionMarks]),
    trimStart_instructionMarks, scanCode_instruction (hcode.not_mem (by decide))
      (hcode.not_mem (by decide)) hend,
    ScanState.instruction_branch htrim (hfirst.symm ▸ hword)]
  rfl

/-! ## Every line -/

/-- A node that was made from a plain line. -/
structure TemplateNode.Plain (node : TemplateNode) : Prop where
  line : isPlainLine node.content = true
  trimmed : Trimmed node.content
  visible : node.content ≠ []

namespace TemplateNode.Plain

variable {node : TemplateNode}

lemma isProseLine (h : node.Plain) : isProseLine node.content = true :=
  (Bool.and_eq_true_iff.1 h.line).1

lemma isPlain_kind (h : node.Plain) : node.kind.isPlain = true :=
  (Bool.and_eq_true_iff.1 h.line).2

lemma prose_tail (h : node.Plain) : Prose node.content.tail := by
  have hline := h.isProseLine
  rw [Offside.isProseLine, Bool.and_eq_true] at hline
  exact List.all_eq_true.1 hline.1

/-- Only a tag begins with a per cent sign. -/
lemma prose_content (h : node.Plain) (hstart : TemplateLine.startsElement node.content = false) :
    Prose node.content := by
  have hline := h.isProseLine
  have htail := h.prose_tail
  cases hcontent : node.content with
  | nil => exact fun c hc => by cases hc
  | cons d ds =>
      rw [hcontent] at hline htail hstart
      intro c hc
      rcases List.mem_cons.1 hc with rfl | hc
      · simp_all [Offside.isProseLine, TemplateLine.startsElement]
      · exact htail c hc

end TemplateNode.Plain

namespace CodeWriter

variable {w : CodeWriter} {scope : Scope} {place : Place} {hasChildren : Bool} {node : TemplateNode}
  {result : Option LineCode}

/-- Of a hidden line nothing is written. -/
lemma lineCode_hidden (hrole : node.kind.role = .hidden) (w : CodeWriter) (scope : Scope)
    (place : Place) (hasChildren : Bool) : w.lineCode scope place hasChildren node = .ok none := by
  rw [lineCode, TemplateLine.eq_internalComment_of_role hrole]
  rfl

lemma lineCode_element {line : Text} (hkind : node.kind = .element line) :
    w.lineCode scope place hasChildren node
      = (Element.ofLine w.settings node.line line).map fun e =>
          some (w.elementCode scope place hasChildren (w.debugMark node) e) := by
  rw [lineCode, hkind]
  dsimp only
  cases Element.ofLine w.settings node.line line <;> rfl

lemma lineCode_instruction {code : Text} (hkind : node.kind = .instruction code)
    (hembed : w.settings.embedCode = true) :
    w.lineCode scope place hasChildren node
      = (instructionCode scope place (w.debugMark node) node.line code).map some := by
  rw [lineCode, hkind]
  dsimp only
  rw [if_pos hembed]
  cases instructionCode scope place (w.debugMark node) node.line code <;> rfl

/-- A plain line stands around what is written for the lines below it. -/
lemma exists_encloses_of_lineCode (hsettings : w.settings.KeepsTags)
    (hembed : w.settings.embedCode = true) (hdebug : w.settings.debug = false) (hnode : node.Plain)
    (hrole : node.kind.role = .plain) (h : w.lineCode scope place hasChildren node = .ok result) :
    ∃ code around, result = some code ∧ code.Encloses around := by
  have hmark : w.debugMark node = [] := by simp [debugMark, hdebug]
  have hread : node.kind.ReadFrom node.content := TemplateLine.readFrom_ofText node.content
  have hplain := hnode.isPlain_kind
  have htail := hnode.prose_tail
  cases hkind : node.kind with
  | dynamicInclude code =>
      rw [hkind] at hread
      rw [lineCode, hkind, hmark] at h
      cases h
      exact ⟨_, _, rfl, w.encloses_include place (htail.mono hread.subset) hembed _⟩
  | doctype kind =>
      rw [hkind] at hread
      rw [lineCode, hkind, hmark] at h
      cases h
      have hbreak : Padding "\n".toList := padding_lineEnding true
      exact ⟨_, _, rfl, LineCode.encloses_body
        ((neutral_doctype (htail.mono hread.subset)).append hbreak.neutral)
        ((neverBranch_doctype kind).append _) _⟩
  | internalComment =>
      rw [hkind] at hrole
      cases hrole
  | instruction code =>
      rw [hkind] at hread hplain hrole
      cases hkeyword : BlockKeyword.ofCode? code with
      | none =>
          rw [TemplateLine.isPlain, hkeyword] at hplain
          rw [lineCode_instruction hkind hembed, hmark, instructionCode, hkeyword] at h
          cases h
          exact ⟨_, _, rfl, encloses_instruction (htail.mono hread.1.subset) hread.2 hkeyword
            (by simpa using hplain) _⟩
      | some keyword =>
          rw [TemplateLine.role, hkeyword] at hrole
          dsimp only at hrole
          split_ifs at hrole
  | textBlock name =>
      rw [hkind] at hplain
      cases hplain
  | expression code =>
      rw [hkind] at hread
      rw [lineCode, hkind, hmark] at h
      cases h
      exact ⟨_, _, rfl, w.encloses_expression scope place (htail.mono hread.subset) hembed _⟩
  | comment condition t =>
      rw [hkind] at hread
      rw [lineCode, hkind, hmark] at h
      cases h
      exact ⟨_, _, rfl, encloses_comment scope place hasChildren (htail.mono hread.1.subset)
        (htail.mono hread.2.subset)⟩
  | element line =>
      rw [hkind] at hread
      obtain ⟨rfl, hstart⟩ := hread
      rw [lineCode_element hkind, hmark] at h
      cases helement : Element.ofLine w.settings node.line node.content with
      | error cause =>
          rw [helement] at h
          cases h
      | ok e =>
          rw [helement] at h
          cases h
          have hformed := Element.wellFormed_of_ofLine hsettings hembed htail hstart helement
          exact ⟨_, _, rfl, hformed.encloses_elementCode w scope place hasChildren⟩
  | text content =>
      rw [hkind] at hread
      rw [lineCode, hkind, hmark] at h
      cases h
      obtain ⟨rfl, hstart⟩ := hread
      exact ⟨_, _, rfl, w.encloses_text scope place (hnode.prose_content hstart) hnode.visible
        hnode.trimmed _⟩

/-- What is written for an instruction with a block keyword. -/
lemma eq_of_lineCode_block {code : Text} {keyword : BlockKeyword}
    (hembed : w.settings.embedCode = true) (hdebug : w.settings.debug = false)
    (hkind : node.kind = .instruction code) (hkeyword : BlockKeyword.ofCode? code = some keyword)
    (h : w.lineCode scope place hasChildren node = .ok result) :
    keyword.isSupported = true ∧
      result = some ⟨[], instructionMarks (instructionText keyword code), [],
        instructionMarks ("end" ++ opener place keyword), ⟨scope.canIndent, true⟩⟩ := by
  have hmark : w.debugMark node = [] := by simp [debugMark, hdebug]
  rw [lineCode_instruction hkind hembed, hmark, instructionCode, hkeyword] at h
  dsimp only at h
  rw [ite_self] at h
  split at h
  · next hsupported =>
      cases h
      exact ⟨hsupported, rfl⟩
  · cases h

/-- A line that opens a block puts it on the stack. -/
lemma exists_opens_of_lineCode (hembed : w.settings.embedCode = true)
    (hdebug : w.settings.debug = false) (hnode : node.Plain) (hrole : node.kind.role = .opens)
    (h : w.lineCode scope place hasChildren node = .ok result) :
    ∃ code, result = some code ∧ code.Opens (openerBefore (node.kind :: place.before)) := by
  obtain ⟨code, keyword, hkind, hkeyword, hopens⟩ :=
    TemplateLine.exists_keyword_of_role false hrole
  obtain ⟨hsupported, rfl⟩ := eq_of_lineCode_block hembed hdebug hkind hkeyword h
  have hread : node.kind.ReadFrom node.content := TemplateLine.readFrom_ofText node.content
  have hopener : openerBefore (node.kind :: place.before) = keyword.text := by
    rw [hkind, openerBefore, hkeyword]
    simp [hopens]
  have htext : instructionText keyword code = code := by
    rw [instructionText, if_neg]
    rintro rfl
    cases hopens
  rw [hkind] at hread
  refine ⟨_, rfl, ?_⟩
  rw [hopener, htext, opener, hopens]
  exact opens_instruction (hnode.prose_tail.mono hread.1.subset) hread.2 hkeyword hsupported
    hopens _

/-- A further branch is written with its branch word. -/
lemma exists_instructionText_eq {code : Text} {keyword : BlockKeyword}
    (hkeyword : BlockKeyword.ofCode? code = some keyword) (hcontinues : keyword.continues = true) :
    ∃ word ∈ branchWords,
      instructionText keyword code = word ++ code.drop keyword.text.length := by
  have hcode := BlockKeyword.eq_append_of_ofCode? hkeyword
  cases keyword with
  | elifTest => exact ⟨"elif", by decide, hcode⟩
  | elseifTest => exact ⟨"elif", by decide, rfl⟩
  | elseBranch => exact ⟨"else", by decide, hcode⟩
  | _ => cases hcontinues

/-- A line that goes on with a block finds the block that the lines before it opened. -/
lemma exists_continues_of_lineCode (hembed : w.settings.embedCode = true)
    (hdebug : w.settings.debug = false) (hnode : node.Plain) (hrole : node.kind.role = .continues)
    (h : w.lineCode scope place hasChildren node = .ok result) :
    ∃ code, result = some code ∧ code.Continues (openerBefore place.before) ∧
      openerBefore (node.kind :: place.before) = openerBefore place.before := by
  obtain ⟨code, keyword, hkind, hkeyword, hcontinues⟩ :=
    TemplateLine.exists_keyword_of_role true hrole
  obtain ⟨-, rfl⟩ := eq_of_lineCode_block hembed hdebug hkind hkeyword h
  obtain ⟨word, hword, htext⟩ := exists_instructionText_eq hkeyword hcontinues
  have hread : node.kind.ReadFrom node.content := TemplateLine.readFrom_ofText node.content
  have hplain := hnode.isPlain_kind
  rw [hkind] at hread hplain
  rw [TemplateLine.isPlain, hkeyword] at hplain
  have hblank : (code.drop keyword.text.length).head?.all Text.isBlank = true := by
    simpa [hcontinues] using hplain
  have hcode := BlockKeyword.eq_append_of_ofCode? hkeyword
  have hprose : Prose (code.drop keyword.text.length) :=
    (hnode.prose_tail.mono hread.1.subset).mono (List.drop_subset _ _)
  have htrim : Trimmed (word ++ code.drop keyword.text.length) := by
    have hfront : Trimmed word ∧ word ≠ [] := by
      simp only [branchWords, List.mem_cons, List.not_mem_nil, or_false] at hword
      rcases hword with rfl | rfl
      · exact ⟨trimmed_trim "else", by decide⟩
      · exact ⟨trimmed_trim "elif", by decide⟩
    exact (hcode ▸ hread.2).append_of_append hfront.1 hfront.2
  refine ⟨_, rfl, ?_, ?_⟩
  · rw [htext, opener, hcontinues]
    exact continues_instruction hword hprose hblank htrim _ _
  · rw [hkind, openerBefore, hkeyword]
    simp [hcontinues]

end CodeWriter

end Offside
