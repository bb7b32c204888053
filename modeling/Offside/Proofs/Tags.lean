import Mathlib
import Offside.Proofs.Text
import Offside.Template.Code

/-!
# Scanning the code of a template

The code of a template is markup with instructions in it.  `scan` reads it from left to right with
one stack: the tag of an element and the instruction of a block put something on it, a closing tag
and the end of a block take off exactly what they belong to, and a further branch has to find a
block on top.  Blocks are numbered in the order in which they are opened, and the scan keeps, for
each further branch, the number of the block it was found in.

**Neutral text.**  Where no tag and no instruction begins, the scan goes on without a change
(`Neutral`).  Comments and declarations are neutral as well: what follows their bracket is no name.

**Pieces.**  The tags that close a block before a further branch are dropped before the code is
scanned.  `scanCode` does both, and what it does with one piece of code in front of any rest is the
rest of this file; only the end of a block has to look at what follows it.
-/

namespace Offside

/-! ## The scan -/

/-- Something that is open at a point of the code. -/
inductive Enclosure where
  | element (tag : Text)
  /-- The blocks are numbered in the order in which they are opened. -/
  | block (number : Nat) (keyword : Text)
  deriving Repr, DecidableEq

/-- What a scan has found so far. -/
structure ScanState where
  /-- How many blocks have been opened. -/
  opened : Nat
  /-- What is open, the innermost first. -/
  stack : List Enclosure
  /-- For each further branch, the number of the block that it goes on with. -/
  branches : List Nat
  deriving Repr, DecidableEq

/-- The words of the instructions that open a block. -/
def blockWords : List Text := ["if", "for", "filter", "macro", "block", "raw"]

/-- The words of the instructions that go on with a block. -/
def branchWords : List Text := ["else", "elif"]

namespace ScanState

/-- Put something on the stack. -/
def push (s : ScanState) (enclosure : Enclosure) : ScanState :=
  { s with stack := enclosure :: s.stack }

/-- Open a block. -/
def openBlock (s : ScanState) (keyword : Text) : ScanState :=
  ⟨s.opened + 1, .block s.opened keyword :: s.stack, s.branches⟩

/-- Take in a tag, given by what stands between its brackets. -/
def tag (s : ScanState) (inner : Text) : Option ScanState :=
  match inner, s.stack with
  | '/' :: name, .element top :: outer =>
    if name = top then some { s with stack := outer } else none
  | '/' :: _, _ => none
  | _, _ =>
    if inner.getLast? = some '/' then some s
    else some (s.push (.element (inner.takeWhile HeadToken.isTagChar)))

/-- Take in an instruction, given by what stands between its marks. -/
def instruction (s : ScanState) (code : Text) : Option ScanState :=
  let word := BlockKeyword.firstWord (Text.trim code)
  if blockWords.contains word then some (s.openBlock word)
  else if branchWords.contains word then
    match s.stack with
    | .block number _ :: _ => some { s with branches := s.branches ++ [number] }
    | _ => none
  else
    match Text.dropPrefix? "end" word, s.stack with
    | none, _ => some s
    | some ended, .block _ keyword :: outer =>
      if ended = keyword then some { s with stack := outer } else none
    | some _, _ => none

end ScanState

/-- Where a scan is: in text, in a tag, or in an instruction.  The last two keep what has been read
of it, the last character first. -/
inductive ScanMode where
  | text
  | tag (read : Text)
  | instruction (read : Text)
  deriving Repr, DecidableEq

/-- Whether a character after an opening bracket makes it a tag. -/
def startsTag (c : Char) : Bool := HeadToken.isTagChar c || c == '/'

/-- Scan code.  There is no answer if something is closed that is not on top of the stack, if a
branch is not in a block, or if a tag or an instruction is not finished. -/
def scan : ScanMode → ScanState → Text → Option ScanState
  | .text, s, [] => some s
  | .text, s, '<' :: c :: rest =>
    if startsTag c then scan (.tag [c]) s rest else scan .text s (c :: rest)
  | .text, s, '\x7b' :: '%' :: rest => scan (.instruction []) s rest
  | .text, s, _ :: rest => scan .text s rest
  | .tag _, _, [] => none
  | .tag read, s, c :: rest =>
    if c = '>' then (s.tag read.reverse).bind fun s => scan .text s rest
    else scan (.tag (c :: read)) s rest
  | .instruction _, _, [] => none
  | .instruction read, s, '%' :: '\x7d' :: rest =>
    (s.instruction read.reverse).bind fun s => scan .text s rest
  | .instruction read, s, c :: rest => scan (.instruction (c :: read)) s rest

/-- What is found in the code of an outline, once the ends of continued blocks are dropped. -/
def scanCode (s : ScanState) (code : Text) : Option ScanState := scan .text s (joinBranches code)

/-! ## Neutral text -/

/-- No instruction begins with the first of two neighbouring characters. -/
def Unmarked (a b : Char) : Prop := ¬(a = '\x7b' ∧ b = '%')

/-- Neither a tag nor an instruction begins with the first of two neighbouring characters. -/
def Inert (a b : Char) : Prop := ¬(a = '<' ∧ startsTag b = true) ∧ Unmarked a b

instance (a b : Char) : Decidable (Unmarked a b) := inferInstanceAs (Decidable (¬_))

instance (a b : Char) : Decidable (Inert a b) := inferInstanceAs (Decidable (_ ∧ _))

/-- A text in which no instruction begins, whatever follows it. -/
structure Uninstructed (t : Text) : Prop where
  chain : t.IsChain Unmarked
  last : ∀ c ∈ t.getLast?, c ≠ '\x7b'

/-- A text in which neither a tag nor an instruction begins, whatever follows it. -/
structure Neutral (t : Text) : Prop where
  chain : t.IsChain Inert
  last : ∀ c ∈ t.getLast?, c ≠ '<' ∧ c ≠ '\x7b'

lemma Neutral.uninstructed {t : Text} (h : Neutral t) : Uninstructed t :=
  ⟨h.chain.imp fun _ _ hab => hab.2, fun c hc => (h.last c hc).2⟩

lemma Neutral.nil : Neutral [] := ⟨List.isChain_nil, by simp⟩

lemma Neutral.append {s t : Text} (hs : Neutral s) (ht : Neutral t) : Neutral (s ++ t) := by
  refine ⟨List.isChain_append.2 ⟨hs.chain, ht.chain, fun a ha b _ => ?_⟩, fun c hc => ?_⟩
  · have hlast := hs.last a ha
    exact ⟨fun h => hlast.1 h.1, fun h => hlast.2 h.1⟩
  · cases t with
    | nil => exact hs.last c (by simpa using hc)
    | cons d ds =>
        rw [List.getLast?_append_of_ne_nil _ (List.cons_ne_nil d ds)] at hc
        exact ht.last c hc

/-- A text without opening braces holds no instruction. -/
lemma uninstructed_of_not_mem {t : Text} (h : '\x7b' ∉ t) : Uninstructed t := by
  refine ⟨(List.isChain_isInfix t).imp fun a b hab hmark => ?_, fun c hc => ?_⟩
  · exact h (hmark.1 ▸ hab.subset List.mem_cons_self)
  · rintro rfl
    exact h (List.mem_of_getLast? hc)

lemma scan_text_cons {c : Char} {rest : Text} (htag : c ≠ '<')
    (hmark : ∀ d ∈ rest.head?, Unmarked c d) (s : ScanState) :
    scan .text s (c :: rest) = scan .text s rest := by
  rw [scan]
  · rintro - - rfl
    exact absurd rfl htag
  · rintro tail rfl rfl
    exact hmark '%' rfl ⟨rfl, rfl⟩

lemma scan_text_bracket {c : Char} (h : startsTag c = false) (s : ScanState) (rest : Text) :
    scan .text s ('<' :: c :: rest) = scan .text s (c :: rest) := by
  rw [scan, if_neg (by simp [h])]

/-- The scan passes neutral text. -/
lemma scan_neutral {t : Text} (h : Neutral t) (s : ScanState) (rest : Text) :
    scan .text s (t ++ rest) = scan .text s rest := by
  obtain ⟨hchain, hlast⟩ := h
  induction t with
  | nil => rfl
  | cons c cs ih =>
      cases cs with
      | nil =>
          have hc := hlast c rfl
          exact scan_text_cons hc.1 (fun d _ hmark => hc.2 hmark.1) s
      | cons d ds =>
          have hcd : Inert c d := hchain.rel_head? rfl
          have htail := ih hchain.tail (by simpa using hlast)
          by_cases hc : c = '<'
          · subst hc
            have hd : startsTag d = false := by simpa using fun hd => hcd.1 ⟨rfl, hd⟩
            exact (scan_text_bracket hd s _).trans htail
          · refine (scan_text_cons hc ?_ s).trans htail
            rintro e he
            cases he
            exact hcd.2

lemma dropPrefix?_of_unmarked {c : Char} {rest : Text} (h : ∀ d ∈ rest.head?, Unmarked c d)
    (word : Text) : Text.dropPrefix? ('\x7b' :: '%' :: word) (c :: rest) = none := by
  cases hopt : Text.dropPrefix? ('\x7b' :: '%' :: word) (c :: rest) with
  | none => rfl
  | some after =>
      obtain ⟨rfl, rfl⟩ := List.cons.inj (eq_append_of_dropPrefix? hopt)
      exact absurd ⟨rfl, rfl⟩ (h '%' rfl)

lemma branchAfterEnd?_of_unmarked {c : Char} {rest : Text} (h : ∀ d ∈ rest.head?, Unmarked c d) :
    branchAfterEnd? (c :: rest) = none := by
  have hdrop : Text.dropPrefix? "\x7b% end" (c :: rest) = none := dropPrefix?_of_unmarked h " end"
  rw [branchAfterEnd?, hdrop]

lemma joinBranches_cons {c : Char} {rest : Text} (h : branchAfterEnd? (c :: rest) = none) :
    joinBranches (c :: rest) = c :: joinBranches rest := by
  rw [joinBranches]
  split
  next branch hbranch => rw [h] at hbranch; exact absurd hbranch (by simp)
  next => rfl

lemma joinBranches_branch {c : Char} {rest branch : Text}
    (h : branchAfterEnd? (c :: rest) = some branch) :
    joinBranches (c :: rest) = joinBranches branch := by
  rw [joinBranches]
  split
  next found hfound =>
    rw [h] at hfound
    rw [Option.some.inj hfound]
  next hnone =>
    rw [h] at hnone
    cases hnone

/-- Where no instruction begins, nothing is dropped. -/
lemma joinBranches_append {t : Text} (h : Uninstructed t) (rest : Text) :
    joinBranches (t ++ rest) = t ++ joinBranches rest := by
  obtain ⟨hchain, hlast⟩ := h
  induction t with
  | nil => rfl
  | cons c cs ih =>
      cases cs with
      | nil =>
          have hc := hlast c rfl
          exact joinBranches_cons (branchAfterEnd?_of_unmarked fun d _ hmark => hc hmark.1)
      | cons d ds =>
          have htail := ih hchain.tail (by simpa using hlast)
          have hcd : ∀ e ∈ (d :: ds ++ rest).head?, Unmarked c e := by
            rintro e he
            cases he
            exact hchain.rel_head? rfl
          rw [List.cons_append, joinBranches_cons (branchAfterEnd?_of_unmarked hcd), htail]
          rfl

/-! ## Inside of tags -/

lemma exists_of_dropPrefix?_stop {start t rest after : Text} (hstart : '>' ∉ start)
    (h : Text.dropPrefix? start (t ++ '>' :: rest) = some after) :
    ∃ later, t = start ++ later ∧ after = later ++ '>' :: rest := by
  induction start generalizing t with
  | nil =>
      cases h
      exact ⟨t, rfl, rfl⟩
  | cons p ps ih =>
      rw [List.mem_cons, not_or] at hstart
      cases t with
      | nil =>
          rw [List.nil_append, Text.dropPrefix?, if_neg (Ne.symm hstart.1)] at h
          cases h
      | cons c cs =>
          rw [List.cons_append, Text.dropPrefix?] at h
          split_ifs at h with hp
          obtain ⟨later, rfl, rfl⟩ := ih hstart.2 h
          exact ⟨later, by rw [hp]; rfl, rfl⟩

lemma dropWhile_stop {p : Char → Bool} (hp : p '>' = false) (t rest : Text) :
    (t ++ '>' :: rest).dropWhile p = t.dropWhile p ++ '>' :: rest := by
  induction t with
  | nil => simp [hp]
  | cons c cs ih =>
      rw [List.cons_append, List.dropWhile_cons, List.dropWhile_cons]
      split_ifs
      · exact ih
      · rfl

/-- Inside of a tag a branch begins with a brace that stands there. -/
lemma head?_of_startsBranch {t rest : Text} (h : startsBranch (t ++ '>' :: rest) = true) :
    t.head? = some '\x7b' := by
  rw [startsBranch, List.any_eq_true] at h
  obtain ⟨start, hstart, hmatch⟩ := h
  split at hmatch
  · next later hlater =>
      simp only [List.mem_cons, List.not_mem_nil, or_false] at hstart
      rcases hstart with rfl | rfl
      · obtain ⟨_, hfront, -⟩ := exists_of_dropPrefix?_stop (by decide) hlater
        rw [hfront]
        rfl
      · obtain ⟨_, hfront, -⟩ := exists_of_dropPrefix?_stop (by decide) hlater
        rw [hfront]
        rfl
  · cases hmatch

/-- What is dropped inside of a tag does not reach beyond its bracket. -/
lemma exists_of_branchAfterEnd?_stop {t rest branch : Text}
    (h : branchAfterEnd? (t ++ '>' :: rest) = some branch) :
    ∃ later, later <:+ t ∧ later.length < t.length ∧ later.head? = some '\x7b' ∧
      branch = later ++ '>' :: rest := by
  rw [branchAfterEnd?] at h
  split at h
  · cases h
  next opened hopened =>
  split_ifs at h
  obtain ⟨afterEnd, ht, hafterEnd⟩ := exists_of_dropPrefix?_stop (by decide) hopened
  split at h
  · cases h
  next closed hclosed =>
  rw [hafterEnd, dropWhile_stop (by decide)] at hclosed
  obtain ⟨afterMark, hwords, rfl⟩ := exists_of_dropPrefix?_stop (by decide) hclosed
  rw [Text.trimStart, dropWhile_stop (by decide)] at h
  split_ifs at h with hbranch
  cases h
  have hsuffix : afterMark.dropWhile Text.isBlank <:+ afterEnd := by
    have hmark : afterMark <:+ afterEnd.dropWhile Text.isWord := ⟨_, hwords.symm⟩
    exact ((List.dropWhile_suffix _).trans hmark).trans (List.dropWhile_suffix _)
  refine ⟨afterMark.dropWhile Text.isBlank, ?_, ?_, head?_of_startsBranch hbranch, rfl⟩
  · rw [ht]
    exact hsuffix.trans (List.suffix_append _ _)
  · rw [ht, List.length_append]
    have hle := hsuffix.length_le
    have hpos : 0 < "\x7b% end".toList.length := by decide
    omega

/-- Inside of a tag whole ends of blocks may be dropped, but the tag stays one: its end stays, and
if its beginning does not, it begins with a brace then. -/
lemma exists_joinBranches_stop {t : Text} (h : '>' ∉ t) (rest : Text) :
    ∃ kept, '>' ∉ kept ∧ (∀ c ∈ kept.head?, c ∈ t.head? ∨ c = '\x7b') ∧
      kept.getLast? = t.getLast? ∧
      joinBranches (t ++ '>' :: rest) = kept ++ '>' :: joinBranches rest := by
  -- Many characters go at once where an end is dropped, so the induction is on the length.
  induction hlength : t.length using Nat.strong_induction_on generalizing t with
  | _ n ih =>
    cases t with
    | nil =>
        refine ⟨[], by simp, by simp, rfl, ?_⟩
        exact joinBranches_cons (branchAfterEnd?_of_unmarked fun d _ hmark => by cases hmark.1)
    | cons c cs =>
        cases hbranch : branchAfterEnd? (c :: cs ++ '>' :: rest) with
        | none =>
            rw [List.mem_cons, not_or] at h
            rw [List.length_cons] at hlength
            obtain ⟨kept, hkept, -, hlast, heq⟩ := ih cs.length (by omega) h.2 rfl
            refine ⟨c :: kept, by simp [h.1, hkept], by simp, ?_, ?_⟩
            · rw [List.getLast?_cons, List.getLast?_cons, hlast]
            · have hcons : joinBranches (c :: (cs ++ '>' :: rest)) = c :: joinBranches _ :=
                joinBranches_cons hbranch
              rw [List.cons_append, hcons, heq]
              rfl
        | some branch =>
            obtain ⟨later, hsuffix, hshorter, hbrace, rfl⟩ := exists_of_branchAfterEnd?_stop hbranch
            have hlater : '>' ∉ later := fun hmem => h (hsuffix.subset hmem)
            obtain ⟨kept, hkept, hfirst, hlast, heq⟩ := ih later.length (by omega) hlater rfl
            refine ⟨kept, hkept, fun d hd => ?_, ?_, ?_⟩
            · rcases hfirst d hd with hd | hd
              · rw [hbrace] at hd
                exact Or.inr (Option.some.inj hd).symm
              · exact Or.inr hd
            · obtain ⟨front, hfront⟩ := hsuffix
              have hne : later ≠ [] := by
                rintro rfl
                cases hbrace
              rw [hlast, ← hfront, List.getLast?_append_of_ne_nil _ hne]
            · have hdrop : joinBranches (c :: (cs ++ '>' :: rest)) = joinBranches _ :=
                joinBranches_branch hbranch
              rw [List.cons_append, hdrop, heq]

/-! ## Pieces of code -/

lemma scanCode_neutral {t : Text} (h : Neutral t) (s : ScanState) (rest : Text) :
    scanCode s (t ++ rest) = scanCode s rest := by
  rw [scanCode, joinBranches_append h.uninstructed, scan_neutral h, scanCode]

lemma scan_tag {inner : Text} (h : '>' ∉ inner) (read : Text) (s : ScanState) (rest : Text) :
    scan (.tag read) s (inner ++ '>' :: rest)
      = (s.tag (read.reverse ++ inner)).bind fun s => scan .text s rest := by
  induction inner generalizing read with
  | nil => rw [List.nil_append, scan, if_pos rfl, List.append_nil]
  | cons c cs ih =>
      rw [List.mem_cons, not_or] at h
      rw [List.cons_append, scan, if_neg (Ne.symm h.1), ih h.2]
      simp

/-- A tag is taken in as a whole.  Of what follows its name some ends of blocks may have been
dropped before. -/
lemma exists_scanCode_tag {name body : Text} (hstart : name.head?.any startsTag = true)
    (hbrace : '\x7b' ∉ name) (hname : '>' ∉ name) (hbody : '>' ∉ body) (s : ScanState)
    (rest : Text) :
    ∃ kept, '>' ∉ kept ∧ (∀ c ∈ kept.head?, c ∈ body.head? ∨ c = '\x7b') ∧
      kept.getLast? = body.getLast? ∧
      scanCode s ('<' :: (name ++ body) ++ '>' :: rest)
        = (s.tag (name ++ kept)).bind fun s => scanCode s rest := by
  obtain ⟨kept, hkept, hfirst, hlast, hjoin⟩ := exists_joinBranches_stop hbody rest
  refine ⟨kept, hkept, hfirst, hlast, ?_⟩
  have hfront : Uninstructed ('<' :: name) := uninstructed_of_not_mem (by simp [hbrace])
  have hsplit : '<' :: (name ++ body) ++ '>' :: rest = ('<' :: name) ++ (body ++ '>' :: rest) := by
    simp
  rw [scanCode, hsplit, joinBranches_append hfront, hjoin]
  cases name with
  | nil => simp at hstart
  | cons c cs =>
      have hc : startsTag c = true := by simpa using hstart
      rw [List.mem_cons, not_or] at hname
      have hinner : '>' ∉ cs ++ kept := by
        rw [List.mem_append, not_or]
        exact ⟨hname.2, hkept⟩
      simp only [List.cons_append, ← List.append_assoc]
      rw [scan, if_pos hc, scan_tag hinner]
      rfl

lemma scan_instruction {code : Text} (h : '%' ∉ code) (read : Text) (s : ScanState) (rest : Text) :
    scan (.instruction read) s (code ++ '%' :: '\x7d' :: rest)
      = (s.instruction (read.reverse ++ code)).bind fun s => scan .text s rest := by
  induction code generalizing read with
  | nil => rw [List.nil_append, scan, List.append_nil]
  | cons c cs ih =>
      rw [List.mem_cons, not_or] at h
      rw [List.cons_append, scan, ih h.2]
      · simp
      · rintro tail rfl
        exact absurd rfl h.1

/-- A word that an instruction begins with does not reach beyond its code. -/
lemma dropPrefix?_append_blank {word code rest : Text} (hword : ' ' ∉ word) :
    Text.dropPrefix? word (code ++ ' ' :: rest)
      = (Text.dropPrefix? word code).map (· ++ ' ' :: rest) := by
  induction word generalizing code with
  | nil => rfl
  | cons w ws ih =>
      rw [List.mem_cons, not_or] at hword
      cases code with
      | nil => simp [Text.dropPrefix?, Ne.symm hword.1]
      | cons c cs =>
          rw [List.cons_append, Text.dropPrefix?, Text.dropPrefix?]
          split_ifs
          · exact ih hword.2
          · rfl

lemma instructionMarks_append (code rest : Text) :
    CodeWriter.instructionMarks code ++ rest
      = '\x7b' :: '%' :: ' ' :: (code ++ ' ' :: '%' :: '\x7d' :: rest) := by
  simp [CodeWriter.instructionMarks]

/-- An instruction that is not dropped is taken in as a whole. -/
lemma scanCode_instructionMarks {code rest : Text} (hmark : '%' ∉ code) (hbrace : '\x7b' ∉ code)
    (hnone : branchAfterEnd? (CodeWriter.instructionMarks code ++ rest) = none) (s : ScanState) :
    scanCode s (CodeWriter.instructionMarks code ++ rest)
      = (s.instruction (' ' :: code ++ [' '])).bind fun s => scanCode s rest := by
  have htail : Uninstructed ('%' :: ' ' :: (code ++ [' ', '%', '\x7d'])) :=
    uninstructed_of_not_mem (by simp [hbrace])
  have hjoin : joinBranches (CodeWriter.instructionMarks code ++ rest)
      = '\x7b' :: '%' :: ' ' :: (code ++ ' ' :: '%' :: '\x7d' :: joinBranches rest) := by
    rw [instructionMarks_append] at hnone ⊢
    rw [joinBranches_cons hnone]
    simpa using joinBranches_append htail rest
  have hpadded : '%' ∉ ' ' :: (code ++ [' ']) := by simp [hmark]
  rw [scanCode, hjoin, scan]
  simpa [scanCode] using scan_instruction hpadded [] s (joinBranches rest)

/-- Only the end of a block is ever dropped. -/
lemma scanCode_instruction {code : Text} (hmark : '%' ∉ code) (hbrace : '\x7b' ∉ code)
    (hend : Text.dropPrefix? "end" code = none) (s : ScanState) (rest : Text) :
    scanCode s (CodeWriter.instructionMarks code ++ rest)
      = (s.instruction (' ' :: code ++ [' '])).bind fun s => scanCode s rest := by
  have hdrop : Text.dropPrefix? "\x7b% end" (CodeWriter.instructionMarks code ++ rest) = none := by
    rw [instructionMarks_append]
    change Text.dropPrefix? "end" (code ++ ' ' :: _) = none
    rw [dropPrefix?_append_blank (by decide), hend]
    rfl
  exact scanCode_instructionMarks hmark hbrace (by rw [branchAfterEnd?, hdrop]) s

namespace ScanState

/-- The word that decides about an instruction is the first one of its code. -/
lemma instruction_eq {code : Text} (h : Trimmed code) (s : ScanState) :
    s.instruction (' ' :: code ++ [' '])
      = if blockWords.contains (BlockKeyword.firstWord code) then
          some (s.openBlock (BlockKeyword.firstWord code))
        else if branchWords.contains (BlockKeyword.firstWord code) then
          match s.stack with
          | .block number _ :: _ => some { s with branches := s.branches ++ [number] }
          | _ => none
        else
          match Text.dropPrefix? "end" (BlockKeyword.firstWord code), s.stack with
          | none, _ => some s
          | some ended, .block _ keyword :: outer =>
            if ended = keyword then some { s with stack := outer } else none
          | some _, _ => none := by
  rw [instruction, h.trim_padded]

lemma instruction_block {code : Text} (h : Trimmed code)
    (hword : BlockKeyword.firstWord code ∈ blockWords) (s : ScanState) :
    s.instruction (' ' :: code ++ [' ']) = some (s.openBlock (BlockKeyword.firstWord code)) := by
  rw [instruction_eq h, if_pos (List.contains_iff_mem.2 hword)]

lemma instruction_branch {code : Text} (h : Trimmed code)
    (hword : BlockKeyword.firstWord code ∈ branchWords) (opened number : Nat) (keyword : Text)
    (outer : List Enclosure) (branches : List Nat) :
    instruction ⟨opened, .block number keyword :: outer, branches⟩ (' ' :: code ++ [' '])
      = some ⟨opened, .block number keyword :: outer, branches ++ [number]⟩ := by
  have hblock : blockWords.contains (BlockKeyword.firstWord code) = false := by
    have hall : (branchWords.all fun word => !blockWords.contains word) = true := by decide
    simpa using List.all_eq_true.1 hall _ hword
  rw [instruction_eq h, hblock, if_neg Bool.false_ne_true,
    if_pos (List.contains_iff_mem.2 hword)]

lemma instruction_plain {code : Text} (h : Trimmed code)
    (hblock : BlockKeyword.firstWord code ∉ blockWords)
    (hbranch : BlockKeyword.firstWord code ∉ branchWords)
    (hend : Text.dropPrefix? "end" (BlockKeyword.firstWord code) = none) (s : ScanState) :
    s.instruction (' ' :: code ++ [' ']) = some s := by
  rw [instruction_eq h, if_neg (by simpa using hblock), if_neg (by simpa using hbranch), hend]

end ScanState

/-! ## Further branches -/

lemma isWord_of_isWordChar {c : Char} (h : BlockKeyword.isWordChar c = true) :
    Text.isWord c = true := by
  have hsmall : c.toNat < 0x80 := by
    simp only [BlockKeyword.isWordChar, Char.isAlphanum, Char.isAlpha, Char.isUpper, Char.isLower,
      Char.isDigit, Bool.or_eq_true, Bool.and_eq_true, decide_eq_true_eq, beq_iff_eq,
      UInt32.le_iff_toNat_le] at h
    rcases h with ((⟨-, hle⟩ | ⟨-, hle⟩) | ⟨-, hle⟩) | rfl
    · exact lt_of_le_of_lt hle (by decide)
    · exact lt_of_le_of_lt hle (by decide)
    · exact lt_of_le_of_lt hle (by decide)
    · decide
  rw [Text.isWord, if_pos hsmall]
  exact h

/-- Whether code begins with a word that it does not go on with. -/
def beginsWith (word code : Text) : Bool :=
  (Text.dropPrefix? word code).any fun after => !after.head?.any Text.isWord

/-- An instruction begins with a word exactly if its code does. -/
lemma match_dropPrefix?_instructionMarks {word : Text} (hblank : ' ' ∉ word) (code rest : Text) :
    (match Text.dropPrefix? ("\x7b% ".toList ++ word)
        (CodeWriter.instructionMarks code ++ rest) with
      | some rest => !rest.head?.any Text.isWord
      | none => false) = beginsWith word code := by
  rw [instructionMarks_append]
  change (match Text.dropPrefix? word (code ++ ' ' :: _) with
    | some rest => !rest.head?.any Text.isWord
    | none => false) = _
  rw [dropPrefix?_append_blank hblank, beginsWith]
  cases Text.dropPrefix? word code with
  | none => rfl
  | some after =>
      cases after with
      | nil => rfl
      | cons c cs => rfl

/-- A further branch is an instruction that begins with a branch word. -/
lemma startsBranch_instruction (code rest : Text) :
    startsBranch (CodeWriter.instructionMarks code ++ rest)
      = branchWords.any fun word => beginsWith word code := by
  have helse : ' ' ∉ "else".toList := by decide
  have helif : ' ' ∉ "elif".toList := by decide
  rw [startsBranch, branchWords]
  simp only [List.any_cons, List.any_nil, Bool.or_false]
  rw [← match_dropPrefix?_instructionMarks helse code rest,
    ← match_dropPrefix?_instructionMarks helif code rest]
  rfl

lemma firstWord_of_beginsWith {word code : Text}
    (hword : ∀ c ∈ word, BlockKeyword.isWordChar c = true) (h : beginsWith word code = true) :
    BlockKeyword.firstWord code = word := by
  obtain ⟨after, hafter, hend⟩ := (Option.any_eq_true _ _).1 h
  rw [eq_append_of_dropPrefix? hafter, BlockKeyword.firstWord, List.takeWhile_append_of_pos hword]
  cases after with
  | nil => simp
  | cons c cs =>
      have hc : BlockKeyword.isWordChar c = false := by
        by_contra hc
        simp [isWord_of_isWordChar (Bool.not_eq_false _ ▸ hc)] at hend
      simp [hc]

/-- A text that does not begin with a further branch, whatever white space stands before it. -/
def NoBranch (t : Text) : Prop := startsBranch (Text.trimStart t) = false

lemma noBranch_nil : NoBranch [] := rfl

lemma noBranch_of_blank {blanks t : Text} (hblank : ∀ c ∈ blanks, Text.isBlank c = true)
    (h : NoBranch t) : NoBranch (blanks ++ t) := by
  rw [NoBranch, Text.trimStart, List.dropWhile_append_of_pos hblank]
  exact h

lemma trimStart_visible {c : Char} (h : Text.isBlank c = false) (rest : Text) :
    Text.trimStart (c :: rest) = c :: rest :=
  trimStart_eq_self fun d hd => by cases hd; exact h

/-- Any visible character but the mark of an instruction keeps a branch from beginning. -/
lemma noBranch_cons {c : Char} {rest : Text} (hc : Text.isBlank c = false)
    (h : ∀ d ∈ rest.head?, Unmarked c d) : NoBranch (c :: rest) := by
  rw [NoBranch, trimStart_visible hc, startsBranch, List.any_eq_false]
  intro start hstart
  simp only [List.mem_cons, List.not_mem_nil, or_false] at hstart
  rcases hstart with rfl | rfl
  · have hdrop : Text.dropPrefix? "\x7b% else".toList (c :: rest) = none :=
      dropPrefix?_of_unmarked h " else"
    rw [hdrop]
    exact Bool.false_ne_true
  · have hdrop : Text.dropPrefix? "\x7b% elif".toList (c :: rest) = none :=
      dropPrefix?_of_unmarked h " elif"
    rw [hdrop]
    exact Bool.false_ne_true

lemma trimStart_instructionMarks (code rest : Text) :
    Text.trimStart (CodeWriter.instructionMarks code ++ rest)
      = CodeWriter.instructionMarks code ++ rest := by
  rw [instructionMarks_append, trimStart_visible (by decide)]

lemma noBranch_instruction {code : Text}
    (h : (branchWords.any fun word => beginsWith word code) = false) (rest : Text) :
    NoBranch (CodeWriter.instructionMarks code ++ rest) := by
  rw [NoBranch, trimStart_instructionMarks, startsBranch_instruction, h]

/-! ## The end of a block -/

/-- The end of a block is dropped exactly before a further branch. -/
lemma branchAfterEnd?_end {keyword : Text} (hk : keyword ∈ blockWords) (rest : Text) :
    branchAfterEnd? (CodeWriter.instructionMarks ("end" ++ keyword) ++ rest)
      = if startsBranch (Text.trimStart rest) then some (Text.trimStart rest) else none := by
  have hword : ∀ c ∈ keyword, Text.isWord c = true := by
    have hall : (blockWords.all fun word => word.all Text.isWord) = true := by decide
    exact List.all_eq_true.1 (List.all_eq_true.1 hall keyword hk)
  have hne : keyword.isEmpty = false := by
    have hall : (blockWords.all fun word => !word.isEmpty) = true := by decide
    simpa using List.all_eq_true.1 hall keyword hk
  have hdrop : Text.dropPrefix? "\x7b% end" (CodeWriter.instructionMarks ("end" ++ keyword) ++ rest)
      = some (keyword ++ ' ' :: '%' :: '\x7d' :: rest) := by
    rw [instructionMarks_append]
    rfl
  have hblank : Text.isWord ' ' = false := by decide
  have hmark : Text.dropPrefix? " %\x7d" (' ' :: '%' :: '\x7d' :: rest) = some rest := rfl
  rw [branchAfterEnd?, hdrop]
  simp only [List.takeWhile_append_of_pos hword, List.dropWhile_append_of_pos hword, hblank,
    List.takeWhile_cons, List.dropWhile_cons, List.append_nil, hne, hmark, Bool.false_eq_true,
    if_false]

/-- Before a further branch the end of a block is dropped. -/
lemma scanCode_end_branch {keyword rest : Text} (hk : keyword ∈ blockWords)
    (h : startsBranch (Text.trimStart rest) = true) (s : ScanState) :
    scanCode s (CodeWriter.instructionMarks ("end" ++ keyword) ++ rest)
      = scanCode s (Text.trimStart rest) := by
  have hsome := branchAfterEnd?_end hk rest
  rw [if_pos h, instructionMarks_append] at hsome
  rw [scanCode, scanCode, instructionMarks_append, joinBranches_branch hsome]

/-- Anywhere else it takes the block off the stack. -/
lemma scanCode_end {keyword rest : Text} (hk : keyword ∈ blockWords) (h : NoBranch rest)
    (opened number : Nat) (outer : List Enclosure) (branches : List Nat) :
    scanCode ⟨opened, .block number keyword :: outer, branches⟩
        (CodeWriter.instructionMarks ("end" ++ keyword) ++ rest)
      = scanCode ⟨opened, outer, branches⟩ rest := by
  have hplain : '%' ∉ "end".toList ++ keyword ∧ '\x7b' ∉ "end".toList ++ keyword := by
    have hall : (blockWords.all fun word =>
        !("end".toList ++ word).contains '%' && !("end".toList ++ word).contains '\x7b')
        = true := by
      decide
    simpa using List.all_eq_true.1 hall keyword hk
  have hnone : branchAfterEnd? (CodeWriter.instructionMarks ("end" ++ keyword) ++ rest) = none := by
    rw [NoBranch] at h
    rw [branchAfterEnd?_end hk, h]
    rfl
  have htaken : ScanState.instruction ⟨opened, .block number keyword :: outer, branches⟩
      (' ' :: ("end" ++ keyword) ++ [' ']) = some ⟨opened, outer, branches⟩ := by
    simp only [blockWords, List.mem_cons, List.not_mem_nil, or_false] at hk
    rcases hk with rfl | rfl | rfl | rfl | rfl | rfl <;> rfl
  rw [scanCode_instructionMarks hplain.1 hplain.2 hnone, htaken]
  rfl

end Offside
