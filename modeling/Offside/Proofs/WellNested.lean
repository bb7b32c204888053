import Mathlib
import Offside.Proofs.LineScan
import Offside.Proofs.Runs

/-!
# Generated templates are well nested

The code of an outline is scanned with one stack, and every tag and every block is closed where it
belongs.

**Outlines.**  The nodes of an outline are made from lines (`forestAll_templateOutline`), and a
forest whose nodes all have a property is built up from smaller ones (`ForestAll`), which is the
induction of this file.

**Chains.**  The lines that go on with a block form a chain with the line that opened it.  The tag
that closes a block is written after each of them and dropped before the next, so while lines on one
level are scanned the block of the chain stays on the stack and its closing tag stays ahead of the
rest (`pendingEnd`).  `scanCode_forestCode` says this for any lines before and any text after.

**The result.**  `scan_templateCode` puts both together.  What it needs of the settings is that the
texts which are written into tags do not end them (`TemplateSettings.KeepsTags`).
-/

namespace Offside

/-! ## Forests -/

/-- Every node of a forest has a property. -/
inductive ForestAll {α : Type} (p : α → Prop) : List (OutlineTree α) → Prop where
  | nil : ForestAll p []
  | cons {id : NodeId} {data : α} {children rest : List (OutlineTree α)} : p data →
      ForestAll p children → ForestAll p rest → ForestAll p (.node id data children :: rest)

namespace Outline

variable {α : Type} {p : α → Prop}

/-- Every node of an outline has a property. -/
def All (p : α → Prop) (t : Outline α) : Prop := ∀ node ∈ t.nodes, p node.data

lemma All.forestAll_treesWithin {t : Outline α} (h : t.All p) (levels : Nat) (ids : List NodeId) :
    ForestAll p (t.treesWithin levels ids) := by
  induction levels generalizing ids with
  | zero => exact .nil
  | succ levels ih =>
      rw [treesWithin]
      induction ids with
      | nil => exact .nil
      | cons id ids ihIds =>
          rw [List.filterMap_cons]
          cases hnode : t.nodes[id]? with
          | none => exact ihIds
          | some node => exact .cons (h node (List.mem_of_getElem? hnode)) (ih node.children) ihIds

lemma All.modify {t : Outline α} (h : t.All p) (id : NodeId) {f : OutlineNode α → OutlineNode α}
    (hf : ∀ node, (f node).data = node.data) : (t.modify id f).All p := by
  intro node hnode
  obtain ⟨index, hindex⟩ := List.mem_iff_getElem?.1 hnode
  rw [Outline.modify, List.getElem?_modify] at hindex
  obtain ⟨old, hold, rfl⟩ := Option.map_eq_some_iff.1 hindex
  have hdata := h old (List.mem_of_getElem? hold)
  split_ifs
  · rwa [hf]
  · exact hdata

lemma All.append {t : Outline α} (h : t.All p) (parent : Option NodeId) {data : α}
    (hdata : p data) : (t.append parent data).All p := by
  intro node hnode
  cases parent with
  | none =>
      rcases List.mem_append.1 hnode with hnode | hnode
      · exact h node hnode
      · rw [List.mem_singleton.1 hnode]
        exact hdata
  | some id =>
      rcases List.mem_append.1 hnode with hnode | hnode
      · refine h.modify id ?_ node hnode
        exact fun _ => rfl
      · rw [List.mem_singleton.1 hnode]
        exact hdata

lemma All.ofDepths {lines : List (Nat × α)} (h : ∀ line ∈ lines, p line.2) :
    (Outline.ofDepths lines).All p := by
  have hfold : ∀ (lines : List (Nat × α)) (b : OutlineBuilder α), b.outline.All p →
      (∀ line ∈ lines, p line.2) →
      (lines.foldl (fun b line => b.push line.1 line.2) b).outline.All p := by
    intro lines
    induction lines with
    | nil => exact fun b hb _ => hb
    | cons line lines ih =>
        intro b hb hlines
        refine ih _ ?_ fun other hother => hlines other (List.mem_cons_of_mem _ hother)
        exact hb.append _ (hlines line List.mem_cons_self)
  exact hfold lines _ (fun node hnode => by cases hnode) h

end Outline

lemma Outline.All.detachHidden {p : TemplateNode → Prop} {t : TemplateOutline} (h : t.All p) :
    (detachHidden t).All p := by
  rw [Offside.detachHidden]
  generalize t.preorder.filter (hidesChildrenOf t) = ids
  induction ids generalizing t with
  | nil => exact h
  | cons id ids ih => exact ih (h.modify id fun _ => rfl)

lemma exists_line_of_mem_nodesFrom {unit : IndentUnit} {lines : List OriginLine} {first : Nat}
    {node : Nat × TemplateNode} (h : node ∈ nodesFrom unit first lines) :
    ∃ line ∈ lines, Text.isBlankText line.text = false ∧
      ∃ number, node.2 = ⟨number, Text.trim line.text, line.origin⟩ := by
  induction lines generalizing first with
  | nil => cases h
  | cons line lines ih =>
      have hlater : ∀ {next : Nat}, node ∈ nodesFrom unit next lines → ∃ other ∈ line :: lines,
          Text.isBlankText other.text = false ∧
            ∃ number, node.2 = ⟨number, Text.trim other.text, other.origin⟩ := by
        intro next hnext
        obtain ⟨other, hother, hfound⟩ := ih hnext
        exact ⟨other, List.mem_cons_of_mem _ hother, hfound⟩
      rw [nodesFrom] at h
      split_ifs at h with hblank
      · exact hlater h
      · rcases List.mem_cons.1 h with rfl | h
        · exact ⟨line, List.mem_cons_self, Bool.not_eq_true _ ▸ hblank, first, rfl⟩
        · exact hlater h

/-- The nodes of an outline have every property that the lines give them. -/
lemma forestAll_templateOutline {p : TemplateNode → Prop} {lines : List OriginLine}
    (h : ∀ line ∈ lines, Text.isBlankText line.text = false →
      ∀ number, p ⟨number, Text.trim line.text, line.origin⟩) (unit : IndentUnit) :
    ForestAll p (templateOutline unit lines).trees := by
  have hnodes : ∀ node ∈ nodesFrom unit 1 lines, p node.2 := by
    intro node hnode
    obtain ⟨line, hline, hblank, number, hnumber⟩ := exists_line_of_mem_nodesFrom hnode
    exact hnumber ▸ h line hline hblank number
  exact (Outline.All.ofDepths hnodes).detachHidden.forestAll_treesWithin _ _

lemma forestAll_plain {lines : List OriginLine}
    (h : ∀ line ∈ lines, isPlainLine (Text.trim line.text) = true) (unit : IndentUnit) :
    ForestAll TemplateNode.Plain (templateOutline unit lines).trees :=
  forestAll_templateOutline
    (fun line hline hblank _ => ⟨h line hline, trimmed_trim _, trim_ne_nil hblank⟩) unit

/-! ## Chains of branches -/

/-- Whether the nearest line before, hidden ones left out, opens a block or goes on with one. -/
def followsBlock (before : List TemplateLine) : Bool :=
  (before.find? fun line => line.role != .hidden).any fun line =>
    line.role == .opens || line.role == .continues

mutual

/-- Every line of a tree that goes on with a block follows one. -/
def treeFollows (before : List TemplateLine) : OutlineTree TemplateNode → Bool
  | .node _ node children =>
    (node.kind.role != .continues || followsBlock before) && branchesFollow [] children

/-- Every line of a forest that goes on with a block follows one, `before` being the kinds of the
lines before the forest. -/
def branchesFollow (before : List TemplateLine) : List (OutlineTree TemplateNode) → Bool
  | [] => true
  | tree :: rest => treeFollows before tree && branchesFollow (tree.data.kind :: before) rest

end

/-- How many blocks have been opened, and for each further branch the number of the block that its
chain began with. -/
structure BlockTally where
  opened : Nat
  branches : List Nat
  deriving Repr, DecidableEq

/-- The state of a scan that has counted so far, with the given stack. -/
def BlockTally.state (tally : BlockTally) (stack : List Enclosure) : ScanState :=
  ⟨tally.opened, stack, tally.branches⟩

/-- The block that the next line can go on with. -/
def nextChain (chain : Option Nat) (opened : Nat) : BlockRole → Option Nat
  | .hidden => chain
  | .plain => none
  | .opens => some opened
  | .continues => chain

mutual

/-- The blocks and branches of a tree, counted on. -/
def treeTally (chain : Option Nat) (tally : BlockTally) : OutlineTree TemplateNode → BlockTally
  | .node _ node children =>
    match node.kind.role with
    | .hidden => tally
    | .plain => forestTally none tally children
    | .opens => forestTally none { tally with opened := tally.opened + 1 } children
    | .continues =>
      forestTally none { tally with branches := tally.branches ++ chain.toList } children

/-- The blocks and branches of a forest, counted on; `chain` is the block that its first line can go
on with. -/
def forestTally (chain : Option Nat) (tally : BlockTally) :
    List (OutlineTree TemplateNode) → BlockTally
  | [] => tally
  | tree :: rest =>
    forestTally (nextChain chain tally.opened tree.data.kind.role) (treeTally chain tally tree) rest

end

lemma followsBlock_cons (line : TemplateLine) (before : List TemplateLine) :
    followsBlock (line :: before)
      = match line.role with
        | .hidden => followsBlock before
        | .plain => false
        | .opens => true
        | .continues => true := by
  rw [followsBlock, List.find?_cons]
  cases hrole : line.role with
  | hidden => rfl
  | plain => exact Bool.or_eq_false_iff.2 ⟨by rw [hrole]; rfl, by rw [hrole]; rfl⟩
  | opens => exact Bool.or_eq_true_iff.2 (Or.inl (by rw [hrole]; rfl))
  | continues => exact Bool.or_eq_true_iff.2 (Or.inr (by rw [hrole]; rfl))

/-- A block whose closing tag has been written, but may still be dropped. -/
structure Chain where
  number : Nat
  keyword : Text
  supported : keyword ∈ blockWords

/-- The closing tag of a chain. -/
def pendingEnd : Option Chain → Text
  | none => []
  | some chain => CodeWriter.instructionMarks ("end" ++ chain.keyword)

/-- The block of a chain on the stack. -/
def pendingStack : Option Chain → List Enclosure
  | none => []
  | some chain => [.block chain.number chain.keyword]

/-- What is not a branch ends the chain. -/
lemma scanCode_pendingEnd {rest : Text} (h : NoBranch rest) (chain : Option Chain)
    (tally : BlockTally) (outer : List Enclosure) :
    scanCode (tally.state (pendingStack chain ++ outer)) (pendingEnd chain ++ rest)
      = scanCode (tally.state outer) rest := by
  cases chain with
  | none => rfl
  | some chain => exact scanCode_end chain.supported h _ chain.number outer _

/-- The keyword of the block that a line could go on with after the lines before it. -/
def chainKeyword (before : List TemplateLine) : Option Text :=
  if followsBlock before then some (CodeWriter.openerBefore before) else none

lemma chainKeyword_cons (line : TemplateLine) (before : List TemplateLine) :
    chainKeyword (line :: before)
      = match line.role with
        | .hidden => chainKeyword before
        | .plain => none
        | .opens => some (CodeWriter.openerBefore (line :: before))
        | .continues => some (CodeWriter.openerBefore (line :: before)) := by
  rw [chainKeyword, followsBlock_cons]
  cases hrole : line.role with
  | hidden =>
      rw [TemplateLine.eq_internalComment_of_role hrole]
      rfl
  | plain => rfl
  | opens => rfl
  | continues => rfl

namespace CodeWriter

variable {w : CodeWriter} {scope : Scope} {depth : Nat} {before : List TemplateLine}

/-- The code of a forest is that of its first line, what stands below it, and the rest. -/
lemma exists_forestCode_eq {id : NodeId} {node : TemplateNode}
    {children rest : List (OutlineTree TemplateNode)} {code : Text}
    (h : w.forestCode scope depth before (.node id node children :: rest) = .ok code) :
    ∃ result here after,
      w.lineCode scope ⟨depth, before, rest.isEmpty⟩ (!children.isEmpty) node = .ok result ∧
      w.forestCode scope depth (node.kind :: before) rest = .ok after ∧ code = here ++ after ∧
      (result = none → here = []) ∧
      ∀ line, result = some line → ∃ inner,
        w.forestCode line.scope (depth + 1) [] children = .ok inner ∧
        here = line.mark ++ line.opening ++ line.body ++ inner ++
          (if line.closing.isEmpty || children.isEmpty then [] else line.mark) ++ line.closing := by
  rw [forestCode] at h
  obtain ⟨here, hhere, h⟩ := bind_eq_ok_iff.1 h
  obtain ⟨after, hafter, h⟩ := bind_eq_ok_iff.1 h
  cases h
  rw [treeCode] at hhere
  obtain ⟨result, hresult, hhere⟩ := bind_eq_ok_iff.1 hhere
  refine ⟨result, here, after, hresult, hafter, rfl, ?_, ?_⟩
  · rintro rfl
    cases hhere
    rfl
  · rintro line rfl
    obtain ⟨inner, hinner, hhere⟩ := bind_eq_ok_iff.1 hhere
    cases hhere
    exact ⟨inner, hinner, rfl⟩

/-- Without a mark, a line stands around what is written for the lines below it. -/
lemma forestCode_cons {id : NodeId} {node : TemplateNode}
    {children rest : List (OutlineTree TemplateNode)} {code : Text}
    (h : w.forestCode scope depth before (.node id node children :: rest) = .ok code) :
    ∃ result after,
      w.lineCode scope ⟨depth, before, rest.isEmpty⟩ (!children.isEmpty) node = .ok result ∧
      w.forestCode scope depth (node.kind :: before) rest = .ok after ∧
      (result = none → code = after) ∧
      ∀ line, result = some line → line.mark = [] → ∃ inner,
        w.forestCode line.scope (depth + 1) [] children = .ok inner ∧
        ∀ rest, code ++ rest
          = line.opening ++ line.body ++ (inner ++ (line.closing ++ (after ++ rest))) := by
  obtain ⟨result, here, after, hresult, hafter, rfl, hnone, hsome⟩ := exists_forestCode_eq h
  refine ⟨result, after, hresult, hafter, fun hresult => ?_, fun line hline hmark => ?_⟩
  · rw [hnone hresult, List.nil_append]
  · obtain ⟨inner, hinner, hhere⟩ := hsome line hline
    exact ⟨inner, hinner, fun rest => by simp [hhere, hmark]⟩

/-- Where no block comes before, the code of a forest does not begin with a branch. -/
lemma noBranch_forestCode (hsettings : w.settings.KeepsTags) (hembed : w.settings.embedCode = true)
    (hdebug : w.settings.debug = false) {forest : List (OutlineTree TemplateNode)}
    (hforest : ForestAll TemplateNode.Plain forest) {before : List TemplateLine}
    (hfollow : branchesFollow before forest = true) (hbefore : followsBlock before = false)
    {code : Text} (h : w.forestCode scope depth before forest = .ok code) {rest : Text}
    (hrest : NoBranch rest) : NoBranch (code ++ rest) := by
  induction hforest generalizing scope depth before code with
  | nil =>
      cases h
      exact hrest
  | @cons id node children siblings hnode _ _ _ ih =>
      obtain ⟨result, after, hresult, hafter, hnone, hsome⟩ := forestCode_cons h
      rw [branchesFollow, treeFollows, Bool.and_eq_true, Bool.and_eq_true] at hfollow
      have hbegins : ∀ line, result = some line → line.mark = [] →
          NeverBranch (line.opening ++ line.body) → NoBranch (code ++ rest) := by
        intro line hline hmark hnever
        obtain ⟨inner, -, hcode⟩ := hsome line hline hmark
        rw [hcode]
        exact hnever _
      cases hrole : node.kind.role with
      | hidden =>
          rw [lineCode_hidden hrole] at hresult
          cases hresult
          rw [hnone rfl]
          refine ih hfollow.2 ?_ hafter
          rw [OutlineTree.data, followsBlock_cons, hrole, hbefore]
      | plain =>
          obtain ⟨line, around, hline, hencloses⟩ :=
            exists_encloses_of_lineCode hsettings hembed hdebug hnode hrole hresult
          exact hbegins line hline hencloses.mark hencloses.begins
      | opens =>
          obtain ⟨line, hline, hopens⟩ := exists_opens_of_lineCode hembed hdebug hnode hrole hresult
          exact hbegins line hline hopens.mark hopens.begins
      | continues =>
          rw [hrole, hbefore] at hfollow
          cases hfollow.1.1

/-- **The code of a forest is well nested.**  Whatever stands on the stack is there again after it,
and the block of the chain before it has been closed. -/
lemma scanCode_forestCode (hsettings : w.settings.KeepsTags) (hembed : w.settings.embedCode = true)
    (hdebug : w.settings.debug = false) {forest : List (OutlineTree TemplateNode)}
    (hforest : ForestAll TemplateNode.Plain forest) {before : List TemplateLine}
    (hfollow : branchesFollow before forest = true) {code : Text}
    (h : w.forestCode scope depth before forest = .ok code) (chain : Option Chain)
    (hchain : chain.map Chain.keyword = chainKeyword before) (tally : BlockTally)
    (outer : List Enclosure) {rest : Text} (hrest : NoBranch rest) :
    scanCode (tally.state (pendingStack chain ++ outer)) (pendingEnd chain ++ (code ++ rest))
      = scanCode ((forestTally (chain.map Chain.number) tally forest).state outer) rest := by
  -- The closing tag of the chain before a line is still to be scanned when the line is reached:
  -- only the line itself tells whether that tag is dropped.
  induction hforest generalizing scope depth before code chain tally outer rest with
  | nil =>
      cases h
      exact scanCode_pendingEnd hrest chain tally outer
  | @cons id node children siblings hnode _ hsiblings ihChildren ihSiblings =>
      obtain ⟨result, after, hresult, hafter, hnone, hsome⟩ := forestCode_cons h
      rw [branchesFollow, treeFollows, Bool.and_eq_true, Bool.and_eq_true] at hfollow
      obtain ⟨⟨hfirst, hchildren⟩, hlater⟩ := hfollow
      rw [OutlineTree.data] at hlater
      rw [forestTally, treeTally, OutlineTree.data]
      cases hrole : node.kind.role with
      | hidden =>
          rw [lineCode_hidden hrole] at hresult
          cases hresult
          rw [hnone rfl]
          refine ihSiblings hlater hafter chain ?_ tally outer hrest
          rw [hchain, chainKeyword_cons, hrole]
      | plain =>
          obtain ⟨line, around, hline, hencloses⟩ :=
            exists_encloses_of_lineCode hsettings hembed hdebug hnode hrole hresult
          obtain ⟨inner, hinner, hcode⟩ := hsome line hline hencloses.mark
          have hquiet : followsBlock (node.kind :: before) = false := by
            rw [followsBlock_cons, hrole]
          have hend : NoBranch (after ++ rest) :=
            noBranch_forestCode hsettings hembed hdebug hsiblings hlater hquiet hafter hrest
          rw [hcode, scanCode_pendingEnd (hencloses.begins _), hencloses.enter]
          refine (ihChildren hchildren hinner none rfl tally (around ++ outer)
            (hencloses.ends _ hend)).trans ?_
          refine (hencloses.leave ((forestTally none tally children).state outer) _).trans ?_
          refine ihSiblings hlater hafter none ?_ _ outer hrest
          rw [chainKeyword_cons, hrole]
          rfl
      | opens =>
          obtain ⟨line, hline, hopens⟩ := exists_opens_of_lineCode hembed hdebug hnode hrole hresult
          obtain ⟨inner, hinner, hcode⟩ := hsome line hline hopens.mark
          -- The children are scanned with the new block on the stack, its closing tag after them.
          let next : Chain := ⟨tally.opened, _, hopens.supported⟩
          rw [hcode, scanCode_pendingEnd (hopens.begins _), hopens.enter, hopens.closing]
          refine (ihChildren hchildren hinner none rfl
            { tally with opened := tally.opened + 1 } (pendingStack (some next) ++ outer)
            (neverBranch_end hopens.supported _)).trans ?_
          refine ihSiblings hlater hafter (some next) ?_ _ outer hrest
          rw [chainKeyword_cons, hrole]
          rfl
      | continues =>
          have hfollows : followsBlock before = true := by rwa [hrole] at hfirst
          obtain ⟨line, hline, hcontinues, hopener⟩ :=
            exists_continues_of_lineCode hembed hdebug hnode hrole hresult
          obtain ⟨inner, hinner, hcode⟩ := hsome line hline hcontinues.mark
          rw [chainKeyword, if_pos hfollows] at hchain
          obtain ⟨current, rfl, hkeyword⟩ := Option.map_eq_some_iff.1 hchain
          have henter := hcontinues.enter (hkeyword ▸ current.supported) tally.opened current.number
            outer tally.branches (inner ++ (line.closing ++ (after ++ rest)))
          rw [← hkeyword] at henter
          rw [hcode]
          refine henter.trans ?_
          rw [hcontinues.closing, ← hkeyword]
          refine (ihChildren hchildren hinner none rfl
            { tally with branches := tally.branches ++ [current.number] }
            (pendingStack (some current) ++ outer) (neverBranch_end current.supported _)).trans ?_
          refine ihSiblings hlater hafter (some current) ?_ _ outer hrest
          rw [chainKeyword_cons, hrole, hopener]
          exact congrArg some hkeyword

end CodeWriter

/-! ## The whole template -/

lemma scanCode_nil (s : ScanState) : scanCode s [] = some s := by
  rw [scanCode, joinBranches, scan]

/-- **Generated templates are well nested.**  In plain lines, where every further branch follows a
block, nothing is closed that is not on top of the stack, nothing stays open, and every branch finds
the block that its own chain began with: the scan counts what the outline has. -/
theorem scan_templateCode {settings : TemplateSettings} (hsettings : settings.KeepsTags)
    (hembed : settings.embedCode = true) (hdebug : settings.debug = false)
    {lines : List OriginLine} (hlines : ∀ line ∈ lines, isPlainLine (Text.trim line.text) = true)
    {unit : IndentUnit} (hbranches : branchesFollow [] (templateOutline unit lines).trees = true)
    {blocks : Registry TextBlock} {code : Text}
    (h : templateCode settings blocks (templateOutline unit lines) lines = .ok code) :
    scan .text ⟨0, [], []⟩ code
      = some ((forestTally none ⟨0, []⟩ (templateOutline unit lines).trees).state []) := by
  obtain ⟨written, hwritten, h⟩ := bind_eq_ok_iff.1 h
  cases h
  have hscan := CodeWriter.scanCode_forestCode hsettings hembed hdebug
    (forestAll_plain hlines unit) hbranches hwritten none rfl ⟨0, []⟩ []
    noBranch_nil
  simp only [List.append_nil] at hscan
  exact hscan.trans (scanCode_nil _)

lemma TemplateSettings.keepsTags_standard : TemplateSettings.standard.KeepsTags :=
  ⟨⟨by decide, by decide⟩, by decide, by decide⟩

/-- A template with two chains, one inside of the other, and a hidden line in the outer one. -/
def branchingLines : List OriginLine :=
  ["%ul", "\t- if user", "\t\t- for link in links", "\t\t\t%li= link", "\t\t- else", "\t\t\tnone",
    "\t// still the same chain", "\t- elseif guest", "\t\t%br"].map fun line : String =>
    ⟨line.toList, none⟩

/-- What is written for it. -/
def branchingCode : Text :=
  "<ul>\n\x7b% if user %\x7d\x7b% for link in links %\x7d    <li>\x7b\x7b link \x7d\x7d</li>\n" ++
    "\x7b% else %\x7d      none\n\x7b% endfor %\x7d\x7b% elif guest %\x7d  <br />\n" ++
    "\x7b% endif %\x7d</ul>\n"

theorem scan_templateCode_branchingLines :
    (∀ line ∈ branchingLines, isPlainLine (Text.trim line.text) = true) ∧
      branchesFollow [] (templateOutline .tab branchingLines).trees = true ∧
      templateCode .standard .empty (templateOutline .tab branchingLines) branchingLines
        = .ok branchingCode ∧
      scan .text ⟨0, [], []⟩ branchingCode = some ⟨2, [], [1, 0]⟩ := by
  have hlines : ∀ line ∈ branchingLines, isPlainLine (Text.trim line.text) = true := by
    decide +kernel
  have hbranches : branchesFollow [] (templateOutline .tab branchingLines).trees = true := by
    decide +kernel
  have hcode : templateCode .standard .empty (templateOutline .tab branchingLines) branchingLines
      = .ok branchingCode := by
    decide +kernel
  have htally : (forestTally none ⟨0, []⟩ (templateOutline .tab branchingLines).trees).state []
      = ⟨2, [], [1, 0]⟩ := by
    decide +kernel
  refine ⟨hlines, hbranches, hcode, ?_⟩
  rw [← htally]
  exact scan_templateCode TemplateSettings.keepsTags_standard rfl rfl hlines hbranches hcode

/-- The code of a template that has one line. -/
def lineTemplate (settings : TemplateSettings) (line : Text) : Except TemplateError Text :=
  templateCode settings .empty (templateOutline .tab [⟨line, none⟩]) [⟨line, none⟩]

/-- The settings have a part in this.  The name of a script or an image is put behind a directory
inside of a tag, and the name of the translating function is written where a tag or an instruction
can begin. -/
theorem templateCode_settings_break_nesting :
    (∀ line ∈ ["%script@=x", "%img@=x", "%p$ x"], isPlainLine line.toList = true) ∧
    (lineTemplate { TemplateSettings.standard with scriptRoot := "/>" } "%script@=x"
        = .ok "<script src=\"/>x\" type=\"text/javascript\"></script>\n" ∧
      scan .text ⟨0, [], []⟩ "<script src=\"/>x\" type=\"text/javascript\"></script>\n" = none) ∧
    (lineTemplate { TemplateSettings.standard with imageRoot := ">" } "%img@=x"
        = .ok "<img alt=\"\" src=\">x\" />\n" ∧
      scan .text ⟨0, [], []⟩ "<img alt=\"\" src=\">x\" />\n"
        = some ⟨0, [.element "img"], []⟩) ∧
    (lineTemplate { TemplateSettings.standard with translateFunction := "</p>" } "%p$ x"
        = .ok "<p>\x7b\x7b </p>(text=\"x\") \x7d\x7d</p>\n" ∧
      scan .text ⟨0, [], []⟩ "<p>\x7b\x7b </p>(text=\"x\") \x7d\x7d</p>\n" = none) ∧
    lineTemplate { TemplateSettings.standard with translateFunction := "\x7b% if a %\x7d" } "%p$ x"
        = .ok "<p>\x7b\x7b \x7b% if a %\x7d(text=\"x\") \x7d\x7d</p>\n" ∧
      scan .text ⟨0, [], []⟩ "<p>\x7b\x7b \x7b% if a %\x7d(text=\"x\") \x7d\x7d</p>\n" = none := by
  decide +kernel

end Offside
