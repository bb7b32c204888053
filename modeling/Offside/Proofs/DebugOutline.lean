import Mathlib
import Offside.Proofs.DebugLines
import Offside.Proofs.LineUse
import Offside.Proofs.MarkedLines

/-!
# Outlines in debug mode

The marks that debug mode puts around included files are lines like others, and in the outline they
are internal comments, which hide what stands below them.

**Nodes.**  Apart from their line numbers, the nodes of the lines without the marks are the nodes of
all lines that stand for no mark (`map_look_keptLines`).  So the outlines with debug mode on and off
are those of lines with and without marked ones.

**What debug mode loses.**  No line is added or moved by debug mode, and the lines that are lost are
those that stand below a mark and would be shown without it (`debug_outline_iff`).  A line stands
below a mark if its file begins with an indented line, if it is written deeper than the line that
includes the file before it, or if that line is written deeper than it can stand.
-/

namespace Offside

/-! ## The outline of lines -/

/-- Whether what stands below a node is taken out. -/
def TemplateNode.hidesChildren (node : TemplateNode) : Bool := node.kind.hidesChildren

section Template

variable {unit : IndentUnit} {lines : List OriginLine}

lemma sameShape_templateOutline (unit : IndentUnit) (lines : List OriginLine) :
    Outline.SameShape (.ofDepths (nodesFrom unit 1 lines)) (templateOutline unit lines) :=
  Outline.sameShape_foldl_clearChildren _ _

lemma size_templateOutline : (templateOutline unit lines).size = (nodesFrom unit 1 lines).length :=
  (sameShape_templateOutline unit lines).size.trans (Outline.size_ofDepths _)

lemma get?_templateOutline (i : Nat) :
    (templateOutline unit lines).get? i = (nodesFrom unit 1 lines)[i]?.map Prod.snd :=
  ((sameShape_templateOutline unit lines).get i).trans (Outline.get?_ofDepths _ i)

lemma pairwise_preorder_templateOutline : (templateOutline unit lines).preorder.Pairwise (· < ·) :=
  ((Outline.linked_ofDepths _).foldl_clearChildren _).pairwise_preorder

/-- A node is reached exactly if nothing above it hides it. -/
lemma mem_preorder_templateOutline {i : Nat} :
    i ∈ (templateOutline unit lines).preorder
      ↔ ShownAt TemplateNode.hidesChildren (nodesFrom unit 1 lines) i := by
  have hreached := CodeWriter.reached_iff (w := ⟨{ TemplateSettings.standard with indent := unit },
    .empty, lines⟩) i
  refine hreached.trans (and_congr_right fun _ => forall₂_congr fun a _ => ?_)
  rw [hidesChildrenOf, CodeWriter.fullOutline, Outline.get?_ofDepths, Option.any_map, markedAt]
  rfl

end Template

/-! ## Nodes with and without marks -/

/-- What a node shows of its line, apart from the number. -/
def TemplateNode.look (node : TemplateNode) : Text × Option FilePath := (node.content, node.origin)

/-- Whether the line with a number is a mark. -/
def isMarkLine (traced : List TracedLine) (n : Nat) : Bool := traced[n - 1]?.any TracedLine.isMark

section Traced

variable {unit : IndentUnit} {traced : List TracedLine}

/-- Lines without the marks have the nodes of all lines without those of the marks. -/
lemma map_look_filter {marked : Nat → Bool} {first : Nat}
    (hmarked : ∀ n, marked (first + n) = traced[n]?.any TracedLine.isMark) (next : Nat) :
    ((nodesFrom unit first (linesIn true traced)).filter fun x => !marked x.2.line).map
        (Prod.map id TemplateNode.look)
      = (nodesFrom unit next (linesIn false traced)).map (Prod.map id TemplateNode.look) := by
  induction traced generalizing first next with
  | nil => rfl
  | cons line traced ih =>
      have hfirst : marked first = line.isMark := hmarked 0
      have hrest : ∀ n, marked (first + 1 + n) = traced[n]?.any TracedLine.isMark := by
        intro n
        rw [Nat.add_assoc, Nat.add_comm 1 n, hmarked (n + 1), List.getElem?_cons_succ]
      rw [linesIn_cons_there _ rfl, nodesFrom]
      cases hmark : line.isMark with
      | true =>
          have hgone : line.isThere false = false := by rw [TracedLine.isThere, hmark]; rfl
          rw [linesIn_cons_not_there _ hgone]
          split_ifs with hblank
          · exact ih hrest next
          · rw [List.filter_cons_of_neg (by simp [hfirst, hmark])]
            exact ih hrest next
      | false =>
          rw [linesIn_cons_there _ (TracedLine.isThere_of_not_isMark hmark false), nodesFrom]
          split_ifs with hblank
          · exact ih hrest (next + 1)
          · rw [List.filter_cons_of_pos (by simp [hfirst, hmark]), List.map_cons, List.map_cons,
              ih hrest (next + 1)]
            rfl

/-- Whether the line of a node is a mark. -/
def isMarkNode (traced : List TracedLine) (node : TemplateNode) : Bool :=
  isMarkLine traced node.line

lemma map_look_keptLines (unit : IndentUnit) (traced : List TracedLine) :
    (keptLines (isMarkNode traced) (nodesFrom unit 1 (linesIn true traced))).map
        (Prod.map id TemplateNode.look)
      = (nodesFrom unit 1 (linesIn false traced)).map (Prod.map id TemplateNode.look) := by
  have hmarked : ∀ n, isMarkLine traced (1 + n) = traced[n]?.any TracedLine.isMark := by
    intro n
    rw [isMarkLine, Nat.add_sub_cancel_left]
  exact map_look_filter hmarked 1

/-- Marks hide what stands below them. -/
lemma hidesChildren_of_isMarkNode (hmarks : SourceReader.MarksSatisfy IsCommentLine traced) :
    ∀ x ∈ nodesFrom unit 1 (linesIn true traced), isMarkNode traced x.2 = true →
      x.2.hidesChildren = true := by
  intro x hx hmark
  obtain ⟨n, line, hline, -, rfl⟩ := mem_nodesFrom_iff.1 hx
  rw [isMarkNode, isMarkLine, Nat.add_sub_cancel_left] at hmark
  obtain ⟨own, hown, hisMark⟩ := (Option.any_eq_true _ _).1 hmark
  rw [linesIn_true, List.getElem?_map, hown, Option.map_some, Option.some.injEq] at hline
  have hcomment := hmarks own (List.mem_of_getElem? hown) hisMark
  rw [hline] at hcomment
  rw [TemplateNode.hidesChildren, TemplateNode.kind, hcomment.ofText_trim]
  rfl

/-! ## Comparing the outlines -/

/-- The outline of the lines that are there with debug mode on or off. -/
def outlineIn (unit : IndentUnit) (debug : Bool) (traced : List TracedLine) : TemplateOutline :=
  templateOutline unit (linesIn debug traced)

/-- Whether a node of an outline is a mark. -/
def isMarkAt (traced : List TracedLine) (t : TemplateOutline) (i : NodeId) : Bool :=
  (t.get? i).any (isMarkNode traced)

/-- The nodes of an outline that are no marks, in order. -/
def plainNodes (traced : List TracedLine) (t : TemplateOutline) : List NodeId :=
  (List.range t.size).filter fun i => !isMarkAt traced t i

/-- A node stands below a mark. -/
def BelowMark (traced : List TracedLine) (t : TemplateOutline) (i : NodeId) : Prop :=
  ∃ a ∈ t.ancestors i, isMarkAt traced t a = true

instance (traced : List TracedLine) (t : TemplateOutline) (i : NodeId) :
    Decidable (BelowMark traced t i) :=
  inferInstanceAs (Decidable (∃ a ∈ t.ancestors i, isMarkAt traced t a = true))

/-- Where a node stands, and what it shows. -/
def placed (t : TemplateOutline) (i : NodeId) : Nat × Option (Text × Option FilePath) :=
  (t.depth i, (t.get? i).map TemplateNode.look)

/-- Where a node stands and what it shows is told by the depths of the lines and their looks. -/
lemma placed_templateOutline {lines : List OriginLine} {i : Nat}
    (hi : i < (nodesFrom unit 1 lines).length) :
    placed (templateOutline unit lines) i
      = ((Outline.ofDepths ((nodesFrom unit 1 lines).map (Prod.map id TemplateNode.look))).depth i,
        ((nodesFrom unit 1 lines).map (Prod.map id TemplateNode.look))[i]?.map Prod.snd) := by
  rw [placed, get?_templateOutline, (sameShape_templateOutline unit lines).depth, depth_map _ hi,
    List.getElem?_map, Option.map_map, Option.map_map]
  rfl

lemma isMarkAt_outlineIn (i : Nat) :
    isMarkAt traced (outlineIn unit true traced) i
      = markedAt (isMarkNode traced) (nodesFrom unit 1 (linesIn true traced)) i := by
  rw [isMarkAt, outlineIn, get?_templateOutline, Option.any_map, markedAt]

lemma plainNodes_outlineIn :
    plainNodes traced (outlineIn unit true traced)
      = keptNodes (isMarkNode traced) (nodesFrom unit 1 (linesIn true traced)) := by
  rw [plainNodes, outlineIn, size_templateOutline, keptNodes]
  exact List.filter_congr fun i _ => congrArg _ (isMarkAt_outlineIn i)

lemma not_belowMark_iff (i : Nat) :
    ¬ BelowMark traced (outlineIn unit true traced) i ↔
      ∀ a ∈ (Outline.ofDepths (nodesFrom unit 1 (linesIn true traced))).ancestors i,
        markedAt (isMarkNode traced) (nodesFrom unit 1 (linesIn true traced)) a = false := by
  rw [BelowMark, not_exists]
  refine forall_congr' fun a => ?_
  rw [not_and, isMarkAt_outlineIn, Bool.not_eq_true, outlineIn,
    (sameShape_templateOutline _ _).ancestors]

/-- A node of the outline without marks is shown if its line is shown among those that are kept. -/
lemma mem_preorder_outlineIn_false {k : Nat} :
    k ∈ (outlineIn unit false traced).preorder ↔ ShownAt TemplateNode.hidesChildren
      (keptLines (isMarkNode traced) (nodesFrom unit 1 (linesIn true traced))) k := by
  have hlook : ∀ lines : List (Nat × TemplateNode),
      ShownAt TemplateNode.hidesChildren lines k ↔
        ShownAt (fun look => (TemplateLine.ofText look.1).hidesChildren)
          (lines.map (Prod.map id TemplateNode.look)) k := by
    intro lines
    rw [shownAt_map]
    rfl
  rw [outlineIn, mem_preorder_templateOutline, hlook, ← map_look_keptLines, ← hlook]

/-- **Debug mode hides what stands below a mark**, and nothing else. -/
lemma mem_preorder_outlineIn_true (hmarks : SourceReader.MarksSatisfy IsCommentLine traced)
    {k i : Nat} (hi : (plainNodes traced (outlineIn unit true traced))[k]? = some i) :
    i ∈ (outlineIn unit true traced).preorder ↔
      k ∈ (outlineIn unit false traced).preorder ∧
        ¬ BelowMark traced (outlineIn unit true traced) i := by
  rw [plainNodes_outlineIn] at hi
  obtain ⟨hkept, rfl⟩ := getElem?_keptNodes_iff.1 hi
  obtain ⟨hlt, hplain⟩ := mem_keptNodes.1 hkept
  rw [mem_preorder_outlineIn_false, not_belowMark_iff, outlineIn, mem_preorder_templateOutline]
  exact shownAt_iff (hidesChildren_of_isMarkNode hmarks) hlt hplain

/-- **Debug mode does not move what it shows.** -/
lemma placed_outlineIn {k i : Nat}
    (hi : (plainNodes traced (outlineIn unit true traced))[k]? = some i)
    (hbelow : ¬ BelowMark traced (outlineIn unit true traced) i) :
    placed (outlineIn unit true traced) i = placed (outlineIn unit false traced) k := by
  rw [plainNodes_outlineIn] at hi
  obtain ⟨hkept, rfl⟩ := getElem?_keptNodes_iff.1 hi
  obtain ⟨hlt, hplain⟩ := mem_keptNodes.1 hkept
  rw [not_belowMark_iff] at hbelow
  have hline := getElem?_keptLines hlt hplain
  have hrank : rankOf (isMarkNode traced) (nodesFrom unit 1 (linesIn true traced)) i
      < (keptLines (isMarkNode traced) (nodesFrom unit 1 (linesIn true traced))).length :=
    (List.getElem?_eq_some_iff.1 (hline.trans (List.getElem?_eq_getElem hlt))).1
  have hlooks := map_look_keptLines unit traced
  have hlength := congrArg List.length hlooks
  rw [List.length_map, List.length_map] at hlength
  rw [outlineIn, placed_templateOutline hlt, outlineIn, placed_templateOutline (hlength ▸ hrank),
    ← hlooks, depth_map _ hrank, depth_kept hlt hplain hbelow, depth_map _ hlt, List.getElem?_map,
    List.getElem?_map, hline]

lemma length_plainNodes :
    (plainNodes traced (outlineIn unit true traced)).length
      = (outlineIn unit false traced).size := by
  have hranks := congrArg List.length
    (map_rankOf_keptNodes (isMarkNode traced) (nodesFrom unit 1 (linesIn true traced)))
  have hlooks := congrArg List.length (map_look_keptLines unit traced)
  rw [List.length_map, List.length_range] at hranks
  rw [List.length_map, List.length_map] at hlooks
  rw [plainNodes_outlineIn, hranks, hlooks, outlineIn, size_templateOutline]

/-- Without the marks, what is shown in debug mode is what is shown without it, exactly if nothing
that is shown without it stands below a mark. -/
lemma map_placed_eq_iff (hmarks : SourceReader.MarksSatisfy IsCommentLine traced) :
    ((outlineIn unit true traced).preorder.filter fun i =>
          !isMarkAt traced (outlineIn unit true traced) i).map (placed (outlineIn unit true traced))
        = (outlineIn unit false traced).preorder.map (placed (outlineIn unit false traced))
      ↔ ∀ k ∈ (outlineIn unit false traced).preorder,
          ∀ i ∈ (plainNodes traced (outlineIn unit true traced))[k]?,
            ¬ BelowMark traced (outlineIn unit true traced) i := by
  have hmarkAt : (fun i => !isMarkAt traced (outlineIn unit true traced) i) = fun i =>
      !markedAt (isMarkNode traced) (nodesFrom unit 1 (linesIn true traced)) i :=
    funext fun i => congrArg _ (isMarkAt_outlineIn i)
  rw [hmarkAt, plainNodes_outlineIn]
  refine map_filter_eq_iff pairwise_preorder_templateOutline pairwise_preorder_templateOutline
    (fun i hi => (mem_preorder_templateOutline.1 hi).1)
    (fun k hk => (mem_preorder_outlineIn_false.1 hk).1) (fun hi => ?_) fun hi hshown => ?_
  · rw [← plainNodes_outlineIn] at hi
    exact mem_preorder_outlineIn_true hmarks hi
  · rw [← plainNodes_outlineIn] at hi
    exact placed_outlineIn hi ((mem_preorder_outlineIn_true hmarks hi).1 hshown).2

end Traced

namespace SourceReader

/-- **What debug mode does to a template.**  Take a source that debug mode does not disturb.  Such
is every source that can be resolved if no line is continued or pushed, neither in it nor in a file
that is reached, and the file extension does not read like that.  Then both modes resolve it, to the
same lines but for the marks.  In the outlines, a line that is no mark is shown in debug mode
exactly if it is shown without it and does not stand below a mark, and then it is as deep and says
the same.  So debug mode only annotates exactly if nothing that is shown without it stands below a
mark. -/
theorem debug_outline_iff (r : SourceReader) (source : Text) :
    (staysPut r.settings.sourceExtension = true → r.Settled (ownLines source) →
      ∀ out, (r.withDebug false).lines source = .ok out →
        ∃ traced, r.tracedLines source = some traced) ∧
    ∀ traced, r.tracedLines source = some traced →
      let on := outlineIn r.settings.indent true traced
      let off := outlineIn r.settings.indent false traced
      (∀ debug, (r.withDebug debug).lines source = .ok (linesIn debug traced)) ∧
      (plainNodes traced on).length = off.size ∧
      (∀ k i, (plainNodes traced on)[k]? = some i →
        (i ∈ on.preorder ↔ k ∈ off.preorder ∧ ¬ BelowMark traced on i) ∧
        (i ∈ on.preorder → placed on i = placed off k)) ∧
      ((on.preorder.filter fun i => !isMarkAt traced on i).map (placed on)
          = off.preorder.map (placed off)
        ↔ ∀ k ∈ off.preorder, ∀ i ∈ (plainNodes traced on)[k]?, ¬ BelowMark traced on i) := by
  refine ⟨fun hextension hsettled out => exists_tracedLines hextension hsettled,
    fun traced htraced => ?_⟩
  intro on off
  have hmarks := isCommentLine_of_tracedLines htraced
  refine ⟨fun debug => lines_of_tracedLines debug htraced, length_plainNodes, fun k i hi => ?_,
    map_placed_eq_iff hmarks⟩
  have hshown := mem_preorder_outlineIn_true hmarks hi
  exact ⟨hshown, fun hmem => placed_outlineIn hi (hshown.1 hmem).2⟩

/-- Two files that nest, with a line that is continued and one that is pushed. -/
def tidyFiles : SourceReader :=
  ofFiles .standard
    [("page.haml", "%ul\n\t!! item\n%p a |\n\tb"), ("item.haml", "%li x\n%i ?1\n\t%b")]

/-- A file that begins with an indented line. -/
def indentedFile : SourceReader := ofFiles .standard [("part.haml", "\t%p x")]

/-- The lines of that file in debug mode. -/
def indentedTrace : List TracedLine :=
  [⟨⟨"// Begin file /part.haml".toList, some "/part.haml".toList⟩, true⟩,
    ⟨⟨"\t%p x".toList, some "/part.haml".toList⟩, false⟩,
    ⟨⟨"// End file /part.haml".toList, some "/part.haml".toList⟩, true⟩]

/-- Nothing is lost of the two files that nest.  The line of the other file stands below a mark, and
is lost. -/
theorem debug_outline_iff_files :
    (∃ traced, tidyFiles.tracedLines "%div\n\t!! page\n%span".toList = some traced ∧
      let on := outlineIn tidyFiles.settings.indent true traced
      let off := outlineIn tidyFiles.settings.indent false traced
      off.preorder = [0, 1, 2, 3, 4, 5, 6] ∧
      (on.preorder.filter fun i => !isMarkAt traced on i).map (placed on)
        = off.preorder.map (placed off)) ∧
    (staysPut indentedFile.settings.sourceExtension = true ∧
      indentedFile.Settled (ownLines "!! part".toList) ∧
      (∃ traced, indentedFile.tracedLines "!! part".toList = some traced) ∧
      indentedFile.tracedLines "!! part".toList = some indentedTrace ∧
      let on := outlineIn indentedFile.settings.indent true indentedTrace
      let off := outlineIn indentedFile.settings.indent false indentedTrace
      off.preorder = [0] ∧ (plainNodes indentedTrace on)[0]? = some 1 ∧ 1 ∉ on.preorder ∧
      (on.preorder.filter fun i => !isMarkAt indentedTrace on i).map (placed on)
        ≠ off.preorder.map (placed off)) := by
  constructor
  · have htraced : tidyFiles.tracedLines "%div\n\t!! page\n%span".toList
        = some ((tidyFiles.tracedLines "%div\n\t!! page\n%span".toList).getD []) := by
      decide +kernel
    refine ⟨_, htraced, by decide +kernel, ?_⟩
    exact ((debug_outline_iff _ _).2 _ htraced).2.2.2.2 (by decide +kernel)
  · have hextension : staysPut indentedFile.settings.sourceExtension = true := by decide +kernel
    have hsettled : indentedFile.Settled (ownLines "!! part".toList) :=
      settled_of_closed ["part".toList] (by decide +kernel) (by decide +kernel)
    have hexists := (debug_outline_iff _ _).1 hextension hsettled
      [⟨"\t%p x".toList, some "/part.haml".toList⟩] (by decide +kernel)
    have htraced : indentedFile.tracedLines "!! part".toList = some indentedTrace := by
      decide +kernel
    obtain ⟨-, -, hnodes, hiff⟩ := (debug_outline_iff _ _).2 _ htraced
    have hnode : (plainNodes indentedTrace
        (outlineIn indentedFile.settings.indent true indentedTrace))[0]? = some 1 := by
      decide +kernel
    have hbelow : BelowMark indentedTrace
        (outlineIn indentedFile.settings.indent true indentedTrace) 1 := by decide +kernel
    refine ⟨hextension, hsettled, hexists, htraced, by decide +kernel, hnode, fun hshown => ?_,
      fun heq => ?_⟩
    · exact ((hnodes 0 1 hnode).1.1 hshown).2 hbelow
    · exact hiff.1 heq 0 (by decide +kernel) 1 hnode hbelow

end SourceReader

end Offside
