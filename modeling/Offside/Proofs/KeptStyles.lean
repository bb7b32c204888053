import Mathlib
import Offside.Proofs.ReadBack
import Offside.Stylesheet.Compiler

/-!
# Kept stylesheets

A compiler that keeps its output answers the first request for a stylesheet with what it has
compiled, and the next one with what it has kept.  Kept output is read without the white space at
its beginning, so the answers are the same exactly if there is none.

**The first rule.**  What is written begins with the first rule that has attributes, in every style
(`BeginsWithFirst`), and a rule begins with its selectors.

**Selectors.**  A selector is not empty and does not begin with white space.  But there need not be
one: a rule has no selectors if all that stands between its commas is blank, or if that is so for a
rule above it (`selectors_eq_nil_iff`).  Then the rule begins with what is written behind the
selectors.  In two styles this is a space, and the space is lost
(`StyleCompiler.compile_again`).
-/

namespace Offside

/-! ## Beginnings -/

/-- A text begins with a character that is not white space. -/
def BeginsSolid (t : Text) : Prop := ∃ c rest, t = c :: rest ∧ Text.isBlank c = false

lemma BeginsSolid.append {t : Text} (h : BeginsSolid t) (more : Text) :
    BeginsSolid (t ++ more) := by
  obtain ⟨c, rest, rfl, hc⟩ := h
  exact ⟨c, rest ++ more, rfl, hc⟩

/-- Whether white space at the beginning is lost is seen from the first character, if there is
anything else. -/
lemma trimStart_trimEnd_cons {c : Char} {t : Text} (hfull : ∃ d ∈ c :: t, Text.isBlank d = false) :
    Text.trimStart (Text.trimEnd (c :: t)) = Text.trimEnd (c :: t) ↔ Text.isBlank c = false := by
  have hkept : Text.trimEnd (c :: t) ≠ [] := by
    intro hempty
    obtain ⟨d, hd, hsolid⟩ := hfull
    have hblank := List.rdropWhile_eq_nil_iff.1 hempty d hd
    rw [hsolid] at hblank
    cases hblank
  obtain ⟨blanks, hblanks⟩ : Text.trimEnd (c :: t) <+: c :: t :=
    List.rdropWhile_prefix Text.isBlank _
  obtain ⟨first, rest, hfirst⟩ := List.exists_cons_of_ne_nil hkept
  rw [hfirst, List.cons_append, List.cons.injEq] at hblanks
  rw [hfirst, hblanks.1, Text.trimStart, List.dropWhile_eq_self_iff]
  simp

/-! ## Selectors -/

lemma beginsSolid_of_mem_fragments {rule : StyleRule} {fragment : Text}
    (h : fragment ∈ rule.fragments) : BeginsSolid fragment := by
  obtain ⟨hmem, hfull⟩ := List.mem_filter.1 h
  obtain ⟨piece, -, rfl⟩ := List.mem_map.1 hmem
  cases hpiece : Text.trim piece with
  | nil => simp [hpiece] at hfull
  | cons c rest =>
      refine ⟨c, rest, rfl, (trimmed_trim piece).first c ?_⟩
      rw [hpiece]
      rfl

lemma combineFragments_cons (own next : List Text) (above : List (List Text)) :
    combineFragments (own :: next :: above) = own.flatMap fun fragment =>
      (combineFragments (next :: above)).map fun (outer : Text) => outer ++ " " ++ fragment := rfl

/-- A selector begins with a fragment of the outermost rule. -/
lemma beginsSolid_of_mem_combineFragments {levels : List (List Text)}
    (hlevels : ∀ level ∈ levels, ∀ fragment ∈ level, BeginsSolid fragment) {selector : Text}
    (h : selector ∈ combineFragments levels) : BeginsSolid selector := by
  induction levels generalizing selector with
  | nil => cases h
  | cons own above ih =>
      cases above with
      | nil => exact hlevels own List.mem_cons_self selector h
      | cons next above =>
          rw [combineFragments_cons] at h
          obtain ⟨fragment, -, h⟩ := List.mem_flatMap.1 h
          obtain ⟨outer, houter, rfl⟩ := List.mem_map.1 h
          rw [List.append_assoc]
          exact (ih (fun level hlevel => hlevels level (List.mem_cons_of_mem _ hlevel))
            houter).append _

/-- There is no selector exactly if one of the rules has no fragment. -/
lemma combineFragments_eq_nil_iff {levels : List (List Text)} (hne : levels ≠ []) :
    combineFragments levels = [] ↔ [] ∈ levels := by
  induction levels with
  | nil => exact absurd rfl hne
  | cons own above ih =>
      cases above with
      | nil => simp [combineFragments, eq_comm]
      | cons next above =>
          rw [combineFragments_cons, List.mem_cons, ← ih (List.cons_ne_nil next above),
            List.flatMap_eq_nil_iff]
          cases own with
          | nil => simp
          | cons fragment own =>
              simp only [List.map_eq_nil_iff, List.forall_mem_cons, reduceCtorEq, false_or]
              exact ⟨And.left, fun hnone => ⟨hnone, fun _ _ => hnone⟩⟩

/-- A rule of an outline has a fragment. -/
def hasFragment (t : StyleOutline) (id : NodeId) : Bool :=
  (t.get? id).any fun rule => !rule.fragments.isEmpty

lemma selectors_eq_nil_iff (t : StyleOutline) (id : NodeId) :
    selectors t id = [] ↔ ∃ node ∈ id :: t.ancestors id, hasFragment t node = false := by
  rw [selectors, combineFragments_eq_nil_iff (by simp), List.mem_map]
  refine exists_congr fun node => and_congr_right fun _ => ?_
  cases hnode : t.get? node with
  | none => simp [hasFragment, hnode]
  | some rule => simp [hasFragment, hnode]

lemma beginsSolid_selectorText {t : StyleOutline} {id : NodeId} (h : selectors t id ≠ [])
    (separator : Text) : BeginsSolid (selectorText separator t id) := by
  have hall : ∀ selector ∈ selectors t id, BeginsSolid selector := by
    intro selector hselector
    refine beginsSolid_of_mem_combineFragments (fun level hlevel fragment hfragment => ?_) hselector
    obtain ⟨node, -, rfl⟩ := List.mem_map.1 hlevel
    cases hnode : t.get? node with
    | none => simp [hnode] at hfragment
    | some rule =>
        rw [hnode] at hfragment
        exact beginsSolid_of_mem_fragments hfragment
  rw [selectorText]
  cases hselectors : selectors t id with
  | nil => exact absurd hselectors h
  | cons first rest =>
      have hfirst := hall first (by rw [hselectors]; exact List.mem_cons_self)
      cases rest with
      | nil => exact hfirst
      | cons second rest =>
          rw [Text.join, List.append_assoc]
          · exact hfirst.append _
          · simp

/-! ## The first rule -/

/-- What is written begins with the first of the rules that are written. -/
def BeginsWithFirst (block : NodeId → StyleRule → Text) (rules : List (NodeId × StyleRule))
    (out : Text) : Prop :=
  match rules with
  | [] => out = []
  | first :: _ => ∃ rest, out = block first.1 first.2 ++ rest

lemma BeginsWithFirst.append {block : NodeId → StyleRule → Text}
    {rules more : List (NodeId × StyleRule)} {out after : Text}
    (h : BeginsWithFirst block rules out) (hmore : BeginsWithFirst block more after) :
    BeginsWithFirst block (rules ++ more) (out ++ after) := by
  cases rules with
  | nil =>
      rw [show out = [] from h]
      exact hmore
  | cons first rest =>
      obtain ⟨written, rfl⟩ := h
      exact ⟨written ++ after, List.append_assoc _ _ _⟩

lemma beginsWithFirst_flatMap (block : NodeId → StyleRule → Text)
    (rules : List (NodeId × StyleRule)) :
    BeginsWithFirst block rules (rules.flatMap fun (id, rule) => block id rule) := by
  cases rules with
  | nil => rfl
  | cons first rest => exact ⟨_, rfl⟩

lemma beginsWithFirst_join (block : NodeId → StyleRule → Text) (separator : Text)
    (rules : List (NodeId × StyleRule)) :
    BeginsWithFirst block rules
      (Text.join separator (rules.map fun (id, rule) => block id rule)) := by
  cases rules with
  | nil => rfl
  | cons first rest =>
      cases rest with
      | nil => exact ⟨[], (List.append_nil _).symm⟩
      | cons second rest => exact ⟨_, List.append_assoc _ _ _⟩

namespace StyleRenderer

/-- The rule of a node, if it is written. -/
def writtenRule? (t : StyleOutline) (id : NodeId) : Option (NodeId × StyleRule) :=
  (t.get? id).bind fun rule => if rule.hasAttributes then some (id, rule) else none

lemma beginsWithFirst_nestedTrees (t : StyleOutline) (level levels : Nat) (ids : List NodeId) :
    BeginsWithFirst (nestedBlock t level)
      ((OutlineTree.preorderAll (t.treesWithin levels ids)).filterMap (writtenRule? t))
      (nestedTrees t level (t.treesWithin levels ids)) := by
  induction levels generalizing ids with
  | zero => rfl
  | succ levels ih =>
      induction ids with
      | nil => rfl
      | cons id ids ihIds =>
          cases hnode : t.nodes[id]? with
          | none =>
              rw [Outline.treesWithin, List.filterMap_cons_none (by rw [hnode]; rfl)]
              exact ihIds
          | some node =>
              have hget : t.get? id = some node.data := by rw [Outline.get?, hnode]; rfl
              rw [Outline.treesWithin, List.filterMap_cons_some (by rw [hnode]; rfl)]
              rw [OutlineTree.preorderAll, OutlineTree.preorder, nestedTrees, nestedTree,
                List.cons_append, List.filterMap_cons, List.filterMap_append]
              by_cases hwritten : node.data.hasAttributes = true
              · have hrule : writtenRule? t id = some (id, node.data) := by
                  simp [writtenRule?, hget, hwritten]
                rw [hrule, if_pos hwritten, List.append_assoc]
                exact ⟨_, rfl⟩
              · have hrule : writtenRule? t id = none := by
                  simp [writtenRule?, hget, hwritten]
                rw [hrule, if_neg hwritten]
                exact (ih node.children).append ihIds

/-- A rule is written as its selectors with `opening` behind them and more after that. -/
def Opens (t : StyleOutline) (block : NodeId → StyleRule → Text) (opening : Text) : Prop :=
  ∀ id rule, ∃ separator rest, block id rule = selectorText separator t id ++ opening ++ rest

lemma opens_nestedBlock (t : StyleOutline) : Opens t (nestedBlock t 0) " \x7b\n" :=
  fun _ _ => ⟨", ", _, List.append_assoc _ _ _⟩

lemma opens_expandedBlock (t : StyleOutline) : Opens t (expandedBlock t) " \x7b\n" :=
  fun _ _ => ⟨", ", _, List.append_assoc _ _ _⟩

lemma opens_compactBlock (t : StyleOutline) : Opens t (compactBlock t) "\x7b" :=
  fun _ _ => ⟨", ", _, List.append_assoc _ _ _⟩

lemma opens_compressedBlock (t : StyleOutline) : Opens t (compressedBlock t) "\x7b" :=
  fun _ _ => ⟨",", _, List.append_assoc _ _ _⟩

/-- What is written loses nothing at its beginning, unless the first rule has no selectors and white
space stands behind them. -/
lemma trimStart_trimEnd_iff {t : StyleOutline} {block : NodeId → StyleRule → Text} {opening : Text}
    (hblock : Opens t block opening) (hbrace : '\x7b' ∈ opening)
    {rules : List (NodeId × StyleRule)} {out : Text} (h : BeginsWithFirst block rules out) :
    Text.trimStart (Text.trimEnd out) = Text.trimEnd out
      ↔ ∀ first ∈ rules.head?, selectors t first.1 = [] → BeginsSolid opening := by
  cases rules with
  | nil =>
      rw [show out = [] from h]
      exact iff_of_true rfl (by simp)
  | cons first rules =>
      obtain ⟨more, rfl⟩ := h
      obtain ⟨separator, rest, hfirst⟩ := hblock first.1 first.2
      simp only [List.head?_cons, Option.mem_def, Option.some.injEq, forall_eq']
      rw [hfirst, List.append_assoc, List.append_assoc]
      by_cases hnone : selectors t first.1 = []
      · have hempty : selectorText separator t first.1 = [] := by
          rw [selectorText, hnone, Text.join]
        obtain ⟨mark, after, rfl⟩ := List.exists_cons_of_ne_nil (List.ne_nil_of_mem hbrace)
        have hfull : ∃ d ∈ mark :: (after ++ (rest ++ more)), Text.isBlank d = false :=
          ⟨'\x7b', List.mem_append_left (rest ++ more) hbrace, rfl⟩
        rw [hempty, List.nil_append, List.cons_append, trimStart_trimEnd_cons hfull]
        simp [hnone, BeginsSolid]
      · obtain ⟨c, text, htext, hc⟩ := beginsSolid_selectorText hnone separator
        refine iff_of_true ?_ (fun hsome => absurd hsome hnone)
        rw [htext, List.cons_append]
        exact (trimStart_trimEnd_cons ⟨c, List.mem_cons_self, hc⟩).2 hc

/-- The first rule that is written has selectors: it has a fragment, and so has every rule above
it. -/
def firstSelects (t : StyleOutline) : Bool :=
  (renderedRules t).head?.all fun (id, _) => (id :: t.ancestors id).all (hasFragment t)

lemma firstSelects_iff (t : StyleOutline) :
    firstSelects t = true ↔ ∀ first ∈ (renderedRules t).head?, selectors t first.1 ≠ [] := by
  rw [firstSelects, Option.all_eq_true]
  refine forall₂_congr fun first _ => ?_
  rw [List.all_eq_true, ne_eq, selectors_eq_nil_iff]
  simp

/-- Whether a style writes a space behind the selectors of a rule. -/
def spacesSelectors (style : Text) : Bool := style == "nested" || style == "expanded"

lemma mem_standard {style : Text} {renderer : StyleRenderer}
    (h : standard.get? style = some renderer) :
    (style, renderer) ∈ [(nested.name, nested), (expanded.name, expanded), (compact.name, compact),
      (compressed.name, compressed)] := by
  obtain ⟨entry, hentry, rfl⟩ := Option.map_eq_some_iff.1 h
  have hname : entry.1 = style := by simpa using List.find?_some hentry
  rw [← hname]
  exact List.mem_of_find?_eq_some hentry

/-- Which of the standard styles can lose white space at the beginning, and when. -/
lemma trimStart_render_iff {style : Text} {renderer : StyleRenderer}
    (h : standard.get? style = some renderer) (t : StyleOutline) :
    Text.trimStart (Text.trimEnd (renderer.render t)) = Text.trimEnd (renderer.render t)
      ↔ (spacesSelectors style = true → firstSelects t = true) := by
  have hspaced : (∀ first ∈ (renderedRules t).head?, selectors t first.1 = [] →
      BeginsSolid " \x7b\n") ↔ firstSelects t = true := by
    have hblank : ¬ BeginsSolid " \x7b\n" := by
      rintro ⟨c, rest, heq, hc⟩
      cases heq
      cases hc
    rw [firstSelects_iff]
    exact forall₂_congr fun first _ => ⟨fun hsolid hnone => hblank (hsolid hnone),
      fun hsome hnone => absurd hnone hsome⟩
  have hsolid : BeginsSolid "\x7b" := ⟨'\x7b', [], rfl, rfl⟩
  have hmem := mem_standard h
  simp only [List.mem_cons, Prod.mk.injEq, List.not_mem_nil, or_false] at hmem
  rcases hmem with ⟨rfl, rfl⟩ | ⟨rfl, rfl⟩ | ⟨rfl, rfl⟩ | ⟨rfl, rfl⟩
  · rw [show spacesSelectors nested.name = true from rfl, ← hspaced, forall_prop_of_true rfl]
    exact trimStart_trimEnd_iff (opens_nestedBlock t) (by decide)
      (beginsWithFirst_nestedTrees t 0 t.size t.roots)
  · rw [show spacesSelectors expanded.name = true from rfl, ← hspaced, forall_prop_of_true rfl]
    exact trimStart_trimEnd_iff (opens_expandedBlock t) (by decide)
      (beginsWithFirst_join _ _ _)
  · refine iff_of_true ?_ (fun hspaces => absurd hspaces (by decide))
    exact (trimStart_trimEnd_iff (opens_compactBlock t) (by decide)
      (beginsWithFirst_flatMap _ (renderedRules t))).2 fun _ _ _ => hsolid
  · refine iff_of_true ?_ (fun hspaces => absurd hspaces (by decide))
    exact (trimStart_trimEnd_iff (opens_compressedBlock t) (by decide)
      (beginsWithFirst_flatMap _ (renderedRules t))).2 fun _ _ _ => hsolid

end StyleRenderer

/-! ## Asking twice -/

namespace StyleCompiler

variable {c : StyleCompiler} {cache : ContentCache} {constants : List (Text × Text)}
  {source css : Text} {w w' : StyleWorkspace}

lemma exists_of_build (h : c.build constants source w = (.ok css, w')) :
    ∃ parsed renderer, parseStyles c.settings.indent constants source = .ok parsed ∧
      c.styles.get? c.settings.style = some renderer ∧
      css = Text.trimEnd (renderer.render parsed.outline) := by
  simp only [build, parse] at h
  cases hparse : parseStyles c.settings.indent constants source with
  | error fault => simp [hparse] at h
  | ok parsed =>
      cases hrenderer : c.styles.get? c.settings.style with
      | none => simp [hparse, renderOutline, hrenderer] at h
      | some renderer =>
          simp only [hparse, renderOutline, hrenderer, Prod.mk.injEq, Except.ok.injEq] at h
          exact ⟨parsed, renderer, rfl, rfl, h.1.symm⟩

/-- What is not kept yet is compiled, and kept. -/
lemma exists_of_compile (hcache : c.cache = some cache)
    (hcold : w.files.isFile (cache.artifactPath (key c.settings.style constants source)) = false)
    (h : c.compile constants source w = (.ok css, w')) :
    c.styles.has c.settings.style = true ∧ (∃ w₁, c.build constants source w = (.ok css, w₁)) ∧
      cache.lookup w'.files (key c.settings.style constants source)
        = .ok (some (Text.trimStart css)) := by
  have hnone : cache.lookup w.files (key c.settings.style constants source) = .ok none := by
    simp [ContentCache.lookup, hcold]
  cases hstyle : c.styles.has c.settings.style with
  | false => simp [compile, hstyle] at h
  | true =>
      rcases hbuild : c.build constants source w with ⟨result, w₁⟩
      simp only [compile, hstyle, hcache, hnone, hbuild] at h
      cases result with
      | error e => simp at h
      | ok out =>
          rcases hstore : cache.store w₁.files (key c.settings.style constants source) out
            with ⟨kept, files⟩
          simp only [hstore] at h
          cases kept with
          | error e => simp at h
          | ok u =>
              obtain ⟨hout, rfl⟩ := Prod.mk.inj h
              cases hout
              exact ⟨rfl, ⟨w₁, rfl⟩, ContentCache.lookup_of_store hstore⟩

/-- **What is asked for twice is answered alike, up to the space of a rule without selectors.**  If
a stylesheet has been compiled and was not kept before, asking for it again gives the same text
without the white space at its beginning, parses nothing and changes nothing.  It is the same text
exactly if the first rule that is written has selectors, or if the style writes no space behind
them. -/
theorem compile_again (hstyles : c.styles = StyleRenderer.standard) (hcache : c.cache = some cache)
    (hcold : w.files.isFile (cache.artifactPath (key c.settings.style constants source)) = false)
    (h : c.compile constants source w = (.ok css, w')) :
    c.compile constants source w' = (.ok (Text.trimStart css), w') ∧
      ∃ parsed, parseStyles c.settings.indent constants source = .ok parsed ∧
        (c.compile constants source w' = (.ok css, w') ↔
          (StyleRenderer.spacesSelectors c.settings.style = true →
            StyleRenderer.firstSelects parsed.outline = true)) := by
  obtain ⟨hstyle, ⟨w₁, hbuild⟩, hkept⟩ := exists_of_compile hcache hcold h
  have hagain : c.compile constants source w' = (.ok (Text.trimStart css), w') := by
    simp [compile, hstyle, hcache, hkept]
  obtain ⟨parsed, renderer, hparse, hrenderer, rfl⟩ := exists_of_build hbuild
  rw [hstyles] at hrenderer
  refine ⟨hagain, parsed, hparse, ?_⟩
  rw [hagain, ← StyleRenderer.trimStart_render_iff hrenderer]
  simp

/-- A workspace without files. -/
def emptyWorkspace : StyleWorkspace := ⟨⟨[], [], "/tmp", 0⟩, 0, []⟩

/-- A compiler with the standard settings that keeps its output in a directory. -/
def keeping : StyleCompiler :=
  (ofSettings .standard emptyWorkspace.files).withCacheDirectory "kept"

/-- The workspace in which a stylesheet has been compiled once. -/
def keptWorkspace (source : Text) : StyleWorkspace := (keeping.compile [] source emptyWorkspace).2

/-- A rule without selectors does no harm behind another one.  In front it loses its space. -/
theorem compile_again_without_selectors :
    let solid : Text := "ul, ol\n  a\n    :top 0\n,\n  :left 1"
    let bare : Text := ",\n  :left 1"
    (emptyWorkspace.files.isFile ((ContentCache.mk "kept" "css").artifactPath
        (key "nested" [] solid)) = false ∧
      (keeping.compile [] solid emptyWorkspace).1
        = .ok "ul a, ol a \x7b\n  top: 0; \x7d\n \x7b\n  left: 1; \x7d" ∧
      keeping.compile [] solid (keptWorkspace solid)
        = (.ok "ul a, ol a \x7b\n  top: 0; \x7d\n \x7b\n  left: 1; \x7d", keptWorkspace solid)) ∧
    (keeping.compile [] bare emptyWorkspace).1 = .ok " \x7b\n  left: 1; \x7d" ∧
      keeping.compile [] bare (keptWorkspace bare)
        = (.ok "\x7b\n  left: 1; \x7d", keptWorkspace bare) := by
  intro solid bare
  have hsolid : (keeping.compile [] solid emptyWorkspace).1
      = .ok "ul a, ol a \x7b\n  top: 0; \x7d\n \x7b\n  left: 1; \x7d" := by
    decide +kernel
  have hbare : (keeping.compile [] bare emptyWorkspace).1 = .ok " \x7b\n  left: 1; \x7d" := by
    decide +kernel
  have hselects : ∀ parsed, parseStyles (.spaces 2) [] solid = .ok parsed →
      StyleRenderer.firstSelects parsed.outline = true := by
    intro parsed hparsed
    have hfirst : ((parseStyles (.spaces 2) [] solid).toOption.all fun parsed =>
        StyleRenderer.firstSelects parsed.outline) = true := by
      decide +kernel
    simpa [hparsed, Except.toOption] using hfirst
  refine ⟨⟨by decide +kernel, hsolid, ?_⟩, hbare, ?_⟩
  · obtain ⟨-, parsed, hparsed, hsame⟩ := compile_again rfl rfl (by decide +kernel)
      (Prod.ext hsolid rfl)
    exact hsame.2 fun _ => hselects parsed hparsed
  · exact (compile_again rfl rfl (by decide +kernel) (Prod.ext hbare rfl)).1

end StyleCompiler

end Offside
