import Mathlib
import Offside.Stylesheet.Compiler

/-!
# The key of a compiled stylesheet

Output that a stylesheet compiler keeps is found again by a key.  The key is made from the style,
the constants and the source, written one after the other: `=` after the name of a constant, and the
character with code zero after the style and after the value of every constant.  This file says when
the inputs of a compilation can be read back from that text.

**Constants.**  If no name holds one of the two separators and no value the zero character, the
constants can be read off one by one.  The only doubt left is where they end: when two requests have
the same text, the constants of one begin with those of the other, and what is left of them opens
the source of the one with fewer (`definitions_append`).

**Lines.**  The unit of indentation is not in the key.  It enters the compilation through the lines
that a source is cut into and through nothing else, so requests whose units cut the source into the
same lines are compiled to the same text (`StyleRequest.compiled_eq_of_keyMaterial_eq`).
-/

namespace Offside

/-- What a compiler with the standard styles is asked for. -/
structure StyleRequest where
  settings : StyleSettings
  constants : List (Text × Text)
  source : Text
  standardStyle : StyleRenderer.standard.has settings.style = true

namespace StyleRequest

/-- The text that the key of the request is the digest of. -/
def keyMaterial (r : StyleRequest) : Text :=
  StyleCompiler.keyMaterial r.settings.style r.constants r.source

/-- The answer of a compiler that keeps no output. -/
def compiled (r : StyleRequest) (files : FileStore) (w : StyleWorkspace) :
    Except StylesheetError Text :=
  ((StyleCompiler.ofSettings r.settings files).withoutCache.compile r.constants r.source w).1

end StyleRequest

/-! ## Separators -/

/-- The character that ends the style and every constant. -/
def zeroMark : Char := Char.ofNat 0

/-- A constant that holds no separator where one ends its name or its value. -/
structure Separable (constant : Text × Text) : Prop where
  name_equals : '=' ∉ constant.1
  name_zero : zeroMark ∉ constant.1
  value_zero : zeroMark ∉ constant.2

/-- Whether a source begins like a constant: there is a zero character in it, and an equals sign
before the first one. -/
def opensLikeConstant (source : Text) : Bool :=
  source.contains zeroMark && (source.takeWhile (· != zeroMark)).contains '='

/-- What stands before the first separator can be read back. -/
lemma append_cons_inj {sep : Char} {a b s t : Text} (ha : sep ∉ a) (hb : sep ∉ b)
    (h : a ++ sep :: s = b ++ sep :: t) : a = b ∧ s = t := by
  induction a generalizing b with
  | nil =>
      cases b with
      | nil => exact ⟨rfl, (List.cons.inj h).2⟩
      | cons d ds => exact absurd ((List.cons.inj h).1 ▸ List.mem_cons_self) hb
  | cons c cs ih =>
      cases b with
      | nil => exact absurd ((List.cons.inj h).1 ▸ List.mem_cons_self) ha
      | cons d ds =>
          obtain ⟨rfl, htail⟩ := List.cons.inj h
          rw [List.mem_cons, not_or] at ha hb
          obtain ⟨rfl, hrest⟩ := ih ha.2 hb.2 htail
          exact ⟨rfl, hrest⟩

/-! ## Constants -/

/-- The text of constants in the key. -/
def definitions (constants : List (Text × Text)) : Text :=
  constants.flatMap fun (name, value) => name ++ "=" ++ value ++ [zeroMark]

lemma definitions_cons (name value : Text) (rest : List (Text × Text)) (t : Text) :
    definitions ((name, value) :: rest) ++ t
      = (name ++ '=' :: value) ++ zeroMark :: (definitions rest ++ t) := by
  simp [definitions]

lemma StyleRequest.keyMaterial_eq (r : StyleRequest) :
    r.keyMaterial = r.settings.style ++ zeroMark :: (definitions r.constants ++ r.source) := by
  simp [keyMaterial, StyleCompiler.keyMaterial, definitions, zeroMark]

lemma Separable.zero_notMem {name value : Text} (h : Separable (name, value)) :
    zeroMark ∉ name ++ '=' :: value := by
  rw [List.mem_append, List.mem_cons, not_or, not_or]
  exact ⟨h.name_zero, by decide, h.value_zero⟩

lemma opensLikeConstant_definitions {constant : Text × Text} (h : Separable constant)
    (rest : List (Text × Text)) (t : Text) :
    opensLikeConstant (definitions (constant :: rest) ++ t) = true := by
  obtain ⟨name, value⟩ := constant
  have hpiece : ∀ c ∈ name ++ '=' :: value, (c != zeroMark) = true := by
    intro c hc
    rw [bne_iff_ne]
    rintro rfl
    exact h.zero_notMem hc
  rw [opensLikeConstant, definitions_cons, List.takeWhile_append_of_pos hpiece]
  simp

/-- Texts of separable constants with something after them are the same only if the constants of one
continue those of the other. -/
lemma definitions_append {first second : List (Text × Text)} {s t : Text}
    (hfirst : ∀ c ∈ first, Separable c) (hsecond : ∀ c ∈ second, Separable c)
    (h : definitions first ++ s = definitions second ++ t) :
    (∃ extra, first = second ++ extra ∧ t = definitions extra ++ s) ∨
      ∃ extra, second = first ++ extra ∧ s = definitions extra ++ t := by
  induction first generalizing second with
  | nil => exact Or.inr ⟨second, rfl, h⟩
  | cons constant first ih =>
      cases second with
      | nil => exact Or.inl ⟨constant :: first, rfl, h.symm⟩
      | cons other second =>
          obtain ⟨name, value⟩ := constant
          obtain ⟨name', value'⟩ := other
          have hhead := hfirst _ List.mem_cons_self
          have hhead' := hsecond _ List.mem_cons_self
          rw [definitions_cons, definitions_cons] at h
          obtain ⟨hpiece, hrest⟩ := append_cons_inj hhead.zero_notMem hhead'.zero_notMem h
          obtain ⟨rfl, rfl⟩ := append_cons_inj hhead.name_equals hhead'.name_equals hpiece
          rcases ih (fun c hc => hfirst c (List.mem_cons_of_mem _ hc))
            (fun c hc => hsecond c (List.mem_cons_of_mem _ hc)) hrest with
            ⟨extra, rfl, hs⟩ | ⟨extra, rfl, hs⟩
          · exact Or.inl ⟨extra, rfl, hs⟩
          · exact Or.inr ⟨extra, rfl, hs⟩

/-! ## Requests -/

/-- The names of the standard styles do not hold the zero character. -/
lemma zero_notMem_of_standard {style : Text} (h : StyleRenderer.standard.has style = true) :
    zeroMark ∉ style := by
  have hnames : (StyleRenderer.standard.entries.all fun entry =>
      !entry.1.contains zeroMark) = true := by decide
  rw [Registry.has, Registry.get?, Option.isSome_map] at h
  obtain ⟨entry, hentry⟩ := Option.isSome_iff_exists.1 h
  have hstyle : entry.1 = style := by simpa using List.find?_some hentry
  have hfree := List.all_eq_true.1 hnames entry (List.mem_of_find?_eq_some hentry)
  rw [hstyle] at hfree
  simpa using hfree

namespace StyleRequest

/-- What the inputs of a request must be like to be read back from a text that is also that of
`other`: the constants are separable, and if `other` has more of them, the source does not begin
like one. -/
structure SeparatedFrom (r other : StyleRequest) : Prop where
  constants : ∀ c ∈ r.constants, Separable c
  source : r.constants.length < other.constants.length → opensLikeConstant r.source = false

/-- Constants that continue those of a request are none, because they would open its source. -/
lemma SeparatedFrom.extra_eq_nil {r other : StyleRequest} (h : r.SeparatedFrom other)
    {extra : List (Text × Text)} (hextra : ∀ c ∈ extra, Separable c)
    (hconstants : other.constants = r.constants ++ extra) {t : Text}
    (hsource : r.source = definitions extra ++ t) : extra = [] := by
  cases extra with
  | nil => rfl
  | cons constant rest =>
      have hlength : r.constants.length < other.constants.length := by
        rw [hconstants, List.length_append, List.length_cons]
        omega
      have hopens := opensLikeConstant_definitions (hextra _ List.mem_cons_self) rest t
      rw [← hsource, h.source hlength] at hopens
      exact absurd hopens (by simp)

/-- Separated requests with the same text have the same inputs. -/
lemma inputs_eq_of_keyMaterial_eq {r₁ r₂ : StyleRequest} (hkey : r₁.keyMaterial = r₂.keyMaterial)
    (h₁ : r₁.SeparatedFrom r₂) (h₂ : r₂.SeparatedFrom r₁) :
    r₁.settings.style = r₂.settings.style ∧ r₁.constants = r₂.constants ∧
      r₁.source = r₂.source := by
  rw [keyMaterial_eq, keyMaterial_eq] at hkey
  obtain ⟨hstyle, hrest⟩ := append_cons_inj (zero_notMem_of_standard r₁.standardStyle)
    (zero_notMem_of_standard r₂.standardStyle) hkey
  refine ⟨hstyle, ?_⟩
  rcases definitions_append h₁.constants h₂.constants hrest with
    ⟨extra, hconstants, hsource⟩ | ⟨extra, hconstants, hsource⟩
  · have hextra : extra = [] := h₂.extra_eq_nil
      (fun c hc => h₁.constants c (hconstants ▸ List.mem_append_right _ hc)) hconstants hsource
    subst hextra
    exact ⟨by simpa using hconstants, hsource.symm⟩
  · have hextra : extra = [] := h₁.extra_eq_nil
      (fun c hc => h₂.constants c (hconstants ▸ List.mem_append_right _ hc)) hconstants hsource
    subst hextra
    exact ⟨by simpa using hconstants.symm, hsource⟩

/-- The answer depends on the style, the constants, and the lines of the source. -/
lemma compiled_congr {r₁ r₂ : StyleRequest} (hstyle : r₁.settings.style = r₂.settings.style)
    (hconstants : r₁.constants = r₂.constants)
    (hlines : sourceLines r₁.settings.indent r₁.source = sourceLines r₂.settings.indent r₂.source)
    (files₁ files₂ : FileStore) (w₁ w₂ : StyleWorkspace) :
    r₁.compiled files₁ w₁ = r₂.compiled files₂ w₂ := by
  have hparse : parseStyles r₁.settings.indent r₁.constants r₁.source
      = parseStyles r₂.settings.indent r₂.constants r₂.source := by
    rw [parseStyles, parseStyles, hlines, hconstants]
  unfold compiled StyleCompiler.compile StyleCompiler.build StyleCompiler.parse
    StyleCompiler.renderOutline StyleCompiler.withoutCache StyleCompiler.ofSettings
  dsimp only
  rw [hparse, hstyle]
  split_ifs
  · rfl
  · cases parseStyles r₂.settings.indent r₂.constants r₂.source <;> rfl

/-- **Requests with one key are one input with one answer.**  Separated requests that have the same
text for their key have the same style, constants and source; if their units of indentation cut the
source into the same lines, they are compiled to the same text. -/
theorem compiled_eq_of_keyMaterial_eq (r₁ r₂ : StyleRequest)
    (hkey : r₁.keyMaterial = r₂.keyMaterial)
    (h₁ : r₁.SeparatedFrom r₂) (h₂ : r₂.SeparatedFrom r₁)
    (hlines : sourceLines r₁.settings.indent r₁.source = sourceLines r₂.settings.indent r₁.source) :
    (r₁.settings.style = r₂.settings.style ∧ r₁.constants = r₂.constants ∧
      r₁.source = r₂.source) ∧
    ∀ files₁ files₂ w₁ w₂, r₁.compiled files₁ w₁ = r₂.compiled files₂ w₂ := by
  obtain ⟨hstyle, hconstants, hsource⟩ := inputs_eq_of_keyMaterial_eq hkey h₁ h₂
  refine ⟨⟨hstyle, hconstants, hsource⟩, fun files₁ files₂ w₁ w₂ => ?_⟩
  rw [hsource] at hlines
  exact compiled_congr hstyle hconstants (hsource ▸ hlines) files₁ files₂ w₁ w₂

/-- Two units for which every line of the source stands at the same depth: two spaces are one level,
and a part of a level of three.  Both requests have the same key, and the same answer. -/
theorem compiled_eq_of_keyMaterial_eq_two_units :
    let source : Text := "p\n  :width = !w * 2"
    let r₁ : StyleRequest :=
      ⟨{ StyleSettings.standard with indent := .spaces 2 }, [("w", "10px")], source, by decide⟩
    let r₂ : StyleRequest :=
      ⟨{ StyleSettings.standard with indent := .spaces 3 }, [("w", "10px")], source, by decide⟩
    r₁.settings.indent ≠ r₂.settings.indent ∧ r₁.keyMaterial = r₂.keyMaterial ∧
      (("w", "10px") : Text × Text) ∈ r₁.constants ∧ r₁.SeparatedFrom r₂ ∧ r₂.SeparatedFrom r₁ ∧
      sourceLines (.spaces 2) source = sourceLines (.spaces 3) source ∧
      ∀ files₁ files₂ w₁ w₂, r₁.compiled files₁ w₁ = r₂.compiled files₂ w₂ := by
  intro source r₁ r₂
  have hconstants : ∀ c ∈ r₁.constants, Separable c := by
    intro c hc
    rw [List.mem_singleton.1 hc]
    exact ⟨by decide, by decide, by decide⟩
  have h₁ : r₁.SeparatedFrom r₂ := ⟨hconstants, fun _ => by decide⟩
  have h₂ : r₂.SeparatedFrom r₁ := ⟨hconstants, fun _ => by decide⟩
  have hlines : sourceLines (.spaces 2) source = sourceLines (.spaces 3) source := by
    decide +kernel
  exact ⟨by decide, rfl, List.mem_singleton.2 rfl, h₁, h₂, hlines,
    (compiled_eq_of_keyMaterial_eq r₁ r₂ rfl h₁ h₂ hlines).2⟩

/-- The unit of indentation is not part of the key, and neither is where a name ends. -/
example :
    StyleCompiler.keyMaterial "nested" [("a=b", "c")] "p" =
      StyleCompiler.keyMaterial "nested" [("a", "b=c")] "p" ∧
    parseStyles (.spaces 2) [] "a\n  b\n    :top 0" ≠
      parseStyles (.spaces 4) [] "a\n  b\n    :top 0" := by
  decide +kernel

end StyleRequest

end Offside
