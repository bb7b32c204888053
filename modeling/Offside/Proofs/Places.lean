import Mathlib
import Offside.Artifacts.Error
import Offside.Proofs.Paths
import Offside.Proofs.ReadBack

/-!
# Where paths lead

There are no links in a file store, so a path leads to one place, whatever is there.

**Places.**  `leadsTo` is the place that a path stands for, and a path that can be followed is
followed to it (`eq_leadsTo_of_locate`).  What is passed on the way has to be directories: for a
path that ends in a name, they are `wayTo` (`place_eq_ok_iff`, `locate_eq_ok_iff`).

**Names.**  The path of a place is cut and put together name by name (`Location.path_append` and
what follows).
-/

namespace Offside

namespace Location

open FilePath

/-- Every step down to the place is a name. -/
def Named (l : Location) : Prop := ∀ name ∈ l, IsName name

instance (l : Location) : Decidable (Named l) :=
  inferInstanceAs (Decidable (∀ name ∈ l, IsName name))

lemma Named.dropLast {l : Location} (h : Named l) : Named l.dropLast :=
  fun name hname => h name (List.dropLast_subset l hname)

lemma named_append {l : Location} {name : Text} :
    Named (l ++ [name]) ↔ Named l ∧ IsName name := by
  simp [Named, or_imp, forall_and]

lemma isAbsolute_join {names : List Text} (h : Named names) :
    isAbsolute (Text.join "/" names) = false := by
  cases names with
  | nil => rfl
  | cons first rest =>
      have hfirst := h first List.mem_cons_self
      rw [← isAbsolute_eq_false hfirst.slash, isAbsolute, isAbsolute]
      cases rest with
      | nil => rfl
      | cons next rest =>
          rw [Text.join, List.append_assoc, List.head?_append_of_ne_nil _ hfirst.ne_nil]
          simp

@[simp] lemma isAbsolute_path (l : Location) : isAbsolute l.path = true := rfl

lemma steps_path {l : Location} (h : Named l) : steps l.path = l := by
  rw [path, steps_slash, steps_join h]

lemma parts_path {l : Location} (h : Named l) : parts l.path = ['/'] :: l := by
  have hsteps : steps l.path = l := steps_path h
  rw [parts, if_pos (isAbsolute_path l)]
  exact congrArg _ hsteps

lemma path_append {l : Location} {name : Text} (h : Named l) :
    path (l ++ [name]) = opened l.path ++ name := by
  rcases List.eq_nil_or_concat' l with rfl | ⟨front, last, rfl⟩
  · rfl
  · have hlast := (named_append.1 h).2
    have hjoin : ∃ t : Text, path (front ++ [last]) = t ++ last := by
      rcases eq_or_ne front [] with rfl | hfront
      · exact ⟨['/'], rfl⟩
      · exact ⟨_, by rw [path, join_append_singleton _ hfront, ← List.cons_append]⟩
    obtain ⟨t, ht⟩ := hjoin
    rw [ht, opened_append hlast.ne_nil hlast.slash, ← ht, path, path,
      join_append_singleton _ (by simp)]
    simp

lemma fileName?_path {l : Location} {name : Text} (h : Named (l ++ [name])) :
    fileName? (path (l ++ [name])) = some name := by
  obtain ⟨hl, hname⟩ := named_append.1 h
  rw [path_append hl, fileName?_append hname (getLast?_opened _)]

lemma parent?_path {l : Location} {name : Text} (h : Named (l ++ [name])) :
    parent? (path (l ++ [name])) = some l.path := by
  obtain ⟨hl, hname⟩ := named_append.1 h
  rw [path_append hl, parent?_append hname.ne_nil hname.slash hname.ne_dot (getLast?_opened _)]
  rcases List.eq_nil_or_concat' l with rfl | ⟨front, last, rfl⟩
  · rfl
  · obtain ⟨hfront, hlast⟩ := named_append.1 hl
    have htrim :=
      trimTail_append hlast.ne_nil hlast.slash hlast.ne_dot (opened (path front)).reverse
    rw [path_append hfront, ← List.reverse_append] at *
    rw [opened]
    split_ifs
    · rw [htrim, List.reverse_reverse]
    · rw [List.reverse_append, List.reverse_singleton, List.singleton_append, trimTail, htrim,
        List.reverse_reverse]
      intro hnil
      simp [hlast.ne_nil] at hnil

end Location

namespace FileStore

open FilePath Location

variable {s s' : FileStore}

/-! ## Following steps -/

lemma follow_of_isName {name : Text} (h : IsName name) (l : Location) :
    follow l name = l ++ [name] := by
  have hdot : name ≠ ['.'] := h.ne_dot
  have hdots : name ≠ ['.', '.'] := h.ne_dots
  simp [follow, h.ne_nil, hdot, hdots]

lemma follow_dots (l : Location) : follow l ".." = l.dropLast := rfl

/-- Empty parts and single dots lead nowhere else. -/
lemma follow_of_not_step {part : Text} (h : ¬isStep part = true) (l : Location) :
    follow l part = l := by
  rw [follow, if_pos]
  simpa [isStep, Classical.or_iff_not_imp_left] using h

/-- The places that are passed on the way, with those where it begins and ends. -/
def along (l : Location) : List Text → List Location
  | [] => [l]
  | part :: rest => l :: along (follow l part) rest

lemma along_append_singleton (l : Location) (parts : List Text) (part : Text) :
    along l (parts ++ [part]) = along l parts ++ [follow (parts.foldl follow l) part] := by
  induction parts generalizing l with
  | nil => rfl
  | cons first rest ih => rw [List.cons_append, along, ih]; rfl

lemma start_mem_along (l : Location) (parts : List Text) : l ∈ along l parts := by
  cases parts <;> simp [along]

lemma end_mem_along (l : Location) (parts : List Text) : parts.foldl follow l ∈ along l parts := by
  induction parts generalizing l with
  | nil => exact List.mem_cons_self
  | cons part rest ih => exact List.mem_cons_of_mem _ (ih _)

lemma along_subset_append (l : Location) (first second : List Text) :
    along l first ⊆ along l (first ++ second) := by
  induction first generalizing l with
  | nil => simpa [along] using start_mem_along l second
  | cons part rest ih => exact List.cons_subset_cons _ (ih _)

lemma named_of_mem_along {l place : Location} (hl : Named l) {p : FilePath}
    (h : place ∈ along l (steps p)) : Named place := by
  have hsteps : ∀ step ∈ steps p, step ≠ ".." → IsName step := fun step h => mem_steps h
  generalize steps p = found at hsteps h
  induction found generalizing l with
  | nil =>
      obtain rfl := List.mem_singleton.1 h
      exact hl
  | cons step rest ih =>
      rcases List.mem_cons.1 h with rfl | hrest
      · exact hl
      · refine ih ?_ (fun other hother => hsteps other (List.mem_cons_of_mem _ hother)) hrest
        by_cases hdots : step = ".."
        · rw [hdots, follow_dots]
          exact hl.dropLast
        · have hname := hsteps step List.mem_cons_self hdots
          rw [follow_of_isName hname]
          exact named_append.2 ⟨hl, hname⟩

lemma named_foldl_follow {l : Location} (hl : Named l) (p : FilePath) :
    Named ((steps p).foldl follow l) :=
  named_of_mem_along hl (end_mem_along l (steps p))

/-- The parts of a path that are no steps can be left out. -/
lemma foldl_follow_steps (l : Location) (p : FilePath) :
    (Text.splitOn '/' p).foldl follow l = (steps p).foldl follow l := by
  rw [steps]
  induction Text.splitOn '/' p generalizing l with
  | nil => rfl
  | cons part rest ih =>
      by_cases hpart : isStep part = true
      · rw [List.filter_cons_of_pos hpart, List.foldl_cons, List.foldl_cons, ih]
      · rw [List.filter_cons_of_neg hpart, List.foldl_cons, follow_of_not_step hpart, ih]

lemma mem_along_steps {l place : Location} {p : FilePath} :
    place ∈ along l (Text.splitOn '/' p) ↔ place ∈ along l (steps p) := by
  rw [steps]
  induction Text.splitOn '/' p generalizing l with
  | nil => rfl
  | cons part rest ih =>
      by_cases hpart : isStep part = true
      · rw [List.filter_cons_of_pos hpart, along, along, List.mem_cons, List.mem_cons, ih]
      · rw [List.filter_cons_of_neg hpart, along, List.mem_cons, follow_of_not_step hpart, ih,
          or_iff_right_of_imp]
        rintro rfl
        exact start_mem_along _ _

/-! ## Walking -/

lemma eq_of_walk {l d : Location} {parts : List Text} (h : s.walk l parts = .ok d) :
    d = parts.foldl follow l := by
  induction parts generalizing l with
  | nil => exact (Except.ok.inj h).symm
  | cons part rest ih => exact ih (walk_cons.1 h).2

/-- A walk ends at a directory exactly if it passes nothing but directories. -/
lemma walk_directory_iff {l d : Location} {parts : List Text} :
    (s.walk l parts = .ok d ∧ s.entry? d = some .directory)
      ↔ d = parts.foldl follow l ∧ ∀ place ∈ along l parts, s.entry? place = some .directory := by
  induction parts generalizing l with
  | nil =>
      simp only [walk, Except.ok.injEq, List.foldl_nil, along, List.mem_singleton, forall_eq]
      exact ⟨fun h => ⟨h.1.symm, h.1 ▸ h.2⟩, fun h => ⟨h.1.symm, h.1 ▸ h.2⟩⟩
  | cons part rest ih =>
      rw [walk_cons, and_assoc, ih, List.foldl_cons, along]
      simp only [List.mem_cons, forall_eq_or_imp]
      tauto

/-- No file is at the place. -/
def NoFileAt (s : FileStore) (l : Location) : Prop :=
  s.entry? l = none ∨ s.entry? l = some .directory

instance (s : FileStore) (l : Location) : Decidable (s.NoFileAt l) :=
  inferInstanceAs (Decidable (_ ∨ _))

lemma walk_error {l : Location} {parts : List Text} {e : FileError}
    (hfree : ∀ place ∈ along l parts, s.NoFileAt place) (h : s.walk l parts = .error e) :
    e = .notFound := by
  induction parts generalizing l with
  | nil => cases h
  | cons part rest ih =>
      have hl := hfree l List.mem_cons_self
      have hrest := fun place hplace => hfree place (List.mem_cons_of_mem _ hplace)
      rcases hl with hnone | hdirectory
      · simp only [walk, enter, hnone, bind, Except.bind, Except.error.injEq] at h
        exact h.symm
      · refine ih hrest ?_
        rw [← h, walk, enter_eq_ok.2 hdirectory, follow]
        simp only [bind, Except.bind]
        split_ifs <;> rfl

/-! ## Places -/

/-- The place that a path stands for, whether or not something is there. -/
def leadsTo (s : FileStore) (p : FilePath) : Location := (steps p).foldl follow (s.start p)

/-- What is passed on the way to the place of a path, except the place itself. -/
def wayTo (s : FileStore) (p : FilePath) : List Location := along (s.start p) (steps p).dropLast

lemma leadsTo_of_walk {p : FilePath} {l : Location}
    (h : s.walk (s.start p) (Text.splitOn '/' p) = .ok l) : l = s.leadsTo p := by
  rw [eq_of_walk h, foldl_follow_steps, leadsTo]

lemma eq_leadsTo_of_locate {p : FilePath} {l : Location} (h : s.locate p = .ok l) :
    l = s.leadsTo p :=
  leadsTo_of_walk (locate_eq_ok.1 h).2.1

lemma start_congr (h : s'.current = s.current) (p : FilePath) : s'.start p = s.start p := by
  rw [start, start, h]

lemma leadsTo_congr (h : s'.current = s.current) (p : FilePath) : s'.leadsTo p = s.leadsTo p := by
  rw [leadsTo, leadsTo, start_congr h]

lemma wayTo_congr (h : s'.current = s.current) (p : FilePath) : s'.wayTo p = s.wayTo p := by
  rw [wayTo, wayTo, start_congr h]

lemma foldl_follow_named {names : Location} (h : Named names) (l : Location) :
    names.foldl follow l = l ++ names := by
  induction names generalizing l with
  | nil => simp
  | cons name rest ih =>
      rw [List.foldl_cons, follow_of_isName (h name List.mem_cons_self),
        ih (fun other hother => h other (List.mem_cons_of_mem _ hother)), List.append_assoc,
        List.singleton_append]

lemma steps_opened_append (base : FilePath) {names : Location} (h : Named names) :
    steps (opened base ++ Text.join "/" names) = steps base ++ names := by
  rcases eq_nil_or_append_of_getLast? (getLast?_opened base) with hnil | ⟨front, hfront⟩
  · rw [← steps_opened base, hnil, List.nil_append, steps_join h]
    rfl
  · rw [← steps_opened base, hfront, List.append_assoc, List.singleton_append, steps_append_cons,
      steps_append_slash, steps_join h]

lemma start_opened_append (base : FilePath) {names : Location} (h : Named names) :
    s.start (opened base ++ Text.join "/" names) = s.start base := by
  rcases eq_or_ne base [] with rfl | hbase
  · rw [start, start, show opened [] = [] from rfl, List.nil_append, isAbsolute_join h]
    rfl
  · rw [start, start, isAbsolute, isAbsolute,
      List.head?_append_of_ne_nil _ (opened_ne_nil hbase), head?_opened hbase]

/-- Names below a path lead to the place below it. -/
lemma leadsTo_opened (base : FilePath) {names : Location} (h : Named names) :
    s.leadsTo (opened base ++ Text.join "/" names) = s.leadsTo base ++ names := by
  rw [leadsTo, leadsTo, steps_opened_append base h, start_opened_append base h, List.foldl_append,
    foldl_follow_named h]

/-- How a path ends in a name. -/
structure EndsIn (p pre name : Text) : Prop where
  eq : p = pre ++ name
  name : IsName name
  pre : ∀ c ∈ pre.getLast?, c = '/'

variable {p pre name : Text}

lemma EndsIn.steps (h : EndsIn p pre name) : FilePath.steps p = FilePath.steps pre ++ [name] := by
  rw [h.eq, steps_append h.name h.pre]

lemma EndsIn.wayTo (h : EndsIn p pre name) :
    s.wayTo p = along (s.start p) (FilePath.steps pre) := by
  rw [FileStore.wayTo, h.steps, List.dropLast_concat]

lemma EndsIn.leadsTo (h : EndsIn p pre name) :
    s.leadsTo p = (FilePath.steps pre).foldl follow (s.start p) ++ [name] := by
  rw [FileStore.leadsTo, h.steps, List.foldl_append, List.foldl_cons, List.foldl_nil,
    follow_of_isName h.name]

/-- The pieces of a path are those before its last part and this part. -/
lemma splitOn_append_last {last : Text} (hslash : '/' ∉ last)
    (hpre : ∀ c ∈ pre.getLast?, c = '/') :
    ∃ pieces, Text.splitOn '/' (pre ++ last) = pieces ++ [last] ∧
      (∀ l, pieces.foldl follow l = (FilePath.steps pre).foldl follow l) ∧
      ∀ l place, place ∈ along l pieces ↔ place ∈ along l (FilePath.steps pre) := by
  have hlast := splitOn_eq_singleton hslash
  rcases eq_nil_or_append_of_getLast? hpre with rfl | ⟨front, rfl⟩
  · exact ⟨[], by rw [List.nil_append, hlast]; rfl, fun _ => rfl, fun _ _ => Iff.rfl⟩
  · refine ⟨Text.splitOn '/' front, ?_, ?_, ?_⟩
    · rw [List.append_assoc, List.singleton_append, splitOn_append_cons, hlast]
    · intro l
      rw [steps_append_slash, foldl_follow_steps]
    · intro l place
      rw [steps_append_slash, mem_along_steps]

lemma EndsIn.splitOn (h : EndsIn p pre name) :
    ∃ pieces, Text.splitOn '/' p = pieces ++ [name] ∧
      (∀ l, pieces.foldl follow l = (FilePath.steps pre).foldl follow l) ∧
      ∀ l place, place ∈ along l pieces ↔ place ∈ along l (FilePath.steps pre) := by
  rw [h.eq]
  exact splitOn_append_last h.name.slash h.pre

/-- A file can be made at the end of a path if the way consists of directories. -/
lemma place_eq_ok_iff (h : EndsIn p pre name) {l : Location} :
    s.place p = .ok l
      ↔ l = s.leadsTo p ∧ ∀ place ∈ s.wayTo p, s.entry? place = some .directory := by
  obtain ⟨pieces, hpieces, hfold, halong⟩ := h.splitOn
  have hdot : name ≠ ['.'] := h.name.ne_dot
  have hdots : name ≠ ['.', '.'] := h.name.ne_dots
  have hwalk := @walk_directory_iff s (s.start p) (pieces.foldl follow (s.start p)) pieces
  simp only [true_and, hfold, halong] at hwalk
  rw [h.leadsTo, h.wayTo, ← hwalk, place]
  simp only [hpieces, List.getLast?_append, List.getLast?_singleton, Option.some_or,
    Option.getD_some, List.dropLast_concat]
  rw [if_neg (by simp [h.name.ne_nil, hdot, hdots])]
  cases hw : s.walk (s.start p) pieces with
  | error e => simp [bind, Except.bind]
  | ok d =>
      have hd := (eq_of_walk hw).trans (hfold _)
      cases he : s.enter d with
      | error e =>
          have hnot : s.entry? d ≠ some .directory := by
            intro hdirectory
            rw [enter_eq_ok.2 hdirectory] at he
            cases he
          simp [bind, Except.bind, he, ← hd, hnot]
      | ok u =>
          simp only [bind, Except.bind, he, pure, Except.pure, Except.ok.injEq, ← hd,
            enter_eq_ok.1 he, and_true]
          exact eq_comm

/-- A path can be followed to its end if the way consists of directories and something is there. -/
lemma locate_eq_ok_iff (h : EndsIn p pre name) {l : Location} :
    s.locate p = .ok l
      ↔ l = s.leadsTo p ∧ (∀ place ∈ s.wayTo p, s.entry? place = some .directory) ∧
        (s.entry? l).isSome = true := by
  have hp : p ≠ [] := by
    rw [h.eq]
    simp [h.name.ne_nil]
  rw [locate_eq_ok, ← and_assoc, ← and_assoc]
  refine and_congr_left fun _ => ?_
  constructor
  · rintro ⟨-, hwalk⟩
    have hl := leadsTo_of_walk hwalk
    refine ⟨hl, ?_⟩
    obtain ⟨pieces, hpieces, hfold, halong⟩ := h.splitOn
    rw [hpieces, walk_append] at hwalk
    obtain ⟨d, hd, hlast⟩ := hwalk
    rw [h.wayTo]
    intro place hplace
    exact (walk_directory_iff.1 ⟨hd, (walk_cons.1 hlast).1⟩).2 place ((halong _ _).2 hplace)
  · rintro hplace
    exact walk_of_place ((place_eq_ok_iff h).2 hplace)

/-- A file of which the path ends in a name is there if it can be located. -/
lemma locate_of_entry (h : EndsIn p pre name)
    (hway : ∀ place ∈ s.wayTo p, s.entry? place = some .directory)
    (hthere : (s.entry? (s.leadsTo p)).isSome = true) : s.locate p = .ok (s.leadsTo p) :=
  (locate_eq_ok_iff h).2 ⟨rfl, hway, hthere⟩

/-- Names that are put behind a path stand between slashes. -/
lemma exists_opened_append_join (base : FilePath) (names : List Text) :
    ∃ pre : Text, (∀ c ∈ pre.getLast?, c = '/') ∧
      ∀ last : Text, opened base ++ Text.join "/" (names ++ [last]) = pre ++ last := by
  rcases eq_or_ne names [] with rfl | hnames
  · exact ⟨opened base, getLast?_opened base, fun last => rfl⟩
  · refine ⟨opened base ++ Text.join "/" names ++ ['/'], by simp, fun last => ?_⟩
    rw [join_append_singleton _ hnames]
    simp

lemma endsIn_join (base : FilePath) (h : IsName name) :
    EndsIn (join base name) (opened base) name where
  eq := join_eq base (isAbsolute_eq_false h.slash)
  name := h
  pre := getLast?_opened base

lemma start_join (base : FilePath) (h : IsName name) :
    s.start (join base name) = s.start base := by
  have hnames : Named [name] := fun other hother => List.mem_singleton.1 hother ▸ h
  rw [join_eq base (isAbsolute_eq_false h.slash)]
  exact start_opened_append base hnames

lemma leadsTo_join (base : FilePath) (h : IsName name) :
    s.leadsTo (join base name) = s.leadsTo base ++ [name] := by
  have hnames : Named [name] := fun other hother => List.mem_singleton.1 hother ▸ h
  rw [join_eq base (isAbsolute_eq_false h.slash)]
  exact leadsTo_opened base hnames

end FileStore

end Offside
