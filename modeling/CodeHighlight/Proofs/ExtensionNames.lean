import CodeHighlight.Markdown.Extensions
import Mathlib

/-!
# Resolving extension names

Names are given as nothing, as one text or as several (`Naming`), and a text lists names with any
separators around them (`Text.Lists`). The active extensions depend on the names only: they are the
default names in their order and then the requested ones, each at the first place where it stands in
any letters, without those that are disabled or would highlight code (`IsNormalForm`). Resolving
such a list again changes nothing.

Main statement: `resolve_law`.
-/

namespace CodeHighlight

/-! ### Listings -/

namespace Text

/-- The text lists the names: they stand in it in order, each free of separators, with separators
between them and perhaps before the first and behind the last. -/
inductive Lists (sep : Char → Bool) : List (List Char) → List Char → Prop
  | nil {gap : List Char} (hgap : ∀ c ∈ gap, sep c = true) : Lists sep [] gap
  | cons {gap name rest : List Char} {names : List (List Char)} (hgap : ∀ c ∈ gap, sep c = true)
      (hne : name ≠ []) (hname : ∀ c ∈ name, sep c = false) (hrest : ∀ c ∈ rest.head?, sep c = true)
      (h : Lists sep names rest) : Lists sep (name :: names) (gap ++ (name ++ rest))

section Lists

variable {sep : Char → Bool} {gap name rest text run : List Char} {names : List (List Char)}

theorem fieldsFrom_gap (hgap : ∀ c ∈ gap, sep c = true) (rest : List Char) :
    fieldsFrom sep [] (gap ++ rest) = fieldsFrom sep [] rest := by
  induction gap with
  | nil => rfl
  | cons c gap ih =>
    rw [List.forall_mem_cons] at hgap
    rw [List.cons_append, fieldsFrom, if_pos hgap.1]
    exact ih hgap.2

theorem fieldsFrom_name (hname : ∀ c ∈ name, sep c = false) (run rest : List Char) :
    fieldsFrom sep run (name ++ rest) = fieldsFrom sep (name.reverse ++ run) rest := by
  induction name generalizing run with
  | nil => rfl
  | cons c name ih =>
    rw [List.forall_mem_cons] at hname
    rw [List.cons_append, fieldsFrom, if_neg (by rw [hname.1]; decide), ih hname.2,
      List.reverse_cons, List.append_assoc, List.singleton_append]

/-- A run ends where a separator follows or nothing does. -/
theorem fieldsFrom_end (hrun : run ≠ []) (hrest : ∀ c ∈ rest.head?, sep c = true) :
    fieldsFrom sep run rest = run.reverse :: fieldsFrom sep [] rest := by
  have hempty : run.isEmpty = false := List.isEmpty_eq_false_iff.2 hrun
  cases rest with
  | nil => simp [fieldsFrom, hempty]
  | cons c rest => simp [fieldsFrom, hempty, hrest c rfl]

/-- **The fields of a text are the names that it lists.** -/
theorem Lists.fields_eq (h : Lists sep names text) : fields sep text = names := by
  unfold fields
  induction h with
  | @nil gap hgap =>
    rw [← List.append_nil gap, fieldsFrom_gap hgap]
    rfl
  | cons hgap hne hname hrest _ ih =>
    rw [fieldsFrom_gap hgap, fieldsFrom_name hname, List.append_nil,
      fieldsFrom_end (List.reverse_ne_nil_iff.2 hne) hrest, List.reverse_reverse, ih]

theorem Lists.cons_gap {c : Char} (hc : sep c = true) (h : Lists sep names text) :
    Lists sep names (c :: text) := by
  cases h with
  | nil hgap => exact .nil (List.forall_mem_cons.2 ⟨hc, hgap⟩)
  | cons hgap hne hname hrest h =>
    rw [← List.cons_append]
    exact .cons (List.forall_mem_cons.2 ⟨hc, hgap⟩) hne hname hrest h

/-- Every text lists some names. -/
theorem exists_lists (sep : Char → Bool) (text : List Char) : ∃ names, Lists sep names text := by
  induction text with
  | nil => exact ⟨[], .nil fun _ h => absurd h List.not_mem_nil⟩
  | cons c rest ih =>
    obtain ⟨names, h⟩ := ih
    by_cases hc : sep c = true
    · exact ⟨names, h.cons_gap hc⟩
    · rw [Bool.not_eq_true] at hc
      have hnil : ∀ d ∈ ([] : List Char), sep d = true := fun _ h => absurd h List.not_mem_nil
      by_cases hrest : ∀ d ∈ rest.head?, sep d = true
      · exact ⟨[c] :: names, .cons hnil (List.cons_ne_nil _ _) (by simpa using hc) hrest h⟩
      · -- The character belongs to the name that the rest starts with.
        push Not at hrest
        obtain ⟨d, hd, hsep⟩ := hrest
        cases h with
        | nil hgap => exact absurd (hgap d (List.mem_of_mem_head? hd)) hsep
        | @cons gap name rest names hgap hne hname hrest h =>
          cases gap with
          | nil =>
            exact ⟨(c :: name) :: names,
              .cons hnil (List.cons_ne_nil _ _) (List.forall_mem_cons.2 ⟨hc, hname⟩) hrest h⟩
          | cons e gap =>
            obtain rfl : e = d := by simpa using hd
            exact absurd (hgap e (List.mem_cons_self ..)) hsep

theorem Lists.of_mem (h : Lists sep names text) (hname : name ∈ names) :
    name ≠ [] ∧ ∀ c ∈ name, sep c = false := by
  induction h with
  | nil _ => exact absurd hname List.not_mem_nil
  | cons _ hne hfree _ _ ih =>
    rcases List.mem_cons.1 hname with rfl | hname
    · exact ⟨hne, hfree⟩
    · exact ih hname

end Lists

end Text

namespace Markdown

/-- What can be given for names: nothing, a text, or several texts. -/
inductive Naming where
  | nothing
  | text (s : String)
  | texts (ss : List String)

namespace Naming

/-- What is given as a value. -/
def value : Naming → Value
  | nothing => .null
  | text s => .str s
  | texts ss => .list (ss.map Value.str)

/-- The texts that are given. -/
def given : Naming → List String
  | nothing => []
  | text s => [s]
  | texts ss => ss

/-- The names that a text lists. -/
def ListedIn (names : List String) (s : String) : Prop :=
  Text.Lists separatesNames (names.map String.toList) s.toList

/-- The names that are given, by the texts that list them. -/
def Names (n : Naming) (ns : List String) : Prop :=
  ∃ parts, List.Forall₂ ListedIn parts n.given ∧ ns = parts.flatten

end Naming

/-- The name is neither disabled nor one that would highlight code, in any letters. -/
def IsAllowed (ds : List String) (x : String) : Prop :=
  ∀ d ∈ ds ++ conflictingExtensions, Text.lower x ≠ Text.lower d

instance (ds : List String) : DecidablePred (IsAllowed ds) := fun x =>
  inferInstanceAs (Decidable (∀ d ∈ ds ++ conflictingExtensions, Text.lower x ≠ Text.lower d))

/-- The name at a place is no default one and does not stand at a place before, in any letters. -/
def IsNew (ns : List String) (i : Fin ns.length) : Prop :=
  (∀ d ∈ defaultExtensions, Text.lower (ns.get i) ≠ Text.lower d) ∧
    ∀ j < i, Text.lower (ns.get j) ≠ Text.lower (ns.get i)

/-- The normal form of requested names without disabled ones. -/
structure IsNormalForm (ns ds result : List String) : Prop where
  /-- No two names are equal up to lower-casing. -/
  once : (result.map Text.lower).Nodup
  /-- No name is disabled or would highlight code. -/
  allowed : ∀ x ∈ result, IsAllowed ds x
  /-- The default names come first, in their order, and then the requested ones that are new, each
  at its first place. -/
  order : ∃ places : List (Fin ns.length), places.Pairwise (· < ·) ∧
    (∀ i, i ∈ places ↔ IsAllowed ds (ns.get i) ∧ IsNew ns i) ∧
    result = defaultExtensions.filter (IsAllowed ds) ++ places.map ns.get

/-! ### Names in values -/

section Names
open Naming (ListedIn)

variable {n : Naming} {ns : List String}

theorem offered_value (n : Naming) : offered n.value = .ok n.given := by
  cases n with
  | nothing => rfl
  | text s => rfl
  | texts ss =>
    have hstrings : Value.strings (ss.map Value.str) = ss := by
      rw [Value.strings, List.filterMap_map]
      exact List.filterMap_some
    exact congrArg Except.ok hstrings

theorem namesIn_of_listedIn {names : List String} {s : String} (h : ListedIn names s) :
    namesIn s = names := by
  rw [namesIn, h.fields_eq, List.map_map]
  exact (List.map_congr_left fun x _ => String.ofList_toList).trans (List.map_id names)

theorem exists_listedIn (s : String) : ∃ names, ListedIn names s := by
  obtain ⟨names, hnames⟩ := Text.exists_lists separatesNames s.toList
  refine ⟨names.map String.ofList, ?_⟩
  have hback : (names.map String.ofList).map String.toList = names := by
    rw [List.map_map]
    exact (List.map_congr_left fun x _ => String.toList_ofList).trans (List.map_id names)
  rwa [ListedIn, hback]

variable {parts : List (List String)} {texts : List String}

theorem namesInAll_of_listedIn (h : List.Forall₂ ListedIn parts texts) :
    namesInAll texts = parts.flatten := by
  induction h with
  | nil => rfl
  | cons hpart _ ih =>
    rw [namesInAll, List.flatMap_cons, namesIn_of_listedIn hpart, List.flatten_cons, ← ih,
      namesInAll]

/-- **Only the names count**, not how they are spread over texts and separators. -/
theorem normalize_of_names (h : n.Names ns) : normalize n.value = .ok ns := by
  obtain ⟨parts, hparts, rfl⟩ := h
  rw [normalize, offered_value, ← namesInAll_of_listedIn hparts]
  rfl

theorem exists_forall₂_listedIn (texts : List String) :
    ∃ parts, List.Forall₂ ListedIn parts texts := by
  induction texts with
  | nil => exact ⟨[], .nil⟩
  | cons s texts ih =>
    obtain ⟨parts, hparts⟩ := ih
    obtain ⟨names, hnames⟩ := exists_listedIn s
    exact ⟨names :: parts, .cons hnames hparts⟩

theorem exists_names (n : Naming) : ∃ ns, n.Names ns := by
  obtain ⟨parts, hparts⟩ := exists_forall₂_listedIn n.given
  exact ⟨parts.flatten, parts, hparts, rfl⟩

/-- A name is not empty and holds no separator. -/
def IsName (x : String) : Prop := x.toList ≠ [] ∧ ∀ c ∈ x.toList, separatesNames c = false

theorem isName_of_listedIn (h : List.Forall₂ ListedIn parts texts) :
    ∀ x ∈ parts.flatten, IsName x := by
  induction h with
  | nil => exact fun x hx => absurd hx List.not_mem_nil
  | cons hpart _ ih =>
    intro x hx
    rcases List.mem_append.1 (List.flatten_cons ▸ hx) with hx | hx
    · exact hpart.of_mem (List.mem_map_of_mem hx)
    · exact ih x hx

theorem isName_of_names (h : n.Names ns) : ∀ x ∈ ns, IsName x := by
  obtain ⟨parts, hparts, rfl⟩ := h
  exact isName_of_listedIn hparts

theorem isName_of_default : ∀ x ∈ defaultExtensions, IsName x := by
  have h : ∀ x ∈ defaultExtensions,
      x.toList ≠ [] ∧ x.toList.all (fun c => !separatesNames c) = true := by decide
  exact fun x hx => ⟨(h x hx).1, by simpa using (h x hx).2⟩

/-- Names that are given one by one are the names that are given. -/
theorem names_texts (h : ∀ x ∈ ns, IsName x) : (Naming.texts ns).Names ns := by
  refine ⟨ns.map fun x => [x], ?_, ?_⟩
  · rw [List.forall₂_map_left_iff, Naming.given, List.forall₂_same]
    intro x hx
    have hnil : ∀ c ∈ ([] : List Char), separatesNames c = true :=
      fun _ h => absurd h List.not_mem_nil
    have hlists : Text.Lists separatesNames [x.toList] ([] ++ (x.toList ++ [])) :=
      .cons hnil (h x hx).1 (h x hx).2 nofun (.nil hnil)
    rwa [List.nil_append, List.append_nil] at hlists
  · rw [← List.flatMap_def, List.flatMap_singleton']

end Names

/-! ### Keeping what is new -/

section KeepNew

variable {leftOut seen xs ys : List String} {ds : List String} {x : String}

/-- The lower-case name is not left out. -/
def IsKept (leftOut : List String) (x : String) : Prop :=
  Text.lower x ∉ leftOut ∧ Text.lower x ∉ conflictingExtensions

theorem keepNew_cons_of_not (h : Text.lower x ∈ seen ∨ ¬ IsKept leftOut x) :
    keepNew leftOut seen (x :: xs) = keepNew leftOut seen xs := by
  rw [keepNew]
  refine if_pos ?_
  simp only [Bool.or_eq_true, List.contains_iff_mem]
  unfold IsKept at h
  tauto

theorem keepNew_cons_of_new (hseen : Text.lower x ∉ seen) (h : IsKept leftOut x) :
    keepNew leftOut seen (x :: xs) = x :: keepNew leftOut (Text.lower x :: seen) xs := by
  rw [keepNew]
  refine if_neg ?_
  simp only [Bool.or_eq_true, List.contains_iff_mem]
  exact fun hor => hor.elim (fun hor => hor.elim hseen h.1) h.2

theorem keepNew_append (xs ys : List String) :
    keepNew leftOut seen (xs ++ ys) = keepNew leftOut seen xs ++
      keepNew leftOut (((keepNew leftOut seen xs).map Text.lower).reverse ++ seen) ys := by
  induction xs generalizing seen with
  | nil => rfl
  | cons x xs ih =>
    by_cases h : Text.lower x ∈ seen ∨ ¬ IsKept leftOut x
    · rw [List.cons_append, keepNew_cons_of_not h, keepNew_cons_of_not h, ih]
    · push Not at h
      rw [List.cons_append, keepNew_cons_of_new h.1 h.2, keepNew_cons_of_new h.1 h.2, ih,
        List.cons_append, List.map_cons, List.reverse_cons, List.append_assoc,
        List.singleton_append]

theorem keepNew_of_seen (h : ∀ x ∈ xs, Text.lower x ∈ seen) : keepNew leftOut seen xs = [] := by
  induction xs with
  | nil => rfl
  | cons x xs ih =>
    rw [List.forall_mem_cons] at h
    rw [keepNew_cons_of_not (.inl h.1), ih h.2]

theorem of_mem_keepNew (h : x ∈ keepNew leftOut seen xs) :
    x ∈ xs ∧ Text.lower x ∉ seen ∧ IsKept leftOut x := by
  induction xs generalizing seen with
  | nil => exact absurd h List.not_mem_nil
  | cons y xs ih =>
    by_cases hy : Text.lower y ∈ seen ∨ ¬ IsKept leftOut y
    · rw [keepNew_cons_of_not hy] at h
      exact ⟨List.mem_cons_of_mem y (ih h).1, (ih h).2⟩
    · push Not at hy
      rw [keepNew_cons_of_new hy.1 hy.2] at h
      rcases List.mem_cons.1 h with rfl | h
      · exact ⟨List.mem_cons_self .., hy⟩
      · obtain ⟨hmem, hseen, hkept⟩ := ih h
        exact ⟨List.mem_cons_of_mem y hmem, fun hx => hseen (List.mem_cons_of_mem _ hx), hkept⟩

/-- No name is kept twice. -/
theorem nodup_keepNew (xs : List String) : ((keepNew leftOut seen xs).map Text.lower).Nodup := by
  induction xs generalizing seen with
  | nil => exact List.nodup_nil
  | cons x xs ih =>
    by_cases hx : Text.lower x ∈ seen ∨ ¬ IsKept leftOut x
    · rw [keepNew_cons_of_not hx]
      exact ih
    · push Not at hx
      rw [keepNew_cons_of_new hx.1 hx.2, List.map_cons, List.nodup_cons]
      refine ⟨fun hmem => ?_, ih⟩
      obtain ⟨y, hy, hlower⟩ := List.mem_map.1 hmem
      exact (of_mem_keepNew hy).2.1 (hlower ▸ List.mem_cons_self ..)

/-- Of names that are new and all different those are kept that are not left out. -/
theorem keepNew_of_nodup [DecidablePred (IsKept leftOut)] (hnodup : (xs.map Text.lower).Nodup)
    (hseen : ∀ x ∈ xs, Text.lower x ∉ seen) :
    keepNew leftOut seen xs = xs.filter (IsKept leftOut) := by
  induction xs generalizing seen with
  | nil => rfl
  | cons x xs ih =>
    rw [List.map_cons, List.nodup_cons] at hnodup
    rw [List.forall_mem_cons] at hseen
    by_cases hx : IsKept leftOut x
    · rw [keepNew_cons_of_new hseen.1 hx, List.filter_cons_of_pos (by simpa using hx),
        ih hnodup.2 fun y hy => List.not_mem_cons_of_ne_of_not_mem (fun heq => ?_) (hseen.2 y hy)]
      exact hnodup.1 (heq ▸ List.mem_map_of_mem hy)
    · rw [keepNew_cons_of_not (.inr hx), List.filter_cons_of_neg (by simpa using hx),
        ih hnodup.2 hseen.2]

/-- **What is kept stands at the places where it is seen for the first time.** -/
theorem exists_places (leftOut seen xs : List String) :
    ∃ places : List (Fin xs.length), places.Pairwise (· < ·) ∧
      (∀ i, i ∈ places ↔ (Text.lower (xs.get i) ∉ seen ∧ IsKept leftOut (xs.get i)) ∧
        ∀ j < i, Text.lower (xs.get j) ≠ Text.lower (xs.get i)) ∧
      keepNew leftOut seen xs = places.map xs.get := by
  induction xs generalizing seen with
  | nil => exact ⟨[], .nil, fun i => i.elim0, rfl⟩
  | cons x xs ih =>
    -- Places behind the first one are those of the rest, moved on by one.
    have hpairwise {places : List (Fin xs.length)} (h : places.Pairwise (· < ·)) :
        (places.map Fin.succ).Pairwise (· < ·) :=
      List.pairwise_map.2 (h.imp fun hij => Fin.succ_lt_succ_iff.2 hij)
    have hget (places : List (Fin xs.length)) :
        (places.map Fin.succ).map (x :: xs).get = places.map xs.get := by
      rw [List.map_map]
      rfl
    have hsucc (places : List (Fin xs.length)) (i : Fin xs.length) :
        i.succ ∈ places.map Fin.succ ↔ i ∈ places :=
      List.mem_map_of_injective (Fin.succ_injective _)
    have hzero (places : List (Fin xs.length)) :
        (0 : Fin (xs.length + 1)) ∉ places.map Fin.succ := by
      rw [List.mem_map]
      rintro ⟨i, -, hi⟩
      exact Fin.succ_ne_zero i hi
    have hbefore (i : Fin xs.length) :
        (∀ j < i.succ, Text.lower ((x :: xs).get j) ≠ Text.lower (xs.get i)) ↔
          Text.lower x ≠ Text.lower (xs.get i) ∧
            ∀ j < i, Text.lower (xs.get j) ≠ Text.lower (xs.get i) := by
      rw [Fin.forall_fin_succ]
      simp only [Fin.succ_lt_succ_iff, Fin.succ_pos, forall_const]
      rfl
    by_cases hx : Text.lower x ∈ seen ∨ ¬ IsKept leftOut x
    · obtain ⟨places, hplaces, hmem, heq⟩ := ih seen
      refine ⟨places.map Fin.succ, hpairwise hplaces, fun i => ?_, ?_⟩
      · induction i using Fin.cases with
        | zero =>
          refine iff_of_false (hzero places) fun h => ?_
          exact hx.elim h.1.1 fun hkept => hkept h.1.2
        | succ i =>
          refine (hsucc places i).trans ((hmem i).trans (and_congr_right fun hnew => ?_))
          refine ((hbefore i).trans (and_iff_right fun hsame => ?_)).symm
          rw [IsKept, hsame] at hx
          exact hx.elim hnew.1 fun hkept => hkept hnew.2
      · rw [keepNew_cons_of_not hx, heq, hget]
    · push Not at hx
      obtain ⟨places, hplaces, hmem, heq⟩ := ih (Text.lower x :: seen)
      refine ⟨0 :: places.map Fin.succ, List.pairwise_cons.2 ⟨fun i hi => ?_, hpairwise hplaces⟩,
        fun i => ?_, ?_⟩
      · obtain ⟨j, -, rfl⟩ := List.mem_map.1 hi
        exact Fin.succ_pos j
      · induction i using Fin.cases with
        | zero =>
          refine iff_of_true (List.mem_cons_self ..) ⟨hx, fun j hj => ?_⟩
          exact absurd hj (Fin.not_lt_zero j)
        | succ i =>
          rw [List.mem_cons, or_iff_right (Fin.succ_ne_zero i), hsucc, hmem, List.mem_cons, not_or]
          have hsymm :
              Text.lower (xs.get i) ≠ Text.lower x ↔ Text.lower x ≠ Text.lower (xs.get i) :=
            ne_comm
          have hstep := hbefore i
          simp only [List.get_cons_succ'] at hstep ⊢
          tauto
      · rw [keepNew_cons_of_new hx.1 hx.2, heq, List.map_cons, hget]
        rfl

end KeepNew

/-! ### The law -/

section Law

variable {ns ds : List String} {x : String}

theorem lower_conflictingExtensions :
    conflictingExtensions.map Text.lower = conflictingExtensions := by decide

theorem isKept_iff : IsKept (ds.map Text.lower) x ↔ IsAllowed ds x := by
  have hmem (d : String) : d ∈ conflictingExtensions ↔
      ∃ e ∈ conflictingExtensions, Text.lower e = d := by
    rw [← List.mem_map, lower_conflictingExtensions]
  simp only [IsKept, IsAllowed, List.mem_map, List.mem_append, hmem (Text.lower x)]
  constructor
  · rintro ⟨hds, hconflict⟩ d (hd | hd) heq
    · exact hds ⟨d, hd, heq.symm⟩
    · exact hconflict ⟨d, hd, heq.symm⟩
  · intro h
    exact ⟨fun ⟨d, hd, heq⟩ => h d (.inl hd) heq.symm, fun ⟨d, hd, heq⟩ => h d (.inr hd) heq.symm⟩

/-- The default names that are allowed, in lower case. -/
def defaultKeys (ds : List String) : List String :=
  ((defaultExtensions.filter (IsAllowed ds)).map Text.lower).reverse ++ []

theorem keepNew_defaultExtensions (ds : List String) :
    keepNew (ds.map Text.lower) [] defaultExtensions = defaultExtensions.filter (IsAllowed ds) := by
  have hnodup : (defaultExtensions.map Text.lower).Nodup := by decide
  have : DecidablePred (IsKept (ds.map Text.lower)) := fun _ => decidable_of_iff _ isKept_iff.symm
  rw [keepNew_of_nodup hnodup fun _ _ => List.not_mem_nil]
  exact List.filter_congr fun x _ => decide_eq_decide.2 isKept_iff

theorem resolveNames_eq (ns ds : List String) :
    resolveNames ns ds = defaultExtensions.filter (IsAllowed ds) ++
      keepNew (ds.map Text.lower) (defaultKeys ds) ns := by
  rw [resolveNames, keepNew_append, keepNew_defaultExtensions]
  rfl

theorem mem_defaultKeys {key : String} :
    key ∈ defaultKeys ds ↔ ∃ d ∈ defaultExtensions, IsAllowed ds d ∧ Text.lower d = key := by
  rw [defaultKeys, List.append_nil, List.mem_reverse, List.mem_map]
  simp only [List.mem_filter, decide_eq_true_eq, and_assoc]

theorem isNormalForm_resolveNames (ns ds : List String) :
    IsNormalForm ns ds (resolveNames ns ds) where
  once := nodup_keepNew _
  allowed := fun x hx => isKept_iff.1 (of_mem_keepNew hx).2.2
  order := by
    obtain ⟨places, hplaces, hmem, heq⟩ :=
      exists_places (ds.map Text.lower) (defaultKeys ds) ns
    refine ⟨places, hplaces, fun i => (hmem i).trans ?_, by rw [resolveNames_eq, heq]⟩
    rw [isKept_iff, IsNew, and_comm (a := _ ∉ _), and_assoc]
    refine and_congr_right fun hallowed => and_congr_left fun _ => ?_
    rw [mem_defaultKeys]
    constructor
    · intro h d hd hsame
      -- A default name equal to an allowed one is allowed too.
      refine h ⟨d, hd, fun e he => ?_, hsame.symm⟩
      rw [← hsame]
      exact hallowed e he
    · rintro h ⟨d, hd, -, hsame⟩
      exact h d hd hsame.symm

/-- Resolving the active extensions again gives them again. -/
theorem resolveNames_resolveNames (ns ds : List String) :
    resolveNames (resolveNames ns ds) ds = resolveNames ns ds := by
  have hdefaults : ∀ x ∈ defaultExtensions.filter (IsAllowed ds), Text.lower x ∈ defaultKeys ds :=
    fun x hx => mem_defaultKeys.2 ⟨x, (List.mem_filter.1 hx).1,
      of_decide_eq_true (List.mem_filter.1 hx).2, rfl⟩
  have : DecidablePred (IsKept (ds.map Text.lower)) := fun _ => decidable_of_iff _ isKept_iff.symm
  have hkept : ∀ x ∈ keepNew (ds.map Text.lower) (defaultKeys ds) ns,
      decide (IsKept (ds.map Text.lower) x) = true :=
    fun x hx => decide_eq_true (of_mem_keepNew hx).2.2
  calc resolveNames (resolveNames ns ds) ds
      = defaultExtensions.filter (IsAllowed ds) ++ keepNew (ds.map Text.lower) (defaultKeys ds)
          (keepNew (ds.map Text.lower) (defaultKeys ds) ns) := by
        rw [resolveNames_eq (resolveNames ns ds), resolveNames_eq ns, keepNew_append,
          keepNew_of_seen hdefaults]
        rfl
    _ = defaultExtensions.filter (IsAllowed ds) ++
          keepNew (ds.map Text.lower) (defaultKeys ds) ns := by
        rw [keepNew_of_nodup (nodup_keepNew ns) fun x hx => (of_mem_keepNew hx).2.1,
          List.filter_eq_self.2 hkept]
    _ = resolveNames ns ds := (resolveNames_eq ns ds).symm

theorem resolve_of_names {requested disabled : Naming} (hns : requested.Names ns)
    (hds : disabled.Names ds) :
    resolve requested.value disabled.value = .ok (resolveNames ns ds) := by
  rw [resolve, normalize_of_names hds, normalize_of_names hns]
  rfl

/-- **The active extensions are a normal form** of the names that are requested and disabled. They
are the same for every way to spread these names over texts and separators, and resolving them again
gives them again. -/
theorem resolve_law (requested disabled : Naming) :
    ∃ ns ds result, requested.Names ns ∧ disabled.Names ds ∧ IsNormalForm ns ds result ∧
      resolve requested.value disabled.value = .ok result ∧
      resolve (Naming.texts result).value disabled.value = .ok result ∧
      ∀ requested' disabled' : Naming, requested'.Names ns → disabled'.Names ds →
        resolve requested'.value disabled'.value = .ok result := by
  obtain ⟨ns, hns⟩ := exists_names requested
  obtain ⟨ds, hds⟩ := exists_names disabled
  have hresult : ∀ x ∈ resolveNames ns ds, IsName x := by
    intro x hx
    rcases List.mem_append.1 (of_mem_keepNew hx).1 with hx | hx
    · exact isName_of_default x hx
    · exact isName_of_names hns x hx
  refine ⟨ns, ds, resolveNames ns ds, hns, hds, isNormalForm_resolveNames ns ds,
    resolve_of_names hns hds, ?_, fun _ _ hns' hds' => resolve_of_names hns' hds'⟩
  rw [resolve_of_names (names_texts hresult) hds, resolveNames_resolveNames]

end Law

end Markdown

end CodeHighlight
