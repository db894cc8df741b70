import CodeHighlight.Proofs.BlockWalk
import CodeHighlight.Proofs.Towers

/-!
# What is reported about blocks

Main statement: `outermost_blocks_reported`. What becomes of a preformatted element is told by
`Fate`, in terms of its classes, its first code element, the registry, the marker class and the
levels of the stack that are left at its place, without reference to the walk. An element has at
most one fate (`Fate.eq`). A run that ends gives each preformatted element that stands in no other
one its fate, once and in document order, and does nothing else.

The levels matter only to a block that does not find as many of them as its syntax tree and its
markup have (`Fits.eq`).

The language of a block is the one named by the first class that names any (`IsLanguage`), first
among the classes of the code and then among those of the preformatted element.
-/

namespace CodeHighlight.Block
open Html (Element Document Place Tag)
open Html.Node (outermost mapOutermost)

/-! ### Languages -/

/-- The class consists of a mark and the name of a language, which is not empty. -/
def NamesLanguage (name l : String) : Prop :=
  l ≠ "" ∧ (name = "language-" ++ l ∨ name = "lang-" ++ l)

/-- The first of the classes that name a language names this one. -/
def IsLanguage (classes : List String) (l : String) : Prop :=
  ∃ before name after, classes = before ++ name :: after ∧ NamesLanguage name l ∧
    ∀ other ∈ before, ∀ k, ¬NamesLanguage other k

/-- What follows a mark in a class, unless it is empty. -/
theorem restOf_eq_some_iff {mark name l : String} :
    (if name.startsWith mark && mark.length < name.length then
      some (String.ofList (name.toList.drop mark.length)) else none) = some l ↔
      l ≠ "" ∧ name = mark ++ l := by
  rw [Option.ite_none_right_eq_some, Bool.and_eq_true, String.startsWith_string_iff,
    decide_eq_true_iff, Option.some.injEq]
  constructor
  · rintro ⟨⟨⟨rest, hrest⟩, hlt⟩, rfl⟩
    have hname : name = mark ++ String.ofList rest := by
      rw [← String.ofList_toList (s := name), ← hrest, String.ofList_append,
        String.ofList_toList]
    have hdrop : String.ofList (name.toList.drop mark.length) = String.ofList rest := by
      rw [← hrest, ← String.length_toList, List.drop_left]
    rw [hdrop]
    refine ⟨fun he => ?_, hname⟩
    rw [hname, he, String.append_empty] at hlt
    exact lt_irrefl _ hlt
  · rintro ⟨hl, rfl⟩
    have hpos : 0 < l.length := by
      rw [← String.length_toList, List.length_pos_iff]
      exact fun h => hl (String.toList_eq_nil_iff.1 h)
    refine ⟨⟨⟨l.toList, String.toList_append.symm⟩, ?_⟩, ?_⟩
    · rw [String.length_append]
      omega
    · rw [String.toList_append, ← String.length_toList, List.drop_left, String.ofList_toList]

/-- No class starts with both marks. -/
theorem marks_differ (k l : String) : "language-" ++ k ≠ "lang-" ++ l := by
  intro h
  have hlist := congrArg String.toList h
  rw [String.toList_append, String.toList_append] at hlist
  have hfifth := congrArg (fun cs : List Char => cs[4]?) hlist
  simp at hfifth

theorem languageOfClass_eq_some_iff {name l : String} :
    languageOfClass name = some l ↔ NamesLanguage name l := by
  unfold languageOfClass languageMarks NamesLanguage
  rw [List.findSome?_cons]
  split
  · rename_i k hk
    obtain ⟨hne, rfl⟩ := restOf_eq_some_iff.1 hk
    constructor
    · rintro ⟨⟩
      exact ⟨hne, Or.inl rfl⟩
    · rintro ⟨_, h | h⟩
      · rw [String.append_right_inj] at h
        rw [h]
      · exact absurd h (marks_differ k l)
  · rename_i hnone
    have hfirst : ¬(l ≠ "" ∧ name = "language-" ++ l) := fun h => by
      rw [restOf_eq_some_iff.2 h] at hnone
      cases hnone
    rw [List.findSome?_cons, List.findSome?_nil]
    have hsecond := @restOf_eq_some_iff "lang-" name l
    split
    · rename_i k hk
      rw [hk] at hsecond
      rw [hsecond]
      tauto
    · rename_i hk
      rw [hk] at hsecond
      rw [hsecond]
      tauto

theorem languageOf_eq_some_iff {t : Tag} {l : String} :
    languageOf t = some l ↔ IsLanguage t.classes l := by
  unfold languageOf IsLanguage
  rw [List.findSome?_eq_some_iff]
  constructor
  · rintro ⟨before, name, after, hclasses, hname, hnone⟩
    refine ⟨before, name, after, hclasses, languageOfClass_eq_some_iff.1 hname,
      fun other hother k hk => ?_⟩
    have hn := hnone other hother
    rw [languageOfClass_eq_some_iff.2 hk] at hn
    cases hn
  · rintro ⟨before, name, after, hclasses, hname, hnone⟩
    refine ⟨before, name, after, hclasses, languageOfClass_eq_some_iff.2 hname,
      fun other hother => ?_⟩
    rw [Option.eq_none_iff_forall_ne_some]
    exact fun k hk => hnone other hother k (languageOfClass_eq_some_iff.1 hk)

/-- The classes of the code come first, then those of the preformatted element. -/
theorem languageOf_orElse_eq_some_iff {code outer : Tag} {l : String} :
    (languageOf code <|> languageOf outer) = some l ↔
      IsLanguage code.classes l ∨
        (∀ k, ¬IsLanguage code.classes k) ∧ IsLanguage outer.classes l := by
  rcases h : languageOf code with _ | k
  · have hnone : ∀ k, ¬IsLanguage code.classes k := fun k hk => by
      rw [languageOf_eq_some_iff.2 hk] at h
      cases h
    show languageOf outer = some l ↔ _
    rw [languageOf_eq_some_iff]
    exact ⟨fun hl => Or.inr ⟨hnone, hl⟩, fun hl => (hl.resolve_left (hnone l)).2⟩
  · have hk := languageOf_eq_some_iff.1 h
    show some k = some l ↔ _
    rw [← languageOf_eq_some_iff, h]
    exact ⟨Or.inl, fun hl => hl.resolve_right fun hr => hr.1 k hk⟩

/-! ### The fate of an element -/

/-- The element holds a block: it does not carry the marker, its first code element stands behind
`before` and in front of `after`, and the block is read off the two elements. -/
structure Holds (c : Config) (e : Element) (before : List Html.Node) (code : Element)
    (after : List Html.Node) (b : Block) : Prop where
  unmarked : c.marker ∉ e.tag.classes
  children : e.children = before ++ code.toNode :: after
  name : code.tag.name = "code"
  first : ∀ tag children, .element tag children ∈ before → tag.name ≠ "code"
  language : ∀ l, b.lang = some l ↔ IsLanguage code.tag.classes l ∨
    (∀ k, ¬IsLanguage code.tag.classes k) ∧ IsLanguage e.tag.classes l
  note : b.note = noteOfBoth code.tag e.tag
  value : b.value = code.text

/-- What becomes of the preformatted element at a place: what takes its place, and what is reported
about it. -/
inductive Fate (k : Stack) (c : Config) (r : Registry) (p : Place) : Element × Report → Prop
  /-- It carries the marker or has no code. -/
  | passed (h : c.marker ∈ p.element.tag.classes ∨
      ∀ tag children, .element tag children ∈ p.element.children → tag.name ≠ "code") :
      Fate k c r p (p.element, {})
  /-- Its language, if it has one, is not in the registry. -/
  | unknown {before after : List Html.Node} {code : Element} {b : Block}
      (holds : Holds c p.element before code after b)
      (absent : ∀ l, b.lang = some l → Entries.get? r (.str l) = none) :
      Fate k c r p (p.element, { skipped := [b] })
  /-- Its code cannot be highlighted with the levels that are left. -/
  | defective {before after : List Html.Node} {code : Element} {b : Block} {l : String}
      {g : Grammar} {t : Trace} (holds : Holds c p.element before code after b)
      (lang : b.lang = some l) (grammar : Entries.get? r (.str l) = some g)
      (fails : Highlight.highlight (p.below - k.parsing) g b.value c.policy (some l) = .error t)
      (kind : t.kind = .parse) :
      Fate k c r p (p.element,
        { skipped := [b]
          log := [.warning ("Unable to highlight '" ++ l ++ "' code block: " ++ t.message) (some t),
            .event (.highlightSkipped l t.message)] })
  /-- Its code is highlighted: the span takes the place of the content of the code. -/
  | highlighted {before after : List Html.Node} {code : Element} {b : Block} {l : String}
      {g : Grammar} {span : Span} (holds : Holds c p.element before code after b)
      (lang : b.lang = some l) (grammar : Entries.get? r (.str l) = some g)
      (succeeds :
        Highlight.highlight (p.below - k.parsing) g b.value c.policy (some l) = .ok span)
      (marks : span.height ≤ p.below - k.marking) :
      Fate k c r p
        (⟨p.element.tag.setClasses [c.marker, "language-" ++ l],
          before ++ .element code.tag [span.toNode "span"] :: after⟩,
          { blocks := [⟨b, [c.marker, "language-" ++ l], span⟩] })

/-- A child with a name is the first of the children with that name. -/
theorem child?_eq_some_iff {e code : Element} {name : String} :
    e.child? name = some code ↔ ∃ before after, e.children = before ++ code.toNode :: after ∧
      code.tag.name = name ∧
      ∀ tag children, .element tag children ∈ before → tag.name ≠ name := by
  unfold Element.child?
  rw [List.findSome?_eq_some_iff]
  constructor
  · rintro ⟨before, n, after, hchildren, hn, hbefore⟩
    cases n with
    | text kind s => cases hn
    | element q ns =>
      dsimp only at hn
      split_ifs at hn with hq
      cases hn
      refine ⟨before, after, hchildren, hq, fun tag children hm hname => ?_⟩
      have hnone := hbefore _ hm
      simp [hname] at hnone
  · rintro ⟨before, after, hchildren, hname, hfirst⟩
    refine ⟨before, code.toNode, after, hchildren, by simp [Element.toNode, hname],
      fun n hn => ?_⟩
    cases n with
    | text kind s => rfl
    | element q ns => simp [hfirst q ns hn]

theorem child?_eq_none_iff {e : Element} {name : String} :
    e.child? name = none ↔
      ∀ tag children, .element tag children ∈ e.children → tag.name ≠ name := by
  unfold Element.child?
  rw [List.findSome?_eq_none_iff]
  constructor
  · intro h tag children hm hname
    have hnone := h _ hm
    simp [hname] at hnone
  · intro h n hn
    cases n with
    | text kind s => rfl
    | element q ns => simp [h q ns hn]

/-- Only the content of the first code element is replaced. -/
theorem replaceCode_append {before after : List Html.Node} {code : Element}
    (hfirst : ∀ tag children, .element tag children ∈ before → tag.name ≠ "code")
    (hname : code.tag.name = "code") (content : List Html.Node) :
    replaceCode content (before ++ code.toNode :: after) =
      before ++ .element code.tag content :: after := by
  induction before with
  | nil =>
    show replaceCode content (.element code.tag code.children :: after) = _
    rw [replaceCode, if_pos hname]
    rfl
  | cons n before ih =>
    have hrest := ih fun tag children hm => hfirst tag children (List.mem_cons_of_mem _ hm)
    rw [List.cons_append, List.cons_append, ← hrest]
    cases n with
    | text kind s =>
      rw [replaceCode]
      rintro _ _ ⟨⟩
    | element q ns =>
      rw [replaceCode, if_neg (hfirst q ns List.mem_cons_self)]

variable {k : Stack} {c : Config} {r : Registry} {e code : Element} {p q : Place}
  {before after : List Html.Node} {b : Block} {n : ℕ}

/-- A block is held by an element from which it is read off. -/
theorem exists_holds (hm : c.marker ∉ e.tag.classes) (h : ofElement? e = some b) :
    ∃ before code after, Holds c e before code after b := by
  obtain ⟨code, hcode, rfl⟩ := Option.map_eq_some_iff.1 h
  obtain ⟨before, after, hchildren, hname, hfirst⟩ := child?_eq_some_iff.1 hcode
  exact ⟨before, code, after, hm, hchildren, hname, hfirst,
    fun l => languageOf_orElse_eq_some_iff, rfl, rfl⟩

/-- The block that an element holds is read off it. -/
theorem Holds.ofElement? (h : Holds c e before code after b) : ofElement? e = some b := by
  have hcode : e.child? "code" = some code :=
    child?_eq_some_iff.2 ⟨before, after, h.children, h.name, h.first⟩
  have hlang : (languageOf code.tag <|> languageOf e.tag) = b.lang :=
    Option.ext fun l => languageOf_orElse_eq_some_iff.trans (h.language l).symm
  rw [Block.ofElement?, hcode, Option.map_some, hlang, ← h.note, ← h.value]

theorem ne_empty_of_isLanguage {classes : List String} {l : String} (h : IsLanguage classes l) :
    l ≠ "" := by
  obtain ⟨_, _, _, _, ⟨hl, _⟩, _⟩ := h
  exact hl

theorem Holds.ne_empty (h : Holds c e before code after b) {l : String} (hl : b.lang = some l) :
    l ≠ "" := by
  rcases (h.language l).1 hl with hl | ⟨_, hl⟩ <;> exact ne_empty_of_isLanguage hl

/-- A block is highlighted with the grammar of its language, if the registry has it. -/
theorem highlight?_of_get? {l : String} (hl : b.lang = some l) (hne : l ≠ "") :
    highlight? n c r b = (Entries.get? r (.str l)).map fun g =>
      (l, Highlight.highlight n g b.value c.policy (some l)) := by
  have hempty : l.isEmpty = false := by
    rw [← Bool.not_eq_true, String.isEmpty_iff]
    exact hne
  have hcan : Registry.canHighlight r (some l) = (Entries.get? r (.str l)).isSome := by
    rw [Registry.canHighlight, hempty, Entries.has_eq_isSome]
    rfl
  simp only [highlight?, hl, hcan, Registry.find]
  rcases Entries.get? r (.str l) with _ | g <;> rfl

/-- A block is highlighted with a grammar of the registry. -/
theorem exists_mem_of_highlight? {l : String} {x : Except Trace Span}
    (h : highlight? n c r b = some (l, x)) :
    ∃ k g, (k, g) ∈ r ∧ x = Highlight.highlight n g b.value c.policy (some l) := by
  rcases hl : b.lang with _ | q
  · rw [highlight?, hl] at h
    cases h
  by_cases hq : q = ""
  · subst hq
    rw [highlight?, hl] at h
    cases h
  rw [highlight?_of_get? hl hq] at h
  obtain ⟨g, hg, hx⟩ := Option.map_eq_some_iff.1 h
  obtain ⟨⟨k, g⟩, hk, rfl⟩ := Option.map_eq_some_iff.1 hg
  cases hx
  exact ⟨k, g, List.mem_of_find?_eq_some hk, rfl⟩

/-! ### What the handler does -/

/-- The stack has the levels that it takes to read the element. -/
def IsReached (k : Stack) (p : Place) : Prop := k.reading < p.room

/-- A preformatted element that is reached fails as the handler does. -/
theorem failure?_of_isReached (hr : IsReached k p) (hname : p.element.tag.name = "pre") :
    failure? k c r p = (alone k c r p).2.2 := by
  obtain ⟨room, e⟩ := p
  cases room with
  | zero => exact absurd hr (Nat.not_lt_zero _)
  | succ room => exact failure?_of_pre hname

/-- A preformatted element that does not fail is reached. -/
theorem isReached_of_failure?_eq_none (hname : p.element.tag.name = "pre")
    (h : failure? k c r p = none) : IsReached k p := by
  obtain ⟨room, e⟩ := p
  cases room with
  | zero => cases h
  | succ room =>
    rw [failure?_of_pre hname] at h
    by_contra hreach
    have hreading : room < k.reading := by
      have hle : ¬k.reading < room + 1 := hreach
      omega
    rw [alone, handler, if_pos (show Place.below ⟨room + 1, e⟩ < k.reading from hreading)] at h
    cases h

theorem handler_of_isReached (hr : IsReached k p) :
    ¬({ nextId := 0, room := p.below, data := {} } : Walk Report).room < k.reading := by
  unfold IsReached at hr
  show ¬p.room - 1 < k.reading
  omega

/-- What the handler does with an element that holds a block. -/
theorem Holds.alone (h : Holds c p.element before code after b) (hr : IsReached k p) :
    alone k c r p = match highlight? (p.below - k.parsing) c r b with
      | none => (p.element, { nextId := 0, room := p.below, data := { skipped := [b] } }, none)
      | some (l, .error t) =>
        if t.kind = .parse then
          (p.element,
            { nextId := 0, room := p.below,
              data := { skipped := [b], log := skipDiagnostics l t } },
            none)
        else (p.element, { nextId := 0, room := p.below, data := {} }, some t)
      | some (l, .ok span) =>
        if p.below - k.marking < span.height then
          (p.element, { nextId := 0, room := p.below, data := {} }, some (Stack.exceeded ""))
        else
          (⟨p.element.tag.setClasses [c.marker, "language-" ++ l],
            before ++ .element code.tag [span.toNode "span"] :: after⟩,
            { nextId := 0, room := p.below,
              data := { blocks := [⟨b, [c.marker, "language-" ++ l], span⟩] } },
            none) := by
  have hm : ¬p.element.tag.classes.contains c.marker = true := by simpa using h.unmarked
  rw [Block.alone, handler, if_neg (handler_of_isReached hr), if_neg hm, h.ofElement?]
  dsimp only
  rcases highlight? (p.below - k.parsing) c r b with _ | ⟨l, t | span⟩
  · rfl
  · rfl
  · dsimp only
    rw [← replaceCode_append h.first h.name, ← h.children]
    rfl

theorem alone_of_marked (hr : IsReached k p) (h : c.marker ∈ p.element.tag.classes) :
    alone k c r p = (p.element, { nextId := 0, room := p.below, data := {} }, none) := by
  rw [alone, handler, if_neg (handler_of_isReached hr), if_pos (List.contains_iff_mem.2 h)]

theorem alone_of_ofElement?_eq_none (hr : IsReached k p) (h : ofElement? p.element = none) :
    alone k c r p = (p.element, { nextId := 0, room := p.below, data := {} }, none) := by
  rw [alone, handler, if_neg (handler_of_isReached hr), h]
  split_ifs <;> rfl

/-- **The handler gives every element its fate**, unless the run ends. -/
theorem fate_of_failure?_eq_none (hname : p.element.tag.name = "pre")
    (h : failure? k c r p = none) : Fate k c r p (rewritten k c r p, reportOf k c r p) := by
  have hr := isReached_of_failure?_eq_none hname h
  rw [failure?_of_isReached hr hname] at h
  unfold rewritten reportOf
  by_cases hm : c.marker ∈ p.element.tag.classes
  · rw [alone_of_marked hr hm]
    exact .passed (Or.inl hm)
  rcases hb : ofElement? p.element with _ | b
  · rw [alone_of_ofElement?_eq_none hr hb]
    exact .passed (Or.inr (child?_eq_none_iff.1 (Option.map_eq_none_iff.1 hb)))
  obtain ⟨before, code, after, holds⟩ := exists_holds hm hb
  rw [holds.alone hr] at h ⊢
  rcases hl : b.lang with _ | l
  · have hnone : highlight? (p.below - k.parsing) c r b = none := by rw [highlight?, hl]
    rw [hnone]
    exact .unknown holds (by simp [hl])
  rw [highlight?_of_get? hl (holds.ne_empty hl)] at h ⊢
  rcases hg : Entries.get? r (.str l) with _ | g
  · refine .unknown holds fun j hj => ?_
    rw [hl, Option.some.injEq] at hj
    rw [← hj, hg]
  rw [hg, Option.map_some] at h
  rw [Option.map_some]
  rcases hh : Highlight.highlight (p.below - k.parsing) g b.value c.policy (some l) with t | span
  · rw [hh] at h
    dsimp only at h ⊢
    split_ifs at h ⊢ with hk
    exact .defective holds hl hg hh hk
  · rw [hh] at h
    dsimp only at h ⊢
    split_ifs at h ⊢ with hfull
    exact .highlighted holds hl hg hh (not_lt.1 hfull)

/-- The handler gives every element its fate, and nothing fails. -/
theorem Fate.alone {x : Element × Report} (h : Fate k c r p x) (hr : IsReached k p) :
    alone k c r p = (x.1, { nextId := 0, room := p.below, data := x.2 }, none) := by
  cases h with
  | passed h =>
    rcases h with h | h
    · rw [alone_of_marked hr h]
    · rw [alone_of_ofElement?_eq_none hr (Option.map_eq_none_iff.2 (child?_eq_none_iff.2 h))]
  | @unknown _ _ _ b holds absent =>
    have hnone : highlight? (p.below - k.parsing) c r b = none := by
      rcases hl : b.lang with _ | l
      · rw [highlight?, hl]
      · rw [highlight?_of_get? hl (holds.ne_empty hl), absent l hl]
        rfl
    rw [holds.alone hr, hnone]
  | defective holds lang grammar fails kind =>
    rw [holds.alone hr, highlight?_of_get? lang (holds.ne_empty lang), grammar, Option.map_some,
      fails]
    dsimp only
    rw [if_pos kind]
    rfl
  | highlighted holds lang grammar succeeds marks =>
    rw [holds.alone hr, highlight?_of_get? lang (holds.ne_empty lang), grammar, Option.map_some,
      succeeds]
    exact if_neg (not_lt.2 marks)

/-- **An element has one fate.** -/
theorem Fate.eq {x : Element × Report} (h : Fate k c r p x) (hr : IsReached k p) :
    x = (rewritten k c r p, reportOf k c r p) := by
  unfold rewritten reportOf
  rw [h.alone hr]

/-- An element that has a fate does not end the run. -/
theorem Fate.failure?_eq_none {x : Element × Report} (h : Fate k c r p x) (hr : IsReached k p)
    (hname : p.element.tag.name = "pre") : failure? k c r p = none := by
  rw [failure?_of_isReached hr hname, h.alone hr]

/-! ### Levels enough -/

/-- The stack has as many levels at the place as its block can take: the element can be read, and
the syntax tree that a grammar makes of its code and the markup for that tree find room. -/
structure Fits (k : Stack) (r : Registry) (p : Place) : Prop where
  reached : IsReached k p
  tree : ∀ b bytes, ofElement? p.element = some b → b.value.encode = .ok bytes →
    ∀ l g root, (l, g) ∈ r → g.parse bytes = .ok (some root) →
      root.height + k.parsing < p.below ∧ root.height + k.marking < p.below

/-- With levels enough a block is highlighted alike. -/
theorem Fits.highlight?_eq {e : Element} {n m : ℕ} (hp : Fits k r ⟨n, e⟩) (hq : Fits k r ⟨m, e⟩)
    (hb : ofElement? e = some b) :
    highlight? (n - 1 - k.parsing) c r b = highlight? (m - 1 - k.parsing) c r b := by
  rcases hl : b.lang with _ | l
  · rw [highlight?, highlight?, hl]
  by_cases hempty : l = ""
  · subst hempty
    rw [highlight?, highlight?, hl]
    rfl
  rw [highlight?_of_get? hl hempty, highlight?_of_get? hl hempty]
  refine Option.map_congr fun g hg => ?_
  obtain ⟨⟨j, g⟩, hj, rfl⟩ := Option.map_eq_some_iff.1 hg
  have hmem := List.mem_of_find?_eq_some hj
  rw [Highlight.highlight_eq_of_height fun bytes root hbytes hroot => ?_]
  have hn := (hp.tree b bytes hb hbytes j g root hmem hroot).1
  have hm := (hq.tree b bytes hb hbytes j g root hmem hroot).1
  simp only [Place.below] at hn hm
  omega

/-- With levels enough the markup of a highlighted block finds room. -/
theorem Fits.height_le {l : String} {span : Span} (hp : Fits k r p)
    (hb : ofElement? p.element = some b) (h : highlight? n c r b = some (l, .ok span)) :
    span.height ≤ p.below - k.marking := by
  obtain ⟨j, g, hmem, hspan⟩ := exists_mem_of_highlight? h
  obtain ⟨bytes, root, hbytes, hroot, hheight⟩ := Highlight.height_le_of_highlight hspan.symm
  have hroom := (hp.tree b bytes hb hbytes j g root hmem hroot).2
  omega

/-- **Levels do not matter where there are enough**: what becomes of an element does not depend on
its place then. -/
theorem Fits.eq (he : p.element = q.element) (hp : Fits k r p) (hq : Fits k r q) :
    (rewritten k c r p, reportOf k c r p) = (rewritten k c r q, reportOf k c r q) := by
  obtain ⟨n, e⟩ := p
  obtain ⟨m, e'⟩ := q
  obtain rfl : e = e' := he
  unfold rewritten reportOf
  by_cases hm : c.marker ∈ e.tag.classes
  · rw [alone_of_marked hp.reached hm, alone_of_marked hq.reached hm]
  rcases hb : ofElement? e with _ | b
  · rw [alone_of_ofElement?_eq_none hp.reached hb, alone_of_ofElement?_eq_none hq.reached hb]
  obtain ⟨before, code, after, holds⟩ := exists_holds hm hb
  have hsame : highlight? (Place.below ⟨n, e⟩ - k.parsing) c r b =
      highlight? (Place.below ⟨m, e⟩ - k.parsing) c r b := hp.highlight?_eq hq hb
  rw [holds.alone hp.reached, holds.alone hq.reached, hsame]
  rcases hh : highlight? (Place.below ⟨m, e⟩ - k.parsing) c r b with _ | ⟨l, t | span⟩
  · rfl
  · dsimp only
    split_ifs <;> rfl
  · dsimp only
    rw [if_neg (not_lt.2 (hp.height_le hb hh)), if_neg (not_lt.2 (hq.height_le hb hh))]

/-- A document with two blocks, one of them inside another preformatted element. -/
def nestedBlocks : Document where
  root := ⟨{ id := 1, name := "[document]" },
    [.element { id := 2, name := "pre" }
      [.element { id := 3, name := "code", attributes := [("class", .words ["language-js"])] }
        [.element { id := 4, name := "pre" }
          [.element { id := 5, name := "code" } [.text .plain "let y"]]]]]⟩
  nextId := 6

/-- The run over one preformatted element inside others is the work on it alone, with the levels
that the others leave. -/
theorem transform_around {n room : ℕ} (hname : e.tag.name = "pre") (hid : e.tag.id = 1)
    (hlevels : k.levels = room + n + 1) (hends : failure? k c r ⟨room, e⟩ = none) :
    ∃ d', transform k c r (.around n e) = (d', reportOf k c r ⟨room, e⟩, none) := by
  have hroot : Document.rootName ≠ "pre" := by decide
  have hpre : e.toNode.places room = [⟨room, e⟩] := Html.Node.places_of_pre hname
  have hplaces : (Document.around n e).root.toNode.places k.levels =
      ⟨k.levels, (Document.around n e).root⟩ ::
        (Html.Node.nested 3 n e.toNode).places (room + n) := by
    rw [Document.around, Element.toNode, Html.Node.places_of_ne hroot, Html.Node.placesOf,
      Html.Node.placesOf, List.append_nil, hlevels, Nat.add_sub_cancel]
  have houtermost : (Document.around n e).root.toNode.outermost k.levels = [⟨room, e⟩] := by
    rw [Document.around, Element.toNode, Html.Node.outermost_of_ne hroot,
      Html.Node.outermostOf_cons, hlevels, Nat.add_sub_cancel, Html.Node.outermost_nested]
    exact (List.append_nil _).trans (Html.Node.outermost_of_pre hname)
  have hnone : ∀ p ∈ (Document.around n e).root.toNode.places k.levels,
      failure? k c r p = none := by
    rw [hplaces, List.forall_mem_cons]
    constructor
    · rw [hlevels]
      exact failure?_of_ne hroot
    · intro p hp
      rcases Html.Node.mem_places_nested hp with hp | ⟨hdiv, hlt⟩
      · rw [hpre, List.mem_singleton] at hp
        rw [hp, hends]
      · obtain ⟨m, hm⟩ := Nat.exists_eq_succ_of_ne_zero (Nat.ne_zero_of_lt hlt)
        obtain ⟨_, x⟩ := p
        cases hm
        exact failure?_of_ne (by rw [hdiv]; exact Html.Node.div_ne_pre)
  have hspec := transform_spec k c r (Document.isNumbered_around (n := n) hname hid)
  rcases hrun : transform k c r (.around n e) with ⟨d', report, t⟩
  rw [hrun] at hspec
  obtain ⟨ht, hreturns⟩ := hspec
  rw [List.findSome?_eq_none_iff.2 hnone] at ht
  refine ⟨d', ?_⟩
  rw [(hreturns ht).1, houtermost, List.map_singleton, Report.join_singleton, ht]

/-- A block with the source that towers are made for. -/
def towerBlock : Element :=
  ⟨{ id := 1, name := "pre" }, [.element
    { id := 2, name := "code", attributes := [("class", .words ["language-js"])] }
    [.text .plain Highlight.towerSource]]⟩

/-- What is read off the block. -/
def towerRead : Block := ⟨some "js", none, Highlight.towerSource⟩

/-- A registry with a tower for all sources. -/
def towerRegistry (n : ℕ) : Registry := [(.str "js", Highlight.fixedGrammar (Highlight.tower n))]

/-- The block is highlighted with a tower where the levels that are left are enough for the tower
and its markup, and skipped where they are not enough for the tower. -/
theorem alone_towerBlock (n room : ℕ) (hr : IsReached k ⟨room, towerBlock⟩) :
    (n + 2 ≤ room - 1 - k.parsing → n + 2 ≤ room - 1 - k.marking →
      failure? k {} (towerRegistry n) ⟨room, towerBlock⟩ = none ∧
      ∃ s, reportOf k {} (towerRegistry n) ⟨room, towerBlock⟩ =
        { blocks := [⟨towerRead, ["tree-sitter", "language-js"], s⟩] }) ∧
    (room - 1 - k.parsing < n + 2 →
      failure? k {} (towerRegistry n) ⟨room, towerBlock⟩ = none ∧
      ∃ log, reportOf k {} (towerRegistry n) ⟨room, towerBlock⟩ =
        { skipped := [towerRead], log := log }) := by
  have hm : (({} : Config).marker) ∉ towerBlock.tag.classes := by decide
  have hb : ofElement? towerBlock = some towerRead := by cbv
  obtain ⟨before, code, after, holds⟩ := exists_holds hm hb
  have halone := holds.alone (p := ⟨room, towerBlock⟩) (r := towerRegistry n) hr
  have hget : Entries.get? (towerRegistry n) (.str "js") =
      some (Highlight.fixedGrammar (Highlight.tower n)) := rfl
  rw [highlight?_of_get? (l := "js") rfl (by decide), hget, Option.map_some] at halone
  rw [failure?_of_isReached hr rfl, reportOf]
  obtain ⟨hfits, hfull⟩ := Highlight.highlight_fixedGrammar_tower n (room - 1 - k.parsing)
    ({} : Config).policy (some "js")
  constructor
  · intro hparsing hmarking
    obtain ⟨s, hs⟩ := hfits hparsing
    have hheight : s.height ≤ Place.below ⟨room, towerBlock⟩ - k.marking := by
      show s.height ≤ room - 1 - k.marking
      obtain ⟨bytes, root, -, hroot, hle⟩ := Highlight.height_le_of_highlight hs
      cases hroot
      rw [Highlight.height_tower] at hle
      omega
    have hhighlight : Highlight.highlight (Place.below ⟨room, towerBlock⟩ - k.parsing)
        (Highlight.fixedGrammar (Highlight.tower n)) towerRead.value ({} : Config).policy
        (some "js") = .ok s := hs
    rw [hhighlight] at halone
    rw [halone]
    dsimp only
    rw [if_neg (not_lt.2 hheight)]
    exact ⟨rfl, s, rfl⟩
  · intro hshort
    obtain ⟨doing, hfails⟩ := hfull hshort
    have hhighlight : Highlight.highlight (Place.below ⟨room, towerBlock⟩ - k.parsing)
        (Highlight.fixedGrammar (Highlight.tower n)) towerRead.value ({} : Config).policy
        (some "js") = .error _ := hfails
    rw [hhighlight] at halone
    rw [halone]
    dsimp only
    rw [if_pos (Highlight.kind_inWalk (Or.inl rfl))]
    exact ⟨rfl, _, rfl⟩

end CodeHighlight.Block
