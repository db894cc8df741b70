import CodeHighlight.Proofs.BlockReplacement

/-!
# Character data

Main statement: `character_data_kept_iff`. A run never adds or moves character data. It loses some
exactly when the code of a highlighted block holds texts that elements keep apart (scripts, style
sheets, templates and ruby annotations): the text of the code leaves them out, and the content of
the code is replaced as a whole (`ruby_annotation_is_lost`).

A part of the texts of nodes is compared with all of them by `textOf_eq_iff`; a function that only
takes characters away from the outermost preformatted elements keeps the whole exactly when it keeps
each of them (`textOf_mapOutermost_eq_iff`).
-/

namespace CodeHighlight
open Text (Wide)

/-! ### Texts that lack something -/

/-- The first text is the second one with some code points left out. -/
abbrev IsPartOf (s t : Wide) : Prop := s.Sublist t

/-- Nothing is left out of two texts together when nothing is left out of either. -/
theorem IsPartOf.append_eq_iff {s s' t t' : Wide} (h : IsPartOf s t) (h' : IsPartOf s' t') :
    s ++ s' = t ++ t' ↔ s = t ∧ s' = t' := by
  constructor
  · intro heq
    have hlength := congrArg List.length heq
    rw [List.length_append, List.length_append] at hlength
    have hle := h.length_le
    have hle' := h'.length_le
    constructor
    · apply h.eq_of_length_le
      omega
    · apply h'.eq_of_length_le
      omega
  · rintro ⟨rfl, rfl⟩
    rfl

namespace Html

/-! ### Kinds of text -/

/-- All texts are character data but comments, declarations, doctypes and processing
instructions. -/
def TextKind.isCharacterData : TextKind → Bool
  | .comment | .declaration | .doctype | .processing => false
  | _ => true

/-- Character data that the text of a code element leaves out: that of scripts, style sheets,
templates and ruby annotations. -/
def TextKind.isApart (kind : TextKind) : Bool :=
  kind.isCharacterData && !Element.counts "code" kind

theorem TextKind.isCharacterData_of_counts (kind : TextKind)
    (h : Element.counts "code" kind = true) : kind.isCharacterData = true := by
  rw [Element.counts_of_ordinary (by decide)] at h
  have hkind : kind = .plain ∨ kind = .cdata := by simpa using h
  rcases hkind with rfl | rfl <;> rfl

/-- The character data of a document, wherever it stands, joined in document order. -/
def Document.characterData (d : Document) : Wide :=
  Node.textOf TextKind.isCharacterData d.root.toNode

/-- The texts below an element that elements keep apart. -/
def Element.apart (e : Element) : Wide := Node.textOfAll TextKind.isApart e.children

namespace Node
variable {part whole : TextKind → Bool}

mutual

/-- The texts of some kinds are a part of the texts of more kinds. -/
theorem isPartOf_textOf (h : ∀ kind, part kind = true → whole kind = true) :
    (n : Node) → IsPartOf (textOf part n) (textOf whole n)
  | .element _ children => by
    rw [textOf, textOf]
    exact isPartOf_textOfAll h children
  | .text kind s => by
    rw [textOf, textOf]
    by_cases hpart : part kind = true
    · rw [if_pos hpart, if_pos (h kind hpart)]
    · rw [if_neg hpart]
      exact List.nil_sublist _

theorem isPartOf_textOfAll (h : ∀ kind, part kind = true → whole kind = true) :
    (ns : List Node) → IsPartOf (textOfAll part ns) (textOfAll whole ns)
  | [] => List.Sublist.refl _
  | n :: rest => by
    rw [textOfAll, textOfAll]
    exact (isPartOf_textOf h n).append (isPartOf_textOfAll h rest)

end

mutual

/-- The texts of some kinds are all texts when there are no others. -/
theorem textOf_eq_iff (h : ∀ kind, part kind = true → whole kind = true) : (n : Node) →
    (textOf part n = textOf whole n ↔ textOf (fun kind => whole kind && !part kind) n = [])
  | .element _ children => by
    rw [textOf, textOf, textOf]
    exact textOfAll_eq_iff h children
  | .text kind s => by
    rw [textOf, textOf, textOf]
    by_cases hpart : part kind = true
    · simp [hpart, h kind hpart]
    · by_cases hwhole : whole kind = true
      · simp [hpart, hwhole, eq_comm]
      · simp [hpart, hwhole]

theorem textOfAll_eq_iff (h : ∀ kind, part kind = true → whole kind = true) : (ns : List Node) →
    (textOfAll part ns = textOfAll whole ns ↔
      textOfAll (fun kind => whole kind && !part kind) ns = [])
  | [] => by simp [textOfAll]
  | n :: rest => by
    rw [textOfAll, textOfAll, textOfAll,
      IsPartOf.append_eq_iff (isPartOf_textOf h n) (isPartOf_textOfAll h rest),
      textOf_eq_iff h n, textOfAll_eq_iff h rest, List.append_eq_nil_iff]

end

/-! ### Rewritten places -/

variable {wanted : TextKind → Bool} {f : Place → Element}

mutual

/-- When nothing is added in the places that are rewritten, nothing is added to the whole. -/
theorem isPartOf_mapOutermost {n : ℕ} : (m : Node) →
    (∀ p ∈ outermost n m,
      IsPartOf (textOf wanted (f p).toNode) (textOf wanted p.element.toNode)) →
    IsPartOf (textOf wanted (mapOutermost f n m)) (textOf wanted m)
  | .element tag children, h => by
    by_cases hname : tag.name = "pre"
    · rw [outermost_of_pre hname] at h
      rw [mapOutermost_of_pre f hname]
      exact h _ (List.mem_singleton.2 rfl)
    · rw [outermost_of_ne hname] at h
      rw [mapOutermost_of_ne f hname, textOf, textOf]
      exact isPartOf_mapOutermostOf children h
  | .text kind s, _ => List.Sublist.refl _

theorem isPartOf_mapOutermostOf {n : ℕ} : (ms : List Node) →
    (∀ p ∈ outermostOf n ms,
      IsPartOf (textOf wanted (f p).toNode) (textOf wanted p.element.toNode)) →
    IsPartOf (textOfAll wanted (mapOutermostOf f n ms)) (textOfAll wanted ms)
  | [], _ => List.Sublist.refl _
  | m :: rest, h => by
    rw [outermostOf_cons, List.forall_mem_append] at h
    rw [mapOutermostOf, textOfAll, textOfAll]
    exact (isPartOf_mapOutermost m h.1).append (isPartOf_mapOutermostOf rest h.2)

end

mutual

/-- When nothing is added in the places that are rewritten, the whole stays the same exactly when
each of the places does. -/
theorem textOf_mapOutermost_eq_iff {n : ℕ} : (m : Node) →
    (∀ p ∈ outermost n m,
      IsPartOf (textOf wanted (f p).toNode) (textOf wanted p.element.toNode)) →
    (textOf wanted (mapOutermost f n m) = textOf wanted m ↔
      ∀ p ∈ outermost n m, textOf wanted (f p).toNode = textOf wanted p.element.toNode)
  | .element tag children, h => by
    by_cases hname : tag.name = "pre"
    · rw [mapOutermost_of_pre f hname, outermost_of_pre hname, List.forall_mem_singleton]
      rfl
    · rw [outermost_of_ne hname] at h ⊢
      rw [mapOutermost_of_ne f hname, textOf, textOf]
      exact textOfAll_mapOutermostOf_eq_iff children h
  | .text kind s, _ => by simp [mapOutermost, outermost, places]

theorem textOfAll_mapOutermostOf_eq_iff {n : ℕ} : (ms : List Node) →
    (∀ p ∈ outermostOf n ms,
      IsPartOf (textOf wanted (f p).toNode) (textOf wanted p.element.toNode)) →
    (textOfAll wanted (mapOutermostOf f n ms) = textOfAll wanted ms ↔
      ∀ p ∈ outermostOf n ms, textOf wanted (f p).toNode = textOf wanted p.element.toNode)
  | [], _ => by simp [mapOutermostOf, outermostOf, placesOf]
  | m :: rest, h => by
    rw [outermostOf_cons, List.forall_mem_append] at h ⊢
    rw [mapOutermostOf, textOfAll, textOfAll,
      IsPartOf.append_eq_iff (isPartOf_mapOutermost m h.1) (isPartOf_mapOutermostOf rest h.2),
      textOf_mapOutermost_eq_iff m h.1, textOfAll_mapOutermostOf_eq_iff rest h.2]

end

end Node

end Html

open Html (Element Document Place TextKind)
open Html.Node (textOf textOfAll outermost mapOutermost)

namespace Block
variable {k : Stack} {c : Config} {r : Registry} {e e' code : Element} {p : Place} {q : Report}

/-! ### Highlighted blocks -/

/-- The block of the element at a place is highlighted, and this is its code. -/
def HighlightsCode (k : Stack) (c : Config) (r : Registry) (p : Place) (code : Element) : Prop :=
  ∃ before after b l g span, Holds c p.element before code after b ∧ b.lang = some l ∧
    Entries.get? r (.str l) = some g ∧
    Highlight.highlight (p.below - k.parsing) g b.value c.policy (some l) = .ok span ∧
    span.height ≤ p.below - k.marking

/-- The character data of a code element is its text when nothing in it is kept apart. -/
theorem text_eq_iff_apart (hname : code.tag.name = "code") :
    code.text = textOfAll TextKind.isCharacterData code.children ↔ code.apart = [] := by
  unfold Element.text Element.apart
  rw [hname]
  exact Html.Node.textOfAll_eq_iff TextKind.isCharacterData_of_counts code.children

theorem isPartOf_text (hname : code.tag.name = "code") :
    IsPartOf code.text (textOfAll TextKind.isCharacterData code.children) := by
  unfold Element.text
  rw [hname]
  exact Html.Node.isPartOf_textOfAll TextKind.isCharacterData_of_counts code.children

/-- An element has one code element that holds its block. -/
theorem HighlightsCode.child? (h : HighlightsCode k c r p code) :
    p.element.child? "code" = some code := by
  obtain ⟨before, after, _, _, _, _, holds, _⟩ := h
  exact child?_eq_some_iff.2 ⟨before, after, holds.children, holds.name, holds.first⟩

/-- **Highlighting a block** adds no character data to its element, and it loses none exactly when
the code holds nothing that is kept apart. -/
theorem Holds.characterData {before after : List Html.Node} {b : Block} {span : Span}
    (holds : Holds c e before code after b) (htext : (span.text : Wide) = code.text)
    (tag : Html.Tag) :
    let e' : Element := ⟨tag, before ++ .element code.tag [span.toNode "span"] :: after⟩
    IsPartOf (textOf TextKind.isCharacterData e'.toNode)
        (textOf TextKind.isCharacterData e.toNode) ∧
      (textOf TextKind.isCharacterData e'.toNode = textOf TextKind.isCharacterData e.toNode ↔
        code.apart = []) := by
  intro e'
  -- both elements hold the same texts before and after the code
  have hbefore : textOf TextKind.isCharacterData e.toNode =
      textOfAll TextKind.isCharacterData before ++
        (textOfAll TextKind.isCharacterData code.children ++
          textOfAll TextKind.isCharacterData after) := by
    rw [Element.toNode, textOf, holds.children, Html.Node.textOfAll_append, textOfAll,
      Element.toNode, textOf]
  have hafter : textOf TextKind.isCharacterData e'.toNode =
      textOfAll TextKind.isCharacterData before ++
        (code.text ++ textOfAll TextKind.isCharacterData after) := by
    rw [Element.toNode, textOf, Html.Node.textOfAll_append, textOfAll, textOf, textOfAll,
      Span.textOf_toNode rfl, htext, textOfAll, List.append_nil]
  have hcode := isPartOf_text holds.name
  rw [hbefore, hafter]
  constructor
  · exact (List.Sublist.refl _).append (hcode.append (.refl _))
  · rw [List.append_cancel_left_eq, List.append_cancel_right_eq]
    exact text_eq_iff_apart holds.name

/-- What becomes of an element has no more character data than the element, and it has less exactly
when the block is highlighted and its code holds something that is kept apart. -/
theorem Fate.characterData (fate : Fate k c r p (e', q)) (hr : IsReached k p) :
    IsPartOf (textOf TextKind.isCharacterData e'.toNode)
        (textOf TextKind.isCharacterData p.element.toNode) ∧
      (textOf TextKind.isCharacterData e'.toNode =
          textOf TextKind.isCharacterData p.element.toNode ↔
        ∀ code, HighlightsCode k c r p code → code.apart = []) := by
  by_cases hcode : ∃ code, HighlightsCode k c r p code
  · obtain ⟨code, h⟩ := hcode
    have hchild := h.child?
    obtain ⟨before, after, b, l, g, span, holds, lang, grammar, succeeds, marks⟩ := h
    have hsame := (fate.eq hr).trans
      ((Fate.highlighted holds lang grammar succeeds marks).eq hr).symm
    cases hsame
    have htext : (span.text : Wide) = code.text :=
      (Highlight.text_eq_of_highlight succeeds).trans holds.value
    obtain ⟨hpart, hiff⟩ := holds.characterData htext (p.element.tag.setClasses _)
    refine ⟨hpart, hiff.trans ⟨fun hapart code' h' => ?_, fun hall => ?_⟩⟩
    · have hchild' := h'.child?
      rw [hchild, Option.some.injEq] at hchild'
      rwa [← hchild']
    · exact hall code ⟨before, after, b, l, g, span, holds, lang, grammar, succeeds, marks⟩
  · -- the element is as it was
    have hsame : e' = p.element := by
      cases fate with
      | passed => rfl
      | unknown => rfl
      | defective => rfl
      | highlighted holds lang grammar succeeds marks =>
        exact absurd ⟨_, _, _, _, _, _, _, holds, lang, grammar, succeeds, marks⟩ hcode
    rw [hsame]
    exact ⟨List.Sublist.refl _, fun _ code h => absurd ⟨code, h⟩ hcode, fun _ => rfl⟩

/-- **Character data is kept, unless it is kept apart in highlighted code.** When a run over a
numbered document ends, the character data of the document is a part of what it was before, in the
same order. It is the same exactly when no code of a highlighted block holds texts of scripts, style
sheets, templates or ruby annotations. -/
theorem character_data_kept_iff (k : Stack) (c : Config) (r : Registry) (d d' : Document)
    (report : Report) (numbered : d.IsNumbered)
    (ends : transform k c r d = (d', report, none)) :
    IsPartOf d'.characterData d.characterData ∧
      (d'.characterData = d.characterData ↔
        ∀ p ∈ outermost k.levels d.root.toNode, ∀ code, HighlightsCode k c r p code →
          code.apart = []) := by
  have hnone := failure?_eq_none_of_transform numbered ends
  have hspec := transform_spec k c r numbered
  rw [ends] at hspec
  obtain ⟨-, hroot, -⟩ := hspec.2 rfl
  have hdata (p : Place) (hp : p ∈ outermost k.levels d.root.toNode) :=
    have hname := Html.Node.isPre_of_mem_outermost hp
    have hends := hnone p (Html.Node.mem_places_of_mem_outermost hp)
    (fate_of_failure?_eq_none hname hends).characterData
      (isReached_of_failure?_eq_none hname hends)
  unfold Document.characterData
  rw [hroot]
  have hpart := fun p hp => (hdata p hp).1
  constructor
  · exact Html.Node.isPartOf_mapOutermost _ hpart
  · rw [Html.Node.textOf_mapOutermost_eq_iff _ hpart]
    exact forall₂_congr fun p hp => (hdata p hp).2

/-- A document with a highlighted block that holds a script beside its code. -/
def besideScript : Document where
  root := ⟨{ id := 1, name := Document.rootName },
    [.element { id := 2, name := "pre" }
      [.element { id := 3, name := "code", attributes := [("class", .words ["language-js"])] }
        [.text .plain ("let " : String), .text .comment ("c" : String),
          .text .plain ("y" : String)],
        .element { id := 4, name := "script" } [.text .script ("z" : String)]]]⟩
  nextId := 5

/-- A script beside the code is kept. -/
theorem character_data_kept_iff_besideScript :
    besideScript.IsNumbered ∧
      ∃ d' report,
        transform .usual {} [(.str "js", tokenGrammar)] besideScript = (d', report, none) ∧
        report.blocks.length = 1 ∧ d'.characterData = ("let yz" : String) := by
  have numbered : besideScript.IsNumbered := by
    unfold Document.IsNumbered
    decide
  rcases hrun : transform .usual {} [(.str "js", tokenGrammar)] besideScript with ⟨d', report, t⟩
  have hends : (transform .usual {} [(.str "js", tokenGrammar)] besideScript).2.2 = none := by
    decide +kernel
  have hblocks :
      (transform .usual {} [(.str "js", tokenGrammar)] besideScript).2.1.blocks.length = 1 := by
    decide +kernel
  rw [hrun] at hends hblocks
  subst hends
  refine ⟨numbered, d', report, rfl, hblocks, ?_⟩
  have hkept := (character_data_kept_iff _ _ _ _ _ _ numbered hrun).2
  refine (hkept.2 fun p hp code hcode => ?_).trans (by decide)
  have hchild := hcode.child?
  rw [List.mem_singleton.1 hp] at hchild
  cases hchild
  decide

/-- Code with a ruby text. -/
def rubyCode : String :=
  "<pre><code class=\"language-js\">let <ruby>x<rt>y</rt></ruby></code></pre>"

/-- The annotation of a ruby text in highlighted code is lost. -/
theorem ruby_annotation_is_lost :
    ∃ d d' report, Document.ofText rubyCode = .ok d ∧
      transform .usual {} [(.str "js", tokenGrammar)] d = (d', report, none) ∧
      d.characterData = ("let xy" : String) ∧ d'.characterData = ("let x" : String) := by
  have hruns : ((Document.ofText rubyCode).toOption.map fun d =>
      ((transform .usual {} [(.str "js", tokenGrammar)] d).2.2, d.characterData,
        (transform .usual {} [(.str "js", tokenGrammar)] d).1.characterData)) =
      some (none, (("let xy" : String) : Wide), (("let x" : String) : Wide)) := by
    decide +kernel
  rcases hd : Document.ofText rubyCode with t | d
  · rw [hd] at hruns
    cases hruns
  rcases hrun : transform .usual {} [(.str "js", tokenGrammar)] d with ⟨d', report, t⟩
  rw [hd, Except.toOption, Option.map_some, hrun, Option.some.injEq, Prod.mk.injEq,
    Prod.mk.injEq] at hruns
  obtain ⟨rfl, hbefore, hafter⟩ := hruns
  exact ⟨d, d', report, rfl, hrun, hbefore, hafter⟩

end Block

end CodeHighlight
