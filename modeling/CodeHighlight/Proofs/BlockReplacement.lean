import CodeHighlight.Proofs.BlockReport
import CodeHighlight.Proofs.SpanText

/-!
# What a run changes

Main statement: `only_blocks_edited`. A run that ends leaves a document as it is except for the
blocks that it reports as highlighted, in document order (`Edited`). At each of them the
preformatted element gets the classes of the block, and the content of its first code element
becomes one element that reads back as the recorded span (`Written`). No text is lost or added,
neither in the code nor in the whole document.

Markup that was made from pieces is read by `Piece.ofNode?`, which accepts elements named `span`
without further attributes and plain texts, and nothing else. It gives back the pieces
(`Piece.ofNode?_toNode`).
-/

namespace CodeHighlight
open Html (Element Document Place Tag TextKind)
open Html.Node (textOf textOfAll outermost outermostOf mapOutermost mapOutermostOf)
open Text (Wide)

/-! ### Reading pieces back -/

namespace Piece

mutual

/-- The piece that markup was made from: an element named `span` with classes, or a plain text that
is a string. -/
def ofNode? : Html.Node → Option Piece
  | .text kind s => if kind = .plain then s.toString?.map .run else none
  | .element tag children =>
    if tag.name = "span" ∧ ∀ a ∈ tag.attributes, a.1 = "class" then
      (ofNodes? children).map (.span tag.classes)
    else none

/-- The pieces that nodes were made from. -/
def ofNodes? : List Html.Node → Option (List Piece)
  | [] => some []
  | n :: rest => (ofNode? n).bind fun p => (ofNodes? rest).map (p :: ·)

end

theorem classes_tagOf (name : String) (classes : List String) :
    (tagOf name classes).classes = classes := by
  cases classes with
  | nil => rfl
  | cons c classes => rfl

theorem attributes_tagOf (name : String) (classes : List String) :
    ∀ a ∈ (tagOf name classes).attributes, a.1 = "class" := by
  intro a ha
  cases classes with
  | nil => cases ha
  | cons c classes => rw [List.mem_singleton.1 ha]

mutual

/-- **Markup made from a piece reads back as the piece.** -/
theorem ofNode?_toNode : (p : Piece) → ofNode? (p.toNode "span") = some p
  | .run t => by
    rw [toNode, ofNode?, if_pos rfl, Wide.toString?_ofString]
    rfl
  | .span classes children => by
    rw [toNode, ofNode?, if_pos ⟨rfl, attributes_tagOf "span" classes⟩, ofNodes?_toNodes children,
      classes_tagOf]
    rfl

theorem ofNodes?_toNodes : (ps : List Piece) → ofNodes? (toNodes "span" ps) = some ps
  | [] => rfl
  | p :: rest => by
    rw [toNodes, ofNodes?, ofNode?_toNode p, ofNodes?_toNodes rest]
    rfl

end

end Piece

/-! ### Texts of nodes -/

namespace Html

theorem Node.textOfAll_append (wanted : TextKind → Bool) (ns ms : List Node) :
    textOfAll wanted (ns ++ ms) = textOfAll wanted ns ++ textOfAll wanted ms := by
  induction ns with
  | nil => rw [List.nil_append, textOfAll, List.nil_append]
  | cons n ns ih => rw [List.cons_append, textOfAll, textOfAll, ih, List.append_assoc]

/-- The text of an element that does not keep its texts apart. -/
theorem Element.counts_of_ordinary {name : String} (h : textKindInside? name = none) :
    counts name = fun kind => kind = .plain || kind = .cdata := by
  funext kind
  unfold counts
  rw [h]

theorem Tag.attribute?_setClasses (t : Tag) (classes : List String) (name : String) :
    (t.setClasses classes).attribute? name =
      if name = "class" then some (.words classes) else t.attribute? name := by
  have hinsert := Entries.get?_insert t.attributes "class" name (.words classes)
  unfold Tag.attribute? Tag.setClasses
  rw [hinsert]
  by_cases hname : name = "class"
  · subst hname
    rfl
  · have hne : ¬("class" == name) = true := fun hb => hname (beq_iff_eq.1 hb).symm
    rw [if_neg hne, if_neg hname]

end Html

namespace Piece
variable {wanted : TextKind → Bool}

mutual

/-- The text of markup made from a piece. -/
theorem textOf_toNode (hplain : wanted .plain = true) (name : String) :
    (p : Piece) → textOf wanted (p.toNode name) = (String.join p.runs : Wide)
  | .run t => by simp [toNode, textOf, hplain, runs, String.join]
  | .span classes children => by
    rw [toNode, textOf, textOfAll_toNodes hplain name children, runs]

theorem textOfAll_toNodes (hplain : wanted .plain = true) (name : String) :
    (ps : List Piece) → textOfAll wanted (toNodes name ps) = (String.join (runsOf ps) : Wide)
  | [] => rfl
  | p :: rest => by
    rw [toNodes, textOfAll, textOf_toNode hplain name p, textOfAll_toNodes hplain name rest, runsOf,
      String.join_append, Wide.ofString_append]

end

end Piece

theorem Span.textOf_toNode {wanted : TextKind → Bool} (hplain : wanted .plain = true) (s : Span)
    (name : String) : textOf wanted (s.toNode name) = (s.text : Wide) :=
  Piece.textOf_toNode hplain name s.toPiece

namespace Block
variable {k : Stack} {c : Config} {r : Registry} {e e' : Element} {p : Place} {h : Highlighted}
  {hs hs' : List Highlighted} {ns ns' ms ms' : List Html.Node}

/-! ### Edited documents -/

/-- The highlighted block is written into the preformatted element `e`, which holds it. The class
attribute is the marker and the language, and the other attributes are as before. Among the
children the first code element has one child, which reads back as the span, and the others are as
before. The text of the code is that of the block and of the span. -/
inductive Written (c : Config) (h : Highlighted) (e : Element) : Element → Prop
  | intro {before after : List Html.Node} {code : Element} {content : Html.Node} {l : String}
      (name : e.tag.name = "pre") (holds : Holds c e before code after h.block)
      (lang : h.block.lang = some l) (classes : h.classes = [c.marker, "language-" ++ l])
      (mark : (e.tag.setClasses h.classes).attribute? "class" = some (.words h.classes))
      (others : ∀ name ≠ "class",
        (e.tag.setClasses h.classes).attribute? name = e.tag.attribute? name)
      (reads : Piece.ofNode? content = some h.span.toPiece)
      (text : Element.text ⟨code.tag, [content]⟩ = h.block.value)
      (span : (h.span.text : Wide) = h.block.value) :
      Written c h e
        ⟨e.tag.setClasses h.classes, before ++ .element code.tag [content] :: after⟩

/-- The second nodes are the first ones with the highlighted blocks written into elements at and
below them, in document order. Everything else is the same. -/
inductive Edited (c : Config) : List Highlighted → List Html.Node → List Html.Node → Prop
  | nil : Edited c [] [] []
  | keep {hs : List Highlighted} {ns ns' : List Html.Node} (n : Html.Node)
      (rest : Edited c hs ns ns') :
      Edited c hs (n :: ns) (n :: ns')
  | inside {hs hs' : List Highlighted} {tag : Tag} {children children' ns ns' : List Html.Node}
      (below : Edited c hs children children') (rest : Edited c hs' ns ns') :
      Edited c (hs ++ hs') (.element tag children :: ns) (.element tag children' :: ns')
  | block {h : Highlighted} {hs : List Highlighted} {e e' : Element} {ns ns' : List Html.Node}
      (written : Written c h e e') (rest : Edited c hs ns ns') :
      Edited c (h :: hs) (e.toNode :: ns) (e'.toNode :: ns')

/-- The text of a code element leaves out what is kept apart, as that of the document does. -/
theorem counts_code : Element.counts "code" = Element.counts Document.rootName := by
  rw [Element.counts_of_ordinary (by decide), Element.counts_of_ordinary (by decide)]

/-- The text of a code element with the span as its content. -/
theorem text_of_span {tag : Tag} (hname : tag.name = "code") (span : Span) :
    Element.text ⟨tag, [span.toNode "span"]⟩ = (span.text : Wide) := by
  have hplain : Element.counts tag.name .plain = true := by
    rw [hname]
    decide
  show textOf _ (span.toNode "span") ++ [] = (span.text : Wide)
  rw [List.append_nil, Span.textOf_toNode hplain]

/-- A block that was highlighted is written into its element. -/
theorem Holds.written {room : ℕ} {l : String} {g : Grammar} {span : Span}
    {before after : List Html.Node} {code : Element} {b : Block}
    (holds : Holds c e before code after b) (hname : e.tag.name = "pre") (lang : b.lang = some l)
    (succeeds : Highlight.highlight room g b.value c.policy (some l) = .ok span) :
    Written c ⟨b, [c.marker, "language-" ++ l], span⟩ e
      ⟨e.tag.setClasses [c.marker, "language-" ++ l],
        before ++ .element code.tag [span.toNode "span"] :: after⟩ := by
  have htext : (span.text : Wide) = b.value := Highlight.text_eq_of_highlight succeeds
  refine .intro hname holds lang rfl ?_ ?_ (Piece.ofNode?_toNode _) ?_ htext
  · rw [Tag.attribute?_setClasses, if_pos rfl]
  · intro name hne
    rw [Tag.attribute?_setClasses, if_neg hne]
  · rw [text_of_span holds.name, htext]

/-- What becomes of one element is an edit with the blocks that are reported about it. -/
theorem Fate.edited {q : Report} (fate : Fate k c r p (e', q))
    (hname : p.element.tag.name = "pre") (rest : Edited c hs ns ns') :
    Edited c (q.blocks ++ hs) (p.element.toNode :: ns) (e'.toNode :: ns') := by
  cases fate with
  | passed => exact .keep _ rest
  | unknown => exact .keep _ rest
  | defective => exact .keep _ rest
  | highlighted holds lang grammar succeeds =>
    exact .block (holds.written hname lang succeeds) rest

/-- The blocks that are reported about several elements. -/
def blocksOf (k : Stack) (c : Config) (r : Registry) (ps : List Place) : List Highlighted :=
  ps.flatMap fun p => (reportOf k c r p).blocks

theorem blocksOf_singleton (p : Place) : blocksOf k c r [p] = (reportOf k c r p).blocks := by
  simp [blocksOf]

theorem blocksOf_append (ps ps' : List Place) :
    blocksOf k c r (ps ++ ps') = blocksOf k c r ps ++ blocksOf k c r ps' := List.flatMap_append

mutual

/-- Putting what the handler leaves in the places of the outermost elements is an edit. -/
theorem edited_mapOutermost {room : ℕ} : (n : Html.Node) →
    (∀ p ∈ outermost room n, failure? k c r p = none) →
    ∀ {hs : List Highlighted} {ms ms' : List Html.Node}, Edited c hs ms ms' →
      Edited c (blocksOf k c r (outermost room n) ++ hs) (n :: ms)
        (mapOutermost (rewritten k c r) room n :: ms')
  | .text kind s, _, _, _, _, rest => .keep _ rest
  | .element tag children, hends, hs, ms, ms', rest => by
    by_cases hname : tag.name = "pre"
    · -- the walk stops here, and the element meets its fate
      rw [Html.Node.outermost_of_pre hname] at hends ⊢
      rw [Html.Node.mapOutermost_of_pre _ hname]
      have hfate := fate_of_failure?_eq_none hname (hends _ (List.mem_singleton.2 rfl))
      rw [blocksOf_singleton]
      exact hfate.edited hname rest
    · rw [Html.Node.outermost_of_ne hname] at hends ⊢
      rw [Html.Node.mapOutermost_of_ne _ hname]
      exact .inside (edited_mapOutermostOf children hends) rest

theorem edited_mapOutermostOf {room : ℕ} : (ns : List Html.Node) →
    (∀ p ∈ outermostOf room ns, failure? k c r p = none) →
      Edited c (blocksOf k c r (outermostOf room ns)) ns
        (mapOutermostOf (rewritten k c r) room ns)
  | [], _ => .nil
  | n :: ns, hends => by
    rw [Html.Node.outermostOf_cons] at hends ⊢
    rw [List.forall_mem_append] at hends
    rw [blocksOf_append, mapOutermostOf]
    exact edited_mapOutermost n hends.1 (edited_mapOutermostOf ns hends.2)

end

/-! ### Texts of edited documents -/

/-- The text of the element that a block is written into stays the same. -/
theorem Written.textOfAll (written : Written c h e e') :
    textOfAll (Element.counts Document.rootName) e'.children =
      textOfAll (Element.counts Document.rootName) e.children := by
  cases written with
  | intro name holds lang classes mark others reads text span =>
    rename_i before after code content l
    have hcode : Element.counts code.tag.name = Element.counts Document.rootName := by
      rw [holds.name, counts_code]
    have hbefore : code.text = Html.Node.textOfAll (Element.counts Document.rootName)
        code.children := by rw [← hcode]; rfl
    have hafter : h.block.value = Html.Node.textOfAll (Element.counts Document.rootName)
        [content] := by rw [← text, ← hcode]; rfl
    rw [holds.children, Html.Node.textOfAll_append, Html.Node.textOfAll_append, Element.toNode,
      Html.Node.textOfAll, Html.Node.textOfAll, Html.Node.textOf, Html.Node.textOf, ← hafter,
      ← hbefore, holds.value]

/-- **An edit keeps the text.** -/
theorem Edited.textOfAll (edit : Edited c hs ns ns') :
    textOfAll (Element.counts Document.rootName) ns' =
      textOfAll (Element.counts Document.rootName) ns := by
  induction edit with
  | nil => rfl
  | keep n _ ih => rw [Html.Node.textOfAll, Html.Node.textOfAll, ih]
  | inside _ _ below ih =>
    rw [Html.Node.textOfAll, Html.Node.textOfAll, Html.Node.textOf, Html.Node.textOf, below, ih]
  | block written _ ih =>
    rw [Html.Node.textOfAll, Html.Node.textOfAll, Element.toNode, Element.toNode,
      Html.Node.textOf, Html.Node.textOf, written.textOfAll, ih]

/-- **Only the highlighted blocks are edited, and the text stays.** When a run over a numbered
document ends, the document is as before with the blocks that are reported as highlighted written
into their elements, in document order. The text of the document is the same as before. -/
theorem only_blocks_edited (k : Stack) (c : Config) (r : Registry) (d d' : Document)
    (report : Report) (numbered : d.IsNumbered) (named : d.root.tag.name = Document.rootName)
    (ends : transform k c r d = (d', report, none)) :
    d'.root.tag = d.root.tag ∧ Edited c report.blocks d.root.children d'.root.children ∧
      d'.root.text = d.root.text := by
  have hnone := failure?_eq_none_of_transform numbered ends
  have hspec := transform_spec k c r numbered
  rw [ends] at hspec
  obtain ⟨hreport, hroot, -⟩ := hspec.2 rfl
  have hends : ∀ p ∈ outermost k.levels d.root.toNode, failure? k c r p = none :=
    fun p hp => hnone p (Html.Node.mem_places_of_mem_outermost hp)
  -- the root is not a preformatted element, so that the edits are below it
  have hne : d.root.tag.name ≠ "pre" := by
    rw [named]
    decide
  rw [Element.toNode, Html.Node.outermost_of_ne hne] at hends hreport
  rw [Element.toNode, Element.toNode, Html.Node.mapOutermost_of_ne _ hne,
    Html.Node.element.injEq] at hroot
  obtain ⟨htag, hchildren⟩ := hroot
  have hblocks : report.blocks =
      blocksOf k c r (outermostOf (k.levels - 1) d.root.children) := by
    rw [hreport, blocksOf, Report.join, List.flatMap_map]
  have hedit : Edited c report.blocks d.root.children d'.root.children := by
    rw [hblocks, hchildren]
    exact edited_mapOutermostOf d.root.children hends
  refine ⟨htag, hedit, ?_⟩
  unfold Element.text
  rw [htag, named, hedit.textOfAll]

/-- A grammar that finds one token in all sources. -/
def tokenGrammar : Grammar := Highlight.fixedGrammar { label := "token", start := 4, stop := 5 }

/-- A document with a block between texts, whose code consists of a text, a comment and an
element. -/
def framedBlock : Document where
  root := ⟨{ id := 1, name := Document.rootName },
    [.text .plain "a ",
      .element { id := 2, name := "pre", attributes := [("title", .text "t")] }
        [.element { id := 3, name := "code", attributes := [("class", .words ["language-js"])] }
          [.text .plain "let ", .text .comment "c", .element { id := 4, name := "i" }
            [.text .plain "y"]],
          .text .plain " b"]]⟩
  nextId := 5

/-- One block is edited, and the text around it and in it stays. -/
theorem only_blocks_edited_framedBlock :
    framedBlock.IsNumbered ∧ framedBlock.root.tag.name = Document.rootName ∧
      ∃ d' report,
        transform .usual {} [(.str "js", tokenGrammar)] framedBlock = (d', report, none) ∧
        report.blocks.map (fun h => h.span.text) = ["let y"] ∧
        Edited {} report.blocks framedBlock.root.children d'.root.children ∧
        d'.root.text = "a let y b" := by
  have numbered : framedBlock.IsNumbered := by
    unfold Document.IsNumbered
    decide
  rcases hrun : transform .usual {} [(.str "js", tokenGrammar)] framedBlock with ⟨d', report, t⟩
  have hends : (transform .usual {} [(.str "js", tokenGrammar)] framedBlock).2.2 = none := by
    cbv
  have hblocks : (transform .usual {} [(.str "js", tokenGrammar)] framedBlock).2.1.blocks.map
      (fun h => h.span.text) = ["let y"] := by
    cbv
  rw [hrun] at hends hblocks
  subst hends
  obtain ⟨-, hedit, htext⟩ := only_blocks_edited _ _ _ _ _ _ numbered rfl hrun
  exact ⟨numbered, rfl, d', report, rfl, hblocks, hedit, htext.trans (by decide)⟩

end Block

end CodeHighlight
