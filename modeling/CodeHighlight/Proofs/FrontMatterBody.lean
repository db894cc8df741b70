import CodeHighlight.Markdown.Document
import CodeHighlight.Proofs.Lines
import CodeHighlight.Proofs.Outcomes
import Mathlib.Data.List.TakeWhile

/-!
# The document behind front matter

Main statement: `body_law`. Front matter is recognised exactly where `Encloses` says so and the
lines in between hold YAML. The body then has all characters of the rest but its line breaks, which
are replaced by line feeds; it is the rest exactly when no line break needs replacing and, if there
is no rest, the source does not end with a line feed.

The body is computed from lines, the rest is a text. `cut_eq_some_iff` leads from one to the other:
what is cut off are the lines of the rest.
-/

namespace CodeHighlight.FrontMatter
open Text (brokenLines written isLineBreak unifyBreaks)
variable {source : String} {inner : List (List Char)} {rest : List Char}

/-- The text of a source without the byte order marks at its start. -/
def unmarked (source : String) : List Char := source.toList.dropWhile (· = '\ufeff')

/-- A text starts with front matter, perhaps behind byte order marks: a line that opens it, inner
lines none of which closes it, and a line that closes it. The rest follows the line break of the
closing line. -/
def Encloses (source : String) (inner : List (List Char)) (rest : List Char) : Prop :=
  ∃ (opening closing : List Char × List Char) (middle : List (List Char × List Char)),
    opens opening.1 = true ∧ (∀ line ∈ middle, closes line.1 = false) ∧
    closes closing.1 = true ∧ inner = middle.map Prod.fst ∧
    unmarked source = written (opening :: (middle ++ [closing])) ++ rest ∧
    brokenLines (unmarked source) = opening :: (middle ++ closing :: brokenLines rest)

/-! ### Cutting -/

/-- The first item that is not skipped, and what stands before it. -/
theorem split_of_dropWhile {α : Type} {p : α → Bool} {xs ys : List α} {x : α}
    (h : xs.dropWhile p = x :: ys) :
    xs = xs.takeWhile p ++ x :: ys ∧ (∀ y ∈ xs.takeWhile p, p y = true) ∧ p x = false := by
  refine ⟨?_, fun y => List.mem_takeWhile_imp, ?_⟩
  · rw [← h, List.takeWhile_append_dropWhile]
  · have hhead := List.head?_dropWhile_not p xs
    rw [h] at hhead
    exact hhead

/-- The lines of front matter are cut off exactly where it is enclosed. -/
theorem cut_eq_some_iff {ls : List (List Char)} :
    cut source = some (inner, ls) ↔ ∃ rest, Encloses source inner rest ∧ ls = Text.lines rest := by
  unfold cut
  rw [show Text.lines (source.toList.dropWhile (· = '\ufeff')) =
    (brokenLines (unmarked source)).map Prod.fst from rfl]
  constructor
  · intro h
    cases hlines : brokenLines (unmarked source) with
    | nil =>
      rw [hlines] at h
      cases h
    | cons opening tail =>
      rw [hlines, List.map_cons] at h
      dsimp only at h
      rw [List.dropWhile_map, List.takeWhile_map] at h
      split_ifs at h with hopens
      cases htail : tail.dropWhile ((fun line => !closes line) ∘ Prod.fst) with
      | nil =>
        rw [htail] at h
        cases h
      | cons closing body =>
        rw [htail] at h
        cases h
        obtain ⟨hsplit, hmiddle, hcloses⟩ := split_of_dropWhile htail
        generalize tail.takeWhile ((fun line => !closes line) ∘ Prod.fst) = middle at *
        have hbroken : Text.Broken (unmarked source)
            ((opening :: (middle ++ [closing])) ++ body) := by
          rw [Text.broken_iff, hlines, hsplit]
          simp
        obtain ⟨rest, htext, hrest⟩ := hbroken.exists_rest
        have hbody := Text.broken_iff.1 hrest
        refine ⟨rest, ⟨opening, closing, middle, hopens, ?_, ?_, rfl, htext, ?_⟩, ?_⟩
        · exact fun line hline => by simpa using hmiddle line hline
        · simpa using hcloses
        · rw [hlines, hbody, hsplit]
        · rw [Text.lines, hbody]
  · rintro ⟨rest, ⟨opening, closing, middle, hopens, hmiddle, hcloses, rfl, -, hlines⟩, rfl⟩
    have hkeep : ∀ line ∈ middle.map Prod.fst, (!closes line) = true := by
      intro line hline
      obtain ⟨l, hl, rfl⟩ := List.mem_map.1 hline
      rw [hmiddle l hl]
      rfl
    rw [hlines, List.map_cons, List.map_append, List.map_cons]
    dsimp only
    rw [if_pos hopens, List.dropWhile_append_of_pos hkeep, List.takeWhile_append_of_pos hkeep,
      List.dropWhile_cons_of_neg (by simp [hcloses]),
      List.takeWhile_cons_of_neg (by simp [hcloses]), List.append_nil]
    rfl

/-! ### The body -/

/-- A source ends like the rest, if there is one. -/
theorem Encloses.endsWith_iff (h : Encloses source inner rest) (hrest : rest ≠ []) :
    source.endsWith "\n" = true ↔ rest.getLast? = some '\n' := by
  obtain ⟨opening, closing, middle, -, -, -, -, htext, -⟩ := h
  have hsource : source.toList = source.toList.takeWhile (· = '\ufeff') ++
      written (opening :: (middle ++ [closing])) ++ rest := by
    rw [List.append_assoc, ← htext]
    exact List.takeWhile_append_dropWhile.symm
  rw [Text.endsWith_feed_iff, hsource, List.getLast?_append_of_ne_nil _ hrest]

theorem toList_bodyOf (lines : List (List Char)) :
    (bodyOf source lines).toList =
      Text.joinWith ['\n'] lines ++ (if source.endsWith "\n" then ['\n'] else []) := by
  unfold bodyOf joined
  rw [String.toList_append, String.toList_ofList]
  split_ifs <;> rfl

/-- The body is the rest with other line breaks. -/
theorem filter_bodyOf (source : String) (rest : List Char) :
    (bodyOf source (Text.lines rest)).toList.filter (!isLineBreak ·) =
      rest.filter (!isLineBreak ·) := by
  have hbroken : Text.Broken rest (brokenLines rest) := Text.broken_iff.2 rfl
  rw [toList_bodyOf, List.filter_append, Text.lines, hbroken.filter_joinWith]
  split_ifs <;> exact List.append_nil _

/-- The body is the rest up to carriage returns, if it has no line breaks but these and line
feeds. -/
theorem Encloses.bodyOf_eq (h : Encloses source inner rest) (hrest : rest ≠ [])
    (hreturns : ∀ c ∈ rest, isLineBreak c = true → c = '\n' ∨ c = '\r')
    (hlast : rest.getLast? ≠ some '\r') :
    (bodyOf source (Text.lines rest)).toList = unifyBreaks rest := by
  have hbroken : Text.Broken rest (brokenLines rest) := Text.broken_iff.2 rfl
  rw [toList_bodyOf, Text.lines, ← hbroken.joinWith_append_eq hreturns hlast]
  simp only [h.endsWith_iff hrest]

/-- The body is the rest exactly when all line breaks of the rest are line feeds and, if there is no
rest, the source does not end with one. -/
theorem Encloses.bodyOf_eq_rest_iff (h : Encloses source inner rest) :
    (bodyOf source (Text.lines rest)).toList = rest ↔
      (∀ c ∈ rest, isLineBreak c = true → c = '\n') ∧
        (rest = [] → source.endsWith "\n" = false) := by
  constructor
  · intro hbody
    refine ⟨fun c hc hbreak => ?_, ?_⟩
    · have hbroken : Text.Broken rest (brokenLines rest) := Text.broken_iff.2 rfl
      rw [← hbody, toList_bodyOf, List.mem_append] at hc
      rcases hc with hc | hc
      · exact hbroken.eq_of_mem_joinWith hc hbreak
      · split_ifs at hc
        · exact List.mem_singleton.1 hc
        · cases hc
    · rintro rfl
      rw [toList_bodyOf] at hbody
      by_contra hend
      rw [if_pos (Bool.eq_true_of_not_eq_false hend)] at hbody
      exact List.append_ne_nil_of_right_ne_nil _ (List.cons_ne_nil _ _) hbody
  · rintro ⟨hfeeds, hend⟩
    by_cases hrest : rest = []
    · subst hrest
      rw [toList_bodyOf, if_neg (by rw [hend rfl]; exact Bool.false_ne_true)]
      rfl
    · have hreturn : '\r' ∉ rest := fun hmem => absurd (hfeeds _ hmem rfl) (by decide)
      rw [h.bodyOf_eq hrest (fun c hc hbreak => .inl (hfeeds c hc hbreak))
        fun hlast => hreturn (List.mem_of_getLast? hlast)]
      exact Text.unifyBreaks_eq_self hreturn

/-! ### Documents -/

/-- A document does not depend on whether its carriage returns are line feeds; the two characters
that are left out must not stand among them. -/
theorem toHtml_unifyBreaks (active : List String) (hstart : '\x02' ∉ rest) (hend : '\x03' ∉ rest) :
    Markdown.toHtml active (String.ofList (unifyBreaks rest)) =
      Markdown.toHtml active (String.ofList rest) := by
  have hfilter : ∀ cs : List Char, '\x02' ∉ cs → '\x03' ∉ cs →
      cs.filter (fun c => c != '\x02' && c != '\x03') = cs := by
    intro cs hcs hcs'
    refine List.filter_eq_self.2 fun c hc => ?_
    simp only [Bool.and_eq_true, bne_iff_ne]
    exact ⟨fun h => hcs (h ▸ hc), fun h => hcs' (h ▸ hc)⟩
  have hunified : ∀ c, c ≠ '\n' → c ∉ rest → c ∉ unifyBreaks rest := fun c hc hmem h =>
    (Text.mem_unifyBreaks h).elim hc fun h => hmem h.1
  have hprepare : Markdown.prepare (String.ofList (unifyBreaks rest)) =
      Markdown.prepare (String.ofList rest) := by
    unfold Markdown.prepare
    rw [String.toList_ofList, String.toList_ofList, hfilter _ hstart hend,
      hfilter _ (hunified _ (by decide) hstart) (hunified _ (by decide) hend)]
    dsimp only
    rw [Text.unifyBreaks_unifyBreaks]
  unfold Markdown.toHtml
  rw [String.toList_ofList, String.toList_ofList, Text.isAllBlank_unifyBreaks, hprepare]

theorem split_of_encloses {v : Value} (h : Encloses source inner rest)
    (hv : Yaml.read (joined inner) = .ok v) :
    split source = .ok { data := dataOf v, body := bodyOf source (Text.lines rest) } := by
  rw [split, cut_eq_some_iff.2 ⟨rest, h, rfl⟩]
  dsimp only
  rw [hv]

/-- **The law of front matter.** Where a source starts with front matter, and this is YAML:

* the body has the characters of the rest that are no line breaks;
* it is the rest, character for character, exactly when the rest has no line break but the line
  feed and, if there is no rest, the source does not end with one;
* if the rest has no line breaks but line feeds and carriage returns and does not end with a
  carriage return, the body gives the same document as the rest.

Otherwise the body is the source. -/
theorem body_law (source : String) :
    (∀ inner rest v, Encloses source inner rest → Yaml.read (joined inner) = .ok v →
      ∃ front, split source = .ok front ∧ front.data = dataOf v ∧
        front.body.toList.filter (!isLineBreak ·) = rest.filter (!isLineBreak ·) ∧
        (front.body.toList = rest ↔ (∀ c ∈ rest, isLineBreak c = true → c = '\n') ∧
          (rest = [] → source.endsWith "\n" = false)) ∧
        (rest ≠ [] → (∀ c ∈ rest, isLineBreak c = true → c = '\n' ∨ c = '\r') →
          rest.getLast? ≠ some '\r' → front.body.toList = unifyBreaks rest ∧
            ('\x02' ∉ rest → '\x03' ∉ rest → ∀ active,
              Markdown.toHtml active front.body =
                Markdown.toHtml active (String.ofList rest)))) ∧
    ∀ front, split source = .ok front → front = { body := source } ∨
      ∃ inner rest v, Encloses source inner rest ∧ Yaml.read (joined inner) = .ok v := by
  refine ⟨fun inner rest v h hv => ?_, fun front hfront => ?_⟩
  · refine ⟨_, split_of_encloses h hv, rfl, filter_bodyOf source rest, h.bodyOf_eq_rest_iff,
      fun hrest hreturns hlast => ?_⟩
    have hbody := h.bodyOf_eq hrest hreturns hlast
    refine ⟨hbody, fun hstart hend active => ?_⟩
    rw [← toHtml_unifyBreaks active hstart hend, ← hbody, String.ofList_toList]
  · unfold split at hfront
    split at hfront
    · cases hfront
      exact .inl rfl
    · rename_i hcut
      obtain ⟨rest, h, -⟩ := cut_eq_some_iff.1 hcut
      split at hfront
      · exact .inr ⟨_, rest, _, h, by assumption⟩
      · split_ifs at hfront
        cases hfront
        exact .inl rfl

/-- A form feed behind front matter becomes a line feed, and where nothing follows a line feed
appears. -/
theorem form_feed_is_replaced :
    (∃ inner v front, Encloses "---\na: 1\n---\nx\x0cy\n" inner "x\x0cy\n".toList ∧
      Yaml.read (joined inner) = .ok v ∧ split "---\na: 1\n---\nx\x0cy\n" = .ok front ∧
      front.body = "x\ny\n") ∧
    ∃ inner v front, Encloses "---\na: 1\n---\n" inner [] ∧
      Yaml.read (joined inner) = .ok v ∧ split "---\na: 1\n---\n" = .ok front ∧
      front.body = "\n" := by
  have hread : Except.givesWith (fun _ => true) (Yaml.read (joined ["a: 1".toList])) = true := by
    decide +kernel
  obtain ⟨v, hv, -⟩ := Except.givesWith_iff.1 hread
  have henclosed : ∀ source rest,
      unmarked source = written [("---".toList, ['\n']), ("a: 1".toList, ['\n']),
        ("---".toList, ['\n'])] ++ rest ∧
        brokenLines (unmarked source) = ("---".toList, ['\n']) ::
          ([("a: 1".toList, ['\n'])] ++ ("---".toList, ['\n']) :: brokenLines rest) →
      Encloses source ["a: 1".toList] rest := by
    rintro source rest ⟨htext, hlines⟩
    refine ⟨_, _, _, ?_, ?_, ?_, rfl, htext, hlines⟩ <;> decide +kernel
  have hfeed := henclosed "---\na: 1\n---\nx\x0cy\n" "x\x0cy\n".toList (by decide +kernel)
  have hnothing := henclosed "---\na: 1\n---\n" [] (by decide +kernel)
  refine ⟨⟨_, v, _, hfeed, hv, split_of_encloses hfeed hv, ?_⟩,
    ⟨_, v, _, hnothing, hv, split_of_encloses hnothing hv, ?_⟩⟩
  · show bodyOf _ _ = _
    decide +kernel
  · show bodyOf _ _ = _
    decide +kernel

end CodeHighlight.FrontMatter
