import CodeHighlight.Proofs.SelectorText

/-!
# Splitting outside quotes

A text is read as lexemes: bare characters and quoted sections. A section begins at a quote and ends
at the next quote that no backslash of the section takes literally; a backslash outside is a
character like any other. A text either has a reading (`Reads`), and then only one, or it ends
inside a section (`EndsInside`).

Main statement: `split_law`. Splitting at a separator refuses exactly the texts that end inside a
section. Otherwise the pieces of the text are the pieces of its reading between the separators that
are lexemes, and stripping a piece strips blank lexemes, so that no section is touched.
-/

namespace CodeHighlight.Selector
open Text (joinWith joinWith_cons strip stripEnd stripStart)

/-! ### Readings -/

/-- What stands between the quotes of a section: characters, and backslashes each with the character
it takes literally. -/
inductive IsInner : List Char → Prop
  | nil : IsInner []
  | char {c : Char} {rest : List Char} (hquote : c ≠ '\x22') (hslash : c ≠ '\\')
      (h : IsInner rest) : IsInner (c :: rest)
  | pair (c : Char) {rest : List Char} (h : IsInner rest) : IsInner ('\\' :: c :: rest)

/-- A bare character, or a quoted section by what stands between its quotes. -/
inductive Lexeme where
  | bare (c : Char)
  | quoted (inner : List Char)
  deriving DecidableEq

namespace Lexeme

/-- The text of a lexeme. -/
def text : Lexeme → List Char
  | bare c => [c]
  | quoted inner => '\x22' :: (inner ++ ['\x22'])

/-- A quote is never bare, and a section ends at its second quote. -/
def IsProper : Lexeme → Prop
  | bare c => c ≠ '\x22'
  | quoted inner => IsInner inner

/-- A bare blank. -/
def isBlank : Lexeme → Bool
  | bare c => Text.isBlank c
  | quoted _ => false

/-- What stands between the quotes of a section. -/
def inner? : Lexeme → Option (List Char)
  | bare _ => none
  | quoted inner => some inner

end Lexeme

/-- The text of lexemes. -/
def textOf (ls : List Lexeme) : List Char := ls.flatMap Lexeme.text

/-- The quoted sections among lexemes. -/
def sections (ls : List Lexeme) : List (List Char) := ls.filterMap Lexeme.inner?

/-- The lexemes are a reading of the text. -/
structure Reads (ls : List Lexeme) (cs : List Char) : Prop where
  proper : ∀ l ∈ ls, l.IsProper
  text_eq : textOf ls = cs

/-- The text ends inside a section, perhaps behind a backslash. -/
def EndsInside (cs : List Char) : Prop :=
  ∃ ls inner, (∀ l ∈ ls, l.IsProper) ∧
    (IsInner inner ∨ ∃ front, IsInner front ∧ inner = front ++ ['\\']) ∧
    cs = textOf ls ++ '\x22' :: inner

/-- The parts are those of a text with the given reading, cut at the separators that are lexemes. -/
structure IsSplitting (sep : Char) (ls : List Lexeme) (parts : List (List Char)) : Prop where
  /-- There is one part more than there are separators outside the sections. -/
  length_eq : parts.length = ls.count (.bare sep) + 1
  /-- With the blanks around the parts and the separators put back, the text is as it was. -/
  restores : ∃ pieces, parts = pieces.map strip ∧ List.Forall₂ IsSpaced parts pieces ∧
    joinWith [sep] pieces = textOf ls
  /-- No part has a separator outside its own sections. -/
  apart : ∀ part ∈ parts, ∀ reading, Reads reading part → .bare sep ∉ reading
  /-- The parts have readings, and their sections are those of the text, in order. -/
  keeps : ∃ readings, List.Forall₂ Reads readings parts ∧
    readings.flatMap sections = sections ls

section Readings

variable {cs ds inner : List Char} {l : Lexeme} {ls : List Lexeme}

@[simp] theorem textOf_nil : textOf [] = [] := rfl

@[simp] theorem textOf_cons (l : Lexeme) (ls : List Lexeme) :
    textOf (l :: ls) = l.text ++ textOf ls := List.flatMap_cons

@[simp] theorem textOf_append (ls rs : List Lexeme) : textOf (ls ++ rs) = textOf ls ++ textOf rs :=
  List.flatMap_append

theorem IsInner.append (hc : IsInner cs) (hd : IsInner ds) : IsInner (cs ++ ds) := by
  induction hc with
  | nil => exact hd
  | char hquote hslash _ ih => exact .char hquote hslash ih
  | pair c _ ih => exact .pair c ih

/-- A section ends at one place only. -/
theorem IsInner.unique (hc : IsInner cs) (hd : IsInner ds) {x y : List Char}
    (h : cs ++ '\x22' :: x = ds ++ '\x22' :: y) : cs = ds ∧ x = y := by
  induction hc generalizing ds with
  | nil =>
    cases hd with
    | nil => exact ⟨rfl, List.tail_eq_of_cons_eq h⟩
    | char hquote _ _ => exact absurd (List.head_eq_of_cons_eq h).symm hquote
    | pair c _ => exact absurd (List.head_eq_of_cons_eq h) (by decide)
  | char hquote hslash _ ih =>
    cases hd with
    | nil => exact absurd (List.head_eq_of_cons_eq h) hquote
    | char _ _ hd =>
      obtain ⟨hhead, htail⟩ := List.cons_eq_cons.1 h
      obtain ⟨rfl, rfl⟩ := ih hd htail
      exact ⟨by rw [hhead], rfl⟩
    | pair c _ => exact absurd (List.head_eq_of_cons_eq h) hslash
  | pair c _ ih =>
    cases hd with
    | nil => exact absurd (List.head_eq_of_cons_eq h) (by decide)
    | char _ hslash _ => exact absurd (List.head_eq_of_cons_eq h).symm hslash
    | pair d hd =>
      obtain ⟨-, htail⟩ := List.cons_eq_cons.1 h
      obtain ⟨hhead, htail⟩ := List.cons_eq_cons.1 htail
      obtain ⟨rfl, rfl⟩ := ih hd htail
      exact ⟨by rw [hhead], rfl⟩

/-- The first lexeme of a text is determined by the text. -/
theorem Lexeme.IsProper.unique {m : Lexeme} (hl : l.IsProper) (hm : m.IsProper) {x y : List Char}
    (h : l.text ++ x = m.text ++ y) : l = m ∧ x = y := by
  cases l with
  | bare c =>
    cases m with
    | bare d =>
      obtain ⟨rfl, rfl⟩ := List.cons_eq_cons.1 h
      exact ⟨rfl, rfl⟩
    | quoted inner => exact absurd (List.head_eq_of_cons_eq h) hl
  | quoted inner =>
    cases m with
    | bare d => exact absurd (List.head_eq_of_cons_eq h).symm hm
    | quoted inner' =>
      have hrest := List.tail_eq_of_cons_eq h
      rw [List.append_eq, List.append_eq, List.append_assoc, List.append_assoc] at hrest
      obtain ⟨rfl, rfl⟩ := IsInner.unique hl hm hrest
      exact ⟨rfl, rfl⟩

theorem Lexeme.text_ne_nil (l : Lexeme) : l.text ≠ [] := by
  cases l <;> exact List.cons_ne_nil _ _

/-- **A text has at most one reading.** -/
theorem Reads.unique {ms : List Lexeme} (hl : Reads ls cs) (hm : Reads ms cs) : ls = ms := by
  obtain ⟨hl, rfl⟩ := hl
  obtain ⟨hm, htext⟩ := hm
  induction ls generalizing ms with
  | nil =>
    cases ms with
    | nil => rfl
    | cons m ms => exact absurd (List.append_eq_nil_iff.1 htext).1 m.text_ne_nil
  | cons l ls ih =>
    rw [List.forall_mem_cons] at hl
    cases ms with
    | nil => exact absurd (List.append_eq_nil_iff.1 htext.symm).1 l.text_ne_nil
    | cons m ms =>
      rw [List.forall_mem_cons] at hm
      rw [textOf_cons, textOf_cons] at htext
      obtain ⟨rfl, hrest⟩ := hm.1.unique hl.1 htext
      rw [ih hl.2 hm.2 hrest]

theorem reads_nil : Reads [] [] := ⟨fun _ h => absurd h List.not_mem_nil, rfl⟩

theorem Reads.cons (hl : l.IsProper) (h : Reads ls cs) : Reads (l :: ls) (l.text ++ cs) :=
  ⟨List.forall_mem_cons.2 ⟨hl, h.proper⟩, by rw [textOf_cons, h.text_eq]⟩

theorem EndsInside.cons (hl : l.IsProper) (h : EndsInside cs) : EndsInside (l.text ++ cs) := by
  obtain ⟨ls, inner, hls, hinner, rfl⟩ := h
  exact ⟨l :: ls, inner, List.forall_mem_cons.2 ⟨hl, hls⟩, hinner, by
    rw [textOf_cons, List.append_assoc]⟩

/-- A text that has a reading or ends inside a section. -/
def IsRead (cs : List Char) : Prop := (∃ ls, Reads ls cs) ∨ EndsInside cs

theorem IsRead.cons (hl : l.IsProper) (h : IsRead cs) : IsRead (l.text ++ cs) := by
  rcases h with ⟨ls, h⟩ | h
  · exact .inl ⟨l :: ls, h.cons hl⟩
  · exact .inr (h.cons hl)

theorem endsInside_of_isInner
    (h : IsInner inner ∨ ∃ front, IsInner front ∧ inner = front ++ ['\\']) :
    EndsInside ('\x22' :: inner) :=
  ⟨[], inner, fun _ hl => absurd hl List.not_mem_nil, h, rfl⟩

/-- **Every text has a reading or ends inside a section.** The induction is over the text behind
each of the three places where a reader can stand; inside a section it has passed the quote and an
inner part. -/
theorem isRead (cs : List Char) : IsRead cs := by
  have h : IsRead cs ∧
      (∀ inner, IsInner inner → IsRead ('\x22' :: (inner ++ cs))) ∧
      ∀ inner, IsInner inner → IsRead ('\x22' :: (inner ++ '\\' :: cs)) := by
    induction cs with
    | nil =>
      refine ⟨.inl ⟨[], reads_nil⟩, fun inner h => .inr ?_, fun inner h => .inr ?_⟩
      · rw [List.append_nil]
        exact endsInside_of_isInner (.inl h)
      · exact endsInside_of_isInner (.inr ⟨inner, h, rfl⟩)
    | cons c cs ih =>
      obtain ⟨outside, inside, escaped⟩ := ih
      have snoc {inner part : List Char} (h : IsInner inner) (hpart : IsInner part) :
          IsRead ('\x22' :: (inner ++ (part ++ cs))) := by
        rw [← List.append_assoc]
        exact inside _ (h.append hpart)
      refine ⟨?_, fun inner h => ?_, fun inner h => snoc h (.pair c .nil)⟩
      · by_cases hquote : c = '\x22'
        · rw [hquote]
          exact inside [] .nil
        · exact outside.cons (l := .bare c) hquote
      · by_cases hquote : c = '\x22'
        · have hclosed := outside.cons (l := .quoted inner) h
          rw [Lexeme.text, List.cons_append, List.append_assoc, List.singleton_append] at hclosed
          rwa [hquote]
        · by_cases hslash : c = '\\'
          · rw [hslash]
            exact escaped inner h
          · exact snoc h (.char hquote hslash .nil)
  exact h.1

end Readings

/-! ### Pieces -/

section Pieces

variable {sep : Char} {cs rest inner : List Char} {l : Lexeme} {ls : List Lexeme}

theorem prepend_head (cs piece : List Char) (ps : List (List Char)) :
    prepend cs (piece :: ps) = (cs ++ piece) :: ps := by
  induction cs with
  | nil => rfl
  | cons c cs ih => rw [prepend_cons, ih, extend, List.cons_append]

/-- Inside a section a reader passes an inner part. -/
theorem pieces_inside (h : IsInner inner) (rest : List Char) :
    pieces sep .inside (inner ++ rest) = (pieces sep .inside rest).map (prepend inner) := by
  induction h with
  | nil =>
    rw [List.nil_append]
    cases pieces sep .inside rest <;> rfl
  | char hquote hslash _ ih =>
    rw [List.cons_append, pieces]
    simp only [if_neg hquote, if_neg hslash]
    rw [ih, Option.map_map]
    rfl
  | pair c _ ih =>
    rw [List.cons_append, List.cons_append, pieces]
    simp only [if_true]
    rw [pieces, ih, Option.map_map, Option.map_map]
    rfl

/-- What a lexeme does to the pieces of the text behind it. -/
def passed (sep : Char) (l : Lexeme) (ps : List (List Char)) : List (List Char) :=
  if l = .bare sep then [] :: ps else prepend l.text ps

/-- **A reader passes a lexeme.** -/
theorem pieces_lexeme (hl : l.IsProper) (rest : List Char) :
    pieces sep .outside (l.text ++ rest) = (pieces sep .outside rest).map (passed sep l) := by
  cases l with
  | bare c =>
    rw [Lexeme.text, List.singleton_append, pieces, if_neg hl]
    by_cases hc : c = sep
    · rw [if_pos hc]
      congr 1
      funext ps
      rw [passed, if_pos (by rw [hc])]
    · rw [if_neg hc]
      congr 1
      funext ps
      rw [passed, if_neg fun h => hc (Lexeme.bare.inj h)]
      rfl
  | quoted inner =>
    rw [Lexeme.text, List.cons_append, List.append_assoc, List.singleton_append, pieces, if_pos rfl,
      pieces_inside hl, pieces]
    simp only [if_true]
    rw [if_neg (by decide : ('\x22' : Char) ≠ '\\'), Option.map_map, Option.map_map]
    congr 1
    funext ps
    rw [passed, if_neg (by simp), Lexeme.text, prepend_cons, prepend_append]
    rfl

/-- A text that ends inside a section has no pieces. -/
theorem pieces_of_endsInside (h : EndsInside cs) : pieces sep .outside cs = none := by
  obtain ⟨ls, inner, hls, hinner, rfl⟩ := h
  induction ls with
  | nil =>
    rw [textOf_nil, List.nil_append, pieces, if_pos rfl]
    rcases hinner with h | ⟨front, h, rfl⟩
    · rw [← List.append_nil inner, pieces_inside h]
      rfl
    · rw [pieces_inside h]
      rfl
  | cons l ls ih =>
    rw [List.forall_mem_cons] at hls
    rw [textOf_cons, List.append_assoc, pieces_lexeme hls.1, ih hls.2]
    rfl

theorem passed_map_textOf (piece : List Lexeme) (ps : List (List Lexeme)) (hl : l ≠ .bare sep) :
    passed sep l ((piece :: ps).map textOf) = ((l :: piece) :: ps).map textOf := by
  rw [passed, if_neg hl, List.map_cons, prepend_head, List.map_cons, textOf_cons]

/-- **The pieces of a text are the pieces of its reading.** -/
theorem pieces_textOf (hls : ∀ l ∈ ls, l.IsProper) :
    pieces sep .outside (textOf ls) = some ((ls.splitOn (.bare sep)).map textOf) := by
  induction ls with
  | nil => rfl
  | cons l ls ih =>
    rw [List.forall_mem_cons] at hls
    rw [textOf_cons, pieces_lexeme hls.1, ih hls.2, Option.map_some,
      List.splitOn_cons_eq_if_modifyHead]
    by_cases hl : l = .bare sep
    · rw [if_pos (beq_iff_eq.2 hl), passed, if_pos hl]
      rfl
    · rw [if_neg (by simpa using hl)]
      obtain ⟨piece, ps, hps⟩ := List.exists_cons_of_ne_nil (List.splitOn_ne_nil (.bare sep) ls)
      rw [hps, passed_map_textOf piece ps hl, List.modifyHead_cons]

theorem length_splitOn (ls : List Lexeme) :
    (ls.splitOn (.bare sep)).length = ls.count (.bare sep) + 1 := by
  induction ls with
  | nil => rfl
  | cons l ls ih =>
    rw [List.splitOn_cons_eq_if_modifyHead, List.count_cons]
    split_ifs
    · rw [List.length_cons, ih]
    · rw [List.length_modifyHead, ih, Nat.add_zero]

/-- A piece of a reading consists of lexemes of it and has no separator. -/
theorem of_mem_splitOn {piece : List Lexeme} (h : piece ∈ ls.splitOn (.bare sep)) :
    piece ⊆ ls ∧ .bare sep ∉ piece := by
  induction ls generalizing piece with
  | nil =>
    rw [List.splitOn_nil, List.mem_singleton] at h
    rw [h]
    exact ⟨List.nil_subset _, List.not_mem_nil⟩
  | cons l ls ih =>
    rw [List.splitOn_cons_eq_if_modifyHead] at h
    obtain ⟨first, ps, hps⟩ := List.exists_cons_of_ne_nil (List.splitOn_ne_nil (.bare sep) ls)
    rw [hps] at h ih
    have behind {piece : List Lexeme} (h : piece ∈ first :: ps) :
        piece ⊆ l :: ls ∧ .bare sep ∉ piece :=
      ⟨List.subset_cons_of_subset l (ih h).1, (ih h).2⟩
    split_ifs at h with hl
    · rcases List.mem_cons.1 h with rfl | h
      · exact ⟨List.nil_subset _, List.not_mem_nil⟩
      · exact behind h
    · rcases List.mem_cons.1 (List.modifyHead_cons ▸ h) with rfl | h
      · obtain ⟨hsub, hsep⟩ := ih (List.mem_cons_self ..)
        have hne : .bare sep ≠ l := fun heq => hl (beq_iff_eq.2 heq.symm)
        exact ⟨List.cons_subset_cons l hsub, List.not_mem_cons_of_ne_of_not_mem hne hsep⟩
      · exact behind (List.mem_cons_of_mem first h)

theorem joinWith_append_head (s x y : List Char) (ps : List (List Char)) :
    joinWith s ((x ++ y) :: ps) = x ++ joinWith s (y :: ps) := by
  cases ps with
  | nil => rfl
  | cons p ps => simp only [joinWith, List.append_assoc]

theorem joinWith_splitOn (ls : List Lexeme) :
    joinWith [sep] ((ls.splitOn (.bare sep)).map textOf) = textOf ls := by
  induction ls with
  | nil => rfl
  | cons l ls ih =>
    obtain ⟨first, ps, hps⟩ := List.exists_cons_of_ne_nil (List.splitOn_ne_nil (.bare sep) ls)
    rw [List.splitOn_cons_eq_if_modifyHead, textOf_cons, ← ih, hps]
    split_ifs with hl
    · rw [List.map_cons, joinWith_cons _ (by rw [List.map_cons]; exact List.cons_ne_nil _ _),
        textOf_nil, List.nil_append, eq_of_beq hl, Lexeme.text, List.singleton_append]
    · rw [List.modifyHead_cons, List.map_cons, List.map_cons, textOf_cons, joinWith_append_head]

theorem sections_splitOn (ls : List Lexeme) :
    (ls.splitOn (.bare sep)).flatMap sections = sections ls := by
  induction ls with
  | nil => rfl
  | cons l ls ih =>
    obtain ⟨first, ps, hps⟩ := List.exists_cons_of_ne_nil (List.splitOn_ne_nil (.bare sep) ls)
    rw [List.splitOn_cons_eq_if_modifyHead]
    have hcons (rest : List Lexeme) : sections (l :: rest) = l.inner?.toList ++ sections rest := by
      cases l <;> rfl
    rw [hcons, ← ih, hps]
    split_ifs with hl
    · rw [eq_of_beq hl]
      rfl
    · rw [List.modifyHead_cons, List.flatMap_cons, List.flatMap_cons, hcons, List.append_assoc]

end Pieces

/-! ### Stripping -/

section Stripping

variable {cs : List Char} {ls : List Lexeme}

/-- Lexemes without the bare blanks at the two ends. -/
def trimmed (ls : List Lexeme) : List Lexeme :=
  (ls.dropWhile Lexeme.isBlank).rdropWhile Lexeme.isBlank

theorem stripStart_textOf (ls : List Lexeme) :
    stripStart (textOf ls) = textOf (ls.dropWhile Lexeme.isBlank) := by
  induction ls with
  | nil => rfl
  | cons l ls ih =>
    by_cases hl : l.isBlank = true
    · cases l with
      | bare c =>
        rw [List.dropWhile_cons_of_pos hl, ← ih, textOf_cons]
        exact List.dropWhile_cons_of_pos hl
      | quoted inner => cases hl
    · rw [List.dropWhile_cons_of_neg hl, textOf_cons]
      cases l with
      | bare c => exact List.dropWhile_cons_of_neg hl
      | quoted inner => exact stripStart_cons (by decide)

theorem stripEnd_textOf (ls : List Lexeme) :
    stripEnd (textOf ls) = textOf (ls.rdropWhile Lexeme.isBlank) := by
  induction ls using List.reverseRecOn with
  | nil => rfl
  | append_singleton ls l ih =>
    have hlast : textOf (ls ++ [l]) = textOf ls ++ l.text := by
      rw [textOf_append, textOf_cons, textOf_nil, List.append_nil]
    by_cases hl : l.isBlank = true
    · cases l with
      | bare c =>
        rw [List.rdropWhile_concat_pos _ _ _ hl, ← ih, hlast]
        exact List.rdropWhile_concat_pos Text.isBlank _ c hl
      | quoted inner => cases hl
    · rw [List.rdropWhile_concat_neg _ _ _ hl, hlast]
      cases l with
      | bare c => exact List.rdropWhile_concat_neg Text.isBlank _ c hl
      | quoted inner =>
        rw [Lexeme.text, ← List.cons_append, ← List.append_assoc]
        exact List.rdropWhile_concat_neg Text.isBlank _ '\x22' (by decide)

/-- **Stripping a text strips its reading.** -/
theorem strip_textOf (ls : List Lexeme) : strip (textOf ls) = textOf (trimmed ls) := by
  rw [strip, stripStart_textOf, stripEnd_textOf, trimmed]

theorem trimmed_subset (ls : List Lexeme) : trimmed ls ⊆ ls :=
  List.Subset.trans (List.rdropWhile_prefix ..).subset (List.dropWhile_suffix _).subset

theorem sections_dropWhile (ls : List Lexeme) :
    sections (ls.dropWhile Lexeme.isBlank) = sections ls := by
  induction ls with
  | nil => rfl
  | cons l ls ih =>
    by_cases hl : l.isBlank = true
    · rw [List.dropWhile_cons_of_pos hl, ih]
      cases l with
      | bare c => rfl
      | quoted inner => cases hl
    · rw [List.dropWhile_cons_of_neg hl]

theorem sections_trimmed (ls : List Lexeme) : sections (trimmed ls) = sections ls := by
  have hreverse (rs : List Lexeme) : sections rs.reverse = (sections rs).reverse :=
    List.filterMap_reverse ..
  rw [trimmed, List.rdropWhile, hreverse, sections_dropWhile, hreverse, List.reverse_reverse,
    sections_dropWhile]

theorem Reads.trimmed (h : Reads ls cs) : Reads (trimmed ls) (strip cs) :=
  ⟨fun l hl => h.proper l (trimmed_subset ls hl), by rw [← h.text_eq, strip_textOf]⟩

/-- Around a stripped text only blanks are missing. -/
theorem isSpaced_strip (cs : List Char) : IsSpaced (strip cs) cs := by
  refine ⟨cs.takeWhile Text.isBlank, (stripStart cs).rtakeWhile Text.isBlank,
    fun c hc => List.mem_takeWhile_imp hc, fun c hc => List.mem_rtakeWhile_imp hc, ?_⟩
  have hend : strip cs ++ (stripStart cs).rtakeWhile Text.isBlank = stripStart cs :=
    List.rdropWhile_append_rtakeWhile ..
  rw [hend]
  exact List.takeWhile_append_dropWhile.symm

end Stripping

/-! ### The law -/

/-- The parts of a text that has a reading. -/
theorem isSplitting_of_reads {sep : Char} {ls : List Lexeme} {cs : List Char} (h : Reads ls cs) :
    IsSplitting sep ls (((ls.splitOn (.bare sep)).map textOf).map strip) where
  length_eq := by rw [List.length_map, List.length_map, length_splitOn]
  restores := by
    refine ⟨(ls.splitOn (.bare sep)).map textOf, rfl, ?_, joinWith_splitOn ls⟩
    rw [List.forall₂_map_left_iff, List.forall₂_same]
    exact fun piece _ => isSpaced_strip piece
  apart := by
    intro part hpart reading hreading
    rw [List.map_map, List.mem_map] at hpart
    obtain ⟨piece, hpiece, rfl⟩ := hpart
    obtain ⟨hsub, hsep⟩ := of_mem_splitOn hpiece
    have hreads : Reads piece (textOf piece) := ⟨fun l hl => h.proper l (hsub hl), rfl⟩
    rw [hreading.unique hreads.trimmed]
    exact fun hmem => hsep (trimmed_subset piece hmem)
  keeps := by
    refine ⟨(ls.splitOn (.bare sep)).map trimmed, ?_, ?_⟩
    · rw [List.map_map, List.forall₂_map_left_iff, List.forall₂_map_right_iff, List.forall₂_same]
      intro piece hpiece
      exact Reads.trimmed ⟨fun l hl => h.proper l ((of_mem_splitOn hpiece).1 hl), rfl⟩
    · rw [List.flatMap_map]
      simp only [sections_trimmed]
      exact sections_splitOn ls

/-- **Splitting outside quotes loses nothing.** A text that ends inside a quoted section, and only
such a text, is refused. From any other come as many parts as there are separators outside the
sections, and one more; no part has a separator outside its own sections; with the separators and
the blanks that were stripped put back the text is as it was; and the sections of the parts are
those of the text. -/
theorem split_law (sep : Char) (text : List Char) :
    (EndsInside text ∧
      split sep text = .error (.plain .value
        ("Unterminated quote in selector '" ++ String.ofList text ++ "'"))) ∨
    (¬ EndsInside text ∧
      ∃ ls parts, Reads ls text ∧ split sep text = .ok parts ∧ IsSplitting sep ls parts) := by
  by_cases hinside : EndsInside text
  · refine .inl ⟨hinside, ?_⟩
    rw [split, pieces_of_endsInside hinside]
    rfl
  · refine .inr ⟨hinside, ?_⟩
    obtain ⟨ls, hreads⟩ := (isRead text).resolve_right hinside
    refine ⟨ls, _, hreads, ?_, isSplitting_of_reads hreads⟩
    rw [split, ← hreads.text_eq, pieces_textOf hreads.proper]

end CodeHighlight.Selector
