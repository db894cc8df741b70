import CodeHighlight.Proofs.Lines
import CodeHighlight.Proofs.SelectorScan
import Mathlib

/-!
# The text of selectors

Selectors can be written as text and read back. A step is written as its label, an anonymous one
between quotes with a backslash before every quote and every backslash, and as its place in decimal
digits; steps are joined by `>` and selectors by `,`, with any blanks around them
(`Selector.IsWriting`, `IsGroupWriting`). Main statement: `selectors_of_written_group`.

Two splits and one reader of steps agree on such a text because a written step is solid
(`IsSolid`): outside quotes no separator stands in it, and it ends outside quotes. Splitting
therefore gives back what was joined, and stripping gives back what was written.
-/

namespace CodeHighlight
open Text (isBlank joinWith joinWith_cons strip stripEnd stripStart)

/-! ### Characters -/

/-- The code points of all blanks. -/
def blankCodes : List ℕ :=
  [9, 10, 11, 12, 13, 0x1c, 0x1d, 0x1e, 0x1f, 0x20, 0x85, 0xa0, 0x1680, 0x2000, 0x2001, 0x2002,
    0x2003, 0x2004, 0x2005, 0x2006, 0x2007, 0x2008, 0x2009, 0x200a, 0x2028, 0x2029, 0x202f, 0x205f,
    0x3000]

theorem toNat_mem_blankCodes {c : Char} (h : isBlank c = true) : c.toNat ∈ blankCodes := by
  simp only [isBlank, Bool.or_eq_true, Bool.and_eq_true, decide_eq_true_eq, beq_iff_eq] at h
  generalize c.toNat = n at h ⊢
  rcases h with (((((((((h | h) | rfl) | rfl) | rfl) | h) | rfl) | rfl) | rfl) | rfl) | rfl
  any_goals decide
  all_goals
    obtain ⟨hlow, hhigh⟩ := h
    interval_cases n <;> decide

namespace Selector

/-- What does not hold of any of these code points does not hold of blanks. -/
theorem not_of_isBlank {p : Char → Bool} (h : ∀ n ∈ blankCodes, p (Char.ofNat n) = false) {c : Char}
    (hc : p c = true) : isBlank c = false := by
  by_contra hblank
  have hcode := h _ (toNat_mem_blankCodes (by simpa using hblank))
  rw [Char.ofNat_toNat, hc] at hcode
  cases hcode

theorem isBlank_of_isLabelStart {c : Char} (h : isLabelStart c = true) : isBlank c = false :=
  not_of_isBlank (by decide) h

theorem isBlank_of_isLabelChar {c : Char} (h : isLabelChar c = true) : isBlank c = false :=
  not_of_isBlank (by decide +kernel) h

/-- The characters that separate steps and selectors, or open quotes. -/
def marks : List Char := ['\x22', ',', '>']

/-- A character that separates neither steps nor selectors and does not open quotes. -/
def isPlain (c : Char) : Bool := !marks.contains c

/-- Where a property excludes the marks, it is one of plain characters. -/
theorem isPlain_of {p : Char → Bool} (h : (marks.any p) = false) {c : Char} (hc : p c = true) :
    isPlain c = true := by
  rw [isPlain, Bool.not_eq_true', ← Bool.not_eq_true, List.contains_iff_mem]
  intro hmem
  exact List.any_eq_false.1 h c hmem hc

/-! ### Writing -/

/-- The text of an anonymous label between its quotes. -/
def escaped (label : List Char) : List Char :=
  label.flatMap fun c => if c = '\x22' ∨ c = '\\' then ['\\', c] else [c]

end Selector

namespace Step

/-- The text of the label of a step. -/
def labelText (s : Step) : List Char :=
  if s.named then s.label.toList
  else '\x22' :: (Selector.escaped s.label.toList ++ ['\x22'])

/-- The text of a place. -/
def placeText : Option ℕ → List Char
  | none => []
  | some n => Selector.placeMark ++ (Nat.toDigits 10 n ++ [')'])

/-- The text of a step. -/
def written (s : Step) : List Char := s.labelText ++ placeText s.place

/-- A named label consists of the characters of such labels; an anonymous one is any text. -/
def IsWritable (s : Step) : Prop :=
  s.named = true → ∃ c rest, s.label.toList = c :: rest ∧ Selector.isLabelStart c = true ∧
    ∀ d ∈ rest, Selector.isLabelChar d = true

/-- The place has no more digits than a number may have. -/
def IsShort (s : Step) : Prop := ∀ n ∈ s.place, n < 10 ^ Selector.digitLimit

end Step

namespace Selector

/-- A text with any blanks before and behind it. -/
def IsSpaced (core text : List Char) : Prop :=
  ∃ before after, (∀ c ∈ before, isBlank c = true) ∧ (∀ c ∈ after, isBlank c = true) ∧
    text = before ++ (core ++ after)

/-- The steps of a selector, outer nodes first. -/
def steps (s : Selector) : List Step := (s.target :: s.above).reverse

/-- The text writes the selector: its steps joined by `>`, with any blanks around each of them. -/
def IsWriting (s : Selector) (text : List Char) : Prop :=
  ∃ parts, List.Forall₂ (fun step part => IsSpaced step.written part) s.steps parts ∧
    text = joinWith ['>'] parts

/-- The text writes the selectors: their texts joined by `,`. -/
def IsGroupWriting (ss : List Selector) (text : String) : Prop :=
  ∃ parts, List.Forall₂ IsWriting ss parts ∧ text.toList = joinWith [','] parts

/-! ### Splitting -/

section Splitting

variable {sep : Char} {cs ds : List Char}

/-- A text put in front of the first piece. -/
def prepend (cs : List Char) (ps : List (List Char)) : List (List Char) := cs.foldr extend ps

theorem prepend_cons (c : Char) (cs : List Char) (ps : List (List Char)) :
    prepend (c :: cs) ps = extend c (prepend cs ps) := rfl

theorem prepend_append (cs ds : List Char) (ps : List (List Char)) :
    prepend (cs ++ ds) ps = prepend cs (prepend ds ps) := List.foldr_append

theorem prepend_nil_cons (cs : List Char) (ps : List (List Char)) :
    prepend cs ([] :: ps) = cs :: ps := by
  induction cs with
  | nil => rfl
  | cons c cs ih => rw [prepend_cons, ih, extend]

/-- No separator of the text is outside quotes, and the text ends outside quotes. -/
def IsSolid (sep : Char) (cs : List Char) : Prop :=
  ∀ rest, pieces sep .outside (cs ++ rest) = (pieces sep .outside rest).map (prepend cs)

theorem isSolid_nil : IsSolid sep [] := fun rest => by
  rw [List.nil_append]
  cases pieces sep .outside rest <;> rfl

theorem IsSolid.append (hc : IsSolid sep cs) (hd : IsSolid sep ds) : IsSolid sep (cs ++ ds) := by
  intro rest
  rw [List.append_assoc, hc, hd, Option.map_map]
  congr 1
  funext ps
  exact (prepend_append cs ds ps).symm

theorem isSolid_of_isPlain (hsep : isPlain sep = false) (h : ∀ c ∈ cs, isPlain c = true) :
    IsSolid sep cs := by
  induction cs with
  | nil => exact isSolid_nil
  | cons c cs ih =>
    rw [List.forall_mem_cons] at h
    intro rest
    have hquote : c ≠ '\x22' := by
      rintro rfl
      exact absurd h.1 (by decide)
    have hc : c ≠ sep := by
      rintro rfl
      exact absurd h.1 (by rw [hsep]; decide)
    rw [List.cons_append, pieces, if_neg hquote, if_neg hc, ih h.2, Option.map_map]
    rfl

/-- Behind an opened quote the text of an anonymous label and the closing quote are read. -/
theorem pieces_inside_escaped (label rest : List Char) :
    pieces sep .inside (escaped label ++ ('\x22' :: rest)) =
      (pieces sep .outside rest).map (prepend (escaped label ++ ['\x22'])) := by
  induction label with
  | nil =>
    rw [escaped, List.flatMap_nil, List.nil_append, pieces]
    rfl
  | cons c label ih =>
    unfold escaped at ih ⊢
    rw [List.flatMap_cons]
    split_ifs with hc
    · simp only [List.cons_append, List.nil_append, pieces, if_true]
      rw [ih, Option.map_map, Option.map_map]
      rfl
    · rw [not_or] at hc
      simp only [List.cons_append, List.nil_append, pieces, if_neg hc.1, if_neg hc.2]
      rw [ih, Option.map_map]
      rfl

theorem isSolid_quoted (label : List Char) :
    IsSolid sep ('\x22' :: (escaped label ++ ['\x22'])) := by
  intro rest
  rw [List.cons_append, List.append_assoc, List.singleton_append, pieces, if_pos rfl,
    pieces_inside_escaped, Option.map_map]
  rfl

/-- **Splitting gives back** solid texts that were joined. -/
theorem pieces_joinWith (hsep : sep ≠ '\x22') {ps : List (List Char)} (hps : ps ≠ [])
    (h : ∀ p ∈ ps, IsSolid sep p) : pieces sep .outside (joinWith [sep] ps) = some ps := by
  induction ps with
  | nil => exact absurd rfl hps
  | cons x ps ih =>
    rw [List.forall_mem_cons] at h
    by_cases hrest : ps = []
    · subst hrest
      rw [joinWith, ← List.append_nil x, h.1, pieces, if_pos rfl, Option.map_some,
        List.append_nil, prepend_nil_cons]
    · rw [joinWith_cons x hrest, h.1, pieces, if_neg hsep, if_pos rfl, ih hrest h.2,
        Option.map_some, Option.map_some, prepend_nil_cons]

/-- A text joined of solid ones by another separator is solid. -/
theorem IsSolid.joinWith {sep' : Char} (hsep' : IsSolid sep [sep']) {ps : List (List Char)}
    (h : ∀ p ∈ ps, IsSolid sep p) : IsSolid sep (joinWith [sep'] ps) := by
  induction ps with
  | nil => exact isSolid_nil
  | cons x ps ih =>
    rw [List.forall_mem_cons] at h
    by_cases hrest : ps = []
    · subst hrest
      exact h.1
    · rw [joinWith_cons x hrest]
      exact h.1.append (hsep'.append (ih h.2))

end Splitting

/-! ### Written steps -/

section Steps

variable {s : Step} {sep : Char}

theorem isDigit_of_mem_digits {n : ℕ} {c : Char} (h : c ∈ Nat.toDigits 10 n) : c.isDigit = true :=
  Nat.isDigit_of_mem_toDigits (by decide) (by decide) h

theorem isPlain_of_mem_placeText {place : Option ℕ} {c : Char} (h : c ∈ Step.placeText place) :
    isPlain c = true := by
  have hmark : placeMark.all isPlain = true := by decide
  cases place with
  | none => cases h
  | some n =>
    rw [Step.placeText, List.mem_append, List.mem_append, List.mem_singleton] at h
    rcases h with h | h | rfl
    · exact List.all_eq_true.1 hmark c h
    · exact isPlain_of (p := Char.isDigit) (by decide) (isDigit_of_mem_digits h)
    · decide

theorem isSolid_labelText (hs : s.IsWritable) (hsep : isPlain sep = false) :
    IsSolid sep s.labelText := by
  unfold Step.labelText
  split_ifs with hnamed
  · obtain ⟨c, rest, hlabel, hc, hrest⟩ := hs hnamed
    rw [hlabel]
    refine isSolid_of_isPlain hsep (List.forall_mem_cons.2 ⟨?_, fun d hd => ?_⟩)
    · exact isPlain_of (by decide) hc
    · exact isPlain_of (by decide) (hrest d hd)
  · exact isSolid_quoted _

/-- **A written step is solid.** -/
theorem isSolid_written (hs : s.IsWritable) (hsep : isPlain sep = false) : IsSolid sep s.written :=
  (isSolid_labelText hs hsep).append
    (isSolid_of_isPlain hsep fun _ hc => isPlain_of_mem_placeText hc)

theorem isSolid_of_isSpaced {core text : List Char} (hcore : IsSolid sep core)
    (hsep : isPlain sep = false) (h : IsSpaced core text) : IsSolid sep text := by
  obtain ⟨before, after, hbefore, hafter, rfl⟩ := h
  have hblanks {cs : List Char} (hcs : ∀ c ∈ cs, isBlank c = true) : IsSolid sep cs :=
    isSolid_of_isPlain hsep fun c hc => isPlain_of (by decide) (hcs c hc)
  exact (hblanks hbefore).append (hcore.append (hblanks hafter))

/-- The text begins and ends with a character that is not blank. -/
structure IsTrimmed (cs : List Char) : Prop where
  first : ∃ c rest, cs = c :: rest ∧ isBlank c = false
  last : ∃ rest c, cs = rest ++ [c] ∧ isBlank c = false

theorem isTrimmed_labelText (hs : s.IsWritable) : IsTrimmed s.labelText := by
  unfold Step.labelText
  split_ifs with hnamed
  · obtain ⟨c, rest, hlabel, hc, hrest⟩ := hs hnamed
    rw [hlabel]
    refine ⟨⟨c, rest, rfl, isBlank_of_isLabelStart hc⟩, ?_⟩
    rcases List.eq_nil_or_concat rest with rfl | ⟨front, d, rfl⟩
    · exact ⟨[], c, rfl, isBlank_of_isLabelStart hc⟩
    · exact ⟨c :: front, d, by simp, isBlank_of_isLabelChar (hrest d (by simp))⟩
  · exact ⟨⟨'\x22', _, rfl, by decide⟩, ⟨'\x22' :: escaped s.label.toList, '\x22', rfl, by decide⟩⟩

/-- A written step has no blanks around it. -/
theorem isTrimmed_written (hs : s.IsWritable) : IsTrimmed s.written := by
  obtain ⟨⟨c, rest, hfirst, hc⟩, last⟩ := isTrimmed_labelText hs
  rw [Step.written]
  constructor
  · exact ⟨c, rest ++ _, by rw [hfirst, List.cons_append], hc⟩
  · cases s.place with
    | none => rwa [Step.placeText, List.append_nil]
    | some n =>
      rw [Step.placeText, ← List.append_assoc, ← List.append_assoc]
      exact ⟨_, ')', rfl, by decide⟩

end Steps

/-! ### Stripping -/

section Stripping

variable {cs ds : List Char}

theorem stripStart_of_isBlank (h : ∀ c ∈ cs, isBlank c = true) :
    stripStart (cs ++ ds) = stripStart ds := List.dropWhile_append_of_pos h

theorem stripStart_cons {c : Char} (h : isBlank c = false) : stripStart (c :: cs) = c :: cs :=
  List.dropWhile_cons_of_neg (by simp [h])

theorem stripEnd_append_cons {c : Char} (h : isBlank c = false) :
    stripEnd (cs ++ (c :: ds)) = cs ++ (c :: stripEnd ds) := by
  unfold stripEnd
  rw [List.reverse_append, List.reverse_cons, List.append_assoc, List.dropWhile_append]
  split_ifs with hempty
  · rw [List.isEmpty_iff.1 hempty, List.singleton_append, List.dropWhile_cons_of_neg (by simp [h])]
    simp
  · simp

theorem stripEnd_of_isBlank (h : ∀ c ∈ ds, isBlank c = true) : stripEnd ds = [] :=
  List.rdropWhile_eq_nil_iff.2 h

/-- Behind a trimmed text only the blanks are cut. -/
theorem IsTrimmed.stripEnd (h : IsTrimmed cs) (before : List Char)
    (hd : ∀ c ∈ ds, isBlank c = true) : stripEnd (before ++ (cs ++ ds)) = before ++ cs := by
  obtain ⟨rest, c, rfl, hc⟩ := h.last
  rw [List.append_assoc, List.singleton_append, ← List.append_assoc, stripEnd_append_cons hc,
    stripEnd_of_isBlank hd, List.append_assoc]

/-- Before a trimmed text only the blanks are cut. -/
theorem IsTrimmed.stripStart (h : IsTrimmed cs) {before : List Char}
    (hbefore : ∀ c ∈ before, isBlank c = true) : stripStart (before ++ (cs ++ ds)) = cs ++ ds := by
  obtain ⟨c, rest, rfl, hc⟩ := h.first
  rw [stripStart_of_isBlank hbefore, List.cons_append, stripStart_cons hc]

/-- Stripping gives back what blanks were put around. -/
theorem IsTrimmed.strip_eq {core text : List Char} (h : IsTrimmed core)
    (hspaced : IsSpaced core text) : strip text = core := by
  obtain ⟨before, after, hbefore, hafter, rfl⟩ := hspaced
  rw [strip, h.stripStart hbefore]
  exact h.stripEnd [] hafter

variable {sep : Char} {cores parts : List (List Char)}

theorem exists_stripStart_joinWith (sep : Char) (h : List.Forall₂ IsSpaced cores parts)
    (trimmed : ∀ core ∈ cores, IsTrimmed core) :
    ∃ parts', stripStart (joinWith [sep] parts) = joinWith [sep] parts' ∧
      List.Forall₂ IsSpaced cores parts' := by
  cases h with
  | nil => exact ⟨[], rfl, .nil⟩
  | @cons core part cores parts hpart hrest =>
    obtain ⟨before, after, hbefore, hafter, rfl⟩ := hpart
    rw [List.forall_mem_cons] at trimmed
    refine ⟨(core ++ after) :: parts, ?_, .cons ⟨[], after, by simp, hafter, rfl⟩ hrest⟩
    by_cases hnil : parts = []
    · subst hnil
      exact trimmed.1.stripStart hbefore
    · rw [joinWith_cons _ hnil, joinWith_cons _ hnil, List.append_assoc, List.append_assoc,
        trimmed.1.stripStart hbefore]

theorem exists_stripEnd_joinWith (hsep : isBlank sep = false)
    (h : List.Forall₂ IsSpaced cores parts) (trimmed : ∀ core ∈ cores, IsTrimmed core) :
    ∃ parts', stripEnd (joinWith [sep] parts) = joinWith [sep] parts' ∧
      List.Forall₂ IsSpaced cores parts' := by
  induction h with
  | nil => exact ⟨[], rfl, .nil⟩
  | @cons core part cores parts hpart hrest ih =>
    rw [List.forall_mem_cons] at trimmed
    by_cases hnil : parts = []
    · subst hnil
      obtain ⟨before, after, hbefore, hafter, rfl⟩ := hpart
      exact ⟨[before ++ core], trimmed.1.stripEnd before hafter,
        .cons ⟨before, [], hbefore, by simp, by simp⟩ hrest⟩
    · -- the last separator is not blank, so only what stands behind it is cut
      obtain ⟨parts', hparts, hspaced⟩ := ih trimmed.2
      have hnil' : parts' ≠ [] := by
        rintro rfl
        cases hspaced
        cases hrest
        exact hnil rfl
      refine ⟨part :: parts', ?_, .cons hpart hspaced⟩
      rw [joinWith_cons _ hnil, stripEnd_append_cons hsep, hparts, joinWith_cons _ hnil']

/-- Stripping a joined text cuts blanks from the first and the last of its parts. -/
theorem exists_strip_joinWith (hsep : isBlank sep = false) (h : List.Forall₂ IsSpaced cores parts)
    (trimmed : ∀ core ∈ cores, IsTrimmed core) :
    ∃ parts', strip (joinWith [sep] parts) = joinWith [sep] parts' ∧
      List.Forall₂ IsSpaced cores parts' := by
  obtain ⟨parts₁, h₁, hspaced₁⟩ := exists_stripStart_joinWith sep h trimmed
  obtain ⟨parts₂, h₂, hspaced₂⟩ := exists_stripEnd_joinWith hsep hspaced₁ trimmed
  exact ⟨parts₂, by rw [strip, h₁, h₂], hspaced₂⟩

end Stripping

/-! ### Reading steps -/

section Reading

variable {s : Step} {t : Trace}

/-- What was escaped is read up to the closing quote. -/
theorem readQuoted_escaped (label rest : List Char) :
    readQuoted (escaped label ++ ('\x22' :: rest)) = some (label, rest) := by
  induction label with
  | nil => rfl
  | cons c label ih =>
    unfold escaped at ih ⊢
    rw [List.flatMap_cons]
    split_ifs with hc
    · have hbreak : c ≠ '\n' := by
        rintro rfl
        revert hc
        decide
      simp only [List.cons_append, List.nil_append, readQuoted, if_neg hbreak, ih, Option.map_some]
    · rw [not_or] at hc
      rw [List.singleton_append, List.cons_append, readQuoted]
      · rw [if_neg hc.1, if_neg hc.2, ih, Option.map_some]
      · intro d ds hback
        exact absurd hback hc.2

theorem isLabelChar_of_placeText {place : Option ℕ} {c : Char} {rest : List Char}
    (h : Step.placeText place = c :: rest) : isLabelChar c = false := by
  cases place with
  | none => cases h
  | some n =>
    cases h
    decide

/-- The label of a written step is read. -/
theorem readLabel_written (hs : s.IsWritable) :
    readLabel s.written = some (s.label.toList, s.named, Step.placeText s.place) := by
  rw [Step.written, Step.labelText]
  split_ifs with hnamed
  · obtain ⟨c, rest, hlabel, hc, hrest⟩ := hs hnamed
    have hquote : c ≠ '\x22' := by
      rintro rfl
      exact absurd hc (by decide)
    rw [hlabel, List.cons_append, readLabel, if_neg hquote, if_pos hc,
      List.takeWhile_append_of_pos hrest, List.dropWhile_append_of_pos hrest]
    -- no character of the place belongs to the label
    have hstop : (Step.placeText s.place).takeWhile isLabelChar = [] ∧
        (Step.placeText s.place).dropWhile isLabelChar = Step.placeText s.place := by
      cases hplace : Step.placeText s.place with
      | nil => exact ⟨rfl, rfl⟩
      | cons d ds =>
        have hd := isLabelChar_of_placeText hplace
        exact ⟨List.takeWhile_cons_of_neg (by simp [hd]),
          List.dropWhile_cons_of_neg (by simp [hd])⟩
    rw [hstop.1, hstop.2, List.append_nil, hnamed]
  · rw [List.cons_append, List.append_assoc, List.singleton_append, readLabel, if_pos rfl,
      readQuoted_escaped, Option.map_some, Bool.eq_false_iff.2 hnamed]

theorem digitValue?_of_isDigit {c : Char} (h : c.isDigit = true) :
    Text.digitValue? c = some (c.toNat - 0x30) := by
  have hlt : c.toNat < 0x80 := by
    simp only [Char.isDigit, Bool.and_eq_true, decide_eq_true_eq] at h
    have := UInt32.le_iff_toNat_le.1 h.2
    exact lt_of_le_of_lt this (by decide)
  rw [Text.digitValue?, if_pos hlt, if_pos h]

/-- The digits of a written place are read. -/
theorem readPlace_placeText (place : Option ℕ) :
    readPlace (Step.placeText place) = some (place.map (Nat.toDigits 10)) := by
  cases place with
  | none => rfl
  | some n =>
    have hdigits : ∀ c ∈ Nat.toDigits 10 n, Text.isDecimalDigit c = true := fun c hc => by
      rw [Text.isDecimalDigit, digitValue?_of_isDigit (isDigit_of_mem_digits hc),
        Option.isSome_some]
    have hprefix : placeMark.isPrefixOf (Step.placeText (some n)) = true :=
      List.isPrefixOf_iff_prefix.2 (List.prefix_append _ _)
    have hdrop : (Step.placeText (some n)).drop placeMark.length = Nat.toDigits 10 n ++ [')'] :=
      List.drop_left
    have hempty : (Nat.toDigits 10 n).isEmpty = false :=
      List.isEmpty_eq_false_iff.2 Nat.toDigits_ne_nil
    rw [readPlace]
    · rw [if_pos hprefix, hdrop]
      dsimp only
      rw [List.takeWhile_append_of_pos hdigits, List.dropWhile_append_of_pos hdigits]
      simp [hempty, show Text.isDecimalDigit ')' = false from rfl]
    · intro h
      cases h

/-- Decimal digits write a number, unless they are too many. -/
theorem number_digits (n : ℕ) : (n < 10 ^ digitLimit → number (Nat.toDigits 10 n) = .ok n) ∧
    (¬ n < 10 ^ digitLimit → ∃ t, number (Nat.toDigits 10 n) = .error t) := by
  have hlength : (Nat.toDigits 10 n).length ≤ digitLimit ↔ n < 10 ^ digitLimit :=
    Nat.length_toDigits_le_iff (by decide) (by decide)
  rw [← hlength, not_le, number]
  constructor
  · intro hle
    rw [if_neg (not_lt.2 hle)]
    have hfold : (Nat.toDigits 10 n).foldl (fun n c => n * 10 + (Text.digitValue? c).getD 0) 0 =
        Nat.ofDigitChars 10 (Nat.toDigits 10 n) 0 := by
      refine List.foldl_ext _ _ 0 fun m c hc => ?_
      rw [digitValue?_of_isDigit (isDigit_of_mem_digits hc), Option.getD_some, mul_comm]
      rfl
    rw [hfold, Nat.ofDigitChars_ten_toDigits]
  · intro hlt
    rw [if_pos hlt]
    exact ⟨_, rfl⟩

/-- **A written step** is read as the step when its place is short, and refused otherwise. -/
theorem readStep_written (hs : s.IsWritable) :
    (s.IsShort → readStep s.written = .ok s) ∧
      (¬ s.IsShort → ∃ t, readStep s.written = .error t) := by
  unfold readStep Step.IsShort
  dsimp only
  rw [readLabel_written hs]
  dsimp only
  rw [readPlace_placeText]
  obtain ⟨label, named, place⟩ := s
  cases place with
  | none => simp [String.ofList_toList]
  | some n =>
    obtain ⟨hshort, hlong⟩ := number_digits n
    simp only [Option.map_some, Option.mem_def, Option.some.injEq, forall_eq']
    refine ⟨fun h => ?_, fun h => ?_⟩
    · rw [hshort h, String.ofList_toList]
      rfl
    · obtain ⟨t, ht⟩ := hlong h
      exact ⟨t, by rw [ht]; rfl⟩

end Reading

/-! ### Selectors that cannot be read -/

section Failures

variable {t : Trace}

theorem kind_of_split {sep : Char} {text : List Char} (h : split sep text = .error t) :
    t.kind = .value := by
  unfold split at h
  split at h <;> cases h
  rfl

theorem kind_of_number {digits : List Char} (h : number digits = .error t) : t.kind = .value := by
  unfold number at h
  split_ifs at h
  cases h
  rfl

theorem kind_of_readStep {text : List Char} (h : readStep text = .error t) : t.kind = .value := by
  unfold readStep at h
  dsimp only at h
  split at h
  · cases h
    rfl
  · split at h
    · cases h
      rfl
    · cases h
    · rcases Except.bind_eq_error_iff.1 h with hnumber | ⟨n, -, hpure⟩
      · exact kind_of_number hnumber
      · cases hpure

theorem kind_of_ofText {text : List Char} (h : ofText text = .error t) : t.kind = .value := by
  rcases Except.bind_eq_error_iff.1 h with hsplit | ⟨parts, -, h⟩
  · exact kind_of_split hsplit
  rcases Except.bind_eq_error_iff.1 h with hsteps | ⟨steps, -, h⟩
  · obtain ⟨part, -, hpart⟩ := Except.exists_of_mapM_eq_error hsteps
    exact kind_of_readStep hpart
  · split at h <;> cases h
    rfl

/-- Selectors that cannot be read are values that are refused. -/
theorem kind_of_ofGroup {group : String} (h : ofGroup group = .error t) : t.kind = .value := by
  rcases Except.bind_eq_error_iff.1 h with hsplit | ⟨parts, -, h⟩
  · exact kind_of_split hsplit
  obtain ⟨part, -, hpart⟩ := Except.exists_of_mapM_eq_error h
  split_ifs at hpart
  · cases hpart
    rfl
  · rcases Except.bind_eq_error_iff.1 hpart with hread | ⟨s, -, hpure⟩
    · exact kind_of_ofText hread
    · cases hpure

end Failures

/-! ### Reading selectors -/

section Groups

variable {s : Selector} {ss : List Selector}

/-- Each item of a list stands to one of the list that it is laid beside. -/
theorem exists_mem_of_forall₂ {α β : Type} {R : α → β → Prop} {xs : List α} {ys : List β}
    (h : List.Forall₂ R xs ys) : (∀ x ∈ xs, ∃ y ∈ ys, R x y) ∧ ∀ y ∈ ys, ∃ x ∈ xs, R x y := by
  induction h with
  | nil => simp
  | cons hfirst _ ih =>
    refine ⟨List.forall_mem_cons.2 ⟨⟨_, List.mem_cons_self, hfirst⟩, fun x hx => ?_⟩,
      List.forall_mem_cons.2 ⟨⟨_, List.mem_cons_self, hfirst⟩, fun y hy => ?_⟩⟩
    · obtain ⟨y, hy, hR⟩ := ih.1 x hx
      exact ⟨y, List.mem_cons_of_mem _ hy, hR⟩
    · obtain ⟨x, hx, hR⟩ := ih.2 y hy
      exact ⟨x, List.mem_cons_of_mem _ hx, hR⟩

theorem steps_ne_nil (s : Selector) : s.steps ≠ [] := by simp [steps]

theorem split_joinWith {sep : Char} (hsep : sep ≠ '\x22') {parts : List (List Char)}
    (hparts : parts ≠ []) (h : ∀ part ∈ parts, IsSolid sep part) :
    split sep (joinWith [sep] parts) = .ok (parts.map strip) := by
  rw [split, pieces_joinWith hsep hparts h]

/-- The parts of a written selector are solid. -/
theorem isSolid_of_forall₂ {sep : Char} {ts : List Step} {parts : List (List Char)}
    (hsep : isPlain sep = false) (hs : ∀ step ∈ ts, step.IsWritable)
    (h : List.Forall₂ (fun step part => IsSpaced step.written part) ts parts) :
    ∀ part ∈ parts, IsSolid sep part := by
  intro part hpart
  obtain ⟨step, hstep, hspaced⟩ := (exists_mem_of_forall₂ h).2 part hpart
  exact isSolid_of_isSpaced (isSolid_written (hs step hstep) hsep) hsep hspaced

/-- Stripping the parts of a written selector gives back its steps. -/
theorem map_strip_of_forall₂ {ts : List Step} {parts : List (List Char)}
    (hs : ∀ step ∈ ts, step.IsWritable)
    (h : List.Forall₂ (fun step part => IsSpaced step.written part) ts parts) :
    parts.map strip = ts.map Step.written := by
  induction h with
  | nil => rfl
  | cons hpart _ ih =>
    rw [List.forall_mem_cons] at hs
    rw [List.map_cons, List.map_cons, ih hs.2, (isTrimmed_written hs.1).strip_eq hpart]

/-- A written selector is split into its steps. -/
theorem IsWriting.split {text : List Char} (h : s.IsWriting text)
    (hs : ∀ step ∈ s.steps, step.IsWritable) :
    strip text ≠ [] ∧ split '>' (strip text) = .ok (s.steps.map Step.written) := by
  obtain ⟨parts, hparts, rfl⟩ := h
  have trimmed : ∀ core ∈ s.steps.map Step.written, IsTrimmed core := by
    intro core hcore
    obtain ⟨step, hstep, rfl⟩ := List.mem_map.1 hcore
    exact isTrimmed_written (hs step hstep)
  have hblank : isBlank '>' = false := by decide
  obtain ⟨parts', hstrip, hspaced⟩ :=
    exists_strip_joinWith hblank (List.forall₂_map_left_iff.2 hparts) trimmed
  replace hspaced := List.forall₂_map_left_iff.1 hspaced
  have hne : parts' ≠ [] := by
    rintro rfl
    exact steps_ne_nil s (List.forall₂_nil_right_iff.1 hspaced)
  have hsplit : Selector.split '>' (strip (joinWith ['>'] parts)) =
      .ok (s.steps.map Step.written) := by
    rw [hstrip, split_joinWith (by decide) hne (isSolid_of_forall₂ (by decide) hs hspaced),
      map_strip_of_forall₂ hs hspaced]
  refine ⟨fun hnil => ?_, hsplit⟩
  -- the empty text would be split into one empty piece, but no step is written as nothing
  have hempty : [] ∈ s.steps.map Step.written := by
    rw [hnil] at hsplit
    rw [← Except.ok.inj hsplit]
    exact List.mem_singleton_self _
  obtain ⟨c, rest, hcons, -⟩ := (trimmed _ hempty).first
  cases hcons

/-- **A written selector** is read as the selector when the places of its steps are short, and
refused otherwise. -/
theorem IsWriting.ofText {text : List Char} (h : s.IsWriting text)
    (hs : ∀ step ∈ s.steps, step.IsWritable) :
    ((∀ step ∈ s.steps, step.IsShort) → ofText (strip text) = .ok s) ∧
      ((∃ step ∈ s.steps, ¬ step.IsShort) → ∃ t, ofText (strip text) = .error t) := by
  obtain ⟨-, hsplit⟩ := h.split hs
  unfold Selector.ofText
  rw [hsplit]
  constructor
  · intro hshort
    have hread : (s.steps.map Step.written).mapM readStep = .ok s.steps := by
      rw [Except.mapM_eq_ok_iff, List.forall₂_map_left_iff, List.forall₂_same]
      exact fun step hstep => (readStep_written (hs step hstep)).1 (hshort step hstep)
    show ((s.steps.map Step.written).mapM readStep >>= _) = _
    rw [hread]
    simp [steps, bind, Except.bind, pure, Except.pure]
  · rintro ⟨step, hstep, hlong⟩
    obtain ⟨t, ht⟩ := (readStep_written (hs step hstep)).2 hlong
    obtain ⟨t', ht'⟩ := Except.exists_mapM_eq_error (List.mem_map_of_mem hstep) ht
    show ∃ t, ((s.steps.map Step.written).mapM readStep >>= _) = .error t
    rw [ht']
    exact ⟨t', rfl⟩

/-- The parts of written selectors are solid. -/
theorem IsWriting.isSolid {text : List Char} (h : s.IsWriting text)
    (hs : ∀ step ∈ s.steps, step.IsWritable) : IsSolid ',' text := by
  obtain ⟨parts, hparts, rfl⟩ := h
  refine IsSolid.joinWith (fun rest => ?_) (isSolid_of_forall₂ (by decide) hs hparts)
  rw [List.singleton_append, pieces, if_neg (by decide), if_neg (by decide)]
  rfl

/-- What is read from one part of a group. -/
def readMember (group : String) (part : List Char) : Except Trace (String × Selector) := do
  if part.isEmpty then refuse ("Empty selector in '" ++ group ++ "'")
  else
    let s ← ofText part
    pure (String.ofList part, s)

theorem ofGroup_of_isGroupWriting {text : String} (h : IsGroupWriting ss text) (hne : ss ≠ [])
    (hs : ∀ s ∈ ss, ∀ step ∈ s.steps, step.IsWritable) :
    ∃ parts, List.Forall₂ IsWriting ss parts ∧
      ofGroup text = (parts.map strip).mapM (readMember text) := by
  obtain ⟨parts, hparts, htext⟩ := h
  have hsolid : ∀ part ∈ parts, IsSolid ',' part := by
    intro part hpart
    obtain ⟨s, hmem, hwriting⟩ := (exists_mem_of_forall₂ hparts).2 part hpart
    exact hwriting.isSolid (hs s hmem)
  have hnil : parts ≠ [] := by
    rintro rfl
    exact hne (List.forall₂_nil_right_iff.1 hparts)
  refine ⟨parts, hparts, ?_⟩
  rw [ofGroup, htext, split_joinWith (by decide) hnil hsolid]
  rfl

/-- One part of a written group is read as its selector, or refused. -/
theorem readMember_of_isWriting (group : String) {text : List Char} (h : s.IsWriting text)
    (hs : ∀ step ∈ s.steps, step.IsWritable) :
    ((∀ step ∈ s.steps, step.IsShort) →
        readMember group (strip text) = .ok (String.ofList (strip text), s)) ∧
      ((∃ step ∈ s.steps, ¬ step.IsShort) → ∃ t, readMember group (strip text) = .error t) := by
  have hempty : ¬ (strip text).isEmpty = true := fun hnil =>
    (h.split hs).1 (List.isEmpty_iff.1 hnil)
  obtain ⟨hshort, hlong⟩ := h.ofText hs
  rw [readMember, if_neg hempty]
  constructor
  · intro hall
    rw [hshort hall]
    rfl
  · intro hex
    obtain ⟨t, ht⟩ := hlong hex
    exact ⟨t, by rw [ht]; rfl⟩

/-- **A written group** is read as its selectors when the places of all steps are short, and refused
otherwise. -/
theorem IsGroupWriting.ofGroup {text : String} (h : IsGroupWriting ss text) (hne : ss ≠ [])
    (hs : ∀ s ∈ ss, ∀ step ∈ s.steps, step.IsWritable) :
    ((∀ s ∈ ss, ∀ step ∈ s.steps, step.IsShort) →
        ∃ members, ofGroup text = .ok members ∧ members.map Prod.snd = ss) ∧
      ((∃ s ∈ ss, ∃ step ∈ s.steps, ¬ step.IsShort) → ∃ t, ofGroup text = .error t) := by
  obtain ⟨parts, hparts, hread⟩ := ofGroup_of_isGroupWriting h hne hs
  rw [hread]
  clear hread h hne
  constructor
  · intro hshort
    induction hparts with
    | nil => exact ⟨[], rfl, rfl⟩
    | cons hpart _ ih =>
      rw [List.forall_mem_cons] at hs hshort
      obtain ⟨members, hmembers, hsnd⟩ := ih hs.2 hshort.2
      have hfirst := (readMember_of_isWriting text hpart hs.1).1 hshort.1
      rw [List.map_cons, List.mapM_cons, hfirst, hmembers]
      exact ⟨_, rfl, congrArg (_ :: ·) hsnd⟩
  · rintro ⟨s, hmem, hlong⟩
    obtain ⟨part, hpart, hwriting⟩ := (exists_mem_of_forall₂ hparts).1 s hmem
    obtain ⟨t, ht⟩ := (readMember_of_isWriting text hwriting (hs s hmem)).2 hlong
    exact Except.exists_mapM_eq_error (List.mem_map_of_mem hpart) ht

end Groups

end Selector

/-! ### The mappings of a table -/

theorem Entries.flatMap_insert_perm {κ α : Type} [BEq κ] {es : Entries κ (List α)} {k : κ}
    {v : List α} {x : α} (h : v.Perm (x :: (Entries.get? es k).getD [])) :
    ((Entries.insert es k v).flatMap Prod.snd).Perm (x :: es.flatMap Prod.snd) := by
  induction es with
  | nil => simpa [Entries.insert] using h
  | cons e es ih =>
    obtain ⟨k', w⟩ := e
    rw [Entries.get?_cons] at h
    rw [Entries.insert]
    split_ifs with hk
    · rw [if_pos hk, Option.getD_some] at h
      exact h.append_right _
    · rw [if_neg hk] at h
      rw [List.flatMap_cons, List.flatMap_cons]
      exact ((ih h).append_left w).trans List.perm_middle

namespace ScopeTable

/-- The buckets of the table hold the mappings, and the table is as large as they are many. -/
structure Stores (t : ScopeTable) (ms : List Mapping) : Prop where
  size : t.size = ms.length
  perm : (t.buckets.flatMap Prod.snd).Perm ms

theorem stores_empty : Stores {} [] := ⟨rfl, .refl _⟩

theorem Stores.add {t : ScopeTable} {ms : List Mapping} (h : Stores t ms) (text : String)
    (s : Selector) (as : List Alternative) :
    Stores (t.add text s as) (ms ++ [⟨text, s, as, ms.length⟩]) where
  size := by simp [ScopeTable.add, h.size]
  perm := by
    refine (Entries.flatMap_insert_perm (insertInto_perm _ _)).trans ?_
    rw [h.size]
    exact (h.perm.cons _).trans (List.perm_append_singleton _ _).symm

theorem Stores.addAll {t : ScopeTable} {ms : List Mapping} (h : Stores t ms)
    (ds : List (String × Selector × List Alternative)) :
    Stores (ds.foldl (fun t d => t.add d.1 d.2.1 d.2.2) t) (ms ++ numberFrom ms.length ds) := by
  induction ds generalizing t ms with
  | nil => simpa [numberFrom] using h
  | cons d ds ih =>
    have := ih (h.add d.1 d.2.1 d.2.2)
    simpa [numberFrom, List.zipIdx_cons] using this

theorem map_order_numberFrom (i : ℕ) (ds : List (String × Selector × List Alternative)) :
    (numberFrom i ds).map (·.order) = List.range' i ds.length := by
  simp [numberFrom, List.map_map, Function.comp_def]

theorem map_selector_numberFrom (i : ℕ) (ds : List (String × Selector × List Alternative)) :
    (numberFrom i ds).map (·.selector) = ds.map (·.2.1) := by
  have hzip : ((ds.zipIdx i).map Prod.fst).map (·.2.1) = ds.map (·.2.1) := by
    rw [List.zipIdx_map_fst]
  rw [← hzip, numberFrom, List.map_map, List.map_map]
  rfl

/-- The selectors of a group all lead to the same. -/
theorem alternatives_of_mem_numberFrom {i : ℕ} {members : List (String × Selector)}
    {as : List Alternative} {m : Mapping}
    (hm : m ∈ numberFrom i (members.map fun s => (s.1, s.2, as))) : m.alternatives = as := by
  obtain ⟨d, hd, rfl⟩ := List.mem_map.1 hm
  obtain ⟨member, -, hmember⟩ := List.mem_map.1 (List.fst_mem_of_mem_zipIdx hd)
  exact congrArg (·.2.2) hmember.symm

/-- The mappings of a table that stores numbered mappings are these, in the order of their
numbers. -/
theorem Stores.mappings_eq {t : ScopeTable} {ds : List (String × Selector × List Alternative)}
    (h : Stores t (numberFrom 0 ds)) : t.mappings = numberFrom 0 ds := by
  have hnumbers := map_order_numberFrom 0 ds
  have hnodup : ((numberFrom 0 ds).map (·.order)).Nodup := hnumbers ▸ List.nodup_range'
  have hrange : ((numberFrom 0 ds).map (·.order)).Pairwise (· ≤ ·) :=
    hnumbers ▸ List.pairwise_le_range'
  have hsorted : (numberFrom 0 ds).Pairwise fun a b => a.order ≤ b.order :=
    List.pairwise_map.1 hrange
  have hperm : t.mappings.Perm (numberFrom 0 ds) := (List.mergeSort_perm _ _).trans h.perm
  have hmerged : t.mappings.Pairwise fun a b => a.order ≤ b.order := by
    refine (List.pairwise_mergeSort ?_ ?_ _).imp of_decide_eq_true
    · intro a b c hab hbc
      exact decide_eq_true ((of_decide_eq_true hab).trans (of_decide_eq_true hbc))
    · intro a b
      simpa using le_total a.order b.order
  refine List.Perm.eq_of_pairwise (fun a b ha hb hab hba => ?_) hmerged hsorted hperm
  exact List.inj_on_of_nodup_map hnodup (hperm.mem_iff.1 ha) hb (le_antisymm hab hba)

/-- **The mappings of a table** that was read are those that its entries declare, in order. -/
theorem mappings_of_ofEntries {interp : Interpreter} {entries : Entries Key Value}
    {t : ScopeTable} (h : ofEntries interp entries = .ok t) :
    declared interp entries = .ok t.mappings ∧ t.size = t.mappings.length := by
  obtain ⟨groups, hgroups, rfl⟩ := foldlM_readEntry_eq_ok h
  have hstores := stores_empty.addAll groups.flatten
  rw [List.nil_append, List.length_nil] at hstores
  rw [hstores.mappings_eq]
  exact ⟨Except.bind_eq_ok_iff.2 ⟨groups, hgroups, rfl⟩, hstores.size⟩

/-- A table with one key declares the selectors of the key. -/
theorem ofEntries_singleton {interp : Interpreter} {text : String} {v : Value}
    {as : List Alternative} (leads : readAlternatives interp text v = .ok as) :
    (∀ members, Selector.ofGroup text = .ok members →
      ∃ t, ofEntries interp [(.str text, v)] = .ok t ∧
        t.mappings = numberFrom 0 (members.map fun s => (s.1, s.2, as))) ∧
    (∀ t, Selector.ofGroup text = .error t → ofEntries interp [(.str text, v)] = .error t) := by
  have hread : ofEntries interp [(.str text, v)] = (Selector.ofGroup text).map fun members =>
      members.foldl (fun t s => t.add s.1 s.2 as) {} := by
    rw [ofEntries, List.foldlM_cons, readEntry]
    dsimp only
    rw [leads]
    cases Selector.ofGroup text <;> rfl
  constructor
  · intro members hmembers
    rw [hmembers] at hread
    refine ⟨_, hread, ?_⟩
    have hdeclared := (mappings_of_ofEntries hread).1
    rw [declared, List.mapM_cons, declaredBy] at hdeclared
    dsimp only at hdeclared
    rw [leads, hmembers] at hdeclared
    have hflat := Except.ok.inj hdeclared
    rw [← hflat]
    simp
  · intro t ht
    rw [hread, ht]
    rfl

/-- **The text of selectors** can be read back. Whatever writes some selectors declares, as the only
key of a table, exactly these selectors, in order and with these steps, each with what the key leads
to. Only a place with more digits than a number may have is refused. -/
theorem selectors_of_written_group (interp : Interpreter) (ss : List Selector) (hne : ss ≠ [])
    (writable : ∀ s ∈ ss, ∀ step ∈ s.steps, step.IsWritable) (text : String)
    (writing : Selector.IsGroupWriting ss text) (v : Value) (as : List Alternative)
    (leads : readAlternatives interp text v = .ok as) :
    ((∀ s ∈ ss, ∀ step ∈ s.steps, step.IsShort) →
      ∃ t, ofEntries interp [(.str text, v)] = .ok t ∧ t.mappings.map (·.selector) = ss ∧
        t.size = ss.length ∧ ∀ m ∈ t.mappings, m.alternatives = as) ∧
    ((∃ s ∈ ss, ∃ step ∈ s.steps, ¬ step.IsShort) →
      ∃ t, ofEntries interp [(.str text, v)] = .error t ∧ t.kind = .value) := by
  obtain ⟨hshort, hlong⟩ := writing.ofGroup hne writable
  obtain ⟨hok, herror⟩ := ofEntries_singleton leads
  constructor
  · intro hall
    obtain ⟨members, hmembers, hsnd⟩ := hshort hall
    obtain ⟨t, ht, hmappings⟩ := hok members hmembers
    have hselectors : t.mappings.map (·.selector) = ss := by
      rw [hmappings, map_selector_numberFrom, List.map_map]
      exact hsnd
    refine ⟨t, ht, hselectors, ?_, fun m hm => ?_⟩
    · rw [(mappings_of_ofEntries ht).2, ← hselectors, List.length_map]
    · rw [hmappings] at hm
      exact alternatives_of_mem_numberFrom hm
  · intro hex
    obtain ⟨t, ht⟩ := hlong hex
    exact ⟨t, herror t ht, Selector.kind_of_ofGroup ht⟩

/-- A place of an identifier inside a call. -/
def argument : Selector := ⟨⟨"identifier", true, some 0⟩, [⟨"call", true, none⟩]⟩

/-- A token with quotes, backslashes, separators and a line feed in its text. -/
def awkward : Selector := ⟨⟨"\x22,\x5c>:nth-child(0)\n\x5c", false, some 12⟩, []⟩

/-- The text of a place in a call and of an awkward token, with blanks around the separators. -/
def awkwardText : String :=
  " call>\tidentifier:nth-child(0)\n," ++
    "\x22\x5c\x22,\x5c\x5c>:nth-child(0)\n\x5c\x5c\x22:nth-child(12) "

theorem isGroupWriting_awkwardText : Selector.IsGroupWriting [argument, awkward] awkwardText := by
  have spaced (core before after : List Char) (hbefore : before.all isBlank = true)
      (hafter : after.all isBlank = true) :
      Selector.IsSpaced core (before ++ (core ++ after)) :=
    ⟨before, after, List.all_eq_true.1 hbefore, List.all_eq_true.1 hafter, rfl⟩
  refine ⟨[_, _], .cons ⟨[_, _], .cons (spaced _ [' '] [] rfl rfl)
    (.cons (spaced _ ['\t'] ['\n'] rfl rfl) .nil), rfl⟩
    (.cons ⟨[_], .cons (spaced _ [] [' '] rfl rfl) .nil, rfl⟩ .nil), ?_⟩
  decide

theorem selectors_of_written_group_awkward :
    Selector.IsGroupWriting [argument, awkward] awkwardText ∧
      ∃ t, ofEntries .usual [(.str awkwardText, .str "x")] = .ok t ∧
        t.mappings.map (·.selector) = [argument, awkward] ∧ t.size = 2 := by
  have each {P : Step → Prop} (hcall : P ⟨"call", true, none⟩) (hargument : P argument.target)
      (hawkward : P awkward.target) : ∀ s ∈ [argument, awkward], ∀ step ∈ s.steps, P step := by
    simpa [Selector.steps, argument, awkward] using ⟨⟨hcall, hargument⟩, hawkward⟩
  have writable : ∀ s ∈ [argument, awkward], ∀ step ∈ s.steps, step.IsWritable := by
    refine each (fun _ => ⟨'c', _, rfl, by decide, ?_⟩) (fun _ => ⟨'i', _, rfl, by decide, ?_⟩)
      nofun
    · exact List.all_eq_true.1 (by decide)
    · exact List.all_eq_true.1 (by decide)
  have short : ∀ s ∈ [argument, awkward], ∀ step ∈ s.steps, step.IsShort := by
    have hlimit : 10 ^ 2 ≤ 10 ^ Selector.digitLimit := Nat.pow_le_pow_right (by decide) (by decide)
    refine each nofun ?_ ?_
    · rintro n ⟨⟩
      exact lt_of_lt_of_le (by decide) hlimit
    · rintro n ⟨⟩
      exact lt_of_lt_of_le (by decide) hlimit
  obtain ⟨t, ht, hselectors, hsize, -⟩ :=
    (selectors_of_written_group .usual [argument, awkward] (by simp) writable awkwardText
      isGroupWriting_awkwardText (.str "x") _ rfl).1 short
  exact ⟨isGroupWriting_awkwardText, t, ht, hselectors, hsize⟩

/-- A step whose place has one digit too many. -/
def farStep : Step := ⟨"a", true, some (10 ^ Selector.digitLimit)⟩

/-- The text of a selector with a place of too many digits is refused. -/
theorem far_place_is_refused :
    farStep.IsWritable ∧ Selector.IsGroupWriting [⟨farStep, []⟩] (String.ofList farStep.written) ∧
      ¬ ∃ t, ofEntries .usual [(.str (String.ofList farStep.written), .str "x")] = .ok t := by
  have writable : farStep.IsWritable := fun _ => ⟨'a', [], rfl, by decide, by simp⟩
  have writing : Selector.IsGroupWriting [⟨farStep, []⟩] (String.ofList farStep.written) := by
    refine ⟨[farStep.written], .cons ⟨[farStep.written], .cons ?_ .nil, rfl⟩ .nil, ?_⟩
    · exact ⟨[], [], by simp, by simp, by simp⟩
    · rw [String.toList_ofList]
      rfl
  have hlong : ¬ farStep.IsShort := fun h => lt_irrefl _ (h _ rfl)
  refine ⟨writable, writing, ?_⟩
  rintro ⟨t, ht⟩
  obtain ⟨e, he⟩ := (writing.ofGroup (by simp) (by simpa [Selector.steps] using writable)).2
    ⟨_, List.mem_singleton_self _, farStep, by simp [Selector.steps], hlong⟩
  have leads : readAlternatives .usual (String.ofList farStep.written) (.str "x") =
      .ok [{ scopes := ["x"] }] := rfl
  cases ht.symm.trans ((ofEntries_singleton leads).2 e he)

end ScopeTable
end CodeHighlight
