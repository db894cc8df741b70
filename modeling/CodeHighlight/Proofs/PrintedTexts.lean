import CodeHighlight.CommandLine.Run
import Mathlib.Data.List.Infix
import Mathlib.Data.List.TakeWhile

/-!
# Texts as they are printed

A text that is printed on the output stream stays as it is, with a line feed behind it, exactly when
it holds no control sequence (`CommandLine.echoed_eq_iff`).

Markup can only be refused because of a tag that ends a style. The note that names the path of a
written document ends the style that it sets itself, so that it can be read unless the path holds an
opening bracket with a slash behind it (`CommandLine.exists_read_announcement`).
-/

namespace CodeHighlight

/-! ### Control sequences -/

namespace Text

/-- The text starts with a control sequence. -/
def StartsSequence (cs : List Char) : Prop :=
  ∃ (parameters : List Char) (c : Char) (after : List Char),
    cs = '\x1b' :: '[' :: (parameters ++ c :: after) ∧
      (∀ p ∈ parameters, isParameter p = true) ∧ c.isAlpha = true

/-- A control sequence starts somewhere in the text. -/
def HoldsSequence (cs : List Char) : Prop := ∃ suffix, suffix <:+ cs ∧ StartsSequence suffix

section Sequences

variable {c : Char} {cs rest : List Char}

theorem isParameter_of_isAlpha (h : c.isAlpha = true) : isParameter c = false := by
  have hletter : (65 ≤ c.toNat ∧ c.toNat ≤ 90) ∨ (97 ≤ c.toNat ∧ c.toNat ≤ 122) := by
    have hranges : (decide ((65 : UInt32) ≤ c.val ∧ c.val ≤ 90) ||
      decide ((97 : UInt32) ≤ c.val) && decide (c.val ≤ 122)) = true := h
    simpa [UInt32.le_iff_toNat_le] using hranges
  rw [Bool.eq_false_iff]
  intro hparameter
  simp only [isParameter, Bool.or_eq_true, decide_eq_true_eq] at hparameter
  rcases hparameter with (hdigit | rfl) | rfl
  · have hrange : (decide ((48 : UInt32) ≤ c.val) && decide (c.val ≤ 57)) = true := hdigit
    have hnumber : 48 ≤ c.toNat ∧ c.toNat ≤ 57 := by
      simpa [UInt32.le_iff_toNat_le] using hrange
    omega
  · cases h
  · cases h

theorem sequenceLength_eq_zero_iff : sequenceLength cs = 0 ↔ ¬StartsSequence cs := by
  constructor
  · rintro h ⟨parameters, c, after, rfl, hparameters, hc⟩
    have hdrop : (parameters ++ c :: after).dropWhile isParameter = c :: after := by
      rw [List.dropWhile_append_of_pos hparameters,
        List.dropWhile_cons_of_neg (by simp [isParameter_of_isAlpha hc])]
    simp [sequenceLength, hdrop, hc] at h
  · intro h
    unfold sequenceLength
    split
    · rename_i rest
      split
      · rename_i c after hdrop
        refine if_neg fun hc => h ⟨rest.takeWhile isParameter, c, after, ?_, ?_, hc⟩
        · rw [← hdrop, List.takeWhile_append_dropWhile]
        · exact fun p hp => List.mem_takeWhile_imp hp
      · rfl
    · rfl

theorem holdsSequence_cons_iff :
    HoldsSequence (c :: cs) ↔ StartsSequence (c :: cs) ∨ HoldsSequence cs := by
  unfold HoldsSequence
  simp only [List.suffix_cons_iff, or_and_right, exists_or, exists_eq_left]

theorem not_holdsSequence_nil : ¬HoldsSequence [] := by
  rintro ⟨suffix, hsuffix, parameters, c, after, rfl, -⟩
  exact absurd (List.suffix_nil.1 hsuffix) (List.cons_ne_nil _ _)

theorem length_dropSequences_le (n : ℕ) (cs : List Char) :
    (dropSequences n cs).length ≤ cs.length := by
  fun_induction dropSequences n cs with
  | case1 => exact le_rfl
  | case2 n c rest ih => exact ih.trans (Nat.le_succ _)
  | case3 c rest hzero ih => exact Nat.succ_le_succ ih
  | case4 c rest n hlength ih => exact ih.trans (Nat.le_succ _)

/-- **A text stays as it is** without its control sequences exactly when it holds none. -/
theorem dropSequences_eq_self_iff (cs : List Char) :
    dropSequences 0 cs = cs ↔ ¬HoldsSequence cs := by
  induction cs with
  | nil => exact iff_of_true rfl not_holdsSequence_nil
  | cons c cs ih =>
    rw [holdsSequence_cons_iff, not_or, ← sequenceLength_eq_zero_iff, ← ih, dropSequences]
    split
    · rename_i hzero
      rw [List.cons.injEq]
      exact and_congr_left fun _ => iff_of_true rfl hzero
    · rename_i n hlength
      -- what is left of the text behind the escape character is shorter than the text
      refine iff_of_false (fun h => ?_) (by simp [hlength])
      have hle := length_dropSequences_le n cs
      rw [h, List.length_cons] at hle
      omega

end Sequences

theorem withoutSequences_eq_self_iff (s : String) :
    withoutSequences s = s ↔ ¬HoldsSequence s.toList := by
  rw [← dropSequences_eq_self_iff, withoutSequences, ← String.toList_inj, String.toList_ofList]

end Text

namespace CommandLine

/-- **A text is printed as it is** exactly when it holds no control sequence. -/
theorem echoed_eq_iff (text : String) :
    echoed text = text ++ "\n" ↔ ¬Text.HoldsSequence text.toList := by
  rw [← Text.withoutSequences_eq_self_iff, echoed, String.append_left_inj]

/-! ### Markup -/

namespace Markup

/-- The tag ends a style. -/
def IsClosing : Piece → Prop
  | .plain _ => False
  | .tag _ body => body.head? = some '/'

section Markup

variable {n place : ℕ} {styles : List String} {word rest cs body : List Char} {ps : List Piece}

/-- Pieces without a tag that ends a style have a text. -/
theorem exists_textOf (h : ∀ p ∈ ps, ¬IsClosing p) (styles : List String) :
    ∃ out, textOf styles ps = .ok out := by
  induction ps generalizing styles with
  | nil => exact ⟨[], rfl⟩
  | cons p ps ih =>
    obtain ⟨hp, hps⟩ := List.forall_mem_cons.1 h
    cases p with
    | plain text =>
      obtain ⟨out, hout⟩ := ih hps styles
      exact ⟨text ++ out, by rw [textOf, hout]; rfl⟩
    | tag place body =>
      obtain ⟨out, hout⟩ := ih hps (styleName (body.takeWhile (· != '=')) :: styles)
      refine ⟨out, ?_⟩
      rw [textOf]
      split
      · rename_i name hname
        refine absurd ?_ hp
        cases body with
        | nil => cases hname
        | cons c body =>
          rw [List.takeWhile_cons] at hname
          split at hname
          · rw [IsClosing, List.head?_cons, (List.cons.inj hname).1]
          · cases hname
      · exact hout

/-- What a tag holds is what stands behind its opening bracket. -/
theorem eq_of_readTag? {after : List Char} (h : readTag? rest = some (body, after)) :
    rest = body ++ ']' :: after := by
  unfold readTag? at h
  split at h
  · rename_i c body' after' hbody hafter
    split_ifs at h
    cases h
    rw [← hbody, ← hafter, List.takeWhile_append_dropWhile]
  · cases h

/-- A text in which no slash follows an opening bracket has no tag that ends a style. -/
theorem not_isClosing_of_mem_piecesFrom (h : ¬['[', '/'] <:+: cs) (n place : ℕ) :
    ∀ p ∈ piecesFrom n place cs, ¬IsClosing p := by
  induction n generalizing place cs with
  | zero => exact fun p hp => absurd hp List.not_mem_nil
  | succ n ih =>
    have hsuffix : ∀ rest, cs.dropWhile (· = '\\') = rest → rest <:+ cs :=
      fun rest hrest => hrest ▸ List.dropWhile_suffix _
    -- what follows in the text has no such place either
    have hlater {rest : List Char} (hrest : rest <:+ cs) (place : ℕ) :
        ∀ p ∈ piecesFrom n place rest, ¬IsClosing p :=
      ih (fun hplace => h (hplace.trans hrest.isInfix)) place
    rw [piecesFrom]
    split
    · simp [IsClosing]
    · rename_i rest hrest
      have hbracket := hsuffix _ hrest
      split
      · rename_i body after htag
        have hbody := eq_of_readTag? htag
        have hafter : after <:+ cs :=
          (List.suffix_append_of_suffix (List.suffix_cons _ _)).trans
            (hbody ▸ (List.suffix_cons _ _).trans hbracket)
        refine List.forall_mem_cons.2
          ⟨by simp [IsClosing], List.forall_mem_cons.2 ⟨?_, hlater hafter _⟩⟩
        split_ifs
        · intro hclosing
          obtain ⟨body', rfl⟩ := List.head?_eq_some_iff.1 hclosing
          refine h (List.IsInfix.trans ⟨[], body' ++ ']' :: after, ?_⟩ hbracket.isInfix)
          rw [hbody]
          rfl
        · simp [IsClosing]
      · exact List.forall_mem_cons.2
          ⟨by simp [IsClosing], hlater ((List.suffix_cons _ _).trans hbracket) _⟩
    · rename_i c rest _ hrest
      exact List.forall_mem_cons.2
        ⟨by simp [IsClosing], hlater ((List.suffix_cons _ _).trans (hsuffix _ hrest)) _⟩

/-- Characters without markup stand for themselves. -/
theorem exists_textOf_piecesFrom_append (hword : ∀ c ∈ word, c ≠ '[' ∧ c ≠ '\\')
    (h : ∀ place, ∃ out, textOf styles (piecesFrom n place rest) = .ok out) (place : ℕ) :
    ∃ out, textOf styles (piecesFrom (n + word.length) place (word ++ rest)) = .ok out := by
  induction word generalizing place with
  | nil => exact h place
  | cons c word ih =>
    obtain ⟨⟨hbracket, hslash⟩, hword⟩ := List.forall_mem_cons.1 hword
    obtain ⟨out, hout⟩ := ih hword (place + 1)
    have hpieces : piecesFrom (n + (c :: word).length) place ((c :: word) ++ rest) =
        .plain [c] :: piecesFrom (n + word.length) (place + 1) (word ++ rest) := by
      rw [List.length_cons, ← Nat.add_assoc, List.cons_append, piecesFrom,
        List.takeWhile_cons_of_neg (by simpa using hslash),
        List.dropWhile_cons_of_neg (by simpa using hslash)]
      split
      · rename_i heq
        cases heq
      · rename_i heq
        cases heq
        exact absurd rfl hbracket
      · rename_i heq
        cases heq
        rfl
    exact ⟨[c] ++ out, by rw [hpieces, textOf, hout]; rfl⟩

/-- A tag is read as one. -/
theorem piecesFrom_tag {c : Char} (body : List Char) (hc : startsTag c = true)
    (hbody : ∀ x ∈ c :: body, inTag x = true) (n place : ℕ) (rest : List Char) :
    piecesFrom (n + 1) place ('[' :: c :: (body ++ ']' :: rest)) =
      .plain [] :: .tag place (c :: body) ::
        piecesFrom n (place + (c :: body).length + 2) rest := by
  have htag : readTag? (c :: (body ++ ']' :: rest)) = some (c :: body, rest) := by
    have hstop : inTag ']' = false := rfl
    rw [← List.cons_append]
    unfold readTag?
    rw [List.takeWhile_append_of_pos hbody, List.dropWhile_append_of_pos hbody,
      List.takeWhile_cons_of_neg (by simp [hstop]), List.dropWhile_cons_of_neg (by simp [hstop]),
      List.append_nil]
    exact if_pos hc
  rw [piecesFrom]
  simp [htag]

/-- A tag without a name ends the latest style. -/
theorem textOf_unnamed (style : String) (styles : List String) (place : ℕ) (ps : List Piece) :
    textOf (style :: styles) (.tag place ['/'] :: ps) = textOf styles ps := by
  rfl

/-- A message that ends the style of its first words can be read if it ends no style later. -/
theorem exists_read_of_styled {message : String} {c : Char}
    (htext : message.toList = '[' :: c :: (body ++ ']' :: (word ++ '[' :: '/' :: ']' :: rest)))
    (hc : startsTag c = true) (hopen : c ≠ '/') (hbody : ∀ x ∈ c :: body, inTag x = true)
    (hword : ∀ x ∈ word, x ≠ '[' ∧ x ≠ '\\') (hrest : ¬['[', '/'] <:+: rest) :
    ∃ note, read message = .ok note := by
  have hclosing (style : String) (n place : ℕ) : ∃ out,
      textOf [style] (piecesFrom (n + 1) place ('[' :: '/' :: ']' :: rest)) = .ok out := by
    obtain ⟨out, hout⟩ := exists_textOf (not_isClosing_of_mem_piecesFrom hrest n (place + 3)) []
    have hpieces : piecesFrom (n + 1) place ('[' :: '/' :: ']' :: rest) =
        .plain [] :: .tag place ['/'] :: piecesFrom n (place + 3) rest :=
      piecesFrom_tag [] (by decide) (by simp [inTag]) n place rest
    refine ⟨out, ?_⟩
    rw [hpieces, textOf, textOf_unnamed, hout]
    rfl
  -- one step for each tag, one for each of the first words, and enough for what follows
  have hlength : message.toList.length = body.length + rest.length + 5 + 1 + word.length := by
    rw [htext]
    simp only [List.length_cons, List.length_append]
    omega
  obtain ⟨out, hout⟩ := exists_textOf_piecesFrom_append hword
    (hclosing (styleName ((c :: body).takeWhile (· != '='))) (body.length + rest.length + 5))
    ((c :: body).length + 2)
  refine ⟨String.ofList out, ?_⟩
  rw [read, pieces, hlength, htext, piecesFrom_tag body hc hbody, Nat.zero_add, textOf, textOf]
  split
  · rename_i name hname
    rw [List.takeWhile_cons] at hname
    split at hname
    · exact absurd (List.cons.inj hname).1 hopen
    · cases hname
  · rw [hout]
    rfl

end Markup

end Markup

/-- **The note about a written document** can be read unless its path holds an opening bracket with
a slash behind it. -/
theorem exists_read_announcement {path : String} (h : ¬['[', '/'] <:+: path.toList) :
    ∃ note, Markup.read (announcement path) = .ok note := by
  have htext : (announcement path).toList = '[' :: 'c' :: (['y', 'a', 'n'] ++ ']' ::
      ("Highlighted HTML written to".toList ++ '[' :: '/' :: ']' :: (' ' :: path.toList))) := by
    unfold announcement
    simp
  refine Markup.exists_read_of_styled htext (by decide) (by decide) (by simp [Markup.inTag])
    (by simp) fun hplace => ?_
  rcases List.infix_cons_iff.1 hplace with hprefix | hplace
  · cases (List.cons_prefix_cons.1 hprefix).1
  · exact h hplace

end CommandLine

end CodeHighlight
