import CodeHighlight.Text.Blank
import Mathlib.Tactic

/-!
# Pieces and lines

Cutting a text at a character and joining the pieces again gives the text (`joinWith_cutAt`).

`Broken cs ls` says without a recursion what the lines of a text and their breaks are: no line holds
a line break, and only the last can lack one behind it. A text has exactly one such list
(`broken_iff`), so that what is known of it can be proved by induction along the lines instead of
the characters. Joined by line feeds the lines are the text with other breaks
(`Broken.filter_joinWith`), and the text itself up to carriage returns when it has no line breaks
but these and line feeds (`Broken.joinWith_append_eq`).
-/

namespace CodeHighlight.Text

theorem endsWith_iff {s suffix : String} :
    s.endsWith suffix = true ↔ ∃ base, s = base ++ suffix := by
  rw [String.endsWith_eq_endsWith_toSlice, String.Slice.endsWith_string_iff, String.copy_toSlice]
  constructor
  · rintro ⟨base, h⟩
    exact ⟨String.ofList base, String.toList_injective (by simp [h])⟩
  · rintro ⟨base, rfl⟩
    exact ⟨base.toList, String.toList_append.symm⟩

theorem endsWith_feed_iff {s : String} :
    s.endsWith "\n" = true ↔ s.toList.getLast? = some '\n' := by
  rw [endsWith_iff, List.getLast?_eq_some_iff]
  constructor
  · rintro ⟨base, rfl⟩
    exact ⟨base.toList, String.toList_append⟩
  · rintro ⟨base, h⟩
    exact ⟨String.ofList base, String.toList_injective (by simp [h])⟩

/-! ### Pieces -/

section Pieces
variable {sep : Char}

theorem joinWith_cons (x : List Char) {ps : List (List Char)} (hps : ps ≠ []) :
    joinWith [sep] (x :: ps) = x ++ sep :: joinWith [sep] ps := by
  cases ps with
  | nil => exact absurd rfl hps
  | cons p ps =>
    rw [joinWith, List.append_assoc]
    rfl

theorem cutAt_ne_nil (sep : Char) (cs : List Char) : cutAt sep cs ≠ [] := by
  cases cs with
  | nil => exact List.cons_ne_nil _ _
  | cons c cs =>
    rw [cutAt]
    split_ifs
    · exact List.cons_ne_nil _ _
    · split <;> exact List.cons_ne_nil _ _

/-- A character that is no separator joins the first piece. -/
theorem cutAt_cons_of_ne {c : Char} (h : c ≠ sep) {cs p : List Char} {ps : List (List Char)}
    (hcut : cutAt sep cs = p :: ps) : cutAt sep (c :: cs) = (c :: p) :: ps := by
  rw [cutAt, if_neg h, hcut]

theorem cutAt_of_not_mem {cs : List Char} (h : sep ∉ cs) : cutAt sep cs = [cs] := by
  induction cs with
  | nil => rfl
  | cons c cs ih =>
    rw [List.mem_cons, not_or] at h
    exact cutAt_cons_of_ne (Ne.symm h.1) (ih h.2)

theorem cutAt_append (cs ds : List Char) :
    cutAt sep (cs ++ sep :: ds) = cutAt sep cs ++ cutAt sep ds := by
  induction cs with
  | nil =>
    show cutAt sep (sep :: ds) = [] :: cutAt sep ds
    rw [cutAt, if_pos rfl]
  | cons c cs ih =>
    by_cases h : c = sep
    · rw [List.cons_append, cutAt, if_pos h, ih, cutAt, if_pos h]
      rfl
    · obtain ⟨p, ps, hcut⟩ := List.exists_cons_of_ne_nil (cutAt_ne_nil sep cs)
      rw [cutAt_cons_of_ne h hcut]
      rw [hcut, List.cons_append] at ih
      exact cutAt_cons_of_ne h ih

/-- Cutting loses nothing. -/
theorem joinWith_cutAt (sep : Char) (cs : List Char) : joinWith [sep] (cutAt sep cs) = cs := by
  induction cs with
  | nil => rfl
  | cons c cs ih =>
    by_cases h : c = sep
    · rw [cutAt, if_pos h, joinWith_cons [] (cutAt_ne_nil sep cs), ih, h]
      rfl
    · obtain ⟨p, ps, hcut⟩ := List.exists_cons_of_ne_nil (cutAt_ne_nil sep cs)
      rw [cutAt_cons_of_ne h hcut]
      rw [hcut] at ih
      cases ps with
      | nil => exact congrArg (c :: ·) ih
      | cons q qs =>
        rw [joinWith_cons _ (List.cons_ne_nil q qs)] at ih ⊢
        exact congrArg (c :: ·) ih

end Pieces

/-! ### Lines -/

section Lines
variable {line cs b rest : List Char} {ls xs ys : List (List Char × List Char)}

/-- The break behind a line: a carriage return and a line feed, or one character. -/
def IsBreak (b : List Char) : Prop := b = ['\r', '\n'] ∨ ∃ c, isLineBreak c = true ∧ b = [c]

/-- A text consists of these lines, each with the break that ends it. A carriage return before a
line feed is no break of its own. -/
inductive Broken : List Char → List (List Char × List Char) → Prop
  | nil : Broken [] []
  | last {line : List Char} (hline : line ≠ []) (hplain : ∀ c ∈ line, isLineBreak c = false) :
      Broken line [(line, [])]
  | line {line b rest : List Char} {ls : List (List Char × List Char)}
      (hplain : ∀ c ∈ line, isLineBreak c = false) (hbreak : IsBreak b)
      (hlong : b = ['\r'] → rest.head? ≠ some '\n') (hrest : Broken rest ls) :
      Broken (line ++ b ++ rest) ((line, b) :: ls)

theorem not_mem_of_plain (hplain : ∀ c ∈ line, isLineBreak c = false) {c : Char}
    (hc : isLineBreak c = true) : c ∉ line := by
  intro hmem
  rw [hplain c hmem] at hc
  cases hc

theorem brokenLinesFrom_cons {c : Char} (hlong : c = '\r' → rest.head? ≠ some '\n') :
    brokenLinesFrom line (c :: rest) =
      if isLineBreak c then (line.reverse, [c]) :: brokenLines rest
      else brokenLinesFrom (c :: line) rest := by
  rw [brokenLinesFrom]
  · rfl
  · rintro rest' hc rfl
    exact hlong hc rfl

/-- Characters that are no line breaks extend the line that is under way. -/
theorem brokenLinesFrom_append (hplain : ∀ c ∈ cs, isLineBreak c = false) :
    brokenLinesFrom line (cs ++ rest) = brokenLinesFrom (cs.reverse ++ line) rest := by
  induction cs generalizing line with
  | nil => rfl
  | cons c cs ih =>
    obtain ⟨hc, hcs⟩ := List.forall_mem_cons.1 hplain
    have hr : c ≠ '\r' := by
      rintro rfl
      cases hc
    rw [List.cons_append, brokenLinesFrom_cons fun h => absurd h hr,
      if_neg (by rw [hc]; exact Bool.false_ne_true), ih hcs, List.reverse_cons, List.append_assoc]
    rfl

/-- A break ends the line that is under way. -/
theorem brokenLinesFrom_break (hbreak : IsBreak b) (hlong : b = ['\r'] → rest.head? ≠ some '\n') :
    brokenLinesFrom line (b ++ rest) = (line.reverse, b) :: brokenLines rest := by
  rcases hbreak with rfl | ⟨c, hc, rfl⟩
  · rfl
  · rw [List.singleton_append, brokenLinesFrom_cons fun h => hlong (by rw [h]), if_pos hc]

theorem Broken.brokenLines_eq (h : Broken cs ls) : brokenLines cs = ls := by
  induction h with
  | nil => rfl
  | @last line hline hplain =>
    rw [← List.append_nil line, brokenLines, brokenLinesFrom_append hplain, brokenLinesFrom,
      if_neg (by simpa using hline)]
    simp
  | line hplain hbreak hlong _ ih =>
    rw [List.append_assoc, brokenLines, brokenLinesFrom_append hplain,
      brokenLinesFrom_break hbreak hlong, ih]
    simp

/-- A text without line breaks, or its first line with the break behind it. -/
theorem exists_line (cs : List Char) : (∀ c ∈ cs, isLineBreak c = false) ∨
    ∃ line b rest, cs = line ++ b ++ rest ∧ (∀ c ∈ line, isLineBreak c = false) ∧ IsBreak b ∧
      (b = ['\r'] → rest.head? ≠ some '\n') := by
  induction cs with
  | nil => exact .inl fun c hc => by cases hc
  | cons c cs ih =>
    by_cases hc : isLineBreak c = true
    · refine .inr ?_
      by_cases hlong : c = '\r' ∧ cs.head? = some '\n'
      · obtain ⟨rfl, hhead⟩ := hlong
        obtain ⟨rest, rfl⟩ := List.head?_eq_some_iff.1 hhead
        exact ⟨[], ['\r', '\n'], rest, rfl, by simp, .inl rfl, by simp⟩
      · refine ⟨[], [c], cs, rfl, by simp, .inr ⟨c, hc, rfl⟩, fun hb hhead => hlong ⟨?_, hhead⟩⟩
        exact (List.cons.inj hb).1
    · have hc := Bool.eq_false_of_not_eq_true hc
      rcases ih with hplain | ⟨line, b, rest, rfl, hplain, hbreak, hlong⟩
      · exact .inl (List.forall_mem_cons.2 ⟨hc, hplain⟩)
      · exact .inr ⟨c :: line, b, rest, rfl, List.forall_mem_cons.2 ⟨hc, hplain⟩, hbreak, hlong⟩

theorem IsBreak.ne_nil (h : IsBreak b) : b ≠ [] := by
  rcases h with rfl | ⟨c, -, rfl⟩ <;> exact List.cons_ne_nil _ _

theorem exists_broken (cs : List Char) : ∃ ls, Broken cs ls := by
  induction hn : cs.length using Nat.strong_induction_on generalizing cs with
  | _ n ih =>
    rcases exists_line cs with hplain | ⟨line, b, rest, rfl, hplain, hbreak, hlong⟩
    · by_cases hcs : cs = []
      · exact ⟨[], hcs ▸ .nil⟩
      · exact ⟨_, .last hcs hplain⟩
    · have hlen := List.length_pos_of_ne_nil hbreak.ne_nil
      rw [List.length_append, List.length_append] at hn
      obtain ⟨ls, hls⟩ := ih rest.length (by omega) rest rfl
      exact ⟨_, .line hplain hbreak hlong hls⟩

/-- A text consists of its lines and of no others. -/
theorem broken_iff : Broken cs ls ↔ brokenLines cs = ls := by
  constructor
  · exact Broken.brokenLines_eq
  · rintro rfl
    obtain ⟨ls, h⟩ := exists_broken cs
    rw [h.brokenLines_eq]
    exact h

theorem Broken.eq_nil_iff (h : Broken cs ls) : ls = [] ↔ cs = [] := by
  cases h with
  | nil => simp
  | last hline => simp [hline]
  | line _ hbreak => simp [hbreak.ne_nil]

/-- The text of lines and their breaks. -/
def written (ls : List (List Char × List Char)) : List Char := ls.flatMap fun l => l.1 ++ l.2

/-- The lines behind some lines of a text are those of the text behind them. -/
theorem Broken.exists_rest (h : Broken cs (xs ++ ys)) :
    ∃ rest, cs = written xs ++ rest ∧ Broken rest ys := by
  induction xs generalizing cs with
  | nil => exact ⟨cs, rfl, h⟩
  | cons x xs ih =>
    rw [List.cons_append] at h
    generalize hls : x :: (xs ++ ys) = ls at h
    cases h with
    | nil => cases hls
    | last hline hplain =>
      obtain ⟨rfl, htail⟩ := List.cons.inj hls
      obtain ⟨rfl, rfl⟩ := List.append_eq_nil_iff.1 htail
      exact ⟨[], by simp [written], .nil⟩
    | line hplain hbreak hlong hrest =>
      obtain ⟨rfl, rfl⟩ := List.cons.inj hls
      obtain ⟨rest, rfl, hys⟩ := ih hrest
      exact ⟨rest, by simp [written], hys⟩

/-- Joined by line feeds, the lines are the text with other line breaks. -/
theorem Broken.filter_joinWith (h : Broken cs ls) :
    (joinWith ['\n'] (ls.map Prod.fst)).filter (!isLineBreak ·) = cs.filter (!isLineBreak ·) := by
  induction h with
  | nil => rfl
  | last => rfl
  | @line line b rest ls hplain hbreak hlong hrest ih =>
    have hb : b.filter (!isLineBreak ·) = [] := by
      rcases hbreak with rfl | ⟨c, hc, rfl⟩
      · rfl
      · simp [hc]
    rw [List.map_cons, List.filter_append, List.filter_append, hb, List.append_nil, ← ih]
    cases ls with
    | nil => exact (List.append_nil _).symm
    | cons l ls =>
      rw [joinWith_cons _ (by simp), List.filter_append]
      rfl

/-- Joined by line feeds, the lines have no other line breaks. -/
theorem Broken.eq_of_mem_joinWith (h : Broken cs ls) {c : Char}
    (hc : c ∈ joinWith ['\n'] (ls.map Prod.fst)) (hbreak : isLineBreak c = true) : c = '\n' := by
  induction h with
  | nil => cases hc
  | last hline hplain => exact absurd hc (not_mem_of_plain hplain hbreak)
  | @line line b rest ls hplain _ _ hrest ih =>
    have hcases : c ∈ line ∨ c = '\n' ∨ c ∈ joinWith ['\n'] (ls.map Prod.fst) := by
      cases ls with
      | nil => exact .inl hc
      | cons l ls =>
        rw [List.map_cons, joinWith_cons _ (by simp), List.mem_append, List.mem_cons] at hc
        exact hc
    rcases hcases with hline | rfl | hrest
    · exact absurd hline (not_mem_of_plain hplain hbreak)
    · rfl
    · exact ih hrest

theorem unifyBreaks_cons {c : Char} (hlong : ∀ rest', c = '\r' → rest ≠ '\n' :: rest') :
    unifyBreaks (c :: rest) = (if c = '\r' then '\n' else c) :: unifyBreaks rest := by
  rw [unifyBreaks]
  exact hlong

/-- A text without carriage returns stays as it is. -/
theorem unifyBreaks_eq_self (h : '\r' ∉ cs) : unifyBreaks cs = cs := by
  induction cs with
  | nil => rfl
  | cons c cs ih =>
    rw [List.mem_cons, not_or] at h
    rw [unifyBreaks_cons fun _ hc => absurd hc.symm h.1, if_neg (Ne.symm h.1), ih h.2]

theorem unifyBreaks_append_of_not_mem (h : '\r' ∉ cs) :
    unifyBreaks (cs ++ rest) = cs ++ unifyBreaks rest := by
  induction cs with
  | nil => rfl
  | cons c cs ih =>
    rw [List.mem_cons, not_or] at h
    rw [List.cons_append, unifyBreaks_cons fun _ hc => absurd hc.symm h.1, if_neg (Ne.symm h.1),
      ih h.2]
    rfl

theorem unifyBreaks_break (hbreak : IsBreak b) (hreturn : ∀ c ∈ b, c = '\n' ∨ c = '\r')
    (hlong : b = ['\r'] → rest.head? ≠ some '\n') :
    unifyBreaks (b ++ rest) = '\n' :: unifyBreaks rest := by
  rcases hbreak with rfl | ⟨c, -, rfl⟩
  · rfl
  · have hcons : ∀ rest', c = '\r' → rest ≠ '\n' :: rest' := by
      rintro rest' rfl rfl
      exact hlong rfl rfl
    rw [List.singleton_append, unifyBreaks_cons hcons]
    rcases hreturn c List.mem_cons_self with rfl | rfl <;> rfl

theorem mem_unifyBreaks {c : Char} (h : c ∈ unifyBreaks cs) : c = '\n' ∨ c ∈ cs ∧ c ≠ '\r' := by
  induction cs using unifyBreaks.induct with
  | case1 => cases h
  | case2 rest ih =>
    rcases List.mem_cons.1 h with rfl | h
    · exact .inl rfl
    · exact (ih h).imp_right fun h => ⟨by simp [h.1], h.2⟩
  | case3 c' rest hlong ih =>
    rw [unifyBreaks_cons hlong, List.mem_cons] at h
    rcases h with rfl | h
    · by_cases hc : c' = '\r'
      · exact .inl (if_pos hc)
      · rw [if_neg hc]
        exact .inr ⟨List.mem_cons_self, hc⟩
    · exact (ih h).imp_right fun h => ⟨List.mem_cons_of_mem _ h.1, h.2⟩

theorem unifyBreaks_unifyBreaks (cs : List Char) : unifyBreaks (unifyBreaks cs) = unifyBreaks cs :=
  unifyBreaks_eq_self fun h => by
    rcases mem_unifyBreaks h with h | h
    · cases h
    · exact h.2 rfl

theorem isAllBlank_unifyBreaks (cs : List Char) : isAllBlank (unifyBreaks cs) = isAllBlank cs := by
  induction cs using unifyBreaks.induct with
  | case1 => rfl
  | case2 rest ih => exact ih
  | case3 c rest hlong ih =>
    rw [unifyBreaks_cons hlong]
    show (isBlank (if c = '\r' then '\n' else c) && isAllBlank (unifyBreaks rest)) =
      (isBlank c && isAllBlank rest)
    rw [ih]
    split_ifs with hc
    · rw [hc]
      rfl
    · rfl

/-- Joined by line feeds, the lines are the text up to carriage returns, if there are no breaks but
these and line feeds. A line feed at the end is missing. -/
theorem Broken.joinWith_append_eq (h : Broken cs ls)
    (hreturns : ∀ c ∈ cs, isLineBreak c = true → c = '\n' ∨ c = '\r')
    (hlast : cs.getLast? ≠ some '\r') :
    joinWith ['\n'] (ls.map Prod.fst) ++ (if cs.getLast? = some '\n' then ['\n'] else []) =
      unifyBreaks cs := by
  induction h with
  | nil => rfl
  | @last line hline hplain =>
    have hn : line.getLast? ≠ some '\n' := fun h =>
      not_mem_of_plain hplain rfl (List.mem_of_getLast? h)
    rw [if_neg hn, List.append_nil, unifyBreaks_eq_self (not_mem_of_plain hplain rfl)]
    rfl
  | @line line b rest ls hplain hbreak hlong hrest ih =>
    have hb : ∀ c ∈ b, c = '\n' ∨ c = '\r' := by
      intro c hc
      refine hreturns c (by simp [hc]) ?_
      rcases hbreak with rfl | ⟨c', hc', rfl⟩
      · rcases List.mem_pair.1 hc with rfl | rfl <;> rfl
      · rwa [List.mem_singleton.1 hc]
    rw [List.append_assoc, unifyBreaks_append_of_not_mem (not_mem_of_plain hplain rfl),
      unifyBreaks_break hbreak hb hlong]
    by_cases hnil : rest = []
    · have hend : b.getLast? = some '\n' := by
        rcases hbreak with rfl | ⟨c, -, rfl⟩
        · rfl
        · rcases hb c List.mem_cons_self with rfl | rfl
          · rfl
          · exact absurd (by simp [hnil]) hlast
      rw [hrest.eq_nil_iff.2 hnil, hnil, if_pos (by simp [hend])]
      rfl
    · have hend : (line ++ (b ++ rest)).getLast? = rest.getLast? := by
        rw [← List.append_assoc, List.getLast?_append_of_ne_nil _ hnil]
      have hlines : ls.map Prod.fst ≠ [] := by
        simpa using hrest.eq_nil_iff.not.2 hnil
      rw [hend, List.map_cons, joinWith_cons line hlines, List.append_assoc, List.cons_append, ih]
      · exact fun c hc => hreturns c (by simp [hc])
      · rwa [List.append_assoc, hend] at hlast

end Lines

end CodeHighlight.Text
