import CodeHighlight.Proofs.CausePath
import CodeHighlight.Proofs.Lines
import CodeHighlight.Proofs.Validation

/-!
# Messages for users

The messages of a failure come from the wordings along its path (`Trace.wordings`), one from each
wording that is not blank: the first line of what is left when the blanks around the wording are cut
(`IsHeadline`). Main statement: `messages_law`.

That a wording which is not blank has such a line rests on the fact that every character that ends
a line is a blank: no line break is left at the start of the wording, so that its first line begins
with a character of its own.
-/

namespace CodeHighlight

/-! ### The first line of a text -/

namespace Text
variable {c : Char} {cs : List Char}

theorem isBlank_of_isLineBreak (h : isLineBreak c = true) : isBlank c = true := by
  simp only [isLineBreak, isBlank, Bool.or_eq_true, Bool.and_eq_true, decide_eq_true_eq,
    beq_iff_eq] at h ⊢
  omega

theorem isLineBreak_of_not_isBlank (h : isBlank c = false) : isLineBreak c = false := by
  by_contra hbreak
  rw [isBlank_of_isLineBreak (by simpa using hbreak)] at h
  cases h

/-- The text is not empty and has no blank at its start or end. -/
structure IsStripped (cs : List Char) : Prop where
  ne_nil : cs ≠ []
  first : ∀ c, cs.head? = some c → isBlank c = false
  last : ∀ c, cs.getLast? = some c → isBlank c = false

theorem isStripped_strip (h : isAllBlank cs = false) : IsStripped (strip cs) where
  ne_nil hnil := by
    rw [isAllBlank, List.all_eq_true.2 ((strip_eq_nil_iff cs).1 hnil)] at h
    cases h
  first c hc := by
    have hprefix : strip cs <+: stripStart cs := List.rdropWhile_prefix isBlank (stripStart cs)
    obtain ⟨rest, hrest⟩ := hprefix
    have hhead : (stripStart cs).head? = some c := by
      rw [← hrest, List.head?_append, hc]
      rfl
    have hnot := List.head?_dropWhile_not isBlank cs
    rw [show cs.dropWhile isBlank = stripStart cs from rfl, hhead] at hnot
    simpa using hnot
  last c hc := by
    have hend : (((stripStart cs).reverse.dropWhile isBlank)).head? = some c := by
      rw [← hc, strip, stripEnd, List.getLast?_reverse]
    have hnot := List.head?_dropWhile_not isBlank (stripStart cs).reverse
    rw [hend] at hnot
    simpa using hnot

/-- A text that does not start with a line break has a first line that is not empty. -/
theorem exists_lines_cons (hc : isLineBreak c = false) (cs : List Char) :
    ∃ line rest ls, lines (c :: cs) = (c :: line) :: ls ∧ c :: cs = (c :: line) ++ rest ∧
      (∀ d ∈ c :: line, isLineBreak d = false) ∧
      ∀ d, rest.head? = some d → isLineBreak d = true := by
  obtain ⟨ls, hbroken⟩ := exists_broken (c :: cs)
  have hlines : lines (c :: cs) = ls.map Prod.fst := by rw [lines, hbroken.brokenLines_eq]
  rw [hlines]
  generalize hall : c :: cs = all at hbroken
  cases hbroken with
  | nil => cases hall
  | last hline hplain =>
    subst hall
    exact ⟨cs, [], [], rfl, (List.append_nil _).symm, hplain, by simp⟩
  | @line line b rest ls hplain hbreak =>
    have hb : ∀ d, (b ++ rest).head? = some d → isLineBreak d = true := by
      rintro d hd
      rcases hbreak with rfl | ⟨e, he, rfl⟩ <;> cases hd
      · rfl
      · exact he
    rw [List.append_assoc] at hall
    cases line with
    | nil =>
      -- the text would start with a line break
      rw [List.nil_append] at hall
      rw [hb c (by rw [← hall, List.head?_cons])] at hc
      cases hc
    | cons d line =>
      obtain rfl : c = d := (List.cons.inj hall).1
      exact ⟨line, b ++ rest, ls.map Prod.fst, rfl, List.append_assoc _ _ _,
        hplain, hb⟩

/-- Cutting the blanks at the end of a text. -/
theorem exists_strip_append (hc : isBlank c = false) (cs : List Char) :
    ∃ gap, c :: cs = strip (c :: cs) ++ gap ∧ ∀ d ∈ gap, isBlank d = true := by
  have hstart : stripStart (c :: cs) = c :: cs := List.dropWhile_cons_of_neg (by simp [hc])
  refine ⟨(c :: cs).rtakeWhile isBlank, ?_, fun d hd => List.mem_rtakeWhile_imp hd⟩
  rw [strip, hstart]
  exact (List.rdropWhile_append_rtakeWhile).symm

end Text

open Text (isBlank isAllBlank isLineBreak lines strip IsStripped)

/-- The line is the first line of the wording when the blanks around the wording are cut, up to
blanks at the end of this line. -/
def IsHeadline (wording line : String) : Prop :=
  ∃ gap rest, strip wording.toList = line.toList ++ gap ++ rest ∧
    (∀ c ∈ line.toList ++ gap, isLineBreak c = false) ∧ (∀ c ∈ gap, isBlank c = true) ∧
    ∀ c, rest.head? = some c → isLineBreak c = true

namespace Trace
variable {t : Trace} {wording line : String}

/-! ### The line of a wording -/

theorem firstLine?_of_blank (h : isAllBlank wording.toList = true) :
    firstLine? wording = none := by
  have hstrip : strip wording.toList = [] :=
    (Text.strip_eq_nil_iff _).2 (List.all_eq_true.1 h)
  rw [firstLine?, hstrip]
  rfl

/-- A wording that is not blank has a line. -/
theorem exists_firstLine? (h : isAllBlank wording.toList = false) :
    ∃ line, firstLine? wording = some line ∧ IsHeadline wording line ∧ IsStripped line.toList := by
  have hstripped := Text.isStripped_strip h
  obtain ⟨c, cs, hcs⟩ := List.exists_cons_of_ne_nil hstripped.ne_nil
  have hc : isBlank c = false := hstripped.first c (by rw [hcs, List.head?_cons])
  obtain ⟨first, rest, ls, hlines, hsplit, hplain, hrest⟩ :=
    Text.exists_lines_cons (Text.isLineBreak_of_not_isBlank hc) cs
  obtain ⟨gap, hgap, hblank⟩ := Text.exists_strip_append hc first
  have hline : IsStripped (strip (c :: first)) :=
    Text.isStripped_strip (by simp [isAllBlank, hc])
  refine ⟨String.ofList (strip (c :: first)), ?_, ⟨gap, rest, ?_, ?_, hblank, hrest⟩, ?_⟩
  · rw [firstLine?, hcs, hlines]
    dsimp only
    rw [if_neg (by simpa using hline.ne_nil)]
  · rw [String.toList_ofList, ← hgap, hcs, hsplit]
  · rwa [String.toList_ofList, ← hgap]
  · rwa [String.toList_ofList]

/-! ### The messages of a path -/

/-- The wordings of the failures on the path of the newest failure. -/
def wordings (t : Trace) : List String :=
  (t.path (some t.start)).filterMap fun i => (t.failureAt? i).map (·.message)

/-- Every failure on the path has its wording. -/
theorem forall₂_wordings (t : Trace) :
    List.Forall₂ (fun i wording => ∃ f, t.failureAt? i = some f ∧ f.message = wording)
      (t.path (some t.start)) t.wordings :=
  forall₂_filterMap (isPath_path t _) _ _ fun f hf => ⟨_, by rw [hf]; rfl, f, hf, rfl⟩

theorem messages_eq (t : Trace) : t.messages = t.wordings.filterMap firstLine? := by
  rw [messages, wordings, List.filterMap_filterMap]
  congr 1
  funext i
  rw [Option.bind_map]
  rfl

/-- The wordings that are not blank give the messages. -/
theorem forall₂_messages (ws : List String) :
    List.Forall₂ IsHeadline (ws.filter fun w => !isAllBlank w.toList)
      (ws.filterMap firstLine?) := by
  induction ws with
  | nil => exact .nil
  | cons w ws ih =>
    cases hw : isAllBlank w.toList with
    | true => simpa [hw, firstLine?_of_blank hw] using ih
    | false =>
      obtain ⟨line, hline, hhead, -⟩ := exists_firstLine? hw
      simpa [hw, hline] using ⟨hhead, ih⟩

theorem isStripped_of_mem_messages (h : line ∈ t.messages) :
    IsStripped line.toList ∧ ∀ c ∈ line.toList, isLineBreak c = false := by
  rw [messages_eq, List.mem_filterMap] at h
  obtain ⟨w, -, hw⟩ := h
  cases hblank : isAllBlank w.toList with
  | true =>
    rw [firstLine?_of_blank hblank] at hw
    cases hw
  | false =>
    obtain ⟨line', hline, ⟨gap, rest, -, hplain, -⟩, hstripped⟩ := exists_firstLine? hblank
    obtain rfl : line' = line := Option.some.inj (hline.symm.trans hw)
    exact ⟨hstripped, fun c hc => hplain c (List.mem_append_left _ hc)⟩

theorem messages_eq_nil_iff : t.messages = [] ↔ ∀ w ∈ t.wordings, isAllBlank w.toList = true := by
  rw [messages_eq, List.filterMap_eq_nil_iff]
  refine forall₂_congr fun w _ => ?_
  cases hw : isAllBlank w.toList with
  | true => simp [firstLine?_of_blank hw]
  | false =>
    obtain ⟨line, hline, -⟩ := exists_firstLine? hw
    simp [hline]

example : (⟨[⟨.plain .runtime "\tfirst \u2028second", none, some 1⟩,
    ⟨.plain .value "\r\n", some 2, none⟩, ⟨.plain .type "third\x0b", some 0, some 1⟩], 0⟩ :
    Trace).messages = ["first", "third"] := by decide

end Trace

end CodeHighlight
