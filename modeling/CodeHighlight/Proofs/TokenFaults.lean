import CodeHighlight.Proofs.Outcomes
import CodeHighlight.Yaml.Value

/-!
# Failures to read the tokens of YAML

Main statement: `Token.isMisreading_of_ofText`. The tokens of a text end early only because the text
is no YAML, or because it has a character with too large a number.

`IsMisreading` lists all ways in which reading may fail, those of trees and values included, and
`Reads` says of a computation that it fails in no other way. Each function of the scanner has one
lemma, which cites those of the functions it calls.
-/

namespace CodeHighlight.Yaml

/-- The kinds of failure of texts that are YAML and hold a value that cannot be made. -/
def misvalueKinds : List FailureKind :=
  [.value, .key, .attribute, .system "IndexError", .system "OverflowError"]

/-- A text is no YAML, or it holds a value that cannot be made. -/
def IsMisreading (t : Trace) : Prop := isYamlFault t = true ∨ t.kind ∈ misvalueKinds

/-- A computation that fails in no other way. -/
def Reads {α : Type} (x : Except Trace α) : Prop := ∀ t, x = .error t → IsMisreading t

section Reads
variable {α β : Type} {x : Except Trace α} {f : α → Except Trace β}

theorem Reads.ok (a : α) : Reads (.ok a : Except Trace α) := fun t h => by cases h

theorem Reads.error {t : Trace} (h : IsMisreading t) : Reads (.error t : Except Trace α) :=
  fun t' h' => by
    cases h'
    exact h

theorem Reads.bind (hx : Reads x) (hf : ∀ a, Reads (f a)) : Reads (x >>= f) := by
  intro t h
  rcases Except.bind_eq_error_iff.1 h with h | ⟨a, -, h⟩
  · exact hx t h
  · exact hf a t h

theorem Reads.ite {c : Prop} [Decidable c] {y : Except Trace α} (hx : Reads x) (hy : Reads y) :
    Reads (if c then x else y) := by
  split_ifs
  · exact hx
  · exact hy

theorem Reads.map {g : α → β} (hx : Reads x) : Reads (x.map g) :=
  fun t h => hx t (Except.map_eq_error_iff.1 h)

theorem Reads.mapM {as : List α} (hf : ∀ a, Reads (f a)) : Reads (as.mapM f) := by
  intro t h
  obtain ⟨a, -, ha⟩ := Except.exists_of_mapM_eq_error h
  exact hf a t ha

theorem isMisreading_fault (name : String) : IsMisreading (fault name) := .inl rfl

theorem reads_badToken : Reads (badToken : Except Trace α) := .error (isMisreading_fault _)

end Reads

/-! ### Scalars -/

theorem reads_ignoreLine (p : Place) : Reads p.ignoreLine := by
  unfold Place.ignoreLine
  dsimp only
  split_ifs
  · exact .ok _
  · exact reads_badToken
  · exact .ok _
  · exact reads_badToken

theorem reads_quotedBreaks (n : ℕ) (breaks : List Char) (p : Place) :
    Reads (quotedBreaks n breaks p) := by
  induction n generalizing breaks p with
  | zero => exact .ok _
  | succ n ih =>
    rw [quotedBreaks]
    split_ifs
    · exact reads_badToken
    · dsimp only
      split
      · exact .ok _
      · exact ih _ _

theorem reads_quotedSpaces (p : Place) : Reads (quotedSpaces p) := by
  unfold quotedSpaces
  dsimp only
  split_ifs
  · exact reads_badToken
  · split
    · exact .ok _
    · exact (reads_quotedBreaks _ _ _).bind fun _ => .ok _

/-- A number beyond the last character is no character. -/
theorem reads_numbered (n : ℕ) : Reads (numbered n) := by
  unfold numbered
  split_ifs
  · exact .ok _
  · exact .error (.inr (by decide))
  · exact .error (.inr (by decide))

theorem reads_escaped (p : Place) : Reads (escaped p) := by
  unfold escaped
  split
  · exact reads_badToken
  · split
    · exact .ok _
    · dsimp only
      split_ifs
      · exact (reads_numbered _).bind fun _ => .ok _
      · exact reads_badToken
    · split_ifs
      · exact reads_quotedBreaks _ _ _
      · exact reads_badToken

theorem reads_quotedScalar (double : Bool) (n : ℕ) (text : List Char) (p : Place) :
    Reads (quotedScalar double n text p) := by
  induction n generalizing text p with
  | zero => exact reads_badToken
  | succ n ih =>
    rw [quotedScalar]
    split
    · exact reads_badToken
    · split_ifs
      · exact .ok _
      · exact (reads_escaped _).bind fun _ => ih _ _
      · exact (reads_quotedSpaces _).bind fun _ => ih _ _
      · exact ih _ _
      · exact ih _ _
      · exact .ok _
      · exact (reads_quotedSpaces _).bind fun _ => ih _ _
      · exact ih _ _

theorem reads_indentMark (p : Place) : Reads (indentMark p) := by
  unfold indentMark
  split
  · split_ifs
    · exact reads_badToken
    · exact .ok _
    · exact .ok _
  · exact .ok _

theorem reads_blockMarks (p : Place) : Reads (blockMarks p) := by
  have hend : ∀ (a : Chomping × Option ℕ) (q : Place),
      Reads (if endsField q.head then pure (a.1, a.2, q) else badToken) := by
    intro a q
    split_ifs
    · exact .ok _
    · exact reads_badToken
  unfold blockMarks
  split
  · exact (reads_indentMark _).bind fun _ => hend (_, _) _
  · refine (reads_indentMark _).bind fun _ => ?_
    dsimp only
    split
    · exact (Reads.ok _).bind fun _ => hend (_, _) _
    · exact (Reads.ok _).bind fun _ => hend (_, _) _

theorem reads_blockScalar (fold : Bool) (outer : ℤ) (p : Place) :
    Reads (blockScalar fold outer p) := by
  unfold blockScalar
  refine (reads_blockMarks p).bind fun _ => (reads_ignoreLine _).bind fun _ => .ok _

/-! ### Tokens -/

namespace Scanning

theorem reads_dropStaleKeys (s : Scanning) : Reads s.dropStaleKeys := by
  unfold dropStaleKeys
  dsimp only
  split_ifs
  · exact reads_badToken
  · exact .ok _

theorem reads_dropKey (s : Scanning) : Reads s.dropKey := by
  unfold dropKey
  split
  · split_ifs
    · exact reads_badToken
    · exact .ok _
  · exact .ok _

theorem reads_saveKey (s : Scanning) : Reads s.saveKey := by
  unfold saveKey
  split_ifs
  · exact (reads_dropKey _).bind fun _ => .ok _
  · exact .ok _

theorem reads_separator (s : Scanning) (t : Token) : Reads (s.separator t) :=
  (reads_dropKey _).bind fun _ => .ok _

theorem reads_flowStart (s : Scanning) (t : Token) : Reads (s.flowStart t) :=
  (reads_saveKey _).bind fun _ => .ok _

theorem reads_flowEnd (s : Scanning) (t : Token) : Reads (s.flowEnd t) :=
  (reads_dropKey _).bind fun _ => .ok _

theorem reads_flowComma (s : Scanning) : Reads s.flowComma :=
  (reads_dropKey _).bind fun _ => .ok _

theorem reads_hyphen (s : Scanning) : Reads s.hyphen := by
  unfold hyphen
  split
  · exact reads_badToken
  · exact (reads_dropKey _).bind fun _ => .ok _

theorem reads_question (s : Scanning) : Reads s.question := by
  unfold question
  split
  · exact reads_badToken
  · exact (reads_dropKey _).bind fun _ => .ok _

theorem reads_colon (s : Scanning) : Reads s.colon := by
  unfold colon
  split
  · exact .ok _
  · split
    · exact reads_badToken
    · exact (reads_dropKey _).bind fun _ => .ok _

theorem reads_anchorName (p : Place) : Reads (anchorName p) := by
  unfold anchorName
  dsimp only
  split_ifs
  · exact reads_badToken
  · exact .ok _
  · exact reads_badToken

theorem reads_escapedBytes (n : ℕ) (bytes : Text.Utf8.Bytes) (p : Place) :
    Reads (escapedBytes n bytes p) := by
  induction n generalizing bytes p with
  | zero => exact .ok _
  | succ n ih =>
    rw [escapedBytes]
    dsimp only
    split_ifs
    · exact ih _ _
    · exact reads_badToken
    · exact .ok _

theorem reads_tagText (n : ℕ) (text : List Char) (p : Place) : Reads (tagText n text p) := by
  induction n generalizing text p with
  | zero => exact .ok _
  | succ n ih =>
    rw [tagText]
    split
    · split_ifs
      · refine (reads_escapedBytes _ _ _).bind fun _ => ?_
        dsimp only
        split
        · exact ih _ _
        · exact reads_badToken
      · exact ih _ _
      · exact .ok _
    · exact .ok _

theorem reads_tagSuffix (p : Place) : Reads (tagSuffix p) := by
  refine (reads_tagText _ _ _).bind fun _ => ?_
  dsimp only
  split_ifs
  · exact reads_badToken
  · exact .ok _

theorem reads_tagHandle (p : Place) : Reads (tagHandle p) := by
  unfold tagHandle
  dsimp only
  split_ifs
  · exact reads_badToken
  · exact .ok _
  · exact .ok _
  · exact reads_badToken

theorem reads_tagToken (p : Place) : Reads (tagToken p) := by
  have hend : ∀ r : Token × Place,
      Reads (if endsField r.2.head then pure (r.1, r.2) else badToken) := by
    intro r
    split_ifs
    · exact .ok _
    · exact reads_badToken
  unfold tagToken
  dsimp only
  split_ifs
  · refine (reads_tagSuffix _).bind fun _ => ?_
    split_ifs
    · exact (Reads.ok _).bind hend
    · exact reads_badToken.bind hend
  · exact (Reads.ok _).bind hend
  · exact (reads_tagHandle _).bind fun _ => (reads_tagSuffix _).bind fun _ =>
      (Reads.ok _).bind hend
  · exact (reads_tagSuffix _).bind fun _ => (Reads.ok _).bind hend

theorem reads_directiveNumber (p : Place) : Reads (directiveNumber p) := by
  unfold directiveNumber
  dsimp only
  split_ifs
  · exact reads_badToken
  · exact .ok _

theorem reads_directiveToken (p : Place) : Reads (directiveToken p) := by
  have hend : ∀ r : Token × Place, Reads (do
      let p ← r.2.ignoreLine
      pure (r.1, p)) := fun r => (reads_ignoreLine _).bind fun _ => .ok _
  unfold directiveToken
  dsimp only
  split_ifs
  · exact reads_badToken
  · refine (reads_directiveNumber _).bind fun _ => ?_
    split_ifs
    · refine (reads_directiveNumber _).bind fun _ => ?_
      split_ifs
      · exact (Reads.ok _).bind hend
      · exact reads_badToken.bind hend
    · exact reads_badToken.bind hend
  · refine (reads_tagHandle _).bind fun _ => ?_
    split_ifs
    · refine (reads_tagSuffix _).bind fun _ => ?_
      split_ifs
      · exact (Reads.ok _).bind hend
      · exact reads_badToken.bind hend
    · exact reads_badToken.bind hend
  · exact (Reads.ok _).bind hend

theorem reads_keyLike (s : Scanning) {read : Place → Except Trace (Token × Place)}
    (hread : ∀ p, Reads (read p)) : Reads (s.keyLike read) :=
  (reads_saveKey _).bind fun _ => (hread _).bind fun _ => .ok _

theorem reads_plain (s : Scanning) : Reads s.plain :=
  (reads_saveKey _).bind fun _ => .ok _

theorem reads_next (s : Scanning) (c : Char) : Reads (s.next c) := by
  unfold next
  repeat' with_reducible refine .ite ?_ ?_
  · exact (reads_dropKey _).bind fun _ => (reads_directiveToken _).bind fun _ => .ok _
  · exact reads_separator _ _
  · exact reads_flowStart _ _
  · exact reads_flowStart _ _
  · exact reads_flowEnd _ _
  · exact reads_flowEnd _ _
  · exact reads_flowComma _
  · exact reads_hyphen _
  · exact reads_question _
  · exact reads_colon _
  · exact reads_keyLike _ fun _ => (reads_anchorName _).bind fun _ => .ok _
  · exact reads_keyLike _ fun _ => (reads_anchorName _).bind fun _ => .ok _
  · exact reads_keyLike _ reads_tagToken
  · exact (reads_dropKey _).bind fun _ => (reads_blockScalar _ _ _).bind fun _ => .ok _
  · exact reads_keyLike _ fun _ => (reads_quotedScalar _ _ _ _).bind fun _ => .ok _
  · exact reads_plain _
  · exact reads_badToken

/-- When the tokens end early, the text is misread there. -/
theorem isMisreading_of_run {n : ℕ} {s : Scanning} {t : Trace} (h : (run n s).2 = some t) :
    IsMisreading t := by
  induction n generalizing s with
  | zero =>
    cases h
    exact isMisreading_fault _
  | succ n ih =>
    rw [run] at h
    dsimp only at h
    split at h
    · rename_i hstale
      cases h
      exact reads_dropStaleKeys _ _ hstale
    · split at h
      · split at h
        · rename_i hkey
          cases h
          exact reads_dropKey _ _ hkey
        · cases h
      · split at h
        · rename_i hnext
          cases h
          exact reads_next _ _ _ hnext
        · exact ih h

end Scanning

theorem Token.isMisreading_of_ofText {text : String} {t : Trace}
    (h : (Token.ofText text).2 = some t) : IsMisreading t := by
  unfold Token.ofText at h
  dsimp only at h
  split_ifs at h
  · exact Scanning.isMisreading_of_run h
  · exact Scanning.isMisreading_of_run h
  · cases h
    exact isMisreading_fault _

end CodeHighlight.Yaml
