import CodeHighlight.Proofs.Outcomes
import CodeHighlight.Text.Wide

/-!
# Texts and their bytes

A text has bytes exactly when it is a string, and these are the bytes of the string
(`encode_eq_ok_iff`). Otherwise a half of a surrogate pair stands somewhere in it, and writing it
fails (`kind_of_encode_eq_error`).
-/

namespace CodeHighlight.Text.Wide
open Utf8 (Bytes)

variable {s s' : String} {t : Wide}

@[simp] theorem ofString_empty : ofString "" = [] := by simp [ofString]

@[simp] theorem ofString_append (s s' : String) :
    ofString (s ++ s') = ofString s ++ ofString s' := by
  simp [ofString]

theorem ofString_injective : Function.Injective ofString := by
  intro s s' h
  exact String.toList_inj.1 (List.map_injective_iff.2 (fun _ _ => CodePoint.char.inj) h)

@[simp] theorem ofString_inj : ofString s = ofString s' ↔ s = s' := ofString_injective.eq_iff

@[simp] theorem ofString_eq_nil_iff : ofString s = [] ↔ s = "" := by
  rw [← ofString_empty, ofString_inj]

theorem chars?_eq_some_iff {cs : List Char} : chars? t = some cs ↔ t = cs.map .char := by
  induction t generalizing cs with
  | nil => cases cs <;> simp [chars?]
  | cons p t ih =>
    cases p with
    | char c =>
      rw [chars?, Option.map_eq_some_iff]
      constructor
      · rintro ⟨cs', hcs', rfl⟩
        rw [ih.1 hcs', List.map_cons]
      · intro h
        cases cs with
        | nil => cases h
        | cons c' cs =>
          cases h
          exact ⟨cs, ih.2 rfl, rfl⟩
    | half n => cases cs <;> simp [chars?]

/-- A text is a string when it holds no half of a pair. -/
theorem toString?_eq_some_iff : t.toString? = some s ↔ t = ofString s := by
  rw [toString?, Option.map_eq_some_iff]
  constructor
  · rintro ⟨cs, hcs, rfl⟩
    rw [chars?_eq_some_iff.1 hcs, ofString, String.toList_ofList]
  · rintro rfl
    exact ⟨s.toList, chars?_eq_some_iff.2 rfl, String.ofList_toList⟩

@[simp] theorem toString?_ofString (s : String) : (ofString s).toString? = some s :=
  toString?_eq_some_iff.2 rfl

/-- **A text has bytes** exactly when it is a string. -/
theorem encode_eq_ok_iff {bs : Bytes} :
    t.encode = .ok bs ↔ ∃ s, t = ofString s ∧ Utf8.ofString s = bs := by
  unfold encode
  cases ht : t.toString? with
  | none =>
    refine iff_of_false (by simp) ?_
    rintro ⟨s, rfl, -⟩
    rw [toString?_ofString] at ht
    cases ht
  | some s =>
    rw [toString?_eq_some_iff] at ht
    subst ht
    simp

@[simp] theorem encode_ofString (s : String) : (ofString s).encode = .ok (Utf8.ofString s) :=
  encode_eq_ok_iff.2 ⟨s, rfl, rfl⟩

/-- A text that is no string cannot be written. -/
theorem encode_eq_error_iff {f : Trace} :
    t.encode = .error f ↔ t.toString? = none ∧ t.encodingFailure = f := by
  unfold encode
  cases t.toString? <;> simp

theorem kind_of_encode_eq_error {f : Trace} (h : t.encode = .error f) : f.kind = .encoding := by
  rw [← (encode_eq_error_iff.1 h).2]
  rfl

end CodeHighlight.Text.Wide
