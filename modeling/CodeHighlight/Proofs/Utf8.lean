import CodeHighlight.Text.Utf8
import Mathlib

/-!
# Reading and writing UTF-8

What `decode` accepts is what `encode` writes: the bytes that were read are the bytes of the text
that was read from them (`ofString_of_decode`), and a string is determined by its bytes
(`ofString_injective`). The other way round, what `encode` writes is read back by both readers
(`decode_ofString`, `decodeLossy_ofString`), so that the bytes between two character boundaries can
be read (`exists_slice_eq_ofString`), and no others (`exists_decode_slice_iff`).

The forms of one, two, three and four bytes are inverted one by one (`write_one`, …, `write_four`);
the conditions on the second byte exclude longer forms and surrogates, so the code point of a form
is a character whose own form has the same length.
-/

namespace CodeHighlight.Text.Utf8

theorem encode_append (cs ds : List Char) : encode (cs ++ ds) = encode cs ++ encode ds :=
  List.flatMap_append

@[simp] theorem ofString_empty : ofString "" = [] := rfl

@[simp] theorem ofString_append (s t : String) : ofString (s ++ t) = ofString s ++ ofString t := by
  rw [ofString, String.toList_append, encode_append]; rfl

/-- A string is determined by its bytes. -/
theorem ofString_injective : Function.Injective ofString := by
  intro s t h
  have bytes (u : String) : u.toByteArray = (ofString u).toByteArray := by
    rw [← String.utf8Encode_toList]; rfl
  rw [← String.toByteArray_inj, bytes s, bytes t, h]

/-! ### One character -/

theorem toNat_ofNat {n : ℕ} (h : n.isValidChar) : (Char.ofNat n).val.toNat = n := by
  simp only [Char.ofNat, h, dif_pos, Char.ofNatAux]
  rfl

theorem ofNat_eq {n : ℕ} {b : UInt8} (h : n = b.toNat) : UInt8.ofNat n = b := by
  rw [h, UInt8.ofNat_toNat]

theorem isContinuation_iff {b : UInt8} :
    isContinuation b = true ↔ 0x80 ≤ b.toNat ∧ b.toNat < 0xc0 := by
  simp [isContinuation, UInt8.le_iff_toNat_le, UInt8.lt_iff_toNat_lt]

theorem isSecondOfThree_iff {a b : UInt8} :
    isSecondOfThree a b = true ↔ (0x80 ≤ b.toNat ∧ b.toNat < 0xc0) ∧
      (a.toNat = 0xe0 → 0xa0 ≤ b.toNat) ∧ (a.toNat = 0xed → b.toNat < 0xa0) := by
  rw [← isContinuation_iff]
  simp [isSecondOfThree, UInt8.le_iff_toNat_le, UInt8.lt_iff_toNat_lt, ← UInt8.toNat_inj, and_assoc,
    imp_iff_not_or]

theorem isSecondOfFour_iff {a b : UInt8} :
    isSecondOfFour a b = true ↔ (0x80 ≤ b.toNat ∧ b.toNat < 0xc0) ∧
      (a.toNat = 0xf0 → 0x90 ≤ b.toNat) ∧ (a.toNat = 0xf4 → b.toNat < 0x90) := by
  rw [← isContinuation_iff]
  simp [isSecondOfFour, UInt8.le_iff_toNat_le, UInt8.lt_iff_toNat_lt, ← UInt8.toNat_inj, and_assoc,
    imp_iff_not_or]

theorem write_one {a : UInt8} (ha : a.toNat < 0x80) :
    String.utf8EncodeChar (Char.ofNat a.toNat) = [a] := by
  have valid : a.toNat.isValidChar := Or.inl (by omega)
  simp only [String.utf8EncodeChar, toNat_ofNat valid]
  rw [if_pos (by omega), UInt8.ofNat_toNat]

theorem write_two {a b : UInt8} (ha : 0xc2 ≤ a.toNat) (ha' : a.toNat < 0xe0)
    (hb : isContinuation b = true) :
    String.utf8EncodeChar (Char.ofNat (a.toNat % 32 * 64 + payload b)) = [a, b] := by
  rw [isContinuation_iff] at hb
  unfold payload
  have valid : (a.toNat % 32 * 64 + b.toNat % 64).isValidChar := Or.inl (by omega)
  simp only [String.utf8EncodeChar, toNat_ofNat valid]
  rw [if_neg (by omega), if_pos (by omega)]
  congr 2
  all_goals exact ofNat_eq (by omega)

theorem write_three {a b c : UInt8} (ha : 0xe0 ≤ a.toNat) (ha' : a.toNat < 0xf0)
    (hb : isSecondOfThree a b = true) (hc : isContinuation c = true) :
    String.utf8EncodeChar (Char.ofNat (a.toNat % 16 * 4096 + payload b * 64 + payload c))
      = [a, b, c] := by
  rw [isSecondOfThree_iff] at hb
  rw [isContinuation_iff] at hc
  unfold payload
  have valid : (a.toNat % 16 * 4096 + b.toNat % 64 * 64 + c.toNat % 64).isValidChar := by
    unfold Nat.isValidChar; omega
  simp only [String.utf8EncodeChar, toNat_ofNat valid]
  rw [if_neg (by omega), if_neg (by omega), if_pos (by omega)]
  congr 2
  · exact ofNat_eq (by omega)
  · exact ofNat_eq (by omega)
  · congr 1; exact ofNat_eq (by omega)

theorem write_four {a b c d : UInt8} (ha : 0xf0 ≤ a.toNat) (ha' : a.toNat < 0xf5)
    (hb : isSecondOfFour a b = true) (hc : isContinuation c = true)
    (hd : isContinuation d = true) :
    String.utf8EncodeChar
        (Char.ofNat (a.toNat % 8 * 262144 + payload b * 4096 + payload c * 64 + payload d))
      = [a, b, c, d] := by
  rw [isSecondOfFour_iff] at hb
  rw [isContinuation_iff] at hc hd
  unfold payload
  have valid : (a.toNat % 8 * 262144 + b.toNat % 64 * 4096 + c.toNat % 64 * 64
      + d.toNat % 64).isValidChar := by
    unfold Nat.isValidChar; omega
  simp only [String.utf8EncodeChar, toNat_ofNat valid]
  rw [if_neg (by omega), if_neg (by omega), if_neg (by omega)]
  congr 2
  · exact ofNat_eq (by omega)
  · exact ofNat_eq (by omega)
  · congr 2 <;> exact ofNat_eq (by omega)

/-- A step that reads a character has read the bytes that write it. -/
theorem write_of_step {first : UInt8} {rest : Bytes} {c : Char} {extra : ℕ}
    (h : step first rest = .char c extra) :
    first :: rest.take extra = String.utf8EncodeChar c := by
  unfold step at h
  simp only [UInt8.lt_iff_toNat_lt, UInt8.reduceToNat] at h
  split_ifs at h with h1 h2 h3 h4 h5
  · cases h
    exact (write_one h1).symm
  · -- two bytes
    split at h
    · cases h
    · split_ifs at h with hb
      cases h
      exact (write_two (by omega) h3 hb).symm
  · -- three bytes
    split at h
    · cases h
    · split_ifs at h
    · split_ifs at h with hb hc
      cases h
      exact (write_three (by omega) h4 (by simpa using hb) (by simpa using hc)).symm
  · -- four bytes
    split at h
    · cases h
    · split_ifs at h
    · split_ifs at h
    · split_ifs at h with hb hc hd
      cases h
      exact (write_four (by omega) h5 (by simpa using hb) (by simpa using hc)
        (by simpa using hd)).symm

/-! ### Texts -/

theorem encode_of_decodeFrom {position : ℕ} {bs : Bytes} {cs : List Char}
    (h : decodeFrom position bs = .ok cs) : encode cs = bs := by
  fun_induction decodeFrom position bs generalizing cs with
  | case1 position => cases h; rfl
  | case2 position first rest c extra hs ds hd ih =>
    cases h
    calc encode (c :: ds) = String.utf8EncodeChar c ++ encode ds := rfl
      _ = (first :: rest.take extra) ++ rest.drop extra := by rw [write_of_step hs, ih hd]
      _ = first :: rest := by rw [List.cons_append, List.take_append_drop]
  | case3 => cases h
  | case4 => cases h

/-- Bytes that were read as a string are the bytes of that string. -/
theorem ofString_of_decode {bs : Bytes} {s : String} (h : decode bs = .ok s) :
    ofString s = bs := by
  unfold decode at h
  cases hd : decodeFrom 0 bs with
  | error e => rw [hd] at h; cases h
  | ok cs =>
    rw [hd] at h
    cases h
    rw [ofString, String.toList_ofList]
    exact encode_of_decodeFrom hd

/-! ### Reading what was written -/

section Reading

variable {a b c d : UInt8} {rest : Bytes}

theorem step_one (ha : a.toNat < 0x80) : step a rest = .char (Char.ofNat a.toNat) 0 := by
  simp [step, UInt8.lt_iff_toNat_lt, ha]

theorem step_two (ha : 0xc2 ≤ a.toNat) (ha' : a.toNat < 0xe0) (hb : isContinuation b = true) :
    step a (b :: rest) = .char (Char.ofNat (a.toNat % 32 * 64 + payload b)) 1 := by
  simp only [step, UInt8.lt_iff_toNat_lt, UInt8.reduceToNat]
  rw [if_neg (by omega), if_neg (by omega), if_pos ha', if_pos hb]

theorem step_three (ha : 0xe0 ≤ a.toNat) (ha' : a.toNat < 0xf0)
    (hb : isSecondOfThree a b = true) (hc : isContinuation c = true) :
    step a (b :: c :: rest) =
      .char (Char.ofNat (a.toNat % 16 * 4096 + payload b * 64 + payload c)) 2 := by
  simp only [step, UInt8.lt_iff_toNat_lt, UInt8.reduceToNat]
  rw [if_neg (by omega), if_neg (by omega), if_neg (by omega), if_pos ha']
  simp [hb, hc]

theorem step_four (ha : 0xf0 ≤ a.toNat) (ha' : a.toNat < 0xf5)
    (hb : isSecondOfFour a b = true) (hc : isContinuation c = true)
    (hd : isContinuation d = true) :
    step a (b :: c :: d :: rest) =
      .char (Char.ofNat (a.toNat % 8 * 262144 + payload b * 4096 + payload c * 64 + payload d))
        3 := by
  simp only [step, UInt8.lt_iff_toNat_lt, UInt8.reduceToNat]
  rw [if_neg (by omega), if_neg (by omega), if_neg (by omega), if_neg (by omega), if_pos ha']
  simp [hb, hc, hd]

/-- A step reads the character that was written, and no more. -/
theorem exists_step_eq_char (c : Char) (rest : Bytes) :
    ∃ first tail, String.utf8EncodeChar c = first :: tail ∧
      step first (tail ++ rest) = .char c tail.length := by
  have valid : c.val.toNat.isValidChar := c.valid
  have hc (n : ℕ) (h : n = c.val.toNat) : Char.ofNat n = c := by
    rw [h]
    exact Char.ofNat_toNat c
  unfold String.utf8EncodeChar
  dsimp only
  unfold Nat.isValidChar at valid
  set v := c.val.toNat
  split_ifs with h1 h2 h3
  · refine ⟨_, [], rfl, ?_⟩
    rw [step_one (by rw [UInt8.toNat_ofNat']; omega), hc _ (by rw [UInt8.toNat_ofNat']; omega)]
    rfl
  · refine ⟨_, [_], rfl, ?_⟩
    rw [List.singleton_append, step_two]
    · rw [hc _ (by simp only [payload, UInt8.toNat_ofNat']; omega)]
      rfl
    · rw [UInt8.toNat_ofNat']; omega
    · rw [UInt8.toNat_ofNat']; omega
    · rw [isContinuation_iff, UInt8.toNat_ofNat']; omega
  · refine ⟨_, [_, _], rfl, ?_⟩
    rw [List.cons_append, List.singleton_append, step_three]
    · rw [hc _ (by simp only [payload, UInt8.toNat_ofNat']; omega)]
      rfl
    · rw [UInt8.toNat_ofNat']; omega
    · rw [UInt8.toNat_ofNat']; omega
    · simp only [isSecondOfThree_iff, UInt8.toNat_ofNat']; omega
    · rw [isContinuation_iff, UInt8.toNat_ofNat']; omega
  · refine ⟨_, [_, _, _], rfl, ?_⟩
    rw [List.cons_append, List.cons_append, List.singleton_append, step_four]
    · rw [hc _ (by simp only [payload, UInt8.toNat_ofNat']; omega)]
      rfl
    · rw [UInt8.toNat_ofNat']; omega
    · rw [UInt8.toNat_ofNat']; omega
    · simp only [isSecondOfFour_iff, UInt8.toNat_ofNat']; omega
    · rw [isContinuation_iff, UInt8.toNat_ofNat']; omega
    · rw [isContinuation_iff, UInt8.toNat_ofNat']; omega

theorem encode_cons (c : Char) (cs : List Char) :
    encode (c :: cs) = String.utf8EncodeChar c ++ encode cs := rfl

/-- The bytes of a text are read as the text. -/
theorem decodeFrom_encode (cs : List Char) (position : ℕ) :
    decodeFrom position (encode cs) = .ok cs := by
  induction cs generalizing position with
  | nil => simp [encode, decodeFrom]
  | cons c cs ih =>
    obtain ⟨first, tail, hchar, hstep⟩ := exists_step_eq_char c (encode cs)
    rw [encode_cons, hchar, List.cons_append, decodeFrom, hstep]
    simp [ih]

theorem decodeLossyList_encode (cs : List Char) : decodeLossyList (encode cs) = cs := by
  induction cs with
  | nil => simp [encode, decodeLossyList]
  | cons c cs ih =>
    obtain ⟨first, tail, hchar, hstep⟩ := exists_step_eq_char c (encode cs)
    rw [encode_cons, hchar, List.cons_append, decodeLossyList, hstep]
    simp [ih]

end Reading

/-- Bytes of a text are read as that text. -/
theorem decode_ofString (s : String) : decode (ofString s) = .ok s := by
  rw [decode, ofString, decodeFrom_encode, Except.map, String.ofList_toList]

theorem decodeLossy_ofString (s : String) : decodeLossy (ofString s) = s := by
  rw [decodeLossy, ofString, decodeLossyList_encode, String.ofList_toList]

/-! ### Boundaries -/

/-- The position stands between two characters of a text, or at one of its ends. -/
def IsBoundary (s : String) (i : ℤ) : Prop :=
  ∃ before after, s.toList = before ++ after ∧ i = (encode before).length

/-- A boundary stands behind the first characters, however many they are. -/
theorem isBoundary_iff {s : String} {i : ℤ} : IsBoundary s i ↔
    ∃ k ∈ List.range (s.toList.length + 1), i = ((encode (s.toList.take k)).length : ℤ) := by
  constructor
  · rintro ⟨before, after, hs, hi⟩
    refine ⟨before.length, ?_, ?_⟩
    · rw [hs, List.length_append, List.mem_range]
      omega
    · rw [hs, List.take_left, hi]
  · rintro ⟨k, -, hk⟩
    exact ⟨_, _, (List.take_append_drop k s.toList).symm, hk⟩

instance (s : String) (i : ℤ) : Decidable (IsBoundary s i) := decidable_of_iff' _ isBoundary_iff

section Boundaries

variable {s : String} {i j : ℕ}

theorem length_utf8EncodeChar_pos (c : Char) : 0 < (String.utf8EncodeChar c).length := by
  obtain ⟨first, tail, hchar, -⟩ := exists_step_eq_char c []
  rw [hchar]
  exact Nat.succ_pos _

theorem encode_eq_nil {cs : List Char} (h : encode cs = []) : cs = [] := by
  cases cs with
  | nil => rfl
  | cons c cs =>
    have hpos := length_utf8EncodeChar_pos c
    rw [encode_cons, List.append_eq_nil_iff] at h
    simp [h.1] at hpos

/-- A boundary lies within the bytes of the text. -/
theorem IsBoundary.exists_nat {i : ℤ} (h : IsBoundary s i) :
    ∃ k : ℕ, i = k ∧ k ≤ (ofString s).length := by
  obtain ⟨before, after, hs, rfl⟩ := h
  refine ⟨_, rfl, ?_⟩
  rw [ofString, hs, encode_append, List.length_append]
  omega

theorem isBoundary_zero (s : String) : IsBoundary s 0 := ⟨[], s.toList, rfl, rfl⟩

theorem isBoundary_length (s : String) : IsBoundary s (ofString s).length :=
  ⟨s.toList, [], by simp, rfl⟩

/-- The bytes between two boundaries are those of a text. -/
theorem exists_slice_eq_ofString (hi : IsBoundary s i) (hj : IsBoundary s j) (hij : i ≤ j) :
    ∃ t, slice (ofString s) i j = ofString t := by
  obtain ⟨p, q, hpq, hp⟩ := hi
  obtain ⟨p', q', hpq', hp'⟩ := hj
  have hi' : i = (encode p).length := by exact_mod_cast hp
  have hj' : j = (encode p').length := by exact_mod_cast hp'
  -- what lies before the first boundary is a part of what lies before the second one
  obtain ⟨m, rfl, rfl⟩ : ∃ m, p' = p ++ m ∧ q = m ++ q' := by
    rcases List.append_eq_append_iff.1 (hpq.symm.trans hpq') with ⟨m, hm, hq⟩ | ⟨m, hm, hq⟩
    · exact ⟨m, hm, hq⟩
    · have hlen := congrArg (fun cs => (encode cs).length) hm
      simp only [encode_append, List.length_append] at hlen
      have hnil : m = [] := encode_eq_nil (List.length_eq_zero_iff.1 (by omega))
      subst hnil
      exact ⟨[], by simpa using hm.symm, by simpa using hq.symm⟩
  refine ⟨String.ofList m, ?_⟩
  rw [encode_append, List.length_append] at hj'
  rw [ofString, hpq, encode_append, encode_append, slice, hi', List.drop_left, ← hi',
    show j - i = (encode m).length by omega, List.take_left, ofString, String.toList_ofList]

end Boundaries

/-! ### What can be read -/

/-- The first byte of a character does not continue a sequence, and its other bytes do. -/
theorem exists_isContinuation (c : Char) :
    ∃ first tail, String.utf8EncodeChar c = first :: tail ∧ isContinuation first = false ∧
      ∀ b ∈ tail, isContinuation b = true := by
  have valid : c.val.toNat.isValidChar := c.valid
  unfold String.utf8EncodeChar
  dsimp only
  unfold Nat.isValidChar at valid
  set v := c.val.toNat
  simp only [← Bool.not_eq_true, isContinuation_iff]
  split_ifs with h1 h2 h3
  · refine ⟨_, [], rfl, ?_, by simp⟩
    rw [UInt8.toNat_ofNat']; omega
  · refine ⟨_, [_], rfl, ?_, ?_⟩
    · rw [UInt8.toNat_ofNat']; omega
    · simp only [List.forall_mem_singleton, UInt8.toNat_ofNat']; omega
  · refine ⟨_, [_, _], rfl, ?_, ?_⟩
    · rw [UInt8.toNat_ofNat']; omega
    · simp only [List.mem_pair, forall_eq_or_imp, forall_eq, UInt8.toNat_ofNat']; omega
  · refine ⟨_, [_, _, _], rfl, ?_, ?_⟩
    · rw [UInt8.toNat_ofNat']; omega
    · simp only [List.mem_cons, forall_eq_or_imp, forall_eq, UInt8.toNat_ofNat',
        List.not_mem_nil, or_false]
      omega

/-- A byte of a text that does not continue a sequence starts a character. -/
theorem exists_split_of_not_isContinuation {cs : List Char} {i : ℕ} {b : UInt8}
    (hb : (encode cs)[i]? = some b) (hn : isContinuation b = false) :
    ∃ before after, cs = before ++ after ∧ (encode before).length = i := by
  induction cs generalizing i with
  | nil => simp [encode] at hb
  | cons c cs ih =>
    rcases Nat.eq_zero_or_pos i with rfl | hi
    · exact ⟨[], c :: cs, rfl, rfl⟩
    rw [encode_cons] at hb
    rcases Nat.lt_or_ge i (String.utf8EncodeChar c).length with hlt | hge
    · -- the byte is one of those behind the first of the character
      obtain ⟨first, tail, hchar, -, htail⟩ := exists_isContinuation c
      obtain ⟨k, rfl⟩ : ∃ k, i = k + 1 := ⟨i - 1, by omega⟩
      rw [List.getElem?_append_left hlt, hchar, List.getElem?_cons_succ] at hb
      rw [htail b (List.mem_of_getElem? hb)] at hn
      cases hn
    · rw [List.getElem?_append_right hge] at hb
      obtain ⟨before, after, rfl, hlen⟩ := ih hb
      refine ⟨c :: before, after, rfl, ?_⟩
      rw [encode_cons, List.length_append, hlen]
      omega

/-- A text whose bytes start those of another text starts that text. -/
theorem exists_append_of_encode {cs ds : List Char} {rest : Bytes}
    (h : encode cs = encode ds ++ rest) : ∃ es, cs = ds ++ es := by
  induction ds generalizing cs with
  | nil => exact ⟨cs, rfl⟩
  | cons d ds ih =>
    rw [encode_cons, List.append_assoc] at h
    cases cs with
    | nil =>
      have hpos := length_utf8EncodeChar_pos d
      have hnil := (List.append_eq_nil_iff.1 h.symm).1
      simp [hnil] at hpos
    | cons c cs =>
      -- one step reads the first characters of both texts
      obtain ⟨b, tail, hc, hstep⟩ := exists_step_eq_char c (encode cs)
      obtain ⟨b', tail', hd, hstep'⟩ := exists_step_eq_char d (encode ds ++ rest)
      rw [encode_cons, hc, hd, List.cons_append, List.cons_append, List.cons.injEq] at h
      rw [h.1, h.2, hstep'] at hstep
      obtain rfl : d = c := (Step.char.inj hstep).1
      rw [hc] at hd
      cases hd
      obtain ⟨es, rfl⟩ := ih (List.append_cancel_left h.2)
      exact ⟨es, rfl⟩

/-- **The bytes between two positions can be read** exactly when both are boundaries. -/
theorem exists_decode_slice_iff {s : String} {i j : ℕ} (hij : i < j)
    (hj : j ≤ (ofString s).length) :
    (∃ t, decode (slice (ofString s) i j) = .ok t) ↔ IsBoundary s i ∧ IsBoundary s j := by
  constructor
  · rintro ⟨t, ht⟩
    have hbytes : ofString t = slice (ofString s) i j := ofString_of_decode ht
    have hlength : (ofString t).length = j - i := by
      rw [hbytes, slice, List.length_take, List.length_drop]
      omega
    -- the first byte of the text that was read starts a character
    obtain ⟨p, q, hpq, hp⟩ : ∃ p q, s.toList = p ++ q ∧ (encode p).length = i := by
      cases hcs : t.toList with
      | nil =>
        rw [ofString, hcs] at hlength
        simp [encode] at hlength
        omega
      | cons c cs =>
        obtain ⟨first, tail, hchar, hfirst, -⟩ := exists_isContinuation c
        refine exists_split_of_not_isContinuation (b := first) ?_ hfirst
        have hhead : (slice (ofString s) i j)[0]? = some first := by
          rw [← hbytes, ofString, hcs, encode_cons, hchar]
          rfl
        rw [slice, List.getElem?_take_of_lt (by omega), List.getElem?_drop] at hhead
        exact hhead
    refine ⟨⟨p, q, hpq, by rw [hp]⟩, ?_⟩
    -- the text that was read stands there
    have hdrop : encode q = encode t.toList ++ (encode q).drop (j - i) := by
      have hq : slice (ofString s) i j = (encode q).take (j - i) := by
        rw [slice, ofString, hpq, encode_append, ← hp, List.drop_left]
      have htake : encode t.toList = (encode q).take (j - i) := by
        rw [← hq, ← hbytes]
        rfl
      rw [htake, List.take_append_drop]
    obtain ⟨r, rfl⟩ := exists_append_of_encode hdrop
    refine ⟨p ++ t.toList, r, by rw [hpq, List.append_assoc], ?_⟩
    have hsum : (encode (p ++ t.toList)).length = i + (j - i) := by
      rw [encode_append, List.length_append, hp, ← hlength]
      rfl
    omega
  · rintro ⟨hi, hj'⟩
    obtain ⟨t, ht⟩ := exists_slice_eq_ofString hi hj' hij.le
    exact ⟨t, by rw [ht, decode_ofString]⟩

/-- In a text of one-byte characters every position is a boundary. -/
theorem isBoundary_of_ascii {s : String} (h : ∀ c ∈ s.toList, c.toNat < 0x80) {i : ℕ}
    (hi : i ≤ (ofString s).length) : IsBoundary s i := by
  have hlength (cs : List Char) (hcs : ∀ c ∈ cs, c.toNat < 0x80) :
      (encode cs).length = cs.length := by
    induction cs with
    | nil => rfl
    | cons c cs ih =>
      rw [List.forall_mem_cons] at hcs
      have hone : (String.utf8EncodeChar c).length = 1 := by
        have hc : c.toNat ≤ 0x7f := Nat.le_of_lt_succ hcs.1
        simp [String.utf8EncodeChar, hc]
      rw [encode_cons, List.length_append, hone, ih hcs.2, List.length_cons]
      omega
  rw [ofString, hlength _ h] at hi
  refine ⟨s.toList.take i, s.toList.drop i, (List.take_append_drop i _).symm, ?_⟩
  rw [hlength _ fun c hc => h c (List.mem_of_mem_take hc), List.length_take, min_eq_left hi]

end CodeHighlight.Text.Utf8
