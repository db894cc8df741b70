import CodeHighlight.Data.Entries
import Mathlib.Tactic

/-!
# Looking up entries

What a key gives after a mapping was written to. The keys need an equivalence for sameness, not
equality: a key that is written keeps its first spelling.

A mapping that was written by pairs has no two keys that are the same (`isDistinct_ofList`), and
pairs without two such keys write themselves (`update_of_isDistinct`).
-/

namespace CodeHighlight.Entries
variable {κ α : Type} [BEq κ]

@[simp] theorem get?_nil (k : κ) : get? ([] : Entries κ α) k = none := rfl

theorem get?_cons (e : κ × α) (es : Entries κ α) (k : κ) :
    get? (e :: es) k = if e.1 == k then some e.2 else get? es k := by
  unfold get?
  rw [List.find?_cons]
  cases e.1 == k <;> rfl

theorem has_eq_isSome (es : Entries κ α) (k : κ) : has es k = (get? es k).isSome := by
  induction es with
  | nil => rfl
  | cons e es ih =>
    rw [get?_cons, has, List.any_cons]
    cases e.1 == k
    · exact ih
    · rfl

/-- A written key gives what was written, all others give what they gave. -/
theorem get?_insert [EquivBEq κ] (es : Entries κ α) (k k' : κ) (v : α) :
    get? (insert es k v) k' = if k == k' then some v else get? es k' := by
  induction es with
  | nil => rw [insert, get?_cons]
  | cons e es ih =>
    obtain ⟨q, w⟩ := e
    rw [insert]
    split_ifs with hq hk hk
    · rw [get?_cons, if_pos (PartialEquivBEq.trans hq hk)]
    · have hqk : ¬(q == k') := fun h => hk (PartialEquivBEq.trans (PartialEquivBEq.symm hq) h)
      rw [get?_cons, get?_cons, if_neg hqk, if_neg hqk]
    · have hqk : ¬(q == k') := fun h => hq (PartialEquivBEq.trans h (PartialEquivBEq.symm hk))
      rw [get?_cons, if_neg hqk, ih, if_pos hk]
    · rw [get?_cons, get?_cons, ih, if_neg hk]

/-! ### Keys that occur once -/

section Distinct

variable {es new : Entries κ α} {k : κ} {v : α}

/-- No two keys are the same. -/
def IsDistinct (es : Entries κ α) : Prop := (keys es).Pairwise fun a b => (a == b) = false

theorem has_eq_any_keys (es : Entries κ α) (k : κ) : has es k = (keys es).any (· == k) := by
  rw [has, keys, List.any_map]
  rfl

theorem has_eq_false_iff : has es k = false ↔ ∀ q ∈ keys es, (q == k) = false := by
  simp [has_eq_any_keys]

theorem insert_of_not_has (h : has es k = false) : insert es k v = es ++ [(k, v)] := by
  induction es with
  | nil => rfl
  | cons e es ih =>
    obtain ⟨q, w⟩ := e
    obtain ⟨hq, hes⟩ := List.forall_mem_cons.1 (has_eq_false_iff.1 h)
    rw [insert, if_neg (by simpa using hq), ih (has_eq_false_iff.2 hes)]
    rfl

/-- A key that is new comes last, and others keep their places. -/
theorem keys_insert (es : Entries κ α) (k : κ) (v : α) :
    keys (insert es k v) = if has es k then keys es else keys es ++ [k] := by
  induction es with
  | nil => rfl
  | cons e es ih =>
    obtain ⟨q, w⟩ := e
    rw [insert, has, List.any_cons]
    by_cases hq : (q == k) = true
    · rw [if_pos hq, if_pos (by rw [hq, Bool.true_or])]
      rfl
    · rw [if_neg hq, Bool.eq_false_of_not_eq_true hq, Bool.false_or]
      show q :: keys (insert es k v) = if has es k then _ else _
      rw [ih]
      split_ifs <;> rfl

theorem IsDistinct.insert (h : IsDistinct es) (k : κ) (v : α) : IsDistinct (insert es k v) := by
  unfold IsDistinct
  rw [keys_insert]
  split_ifs with hk
  · exact h
  · refine List.pairwise_append.2 ⟨h, List.pairwise_singleton _ _, fun q hq q' hq' => ?_⟩
    obtain rfl := List.mem_singleton.1 hq'
    exact has_eq_false_iff.1 (Bool.eq_false_of_not_eq_true hk) q hq

theorem IsDistinct.update (h : IsDistinct es) (new : List (κ × α)) :
    IsDistinct (update es new) := by
  induction new generalizing es with
  | nil => exact h
  | cons e new ih => exact ih (h.insert e.1 e.2)

/-- A mapping that was written by pairs has every key once. -/
theorem isDistinct_ofList (pairs : List (κ × α)) : IsDistinct (ofList pairs) := by
  have hnil : IsDistinct ([] : Entries κ α) := List.Pairwise.nil
  exact hnil.update pairs

theorem update_of_isDistinct (h : IsDistinct (es ++ new)) : update es new = es ++ new := by
  induction new generalizing es with
  | nil => simp [update]
  | cons e new ih =>
    have hk : has es e.1 = false := by
      rw [IsDistinct, keys, List.map_append, List.map_cons] at h
      exact has_eq_false_iff.2 fun q hq =>
        (List.pairwise_append.1 h).2.2 q hq _ List.mem_cons_self
    -- the next key is new, so that its pair is appended
    have hsplit : es ++ e :: new = (es ++ [e]) ++ new := by simp
    rw [hsplit] at h ⊢
    rw [← ih h]
    show update (insert es e.1 e.2) new = update (es ++ [e]) new
    rw [insert_of_not_has hk]

/-- Pairs that have every key once write themselves. -/
theorem ofList_of_isDistinct (h : IsDistinct es) : ofList es = es := by
  have hupdate : update [] es = [] ++ es := update_of_isDistinct h
  exact hupdate

/-- Where sameness is equality, no two keys are the same when none is repeated. -/
theorem isDistinct_iff_nodup [LawfulBEq κ] : IsDistinct es ↔ (keys es).Nodup := by
  simp [IsDistinct, List.Nodup]

theorem mem_keys_insert [LawfulBEq κ] {q : κ} : q ∈ keys (insert es k v) ↔ q ∈ keys es ∨ q = k := by
  rw [keys_insert]
  split_ifs with hk
  · rw [has_eq_any_keys, List.any_eq_true] at hk
    obtain ⟨q', hq', heq⟩ := hk
    have hmem : k ∈ keys es := by rwa [← eq_of_beq heq]
    constructor
    · exact .inl
    · rintro (hq | rfl)
      · exact hq
      · exact hmem
  · rw [List.mem_append, List.mem_singleton]

theorem nodup_keys_ofList [LawfulBEq κ] (pairs : List (κ × α)) : (keys (ofList pairs)).Nodup :=
  isDistinct_iff_nodup.1 (isDistinct_ofList pairs)

theorem ofList_of_nodup [LawfulBEq κ] (h : (keys es).Nodup) : ofList es = es :=
  ofList_of_isDistinct (isDistinct_iff_nodup.2 h)

end Distinct

end CodeHighlight.Entries
