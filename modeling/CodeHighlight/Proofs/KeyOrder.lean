import CodeHighlight.Data.Key
import Mathlib.Data.String.Basic
import Mathlib.Tactic

/-!
# Texts in order

Texts can always be compared, so that they can be put in order: sorting gives the same keys, none of
which stands behind a greater one (`Key.sort_of_isText`).

Each key finds its place by halving a stretch of those that are in order already: everything before
the place is at most the key, and the key is at most everything behind it
(`Key.placeIn_of_isText`).

Sorting any keys gives the same keys, or it fails with a failure of types (`Key.perm_of_sort`,
`Key.kind_of_sort`).
-/

namespace CodeHighlight

namespace Key
variable {k a b c : Key} {keys sorted : List Key}

/-- The key is a text. -/
def IsText (k : Key) : Prop := ∃ s, k = .str s

/-- None of the keys stands behind a greater one. -/
def InOrder (keys : List Key) : Prop := keys.Pairwise fun a b => a.atMost b = true

theorem less?_of_isText {a b : Key} (ha : a.IsText) (hb : b.IsText) :
    ∃ less, less? a b = some less := by
  obtain ⟨s, rfl⟩ := ha
  obtain ⟨t, rfl⟩ := hb
  exact ⟨_, rfl⟩

theorem atMost_str {s t : String} : (Key.str s).atMost (.str t) = true ↔ s ≤ t := by
  show (!decide (t < s)) = true ↔ s ≤ t
  rw [Bool.not_eq_true', decide_eq_false_iff_not, not_lt]

theorem atMost_trans (ha : a.IsText) (hb : b.IsText) (hc : c.IsText) (hab : a.atMost b = true)
    (hbc : b.atMost c = true) : a.atMost c = true := by
  obtain ⟨s, rfl⟩ := ha
  obtain ⟨t, rfl⟩ := hb
  obtain ⟨u, rfl⟩ := hc
  exact atMost_str.2 ((atMost_str.1 hab).trans (atMost_str.1 hbc))

theorem atMost_of_less? (ha : a.IsText) (hb : b.IsText) (h : less? a b = some true) :
    a.atMost b = true := by
  obtain ⟨s, rfl⟩ := ha
  obtain ⟨t, rfl⟩ := hb
  have hst : s < t := of_decide_eq_true (Option.some.inj h)
  exact atMost_str.2 hst.le

theorem atMost_of_not_less? (h : less? b a = some false) : a.atMost b = true := by
  simp [atMost, h]

/-! ### The place of a key -/

/-- Halving a stretch of texts in order finds the place of a text: what stands before it is at most
the text, and the text is at most what stands behind it. -/
theorem placeIn_of_isText (hk : k.IsText) (hs : ∀ q ∈ sorted, q.IsText) (ho : InOrder sorted)
    (fuel low high : ℕ) (hfuel : high < fuel + low) (hhigh : high ≤ sorted.length)
    (hlow : low ≤ high)
    (before : ∀ j (hj : j < sorted.length), j < low → (sorted[j]).atMost k = true)
    (behind : ∀ j (hj : j < sorted.length), high ≤ j → k.atMost sorted[j] = true) :
    ∃ i, placeIn k sorted fuel low high = .ok i ∧
      (∀ j (hj : j < sorted.length), j < i → (sorted[j]).atMost k = true) ∧
      ∀ j (hj : j < sorted.length), i ≤ j → k.atMost sorted[j] = true := by
  induction fuel generalizing low high with
  | zero => omega
  | succ fuel ih =>
    rw [placeIn]
    split_ifs with hle
    · exact ⟨low, rfl, before, fun j hj hij => behind j hj (by omega)⟩
    · have hm : (low + high) / 2 < sorted.length := by omega
      have hq : (sorted[(low + high) / 2]).IsText := hs _ (List.getElem_mem hm)
      obtain ⟨less, hless⟩ := less?_of_isText hk hq
      simp only [← List.getElem_eq_getD (h := hm), hless]
      -- the comparison with the middle decides for everything on one side of it
      cases less with
      | true =>
        have hmiddle := atMost_of_less? hk hq hless
        refine ih low _ (by omega) (by omega) (by omega) before fun j hj hij => ?_
        rcases hij.eq_or_lt with rfl | hlt
        · exact hmiddle
        · exact atMost_trans hk hq (hs _ (List.getElem_mem hj)) hmiddle
            (List.pairwise_iff_getElem.1 ho _ j hm hj hlt)
      | false =>
        have hmiddle := atMost_of_not_less? hless
        refine ih _ high (by omega) hhigh (by omega) (fun j hj hij => ?_) behind
        rcases (Nat.lt_succ_iff.1 hij).eq_or_lt with rfl | hlt
        · exact hmiddle
        · exact atMost_trans (hs _ (List.getElem_mem hj)) hq hk
            (List.pairwise_iff_getElem.1 ho j _ hj hm hlt) hmiddle

theorem inOrder_insert {i : ℕ} (ho : InOrder sorted)
    (before : ∀ j (hj : j < sorted.length), j < i → (sorted[j]).atMost k = true)
    (behind : ∀ j (hj : j < sorted.length), i ≤ j → k.atMost sorted[j] = true)
    (across : ∀ a ∈ sorted, ∀ b ∈ sorted, a.atMost k = true → k.atMost b = true →
      a.atMost b = true) :
    InOrder (sorted.take i ++ k :: sorted.drop i) := by
  have htake : ∀ a ∈ sorted.take i, a.atMost k = true := by
    intro a ha
    obtain ⟨j, hj, rfl⟩ := List.mem_take_iff_getElem.1 ha
    exact before j (by omega) (by omega)
  have hdrop : ∀ b ∈ sorted.drop i, k.atMost b = true := by
    intro b hb
    obtain ⟨j, hj, rfl⟩ := List.mem_drop_iff_getElem.1 hb
    exact behind _ (by omega) (by omega)
  refine List.pairwise_append.2 ⟨ho.take, List.pairwise_cons.2 ⟨hdrop, ho.drop⟩, ?_⟩
  intro a ha b hb
  rcases List.mem_cons.1 hb with rfl | hb
  · exact htake a ha
  · exact across a (List.mem_of_mem_take ha) b (List.mem_of_mem_drop hb) (htake a ha) (hdrop b hb)

theorem insertAll_of_isText (hs : ∀ q ∈ sorted, q.IsText) (ho : InOrder sorted)
    (hk : ∀ q ∈ keys, q.IsText) :
    ∃ all, insertAll sorted keys = .ok all ∧ all.Perm (sorted ++ keys) ∧ InOrder all := by
  induction keys generalizing sorted with
  | nil => exact ⟨sorted, rfl, by simp, ho⟩
  | cons k rest ih =>
    obtain ⟨hk, hrest⟩ := List.forall_mem_cons.1 hk
    obtain ⟨i, hi, before, behind⟩ := placeIn_of_isText hk hs ho (sorted.length + 1) 0
      sorted.length (by omega) le_rfl (by omega) (fun j hj h => by omega) fun j hj h => by omega
    have hperm : (sorted.take i ++ k :: sorted.drop i).Perm (k :: sorted) := by
      refine List.perm_middle.trans ?_
      rw [List.take_append_drop]
    have htext : ∀ q ∈ sorted.take i ++ k :: sorted.drop i, q.IsText := by
      intro q hq
      rcases List.mem_cons.1 (hperm.mem_iff.1 hq) with rfl | hq
      · exact hk
      · exact hs q hq
    have horder := inOrder_insert ho before behind fun a ha b hb hak hkb =>
      atMost_trans (hs a ha) hk (hs b hb) hak hkb
    obtain ⟨all, hall, hp, hao⟩ := ih htext horder hrest
    refine ⟨all, by rw [insertAll, hi]; exact hall, hp.trans ?_, hao⟩
    exact (hperm.append_right rest).trans List.perm_middle.symm

/-! ### The run at the start -/

/-- The keys of a run, latest first: they rise when the run falls. -/
def IsRun (falling : Bool) (run : List Key) : Prop :=
  if falling then InOrder run else run.Pairwise fun a b => b.atMost a = true

theorem IsRun.cons {falling : Bool} {run : List Key} (hr : ∀ q ∈ a :: run, q.IsText)
    (h : IsRun falling (a :: run)) (hk : k.IsText) (hless : less? k a = some falling) :
    IsRun falling (k :: a :: run) := by
  have ha := hr a List.mem_cons_self
  unfold IsRun at h ⊢
  cases falling with
  | true =>
    have hka := atMost_of_less? hk ha hless
    refine List.pairwise_cons.2 ⟨fun q hq => ?_, h⟩
    rcases List.mem_cons.1 hq with rfl | hq
    · exact hka
    · exact atMost_trans hk ha (hr q (List.mem_cons_of_mem _ hq)) hka
        ((List.pairwise_cons.1 h).1 q hq)
  | false =>
    have hak := atMost_of_not_less? hless
    refine List.pairwise_cons.2 ⟨fun q hq => ?_, h⟩
    rcases List.mem_cons.1 hq with rfl | hq
    · exact hak
    · exact atMost_trans (hr q (List.mem_cons_of_mem _ hq)) ha hk
        ((List.pairwise_cons.1 h).1 q hq) hak

theorem initialRun_of_isText (falling : Bool) {run : List Key} {last : Key}
    (hr : ∀ q ∈ last :: run, q.IsText) (hrun : IsRun falling (last :: run))
    (hk : ∀ q ∈ keys, q.IsText) :
    ∃ run' rest, initialRun falling (last :: run) last keys = .ok (run', rest) ∧
      (run' ++ rest).Perm (last :: run ++ keys) ∧ IsRun falling run' := by
  induction keys generalizing run last with
  | nil => exact ⟨last :: run, [], rfl, List.Perm.refl _, hrun⟩
  | cons k rest ih =>
    obtain ⟨hkt, hrest⟩ := List.forall_mem_cons.1 hk
    obtain ⟨less, hless⟩ := less?_of_isText hkt (hr last List.mem_cons_self)
    simp only [initialRun, hless]
    split_ifs with hf
    · subst hf
      obtain ⟨run', rest', heq, hperm, hrun'⟩ :=
        ih (List.forall_mem_cons.2 ⟨hkt, hr⟩) (hrun.cons hr hkt hless) hrest
      exact ⟨run', rest', heq, hperm.trans List.perm_middle.symm, hrun'⟩
    · exact ⟨last :: run, k :: rest, rfl, List.Perm.refl _, hrun⟩

theorem IsRun.inOrder {falling : Bool} {run : List Key} (h : IsRun falling run) :
    InOrder (if falling then run else run.reverse) := by
  cases falling with
  | true => exact h
  | false => exact List.pairwise_reverse.2 h

theorem oriented_perm (falling : Bool) (run : List Key) :
    (if falling then run else run.reverse).Perm run := by
  cases falling with
  | true => exact List.Perm.refl _
  | false => exact run.reverse_perm

/-- **Texts can be put in order.** -/
theorem sort_of_isText (h : ∀ k ∈ keys, k.IsText) :
    ∃ sorted, sort keys = .ok sorted ∧ sorted.Perm keys ∧ InOrder sorted := by
  suffices hs : ∃ sorted, sortKeys keys = .ok sorted ∧ sorted.Perm keys ∧ InOrder sorted by
    obtain ⟨sorted, hs, hsorted⟩ := hs
    exact ⟨sorted, by rw [sort, hs], hsorted⟩
  match keys with
  | [] => exact ⟨[], rfl, List.Perm.refl _, List.Pairwise.nil⟩
  | [k] => exact ⟨[k], rfl, List.Perm.refl _, List.pairwise_singleton _ _⟩
  | a :: b :: rest =>
    obtain ⟨ha, hb, hrest⟩ := (by simpa using h : a.IsText ∧ b.IsText ∧ ∀ q ∈ rest, q.IsText)
    obtain ⟨falling, hf⟩ := less?_of_isText hb ha
    have hab : ∀ q ∈ [b, a], q.IsText := by simp [ha, hb]
    have hstart : IsRun falling [a] := by cases falling <;> exact List.pairwise_singleton _ _
    have hrun := hstart.cons (by simpa using ha) hb hf
    obtain ⟨run, rest', heq, hperm, hrun'⟩ := initialRun_of_isText falling hab hrun hrest
    have hall : ∀ q ∈ run ++ rest', q.IsText := fun q hq => by
      rcases List.mem_append.1 (hperm.mem_iff.1 hq) with hq | hq
      · exact hab q hq
      · exact hrest q hq
    have hmem := oriented_perm falling run
    obtain ⟨all, hins, hp, ho⟩ := insertAll_of_isText
      (fun q hq => hall q (List.mem_append_left _ (hmem.mem_iff.1 hq))) hrun'.inOrder
      fun q hq => hall q (List.mem_append_right _ hq)
    refine ⟨all, by simp only [sortKeys, hf, heq]; exact hins, ?_, ho⟩
    calc all.Perm _ := hp
      _ |>.Perm (run ++ rest') := hmem.append_right rest'
      _ |>.Perm ([b, a] ++ rest) := hperm
      _ |>.Perm (a :: b :: rest) := List.Perm.swap a b rest

/-! ### Any keys -/

theorem insertAll_perm {all : List Key} (h : insertAll sorted keys = .ok all) :
    all.Perm (sorted ++ keys) := by
  induction keys generalizing sorted with
  | nil =>
    cases h
    rw [List.append_nil]
  | cons k rest ih =>
    rw [insertAll] at h
    split at h
    · cases h
    · rename_i i _
      have hperm : (sorted.take i ++ k :: sorted.drop i).Perm (k :: sorted) := by
        refine List.perm_middle.trans ?_
        rw [List.take_append_drop]
      exact (ih h).trans ((hperm.append_right rest).trans List.perm_middle.symm)

theorem initialRun_perm {falling : Bool} {run run' rest' : List Key} {last : Key}
    (h : initialRun falling run last keys = .ok (run', rest')) :
    (run' ++ rest').Perm (run ++ keys) := by
  induction keys generalizing run last with
  | nil =>
    cases h
    exact List.Perm.refl _
  | cons k rest ih =>
    rw [initialRun] at h
    split at h
    · cases h
    · split_ifs at h
      · exact (ih h).trans List.perm_middle.symm
      · cases h
        exact List.Perm.refl _

/-- Keys that can be put in order stay the same keys. -/
theorem perm_of_sort (h : sort keys = .ok sorted) : sorted.Perm keys := by
  unfold sort at h
  split at h
  · rename_i all hall
    cases h
    unfold sortKeys at hall
    split at hall
    · cases hall
      exact List.Perm.refl _
    · cases hall
      exact List.Perm.refl _
    · split at hall
      · cases hall
      · rename_i a b rest _ falling _
        split at hall
        · cases hall
        · rename_i run rest' hrun
          calc sorted.Perm _ := insertAll_perm hall
            _ |>.Perm (run ++ rest') := (oriented_perm falling run).append_right rest'
            _ |>.Perm ([b, a] ++ rest) := initialRun_perm hrun
            _ |>.Perm (a :: b :: rest) := List.Perm.swap a b rest
  · cases h

/-- Keys that cannot be put in order are a failure of types. -/
theorem kind_of_sort {t : Trace} (h : sort keys = .error t) : t.kind = .type := by
  unfold sort at h
  split at h
  · cases h
  · cases h
    rfl

end Key

end CodeHighlight
