import CodeHighlight.Failure
import Mathlib

/-!
# The path through the causes of a failure

The links of a trace form a finite graph in which every failure was raised from at most one other
(`Trace.RaisedFrom`), so that the failures behind one failure lie on a path that ends, or comes back
to itself. `Trace.IsPath` says what a walk along it has to list: linked places, each of them once,
as far as the links lead to places that were not seen before.

There is exactly one such list (`IsPath.unique`), and it is the one that is computed
(`isPath_path`); the number of steps that a walk is allowed never matters (`follow_eq_path`).

Main statement: `causes_law`. The causes that are listed are the places of the path of the newest
failure behind that failure itself, unless the path comes back to it (`Trace.Returns`): the walk
that lists causes does not count the newest failure as seen and then lists it once more, as its own
cause.
-/

namespace CodeHighlight.Trace
variable {t : Trace} {i j k n : ℕ} {from? : Option ℕ} {seen p q : List ℕ}

/-- The failure at `i` was raised from the one at `j`: this is its cause, or it has no cause and
this is its context. -/
def RaisedFrom (t : Trace) (i j : ℕ) : Prop :=
  j < t.links.length ∧
    ∃ l, t.links[i]? = some l ∧ (l.cause = some j ∨ l.cause = none ∧ l.context = some j)

theorem raisedFrom_iff : t.RaisedFrom i j ↔ t.next i = some j ∧ j < t.links.length := by
  have hlink (l : Link) : (l.cause <|> l.context) = some j ↔
      l.cause = some j ∨ l.cause = none ∧ l.context = some j := by
    cases l.cause <;> simp
  rw [RaisedFrom, next, Option.bind_eq_some_iff, and_comm]
  simp only [hlink]

theorem RaisedFrom.eq (hj : t.RaisedFrom i j) (hk : t.RaisedFrom i k) : j = k := by
  rw [raisedFrom_iff] at hj hk
  exact Option.some.inj (hj.1.symm.trans hk.1)

/-! ### Walks -/

/-- A walk passes a place of the graph that it does not know, and goes on with the place behind. -/
theorem follow_some : t.follow (n + 1) seen (some i) =
    if i < t.links.length ∧ i ∉ seen then i :: t.follow n (i :: seen) (t.next i) else [] := by
  have hstop : (seen.contains i || t.links.length ≤ i) = true ↔
      ¬ (i < t.links.length ∧ i ∉ seen) := by
    rw [Bool.or_eq_true, List.contains_iff_mem, decide_eq_true_eq, not_and_or, not_lt, not_not,
      or_comm]
  rw [follow]
  by_cases hgo : i < t.links.length ∧ i ∉ seen
  · rw [if_pos hgo, if_neg fun h => hstop.1 h hgo]
  · rw [if_neg hgo, if_pos (hstop.2 hgo)]

/-- The list is what a walk from a place passes that knows some places already: it starts there,
follows the links, passes no place twice and none that it knows, and stops only at the end of the
links or in front of a place that was passed or known. -/
structure IsPath (t : Trace) (seen : List ℕ) (from? : Option ℕ) (p : List ℕ) : Prop where
  first : ∀ i, p.head? = some i ↔ from? = some i ∧ i < t.links.length ∧ i ∉ seen
  linked : p.IsChain t.RaisedFrom
  once : p.Nodup
  fresh : ∀ i ∈ p, i ∉ seen
  last : ∀ i j, p.getLast? = some i → t.RaisedFrom i j → j ∈ seen ++ p

namespace IsPath

theorem nil (h : ∀ i, from? = some i → i < t.links.length → i ∈ seen) : t.IsPath seen from? [] where
  first i := by simpa using h i
  linked := List.isChain_nil
  once := List.nodup_nil
  fresh := by simp
  last := by simp

/-- A place that is not known is passed, and then it is known. -/
theorem cons (hi : i < t.links.length) (hseen : i ∉ seen)
    (h : t.IsPath (i :: seen) (t.next i) p) : t.IsPath seen (some i) (i :: p) where
  first j := by
    rw [List.head?_cons]
    constructor
    · rintro ⟨⟩
      exact ⟨rfl, hi, hseen⟩
    · exact fun h => h.1
  linked := List.isChain_cons.2 ⟨fun j hj => by
    obtain ⟨hnext, hlt, -⟩ := (h.first j).1 hj
    exact raisedFrom_iff.2 ⟨hnext, hlt⟩, h.linked⟩
  once := List.nodup_cons.2 ⟨fun hmem => h.fresh i hmem List.mem_cons_self, h.once⟩
  fresh := List.forall_mem_cons.2
    ⟨hseen, fun j hj hmem => h.fresh j hj (List.mem_cons_of_mem i hmem)⟩
  last j k hj hjk := by
    rcases p.eq_nil_or_concat with rfl | ⟨front, l, rfl⟩
    · -- the walk stopped in front of a known place
      obtain rfl : i = j := by simpa using hj
      by_contra hk
      have hfirst : ([] : List ℕ).head? = some k := (h.first k).2
        ⟨(raisedFrom_iff.1 hjk).1, hjk.1, fun hmem => hk (by simpa [or_comm] using hmem)⟩
      cases hfirst
    · have hlast : (front.concat l).getLast? = some j := by
        rw [← hj, List.concat_eq_append, ← List.cons_append, List.getLast?_concat,
          List.getLast?_concat]
      have hmem := h.last j k hlast hjk
      simp only [List.cons_append, List.mem_cons, List.mem_append] at hmem ⊢
      tauto

theorem tail (h : t.IsPath seen from? (i :: p)) : t.IsPath (i :: seen) (t.next i) p where
  first j := by
    obtain ⟨hhead, hlinked⟩ := List.isChain_cons.1 h.linked
    constructor
    · intro hj
      have hmem : j ∈ p := List.mem_of_head? hj
      obtain ⟨hnext, hlt⟩ := raisedFrom_iff.1 (hhead j hj)
      refine ⟨hnext, hlt, fun hseen => ?_⟩
      rcases List.mem_cons.1 hseen with rfl | hseen
      · exact (List.nodup_cons.1 h.once).1 hmem
      · exact h.fresh j (List.mem_cons_of_mem i hmem) hseen
    · rintro ⟨hnext, hlt, hseen⟩
      have hij : t.RaisedFrom i j := raisedFrom_iff.2 ⟨hnext, hlt⟩
      cases p with
      | nil =>
        have hmem := h.last i j rfl hij
        exact absurd (by simpa [or_comm] using hmem) hseen
      | cons k p => rw [List.head?_cons, (hhead k rfl).eq hij]
  linked := (List.isChain_cons.1 h.linked).2
  once := (List.nodup_cons.1 h.once).2
  fresh j hj hmem := by
    rcases List.mem_cons.1 hmem with rfl | hmem
    · exact (List.nodup_cons.1 h.once).1 hj
    · exact h.fresh j (List.mem_cons_of_mem i hj) hmem
  last j k hj hjk := by
    have hmem := h.last j k (List.mem_getLast?_cons hj) hjk
    simp only [List.cons_append, List.mem_cons, List.mem_append] at hmem ⊢
    tauto

/-- A walk that is allowed enough steps passes what it has to pass. -/
theorem follow_eq (h : t.IsPath seen from? p) (hn : p.length ≤ n) : t.follow n seen from? = p := by
  induction p generalizing n seen from? with
  | nil =>
    cases n with
    | zero => rfl
    | succ n =>
      cases from? with
      | none => rfl
      | some i =>
        have hstop : ¬ (i < t.links.length ∧ i ∉ seen) := fun hi => by
          cases (h.first i).2 ⟨rfl, hi⟩
        rw [follow_some, if_neg hstop]
  | cons i p ih =>
    obtain ⟨hfrom, hgo⟩ := (h.first i).1 rfl
    cases n with
    | zero => cases hn
    | succ n => rw [hfrom, follow_some, if_pos hgo, ih h.tail (Nat.le_of_succ_le_succ hn)]

/-- There is only one path. -/
theorem unique (hp : t.IsPath seen from? p) (hq : t.IsPath seen from? q) : p = q := by
  rw [← hp.follow_eq (le_max_left p.length q.length), hq.follow_eq (le_max_right _ _)]

theorem lt_length (h : t.IsPath seen from? p) (hi : i ∈ p) : i < t.links.length := by
  induction p generalizing seen from? with
  | nil => cases hi
  | cons j p ih =>
    rcases List.mem_cons.1 hi with rfl | hi
    · exact ((h.first i).1 rfl).2.1
    · exact ih h.tail hi

theorem length_le (h : t.IsPath seen from? p) : p.length ≤ t.links.length := by
  have hsub : p.toFinset ⊆ Finset.range t.links.length := fun i hi =>
    Finset.mem_range.2 (h.lt_length (List.mem_toFinset.1 hi))
  have hcard := Finset.card_le_card hsub
  rwa [List.toFinset_card_of_nodup h.once, Finset.card_range] at hcard

end IsPath

/-- A walk may take as many steps as there are places that it does not know. -/
theorem isPath_follow
    (hn : ((Finset.range t.links.length).filter (· ∉ seen)).card ≤ n) :
    t.IsPath seen from? (t.follow n seen from?) := by
  induction n generalizing seen from? with
  | zero =>
    refine .nil fun i _ hi => ?_
    have hnone := Finset.filter_eq_empty_iff.1 (Finset.card_eq_zero.1 (Nat.le_zero.1 hn))
    simpa using hnone (Finset.mem_range.2 hi)
  | succ n ih =>
    cases from? with
    | none => exact .nil fun i hi => by cases hi
    | some i =>
      rw [follow_some]
      by_cases hgo : i < t.links.length ∧ i ∉ seen
      · rw [if_pos hgo]
        refine .cons hgo.1 hgo.2 (ih ?_)
        -- the place that is passed is one that was not known
        have hlt : ((Finset.range t.links.length).filter (· ∉ i :: seen)).card <
            ((Finset.range t.links.length).filter (· ∉ seen)).card := by
          refine Finset.card_lt_card (Finset.ssubset_iff_of_subset ?_ |>.2 ⟨i, ?_, ?_⟩)
          · intro j hj
            simp only [Finset.mem_filter, List.mem_cons, not_or] at hj ⊢
            exact ⟨hj.1, hj.2.2⟩
          · simpa using hgo
          · simp
        omega
      · rw [if_neg hgo]
        refine .nil fun j hj hlt => ?_
        cases hj
        by_contra hseen
        exact hgo ⟨hlt, hseen⟩

/-- **The path that is computed is the path.** -/
theorem isPath_path (t : Trace) (from? : Option ℕ) : t.IsPath [] from? (t.path from?) :=
  isPath_follow (by simp)

/-- **A walk ends by itself**: steps beyond the number of failures are never taken. -/
theorem follow_eq_path (hn : t.links.length ≤ n) (from? : Option ℕ) :
    t.follow n [] from? = t.path from? :=
  (isPath_path t from?).follow_eq ((isPath_path t from?).length_le.trans hn)

/-! ### Coming back -/

/-- The links lead from the newest failure back to it. -/
def Returns (t : Trace) : Prop := Relation.TransGen t.RaisedFrom t.start t.start

namespace IsPath

/-- What a failure on the path was raised from is the next one on the path, or an earlier one. -/
theorem mem_of_raisedFrom (h : t.IsPath [] from? p) (hi : i ∈ p) (hij : t.RaisedFrom i j) :
    j ∈ p := by
  obtain ⟨front, back, rfl⟩ := List.append_of_mem hi
  cases back with
  | nil => simpa using h.last i j (by simp) hij
  | cons k back =>
    have hik := List.isChain_append_cons_cons.1 h.linked
    rw [hij.eq hik.2.1]
    simp

theorem mem_of_reflTransGen (h : t.IsPath [] from? p) (hi : i ∈ p)
    (hij : Relation.ReflTransGen t.RaisedFrom i j) : j ∈ p := by
  induction hij with
  | refl => exact hi
  | tail _ hjk ih => exact h.mem_of_raisedFrom ih hjk

/-- All places of a path but the first are reached from the first by links. -/
theorem transGen_of_mem_tail (h : t.IsPath seen from? (i :: p)) (hj : j ∈ p) :
    Relation.TransGen t.RaisedFrom i j := by
  induction p generalizing i seen from? with
  | nil => cases hj
  | cons k p ih =>
    have hik : t.RaisedFrom i k := (List.isChain_cons_cons.1 h.linked).1
    rcases List.mem_cons.1 hj with rfl | hj
    · exact .single hik
    · exact .head hik (ih h.tail hj)

/-- When the links lead back to the first place, they do so from the last one. -/
theorem exists_last_of_transGen (h : t.IsPath [] (some i) p)
    (hi : Relation.TransGen t.RaisedFrom i i) :
    ∃ k, p.getLast? = some k ∧ t.RaisedFrom k i := by
  obtain ⟨k, hik, hki⟩ := Relation.TransGen.tail'_iff.1 hi
  have hhead : p.head? = some i := (h.first i).2 ⟨rfl, hki.1, List.not_mem_nil⟩
  have hk : k ∈ p := h.mem_of_reflTransGen (List.mem_of_head? hhead) hik
  obtain ⟨front, back, rfl⟩ := List.append_of_mem hk
  cases back with
  | nil => exact ⟨k, by simp, hki⟩
  | cons l back =>
    -- the place behind `k` would be the first one again
    have hl : l = i := (List.isChain_append_cons_cons.1 h.linked).2.1.eq hki
    subst hl
    have hsplit : front ++ k :: l :: back = (front ++ [k]) ++ l :: back := by simp
    have honce := h.once
    rw [hsplit] at hhead honce
    have hmem : l ∈ front ++ [k] := by
      rw [List.head?_append_of_ne_nil _ (by simp)] at hhead
      exact List.mem_of_head? hhead
    exact absurd rfl ((List.nodup_append.1 honce).2.2 l hmem l List.mem_cons_self)

/-- A place that the links do not lead back to need not be known. -/
theorem tail_of_not_transGen (h : t.IsPath [] (some i) (i :: p))
    (hi : ¬ Relation.TransGen t.RaisedFrom i i) : t.IsPath [] (t.next i) p where
  first j := by
    rw [h.tail.first j]
    refine ⟨fun ⟨hnext, hlt, _⟩ => ⟨hnext, hlt, List.not_mem_nil⟩, fun ⟨hnext, hlt, _⟩ => ?_⟩
    refine ⟨hnext, hlt, fun hmem => hi ?_⟩
    rw [List.mem_singleton.1 hmem] at hnext hlt
    exact .single (raisedFrom_iff.2 ⟨hnext, hlt⟩)
  linked := h.tail.linked
  once := h.tail.once
  fresh _ _ := List.not_mem_nil
  last j k hj hjk := by
    have hmem := h.tail.last j k hj hjk
    rcases List.mem_cons.1 hmem with rfl | hmem
    · exact absurd ((h.transGen_of_mem_tail (List.mem_of_getLast? hj)).tail hjk) hi
    · exact hmem

/-- A place that the links lead back to is passed at the end when it is not known. -/
theorem tail_of_transGen (h : t.IsPath [] (some i) (i :: p))
    (hi : Relation.TransGen t.RaisedFrom i i) : t.IsPath [] (t.next i) (p ++ [i]) where
  first j := by
    obtain ⟨k, hk, hki⟩ := h.exists_last_of_transGen hi
    cases p with
    | nil =>
      obtain rfl : i = k := by simpa using hk
      obtain ⟨hnext, hlt⟩ := raisedFrom_iff.1 hki
      rw [hnext]
      constructor
      · rintro ⟨⟩
        exact ⟨rfl, hlt, List.not_mem_nil⟩
      · exact fun h => h.1
    | cons l p =>
      rw [List.head?_append_of_ne_nil _ (by simp), h.tail.first j]
      refine ⟨fun ⟨hnext, hlt, _⟩ => ⟨hnext, hlt, List.not_mem_nil⟩, fun ⟨hnext, hlt, _⟩ => ?_⟩
      refine ⟨hnext, hlt, fun hmem => ?_⟩
      have hil : t.RaisedFrom i l := (List.isChain_cons_cons.1 h.linked).1
      have hji : l = j := hil.eq (raisedFrom_iff.2 ⟨hnext, hlt⟩)
      exact h.tail.fresh l List.mem_cons_self (hji ▸ hmem)
  linked := by
    obtain ⟨k, hk, hki⟩ := h.exists_last_of_transGen hi
    refine h.tail.linked.append (List.isChain_singleton i) fun a ha b hb => ?_
    obtain rfl : i = b := by simpa using hb
    obtain rfl : k = a := Option.some.inj (hk.symm.trans (List.mem_getLast?_cons ha))
    exact hki
  once := by
    have honce := List.nodup_cons.1 h.once
    exact List.nodup_append.2 ⟨honce.2, List.nodup_singleton i, fun a ha b hb hab => by
      rw [List.mem_singleton.1 hb] at hab
      exact honce.1 (hab ▸ ha)⟩
  fresh _ _ := List.not_mem_nil
  last j k hj hjk := by
    obtain rfl : i = j := by simpa using hj
    have hmem := h.mem_of_raisedFrom List.mem_cons_self hjk
    simpa [or_comm] using hmem

end IsPath

/-! ### The causes that are listed -/

/-- The line tells the kind and the wording of the failure at a place. -/
def IsCauseLine (t : Trace) (i : ℕ) (line : String) : Prop :=
  ∃ f, t.failureAt? i = some f ∧ line = "  " ++ f.kind.name ++ ": " ++ f.message

/-- What is told of each failure on a path is told of all of them. -/
theorem forall₂_filterMap {α : Type} (h : t.IsPath seen from? p) (f : ℕ → Option α)
    (r : ℕ → α → Prop) (hf : ∀ {i} g, t.failureAt? i = some g → ∃ a, f i = some a ∧ r i a) :
    List.Forall₂ r p (p.filterMap f) := by
  induction p generalizing seen from? with
  | nil => exact .nil
  | cons i p ih =>
    have hi := h.lt_length List.mem_cons_self
    have hfailure : t.failureAt? i = some t.links[i].failure := by
      rw [failureAt?, List.getElem?_eq_getElem hi, Option.map_some]
    obtain ⟨a, ha, hr⟩ := hf _ hfailure
    rw [List.filterMap_cons, ha]
    exact .cons hr (ih h.tail)

/-- Every cause is told in a line of its own. -/
theorem forall₂_causeLines (t : Trace) : List.Forall₂ t.IsCauseLine t.causes t.causeLines :=
  forall₂_filterMap (isPath_path t _) _ _ fun f hf => ⟨_, by rw [hf]; rfl, f, hf, rfl⟩

theorem causes_of_not_returns (h : ¬ t.Returns) : t.causes = (t.path (some t.start)).tail := by
  have hpath := isPath_path t (some t.start)
  refine (isPath_path t (t.next t.start)).unique ?_
  rcases hp : t.path (some t.start) with _ | ⟨i, p⟩
  · -- there is no newest failure
    refine .nil fun j hnext hlt => ?_
    obtain ⟨l, hl, -⟩ := (raisedFrom_iff.2 ⟨hnext, hlt⟩).2
    have hstart := (hpath.first t.start).2
      ⟨rfl, (List.getElem?_eq_some_iff.1 hl).1, List.not_mem_nil⟩
    rw [hp] at hstart
    cases hstart
  · rw [hp] at hpath
    obtain rfl : t.start = i := Option.some.inj ((hpath.first i).1 rfl).1
    exact hpath.tail_of_not_transGen h

theorem causes_of_returns (h : t.Returns) :
    t.causes = (t.path (some t.start)).tail ++ [t.start] := by
  have hpath := isPath_path t (some t.start)
  refine (isPath_path t (t.next t.start)).unique ?_
  obtain ⟨k, -, hk⟩ := Relation.TransGen.tail'_iff.1 h
  have hstart := (hpath.first t.start).2 ⟨rfl, hk.1, List.not_mem_nil⟩
  obtain ⟨p, hp⟩ := List.head?_eq_some_iff.1 hstart
  rw [hp] at hpath ⊢
  exact hpath.tail_of_transGen h

/-- **The two walks through the failures behind one failure.** Both end by themselves: steps beyond
the number of failures are never taken. Every cause is told in a line of its own. The causes are the
places of the path behind the newest failure, each once and in the same order, exactly when no links
lead back to the newest failure; otherwise the newest failure is listed behind them, as its own
cause. -/
theorem causes_law (t : Trace) :
    (∀ n, t.links.length ≤ n → t.follow n [] (some t.start) = t.path (some t.start) ∧
      t.follow n [] (t.next t.start) = t.causes) ∧
    t.IsPath [] (some t.start) (t.path (some t.start)) ∧
    t.IsPath [] (t.next t.start) t.causes ∧
    List.Forall₂ t.IsCauseLine t.causes t.causeLines ∧
    (t.causes = (t.path (some t.start)).tail ↔ ¬ t.Returns) ∧
    (t.causes = (t.path (some t.start)).tail ++ [t.start] ↔ t.Returns) ∧
    (t.start ∈ t.causes ↔ t.Returns) := by
  have hpath := isPath_path t (some t.start)
  have hnot : t.start ∉ (t.path (some t.start)).tail := by
    rcases hp : t.path (some t.start) with _ | ⟨i, p⟩
    · exact List.not_mem_nil
    · rw [hp] at hpath
      obtain rfl : t.start = i := Option.some.inj ((hpath.first i).1 rfl).1
      exact (List.nodup_cons.1 hpath.once).1
  refine ⟨fun n hn => ⟨follow_eq_path hn _, follow_eq_path hn _⟩, hpath, isPath_path t _,
    forall₂_causeLines t, ?_⟩
  by_cases h : t.Returns
  · simp [causes_of_returns h, h]
  · have hcauses := causes_of_not_returns h
    simp [hcauses, h, hnot]

/-- Two failures each of which was raised from the other. -/
def entangled : Trace :=
  ⟨[⟨.plain .runtime "outer", some 1, none⟩, ⟨.plain .value "inner", some 0, none⟩], 0⟩

/-- A failure whose cause was raised from it is listed as its own cause. -/
theorem entangled_causes_itself :
    entangled.path (some entangled.start) = [0, 1] ∧ entangled.causes = [1, 0] ∧
      entangled.causes ≠ (entangled.path (some entangled.start)).tail ∧
      entangled.start ∈ entangled.causes := by decide

end CodeHighlight.Trace
