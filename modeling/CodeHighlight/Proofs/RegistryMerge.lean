import CodeHighlight.Proofs.Entries
import CodeHighlight.Registry

/-!
# The merge of registries

Main statement: `merge_law`. A registry that is merged from loaded mappings and explicit grammars
has every key of any of them once. The explicit grammar of a key wins; among loaded mappings the
last or the first one that has the key does, as the precedence says. The keys stand where they were
written first, whichever grammar wins.

Whether a package is added under one precedence or the other, the keys that it adds are the same
(`lists_addPackage`); only the grammars are looked up differently (`get?_foldl_addPackage_last`,
`get?_foldl_addPackage_first`).
-/

namespace CodeHighlight

instance : EquivBEq Key where
  symm {a b} h := decide_eq_true (of_decide_eq_true (p := a.identity = b.identity) h).symm
  trans {a b c} hab hbc :=
    decide_eq_true ((of_decide_eq_true (p := a.identity = b.identity) hab).trans
      (of_decide_eq_true (p := b.identity = c.identity) hbc))
  rfl {a} := decide_eq_true (p := a.identity = a.identity) rfl

namespace Entries
variable {κ α : Type} [BEq κ] [EquivBEq κ] {es new : Entries κ α}

/-- Among keys that are all different from a key it is not found. -/
theorem get?_eq_none_of_isDistinct {e : κ × α} (h : IsDistinct (e :: new)) {k : κ}
    (hk : (e.1 == k) = true) : get? new k = none := by
  have hall : ∀ q ∈ keys new, (e.1 == q) = false := (List.pairwise_cons.1 h).1
  have hnot : has new k = false := has_eq_false_iff.2 fun q hq => by
    rw [← BEq.congr_right hk]
    exact BEq.symm_false (hall q hq)
  rwa [has_eq_isSome, Option.isSome_eq_false_iff, Option.isNone_iff_eq_none] at hnot

/-- What was written later is found first. -/
theorem get?_update (h : IsDistinct new) (k : κ) :
    get? (update es new) k = (get? new k).or (get? es k) := by
  induction new generalizing es with
  | nil => rfl
  | cons e new ih =>
    show get? (update (insert es e.1 e.2) new) k = _
    rw [ih (List.pairwise_cons.1 h).2, get?_insert, get?_cons]
    split_ifs with hk
    · rw [get?_eq_none_of_isDistinct h hk]
      rfl
    · rfl

/-- A key that is there stays as it is when it is written only if it is new. -/
theorem get?_insertNew (es : Entries κ α) (k k' : κ) (v : α) :
    get? (insertNew es k v) k' = (get? es k').or (if k == k' then some v else none) := by
  rw [insertNew, has_eq_isSome]
  by_cases hk : (k == k') = true
  · have hsame : get? es k = get? es k' := by
      unfold get?
      simp only [BEq.congr_right hk]
    rw [hsame, if_pos hk]
    cases hes : get? es k' with
    | some w => rw [if_pos (by rfl), hes]; rfl
    | none => rw [if_neg (by simp), get?_insert, if_pos hk]; rfl
  · rw [if_neg hk, Option.or_none]
    split_ifs
    · rfl
    · rw [get?_insert, if_neg hk]

/-- What was written first is found when keys are written only if they are new. -/
theorem get?_foldl_insertNew (k : κ) :
    get? (new.foldl (fun es e => insertNew es e.1 e.2) es) k = (get? es k).or (get? new k) := by
  induction new generalizing es with
  | nil => simp
  | cons e new ih =>
    rw [List.foldl_cons, ih, get?_insertNew, get?_cons]
    cases get? es k with
    | some v => rfl
    | none => split_ifs <;> rfl

/-! ### Keys in the order of their first appearance -/

/-- Leaving out what is the same as one key leaves what is the same as a different key. -/
theorem any_filter_of_ne {x k : κ} (hx : (x == k) = false) (xs : List κ) :
    (xs.filter fun b => !b == x).any (· == k) = xs.any (· == k) := by
  rw [List.any_filter]
  congr 1
  funext b
  by_cases hb : (b == k) = true
  · have hbx : (b == x) = false := by
      rw [BEq.congr_left hb]
      exact BEq.symm_false hx
    rw [hbx, hb]
    rfl
  · rw [Bool.eq_false_of_not_eq_true hb, Bool.and_false]

/-- A key at the end is dropped when one before it is the same. -/
theorem eraseDups_concat (xs : List κ) (k : κ) :
    (xs ++ [k]).eraseDups = if xs.any (· == k) then xs.eraseDups else xs.eraseDups ++ [k] := by
  induction hn : xs.length using Nat.strong_induction_on generalizing xs with
  | _ n ih =>
    cases xs with
    | nil => rfl
    | cons x xs =>
      have hlen := List.length_filter_le (fun b => !b == x) xs
      rw [List.length_cons] at hn
      rw [List.cons_append, List.eraseDups_cons, List.eraseDups_cons, List.filter_append,
        List.any_cons]
      by_cases hx : (x == k) = true
      · simp [hx, BEq.symm hx]
      · have hx := Bool.eq_false_of_not_eq_true hx
        have hk : (k == x) = false := BEq.symm_false hx
        rw [List.filter_cons_of_pos (by simp [hk]), List.filter_nil, ih _ (by omega) _ rfl,
          any_filter_of_ne hx, hx, Bool.false_or]
        split_ifs <;> rfl

/-- The keys are those of a list, each once and in the order of their first appearance. -/
structure Lists (es : Entries κ α) (ks : List κ) : Prop where
  distinct : IsDistinct es
  keys_eq : keys es = ks.eraseDups
  has_eq (k : κ) : has es k = ks.any (· == k)

theorem Lists.insert {ks : List κ} (h : Lists es ks) (k : κ) (v : α) :
    Lists (insert es k v) (ks ++ [k]) where
  distinct := h.distinct.insert k v
  keys_eq := by rw [keys_insert, eraseDups_concat, h.has_eq, h.keys_eq]
  has_eq k' := by
    rw [has_eq_isSome, get?_insert, List.any_append, ← h.has_eq, has_eq_isSome, List.any_cons,
      List.any_nil, Bool.or_false]
    split_ifs with hk
    · rw [hk, Bool.or_true, Option.isSome_some]
    · rw [Bool.eq_false_of_not_eq_true hk, Bool.or_false]

/-- A key that is there is listed already. -/
theorem Lists.of_has {ks : List κ} (h : Lists es ks) {k : κ} (hk : has es k = true) :
    Lists es (ks ++ [k]) where
  distinct := h.distinct
  keys_eq := by rw [eraseDups_concat, ← h.has_eq, if_pos hk, h.keys_eq]
  has_eq k' := by
    rw [List.any_append, ← h.has_eq, List.any_cons, List.any_nil, Bool.or_false]
    by_cases hkk : (k == k') = true
    · have hk' : has es k' = true := by
        rw [has_eq_any_keys] at hk ⊢
        simpa only [BEq.congr_right hkk] using hk
      rw [hk', Bool.true_or]
    · rw [Bool.eq_false_of_not_eq_true hkk, Bool.or_false]

theorem Lists.insertNew {ks : List κ} (h : Lists es ks) (k : κ) (v : α) :
    Lists (insertNew es k v) (ks ++ [k]) := by
  unfold Entries.insertNew
  split_ifs with hk
  · exact h.of_has hk
  · exact h.insert k v

end Entries

namespace Registry
open Entries (IsDistinct Lists get? has keys)
variable {r package : Registry} {loaded : List Registry} {ks : List Key}

/-! ### One package -/

theorem addPackage_last (r package : Registry) :
    addPackage .last r package = Entries.update r package := rfl

/-- The keys of a package come behind those that are there, whatever the precedence is. -/
theorem lists_addPackage (h : Lists r ks) (precedence : Precedence) (package : Registry) :
    Lists (addPackage precedence r package) (ks ++ keys package) := by
  induction package generalizing r ks with
  | nil => simpa [addPackage, keys] using h
  | cons e package ih =>
    have hsplit : ks ++ keys (e :: package) = (ks ++ [e.1]) ++ keys package := by simp [keys]
    rw [hsplit]
    cases precedence with
    | last => exact ih (h.insert e.1 e.2)
    | first => exact ih (h.insertNew e.1 e.2)

/-! ### All packages -/

/-- The loaded grammar of a key: that of the last mapping that has the key, or of the first. -/
def loadedGrammar? (loaded : List Registry) (k : Key) : Precedence → Option Grammar
  | .last => loaded.reverse.findSome? fun package => get? package k
  | .first => loaded.findSome? fun package => get? package k

theorem lists_foldl_addPackage (h : Lists r ks) (precedence : Precedence)
    (loaded : List Registry) :
    Lists (loaded.foldl (addPackage precedence) r) (ks ++ loaded.flatMap keys) := by
  induction loaded generalizing r ks with
  | nil => simpa using h
  | cons package loaded ih =>
    rw [List.flatMap_cons, ← List.append_assoc]
    exact ih (lists_addPackage h precedence package)

theorem get?_foldl_addPackage_last (hloaded : ∀ package ∈ loaded, IsDistinct package) (k : Key) :
    get? (loaded.foldl (addPackage .last) r) k =
      (loadedGrammar? loaded k .last).or (get? r k) := by
  induction loaded generalizing r with
  | nil => rfl
  | cons package loaded ih =>
    obtain ⟨hpackage, hloaded⟩ := List.forall_mem_cons.1 hloaded
    rw [List.foldl_cons, ih hloaded, addPackage_last, Entries.get?_update hpackage]
    simp only [loadedGrammar?, List.reverse_cons, List.findSome?_append, List.findSome?_cons,
      List.findSome?_nil, Option.or_assoc]
    cases get? package k <;> rfl

theorem get?_foldl_addPackage_first (loaded : List Registry) (k : Key) :
    get? (loaded.foldl (addPackage .first) r) k =
      (get? r k).or (loadedGrammar? loaded k .first) := by
  induction loaded generalizing r with
  | nil => simp [loadedGrammar?]
  | cons package loaded ih =>
    have hadd : get? (addPackage .first r package) k = (get? r k).or (get? package k) :=
      Entries.get?_foldl_insertNew k
    rw [List.foldl_cons, ih, hadd, Option.or_assoc]
    simp only [loadedGrammar?, List.findSome?_cons]
    cases get? package k <;> rfl

/-- The loaded grammar of a key, under either precedence. -/
theorem get?_foldl_addPackage (hloaded : ∀ package ∈ loaded, IsDistinct package)
    (precedence : Precedence) (k : Key) :
    get? (loaded.foldl (addPackage precedence) []) k = loadedGrammar? loaded k precedence := by
  cases precedence with
  | last => rw [get?_foldl_addPackage_last hloaded, Entries.get?_nil, Option.or_none]
  | first => rw [get?_foldl_addPackage_first, Entries.get?_nil, Option.none_or]

/-- **The merge law.** Let a registry be merged from explicit grammars, if there are any, and from
loaded mappings, none of which has a key twice.

* Its keys are those of all mappings, each once.
* A key of the explicit grammars has its explicit grammar. Any other key has the grammar of the last
  loaded mapping that has the key, or of the first one, as the precedence says.
* Merging under `first` looks up what merging the reversed list under `last` does.
* The keys stand in the order of their first appearance, those of the explicit grammars behind the
  loaded ones, under either precedence.
* Without loaded mappings there are the explicit grammars only. -/
theorem merge_law (explicit : Option Registry) (loaded : List Registry)
    (hexplicit : ∀ given ∈ explicit, IsDistinct given)
    (hloaded : ∀ package ∈ loaded, IsDistinct package) :
    let given := explicit.getD []
    let merged := build given loaded
    (∀ p, IsDistinct (merged p) ∧
      ∀ k, has (merged p) k = (has given k || loaded.any fun package => has package k)) ∧
    (∀ p k, get? (merged p) k = (get? given k).or (loadedGrammar? loaded k p)) ∧
    (∀ k, get? (merged .first) k = get? (build given loaded.reverse .last) k) ∧
    (∀ p, keys (merged p) = (loaded.flatMap keys ++ keys given).eraseDups) ∧
    (loaded = [] → ∀ p, merged p = given) := by
  intro given merged
  have hgiven : IsDistinct given := by
    cases explicit with
    | none => exact List.Pairwise.nil
    | some es => exact hexplicit es rfl
  have hlookup {loaded : List Registry} (hloaded : ∀ package ∈ loaded, IsDistinct package)
      (p : Precedence) (k : Key) :
      get? (build given loaded p) k = (get? given k).or (loadedGrammar? loaded k p) := by
    rw [build, Entries.get?_update hgiven, get?_foldl_addPackage hloaded]
  have hempty : Lists ([] : Registry) [] := ⟨List.Pairwise.nil, rfl, fun _ => rfl⟩
  have hlists (p : Precedence) : Lists (merged p) (loaded.flatMap keys ++ keys given) :=
    lists_addPackage (lists_foldl_addPackage hempty p loaded) .last given
  refine ⟨fun p => ⟨?_, fun k => ?_⟩, fun p k => ?_, fun k => ?_, fun p => (hlists p).keys_eq,
    fun hnil p => ?_⟩
  · exact (hlists p).distinct
  · rw [(hlists p).has_eq, List.any_append, List.any_flatMap, Bool.or_comm]
    simp only [Entries.has_eq_any_keys]
  · exact hlookup hloaded p k
  · have hreversed : ∀ package ∈ loaded.reverse, IsDistinct package :=
      fun package h => hloaded package (List.mem_reverse.1 h)
    rw [hlookup hloaded, hlookup hreversed, loadedGrammar?, loadedGrammar?, List.reverse_reverse]
  · subst hnil
    exact Entries.ofList_of_isDistinct hgiven

/-- Two packages that collide on `js`, and an explicit grammar for a key of the first one. -/
theorem merge_law_collision :
    let g (n : ℕ) := Grammar.inert n "Fixed" "Fixed"
    let loaded : List Registry :=
      [[(.str "js", g 1), (.str "py", g 1)], [(.str "ts", g 2), (.str "js", g 2)]]
    let given : Registry := [(.str "py", g 3)]
    (∀ es ∈ some given, IsDistinct es) ∧ (∀ package ∈ loaded, IsDistinct package) ∧
      (∀ p, keys (build given loaded p) = [.str "js", .str "py", .str "ts"]) ∧
      get? (build given loaded .last) (.str "js") = some (g 2) ∧
      get? (build given loaded .first) (.str "js") = some (g 1) ∧
      ∀ p, get? (build given loaded p) (.str "py") = some (g 3) := by
  intro g loaded given
  have hgiven : ∀ es ∈ some given, IsDistinct es := by
    rintro _ ⟨⟩
    exact List.pairwise_singleton _ _
  have hloaded : ∀ package ∈ loaded, IsDistinct package :=
    List.forall_mem_cons.2 ⟨List.pairwise_pair.2 rfl,
      List.forall_mem_singleton.2 (List.pairwise_pair.2 rfl)⟩
  obtain ⟨_, hlookup, _, hkeys, _⟩ := merge_law (some given) loaded hgiven hloaded
  exact ⟨hgiven, hloaded, fun p => hkeys p, hlookup .last _, hlookup .first _,
    fun p => (hlookup p _).trans (by cases p <;> rfl)⟩

end Registry
end CodeHighlight
