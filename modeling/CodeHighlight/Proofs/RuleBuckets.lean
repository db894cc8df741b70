import CodeHighlight.Proofs.Entries
import CodeHighlight.Rules.Rule
import Mathlib

/-!
# Buckets of rules

The rules that are registered for the elements with a name form its bucket. Main statement:
`buckets_law`. A bucket holds, of all rules that were registered for the name, the first one under
each name of a rule (`RuleTable.IsFirst`), in the order of priority and name. What a table holds
therefore does not depend on the order of registration, unless two different rules compete for one
name of a rule in one bucket (`RuleTable.IsUncontested`).

Registering a rule changes the buckets of its own names only (`rulesFor_register`), and changes them
by an insertion that keeps them in order (`Rule.pairwise_insertNew`).
-/

namespace CodeHighlight

namespace Rule
variable {σ : Type} {a b c r : Rule σ} {rules rules' : List (Rule σ)}

/-- One rule comes before another: its priority is smaller, or they have the same priority and its
name is smaller. -/
def Precedes (a b : Rule σ) : Prop :=
  a.priority < b.priority ∨ a.priority = b.priority ∧ a.name < b.name

theorem before_iff : a.before b = true ↔ a.Precedes b := by simp [before, Precedes]

theorem Precedes.trans (hab : a.Precedes b) (hbc : b.Precedes c) : a.Precedes c := by
  rcases hab with hab | ⟨hab, hname⟩ <;> rcases hbc with hbc | ⟨hbc, hname'⟩
  · exact .inl (hab.trans hbc)
  · exact .inl (hbc ▸ hab)
  · exact .inl (hab ▸ hbc)
  · exact .inr ⟨hab.trans hbc, hname.trans hname'⟩

theorem Precedes.asymm (hab : a.Precedes b) : ¬ b.Precedes a := by
  rintro (hba | ⟨hba, hname'⟩) <;> rcases hab with hab | ⟨hab, hname⟩
  · exact lt_asymm hab hba
  · omega
  · omega
  · exact lt_asymm hname hname'

/-- Of two rules with different names one comes before the other. -/
theorem precedes_of_not_precedes (hne : a.name ≠ b.name) (h : ¬ a.Precedes b) : b.Precedes a := by
  rcases lt_trichotomy a.priority b.priority with hlt | heq | hgt
  · exact absurd (.inl hlt) h
  · rcases lt_or_gt_of_ne hne with hlt | hgt
    · exact absurd (.inr ⟨heq, hlt⟩) h
    · exact .inr ⟨heq.symm, hgt⟩
  · exact .inl hgt

/-! ### Insertion -/

theorem insert_perm (r : Rule σ) (rules : List (Rule σ)) : (insert r rules).Perm (r :: rules) := by
  induction rules with
  | nil => exact .refl _
  | cons x rest ih =>
    rw [insert]
    split_ifs
    · exact .refl _
    · exact (ih.cons x).trans (.swap r x rest)

theorem insertNew_of_mem (ha : a ∈ rules) (hname : a.name = r.name) :
    r.insertNew rules = rules := by
  rw [insertNew, if_pos (List.any_eq_true.2 ⟨a, ha, decide_eq_true hname⟩)]

theorem insertNew_of_new (hnew : ∀ x ∈ rules, x.name ≠ r.name) :
    r.insertNew rules = insert r rules := by
  rw [insertNew, if_neg]
  intro hany
  obtain ⟨x, hx, hname⟩ := List.any_eq_true.1 hany
  exact hnew x hx (of_decide_eq_true hname)

theorem mem_insertNew :
    a ∈ r.insertNew rules ↔ a ∈ rules ∨ a = r ∧ ∀ x ∈ rules, x.name ≠ r.name := by
  by_cases hnew : ∀ x ∈ rules, x.name ≠ r.name
  · rw [insertNew_of_new hnew, (insert_perm r rules).mem_iff, List.mem_cons, or_comm,
      and_iff_left hnew]
  · have hold := hnew
    push Not at hold
    obtain ⟨x, hx, hname⟩ := hold
    rw [insertNew_of_mem hx hname, or_iff_left fun h => hnew h.2]

theorem pairwise_insert (h : rules.Pairwise Precedes) (hnew : ∀ x ∈ rules, x.name ≠ r.name) :
    (insert r rules).Pairwise Precedes := by
  induction rules with
  | nil => exact List.pairwise_singleton _ r
  | cons x rest ih =>
    obtain ⟨hx, hrest⟩ := List.pairwise_cons.1 h
    obtain ⟨hname, hnames⟩ := List.forall_mem_cons.1 hnew
    rw [insert]
    split_ifs with hbefore
    · have hrx : r.Precedes x := before_iff.1 hbefore
      refine List.pairwise_cons.2 ⟨fun y hy => ?_, h⟩
      rcases List.mem_cons.1 hy with rfl | hy
      · exact hrx
      · exact hrx.trans (hx y hy)
    · have hxr : x.Precedes r :=
        precedes_of_not_precedes (Ne.symm hname) fun hrx => hbefore (before_iff.2 hrx)
      refine List.pairwise_cons.2 ⟨fun y hy => ?_, ih hrest hnames⟩
      rcases List.mem_cons.1 ((insert_perm r rest).mem_iff.1 hy) with rfl | hy
      · exact hxr
      · exact hx y hy

/-- Inserting a rule keeps rules in order. -/
theorem pairwise_insertNew (h : rules.Pairwise Precedes) (r : Rule σ) :
    (r.insertNew rules).Pairwise Precedes := by
  by_cases hnew : ∀ x ∈ rules, x.name ≠ r.name
  · rw [insertNew_of_new hnew]
    exact pairwise_insert h hnew
  · push Not at hnew
    obtain ⟨x, hx, hname⟩ := hnew
    rwa [insertNew_of_mem hx hname]

/-- Inserting a rule twice is inserting it once. -/
theorem insertNew_insertNew (r : Rule σ) (rules : List (Rule σ)) :
    r.insertNew (r.insertNew rules) = r.insertNew rules := by
  by_cases hnew : ∀ x ∈ rules, x.name ≠ r.name
  · exact insertNew_of_mem (mem_insertNew.2 (.inr ⟨rfl, hnew⟩)) rfl
  · push Not at hnew
    obtain ⟨x, hx, hname⟩ := hnew
    exact insertNew_of_mem (mem_insertNew.2 (.inl hx)) hname

/-- Rules in order are determined by which rules they are. -/
theorem eq_of_mem_iff (h : rules.Pairwise Precedes) (h' : rules'.Pairwise Precedes)
    (hmem : ∀ r, r ∈ rules ↔ r ∈ rules') : rules = rules' := by
  have hnodup {l : List (Rule σ)} (hl : l.Pairwise Precedes) : l.Nodup :=
    hl.imp fun {a b} hab heq => by
      subst heq
      exact hab.asymm hab
  have hperm : rules.Perm rules' :=
    (List.perm_ext_iff_of_nodup (hnodup h) (hnodup h')).2 hmem
  exact hperm.eq_of_pairwise (fun _ _ _ _ hab hba => absurd hba hab.asymm) h h'

end Rule

namespace RuleTable
open Entries (get?_insert)
variable {σ : Type} {t : RuleTable σ} {r x : Rule σ} {rs rs' : List (Rule σ)} {tag : String}

/-! ### Registration -/

/-- The table with rules that are registered one after the other. -/
def ofRules (rs : List (Rule σ)) : RuleTable σ := rs.foldl register []

theorem ofRules_append_singleton (rs : List (Rule σ)) (r : Rule σ) :
    ofRules (rs ++ [r]) = (ofRules rs).register r := by
  rw [ofRules, List.foldl_append]
  rfl

theorem rulesFor_insert (t : RuleTable σ) (tag tag' : String) (rules : List (Rule σ)) :
    rulesFor (Entries.insert t tag' rules) tag = if tag' = tag then rules else rulesFor t tag := by
  rw [rulesFor, get?_insert]
  by_cases h : tag' = tag
  · rw [if_pos (beq_iff_eq.2 h), if_pos h]
    rfl
  · rw [if_neg fun hb => h (beq_iff_eq.1 hb), if_neg h]
    rfl

/-- A rule is inserted into the buckets of its names, and the others stay as they are. -/
theorem rulesFor_register (t : RuleTable σ) (r : Rule σ) (tag : String) :
    (t.register r).rulesFor tag =
      if tag ∈ r.tags then r.insertNew (t.rulesFor tag) else t.rulesFor tag := by
  have hfold (tags : List String) :
      rulesFor (tags.foldl (fun t tag => Entries.insert t tag (r.insertNew (rulesFor t tag))) t)
        tag = if tag ∈ tags then r.insertNew (t.rulesFor tag) else t.rulesFor tag := by
    induction tags generalizing t with
    | nil => rfl
    | cons tag' tags ih =>
      rw [List.foldl_cons, ih, rulesFor_insert]
      by_cases htag : tag' = tag
      · subst htag
        by_cases hmem : tag' ∈ tags <;> simp [hmem, Rule.insertNew_insertNew]
      · simp [htag, Ne.symm htag]
  exact hfold r.tags

/-- Of the rules that are registered for the elements with a name, this is the first one under its
own name. -/
def IsFirst (rs : List (Rule σ)) (tag : String) (r : Rule σ) : Prop :=
  ∃ earlier later, rs = earlier ++ r :: later ∧ tag ∈ r.tags ∧
    ∀ x ∈ earlier, tag ∈ x.tags → x.name ≠ r.name

theorem isFirst_append_singleton : IsFirst (rs ++ [x]) tag r ↔
    IsFirst rs tag r ∨
      r = x ∧ tag ∈ x.tags ∧ ∀ y ∈ rs, tag ∈ y.tags → y.name ≠ x.name := by
  constructor
  · rintro ⟨earlier, later, hrs, htag, hearlier⟩
    rcases later.eq_nil_or_concat with rfl | ⟨later, z, rfl⟩
    · obtain ⟨rfl, hx⟩ := List.append_inj' hrs rfl
      obtain rfl : x = r := List.singleton_inj.1 hx
      exact .inr ⟨rfl, htag, hearlier⟩
    · rw [List.concat_eq_append, ← List.cons_append, ← List.append_assoc] at hrs
      exact .inl ⟨earlier, later, (List.append_inj' hrs rfl).1, htag, hearlier⟩
  · rintro (⟨earlier, later, rfl, htag, hearlier⟩ | ⟨rfl, htag, hearlier⟩)
    · exact ⟨earlier, later ++ [x], by simp, htag, hearlier⟩
    · exact ⟨rs, [], rfl, htag, hearlier⟩

theorem IsFirst.mem (h : IsFirst rs tag r) : r ∈ rs ∧ tag ∈ r.tags := by
  obtain ⟨earlier, later, rfl, htag, -⟩ := h
  exact ⟨by simp, htag⟩

theorem IsFirst.eq (h : IsFirst rs tag r) (hx : IsFirst rs tag x) (hname : r.name = x.name) :
    r = x := by
  obtain ⟨earlier, later, rfl, htag, hearlier⟩ := h
  obtain ⟨earlier', later', hrs, hxtag, hearlier'⟩ := hx
  rcases List.append_eq_append_iff.1 hrs with ⟨between, rfl, hlater⟩ | ⟨between, rfl, hlater⟩
  · cases between with
    | nil => exact (List.cons.inj hlater).1
    | cons y between =>
      obtain rfl := (List.cons.inj hlater).1
      exact absurd hname (hearlier' r (by simp) htag)
  · cases between with
    | nil => exact (List.cons.inj hlater).1.symm
    | cons y between =>
      obtain rfl := (List.cons.inj hlater).1
      exact absurd hname.symm (hearlier x (by simp) hxtag)

/-- Some rule is the first under the name of a rule that was registered. -/
theorem exists_isFirst (hx : x ∈ rs) (htag : tag ∈ x.tags) :
    ∃ r, IsFirst rs tag r ∧ r.name = x.name := by
  have hsome : (rs.find? fun y => tag ∈ y.tags ∧ y.name = x.name).isSome :=
    List.find?_isSome.2 ⟨x, hx, by simpa using htag⟩
  obtain ⟨r, hr⟩ := Option.isSome_iff_exists.1 hsome
  obtain ⟨hfound, earlier, later, hrs, hearlier⟩ := List.find?_eq_some_iff_append.1 hr
  obtain ⟨hrtag, hname⟩ := of_decide_eq_true hfound
  refine ⟨r, ⟨earlier, later, hrs, hrtag, fun y hy hytag hyname => ?_⟩, hname⟩
  have hnot := hearlier y hy
  simp [hytag, hyname.trans hname] at hnot

/-! ### What a table holds -/

/-- **A bucket holds the first rule under each name, and nothing else.** -/
theorem mem_rulesFor_ofRules : r ∈ (ofRules rs).rulesFor tag ↔ IsFirst rs tag r := by
  induction rs using List.reverseRecOn generalizing r with
  | nil =>
    constructor
    · intro h
      cases h
    · rintro ⟨earlier, later, hrs, -⟩
      simp at hrs
  | append_singleton rs x ih =>
    -- the names that the bucket has are those that were registered for it
    have hnames : (∀ y ∈ (ofRules rs).rulesFor tag, y.name ≠ x.name) ↔
        ∀ y ∈ rs, tag ∈ y.tags → y.name ≠ x.name := by
      constructor
      · intro h y hy hytag
        obtain ⟨z, hz, hname⟩ := exists_isFirst hy hytag
        rw [← hname]
        exact h z (ih.2 hz)
      · intro h y hy
        obtain ⟨hmem, hytag⟩ := (ih.1 hy).mem
        exact h y hmem hytag
    rw [ofRules_append_singleton, rulesFor_register, isFirst_append_singleton]
    by_cases htag : tag ∈ x.tags
    · rw [if_pos htag, Rule.mem_insertNew, ih, hnames]
      simp [htag]
    · rw [if_neg htag, ih]
      simp [htag]

/-- **A bucket is in order.** -/
theorem pairwise_rulesFor (rs : List (Rule σ)) (tag : String) :
    ((ofRules rs).rulesFor tag).Pairwise Rule.Precedes := by
  induction rs using List.reverseRecOn with
  | nil => exact .nil
  | append_singleton rs x ih =>
    rw [ofRules_append_singleton, rulesFor_register]
    split_ifs
    · exact Rule.pairwise_insertNew ih x
    · exact ih

/-- No two rules of a bucket have the same name. -/
theorem nodup_names_rulesFor (rs : List (Rule σ)) (tag : String) :
    (((ofRules rs).rulesFor tag).map (·.name)).Nodup := by
  refine List.pairwise_map.2 ((pairwise_rulesFor rs tag).imp_of_mem ?_)
  intro a b ha hb hab hname
  rw [(mem_rulesFor_ofRules.1 ha).eq (mem_rulesFor_ofRules.1 hb) hname] at hab
  exact hab.asymm hab

theorem keys_register (h : (Entries.keys t).Nodup) (r : Rule σ) :
    (Entries.keys (t.register r)).Nodup ∧
      ∀ tag, tag ∈ Entries.keys (t.register r) ↔ tag ∈ Entries.keys t ∨ tag ∈ r.tags := by
  rw [register]
  generalize r.tags = tags
  induction tags generalizing t with
  | nil => simpa using h
  | cons tag' tags ih =>
    obtain ⟨hnodup, hmem⟩ := ih (t := Entries.insert t tag' (r.insertNew (rulesFor t tag')))
      (Entries.isDistinct_iff_nodup.1 ((Entries.isDistinct_iff_nodup.2 h).insert _ _))
    refine ⟨hnodup, fun tag => ?_⟩
    rw [List.foldl_cons, hmem, Entries.mem_keys_insert, List.mem_cons, or_assoc]

/-- A table has the names of elements that rules were registered for, each of them once. -/
theorem keys_ofRules (rs : List (Rule σ)) : (Entries.keys (ofRules rs)).Nodup ∧
    ∀ tag, tag ∈ Entries.keys (ofRules rs) ↔ ∃ r ∈ rs, tag ∈ r.tags := by
  induction rs using List.reverseRecOn with
  | nil => exact ⟨List.nodup_nil, fun tag => by simp [ofRules, Entries.keys]⟩
  | append_singleton rs r ih =>
    rw [ofRules_append_singleton]
    obtain ⟨hnodup, hmem⟩ := keys_register ih.1 r
    refine ⟨hnodup, fun tag => (hmem tag).trans ?_⟩
    rw [ih.2]
    simp [or_and_right, exists_or]

/-! ### Order of registration -/

/-- No two different rules compete for the same name in the same bucket. -/
def IsUncontested (rs : List (Rule σ)) : Prop :=
  ∀ a ∈ rs, ∀ b ∈ rs, a.name = b.name → ∀ tag ∈ a.tags, tag ∈ b.tags → a = b

theorem IsUncontested.isFirst_iff (h : IsUncontested rs) :
    IsFirst rs tag r ↔ r ∈ rs ∧ tag ∈ r.tags := by
  constructor
  · exact IsFirst.mem
  · rintro ⟨hr, htag⟩
    obtain ⟨earlier, later, rfl, hnot⟩ := List.eq_append_cons_of_mem hr
    refine ⟨earlier, later, rfl, htag, fun x hx hxtag hname => hnot ?_⟩
    rwa [← h x (by simp [hx]) r hr hname tag hxtag htag]

theorem IsUncontested.perm (h : IsUncontested rs) (hperm : rs.Perm rs') : IsUncontested rs' :=
  fun a ha b hb => h a (hperm.mem_iff.2 ha) b (hperm.mem_iff.2 hb)

theorem rulesFor_of_perm (h : IsUncontested rs) (hperm : rs.Perm rs') (tag : String) :
    (ofRules rs).rulesFor tag = (ofRules rs').rulesFor tag := by
  refine Rule.eq_of_mem_iff (pairwise_rulesFor rs tag) (pairwise_rulesFor rs' tag) fun r => ?_
  rw [mem_rulesFor_ofRules, mem_rulesFor_ofRules, h.isFirst_iff, (h.perm hperm).isFirst_iff,
    hperm.mem_iff]

/-- The names of elements do not depend on the order of registration at all. -/
theorem tags_of_perm (hperm : rs.Perm rs') : (ofRules rs).tags = (ofRules rs').tags := by
  have hsorted (names : List String) :
      (names.mergeSort fun a b => a ≤ b).Pairwise fun a b : String => a ≤ b := by
    refine (List.pairwise_mergeSort (fun a b c hab hbc => ?_) (fun a b => ?_) names).imp
      of_decide_eq_true
    · rw [decide_eq_true_eq] at *
      exact hab.trans hbc
    · rw [Bool.or_eq_true, decide_eq_true_eq, decide_eq_true_eq]
      exact le_total a b
  have hkeys : (Entries.keys (ofRules rs)).Perm (Entries.keys (ofRules rs')) := by
    refine (List.perm_ext_iff_of_nodup (keys_ofRules rs).1 (keys_ofRules rs').1).2 fun tag => ?_
    rw [(keys_ofRules rs).2, (keys_ofRules rs').2]
    simp [hperm.mem_iff]
  have htags : (ofRules rs).tags.Perm (ofRules rs').tags :=
    (List.mergeSort_perm _ _).trans (hkeys.trans (List.mergeSort_perm _ _).symm)
  exact htags.eq_of_pairwise (fun a b _ _ => le_antisymm) (hsorted _) (hsorted _)

theorem describe_of_perm (h : IsUncontested rs) (hperm : rs.Perm rs') :
    (ofRules rs).describe = (ofRules rs').describe := by
  have hbuckets : (ofRules rs).rulesFor = (ofRules rs').rulesFor := by
    funext tag
    exact rulesFor_of_perm h hperm tag
  rw [describe, describe, tags_of_perm hperm, hbuckets]

/-- **Buckets of rules.** After any sequence of registrations a bucket holds the first rule under
each name of the rules that were registered for it, and nothing else, and it is strictly increasing
in priority and name. Sequences that are permutations of each other give the same buckets and the
same description when no two different rules compete for one name in one bucket. -/
theorem buckets_law (rs : List (Rule σ)) :
    (∀ tag,
      (∀ r, r ∈ (ofRules rs).rulesFor tag ↔ IsFirst rs tag r) ∧
      (∀ x ∈ rs, tag ∈ x.tags → ∃ r ∈ (ofRules rs).rulesFor tag, r.name = x.name) ∧
      (((ofRules rs).rulesFor tag).map (·.name)).Nodup ∧
      ((ofRules rs).rulesFor tag).Pairwise Rule.Precedes) ∧
    ∀ rs', rs.Perm rs' → IsUncontested rs →
      (∀ tag, (ofRules rs).rulesFor tag = (ofRules rs').rulesFor tag) ∧
      (ofRules rs).describe = (ofRules rs').describe := by
  refine ⟨fun tag => ⟨fun r => mem_rulesFor_ofRules, fun x hx htag => ?_,
    nodup_names_rulesFor rs tag, pairwise_rulesFor rs tag⟩, fun rs' hperm h =>
      ⟨rulesFor_of_perm h hperm, describe_of_perm h hperm⟩⟩
  obtain ⟨r, hr, hname⟩ := exists_isFirst hx htag
  exact ⟨r, mem_rulesFor_ofRules.2 hr, hname⟩

end RuleTable

/-- A rule that notes on which elements it is executed. -/
def Rule.note (name : String) (priority : Int) (tags : List String) (autoMark nestable : Bool) :
    Rule (List (String × ℕ)) where
  name := name
  priority := priority
  tags := tags
  autoMark := autoMark
  nestable := nestable
  handler e w := (e, { w with data := w.data ++ [(name, e.tag.id)] }, none)

/-- Rules of several kinds, two of them with one name and different buckets. -/
def fourNotes : List (Rule (List (String × ℕ))) :=
  [.note "second" 1 ["p", "em", "p"] true true, .note "fold" 2 ["em"] false false,
    .note "first" 0 ["p"] true true, .note "second" 3 ["div"] false true]

namespace RuleTable

theorem buckets_law_fourNotes :
    fourNotes.Perm fourNotes.reverse ∧ IsUncontested fourNotes ∧
      (∀ tag, (ofRules fourNotes).rulesFor tag = (ofRules fourNotes.reverse).rulesFor tag) ∧
      (ofRules fourNotes).describe = (ofRules fourNotes.reverse).describe := by
  have hperm : fourNotes.Perm fourNotes.reverse := (List.reverse_perm _).symm
  have huncontested : IsUncontested fourNotes := by simp [IsUncontested, fourNotes, Rule.note]
  exact ⟨hperm, huncontested, (buckets_law fourNotes).2 _ hperm huncontested⟩

example : ((ofRules fourNotes).rulesFor "p").map (·.name) = ["first", "second"] := by decide

end RuleTable

end CodeHighlight
