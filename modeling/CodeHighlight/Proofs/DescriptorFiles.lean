import CodeHighlight.Packages.Directory
import CodeHighlight.Proofs.Lines
import CodeHighlight.Proofs.Outcomes
import CodeHighlight.Proofs.RegistryMerge
import CodeHighlight.Proofs.Utf8
import Mathlib.Data.String.Basic

/-!
# Files of descriptors

Main statement: `directory_law`. However files are read, values are checked and grammars are made,
what a directory declares depends on its descriptor files only, not on the order in which it lists
them. If all of them are valid, each key has the grammar of the last file, in the order of names,
that declares it, and keys share a grammar exactly when the same file won them. If one is invalid,
the first of these decides the failure, which names the file.

Merging files is described from the front: the file that fails first (`merge_of_fails`), and the
last file with a key (`get?_merge`). No directory is left out: its descriptors are all valid, or one
is the first that is not (`valid_or_failsFirst`). With YAML and a supply as the tools, a file with a
text is read as that text with its line breaks unified (`readYaml_text`), and a file that is not
UTF-8 is invalid (`fails_of_decode`).
-/

namespace CodeHighlight.Directory
open Entries (get? has)
open Text.Utf8 (Bytes)
variable {tools : Tools} {supply : Supply} {file : String × Resource} {k : String} {t : Trace}

/-! ### Descriptor files -/

/-- An entry that holds a descriptor: no folder, and its name ends with one of the suffixes. -/
def HoldsDescriptor (e : String × Resource) : Prop :=
  e.2 ≠ .folder ∧ ∃ base, ∃ suffix ∈ suffixes, e.1 = base ++ suffix

/-- A file declares a grammar under keys: the value in it is a valid descriptor, and a grammar can
be made from it. The keys are those that the descriptor lists; if it lists none, the name of the
file without its suffix is the key. -/
def Declares (tools : Tools) (file : String × Resource) (keys : List String) (g : Grammar) : Prop :=
  ∃ v d, tools.read file.2 = .ok v ∧ tools.check v = .ok d ∧ tools.build d = .ok g ∧
    if d.keys = [] then ∃ base, ∃ suffix ∈ suffixes, file.1 = base ++ suffix ∧ keys = [base]
    else keys = d.keys

/-- A file is invalid: there is no value in it, the value is no valid descriptor, or no grammar can
be made from the descriptor. -/
def Fails (tools : Tools) (file : String × Resource) (t : Trace) : Prop :=
  tools.read file.2 = .error t ∨ ∃ v, tools.read file.2 = .ok v ∧
    (tools.check v = .error t ∨ ∃ d, tools.check v = .ok d ∧ tools.build d = .error t)

/-- A file is valid. -/
def IsValid (tools : Tools) (file : String × Resource) : Prop :=
  ∃ keys g, Declares tools file keys g

/-- A file is valid and declares a key. -/
def DeclaresKey (tools : Tools) (file : String × Resource) (k : String) : Prop :=
  ∃ keys g, Declares tools file keys g ∧ k ∈ keys

/-- Of the descriptor files that declare a key, this one is the last in the order of names. -/
structure Wins (tools : Tools) (entries : List (String × Resource)) (file : String × Resource)
    (k : String) : Prop where
  mem : file ∈ entries
  holds : HoldsDescriptor file
  declares : DeclaresKey tools file k
  last : ∀ other ∈ entries, HoldsDescriptor other → DeclaresKey tools other k → other.1 ≤ file.1

/-- Of the descriptor files that are invalid, this one is the first in the order of names. -/
structure FailsFirst (tools : Tools) (entries : List (String × Resource))
    (file : String × Resource) (t : Trace) : Prop where
  mem : file ∈ entries
  holds : HoldsDescriptor file
  fails : Fails tools file t
  first : ∀ other ∈ entries, HoldsDescriptor other → other.1 < file.1 → IsValid tools other

theorem isDescriptor_eq_true_iff {e : String × Resource} :
    isDescriptor e = true ↔ HoldsDescriptor e := by
  have hname : (suffixes.any fun s => e.1.endsWith s) = true ↔
      ∃ base, ∃ suffix ∈ suffixes, e.1 = base ++ suffix := by
    rw [List.any_eq_true]
    constructor
    · rintro ⟨suffix, hsuffix, h⟩
      obtain ⟨base, h⟩ := Text.endsWith_iff.1 h
      exact ⟨base, suffix, hsuffix, h⟩
    · rintro ⟨base, suffix, hsuffix, h⟩
      exact ⟨suffix, hsuffix, Text.endsWith_iff.2 ⟨base, h⟩⟩
  obtain ⟨name, content⟩ := e
  cases content with
  | folder => exact ⟨fun h => absurd h Bool.false_ne_true, fun h => absurd rfl h.1⟩
  | file bytes => exact hname.trans ⟨fun h => ⟨Resource.noConfusion, h⟩, And.right⟩
  | data v => exact hname.trans ⟨fun h => ⟨Resource.noConfusion, h⟩, And.right⟩

/-- The name of a file without its suffix. -/
theorem stem_append {base suffix : String} (h : suffix ∈ suffixes) :
    stem (base ++ suffix) = base := by
  obtain ⟨ending, hsuffix, hending⟩ :
      ∃ ending : List Char, suffix.toList = '.' :: ending ∧ '.' ∉ ending := by
    simp only [suffixes, List.mem_cons, List.not_mem_nil, or_false] at h
    rcases h with rfl | rfl
    · exact ⟨"yml".toList, rfl, by decide⟩
    · exact ⟨"yaml".toList, rfl, by decide⟩
  have hparts : Text.cutAt '.' (base ++ suffix).toList =
      Text.cutAt '.' base.toList ++ [ending] := by
    rw [String.toList_append, hsuffix, Text.cutAt_append, Text.cutAt_of_not_mem hending]
  have hpos := List.length_pos_of_ne_nil (Text.cutAt_ne_nil '.' base.toList)
  unfold stem
  dsimp only
  rw [hparts, if_neg (by rw [List.length_append, List.length_singleton]; omega),
    List.dropLast_concat, Text.joinWith_cutAt, String.ofList_toList]

/-! ### One file -/

theorem declare_eq (tools : Tools) (file : String × Resource) :
    tools.declare file =
      (tools.read file.2 >>= tools.describe (stem file.1)).mapError (named file.1) := rfl

theorem declare_eq_ok_iff (hfile : HoldsDescriptor file) {d : Described} :
    tools.declare file = .ok d ↔ Declares tools file d.keys d.grammar := by
  obtain ⟨base, suffix, hsuffix, hname⟩ := hfile.2
  have hstem : stem file.1 = base := by rw [hname, stem_append hsuffix]
  rw [declare_eq, Except.mapError_eq_ok_iff, hstem]
  unfold Tools.describe
  simp only [Except.bind_eq_ok_iff]
  constructor
  · rintro ⟨v, hv, descriptor, hdescriptor, g, hg, h⟩
    cases h
    refine ⟨v, descriptor, hv, hdescriptor, hg, ?_⟩
    simp only [List.isEmpty_iff]
    split_ifs
    · exact ⟨base, suffix, hsuffix, hname, rfl⟩
    · rfl
  · rintro ⟨v, descriptor, hv, hdescriptor, hg, hkeys⟩
    refine ⟨v, hv, descriptor, hdescriptor, d.grammar, hg, ?_⟩
    simp only [List.isEmpty_iff]
    split_ifs at hkeys ⊢ with hempty
    · obtain ⟨base', suffix', hsuffix', hname', hkeys⟩ := hkeys
      have hbase : base' = base := by rw [← hstem, hname', stem_append hsuffix']
      rw [← hbase, ← hkeys]
      rfl
    · rw [← hkeys]
      rfl

theorem bind_describe_eq_error_iff :
    (tools.read file.2 >>= tools.describe (stem file.1)) = .error t ↔ Fails tools file t := by
  unfold Tools.describe Fails
  simp only [Except.bind_eq_error_iff]
  constructor
  · rintro (hread | ⟨v, hv, hcheck | ⟨d, hd, hbuild | ⟨g, -, h⟩⟩⟩)
    · exact .inl hread
    · exact .inr ⟨v, hv, .inl hcheck⟩
    · exact .inr ⟨v, hv, .inr ⟨d, hd, hbuild⟩⟩
    · cases h
  · rintro (hread | ⟨v, hv, hcheck | ⟨d, hd, hbuild⟩⟩)
    · exact .inl hread
    · exact .inr ⟨v, hv, .inl hcheck⟩
    · exact .inr ⟨v, hv, .inr ⟨d, hd, .inl hbuild⟩⟩

theorem IsValid.declare (hfile : HoldsDescriptor file) (h : IsValid tools file) :
    ∃ d, tools.declare file = .ok d := by
  obtain ⟨keys, g, h⟩ := h
  exact ⟨⟨keys, g⟩, (declare_eq_ok_iff hfile).2 h⟩

theorem Fails.declare (h : Fails tools file t) :
    tools.declare file = .error (named file.1 t) := by
  rw [declare_eq, bind_describe_eq_error_iff.2 h]
  rfl

/-- A file is either valid or it fails. -/
theorem isValid_or_fails (tools : Tools) (hfile : HoldsDescriptor file) :
    IsValid tools file ∨ ∃ t, Fails tools file t := by
  cases h : tools.declare file with
  | ok d => exact .inl ⟨d.keys, d.grammar, (declare_eq_ok_iff hfile).1 h⟩
  | error e =>
    rw [declare_eq, Except.mapError_eq_error_iff] at h
    obtain ⟨t, ht, -⟩ := h
    exact .inr ⟨t, bind_describe_eq_error_iff.1 ht⟩

theorem declaresKey_iff (hfile : HoldsDescriptor file) {d : Described}
    (h : tools.declare file = .ok d) : DeclaresKey tools file k ↔ k ∈ d.keys := by
  constructor
  · rintro ⟨keys, g, hdeclares, hk⟩
    have hd : tools.declare file = .ok ⟨keys, g⟩ := (declare_eq_ok_iff hfile).2 hdeclares
    cases h.symm.trans hd
    exact hk
  · exact fun hk => ⟨d.keys, d.grammar, (declare_eq_ok_iff hfile).1 h, hk⟩

/-- A file whose keys are read is valid and declares these keys. -/
theorem isValid_of_keys (hfile : HoldsDescriptor file) {keys : List String}
    (h : Except.givesWith (fun d => d.keys == keys) (tools.declare file) = true) :
    IsValid tools file ∧ ∀ k, DeclaresKey tools file k ↔ k ∈ keys := by
  obtain ⟨d, hd, hkeys⟩ := Except.givesWith_iff.1 h
  rw [← eq_of_beq hkeys]
  exact ⟨⟨d.keys, d.grammar, (declare_eq_ok_iff hfile).1 hd⟩, fun k => declaresKey_iff hfile hd⟩

theorem Declares.unique {keys keys' : List String} {g g' : Grammar}
    (h : Declares tools file keys g) (h' : Declares tools file keys' g') : g = g' := by
  obtain ⟨v, d, hv, hd, hbuild, -⟩ := h
  obtain ⟨v', d', hv', hd', hbuild', -⟩ := h'
  cases hv.symm.trans hv'
  cases hd.symm.trans hd'
  exact Except.ok.inj (hbuild.symm.trans hbuild')

/-! ### YAML as the text of files -/

/-- A file with a text holds what the text holds. -/
theorem readYaml_text (s : String) :
    Tools.readYaml (.text s) = Yaml.read (String.ofList (Text.unifyBreaks s.toList)) := by
  show (Text.ofFile (Text.Utf8.ofString s)).bind Yaml.read = _
  unfold Text.ofFile
  rw [Text.Utf8.decode_ofString]
  rfl

/-- A file that is not UTF-8 is invalid, and this is a defect of the file. -/
theorem fails_of_decode (name : String) {bytes : Bytes} {e : Text.Utf8.Error}
    (h : Text.Utf8.decode bytes = .error e) :
    Fails (.ofSupply supply) (name, .file bytes) (.plain .decoding e.message) ∧
      isDefect (.plain .decoding e.message) = true := by
  constructor
  · left
    show (Text.ofFile bytes).bind Yaml.read = _
    unfold Text.ofFile
    rw [h]
    rfl
  · rfl

/-! ### Merging files -/

section Merge
variable {files before after : List (String × Resource)} {gs out : Entries String Grammar} {n : ℕ}

theorem get?_entries (d : Described) (k : String) :
    get? d.entries k = if k ∈ d.keys then some d.grammar else none := by
  have hwritten : ∀ (keys : List String) (es : Entries String Grammar),
      get? (Entries.update es (keys.map fun q => (q, d.grammar))) k =
        if k ∈ keys then some d.grammar else get? es k := by
    intro keys
    induction keys with
    | nil => exact fun es => rfl
    | cons q keys ih =>
      intro es
      show get? (Entries.update (Entries.insert es q d.grammar) _) k = _
      rw [ih, Entries.get?_insert]
      by_cases hk : k ∈ keys
      · rw [if_pos hk, if_pos (List.mem_cons_of_mem q hk)]
      · have hmem : k ∈ q :: keys ↔ (q == k) = true := by
          rw [List.mem_cons, or_iff_left hk, beq_iff_eq, eq_comm]
        rw [if_neg hk]
        exact if_congr hmem.symm rfl rfl
  exact hwritten d.keys []

theorem get?_update_entries (gs : Entries String Grammar) (d : Described) (k : String) :
    get? (Entries.update gs d.entries) k = if k ∈ d.keys then some d.grammar else get? gs k := by
  have hdistinct : Entries.IsDistinct d.entries := Entries.isDistinct_ofList _
  rw [Entries.get?_update hdistinct, get?_entries]
  split_ifs <;> rfl

theorem merge_cons_of_declare {d : Described} (h : tools.declare file = .ok d) :
    merge tools gs n (file :: files) =
      merge tools (Entries.update gs (d.numbered n).entries) (n + 1) files := by
  rw [merge, h]
  rfl

/-- The first invalid file decides. -/
theorem merge_of_fails (hbefore : ∀ f ∈ before, HoldsDescriptor f ∧ IsValid tools f)
    (h : Fails tools file t) :
    merge tools gs n (before ++ file :: after) = .error (named file.1 t) := by
  induction before generalizing gs n with
  | nil =>
    rw [List.nil_append, merge, h.declare]
    rfl
  | cons f before ih =>
    obtain ⟨hf, hbefore⟩ := List.forall_mem_cons.1 hbefore
    obtain ⟨d, hd⟩ := hf.2.declare hf.1
    rw [List.cons_append, merge_cons_of_declare hd]
    exact ih hbefore

theorem exists_merge (h : ∀ f ∈ files, HoldsDescriptor f ∧ IsValid tools f) :
    ∃ out, merge tools gs n files = .ok out := by
  induction files generalizing gs n with
  | nil => exact ⟨gs, rfl⟩
  | cons f files ih =>
    obtain ⟨hf, hfiles⟩ := List.forall_mem_cons.1 h
    obtain ⟨d, hd⟩ := hf.2.declare hf.1
    rw [merge_cons_of_declare hd]
    exact ih hfiles

/-- A key that no file declares keeps its grammar. -/
theorem get?_merge_of_not_declares (hfiles : ∀ f ∈ files, HoldsDescriptor f)
    (h : merge tools gs n files = .ok out)
    (hk : ∀ f ∈ files, ¬DeclaresKey tools f k) : get? out k = get? gs k := by
  induction files generalizing gs n with
  | nil =>
    cases h
    rfl
  | cons f files ih =>
    obtain ⟨hf, hfiles⟩ := List.forall_mem_cons.1 hfiles
    obtain ⟨hkf, hk⟩ := List.forall_mem_cons.1 hk
    rw [merge, Except.bind_eq_ok_iff] at h
    obtain ⟨d, hd, h⟩ := h
    rw [ih hfiles h hk, get?_update_entries]
    exact if_neg ((declaresKey_iff hf hd).not.1 hkf)

/-- The last file that declares a key gives the grammar of the key. -/
theorem get?_merge (hfiles : ∀ f ∈ before ++ file :: after, HoldsDescriptor f)
    (h : merge tools gs n (before ++ file :: after) = .ok out)
    (hk : DeclaresKey tools file k) (hafter : ∀ f ∈ after, ¬DeclaresKey tools f k) :
    ∃ keys g, Declares tools file keys g ∧ k ∈ keys ∧
      get? out k = some { g with serial := n + before.length } := by
  induction before generalizing gs n with
  | nil =>
    obtain ⟨hfile, hfiles⟩ := List.forall_mem_cons.1 hfiles
    rw [List.nil_append, merge, Except.bind_eq_ok_iff] at h
    obtain ⟨d, hd, h⟩ := h
    have hkd := (declaresKey_iff hfile hd).1 hk
    refine ⟨d.keys, d.grammar, (declare_eq_ok_iff hfile).1 hd, hkd, ?_⟩
    rw [get?_merge_of_not_declares hfiles h hafter, get?_update_entries]
    exact if_pos hkd
  | cons f before ih =>
    obtain ⟨-, hfiles⟩ := List.forall_mem_cons.1 hfiles
    rw [List.cons_append, merge, Except.bind_eq_ok_iff] at h
    obtain ⟨d, -, h⟩ := h
    obtain ⟨keys, g, hg, hkg⟩ := ih hfiles h
    rw [List.length_cons, Nat.add_comm before.length, ← Nat.add_assoc]
    exact ⟨keys, g, hg, hkg⟩

end Merge

/-! ### Directories -/

section Directories
variable {entries entries' : List (String × Resource)}

theorem mem_descriptors {e : String × Resource} :
    e ∈ descriptors entries ↔ e ∈ entries ∧ HoldsDescriptor e := by
  rw [descriptors, List.mem_mergeSort, List.mem_filter, isDescriptor_eq_true_iff]

theorem nodup_descriptors (h : (entries.map Prod.fst).Nodup) :
    ((descriptors entries).map Prod.fst).Nodup := by
  have hsub := (List.filter_sublist (p := isDescriptor) (l := entries)).map Prod.fst
  exact (((List.mergeSort_perm _ _).map Prod.fst).nodup_iff).2 (h.sublist hsub)

/-- Files with names of their own stand in the order of their names. -/
theorem pairwise_descriptors (h : (entries.map Prod.fst).Nodup) :
    (descriptors entries).Pairwise fun a b => a.1 < b.1 := by
  have hle : (descriptors entries).Pairwise fun a b => a.1 ≤ b.1 := by
    have hsorted : ((entries.filter isDescriptor).mergeSort fun a b => a.1 ≤ b.1).Pairwise
        fun a b => decide (a.1 ≤ b.1) = true :=
      List.pairwise_mergeSort
        (fun a b c hab hbc =>
          decide_eq_true ((of_decide_eq_true hab).trans (of_decide_eq_true hbc)))
        (fun a b => by simpa using le_total a.1 b.1) _
    exact hsorted.imp of_decide_eq_true
  exact hle.imp₂ (fun a b => lt_of_le_of_ne) (List.pairwise_map.1 (nodup_descriptors h))

/-- The same descriptor files are read in the same order. -/
theorem descriptors_congr (h : (entries.map Prod.fst).Nodup) (h' : (entries'.map Prod.fst).Nodup)
    (hmem : ∀ e, HoldsDescriptor e → (e ∈ entries' ↔ e ∈ entries)) :
    descriptors entries' = descriptors entries := by
  have hperm : (descriptors entries').Perm (descriptors entries) := by
    refine (List.perm_ext_iff_of_nodup (nodup_descriptors h').of_map (nodup_descriptors h).of_map).2
      fun e => ?_
    rw [mem_descriptors, mem_descriptors]
    exact and_congr_left (hmem e)
  exact hperm.eq_of_pairwise (fun a b _ _ hab hba => absurd hba hab.not_gt)
    (pairwise_descriptors h') (pairwise_descriptors h)

/-- The winner of a key gives its grammar; the serial number of the grammar is the place of the
winner. -/
theorem Wins.get? (hnames : (entries.map Prod.fst).Nodup) (hwins : Wins tools entries file k)
    {gs : Entries String Grammar} (h : grammars tools entries = .ok gs) :
    ∃ i keys g, (descriptors entries)[i]? = some file ∧ Declares tools file keys g ∧ k ∈ keys ∧
      get? gs k = some { g with serial := i } := by
  obtain ⟨before, after, hsplit⟩ :=
    List.mem_iff_append.1 (mem_descriptors.2 ⟨hwins.mem, hwins.holds⟩)
  have hsorted := pairwise_descriptors hnames
  have hholds : ∀ f ∈ descriptors entries, f ∈ entries ∧ HoldsDescriptor f :=
    fun f => mem_descriptors.1
  rw [hsplit] at hsorted hholds
  rw [grammars, hsplit] at h
  -- a later file that declares the key would have won it
  have hafter : ∀ f ∈ after, ¬DeclaresKey tools f k := by
    intro f hf hk
    have hlt : file.1 < f.1 :=
      (List.pairwise_cons.1 (List.pairwise_append.1 hsorted).2.1).1 f hf
    obtain ⟨hmem, hfile⟩ := hholds f (List.mem_append_right _ (List.mem_cons_of_mem _ hf))
    exact absurd (hwins.last f hmem hfile hk) hlt.not_ge
  obtain ⟨keys, g, hdeclares, hk, hget⟩ :=
    get?_merge (fun f hf => (hholds f hf).2) h hwins.declares hafter
  rw [Nat.zero_add] at hget
  exact ⟨before.length, keys, g, by rw [hsplit]; simp, hdeclares, hk, hget⟩

theorem grammars_of_fails (hnames : (entries.map Prod.fst).Nodup)
    (h : FailsFirst tools entries file t) :
    grammars tools entries = .error (named file.1 t) := by
  obtain ⟨before, after, hsplit⟩ := List.mem_iff_append.1 (mem_descriptors.2 ⟨h.mem, h.holds⟩)
  have hsorted := pairwise_descriptors hnames
  rw [hsplit] at hsorted
  rw [grammars, hsplit]
  refine merge_of_fails (fun f hf => ?_) h.fails
  have hmem : f ∈ descriptors entries := by
    rw [hsplit]
    exact List.mem_append_left _ hf
  obtain ⟨hentry, hfile⟩ := mem_descriptors.1 hmem
  have hlt : f.1 < file.1 := (List.pairwise_append.1 hsorted).2.2 f hf file List.mem_cons_self
  exact ⟨hfile, h.first f hentry hfile hlt⟩

/-- Among the items of a list with a property there is one whose place in an order is last. -/
theorem exists_last {α β : Type} [LinearOrder β] (place : α → β) {xs : List α} {P : α → Prop}
    (h : ∃ x ∈ xs, P x) : ∃ x ∈ xs, P x ∧ ∀ y ∈ xs, P y → place y ≤ place x := by
  classical
  let among := (xs.filter fun x => P x).toFinset
  have hamong : ∀ x, x ∈ among ↔ x ∈ xs ∧ P x := fun x => by simp [among]
  obtain ⟨x, hx, hPx⟩ := h
  obtain ⟨last, hmem, hlast⟩ := among.exists_max_image place ⟨x, (hamong x).2 ⟨hx, hPx⟩⟩
  obtain ⟨hxs, hP⟩ := (hamong last).1 hmem
  exact ⟨last, hxs, hP, fun y hy hPy => hlast y ((hamong y).2 ⟨hy, hPy⟩)⟩

/-- Some file wins every key that is declared. -/
theorem exists_wins (hfile : file ∈ entries) (hholds : HoldsDescriptor file)
    (hk : DeclaresKey tools file k) : ∃ winner, Wins tools entries winner k := by
  obtain ⟨winner, hmem, ⟨hw, hkw⟩, hlast⟩ :=
    exists_last (P := fun e => HoldsDescriptor e ∧ DeclaresKey tools e k) Prod.fst
      ⟨file, hfile, hholds, hk⟩
  exact ⟨winner, hmem, hw, hkw, fun other ho hho hko => hlast other ho ⟨hho, hko⟩⟩

/-- Either all descriptor files are valid, or one of them is the first that is not. -/
theorem valid_or_failsFirst (tools : Tools) (entries : List (String × Resource)) :
    (∀ file ∈ entries, HoldsDescriptor file → IsValid tools file) ∨
      ∃ file t, FailsFirst tools entries file t := by
  by_cases hvalid : ∀ file ∈ entries, HoldsDescriptor file → IsValid tools file
  · exact .inl hvalid
  push Not at hvalid
  obtain ⟨file, hmem, ⟨hholds, hnot⟩, hfirst⟩ :=
    exists_last (P := fun e => HoldsDescriptor e ∧ ¬IsValid tools e)
      (fun e => OrderDual.toDual e.1) hvalid
  obtain ⟨t, ht⟩ := (isValid_or_fails tools hholds).resolve_left hnot
  refine .inr ⟨file, t, hmem, hholds, ht, fun other ho hho hlt => ?_⟩
  by_contra hinvalid
  exact absurd hlt (OrderDual.toDual_le_toDual.1 (hfirst other ho ⟨hho, hinvalid⟩)).not_gt

end Directories

/-! ### The main result -/

/-- **The law of descriptor directories.** Let the entries of a directory have names of their own.

* Entries that hold no descriptor have no effect, and neither has the order of the entries.
* If all descriptor files are valid, the keys are those that some file declares, each with the
  grammar of the last file, in the order of names, that declares it. Two keys share a grammar
  exactly when the same file won both.
* If a file is the first, in the order of names, that is invalid, there are no grammars at all. A
  defect of its text or its values is reported as a value failure that names the file; any other
  failure stays as it is. -/
theorem directory_law (tools : Tools) (entries : List (String × Resource))
    (hnames : (entries.map Prod.fst).Nodup) :
    let declared := grammars tools
    (∀ entries', (entries'.map Prod.fst).Nodup →
      (∀ e, HoldsDescriptor e → (e ∈ entries' ↔ e ∈ entries)) →
        declared entries' = declared entries) ∧
    ((∀ file ∈ entries, HoldsDescriptor file → IsValid tools file) →
      ∃ gs, declared entries = .ok gs ∧
        (∀ k, has gs k = true ↔
          ∃ file ∈ entries, HoldsDescriptor file ∧ DeclaresKey tools file k) ∧
        (∀ file k, Wins tools entries file k → ∃ keys g serial,
          Declares tools file keys g ∧ k ∈ keys ∧ get? gs k = some { g with serial }) ∧
        ∀ file k g file' k' g', Wins tools entries file k → Wins tools entries file' k' →
          get? gs k = some g → get? gs k' = some g' →
            (g.serial = g'.serial ↔ file = file') ∧ (file = file' → g = g')) ∧
    ∀ file t, FailsFirst tools entries file t →
      if isDefect t then
        ∃ e, declared entries = .error e ∧ e.kind = .value ∧
          e.message = "invalid grammar descriptor '" ++ file.1 ++ "': " ++ t.message
      else declared entries = .error t := by
  intro declared
  refine ⟨fun entries' h' hmem => ?_, fun hvalid => ?_, fun file t hfails => ?_⟩
  · show merge _ _ _ (descriptors entries') = merge _ _ _ (descriptors entries)
    rw [descriptors_congr hnames h' hmem]
  · have hfiles : ∀ f ∈ descriptors entries, HoldsDescriptor f ∧ IsValid tools f := by
      intro f hf
      obtain ⟨hmem, hfile⟩ := mem_descriptors.1 hf
      exact ⟨hfile, hvalid f hmem hfile⟩
    obtain ⟨gs, hgs⟩ : ∃ gs, declared entries = .ok gs := exists_merge hfiles
    refine ⟨gs, hgs, fun k => ?_, fun file k hwins => ?_, ?_⟩
    · rw [Entries.has_eq_isSome]
      constructor
      · intro hsome
        by_contra hnone
        push Not at hnone
        have hget := get?_merge_of_not_declares (fun f hf => (hfiles f hf).1) hgs (k := k)
          fun f hf => hnone f (mem_descriptors.1 hf).1 (mem_descriptors.1 hf).2
        rw [hget] at hsome
        cases hsome
      · rintro ⟨file, hmem, hfile, hk⟩
        obtain ⟨winner, hwins⟩ := exists_wins hmem hfile hk
        obtain ⟨i, keys, g, -, -, -, hget⟩ := hwins.get? hnames hgs
        rw [hget]
        rfl
    · obtain ⟨i, keys, g, -, hdeclares, hk, hget⟩ := hwins.get? hnames hgs
      exact ⟨keys, g, i, hdeclares, hk, hget⟩
    · intro file k g file' k' g' hwins hwins' hg hg'
      obtain ⟨i, keys, made, hi, hdeclares, -, hget⟩ := hwins.get? hnames hgs
      obtain ⟨i', keys', made', hi', hdeclares', -, hget'⟩ := hwins'.get? hnames hgs
      cases hg.symm.trans hget
      cases hg'.symm.trans hget'
      have hplace : i = i' ↔ file = file' := by
        constructor
        · rintro rfl
          exact Option.some.inj (hi.symm.trans hi')
        · rintro rfl
          have hlt : i < (descriptors entries).length := (List.getElem?_eq_some_iff.1 hi).1
          exact (List.getElem?_inj hlt (nodup_descriptors hnames).of_map).1 (hi.trans hi'.symm)
      refine ⟨hplace, ?_⟩
      rintro rfl
      cases hplace.2 rfl
      rw [hdeclares.unique hdeclares']
  · have herror : declared entries = .error (named file.1 t) := grammars_of_fails hnames hfails
    rw [herror]
    unfold named
    split_ifs
    · exact ⟨_, rfl, Trace.kind_raiseFrom _ _, Trace.message_raiseFrom _ _⟩
    · rfl

/-! Two descriptors share the key `x`. They are listed in the reverse order of their names, with a
file between them that holds no descriptor; a third file is not UTF-8. -/

/-- YAML, and lexers for two languages. -/
def lexerTools : Tools := .ofSupply { lexers := ["rust", "toml"] }

def rustFile : String × Resource :=
  ("rust.yaml", .text "name: Rust\ntype: pygments\nlexer: rust\nkeys: [rs, x]\n")

def tomlFile : String × Resource :=
  ("a.yml", .text "name: TOML\ntype: pygments\nlexer: toml\nkeys: [x, y]\n")

def notesFile : String × Resource := ("notes.txt", .text "keys: [y]\n")

def garbledFile : String × Resource := ("b.yml", .file [0x6e, 0xff])

/-- A directory of valid descriptors. -/
def overriding : List (String × Resource) := [rustFile, notesFile, tomlFile]

theorem mem_overriding :
    file ∈ overriding ↔ file = rustFile ∨ file = notesFile ∨ file = tomlFile := by
  rw [overriding, List.mem_cons, List.mem_cons, List.mem_singleton]

theorem rustFile_holds : HoldsDescriptor rustFile :=
  ⟨Resource.noConfusion, "rust", ".yaml", by simp [suffixes], by simp [rustFile]⟩

theorem tomlFile_holds : HoldsDescriptor tomlFile :=
  ⟨Resource.noConfusion, "a", ".yml", by simp [suffixes], by simp [tomlFile]⟩

theorem garbledFile_holds : HoldsDescriptor garbledFile :=
  ⟨Resource.noConfusion, "b", ".yml", by simp [suffixes], by simp [garbledFile]⟩

theorem notesFile_not_holds : ¬HoldsDescriptor notesFile := by
  rintro ⟨-, base, suffix, hsuffix, hname⟩
  have hlast : suffix.toList.getLast? = some 'l' := by
    simp only [suffixes, List.mem_cons, List.not_mem_nil, or_false] at hsuffix
    rcases hsuffix with rfl | rfl <;> rfl
  have hnotes := congrArg (fun name => name.toList.getLast?) hname
  simp [notesFile, hlast] at hnotes

theorem rustFile_valid : IsValid lexerTools rustFile ∧
    ∀ k, DeclaresKey lexerTools rustFile k ↔ k ∈ ["rs", "x"] :=
  isValid_of_keys rustFile_holds (by decide +kernel)

theorem tomlFile_valid : IsValid lexerTools tomlFile ∧
    ∀ k, DeclaresKey lexerTools tomlFile k ↔ k ∈ ["x", "y"] :=
  isValid_of_keys tomlFile_holds (by decide +kernel)

theorem overriding_valid (h : file ∈ overriding) (hholds : HoldsDescriptor file) :
    IsValid lexerTools file := by
  rcases mem_overriding.1 h with rfl | rfl | rfl
  · exact rustFile_valid.1
  · exact absurd hholds notesFile_not_holds
  · exact tomlFile_valid.1

theorem rustFile_wins : Wins lexerTools overriding rustFile "x" where
  mem := mem_overriding.2 (.inl rfl)
  holds := rustFile_holds
  declares := (rustFile_valid.2 "x").2 (by decide)
  last other hother _ _ := by
    rcases mem_overriding.1 hother with rfl | rfl | rfl
    · exact le_rfl
    · decide
    · decide

theorem tomlFile_wins : Wins lexerTools overriding tomlFile "y" where
  mem := mem_overriding.2 (.inr (.inr rfl))
  holds := tomlFile_holds
  declares := (tomlFile_valid.2 "y").2 (by decide)
  last other hother hholds hy := by
    rcases mem_overriding.1 hother with rfl | rfl | rfl
    · exact absurd ((rustFile_valid.2 "y").1 hy) (by decide)
    · exact absurd hholds notesFile_not_holds
    · exact le_rfl

theorem garbledFile_failsFirst :
    ∃ t, isDefect t = true ∧ FailsFirst lexerTools (garbledFile :: overriding) garbledFile t := by
  obtain ⟨e, he⟩ : ∃ e, Text.Utf8.decode [0x6e, 0xff] = .error e :=
    ⟨⟨0xff, 1, 1, .start⟩, by decide +kernel⟩
  obtain ⟨hfails, hdefect⟩ := fails_of_decode "b.yml" he
  refine ⟨_, hdefect, List.mem_cons_self, garbledFile_holds, hfails,
    fun other hother hholds hlt => ?_⟩
  rcases List.mem_cons.1 hother with rfl | hother
  · exact absurd hlt (lt_irrefl _)
  · exact overriding_valid hother hholds

theorem directory_law_overriding :
    (overriding.map Prod.fst).Nodup ∧ ((garbledFile :: overriding).map Prod.fst).Nodup ∧
      (∃ gs g g', grammars lexerTools overriding = .ok gs ∧
        get? gs "x" = some g ∧ get? gs "y" = some g' ∧ g.serial ≠ g'.serial) ∧
      ∃ e, grammars lexerTools (garbledFile :: overriding) = .error e ∧
        e.kind = .value := by
  have hnames : (overriding.map Prod.fst).Nodup := by decide
  have hnames' : ((garbledFile :: overriding).map Prod.fst).Nodup := by decide
  refine ⟨hnames, hnames', ?_, ?_⟩
  · obtain ⟨gs, hgs, -, hget, hshare⟩ :=
      (directory_law lexerTools overriding hnames).2.1 fun file => overriding_valid
    obtain ⟨_, g, i, -, -, hg⟩ := hget _ _ rustFile_wins
    obtain ⟨_, g', i', -, -, hg'⟩ := hget _ _ tomlFile_wins
    refine ⟨gs, _, _, hgs, hg, hg', fun hserial => ?_⟩
    have hsame := (hshare _ _ _ _ _ _ rustFile_wins tomlFile_wins hg hg').1.1 hserial
    exact absurd (congrArg Prod.fst hsame) (by decide)
  · obtain ⟨t, hdefect, hfails⟩ := garbledFile_failsFirst
    have herror :=
      (directory_law lexerTools (garbledFile :: overriding) hnames').2.2 garbledFile t hfails
    rw [if_pos hdefect] at herror
    obtain ⟨e, he, hkind, -⟩ := herror
    exact ⟨e, he, hkind⟩

end Directory
end CodeHighlight
