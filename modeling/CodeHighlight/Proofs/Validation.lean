import CodeHighlight.Config
import CodeHighlight.Proofs.CheckedFields
import CodeHighlight.Proofs.Outcomes
import Mathlib

/-!
# Validation of options

Options are refused with a configuration failure, or they are read as a valid configuration. Main
statement: `validate_spec`. A mapping is read as a configuration exactly when it offers it
(`Config.Offers`), field by field, and what it offers obeys the rules (`Config.Obeys`); reading then
only normalizes: blanks around the identifiers of packages are cut and the whitelist becomes a set.

What is normalized already is not changed again, and the fields of a configuration offer that
configuration, so that validation is stable.
-/

namespace CodeHighlight

/-! ### Blanks around a text -/

namespace Text

theorem strip_strip (cs : List Char) : strip (strip cs) = strip cs := by
  -- what begins without a blank still does so when its end is cut
  have hstart : stripStart (strip cs) = strip cs := by
    refine List.dropWhile_eq_self_iff.2 fun hpos => ?_
    have hpre : strip cs <+: stripStart cs := List.rdropWhile_prefix isBlank (stripStart cs)
    have hlen : 0 < (stripStart cs).length := hpos.trans_le hpre.length_le
    have hfirst := List.dropWhile_eq_self_iff.1 (List.dropWhile_idempotent isBlank cs) hlen
    rwa [hpre.getElem hpos]
  rw [strip, hstart]
  exact List.rdropWhile_idempotent isBlank (stripStart cs)

theorem strip_eq_nil_iff (cs : List Char) : strip cs = [] ↔ ∀ c ∈ cs, isBlank c = true := by
  have hend : strip cs = [] ↔ ∀ c ∈ stripStart cs, isBlank c = true :=
    List.rdropWhile_eq_nil_iff
  rw [hend]
  constructor
  · intro h
    have hnil : stripStart cs = [] :=
      (List.dropWhile_idempotent isBlank cs).symm.trans (List.dropWhile_eq_nil_iff.2 h)
    exact List.dropWhile_eq_nil_iff.1 hnil
  · exact fun h c hc => h c ((List.dropWhile_suffix isBlank).subset hc)

@[simp] theorem trim_trim (s : String) : trim (trim s) = trim s := by
  rw [trim, trim, String.toList_ofList, strip_strip]

theorem trim_eq_empty_iff (s : String) : trim s = "" ↔ isAllBlank s.toList = true := by
  rw [trim, isAllBlank, List.all_eq_true, ← strip_eq_nil_iff, ← String.toList_inj,
    String.toList_ofList, String.toList_empty]

end Text

namespace Config

/-! ### Sets of names -/

theorem nodup_eraseDups (names : List String) : names.eraseDups.Nodup := by
  induction hn : names.length using Nat.strong_induction_on generalizing names with
  | _ n ih =>
    cases names with
    | nil => exact List.nodup_nil
    | cons a names =>
      rw [List.eraseDups_cons, List.nodup_cons, List.mem_eraseDups]
      have hlen := List.length_filter_le (fun b => !b == a) names
      rw [List.length_cons] at hn
      exact ⟨by simp, ih _ (by omega) _ rfl⟩

theorem eraseDups_of_nodup {names : List String} (h : names.Nodup) : names.eraseDups = names := by
  induction names with
  | nil => rfl
  | cons a names ih =>
    obtain ⟨ha, h⟩ := List.nodup_cons.1 h
    have hkeep : names.filter (fun b => !b == a) = names := by
      refine List.filter_eq_self.2 fun b hb => ?_
      have hne : b ≠ a := fun hba => ha (hba ▸ hb)
      simpa using hne
    rw [List.eraseDups_cons, hkeep, ih h]

/-- Names that are a set already are the same set. -/
@[simp] theorem setOf_setOf (names : List String) : setOf (setOf names) = setOf names := by
  have hnodup : (setOf names).Nodup :=
    (List.mergeSort_perm _ _).nodup_iff.2 (nodup_eraseDups names)
  have hsorted : (setOf names).Pairwise fun a b : String => decide (a ≤ b) = true := by
    refine List.pairwise_mergeSort (fun a b c hab hbc => ?_) (fun a b => ?_) names.eraseDups
    · rw [decide_eq_true_eq] at *
      exact hab.trans hbc
    · rw [Bool.or_eq_true, decide_eq_true_eq, decide_eq_true_eq]
      exact le_total a b
  rw [setOf, eraseDups_of_nodup hnodup]
  exact List.mergeSort_of_pairwise hsorted

/-! ### Valid configurations -/

/-- What every configuration has that was validated. -/
structure IsValid (c : Config) : Prop where
  keys : ∀ e ∈ c.grammars, Text.isAllBlank e.1.toList = false
  distinct : c.grammars.keys.Nodup
  packages : ∀ p ∈ c.packages, p ≠ "" ∧ Text.trim p = p
  whitelist : ∀ names, c.whitelist = some names → setOf names = names
  marker : c.marker ≠ "" ∧ ∀ ch ∈ c.marker.toList, Text.isBlank ch = false
  sources : c.grammars = [] ∨ c.packages = []

/-- The rules for what is offered, before anything is normalized. -/
structure Obeys (c : Config) : Prop where
  keys : ∀ e ∈ c.grammars, Text.isAllBlank e.1.toList = false
  packages : ∀ p ∈ c.packages, Text.isAllBlank p.toList = false
  marker : c.marker ≠ "" ∧ ∀ ch ∈ c.marker.toList, Text.isBlank ch = false
  sources : c.grammars = [] ∨ c.packages = []

/-- The configuration without blanks around its identifiers and with its whitelist as a set. -/
def normalized (c : Config) : Config :=
  { c with packages := c.packages.map Text.trim, whitelist := c.whitelist.map setOf }

/-- The value is a mapping from texts to grammars. -/
def OffersGrammars (v : Value) (grammars : Entries String Grammar) : Prop :=
  v.Maps (Entries.mapValues Value.grammar grammars)

/-- The value is a list of texts, or there is none. -/
def OffersWhitelist (v : Value) (whitelist : Option (List String)) : Prop :=
  v = .null ∧ whitelist = none ∨ ∃ names, whitelist = some names ∧ v.SpellsAll names

/-- The names of the precedences. -/
def precedences : List (String × Precedence) := [("last", .last), ("first", .first)]

/-- The names of the styles. -/
def styles : List (String × ClassStyle) := [("segments", .segments), ("joined", .joined)]

/-- The mapping has known fields only, and for each of them a value of its type, which is that of
the configuration; fields that it lacks have their defaults. -/
structure Offers (es : Entries Key Value) (c : Config) : Prop where
  known : ∀ e ∈ es, ∃ name ∈ fieldNames, e.1 = .str name
  grammars : es.Gives "grammars" [] OffersGrammars c.grammars
  packages : es.Gives "grammar_packages" [] Value.SpellsAll c.packages
  whitelist : es.Gives "class_whitelist" none OffersWhitelist c.whitelist
  precedence : es.Gives "package_precedence" .last (Value.Names precedences) c.precedence
  style : es.Gives "class_style" .segments (Value.Names styles) c.style
  separator : es.Gives "class_separator" "-" Value.Spells c.separator
  lead : es.Gives "class_prefix" "" Value.Spells c.lead
  marker : es.Gives "marker_class" "tree-sitter" Value.Spells c.marker

/-- The eight fields of a configuration as a mapping. -/
def fields (c : Config) : Entries Key Value :=
  [(.str "grammars", .map (c.grammars.map fun e => (.str e.1, .grammar e.2))),
    (.str "grammar_packages", .list (c.packages.map .str)),
    (.str "class_whitelist", c.whitelist.elim .null fun names => .list (names.map .str)),
    (.str "package_precedence", .str c.precedence.name),
    (.str "class_style", .str c.style.name),
    (.str "class_separator", .str c.separator),
    (.str "class_prefix", .str c.lead),
    (.str "marker_class", .str c.marker)]

/-- A configuration that is offered as such was made by reading a mapping. -/
def Options.IsProper : Options → Prop
  | .ready c => ∃ es, validate (.given (.map es)) = .ok c
  | _ => True

/-! ### Rules -/

section Rules

theorem grammarRule_eq_none_iff {es : Entries String Value} : grammarRule es = none ↔
    ∀ e ∈ es, Text.isAllBlank e.1.toList = false ∧ ∃ g, e.2 = .grammar g := by
  rw [grammarRule, List.findSome?_eq_none_iff]
  refine forall₂_congr fun e _ => ?_
  cases hblank : Text.isAllBlank e.1.toList with
  | true => simp
  | false =>
    obtain ⟨k, v⟩ := e
    cases v <;> simp

theorem packageRule_eq_none_iff {packages : List String} :
    packageRule packages = none ↔ ∀ p ∈ packages, p ≠ "" := by
  rw [packageRule]
  split_ifs with h
  · simpa using h
  · simpa [List.mem_iff_get] using h

theorem markerRule_eq_none_iff {marker : String} : markerRule marker = none ↔
    marker ≠ "" ∧ ∀ ch ∈ marker.toList, Text.isBlank ch = false := by
  simp [markerRule]

theorem sourceRule_eq_none_iff {c : Config} :
    sourceRule c = none ↔ c.grammars = [] ∨ c.packages = [] := by
  simp [sourceRule, or_iff_not_imp_left]

end Rules

/-! ### Fields -/

section Fields

variable {es : Entries Key Value}

theorem result_grammars {grammars : Entries String Grammar} :
    (Checked.field es "grammars" [] checkGrammars).result = .ok grammars ↔
      ∃ offered, es.Gives "grammars" [] OffersGrammars offered ∧
        (∀ e ∈ offered, Text.isAllBlank e.1.toList = false) ∧ grammars = id offered := by
  refine Checked.result_field_map ?_ rfl fun v => ?_
  · exact List.forall_mem_nil _
  simp only [checkGrammars, Checked.result_bind, Checked.result_obeys, Checked.result_entries,
    Checked.result_pure, grammarRule_eq_none_iff]
  constructor
  · rintro ⟨es, ⟨hmaps, hrule⟩, rfl⟩
    refine ⟨Entries.mapValues Value.toGrammar es, ?_, ?_, rfl⟩
    · -- every value is a grammar, so that it is the one that is kept
      have hsame : Entries.mapValues Value.grammar (Entries.mapValues Value.toGrammar es) = es := by
        rw [Entries.mapValues, Entries.mapValues, List.map_map]
        refine (List.map_congr_left fun e he => ?_).trans (List.map_id es)
        obtain ⟨g, hg⟩ := (hrule e he).2
        obtain ⟨k, v⟩ := e
        dsimp only at hg
        rw [hg]
        rfl
      rwa [OffersGrammars, hsame]
    · intro e he
      obtain ⟨e, hmem, rfl⟩ := List.mem_map.1 he
      exact (hrule e hmem).1
  · rintro ⟨offered, hoffers, hkeys, hsame⟩
    refine ⟨_, ⟨hoffers, ?_⟩, hsame.trans ?_⟩
    · intro e he
      obtain ⟨e, hmem, rfl⟩ := List.mem_map.1 he
      exact ⟨hkeys e hmem, e.2, rfl⟩
    · rw [Entries.mapValues, Entries.mapValues, List.map_map]
      exact (List.map_id offered).symm

theorem result_packages {packages : List String} :
    (Checked.field es "grammar_packages" [] checkPackages).result = .ok packages ↔
      ∃ offered, es.Gives "grammar_packages" [] Value.SpellsAll offered ∧
        (∀ p ∈ offered, Text.isAllBlank p.toList = false) ∧
          packages = offered.map Text.trim := by
  refine Checked.result_field_map ?_ rfl fun v => ?_
  · exact List.forall_mem_nil _
  have hrule (offered : List String) : (∀ p ∈ offered.map Text.trim, p ≠ "") ↔
      ∀ p ∈ offered, Text.isAllBlank p.toList = false := by
    simp only [List.forall_mem_map, ne_eq, Text.trim_eq_empty_iff, Bool.not_eq_true]
  simp only [checkPackages, Checked.result_bind, Checked.result_obeys, Checked.result_strings,
    Checked.result_pure, packageRule_eq_none_iff]
  constructor
  · rintro ⟨⟨offered, hspells, rfl⟩, h⟩
    exact ⟨offered, hspells, (hrule offered).1 h, rfl⟩
  · rintro ⟨offered, hspells, h, rfl⟩
    exact ⟨⟨offered, hspells, rfl⟩, (hrule offered).2 h⟩

theorem result_whitelist {whitelist : Option (List String)} :
    (Checked.field es "class_whitelist" none checkWhitelist).result = .ok whitelist ↔
      ∃ offered, es.Gives "class_whitelist" none OffersWhitelist offered ∧ True ∧
        whitelist = offered.map setOf := by
  refine Checked.result_field_map ?_ rfl fun v => ?_
  · exact trivial
  unfold checkWhitelist
  split_ifs with hnull
  · rw [Value.isNull_iff] at hnull
    subst hnull
    rw [Checked.result_pure]
    constructor
    · rintro rfl
      exact ⟨none, .inl ⟨rfl, rfl⟩, trivial, rfl⟩
    · rintro ⟨_, ⟨-, rfl⟩ | ⟨names, -, items, h | h, -⟩, -, rfl⟩
      · rfl
      · cases h
      · cases h
  · simp only [Checked.result_bind, Checked.result_strings, Checked.result_pure]
    constructor
    · rintro ⟨names, hspells, rfl⟩
      exact ⟨some names, .inr ⟨names, rfl, hspells⟩, trivial, rfl⟩
    · rintro ⟨_, ⟨rfl, -⟩ | ⟨names, rfl, hspells⟩, -, rfl⟩
      · exact absurd rfl hnull
      · exact ⟨names, hspells, rfl⟩

theorem result_marker {marker : String} :
    (Checked.field es "marker_class" "tree-sitter" fun place v =>
      (Checked.string place v).obeys place markerRule).result = .ok marker ↔
      ∃ offered, es.Gives "marker_class" "tree-sitter" Value.Spells offered ∧
        (offered ≠ "" ∧ ∀ ch ∈ offered.toList, Text.isBlank ch = false) ∧
          marker = id offered := by
  refine Checked.result_field_map ?_ rfl fun v => ?_
  · exact markerRule_eq_none_iff.1 rfl
  rw [Checked.result_obeys, Checked.result_string, markerRule_eq_none_iff]
  simp

end Fields

/-! ### Whole configurations -/

section Whole

variable {es : Entries Key Value} {c : Config}

/-- A mapping is read as what it offers, when that obeys the rules. -/
theorem result_check :
    (check es).result = .ok c ↔ ∃ offered, Offers es offered ∧ Obeys offered ∧
      c = offered.normalized := by
  simp only [check, Checked.result_obeys, Checked.result_bind, Checked.result_pure,
    result_grammars, result_packages, result_whitelist, result_marker,
    Checked.result_field (fun v => Checked.result_choice),
    Checked.result_field (fun v => Checked.result_string),
    sourceRule_eq_none_iff]
  -- both sides name the same values, in the order of the fields
  constructor
  · rintro ⟨⟨grammars, ⟨_, hgrammars, hkeys, rfl⟩, _, ⟨packages, hpackages, hfilled, rfl⟩,
      _, ⟨whitelist, hwhitelist, -, rfl⟩, precedence, hprecedence, style, hstyle,
      separator, hseparator, lead, hlead, marker, ⟨_, hmarker, hclass, rfl⟩, _, hknown, rfl⟩,
      hsources⟩
    rw [Checked.result_eq_ok_iff, Checked.unknownKeys_eq_nil_iff] at hknown
    refine ⟨⟨grammars, packages, whitelist, precedence, style, separator, lead, marker⟩, ?_, ?_,
      rfl⟩
    · exact ⟨hknown.1, hgrammars, hpackages, hwhitelist, hprecedence, hstyle, hseparator, hlead,
        hmarker⟩
    · exact ⟨hkeys, hfilled, hclass, by simpa using hsources⟩
  · rintro ⟨offered, offers, obeys, rfl⟩
    refine ⟨⟨_, ⟨_, offers.grammars, obeys.keys, rfl⟩, _, ⟨_, offers.packages, obeys.packages, rfl⟩,
      _, ⟨_, offers.whitelist, trivial, rfl⟩, _, offers.precedence, _, offers.style,
      _, offers.separator, _, offers.lead, _, ⟨_, offers.marker, obeys.marker, rfl⟩, (), ?_, rfl⟩,
      ?_⟩
    · rw [Checked.result_eq_ok_iff, Checked.unknownKeys_eq_nil_iff]
      exact ⟨offers.known, rfl⟩
    · simpa [normalized] using obeys.sources

/-- The keys of the grammars that a mapping offers are distinct. -/
theorem Offers.nodup_keys (h : Offers es c) : c.grammars.keys.Nodup := by
  have hgives := h.grammars
  unfold Entries.Gives at hgives
  split at hgives
  · obtain ⟨-, written, -, -, hwritten⟩ := hgives
    have hsame : Entries.keys (Entries.mapValues Value.grammar c.grammars) = c.grammars.keys := by
      simp [Entries.keys, Entries.mapValues]
    rw [← hsame, hwritten]
    exact Entries.nodup_keys_ofList written
  · rw [hgives]
    exact List.nodup_nil

/-- What obeys the rules is valid once it is normalized. -/
theorem Obeys.isValid (h : c.Obeys) (distinct : c.grammars.keys.Nodup) :
    c.normalized.IsValid where
  keys := h.keys
  distinct := distinct
  packages p hp := by
    obtain ⟨p, hmem, rfl⟩ := List.mem_map.1 hp
    refine ⟨fun hempty => ?_, Text.trim_trim p⟩
    rw [Text.trim_eq_empty_iff, h.packages p hmem] at hempty
    cases hempty
  whitelist names hnames := by
    obtain ⟨_, -, rfl⟩ := Option.map_eq_some_iff.1 hnames
    exact setOf_setOf _
  marker := h.marker
  sources := by simpa [normalized] using h.sources

/-- A valid configuration obeys the rules for what is offered. -/
theorem IsValid.obeys (h : c.IsValid) : c.Obeys where
  keys := h.keys
  packages p hp := by
    obtain ⟨hne, htrim⟩ := h.packages p hp
    rw [← htrim, Ne, Text.trim_eq_empty_iff] at hne
    simpa using hne
  marker := h.marker
  sources := h.sources

/-- Normalizing changes nothing of a valid configuration. -/
theorem IsValid.normalized_eq (h : c.IsValid) : c.normalized = c := by
  have hpackages : c.packages.map Text.trim = c.packages :=
    (List.map_congr_left fun p hp => (h.packages p hp).2).trans (List.map_id _)
  have hwhitelist : c.whitelist.map setOf = c.whitelist := by
    cases hw : c.whitelist with
    | none => rfl
    | some names => rw [Option.map_some, h.whitelist names hw]
  rw [normalized, hpackages, hwhitelist]

@[simp] theorem str_beq_str (s t : String) : (Key.str s == Key.str t) = decide (s = t) := by
  show decide (Key.Identity.str s = Key.Identity.str t) = _
  simp

theorem spellsAll_list (texts : List String) : (Value.list (texts.map .str)).SpellsAll texts := by
  refine ⟨_, .inl rfl, ?_⟩
  rw [List.forall₂_map_left_iff]
  exact List.forall₂_same.2 fun s _ => .str s

/-- The fields of a valid configuration offer that configuration. -/
theorem offers_fields (h : c.IsValid) : Offers c.fields c where
  known := by simp [fields, fieldNames]
  grammars := by
    have hdistinct : (Entries.mapValues Value.grammar c.grammars).keys.Nodup := by
      simpa [Entries.keys, Entries.mapValues, Function.comp_def] using h.distinct
    simp only [Entries.Gives, fields, Entries.get?_cons, str_beq_str]
    refine ⟨_, _, rfl, ?_, (Entries.ofList_of_nodup hdistinct).symm⟩
    rw [Entries.mapValues, List.forall₂_map_left_iff, List.forall₂_map_right_iff]
    exact List.forall₂_same.2 fun e _ => ⟨.str e.1, rfl⟩
  packages := by
    simpa [Entries.Gives, fields, Entries.get?_cons] using spellsAll_list c.packages
  whitelist := by
    simp only [Entries.Gives, fields, Entries.get?_cons, str_beq_str]
    cases c.whitelist with
    | none => exact .inl ⟨rfl, rfl⟩
    | some names => exact .inr ⟨names, rfl, spellsAll_list names⟩
  precedence := by
    simp only [Entries.Gives, fields, Entries.get?_cons, str_beq_str]
    exact ⟨_, rfl, by cases c.precedence <;> rfl⟩
  style := by
    simp only [Entries.Gives, fields, Entries.get?_cons, str_beq_str]
    exact ⟨_, rfl, by cases c.style <;> rfl⟩
  separator := by
    simpa [Entries.Gives, fields, Entries.get?_cons] using .str c.separator
  lead := by
    simpa [Entries.Gives, fields, Entries.get?_cons] using .str c.lead
  marker := by
    simpa [Entries.Gives, fields, Entries.get?_cons] using .str c.marker

theorem validate_map_eq_ok_iff :
    validate (.given (.map es)) = .ok c ↔ (check es).result = .ok c := by
  simp only [validate]
  cases (check es).result <;> simp

/-- A configuration that was read from a mapping is valid. -/
theorem isValid_of_validate (h : validate (.given (.map es)) = .ok c) : c.IsValid := by
  obtain ⟨offered, offers, obeys, rfl⟩ := result_check.1 (validate_map_eq_ok_iff.1 h)
  exact obeys.isValid offers.nodup_keys

/-- A valid configuration is read from its fields. -/
theorem validate_fields (h : c.IsValid) : validate (.given (.map c.fields)) = .ok c :=
  validate_map_eq_ok_iff.2 (result_check.2 ⟨c, offers_fields h, h.obeys, h.normalized_eq.symm⟩)

/-- Options that cannot be used are refused with a configuration failure. -/
theorem kind_of_validate_error {options : Options} {t : Trace} (h : validate options = .error t) :
    t.kind = .configuration := by
  unfold validate at h
  split at h
  · cases h
    rfl
  · cases h
  · split at h
    · cases h
    · cases h
      exact Trace.kind_raiseFrom _ _
  · split_ifs at h
    · cases h
      rfl
    · cases h
      rfl

end Whole

/-- **Validation is sound, complete and stable.** Options are refused with a configuration failure
or give a valid configuration, which is given again for itself and for the mapping of its fields. A
mapping gives a configuration exactly when it has known fields only, all of them of their types and
obeying the rules; what is offered is then only normalized. -/
theorem validate_spec (options : Options) (proper : options.IsProper) :
    ((∃ t, validate options = .error t ∧ t.kind = .configuration) ∨
      ∃ c, validate options = .ok c ∧ c.IsValid ∧ validate (.ready c) = .ok c ∧
        validate (.given (.map c.fields)) = .ok c) ∧
    ∀ (es : Entries Key Value) (c : Config), validate (.given (.map es)) = .ok c ↔
      ∃ offered, Offers es offered ∧ Obeys offered ∧ c = offered.normalized := by
  refine ⟨?_, fun es c => validate_map_eq_ok_iff.trans result_check⟩
  have valid : ∀ c, validate options = .ok c → c.IsValid := by
    intro c h
    cases options with
    | missing => cases h
    | ready d =>
      cases h
      obtain ⟨es, hes⟩ := proper
      exact isValid_of_validate hes
    | given v =>
      cases v with
      | map es => exact isValid_of_validate h
      | _ =>
        simp only [validate, refuse] at h
        split_ifs at h
  cases h : validate options with
  | error t => exact .inl ⟨t, rfl, kind_of_validate_error h⟩
  | ok c => exact .inr ⟨c, rfl, valid c h, rfl, validate_fields (valid c h)⟩

/-- Options with blanks around an identifier that occurs twice, and with an identifier as bytes. -/
def spacedOptions : Entries Key Value :=
  [(.str "grammar_packages", .list [.str " first ", .scalar (.bytes [0x61]), .str "first"]),
    (.str "package_precedence", .str "first")]

theorem validate_spec_spacedOptions :
    ∃ c, validate (.given (.map spacedOptions)) = .ok c ∧ c.packages = ["first", "a", "first"] ∧
      c.IsValid ∧ validate (.given (.map c.fields)) = .ok c := by
  have read : validate (.given (.map spacedOptions)) =
      .ok { packages := ["first", "a", "first"], precedence := .first } := by
    cbv
  obtain ⟨t, h, -⟩ | ⟨c, h, valid, -, again⟩ := (validate_spec (.ready _) ⟨spacedOptions, read⟩).1
  · cases h
  · cases h
    exact ⟨_, read, rfl, valid, again⟩

end Config
end CodeHighlight
