import CodeHighlight.CommandLine.Options
import CodeHighlight.Proofs.FrontMatterBody
import CodeHighlight.Proofs.ReadingFaults

/-!
# Where failures to read YAML end

Main statement: `containment_law`. Front matter and the file of options are read as YAML. A text
that is no YAML is contained: it is no front matter, or the configuration is refused. A text that is
YAML and holds a value that cannot be made is not: its failure comes out of both readers
(`month_escapes`). Of what kind such a failure is depends on the reader of YAML alone: here it is
one of `misvalueKinds` (`kind_of_read`), each of which occurs (`exists_misvalue`).
-/

namespace CodeHighlight
open FrontMatter (Encloses joined split)
open CommandLine (readOptions)
open Yaml (isYamlFault misvalueKinds)

/-! ### Front matter -/

namespace FrontMatter
variable {source : String} {inner : List (List Char)} {rest : List Char} {t : Trace}

theorem split_of_error (h : Encloses source inner rest) (ht : Yaml.read (joined inner) = .error t) :
    split source = if isYamlFault t then .ok { body := source } else .error t := by
  rw [split, cut_eq_some_iff.2 ⟨rest, h, rfl⟩]
  dsimp only
  rw [ht]

theorem split_eq_error_iff :
    split source = .error t ↔ ∃ inner rest, Encloses source inner rest ∧
      Yaml.read (joined inner) = .error t ∧ isYamlFault t = false := by
  constructor
  · intro h
    cases hcut : cut source with
    | none =>
      rw [split, hcut] at h
      cases h
    | some parts =>
      obtain ⟨inner, ls⟩ := parts
      obtain ⟨rest, hencloses, -⟩ := cut_eq_some_iff.1 hcut
      cases hread : Yaml.read (joined inner) with
      | ok v =>
        rw [split_of_encloses hencloses hread] at h
        cases h
      | error q =>
        rw [split_of_error hencloses hread] at h
        split_ifs at h with hfault
        cases h
        exact ⟨inner, rest, hencloses, hread, Bool.eq_false_of_not_eq_true hfault⟩
  · rintro ⟨inner, rest, hencloses, hread, hfault⟩
    rw [split_of_error hencloses hread, if_neg (by rw [hfault]; exact Bool.false_ne_true)]

end FrontMatter

/-! ### Options -/

namespace CommandLine
variable {path text : String} {t : Trace}

theorem has_grammars_of_readOptions {es : Entries Key Value} (h : readOptions path text = .ok es) :
    Entries.has es (.str "grammars") = false := by
  unfold readOptions at h
  split at h
  · split_ifs at h with hgrammars
    · cases h
    · cases h
      exact Bool.eq_false_of_not_eq_true hgrammars
  · split_ifs at h
    · cases h
      rfl
    · cases h
  · split_ifs at h

theorem kind_of_readOptions (h : readOptions path text = .error t) :
    t.kind = .configuration ∨ Yaml.read text = .error t ∧ isYamlFault t = false := by
  unfold readOptions at h
  split at h
  · split_ifs at h
    cases h
    exact .inl rfl
  · split_ifs at h
    cases h
    exact .inl rfl
  · rename_i q hread
    split_ifs at h with hfault
    · cases h
      exact .inl (Trace.kind_raiseFrom _ _)
    · cases h
      exact .inr ⟨hread, Bool.eq_false_of_not_eq_true hfault⟩

theorem readOptions_of_error (h : Yaml.read text = .error t) :
    readOptions path text = if isYamlFault t then
      .error (t.raiseFrom (.plain .configuration
        ("Invalid YAML in '" ++ path ++ "': " ++ t.message)))
      else .error t := by
  rw [readOptions, h]

end CommandLine

/-! ### Values that cannot be made -/

namespace Yaml

/-- The reader of YAML fails because a text is no YAML, or with one of the kinds for values that
cannot be made. It reads collections at any depth; a limit on it would add a kind. -/
theorem kind_of_read {text : String} {t : Trace} (h : read text = .error t)
    (hfault : isYamlFault t = false) : t.kind ∈ misvalueKinds :=
  (reads_read text t h).resolve_left (by rw [hfault]; exact Bool.false_ne_true)

/-- Each of the kinds is that of some text. -/
theorem exists_misvalue {k : FailureKind} (hk : k ∈ misvalueKinds) :
    ∃ text t, read text = .error t ∧ isYamlFault t = false ∧ t.kind = k := by
  have hoccurs : ∀ text,
      Except.failsWith (fun t => !isYamlFault t && t.kind == k) (read text) = true →
        ∃ text t, read text = .error t ∧ isYamlFault t = false ∧ t.kind = k := by
    intro text h
    obtain ⟨t, ht, hkind⟩ := Except.failsWith_iff.1 h
    simp only [Bool.and_eq_true, Bool.not_eq_true', beq_iff_eq] at hkind
    exact ⟨text, t, ht, hkind⟩
  simp only [misvalueKinds, List.mem_cons, List.not_mem_nil, or_false] at hk
  rcases hk with rfl | rfl | rfl | rfl | rfl
  · exact hoccurs "2020-13-01" (by decide +kernel)
  · exact hoccurs "!!bool x" (by decide +kernel)
  · exact hoccurs "!!timestamp x" (by decide +kernel)
  · exact hoccurs "!!int ''" (by decide +kernel)
  · exact hoccurs "\"\\UFFFFFFFF\"" (by decide +kernel)

end Yaml

/-- **The law of containment.**

* Where front matter is enclosed and is no YAML, the source is a document without front matter. The
  cut fails exactly when what is enclosed fails to be read for another reason.
* The options that are read from a text hold no grammars. If they are not read, the configuration is
  refused, unless the text fails to be read for another reason than that it is no YAML. -/
theorem containment_law (source path text : String) :
    ((∀ inner rest t, Encloses source inner rest → Yaml.read (joined inner) = .error t →
        isYamlFault t = true → split source = .ok { body := source }) ∧
      ∀ t, split source = .error t ↔ ∃ inner rest, Encloses source inner rest ∧
        Yaml.read (joined inner) = .error t ∧ isYamlFault t = false) ∧
    (∀ es, readOptions path text = .ok es → Entries.has es (.str "grammars") = false) ∧
      (∀ t, readOptions path text = .error t →
        t.kind = .configuration ∨ Yaml.read text = .error t ∧ isYamlFault t = false) ∧
      ∀ t, Yaml.read text = .error t → if isYamlFault t then
          ∃ e, readOptions path text = .error e ∧ e.kind = .configuration ∧
            e.message = "Invalid YAML in '" ++ path ++ "': " ++ t.message
        else readOptions path text = .error t := by
  refine ⟨⟨?_, ?_⟩, ?_, ?_, ?_⟩
  · intro inner rest t hencloses hread hfault
    rw [FrontMatter.split_of_error hencloses hread, if_pos hfault]
  · intro t
    exact FrontMatter.split_eq_error_iff
  · intro es
    exact CommandLine.has_grammars_of_readOptions
  · intro t
    exact CommandLine.kind_of_readOptions
  · intro t hread
    rw [CommandLine.readOptions_of_error hread]
    split_ifs
    · exact ⟨_, rfl, Trace.kind_raiseFrom _ _, Trace.message_raiseFrom _ _⟩
    · rfl

/-- A thirteenth month comes out of front matter, and a number without digits out of the options. -/
theorem month_escapes :
    (∃ t, split "---\na: 2020-13-01\n---\nx\n" = .error t ∧ t.kind = .value) ∧
      ∃ t, readOptions "config.yml" "a: 0x_\n" = .error t ∧ t.kind = .value := by
  have hfront : Except.failsWith (fun t => t.kind == .value)
      (split "---\na: 2020-13-01\n---\nx\n") = true := by decide +kernel
  have hoptions : Except.failsWith (fun t => t.kind == .value)
      (readOptions "config.yml" "a: 0x_\n") = true := by decide +kernel
  simp only [Except.failsWith_iff, beq_iff_eq] at hfront hoptions
  exact ⟨hfront, hoptions⟩

end CodeHighlight
