import CodeHighlight.Data.Checked
import CodeHighlight.Proofs.Entries
import Mathlib.Tactic

/-!
# What checked fields accept

A checked value is a result when nothing was wrong on the way to it. What a value is read as can be
said without faults: `Value.Spells` for texts, `Value.SpellsAll` for lists of texts, `Value.Maps`
for inner mappings, `Entries.Gives` for fields with a default. Each reader gives a result exactly
when its relation holds, whatever the place and whatever the placeholder are.
-/

namespace CodeHighlight

/-! ### What values are read as -/

theorem Value.isNull_iff {v : Value} : v.isNull = true ↔ v = .null := by
  unfold Value.isNull
  split <;> simp_all

/-- The value is a text: a string, or the well-formed bytes of one. -/
inductive Value.Spells : Value → String → Prop
  | str (s : String) : Spells (.str s) s
  | bytes {bs : Text.Utf8.Bytes} {s : String} (h : Text.Utf8.decode bs = .ok s) :
      Spells (.scalar (.bytes bs)) s

/-- The value is a list or a tuple of texts. -/
def Value.SpellsAll (v : Value) (texts : List String) : Prop :=
  ∃ items, (v = .list items ∨ v = .tuple items) ∧ List.Forall₂ Spells items texts

/-- The value is a mapping whose keys are texts; keys with the same text are written one after
another. -/
def Value.Maps (v : Value) (es : Entries String Value) : Prop :=
  ∃ pairs written, v = .map pairs ∧
    List.Forall₂ (fun e p => Spells (.scalar e.1) p.1 ∧ p.2 = e.2) pairs written ∧
      es = Entries.ofList written

/-- The value is the name of an option. -/
def Value.Names {α : Type} (options : List (String × α)) (v : Value) (a : α) : Prop :=
  ∃ name, v = .str name ∧ options.lookup name = some a

/-- The mapping has a field that is read as `a`, or lacks the field and `a` is the default. -/
def Entries.Gives {α : Type} (es : Entries Key Value) (name : String) (default : α)
    (Reads : Value → α → Prop) (a : α) : Prop :=
  match Entries.get? es (.str name) with
  | some v => Reads v a
  | none => a = default

namespace Checked
variable {α β : Type} {c : Checked α} {place : List String}

/-! ### Chains of readings -/

/-- The faults of a chain are those of its steps in order. -/
instance : LawfulMonad Checked := by
  refine LawfulMonad.mk' _ ?_ ?_ ?_
  · intro α c
    show (⟨c.value, c.faults ++ []⟩ : Checked α) = c
    rw [List.append_nil]
  · intro α β a f
    show (⟨(f a).value, [] ++ (f a).faults⟩ : Checked β) = f a
    rw [List.nil_append]
  · intro α β γ c f g
    simp only [bind, List.append_assoc]

theorem result_eq_ok_iff {a : α} : c.result = .ok a ↔ c.faults = [] ∧ c.value = a := by
  unfold result
  split_ifs with h
  · rw [List.isEmpty_iff] at h
    simp [h]
  · rw [List.isEmpty_iff] at h
    simp [h]

theorem result_pure {a b : α} : (pure b : Checked α).result = .ok a ↔ a = b := by
  rw [result_eq_ok_iff]
  exact ⟨fun h => h.2.symm, fun h => ⟨rfl, h.symm⟩⟩

/-- A chain has a result when each of its steps has one. -/
theorem result_bind {f : α → Checked β} {b : β} :
    (c >>= f).result = .ok b ↔ ∃ a, c.result = .ok a ∧ (f a).result = .ok b := by
  simp only [result_eq_ok_iff]
  show c.faults ++ (f c.value).faults = [] ∧ (f c.value).value = b ↔ _
  rw [List.append_eq_nil_iff]
  constructor
  · rintro ⟨⟨hc, hf⟩, hb⟩
    exact ⟨c.value, ⟨hc, rfl⟩, hf, hb⟩
  · rintro ⟨_, ⟨hc, rfl⟩, hf, hb⟩
    exact ⟨⟨hc, hf⟩, hb⟩

theorem not_result_fault {a placeholder : α} {message : String} :
    ¬ (fault placeholder place message).result = .ok a := by
  rw [result_eq_ok_iff]
  rintro ⟨h, -⟩
  cases h

/-- A rule lets those results pass for which it has no message. -/
theorem result_obeys {rule : α → Option String} {a : α} :
    (c.obeys place rule).result = .ok a ↔ c.result = .ok a ∧ rule a = none := by
  unfold obeys
  -- a rule is asked only where there are no faults yet
  by_cases hc : c.faults = []
  · rw [hc, List.isEmpty_nil, if_pos rfl]
    cases hrule : rule c.value with
    | some message =>
      simp only [result_eq_ok_iff]
      constructor
      · rintro ⟨h, -⟩
        cases h
      · rintro ⟨⟨-, rfl⟩, h⟩
        rw [hrule] at h
        cases h
    | none =>
      simp only [result_eq_ok_iff]
      constructor
      · rintro ⟨h, rfl⟩
        exact ⟨⟨h, rfl⟩, hrule⟩
      · exact And.left
  · rw [if_neg (by simpa using hc), result_eq_ok_iff]
    exact ⟨fun h => absurd h.1 hc, fun h => absurd h.1.1 hc⟩

/-- A list of readings has a result when each of its items has one. -/
theorem result_mapM {f : α → Checked β} {as : List α} {bs : List β} :
    (as.mapM f).result = .ok bs ↔ List.Forall₂ (fun a b => (f a).result = .ok b) as bs := by
  induction as generalizing bs with
  | nil => simp [List.mapM_nil, result_pure]
  | cons a as ih =>
    simp only [List.mapM_cons, result_bind, result_pure, ih, List.forall₂_cons_left_iff]
    constructor
    · rintro ⟨b, hb, bs, hbs, rfl⟩
      exact ⟨b, bs, hb, hbs, rfl⟩
    · rintro ⟨b, bs, hb, hbs, rfl⟩
      exact ⟨b, hb, bs, hbs, rfl⟩

/-! ### Readers -/

theorem result_field {es : Entries Key Value} {name : String} {default a : α}
    {check : List String → Value → Checked α} {Reads : Value → α → Prop}
    (h : ∀ v, (check [name] v).result = .ok a ↔ Reads v a) :
    (field es name default check).result = .ok a ↔ es.Gives name default Reads a := by
  unfold field Entries.Gives
  cases Entries.get? es (.str name) with
  | some v => exact h v
  | none => exact result_pure

/-- A field whose values are tested and normalized after they were read. -/
theorem result_field_map {es : Entries Key Value} {name : String} {offered : β}
    {default a : α} {check : List String → Value → Checked α} {Reads : Value → β → Prop}
    {Passes : β → Prop} {norm : β → α} (hpasses : Passes offered) (hnorm : default = norm offered)
    (h : ∀ v, (check [name] v).result = .ok a ↔ ∃ b, Reads v b ∧ Passes b ∧ a = norm b) :
    (field es name default check).result = .ok a ↔
      ∃ b, es.Gives name offered Reads b ∧ Passes b ∧ a = norm b := by
  unfold field Entries.Gives
  cases Entries.get? es (.str name) with
  | some v => exact h v
  | none =>
    rw [result_pure]
    constructor
    · exact fun ha => ⟨offered, rfl, hpasses, ha.trans hnorm⟩
    · rintro ⟨_, rfl, -, ha⟩
      exact ha.trans hnorm.symm

theorem result_string {v : Value} {s : String} :
    (string place v).result = .ok s ↔ v.Spells s := by
  constructor
  · intro h
    unfold string at h
    split at h
    · rw [result_pure.1 h]
      exact .str _
    · split at h
      · next hd =>
        rw [result_pure.1 h]
        exact .bytes hd
      · exact absurd h not_result_fault
    · exact absurd h not_result_fault
  · rintro (_ | hd)
    · exact result_pure.2 rfl
    · simp only [string, hd]
      exact result_pure.2 rfl

theorem result_stringItems {i : ℕ} {items : List Value} {texts : List String} :
    (stringItems place i items).result = .ok texts ↔
      List.Forall₂ Value.Spells items texts := by
  induction items generalizing i texts with
  | nil => simp [stringItems, result_pure]
  | cons v items ih =>
    simp only [stringItems, result_bind, result_string, ih, result_pure,
      List.forall₂_cons_left_iff]
    constructor
    · rintro ⟨s, hs, texts, ht, rfl⟩
      exact ⟨s, texts, hs, ht, rfl⟩
    · rintro ⟨s, texts, hs, ht, rfl⟩
      exact ⟨s, hs, texts, ht, rfl⟩

theorem result_strings {kind : String} {v : Value} {texts : List String} :
    (strings kind place v).result = .ok texts ↔ v.SpellsAll texts := by
  constructor
  · intro h
    unfold strings at h
    split at h
    · exact ⟨_, .inl rfl, result_stringItems.1 h⟩
    · exact ⟨_, .inr rfl, result_stringItems.1 h⟩
    · exact absurd h not_result_fault
  · rintro ⟨items, rfl | rfl, h⟩
    · exact result_stringItems.2 h
    · exact result_stringItems.2 h

theorem result_choice {options : List (String × α)} {default a : α} {v : Value} :
    (choice options default place v).result = .ok a ↔ v.Names options a := by
  constructor
  · intro h
    unfold choice at h
    split at h
    · next b hb =>
      obtain ⟨name, hname, hlookup⟩ := Option.bind_eq_some_iff.1 hb
      rw [result_pure.1 h]
      refine ⟨name, ?_, hlookup⟩
      unfold Value.str? at hname
      split at hname
      · cases hname
        rfl
      · cases hname
    · exact absurd h not_result_fault
  · rintro ⟨name, rfl, hlookup⟩
    simp only [choice, Value.str?, Option.bind_some, hlookup]
    exact result_pure.2 rfl

theorem result_entries {v : Value} {es : Entries String Value} :
    (entries place v).result = .ok es ↔ v.Maps es := by
  have reads : ∀ (e : Key × Value) (p : String × Value),
      ((key place e.1 >>= fun k => pure (k, e.2) : Checked (String × Value)).result = .ok p ↔
        Value.Spells (.scalar e.1) p.1 ∧ p.2 = e.2) := by
    rintro ⟨k, v⟩ ⟨s, v'⟩
    simp only [result_bind, result_pure, key, result_string, Prod.mk.injEq]
    constructor
    · rintro ⟨_, h, rfl, rfl⟩
      exact ⟨h, rfl⟩
    · rintro ⟨h, rfl⟩
      exact ⟨s, h, rfl, rfl⟩
  constructor
  · intro h
    unfold entries at h
    split at h
    · next pairs =>
      obtain ⟨written, hw, h⟩ := result_bind.1 h
      simp only [result_mapM, reads] at hw
      exact ⟨pairs, written, rfl, hw, result_pure.1 h⟩
    · exact absurd h not_result_fault
  · rintro ⟨pairs, written, rfl, hw, rfl⟩
    refine result_bind.2 ⟨written, ?_, result_pure.2 rfl⟩
    simpa only [result_mapM, reads] using hw

/-- Only known fields have no faults. -/
theorem unknownKeys_eq_nil_iff {known : List String} {es : Entries Key Value} :
    unknownKeys known es = [] ↔ ∀ e ∈ es, ∃ name ∈ known, e.1 = .str name := by
  rw [unknownKeys, List.filterMap_eq_nil_iff]
  refine forall₂_congr fun e _ => ?_
  split
  · next s hs =>
    simp only [hs, Key.str.injEq, exists_eq_right']
    split_ifs with h <;> simpa using h
  · next hk =>
    simp only [reduceCtorEq, false_iff, not_exists, not_and]
    exact fun name _ he => hk name he

end Checked
end CodeHighlight
