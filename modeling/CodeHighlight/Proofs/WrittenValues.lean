import CodeHighlight.Data.Value
import Mathlib.Order.Nat
import Mathlib.Tactic.SplitIfs

/-!
# Values that are written out

Main statement: `Value.overruns_writable`. A value can be written out unless it holds a number with
too many digits, or is nested deeper than the levels of the stack that are left. These are two kinds
of failure, so that what fails for want of levels (`Value.IsTooDeep`) is told from the rest.
-/

namespace CodeHighlight
variable {t : Trace}

theorem Key.kind_of_writable {k : Key} (h : k.writable = .error t) : t.kind = .value := by
  unfold Key.writable at h
  split at h
  · split_ifs at h
    cases h
    rfl
  · cases h

namespace Value

mutual

/-- How deep a value is nested. -/
def depth : Value → ℕ
  | .scalar _ | .grammar _ | .thing _ _ => 0
  | .list items | .tuple items => depthAmong items + 1
  | .map entries => depthBelow entries + 1

/-- How deep the deepest of several values is nested. -/
def depthAmong : List Value → ℕ
  | [] => 0
  | v :: rest => max v.depth (depthAmong rest)

/-- How deep the deepest value of a mapping is nested. -/
def depthBelow : List (Key × Value) → ℕ
  | [] => 0
  | (_, v) :: rest => max v.depth (depthBelow rest)

end

/-- A failure to write out something nested so deep: it is a value failure, or there are too few
levels. -/
def Overruns (levels depth : ℕ) (t : Trace) : Prop :=
  t.kind = .value ∨ t.kind = .recursion ∧ levels < depth

theorem Overruns.mono {levels d d' : ℕ} (h : Overruns levels d t) (hd : d ≤ d') :
    Overruns levels d' t :=
  h.imp_right fun h => ⟨h.1, h.2.trans_le hd⟩

/-- Going into a list or a mapping takes a level. -/
theorem overruns_enter {levels d : ℕ} {x : Except Trace Unit}
    (h : (if levels = 0 then .error nestedTooDeep else x) = .error t)
    (hx : x = .error t → Overruns (levels - 1) d t) : Overruns levels (d + 1) t := by
  split_ifs at h with hzero
  · cases h
    exact .inr ⟨rfl, by omega⟩
  · exact (hx h).imp_right fun h => ⟨h.1, by omega⟩

/-- One thing is written out after the other. -/
theorem overruns_seq {levels d d' : ℕ} {x y : Except Trace Unit}
    (h : (do x; y) = .error t) (hx : x = .error t → Overruns levels d t)
    (hy : y = .error t → Overruns levels d' t) : Overruns levels (max d d') t := by
  cases x with
  | error e => exact (hx h).mono (le_max_left d d')
  | ok u => exact (hy h).mono (le_max_right d d')

mutual

/-- A value fails to be written out only for what it holds, or because it is nested deeper than the
levels that are left. -/
theorem overruns_writable : ∀ (v : Value) (levels : ℕ), v.writable levels = .error t →
    Overruns levels v.depth t
  | .scalar k, levels => fun h => .inl (Key.kind_of_writable h)
  | .list items, levels => fun h =>
    overruns_enter h (overruns_areWritable items (levels - 1))
  | .tuple items, levels => fun h =>
    overruns_enter h (overruns_areWritable items (levels - 1))
  | .map entries, levels => fun h =>
    overruns_enter h (overruns_entriesWritable entries (levels - 1))
  | .grammar _, levels => fun h => by cases h
  | .thing _ _, levels => fun h => by cases h

theorem overruns_areWritable : ∀ (items : List Value) (levels : ℕ),
    areWritable levels items = .error t → Overruns levels (depthAmong items) t
  | [], levels => fun h => by cases h
  | v :: rest, levels => fun h =>
    overruns_seq h (overruns_writable v levels) (overruns_areWritable rest levels)

theorem overruns_entriesWritable : ∀ (entries : List (Key × Value)) (levels : ℕ),
    entriesWritable levels entries = .error t → Overruns levels (depthBelow entries) t
  | [], levels => fun h => by cases h
  | (k, v) :: rest, levels => fun h => by
    have hvalue : ∀ d, k.writable = .error t → Overruns levels d t := fun d hk =>
      .inl (Key.kind_of_writable hk)
    have hrest := overruns_seq h (hvalue 0) fun h =>
      overruns_seq h (overruns_writable v levels) (overruns_entriesWritable rest levels)
    exact hrest.mono (max_le (Nat.zero_le _) le_rfl)

end

/-- Writing out a value fails for want of levels. -/
def IsTooDeep (levels : ℕ) (v : Value) : Prop :=
  ∃ t, v.writable levels = .error t ∧ t.kind = .recursion

variable {v : Value} {levels : ℕ}

/-- What is too deep is nested deeper than the levels that are left. -/
theorem IsTooDeep.lt_depth (h : v.IsTooDeep levels) : levels < v.depth := by
  obtain ⟨t, ht, hkind⟩ := h
  rcases overruns_writable v levels ht with hvalue | hdeep
  · rw [hkind] at hvalue
    cases hvalue
  · exact hdeep.2

/-- Lists nested in each other. -/
def nestedLists : ℕ → Value
  | 0 => .list [.null]
  | n + 1 => .list [nestedLists n]

/-- Lists that are nested deeper than the levels that are left cannot be written out. -/
theorem writable_nestedLists {n levels : ℕ} (h : levels ≤ n) :
    (nestedLists n).writable levels = .error nestedTooDeep := by
  induction n generalizing levels with
  | zero =>
    rw [Nat.le_zero.1 h]
    rfl
  | succ n ih =>
    cases levels with
    | zero => rfl
    | succ levels =>
      have hinner := ih (Nat.le_of_succ_le_succ h)
      rw [nestedLists, writable, if_neg (Nat.succ_ne_zero levels)]
      show (do writable levels (nestedLists n); areWritable levels []) = _
      rw [hinner]
      rfl

end Value

end CodeHighlight
