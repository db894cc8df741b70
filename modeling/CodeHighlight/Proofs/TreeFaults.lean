import CodeHighlight.Proofs.TokenFaults

/-!
# Failures to compose the trees of YAML

Main statement: `reads_ofText`. Composing a tree fails only as a misreading. It is done in steps
over tokens that may end early; such a step fails with the failure at their end, so that it has to
leave this failure as it is (`Composes`).
-/

namespace CodeHighlight.Yaml

namespace Compose
variable {α β : Type} {m : Compose α} {f : α → Compose β}

/-- The tokens end because the text does, or because it is misread there. -/
def EndsWell (s : Composing) : Prop := ∀ t, s.ending = some t → IsMisreading t

/-- A reading step that fails as a misreading, if the tokens end well, and otherwise leaves them so
that they do. -/
def Composes (m : Compose α) : Prop :=
  ∀ s, EndsWell s →
    match m s with
    | .ok (_, s') => EndsWell s'
    | .error t => IsMisreading t

theorem Composes.pure (a : α) : Composes (pure a : Compose α) := fun _ hs => hs

theorem Composes.bind (hm : Composes m) (hf : ∀ a, Composes (f a)) : Composes (m >>= f) := by
  intro s hs
  have hs' := hm s hs
  show match (m s >>= fun r => f r.1 r.2) with
    | .ok (_, s') => EndsWell s'
    | .error t => IsMisreading t
  cases h : m s with
  | error t =>
    rw [h] at hs'
    exact hs'
  | ok r =>
    rw [h] at hs'
    exact hf r.1 r.2 hs'

theorem Composes.ite {c : Prop} [Decidable c] {m' : Compose α} (hm : Composes m)
    (hm' : Composes m') : Composes (if c then m else m') := by
  split_ifs
  · exact hm
  · exact hm'

theorem composes_get : Composes (get : Compose Composing) := fun _ hs => hs

theorem composes_modify {g : Composing → Composing} (hg : ∀ s, (g s).ending = s.ending) :
    Composes (modify g : Compose Unit) := by
  intro s hs t ht
  exact hs t ((hg s).symm.trans ht)

theorem composes_misplaced : Composes (misplaced : Compose α) :=
  fun _ _ => isMisreading_fault _

theorem composes_broken : Composes (broken : Compose α) :=
  fun _ _ => isMisreading_fault _

theorem composes_peek : Composes peek := by
  rintro ⟨tokens, ending, handles, anchors⟩ hs
  cases tokens with
  | cons t ts => exact hs
  | nil =>
    cases ending with
    | none => exact isMisreading_fault _
    | some t => exact hs t rfl

theorem composes_drop : Composes drop := composes_modify fun _ => rfl

theorem composes_accept (t : Token) : Composes (accept t) :=
  composes_peek.bind fun _ => .ite (composes_drop.bind fun _ => .pure _) (.pure _)

theorem composes_atAny (ts : List Token) : Composes (atAny ts) :=
  composes_peek.bind fun _ => .pure _

theorem composes_properties : Composes properties := by
  refine composes_peek.bind fun t => ?_
  split
  · refine composes_drop.bind fun _ => composes_peek.bind fun t => ?_
    split
    · exact composes_drop.bind fun _ => .pure _
    · exact .pure _
  · refine composes_drop.bind fun _ => composes_peek.bind fun t => ?_
    split
    · exact composes_drop.bind fun _ => .pure _
    · exact .pure _
  · exact .pure _

theorem composes_fullTag (tag : Option (Option String × String)) : Composes (fullTag tag) := by
  unfold fullTag
  split
  · exact .pure _
  · exact .pure _
  · refine composes_get.bind fun _ => ?_
    split
    · exact .pure _
    · exact composes_misplaced

theorem composes_remember (anchor : Option String) (n : Node) : Composes (remember anchor n) := by
  unfold remember
  split
  · refine Composes.bind (composes_modify fun _ => rfl) fun _ => ?_
    exact .pure _
  · exact .pure _

theorem composes_checkAnchor (anchor : Option String) : Composes (checkAnchor anchor) := by
  unfold checkAnchor
  split
  · exact composes_get.bind fun _ => .ite composes_broken (.pure _)
  · exact .pure _

theorem composes_many {item : Compose (Option α)} (hitem : Composes item) (n : ℕ) :
    Composes (many item n) := by
  induction n with
  | zero => exact composes_misplaced
  | succ n ih =>
    refine hitem.bind fun a => ?_
    split
    · exact ih.bind fun _ => .pure _
    · exact .pure _

section Items
variable {node : Compose Node}

theorem composes_unlessAny (stops : List Token) (hnode : Composes node) :
    Composes (unlessAny stops node) :=
  (composes_atAny _).bind fun _ => .ite (.pure _) hnode

theorem composes_blockItem (hnode : Composes node) : Composes (blockItem node) := by
  refine (composes_accept _).bind fun _ => .ite ?_ ?_
  · exact (composes_unlessAny _ hnode).bind fun _ => .pure _
  · exact (composes_accept _).bind fun _ => .ite (.pure _) composes_misplaced

theorem composes_flatItem (hnode : Composes node) : Composes (flatItem node) := by
  refine (composes_accept _).bind fun _ => .ite ?_ (.pure _)
  exact (composes_unlessAny _ hnode).bind fun _ => .pure _

theorem composes_blockEntry (hnode : Composes node) : Composes (blockEntry node) := by
  have hvalue : ∀ k : Node, Composes (do
      let v ← if ← accept .value then unlessAny [.key, .value, .blockEnd] node else pure blank
      pure (some (k, v))) := by
    refine fun k => (composes_accept _).bind fun _ => .ite ?_ ?_
    · exact (composes_unlessAny _ hnode).bind fun _ => .pure _
    · exact (Composes.pure _).bind fun _ => .pure _
  refine (composes_accept _).bind fun _ => .ite (.pure _) ?_
  refine (composes_accept _).bind fun _ => .ite ?_ ?_
  · exact (composes_unlessAny _ hnode).bind hvalue
  · exact composes_misplaced.bind hvalue

theorem composes_flowSeparator (first : Bool) (stop : Token) :
    Composes (flowSeparator first stop) := by
  refine (composes_accept _).bind fun _ => .ite (.pure _) (.ite (.pure _) ?_)
  exact (composes_accept _).bind fun _ => .ite (composes_accept _) composes_misplaced

theorem composes_flowValue (hnode : Composes node) (stop : Token) :
    Composes (flowValue node stop) :=
  (composes_accept _).bind fun _ => .ite (composes_unlessAny _ hnode) (.pure _)

theorem composes_flowItems (hnode : Composes node) (n : ℕ) (first : Bool) :
    Composes (flowItems node n first) := by
  induction n generalizing first with
  | zero => exact composes_misplaced
  | succ n ih =>
    refine (composes_flowSeparator _ _).bind fun _ => .ite (.pure _) ?_
    refine (composes_accept _).bind fun _ => .ite ?_ ?_
    · exact (composes_unlessAny _ hnode).bind fun _ => (composes_flowValue hnode _).bind fun _ =>
        (Composes.pure _).bind fun _ => (ih _).bind fun _ => .pure _
    · exact hnode.bind fun _ => (ih _).bind fun _ => .pure _

theorem composes_flowEntries (hnode : Composes node) (n : ℕ) (first : Bool) :
    Composes (flowEntries node n first) := by
  induction n generalizing first with
  | zero => exact composes_misplaced
  | succ n ih =>
    refine (composes_flowSeparator _ _).bind fun _ => .ite (.pure _) ?_
    refine (composes_accept _).bind fun _ => .ite ?_ ?_
    · exact (composes_unlessAny _ hnode).bind fun _ => (composes_flowValue hnode _).bind fun _ =>
        (Composes.pure _).bind fun _ => (ih _).bind fun _ => .pure _
    · exact hnode.bind fun _ => (Composes.pure _).bind fun _ => (ih _).bind fun _ => .pure _

end Items

theorem composes_bare (anchor tag : Option String) : Composes (node.bare anchor tag) :=
  .ite composes_misplaced ((composes_checkAnchor _).bind fun _ => composes_remember _ _)

/-- The nodes inside a node are read with one level less. -/
theorem composes_node (n : ℕ) (position : Position) : Composes (node n position) := by
  induction n generalizing position with
  | zero => exact composes_misplaced
  | succ n ih =>
    refine composes_peek.bind fun t => ?_
    split
    · refine composes_drop.bind fun _ => composes_get.bind fun _ => ?_
      split
      · exact .pure _
      · exact composes_broken
    · refine composes_properties.bind fun _ => (composes_fullTag _).bind fun _ =>
        composes_get.bind fun _ => composes_peek.bind fun t => ?_
      split
      · exact composes_drop.bind fun _ => (composes_checkAnchor _).bind fun _ =>
          composes_remember _ _
      · exact composes_drop.bind fun _ => (composes_checkAnchor _).bind fun _ =>
          (composes_flowItems (ih _) _ _).bind fun _ => composes_remember _ _
      · exact composes_drop.bind fun _ => (composes_checkAnchor _).bind fun _ =>
          (composes_flowEntries (ih _) _ _).bind fun _ => composes_remember _ _
      · refine .ite ?_ (composes_bare _ _)
        exact (composes_checkAnchor _).bind fun _ =>
          (composes_many (composes_flatItem (ih _)) _).bind fun _ => composes_remember _ _
      · refine .ite (composes_bare _ _) ?_
        exact composes_drop.bind fun _ => (composes_checkAnchor _).bind fun _ =>
          (composes_many (composes_blockItem (ih _)) _).bind fun _ => composes_remember _ _
      · refine .ite (composes_bare _ _) ?_
        exact composes_drop.bind fun _ => (composes_checkAnchor _).bind fun _ =>
          (composes_many (composes_blockEntry (ih _)) _).bind fun _ => composes_remember _ _
      · exact composes_bare _ _

theorem composes_directives (n : ℕ) (versioned : Bool) (handles : Entries String String) :
    Composes (directives n versioned handles) := by
  induction n generalizing versioned handles with
  | zero => exact .pure _
  | succ n ih =>
    refine composes_peek.bind fun t => ?_
    split
    · exact composes_drop.bind fun _ => .ite composes_misplaced (ih _ _)
    · exact composes_drop.bind fun _ => .ite composes_misplaced (ih _ _)
    · exact composes_drop.bind fun _ => ih _ _
    · exact .pure _

theorem composes_skipEnds (n : ℕ) : Composes (skipEnds n) := by
  induction n with
  | zero => exact .pure _
  | succ n ih => exact (composes_accept _).bind fun _ => .ite ih (.pure _)

theorem composes_documentStart : Composes documentStart := by
  refine composes_get.bind fun _ => (composes_skipEnds _).bind fun _ =>
    (composes_accept _).bind fun _ => .ite (.pure _) ?_
  refine (composes_directives _ _ _).bind fun _ => (composes_accept _).bind fun _ =>
    .ite ?_ composes_misplaced
  exact Composes.bind (composes_modify fun _ => rfl) fun _ => .pure _

theorem composes_documentContent (levels : ℕ) : Composes (documentContent levels) := by
  refine composes_peek.bind fun t => ?_
  split
  case h_7 => exact composes_node _ _
  all_goals exact .pure _

theorem composes_document : Composes document := by
  -- what follows the root is the same whether a mark starts the document or not
  have hend : ∀ root : Option Node, Composes (do
      if root.isSome then
        let _ ← accept .documentEnd
        if ← documentStart then broken
      pure root) := by
    refine fun root => .ite ?_ (.pure _)
    refine (composes_accept _).bind fun _ => composes_documentStart.bind fun _ => .ite ?_ (.pure _)
    exact composes_broken.bind fun _ => .pure _
  refine composes_get.bind fun _ => composes_peek.bind fun t => ?_
  dsimp only
  split
  case h_6 =>
    exact Composes.bind (composes_modify fun _ => rfl) fun _ => (composes_node _ _).bind fun _ =>
      (Composes.pure _).bind hend
  all_goals
    refine composes_documentStart.bind fun _ => .ite ?_ ?_
    · exact (composes_documentContent _).bind fun _ => (Composes.pure _).bind hend
    · exact (Composes.pure _).bind hend

end Compose

theorem reads_ofText (text : String) : Reads (Node.ofText text) := by
  intro t h
  let s : Composing := { tokens := (Token.ofText text).1, ending := (Token.ofText text).2 }
  have hrun : Compose.document s = .error t := Except.map_eq_error_iff.1 h
  have hcomposes := Compose.composes_document s fun t => Token.isMisreading_of_ofText
  rw [hrun] at hcomposes
  exact hcomposes

end CodeHighlight.Yaml
