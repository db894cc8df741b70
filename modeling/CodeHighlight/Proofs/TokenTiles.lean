import CodeHighlight.Grammars.Tokens
import CodeHighlight.Proofs.Layout

/-!
# Token tiles

Main statement: `tokens_tile_source`. Whatever tokens a lexer gives, the tree of a source has one
node for each of the tokens that continue the source, from its start and without gaps, and
highlighting with that tree never fails.

The nodes are those of the tokens that are taken, laid side by side (`exists_nodes_eq`), and the
spans follow them token by token (`piecesOf_nodesOf`).
-/

namespace CodeHighlight.Lexing
open Text.Utf8 (Bytes slice ofString)

/-! ### Tokens that continue a text -/

/-- The text of several tokens. -/
def written (ts : List Token) : String := String.join (ts.map Prod.snd)

/-- The tokens that have a text. -/
def withText (ts : List Token) : List Token := ts.filter fun t => t.2 ≠ ""

/-- The longest beginning of the tokens whose text is a beginning of the given one. -/
structure IsLongest (text : String) (tokens taken : List Token) : Prop where
  beginning : taken <+: tokens
  continues : ∃ rest, text = written taken ++ rest
  longest : ∀ ts, ts <+: tokens → (∃ rest, text = written ts ++ rest) → ts <+: taken

@[simp] theorem written_nil : written [] = "" := rfl

@[simp] theorem written_cons (t : Token) (ts : List Token) :
    written (t :: ts) = t.2 ++ written ts := by
  simp [written]

@[simp] theorem written_append (ts us : List Token) :
    written (ts ++ us) = written ts ++ written us := by
  simp [written]

/-- A text begins with another one exactly when its characters do. -/
theorem isPrefixOf_toList_iff {value text : String} :
    value.toList.isPrefixOf text.toList = true ↔ ∃ rest, text = value ++ rest := by
  rw [List.isPrefixOf_iff_prefix]
  constructor
  · rintro ⟨rest, h⟩
    exact ⟨String.ofList rest, String.toList_injective (by simp [h])⟩
  · rintro ⟨rest, rfl⟩
    exact ⟨rest.toList, String.toList_append.symm⟩

/-- Tokens that are taken until one does not continue the text are the longest beginning. -/
theorem isLongest_of_split {tokens taken dropped : List Token} {text rest : String}
    (htokens : tokens = taken ++ dropped) (htext : text = written taken ++ rest)
    (hstop : ∀ t ∈ dropped.head?, ¬∃ r, rest = t.2 ++ r) : IsLongest text tokens taken := by
  subst htokens
  refine ⟨List.prefix_append _ _, ⟨rest, htext⟩, fun ts hts hcont => ?_⟩
  obtain ⟨r, hr⟩ := hcont
  rcases List.prefix_or_prefix_of_prefix hts (List.prefix_append taken dropped) with h | ⟨more, rfl⟩
  · exact h
  · rw [List.prefix_append_right_inj] at hts
    cases more with
    | nil => rw [List.append_nil]
    | cons t more =>
      -- the first token that was not taken would continue the text
      obtain ⟨others, rfl⟩ := hts
      refine absurd ⟨written more ++ r, ?_⟩ (hstop t rfl)
      rw [hr, written_append, written_cons, String.append_assoc, String.append_assoc,
        String.append_right_inj] at htext
      exact htext.symm

/-! ### Nodes side by side -/

/-- The nodes of tokens that are laid side by side from a byte position on. -/
def nodesOf (position : ℕ) : List Token → List Node
  | [] => []
  | t :: ts =>
    { label := t.1.name, named := !t.1.isPlain, start := position,
      stop := (position + (ofString t.2).length : ℕ) } ::
        nodesOf (position + (ofString t.2).length) ts

/-- **The nodes of a text** are those of tokens that are taken until one does not continue it. -/
theorem exists_nodes_eq (tokens : List Token) (position : ℕ) (text : String) :
    ∃ taken dropped rest, withText tokens = taken ++ dropped ∧ text = written taken ++ rest ∧
      (∀ t ∈ dropped.head?, ¬∃ r, rest = t.2 ++ r) ∧
      nodes position text.toList tokens = nodesOf position taken := by
  induction tokens generalizing position text with
  | nil => exact ⟨[], [], text, rfl, by simp, by simp, rfl⟩
  | cons t tokens ih =>
    obtain ⟨type, value⟩ := t
    rw [nodes]
    by_cases hempty : value = ""
    · subst hempty
      exact ih position text
    · have htoken : withText ((type, value) :: tokens) = (type, value) :: withText tokens :=
        List.filter_cons_of_pos (by simpa using hempty)
      rw [htoken, if_neg (by simpa using hempty)]
      split_ifs with hcont
      · obtain ⟨text, rfl⟩ := isPrefixOf_toList_iff.1 hcont
        obtain ⟨taken, dropped, rest, htokens, rfl, hstop, heq⟩ :=
          ih (position + (ofString value).length) text
        refine ⟨(type, value) :: taken, dropped, rest, ?_, ?_, hstop, ?_⟩
        · rw [htokens, List.cons_append]
        · rw [written_cons, String.append_assoc]
        · rw [nodesOf, ← heq, String.toList_append, List.drop_left]
          rfl
      · refine ⟨[], (type, value) :: withText tokens, text, rfl, by simp, ?_, rfl⟩
        rintro _ ⟨⟩
        exact fun h => hcont (isPrefixOf_toList_iff.2 h)

/-- The node of a token: it lies over the bytes of the token, has nothing below it, and is anonymous
exactly when the token is plain text. -/
structure IsNodeOf (source : Bytes) (t : Token) (n : Node) : Prop where
  label : n.label = t.1.name
  named : n.named = false ↔ ∃ more, t.1 = "Text" :: more
  start : 0 ≤ n.start
  stop : n.stop = n.start + (ofString t.2).length
  bytes : slice source n.start.toNat n.stop.toNat = ofString t.2
  children : n.children = []

/-- The first node starts at a position, and each next one where the one before it stops. -/
def Abut (position : ℤ) : List Node → Prop
  | [] => True
  | n :: ns => n.start = position ∧ Abut n.stop ns

theorem abut_nodesOf (ts : List Token) (position : ℕ) : Abut position (nodesOf position ts) := by
  induction ts generalizing position with
  | nil => trivial
  | cons t ts ih => exact ⟨rfl, ih _⟩

theorem isPlain_eq_true_iff {type : TokenType} :
    type.isPlain = true ↔ ∃ more, type = "Text" :: more := by
  unfold TokenType.isPlain
  rw [beq_iff_eq, List.head?_eq_some_iff]

theorem slice_middle (before middle after : Bytes) :
    slice (before ++ (middle ++ after)) before.length (before.length + middle.length) = middle := by
  simp [slice]

theorem forall₂_nodesOf (ts : List Token) (before : Bytes) (rest : String) :
    List.Forall₂ (IsNodeOf (before ++ ofString (written ts ++ rest))) ts
      (nodesOf before.length ts) := by
  induction ts generalizing before with
  | nil => exact .nil
  | cons t ts ih =>
    have hsource : before ++ ofString (written (t :: ts) ++ rest) =
        before ++ (ofString t.2 ++ ofString (written ts ++ rest)) := by
      simp [String.append_assoc]
    rw [hsource]
    refine .cons ⟨rfl, ?_, Int.natCast_nonneg _, Int.natCast_add _ _, ?_, rfl⟩ ?_
    · rw [Bool.not_eq_false', isPlain_eq_true_iff]
    · exact slice_middle _ _ _
    · have hrest := ih (before ++ ofString t.2)
      rwa [List.append_assoc, List.length_append] at hrest

/-! ### Spans side by side -/

/-- The span of a token. -/
def tokenSpan (policy : ClassPolicy) (t : Token) : Piece :=
  .span (policy.classesFor (if t.1.isPlain then [] else [t.1.name])) [.run t.2]

/-- The run of a text, or nothing when it is empty. -/
def runOf (text : String) : List Piece := if text = "" then [] else [.run text]

section Walk
variable {w : Highlight.Setting} {lexerName : String}

theorem length_ofString_pos {s : String} (h : s ≠ "") : 0 < (ofString s).length := by
  rw [List.length_pos_iff]
  exact fun hnil => h (Text.Utf8.ofString_injective hnil)

theorem gap_eq_runOf {i j : ℕ} {s : String} (hlen : j = i + (ofString s).length)
    (hslice : slice w.source i j = ofString s) : w.gap i j = .ok (runOf s) := by
  unfold Highlight.Setting.gap runOf
  by_cases hs : s = ""
  · subst hs
    rw [if_neg (by simp [hlen]), if_pos rfl]
  · have hpos := length_ofString_pos hs
    rw [if_pos (by omega), if_neg hs, Highlight.Setting.run, hslice, Text.Utf8.decode_ofString]
    rfl

/-- The span of the node of a token has the token's name for its scope, unless it is plain text. -/
theorem spanOf_token (hw : w.resolver = resolver lexerName) (room : ℕ) (c : Cursor) (i : ℕ)
    {t : Token} (ht : t.2 ≠ "") {start : ℕ}
    (hslice : slice w.source start (start + (ofString t.2).length) = ofString t.2) (stop : ℤ) :
    let n : Node := { label := t.1.name, named := !t.1.isPlain, start := start, stop := stop }
    Highlight.spanOf w (room + 2) (c.toChild i n) start (start + (ofString t.2).length) n =
      .ok ⟨w.policy.classesFor (if t.1.isPlain then [] else [t.1.name]), [.run t.2]⟩ := by
  intro n
  have hscopes : w.resolver (c.toChild i n) w.source =
      .ok (if t.1.isPlain then [] else [t.1.name]) := by
    rw [hw]
    show Except.ok (if (!t.1.isPlain) = true then [t.1.name] else []) = _
    cases t.1.isPlain <;> rfl
  rw [Highlight.spanOf, Highlight.classesAt_eq_classesOf (by omega), Highlight.Setting.classesOf,
    hscopes, Highlight.piecesOf, gap_eq_runOf rfl hslice, runOf, if_neg ht]
  rfl

/-- **The pieces of nodes side by side** are the spans of their tokens, and what is left of the text
as one run. -/
theorem piecesOf_nodesOf (hw : w.resolver = resolver lexerName) (ts : List Token) (before : Bytes)
    (rest : String) (hts : ∀ t ∈ ts, t.2 ≠ "")
    (hsource : w.source = before ++ ofString (written ts ++ rest)) (room : ℕ) (c : Cursor) (i : ℕ) :
    Highlight.piecesOf w (room + 2) c i before.length w.source.length (nodesOf before.length ts) =
      .ok (ts.map (tokenSpan w.policy) ++ runOf rest) := by
  induction ts generalizing before i with
  | nil =>
    rw [nodesOf, Highlight.piecesOf]
    refine gap_eq_runOf ?_ ?_
    · simp [hsource]
    · rw [hsource]
      simp [slice]
  | cons t ts ih =>
    obtain ⟨ht, hts⟩ := List.forall_mem_cons.1 hts
    have hsource' : w.source = before ++ (ofString t.2 ++ ofString (written ts ++ rest)) := by
      rw [hsource]
      simp [String.append_assoc]
    have hpos := length_ofString_pos ht
    have hlen : w.source.length =
        before.length + ((ofString t.2).length + (ofString (written ts ++ rest)).length) := by
      rw [hsource', List.length_append, List.length_append]
    have hslice : slice w.source before.length (before.length + (ofString t.2).length) =
        ofString t.2 := by
      rw [hsource', slice_middle]
    have hrest := ih (before ++ ofString t.2) hts (by rw [hsource', List.append_assoc]) (i + 1)
    rw [List.length_append] at hrest
    rw [nodesOf, Highlight.piecesOf]
    dsimp only
    rw [Int.toNat_natCast, Int.toNat_natCast, max_self, min_eq_left (by omega), if_pos (by omega),
      hrest, spanOf_token hw room c i ht hslice, Highlight.Setting.gap, if_neg (lt_irrefl _)]
    rfl

/-- The span of a source with the nodes of its tokens: it has the scope of the lexer, unless the
source is empty. -/
theorem spanOfSource_tokens (hw : w.resolver = resolver lexerName) {root : Node} {ts : List Token}
    {rest : String} (hts : ∀ t ∈ ts, t.2 ≠ "") (hsource : w.source = ofString (written ts ++ rest))
    (hstart : root.start = 0) (hstop : root.stop = w.source.length)
    (hchildren : root.children = nodesOf 0 ts) (room : ℕ) :
    ∃ classes, Highlight.spanOfSource w (room + 3) root =
        .ok ⟨classes, ts.map (tokenSpan w.policy) ++ runOf rest⟩ ∧
      (w.source ≠ [] → classes = w.policy.classesFor [rootScope lexerName]) := by
  have hpieces := piecesOf_nodesOf hw ts [] rest hts hsource room (.ofRoot root) 0
  rw [List.length_nil] at hpieces
  unfold Highlight.spanOfSource
  dsimp only
  rw [hstart, hstop, Int.toNat_zero, Int.toNat_natCast, Nat.zero_min, Nat.max_zero, min_self]
  by_cases hempty : w.source = []
  · -- there are no tokens, and nothing is left
    refine ⟨[], ?_, fun h => absurd hempty h⟩
    rw [hempty] at hsource
    have hnil : written ts ++ rest = "" := Text.Utf8.ofString_injective hsource.symm
    cases ts with
    | nil =>
      have hrest : rest = "" := by simpa using hnil
      subst hrest
      rw [hempty]
      rfl
    | cons t ts =>
      rw [written_cons, String.append_assoc, String.append_eq_empty_iff] at hnil
      exact absurd hnil.1 (hts t List.mem_cons_self)
  · have hpos : 0 < w.source.length := List.length_pos_iff.2 hempty
    refine ⟨_, ?_, fun _ => rfl⟩
    obtain ⟨label, named, start, stop, children, strays, attached⟩ := root
    subst hchildren
    rw [if_pos hpos, Highlight.spanOf, Highlight.classesAt_eq_classesOf (by omega),
      Highlight.Setting.classesOf, hw, Nat.add_sub_cancel (n := room + 2) (m := 1), hpieces]
    simp only [decide_true, Bool.and_self, if_true]
    rfl

end Walk

/-! ### The main result -/

/-- **Tokens tile a source.** Whatever tokens the lexer gives for a text, the tree covers the text,
and its nodes are those of the longest beginning of the tokens with a text that continues the
source, side by side from its start. Highlighting with that tree, for which three levels of the
stack are enough, succeeds and keeps the text: each of these tokens has a span of its own, and what
is left of the text is one run behind them. -/
theorem tokens_tile_source (serial : ℕ) (lexerName : String) (lexer : String → List Token)
    (text : String) :
    ∃ root taken rest,
      (grammar serial lexerName lexer).parse (ofString text) = .ok (some root) ∧
      root.start = 0 ∧ root.stop = (ofString text).length ∧
      IsLongest text (withText (lexer text)) taken ∧ text = written taken ++ rest ∧
      List.Forall₂ (IsNodeOf (ofString text)) taken root.children ∧ Abut 0 root.children ∧
      ∀ room policy language, ∃ s,
        Highlight.highlight (room + 3) (grammar serial lexerName lexer) text policy language =
          .ok s ∧
        s.text = text ∧ s.children = taken.map (tokenSpan policy) ++ runOf rest ∧
        (text ≠ "" → s.classes = policy.classesFor [rootScope lexerName]) := by
  obtain ⟨taken, dropped, rest, htokens, htext, hstop, hnodes⟩ :=
    exists_nodes_eq (lexer text) 0 text
  have hparse : (grammar serial lexerName lexer).parse (ofString text) =
      .ok (some (tree text (lexer text))) := by
    show parse lexer (ofString text) = _
    rw [parse, Text.Utf8.decode_ofString]
  have hchildren : (tree text (lexer text)).children = nodesOf 0 taken := hnodes
  have htaken : ∀ t ∈ taken, t.2 ≠ "" := by
    intro t ht
    have hmem : t ∈ withText (lexer text) := by
      rw [htokens]
      exact List.mem_append_left _ ht
    simpa using (List.mem_filter.1 hmem).2
  refine ⟨_, taken, rest, hparse, rfl, rfl, isLongest_of_split htokens htext hstop, htext, ?_, ?_,
    fun room policy language => ?_⟩
  · rw [hchildren, htext]
    exact forall₂_nodesOf taken [] rest
  · rw [hchildren]
    exact abut_nodesOf taken 0
  · let w : Highlight.Setting := ⟨resolver lexerName, ofString text, policy⟩
    obtain ⟨classes, hspan, hclasses⟩ := spanOfSource_tokens (w := w) rfl htaken
      (congrArg ofString htext) rfl rfl hchildren room
    have hhighlight : Highlight.highlight (room + 3) (grammar serial lexerName lexer) text policy
        language = .ok ⟨classes, taken.map (tokenSpan policy) ++ runOf rest⟩ := by
      rw [Highlight.highlight_eq_mapError hparse rfl, hspan]
      rfl
    refine ⟨_, hhighlight, Text.Wide.ofString_injective (Highlight.text_eq_of_highlight hhighlight),
      rfl, fun hne => ?_⟩
    exact hclasses fun hnil => hne (Text.Utf8.ofString_injective hnil)

/-- The tokens are taken up to one that writes the end of a line in another way. -/
example :
    Highlight.highlight 3 (grammar 0 "toy" fun _ => [(["Name"], "é"), (["Name"], ""),
      (["Text", "Whitespace"], " "), (["Name"], "x"), (["Text"], "\n"), (["Name"], "y")])
      "é x\r\ny" {} none =
    .ok ⟨["source", "toy"], [.span ["name"] [.run "é"], .span [] [.run " "],
      .span ["name"] [.run "x"], .run "\r\ny"]⟩ := by
  cbv

end CodeHighlight.Lexing
