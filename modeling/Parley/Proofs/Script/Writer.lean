import Mathlib.Tactic.MkIffOfInductiveProp
import Parley.Proofs.Text.Cut
import Parley.Script.Line

/-!
# Writing a script

The inverse of reading: every story whose fields leave the separators of the format alone has a
script. This file writes it and shows, line by line, that a written line means what it was written
for.

The forms of lines overlap, and the order in which `Line.read` tries them decides. `Writable`
collects what that takes of a field: an arrow in a change or a condition of a *node* would turn its
directive into an option, and a quotation mark at the end of a condition of an *option* would turn
the option into a quotation.

## Main definitions

* `Choice.line`, `Node.lines`, `Story.lines`, `Story.script`
* `Choice.Writable`, `Node.Writable`, `Story.Writable`
* `Line.directives` — the names of what adds to a node

## Main results

* `Choice.read_line`, `Line.read_changes`, `Line.read_condition`, … — written lines read back
* `Line.read_setFlag`, `Line.read_requires`, `Line.read_requiresNot` — the short forms for flags
* `Story.one_line`, `Story.strip_line` — a written line survives the cutting and stripping
-/

namespace Parley

/-! ### What is written -/

/-- What stands behind the arrow of an option: target, changes and condition. -/
def Choice.segments (c : Choice) : Text :=
  c.target.getD [] ++ '|' :: (Text.join [';'] c.changes ++ '|' :: c.condition.getD [])

/-- A choice as an option line. -/
def Choice.line (c : Choice) : Text := '"' :: (c.text ++ "\" -> ".toList ++ c.segments)

/-- The line or the choices of a node. -/
def Node.contentLines (n : Node) : List Text :=
  match n.choices with
  | none => ["Character_".toList ++ n.speaker, '"' :: (n.text ++ ['"'])]
  | some cs => "#Choice".toList :: cs.map Choice.line

/-- What modifies a node, as directives. -/
def Node.directiveLines (n : Node) : List Text :=
  (if n.changes.isEmpty then [] else ["#Set".toList ++ ' ' :: Text.join [';'] n.changes]) ++
    n.condition.toList.map fun c => "#If".toList ++ ' ' :: c

/-- All lines of a node. -/
def Node.lines (n : Node) : List Text := n.contentLines ++ n.directiveLines

/-- The lines of a conversation. -/
def Story.conversationLines (e : Text × List Node) : List Text :=
  ("#Conversation".toList ++ ' ' :: e.1) :: e.2.flatMap Node.lines

/-- The lines of a story, conversation by conversation. -/
def Story.lines (s : Story) : List Text := s.entries.flatMap conversationLines

/-- The script of a story. -/
def Story.script (s : Story) : Text := Text.join ['\n'] s.lines

/-! ### What can be written -/

/-- A text that can stand in a line by itself: not empty, without blanks at its ends and without
line feeds. -/
@[mk_iff]
structure Text.IsField (t : Text) : Prop where
  ne_nil : t ≠ []
  stripped : t.strip = t
  one_line : '\n' ∉ t

instance (t : Text) : Decidable t.IsField := decidable_of_iff' _ (Text.isField_iff t)

/-- A choice that an option line can carry. -/
@[mk_iff]
structure Choice.Writable (c : Choice) : Prop where
  text_one_line : '\n' ∉ c.text
  text_no_arrow : c.text.PairFree '-' '>'
  text_head : c.text.head? ≠ some '"'
  text_last : c.text.getLast? ≠ some '"'
  target : ∀ t ∈ c.target, t.IsField ∧ '|' ∉ t
  changes : ∀ e ∈ c.changes, e.IsField ∧ ';' ∉ e ∧ '|' ∉ e
  condition : ∀ t ∈ c.condition, t.IsField ∧ t.getLast? ≠ some '"'

instance (c : Choice) : Decidable c.Writable := decidable_of_iff' _ (Choice.writable_iff c)

/-- A node that lines can carry. -/
@[mk_iff]
structure Node.Writable (n : Node) : Prop where
  fresh : n.executed = false
  speaker_stripped : n.speaker.strip = n.speaker
  speaker_one_line : '\n' ∉ n.speaker
  text_one_line : '\n' ∉ n.text
  silent : n.takesChoices = true → n.speaker = [] ∧ n.text = []
  options : ∀ c ∈ n.options, c.Writable
  changes : ∀ e ∈ n.changes, e.IsField ∧ ';' ∉ e ∧ e.PairFree '-' '>'
  condition : ∀ t ∈ n.condition, t.IsField ∧ t.PairFree '-' '>'

instance (n : Node) : Decidable n.Writable := decidable_of_iff' _ (Node.writable_iff n)

/-- A story that a script can carry. -/
def Story.Writable (s : Story) : Prop := ∀ e ∈ s.entries, e.1.IsField ∧ ∀ n ∈ e.2, n.Writable

instance (s : Story) : Decidable s.Writable :=
  inferInstanceAs (Decidable (∀ e ∈ s.entries, e.1.IsField ∧ ∀ n ∈ e.2, n.Writable))

/-! ### Lists of changes -/

variable {es : List Text}

theorem Text.isField_join (hne : es ≠ []) (h : ∀ e ∈ es, e.IsField) :
    (Text.join [';'] es).IsField := by
  induction es with
  | nil => exact absurd rfl hne
  | cons e es ih =>
    have he := h e List.mem_cons_self
    rcases eq_or_ne es [] with rfl | hes
    · exact he
    · have hrest := ih hes fun f hf => h f (List.mem_cons_of_mem _ hf)
      rw [Text.join_cons_of_ne_nil _ e hes]
      refine ⟨by simp, Text.strip_append_append he.stripped he.ne_nil hrest.stripped hrest.ne_nil _,
        ?_⟩
      simp [he.one_line, hrest.one_line]

theorem Text.not_mem_join {c : Char} (hc : c ≠ ';') (h : ∀ e ∈ es, c ∉ e) :
    c ∉ Text.join [';'] es := by
  induction es with
  | nil => simp [Text.join]
  | cons e es ih =>
    have he := h e List.mem_cons_self
    rcases eq_or_ne es [] with rfl | hes
    · exact he
    · rw [Text.join_cons_of_ne_nil _ e hes]
      simp [he, hc, ih fun f hf => h f (List.mem_cons_of_mem _ hf)]

theorem Line.readChanges_join (h : ∀ e ∈ es, e.IsField ∧ ';' ∉ e) :
    Line.readChanges (Text.join [';'] es) = es := by
  rcases eq_or_ne es [] with rfl | hes
  · rfl
  · have hstrip : es.map Text.strip = es := by
      conv_rhs => rw [← List.map_id es]
      exact List.map_congr_left fun e he => (h e he).1.stripped
    rw [Line.readChanges, Text.splitOn_join hes fun e he => (h e he).2, hstrip, List.filter_eq_self]
    intro e he
    simp [(h e he).1.ne_nil]

theorem Line.nonempty?_getD {o : Option Text} (h : ∀ t ∈ o, t.IsField) :
    Line.nonempty? (o.getD []).strip = o := by
  rcases o with _ | t
  · rfl
  · have ht := h t rfl
    rw [Option.getD_some, ht.stripped, Line.nonempty?, if_neg (by simp [ht.ne_nil])]

/-! ### Written lines mean what they were written for -/

namespace Line

theorem read_header (id : Text) (h : id.strip = id) :
    Line.read ("#Conversation".toList ++ ' ' :: id) = .header id := by
  have hkey : "#Conversation".toList.any isBlank = false := by decide
  rw [Line.read, if_neg (by simp), if_neg (by simp [List.isPrefixOf]),
    if_pos (Text.keyword_append hkey id), Text.argument_append hkey id, h]

theorem read_speaker (name : Text) (h : name.strip = name) :
    Line.read ("Character_".toList ++ name) = .speaker name := by
  have hkey : Text.keyword ("Character_".toList ++ name) ≠ "#Conversation".toList :=
    Text.keyword_cons_ne (by decide) _ _
  rw [Line.read, if_neg (by simp), if_neg (by simp [List.isPrefixOf]), if_neg hkey,
    if_pos (by simp), show "Character_".length = "Character_".toList.length from rfl,
    List.drop_left, h]

theorem read_quote (t : Text) : Line.read ('"' :: t) = Line.readContent ('"' :: t) := by
  have hkey : Text.keyword ('"' :: t) ≠ "#Conversation".toList :=
    Text.keyword_cons_ne (by decide) _ _
  rw [Line.read, if_neg (by simp), if_neg (by simp [List.isPrefixOf]), if_neg hkey,
    if_neg (by simp [List.isPrefixOf])]

theorem read_spoken (t : Text) : Line.read ('"' :: (t ++ ['"'])) = .spoken t := by
  have hlast : ('"' :: (t ++ ['"'])).getLast? = some '"' := by
    rw [← List.cons_append, List.getLast?_concat]
  have hquoted : Line.isQuotation ('"' :: (t ++ ['"'])) = true := by
    rw [Line.isQuotation, hlast]
    simp
  rw [read_quote, Line.readContent, if_pos hquoted, List.tail_cons, List.dropLast_concat]

theorem read_choice : Line.read "#Choice".toList = .choice := by decide

/-- A directive without an arrow is left to `readDirective`. -/
theorem read_directive {k m : Text} (hk : ('#' :: k).any isBlank = false)
    (harrow : Text.PairFree '-' '>' ('#' :: k)) (hm : m.PairFree '-' '>')
    (hconv : '#' :: k ≠ "#Conversation".toList) (hchoice : '#' :: k ≠ "#Choice".toList) :
    Line.read ('#' :: k ++ ' ' :: m) = Line.readDirective ('#' :: k) m.strip := by
  have hkey := Text.keyword_append hk m
  have hquoted : Line.isQuotation ('#' :: k ++ ' ' :: m) = false := by simp [Line.isQuotation]
  have hfree : Text.PairFree '-' '>' ('#' :: k ++ ' ' :: m) := by
    refine harrow.append (List.IsChain.cons hm fun d _ hd => absurd hd.1 (by decide)) ?_
    intro c _ d hd hcd
    obtain rfl : ' ' = d := by simpa using hd
    exact absurd hcd.2 (by decide)
  rw [Line.read, hkey, if_neg (by simp), if_neg (by simp [List.isPrefixOf]), if_neg hconv,
    if_neg (by simp [List.isPrefixOf]), Line.readContent, hkey, hquoted, if_neg Bool.false_ne_true,
    if_neg hchoice, Text.cutPair_of_pairFree hfree, Text.argument_append hk m]

/-- The names of the directives that add to a node. -/
def directives : List Text :=
  ["Set".toList, "SetFlag".toList, "If".toList, "Requires".toList, "RequiresNot".toList]

/-- A directive with a field behind its name. -/
theorem read_directive_of_mem {k m : Text} (hk : k ∈ directives) (hm : m.IsField)
    (hfree : m.PairFree '-' '>') :
    Line.read ('#' :: k ++ ' ' :: m) = Line.readDirective ('#' :: k) m := by
  have hname : ∀ k ∈ directives, ('#' :: k).any isBlank = false ∧ '-' ∉ '#' :: k ∧
      '#' :: k ≠ "#Conversation".toList ∧ '#' :: k ≠ "#Choice".toList := by decide
  obtain ⟨hblank, harrow, hconv, hchoice⟩ := hname k hk
  rw [read_directive hblank (Text.pairFree_of_not_mem harrow) hfree hconv hchoice, hm.stripped]

theorem read_changes {es : List Text} (hne : es ≠ [])
    (h : ∀ e ∈ es, e.IsField ∧ ';' ∉ e ∧ e.PairFree '-' '>') :
    Line.read ("#Set".toList ++ ' ' :: Text.join [';'] es) = .changes es := by
  have hfield := Text.isField_join hne fun e he => (h e he).1
  have hfree : (Text.join [';'] es).PairFree '-' '>' :=
    Text.pairFree_join (.singleton _) (by decide) (by decide) (by decide) fun e he => (h e he).2.2
  have hread := readChanges_join fun e he => ⟨(h e he).1, (h e he).2.1⟩
  refine (read_directive_of_mem (k := "Set".toList) (by decide) hfield hfree).trans ?_
  rw [Line.readDirective, if_pos (by decide), hread]
  rcases es with _ | ⟨e, es⟩
  · exact absurd rfl hne
  · rfl

theorem read_condition {c : Text} (hc : c.IsField) (hfree : c.PairFree '-' '>') :
    Line.read ("#If".toList ++ ' ' :: c) = .condition c := by
  refine (read_directive_of_mem (k := "If".toList) (by decide) hc hfree).trans ?_
  rw [Line.readDirective, if_neg (by decide), if_neg (by decide), if_pos (by decide),
    if_neg (by simp [hc.ne_nil])]

section Flags

variable {name : Text} (hname : name.IsField) (hfree : name.PairFree '-' '>')

include hname hfree

/-- A flag is set by a change. -/
theorem read_setFlag :
    Line.read ("#SetFlag".toList ++ ' ' :: name) = .changes [name ++ " = true".toList] := by
  refine (read_directive_of_mem (k := "SetFlag".toList) (by decide) hname hfree).trans ?_
  rw [Line.readDirective, if_neg (by decide), if_pos (by decide), if_neg (by simp [hname.ne_nil])]

/-- A flag is required by a condition. -/
theorem read_requires :
    Line.read ("#Requires".toList ++ ' ' :: name) = .condition (name ++ " == true".toList) := by
  refine (read_directive_of_mem (k := "Requires".toList) (by decide) hname hfree).trans ?_
  rw [Line.readDirective, if_neg (by decide), if_neg (by decide), if_neg (by decide),
    if_pos (by decide), if_neg (by simp [hname.ne_nil])]

/-- A flag is ruled out by a condition. -/
theorem read_requiresNot :
    Line.read ("#RequiresNot".toList ++ ' ' :: name) = .condition (name ++ " == false".toList) := by
  refine (read_directive_of_mem (k := "RequiresNot".toList) (by decide) hname hfree).trans ?_
  rw [Line.readDirective, if_neg (by decide), if_neg (by decide), if_neg (by decide),
    if_neg (by decide), if_pos (by decide), if_neg (by simp [hname.ne_nil])]

end Flags

end Line

namespace Choice

variable {c : Choice}

/-- What stands before the arrow of an option. -/
theorem line_eq (c : Choice) :
    c.line = '"' :: (c.text ++ ['"', ' ']) ++ '-' :: '>' :: ' ' :: c.segments := by
  simp [line]

/-- An option line ends in a bar, or as its condition does. -/
theorem exists_line_eq (c : Choice) :
    ∃ w, (c.line = ['"'] ++ w ++ ['|'] ∧ c.condition = none) ∨
      ∃ t, c.condition = some t ∧ c.line = ['"'] ++ w ++ t := by
  rw [line, segments]
  rcases c.condition with _ | t
  · exact ⟨c.text ++ "\" -> ".toList ++ c.target.getD [] ++ '|' :: Text.join [';'] c.changes,
      .inl ⟨by simp, rfl⟩⟩
  · exact ⟨c.text ++ "\" -> ".toList ++ c.target.getD [] ++ '|' ::
      (Text.join [';'] c.changes ++ ['|']), .inr ⟨t, rfl, by simp⟩⟩

theorem Writable.isQuotation_line (h : c.Writable) : Line.isQuotation c.line = false := by
  have hlast : c.line.getLast? ≠ some '"' := by
    obtain ⟨w, ⟨hline, -⟩ | ⟨t, hc, hline⟩⟩ := exists_line_eq c
    · rw [hline, List.getLast?_append_of_ne_nil _ (by simp)]
      decide
    · rw [hline, List.getLast?_append_of_ne_nil _ (h.condition t hc).1.ne_nil]
      exact (h.condition t hc).2
  rw [Line.isQuotation, beq_eq_false_iff_ne.mpr hlast, Bool.and_false]

theorem Writable.isField_line (h : c.Writable) : c.line.IsField where
  ne_nil := List.cons_ne_nil _ _
  stripped := by
    obtain ⟨w, ⟨hline, -⟩ | ⟨t, hc, hline⟩⟩ := exists_line_eq c
    · rw [hline, Text.strip_append_append (by decide) (by decide) (by decide) (by decide)]
    · have ht := (h.condition t hc).1
      rw [hline, Text.strip_append_append (by decide) (by decide) ht.stripped ht.ne_nil]
  one_line := by
    have htarget : '\n' ∉ c.target.getD [] := by
      rcases ht : c.target with _ | t
      · exact List.not_mem_nil
      · exact (h.target t ht).1.one_line
    have hcondition : '\n' ∉ c.condition.getD [] := by
      rcases hc : c.condition with _ | t
      · exact List.not_mem_nil
      · exact (h.condition t hc).1.one_line
    have hchanges := Text.not_mem_join (c := '\n') (by decide) fun e he =>
      (h.changes e he).1.one_line
    simp [line, segments, h.text_one_line, htarget, hcondition, hchanges]

/-- The clause on conditions cannot be spared: an option that ends in a quotation mark is read as a
quotation. -/
theorem read_line_of_quoted_condition {t : Text} (hc : c.condition = some t)
    (ht : t.getLast? = some '"') : ∃ u, Line.read c.line = .spoken u := by
  obtain ⟨w, ⟨-, hnone⟩ | ⟨u, hu, hline⟩⟩ := exists_line_eq c
  · rw [hnone] at hc
    exact absurd hc nofun
  · obtain rfl : t = u := Option.some.inj (hc.symm.trans hu)
    obtain ⟨v, rfl⟩ := List.getLast?_eq_some_iff.mp ht
    rw [hline, show ['"'] ++ w ++ (v ++ ['"']) = '"' :: (w ++ v ++ ['"']) by simp]
    exact ⟨w ++ v, Line.read_spoken (w ++ v)⟩

/-- The quotation marks around the text of an option are what is trimmed away. -/
theorem Writable.trim_quoted (h : c.Writable) :
    Text.trim (· == '"') (Text.strip ('"' :: (c.text ++ ['"', ' ']))) = c.text := by
  have hbody : Text.trim (· == '"') c.text = c.text := by
    refine Text.trim_eq_self_iff.mpr ⟨fun d hd => ?_, fun d hd => ?_⟩
    · exact beq_eq_false_iff_ne.mpr fun he => h.text_head (he ▸ hd)
    · exact beq_eq_false_iff_ne.mpr fun he => h.text_last (he ▸ hd)
  have hsplit : '"' :: (c.text ++ ['"', ' ']) = ['"'] ++ c.text ++ ['"'] ++ [' '] := by simp
  rw [hsplit, Text.strip_concat (by decide),
    Text.strip_append_append (by decide) (by decide) (by decide) (by decide),
    Text.trim_concat (by decide), List.singleton_append, Text.trim_cons (by decide), hbody]

theorem Writable.readOption_line (h : c.Writable) :
    Line.readOption ('"' :: (c.text ++ ['"', ' '])) (' ' :: c.segments) = c := by
  have htarget : '|' ∉ ' ' :: c.target.getD [] := by
    rcases ht : c.target with _ | t
    · decide
    · simpa using (h.target t ht).2
  have hchanges := Text.not_mem_join (c := '|') (by decide) fun e he => (h.changes e he).2.2
  have hread := Line.readChanges_join fun e he => ⟨(h.changes e he).1, (h.changes e he).2.1⟩
  rw [Line.readOption, h.trim_quoted, segments, ← List.cons_append, Text.cut_append htarget]
  simp only [Option.getD_some]
  rw [Text.cut_append hchanges]
  simp only [Option.getD_some]
  rw [Text.strip_cons (by decide), Line.nonempty?_getD fun t ht => (h.target t ht).1, hread,
    Line.nonempty?_getD fun t ht => (h.condition t ht).1]

/-- **An option line reads back as its choice.** -/
theorem Writable.read_line (h : c.Writable) : Line.read c.line = .option c := by
  have hkey : Text.keyword c.line ≠ "#Choice".toList := Text.keyword_cons_ne (by decide) _ _
  have hfree : Text.PairFree '-' '>' ('"' :: (c.text ++ ['"', ' ']) ++ ['-']) := by
    have hsplit : '"' :: (c.text ++ ['"', ' ']) ++ ['-'] = ['"'] ++ c.text ++ ['"', ' ', '-'] := by
      simp
    rw [hsplit]
    refine Text.PairFree.append (.append (.singleton _) h.text_no_arrow ?_) (by decide) ?_
    · intro d hd _ _ hde
      obtain rfl : '"' = d := by simpa using hd
      exact absurd hde.1 (by decide)
    · intro _ _ e he hde
      obtain rfl : '"' = e := by simpa using he
      exact absurd hde.2 (by decide)
  rw [line, Line.read_quote, ← line, Line.readContent, h.isQuotation_line,
    if_neg Bool.false_ne_true, if_neg hkey, line_eq, Text.cutPair_append_pair hfree]
  simp only [h.readOption_line]

end Choice

end Parley
