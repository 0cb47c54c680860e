import Parley.Proofs.Script.Writer
import Parley.Proofs.Table
import Parley.Script.Reading

/-!
# Reading undoes writing

Reading a script is one pass with a state. `Reading.Inside` is that state in the middle of a written
script: the conversations written before, the one being read, the nodes it has so far, and no
complaint. Each written line moves it on by what the line was written for, so the induction follows
the writer: choices inside a node, nodes inside a conversation, conversations inside a story.

## Main definitions

* `Reading.Inside`

## Main results

* `Reading.Inside.node` — the lines of a node add that node
* `Reading.conversation` — the lines of a conversation add that conversation
* `Reading.ofText_script` — the script of a story reads back as the story, without a complaint
-/

namespace Parley

/-! ### Written lines survive being cut and stripped -/

theorem Text.isField_directive {k m : Text} (hk : k.IsField) (hm : m.IsField) :
    (k ++ ' ' :: m).IsField where
  ne_nil := by simp [hk.ne_nil]
  stripped := by
    rw [← List.singleton_append, ← List.append_assoc]
    exact Text.strip_append_append hk.stripped hk.ne_nil hm.stripped hm.ne_nil [' ']
  one_line := by simp [hk.one_line, hm.one_line]

theorem Node.Writable.isField_of_mem_contentLines {n : Node} (h : n.Writable) {l : Text}
    (hl : l ∈ n.contentLines) : l.IsField := by
  have hoptions := h.options
  rw [Node.contentLines] at hl
  rw [Node.options] at hoptions
  rcases hn : n.choices with _ | cs
  · rw [hn, List.mem_pair] at hl
    rcases hl with rfl | rfl
    · have hline := h.speaker_one_line
      refine ⟨by simp, ?_, by simp [hline]⟩
      rcases eq_or_ne n.speaker [] with hs | hs
      · rw [hs]
        decide
      · exact Text.strip_append_append (u := "Character".toList) (by decide) (by decide)
          h.speaker_stripped hs ['_']
    · have hline := h.text_one_line
      refine ⟨by simp, ?_, by simp [hline]⟩
      exact Text.strip_append_append (u := ['"']) (v := ['"']) (by decide) (by decide) (by decide)
        (by decide) n.text
  · rw [hn] at hl hoptions
    rcases List.mem_cons.mp hl with rfl | hl
    · exact ⟨by decide, by decide, by decide⟩
    · obtain ⟨c, hc, rfl⟩ := List.mem_map.mp hl
      exact (hoptions c hc).isField_line

theorem Node.Writable.isField_of_mem_directiveLines {n : Node} (h : n.Writable) {l : Text}
    (hl : l ∈ n.directiveLines) : l.IsField := by
  rw [Node.directiveLines, List.mem_append] at hl
  rcases hl with hl | hl
  · rcases hes : n.changes.isEmpty
    · rw [hes, if_neg Bool.false_ne_true] at hl
      obtain rfl := List.mem_singleton.mp hl
      exact Text.isField_directive ⟨by decide, by decide, by decide⟩
        (Text.isField_join (by simpa using hes) fun e he => (h.changes e he).1)
    · rw [hes, if_pos rfl] at hl
      exact absurd hl List.not_mem_nil
  · obtain ⟨c, hc, rfl⟩ := List.mem_map.mp hl
    exact Text.isField_directive ⟨by decide, by decide, by decide⟩
      (h.condition c (Option.mem_toList.mp hc)).1

theorem Story.Writable.isField_of_mem_lines {s : Story} (h : s.Writable) {l : Text}
    (hl : l ∈ s.lines) : l.IsField := by
  obtain ⟨e, he, hl⟩ := List.mem_flatMap.mp hl
  obtain ⟨hid, hnodes⟩ := h e he
  rcases List.mem_cons.mp hl with rfl | hl
  · exact Text.isField_directive ⟨by decide, by decide, by decide⟩ hid
  · obtain ⟨n, hn, hl⟩ := List.mem_flatMap.mp hl
    rcases List.mem_append.mp hl with hl | hl
    · exact (hnodes n hn).isField_of_mem_contentLines hl
    · exact (hnodes n hn).isField_of_mem_directiveLines hl

/-- Cutting the script into stripped lines gives the lines it was written from, or one empty line
when there were none. -/
theorem Story.Writable.linesOf_script {s : Story} (h : s.Writable) :
    Reading.linesOf s.script = s.lines ∨
      s.lines = [] ∧ Reading.linesOf s.script = [[]] := by
  rw [Reading.linesOf, Story.script]
  rcases eq_or_ne s.lines [] with hnil | hne
  · exact .inr ⟨hnil, by rw [hnil]; rfl⟩
  · refine .inl ?_
    rw [Text.splitOn_join hne fun l hl => (h.isField_of_mem_lines hl).one_line]
    conv_rhs => rw [← List.map_id s.lines]
    exact List.map_congr_left fun l hl => (h.isField_of_mem_lines hl).stripped

/-! ### Reading inside a conversation -/

theorem modifyLast?_concat {α : Type} {p : α → Bool} {f : α → α} {a : α} (h : p a = true)
    (as : List α) : modifyLast? p f (as ++ [a]) = some (as ++ [f a]) := by
  induction as with
  | nil => rw [List.nil_append, modifyLast?, modifyLast?, h, if_pos rfl, List.nil_append]
  | cons b as ih => rw [List.cons_append, modifyLast?, ih, List.cons_append]

namespace Reading

variable {r : Reading} {done : List (Text × List Node)} {id : Text} {ns : List Node} {n : Node}

theorem steps_append (r : Reading) (k : Nat) (ls ms : List Text) :
    r.steps k (ls ++ ms) = (r.steps k ls).steps (k + ls.length) ms := by
  induction ls generalizing r k with
  | nil => rfl
  | cons l ls ih =>
    rw [List.cons_append, steps, ih, steps, List.length_cons, show k + 1 + ls.length
      = k + (ls.length + 1) by omega]

/-- The conversations `done` have been read, and the conversation `id` up to the nodes `ns`, without
a complaint. -/
structure Inside (done : List (Text × List Node)) (id : Text) (ns : List Node) (r : Reading) :
    Prop where
  entries : r.story.entries = done ++ [(id, ns)]
  current : r.current = some id
  diagnostics : r.diagnostics = []

theorem Inside.getD (h : Inside done id ns r) : r.story.getD id [] = ns := by
  rw [Table.getD, Table.get?_of_entries_eq_concat h.entries, Option.getD_some]

theorem Inside.put (h : Inside done id ns r) (ns' : List Node) :
    Inside done id ns' { r with story := r.story.put id ns' } :=
  ⟨Table.entries_put_of_entries_eq_concat h.entries, h.current, h.diagnostics⟩

/-- A line of content is read in the open conversation. -/
theorem Inside.step_eq (h : Inside done id ns r) {l : Text} {content : Line}
    (hl : Line.read l = content) (hskipped : content ≠ .skipped)
    (hheader : ∀ id, content ≠ .header id) (hspeaker : ∀ name, content ≠ .speaker name) (k : Nat) :
    r.step k l = r.addContent k l id content := by
  rw [step, hl]
  cases content with
  | skipped => exact absurd rfl hskipped
  | header id => exact absurd rfl (hheader id)
  | speaker name => exact absurd rfl (hspeaker name)
  | _ => simp only [h.current]

theorem Inside.addNode (h : Inside done id ns r) (n : Node) :
    Inside done id (ns ++ [n]) (r.addNode id n) := by
  rw [Reading.addNode, h.getD]
  exact h.put _

theorem Inside.changeLast (h : Inside done id (ns ++ [n]) r) {p : Node → Bool} (hp : p n = true)
    (f : Node → Node) (k : Nat) (l : Text) (c : Complaint) :
    Inside done id (ns ++ [f n]) (r.changeLast k l id p f c) := by
  rw [Reading.changeLast, h.getD, modifyLast?_concat hp]
  exact h.put _

/-! ### Reading what was written -/

theorem Inside.options (h : Inside done id (ns ++ [n]) r) {ds cs : List Choice}
    (hn : n.choices = some ds) (hcs : ∀ c ∈ cs, c.Writable) (k : Nat) :
    Inside done id (ns ++ [{ n with choices := some (ds ++ cs) }])
      (r.steps k (cs.map Choice.line)) := by
  induction cs generalizing r k n ds with
  | nil =>
    rw [List.append_nil, ← hn]
    exact h
  | cons c cs ih =>
    have htakes : n.takesChoices = true := by rw [Node.takesChoices, hn, Option.isSome_some]
    have hstep := h.step_eq (hcs c List.mem_cons_self).read_line nofun nofun nofun k
    have hlast := h.changeLast htakes (fun n => { n with choices := n.choices.map (· ++ [c]) }) k
      c.line .optionWithoutChoice
    rw [List.map_cons, steps, hstep, show ds ++ c :: cs = ds ++ [c] ++ cs by simp]
    exact ih hlast (by simp [hn]) (fun d hd => hcs d (List.mem_cons_of_mem _ hd)) (k + 1)

theorem Inside.content (h : Inside done id ns r) (hn : n.Writable) (k : Nat) :
    Inside done id (ns ++ [⟨n.speaker, n.text, n.choices, none, [], false⟩])
      (r.steps k n.contentLines) := by
  have hoptions := hn.options
  rw [Node.contentLines]
  rw [Node.options] at hoptions
  rcases hc : n.choices with _ | cs
  · have hspeaker : r.step k ("Character_".toList ++ n.speaker)
        = { r with speaker := n.speaker } := by
      rw [step, Line.read_speaker n.speaker hn.speaker_stripped]
    have hr : Inside done id ns { r with speaker := n.speaker } :=
      ⟨h.entries, h.current, h.diagnostics⟩
    simp only [steps, hspeaker, hr.step_eq (Line.read_spoken n.text) nofun nofun nofun]
    exact hr.addNode (.line n.speaker n.text)
  · obtain ⟨hs, ht⟩ := hn.silent (by rw [Node.takesChoices, hc, Option.isSome_some])
    rw [hc] at hoptions
    have hadd := h.addNode .choice
    rw [steps, h.step_eq Line.read_choice nofun nofun nofun, hs, ht]
    exact hadd.options rfl hoptions (k + 1)

theorem Inside.changes (h : Inside done id (ns ++ [n]) r) (hn : n.changes = []) {es : List Text}
    (hes : ∀ e ∈ es, e.IsField ∧ ';' ∉ e ∧ e.PairFree '-' '>') (k : Nat) :
    Inside done id (ns ++ [{ n with changes := es }])
      (r.steps k (if es.isEmpty then [] else ["#Set".toList ++ ' ' :: Text.join [';'] es])) := by
  rcases eq_or_ne es [] with rfl | hne
  · obtain ⟨speaker, text, choices, condition, changes, executed⟩ := n
    obtain rfl : changes = [] := hn
    exact h
  · rw [if_neg (by simp [hne]), steps, steps,
      h.step_eq (Line.read_changes hne hes) nofun nofun nofun]
    have hlast := h.changeLast (p := fun _ => true) rfl
      (fun n => { n with changes := n.changes ++ es }) k
      ("#Set".toList ++ ' ' :: Text.join [';'] es) .nothingToAttachTo
    rwa [hn, List.nil_append] at hlast

theorem Inside.condition (h : Inside done id (ns ++ [n]) r) (hn : n.condition = none)
    {o : Option Text} (ho : ∀ c ∈ o, c.IsField ∧ c.PairFree '-' '>') (k : Nat) :
    Inside done id (ns ++ [{ n with condition := o }])
      (r.steps k (o.toList.map fun c => "#If".toList ++ ' ' :: c)) := by
  rcases o with _ | c
  · obtain ⟨speaker, text, choices, condition, changes, executed⟩ := n
    obtain rfl : condition = none := hn
    exact h
  · have hread := Line.read_condition (ho c rfl).1 (ho c rfl).2
    rw [Option.toList_some, List.map_singleton, steps, steps, h.step_eq hread nofun nofun nofun]
    have hlast := h.changeLast (p := fun _ => true) rfl
      (fun n => { n with condition := Condition.conjoin n.condition (some c) }) k
      ("#If".toList ++ ' ' :: c) .nothingToAttachTo
    rwa [hn] at hlast

/-- The lines of a node add that node. -/
theorem Inside.node (h : Inside done id ns r) (hn : n.Writable) (k : Nat) :
    Inside done id (ns ++ [n]) (r.steps k n.lines) := by
  have hfresh : (⟨n.speaker, n.text, n.choices, n.condition, n.changes, false⟩ : Node) = n := by
    rw [← hn.fresh]
  rw [Node.lines, Node.directiveLines, steps_append, steps_append, ← hfresh]
  exact ((h.content hn k).changes rfl hn.changes _).condition rfl hn.condition _

theorem Inside.nodes (h : Inside done id ns r) {ms : List Node} (hms : ∀ n ∈ ms, n.Writable)
    (k : Nat) : Inside done id (ns ++ ms) (r.steps k (ms.flatMap Node.lines)) := by
  induction ms generalizing r k ns with
  | nil =>
    rw [List.append_nil]
    exact h
  | cons n ms ih =>
    have hnode := h.node (hms n List.mem_cons_self) k
    rw [List.flatMap_cons, steps_append, ← List.singleton_append, ← List.append_assoc]
    exact ih hnode (fun m hm => hms m (List.mem_cons_of_mem _ hm)) _

/-- The lines of a conversation whose id is new add that conversation. -/
theorem conversation (hentries : r.story.entries = done) (hclean : r.diagnostics = [])
    (hnew : id ∉ done.map Prod.fst) (hid : id.IsField) (hns : ∀ n ∈ ns, n.Writable) (k : Nat) :
    Inside done id ns (r.steps k (Story.conversationLines (id, ns))) := by
  have hcontains : r.story.contains id = false := by
    rw [Table.contains, Table.get?, hentries, lookup_eq_none_iff_not_mem_keys.mpr hnew,
      Option.isSome_none]
  have hopen : Inside done id [] (r.step k ("#Conversation".toList ++ ' ' :: id)) := by
    rw [step, Line.read_header id hid.stripped]
    simp only [openConversation, List.isEmpty_iff, hid.ne_nil, if_false, hcontains,
      Bool.false_eq_true]
    refine ⟨?_, rfl, hclean⟩
    rw [Table.entries_put_of_not_mem_keys (hentries ▸ hnew), hentries]
  rw [Story.conversationLines, steps, ← List.nil_append ns]
  exact hopen.nodes hns (k + 1)

theorem conversations {es : List (Text × List Node)} (hentries : r.story.entries = done)
    (hclean : r.diagnostics = []) (hnodup : ((done ++ es).map Prod.fst).Nodup)
    (hes : ∀ e ∈ es, e.1.IsField ∧ ∀ n ∈ e.2, n.Writable) (k : Nat) :
    (r.steps k (es.flatMap Story.conversationLines)).story.entries = done ++ es ∧
      (r.steps k (es.flatMap Story.conversationLines)).diagnostics = [] := by
  induction es generalizing r k done with
  | nil => exact ⟨by rw [List.append_nil]; exact hentries, hclean⟩
  | cons e es ih =>
    obtain ⟨hid, hns⟩ := hes e List.mem_cons_self
    have hnew : e.1 ∉ done.map Prod.fst := by
      rw [List.map_append, List.map_cons, List.nodup_append] at hnodup
      exact fun hm => hnodup.2.2 e.1 hm e.1 List.mem_cons_self rfl
    have hinside := conversation hentries hclean hnew hid hns k
    rw [List.flatMap_cons, steps_append, ← List.singleton_append, ← List.append_assoc]
    refine ih hinside.entries hinside.diagnostics ?_
      (fun f hf => hes f (List.mem_cons_of_mem _ hf)) _
    rwa [List.append_assoc, List.singleton_append]

/-- **Reading undoes writing.** The script of a story reads back as that story, conversations and
nodes in order, and nothing in it is complained about. -/
theorem ofText_script {s : Story} (h : s.Writable) :
    (ofText s.script).story = s ∧ (ofText s.script).diagnostics = [] := by
  have hread : ofText s.script = start.steps 1 s.lines := by
    rcases h.linesOf_script with hlines | ⟨hnil, hlines⟩
    · rw [ofText, hlines]
    · -- the script of the empty story has one line, which is empty and skipped
      rw [ofText, hlines, hnil]
      rfl
  have hempty : start.story.entries = [] := rfl
  have hall := conversations hempty rfl s.nodup_keys h 1
  rw [hread]
  exact ⟨Table.eq_of_entries_eq hall.1, hall.2⟩

/-- Two conversations that use every form of line; the first option keeps its bars. -/
def tavern : Story :=
  .ofList [
    ("start".toList,
      [⟨"Ann".toList, "Well -> \"hello\" there.".toList, none, some "met == false".toList,
          ["met = true".toList, "visits += 1".toList], false⟩,
        ⟨[], [], some [
            ⟨" Buy - ale ".toList, some "ale".toList, ["gold -= 5".toList],
              some "gold >= 5 || friend == true".toList⟩,
            ⟨"Leave".toList, none, [], none⟩], none, [], false⟩]),
    ("ale".toList, [])]

theorem ofText_script_tavern :
    tavern.Writable ∧ (ofText tavern.script).story = tavern ∧
      (ofText tavern.script).diagnostics = [] := by
  have h : tavern.Writable := by decide
  exact ⟨h, ofText_script h⟩

end Reading

end Parley
