import Parley.Proofs.Script.Outline

/-!
# Reading a script gives what its outline describes

The pass of `Reading` and the outline of the lines that were read are kept side by side: after every
line the story, the open conversation and the speaker of the reading are those of the outline so
far. No hypothesis is needed on the text. Lines that are skipped or complained about stand in the
outline, too, where they mean nothing.

## Main definitions

* `Reading.outline` — the meanings of the lines of a text
* `Reading.Follows` — a reading agrees with an outline

## Main results

* `Reading.Follows.step` — one line of the pass
* `Reading.entries_ofText` — the story that is read from a text
-/

namespace Parley

namespace Reading

/-- The meanings of the lines of a script, in order. -/
def outline (t : Text) : List Line := (linesOf t).map Line.read

/-- A reading has read lines with some meanings. -/
structure Follows (ls : List Line) (r : Reading) : Prop where
  entries : r.story.entries = Outline.conversations ls
  current : r.current = Outline.openAfter ls
  speaker : r.speaker = Outline.speakerAfter ls

variable {ls : List Line} {l : Line} {r r' : Reading} {id : Text}

theorem Follows.mem_ids (h : Follows ls r) (hcurrent : r.current = some id) :
    id ∈ Outline.ids ls :=
  Outline.mem_ids_of_openAfter (h.current.symm.trans hcurrent)

theorem Follows.getD (h : Follows ls r) (hcurrent : r.current = some id) :
    r.story.getD id [] = Outline.nodesOf id ls := by
  have hmem := Outline.mem_conversations (h.mem_ids hcurrent)
  rw [← h.entries] at hmem
  rw [Table.getD, Table.get?_eq_some_iff.mpr hmem, Option.getD_some]

/-- A line that is no header and names nobody leaves the open conversation and the speaker. -/
theorem Follows.of_content (h : Follows ls r) (hheader : l.header? = none)
    (hspeaker : l.speaker? = none) (hentries : r'.story.entries = Outline.conversations (ls ++ [l]))
    (hcurrent' : r'.current = r.current) (hspeaker' : r'.speaker = r.speaker) :
    Follows (ls ++ [l]) r' where
  entries := hentries
  current := by rw [hcurrent', Outline.openAfter_concat, hheader, h.current]
  speaker := by rw [hspeaker', Outline.speakerAfter_concat, hspeaker, h.speaker, Option.getD_none]

/-- The last node that a line can be attached to is changed by it, or the line is complained
about. -/
theorem Follows.changeLast (h : Follows ls r) (hcurrent : r.current = some id)
    (hl : l.isHeader = false) (hspeaker : l.speaker? = none)
    (hadds : Outline.node? ls l [] = none) (k : Nat) (line : Text) (c : Complaint) :
    Follows (ls ++ [l]) (r.changeLast k line id l.admits l.amend c) := by
  have hopen := h.current.symm.trans hcurrent
  have hentries := Outline.conversations_concat_of_openAfter hopen hl
  rw [hadds, Option.toList_none, List.append_nil, Outline.changeLast] at hentries
  have hheader := Line.header?_of_not_isHeader hl
  rw [Reading.changeLast, h.getD hcurrent]
  rcases hlast : modifyLast? l.admits l.amend (Outline.nodesOf id ls) with _ | ns
  · rw [hlast, Option.getD_none, Outline.bindEntry_nodesOf (h.mem_ids hcurrent), ← h.entries]
      at hentries
    exact h.of_content hheader hspeaker hentries.symm rfl rfl
  · rw [hlast, Option.getD_some, ← h.entries] at hentries
    exact h.of_content hheader hspeaker hentries.symm rfl rfl

theorem Follows.addNode (h : Follows ls r) (hcurrent : r.current = some id) {n : Node}
    (hl : l.isHeader = false) (hspeaker : l.speaker? = none) (hadmits : l.admits = fun _ => false)
    (hadds : Outline.node? ls l [] = some n) : Follows (ls ++ [l]) (r.addNode id n) := by
  have hentries := Outline.conversations_concat_of_openAfter (h.current.symm.trans hcurrent) hl
  rw [hadds, hadmits, Outline.changeLast_of_never, Option.toList_some, ← h.entries] at hentries
  have hheader := Line.header?_of_not_isHeader hl
  rw [Reading.addNode, h.getD hcurrent]
  exact h.of_content hheader hspeaker hentries.symm rfl rfl

theorem Follows.addContent (h : Follows ls r) (hcurrent : r.current = some id)
    (hl : l.isHeader = false) (hspeaker : l.speaker? = none) (k : Nat) (line : Text) :
    Follows (ls ++ [l]) (r.addContent k line id l) := by
  cases l with
  | spoken text =>
    refine h.addNode hcurrent rfl rfl rfl ?_
    rw [h.speaker]
    rfl
  | choice => exact h.addNode hcurrent rfl rfl rfl rfl
  | option c => exact h.changeLast hcurrent hl hspeaker rfl k line _
  | changes es => exact h.changeLast hcurrent hl hspeaker rfl k line _
  | condition c => exact h.changeLast hcurrent hl hspeaker rfl k line _
  | faulty c =>
    exact h.of_content rfl rfl
      (h.entries.trans (Outline.conversations_concat_of_idle rfl rfl rfl).symm) rfl rfl
  | skipped =>
    exact h.of_content rfl rfl
      (h.entries.trans (Outline.conversations_concat_of_idle rfl rfl rfl).symm) rfl rfl
  | header id => cases hl
  | speaker name => cases hspeaker

theorem Follows.openConversation (h : Follows ls r) (k : Nat) (line id : Text) :
    Follows (ls ++ [.header id]) (r.openConversation k line id) := by
  have hspeaker := Outline.speakerAfter_concat ls (.header id)
  have hcurrent := Outline.openAfter_concat ls (.header id)
  rw [Reading.openConversation]
  rcases eq_or_ne id [] with rfl | hid
  · refine ⟨?_, hcurrent.symm, h.speaker.trans hspeaker.symm⟩
    rw [Outline.conversations_concat_of_id? rfl (by simp [Line.isHeader])]
    exact h.entries
  · have hempty : id.isEmpty = false := by simpa using hid
    rw [if_neg (by simp [hempty])]
    refine ⟨?_, ?_, ?_⟩
    · rw [Outline.conversations_concat_header hid, ← h.entries]
      split <;> rfl
    · rw [hcurrent]
      simp [Line.header?, Line.nonempty?, hempty]
    · rw [hspeaker]
      split <;> exact h.speaker

/-- A line of content is read in the open conversation, if there is one. -/
theorem step_of_content {k : Nat} {line : Text} (hread : Line.read line = l)
    (hl : l.isHeader = false) (hspeaker : l.speaker? = none) (hskipped : l ≠ .skipped) :
    r.step k line =
      r.current.elim (r.complain k line .outside) fun id => r.addContent k line id l := by
  rw [Reading.step, hread]
  cases l with
  | skipped => exact absurd rfl hskipped
  | header id => cases hl
  | speaker name => cases hspeaker
  | spoken | choice | option | changes | condition | faulty => cases r.current <;> rfl

theorem Follows.content (h : Follows ls r) (hl : l.isHeader = false) (hspeaker : l.speaker? = none)
    (k : Nat) (line : Text) :
    Follows (ls ++ [l])
      (r.current.elim (r.complain k line .outside) fun id => r.addContent k line id l) := by
  rcases hcurrent : r.current with _ | id
  · have hidle := Outline.conversations_concat_of_id? (l := l)
      (by cases l <;> first | rfl | cases hl) fun _ => h.current.symm.trans hcurrent
    have hheader := Line.header?_of_not_isHeader hl
    exact h.of_content hheader hspeaker (h.entries.trans hidle.symm) rfl rfl
  · exact h.addContent hcurrent hl hspeaker k line

/-- **One line of the pass**: the reading follows the outline. -/
theorem Follows.step (h : Follows ls r) (k : Nat) (line : Text) :
    Follows (ls ++ [Line.read line]) (r.step k line) := by
  cases hread : Line.read line with
  | skipped =>
    rw [Reading.step, hread]
    exact h.of_content rfl rfl
      (h.entries.trans (Outline.conversations_concat_of_idle rfl rfl rfl).symm) rfl rfl
  | header id =>
    rw [Reading.step, hread]
    exact h.openConversation k line id
  | speaker name =>
    rw [Reading.step, hread]
    refine ⟨h.entries.trans (Outline.conversations_concat_of_idle rfl rfl rfl).symm, ?_, ?_⟩
    · rw [Outline.openAfter_concat]
      exact h.current
    · rw [Outline.speakerAfter_concat]
      rfl
  | spoken | choice | option | changes | condition | faulty =>
    rw [step_of_content hread rfl rfl (by simp)]
    exact h.content rfl rfl k line

theorem Follows.steps (h : Follows ls r) (k : Nat) (lines : List Text) :
    Follows (ls ++ lines.map Line.read) (r.steps k lines) := by
  induction lines generalizing ls r k with
  | nil =>
    rw [List.map_nil, List.append_nil]
    exact h
  | cons line lines ih =>
    rw [List.map_cons, ← List.singleton_append, ← List.append_assoc, Reading.steps]
    exact ih (h.step k line) (k + 1)

theorem follows_start : Follows [] start := ⟨rfl, rfl, rfl⟩

/-- Flags are set by changes, and required by conditions, which are joined. -/
example :
    (ofText (Text.join ['\n']
      ["#Conversation inn".toList, "Character_Ann".toList, "\"Welcome.\"".toList,
        "#SetFlag met".toList, "#Requires open".toList, "#RequiresNot late".toList,
        "#Choice".toList, "\"Stay\" -> room".toList])).story.entries =
      [("inn".toList,
        [⟨"Ann".toList, "Welcome.".toList, none, some "open == true && late == false".toList,
            ["met = true".toList], false⟩,
          ⟨[], [], some [⟨"Stay".toList, some "room".toList, [], none⟩], none, [], false⟩])] := by
  decide +kernel

end Reading

end Parley
