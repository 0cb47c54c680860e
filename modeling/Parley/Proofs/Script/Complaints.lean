import Parley.Proofs.Script.Following
import Parley.Proofs.Text.Cut

/-!
# What is wrong with a script

A line that cannot be used is reported, and reading goes on. What is reported of a line depends on
the story so far and on the conversation that is open, not on earlier reports; and apart from
headers, a line that is reported has done nothing else. So the reports can be told line by line, and
without the lines that say nothing a script reads the same.

Headers are the exception. One that gives an id for the second time, or none, is reported and does
its work all the same, so those must stay.

## Main definitions

* `Reading.complaint?` — what is wrong with a line, after what has been read
* `Reading.Abreast` — readings that differ in their reports only
* `Reading.reduced` — a script without the lines that say nothing

## Main results

* `Reading.diagnostics_step` — what one line adds to the reports
* `Reading.Abreast.steps_kept` — lines that say nothing may be left out
* `Reading.ofText_reduced`
-/

namespace Parley

/-! ### Kinds of lines -/

namespace Line

/-- Whether a stripped line is blank or a comment. -/
def isIdle (t : Text) : Bool := t.isEmpty || "--".toList.isPrefixOf t

/-- Whether a stripped line begins a conversation, or would if it had an id. -/
def startsConversation (t : Text) : Bool := !isIdle t && t.keyword = "#Conversation".toList

/-- What is wrong with a line of a conversation that no node admits. -/
def unattached? : Line → Option Complaint
  | option _ => some .optionWithoutChoice
  | changes _ | condition _ => some .nothingToAttachTo
  | faulty c => some c
  | _ => none

/-- Content is neither skipped nor a header. -/
theorem readContent_ne (t : Text) :
    readContent t ≠ .skipped ∧ (readContent t).isHeader = false := by
  have hdirective (keyword argument : Text) : readDirective keyword argument ≠ .skipped ∧
      (readDirective keyword argument).isHeader = false := by
    rw [readDirective]
    rcases readChanges argument with _ | ⟨e, es⟩ <;> split_ifs <;> exact ⟨nofun, rfl⟩
  fun_cases readContent t with
  | case1 | case2 | case3 => exact ⟨nofun, rfl⟩
  | case4 => exact hdirective _ _

theorem read_of_isIdle {t : Text} (h : isIdle t = true) : read t = .skipped := by
  rw [isIdle, Bool.or_eq_true] at h
  rw [read]
  rcases h with h | h
  · rw [if_pos h]
  · rw [if_pos h, ite_self]

theorem read_of_not_isIdle {t : Text} (h : isIdle t = false) :
    read t =
      if t.keyword = "#Conversation".toList then .header t.argument
      else if "Character_".toList.isPrefixOf t then
        .speaker (Text.strip (t.drop "Character_".length))
      else readContent t := by
  rw [isIdle, Bool.or_eq_false_iff] at h
  rw [read, if_neg (Bool.eq_false_iff.mp h.1), if_neg (Bool.eq_false_iff.mp h.2)]

/-- What is skipped are the blank lines and the comments. -/
theorem isIdle_iff {t : Text} : isIdle t = true ↔ read t = .skipped := by
  refine ⟨read_of_isIdle, fun h => ?_⟩
  by_contra hidle
  rw [read_of_not_isIdle (Bool.eq_false_iff.mpr hidle)] at h
  split at h
  · cases h
  · split at h
    · cases h
    · exact (readContent_ne t).1 h

theorem isHeader_read (t : Text) : (read t).isHeader = startsConversation t := by
  rw [startsConversation]
  cases hidle : isIdle t
  · rw [read_of_not_isIdle hidle, Bool.not_false, Bool.true_and]
    split
    · next hkeyword => exact (decide_eq_true hkeyword).symm
    · next hkeyword =>
      rw [decide_eq_false hkeyword]
      split
      · rfl
      · exact (readContent_ne t).2
  · rw [read_of_isIdle hidle]
    rfl

end Line

namespace Reading

variable {r r' : Reading} {l : Line} {line : Text} {lines : List Text} {n n' : Nat}

/-! ### One line -/

/-- What is wrong with a line, after what has been read. -/
def complaint? (r : Reading) : Line → Option Complaint
  | .skipped | .speaker _ => none
  | .header id =>
    if id.isEmpty then some .headerWithoutId
    else if r.story.contains id then some (.redefined id) else none
  | content =>
    match r.current with
    | none => some .outside
    | some id => if (r.story.getD id []).any content.admits then none else content.unattached?

theorem complaint?_of_content (hl : l.isHeader = false) (hspeaker : l.speaker? = none)
    (hskipped : l ≠ .skipped) :
    r.complaint? l = r.current.elim (some .outside) fun id =>
      if (r.story.getD id []).any l.admits then none else l.unattached? := by
  cases l with
  | skipped => exact absurd rfl hskipped
  | header id => cases hl
  | speaker name => cases hspeaker
  | spoken | choice | option | changes | condition | faulty =>
    cases hcurrent : r.current <;> simp only [complaint?, hcurrent, Option.elim]

/-- Two readings of which only the reports may differ. -/
structure Abreast (r r' : Reading) : Prop where
  story : r'.story = r.story
  current : r'.current = r.current
  speaker : r'.speaker = r.speaker

theorem Abreast.refl (r : Reading) : r.Abreast r := ⟨rfl, rfl, rfl⟩

theorem Abreast.trans {s : Reading} (h : r.Abreast r') (h' : r'.Abreast s) : r.Abreast s :=
  ⟨h'.story.trans h.story, h'.current.trans h.current, h'.speaker.trans h.speaker⟩

theorem Abreast.symm (h : r.Abreast r') : r'.Abreast r :=
  ⟨h.story.symm, h.current.symm, h.speaker.symm⟩

theorem abreast_complain (r : Reading) (n : Nat) (line : Text) (c : Complaint) :
    r.Abreast (r.complain n line c) := ⟨rfl, rfl, rfl⟩

theorem Abreast.complain (h : r.Abreast r') (c : Complaint) :
    (r.complain n line c).Abreast (r'.complain n' line c) := ⟨h.story, h.current, h.speaker⟩

theorem Abreast.complaint? (h : r.Abreast r') (l : Line) : r'.complaint? l = r.complaint? l := by
  obtain ⟨story, current, speaker, ds⟩ := r
  obtain ⟨story', current', speaker', ds'⟩ := r'
  obtain ⟨rfl, rfl, rfl⟩ := h
  rfl

theorem Abreast.openConversation (h : r.Abreast r') (id : Text) :
    (r.openConversation n line id).Abreast (r'.openConversation n' line id) := by
  rw [Reading.openConversation, Reading.openConversation, h.story]
  split
  · exact ⟨h.story, rfl, h.speaker⟩
  · dsimp only
    split
    · exact ⟨congrArg (Table.put · id []) h.story, rfl, h.speaker⟩
    · exact ⟨congrArg (Table.put · id []) h.story, rfl, h.speaker⟩

theorem Abreast.changeLast (h : r.Abreast r') (id : Text) (p : Node → Bool) (f : Node → Node)
    (c : Complaint) :
    (r.changeLast n line id p f c).Abreast (r'.changeLast n' line id p f c) := by
  rw [Reading.changeLast, Reading.changeLast, h.story]
  split
  · exact ⟨rfl, h.current, h.speaker⟩
  · exact h.complain c

theorem Abreast.addNode (h : r.Abreast r') (id : Text) (m : Node) :
    (r.addNode id m).Abreast (r'.addNode id m) :=
  ⟨by rw [Reading.addNode, Reading.addNode, h.story], h.current, h.speaker⟩

theorem Abreast.addContent (h : r.Abreast r') (id : Text) (l : Line) :
    (r.addContent n line id l).Abreast (r'.addContent n' line id l) := by
  cases l with
  | spoken text =>
    rw [Reading.addContent, Reading.addContent, h.speaker]
    exact h.addNode id _
  | choice => exact h.addNode id _
  | option c => exact h.changeLast id _ _ _
  | changes es => exact h.changeLast id _ _ _
  | condition c => exact h.changeLast id _ _ _
  | faulty c => exact h.complain c
  | skipped | header | speaker => exact h

/-- Reports do not matter to how reading goes on. -/
theorem Abreast.step (h : r.Abreast r') (n n' : Nat) (line : Text) :
    (r.step n line).Abreast (r'.step n' line) := by
  cases hread : Line.read line with
  | skipped =>
    rw [Reading.step, Reading.step, hread]
    exact h
  | header id =>
    rw [Reading.step, Reading.step, hread]
    exact h.openConversation id
  | speaker name =>
    rw [Reading.step, Reading.step, hread]
    exact ⟨h.story, h.current, rfl⟩
  | spoken | choice | option | changes | condition | faulty =>
    rw [step_of_content hread rfl rfl (by simp), step_of_content hread rfl rfl (by simp), h.current]
    cases r.current with
    | none => exact h.complain .outside
    | some id =>
      rw [Option.elim_some, Option.elim_some]
      exact h.addContent id _

theorem changeLast_of_any_eq_false {id : Text} {p : Node → Bool} {f : Node → Node} {c : Complaint}
    (h : (r.story.getD id []).any p = false) :
    r.changeLast n line id p f c = r.complain n line c := by
  rw [changeLast, Outline.modifyLast?_eq_none_iff.mpr h]

theorem diagnostics_changeLast_of_any {id : Text} {p : Node → Bool} {f : Node → Node}
    {c : Complaint} (h : (r.story.getD id []).any p = true) :
    (r.changeLast n line id p f c).diagnostics = r.diagnostics := by
  rw [changeLast]
  rcases hlast : modifyLast? p f (r.story.getD id []) with _ | nodes
  · rw [Outline.modifyLast?_eq_none_iff.mp hlast] at h
    cases h
  · rfl

/-- What no node admits is reported, and nothing else. -/
theorem addContent_of_complaint {id : Text} {c : Complaint}
    (hany : (r.story.getD id []).any l.admits = false) (hc : l.unattached? = some c) :
    r.addContent n line id l = r.complain n line c := by
  cases l with
  | option | changes | condition =>
    cases hc
    exact changeLast_of_any_eq_false hany
  | faulty => cases hc; rfl
  | skipped | header | speaker | spoken | choice => cases hc

theorem diagnostics_addContent {id : Text}
    (h : (r.story.getD id []).any l.admits = true ∨ l.unattached? = none) :
    (r.addContent n line id l).diagnostics = r.diagnostics := by
  cases l with
  | option | changes | condition =>
    rcases h with h | h
    · exact diagnostics_changeLast_of_any h
    · cases h
  | faulty =>
    rcases h with h | h
    · obtain ⟨m, -, hm⟩ := List.any_eq_true.mp h
      cases hm
    · cases h
  | skipped | header | speaker | spoken | choice => rfl

/-- **A line that is reported and is no header has done nothing else.** -/
theorem step_of_complaint {c : Complaint} (hl : (Line.read line).isHeader = false)
    (h : r.complaint? (Line.read line) = some c) : r.step n line = r.complain n line c := by
  cases hread : Line.read line with
  | skipped | speaker =>
    rw [hread] at h
    cases h
  | header id =>
    rw [hread] at hl
    cases hl
  | spoken | choice | option | changes | condition | faulty =>
    rw [hread, complaint?_of_content rfl rfl (by simp)] at h
    rw [step_of_content hread rfl rfl (by simp)]
    cases hcurrent : r.current with
    | none =>
      rw [hcurrent] at h
      cases h
      rfl
    | some id =>
      rw [hcurrent, Option.elim_some, ite_eq_iff] at h
      rcases h with ⟨-, h⟩ | ⟨hany, h⟩
      · cases h
      · exact addContent_of_complaint (Bool.eq_false_iff.mpr hany) h

/-- A report of a line, if there is something wrong with it. -/
def reports (n : Nat) (line : Text) (c : Option Complaint) : List Diagnostic :=
  c.toList.map fun c => ⟨n, line, c⟩

theorem diagnostics_openConversation (r : Reading) (n : Nat) (line id : Text) :
    (r.openConversation n line id).diagnostics =
      r.diagnostics ++ reports n line (r.complaint? (.header id)) := by
  rw [openConversation, complaint?]
  split
  · rfl
  · dsimp only
    split
    · rfl
    · exact (List.append_nil _).symm

/-- **What one line adds to the reports.** -/
theorem diagnostics_step (r : Reading) (n : Nat) (line : Text) :
    (r.step n line).diagnostics =
      r.diagnostics ++ reports n line (r.complaint? (Line.read line)) := by
  cases hread : Line.read line with
  | skipped | speaker =>
    rw [step, hread]
    exact (List.append_nil _).symm
  | header id =>
    rw [step, hread]
    exact diagnostics_openConversation r n line id
  | spoken | choice | option | changes | condition | faulty =>
    rw [← hread]
    cases hc : r.complaint? (Line.read line) with
    | some c =>
      rw [step_of_complaint (by rw [hread]; rfl) hc]
      rfl
    | none =>
      rw [hread, complaint?_of_content rfl rfl (by simp)] at hc
      rw [step_of_content hread rfl rfl (by simp)]
      refine Eq.trans ?_ (List.append_nil _).symm
      cases hcurrent : r.current with
      | none =>
        rw [hcurrent] at hc
        cases hc
      | some id =>
        rw [hcurrent, Option.elim_some, ite_eq_iff] at hc
        rw [Option.elim_some]
        exact diagnostics_addContent (hc.imp And.left And.right)

theorem eq_of_mem_reports {c : Option Complaint} {d : Diagnostic} (h : d ∈ reports n line c) :
    d.lineNumber = n ∧ d.line = line ∧ c = some d.complaint := by
  obtain ⟨c', hc, rfl⟩ := List.mem_map.mp h
  exact ⟨rfl, rfl, Option.mem_toList.mp hc⟩

theorem any_lineNumber_reports (n : Nat) (line : Text) (c : Option Complaint) :
    (reports n line c).any (·.lineNumber == n) = c.isSome := by
  cases c with
  | none => rfl
  | some c => simp [reports]

/-! ### All lines -/

/-- The only things that can be wrong with a header. -/
theorem complaint?_of_startsConversation {c : Complaint}
    (h : Line.startsConversation line = true) (hc : r.complaint? (Line.read line) = some c) :
    c = if line.argument.isEmpty then .headerWithoutId else .redefined line.argument := by
  obtain ⟨hidle, hkeyword⟩ := Bool.and_eq_true_iff.mp h
  rw [Line.read_of_not_isIdle ((Bool.not_eq_true' _).mp hidle), if_pos (of_decide_eq_true hkeyword),
    complaint?] at hc
  split at hc
  · next hempty =>
    rw [if_pos hempty]
    exact (Option.some.inj hc).symm
  · next hempty =>
    rw [if_neg hempty]
    split at hc
    · exact (Option.some.inj hc).symm
    · cases hc

/-- A report is about one of the lines, of which the first has the number `n`. -/
structure IsAbout (lines : List Text) (n : Nat) (d : Diagnostic) : Prop where
  le : n ≤ d.lineNumber
  line : lines[d.lineNumber - n]? = some d.line
  header : Line.startsConversation d.line = true → d.complaint =
    if d.line.argument.isEmpty then .headerWithoutId else .redefined d.line.argument

theorem IsAbout.cons {d : Diagnostic} (h : IsAbout lines (n + 1) d) (line : Text) :
    IsAbout (line :: lines) n d where
  le := Nat.le_of_succ_le h.le
  line := by
    have hnumber : d.lineNumber - n = d.lineNumber - (n + 1) + 1 := by have := h.le; omega
    rw [hnumber, List.getElem?_cons_succ]
    exact h.line
  header := h.header

theorem isAbout_of_mem_reports {d : Diagnostic} (lines : List Text)
    (h : d ∈ reports n line (r.complaint? (Line.read line))) : IsAbout (line :: lines) n d := by
  obtain ⟨hnumber, rfl, hc⟩ := eq_of_mem_reports h
  refine ⟨hnumber.ge, ?_, fun hheader => complaint?_of_startsConversation hheader hc⟩
  rw [hnumber, Nat.sub_self]
  rfl

/-- **What is reported of the lines of a script**: each report is about its line, and no line is
reported twice. -/
theorem exists_diagnostics_steps (r : Reading) (n : Nat) (lines : List Text) :
    ∃ ds, (r.steps n lines).diagnostics = r.diagnostics ++ ds ∧
      ds.Pairwise (·.lineNumber < ·.lineNumber) ∧ ∀ d ∈ ds, IsAbout lines n d := by
  induction lines generalizing r n with
  | nil => exact ⟨[], (List.append_nil _).symm, List.Pairwise.nil, nofun⟩
  | cons line lines ih =>
    obtain ⟨ds, hds, hsorted, habout⟩ := ih (r.step n line) (n + 1)
    refine ⟨reports n line (r.complaint? (Line.read line)) ++ ds, ?_, ?_, ?_⟩
    · rw [steps, hds, diagnostics_step, List.append_assoc]
    · refine List.pairwise_append.mpr ⟨?_, hsorted, fun d hd d' hd' => ?_⟩
      · cases r.complaint? (Line.read line) with
        | none => exact List.Pairwise.nil
        | some c => exact List.pairwise_singleton _ _
      · exact (eq_of_mem_reports hd).1 ▸ (habout d' hd').le
    · intro d hd
      rcases List.mem_append.mp hd with hd | hd
      · exact isAbout_of_mem_reports lines hd
      · exact (habout d hd).cons line

/-- Whether anything is reported of a line can be told from the reports of a whole script. -/
theorem any_lineNumber_steps (h : ∀ d ∈ r.diagnostics, d.lineNumber < n) (line : Text)
    (lines : List Text) :
    (r.steps n (line :: lines)).diagnostics.any (·.lineNumber == n) =
      (r.complaint? (Line.read line)).isSome := by
  obtain ⟨ds, hds, -, habout⟩ := exists_diagnostics_steps (r.step n line) (n + 1) lines
  have hbefore : r.diagnostics.any (·.lineNumber == n) = false := by
    simpa using fun d hd => (h d hd).ne
  have hafter : ds.any (·.lineNumber == n) = false := by
    simpa using fun d hd => (Nat.lt_of_succ_le (habout d hd).le).ne'
  rw [steps, hds, diagnostics_step, List.any_append, List.any_append, hbefore, hafter,
    any_lineNumber_reports, Bool.false_or, Bool.or_false]

/-! ### Leaving out what says nothing -/

/-- Whether a line has to stay, given the reports of the script: blank lines and comments do not,
nor do lines that are reported and are no headers. -/
def isKept (ds : List Diagnostic) (n : Nat) (line : Text) : Bool :=
  !Line.isIdle line && (Line.startsConversation line || !ds.any (·.lineNumber == n))

/-- The lines that have to stay. -/
def kept (ds : List Diagnostic) : Nat → List Text → List Text
  | _, [] => []
  | n, line :: lines =>
    if isKept ds n line then line :: kept ds (n + 1) lines else kept ds (n + 1) lines

/-- A script without the lines that say nothing. -/
def reduced (t : Text) : Text :=
  Text.join ['\n'] (kept (ofText t).diagnostics 1 (linesOf t))

/-- What a report says of which line, without its number. -/
def said (ds : List Diagnostic) : List (Text × Complaint) := ds.map fun d => (d.line, d.complaint)

/-- The reports of headers. -/
def ofHeaders (ds : List Diagnostic) : List Diagnostic :=
  ds.filter fun d => Line.startsConversation d.line

/-- A reading has gone over fewer lines than another, and only what says nothing is missing. -/
structure Reduces (r r' : Reading) : Prop extends r.Abreast r' where
  said : said r'.diagnostics = said (ofHeaders r.diagnostics)

theorem Reduces.step (h : r.Reduces r') (n n' : Nat)
    (hkept : Line.startsConversation line = true ∨ r.complaint? (Line.read line) = none) :
    (r.step n line).Reduces (r'.step n' line) where
  toAbreast := h.toAbreast.step n n' line
  said := by
    rw [diagnostics_step, diagnostics_step, h.toAbreast.complaint?, Reading.said, ofHeaders,
      List.filter_append, List.map_append, Reading.said, List.map_append]
    refine congrArg₂ (· ++ ·) h.said ?_
    rcases hkept with hkept | hkept
    · rw [List.filter_eq_self.mpr fun d hd => (eq_of_mem_reports hd).2.1 ▸ hkept, reports, reports,
        List.map_map, List.map_map]
      rfl
    · rw [hkept]
      rfl

theorem Reduces.skip (h : r.Reduces r') (n : Nat) (hkept : Line.isIdle line = true ∨
      Line.startsConversation line = false ∧ r.complaint? (Line.read line) ≠ none) :
    (r.step n line).Reduces r' := by
  rcases hkept with hidle | ⟨hheader, hc⟩
  · rw [Reading.step, Line.isIdle_iff.mp hidle]
    exact h
  · obtain ⟨c, hc⟩ := Option.ne_none_iff_exists'.mp hc
    rw [step_of_complaint ((Line.isHeader_read line).trans hheader) hc]
    refine ⟨(r.abreast_complain n line c).symm.trans h.toAbreast, h.said.trans ?_⟩
    rw [complain, ofHeaders, ofHeaders, List.filter_append, List.filter_singleton, hheader]
    exact congrArg Reading.said (List.append_nil _).symm

/-- **Lines that say nothing may be left out.** -/
theorem Reduces.steps_kept (h : r.Reduces r') (n n' : Nat) (lines : List Text)
    (hbefore : ∀ d ∈ r.diagnostics, d.lineNumber < n) :
    (r.steps n lines).Reduces (r'.steps n' (kept (r.steps n lines).diagnostics n lines)) := by
  induction lines generalizing r r' n n' with
  | nil => exact h
  | cons line lines ih =>
    have hreported := any_lineNumber_steps hbefore line lines
    have hbefore' : ∀ d ∈ (r.step n line).diagnostics, d.lineNumber < n + 1 := by
      intro d hd
      rw [diagnostics_step, List.mem_append] at hd
      rcases hd with hd | hd
      · exact Nat.lt_succ_of_lt (hbefore d hd)
      · exact (eq_of_mem_reports hd).1 ▸ Nat.lt_succ_self n
    rw [kept, isKept, hreported]
    split
    · next hkept =>
      obtain ⟨-, hkept⟩ := Bool.and_eq_true_iff.mp hkept
      refine ih (h.step n n' ((Bool.or_eq_true_iff.mp hkept).imp_right fun hc => ?_)) _ _ hbefore'
      simpa using hc
    · next hkept =>
      refine ih (h.skip n ?_) _ _ hbefore'
      rw [Bool.not_eq_true, Bool.and_eq_false_iff, Bool.or_eq_false_iff] at hkept
      refine hkept.imp (Bool.not_eq_false' _).mp (And.imp_right fun hc => ?_)
      simpa [Option.isSome_iff_ne_none] using hc

theorem kept_subset (ds : List Diagnostic) (n : Nat) (lines : List Text) :
    kept ds n lines ⊆ lines := by
  induction lines generalizing n with
  | nil => exact List.Subset.refl []
  | cons line lines ih =>
    rw [kept]
    split
    · exact List.cons_subset_cons line (ih (n + 1))
    · exact List.subset_cons_of_subset line (ih (n + 1))

/-- The lines of a script are the texts that can stand on a line. -/
theorem linesOf_join {ls : List Text} (hne : ls ≠ []) (h : ∀ l ∈ ls, '\n' ∉ l ∧ Text.strip l = l) :
    linesOf (Text.join ['\n'] ls) = ls := by
  rw [linesOf, Text.splitOn_join hne fun l hl => (h l hl).1]
  exact (List.map_congr_left fun l hl => (h l hl).2).trans (List.map_id' ls)

theorem of_mem_linesOf {t : Text} (h : line ∈ linesOf t) :
    '\n' ∉ line ∧ Text.strip line = line := by
  obtain ⟨piece, hpiece, rfl⟩ := List.mem_map.mp h
  refine ⟨fun hmem => ?_, Text.strip_strip piece⟩
  exact Text.not_mem_of_mem_splitOn hpiece ((Text.strip_isInfix piece).subset hmem)

/-- The reduced script is read line by line like the lines that were kept. -/
theorem ofText_reduced_eq (t : Text) :
    ofText (reduced t) = start.steps 1 (kept (ofText t).diagnostics 1 (linesOf t)) := by
  rw [ofText, reduced]
  rcases eq_or_ne (kept (ofText t).diagnostics 1 (linesOf t)) [] with hempty | hne
  · rw [hempty]
    rfl
  · rw [linesOf_join hne fun l hl => of_mem_linesOf (kept_subset _ _ _ hl)]

/-- **Skipped lines are inert, and every report is accurate.** -/
theorem ofText_reduced (t : Text) :
    (ofText t).diagnostics.Pairwise (·.lineNumber < ·.lineNumber) ∧
      (∀ d ∈ (ofText t).diagnostics, 0 < d.lineNumber ∧
        ((t.splitOn '\n')[d.lineNumber - 1]?).map Text.strip = some d.line) ∧
      (ofText (reduced t)).story = (ofText t).story ∧
      said (ofText (reduced t)).diagnostics = said (ofHeaders (ofText t).diagnostics) ∧
      ∀ d ∈ (ofText (reduced t)).diagnostics, Line.startsConversation d.line = true ∧
        d.complaint = if d.line.argument.isEmpty then .headerWithoutId
          else .redefined d.line.argument := by
  have hreduces : (ofText t).Reduces (ofText (reduced t)) := by
    rw [ofText_reduced_eq]
    exact Reduces.steps_kept ⟨Abreast.refl start, rfl⟩ 1 1 (linesOf t) nofun
  obtain ⟨ds, hds, hsorted, habout⟩ := exists_diagnostics_steps start 1 (linesOf t)
  obtain ⟨ds', hds', -, habout'⟩ := exists_diagnostics_steps start 1 (linesOf (reduced t))
  have hds : (ofText t).diagnostics = ds := hds
  have hds' : (ofText (reduced t)).diagnostics = ds' := hds'
  refine ⟨hds ▸ hsorted, fun d hd => ?_, hreduces.story, hreduces.said, fun d hd => ?_⟩
  · have habout := habout d (hds ▸ hd)
    exact ⟨habout.le, List.getElem?_map .. ▸ habout.line⟩
  · have hheader : Line.startsConversation d.line = true := by
      have hmem : (d.line, d.complaint) ∈ said (ofText (reduced t)).diagnostics :=
        List.mem_map.mpr ⟨d, hd, rfl⟩
      rw [hreduces.said] at hmem
      obtain ⟨d', hd', heq⟩ := List.mem_map.mp hmem
      rw [← (Prod.mk.inj heq).1]
      exact (List.mem_filter.mp hd').2
    exact ⟨hheader, (habout' d (hds' ▸ hd)).header hheader⟩

/-- A stray line, a comment and an unknown directive are left out; the header that opens its
conversation for the second time stays. -/
example :
    reduced "stray\n#Conversation a\n  \"Hi.\"\n-- aside\n#Conversation a\n#Bogus\n\"Ho.\" ".toList =
      "#Conversation a\n\"Hi.\"\n#Conversation a\n\"Ho.\"".toList := by decide +kernel

end Reading

end Parley
