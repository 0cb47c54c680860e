import Mathlib.Data.List.DropRight
import Parley.Condition.Conjoin
import Parley.Proofs.Table
import Parley.Script.Reading

/-!
# What a script says, by position

`Reading` is one pass with a state: an open conversation, a speaker, and the nodes so far, of which
the last ones are changed over and over. Here is the same thing said without a state. A script is
the list of what its lines mean, its *outline*, and every part of the story stands somewhere in it:

* the ids are those of the headers, in the order in which they come up first;
* the nodes of an id stand under its last header, up to the next header of any kind;
* a node has what the lines after it say, up to the next node: its changes and its condition. A
  choice node has the options up to the next choice node, past any line of speech between them;
* a line of speech is spoken by whoever was named last before it, wherever that was.

Whoever compares the two follows the outline from its end, line by line. So the lemmas say what one
more line at the end of an outline makes of its story.

## Main definitions

* `Outline.ids`, `Outline.nodesOf` — the conversations of an outline, and what they contain

## Main results

* `Outline.nodes_concat` — what one more line does to a conversation
* `Outline.conversations_concat_header`, `Outline.conversations_concat_of_openAfter`,
  `Outline.conversations_concat_of_id?` — and to a story
-/

namespace Parley

/-! ### What a line contributes -/

namespace Line

/-- Whether the line is a header, with an id or without. -/
def isHeader : Line → Bool
  | header _ => true
  | _ => false

/-- Whether the line adds a node. -/
def addsNode : Line → Bool
  | spoken _ | choice => true
  | _ => false

/-- Whether the line adds a choice node. -/
def addsChoice : Line → Bool
  | choice => true
  | _ => false

/-- What follows the keyword of a header. -/
def header? : Line → Option Text
  | header id => some id
  | _ => none

/-- The id of a header that has one. -/
def id? : Line → Option Text
  | header id => nonempty? id
  | _ => none

/-- The speaker that the line names. -/
def speaker? : Line → Option Text
  | speaker name => some name
  | _ => none

/-- The option on the line. -/
def option? : Line → Option Choice
  | option c => some c
  | _ => none

/-- The condition on the line. -/
def condition? : Line → Option Text
  | condition c => some c
  | _ => none

/-- The changes on the line. -/
def expressions : Line → List Text
  | changes es => es
  | _ => []

/-- Which nodes the line can be attached to. -/
def admits : Line → Node → Bool
  | option _ => Node.takesChoices
  | changes _ | condition _ => fun _ => true
  | _ => fun _ => false

/-- What becomes of a node that the line is attached to. -/
def amend : Line → Node → Node
  | option c => fun n => { n with choices := n.choices.map (· ++ [c]) }
  | changes es => fun n => { n with changes := n.changes ++ es }
  | condition c => fun n => { n with condition := Condition.conjoin n.condition (some c) }
  | _ => id

variable {l : Line} {id : Text}

theorem header?_of_not_isHeader (h : l.isHeader = false) : l.header? = none := by
  cases l with
  | header id => cases h
  | _ => rfl

theorem id?_of_not_isHeader (h : l.isHeader = false) : l.id? = none := by
  cases l with
  | header id => cases h
  | _ => rfl

theorem id?_eq_some_iff : l.id? = some id ↔ l = .header id ∧ id ≠ [] := by
  cases l with
  | header id' =>
    rcases eq_or_ne id' [] with rfl | hne
    · simp only [id?, nonempty?, List.isEmpty_nil, if_true, reduceCtorEq, false_iff, header.injEq]
      exact fun h => h.2 h.1.symm
    · simp only [id?, nonempty?, List.isEmpty_iff, if_neg hne, Option.some.injEq, header.injEq]
      exact ⟨fun h => ⟨h, h ▸ hne⟩, And.left⟩
  | _ => simp [id?]

end Line

/-! ### The story of an outline -/

namespace Outline

/-- The ids of the headers that have one, in the order in which they come up first. -/
def ids (ls : List Line) : List Text :=
  (ls.filterMap Line.id?).eraseDups

/-- Whoever was named last in some lines, nobody if there is no name in them. -/
def speakerAfter (ls : List Line) : Text := (ls.filterMap Line.speaker?).getLast?.getD []

/-- The changes of a node with some lines after it: those up to the next node, in order. -/
def changesAfter (after : List Line) : List Text :=
  (after.takeWhile fun l => !l.addsNode).flatMap Line.expressions

/-- The condition of a node with some lines after it: all those up to the next node. -/
def conditionAfter (after : List Line) : Option Text :=
  ((after.takeWhile fun l => !l.addsNode).filterMap Line.condition?).foldl
    (fun c d => Condition.conjoin c (some d)) none

/-- The options of a choice node with some lines after it: those up to the next choice node. -/
def optionsAfter (after : List Line) : List Choice :=
  (after.takeWhile fun l => !l.addsChoice).filterMap Line.option?

/-- The node that a line adds, with what comes before it in the script and after it in its
conversation. -/
def node? (before : List Line) (l : Line) (after : List Line) : Option Node :=
  match l with
  | .spoken text =>
    some
      { speaker := speakerAfter before
        text
        choices := none
        condition := conditionAfter after
        changes := changesAfter after
        executed := false }
  | .choice =>
    some
      { speaker := []
        text := []
        choices := some (optionsAfter after)
        condition := conditionAfter after
        changes := changesAfter after
        executed := false }
  | _ => none

/-- The nodes of some lines of one conversation, with what comes before them in the script. -/
def nodes (before : List Line) : List Line → List Node
  | [] => []
  | l :: after => (node? before l after).toList ++ nodes (before ++ [l]) after

/-- The lines up to the last header with an id, itself included. -/
def upTo (id : Text) (ls : List Line) : List Line :=
  ls.rdropWhile fun l => decide (l ≠ .header id)

/-- The lines after the last header with an id. -/
def beyond (id : Text) (ls : List Line) : List Line :=
  ls.rtakeWhile fun l => decide (l ≠ .header id)

/-- The lines under the last header with an id, up to the next header of any kind. -/
def under (id : Text) (ls : List Line) : List Line :=
  (beyond id ls).takeWhile fun l => !l.isHeader

/-- The nodes of a conversation. -/
def nodesOf (id : Text) (ls : List Line) : List Node := nodes (upTo id ls) (under id ls)

/-- The second inn replaces the first. Bo, who was named in the cellar, speaks there; the option
after his words still belongs to the choice before them, and the condition to the words. -/
example :
    nodesOf "inn".toList
      [.header "inn".toList, .speaker "Ann".toList, .spoken "Hello.".toList,
        .header "cellar".toList, .speaker "Bo".toList,
        .header "inn".toList, .choice, .spoken "Well?".toList,
        .option ⟨"Sit".toList, none, [], none⟩, .condition "tired == true".toList] =
      [⟨[], [], some [⟨"Sit".toList, none, [], none⟩], none, [], false⟩,
        ⟨"Bo".toList, "Well?".toList, none, some "tired == true".toList, [], false⟩] := by decide

/-- All conversations with their nodes. -/
def conversations (ls : List Line) : List (Text × List Node) :=
  (ids ls).map fun id => (id, nodesOf id ls)

/-- The conversation that is open after some lines: that of the last header, if it has an id. -/
def openAfter (ls : List Line) : Option Text :=
  (ls.filterMap Line.header?).getLast?.bind Line.nonempty?

/-! ### One more line after a node -/

variable {ls before after : List Line} {l x : Line} {id c : Text}

theorem takeWhile_concat {α : Type} (p : α → Bool) (as : List α) (a : α) :
    (as ++ [a]).takeWhile p = as.takeWhile p ++ if as.all p && p a then [a] else [] := by
  induction as with
  | nil => cases h : p a <;> simp [h]
  | cons b as ih =>
    rw [List.cons_append, List.takeWhile_cons, List.takeWhile_cons, List.all_cons]
    cases p b
    · rfl
    · rw [if_pos rfl, if_pos rfl, ih, Bool.true_and, List.cons_append]

theorem changesAfter_concat (after : List Line) (l : Line) :
    changesAfter (after ++ [l]) =
      changesAfter after ++ if after.any Line.addsNode then [] else l.expressions := by
  rw [changesAfter, changesAfter, takeWhile_concat, List.flatMap_append, List.all_eq_not_any_not]
  simp only [Bool.not_not]
  cases after.any Line.addsNode
  · cases l <;> simp [Line.addsNode, Line.expressions]
  · rfl

theorem conditionAfter_concat (after : List Line) (l : Line) :
    conditionAfter (after ++ [l]) =
      ((if after.any Line.addsNode then none else l.condition?).toList).foldl
        (fun c d => Condition.conjoin c (some d)) (conditionAfter after) := by
  rw [conditionAfter, conditionAfter, takeWhile_concat, List.filterMap_append, List.foldl_append,
    List.all_eq_not_any_not]
  simp only [Bool.not_not]
  cases after.any Line.addsNode
  · cases l <;> rfl
  · rfl

theorem optionsAfter_concat (after : List Line) (l : Line) :
    optionsAfter (after ++ [l]) =
      optionsAfter after ++ (if after.any Line.addsChoice then none else l.option?).toList := by
  rw [optionsAfter, optionsAfter, takeWhile_concat, List.filterMap_append, List.all_eq_not_any_not]
  simp only [Bool.not_not]
  cases after.any Line.addsChoice
  · cases l <;> rfl
  · rfl

theorem any_nodes (before ls : List Line) :
    ((nodes before ls).any fun _ => true) = ls.any Line.addsNode := by
  induction ls generalizing before with
  | nil => rfl
  | cons l ls ih =>
    rw [nodes, List.any_append, ih, List.any_cons]
    cases l <;> rfl

theorem any_takesChoices_nodes (before ls : List Line) :
    (nodes before ls).any Node.takesChoices = ls.any Line.addsChoice := by
  induction ls generalizing before with
  | nil => rfl
  | cons l ls ih =>
    rw [nodes, List.any_append, ih, List.any_cons]
    cases l <;> rfl

/-- One more line after a node is attached to it unless it is attached to a later one. -/
theorem node?_concat (before before' after : List Line) (x l : Line) :
    node? before x (after ++ [l]) =
      (node? before x after).map fun n =>
        if l.admits n && !(nodes before' after).any l.admits then l.amend n else n := by
  have hnodes := any_nodes before' after
  have hchoices := any_takesChoices_nodes before' after
  have hes := changesAfter_concat after l
  have hc := conditionAfter_concat after l
  have hos := optionsAfter_concat after l
  cases l <;>
    simp only [Line.expressions, Line.condition?, Line.option?, ite_self, List.append_nil,
      Option.toList_none, List.foldl_nil] at hes hc hos
  case option o =>
    simp only [node?, hes, hc, hos, Line.admits, hchoices]
    cases after.any Line.addsChoice <;> cases x <;> simp [Line.amend, Node.takesChoices]
  case changes es =>
    simp only [node?, hes, hc, hos, Line.admits, hnodes]
    cases after.any Line.addsNode <;> cases x <;> simp [Line.amend]
  case condition d =>
    simp only [node?, hes, hc, hos, Line.admits, hnodes]
    cases after.any Line.addsNode <;> cases x <;> simp [Line.amend]
  all_goals cases x <;> simp [node?, hes, hc, hos, Line.admits]

/-! ### One more line in a conversation -/

/-- The nodes with the last one that `p` admits changed, if there is one. -/
def changeLast (p : Node → Bool) (f : Node → Node) (ns : List Node) : List Node :=
  (modifyLast? p f ns).getD ns

theorem modifyLast?_eq_none_iff {α : Type} {p : α → Bool} {f : α → α} {as : List α} :
    modifyLast? p f as = none ↔ as.any p = false := by
  induction as with
  | nil => simp [modifyLast?]
  | cons a as ih =>
    rw [modifyLast?, List.any_cons, Bool.or_eq_false_iff, ← ih]
    rcases modifyLast? p f as with _ | as'
    · cases h : p a <;> simp
    · simp

theorem changeLast_append (p : Node → Bool) (f : Node → Node) (o : Option Node)
    (ns : List Node) :
    changeLast p f (o.toList ++ ns) =
      (o.map fun n => if p n && !ns.any p then f n else n).toList ++ changeLast p f ns := by
  rcases o with _ | n
  · rfl
  · rw [Option.toList_some, List.singleton_append, changeLast, changeLast, modifyLast?]
    rcases hlast : modifyLast? p f ns with _ | ns'
    · rw [modifyLast?_eq_none_iff.mp hlast]
      cases h : p n <;> simp [h]
    · have hany : ns.any p = true := by
        rw [← Bool.not_eq_false, ← modifyLast?_eq_none_iff (f := f), hlast]
        exact Option.some_ne_none ns'
      simp [hany]

theorem changeLast_of_never (f : Node → Node) (ns : List Node) :
    changeLast (fun _ => false) f ns = ns := by
  rw [changeLast, modifyLast?_eq_none_iff.mpr (by simp), Option.getD_none]

/-- **What one more line does to a conversation**: it is attached to the last node that admits it,
and adds the node it opens. -/
theorem nodes_concat (before ls : List Line) (l : Line) :
    nodes before (ls ++ [l]) =
      changeLast l.admits l.amend (nodes before ls) ++ (node? (before ++ ls) l []).toList := by
  induction ls generalizing before with
  | nil => simp [nodes, changeLast, modifyLast?]
  | cons x ls ih =>
    rw [List.cons_append, nodes, ih, node?_concat before (before ++ [x]), nodes,
      changeLast_append, List.append_assoc before [x] ls, List.singleton_append, List.append_assoc]

/-! ### One more line in a script -/

theorem eraseDups_concat (ts : List Text) (t : Text) :
    (ts ++ [t]).eraseDups = if t ∈ ts then ts.eraseDups else ts.eraseDups ++ [t] := by
  rw [List.eraseDups_append]
  by_cases h : t ∈ ts
  · simp [h, List.removeAll]
  · simp [h, List.removeAll, List.eraseDups_cons]

theorem ids_concat (ls : List Line) (l : Line) :
    ids (ls ++ [l]) =
      match l.id? with
      | some id => if id ∈ ids ls then ids ls else ids ls ++ [id]
      | none => ids ls := by
  rw [ids, ids, List.filterMap_append]
  rcases h : l.id? with _ | id
  · rw [List.filterMap_cons_none h, List.filterMap_nil, List.append_nil]
  · rw [List.filterMap_cons_some h, List.filterMap_nil, eraseDups_concat]
    simp only [List.mem_eraseDups]

theorem speakerAfter_concat (ls : List Line) (l : Line) :
    speakerAfter (ls ++ [l]) = l.speaker?.getD (speakerAfter ls) := by
  rw [speakerAfter, speakerAfter, List.filterMap_append, List.getLast?_append]
  cases l <;> simp [Line.speaker?]

theorem openAfter_concat (ls : List Line) (l : Line) :
    openAfter (ls ++ [l]) =
      match l.header? with
      | some id => Line.nonempty? id
      | none => openAfter ls := by
  rw [openAfter, openAfter, List.filterMap_append, List.getLast?_append]
  cases l <;> simp [Line.header?]

theorem beyond_concat (h : l ≠ .header id) : beyond id (ls ++ [l]) = beyond id ls ++ [l] :=
  List.rtakeWhile_concat_pos _ _ _ (by simpa using h)

theorem beyond_concat_self (id : Text) (ls : List Line) :
    beyond id (ls ++ [.header id]) = [] :=
  List.rtakeWhile_concat_neg _ _ _ (by simp)

theorem upTo_concat (h : l ≠ .header id) : upTo id (ls ++ [l]) = upTo id ls :=
  List.rdropWhile_concat_pos _ _ _ (by simpa using h)

theorem mem_ids_iff : id ∈ ids ls ↔ .header id ∈ ls ∧ id ≠ [] := by
  rw [ids, List.mem_eraseDups, List.mem_filterMap]
  simp only [Line.id?_eq_some_iff]
  exact ⟨fun ⟨_, hmem, hl, hne⟩ => ⟨hl ▸ hmem, hne⟩, fun ⟨hmem, hne⟩ => ⟨_, hmem, rfl, hne⟩⟩

/-- A conversation is open as long as there is no other header after its last one. -/
theorem all_beyond_iff (hid : id ∈ ids ls) :
    (beyond id ls).all (fun l => !l.isHeader) = true ↔ openAfter ls = some id := by
  have hne : id ≠ [] := (mem_ids_iff.mp hid).2
  induction ls using List.reverseRecOn with
  | nil => simp [ids] at hid
  | append_singleton ls l ih =>
    rw [openAfter_concat]
    by_cases hl : l = .header id
    · rw [hl, beyond_concat_self]
      simp [Line.header?, Line.nonempty?, hne]
    · rw [beyond_concat hl, List.all_append]
      have hmem : Line.header id ∈ ls := by
        rcases List.mem_append.mp (mem_ids_iff.mp hid).1 with hmem | hmem
        · exact hmem
        · exact absurd (List.mem_singleton.mp hmem).symm hl
      have hls := ih (mem_ids_iff.mpr ⟨hmem, hne⟩)
      cases l with
      | header id' =>
        have hne' : id' ≠ id := fun h => hl (h ▸ rfl)
        simp [Line.isHeader, Line.header?, Line.nonempty?, hne']
      | _ => simpa [Line.isHeader, Line.header?] using hls

theorem mem_ids_of_openAfter (h : openAfter ls = some id) : id ∈ ids ls := by
  obtain ⟨id', hlast, hid'⟩ := Option.bind_eq_some_iff.mp h
  obtain ⟨l, hmem, hl⟩ := List.mem_filterMap.mp (List.mem_of_getLast? hlast)
  rw [ids, List.mem_eraseDups]
  refine List.mem_filterMap.mpr ⟨l, hmem, ?_⟩
  cases l with
  | header id'' =>
    obtain rfl : id'' = id' := Option.some.inj hl
    exact hid'
  | _ => cases hl

/-- What lies before a line of the open conversation is all there is before it in the script. -/
theorem upTo_append_under (h : openAfter ls = some id) : upTo id ls ++ under id ls = ls := by
  have hall := (all_beyond_iff (mem_ids_of_openAfter h)).mpr h
  rw [under, List.takeWhile_eq_self_iff.mpr (List.all_eq_true.mp hall)]
  exact List.rdropWhile_append_rtakeWhile

theorem nodesOf_concat_self (id : Text) (ls : List Line) :
    nodesOf id (ls ++ [.header id]) = [] := by
  rw [nodesOf, under, beyond_concat_self]
  rfl

/-- A header with another id, or with none, changes nothing. -/
theorem nodesOf_concat_of_isHeader (h : l ≠ .header id) (hl : l.isHeader = true) :
    nodesOf id (ls ++ [l]) = nodesOf id ls := by
  rw [nodesOf, nodesOf, upTo_concat h, under, under, beyond_concat h, takeWhile_concat, hl,
    Bool.not_true, Bool.and_false, if_neg Bool.false_ne_true, List.append_nil]

/-- A line in another conversation, or in none, changes nothing. -/
theorem nodesOf_concat_of_ne (hid : id ∈ ids ls) (hne : openAfter ls ≠ some id)
    (hl : l.isHeader = false) : nodesOf id (ls ++ [l]) = nodesOf id ls := by
  have hclosed : ((beyond id ls).all fun l => !l.isHeader) = false := by
    rw [← Bool.not_eq_true, all_beyond_iff hid]
    exact hne
  have h : l ≠ .header id := fun h => by simp [h, Line.isHeader] at hl
  rw [nodesOf, nodesOf, upTo_concat h, under, under, beyond_concat h, takeWhile_concat, hclosed,
    Bool.false_and, if_neg Bool.false_ne_true, List.append_nil]

/-- A line in the open conversation is attached there, or adds its node. -/
theorem nodesOf_concat_of_openAfter (hopen : openAfter ls = some id) (hl : l.isHeader = false) :
    nodesOf id (ls ++ [l]) =
      changeLast l.admits l.amend (nodesOf id ls) ++ (node? ls l []).toList := by
  have hall := (all_beyond_iff (mem_ids_of_openAfter hopen)).mpr hopen
  have h : l ≠ .header id := fun h => by simp [h, Line.isHeader] at hl
  have hunder : under id (ls ++ [l]) = under id ls ++ [l] := by
    rw [under, under, beyond_concat h, takeWhile_concat, hall, hl]
    rfl
  rw [nodesOf, upTo_concat h, hunder, nodes_concat, upTo_append_under hopen, nodesOf]

/-! ### The pass follows the outline -/

theorem nodup_ids (ls : List Line) : (ids ls).Nodup := by
  induction ls using List.reverseRecOn with
  | nil => simp [ids]
  | append_singleton ls l ih =>
    rw [ids_concat]
    split
    · split
      · exact ih
      · next hid => simpa using List.Nodup.concat hid ih
    · exact ih

theorem map_fst_conversations (ls : List Line) : (conversations ls).map Prod.fst = ids ls := by
  rw [conversations, List.map_map]
  exact List.map_id _

/-- Conversations of which one is bound anew. -/
theorem bindEntry_conversations {ns : List Node} (hid : id ∈ ids ls) :
    bindEntry id ns (conversations ls) =
      (ids ls).map fun c => (c, if c = id then ns else nodesOf c ls) := by
  rw [bindEntry_of_mem_keys, conversations, List.map_map]
  · refine List.map_congr_left fun c _ => ?_
    by_cases h : c = id <;> simp [h]
  · rw [map_fst_conversations]
    exact nodup_ids ls
  · rwa [map_fst_conversations]

theorem conversations_concat_header (hid : id ≠ []) :
    conversations (ls ++ [.header id]) = bindEntry id [] (conversations ls) := by
  have hothers : ∀ c, nodesOf c (ls ++ [.header id]) = if c = id then [] else nodesOf c ls := by
    intro c
    by_cases hc : c = id
    · rw [if_pos hc, hc, nodesOf_concat_self]
    · rw [if_neg hc, nodesOf_concat_of_isHeader (fun h => hc (Line.header.inj h).symm) rfl]
  have hids := ids_concat ls (.header id)
  rw [Line.id?_eq_some_iff.mpr ⟨rfl, hid⟩] at hids
  rw [conversations, hids]
  simp only [hothers]
  by_cases hmem : id ∈ ids ls
  · rw [if_pos hmem, bindEntry_conversations hmem]
  · rw [if_neg hmem, bindEntry_of_not_mem_keys (by rwa [map_fst_conversations]), List.map_append,
      List.map_singleton, if_pos rfl, conversations]
    congr 1
    refine List.map_congr_left fun c hc => ?_
    have hne : c ≠ id := fun h => hmem (h ▸ hc)
    rw [if_neg hne]

theorem conversations_concat_of_openAfter (hopen : openAfter ls = some id)
    (hl : l.isHeader = false) :
    conversations (ls ++ [l]) =
      bindEntry id (changeLast l.admits l.amend (nodesOf id ls) ++ (node? ls l []).toList)
        (conversations ls) := by
  have hids : ids (ls ++ [l]) = ids ls := by
    rw [ids_concat, Line.id?_of_not_isHeader hl]
  rw [conversations, hids, bindEntry_conversations (mem_ids_of_openAfter hopen)]
  refine List.map_congr_left fun c hc => ?_
  by_cases h : c = id
  · rw [if_pos h, h, nodesOf_concat_of_openAfter hopen hl]
  · rw [if_neg h, nodesOf_concat_of_ne hc (fun h' => h (Option.some.inj (h'.symm.trans hopen))) hl]

/-- A line outside of any conversation changes nothing, and neither does a header without an id. -/
theorem conversations_concat_of_id? (hl : l.id? = none)
    (hopen : l.isHeader = false → openAfter ls = none) :
    conversations (ls ++ [l]) = conversations ls := by
  have hids : ids (ls ++ [l]) = ids ls := by
    rw [ids_concat, hl]
  rw [conversations, hids, conversations]
  refine List.map_congr_left fun c hc => ?_
  cases hheader : l.isHeader
  · rw [nodesOf_concat_of_ne hc (by simp [hopen hheader]) hheader]
  · have h : l ≠ .header c := fun h => by
      rw [Line.id?_eq_some_iff.mpr ⟨h, (mem_ids_iff.mp hc).2⟩] at hl
      cases hl
    rw [nodesOf_concat_of_isHeader h hheader]

theorem mem_conversations (hid : id ∈ ids ls) : (id, nodesOf id ls) ∈ conversations ls :=
  List.mem_map.mpr ⟨id, hid, rfl⟩

theorem bindEntry_nodesOf (hid : id ∈ ids ls) :
    bindEntry id (nodesOf id ls) (conversations ls) = conversations ls :=
  bindEntry_of_mem (by rw [map_fst_conversations]; exact nodup_ids ls) (mem_conversations hid)

/-- A line that is attached to nothing and adds nothing changes nothing. -/
theorem conversations_concat_of_idle (hl : l.isHeader = false) (hadmits : l.admits = fun _ => false)
    (hadds : node? ls l [] = none) : conversations (ls ++ [l]) = conversations ls := by
  rcases hopen : openAfter ls with _ | id
  · exact conversations_concat_of_id? (Line.id?_of_not_isHeader hl) fun _ => hopen
  · rw [conversations_concat_of_openAfter hopen hl, hadmits, changeLast_of_never, hadds,
      Option.toList_none, List.append_nil, bindEntry_nodesOf (mem_ids_of_openAfter hopen)]

end Outline

end Parley
