import CodeWide.Lib.Composite
import CodeWide.Lib.Run
import CodeWide.Lib.Table
import CodeWide.Lib.Utf8
import Mathlib

/-!
# Subagent links

`put_agent_subagent_link` and the reads of the two link tables
(`companion-core/src/store/agent_tables.rs`).
-/

namespace CodeWide.Store

open Lib List

abbrev LinkRecord := List Byte

structure SubagentTables where
  subagentChildren : Table String LinkRecord
  subagentParents : Table String String

def subagentKey (parent child : String) : String := parent ++ "\x00" ++ child

structure LinkRequest where
  parent : String
  child : String
  record : LinkRecord

namespace SubagentTables

def empty : SubagentTables := ⟨∅, ∅⟩

def putAgentSubagentLink (s : SubagentTables) (link : LinkRequest) : SubagentTables where
  subagentChildren := s.subagentChildren.insert (subagentKey link.parent link.child) link.record
  subagentParents := s.subagentParents.insert link.child link.parent

def childEntries (s : SubagentTables) (parent : String) : List (String × LinkRecord) :=
  let start := parent ++ "\x00"
  let stop := parent ++ "\x01"
  s.subagentChildren.scan (fun key => decide (start ≤ key) && decide (key < stop))

def agentSubagentChildren (s : SubagentTables) (parent : String) : List LinkRecord :=
  (s.childEntries parent).map Prod.snd

def agentSubagentParent (s : SubagentTables) (child : String) : Option String :=
  s.subagentParents.get? child

def agentSubagentLink (s : SubagentTables) (child : String) : Option LinkRecord :=
  match s.subagentParents.get? child with
  | none => none
  | some parent => s.subagentChildren.get? (subagentKey parent child)

def OneParent (s : SubagentTables) : Prop :=
  ∀ parent, ∃ children : List String, children.Nodup ∧
    (∀ child, child ∈ children ↔ s.agentSubagentParent child = some parent) ∧
    (s.agentSubagentChildren parent).map some = children.map s.agentSubagentLink

end SubagentTables

variable (parent child : String)

lemma toList_subagentKey :
    (subagentKey parent child).toList = parent.toList ++ '\x00' :: child.toList := by
  unfold subagentKey
  rw [String.toList_append, String.toList_append, append_assoc]
  rfl

lemma subagentKey_inj {parent child parent' child' : String}
    (h : subagentKey parent child = subagentKey parent' child') (hpar : NulFree parent')
    (hchild : NulFree child') : parent = parent' ∧ child = child' := by
  have htext := congrArg String.toList h
  rw [toList_subagentKey, toList_subagentKey] at htext
  obtain ⟨hp, hc⟩ := Composite.split_inj htext hpar hchild
  exact ⟨String.toList_inj.mp hp, String.toList_inj.mp hc⟩

lemma exists_subagentKey_of_not_nulFree {id : String} (h : ¬ NulFree id) :
    ∃ before after, id = subagentKey before after := by
  obtain ⟨before, after, htext⟩ := append_of_mem (not_not.mp h)
  refine ⟨String.ofList before, String.ofList after, String.toList_inj.mp ?_⟩
  rw [toList_subagentKey, htext, String.toList_ofList, String.toList_ofList]

lemma subagentKey_assoc (a b c : String) :
    subagentKey (subagentKey a b) c = subagentKey a (subagentKey b c) := by
  refine String.toList_inj.mp ?_
  simp only [toList_subagentKey, append_assoc, cons_append]

lemma subagentKey_ne_left : parent ≠ subagentKey parent child := by
  intro h
  have hlen := congrArg (fun s : String => s.toList.length) h
  rw [toList_subagentKey, length_append, length_cons] at hlen
  omega

namespace SubagentTables

variable {s : SubagentTables}

variable {parent : String} {e : String × LinkRecord}

lemma mem_childEntries : e ∈ s.childEntries parent ↔ s.subagentChildren.get? e.1 = some e.2 ∧
      ∃ child, e.1 = subagentKey parent child := by
  unfold childEntries
  dsimp only
  rw [Table.mem_scan, Bool.and_eq_true, decide_eq_true_eq, decide_eq_true_eq,
    String.le_iff_toList_le, String.lt_iff_toList_lt, String.toList_append, String.toList_append]
  refine and_congr_right (fun _ => ?_)
  have hbetween := @Composite.between_succ_iff Char _ parent.toList e.1.toList '\x00' '\x01'
    (by decide) (fun x _ hlt => ?_)
  · refine hbetween.trans ⟨?_, ?_⟩
    · rintro ⟨rest, hrest⟩
      refine ⟨String.ofList rest, String.toList_inj.mp ?_⟩
      rw [hrest, toList_subagentKey, String.toList_ofList]
    · rintro ⟨child, hchild⟩
      exact ⟨child.toList, by rw [hchild, toList_subagentKey]⟩
  · have hval : x.val.toNat < 1 := hlt
    exact Char.ext (UInt32.toNat_inj.mp (Nat.lt_one_iff.mp hval))

lemma nodup_childEntries (s : SubagentTables) (parent : String) :
    ((s.childEntries parent).map Prod.fst).Nodup :=
  s.subagentChildren.keys_nodup.sublist (filter_sublist.map Prod.fst)

lemma agentSubagentParent_put (s : SubagentTables) (link : LinkRequest) (child : String) :
    (s.putAgentSubagentLink link).agentSubagentParent child =
      if child = link.child then some link.parent else s.agentSubagentParent child :=
  Table.get?_insert _ _ _ _

lemma get?_children_put (s : SubagentTables) (link : LinkRequest) (key : String) :
    (s.putAgentSubagentLink link).subagentChildren.get? key =
      if key = subagentKey link.parent link.child then some link.record
      else s.subagentChildren.get? key :=
  Table.get?_insert _ _ _ _

/-- The two tables hold the same links, and no id has a zero character. -/
structure Kept (s : SubagentTables) : Prop where
  plain : ∀ child parent, s.agentSubagentParent child = some parent → NulFree parent ∧ NulFree child
  same : ∀ key, (∃ record, s.subagentChildren.get? key = some record) ↔
    ∃ parent child, s.agentSubagentParent child = some parent ∧ key = subagentKey parent child

lemma kept_empty : Kept empty where
  plain _ _ h := nomatch h
  same key := by
    constructor
    · rintro ⟨record, h⟩
      cases h
    · rintro ⟨parent, child, h, -⟩
      cases h

def childOf (parent key : String) : String :=
  String.ofList (key.toList.drop (parent.toList.length + 1))

lemma childOf_subagentKey (parent child : String) :
    childOf parent (subagentKey parent child) = child := by
  unfold childOf
  rw [toList_subagentKey, drop_append]
  simp

lemma Kept.mem_childEntries (h : Kept s) (he : e ∈ s.childEntries parent) :
    ∃ child, e.1 = subagentKey parent child ∧ s.agentSubagentParent child = some parent ∧
      s.agentSubagentLink child = some e.2 := by
  obtain ⟨hget, child, hkey⟩ := SubagentTables.mem_childEntries.mp he
  obtain ⟨parent', child', hpar, hkey'⟩ := (h.same e.1).mp ⟨e.2, hget⟩
  obtain ⟨hp, hc⟩ := h.plain child' parent' hpar
  obtain ⟨rfl, rfl⟩ := subagentKey_inj (hkey.symm.trans hkey') hp hc
  refine ⟨child, hkey, hpar, ?_⟩
  have hsto : s.subagentParents.get? child = some parent := hpar
  unfold agentSubagentLink
  rw [hsto]
  dsimp only
  rw [← hkey]
  exact hget

lemma Kept.oneParent (h : Kept s) : OneParent s := by
  intro parent
  refine ⟨(s.childEntries parent).map (fun e => childOf parent e.1), ?_, fun child => ?_, ?_⟩
  · have hkeys := s.nodup_childEntries parent
    have hmap : (s.childEntries parent).map (fun e => childOf parent e.1) =
        ((s.childEntries parent).map Prod.fst).map (childOf parent) := by
      rw [map_map]
      rfl
    rw [hmap]
    refine List.Nodup.map_on (fun key hkey key' hkey' heq => ?_) hkeys
    obtain ⟨e, he, rfl⟩ := mem_map.mp hkey
    obtain ⟨e', he', rfl⟩ := mem_map.mp hkey'
    obtain ⟨child, hchild, -⟩ := h.mem_childEntries he
    obtain ⟨child', hchild', -⟩ := h.mem_childEntries he'
    rw [hchild, hchild', childOf_subagentKey, childOf_subagentKey] at heq
    rw [hchild, hchild', heq]
  · rw [mem_map]
    constructor
    · rintro ⟨e, he, rfl⟩
      obtain ⟨child, hkey, hpar, -⟩ := h.mem_childEntries he
      rw [hkey, childOf_subagentKey]
      exact hpar
    intro hpar
    obtain ⟨record, hrec⟩ := (h.same (subagentKey parent child)).mpr ⟨parent, child, hpar, rfl⟩
    exact ⟨(subagentKey parent child, record),
      SubagentTables.mem_childEntries.mpr ⟨hrec, child, rfl⟩, childOf_subagentKey parent child⟩
  unfold agentSubagentChildren
  rw [map_map, map_map]
  refine map_congr_left (fun e he => ?_)
  obtain ⟨child, hkey, -, hlink⟩ := h.mem_childEntries he
  change some e.2 = s.agentSubagentLink (childOf parent e.1)
  rw [hkey, childOf_subagentKey, hlink]

/-- The child has no parent yet or this one, and the ids have no zero character. -/
def Unmoved (s : SubagentTables) (link : LinkRequest) : Prop :=
  NulFree link.parent ∧ NulFree link.child ∧
    ∀ parent, s.agentSubagentParent link.child = some parent → parent = link.parent

lemma Kept.put {s : SubagentTables} (h : Kept s) {link : LinkRequest}
    (hlink : Unmoved s link) : Kept (s.putAgentSubagentLink link) := by
  obtain ⟨hpar, hchild, hsame⟩ := hlink
  constructor
  · intro child parent hget
    rw [agentSubagentParent_put] at hget
    split at hget
    · rename_i heq
      cases hget
      exact ⟨hpar, heq ▸ hchild⟩
    · exact h.plain child parent hget
  intro key
  rw [get?_children_put]
  simp only [agentSubagentParent_put]
  constructor
  · rintro ⟨record, hrec⟩
    split at hrec
    · rename_i hkey
      exact ⟨link.parent, link.child, if_pos rfl, hkey⟩
    obtain ⟨parent, child, hget, hkey⟩ := (h.same key).mp ⟨record, hrec⟩
    rename_i hne
    refine ⟨parent, child, ?_, hkey⟩
    rw [if_neg]
    · exact hget
    · rintro rfl
      rw [hsame parent hget] at hkey
      exact hne hkey
  rintro ⟨parent, child, hget, rfl⟩
  split at hget
  · rename_i heq
    cases hget
    exact ⟨link.record, if_pos (by rw [heq])⟩
  rename_i hne
  obtain ⟨hp, hc⟩ := h.plain child parent hget
  obtain ⟨record, hrec⟩ := (h.same (subagentKey parent child)).mpr ⟨parent, child, hget, rfl⟩
  refine ⟨record, ?_⟩
  rw [if_neg (fun hkey => hne (subagentKey_inj hkey.symm hp hc).2.symm)]
  exact hrec

lemma length_children (s : SubagentTables) (parent : String) :
    (s.agentSubagentChildren parent).length = (s.childEntries parent).length :=
  length_map _

lemma Kept.untouched (h : Kept s) {link : LinkRequest}
    (hnext : OneParent (s.putAgentSubagentLink link))
    (hne : parent ≠ link.parent) : s.agentSubagentParent link.child ≠ some parent ∧
      ∀ child, subagentKey link.parent link.child = subagentKey parent child →
        NulFree link.parent ∧ NulFree link.child := by
  obtain ⟨before, hbefore, hbeforeMem, hbeforeMap⟩ := h.oneParent parent
  obtain ⟨after, hafter, hafterMem, hafterMap⟩ := hnext parent
  have hlengthBefore : (s.childEntries parent).length = before.length := by
    have hlen := congrArg length hbeforeMap
    rwa [length_map, length_map, length_children] at hlen
  have hlengthAfter :
      ((s.putAgentSubagentLink link).childEntries parent).length = after.length := by
    have hlen := congrArg length hafterMap
    rwa [length_map, length_map, length_children] at hlen
  -- The children of `parent` are at most the former ones without the linked child.
  have hsub : ∀ c ∈ after, c ∈ before ∧ c ≠ link.child := by
    intro c hc
    rw [hafterMem, agentSubagentParent_put] at hc
    split at hc
    · cases hc
      exact absurd rfl hne
    · rename_i hnot
      exact ⟨(hbeforeMem c).mpr hc, hnot⟩
  -- The keys are at least the former ones.
  have hkeys : ∀ key ∈ (s.childEntries parent).map Prod.fst,
      key ∈ ((s.putAgentSubagentLink link).childEntries parent).map Prod.fst := by
    intro key hkey
    obtain ⟨e, he, rfl⟩ := mem_map.mp hkey
    obtain ⟨hget, hprefix⟩ := SubagentTables.mem_childEntries.mp he
    by_cases heq : e.1 = subagentKey link.parent link.child
    · refine mem_map.mpr ⟨(e.1, link.record), ?_, rfl⟩
      refine SubagentTables.mem_childEntries.mpr ⟨?_, hprefix⟩
      rw [get?_children_put, if_pos heq]
    · refine mem_map.mpr ⟨e, SubagentTables.mem_childEntries.mpr ⟨?_, hprefix⟩, rfl⟩
      rw [get?_children_put, if_neg heq]
      exact hget
  have hle : after.length ≤ before.length :=
    (subperm_of_subset hafter (fun c hc => (hsub c hc).1)).length_le
  constructor
  · intro hold
    have hmem : link.child ∈ before := (hbeforeMem link.child).mpr hold
    have herase : after ⊆ before.erase link.child := by
      intro c hc
      exact (mem_erase_of_ne (hsub c hc).2).mpr (hsub c hc).1
    have hlt := (subperm_of_subset hafter herase).length_le
    have hkeysLe := (subperm_of_subset (s.nodup_childEntries parent) hkeys).length_le
    rw [length_erase_of_mem hmem] at hlt
    rw [length_map, length_map] at hkeysLe
    have hpos := length_pos_of_mem hmem
    omega
  intro child hkey
  -- A new key would make the list longer than the children are many.
  have hold : subagentKey link.parent link.child ∈ (s.childEntries parent).map Prod.fst := by
    by_contra hnew
    have hmem : subagentKey link.parent link.child ∈
        ((s.putAgentSubagentLink link).childEntries parent).map Prod.fst := by
      refine mem_map.mpr ⟨(subagentKey link.parent link.child, link.record), ?_, rfl⟩
      refine SubagentTables.mem_childEntries.mpr ⟨?_, child, hkey⟩
      exact (get?_children_put s link _).trans (if_pos rfl)
    have hcons := (subperm_of_subset (nodup_cons.mpr ⟨hnew, s.nodup_childEntries parent⟩)
      (cons_subset.mpr ⟨hmem, hkeys⟩)).length_le
    rw [length_cons, length_map, length_map] at hcons
    omega
  obtain ⟨e, he, heq⟩ := mem_map.mp hold
  obtain ⟨parent', child', hget, hkey'⟩ :=
    (h.same e.1).mp ⟨e.2, (SubagentTables.mem_childEntries.mp he).1⟩
  obtain ⟨hp, hc⟩ := h.plain child' parent' hget
  obtain ⟨hpar, hchild⟩ := subagentKey_inj (heq.symm.trans hkey') hp hc
  rw [hpar, hchild]
  exact ⟨hp, hc⟩

lemma Kept.unmoved (h : Kept s) {link : LinkRequest}
    (hnext : OneParent (s.putAgentSubagentLink link)) : Unmoved s link := by
  have hpar : NulFree link.parent := by
    by_contra hnul
    obtain ⟨before, rest, hsplit⟩ := exists_subagentKey_of_not_nulFree hnul
    have hne : before ≠ link.parent := by
      rw [hsplit]
      exact subagentKey_ne_left before rest
    refine hnul ((h.untouched hnext hne).2 (subagentKey rest link.child) ?_).1
    rw [hsplit, subagentKey_assoc]
  have hchild : NulFree link.child := by
    by_contra hnul
    obtain ⟨before, rest, hsplit⟩ := exists_subagentKey_of_not_nulFree hnul
    have hne : subagentKey link.parent before ≠ link.parent :=
      (subagentKey_ne_left link.parent before).symm
    refine hnul ((h.untouched hnext hne).2 rest ?_).2
    rw [hsplit, subagentKey_assoc]
  refine ⟨hpar, hchild, fun parent hget => ?_⟩
  by_contra hne
  exact (h.untouched hnext hne).1 hget

end SubagentTables

open SubagentTables

/-- The children listed under a parent are its own exactly when no link moves a child and no id has
a zero character. -/
theorem one_parent_iff (links : List LinkRequest) :
    (∀ l m, links = l ++ m → OneParent (exec putAgentSubagentLink empty l)) ↔
      Always putAgentSubagentLink Unmoved empty links :=
  always_iff_of_guarded (fun _ h => h.oneParent) (fun _ _ h hlink => h.put hlink)
    (fun _ _ h hnext => h.unmoved hnext) kept_empty links

def relinked : SubagentTables :=
  exec putAgentSubagentLink empty [⟨"p", "c", [1]⟩, ⟨"q", "c", [2]⟩]

theorem relinked_child_has_two_parents :
    relinked.agentSubagentParent "c" = some "q" ∧
      relinked.agentSubagentChildren "p" = [[1]] ∧ ¬ OneParent relinked := by
  have hpar : relinked.agentSubagentParent "c" = some "q" := by decide
  have hlist : relinked.agentSubagentChildren "p" = [[1]] := by decide
  have hparents : relinked.subagentParents.entries = [("c", "q")] := by decide
  refine ⟨hpar, hlist, fun h => ?_⟩
  obtain ⟨children, -, hmem, hmap⟩ := h "p"
  cases children with
  | nil =>
    rw [hlist] at hmap
    cases hmap
  | cons child rest =>
  have hp := (hmem child).mp mem_cons_self
  have hentry := Table.mem_entries_iff.mpr hp
  rw [hparents] at hentry
  exact absurd (Prod.mk.inj (mem_singleton.mp hentry)).2 (by decide)

end CodeWide.Store
