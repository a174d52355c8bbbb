import CodeWide.Lib.Run
import CodeWide.Lib.Traversal
import CodeWide.Store.ParentIndex

/-!
# The descendants of a thread

The loop of `thread_descendants` is a traversal of the parent relation, as long as the index is
exact, and always ends.
-/

namespace CodeWide.Store

open Lib List

namespace ThreadIndex

variable {s : ThreadIndex}

lemma foldl_unseen (skip : Nat) (keys : List (List Byte)) (seen : List String) :
    (keys.foldl (unseen skip) ([], seen)).1.Nodup ∧
      (∀ c, c ∈ (keys.foldl (unseen skip) ([], seen)).1 ↔
        c ∉ seen ∧ ∃ key ∈ keys, fromUtf8 (key.drop skip) = some c) ∧
      ∀ c, c ∈ (keys.foldl (unseen skip) ([], seen)).2 ↔
        c ∈ seen ∨ c ∈ (keys.foldl (unseen skip) ([], seen)).1 := by
  induction keys using reverseRecOn with
  | nil =>
    refine ⟨nodup_nil, fun c => ⟨fun h => (nomatch h), ?_⟩, fun c => ⟨.inl, ?_⟩⟩
    · rintro ⟨-, key, hkey, -⟩
      cases hkey
    · rintro (h | h)
      · exact h
      · cases h
  | append_singleton keys key ih =>
  rw [foldl_append, foldl_cons, foldl_nil]
  generalize keys.foldl (unseen skip) ([], seen) = acc at ih
  obtain ⟨hnodup, hmem, hseen⟩ := ih
  have hsplit : ∀ c, (∃ k ∈ keys ++ [key], fromUtf8 (k.drop skip) = some c) ↔
      (∃ k ∈ keys, fromUtf8 (k.drop skip) = some c) ∨ fromUtf8 (key.drop skip) = some c := by
    intro c
    simp only [mem_append, mem_singleton, or_and_right, exists_or, exists_eq_left]
  unfold unseen
  cases hdecoded : fromUtf8 (key.drop skip) with
  | none =>
    refine ⟨hnodup, fun c => ?_, hseen⟩
    rw [hmem, hsplit, hdecoded]
    simp only [reduceCtorEq, or_false]
  | some child =>
  dsimp only
  by_cases hchild : child ∈ acc.2
  · rw [if_pos hchild]
    refine ⟨hnodup, fun c => ?_, hseen⟩
    rw [hmem, hsplit, hdecoded]
    refine and_congr_right (fun hnew => ⟨.inl, fun h => h.elim id (fun heq => ?_)⟩)
    cases heq
    have hold := ((hseen child).mp hchild).resolve_left hnew
    exact ((hmem child).mp hold).2
  rw [if_neg hchild]
  have hnew : child ∉ seen ∧ child ∉ acc.1 :=
    not_or.mp (fun h => hchild ((hseen child).mpr h))
  refine ⟨?_, fun c => ?_, fun c => ?_⟩
  · exact hnodup.append (nodup_singleton child)
      (fun c hc hmem' => hnew.2 (mem_singleton.mp hmem' ▸ hc))
  · rw [mem_append, mem_singleton, hmem, hsplit, hdecoded, Option.some.injEq]
    constructor
    · rintro (⟨hc, hkey⟩ | rfl)
      · exact ⟨hc, .inl hkey⟩
      · exact ⟨hnew.1, .inr rfl⟩
    · rintro ⟨hc, hkey | rfl⟩
      · exact .inl ⟨hc, hkey⟩
      · exact .inr rfl
  · rw [mem_cons, hseen, mem_append, mem_singleton]
    tauto

def newChildren (s : ThreadIndex) (parent : String) (seen : List String) : List String :=
  (((s.keysOf parent).foldl (unseen (parentThreadPrefix parent).length)
    ([], seen)).1.insertionSort (· ≤ ·)).reverse

lemma nodup_newChildren (parent : String) (seen : List String) :
    (s.newChildren parent seen).Nodup := by
  unfold newChildren
  rw [nodup_reverse]
  exact (perm_insertionSort _ _).nodup_iff.mpr (foldl_unseen _ _ seen).1

lemma mem_newChildren (h : IndexExact s) (hrows : RowsPlain s) {parent : String}
    {seen : List String} {c : String} :
    c ∈ s.newChildren parent seen ↔ s.Child parent c ∧ c ∉ seen := by
  have hdecode : ∀ child, fromUtf8 ((parentThreadKey parent child).drop
      (parentThreadPrefix parent).length) = some child := by
    intro child
    unfold parentThreadKey
    rw [drop_left]
    exact fromUtf8_utf8 child
  unfold newChildren
  rw [mem_reverse, (perm_insertionSort _ _).mem_iff, (foldl_unseen _ _ seen).2.1, and_comm]
  refine and_congr_left (fun _ => ⟨?_, fun hchild => ?_⟩)
  · rintro ⟨key, hkey, hsome⟩
    obtain ⟨child, hchild, rfl⟩ := (mem_keysOf h hrows).mp hkey
    rw [hdecode] at hsome
    cases hsome
    exact hchild
  · exact ⟨_, (mem_keysOf h hrows).mpr ⟨c, hchild, rfl⟩, hdecode c⟩

lemma seen_visit (parent : String) (seen : List String) (c : String) :
    c ∈ ((s.keysOf parent).foldl (unseen (parentThreadPrefix parent).length) ([], seen)).2 ↔
      c ∈ seen ∨ c ∈ s.newChildren parent seen := by
  unfold newChildren
  rw [mem_reverse, (perm_insertionSort _ _).mem_iff]
  exact (foldl_unseen _ _ seen).2.2 c

/-- A row that was found is the current one. -/
def Rows (s : ThreadIndex) (found : List IndexedThreadMetadata) : Prop :=
  ∀ metadata ∈ found, s.threadMetadata.get? metadata.id = some metadata

lemma foldl_push (hrows : RowsPlain s) {children : List String} {scan : Scan}
    (hchildren : ∀ c ∈ children, ∃ parent, s.Child parent c) (hscan : Rows s scan.descendants) :
    (children.foldl (push s) scan).pending = children.reverse ++ scan.pending ∧
      (children.foldl (push s) scan).seen = scan.seen ∧
      (children.foldl (push s) scan).descendants.map IndexedThreadMetadata.id =
        scan.descendants.map IndexedThreadMetadata.id ++ children ∧
      Rows s (children.foldl (push s) scan).descendants := by
  induction children generalizing scan with
  | nil => exact ⟨rfl, rfl, (append_nil _).symm, hscan⟩
  | cons c rest ih =>
  obtain ⟨parent, metadata, hget, -⟩ := hchildren c mem_cons_self
  have hid := (hrows c metadata hget).1
  have hpush : push s scan c = { scan with
      descendants := scan.descendants ++ [metadata], pending := c :: scan.pending } := by
    unfold push
    rw [hget]
  have hnext : Rows s (push s scan c).descendants := by
    rw [hpush]
    intro row hrow
    rcases mem_concat.mp hrow with hrow | hrow
    · exact hscan row hrow
    · rw [hrow, hid]
      exact hget
  obtain ⟨hpend, hseen, hfound, hall⟩ :=
    ih (fun d hd => hchildren d (mem_cons_of_mem c hd)) hnext
  rw [foldl_cons]
  refine ⟨?_, ?_, ?_, hall⟩
  · rw [hpend, hpush, reverse_cons, append_assoc]
    rfl
  · rw [hseen, hpush]
  · rw [hfound, hpush, map_append, append_assoc]
    rw [map_cons, map_nil, hid]
    rfl

structure Scanning (s : ThreadIndex) (root : String) (scan : Scan) : Prop where
  traversal : Traversal s.Child root scan.pending (scan.descendants.map IndexedThreadMetadata.id)
  seen : ∀ c, c ∈ scan.seen ↔ c ∈ scan.descendants.map IndexedThreadMetadata.id
  rows : Rows s scan.descendants

lemma Scanning.start (s : ThreadIndex) (root : String) : Scanning s root ⟨[root], [], []⟩ where
  traversal := Traversal.start s.Child root
  seen _ := Iff.rfl
  rows _ h := nomatch h

variable {scan : Scan}

lemma Scanning.visit (h : IndexExact s) (hrows : RowsPlain s) {root parent : String}
    {rest : List String} (hscan : Scanning s root scan)
    (hpend : scan.pending = parent :: rest) :
    Scanning s root (s.visit parent { scan with pending := rest }) ∧
      (s.visit parent { scan with pending := rest }).pending.length + scan.descendants.length =
        rest.length + (s.visit parent { scan with pending := rest }).descendants.length := by
  obtain ⟨htrav, hseen, hfound⟩ := hscan
  set found := scan.descendants.map IndexedThreadMetadata.id with hids
  have hnew : ∀ c, c ∈ s.newChildren parent scan.seen ↔ s.Child parent c ∧ c ∉ found := by
    intro c
    rw [mem_newChildren h hrows, hseen]
  have hpushed := @foldl_push s hrows (s.newChildren parent scan.seen) { scan with
      pending := rest
      seen := ((s.keysOf parent).foldl (unseen (parentThreadPrefix parent).length)
        ([], scan.seen)).2 }
    (fun c hc => ⟨parent, ((hnew c).mp hc).1⟩) hfound
  change (s.visit parent { scan with pending := rest }).pending = _ ∧
    (s.visit parent { scan with pending := rest }).seen = _ ∧
    (s.visit parent { scan with pending := rest }).descendants.map _ = _ ∧
    Rows s (s.visit parent { scan with pending := rest }).descendants at hpushed
  generalize s.visit parent { scan with pending := rest } = next at hpushed ⊢
  obtain ⟨hnextPending, hnextSeen, hnextFound, hnextRows⟩ := hpushed
  dsimp only at hnextPending hnextSeen hnextFound
  rw [← hids] at hnextFound
  refine ⟨⟨?_, fun c => ?_, hnextRows⟩, ?_⟩
  · rw [hnextFound]
    rw [hpend] at htrav
    refine htrav.expand hnew (nodup_newChildren parent scan.seen) (fun x => ?_)
    rw [hnextPending, mem_append, mem_reverse]
  · rw [hnextSeen, hnextFound, mem_append, seen_visit, hseen]
  have hlen := congrArg length hnextFound
  rw [length_map, length_append, hids, length_map] at hlen
  rw [hnextPending, length_append, length_reverse, hlen]
  omega

variable {out : List IndexedThreadMetadata}

lemma scanFrom_of_le {fuel fuel' : Nat} (hle : fuel ≤ fuel')
    (h : s.scanFrom fuel scan = some out) : s.scanFrom fuel' scan = some out := by
  induction fuel generalizing fuel' scan with
  | zero => cases h
  | succ fuel ih =>
  obtain ⟨fuel', rfl⟩ : ∃ n, fuel' = n + 1 := ⟨fuel' - 1, by omega⟩
  unfold scanFrom at h ⊢
  cases hpend : scan.pending with
  | nil =>
    rw [hpend] at h
    exact h
  | cons parent rest =>
    rw [hpend] at h
    exact ih (by omega) h

variable {root : String}

lemma Scanning.length_le (hscan : Scanning s root scan) :
    scan.descendants.length ≤ s.threadMetadata.size := by
  have hsub : scan.descendants.map IndexedThreadMetadata.id ⊆
      s.threadMetadata.entries.map Prod.fst := by
    intro id hid
    obtain ⟨metadata, hmem, rfl⟩ := mem_map.mp hid
    exact mem_map.mpr ⟨(metadata.id, metadata),
      Table.mem_entries_iff.mpr (hscan.rows metadata hmem), rfl⟩
  have hle := (subperm_of_subset hscan.traversal.once hsub).length_le
  rwa [length_map, length_map] at hle

lemma Scanning.finish (h : IndexExact s) (hrows : RowsPlain s) {fuel : Nat}
    (hscan : Scanning s root scan)
    (hfuel : scan.pending.length + s.threadMetadata.size < fuel + scan.descendants.length) :
    ∃ out, s.scanFrom fuel scan = some out ∧
      Traversal s.Child root [] (out.map IndexedThreadMetadata.id) ∧ Rows s out := by
  have hlen := hscan.length_le
  induction fuel generalizing scan with
  | zero => omega
  | succ fuel ih =>
  cases hpend : scan.pending with
  | nil =>
    refine ⟨scan.descendants, ?_, hpend ▸ hscan.traversal, hscan.rows⟩
    rw [scanFrom, hpend]
  | cons parent rest =>
  obtain ⟨hnext, hcount⟩ := hscan.visit h hrows hpend
  have hnextLength := hnext.length_le
  rw [scanFrom, hpend]
  refine ih hnext ?_ hnextLength
  rw [hpend, length_cons] at hfuel
  omega

lemma threadDescendants_terminates (h : IndexExact s) (hrows : RowsPlain s) (root : String) :
    ∃ out, (∀ fuel ≥ s.threadMetadata.size + 2, threadDescendants fuel s root = some out) ∧
      Traversal s.Child root [] (out.map IndexedThreadMetadata.id) ∧ Rows s out := by
  have hfuel : [root].length + s.threadMetadata.size < s.threadMetadata.size + 2 + 0 := by
    rw [length_singleton]
    omega
  obtain ⟨out, hout, htrav, hfound⟩ := (Scanning.start s root).finish h hrows hfuel
  exact ⟨out, fun fuel hfuel => scanFrom_of_le hfuel hout, htrav, hfound⟩

structure ListsDescendants (s : ThreadIndex) (root : String) (out : List IndexedThreadMetadata) :
    Prop where
  rows : Rows s out
  once : (out.map IndexedThreadMetadata.id).Nodup
  proper : ∀ id, id ∈ out.map IndexedThreadMetadata.id ↔
    id ≠ root ∧ Relation.TransGen s.Child root id
  order : Ordered s.Child root (out.map IndexedThreadMetadata.id)

lemma lists_iff
    (h : Traversal s.Child root [] (out.map IndexedThreadMetadata.id)) (hrows : Rows s out) :
    ListsDescendants s root out ↔ ¬ Relation.TransGen s.Child root root := by
  constructor
  · intro hlists hcycle
    exact ((hlists.proper root).mp ((h.mem_iff root).mpr hcycle)).1 rfl
  intro hacyclic
  refine ⟨hrows, h.once, fun id => ?_, h.order⟩
  rw [h.mem_iff, iff_and_self]
  rintro hpath rfl
  exact hacyclic hpath

lemma indexExact_batches {batches : List (List IndexedThreadMetadata)}
    (hplain : ∀ values ∈ batches, ∀ metadata ∈ values, metadata.Plain) :
    IndexExact (exec putThreadMetadataBatch empty batches) ∧
      RowsPlain (exec putThreadMetadataBatch empty batches) := by
  induction batches using reverseRecOn with
  | nil => exact indexExact_empty
  | append_singleton batches values ih =>
  rw [exec_append]
  refine indexExact_putThreadMetadataBatch (ih ?_) (hplain values ?_)
  · exact fun batch hbatch => hplain batch (mem_append_left _ hbatch)
  · exact mem_concat_self

end ThreadIndex

open ThreadIndex

/-- The loop ends and lists the proper descendants, unless the root's parents lead back to it. -/
theorem parent_index_of_batches (batches : List (List IndexedThreadMetadata))
    (hplain : ∀ values ∈ batches, ∀ metadata ∈ values, metadata.Plain) :
    IndexExact (exec putThreadMetadataBatch empty batches) ∧
      ∀ root, ∃ out,
        (∀ fuel ≥ (exec putThreadMetadataBatch empty batches).threadMetadata.size + 2,
          threadDescendants fuel (exec putThreadMetadataBatch empty batches) root = some out) ∧
        (ListsDescendants (exec putThreadMetadataBatch empty batches) root out ↔
          ¬ Relation.TransGen (exec putThreadMetadataBatch empty batches).Child root root) := by
  obtain ⟨hexact, hrows⟩ := indexExact_batches hplain
  refine ⟨hexact, fun root => ?_⟩
  obtain ⟨out, hout, htrav, hfound⟩ := threadDescendants_terminates hexact hrows root
  exact ⟨out, hout, lists_iff htrav hfound⟩

def threadRow (id : String) (parentThreadId : Option String) : IndexedThreadMetadata :=
  ⟨id, parentThreadId, "/repo", 1, 1, "openai", "0.155.1", .str "cli", none, none, false, none⟩

lemma plain_threadRow {id : String} (hid : NulFree id) {parent : Option String}
    (hpar : ∀ p, parent = some p → NulFree p) : (threadRow id parent).Plain :=
  ⟨hid, hpar⟩

/-- A child is moved under its sibling, in a batch that names it twice. -/
def movedBatches : List (List IndexedThreadMetadata) :=
  [[threadRow "root" none, threadRow "a" (some "root"), threadRow "b" (some "root")],
    [threadRow "b" none, threadRow "b" (some "a")]]

theorem parent_index_of_batches_moved :
    IndexExact (exec putThreadMetadataBatch empty movedBatches) ∧
      ∀ root, ∃ out,
        (∀ fuel ≥ (exec putThreadMetadataBatch empty movedBatches).threadMetadata.size + 2,
          threadDescendants fuel (exec putThreadMetadataBatch empty movedBatches) root = some out) ∧
        (ListsDescendants (exec putThreadMetadataBatch empty movedBatches) root out ↔
          ¬ Relation.TransGen (exec putThreadMetadataBatch empty movedBatches).Child root root) := by
  refine parent_index_of_batches movedBatches (fun values hvals => ?_)
  have hfree : NulFree "root" ∧ NulFree "a" ∧ NulFree "b" := by decide
  have hsome : ∀ q : String, NulFree q → ∀ p, some q = some p → NulFree p := by
    rintro q hq p ⟨⟩
    exact hq
  obtain ⟨hroot, ha, hb⟩ := hfree
  simp only [movedBatches, mem_cons, not_mem_nil, or_false] at hvals
  rcases hvals with rfl | rfl
  · simp only [forall_mem_cons, not_mem_nil, false_imp_iff, implies_true, and_true]
    exact ⟨plain_threadRow hroot (fun _ h => (nomatch h)), plain_threadRow ha (hsome _ hroot),
      plain_threadRow hb (hsome _ hroot)⟩
  · simp only [forall_mem_cons, not_mem_nil, false_imp_iff, implies_true, and_true]
    exact ⟨plain_threadRow hb (fun _ h => (nomatch h)), plain_threadRow hb (hsome _ ha)⟩

def cyclicBatches : List (List IndexedThreadMetadata) :=
  [[threadRow "a" (some "b"), threadRow "b" (some "a")]]

theorem cyclic_root_is_listed :
    ((threadDescendants 4 (exec putThreadMetadataBatch empty cyclicBatches) "a").map
      (fun out => out.map IndexedThreadMetadata.id) = some ["b", "a"]) ∧
    ¬ ∃ out, threadDescendants 4 (exec putThreadMetadataBatch empty cyclicBatches) "a" = some out ∧
      ListsDescendants (exec putThreadMetadataBatch empty cyclicBatches) "a" out := by
  have hlist : (threadDescendants 4 (exec putThreadMetadataBatch empty cyclicBatches) "a").map
      (fun out => out.map IndexedThreadMetadata.id) = some ["b", "a"] := by decide
  refine ⟨hlist, ?_⟩
  rintro ⟨out, hout, hlists⟩
  rw [hout] at hlist
  have hids : out.map IndexedThreadMetadata.id = ["b", "a"] := Option.some.inj hlist
  have hmem : "a" ∈ out.map IndexedThreadMetadata.id := by
    rw [hids]
    exact mem_cons_of_mem _ mem_cons_self
  exact ((hlists.proper "a").mp hmem).1 rfl

end CodeWide.Store
