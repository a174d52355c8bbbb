import CodeWide.Agent.ListCursor

/-!
# The pages of a merged list

A window takes the rows between two bounds, and a row lies `Past` a bound when a later page
lists it.
-/

namespace CodeWide.Listing

open Lib List Row
open Prod (fst snd)

/-! ## Bounds and windows -/

def Past (d : SortDirection) (bound : Option Int) (key : Int) : Prop :=
  ∀ edge, bound = some edge → d.before edge key

instance (d : SortDirection) (bound : Option Int) (key : Int) : Decidable (Past d bound key) :=
  match bound with
  | none => isTrue fun _ h => (by cases h)
  | some edge => decidable_of_iff (d.before edge key)
      ⟨fun h _ heq => Option.some.inj heq ▸ h, fun h => h edge rfl⟩

def Within (d : SortDirection) (edge : Option Int) (key : Int) : Prop :=
  ∀ last, edge = some last → ¬ d.before last key

section

variable {query : NonLeadQuery} {previous : Option Int} {rawLead : LeadPage} {d : SortDirection}

lemma past_none (key : Int) : Past d none key := fun _ h => (by cases h)

lemma past_some_iff {edge key : Int} : Past d (some edge) key ↔ d.before edge key :=
  ⟨fun h => h edge rfl, fun h _ heq => Option.some.inj heq ▸ h⟩

lemma window_contains (key : Int) : (window previous query rawLead).window.contains key = true ↔
      Past query.direction previous key ∧
        Within query.direction (window previous query rawLead).edge key := by
  unfold window
  cases query.direction with
  | asc =>
    simp only
    generalize clamped max _ previous = edge
    cases previous <;> cases edge <;> simp [SortWindow.contains, Past, Within, SortDirection.before]
  | desc =>
  simp only
  generalize clamped min _ previous = edge
  cases previous <;> cases edge <;>
    simp [SortWindow.contains, Past, Within, SortDirection.before, and_comm]

lemma clamped_eq_some {pick : Int → Int → Int} {edge : Option Int} {last bound : Int}
    (h : clamped pick edge (some bound) = some last) : ∃ new, last = pick new bound := by
  cases edge with
  | none => cases h
  | some new => exact ⟨new, (Option.some.inj h).symm⟩

lemma window_clamped {edge bound : Int}
    (hedge : (window previous query rawLead).edge = some edge) (hbound : previous = some bound) :
    ¬ query.direction.before edge bound := by
  subst hbound
  unfold window at hedge
  cases hdir : query.direction with
  | asc =>
    simp only [hdir] at hedge
    obtain ⟨new, rfl⟩ := clamped_eq_some hedge
    exact not_lt.mpr (le_max_right new bound)
  | desc =>
  simp only [hdir] at hedge
  obtain ⟨new, rfl⟩ := clamped_eq_some hedge
  exact not_lt.mpr (min_le_right new bound)

lemma leadExhausted_window :
    (window previous query rawLead).leadExhausted = rawLead.nextCursor.isNone := by
  unfold window
  cases query.direction <;> rfl

lemma edge_of_exhausted (h : rawLead.nextCursor = none) :
    (window previous query rawLead).edge = none := by
  unfold window
  cases query.direction <;> simp [h, clamped]

lemma edge_of_keyed (h : rawLead.nextCursor ≠ none) (hkeys : leadKeys query rawLead ≠ []) :
    (window previous query rawLead).edge ≠ none := by
  obtain ⟨next, hnext⟩ := Option.ne_none_iff_exists'.mp h
  unfold window
  cases query.direction with
  | asc =>
    obtain ⟨last, hlast⟩ : ∃ last, (leadKeys query rawLead).max? = some last :=
      Option.ne_none_iff_exists'.mp fun hnone => hkeys (max?_eq_none_iff.mp hnone)
    cases previous <;> simp [hnext, hlast, clamped]
  | desc =>
  obtain ⟨last, hlast⟩ : ∃ last, (leadKeys query rawLead).min? = some last :=
    Option.ne_none_iff_exists'.mp fun hnone => hkeys (min?_eq_none_iff.mp hnone)
  cases previous <;> simp [hnext, hlast, clamped]

end

/-! ## The rows of a window -/

section

variable (lower : String → String) (query : NonLeadQuery)

def windowRows (window : SortWindow) (provider : Provider) : List AgentThread :=
  ordered lower provider.rows (listParams query (some window) none)

def leftFrom (window : SortWindow) (provider : Provider) : List AgentThread :=
  ((windowRows lower query window provider).drop (maxNonLeadPages * nonLeadPageSize)).filter
    (admitsCwd query)

def leftBehind (window : SortWindow) (providers : List Provider) : List AgentThread :=
  (providers.filter (asksFor query)).flatMap (leftFrom lower query window)

def matchesFrom (provider : Provider) : List AgentThread :=
  ((provider.rows.filter fun row => row.matches lower (listParams query none none)).map
    (·.thread)).filter (admitsCwd query)

def matching (providers : List Provider) : List AgentThread :=
  (providers.filter (asksFor query)).flatMap (matchesFrom lower query)

end

section

variable {lower : String → String} {query : NonLeadQuery}

lemma fetchFrom_eq (window : SortWindow) (provider : Provider) :
    fetchFrom lower query window provider = (((windowRows lower query window provider).take
          (maxNonLeadPages * nonLeadPageSize)).filter (admitsCwd query),
        decide (maxNonLeadPages * nonLeadPageSize <
          (windowRows lower query window provider).length)) := by
  have hlist : ∀ cursor : Option CursorPosition, (∀ position, cursor = some position →
        position.sortKey = query.sortKey ∧ position.direction = query.direction) →
      providerPage lower query window provider cursor =
        Keyset.page CursorPosition.behind (.of query.sortKey query.direction) nonLeadPageSize
          (windowRows lower query window provider) cursor := by
    intro cursor hcurs
    have hsort : (cursor.all fun position => decide (position.sortKey = query.sortKey ∧
        position.direction = query.direction)) = true := by
      cases cursor with
      | none => rfl
      | some position => exact decide_eq_true (hcurs position rfl)
    have hlisted : list lower provider.rows (listParams query (some window) cursor) =
        some ⟨(Keyset.page CursorPosition.behind (.of query.sortKey query.direction)
            nonLeadPageSize (windowRows lower query window provider) cursor).1,
          (Keyset.page CursorPosition.behind (.of query.sortKey query.direction)
            nonLeadPageSize (windowRows lower query window provider) cursor).2⟩ := if_pos hsort
    rw [providerPage, hlisted]
  have hnext : ∀ (cursor : Option CursorPosition) (position : CursorPosition),
      (Keyset.page CursorPosition.behind (.of query.sortKey query.direction) nonLeadPageSize
        (windowRows lower query window provider) cursor).2 = some position →
      position.sortKey = query.sortKey ∧ position.direction = query.direction := by
    intro cursor position hnext
    simp only [Keyset.page] at hnext
    split at hnext
    · obtain ⟨last, -, rfl⟩ := Option.map_eq_some_iff.mp hnext
      exact ⟨rfl, rfl⟩
    · cases hnext
  have hsorted : (windowRows lower query window provider).Pairwise fun a b =>
      (CursorPosition.of query.sortKey query.direction a).behind b = true :=
    pairwise_ordered provider.nodup (listParams query (some window) none)
  have hrows : windowRows lower query window provider =
      [] ++ windowRows lower query window provider := rfl
  have hrest : Keyset.after CursorPosition.behind (windowRows lower query window provider) none =
      windowRows lower query window provider := rfl
  have hread := Keyset.readPages_page (fun _ _ => Iff.rfl) behind_irrefl behind_asymm hsorted
    (show 0 < nonLeadPageSize by decide) 9 hrows hrest
  unfold fetchFrom
  simp only
  rw [Keyset.readPages_congr hlist hnext maxNonLeadPages fun _ h => (by cases h)]
  exact congrArg (fun p : List AgentThread × Bool => (p.1.filter (admitsCwd query), p.2)) hread

lemma perm_fetchFrom (window : SortWindow) (provider : Provider) :
    ((fetchFrom lower query window provider).1 ++ leftFrom lower query window provider).Perm
      ((matchesFrom lower query provider).filter fun thread =>
        window.contains (sortValue thread query.sortKey)) := by
  have hrows : (windowRows lower query window provider).Perm
      (((provider.rows.filter fun row => row.matches lower (listParams query none none)).map
        (·.thread)).filter fun thread => window.contains (sortValue thread query.sortKey)) := by
    refine (perm_ordered _ _).trans (List.Perm.of_eq ?_)
    rw [filter_map, filter_filter]
    refine congrArg _ (filter_congr fun row _ => ?_)
    rw [Bool.and_comm]
    rfl
  rw [fetchFrom_eq, leftFrom, ← filter_append, take_append_drop]
  refine (hrows.filter _).trans (List.Perm.of_eq ?_)
  rw [matchesFrom, filter_filter, filter_filter]
  exact filter_congr fun thread _ => Bool.and_comm _ _

variable {providers : List Provider}

lemma key_of_mem_fetchNonLead {window : SortWindow}
    {entry : Int × AgentThread} (h : entry ∈ (fetchNonLead lower query window providers).1) :
    entry.1 = sortValue entry.2 query.sortKey := by
  obtain ⟨thread, -, rfl⟩ := mem_map.mp h
  rfl

variable (lower query) in
lemma perm_fetchNonLead (window : SortWindow) (providers : List Provider) :
    ((fetchNonLead lower query window providers).1.map Prod.snd ++
      leftBehind lower query window providers).Perm
      ((matching lower query providers).filter fun thread =>
        window.contains (sortValue thread query.sortKey)) := by
  have hfetched : (fetchNonLead lower query window providers).1.map Prod.snd =
      (providers.filter (asksFor query)).flatMap
        fun provider => (fetchFrom lower query window provider).1 := by
    rw [fetchNonLead, map_map]
    exact map_id _
  rw [hfetched, leftBehind, matching, filter_flatMap]
  exact (flatMap_append_perm _ _ _).trans
    (List.Perm.flatMap_left _ fun provider _ => perm_fetchFrom window provider)

lemma leftBehind_of_complete {window : SortWindow}
    (h : (fetchNonLead lower query window providers).2 = false) :
    leftBehind lower query window providers = [] := by
  rw [leftBehind, flatMap_eq_nil_iff]
  intro provider hprov
  have hcomp : ¬ (fetchFrom lower query window provider).2 = true :=
    any_eq_false.mp h provider hprov
  rw [fetchFrom_eq, decide_eq_true_eq] at hcomp
  rw [leftFrom, drop_eq_nil_of_le (not_lt.mp hcomp)]
  rfl

end

/-! ## One page of the listing -/

section

variable (key : ThreadSortKey) (d : SortDirection)

def pending (bound : Option Int) (all : List AgentThread) : List AgentThread :=
  all.filter fun thread => Past d bound (sortValue thread key)

lemma pending_none (all : List AgentThread) : pending key d none all = all :=
  filter_eq_self.mpr fun _ _ => decide_eq_true (past_none _)

variable {key d}

/-- A page lists what was past the old bound and is not past the new one. -/
lemma pending_advance {all extra left : List AgentThread} {previous bound : Option Int}
    {window : SortWindow}
    (hperm : (extra ++ left).Perm (all.filter fun thread => window.contains (sortValue thread key)))
    (hwindow : ∀ thread ∈ all, window.contains (sortValue thread key) = true →
      Past d previous (sortValue thread key))
    (hextra : ∀ thread ∈ extra, ¬ Past d bound (sortValue thread key))
    (hleft : ∀ thread ∈ left, Past d bound (sortValue thread key))
    (hout : ∀ thread ∈ all, Past d previous (sortValue thread key) →
      window.contains (sortValue thread key) = false → Past d bound (sortValue thread key))
    (hbound : ∀ thread ∈ all, Past d bound (sortValue thread key) →
      Past d previous (sortValue thread key)) :
    (pending key d previous all).Perm (extra ++ pending key d bound all) := by
  let inside (thread : AgentThread) : Bool := window.contains (sortValue thread key)
  let past (thread : AgentThread) : Bool := decide (Past d bound (sortValue thread key))
  have hins : (pending key d previous all).filter inside = all.filter inside := by
    rw [pending, filter_filter]
    refine filter_congr fun thread hthr => ?_
    by_cases h : inside thread = true
    · rw [h, Bool.true_and]
      exact decide_eq_true (hwindow thread hthr h)
    · rw [Bool.eq_false_iff.mpr h, Bool.false_and]
  have hpast : (pending key d previous all).filter past = pending key d bound all := by
    rw [pending, filter_filter]
    refine filter_congr fun thread hthr => ?_
    by_cases h : Past d bound (sortValue thread key)
    · simp only [past, h, hbound thread hthr h, decide_true, Bool.true_and]
    · simp only [past, h, decide_false, Bool.false_and]
  have houtside : ((pending key d previous all).filter (!inside ·)).filter past =
      (pending key d previous all).filter (!inside ·) := by
    refine filter_eq_self.mpr fun thread hthr => ?_
    obtain ⟨hprev, hnot⟩ := mem_filter.mp hthr
    obtain ⟨hall, hold⟩ := mem_filter.mp hprev
    exact decide_eq_true (hout thread hall (of_decide_eq_true hold) (by simpa using hnot))
  have hkept : (extra ++ left).filter past = left := by
    rw [filter_append, filter_eq_self.mpr fun thread h => decide_eq_true (hleft thread h),
      filter_eq_nil_iff.mpr fun thread h => ?_, nil_append]
    exact fun hp => hextra thread h (of_decide_eq_true hp)
  have hsplit := (filter_append_perm inside (pending key d previous all)).symm
  rw [hins] at hsplit
  have hlater : (pending key d bound all).Perm
      (left ++ (pending key d previous all).filter (!inside ·)) := by
    rw [← hpast]
    refine (hsplit.filter past).trans ?_
    rw [filter_append, houtside]
    exact ((hperm.symm.filter past).trans (List.Perm.of_eq hkept)).append_right _
  refine (hsplit.trans (hperm.symm.append_right _)).trans ?_
  rw [append_assoc]
  exact hlater.symm.append_left _

/-! ## Merging -/

def Row.keyBy (sortKey : ThreadSortKey) : Row → Option Int
  | .lead row => rowKey row sortKey
  | .thread listed => some (sortValue listed sortKey)

variable {extra : List (Int × AgentThread)}

lemma perm_mergeRows (lead : List LeadRow) (extra : List (Int × AgentThread)) :
    (mergeRows key d lead extra).Perm
      (lead.map Row.lead ++ (extra.map Prod.snd).map Row.thread) := by
  induction lead generalizing extra with
  | nil =>
    rw [mergeRows, map_map]
    exact List.Perm.refl _
  | cons row lead ih =>
  rw [mergeRows]
  split
  · exact (ih extra).cons _
  next k _ =>
  have hsplit : (extra.takeWhile fun entry => d.before entry.1 k).map (fun entry => thread entry.2) ++
      ((extra.dropWhile fun entry => d.before entry.1 k).map snd).map thread =
      (extra.map snd).map thread := by
    rw [map_map, map_map]
    exact (map_append ..).symm.trans (congrArg (map (thread ∘ snd)) takeWhile_append_dropWhile)
  refine perm_middle.trans ((((ih _).append_left _).trans ?_).cons _)
  rw [← hsplit]
  exact perm_append_comm_assoc _ _ _

def Sorted (d : SortDirection) (keys : List Int) : Prop := keys.Pairwise fun a b => ¬ d.before b a

lemma sorted_mergeRows {lead : List LeadRow} (hlead : Sorted d (lead.filterMap (rowKey · key)))
    (hextra : Sorted d (extra.map Prod.fst))
    (hkeys : ∀ entry ∈ extra, entry.1 = sortValue entry.2 key) :
    Sorted d ((mergeRows key d lead extra).filterMap (Row.keyBy key)) := by
  induction lead generalizing extra with
  | nil =>
    have hmap : (extra.map fun entry => thread entry.2).filterMap (keyBy key) = extra.map fst := by
      rw [filterMap_map, ← filterMap_eq_map]
      exact filterMap_congr fun entry hentry => congrArg some (hkeys entry hentry).symm
    rw [mergeRows, hmap]
    exact hextra
  | cons row lead ih =>
  rw [mergeRows]
  split
  · next hrow =>
    rw [filterMap_cons_none (f := (rowKey · key)) hrow] at hlead
    rw [filterMap_cons_none (show keyBy key (.lead row) = none from hrow)]
    exact ih hlead hextra hkeys
  next k hrow =>
  rw [filterMap_cons_some (f := (rowKey · key)) hrow] at hlead
  obtain ⟨hfirst, hlead⟩ := pairwise_cons.mp hlead
  have hsplit : extra = (extra.takeWhile fun entry => d.before entry.1 k) ++
      extra.dropWhile fun entry => d.before entry.1 k := takeWhile_append_dropWhile.symm
  have htaken : ∀ entry ∈ extra.takeWhile (fun entry => d.before entry.1 k),
      d.before entry.1 k := fun entry h => of_decide_eq_true (all_eq_true.mp all_takeWhile entry h)
  have hhead : ∀ entry ∈ (extra.dropWhile fun entry => decide (d.before entry.1 k)).head?,
      ¬ d.before entry.1 k := by
    intro entry hentry
    have hnot := head?_dropWhile_not (fun entry : Int × AgentThread =>
      decide (d.before entry.1 k)) extra
    rw [Option.mem_def.mp hentry] at hnot
    simpa using hnot
  generalize extra.takeWhile (fun entry => decide (d.before entry.1 k)) = front at hsplit htaken ⊢
  generalize extra.dropWhile (fun entry => decide (d.before entry.1 k)) = rest at hsplit hhead ⊢
  subst hsplit
  rw [Sorted, map_append, pairwise_append] at hextra
  obtain ⟨hfront, hrest, hcross⟩ := hextra
  have hrestKeys : ∀ entry ∈ rest, ¬ d.before entry.1 k := by
    intro entry hentry
    cases rest with
    | nil => cases hentry
    | cons first rest =>
    have hfirst := hhead first rfl
    rcases mem_cons.mp hentry with rfl | hentry
    · exact hfirst
    · exact d.not_before_trans hfirst ((pairwise_cons.mp hrest).1 entry.1 (mem_map_of_mem hentry))
  have hmerged := ih hlead hrest fun entry hentry =>
    hkeys entry (mem_append_right front hentry)
  have hlater : ∀ b ∈ (mergeRows key d lead rest).filterMap (keyBy key),
      b ∈ lead.filterMap (rowKey · key) ∨ b ∈ rest.map fst := by
    intro b hb
    obtain ⟨merged, hmem, hb⟩ := mem_filterMap.mp hb
    rcases mem_append.mp ((perm_mergeRows lead rest).mem_iff.mp hmem) with h | h
    · obtain ⟨leadRow, hleadRow, rfl⟩ := mem_map.mp h
      exact .inl (mem_filterMap.mpr ⟨leadRow, hleadRow, hb⟩)
    rw [map_map] at h
    obtain ⟨entry, hentry, rfl⟩ := mem_map.mp h
    have hkey := hkeys entry (mem_append_right front hentry)
    exact .inr (mem_map.mpr ⟨entry, hentry, hkey.trans (Option.some.inj hb)⟩)
  have hfrontMap : (front.map fun entry => thread entry.2).filterMap (keyBy key) =
      front.map fst := by
    rw [filterMap_map, ← filterMap_eq_map]
    exact filterMap_congr fun entry hentry =>
      congrArg some (hkeys entry (mem_append_left rest hentry)).symm
  rw [Sorted, filterMap_append, hfrontMap,
    filterMap_cons_some (show keyBy key (.lead row) = some k from hrow),
    pairwise_append]
  have htail : ∀ b ∈ (mergeRows key d lead rest).filterMap (keyBy key), ¬ d.before b k := by
    intro b hb
    rcases hlater b hb with h | h
    · exact hfirst b h
    · obtain ⟨entry, hentry, rfl⟩ := mem_map.mp h
      exact hrestKeys entry hentry
  refine ⟨hfront, pairwise_cons.mpr ⟨htail, hmerged⟩, ?_⟩
  intro a ha b hb
  obtain ⟨entry, hentry, rfl⟩ := mem_map.mp ha
  have hle : ¬ d.before k entry.1 := fun h =>
    d.before_irrefl _ (d.before_trans h (htaken entry hentry))
  rcases mem_cons.mp hb with rfl | hb
  · exact hle
  · exact d.not_before_trans hle (htail b hb)

end

/-! ## A page of the listing -/

section

variable {query : NonLeadQuery} {lower : String → String} {previous : Option Int}
  {rawLead : LeadPage} {providers : List Provider}

/-- A page can be followed: the rows of another provider that are left come after those fetched. -/
def Followable (lower : String → String) (query : NonLeadQuery) (previous : Option Int)
    (rawLead : LeadPage) (providers : List Provider) : Prop :=
  let covered := window previous query rawLead
  let fetched := fetchNonLead lower query covered.window providers
  let left := leftBehind lower query covered.window providers
  (rawLead.nextCursor ≠ none → leadKeys query rawLead ≠ [] ∨ matching lower query providers = []) ∧
  (∀ entry ∈ fetched.1, ∀ thread ∈ left,
    query.direction.before entry.1 (sortValue thread query.sortKey)) ∧
  (fetched.2 = true → fetched.1 = [] → rawLead.nextCursor ≠ none ∧ left = [])

instance : Decidable (Followable lower query previous rawLead providers) :=
  inferInstanceAs (Decidable (_ ∧ _ ∧ _))

def newBound (lower : String → String) (query : NonLeadQuery) (previous : Option Int)
    (rawLead : LeadPage) (providers : List Provider) : Option Int :=
  let covered := window previous query rawLead
  let fetched := fetchNonLead lower query covered.window providers
  if fetched.2 then
    ((sortExtra query.direction fetched.1).getLast?.map Prod.fst).or covered.edge
  else covered.edge

lemma perm_sortExtra (d : SortDirection) (extra : List (Int × AgentThread)) :
    (sortExtra d extra).Perm extra := perm_insertionSort _ _

lemma sorted_sortExtra (d : SortDirection) (extra : List (Int × AgentThread)) :
    Sorted d ((sortExtra d extra).map Prod.fst) := by
  have htotal : Std.Total fun left right : Int × AgentThread => ¬ d.before right.1 left.1 :=
    ⟨fun a b => d.not_before_total a.1 b.1⟩
  have htrans : IsTrans (Int × AgentThread) fun left right => ¬ d.before right.1 left.1 :=
    ⟨fun _ _ _ hab hbc => d.not_before_trans hab hbc⟩
  exact pairwise_map.mpr (pairwise_insertionSort _ _)

variable {extra : List (Int × AgentThread)}

lemma not_before_of_last {d : SortDirection}
    {last : Int × AgentThread} (h : (sortExtra d extra).getLast? = some last) :
    last ∈ extra ∧ ∀ entry ∈ extra, ¬ d.before last.1 entry.1 := by
  have hmem (entry : Int × AgentThread) : entry ∈ sortExtra d extra ↔ entry ∈ extra :=
    (perm_sortExtra d extra).mem_iff
  have hsorted := pairwise_map.mp (sorted_sortExtra d extra)
  obtain ⟨init, hinit⟩ := getLast?_eq_some_iff.mp h
  refine ⟨(hmem last).mp (hinit ▸ mem_append_right init mem_cons_self), ?_⟩
  intro entry hentry
  rw [hinit, pairwise_append] at hsorted
  rcases mem_append.mp (hinit ▸ (hmem entry).mpr hentry) with hin | hin
  · exact hsorted.2.2 entry hin last mem_cons_self
  · rw [mem_singleton.mp hin]
    exact d.before_irrefl _

lemma sortExtra_eq_nil {d : SortDirection} : sortExtra d extra = [] ↔ extra = [] :=
  ⟨fun h => perm_nil.mp (h ▸ (perm_sortExtra d extra).symm),
    fun h => perm_nil.mp (h ▸ perm_sortExtra d extra)⟩

lemma pending_of_window (hleft : leftBehind lower query (window previous query rawLead).window
      providers = [])
    (hedge : (window previous query rawLead).edge = none) :
    (pending query.sortKey query.direction previous (matching lower query providers)).Perm
      ((fetchNonLead lower query (window previous query rawLead).window providers).1.map
        Prod.snd) := by
  have hperm := perm_fetchNonLead lower query (window previous query rawLead).window providers
  rw [hleft, append_nil] at hperm
  refine (List.Perm.of_eq ?_).trans hperm.symm
  refine filter_congr fun thread _ => ?_
  refine Bool.eq_iff_iff.mpr ?_
  rw [decide_eq_true_eq, window_contains, hedge]
  exact ⟨fun h => ⟨h, fun _ hnone => (by cases hnone)⟩, And.left⟩

lemma pending_step (h : Followable lower query previous rawLead providers)
    (hnext : rawLead.nextCursor ≠ none ∨
      (fetchNonLead lower query (window previous query rawLead).window providers).2 = true) :
    (pending query.sortKey query.direction previous (matching lower query providers)).Perm
      ((fetchNonLead lower query (window previous query rawLead).window providers).1.map Prod.snd ++
        pending query.sortKey query.direction (newBound lower query previous rawLead providers)
          (matching lower query providers)) := by
  obtain ⟨hkeyed, hafter, hempty⟩ := h
  have hperm := perm_fetchNonLead lower query (window previous query rawLead).window providers
  have hins : ∀ entry ∈ (fetchNonLead lower query (window previous query rawLead).window
      providers).1, (window previous query rawLead).window.contains entry.1 = true := by
    intro entry hentry
    have hmem := hperm.mem_iff.mp (mem_append_left _ (mem_map_of_mem hentry))
    rw [key_of_mem_fetchNonLead hentry]
    exact (mem_filter.mp hmem).2
  have hkeys : ∀ thread ∈ (fetchNonLead lower query (window previous query rawLead).window
      providers).1.map snd, ∃ entry ∈ (fetchNonLead lower query
        (window previous query rawLead).window providers).1,
        entry.1 = sortValue thread query.sortKey := by
    intro thread hthr
    obtain ⟨entry, hentry, rfl⟩ := mem_map.mp hthr
    exact ⟨entry, hentry, key_of_mem_fetchNonLead hentry⟩
  by_cases hnone : matching lower query providers = []
  · have hfetched : (fetchNonLead lower query (window previous query rawLead).window
        providers).1.map snd = [] := by
      rw [hnone] at hperm
      exact (append_eq_nil_iff.mp (perm_nil.mp hperm)).1
    rw [hnone, hfetched]
    exact List.Perm.refl _
  have hout (bound : Int) (hbound : ∀ edge, (window previous query rawLead).edge = some edge →
      ¬ query.direction.before edge bound) (thread : AgentThread)
      (hpast : Past query.direction previous (sortValue thread query.sortKey))
      (hnot : (window previous query rawLead).window.contains (sortValue thread query.sortKey) =
        false) : Past query.direction (some bound) (sortValue thread query.sortKey) := by
    have hwin : ¬ Within query.direction (window previous query rawLead).edge
        (sortValue thread query.sortKey) := fun hwin =>
      Bool.eq_false_iff.mp hnot ((window_contains _).mpr ⟨hpast, hwin⟩)
    simp only [Within, not_forall, not_not] at hwin
    obtain ⟨edge, hedge, hbef⟩ := hwin
    exact past_some_iff.mpr (query.direction.before_of_not_of_before (hbound edge hedge) hbef)
  -- a truncated page that has rows: its last row is the new bound
  by_cases htrunc : (fetchNonLead lower query (window previous query rawLead).window
      providers).2 = true ∧ (fetchNonLead lower query (window previous query rawLead).window
      providers).1 ≠ []
  · obtain ⟨htrunc, hrows⟩ := htrunc
    obtain ⟨last, hlast⟩ : ∃ last, (sortExtra query.direction (fetchNonLead lower query
        (window previous query rawLead).window providers).1).getLast? = some last :=
      Option.ne_none_iff_exists'.mp fun h =>
        hrows (sortExtra_eq_nil.mp (getLast?_eq_none_iff.mp h))
    obtain ⟨hmem, hmax⟩ := not_before_of_last hlast
    obtain ⟨hlastPast, hlastWithin⟩ := (window_contains _).mp (hins last hmem)
    have hbound : newBound lower query previous rawLead providers = some last.1 := by
      unfold newBound
      simp only
      rw [if_pos htrunc, hlast]
      rfl
    rw [hbound]
    refine pending_advance hperm (fun thread _ hin => ((window_contains _).mp hin).1) ?_ ?_ ?_ ?_
    · intro thread hthr
      obtain ⟨entry, hentry, hkey⟩ := hkeys thread hthr
      rw [past_some_iff, ← hkey]
      exact hmax entry hentry
    · intro thread hthr
      exact past_some_iff.mpr (hafter last hmem thread hthr)
    · intro thread _ hpast hnot
      exact hout last.1 (fun edge hedge => hlastWithin edge hedge) thread hpast hnot
    · intro thread _ hpast edge hedge
      exact query.direction.before_trans (hlastPast edge hedge) (past_some_iff.mp hpast)
  -- any other page: its window's edge is the new bound
  have hbound : newBound lower query previous rawLead providers =
      (window previous query rawLead).edge := by
    unfold newBound
    simp only
    split
    · next h =>
      rw [sortExtra_eq_nil.mpr (not_not.mp fun hrows => htrunc ⟨h, hrows⟩)]
      rfl
    · rfl
  have hmore : rawLead.nextCursor ≠ none ∧ leftBehind lower query
      (window previous query rawLead).window providers = [] := by
    cases h : (fetchNonLead lower query (window previous query rawLead).window providers).2 with
    | false => exact ⟨hnext.resolve_right (by simp [h]), leftBehind_of_complete h⟩
    | true => exact hempty h (not_not.mp fun hrows => htrunc ⟨h, hrows⟩)
  have hsome : (window previous query rawLead).edge ≠ none :=
    edge_of_keyed hmore.1 ((hkeyed hmore.1).resolve_right hnone)
  obtain ⟨edge, hedge⟩ := Option.ne_none_iff_exists'.mp hsome
  rw [hbound, hedge]
  refine pending_advance hperm (fun thread _ hin => ((window_contains _).mp hin).1) ?_ ?_ ?_ ?_
  · intro thread hthr
    obtain ⟨entry, hentry, hkey⟩ := hkeys thread hthr
    rw [past_some_iff, ← hkey]
    exact ((window_contains _).mp (hins entry hentry)).2 edge hedge
  · intro thread hthr
    rw [hmore.2] at hthr
    cases hthr
  · intro thread _ hpast hnot
    refine hout edge (fun other hother => ?_) thread hpast hnot
    rw [← Option.some.inj (hedge.symm.trans hother)]
    exact query.direction.before_irrefl edge
  · intro thread _ hpast bound hbound
    exact query.direction.before_of_not_of_before (window_clamped hedge hbound)
      (past_some_iff.mp hpast)

end

/-! ## Following the cursors -/

lemma decodeCursor_encodeCursor {codec : Codec} (h : codec.Lawful) (cursor : CompositeCursor) :
    ∃ text, encodeCursor codec cursor = some text ∧ decodeCursor codec text = some cursor := by
  obtain ⟨bytes, hbytes⟩ := h.serialised cursor
  refine ⟨compositePrefix ++ Base64.encode bytes, by rw [encodeCursor, hbytes]; rfl, ?_⟩
  have hstrip : stripCompositePrefix (compositePrefix ++ Base64.encode bytes) =
      some (Base64.encode bytes) := by
    rw [stripCompositePrefix, String.toList_append, if_pos (prefix_append _ _),
      drop_left, String.ofList_toList]
  rw [decodeCursor, hstrip, Option.bind_some, Base64.decode_encode, Option.bind_some,
    h.fromSlice_toVec cursor bytes hbytes]

namespace Paging

variable {l : Paging} {query : NonLeadQuery}

def bound (l : Paging) (cursor : Option String) : Option Int := (cursorOf l.codec cursor).bound

/-- A request can be followed: the lead's own cursor is not taken for a composite one. -/
def Meets (l : Paging) (cursor : Option String) : Prop :=
  match nonLeadQuery l.params with
  | none => ∀ next, (l.rawLead cursor).nextCursor = some next → decodeCursor l.codec next = none
  | some query => Followable l.lower query (l.bound cursor) (l.rawLead cursor) l.providers

def admitted (l : Paging) : List AgentThread :=
  match nonLeadQuery l.params with
  | none => []
  | some query => matching l.lower query l.providers

def shownRows (l : Paging) (pages : List LeadPage) : List LeadRow :=
  pages.flatMap fun page => page.data.filter l.shown

def Remaining (l : Paging) (cursor : Option String) (pages : List LeadPage) : Prop :=
  match (l.plan cursor).leadCursor with
  | some leadCursor => l.LeadPages leadCursor pages
  | none => pages = []

structure Split (l : Paging) (cursor : Option String) (pages rest : List LeadPage) : Prop where
  rows : l.shownRows pages = (l.rawLead cursor).data.filter l.shown ++ l.shownRows rest
  mem : (l.rawLead cursor).data = [] ∨ l.rawLead cursor ∈ pages
  rest_mem : ∀ page ∈ rest, page ∈ pages
  last : (l.rawLead cursor).nextCursor = none → rest = []
  more : ∀ next, (l.rawLead cursor).nextCursor = some next → l.LeadPages (some next) rest
  shorter : rest.length < pages.length ∨ (l.rawLead cursor).nextCursor = none ∧ pages = []

variable {cursor : Option String}

variable {pages : List LeadPage}

lemma exists_split (h : l.Remaining cursor pages) : ∃ rest, l.Split cursor pages rest := by
  unfold Remaining at h
  have hraw : l.rawLead cursor = match (l.plan cursor).leadCursor with
      | some leadCursor => l.lead leadCursor
      | none => ⟨[], none⟩ := rfl
  cases hlead : (l.plan cursor).leadCursor with
  | none =>
    simp only [hlead] at h hraw
    subst h
    refine ⟨[], ⟨?_, .inl ?_, fun _ h => h, fun _ => rfl, ?_, .inr ⟨?_, rfl⟩⟩⟩
    · rw [hraw]
      rfl
    · rw [hraw]
    · intro next hnext
      rw [hraw] at hnext
      cases hnext
    · rw [hraw]
  | some leadCursor =>
  simp only [hlead] at h hraw
  cases h with
  | last hlast =>
    refine ⟨[], ⟨?_, .inr ?_, fun _ h => (by cases h), fun _ => rfl, ?_, .inl Nat.one_pos⟩⟩
    · rw [hraw]
      rfl
    · rw [hraw]
      exact mem_cons_self
    · intro next hnext
      rw [hraw, hlast] at hnext
      cases hnext
  | @more _ next rest hmore hrest =>
  refine ⟨rest, ⟨?_, .inr ?_, fun _ h => mem_cons_of_mem _ h, ?_, ?_, .inl ?_⟩⟩
  · rw [hraw]
    rfl
  · rw [hraw]
    exact mem_cons_self
  · intro hlast
    rw [hraw, hmore] at hlast
    cases hlast
  · intro other hother
    rw [hraw, hmore] at hother
    cases hother
    exact hrest
  · exact Nat.lt_succ_self _

def fetched (l : Paging) (query : NonLeadQuery) (cursor : Option String) :
    List (Int × AgentThread) × Bool :=
  fetchNonLead l.lower query (window (l.bound cursor) query (l.rawLead cursor)).window l.providers

section

variable (hquery : nonLeadQuery l.params = some query)
include hquery

lemma request_eq (cursor : Option String) : l.request cursor =
      ⟨mergeRows query.sortKey query.direction ((l.rawLead cursor).data.filter l.shown)
          (sortExtra query.direction (l.fetched query cursor).1),
        if (l.rawLead cursor).nextCursor.isNone && !(l.fetched query cursor).2 then none
        else encodeCursor l.codec ⟨(l.rawLead cursor).nextCursor,
          (l.rawLead cursor).nextCursor.isNone,
          newBound l.lower query (l.bound cursor) (l.rawLead cursor) l.providers⟩⟩ := by
  have hplan : (l.plan cursor).query = some query := hquery
  have hpass : (l.plan cursor).passthrough = false := rfl
  unfold request finish
  simp only
  split
  · next q _ hq =>
    cases hplan.symm.trans hq
    rw [leadExhausted_window]
    rfl
  · next hother => exact absurd hplan (hother query hpass)

lemma perm_request (cursor : Option String) : (l.request cursor).data.Perm
      (((l.rawLead cursor).data.filter l.shown).map Row.lead ++
        ((l.fetched query cursor).1.map Prod.snd).map Row.thread) := by
  rw [request_eq hquery]
  exact (perm_mergeRows _ _).trans ((((perm_sortExtra _ _).map snd).map thread).append_left _)

lemma sorted_request (cursor : Option String)
    (hlead : Sorted query.direction (leadKeys query (l.rawLead cursor))) :
    Sorted query.direction ((l.request cursor).data.filterMap (Row.keyBy query.sortKey)) := by
  rw [request_eq hquery]
  refine sorted_mergeRows ?_ (sorted_sortExtra _ _) ?_
  · exact List.Pairwise.sublist (filter_sublist.filterMap _) hlead
  · intro entry hentry
    exact key_of_mem_fetchNonLead ((perm_sortExtra _ _).mem_iff.mp hentry)

end

/-- What following the cursors comes to: all rows, each page in sort order. -/
def Complete (l : Paging) (lead : List LeadRow) (threads : List AgentThread)
    (pages : List Page) : Prop :=
  (pages.flatMap Page.data).Perm (lead.map Row.lead ++ threads.map Row.thread) ∧
    ∀ query, nonLeadQuery l.params = some query → ∀ page ∈ pages,
      Sorted query.direction (page.data.filterMap (Row.keyBy query.sortKey))

lemma Complete.cons {page : Page} {pages : List Page} {rows lead : List LeadRow}
    {extra threads all : List AgentThread} (h : l.Complete lead threads pages)
    (hpage : page.data.Perm (rows.map Row.lead ++ extra.map Row.thread))
    (hall : all.Perm (extra ++ threads))
    (hsorted : ∀ query, nonLeadQuery l.params = some query →
      Sorted query.direction (page.data.filterMap (Row.keyBy query.sortKey))) :
    l.Complete (rows ++ lead) all (page :: pages) := by
  refine ⟨?_, ?_⟩
  · rw [flatMap_cons, map_append]
    refine (hpage.append h.1).trans ?_
    have hthrs : (all.map thread).Perm (extra.map thread ++ threads.map thread) :=
      (hall.map _).trans (List.Perm.of_eq map_append)
    refine List.Perm.trans ?_ (hthrs.symm.append_left _)
    rw [append_assoc, append_assoc]
    refine List.Perm.append_left _ ?_
    exact perm_append_comm_assoc _ _ _
  intro query hquery other hother
  rcases mem_cons.mp hother with rfl | hother
  · exact hsorted query hquery
  · exact h.2 query hquery other hother

lemma complete_single {page : Page} {rows : List LeadRow} {extra all : List AgentThread}
    (hpage : page.data.Perm (rows.map Row.lead ++ extra.map Row.thread)) (hall : all.Perm extra)
    (hsorted : ∀ query, nonLeadQuery l.params = some query →
      Sorted query.direction (page.data.filterMap (Row.keyBy query.sortKey))) :
    l.Complete rows all [page] := by
  have hnil : l.Complete [] [] [] := ⟨List.Perm.refl _, fun _ _ _ h => (by cases h)⟩
  have hcons := hnil.cons hpage (hall.trans (List.Perm.of_eq (append_nil _).symm)) hsorted
  rwa [append_nil] at hcons

lemma follow_of_query (hquery : nonLeadQuery l.params = some query) (hcodec : l.codec.Lawful)
    (hmeets : ∀ cursor, l.Reached cursor → l.Meets cursor) (fuel : Nat)
    (hreach : l.Reached cursor) (hremaining : l.Remaining cursor pages)
    (hsorted : ∀ page ∈ pages, Sorted query.direction (leadKeys query page))
    (hfuel : pages.length + (pending query.sortKey query.direction (l.bound cursor)
      (matching l.lower query l.providers)).length < fuel) :
    ∃ results, l.follow fuel cursor = some results ∧
      l.Complete (l.shownRows pages) (pending query.sortKey query.direction (l.bound cursor)
        (matching l.lower query l.providers)) results := by
  induction fuel generalizing cursor pages with
  | zero => omega
  | succ fuel ih =>
  obtain ⟨rest, hsplit⟩ := exists_split hremaining
  have hlead : Sorted query.direction (leadKeys query (l.rawLead cursor)) := by
    rcases hsplit.mem with hempty | hmem
    · rw [leadKeys, hempty]
      exact List.Pairwise.nil
    · exact hsorted _ hmem
  have hpage : ∀ q, nonLeadQuery l.params = some q →
      Sorted q.direction ((l.request cursor).data.filterMap (keyBy q.sortKey)) := by
    intro q hq
    cases hquery.symm.trans hq
    exact sorted_request hquery cursor hlead
  have hfollowable : Followable l.lower query (l.bound cursor) (l.rawLead cursor) l.providers := by
    have hmeet := hmeets cursor hreach
    rw [Meets, hquery] at hmeet
    exact hmeet
  have hreq := request_eq hquery cursor
  by_cases hend : (l.rawLead cursor).nextCursor = none ∧ (l.fetched query cursor).2 = false
  · have hlast : (l.request cursor).nextCursor = none := by
      rw [hreq, hend.1, hend.2]
      rfl
    refine ⟨[l.request cursor], by simp only [follow, hlast], ?_⟩
    rw [hsplit.rows, hsplit.last hend.1]
    refine Eq.subst (motive := fun rows => l.Complete rows _ _) (append_nil _).symm ?_
    exact complete_single (perm_request hquery cursor)
      (pending_of_window (leftBehind_of_complete hend.2) (edge_of_exhausted hend.1)) hpage
  have hmore : (l.rawLead cursor).nextCursor ≠ none ∨ (l.fetched query cursor).2 = true := by
    rw [not_and_or, Bool.not_eq_false] at hend
    exact hend
  have hcond : ((l.rawLead cursor).nextCursor.isNone && !(l.fetched query cursor).2) = false := by
    rcases hmore with h | h
    · rw [Option.isNone_eq_false_iff.mpr (Option.isSome_iff_ne_none.mpr h), Bool.false_and]
    · rw [h, Bool.not_true, Bool.and_false]
  obtain ⟨text, henc, hdecoded⟩ := decodeCursor_encodeCursor hcodec
    ⟨(l.rawLead cursor).nextCursor, (l.rawLead cursor).nextCursor.isNone,
      newBound l.lower query (l.bound cursor) (l.rawLead cursor) l.providers⟩
  have hnext : (l.request cursor).nextCursor = some text := by
    rw [hreq]
    simp only [hcond, Bool.false_eq_true, if_false]
    exact henc
  have hcurs : cursorOf l.codec (some text) =
      ⟨(l.rawLead cursor).nextCursor, (l.rawLead cursor).nextCursor.isNone,
        newBound l.lower query (l.bound cursor) (l.rawLead cursor) l.providers⟩ := by
    rw [cursorOf, hdecoded]
    rfl
  have hbound : l.bound (some text) =
      newBound l.lower query (l.bound cursor) (l.rawLead cursor) l.providers :=
    congrArg CompositeCursor.bound hcurs
  have hplan : (l.plan (some text)).leadCursor = if (l.rawLead cursor).nextCursor.isNone then none
      else some (l.rawLead cursor).nextCursor := by
    have hprep : (l.plan (some text)).leadCursor =
        if (cursorOf l.codec (some text)).leadDone then none
        else some (cursorOf l.codec (some text)).lead := rfl
    rw [hprep, hcurs]
  have hrest : l.Remaining (some text) rest := by
    unfold Remaining
    rw [hplan]
    cases hraw : (l.rawLead cursor).nextCursor with
    | none => exact hsplit.last hraw
    | some next => exact hsplit.more next hraw
  have hadv := pending_step hfollowable hmore
  rw [← hbound] at hadv
  have hlen := hadv.length_eq
  rw [length_append, length_map] at hlen
  have hdecrease : rest.length + (pending query.sortKey query.direction (l.bound (some text))
      (matching l.lower query l.providers)).length < fuel := by
    rcases hsplit.shorter with hshorter | ⟨hlast, hempty⟩
    · omega
    have hrows : (l.fetched query cursor).1 ≠ [] := fun hnil =>
      (hfollowable.2.2 (hmore.resolve_left (not_not.mpr hlast)) hnil).1 hlast
    have hpos := length_pos_iff.mpr hrows
    have hrestEmpty := hsplit.last hlast
    rw [hrestEmpty]
    simp only [fetched] at hpos
    simp only [length_nil]
    omega
  obtain ⟨results, hresults, hcomp⟩ := ih (hreach.next hnext) hrest
    (fun page hmem => hsorted page (hsplit.rest_mem page hmem)) hdecrease
  refine ⟨l.request cursor :: results, by simp only [follow, hnext, hresults, Option.map_some], ?_⟩
  rw [hsplit.rows]
  exact hcomp.cons (perm_request hquery cursor) hadv hpage

lemma follow_of_lead (hquery : nonLeadQuery l.params = none)
    (hmeets : ∀ cursor, l.Reached cursor → l.Meets cursor) {leadCursor cursor : Option String}
    (hpages : l.LeadPages leadCursor pages) (hreach : l.Reached cursor)
    (hplan : (l.plan cursor).leadCursor = some leadCursor) :
    ∃ fuel results, l.follow fuel cursor = some results ∧
      l.Complete (l.shownRows pages) [] results := by
  have hraw : ∀ {leadCursor cursor : Option String},
      (l.plan cursor).leadCursor = some leadCursor → l.rawLead cursor = l.lead leadCursor := by
    intro leadCursor cursor hplan
    rw [rawLead, hplan]
  have hreq : ∀ {leadCursor cursor : Option String},
      (l.plan cursor).leadCursor = some leadCursor → l.request cursor =
        ⟨((l.lead leadCursor).data.filter l.shown).map Row.lead, (l.lead leadCursor).nextCursor⟩ := by
    intro leadCursor cursor hplan
    have hnone : (l.plan cursor).query = none := hquery
    unfold request finish
    simp only [hraw hplan]
    split
    · next q _ hq => cases hnone.symm.trans hq
    · rfl
  have hrows : ∀ {leadCursor cursor : Option String},
      (l.plan cursor).leadCursor = some leadCursor → (l.request cursor).data.Perm
        (((l.lead leadCursor).data.filter l.shown).map Row.lead ++
          ([] : List AgentThread).map Row.thread) := by
    intro leadCursor cursor hplan
    rw [hreq hplan]
    exact List.Perm.of_eq (append_nil _).symm
  have hadm : ∀ query, nonLeadQuery l.params = some query → False := by
    intro query h
    cases hquery.symm.trans h
  induction hpages generalizing cursor with
  | @last leadCursor hlast =>
    refine ⟨1, [l.request cursor], by simp only [follow, hreq hplan, hlast], ?_⟩
    have hshown : l.shownRows [l.lead leadCursor] = (l.lead leadCursor).data.filter l.shown := by
      rw [shownRows, flatMap_singleton]
    rw [hshown]
    exact complete_single (hrows hplan) (List.Perm.refl _) fun q hq => (hadm q hq).elim
  | @more leadCursor next rest hmore hrest ih =>
  have hnext : (l.request cursor).nextCursor = some next := by
    rw [hreq hplan]
    exact hmore
  have hdecode : decodeCursor l.codec next = none := by
    have hmeet := hmeets cursor hreach
    rw [Meets, hquery] at hmeet
    exact hmeet next (by rw [hraw hplan]; exact hmore)
  have hplanNext : (l.plan (some next)).leadCursor = some (some next) := by
    have hcurs : cursorOf l.codec (some next) = ⟨some next, false, none⟩ := by
      rw [cursorOf, hdecode]
      rfl
    have hprep : (l.plan (some next)).leadCursor =
        if (cursorOf l.codec (some next)).leadDone then none
        else some (cursorOf l.codec (some next)).lead := rfl
    rw [hprep, hcurs]
    rfl
  obtain ⟨fuel, results, hresults, hcomp⟩ := ih (hreach.next hnext) hplanNext
  refine ⟨fuel + 1, l.request cursor :: results, by simp only [follow, hnext, hresults, Option.map_some], ?_⟩
  exact hcomp.cons (hrows hplan) (List.Perm.refl _) fun q hq => (hadm q hq).elim

/-- A listing ends, has every admitted row once, and reads its cursors as they were written. -/
theorem paging_is_complete (l : Paging) (pages : List LeadPage) (hpages : l.LeadPages none pages)
    (hsorted : ∀ query, nonLeadQuery l.params = some query →
      Sorted query.direction (pages.flatMap (leadKeys query)))
    (hcodec : l.codec.Lawful) (hmeets : ∀ cursor, l.Reached cursor → l.Meets cursor) :
    (∃ fuel results, l.follow fuel none = some results ∧
      l.Complete (l.shownRows pages) l.admitted results) ∧
    ∀ cursor, ∃ text, encodeCursor l.codec cursor = some text ∧
      decodeCursor l.codec text = some cursor := by
  refine ⟨?_, decodeCursor_encodeCursor hcodec⟩
  cases hquery : nonLeadQuery l.params with
  | none =>
    rw [admitted, hquery]
    exact follow_of_lead hquery hmeets hpages .first rfl
  | some query =>
  have hadm : l.admitted = pending query.sortKey query.direction (l.bound none)
      (matching l.lower query l.providers) := by
    have hbound : l.bound none = none := rfl
    rw [admitted, hquery, hbound, pending_none]
  have hpage : ∀ page ∈ pages, Sorted query.direction (leadKeys query page) := by
    intro page hmem
    exact List.Pairwise.sublist (sublist_flatten_of_mem (mem_map_of_mem hmem))
      (hsorted query hquery)
  rw [hadm]
  exact ⟨_, follow_of_query hquery hcodec hmeets _ .first hpages hpage (Nat.lt_succ_self _)⟩

/-! ## Two listings -/

def twoPages (first second : List LeadRow) : Paging where
  codec := serde
  lower := id
  params := []
  lead
    | none => ⟨first, some "L1"⟩
    | some _ => ⟨second, none⟩
  shown := fun _ => true
  providers := [⟨true, "models", [⟨⟨"c", "/", false, 7, 7, none⟩, false, "talk"⟩], by decide⟩]

def newestFirst : NonLeadQuery := ⟨false, [], none, .createdAt, .desc, none⟩

lemma rawLead_of_cursor {lead : Option String} {bound : Option Int}
    (h : cursorOf l.codec cursor = ⟨lead, false, bound⟩) : l.rawLead cursor = l.lead lead := by
  have hplan : (l.plan cursor).leadCursor =
      if (cursorOf l.codec cursor).leadDone then none else some (cursorOf l.codec cursor).lead := rfl
  rw [rawLead, hplan, h]
  rfl

lemma exists_second (first second : List LeadRow) {bound : Option Int}
    (hbound : newBound id newestFirst none ⟨first, some "L1"⟩ (twoPages [] []).providers = bound) :
    ∃ text, ((twoPages first second).request none).nextCursor = some text ∧
      cursorOf serde (some text) = ⟨some "L1", false, bound⟩ := by
  obtain ⟨text, henc, hdecoded⟩ :=
    decodeCursor_encodeCursor serde_lawful ⟨some "L1", false, bound⟩
  refine ⟨text, ?_, by rw [cursorOf, hdecoded]; rfl⟩
  have hquery : nonLeadQuery (twoPages first second).params = some newestFirst := rfl
  rw [request_eq hquery none, ← henc, ← hbound]
  rfl

def dated (id : String) (createdAt : Int) : LeadRow := ⟨id, some createdAt, none, none⟩

theorem paging_is_complete_of_dated :
    ∃ fuel results, (twoPages [dated "x" 9] [dated "y" 3]).follow fuel none = some results ∧
      (results.flatMap Page.data).Perm [.lead (dated "x" 9), .lead (dated "y" 3),
        .thread ⟨"c", "/", false, 7, 7, none⟩] := by
  have hquery : nonLeadQuery (twoPages [dated "x" 9] [dated "y" 3]).params = some newestFirst := rfl
  have hsnd {cursor : Option String}
      (h : cursorOf serde cursor = ⟨some "L1", false, some 9⟩) :
      (twoPages [dated "x" 9] [dated "y" 3]).bound cursor = some 9 ∧
        (twoPages [dated "x" 9] [dated "y" 3]).rawLead cursor = ⟨[dated "y" 3], none⟩ :=
    ⟨congrArg CompositeCursor.bound h,
      (rawLead_of_cursor (l := twoPages [dated "x" 9] [dated "y" 3]) h).trans rfl⟩
  have hreach : ∀ cursor, (twoPages [dated "x" 9] [dated "y" 3]).Reached cursor →
      cursor = none ∨ cursorOf serde cursor = ⟨some "L1", false, some 9⟩ := by
    intro cursor h
    induction h with
    | first => exact .inl rfl
    | @next cursor text _ hnext ih =>
    rcases ih with rfl | h
    · obtain ⟨other, hother, hcurs⟩ := exists_second [dated "x" 9] [dated "y" 3]
        (show newBound id newestFirst none ⟨[dated "x" 9], some "L1"⟩
          (twoPages [] []).providers = some 9 by decide)
      rw [hother] at hnext
      cases hnext
      exact .inr hcurs
    · obtain ⟨hbound, hraw⟩ := hsnd h
      rw [request_eq hquery, fetched, hbound, hraw] at hnext
      cases hnext
  have hmeets : ∀ cursor, (twoPages [dated "x" 9] [dated "y" 3]).Reached cursor →
      (twoPages [dated "x" 9] [dated "y" 3]).Meets cursor := by
    intro cursor h
    rw [Meets, hquery]
    rcases hreach cursor h with rfl | h
    · exact show Followable id newestFirst none ⟨[dated "x" 9], some "L1"⟩
        (twoPages [] []).providers by decide
    obtain ⟨hbound, hraw⟩ := hsnd h
    simp only [hbound, hraw]
    exact show Followable id newestFirst (some 9) ⟨[dated "y" 3], none⟩
      (twoPages [] []).providers by decide
  have hsorted : ∀ query, nonLeadQuery (twoPages [dated "x" 9] [dated "y" 3]).params =
      some query → Sorted query.direction (([⟨[dated "x" 9], some "L1"⟩, ⟨[dated "y" 3], none⟩] :
        List LeadPage).flatMap (leadKeys query)) := by
    intro query h
    cases hquery.symm.trans h
    unfold Sorted
    decide
  obtain ⟨⟨fuel, results, hresults, hcomp, -⟩, -⟩ := paging_is_complete
    (twoPages [dated "x" 9] [dated "y" 3]) [⟨[dated "x" 9], some "L1"⟩, ⟨[dated "y" 3], none⟩]
    (.more rfl (.last rfl)) hsorted serde_lawful hmeets
  exact ⟨fuel, results, hresults, hcomp⟩

/-- The lead's first page has no row with the sort key: the thread is on both pages. -/
theorem thread_listed_twice :
    ∃ results, (twoPages [⟨"x", none, none, none⟩] []).follow 2 none = some results ∧
      results.flatMap Page.data = [.lead ⟨"x", none, none, none⟩,
        .thread ⟨"c", "/", false, 7, 7, none⟩, .thread ⟨"c", "/", false, 7, 7, none⟩] := by
  have hquery : nonLeadQuery (twoPages [⟨"x", none, none, none⟩] []).params = some newestFirst := rfl
  obtain ⟨text, htext, hcurs⟩ := exists_second [⟨"x", none, none, none⟩] [] rfl
  have hraw : (twoPages [⟨"x", none, none, none⟩] []).rawLead (some text) = ⟨[], none⟩ :=
    (rawLead_of_cursor (l := twoPages [⟨"x", none, none, none⟩] []) hcurs).trans rfl
  have hbound : (twoPages [⟨"x", none, none, none⟩] []).bound (some text) = none :=
    congrArg CompositeCursor.bound hcurs
  have hsnd : (twoPages [⟨"x", none, none, none⟩] []).request (some text) =
      ⟨[.thread ⟨"c", "/", false, 7, 7, none⟩], none⟩ := by
    rw [request_eq hquery, fetched, hraw, hbound]
    rfl
  have hfirst : ((twoPages [⟨"x", none, none, none⟩] []).request none).data =
      [.lead ⟨"x", none, none, none⟩, .thread ⟨"c", "/", false, 7, 7, none⟩] := by
    rw [request_eq hquery]
    rfl
  refine ⟨[(twoPages [⟨"x", none, none, none⟩] []).request none,
    (twoPages [⟨"x", none, none, none⟩] []).request (some text)], ?_, ?_⟩
  · simp only [follow, htext, hsnd, Option.map_some]
  · simp only [flatMap_cons, hfirst, hsnd]
    rfl

end Paging

end CodeWide.Listing
