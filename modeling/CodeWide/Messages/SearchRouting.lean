import CodeWide.Lib.Json
import CodeWide.Lib.StableSort
import Mathlib

/-!
# The merged search

`merged` of `sync/search_routing.rs`. While the pages are followed each source gives the same answer
to a request by its offset.
-/

namespace CodeWide.Messages.SearchRouting

open Lib List StableSort Nat

def maxOffset : Nat := 100000

structure Hit where
  timestamp : Option String
  threadId : Option String
  sourceOffset : Option Int
  rest : Json

def Hit.key (hit : Hit) : Lex (OrderDual String × Lex (String × OrderDual (WithBot Int))) :=
  toLex (OrderDual.toDual (hit.timestamp.getD ""),
    toLex (hit.threadId.getD "", OrderDual.toDual hit.sourceOffset))

def hitOrder (left right : Hit) : Prop := left.key ≤ right.key

instance : DecidableRel hitOrder := fun left right => inferInstanceAs (Decidable (left.key ≤ right.key))

instance : Std.Total hitOrder := ⟨fun left right => le_total left.key right.key⟩

instance : IsTrans Hit hitOrder := ⟨fun _ _ _ => le_trans⟩

structure Page where
  data : List Hit
  nextOffset : Option Nat
  indexing : Bool
  failedSources : Nat

abbrev SearchSource := Nat → Except String Page

structure Reading where
  taken : List Hit := []
  indexing : Bool := false
  failedSources : Nat := 0
  firstError : Option String := none
  answered : Bool := false

def readPages (source : SearchSource) (enough : Nat → Bool) (cursor : Nat) (r : Reading) : Reading :=
  match source cursor with
  | .error error =>
    { r with failedSources := r.failedSources + 1, firstError := r.firstError.or (some error) }
  | .ok page =>
    let r := { r with
      answered := true
      indexing := r.indexing || page.indexing
      failedSources :=
        if cursor = 0 then r.failedSources + page.failedSources else r.failedSources
      taken := r.taken ++ page.data }
    match page.nextOffset with
    | some next =>
      if !enough r.taken.length && decide (cursor < next) && decide (next ≤ maxOffset) then
        readPages source enough next r
      else r
    | none => r
termination_by maxOffset - cursor
decreasing_by simp_all; omega

def merged (pageSize : Nat) (sources : List SearchSource) (offset : Nat) : Except String Page :=
  match sources with
  | [] => .error "Search is unavailable"
  | first :: _ =>
    if maxOffset < offset ∨ sources.length = 1 then first offset
    else
      let wanted := offset + pageSize + 1
      let readings := sources.map fun source =>
        readPages source (fun taken => decide (wanted ≤ taken)) 0 {}
      match readings.any Reading.answered, readings.findSome? Reading.firstError with
      | false, some error => .error error
      | _, _ =>
        let hits := (readings.map Reading.taken).flatten.insertionSort hitOrder
        .ok
          { data := (hits.drop offset).take pageSize
            nextOffset := if offset + pageSize < hits.length then some (offset + pageSize) else none
            indexing := readings.any Reading.indexing
            failedSources := (readings.map Reading.failedSources).sum }

def hitsOf (source : SearchSource) : List Hit := (readPages source (fun _ => false) 0 {}).taken

def allHits (sources : List SearchSource) : List Hit :=
  (sources.map hitsOf).flatten.insertionSort hitOrder

def follow (pageSize : Nat) (sources : List SearchSource) : Nat → Nat → Option (List Hit)
  | 0, _ => none
  | fuel + 1, offset =>
    if maxOffset < offset then none
    else
      match merged pageSize sources offset with
      | .error _ => none
      | .ok page =>
        match page.nextOffset with
        | none => some page.data
        | some next => (follow pageSize sources fuel next).map (page.data ++ ·)

variable {source : SearchSource} {sources : List SearchSource} {pageSize offset : Nat}

lemma taken_readPages (enough : Nat → Bool) (cursor : Nat) (r : Reading) :
    r.taken <+: (readPages source enough cursor r).taken := by
  fun_induction readPages source enough cursor r with
  | case1 => exact prefix_rfl
  | case2 _ _ _ _ _ _ _ _ ih => exact (prefix_append _ _).trans ih
  | case3 | case4 => exact prefix_append _ _

lemma readPages_cut (source : SearchSource) (enough : Nat → Bool) (cursor : Nat) (r : Reading) :
    (readPages source enough cursor r).taken <+:
        (readPages source (fun _ => false) cursor r).taken ∧
      ((readPages source enough cursor r).taken = (readPages source (fun _ => false) cursor r).taken ∨
        enough (readPages source enough cursor r).taken.length = true) := by
  fun_induction readPages source enough cursor r with
  | case1 cursor r error herror =>
    rw [readPages, herror]
    exact ⟨prefix_rfl, .inl rfl⟩
  | case2 cursor r page hpage r' next hnext hgoes ih =>
    have hall : readPages source (fun _ => false) cursor r =
        readPages source (fun _ => false) next r' := by
      simp only [Bool.and_eq_true, decide_eq_true_eq] at hgoes
      rw [readPages.eq_def source _ cursor, hpage]
      simp [hnext, hgoes.1.2, hgoes.2, r']
    rw [hall]
    exact ih
  | case3 cursor r page hpage r' next hnext hstops =>
    have hall : readPages source (fun _ => false) cursor r =
        if cursor < next ∧ next ≤ maxOffset then readPages source (fun _ => false) next r' else r' := by
      rw [readPages.eq_def source _ cursor, hpage]
      simp [hnext, r']
    rw [hall]
    split
    · rename_i hgoes
      refine ⟨taken_readPages _ _ _, .inr ?_⟩
      simpa [hgoes.1, hgoes.2] using hstops
    · exact ⟨prefix_rfl, .inl rfl⟩
  | case4 cursor r page hpage r' hnext =>
    have hall : readPages source (fun _ => false) cursor r = r' := by
      rw [readPages.eq_def source _ cursor, hpage]
      simp [hnext, r']
    rw [hall]
    exact ⟨prefix_rfl, .inl rfl⟩

lemma cut_hitsOf (wanted : Nat) (hsorted : (hitsOf source).Pairwise hitOrder) :
    Cut hitOrder wanted (readPages source (fun taken => decide (wanted ≤ taken)) 0 {}).taken
      (hitsOf source) := by
  obtain ⟨⟨rest, hrest⟩, hend⟩ :=
    readPages_cut source (fun taken => decide (wanted ≤ taken)) 0 {}
  refine ⟨rest, hrest.symm, ?_, hsorted⟩
  rcases hend with hsame | henough
  · rw [← hrest] at hsame
    exact .inl (by simpa using hsame)
  · exact .inr (of_decide_eq_true henough)

lemma answered_readPages (enough : Nat → Bool) {page : Page} (hpage : source 0 = .ok page) :
    (readPages source enough 0 {}).answered = true := by
  have hkeeps : ∀ cursor r, r.answered = true →
      (readPages source enough cursor r).answered = true := fun cursor r hr => by
    fun_induction readPages source enough cursor r with
    | case1 => exact hr
    | case2 _ _ _ _ _ _ _ _ ih => exact ih rfl
    | case3 | case4 => rfl
  rw [readPages, hpage]
  simp only
  split
  · split
    · exact hkeeps _ _ rfl
    · rfl
  · rfl

section Pages

variable (hmany : 2 ≤ sources.length) (hanswers : ∃ source ∈ sources, ∃ page, source 0 = .ok page)
  (hsorted : ∀ source ∈ sources, (hitsOf source).Pairwise hitOrder)

include hmany hanswers hsorted

variable (pageSize) in
lemma merged_ok (hoffset : offset ≤ maxOffset) : ∃ page, merged pageSize sources offset = .ok page ∧
    page.data = ((allHits sources).drop offset).take pageSize ∧
    page.nextOffset = if offset + pageSize < (allHits sources).length then some (offset + pageSize)
      else none := by
  have hany : (sources.map fun source =>
      readPages source (fun taken => decide (offset + pageSize + 1 ≤ taken)) 0 {}).any
        Reading.answered = true := by
    obtain ⟨source, hsrc, page, hpage⟩ := hanswers
    exact any_eq_true.mpr ⟨_, mem_map_of_mem hsrc, answered_readPages _ hpage⟩
  have htake : _ = (allHits sources).take (offset + pageSize + 1) :=
    take_sort_flatten (r := hitOrder) (n := offset + pageSize + 1) []
      (forall₂_map_left_iff.mpr (forall₂_map_right_iff.mpr (forall₂_same.mpr fun source hsrc =>
        cut_hitsOf (offset + pageSize + 1) (hsorted source hsrc))))
  have hlen := congrArg length htake
  have hdata := congrArg (fun hits => (hits.drop offset).take pageSize) htake
  simp only [nil_append, length_take] at hlen
  simp only [nil_append, drop_take, take_take] at hdata
  rw [min_eq_left (by omega)] at hdata
  obtain ⟨first, rest, rfl⟩ := exists_cons_of_length_pos (lt_of_lt_of_le two_pos hmany)
  simp only [merged]
  rw [if_neg (by omega), hany]
  refine ⟨_, rfl, ?_, ?_⟩
  · rw [map_map]
    exact hdata
  · rw [map_map]
    exact if_congr (by simp only [Function.comp_def]; omega) rfl rfl

lemma follow_all (hsize : 0 < pageSize)
    (hbound : (allHits sources).length ≤ (maxOffset / pageSize + 1) * pageSize) (pages : Nat)
    (hpages : pages ≤ maxOffset / pageSize) : ∃ fuel,
      follow pageSize sources fuel (pages * pageSize) =
        some ((allHits sources).drop (pages * pageSize)) := by
  have hwin : pages * pageSize ≤ maxOffset := (Nat.le_div_iff_mul_le hsize).mp hpages
  obtain ⟨page, hpage, hdata, hnext⟩ := merged_ok pageSize hmany hanswers hsorted hwin
  by_cases hmore : pages * pageSize + pageSize < (allHits sources).length
  · rw [if_pos hmore, ← Nat.succ_mul] at hnext
    have hlt : pages + 1 < maxOffset / pageSize + 1 :=
      Nat.lt_of_mul_lt_mul_right (Nat.lt_of_lt_of_le (Nat.succ_mul pages pageSize ▸ hmore) hbound)
    obtain ⟨fuel, hfuel⟩ := follow_all hsize hbound (pages + 1) (Nat.le_of_lt_succ hlt)
    refine ⟨fuel + 1, ?_⟩
    rw [follow, if_neg (Nat.not_lt.mpr hwin)]
    simp only [hpage, hnext]
    rw [Nat.succ_eq_add_one, hfuel, Option.map_some, hdata, Nat.succ_mul, ← drop_drop,
      take_append_drop]
  rw [if_neg hmore] at hnext
  refine ⟨1, ?_⟩
  rw [follow, if_neg (Nat.not_lt.mpr hwin)]
  simp only [hpage, hnext]
  rw [hdata, take_of_length_le (by rw [length_drop]; omega)]
termination_by maxOffset / pageSize - pages

lemma follow_none (hsize : 0 < pageSize)
    (hbound : (maxOffset / pageSize + 1) * pageSize < (allHits sources).length) (fuel pages : Nat) :
    follow pageSize sources fuel (pages * pageSize) = none := by
  induction fuel generalizing pages with
  | zero => rfl
  | succ fuel ih =>
  rw [follow]
  split
  · rfl
  rename_i hwin
  obtain ⟨page, hpage, -, hnext⟩ := merged_ok pageSize hmany hanswers hsorted (not_lt.mp hwin)
  have hle : pages ≤ maxOffset / pageSize :=
    (le_div_iff_mul_le hsize).mpr (not_lt.mp hwin)
  have hmore : pages * pageSize + pageSize < (allHits sources).length :=
    lt_of_le_of_lt (succ_mul pages pageSize ▸ mul_le_mul_right _ (succ_le_succ hle)) hbound
  rw [if_pos hmore] at hnext
  simp only [hpage, hnext]
  rw [← succ_mul, ih]
  rfl

/-- The pages give all hits once exactly when they end with the last page within the limit. -/
theorem merged_pages_iff (hsize : 0 < pageSize) :
    (∃ fuel, follow pageSize sources fuel 0 = some (allHits sources)) ↔
      (allHits sources).length ≤ (maxOffset / pageSize + 1) * pageSize := by
  constructor
  · rintro ⟨fuel, hfollow⟩
    by_contra hbound
    have hnone := follow_none hmany hanswers hsorted hsize (not_le.mp hbound) fuel 0
    rw [zero_mul, hfollow] at hnone
    cases hnone
  · intro hbound
    simpa using follow_all hmany hanswers hsorted hsize hbound 0 (zero_le _)

end Pages

def listed (hits : List Hit) : SearchSource := fun _ => .ok ⟨hits, none, false, 0⟩

lemma hitsOf_listed (hits : List Hit) : hitsOf (listed hits) = hits := by
  rw [hitsOf, readPages]
  rfl

def hitAt (position : Nat) : Hit := ⟨none, some "t", some (-(position : Int)), .null⟩

lemma sorted_hitAt (count : Nat) : ((range count).map hitAt).Pairwise hitOrder := by
  refine pairwise_map.mpr (pairwise_lt_range.imp fun {m n} hlt => ?_)
  refine Prod.Lex.toLex_le_toLex.mpr (.inr ⟨rfl, Prod.Lex.toLex_le_toLex.mpr (.inr ⟨rfl, ?_⟩)⟩)
  exact WithBot.coe_le_coe.mpr (by omega)

theorem merged_pages_iff_of_three :
    (∃ fuel, follow 30 [listed ((range 3).map hitAt), listed []] fuel 0 =
      some (allHits [listed ((range 3).map hitAt), listed []])) ↔
      (allHits [listed ((range 3).map hitAt), listed []]).length ≤ (maxOffset / 30 + 1) * 30 :=
  merged_pages_iff (le_refl 2) ⟨_, mem_cons_self, _, rfl⟩
    (by simp [hitsOf_listed, sorted_hitAt]) (by decide)

/-- The page at 99990 has a next offset, which is over the limit. -/
theorem last_page_goes_on :
    (allHits [listed ((range 100021).map hitAt), listed []]).length = 100021 ∧
      ∀ fuel, follow 30 [listed ((range 100021).map hitAt), listed []] fuel 0 = none := by
  have hlen : (allHits [listed ((range 100021).map hitAt), listed []]).length = 100021 := by
    simp [allHits, hitsOf_listed]
  refine ⟨hlen, fun fuel => ?_⟩
  have hnone : follow 30 [listed ((range 100021).map hitAt), listed []] fuel (0 * 30) = none :=
    follow_none (show 2 ≤ [listed ((range 100021).map hitAt), listed []].length from le_refl 2)
      ⟨_, mem_cons_self, _, rfl⟩ (by simp [hitsOf_listed, sorted_hitAt]) (by decide) (by rw [hlen]; decide) fuel 0
  rwa [zero_mul] at hnone

end CodeWide.Messages.SearchRouting
