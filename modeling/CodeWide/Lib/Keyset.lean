import Mathlib.Data.List.Sort

/-!
# Reading a sorted list page by page

A list in a strict order is served in pages. A page starts behind the row its cursor marks and its
own cursor marks its last row.
-/

namespace CodeWide.Lib.Keyset

open List

variable {α γ : Type}

def after (beyond : γ → α → Bool) (rows : List α) : Option γ → List α
  | none => rows
  | some cursor => rows.dropWhile fun row => !beyond cursor row

def page (beyond : γ → α → Bool) (mark : α → γ) (limit : Nat) (rows : List α) (cursor : Option γ) :
    List α × Option γ :=
  let rest := after beyond rows cursor
  (rest.take limit, if limit < rest.length then (rest.take limit).getLast?.map mark else none)

/-- The rows of at most `pages` pages, and whether the last of them names another. -/
def readPages (list : Option γ → List α × Option γ) : Nat → Option γ → List α × Bool
  | 0, _ => ([], false)
  | pages + 1, cursor =>
    match (list cursor).2 with
    | none => ((list cursor).1, false)
    | some next =>
      if pages = 0 then ((list cursor).1, true)
      else ((list cursor).1 ++ (readPages list pages (some next)).1,
        (readPages list pages (some next)).2)

lemma readPages_congr {list list' : Option γ → List α × Option γ} {P : γ → Prop}
    (heq : ∀ cursor, (∀ c, cursor = some c → P c) → list cursor = list' cursor)
    (hnext : ∀ cursor c, (list' cursor).2 = some c → P c) (pages : Nat) {cursor : Option γ}
    (hcursor : ∀ c, cursor = some c → P c) :
    readPages list pages cursor = readPages list' pages cursor := by
  induction pages generalizing cursor with
  | zero => rfl
  | succ pages ih =>
  unfold readPages
  rw [heq cursor hcursor]
  split
  · rfl
  next next hmore =>
  have hstep : ∀ c, some next = some c → P c :=
    fun c hc => hnext cursor c (hmore.trans hc)
  rw [ih hstep]

variable {beyond : γ → α → Bool} {mark : α → γ} {rows : List α} {lt : α → α → Prop}

lemma after_mark (hmark : ∀ a b, beyond (mark a) b = true ↔ lt a b)
    (hirrefl : ∀ a, ¬ lt a a) (hasymm : ∀ a b, lt a b → ¬ lt b a)
    {front rest : List α} {last : α} (hsort : (front ++ last :: rest).Pairwise lt) :
    after beyond (front ++ last :: rest) (some (mark last)) = rest := by
  obtain ⟨-, hrest, hcross⟩ := pairwise_append.mp hsort
  have hfront : ∀ a ∈ front, (!beyond (mark last) a) = true := by
    intro a ha
    rw [Bool.not_eq_true', Bool.eq_false_iff]
    exact fun h => hasymm a last (hcross a ha last mem_cons_self) ((hmark last a).mp h)
  have hlast : (!beyond (mark last) last) = true := by
    rw [Bool.not_eq_true', Bool.eq_false_iff]
    exact fun h => hirrefl last ((hmark last last).mp h)
  rw [after, dropWhile_append_of_pos hfront,
    dropWhile_cons_of_pos (p := fun row => !beyond (mark last) row) hlast]
  cases rest with
  | nil => rfl
  | cons row rest =>
  have hrow : beyond (mark last) row = true :=
    (hmark last row).mpr ((pairwise_cons.mp hrest).1 row mem_cons_self)
  exact dropWhile_cons_of_neg (by rw [hrow]; decide)

lemma readPages_page (hmark : ∀ a b, beyond (mark a) b = true ↔ lt a b)
    (hirrefl : ∀ a, ¬ lt a a) (hasymm : ∀ a b, lt a b → ¬ lt b a) (hsort : rows.Pairwise lt)
    {limit : Nat} (hlimit : 0 < limit) (pages : Nat) {front rest : List α} {cursor : Option γ}
    (hrows : rows = front ++ rest) (hrest : after beyond rows cursor = rest) :
    readPages (page beyond mark limit rows) (pages + 1) cursor =
      (rest.take ((pages + 1) * limit), decide ((pages + 1) * limit < rest.length)) := by
  induction pages generalizing front rest cursor with
  | zero =>
    unfold readPages
    simp only [page, hrest, Nat.zero_add, Nat.one_mul]
    by_cases hmore : limit < rest.length
    · have hlast : (rest.take limit).getLast?.map mark ≠ none := by
        rw [Ne, Option.map_eq_none_iff, getLast?_eq_none_iff, take_eq_nil_iff]
        rintro (hzero | hempty)
        · omega
        · rw [hempty] at hmore
          exact absurd hmore (Nat.not_lt_zero _)
      rw [if_pos hmore]
      split
      · next hnone => exact absurd hnone hlast
      · rw [decide_eq_true hmore, if_pos trivial]
    · rw [if_neg hmore, decide_eq_false hmore]
  | succ pages ih =>
  unfold readPages
  simp only [page, hrest]
  by_cases hmore : limit < rest.length
  · obtain ⟨last, hlast⟩ : ∃ last, (rest.take limit).getLast? = some last := by
      refine Option.isSome_iff_exists.mp ?_
      rw [getLast?_isSome, Ne, take_eq_nil_iff]
      rintro (hzero | hempty)
      · omega
      · rw [hempty] at hmore
        exact absurd hmore (Nat.not_lt_zero _)
    obtain ⟨init, hinit⟩ := getLast?_eq_some_iff.mp hlast
    have hsplit : rest = init ++ last :: rest.drop limit :=
      calc rest = rest.take limit ++ rest.drop limit := (take_append_drop limit rest).symm
        _ = (init ++ [last]) ++ rest.drop limit := congrArg (· ++ rest.drop limit) hinit
        _ = init ++ last :: rest.drop limit := append_assoc _ _ _
    have hbeh : after beyond rows (some (mark last)) = rest.drop limit := by
      have hcut : rows = (front ++ init) ++ last :: rest.drop limit := by
        rw [hrows, append_assoc, ← hsplit]
      rw [hcut] at hsort ⊢
      exact after_mark hmark hirrefl hasymm hsort
    have hcut : rows = (front ++ rest.take limit) ++ rest.drop limit := by
      rw [hrows, append_assoc, take_append_drop]
    have hnext := ih hcut hbeh
    rw [if_pos hmore, hlast, Option.map_some]
    simp only [Nat.succ_ne_zero, if_false]
    change (_ ++ (readPages (page beyond mark limit rows) (pages + 1) _).1,
      (readPages (page beyond mark limit rows) (pages + 1) _).2) = _
    rw [hnext]
    refine Prod.ext ?_ ?_
    · have hsum : (pages + 1 + 1) * limit = limit + (pages + 1) * limit := by
        rw [Nat.succ_mul, Nat.add_comm]
      exact (congrArg (rest.take ·) hsum).trans (take_add ..) |>.symm
    simp only [length_drop]
    refine decide_eq_decide.mpr ?_
    rw [Nat.succ_mul (pages + 1)]
    omega
  rw [if_neg hmore]
  have hle : rest.length ≤ (pages + 1 + 1) * limit := by
    have hone : 1 * limit ≤ (pages + 1 + 1) * limit := Nat.mul_le_mul_right limit (by omega)
    omega
  rw [take_of_length_le hle, take_of_length_le (by omega)]
  refine Prod.ext rfl ?_
  exact (decide_eq_false (by omega)).symm

end CodeWide.Lib.Keyset
