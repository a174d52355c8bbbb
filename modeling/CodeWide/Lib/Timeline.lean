import Mathlib.Data.List.Basic
import Mathlib.Data.List.Pairwise

/-!
# Reading a log newest first

What an entry of a log contributes may depend on everything written before and after it.
-/

namespace CodeWide.Lib

open List Option

variable {α β : Type}

def timeline (view : List α → List α → α → Option β) : List α → List α → List β
  | [], _ => []
  | r :: older, newer => (view older newer r).toList ++ timeline view older (r :: newer)

/-- A contribution shows the position of the entry it comes from. -/
def Keyed (pos : α → Nat) (key : β → Nat) (view : List α → List α → α → Option β) : Prop :=
  ∀ older newer r t, view older newer r = some t → key t = pos r

variable {view view' : List α → List α → α → Option β}

variable {older newer : List α}

lemma mem_timeline {t : β} : t ∈ timeline view older newer ↔
      ∃ a r b, older = a ++ r :: b ∧ view b (a.reverse ++ newer) r = some t := by
  induction older generalizing newer with
  | nil => simp [timeline]
  | cons x older ih =>
  rw [timeline, mem_append, mem_toList, ih]
  constructor
  · rintro (h | ⟨a, r, b, rfl, h⟩)
    · exact ⟨[], x, older, rfl, h⟩
    · exact ⟨x :: a, r, b, rfl, by simpa using h⟩
  rintro ⟨a, r, b, hsplit, h⟩
  cases a with
  | nil =>
    obtain ⟨rfl, rfl⟩ := cons.inj hsplit
    exact .inl h
  | cons y a =>
    obtain ⟨rfl, rfl⟩ := cons.inj hsplit
    exact .inr ⟨a, r, b, rfl, by simpa using h⟩

/-- The contributions of the newest entries come first, and those of the rest are read with
the newest entries passed. -/
lemma timeline_append (a b newer : List α) : timeline view (a ++ b) newer =
      timeline (fun older => view (older ++ b)) a newer ++
        timeline view b (a.reverse ++ newer) := by
  induction a generalizing newer with
  | nil => rfl
  | cons x a ih => simp [timeline, ih]

lemma timeline_congr (h : ∀ a r b, older = a ++ r :: b →
      view b (a.reverse ++ newer) r = view' b (a.reverse ++ newer) r) :
    timeline view older newer = timeline view' older newer := by
  induction older generalizing newer with
  | nil => rfl
  | cons x older ih =>
  have hx : view older newer x = view' older newer x := h [] x older rfl
  have hrest := @ih (x :: newer) fun a r b hsplit => by
    simpa using h (x :: a) r b (by rw [hsplit]; rfl)
  rw [timeline, timeline, hx, hrest]

lemma map_timeline {γ : Type} (g : β → γ) (older newer : List α) :
    (timeline view older newer).map g =
      timeline (fun older newer r => (view older newer r).map g) older newer := by
  induction older generalizing newer with
  | nil => rfl
  | cons x older ih =>
    rw [timeline, timeline, map_append, ih]
    cases view older newer x <;> rfl

variable {pos : α → Nat} {key : β → Nat}

lemma timeline_key_lt {x : α} (hkey : Keyed pos key view)
    (hx : ∀ r ∈ older, pos r < pos x) {t : β} (ht : t ∈ timeline view older newer) :
    key t < pos x := by
  obtain ⟨a, r, b, rfl, hr⟩ := mem_timeline.mp ht
  rw [hkey _ _ _ _ hr]
  exact hx r (by simp)

lemma timeline_pairwise {older newer : List α} (hkey : Keyed pos key view)
    (hpos : older.Pairwise fun r s => pos s < pos r) :
    (timeline view older newer).Pairwise fun t u => key u < key t := by
  induction older generalizing newer with
  | nil => exact List.Pairwise.nil
  | cons x older ih =>
  obtain ⟨hx, hrest⟩ := pairwise_cons.mp hpos
  rw [timeline, pairwise_append]
  refine ⟨?_, ih hrest, fun t ht u hu => ?_⟩
  · cases view older newer x <;> simp
  · rw [hkey _ _ _ _ (mem_toList.mp ht)]
    exact timeline_key_lt hkey hx hu

/-- Two views whose contributions show the position of their entry give one list exactly if
they agree at every entry. -/
lemma timeline_eq_iff (hkey : Keyed pos key view) (hkey' : Keyed pos key view')
    (hpos : older.Pairwise fun r s => pos s < pos r) :
    timeline view older newer = timeline view' older newer ↔ ∀ a r b, older = a ++ r :: b →
        view b (a.reverse ++ newer) r = view' b (a.reverse ++ newer) r := by
  refine ⟨fun heq => ?_, timeline_congr⟩
  induction older generalizing newer with
  | nil => intro a r b h; simp at h
  | cons x older ih =>
  obtain ⟨hx, hrest⟩ := pairwise_cons.mp hpos
  rw [timeline, timeline] at heq
  have hhead : view older newer x = view' older newer x ∧
      timeline view older (x :: newer) = timeline view' older (x :: newer) := by
    cases hv : view older newer x with
    | none =>
      cases hv' : view' older newer x with
      | none => simpa [hv, hv'] using heq
      | some u =>
      rw [hv, hv'] at heq
      have hu : u ∈ timeline view older (x :: newer) := by
        simp only [toList_none, toList_some, nil_append] at heq
        rw [heq]
        exact mem_cons_self
      have hlt := timeline_key_lt hkey hx hu
      rw [hkey' _ _ _ _ hv'] at hlt
      omega
    | some t =>
    cases hv' : view' older newer x with
    | none =>
      rw [hv, hv'] at heq
      have ht : t ∈ timeline view' older (x :: newer) := by
        simp only [toList_none, toList_some, nil_append] at heq
        rw [← heq]
        exact mem_cons_self
      have hlt := timeline_key_lt hkey' hx ht
      rw [hkey _ _ _ _ hv] at hlt
      omega
    | some u => simpa [hv, hv'] using heq
  intro a r b hsplit
  cases a with
  | nil =>
    obtain ⟨rfl, rfl⟩ := cons.inj hsplit
    exact hhead.1
  | cons y a =>
    obtain ⟨rfl, rfl⟩ := cons.inj hsplit
    simpa using ih hrest hhead.2 a r b rfl

end CodeWide.Lib
