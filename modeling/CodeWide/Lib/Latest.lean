import CodeWide.Lib.Run
import CodeWide.Lib.Table
import Mathlib.Data.Set.Insert
import Mathlib.Tactic.Tauto

/-!
# Registers that keep the greatest stamp

`IsLatest` says that a register holds a value of a set with the set's greatest stamp.
-/

namespace CodeWide.Lib

open Option List

section Registers

variable {ν : Type} {stamp : ν → Nat}

/-- The register holds a value of `S` with the greatest stamp, and nothing if `S` is empty. -/
def IsLatest (stamp : ν → Nat) (S : Set ν) : Option ν → Prop
  | none => S = ∅
  | some v => v ∈ S ∧ ∀ w ∈ S, stamp w ≤ stamp v

def held (r : Option ν) : Set ν := {v | r = some v}

variable {r t : Option ν}

lemma IsLatest.unique {S : Set ν} (hr : IsLatest stamp S r)
    (ht : IsLatest stamp S t) (hinj : ∀ v ∈ S, ∀ w ∈ S, stamp v = stamp w → v = w) : r = t := by
  cases r with
  | none =>
    cases t with
    | none => rfl
    | some w =>
      change S = ∅ at hr
      exact absurd ht.1 (hr ▸ Set.notMem_empty w)
  | some v =>
  cases t with
  | none =>
    change S = ∅ at ht
    exact absurd hr.1 (ht ▸ Set.notMem_empty v)
  | some w => rw [hinj v hr.1 w ht.1 (le_antisymm (ht.2 v hr.1) (hr.2 w ht.1))]

lemma isLatest_held (r : Option ν) : IsLatest stamp (held r) r := by
  cases r with
  | none => exact Set.eq_empty_of_forall_notMem (fun _ h => nomatch h)
  | some v =>
    refine ⟨rfl, fun w hw => ?_⟩
    rw [some.inj hw]

lemma IsLatest.push {S : Set ν} {v : ν} (h : ∀ w ∈ S, stamp w ≤ stamp v) :
    IsLatest stamp (insert v S) (some v) := by
  refine ⟨Set.mem_insert v S, fun w hw => ?_⟩
  rcases hw with rfl | hw
  · exact le_rfl
  · exact h w hw

variable {S T : Set ν}

lemma IsLatest.union_held (hr : IsLatest stamp S r)
    (ht : IsLatest stamp (held r ∪ T) t) : IsLatest stamp (S ∪ T) t := by
  cases r with
  | none =>
    change S = ∅ at hr
    have hheld : held (none : Option ν) = ∅ := @isLatest_held ν stamp none
    rw [hheld] at ht
    rwa [hr]
  | some v =>
  cases t with
  | none =>
    change held (some v) ∪ T = ∅ at ht
    have hmem : v ∈ held (some v) ∪ T := .inl rfl
    exact absurd hmem (ht ▸ Set.notMem_empty v)
  | some w =>
  have hv : stamp v ≤ stamp w := ht.2 v (.inl rfl)
  refine ⟨?_, fun u hu => ?_⟩
  · rcases ht.1 with hw | hw
    · exact .inl (some.inj hw ▸ hr.1)
    · exact .inr hw
  · rcases hu with hu | hu
    · exact le_trans (hr.2 u hu) hv
    · exact ht.2 u (.inr hu)

lemma IsLatest.of_newer {r : Option ν} (h : IsLatest stamp (S ∪ T) r)
    (hnewer : ∀ v ∈ S, ∀ w ∈ T, stamp v < stamp w) (hne : T.Nonempty) : IsLatest stamp T r := by
  obtain ⟨w, hw⟩ := hne
  cases r with
  | none =>
    change S ∪ T = ∅ at h
    have hmem : w ∈ S ∪ T := .inr hw
    exact absurd hmem (h ▸ Set.notMem_empty w)
  | some v =>
  refine ⟨?_, fun u hu => h.2 u (.inr hu)⟩
  rcases h.1 with hv | hv
  · have hlt := hnewer v hv w hw
    have hle := h.2 w (.inr hw)
    omega
  · exact hv

/-- Two registers that see the same newer values `T`: they agree, or nothing newer came and
both are as they were. -/
lemma IsLatest.agree {v w r t : Option ν} (hw : IsLatest stamp (held v ∪ T) w)
    (hr : IsLatest stamp S r) (ht : IsLatest stamp (S ∪ T) t)
    (hv : ∀ a ∈ held v, ∀ b ∈ T, stamp a < stamp b) (hS : ∀ a ∈ S, ∀ b ∈ T, stamp a < stamp b)
    (hinj : ∀ a ∈ S ∪ T, ∀ b ∈ S ∪ T, stamp a = stamp b → a = b) : w = t ∨ w = v ∧ t = r := by
  rcases T.eq_empty_or_nonempty with rfl | hne
  · right
    rw [Set.union_empty] at hw ht hinj
    refine ⟨hw.unique (isLatest_held v) (fun a ha b hb _ => ?_), ht.unique hr hinj⟩
    exact some.inj (ha.symm.trans hb)
  · left
    refine (hw.of_newer hv hne).unique (ht.of_newer hS hne) (fun a ha b hb => ?_)
    exact hinj a (.inr ha) b (.inr hb)

/-- One update of a register that is offered `v`: an older value does not replace a newer
one. -/
def Kept (stamp : ν → Nat) (r : Option ν) (v : ν) (t : Option ν) : Prop :=
  (t = r ∧ ∃ w, r = some w ∧ stamp v ≤ stamp w) ∨ (t = some v ∧ ∀ w, r = some w → stamp w ≤ stamp v)

lemma Kept.isLatest {v : ν} (h : Kept stamp r v t) : IsLatest stamp (insert v (held r)) t := by
  rcases h with ⟨rfl, w, rfl, hle⟩ | ⟨rfl, hle⟩
  · refine ⟨.inr rfl, fun u hu => ?_⟩
    rcases hu with rfl | hu
    · exact hle
    · rw [some.inj hu]
  · exact IsLatest.push hle

variable {σ ι : Type} {step : σ → ι → σ} {read : σ → Option ν} {value : ι → Option ν}

lemma isLatest_exec {P : σ → Prop} {inputs : List ι} {s : σ} (hs : P s)
    (hinv : ∀ s, P s → ∀ i ∈ inputs, P (step s i))
    (hnone : ∀ s, P s → ∀ i ∈ inputs, value i = none → read (step s i) = read s)
    (hsome : ∀ s, P s → ∀ i ∈ inputs, ∀ v, value i = some v →
      Kept stamp (read s) v (read (step s i))) :
    IsLatest stamp (held (read s) ∪ {v | ∃ i ∈ inputs, value i = some v})
      (read (exec step s inputs)) := by
  induction inputs generalizing s with
  | nil =>
    have hempty : {v | ∃ i ∈ ([] : List ι), value i = some v} = ∅ := by
      ext v
      simp
    rw [hempty, Set.union_empty]
    exact isLatest_held (read s)
  | cons i rest ih =>
  have hrest := ih (hinv s hs i mem_cons_self) (fun s hs i hi => hinv s hs i (mem_cons_of_mem _ hi))
    (fun s hs i hi => hnone s hs i (mem_cons_of_mem _ hi))
    (fun s hs i hi => hsome s hs i (mem_cons_of_mem _ hi))
  rw [exec_cons]
  cases hvalue : value i with
  | none =>
    rw [hnone s hs i mem_cons_self hvalue] at hrest
    have hsame : {v | ∃ j ∈ i :: rest, value j = some v} = {v | ∃ j ∈ rest, value j = some v} := by
      ext v
      simp [hvalue]
    rw [hsame]
    exact hrest
  | some w =>
  have hkept := (hsome s hs i mem_cons_self w hvalue).isLatest
  have hunion := hkept.union_held hrest
  have hsame : held (read s) ∪ {v | ∃ j ∈ i :: rest, value j = some v} =
      insert w (held (read s)) ∪ {v | ∃ j ∈ rest, value j = some v} := by
    ext v
    simp only [Set.mem_union, Set.mem_insert_iff, Set.mem_ofPred_eq, mem_cons,
      exists_eq_or_imp, hvalue, some.injEq, eq_comm (a := v)]
    tauto
  rw [hsame]
  exact hunion

end Registers

variable {κ ν : Type} [LinearOrder κ] {stamp : ν → Nat}

/-- Offers a value to the register of a key; a tie keeps what is there. -/
def offer (stamp : ν → Nat) (t : Table κ ν) (e : κ × ν) : Table κ ν :=
  if (t.get? e.1).any (fun v => decide (stamp e.2 ≤ stamp v)) then t else t.insert e.1 e.2

lemma kept_offer (t : Table κ ν) (k : κ) (v : ν) :
    Kept stamp (t.get? k) v ((offer stamp t (k, v)).get? k) := by
  unfold offer
  cases hr : t.get? k with
  | none =>
    rw [if_neg (by simp)]
    exact .inr ⟨Table.get?_insert_self t k v, fun w hw => nomatch hw⟩
  | some w =>
  by_cases hle : stamp v ≤ stamp w
  · rw [if_pos (by simp [hle])]
    exact .inl ⟨hr, w, rfl, hle⟩
  rw [if_neg (by simp [hle])]
  refine .inr ⟨Table.get?_insert_self t k v, fun u hu => ?_⟩
  rw [← some.inj hu]
  omega

lemma get?_offer_of_ne (t : Table κ ν) {k : κ} {e : κ × ν} (h : k ≠ e.1) :
    (offer stamp t e).get? k = t.get? k := by
  unfold offer
  split
  · rfl
  · exact Table.get?_insert_of_ne t e.2 h

lemma isLatest_offers (t : Table κ ν) (offers : List (κ × ν)) (k : κ) :
    IsLatest stamp (held (t.get? k) ∪ {v | (k, v) ∈ offers})
      ((offers.foldl (offer stamp) t).get? k) := by
  have hrun := @isLatest_exec ν stamp (Table κ ν) (κ × ν) (offer stamp) (fun t => t.get? k)
    (fun e => if e.1 = k then some e.2 else none) (fun _ => True) offers t trivial
    (fun _ _ _ _ => trivial) (fun s _ e _ hnone => ?_) (fun s _ e _ v hsome => ?_)
  · have hsame : {v | ∃ e ∈ offers, (if e.1 = k then some e.2 else none) = some v} =
        {v | (k, v) ∈ offers} := by
      ext v
      constructor
      · rintro ⟨⟨k', w⟩, hmem, hval⟩
        by_cases hk : k' = k
        · subst hk
          rw [if_pos rfl] at hval
          rw [← some.inj hval]
          exact hmem
        · rw [if_neg hk] at hval
          cases hval
      · intro hmem
        exact ⟨(k, v), hmem, if_pos rfl⟩
    rw [hsame] at hrun
    exact hrun
  · have hne : k ≠ e.1 := by
      rintro rfl
      rw [if_pos rfl] at hnone
      cases hnone
    exact get?_offer_of_ne s hne
  by_cases hk : e.1 = k
  · subst hk
    rw [if_pos rfl] at hsome
    rw [← some.inj hsome]
    exact kept_offer s e.1 e.2
  · rw [if_neg hk] at hsome
    cases hsome

end CodeWide.Lib
