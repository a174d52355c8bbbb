import CodeWide.Projection.Reconciled

/-!
# Markers put on twice

The markers of a cached item are kept in four steps, each of which reads one field of the
cached item.
-/

namespace CodeWide.Projection

open Lib Json

def keepPreTurn (projected cached : Json) : Json :=
  if projectedPreTurn cached ∧ projectedPreTurn projected = false then
    withProjectedPreTurn projected
  else projected

def keepLifecycle (projected cached : Json) (preserveLifecycle : Bool) : Json :=
  match (if preserveLifecycle ∧ itemType projected = some "contextCompaction" then
      projectedLifecyclePhase cached
    else none) with
  | some phase =>
    if projectedLifecyclePhase projected = none then withProjectedLifecycle projected phase
    else projected
  | none => projected

variable (incoming cached : Json)

variable (preserveLifecycle : Bool)

lemma preserveProjectedItemMarkers_eq :
    preserveProjectedItemMarkers incoming cached preserveLifecycle =
      keepLifecycle (keepPreTurn (preserveUserClientId
        (preserveActiveAgentText incoming cached preserveLifecycle) cached) cached) cached
          preserveLifecycle := rfl

variable {k : String}

lemma get?_preserveUserClientId (hk : k ≠ "clientId") :
    (preserveUserClientId incoming cached).get? k = incoming.get? k := by
  unfold preserveUserClientId
  split
  · rfl
  split
  · rfl
  split
  · rfl
  unfold withClientId
  split
  · exact get?_insert_of_ne incoming _ hk
  · exact get?_erase_of_ne incoming hk

lemma get?_keepPreTurn (projected cached : Json) (hk : k ≠ "codewidePreTurn") :
    (keepPreTurn projected cached).get? k = projected.get? k := by
  unfold keepPreTurn
  split
  · exact get?_insert_of_ne projected _ hk
  · rfl

lemma get?_keepLifecycle (projected cached : Json) (preserveLifecycle : Bool)
    (hk : k ≠ "codewideLifecyclePhase") :
    (keepLifecycle projected cached preserveLifecycle).get? k = projected.get? k := by
  unfold keepLifecycle
  split
  · split
    · exact get?_insert_of_ne projected _ hk
    · rfl
  · rfl

variable {item : Json}

lemma isObj_of_idOf (h : idOf item ≠ none) : item.isObj = true := by
  cases hget : item.get? "id" with
  | some v => exact isObj_of_get? hget
  | none =>
  unfold idOf strField at h
  rw [hget] at h
  exact absurd rfl h

lemma get?_erase_self (h : item.isObj = true) (k : String) : (item.erase k).get? k = none := by
  cases item with
  | obj fields => exact (lookupField_eraseField k k fields).trans (if_pos rfl)
  | _ => simp [isObj] at h

lemma strField_congr {a b : Json} (h : a.get? k = b.get? k) : strField a k = strField b k := by
  unfold strField
  rw [h]

lemma preserveActiveAgentText_again {incoming shown : Json} (cached : Json)
    {preserveLifecycle : Bool} (htype : itemType shown = itemType incoming)
    (htext : shown.get? "text" =
      (preserveActiveAgentText incoming cached preserveLifecycle).get? "text") :
    preserveActiveAgentText incoming shown preserveLifecycle =
      preserveActiveAgentText incoming cached preserveLifecycle := by
  rw [preserveActiveAgentText.eq_1 incoming cached] at htext ⊢
  split at htext
  · rename_i hkeep
    rw [if_pos hkeep]
    have hsame : itemText shown = itemText incoming := by
      unfold itemText
      rw [strField_congr htext]
    unfold preserveActiveAgentText
    rw [if_pos (.inr (.inr (.inr (.inr hsame))))]
  rename_i htake
  rw [if_neg htake]
  simp only [not_or, Bool.not_eq_false, Decidable.not_not] at htake
  obtain ⟨hlive, hagent, -, hprefix, hne⟩ := htake
  obtain ⟨v, hv, -⟩ := Option.bind_eq_some_iff.mp hagent
  rw [get?_insert (isObj_of_get? hv), if_pos rfl] at htext
  have hsame : itemText shown = itemText cached := by
    conv_lhs => rw [itemText, strField, htext]
    rfl
  unfold preserveActiveAgentText
  rw [if_neg, hsame]
  simp only [not_or, Bool.not_eq_false, Decidable.not_not]
  refine ⟨hlive, hagent, htype.trans hagent, ?_, ?_⟩
  · rw [hsame]
    exact hprefix
  · rw [hsame]
    exact hne

lemma preserveUserClientId_again {incoming shown : Json} (cached : Json)
    (hobj : incoming.isObj = true) (htype : itemType shown = itemType incoming)
    (hid : shown.get? "clientId" = (preserveUserClientId incoming cached).get? "clientId") :
    preserveUserClientId incoming shown = preserveUserClientId incoming cached := by
  by_cases hkept : preserveUserClientId incoming cached = incoming
  · -- Nothing was taken, so what is shown has the incoming client id.
    rw [hkept] at hid ⊢
    unfold preserveUserClientId
    rw [hid]
    split
    · rfl
    split
    · rfl
    · rename_i hempty
      rw [Bool.not_eq_false] at hempty
      rw [if_pos hempty]
  unfold preserveUserClientId at hid hkept ⊢
  split at hid
  · rename_i hno
    rw [if_pos hno] at hkept
    exact absurd rfl hkept
  rename_i huser
  rw [if_neg huser] at hkept ⊢
  simp only [not_or, Decidable.not_not] at huser
  split at hid
  · rename_i hno
    rw [if_pos hno] at hkept
    exact absurd rfl hkept
  rename_i hempty
  rw [if_neg hempty] at hkept ⊢
  split at hid
  · rename_i hno
    rw [if_pos hno] at hkept
    exact absurd rfl hkept
  rename_i hgiven
  rw [if_neg hgiven]
  have hread : shown.get? "clientId" = cached.get? "clientId" := by
    rw [hid]
    cases hc : cached.get? "clientId" with
    | some v => exact (get?_insert hobj _ _ v).trans (if_pos rfl)
    | none => exact get?_erase_self hobj "clientId"
  rw [if_neg, hread, if_neg hempty, if_neg hgiven]
  simp only [not_or, Decidable.not_not]
  exact ⟨huser.1, htype.trans huser.1⟩

variable {projected shown : Json}

lemma keepPreTurn_again (cached : Json) (hobj : projected.isObj = true)
    (hpre : shown.get? "codewidePreTurn" = (keepPreTurn projected cached).get? "codewidePreTurn") :
    keepPreTurn projected shown = keepPreTurn projected cached := by
  rw [keepPreTurn.eq_1 projected cached] at hpre ⊢
  split at hpre
  · rename_i htake
    rw [if_pos htake]
    unfold withProjectedPreTurn at hpre
    rw [get?_insert hobj, if_pos rfl] at hpre
    have hshown : projectedPreTurn shown = true := by
      unfold projectedPreTurn
      rw [hpre]
      rfl
    unfold keepPreTurn
    rw [if_pos ⟨hshown, htake.2⟩]
  rename_i hkeep
  rw [if_neg hkeep]
  have hsame : projectedPreTurn shown = projectedPreTurn projected := by
    unfold projectedPreTurn
    rw [hpre]
  unfold keepPreTurn
  rw [hsame, if_neg]
  intro hboth
  rw [hboth.1] at hboth
  exact Bool.noConfusion hboth.2

lemma projectedLifecyclePhase_of_get? {cached : Json} {phase : String}
    (hphase : projectedLifecyclePhase cached = some phase)
    (h : item.get? "codewideLifecyclePhase" = some (.str phase)) :
    projectedLifecyclePhase item = some phase := by
  have hfilter := (Option.filter_eq_some_iff.mp hphase).2
  have hread : strField item "codewideLifecyclePhase" = some phase := by
    unfold strField
    rw [h]
    rfl
  unfold projectedLifecyclePhase
  rw [hread]
  exact Option.filter_eq_some_iff.mpr ⟨rfl, hfilter⟩

lemma keepLifecycle_again (cached : Json) {preserveLifecycle : Bool} (hobj : projected.isObj = true)
    (hphase : shown.get? "codewideLifecyclePhase" =
      (keepLifecycle projected cached preserveLifecycle).get? "codewideLifecyclePhase") :
    keepLifecycle projected shown preserveLifecycle =
      keepLifecycle projected cached preserveLifecycle := by
  by_cases hlive : preserveLifecycle = true ∧ itemType projected = some "contextCompaction"
  · unfold keepLifecycle at hphase ⊢
    rw [if_pos hlive] at hphase ⊢
    rw [if_pos hlive]
    cases hown : projectedLifecyclePhase projected with
    | some own =>
      simp only [reduceCtorEq, if_false]
      cases projectedLifecyclePhase shown <;> cases projectedLifecyclePhase cached <;> rfl
    | none =>
    rw [hown] at hphase
    cases hcach : projectedLifecyclePhase cached with
    | some phase =>
      rw [hcach] at hphase
      simp only [if_true] at hphase ⊢
      unfold withProjectedLifecycle at hphase
      rw [get?_insert hobj, if_pos rfl] at hphase
      rw [projectedLifecyclePhase_of_get? hcach hphase]
    | none =>
    rw [hcach] at hphase
    simp only at hphase
    have hsame : projectedLifecyclePhase shown = projectedLifecyclePhase projected := by
      unfold projectedLifecyclePhase
      rw [strField_congr hphase]
    rw [hsame, hown]
  · unfold keepLifecycle
    rw [if_neg hlive, if_neg hlive]

lemma preserveProjectedItemMarkers_self (item : Json) (preserveLifecycle : Bool) :
    preserveProjectedItemMarkers item item preserveLifecycle = item := by
  have htext : preserveActiveAgentText item item preserveLifecycle = item := by
    unfold preserveActiveAgentText
    rw [if_pos (.inr (.inr (.inr (.inr rfl))))]
  have hcli : preserveUserClientId item item = item := by
    unfold preserveUserClientId
    split
    · rfl
    split
    · rfl
    · rename_i hempty
      rw [if_pos (Bool.eq_true_of_not_eq_false hempty)]
  have hpre : keepPreTurn item item = item := by
    unfold keepPreTurn
    rw [if_neg]
    intro hboth
    rw [hboth.1] at hboth
    exact Bool.noConfusion hboth.2
  rw [preserveProjectedItemMarkers_eq, htext, hcli, hpre]
  unfold keepLifecycle
  split
  · rename_i phase hphase
    rw [if_neg]
    intro hnone
    rw [hnone, ite_self] at hphase
    cases hphase
  · rfl

lemma preserveProjectedItemMarkers_again {incoming : Json} (hid : idOf incoming ≠ none)
    (cached : Json) (preserveLifecycle : Bool) :
    preserveProjectedItemMarkers incoming
        (preserveProjectedItemMarkers incoming cached preserveLifecycle) preserveLifecycle =
      preserveProjectedItemMarkers incoming cached preserveLifecycle := by
  obtain ⟨shown, hshown⟩ : ∃ shown, preserveProjectedItemMarkers incoming cached
    preserveLifecycle = shown := ⟨_, rfl⟩
  have hsig : sig shown = sig incoming := by
    rw [← hshown, sig_preserveProjectedItemMarkers]
  obtain ⟨texted, htexted⟩ : ∃ texted, preserveActiveAgentText incoming cached
    preserveLifecycle = texted := ⟨_, rfl⟩
  have hsigtext : sig texted = sig incoming := by
    rw [← htexted, sig_preserveActiveAgentText]
  obtain ⟨named, hnamed⟩ : ∃ named, preserveUserClientId texted cached = named := ⟨_, rfl⟩
  have hsignamed : sig named = sig incoming := by
    rw [← hnamed, sig_preserveUserClientId, hsigtext]
  obtain ⟨marked, hmark⟩ : ∃ marked, keepPreTurn named cached = marked := ⟨_, rfl⟩
  have hsigmarked : sig marked = sig incoming := by
    rw [← hmark]
    unfold sig
    rw [get?_keepPreTurn _ _ (by decide), get?_keepPreTurn _ _ (by decide)]
    exact hsignamed
  have hobj : ∀ item : Json, sig item = sig incoming → item.isObj = true := by
    intro item hitem
    exact isObj_of_idOf (by rw [idOf_eq_of_sig hitem]; exact hid)
  have hsteps := hshown
  rw [preserveProjectedItemMarkers_eq, htexted, hnamed, hmark] at hsteps
  have hread : ∀ k, k ≠ "codewideLifecyclePhase" → shown.get? k = marked.get? k := by
    intro k hk
    rw [← hsteps]
    exact get?_keepLifecycle marked cached preserveLifecycle hk
  have hreadPre : ∀ k, k ≠ "codewideLifecyclePhase" → k ≠ "codewidePreTurn" →
      shown.get? k = named.get? k := by
    intro k hk hpre
    rw [hread k hk, ← hmark]
    exact get?_keepPreTurn named cached hpre
  rw [hshown, preserveProjectedItemMarkers_eq,
    preserveActiveAgentText_again cached (itemType_eq_of_sig hsig), htexted,
    preserveUserClientId_again cached (hobj texted hsigtext), hnamed,
    keepPreTurn_again cached (hobj named hsignamed), hmark,
    keepLifecycle_again cached (hobj marked hsigmarked), hsteps]
  · rw [hsteps]
  · rw [hmark]
    exact hread _ (by decide)
  · exact (itemType_eq_of_sig hsig).trans (itemType_eq_of_sig hsigtext).symm
  · rw [hnamed]
    exact hreadPre _ (by decide) (by decide)
  · rw [htexted, hreadPre _ (by decide) (by decide), ← hnamed]
    exact get?_preserveUserClientId texted cached (by decide)

end CodeWide.Projection
