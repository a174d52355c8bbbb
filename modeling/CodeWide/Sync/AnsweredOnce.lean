import CodeWide.Sync.ServerResponses
import Mathlib.Data.List.Nodup

/-!
# Every pending request is answered at most once

A request gets one answer as long as nobody but its own response releases its key.
-/

namespace CodeWide.Sync.Pending

open Lib List Table Function Option Exchange

variable {e : Encoder}

/-! ## Numbers of pending keys -/

/-- The pending keys have different numbers, all of them given before. -/
structure Numbered (keys : String → Prop) (births : String → Nat) (next : Nat) : Prop where
  fresh : ∀ key, keys key → births key < next
  inj : ∀ key key', keys key → keys key' → births key = births key' → key = key'

namespace Numbered

variable {keys keys' : String → Prop} {births : String → Nat} {next : Nat}

lemma shrink (h : Numbered keys births next) (hkeys : ∀ key, keys' key → keys key) :
    Numbered keys' births next where
  fresh key hkey := h.fresh key (hkeys key hkey)
  inj key key' hkey hkey' := h.inj key key' (hkeys key hkey) (hkeys key' hkey')

lemma born_cases (h : Numbered keys births next) {key : String}
    (hkeys : ∀ k, keys' k → k = key ∨ keys k) {k : String} (hk : keys' k) :
    k = key ∧ update births key next k = next ∨
      k ≠ key ∧ keys k ∧ update births key next k = births k ∧ births k < next := by
  by_cases hne : k = key
  · refine .inl ⟨hne, ?_⟩
    rw [hne]
    exact update_self _ _ _
  · have hold := (hkeys k hk).resolve_left hne
    exact .inr ⟨hne, hold, update_of_ne hne _ _, h.fresh k hold⟩

lemma born (h : Numbered keys births next) {key : String}
    (hkeys : ∀ k, keys' k → k = key ∨ keys k) :
    Numbered keys' (update births key next) (next + 1) := by
  constructor
  · intro k hk
    rcases h.born_cases hkeys hk with ⟨-, hbirth⟩ | ⟨-, -, hbirth, hlt⟩ <;> omega
  intro k k' hk hk' heq
  rcases h.born_cases hkeys hk with ⟨rfl, hbirth⟩ | ⟨-, hold, hbirth, hlt⟩ <;>
    rcases h.born_cases hkeys hk' with ⟨rfl, hbirth'⟩ | ⟨-, hold', hbirth', hlt'⟩
  · rfl
  · omega
  · omega
  · exact h.inj k k' hold hold' (by omega)

end Numbered

/-! ## Who answers a request -/

def unconfirmed (n : Nat) (d : Delivery) : Nat :=
  if d.serial = n ∧ d.outcome ≠ some none then 1 else 0

/-- Numbers are new when they are given, and a delivery belongs to the request it was admitted for.
-/
structure Tracked (x : Exchange) : Prop where
  numbered : Numbered (fun key => x.pending.requests.contains key = true) x.births x.nextSerial
  freshDelivery : ∀ ticket d, x.deliveries.get? ticket = some d → d.serial < x.nextSerial
  freshDelivered : ∀ n ∈ x.delivered, n < x.nextSerial
  tickets : ∀ ticket, x.nextTicket ≤ ticket → x.deliveries.get? ticket = none
  owner : ∀ ticket d key, x.deliveries.get? ticket = some d →
    x.pending.requests.contains key = true → x.births key = d.serial → key = d.key
  answered : ∀ ticket d, x.deliveries.get? ticket = some d → d.outcome = some none →
    d.serial ∈ x.delivered
  free : ∀ key, x.pending.requests.contains key = true → key ∉ x.pending.resolving →
    x.births key ∉ x.delivered ∧
      ∀ ticket d, x.deliveries.get? ticket = some d → d.serial ≠ x.births key
  once : ∀ n, x.delivered.count n + x.deliveries.sum (unconfirmed n) ≤ 1

lemma tracked_empty : Tracked {} where
  numbered := ⟨fun _ h => (nomatch h), fun _ _ h => (nomatch h)⟩
  freshDelivery _ _ h := nomatch h
  freshDelivered _ h := nomatch h
  tickets _ _ := rfl
  owner _ _ _ h := nomatch h
  answered _ _ h := nomatch h
  free _ h := nomatch h
  once _ := Nat.zero_le 1

namespace Tracked

variable {x : Exchange}

variable {pending : PendingServerRequests}

lemma shrink (h : Tracked x) (hkeys : ∀ key, pending.requests.contains key = true →
      x.pending.requests.contains key = true)
    (hfree : ∀ key, pending.requests.contains key = true → key ∉ pending.resolving →
      key ∉ x.pending.resolving) : Tracked { x with pending := pending } :=
  { h with
    numbered := h.numbered.shrink hkeys
    owner := fun ticket d key hd hkey => h.owner ticket d key hd (hkeys key hkey)
    free := fun key hkey hres => h.free key (hkeys key hkey) (hfree key hkey hres) }

lemma remove (h : Tracked x) (e : Encoder) (key : String) :
    Tracked { x with pending := removeServerRequestLocked e x.pending key } := by
  obtain ⟨hreqs, -, hreso⟩ := removeRequest_fields e x.pending key
  have hkeys : ∀ k, (removeServerRequestLocked e x.pending key).requests.contains k = true →
      k ≠ key ∧ x.pending.requests.contains k = true := by
    intro k hk
    rw [hreqs, contains_erase_iff] at hk
    exact hk
  refine h.shrink (fun k hk => (hkeys k hk).2) (fun k hk hfree hmem => hfree ?_)
  rw [hreso]
  exact mem_filter.mpr ⟨hmem, decide_eq_true (hkeys k hk).1⟩

lemma born (h : Tracked x) {key : String} (hreso : pending.resolving = x.pending.resolving)
    (hkeys : ∀ k, pending.requests.contains k = true →
      k = key ∨ x.pending.requests.contains k = true) :
    Tracked { x with
      pending := pending
      births := update x.births key x.nextSerial
      nextSerial := x.nextSerial + 1 } := by
  have hcases := fun {k} => @Numbered.born_cases _ (fun k => pending.requests.contains k = true)
    _ _ h.numbered key hkeys k
  constructor
  · exact h.numbered.born hkeys
  · intro ticket d hd
    have := h.freshDelivery ticket d hd
    show d.serial < x.nextSerial + 1
    omega
  · intro n hn
    have := h.freshDelivered n hn
    show n < x.nextSerial + 1
    omega
  · exact h.tickets
  · intro ticket d k hd hk heq
    change update x.births key x.nextSerial k = d.serial at heq
    rcases hcases hk with ⟨-, hbirth⟩ | ⟨-, hold, hbirth, -⟩
    · have := h.freshDelivery ticket d hd
      omega
    · exact h.owner ticket d k hd hold (hbirth.symm.trans heq)
  · exact h.answered
  · intro k hk hfree
    show update x.births key x.nextSerial k ∉ x.delivered ∧
      ∀ ticket d, x.deliveries.get? ticket = some d → d.serial ≠ update x.births key x.nextSerial k
    rcases hcases hk with ⟨-, hbirth⟩ | ⟨-, hold, hbirth, -⟩
    · rw [hbirth]
      refine ⟨fun hmem => ?_, fun ticket d hd => ?_⟩
      · have := h.freshDelivered _ hmem
        omega
      · have := h.freshDelivery ticket d hd
        omega
    · rw [hbirth]
      exact h.free k hold (fun hmem => hfree (hreso ▸ hmem))
  · exact h.once

lemma admitted (h : Tracked x) {key : String} (hpend : x.pending.requests.contains key = true)
    (hfree : key ∉ x.pending.resolving) (response : Json) :
    Tracked { x with
      pending := { x.pending with resolving := key :: x.pending.resolving }
      deliveries := x.deliveries.insert x.nextTicket
        { key := key, serial := x.births key, response := response }
      nextTicket := x.nextTicket + 1 } := by
  obtain ⟨hundelivered, hunserved⟩ := h.free key hpend hfree
  -- A delivery is the admitted one or an earlier one.
  have hcases : ∀ {ticket d}, (x.deliveries.insert x.nextTicket
      { key := key, serial := x.births key, response := response }).get? ticket = some d →
      d = { key := key, serial := x.births key, response := response } ∨
        x.deliveries.get? ticket = some d := by
    intro ticket d hd
    rw [get?_insert] at hd
    split at hd
    · exact .inl (some.inj hd).symm
    · exact .inr hd
  constructor
  · exact h.numbered
  · intro ticket d hd
    rcases hcases hd with rfl | hd
    · exact h.numbered.fresh key hpend
    · exact h.freshDelivery ticket d hd
  · exact h.freshDelivered
  · intro ticket htick
    change x.nextTicket + 1 ≤ ticket at htick
    show (x.deliveries.insert x.nextTicket _).get? ticket = none
    rw [get?_insert_of_ne _ _ (by omega), h.tickets ticket (by omega)]
  · intro ticket d k hd hk heq
    rcases hcases hd with rfl | hd
    · exact h.numbered.inj k key hk hpend heq
    · exact h.owner ticket d k hd hk heq
  · intro ticket d hd hout
    rcases hcases hd with rfl | hd
    · cases hout
    · exact h.answered ticket d hd hout
  · intro k hk hnot
    change k ∉ key :: x.pending.resolving at hnot
    rw [mem_cons, not_or] at hnot
    obtain ⟨hnever, hother⟩ := h.free k hk hnot.2
    refine ⟨hnever, fun ticket d hd => ?_⟩
    rcases hcases hd with rfl | hd
    · exact fun heq => hnot.1 (h.numbered.inj k key hk hpend heq.symm)
    · exact hother ticket d hd
  intro n
  have hsum := x.deliveries.sum_insert x.nextTicket
    { key := key, serial := x.births key, response := response } (unconfirmed n)
  rw [h.tickets _ (le_refl _), map_none, getD_none] at hsum
  show x.delivered.count n + (x.deliveries.insert x.nextTicket _).sum (unconfirmed n) ≤ 1
  by_cases hn : n = x.births key
  · subst hn
    have hzero : x.deliveries.sum (unconfirmed (x.births key)) = 0 :=
      sum_eq_zero (fun ticket d hd => if_neg (fun hc => hunserved ticket d hd hc.1))
    have hcount : x.delivered.count (x.births key) = 0 := count_eq_zero.mpr hundelivered
    have hone : unconfirmed (x.births key)
        { key := key, serial := x.births key, response := response } = 1 :=
      if_pos ⟨rfl, by simp⟩
    omega
  have hnone : unconfirmed n { key := key, serial := x.births key, response := response } = 0 :=
    if_neg (fun hc => hn hc.1.symm)
  have := h.once n
  omega

section

variable (h : Tracked x)
include h

lemma update {ticket : Nat} {d : Delivery} (d' : Delivery)
    (hd : x.deliveries.get? ticket = some d) (hkey : d'.key = d.key) (hserial : d'.serial = d.serial)
    {delivered : List Nat} (hdlv : ∀ n, n ∈ delivered ↔ n ∈ x.delivered ∨
      (n = d.serial ∧ d'.outcome = some none))
    (hcount : ∀ n, delivered.count n + unconfirmed n d' = x.delivered.count n + unconfirmed n d) :
    Tracked { x with
      deliveries := x.deliveries.insert ticket d'
      delivered := delivered } := by
  have hcases : ∀ {t c}, (x.deliveries.insert ticket d').get? t = some c →
      c = d' ∨ x.deliveries.get? t = some c := by
    intro t c hc
    rw [get?_insert] at hc
    split at hc
    · exact .inl (some.inj hc).symm
    · exact .inr hc
  constructor
  · exact h.numbered
  · intro t c hc
    rcases hcases hc with rfl | hc
    · have := h.freshDelivery ticket d hd
      show c.serial < x.nextSerial
      omega
    · exact h.freshDelivery t c hc
  · intro n hn
    rcases (hdlv n).mp hn with hn | ⟨rfl, -⟩
    · exact h.freshDelivered n hn
    · exact h.freshDelivery ticket d hd
  · intro t ht
    show (x.deliveries.insert ticket d').get? t = none
    have hnone := h.tickets t ht
    have hne : t ≠ ticket := by
      rintro rfl
      rw [hd] at hnone
      cases hnone
    rw [get?_insert_of_ne _ _ hne, hnone]
  · intro t c k hc hk heq
    rcases hcases hc with rfl | hc
    · rw [hkey]
      exact h.owner ticket d k hd hk (heq.trans hserial)
    · exact h.owner t c k hc hk heq
  · intro t c hc hout
    rcases hcases hc with rfl | hc
    · exact (hdlv _).mpr (.inr ⟨hserial, hout⟩)
    · exact (hdlv _).mpr (.inl (h.answered t c hc hout))
  · intro k hk hfree
    obtain ⟨hnever, hother⟩ := h.free k hk hfree
    refine ⟨fun hmem => ?_, fun t c hc => ?_⟩
    · rcases (hdlv _).mp hmem with hmem | ⟨heq, -⟩
      · exact hnever hmem
      · exact hother ticket d hd heq.symm
    rcases hcases hc with rfl | hc
    · rw [hserial]
      exact hother ticket d hd
    · exact hother t c hc
  intro n
  have hsum := x.deliveries.sum_insert ticket d' (unconfirmed n)
  rw [hd, map_some, getD_some] at hsum
  have := hcount n
  have := h.once n
  show delivered.count n + (x.deliveries.insert ticket d').sum (unconfirmed n) ≤ 1
  omega

lemma deliver (ticket : Nat) (error : Option ProviderError) : Tracked (x.deliver ticket error) := by
  unfold Exchange.deliver
  split
  · exact h
  rename_i d hd
  split
  · exact h
  rename_i hopen
  have hnone : d.outcome = none := by simpa using hopen
  refine h.update { d with outcome := some error } hd rfl rfl (fun n => ?_) (fun n => ?_)
  · cases error with
    | none | some error => simp
  have hbef : unconfirmed n d = if d.serial = n then 1 else 0 := by
    unfold unconfirmed
    simp [hnone]
  cases error with
  | none =>
    have hafter : unconfirmed n { d with outcome := some none } = 0 := if_neg (fun hc => hc.2 rfl)
    show (x.delivered ++ [d.serial]).count n + _ = _
    rw [hafter, hbef, count_append, count_singleton, Nat.add_zero]
    by_cases hn : d.serial = n
    · simp [hn]
    · simp [hn]
  | some error =>
  have hafter : unconfirmed n { d with outcome := some (some error) } =
      if d.serial = n then 1 else 0 := by
    unfold unconfirmed
    simp
  rw [hafter, hbef]
  simp

lemma abort (ticket : Nat) : Tracked (x.abort ticket) := by
  unfold Exchange.abort
  split
  · exact h
  rename_i d hd
  exact h.update { d with aborted := true } hd rfl rfl
    (fun n => ⟨.inl, fun hn => hn.elim id (fun hn => hn.1 ▸ h.answered ticket d hd hn.2)⟩)
    (fun n => rfl)

lemma release {ticket : Nat} {d : Delivery} {error : ProviderError}
    (hd : x.deliveries.get? ticket = some d) (hout : d.outcome = some (some error))
    (hheld : x.pending.requests.contains d.key = true → d.key ∈ x.pending.resolving →
      x.births d.key = d.serial) :
    Tracked { x with
      pending := { x.pending with
        resolving := x.pending.resolving.filter (fun k => decide (k ≠ d.key)) }
      deliveries := x.deliveries.erase ticket } := by
  have herase : ∀ {t c}, (x.deliveries.erase ticket).get? t = some c →
      t ≠ ticket ∧ x.deliveries.get? t = some c := by
    intro t c hc
    obtain ⟨hne, hc⟩ := of_get?_erase hc
    exact ⟨hne, hc⟩
  have hsum := fun n => x.deliveries.sum_erase ticket (unconfirmed n)
  simp only [hd, map_some, getD_some] at hsum
  -- The failed delivery was the only one of its request.
  have halone : d.serial ∉ x.delivered ∧ ∀ t c, (x.deliveries.erase ticket).get? t = some c →
      c.serial ≠ d.serial := by
    have honce := h.once d.serial
    have hself : unconfirmed d.serial d = 1 := if_pos ⟨rfl, by rw [hout]; simp⟩
    have hsum' := hsum d.serial
    have hnever : d.serial ∉ x.delivered := count_eq_zero.mp (by omega)
    refine ⟨hnever, fun t c hc heq => ?_⟩
    have hle := le_sum hc (unconfirmed d.serial)
    have hconf : c.outcome = some none := by
      by_contra hne
      have hone : unconfirmed d.serial c = 1 := if_pos ⟨heq, hne⟩
      omega
    exact hnever (heq ▸ h.answered t c (herase hc).2 hconf)
  constructor
  · exact h.numbered
  · exact fun t c hc => h.freshDelivery t c (herase hc).2
  · exact h.freshDelivered
  · intro t ht
    show (x.deliveries.erase ticket).get? t = none
    rw [get?_erase, h.tickets t ht, ite_self]
  · exact fun t c k hc hk heq => h.owner t c k (herase hc).2 hk heq
  · exact fun t c hc hout' => h.answered t c (herase hc).2 hout'
  · intro k hk hfree
    change k ∉ x.pending.resolving.filter (fun k => decide (k ≠ d.key)) at hfree
    by_cases hmem : k ∈ x.pending.resolving
    · have hkey : k = d.key := by
        by_contra hne
        exact hfree (mem_filter.mpr ⟨hmem, decide_eq_true hne⟩)
      subst hkey
      show x.births d.key ∉ x.delivered ∧ ∀ t c, (x.deliveries.erase ticket).get? t = some c →
        c.serial ≠ x.births d.key
      rw [hheld hk hmem]
      exact halone
    · obtain ⟨hnever, hother⟩ := h.free k hk hmem
      exact ⟨hnever, fun t c hc => hother t c (herase hc).2⟩
  intro n
  have hsum' := hsum n
  have honce := h.once n
  show x.delivered.count n + (x.deliveries.erase ticket).sum (unconfirmed n) ≤ 1
  omega

lemma settle (e : Encoder) (ticket : Nat) (key : String) : Tracked { x with
      pending := removeServerRequestLocked e x.pending key
      deliveries := x.deliveries.erase ticket } := by
  have herase : ∀ {t c}, (x.deliveries.erase ticket).get? t = some c →
      x.deliveries.get? t = some c := by
    intro t c hc
    exact (of_get?_erase hc).2
  have hrest : Tracked { x with deliveries := x.deliveries.erase ticket } :=
    { h with
      freshDelivery := fun t c hc => h.freshDelivery t c (herase hc)
      tickets := fun t ht => by
        show (x.deliveries.erase ticket).get? t = none
        rw [get?_erase, h.tickets t ht, ite_self]
      owner := fun t c k hc => h.owner t c k (herase hc)
      answered := fun t c hc => h.answered t c (herase hc)
      free := fun k hk hfree => by
        obtain ⟨hnever, hother⟩ := h.free k hk hfree
        exact ⟨hnever, fun t c hc => hother t c (herase hc)⟩
      once := fun n => by
        have hsum := x.deliveries.sum_erase ticket (unconfirmed n)
        have honce := h.once n
        show x.delivered.count n + (x.deliveries.erase ticket).sum (unconfirmed n) ≤ 1
        omega }
  exact hrest.remove e key

lemma track {payload : Json} (hacct : Accounted e x.pending)
    (hobs : observeServerRequest e x.pending payload = some pending) :
    Tracked (x.track payload e pending) := by
  unfold observeServerRequest at hobs
  unfold Exchange.track
  split at hobs
  · rename_i hseen
    cases hobs
    rw [hseen]
    exact h
  · rename_i key hseen
    cases hobs
    rw [hseen]
    exact h.remove e key
  rename_i key hseen
  rw [hseen]
  dsimp only
  obtain ⟨-, hshape⟩ := hacct.retainRequest hobs
  have hreso : pending.resolving = x.pending.resolving := by rw [hshape]
  have hkeys : ∀ k, pending.requests.contains k = true →
      k = key ∨ x.pending.requests.contains k = true := by
    intro k hk
    rw [hshape] at hk
    change (x.pending.requests.insert key payload).contains k = true at hk
    rw [contains_insert_iff] at hk
    exact hk
  split
  · rename_i hold
    refine h.shrink (fun k hk => ?_) (fun k _ hfree hmem => hfree (hreso ▸ hmem))
    rcases hkeys k hk with rfl | hk
    · exact hold
    · exact hk
  · exact h.born hreso hkeys

lemma observe (hacct : Accounted e x.pending) (payloads : List Json) :
    Tracked (x.observe e payloads) := by
  induction payloads generalizing x with
  | nil => exact h
  | cons payload rest ih =>
  rw [observe]
  cases hobs : observeServerRequest e x.pending payload with
  | none => exact h
  | some pending =>
  refine ih (h.track hacct hobs) ?_
  rw [track_pending]
  exact hacct.observeOne hobs

lemma disconnect (e : Encoder) (owned : Json → Bool) :
    Tracked { x with pending := clearUserRequestsOnDisconnect e owned x.pending } := by
  unfold clearUserRequestsOnDisconnect
  generalize disconnectedKeys owned x.pending = keys
  induction keys generalizing x with
  | nil => exact h
  | cons key rest ih => exact ih (h.remove e key)

end

end Tracked

/-! ## Who answers a rejection -/

/-- The same for the rejections, which one task delivers one after the other. -/
structure RejectionsTracked (x : Exchange) : Prop where
  numbered : Numbered (fun key => x.pending.dynamicToolRejections.contains key = true)
    x.rejectionBirths x.nextRejection
  freshRetry : ∀ r, x.retry = some r → r.serial < x.nextRejection
  freshRejected : ∀ n ∈ x.rejected, n < x.nextRejection
  owner : ∀ r key, x.retry = some r → x.pending.dynamicToolRejections.contains key = true →
    x.rejectionBirths key = r.serial → key = r.key
  held : ∀ key, x.pending.dynamicToolRejections.contains key = true →
    x.rejectionBirths key ∈ x.rejected →
    ∃ r, x.retry = some r ∧ r.serial = x.rejectionBirths key ∧ r.outcome = some none
  unsent : ∀ r, x.retry = some r → r.outcome ≠ some none → r.serial ∉ x.rejected
  once : x.rejected.Nodup

lemma rejectionsTracked_empty : RejectionsTracked {} where
  numbered := ⟨fun _ h => (nomatch h), fun _ _ h => (nomatch h)⟩
  freshRetry _ h := nomatch h
  freshRejected _ h := nomatch h
  owner _ _ h := nomatch h
  held _ h := nomatch h
  unsent _ h := nomatch h
  once := nodup_nil

namespace RejectionsTracked

variable {x : Exchange}

section

variable (h : RejectionsTracked x)
include h

lemma shrink {y : Exchange}
    (hsame : y.rejectionBirths = x.rejectionBirths ∧ y.nextRejection = x.nextRejection ∧
      y.retry = x.retry ∧ y.rejected = x.rejected)
    (hkeys : ∀ key, y.pending.dynamicToolRejections.contains key = true →
      x.pending.dynamicToolRejections.contains key = true) : RejectionsTracked y := by
  obtain ⟨hbirths, hnext, hretry, hrej⟩ := hsame
  constructor
  · rw [hbirths, hnext]
    exact h.numbered.shrink hkeys
  · intro r hr
    rw [hnext]
    exact h.freshRetry r (hretry ▸ hr)
  · intro n hn
    rw [hnext]
    exact h.freshRejected n (hrej ▸ hn)
  · intro r key hr hkey heq
    rw [hbirths] at heq
    exact h.owner r key (hretry ▸ hr) (hkeys key hkey) heq
  · intro key hkey hmem
    rw [hbirths, hrej] at hmem
    rw [hretry, hbirths]
    exact h.held key (hkeys key hkey) hmem
  · intro r hr hout
    rw [hrej]
    exact h.unsent r (hretry ▸ hr) hout
  · rw [hrej]
    exact h.once

lemma born {key : String} {pending : PendingServerRequests}
    (hkeys : ∀ k, pending.dynamicToolRejections.contains k = true →
      k = key ∨ x.pending.dynamicToolRejections.contains k = true) :
    RejectionsTracked { x with
      pending := pending
      rejectionBirths := update x.rejectionBirths key x.nextRejection
      nextRejection := x.nextRejection + 1 } := by
  have hcases := fun {k} => @Numbered.born_cases _
    (fun k => pending.dynamicToolRejections.contains k = true) _ _ h.numbered key hkeys k
  constructor
  · exact h.numbered.born hkeys
  · intro r hr
    have := h.freshRetry r hr
    show r.serial < x.nextRejection + 1
    omega
  · intro n hn
    have := h.freshRejected n hn
    show n < x.nextRejection + 1
    omega
  · intro r k hr hk heq
    change update x.rejectionBirths key x.nextRejection k = r.serial at heq
    rcases hcases hk with ⟨-, hbirth⟩ | ⟨-, hold, hbirth, -⟩
    · have := h.freshRetry r hr
      omega
    · exact h.owner r k hr hold (hbirth.symm.trans heq)
  · intro k hk hmem
    change update x.rejectionBirths key x.nextRejection k ∈ x.rejected at hmem
    rcases hcases hk with ⟨-, hbirth⟩ | ⟨-, hold, hbirth, -⟩
    · have := h.freshRejected _ hmem
      omega
    · rw [hbirth] at hmem
      obtain ⟨r, hr, hserial, hout⟩ := h.held k hold hmem
      exact ⟨r, hr, hserial.trans hbirth.symm, hout⟩
  · exact h.unsent
  · exact h.once

lemma pick (key : String) : RejectionsTracked (x.pickRejection key) := by
  unfold pickRejection
  split
  · rename_i hpick
    obtain ⟨hnone, hpend⟩ := hpick
    rw [isNone_iff_eq_none] at hnone
    have hunheld : ∀ k, x.pending.dynamicToolRejections.contains k = true →
        x.rejectionBirths k ∉ x.rejected := by
      intro k hk hmem
      obtain ⟨r, hr, -⟩ := h.held k hk hmem
      rw [hnone] at hr
      cases hr
    constructor
    · exact h.numbered
    · intro r hr
      cases hr
      exact h.numbered.fresh key hpend
    · exact h.freshRejected
    · intro r k hr hk heq
      cases hr
      exact h.numbered.inj k key hk hpend heq
    · exact fun k hk hmem => absurd hmem (hunheld k hk)
    · intro r hr _
      cases hr
      exact hunheld key hpend
    · exact h.once
  · exact h

lemma deliver (error : Option ProviderError) : RejectionsTracked (x.deliverRejection error) := by
  unfold deliverRejection
  split
  · exact h
  rename_i r hr
  split
  · exact h
  rename_i hopen
  have hnone : r.outcome = none := by simpa using hopen
  have hunsent : r.serial ∉ x.rejected := h.unsent r hr (by rw [hnone]; simp)
  have hunheld : ∀ k, x.pending.dynamicToolRejections.contains k = true →
      x.rejectionBirths k ∉ x.rejected := by
    intro k hk hmem
    obtain ⟨r', hr', -, hout⟩ := h.held k hk hmem
    rw [hr] at hr'
    cases hr'
    rw [hnone] at hout
    cases hout
  cases error with
  | none =>
    constructor
    · exact h.numbered
    · intro r' hr'
      cases hr'
      exact h.freshRetry r hr
    · intro n hn
      rcases mem_concat.mp hn with hn | hn
      · exact h.freshRejected n hn
      · rw [hn]
        exact h.freshRetry r hr
    · intro r' k hr' hk heq
      cases hr'
      exact h.owner r k hr hk heq
    · intro k hk hmem
      rcases mem_concat.mp hmem with hmem | hmem
      · exact absurd hmem (hunheld k hk)
      · exact ⟨_, rfl, hmem.symm, rfl⟩
    · intro r' hr' hout
      cases hr'
      exact absurd rfl hout
    · refine nodup_append.mpr ⟨h.once, by simp, ?_⟩
      rintro a ha b hb rfl
      exact hunsent (mem_singleton.mp hb ▸ ha)
  | some error =>
  constructor
  · exact h.numbered
  · intro r' hr'
    cases hr'
    exact h.freshRetry r hr
  · exact h.freshRejected
  · intro r' k hr' hk heq
    cases hr'
    exact h.owner r k hr hk heq
  · exact fun k hk hmem => absurd hmem (hunheld k hk)
  · intro r' hr' _
    cases hr'
    exact hunsent
  · exact h.once

lemma finish : RejectionsTracked x.finishRejection := by
  -- Without a retry no rejection in the table has been answered.
  have hend : ∀ {pending : PendingServerRequests},
      (∀ key, pending.dynamicToolRejections.contains key = true →
        x.pending.dynamicToolRejections.contains key = true ∧ x.rejectionBirths key ∉ x.rejected) →
      RejectionsTracked { x with pending := pending, retry := none } := by
    intro pending hkeys
    constructor
    · exact h.numbered.shrink (fun key hkey => (hkeys key hkey).1)
    · exact fun r hr => nomatch hr
    · exact h.freshRejected
    · exact fun r _ hr => nomatch hr
    · exact fun key hkey hmem => absurd hmem (hkeys key hkey).2
    · exact fun r hr => nomatch hr
    · exact h.once
  unfold finishRejection
  split
  · exact h
  rename_i r hr
  split
  · exact h
  · refine hend (fun key hkey => ?_)
    rw [removeRejection_rejections, contains_erase_iff] at hkey
    refine ⟨hkey.2, fun hmem => ?_⟩
    obtain ⟨r', hr', hserial, -⟩ := h.held key hkey.2 hmem
    rw [hr] at hr'
    cases hr'
    exact hkey.1 (h.owner r key hr hkey.2 hserial.symm)
  rename_i error hout
  refine hend (fun key hkey => ⟨hkey, fun hmem => ?_⟩)
  obtain ⟨r', hr', -, hconf⟩ := h.held key hkey hmem
  rw [hr] at hr'
  cases hr'
  rw [hout] at hconf
  cases hconf

end

end RejectionsTracked

/-! ## Whole runs -/

/-- What a step has to meet. A failed delivery releases only the request it was admitted for. -/
def Meets (e : Encoder) (x : Exchange) : Event → Prop
  | .finish ticket => ∀ d error, x.deliveries.get? ticket = some d → d.aborted = false →
    d.outcome = some (some error) → d.key ∈ x.pending.resolving → x.births d.key = d.serial
  | .observe payloads => (observeServerRequests e x.pending payloads).2 = false →
    ∀ payload, payloads.find? (fun p => !inert e x.pending p) = some payload →
      observeServerRequest e x.pending payload = none
  | _ => True

structure Sound (e : Encoder) (x : Exchange) : Prop where
  accounted : Accounted e x.pending
  tracked : Tracked x
  rejections : RejectionsTracked x

lemma tracked_step {x : Exchange} (h : Tracked x) (hacct : Accounted e x.pending)
    {event : Event} (hmeets : Meets e x event) : Tracked (step e x event) := by
  have hretry : ∀ {y : Exchange}, y.pending.requests = x.pending.requests →
      y.pending.resolving = x.pending.resolving → y.births = x.births →
      y.nextSerial = x.nextSerial → y.deliveries = x.deliveries → y.nextTicket = x.nextTicket →
      y.delivered = x.delivered → Tracked y := by
    intro y hreqs hreso hbirths hserial hdlvs htick hdlv
    constructor
    · rw [hreqs, hbirths, hserial]
      exact h.numbered
    · rw [hdlvs, hserial]
      exact h.freshDelivery
    · rw [hdlv, hserial]
      exact h.freshDelivered
    · rw [hdlvs, htick]
      exact h.tickets
    · rw [hdlvs, hreqs, hbirths]
      exact h.owner
    · rw [hdlvs, hdlv]
      exact h.answered
    · rw [hreqs, hreso, hbirths, hdlv, hdlvs]
      exact h.free
    · rw [hdlv, hdlvs]
      exact h.once
  cases event with
  | observe payloads => exact h.observe hacct payloads
  | reject payload =>
    show Tracked (x.reject e payload)
    unfold reject
    split
    · rename_i pending hretained
      obtain ⟨-, rejection, hshape⟩ := hacct.reject hretained
      have hreqs : pending.requests = x.pending.requests := by rw [hshape]
      have hreso : pending.resolving = x.pending.resolving := by rw [hshape]
      dsimp only
      split <;> exact hretry hreqs hreso rfl rfl rfl rfl rfl
    · exact h
  | disconnect owned => exact h.disconnect e owned
  | respond response =>
    show Tracked (x.respond e response)
    unfold respond
    split
    · exact h
    rename_i admission hadm
    obtain ⟨-, hpend, hfree, hshape⟩ := hacct.admitted hadm
    rw [hshape]
    exact h.admitted hpend hfree _
  | deliver ticket error => exact h.deliver ticket error
  | finish ticket =>
    show Tracked (x.finish e ticket)
    unfold finish
    split
    · exact h
    rename_i d hd
    split
    · exact h
    rename_i error hout
    split
    · exact h
    rename_i haborted
    cases error with
    | none => exact h.settle e ticket d.key
    | some error =>
      exact h.release hd hout (fun _ hmem =>
        hmeets d error hd (eq_false_of_ne_true haborted) hout hmem)
  | abort ticket => exact h.abort ticket
  | pickRejection key =>
    show Tracked (x.pickRejection key)
    unfold pickRejection
    split
    · exact hretry rfl rfl rfl rfl rfl rfl rfl
    · exact h
  | deliverRejection error =>
    show Tracked (x.deliverRejection error)
    unfold deliverRejection
    split
    · exact h
    · split
      · exact h
      · exact hretry rfl rfl rfl rfl rfl rfl rfl
  | finishRejection =>
  show Tracked x.finishRejection
  unfold finishRejection
  split
  · exact h
  split
  · exact h
  · exact hretry (removeRejection_requests _ _) (removeRejection_resolving _ _) rfl rfl rfl rfl rfl
  · exact hretry rfl rfl rfl rfl rfl rfl rfl

variable {p : PendingServerRequests}

lemma contains_of_remove {key k : String}
    (h : (removeServerRequestLocked e p key).dynamicToolRejections.contains k = true) :
    p.dynamicToolRejections.contains k = true := by
  rw [(removeRequest_fields e p key).2.1, contains_erase, Bool.and_eq_true] at h
  exact h.2

lemma RejectionsTracked.observe {x : Exchange} (h : RejectionsTracked x)
    (hacct : Accounted e x.pending) (payloads : List Json) :
    RejectionsTracked (x.observe e payloads) := by
  induction payloads generalizing x with
  | nil => exact h
  | cons payload rest ih =>
  rw [Exchange.observe]
  cases hobs : observeServerRequest e x.pending payload with
  | none => exact h
  | some pending =>
  have hsame : (x.track payload e pending).rejectionBirths = x.rejectionBirths ∧
      (x.track payload e pending).nextRejection = x.nextRejection ∧
      (x.track payload e pending).retry = x.retry ∧
      (x.track payload e pending).rejected = x.rejected := by
    unfold Exchange.track
    split
    · split <;> exact ⟨rfl, rfl, rfl, rfl⟩
    · exact ⟨rfl, rfl, rfl, rfl⟩
  refine ih (h.shrink hsame (fun key hkey => ?_)) ?_
  · rw [Exchange.track_pending] at hkey
    unfold observeServerRequest at hobs
    split at hobs
    · cases hobs
      exact hkey
    · cases hobs
      exact contains_of_remove hkey
    · rw [(hacct.retainRequest hobs).2] at hkey
      exact hkey
  · rw [Exchange.track_pending]
    exact hacct.observeOne hobs

lemma rejections_step {x : Exchange} (h : RejectionsTracked x)
    (hacct : Accounted e x.pending) (event : Event) : RejectionsTracked (step e x event) := by
  cases event with
  | observe payloads => exact h.observe hacct payloads
  | reject payload =>
    show RejectionsTracked (x.reject e payload)
    unfold reject
    split
    · rename_i pending hretained
      obtain ⟨-, rejection, hshape⟩ := hacct.reject hretained
      have hkeys : ∀ k, pending.dynamicToolRejections.contains k = true →
          k = rpcIdKey e ((payload.get? "id").getD .null) ∨
            x.pending.dynamicToolRejections.contains k = true := by
        intro k hk
        rw [hshape] at hk
        change (x.pending.dynamicToolRejections.insert _ rejection).contains k = true at hk
        rw [contains_insert_iff] at hk
        exact hk
      dsimp only
      split
      · rename_i hold
        refine h.shrink ⟨rfl, rfl, rfl, rfl⟩ (fun k hk => ?_)
        rcases hkeys k hk with rfl | hk
        · exact hold
        · exact hk
      · exact h.born hkeys
    · exact h
  | disconnect owned =>
    refine h.shrink ⟨rfl, rfl, rfl, rfl⟩ ?_
    show ∀ key, (clearUserRequestsOnDisconnect e owned x.pending).dynamicToolRejections.contains key =
      true → x.pending.dynamicToolRejections.contains key = true
    unfold clearUserRequestsOnDisconnect
    generalize disconnectedKeys owned x.pending = keys
    generalize x.pending = pending
    induction keys generalizing pending with
    | nil => exact fun _ hk => hk
    | cons key rest ih => exact fun k hk => contains_of_remove (ih _ k hk)
  | respond response =>
    show RejectionsTracked (x.respond e response)
    unfold respond
    split
    · exact h
    rename_i admission hadm
    obtain ⟨-, -, -, hshape⟩ := hacct.admitted hadm
    refine h.shrink ⟨rfl, rfl, rfl, rfl⟩ (fun k hk => ?_)
    change admission.pending.dynamicToolRejections.contains k = true at hk
    rw [hshape] at hk
    exact hk
  | deliver ticket error =>
    show RejectionsTracked (x.deliver ticket error)
    unfold deliver
    split
    · exact h
    · split
      · exact h
      · exact h.shrink ⟨rfl, rfl, rfl, rfl⟩ (fun _ hk => hk)
  | finish ticket =>
    show RejectionsTracked (x.finish e ticket)
    unfold finish
    split
    · exact h
    split
    · exact h
    rename_i error hout
    split
    · exact h
    refine h.shrink ⟨rfl, rfl, rfl, rfl⟩ (fun k hk => ?_)
    cases error with
    | none => exact contains_of_remove hk
    | some error => exact hk
  | abort ticket =>
    show RejectionsTracked (x.abort ticket)
    unfold abort
    split
    · exact h
    · exact h.shrink ⟨rfl, rfl, rfl, rfl⟩ (fun _ hk => hk)
  | pickRejection key => exact h.pick key
  | deliverRejection error => exact h.deliver error
  | finishRejection => exact h.finish

lemma sound_step {x : Exchange} {event : Event} (h : Sound e x) (hmeets : Meets e x event) :
    Sound e (step e x event) where
  accounted := accounted_step h.accounted event
  tracked := tracked_step h.tracked h.accounted hmeets
  rejections := rejections_step h.rejections h.accounted event

lemma observe_of_refused (h : Accounted e p) {payloads : List Json}
    (hfirst : ∀ payload, payloads.find? (fun q => !inert e p q) = some payload →
      observeServerRequest e p payload = none)
    (href : (observeServerRequests e p payloads).2 = false) :
    (observeServerRequests e p payloads).1 = p := by
  induction payloads with
  | nil => cases href
  | cons payload rest ih =>
  rw [observeServerRequests] at href ⊢
  cases hobs : observeServerRequest e p payload with
  | none => rfl
  | some p' =>
  rw [hobs] at href
  dsimp only at href ⊢
  by_cases hinert : inert e p payload = true
  · obtain rfl := observeOne_of_inert h hinert hobs
    refine ih (fun q hq => hfirst q ?_) href
    rw [find?_cons_of_neg (by rw [hinert]; simp)]
    exact hq
  · have hnone := hfirst payload (find?_cons_of_pos (by simpa using hinert))
    rw [hobs] at hnone
    cases hnone

/-- The accounts are right, and nothing has been answered twice. -/
def Holds (e : Encoder) (events : List Event) : Prop :=
  ∀ before after, events = before ++ after →
    Accounted e (exec (step e) {} before).pending ∧
      (exec (step e) {} before).delivered.Nodup ∧ (exec (step e) {} before).rejected.Nodup ∧
      ∀ payloads rest, after = .observe payloads :: rest →
        (observeServerRequests e (exec (step e) {} before).pending payloads).2 = false →
        (step e (exec (step e) {} before) (.observe payloads)).pending =
          (exec (step e) {} before).pending

theorem holds_of_meets (e : Encoder) (events : List Event)
    (hmeets : Always (step e) (Meets e) {} events) : Holds e events := by
  intro before after hsplit
  rw [hsplit, always_append] at hmeets
  obtain ⟨hbef, hafter⟩ := hmeets
  have hsound : Sound e (exec (step e) {} before) :=
    exec_invariant_of_always (fun x event h hm => sound_step h hm)
      ⟨accounted_empty, tracked_empty, rejectionsTracked_empty⟩ hbef
  refine ⟨hsound.accounted, ?_, hsound.rejections.once, ?_⟩
  · refine nodup_iff_count_le_one.mpr (fun n => ?_)
    have := hsound.tracked.once n
    omega
  intro payloads rest hnext href
  subst hnext
  show ((exec (step e) {} before).observe e payloads).pending = _
  rw [observe_pending]
  exact observe_of_refused hsound.accounted (hafter.1 href) href

/-! ## A late failure -/

def quoted (text : String) : String :=
  String.ofList ('"' :: text.toList.flatMap (fun c =>
    if c = '"' ∨ c = '\\' then ['\\', c] else [c]) ++ ['"'])

mutual

/-- The compact text of a value without fractions and control characters. -/
def plainText : Json → String
  | .null => "null"
  | .bool b => if b then "true" else "false"
  | .int n => (if n < 0 then "-" else "") ++ n.natAbs.repr
  | .float _ => "0.0"
  | .str s => quoted s
  | .arr items => "[" ++ plainItems items ++ "]"
  | .obj fields => "\x7b" ++ plainFields fields ++ "\x7d"

def plainItems : List Json → String
  | [] => ""
  | [v] => plainText v
  | v :: w :: rest => plainText v ++ "," ++ plainItems (w :: rest)

def plainFields : List (String × Json) → String
  | [] => ""
  | [(k, v)] => quoted k ++ ":" ++ plainText v
  | (k, v) :: f :: rest => quoted k ++ ":" ++ plainText v ++ "," ++ plainFields (f :: rest)

end

lemma plainText_ne_empty (v : Json) : plainText v ≠ "" := by
  intro h
  have hchars := congrArg String.toList h
  cases v with
  | null => exact absurd h (by decide)
  | bool b => cases b <;> exact absurd h (by decide)
  | int n =>
    have hdigits : n.natAbs.repr.toList = [] := by
      rw [plainText, String.toList_append] at hchars
      exact (append_eq_nil_iff.mp hchars).2
    exact Nat.repr_ne_empty (String.toList_eq_nil_iff.mp hdigits)
  | float bits => exact absurd (show "0.0" = "" from h) (by decide)
  | str s => simp [plainText, quoted] at hchars
  | arr items | obj fields => simp [plainText] at hchars

def plain : Encoder := ⟨plainText, plainText_ne_empty⟩

def question : Json :=
  .ofFields [("id", .str "q"), ("method", .str "item/tool/requestUserInput"),
    ("params", .ofFields [("threadId", .str "t")])]

def answer : Json := .ofFields [("id", .str "q"), ("result", .obj [])]

/-- The question is asked again, and the first answer's delivery fails after the second was
admitted. -/
def lateFailure : List Event :=
  [.observe [question], .respond answer, .disconnect (fun _ => true), .observe [question],
    .respond answer, .deliver 0 (some .disconnected), .finish 0, .respond answer, .deliver 1 none,
    .deliver 2 none]

theorem answered_twice : ¬ Holds plain lateFailure := by
  intro h
  have hnodup := (h lateFailure [] (append_nil _).symm).2.1
  have hdlv : (exec (step plain) {} lateFailure).delivered = [1, 1] := by decide +kernel
  rw [hdlv] at hnodup
  exact absurd hnodup (by decide)

/-- A question that is answered meets the condition. -/
theorem holds_of_meets_answer :
    Always (step plain) (Meets plain) {} [.observe [question], .respond answer, .deliver 0 none,
        .finish 0] ∧
      Holds plain [.observe [question], .respond answer, .deliver 0 none, .finish 0] := by
  have hmeets : Always (step plain) (Meets plain) {} [.observe [question], .respond answer,
      .deliver 0 none, .finish 0] := by
    refine ⟨fun href => ?_, trivial, trivial, fun d error hd _ hout => ?_, trivial⟩
    · exact absurd href (by decide)
    have hfirst : (step plain (step plain (step plain {} (.observe [question]))
        (.respond answer)) (.deliver 0 none)).deliveries.get? 0 =
          some { key := "string:\"q\"", serial := 0, response := answer, outcome := some none } := by
      decide
    rw [hfirst] at hd
    cases hd
    cases hout
  exact ⟨hmeets, holds_of_meets plain _ hmeets⟩

end CodeWide.Sync.Pending
