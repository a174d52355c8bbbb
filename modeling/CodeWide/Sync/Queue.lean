import CodeWide.Store.OutboxOrder

/-!
# Moving a queued command

`companion/queue/move` (`crates/companion-core/src/sync/queue.rs`) names its target, or a
direction.
-/

namespace CodeWide.Sync

open Lib Store List

def requiredString (value : Option Json) (label : String) : Except StoreError String :=
  match value.bind Json.asStr? with
  | some s => .ok s
  | none => .error (.corruptedIndex (label ++ " must be a string"))

def queuedOfThread (commands : List OutboxCommand) (selected : OutboxCommand) :
    List OutboxCommand :=
  commands.filter (fun command => decide (command.remoteThreadId = selected.remoteThreadId) &&
    decide (command.state = .queued))

/-- The target a direction names among the listed commands: nothing at either end of the queue. -/
def queueMoveTarget (commands : List OutboxCommand) (commandId : String) (object : Json) :
    Except StoreError (Option (Option String)) :=
  match commands.find? (fun command => decide (command.commandId = commandId)) with
  | none => .error outboxNotFound
  | some selected =>
    let sameThread := queuedOfThread commands selected
    match sameThread.findIdx? (fun command => decide (command.commandId = commandId)) with
    | none => .error (.corruptedIndex "outbox command is not queued")
    | some index =>
      match ((object.get? "direction").bind Json.asI64?).filter
          (fun direction => decide (direction = -1) || decide (direction = 1)) with
      | none => .error (.corruptedIndex "queue direction must be -1 or 1")
      | some direction =>
        let target := (index : Int) + direction
        if target < 0 ∨ (sameThread.length : Int) ≤ target then .ok none
        else if direction < 0 then
          .ok (some (sameThread[target.toNat]?.map (·.commandId)))
        else .ok (some (sameThread[target.toNat + 1]?.map (·.commandId)))

def queueMoveRelative (listed table : Outbox) (now : Nat) (commandId : String) (object : Json) :
    Except StoreError (Outbox × Bool) := do
  match ← queueMoveTarget (outboxList listed none) commandId object with
  | none => .ok (table, false)
  | some before => outboxPlace table now commandId before

def queueMove (listed table : Outbox) (now : Nat) (object : Json) :
    Except StoreError (Outbox × Bool) := do
  let commandId ← requiredString (object.get? "commandId") "commandId"
  match object.get? "beforeCommandId" with
  | some .null => outboxPlace table now commandId none
  | some before => do
    let before ← requiredString (some before) "beforeCommandId"
    outboxPlace table now commandId (some before)
  | none => queueMoveRelative listed table now commandId object

structure MovesBy (object : Json) (selected : OutboxCommand) (direction : Int) : Prop where
  names : (object.get? "commandId").bind Json.asStr? = some selected.commandId
  relative : object.get? "beforeCommandId" = none
  directed : (object.get? "direction").bind Json.asI64? = some direction
  unit : direction = -1 ∨ direction = 1

variable {table : Outbox} {now : Nat} {selected : OutboxCommand} {object : Json}

lemma split_unique {l front back front' back' : List String} (hnodup : l.Nodup)
    (h : l = front ++ back) (h' : l = front' ++ back') (hhead : back.head? = back'.head?) :
    front = front' ∧ back = back' := by
  cases back with
  | nil =>
    cases back' with
    | nil => exact ⟨by simpa using h.symm.trans h', rfl⟩
    | cons a rest => cases hhead
  | cons a rest =>
  cases back' with
  | nil => cases hhead
  | cons b rest' =>
  cases hhead
  have hfront : ∀ {f r : List String}, l = f ++ a :: r → a ∉ f := by
    rintro f r rfl hmem
    exact (nodup_append.mp hnodup).2.2 a hmem a mem_cons_self rfl
  have hrest : ∀ {f r : List String}, l = f ++ a :: r → a ∉ r := by
    rintro f r rfl
    exact (nodup_cons.mp (nodup_append.mp hnodup).2.1).1
  obtain ⟨hf, -, hr⟩ :=
    (append_cons_inj_of_notMem (hfront h) (hrest h)).mp (h.symm.trans h')
  exact ⟨hf, by rw [hr]⟩

lemma findIdx?_split {l front back : List OutboxCommand} {row : OutboxCommand}
    (h : l = front ++ row :: back) (hnodup : (l.map (·.commandId)).Nodup) :
    l.findIdx? (fun command => decide (command.commandId = row.commandId)) = some front.length := by
  rw [findIdx?_eq_some_iff_getElem]
  subst h
  refine ⟨by simp, by simp, fun j hj => ?_⟩
  rw [getElem_append_left hj]
  rw [map_append, map_cons] at hnodup
  intro heq
  have hmem : row.commandId ∈ front.map (·.commandId) :=
    mem_map.mpr ⟨front[j], getElem_mem hj, of_decide_eq_true heq⟩
  exact (nodup_append.mp hnodup).2.2 _ hmem _ mem_cons_self rfl

lemma queueMove_listed (hkeyed : Keyed table)
    (hget : table.get? selected.commandId = some selected) {front back : List OutboxCommand}
    (hqueue : queuedOfThread (outboxList table none) selected = front ++ selected :: back)
    {direction : Int} (hmove : MovesBy object selected direction) :
    queueMove table table now object = if (front.length : Int) + direction < 0 ∨
          ((front ++ selected :: back).length : Int) ≤ front.length + direction then
        .ok (table, false)
      else if direction < 0 then
        outboxPlace table now selected.commandId
          ((front ++ selected :: back)[((front.length : Int) + direction).toNat]?.map (·.commandId))
      else outboxPlace table now selected.commandId
        ((front ++ selected :: back)[((front.length : Int) + direction).toNat + 1]?.map
          (·.commandId)) := by
  have hfind : (outboxList table none).find?
      (fun command => decide (command.commandId = selected.commandId)) = some selected := by
    cases hfind : (outboxList table none).find?
        (fun command => decide (command.commandId = selected.commandId)) with
    | none =>
      have := find?_eq_none.mp hfind selected (mem_outboxList.mpr ⟨_, hget⟩)
      simp at this
    | some row =>
    obtain ⟨d, hrow⟩ := mem_outboxList.mp (mem_of_find?_eq_some hfind)
    have heq : row.commandId = selected.commandId := by simpa using find?_some hfind
    rw [hkeyed d row hrow] at heq
    rw [heq, hget] at hrow
    exact hrow.symm
  have hids : ((front ++ selected :: back).map (·.commandId)).Nodup := by
    rw [← hqueue]
    refine List.Nodup.sublist (filter_sublist.map _) ?_
    rw [outboxList_none]
    exact ((outboxSort_perm _).map _).nodup_iff.mpr (nodup_commandIds hkeyed)
  have hindex := findIdx?_split rfl hids
  unfold queueMove requiredString
  rw [hmove.names, hmove.relative]
  change queueMoveRelative table table now selected.commandId object = _
  unfold queueMoveRelative queueMoveTarget
  rw [hfind]
  dsimp only
  rw [hqueue, hindex, hmove.directed]
  have hfilter : (some direction).filter
      (fun d => decide (d = -1) || decide (d = 1)) = some direction := by
    rw [Option.filter_some]
    simp [hmove.unit]
  dsimp only
  rw [hfilter]
  dsimp only
  split
  · rfl
  · split <;> rfl

end CodeWide.Sync
