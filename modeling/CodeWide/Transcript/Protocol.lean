import CodeWide.Transcript.Lifecycle

/-!
# The events of a turn

Every method of the builder is a trail of moves of its board (`call_trail`), and the end of the turn
completes what is open (`TurnProtocol`).
-/

namespace CodeWide.Transcript

open Lib List Option Table Trail ItemBoard.Move

variable {Call : Type} {t : ToolItems Call} {calls : List TurnBuilder.BuilderCall}
  {b : TurnBuilder Call}

namespace TurnBuilder

/-! ## The message held back -/

variable {id : String}

variable {item : AgentItem Call}

variable {slot : ItemSlot Call}

variable {board : ItemBoard Call}

/-- The id of the next report names no started item of another kind. -/
def Apart (b : TurnBuilder Call) : BuilderCall → Prop
  | .taskNotification .. =>
    ∀ slot, b.slots.get? (notificationId b.context.turnId b.notificationCount) = some slot →
      slot.item.body.isNotification = true
  | _ => True

variable {finalAfter : Option (List (AgentEvent Call))} {log : List (AgentEvent Call)}

variable (context : TurnBuilderContext)

end TurnBuilder

/-! ## The protocol -/

open TurnBuilder

variable (usage : Option TurnUsageRecord)

@[simp] lemma startedIds_usageEvents :
    startedIds (usageEvents usage : List (AgentEvent Call)) = [] := by
  cases usage <;> rfl

@[simp] lemma completedIds_usageEvents :
    completedIds (usageEvents usage : List (AgentEvent Call)) = [] := by
  cases usage <;> rfl

end CodeWide.Transcript
