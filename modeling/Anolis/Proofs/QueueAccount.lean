import Anolis.Events.EventEmitter

/-!
# No event of a subscriber is lost uncounted

Each of `push`, `pop`, `try_pop` and `close` is one section under the queue's mutex, so a schedule
of the producers and consumers is a list of them. `Account` carries every run: the events that were
pushed are those that are gone, then those that are held.
-/

namespace Anolis.Events

/-- The event that an operation pushes. -/
@[simp] def QueueOp.pushed : QueueOp → List Event
  | .push event => [event]
  | _ => []

/-- The event that an answer hands out. -/
def QueueAnswer.events : QueueAnswer → List Event
  | .popped (some event) => [event]
  | _ => []

/-- The runs of a new queue: what was pushed, what was popped, and the queue after it. -/
inductive QueueRun (maxSize : Nat) : List Event → List Event → ClosableQueue → Prop
  | new : QueueRun maxSize [] [] { maxSize }
  | step {pushed popped : List Event} {q : ClosableQueue} (op : QueueOp)
      (h : QueueRun maxSize pushed popped q) :
      QueueRun maxSize (pushed ++ op.pushed) (popped ++ (q.exec op).2.events) (q.exec op).1

/-- What carries a run: the events that are gone were pushed before those that are held, and each of
them was popped, in order, or counted as dropped. -/
def Account (maxSize : Nat) (pushed popped : List Event) (q : ClosableQueue) : Prop :=
  q.maxSize = maxSize ∧ q.queue.length ≤ maxSize ∧ ∃ gone, pushed = gone ++ q.queue ∧
    popped.Sublist gone ∧ gone.length = popped.length + q.droppedCount

variable {maxSize : Nat} {q : ClosableQueue} {pushed popped : List Event}

theorem Account.push (hsize : 0 < maxSize) (h : Account maxSize pushed popped q) (event : Event) :
    Account maxSize (pushed ++ [event]) popped (q.exec (.push event)).1 := by
  obtain ⟨hmax, hle, gone, rfl, hsub, hgone⟩ := h
  simp only [ClosableQueue.exec, SubscriberQueue.push, hmax]
  split
  case isFalse hroom =>
    exact ⟨rfl, by simp; omega, gone, by simp, hsub, hgone⟩
  case isTrue hfull =>
    obtain ⟨oldest, rest, hq⟩ := List.exists_cons_of_length_pos (hsize.trans_le hfull)
    rw [hq] at hle ⊢
    refine ⟨rfl, by simpa, gone ++ [oldest], by simp, ?_, by simp; omega⟩
    exact hsub.trans (List.sublist_append_left ..)

theorem Account.pop (h : Account maxSize pushed popped q) :
    Account maxSize pushed (popped ++ q.pop.2.events) q.pop.1 := by
  obtain ⟨hmax, hle, gone, rfl, hsub, hgone⟩ := h
  unfold ClosableQueue.pop
  split
  case h_1 hq => exact ⟨hmax, hle, gone, rfl, by simpa [QueueAnswer.events], by simpa⟩
  case h_2 event rest hq =>
    rw [hq, List.length_cons] at hle
    refine ⟨hmax, by simp; omega, gone ++ [event], by simp [hq], hsub.append (.refl _), ?_⟩
    simp only [QueueAnswer.events, List.length_append]
    omega

theorem QueueRun.account (hsize : 0 < maxSize) (h : QueueRun maxSize pushed popped q) :
    Account maxSize pushed popped q := by
  induction h with
  | new => exact ⟨rfl, Nat.zero_le _, [], rfl, .refl _, rfl⟩
  | step op _ ih =>
    cases op with
    | push event => simpa [QueueAnswer.events] using ih.push hsize event
    | pop | tryPop => simpa using ih.pop
    | close => simpa [Account, QueueAnswer.events] using ih

/-- Of a queue that can hold an event, after any operations: it holds the newest of the events that
were pushed, each other one was popped, in order, or is counted as dropped; and what one more
operation does. -/
theorem queue_accounts (hsize : 0 < maxSize) (h : QueueRun maxSize pushed popped q) :
    q.queue.length ≤ maxSize ∧
      pushed.length = popped.length + q.droppedCount + q.queue.length ∧
      (popped ++ q.queue).Sublist pushed ∧ q.queue <:+ pushed ∧
      (∀ event, q.queue.length < maxSize ∧
          q.exec (.push event) = ({ q with queue := q.queue ++ [event] }, .pushed true) ∨
        q.queue.length = maxSize ∧ q.exec (.push event) =
          ({ q with queue := q.queue.tail ++ [event], droppedCount := q.droppedCount + 1 },
            .pushed false)) ∧
      q.exec .close = ({ q with closed := true }, .closed) := by
  obtain ⟨hmax, hle, gone, rfl, hsub, hgone⟩ := h.account hsize
  refine ⟨hle, by simp; omega, hsub.append (.refl _), ⟨gone, rfl⟩, fun event => ?_, rfl⟩
  simp only [ClosableQueue.exec, SubscriberQueue.push, hmax, ← List.drop_one]
  rcases Nat.lt_or_ge q.queue.length maxSize with hroom | hfull
  · exact .inl ⟨hroom, by simp [hroom, Nat.not_le.mpr hroom]⟩
  · exact .inr ⟨le_antisymm hle hfull, by simp [hfull, Nat.not_lt.mpr hfull]⟩

theorem queue_accounts_overflow :
    ((ClosableQueue.mk ⟨1, [⟨1, .other⟩], 0⟩ false).exec (.push ⟨2, .other⟩)).1.queue <:+
      [⟨1, .other⟩, ⟨2, .other⟩] :=
  (queue_accounts Nat.one_pos (.step (.push ⟨2, .other⟩) (.step (.push ⟨1, .other⟩) .new))).2.2.2.1

end Anolis.Events
