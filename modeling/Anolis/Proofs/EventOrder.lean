import Anolis.Events.EventEmitter
import Mathlib.Data.List.Nodup
import Mathlib.Data.List.Perm.Basic

/-!
# The order of the event ids

An event takes its id in one section of `emit` and reaches a queue in another. A thread that took an
earlier id can push after one that took a later id, and the subscriber then pops the later id first
(`late_push_is_popped_late`). Where no `emit` takes an id for a subscriber while another thread
still has an event to push to that subscriber, every subscriber pops its events in the order of the
ids (`popped_ids_increase`).

The invariant is about one subscriber: `Ordered` says that what it popped and what waits in its
queue increases, and that an event still to be pushed to it is behind all of that.
-/

namespace Anolis.Proofs.EventOrder

open Events Lib

variable {e : EmitterEffect} {em : Emitter} {place' : EmitPlace} {t : ThreadId}

/-! ### The steps by name -/

/-- What a step of a thread does. -/
inductive EmitStep (em : Emitter) : EmitPlace → EmitterEffect → EmitPlace → Prop
  | quiet : EmitStep em .idle .silent .idle
  | taken (body : EventBody) (order : List SubscriptionId) (horder : order.Perm (em.targets body)) :
      EmitStep em .idle (.taken body order) (.left ⟨em.nextEventId, body⟩ order)
  | pushed (event : Event) (id : SubscriptionId) (rest : List SubscriptionId) :
      EmitStep em (.pushing event (id :: rest)) (.pushed id event) (.left event rest)
  | subscribed (filter : EventFilter) (queueSize : Nat) :
      EmitStep em .idle (.subscribed filter queueSize) .idle
  | unsubscribed (id : SubscriptionId) : EmitStep em .idle (.unsubscribed id) .idle
  | popped (id : SubscriptionId) (event : Event) (rest : List Event)
      (hqueue : (em.queues id).queue = event :: rest) : EmitStep em .idle (.popped id event) .idle

theorem emitStep_of_next {place : EmitPlace} {c : EmitterChoice}
    (h : emitterNext em place c = some (e, place')) : EmitStep em place e place' := by
  revert h
  fun_cases emitterNext em place c <;> intro h
  case case2 body order =>
    simp only [takeNext] at h
    split at h
    · rename_i horder
      cases h
      exact .taken body order (List.isPerm_iff.mp horder)
    · cases h
  case case7 id event rest hqueue =>
    cases h
    exact .popped id event rest hqueue
  all_goals cases h
  · exact .pushed ..
  · exact .quiet
  · exact .subscribed ..
  · exact .unsubscribed ..
  · exact .quiet

theorem pushing_of_left {event event' : Event} {targets targets' : List SubscriptionId}
    (h : EmitPlace.left event targets = .pushing event' targets') :
    event' = event ∧ targets' = targets := by
  unfold EmitPlace.left at h
  split at h
  · cases h
  · cases h
    exact ⟨rfl, rfl⟩

/-! ### One subscriber -/

/-- No other thread has an event to push to a subscriber that an event is taken for. -/
def TakenAlone (g : EmitterState) (l : ThreadId × EmitterEffect) : Prop :=
  ∀ body order, l.2 = .taken body order → ∀ u event targets, g.thread u = .pushing event targets →
    ∀ id ∈ order, id ∉ targets

/-- What a subscriber popped, and what waits for it. -/
def seenBy (id : SubscriptionId) (tr : EmitterTrace) (g : EmitterState) : List Event :=
  poppedBy id tr ++ (g.shared.queues id).queue

/-- The events that a thread is still to push to a subscriber. -/
def toPush (id : SubscriptionId) : EmitPlace → List Event
  | .idle => []
  | .pushing event targets => (targets.filter (· = id)).map fun _ => event

/-- The state of one subscriber: what it has seen increases, what a thread is still to push to it
comes behind, and only one thread has something to push to it. -/
structure Ordered (id : SubscriptionId) (tr : EmitterTrace) (g : EmitterState) : Prop where
  increasing : ∀ t, (seenBy id tr g ++ toPush id (g.thread t)).Pairwise
    fun a b => a.eventId < b.eventId
  below : ∀ t, ∀ e ∈ seenBy id tr g ++ toPush id (g.thread t), e.eventId < g.shared.nextEventId
  alone : ∀ t u, t ≠ u → toPush id (g.thread t) = [] ∨ toPush id (g.thread u) = []

theorem toPush_left (id : SubscriptionId) (event : Event) (targets : List SubscriptionId) :
    toPush id (.left event targets) = (targets.filter (· = id)).map fun _ => event := by
  cases targets <;> rfl

/-- The subscriptions have ids of their own. -/
def Registered (em : Emitter) : Prop :=
  (em.subscribers.map Prod.fst).Nodup ∧ ∀ sub ∈ em.subscribers, sub.1 < em.nextSubscriptionId

theorem registered_apply (h : Registered em) (e : EmitterEffect) : Registered (em.apply e) := by
  cases e with
  | silent | taken body order | pushed id event | popped id event => exact h
  | unsubscribed id =>
    refine ⟨?_, fun sub hsub => h.2 sub (List.mem_of_mem_filter hsub)⟩
    exact h.1.sublist (List.filter_sublist.map _)
  | subscribed filter queueSize =>
    refine ⟨?_, ?_⟩
    · simp only [Emitter.apply, List.map_append, List.map_cons, List.map_nil]
      refine List.nodup_append.mpr ⟨h.1, List.nodup_singleton _, ?_⟩
      rintro a ha b hb rfl
      obtain ⟨sub, hsub, rfl⟩ := List.mem_map.mp ha
      exact absurd (List.mem_singleton.mp hb) (Nat.ne_of_lt (h.2 sub hsub))
    · intro sub hsub
      exact forall_snoc (fun sub hsub => Nat.lt_succ_of_lt (h.2 sub hsub))
        (Nat.lt_succ_self _) sub hsub

variable {g : EmitterState} {tr : EmitterTrace}

theorem registered_run {g₀ : EmitterState} (h0 : EmitterStart g₀)
    (h : Run emitterMachine.lts g₀ tr g) : Registered g.shared := by
  refine Run.induct (T := emitterMachine.lts) (J := fun _ g => Registered g.shared) ?_ ?_ h
  · simp [Registered, h0.1]
  · intro tr g l g' _ ih hstep
    obtain ⟨-, -, -, hshared, -, -⟩ := Machine.step_inv hstep
    rw [hshared]
    exact registered_apply ih l.2

theorem poppedBy_snoc (id : SubscriptionId) (tr : EmitterTrace) (g : EmitterState)
    (l : ThreadId × EmitterEffect) :
    poppedBy id (tr ++ [(g, l)]) = poppedBy id tr ++ (l.2.popOf id).toList := by
  cases h : l.2.popOf id <;> simp [poppedBy, h]

theorem push_sublist (q : SubscriberQueue) (e : Event) :
    (q.push e).queue.Sublist (q.queue ++ [e]) := by
  unfold SubscriberQueue.push
  split
  · exact (List.drop_sublist 1 q.queue).append (List.Sublist.refl _)
  · exact List.Sublist.refl _

variable {g' : EmitterState}

/-- A step moves an event of its thread to what the subscriber has seen, or loses one, unless it
takes an event. -/
theorem seenBy_step (id : SubscriptionId) (tr : EmitterTrace)
    (hstep : EmitStep g.shared (g.thread t) e place') (hshared : g'.shared = g.shared.apply e)
    (htaken : ∀ body order, e ≠ .taken body order) :
    (seenBy id (tr ++ [(g, (t, e))]) g' ++ toPush id place').Sublist
      (seenBy id tr g ++ toPush id (g.thread t)) := by
  unfold seenBy
  rw [poppedBy_snoc, hshared]
  generalize g.thread t = place at hstep
  cases hstep with
  | taken body order _ => exact absurd rfl (htaken body order)
  | quiet | unsubscribed _ => simp [EmitterEffect.popOf, Emitter.apply]
  | subscribed filter queueSize =>
    simp only [EmitterEffect.popOf, Emitter.apply, Option.toList_none, List.append_nil, toPush]
    by_cases hid : id = g.shared.nextSubscriptionId
    · rw [hid, Function.update_self]
      exact (List.Sublist.refl _).append (List.nil_sublist _)
    · rw [Function.update_of_ne hid]
  | popped id' event rest hqueue =>
    rcases eq_or_ne id' id with rfl | hid
    · simp [EmitterEffect.popOf, Emitter.apply, hqueue]
    · simp [EmitterEffect.popOf, Emitter.apply, hid, Function.update_of_ne (Ne.symm hid)]
  | pushed event id' rest =>
    rw [toPush_left]
    rcases eq_or_ne id' id with rfl | hid
    · have hpush := (push_sublist (g.shared.queues id') event).append
        (List.Sublist.refl ((rest.filter (· = id')).map fun _ => event))
      simpa [EmitterEffect.popOf, Emitter.apply, toPush] using hpush
    · simp [EmitterEffect.popOf, Emitter.apply, Function.update_of_ne (Ne.symm hid), toPush, hid]

theorem toPush_step (id : SubscriptionId) {place : EmitPlace} (hstep : EmitStep em place e place')
    (htaken : ∀ body order, e ≠ .taken body order) (hnone : toPush id place = []) :
    toPush id place' = [] := by
  cases hstep with
  | taken body order _ => exact absurd rfl (htaken body order)
  | quiet | subscribed _ _ | unsubscribed _ | popped _ _ _ _ => rfl
  | pushed event id' rest =>
    rw [toPush_left]
    simp only [toPush, List.map_eq_nil_iff, List.filter_eq_nil_iff, List.mem_cons] at hnone ⊢
    exact fun x hx => hnone x (.inr hx)

/-- A step that takes no event. -/
theorem Ordered.move {id : SubscriptionId} (h : Ordered id tr g)
    (hstep : EmitStep g.shared (g.thread t) e place')
    (htaken : ∀ body order, e ≠ .taken body order) (hshared : g'.shared = g.shared.apply e)
    (hself : g'.thread t = place') (hother : ∀ u, u ≠ t → g'.thread u = g.thread u) :
    Ordered id (tr ++ [(g, (t, e))]) g' := by
  have hseen := seenBy_step id tr hstep hshared htaken
  have hnext : g'.shared.nextEventId = g.shared.nextEventId := by
    rw [hshared]
    cases e with
    | taken body order => exact absurd rfl (htaken body order)
    | _ => rfl
  -- what a thread brings now, it or the stepping thread brought before
  have hbrought : ∀ u, ∃ v, (seenBy id (tr ++ [(g, (t, e))]) g' ++ toPush id (g'.thread u)).Sublist
      (seenBy id tr g ++ toPush id (g.thread v)) := by
    intro u
    by_cases hu : u = t
    · exact ⟨t, by rw [hu, hself]; exact hseen⟩
    · rw [hother u hu]
      rcases h.alone u t hu with hnone | hnone
      · rw [hnone, List.append_nil]
        exact ⟨t, (List.sublist_append_left _ _).trans hseen⟩
      · rw [hnone, List.append_nil] at hseen
        exact ⟨u, ((List.sublist_append_left _ _).trans hseen).append (List.Sublist.refl _)⟩
  have hempty : ∀ u, toPush id (g.thread u) = [] → toPush id (g'.thread u) = [] := by
    intro u hnone
    rcases eq_or_ne u t with rfl | hu
    · rw [hself]
      exact toPush_step id hstep htaken hnone
    · rwa [hother u hu]
  exact {
    increasing := fun u => by
      obtain ⟨v, hsub⟩ := hbrought u
      exact (h.increasing v).sublist hsub
    below := fun u e he => by
      obtain ⟨v, hsub⟩ := hbrought u
      rw [hnext]
      exact h.below v e (hsub.subset he)
    alone := fun u v hne => (h.alone u v hne).imp (hempty u) (hempty v) }

/-- An event is taken: it is the newest, and no other thread has one to push to its subscribers. -/
theorem Ordered.take {id : SubscriptionId} {body : EventBody} {order : List SubscriptionId}
    (h : Ordered id tr g) (hreg : Registered g.shared)
    (halone : TakenAlone g (t, .taken body order)) (horder : order.Perm (g.shared.targets body))
    (hshared : g'.shared = g.shared.apply (.taken body order))
    (hself : g'.thread t = .left ⟨g.shared.nextEventId, body⟩ order)
    (hother : ∀ u, u ≠ t → g'.thread u = g.thread u) :
    Ordered id (tr ++ [(g, (t, .taken body order))]) g' := by
  have hseen : seenBy id (tr ++ [(g, (t, .taken body order))]) g' = seenBy id tr g := by
    simp [seenBy, poppedBy_snoc, hshared, EmitterEffect.popOf, Emitter.apply]
  have hnodup : order.Nodup := horder.nodup_iff.mpr (hreg.1.sublist (List.filter_sublist.map _))
  -- the thread has the new event for the subscriber at most once
  have hnew : toPush id (g'.thread t) = [] ∨
      id ∈ order ∧ toPush id (g'.thread t) = [⟨g.shared.nextEventId, body⟩] := by
    rw [hself, toPush_left]
    by_cases hid : id ∈ order
    · exact .inr ⟨hid, by simp [List.filter_eq, List.count_eq_one_of_mem hnodup hid]⟩
    · exact .inl (by simpa using fun x hx (hxid : x = id) => hid (hxid ▸ hx))
  have hlast : ∀ e ∈ seenBy id tr g, e.eventId < g.shared.nextEventId :=
    fun e he => h.below t e (List.mem_append_left _ he)
  have hothers : ∀ u, u ≠ t → toPush id (g'.thread t) = [] ∨ toPush id (g'.thread u) = [] := by
    intro u hu
    refine hnew.imp_right fun hmem => ?_
    rw [hother u hu]
    cases hplace : g.thread u with
    | idle => rfl
    | pushing event targets =>
      have hnot := halone body order rfl u event targets hplace id hmem.1
      simpa [toPush] using fun x hx (hxid : x = id) => hnot (hxid ▸ hx)
  exact {
    increasing := fun u => by
      rw [hseen]
      rcases eq_or_ne u t with rfl | hu
      · rcases hnew with hnone | ⟨-, hone⟩
        · rw [hnone]
          exact (h.increasing u).sublist (by simp)
        · rw [hone]
          refine List.pairwise_append.mpr ⟨(h.increasing u).sublist (by simp), by simp, ?_⟩
          simpa using hlast
      · rw [hother u hu]
        exact h.increasing u
    below := fun u e he => by
      rw [hshared]
      refine Nat.lt_succ_iff.mpr ?_
      rw [hseen] at he
      rcases eq_or_ne u t with rfl | hu
      · rcases hnew with hnone | ⟨-, hone⟩
        · rw [hnone, List.append_nil] at he
          exact (hlast e he).le
        · rw [hone] at he
          rcases List.mem_append.mp he with he | he
          · exact (hlast e he).le
          · exact le_of_eq (by rw [List.mem_singleton.mp he])
      · rw [hother u hu] at he
        exact (h.below u e he).le
    alone := fun u v hne => by
      by_cases hu : u = t
      · exact hu ▸ hothers v (hu ▸ Ne.symm hne)
      · by_cases hv : v = t
        · exact hv ▸ (hothers u hu).symm
        · rw [hother u hu, hother v hv]
          exact h.alone u v hne }

/-! ### Runs -/

/-- Where every event is taken alone, every subscriber pops its events in the order of their ids. -/
theorem popped_ids_increase {g₀ g : EmitterState} {tr : EmitterTrace} (h0 : EmitterStart g₀)
    (h : Run emitterMachine.lts g₀ tr g) (halone : ∀ i ∈ tr, TakenAlone i.1 i.2)
    (id : SubscriptionId) : ((poppedBy id tr).map Event.eventId).Pairwise (· < ·) := by
  have hordered : Ordered id tr g := by
    refine Run.induct_of (T := emitterMachine.lts) (C := TakenAlone) (J := Ordered id)
      ?_ ?_ h halone
    · have hseen : seenBy id [] g₀ = [] := by simp [seenBy, poppedBy, h0.2.1 id]
      constructor <;> simp [hseen, h0.2.2, toPush]
    · intro tr g l g' hrun _ hordered hC hstep
      obtain ⟨t, e⟩ := l
      obtain ⟨c, place', hnext, hshared, hself, hother⟩ := Machine.step_inv hstep
      have hplace : EmitStep g.shared (g.thread t) e place' := emitStep_of_next hnext
      by_cases htaken : ∀ body order, e ≠ .taken body order
      · exact hordered.move hplace htaken hshared hself hother
      · push Not at htaken
        obtain ⟨body, order, rfl⟩ := htaken
        generalize g.thread t = place at hplace
        cases hplace with
        | taken _ _ horder =>
          exact hordered.take (registered_run h0 hrun) hC horder hshared hself hother
  rw [List.pairwise_map]
  refine (hordered.increasing 0).sublist ?_
  unfold seenBy
  rw [List.append_assoc]
  exact List.sublist_append_left _ _

/-- An emitter that was just made, with no thread inside an operation. -/
def fresh : EmitterState := ⟨{}, fun _ => .idle⟩

theorem fresh_start : EmitterStart fresh := ⟨rfl, fun _ => rfl, fun _ => rfl⟩

/-- Is an event taken in the step while one of the threads `ts` is inside an `emit`. -/
def takenAmid (ts : List ThreadId) (i : EmitterState × (ThreadId × EmitterEffect)) : Bool :=
  match i.2.2 with
  | .taken _ _ => ts.any fun t => i.1.thread t ≠ .idle
  | _ => false

/-- A step in which no event is taken, or by a thread while all are idle. -/
theorem takenAlone_of_idle {ts : List ThreadId} {i : EmitterState × (ThreadId × EmitterEffect)}
    (hamid : takenAmid ts i = false)
    (hall : (∀ t ∈ ts, i.1.thread t = .idle) → ∀ t, i.1.thread t = .idle) : TakenAlone i.1 i.2 := by
  intro body order htaken u event targets hu
  have hidle : ∀ t ∈ ts, i.1.thread t = .idle := by simpa [takenAmid, htaken] using hamid
  rw [hall hidle u] at hu
  cases hu

/-- Two threads that emit one after the other. -/
theorem popped_ids_increase_in_turn :
    ∃ g tr, Run emitterMachine.lts fresh tr g ∧ (poppedBy 1 tr).length = 2 ∧
      ((poppedBy 1 tr).map Event.eventId).Pairwise (· < ·) := by
  obtain ⟨tr, g, hrun, hpasses⟩ := emitterMachine.run_of_passes fresh
    [(0, .subscribe .all 10), (1, .emit .other [1]), (1, .go), (2, .emit .other [1]), (2, .go),
      (0, .pop 1), (0, .pop 1)]
    (fun tr _ => (∀ i ∈ tr, i.2.1 ∈ [0, 1, 2] ∧ takenAmid [0, 1, 2] i = false) ∧
      (poppedBy 1 tr).length = 2) (by decide)
  obtain ⟨hsteps, hcount⟩ := hpasses
  have hall := (Machine.all_threads (P := fun place => place = EmitPlace.idle) hrun
    (fun i hi => (hsteps i hi).1) fun _ => rfl).2
  exact ⟨g, tr, hrun, hcount, popped_ids_increase fresh_start hrun
    (fun i hi => takenAlone_of_idle (hsteps i hi).2 (hall i hi)) 1⟩

/-- A thread takes the first id, another takes the second and pushes first. -/
theorem late_push_is_popped_late : ¬ ∀ (g₀ g : EmitterState) (tr : EmitterTrace), EmitterStart g₀ →
      Run emitterMachine.lts g₀ tr g →
      ∀ id, ((poppedBy id tr).map Event.eventId).Pairwise (· < ·) := by
  intro hclaim
  obtain ⟨tr, g, hrun, hpopped⟩ := emitterMachine.run_of_passes fresh
    [(0, .subscribe .all 10), (1, .emit .other [1]), (2, .emit .other [1]), (2, .go), (1, .go),
      (0, .pop 1), (0, .pop 1)]
    (fun tr _ => (poppedBy 1 tr).map Event.eventId = [2, 1]) (by decide)
  have hincreasing := hclaim fresh g tr fresh_start hrun 1
  rw [hpopped] at hincreasing
  simp at hincreasing

end Anolis.Proofs.EventOrder
