import Mathlib.Data.Set.Finite.Basic
import RouteFast.System.Drain
import RouteFast.System.Messages

/-! No state of the three services is a dead end: whatever crashes, redeliveries and stale
messages a run has been through, the services can work off all messages without anyone's help. -/

namespace RouteFast

open Transition ReadCommitted

/-- How far an event is from its last consequence. -/
def EventType.rank : EventType → ℕ
  | .orderReadyForDispatch => 5
  | .driverReservationRequested => 4
  | .driverReserved | .driverReservationFailed => 3
  | .driverReleaseRequested => 2
  | .driverReleased => 1
  | .dispatchStarted | .dispatchAssigned | .dispatchFailed | .dispatchCancelled => 0

/-- Ids that `randomUUID()` can still return. -/
structure Draw.Unused (draw : Draw) (w : Databases) : Prop where
  injective : Function.Injective draw.uuid
  unused : ∀ n, draw.uuid n ∉ w.issued ∧ draw.uuid n ≠ ""

theorem infinite_uuid : Infinite Uuid :=
  Infinite.of_injective (fun n : ℕ => String.ofList (List.replicate n 'a')) fun m n h => by
    simpa using congrArg String.length h

theorem exists_unused (w : Databases) : ∃ draw : Draw, draw.Unused w := by
  have := infinite_uuid
  have hfinite : {id | id ∈ "" :: w.issued}.Finite := List.finite_toSet _
  have f := hfinite.infinite_compl.natEmbedding
  refine ⟨⟨fun n => (f n).1, 0, fun _ _ => false, .ok [], none⟩, fun m n h => ?_, fun n => ?_⟩
  · exact f.injective (Subtype.ext h)
  · have hnot : (f n).1 ∉ "" :: w.issued := (f n).2
    exact ⟨fun h => hnot (List.mem_cons_of_mem _ h), fun h => hnot (List.mem_cons.2 (Or.inl h))⟩

section Fresh

variable {settings : Settings} {w w' : Databases} {rows : List OutboxRow} {draw : Draw}
  {B : Queue → Message → Prop}

/-- The step issued the ids of these rows, and no others. -/
structure Databases.Enqueued (w w' : Databases) (rows : List OutboxRow) : Prop where
  issued : w'.issued.Perm (rows.map OutboxRow.id ++ w.issued)
  rows : ∀ r ∈ w'.outbox, r ∈ w.outbox ∨ r ∈ rows

theorem Databases.Enqueued.fresh (h : w.Enqueued w' rows) (hfresh : (wiring settings).Fresh w)
    (hdraw : draw.Unused w) (ns : List ℕ) (hns : ns.Nodup)
    (hids : rows.map OutboxRow.id = ns.map draw.uuid) : (wiring settings).Fresh w' := by
  have hperm : w'.issued.Perm (ns.map draw.uuid ++ w.issued) := hids ▸ h.issued
  constructor
  · refine hperm.nodup_iff.2 (List.Nodup.append (hns.map hdraw.injective) hfresh.1 ?_)
    intro id hid
    obtain ⟨n, -, rfl⟩ := List.mem_map.1 hid
    exact (hdraw.unused n).1
  · intro hempty
    rcases List.mem_append.1 (hperm.mem_iff.1 hempty) with hid | hid
    · obtain ⟨n, -, hn⟩ := List.mem_map.1 hid
      exact (hdraw.unused n).2 hn
    · exact hfresh.2 hid

theorem enqueued_dispatch {db : DispatchDb} (h : db.outbox = w.dispatch.outbox ++ rows) :
    w.Enqueued { w with dispatch := db } rows := by
  constructor
  · simp only [Databases.issued, Databases.outbox, h, List.map_append, List.perm_iff_count,
      List.count_append]
    intro id
    omega
  · intro r hr
    simp only [Databases.outbox, h, List.mem_append] at hr ⊢
    tauto

theorem enqueued_driver {db : DriverDb} (h : db.outbox = w.driver.outbox ++ rows)
    (hids : db.drivers.map Driver.id = w.driver.drivers.map Driver.id) :
    w.Enqueued { w with driver := db } rows := by
  constructor
  · simp only [Databases.issued, Databases.outbox, h, hids, List.map_append, List.perm_iff_count,
      List.count_append]
    intro id
    omega
  · intro r hr
    simp only [Databases.outbox, h, List.mem_append] at hr ⊢
    tauto

/-- A transaction that enqueues rows with ids of the draw, all of the kind `B`. -/
theorem Databases.Enqueued.solo (h : w.Enqueued w' rows) (hfresh : (wiring settings).Fresh w)
    (hdraw : draw.Unused w) (ns : List ℕ) (hns : ns.Nodup)
    (hids : rows.map OutboxRow.id = ns.map draw.uuid)
    (hB : ∀ r ∈ rows, B r.targetQueue r.message) :
    (wiring settings).Fresh w' ∧ ∀ r ∈ (wiring settings).outbox w',
      r ∈ (wiring settings).outbox w ∨ B r.targetQueue r.message :=
  ⟨h.fresh hfresh hdraw ns hns hids, fun r hr => (h.rows r hr).imp_right (hB r)⟩

end Fresh

section Handlers

variable {settings : Settings} {w : Databases} {draw : Draw} {B : Queue → Message → Prop}

/-- A lifecycle use case enqueues nothing. -/
theorem solo_order (hfresh : (wiring settings).Fresh w) (p : OrderRequest) :
    (wiring settings).Solo B (onOrder p.execute) w := by
  rw [p.execute_eq]
  refine .read rfl hfresh ?_
  cases w.order.findById p.orderId with
  | none =>
    refine .finished ?_ w
    rw [Proc.finished_within]
    exact p.finished_missing
  | some order =>
    cases hmethod : p.command.apply p.now order with
    | error e =>
      simp only [hmethod]
      exact .finished rfl w
    | ok order' =>
      simp only [hmethod]
      exact .step hfresh (fun r hr => Or.inl hr) (.finished rfl _)

/-- A transaction on a dispatch that there is enqueues one event at most. -/
theorem solo_operation (hfresh : (wiring settings).Fresh w) (hdraw : draw.Unused w)
    (op : DispatchOp) (hevent : ∀ d o r, op.outcome d = .ok o → o.event = some r →
      r.id = draw.uuid 0 ∧ B r.targetQueue r.message) :
    (wiring settings).Solo B (onDispatch (dispatchTransaction op.body)) w := by
  refine .atomically rfl hfresh fun u db hrun => ?_
  rw [op.run_body] at hrun
  cases hrow : w.dispatch.row op.dispatchId with
  | none =>
    rw [hrow] at hrun
    cases hm : op.missing with
    | error e => simp [hm, Except.map] at hrun
    | ok x =>
      obtain rfl : w.dispatch = db := by simpa [hm, Except.map] using hrun
      exact ⟨hfresh, fun r hr => Or.inl hr⟩
  | some d =>
    rw [hrow] at hrun
    cases ho : op.outcome d with
    | error e => simp [ho, Except.map] at hrun
    | ok o =>
      obtain rfl : w.dispatch.after o = db := by simpa [ho, Except.map] using hrun
      have henqueued : w.Enqueued { w with dispatch := w.dispatch.after o } o.event.toList :=
        enqueued_dispatch rfl
      cases he : o.event with
      | none =>
        exact henqueued.solo hfresh hdraw [] List.nodup_nil (by simp [he]) (by simp [he])
      | some r =>
        obtain ⟨hid, hr⟩ := hevent d o r ho he
        exact henqueued.solo hfresh hdraw [0] (List.nodup_singleton 0) (by simp [he, hid])
          (by simpa [he] using hr)

theorem solo_start (hfresh : (wiring settings).Fresh w) (hdraw : draw.Unused w) (d : Dispatch)
    (plan : Option DispatchStartPlan) (hstarted : B .orderEvents
      (DispatchEvent.started d (draw.uuid 2) draw.now).message)
    (hrequested : B .driverEvents
      (DispatchEvent.reservationRequested d plan (draw.uuid 3) draw.now).message) :
    (wiring settings).Solo B (onDispatch (startAndSchedule d plan draw)) w := by
  refine Wiring.Solo.andThen (.atomically rfl hfresh fun u db hrun => ?_) fun w => ?_
  · have hexec : w.dispatch.exec (DispatchWorkflow.start d plan (draw.uuid 1) (draw.uuid 2)
        (draw.uuid 3) draw.now) = db := by
      simp only [DispatchDb.exec, hrun]
    rcases w.dispatch.exec_start_cases d plan (draw.uuid 1) (draw.uuid 2) (draw.uuid 3) draw.now
      with hsame | ⟨-, -, hstart⟩
    · obtain rfl : w.dispatch = db := hsame.symm.trans hexec
      exact ⟨hfresh, fun r hr => Or.inl hr⟩
    · have henqueued : w.Enqueued { w with dispatch := db }
          [DispatchEvent.started d (draw.uuid 2) draw.now,
            DispatchEvent.reservationRequested d plan (draw.uuid 3) draw.now] :=
        enqueued_dispatch (by rw [← hexec, hstart])
      refine henqueued.solo hfresh hdraw [2, 3] (by decide) rfl fun r hr => ?_
      rcases List.mem_pair.1 hr with rfl | rfl
      · exact hstarted
      · exact hrequested
  · refine .finished ?_ w
    rw [Proc.finished_within]
    cases draw.scheduled <;> rfl

/-- No state of the dispatches and no answer of the other services stops a start half-way. -/
theorem solo_startDispatch (hfresh : (wiring settings).Fresh w) (hdraw : draw.Unused w)
    (orderId c priority : String) (pickup : Option (ℚ × ℚ))
    (hstarted : ∀ d, B .orderEvents (DispatchEvent.started d (draw.uuid 2) draw.now).message)
    (hrequested : ∀ d plan, B .driverEvents
      (DispatchEvent.reservationRequested d plan (draw.uuid 3) draw.now).message) :
    (wiring settings).Solo B (onDispatch (startDispatch settings orderId c priority pickup draw))
      w := by
  refine .read rfl hfresh ?_
  cases w.dispatch.findByOrderId orderId with
  | some d => exact .finished rfl w
  | none =>
    cases pickup with
    | none => exact solo_start hfresh hdraw _ _ (hstarted _) (hrequested _ _)
    | some pickup =>
      cases hranked : draw.ranked with
      | error e =>
        simp only
        exact .finished rfl w
      | ok ranked =>
        simp only
        exact solo_start hfresh hdraw _ _ (hstarted _) (hrequested _ _)

theorem solo_reserve (hlinked : w.driver.Linked) (hfresh : (wiring settings).Fresh w)
    (hdraw : draw.Unused w) (input : ReserveDriverInput)
    (hreserved : ∀ driverId, B .dispatchEvents
      (DriverEvent.reserved input driverId (draw.uuid 1) draw.now).message)
    (hfailed : ∀ reason, B .dispatchEvents
      (DriverEvent.reservationFailed input reason (draw.uuid 1) draw.now).message) :
    (wiring settings).Solo B (onDriver (driverTransaction draw.locked (DriverReservations.reserve
      settings.hashtext input (draw.uuid 0) (draw.uuid 1) draw.now))) w := by
  refine .atomically rfl hfresh fun u db hrun => ?_
  have enqueue {r : OutboxRow} (hr : db.outbox = w.driver.outbox ++ [r])
      (hids : db.drivers.map Driver.id = w.driver.drivers.map Driver.id)
      (hid : r.id = draw.uuid 1) (hB : B r.targetQueue r.message) :=
    (enqueued_driver hr hids).solo hfresh hdraw [1] (List.nodup_singleton 1) (by simp [hid])
      (by simpa using hB)
  cases reserved_of_run hlinked hrun with
  | again => exact enqueue rfl rfl rfl (hreserved _)
  | failed reason => exact enqueue rfl rfl rfl (hfailed reason)
  | @granted d d' hnot hd helig hres hid hnone =>
    have hsame := Driver.id_of_reserve hres
    refine enqueue rfl ?_ rfl (hreserved _)
    exact Table.map_save_of_find (hsame.symm ▸ hd) hsame.symm

theorem solo_release (hlinked : w.driver.Linked) (hfresh : (wiring settings).Fresh w)
    (hdraw : draw.Unused w) (input : ReleaseDriverInput) (hreleased : ∀ driverId,
      B .dispatchEvents (DriverEvent.released input driverId (draw.uuid 0) draw.now).message) :
    (wiring settings).Solo B (onDriver (driverTransaction draw.locked (DriverReservations.release
      settings.hashtext input (draw.uuid 0) draw.now))) w := by
  refine .atomically rfl hfresh fun u db hrun => ?_
  have enqueue {r : OutboxRow} (hr : db.outbox = w.driver.outbox ++ [r])
      (hids : db.drivers.map Driver.id = w.driver.drivers.map Driver.id)
      (hid : r.id = draw.uuid 0) (hB : B r.targetQueue r.message) :=
    (enqueued_driver hr hids).solo hfresh hdraw [0] (List.nodup_singleton 0) (by simp [hid])
      (by simpa using hB)
  cases released_of_commit hlinked hrun with
  | unknown | again => exact enqueue rfl rfl rfl (hreleased _)
  | @freed r d hr hact hd =>
    refine enqueue rfl ?_ rfl (hreleased _)
    have hid : (d.release input.orderId draw.now).id = d.id := DriverDb.id_release
    exact Table.map_save_of_find (x := d)
      (by rw [hid, Table.key_of_find hd]; exact hd) hid.symm

/-- What the answers of the Driver service lead to. -/
theorem event_of_completeReservation {input : ReservationResultInput} {eventId : Uuid} {now : Date}
    {d : Dispatch} {o : DispatchOutcome} {r : OutboxRow}
    (ho : (DispatchOp.completeReservation input eventId now).outcome d = .ok o)
    (hr : o.event = some r) : r.id = eventId ∧ r.eventType.rank ≤ 2 := by
  simp only [DispatchOp.outcome] at ho
  split at ho <;> obtain rfl := Except.ok.inj ho
  · obtain rfl := Option.some.inj hr
    exact ⟨rfl, Nat.zero_le 2⟩
  · obtain rfl := Option.some.inj hr
    exact ⟨rfl, Nat.zero_le 2⟩
  · obtain rfl := Option.some.inj hr
    exact ⟨rfl, le_rfl⟩
  · obtain rfl := Option.some.inj hr
    exact ⟨rfl, le_rfl⟩
  · cases hr

theorem event_of_completeCompensation {dispatchId : Uuid} {c : String} {eventId : Uuid}
    {now : Date} {d : Dispatch} {o : DispatchOutcome} {r : OutboxRow}
    (ho : (DispatchOp.completeCompensation dispatchId c eventId now).outcome d = .ok o)
    (hr : o.event = some r) : r.id = eventId ∧ r.eventType.rank = 0 := by
  simp only [DispatchOp.outcome] at ho
  split at ho <;> obtain rfl := Except.ok.inj ho
  · obtain rfl := Option.some.inj hr
    exact ⟨rfl, rfl⟩
  · cases hr

/-- Each handler, run alone, gets to its end, and enqueues lesser events only. -/
theorem solo_handle (hlinked : w.driver.Linked) (hfresh : (wiring settings).Fresh w)
    (hdraw : draw.Unused w) {q : Queue} {m : Message} {op : Proc Databases ServiceError Unit}
    (hop : handle settings q m draw = some op) :
    (wiring settings).Solo (fun _ m' => m'.eventType.rank < m.eventType.rank) op w := by
  cases q with
  | orderEvents =>
    simp only [handle, handleOrderEvent, Option.bind_eq_bind, Option.bind_eq_some_iff] at hop
    obtain ⟨orderId, -, hop⟩ := hop
    split at hop
    · obtain rfl := Option.some.inj hop
      exact solo_order hfresh _
    · obtain ⟨driverId, -, hop⟩ := Option.bind_eq_some_iff.1 hop
      obtain rfl := Option.some.inj hop
      exact solo_order hfresh _
    · obtain ⟨reason, -, hop⟩ := Option.bind_eq_some_iff.1 hop
      obtain rfl := Option.some.inj hop
      exact solo_order hfresh _
    · obtain rfl := Option.some.inj hop
      exact solo_order hfresh _
    · cases hop
  | dispatchEvents =>
    simp only [handle, handleDispatchEvent] at hop
    split at hop
    · next hm =>
      obtain ⟨orderId, -, hop⟩ := Option.bind_eq_some_iff.1 hop
      obtain ⟨correlationId, -, hop⟩ := Option.bind_eq_some_iff.1 hop
      obtain rfl := Option.some.inj hop
      rw [hm]
      exact solo_startDispatch hfresh hdraw _ _ _ _ (fun d => Nat.zero_lt_succ 4)
        fun d plan => Nat.lt_succ_self 4
    · next hm =>
      obtain ⟨input, hinput, hop⟩ := Option.bind_eq_some_iff.1 hop
      obtain rfl := Option.some.inj hop
      refine solo_operation hfresh hdraw (.completeReservation input _ _) fun d o r ho hr => ?_
      obtain ⟨hid, hrank⟩ := event_of_completeReservation ho hr
      exact ⟨hid, by rw [hm]; exact Nat.lt_succ_of_le hrank⟩
    · next hm =>
      obtain ⟨input, hinput, hop⟩ := Option.bind_eq_some_iff.1 hop
      obtain rfl := Option.some.inj hop
      refine solo_operation hfresh hdraw (.completeReservation input _ _) fun d o r ho hr => ?_
      obtain ⟨hid, hrank⟩ := event_of_completeReservation ho hr
      exact ⟨hid, by rw [hm]; exact Nat.lt_succ_of_le hrank⟩
    · next hm =>
      obtain ⟨dispatchId, -, hop⟩ := Option.bind_eq_some_iff.1 hop
      obtain ⟨correlationId, -, hop⟩ := Option.bind_eq_some_iff.1 hop
      obtain rfl := Option.some.inj hop
      refine solo_operation hfresh hdraw (.completeCompensation dispatchId correlationId _ _)
        fun d o r ho hr => ?_
      obtain ⟨hid, hrank⟩ := event_of_completeCompensation ho hr
      exact ⟨hid, by rw [hm]; exact Nat.lt_succ_of_le hrank.le⟩
    · cases hop
  | driverEvents =>
    simp only [handle, handleDriverEvent] at hop
    split at hop
    · next hm =>
      obtain ⟨input, hinput, hop⟩ := Option.bind_eq_some_iff.1 hop
      obtain rfl := Option.some.inj hop
      refine solo_reserve hlinked hfresh hdraw input (fun driverId => ?_) fun reason => ?_
      · rw [hm]
        exact Nat.lt_succ_self 3
      · rw [hm]
        exact Nat.lt_succ_self 3
    · next hm =>
      obtain ⟨input, hinput, hop⟩ := Option.bind_eq_some_iff.1 hop
      obtain rfl := Option.some.inj hop
      refine solo_release hlinked hfresh hdraw input fun driverId => ?_
      rw [hm]
      exact Nat.lt_succ_self 1
    · cases hop

end Handlers

section Runs

variable {settings : Settings} {S : Fleet} {ts : List FleetMove}

theorem marks_wiring (settings : Settings) : (wiring settings).Marks := by
  intro id now w r hr hp
  have hmem (rows : List OutboxRow) (hr : r ∈ Table.update OutboxRow.id id (.publish now) rows) :
      r ∈ rows ∧ r.id ≠ id := by
    obtain ⟨r₀, hr₀, heq⟩ := List.mem_map.1 hr
    split at heq
    · rw [← heq] at hp
      cases hp
    · next hne =>
      obtain rfl := heq
      exact ⟨hr₀, hne⟩
  rcases List.mem_append.1 hr with hr | hr
  · rcases List.mem_append.1 hr with hr | hr
    · exact ⟨List.mem_append_left _ (List.mem_append_left _ (hmem _ hr).1), (hmem _ hr).2⟩
    · exact ⟨List.mem_append_left _ (List.mem_append_right _ (hmem _ hr).1), (hmem _ hr).2⟩
  · exact ⟨List.mem_append_right _ (hmem _ hr).1, (hmem _ hr).2⟩

theorem ranked_of_run (hrun : (fleet settings).Run ts S) :
    (wiring settings).Ranked (fun _ m => m.eventType.rank) S.world where
  handled q m hm := by
    obtain ⟨draw, hdraw⟩ := exists_unused S.world
    obtain ⟨event, op, hevent, hop⟩ :=
      ((traced_of_run hrun).conforms q m hm).handled settings draw
    exact ⟨event, draw, op, hevent, hop, solo_handle (linked_of_run hrun)
      (Bus.orderly_of_run (sound_wiring settings) hrun).fresh hdraw hop⟩

/-- No state is a dead end: from wherever a run has got to, the relay, the broker and the
consumers can bring the services to rest, without a request from outside. -/
theorem rest_of_run (hrun : (fleet settings).Run ts S) :
    ∃ S', (fleet settings).Leads BusLabel.Internal S S' ∧ S'.AtRest (wiring settings) :=
  Bus.exists_rest (sound_wiring settings) (marks_wiring settings)
    (fun _ _ hrun => ranked_of_run hrun) hrun

theorem rest_requested : ∃ S S', (fleet sampleSettings).replay emptyFleet requestedLabels = some S ∧
    ¬ S.AtRest (wiring sampleSettings) ∧ (fleet sampleSettings).Leads BusLabel.Internal S S' ∧
    S'.AtRest (wiring sampleSettings) := by
  obtain ⟨S, hS, x, hx⟩ : ∃ S, (fleet sampleSettings).replay emptyFleet requestedLabels = some S ∧
    ∃ x, S.parcels 1 = some x := ⟨_, rfl, _, rfl⟩
  obtain ⟨S', hlead, hrest⟩ := rest_of_run (.of_replay init_emptyFleet hS)
  exact ⟨S, S', hS, fun h => h.parcels 1 x hx trivial, hlead, hrest⟩

end Runs

end RouteFast
