import RouteFast.Order.Store
import RouteFast.Reliability.Retry
import Mathlib.Logic.Relation

/-! The Order event handlers on whatever they are delivered. No handler looks at the shape of its
payload: an identifier that is missing there is an `undefined` criterion of `findOne`, and so no
criterion at all. One delivery runs alone here, and the broker takes the copy it sends. -/

namespace RouteFast

open Transition

/-- What the lookups without a criterion return. -/
structure AnyRows where
  inbox : Table.AnyRow InboxRow.eventId
  orders : Table.AnyRow OrderRow.id

/-- How the database reads values of any shape. -/
structure Postgres where
  /-- The `uuid` a text stands for; `none` when the statement is rejected. -/
  uuid : String → Option Uuid
  /-- What a `varchar` of this length keeps of a value that is neither `undefined` nor null. -/
  varchar : ℕ → Value → Option String
  /-- `update` of the inbox row whose id is missing. -/
  updateMissing : Inbox → Except ServiceError Inbox
  /-- `delete` of the inbox row whose id is missing. -/
  deleteMissing : Inbox → Except ServiceError Inbox

/-- `event.field` -/
def Payload.value (event : Payload) (f : Field) : Value := (event.get f).getD .undefined

/-- A nullable column as a value. -/
def Value.ofColumn : Option String → Value
  | none => .null
  | some s => .string s

namespace Postgres

variable (pg : Postgres)

/-- What a `uuid` column is compared with; `undefined` and null are dropped. -/
def criterion : Value → Except ServiceError (Option Uuid)
  | .undefined | .null => .ok none
  | .string s =>
    match pg.uuid s with
    | some k => .ok (some k)
    | none => .error (.database "uuid")
  | .strings _ | .point _ _ => .error (.database "uuid")

/-- A nullable `uuid` column after `save`: an `undefined` property leaves it as it is. -/
def uuidColumn (old : Option Uuid) : Value → Except ServiceError (Option Uuid)
  | .undefined => .ok old
  | .null => .ok none
  | .string s =>
    match pg.uuid s with
    | some k => .ok (some k)
    | none => .error (.database "uuid")
  | .strings _ | .point _ _ => .error (.database "uuid")

/-- A nullable `varchar` column after `save`. -/
def varcharColumn (size : ℕ) (old : Option String) : Value → Except ServiceError (Option String)
  | .undefined => .ok old
  | .null => .ok none
  | v =>
    match pg.varchar size v with
    | some s => .ok (some s)
    | none => .error (.database "varchar")

end Postgres

/-- The handlers of `OrderEventsController`. -/
inductive OrderHandler where
  | started
  | assigned
  | failed
  | cancelled
  deriving DecidableEq, Repr

namespace OrderHandler

def eventType : OrderHandler → EventType
  | .started => .dispatchStarted
  | .assigned => .dispatchAssigned
  | .failed => .dispatchFailed
  | .cancelled => .dispatchCancelled

end OrderHandler

namespace Order

/-- `assignDriver(driverId)` and what `save` then makes of the driver. -/
def assignDriverValue (pg : Postgres) (o : Order) (driverId : Value) (now : Date) :
    Except ServiceError Order :=
  if o.status = .assigned ∧ Value.ofColumn o.assignedDriverId = driverId then .ok o
  else if o.status ≠ .dispatching then
    .error (.invalidOrderState s!"Order {o.id} cannot be assigned from {o.status.text}")
  else (pg.uuidColumn o.assignedDriverId driverId).map fun assignedDriverId =>
    { o with assignedDriverId, status := .assigned, updatedAt := now }

/-- `dispatchFailed(reason)` and what `save` then makes of the reason. -/
def dispatchFailedValue (pg : Postgres) (o : Order) (reason : Value) (now : Date) :
    Except ServiceError Order :=
  if o.status ≠ .dispatching then .ok o
  else (pg.varcharColumn 120 o.lastDispatchFailureReason reason).map fun reason =>
    { o with status := .pendingDispatch, lastDispatchFailureReason := reason, updatedAt := now }

end Order

namespace OrderHandler

variable (pg : Postgres) (rows : AnyRows) (now : Date) (event : Payload)

def method (o : Order) : OrderHandler → Except ServiceError Order
  | .started => .ok (o.beginDispatch now)
  | .assigned => o.assignDriverValue pg (event.value .driverId) now
  | .failed => o.dispatchFailedValue pg (event.value .reason) now
  | .cancelled => o.cancelAfterDispatch now

/-- `TypeOrmOrderRepository.findById` -/
def findById (db : OrderDb) (orderId : Value) : Except ServiceError (Option Order) :=
  (pg.criterion orderId).map fun id => (rows.orders.findOne db.orders id).map OrderMapper.toDomain

/-- The use case the handler executes. -/
def operation (k : OrderHandler) : Proc OrderDb ServiceError Unit :=
  .read fun db =>
    match findById pg rows db (event.value .orderId) with
    | .error e => .throw e
    | .ok none => .done ()
    | .ok (some order) =>
      match k.method pg now event order with
      | .error e => .throw e
      | .ok order => .write (fun db => db.save order) (.done ())

/-- The handler's method takes the stored order to another status. -/
def Moves (row : OrderRow) : OrderHandler → Prop
  | .started => row.status = .pendingDispatch
  | .assigned => row.status = .dispatching ∧
      (pg.uuidColumn row.assignedDriverId (event.value .driverId)).isOk = true
  | .failed => row.status = .dispatching ∧
      (pg.varcharColumn 120 row.lastDispatchFailureReason (event.value .reason)).isOk = true
  | .cancelled => row.status = .assigned ∨ row.status = .dispatching

end OrderHandler

/-- What `process` leaves, and how the operation ended where it was run. -/
structure Processing where
  service : Service OrderDb
  operation : Option (Except ServiceError Unit)
  result : Except ServiceError ProcessResult

namespace Postgres

variable (pg : Postgres) (rows : AnyRows) (now : Date)

/-- `update({ eventId }, { status: PROCESSED, processedAt })` -/
def markProcessed (inbox : Inbox) : Option Uuid → Except ServiceError Inbox
  | some eventId => .ok (inbox.markProcessed eventId now)
  | none => pg.updateMissing inbox

/-- `delete({ eventId })` -/
def delete (inbox : Inbox) : Option Uuid → Except ServiceError Inbox
  | some eventId => .ok (inbox.delete eventId)
  | none => pg.deleteMissing inbox

/-- `insert`; `none` when it throws: the key is taken or missing, or the correlation id is. -/
def insert (inbox : Inbox) (eventType : EventType) (correlationId : Value) :
    Option Uuid → Option Inbox
  | none => none
  | some eventId =>
    match inbox.findOne eventId, correlationId with
    | some _, _ | none, .undefined | none, .null => none
    | none, v => (pg.varchar 120 v).map fun correlationId =>
        inbox ++ [⟨eventId, eventType, correlationId, .processing, none⟩]

/-- The `catch` of `process`. -/
def caught (s : Service OrderDb) (eventId : Option Uuid) (ended : Except ServiceError Unit)
    (error : ServiceError) : Processing :=
  match pg.delete s.inbox eventId with
  | .ok inbox => ⟨{ s with inbox }, some ended, .error error⟩
  | .error e => ⟨s, some ended, .error e⟩

/-- The `try` of `process`. -/
def attempt (s : Service OrderDb) (eventId : Option Uuid)
    (operation : Proc OrderDb ServiceError Unit) : Processing :=
  let (ended, db) := operation.run s.db
  match ended with
  | .ok _ =>
    match pg.markProcessed now s.inbox eventId with
    | .ok inbox => ⟨⟨inbox, db⟩, some ended, .ok .processed⟩
    | .error e => pg.caught { s with db } eventId ended e
  | .error e => pg.caught { s with db } eventId ended e

/-- `InboxService.process` -/
def process (eventType : EventType) (event : Payload)
    (operation : Proc OrderDb ServiceError Unit) (s : Service OrderDb) : Processing :=
  match pg.criterion (event.value .eventId) with
  | .error e => ⟨s, none, .error e⟩
  | .ok eventId =>
    match rows.inbox.findOne s.inbox eventId with
    | some existing =>
      if existing.status = .processed then ⟨s, none, .ok .duplicate⟩
      else pg.attempt now s eventId operation
    | none =>
      match pg.insert s.inbox eventType (event.value .correlationId) eventId with
      | some inbox => pg.attempt now { s with inbox } eventId operation
      | none =>
        match rows.inbox.findOne s.inbox eventId with
        | some raced =>
          if raced.status = .processed then ⟨s, none, .ok .duplicate⟩
          else pg.attempt now s eventId operation
        | none => pg.attempt now s eventId operation

end Postgres

/-- What an acknowledged delivery leaves: the tables, how its operation ended where it was run,
and the copy in the retry queue or the DLQ. -/
structure Handled (κ : Type*) where
  service : Service OrderDb
  operation : Option (Except ServiceError Unit)
  copy : Option (Instance κ OrderDb ServiceError)

variable {κ : Type*}

/-- `RmqReliabilityService.handle`, called by the handler; the payload is `none` when it is null,
which has no `eventId` to read. -/
def RmqReliability.handle (R : RmqReliability κ) (pg : Postgres) (rows : AnyRows) (now : Date)
    (k : OrderHandler) (message : RmqMessage κ) (payload : Option Payload) (s : Service OrderDb) :
    Handled κ :=
  match payload with
  | none => ⟨s, none, some ⟨R.copy message, R.copyPlace message⟩⟩
  | some event =>
    let p := pg.process rows now k.eventType event (k.operation pg rows now event) s
    match p.result with
    | .ok _ => ⟨p.service, p.operation, none⟩
    | .error _ => ⟨p.service, p.operation, some ⟨R.copy message, R.copyPlace message⟩⟩

namespace OrderHandler

variable {pg : Postgres} {rows : AnyRows} {now : Date} {event : Payload} {k : OrderHandler}

/-- The methods leave the order's identity alone. -/
theorem id_of_method {o o' : Order} (h : k.method pg now event o = .ok o') : o'.id = o.id := by
  cases k with
  | started =>
    have happly : OrderCommand.apply now o .markOrderDispatching = .ok o' := h
    exact OrderCommand.id_of_apply happly
  | cancelled =>
    have happly : OrderCommand.apply now o .completeDispatchCancellation = .ok o' := h
    exact OrderCommand.id_of_apply happly
  | assigned =>
    simp only [method, Order.assignDriverValue] at h
    split at h
    · rw [← Except.ok.inj h]
    · split at h
      · cases h
      · cases hcol : pg.uuidColumn o.assignedDriverId (event.value .driverId) with
        | error e => simp [hcol, Except.map] at h
        | ok driver =>
          simp only [hcol, Except.map, Except.ok.injEq] at h
          rw [← h]
  | failed =>
    simp only [method, Order.dispatchFailedValue] at h
    split at h
    · rw [← Except.ok.inj h]
    · cases hcol : pg.varcharColumn 120 o.lastDispatchFailureReason (event.value .reason) with
      | error e => simp [hcol, Except.map] at h
      | ok reason =>
        simp only [hcol, Except.map, Except.ok.injEq] at h
        rw [← h]

/-- A move changes the status. -/
theorem method_of_moves (now : Date) {row : OrderRow} (h : k.Moves pg event row) :
    ∃ o', k.method pg now event (OrderMapper.toDomain row) = .ok o' ∧ o'.status ≠ row.status := by
  cases k with
  | started =>
    have hrow : (OrderMapper.toDomain row).status = .pendingDispatch := h
    refine ⟨_, rfl, ?_⟩
    simp [Order.beginDispatch, hrow, show row.status = .pendingDispatch from h]
  | assigned =>
    obtain ⟨hrow, hok⟩ := h
    cases hcol : pg.uuidColumn row.assignedDriverId (event.value .driverId) with
    | error e => simp [hcol, Except.isOk, Except.toBool] at hok
    | ok driver =>
      refine ⟨{ OrderMapper.toDomain row with
        assignedDriverId := driver
        status := .assigned
        updatedAt := now }, ?_, by simp [hrow]⟩
      simp [method, Order.assignDriverValue, OrderMapper.toDomain, hrow, hcol, Except.map]
  | failed =>
    obtain ⟨hrow, hok⟩ := h
    cases hcol : pg.varcharColumn 120 row.lastDispatchFailureReason (event.value .reason) with
    | error e => simp [hcol, Except.isOk, Except.toBool] at hok
    | ok reason =>
      refine ⟨{ OrderMapper.toDomain row with
        lastDispatchFailureReason := reason
        status := .pendingDispatch
        updatedAt := now }, ?_, by simp [hrow]⟩
      simp [method, Order.dispatchFailedValue, OrderMapper.toDomain, hrow, hcol, Except.map]
  | cancelled =>
    refine ⟨{ OrderMapper.toDomain row with status := .cancelled, updatedAt := now }, ?_, ?_⟩
    · rcases h with hrow | hrow <;>
        simp [method, Order.cancelAfterDispatch, OrderMapper.toDomain, hrow]
    · rcases h with hrow | hrow <;> simp [hrow]

/-- Without one the order is saved as it was read, if at all. -/
theorem method_of_not_moves {row : OrderRow} {o' : Order} (h : ¬ k.Moves pg event row)
    (hok : k.method pg now event (OrderMapper.toDomain row) = .ok o') :
    o' = OrderMapper.toDomain row := by
  cases k with
  | started =>
    have hrow : (OrderMapper.toDomain row).status ≠ .pendingDispatch := h
    simpa [method, Order.beginDispatch, hrow] using hok.symm
  | assigned =>
    simp only [method, Order.assignDriverValue] at hok
    split at hok
    · exact (Except.ok.inj hok).symm
    · split at hok
      · cases hok
      · next hrow =>
        have hrow : row.status = .dispatching := not_not.1 hrow
        have hcol : ¬ (pg.uuidColumn row.assignedDriverId (event.value .driverId)).isOk = true :=
          fun hcol => h ⟨hrow, hcol⟩
        cases hc : pg.uuidColumn row.assignedDriverId (event.value .driverId) with
        | error e => simp [OrderMapper.toDomain, hc, Except.map] at hok
        | ok driver => simp [hc, Except.isOk, Except.toBool] at hcol
  | failed =>
    simp only [method, Order.dispatchFailedValue] at hok
    split at hok
    · exact (Except.ok.inj hok).symm
    · next hrow =>
      have hrow : row.status = .dispatching := not_not.1 hrow
      have hcol : ¬ (pg.varcharColumn 120 row.lastDispatchFailureReason
          (event.value .reason)).isOk = true := fun hcol => h ⟨hrow, hcol⟩
      cases hc : pg.varcharColumn 120 row.lastDispatchFailureReason (event.value .reason) with
      | error e => simp [OrderMapper.toDomain, hc, Except.map] at hok
      | ok reason => simp [hc, Except.isOk, Except.toBool] at hcol
  | cancelled =>
    simp only [Moves, not_or] at h
    simp only [method, Order.cancelAfterDispatch] at hok
    split at hok
    · exact (Except.ok.inj hok).symm
    · simp [OrderMapper.toDomain, h.1, h.2] at hok

/-- Run alone on a lookup that finds nothing, or is rejected, the use case writes nothing. -/
theorem run_operation_none {db : OrderDb}
    (h : ∀ order, findById pg rows db (event.value .orderId) ≠ .ok (some order)) :
    ((k.operation pg rows now event).run db).2 = db := by
  cases hfind : findById pg rows db (event.value .orderId) with
  | error e => simp [operation, Proc.read, Proc.run, hfind]
  | ok order =>
    cases order with
    | none => simp [operation, Proc.read, Proc.run, hfind]
    | some order => exact absurd hfind (h order)

/-- Run alone on the order a lookup finds, it changes that order if it moves it, and no other. -/
theorem run_operation_row (k : OrderHandler) (now : Date) {db : OrderDb}
    {criterion : Option Uuid} {row : OrderRow}
    (hcrit : pg.criterion (event.value .orderId) = .ok criterion)
    (hrow : rows.orders.findOne db.orders criterion = some row) :
    (∀ id, id ≠ row.id → ((k.operation pg rows now event).run db).2.row id = db.row id) ∧
    (((k.operation pg rows now event).run db).2.row row.id = db.row row.id ↔
      ¬ k.Moves pg event row) := by
  have hfind : findById pg rows db (event.value .orderId) =
      .ok (some (OrderMapper.toDomain row)) := by
    simp [findById, hcrit, hrow, Except.map]
  have hstored : db.row row.id = some row := Table.AnyRow.found_of_findOne hrow
  cases hmethod : k.method pg now event (OrderMapper.toDomain row) with
  | error e =>
    have hrun : ((k.operation pg rows now event).run db).2 = db := by
      simp [operation, Proc.read, Proc.run, hfind, hmethod]
    refine ⟨fun id _ => by rw [hrun], ?_⟩
    rw [hrun]
    refine ⟨fun _ hmoves => ?_, fun _ => rfl⟩
    obtain ⟨o', hok, -⟩ := method_of_moves now hmoves
    rw [hmethod] at hok
    cases hok
  | ok o' =>
    have hrun : ((k.operation pg rows now event).run db).2 = db.save o' := by
      simp [operation, Proc.read, Proc.write, Proc.run, hfind, hmethod]
    have hid : o'.id = row.id := id_of_method hmethod
    have hentity : (OrderMapper.toPersistence o').id = row.id := hid
    refine ⟨fun id hne => ?_, ?_⟩
    · rw [hrun, OrderDb.save, OrderDb.row_saveEntity, hentity, if_neg (Ne.symm hne)]
    · rw [hrun, OrderDb.save, OrderDb.row_saveEntity, hentity, if_pos rfl, hstored,
        Option.some_inj]
      constructor
      · intro hsame hmoves
        obtain ⟨o₂, hok, hstatus⟩ := method_of_moves now hmoves
        obtain rfl : o' = o₂ := by simpa [hmethod] using hok
        exact hstatus (congrArg OrderRow.status hsame)
      · intro hstays
        rw [method_of_not_moves hstays hmethod]
        exact OrderMapper.toPersistence_toDomain row

end OrderHandler

namespace Postgres

variable {pg : Postgres} {rows : AnyRows} {now : Date} {s : Service OrderDb}
  {eventId : Option Uuid} {operation : Proc OrderDb ServiceError Unit}

theorem caught_eq (pg : Postgres) (s : Service OrderDb) (eventId : Option Uuid)
    (ended : Except ServiceError Unit) (error : ServiceError) :
    ∃ inbox e, pg.caught s eventId ended error = ⟨⟨inbox, s.db⟩, some ended, .error e⟩ := by
  unfold caught
  cases pg.delete s.inbox eventId with
  | ok inbox => exact ⟨inbox, error, rfl⟩
  | error e => exact ⟨s.inbox, e, rfl⟩

/-- An attempt leaves what the operation leaves, and returns only after its success. -/
theorem attempt_eq (pg : Postgres) (now : Date) (s : Service OrderDb) (eventId : Option Uuid)
    (operation : Proc OrderDb ServiceError Unit) :
    ∃ inbox result, pg.attempt now s eventId operation =
        ⟨⟨inbox, (operation.run s.db).2⟩, some (operation.run s.db).1, result⟩ ∧
      ∀ r, result = .ok r → (operation.run s.db).1 = .ok () := by
  unfold attempt
  obtain ⟨ended, db⟩ := operation.run s.db
  cases ended with
  | error e =>
    obtain ⟨inbox, e', hcaught⟩ := pg.caught_eq { s with db } eventId (.error e) e
    exact ⟨inbox, .error e', hcaught, fun r hr => by cases hr⟩
  | ok u =>
    cases hmark : pg.markProcessed now s.inbox eventId with
    | ok inbox => exact ⟨inbox, .ok .processed, rfl, fun r _ => rfl⟩
    | error e =>
      obtain ⟨inbox, e', hcaught⟩ := pg.caught_eq { s with db } eventId (.ok u) e
      exact ⟨inbox, .error e', by simp only [hcaught], fun r _ => rfl⟩

/-- The lookup of the event does not end `process`. -/
def Reaches (pg : Postgres) (rows : AnyRows) (event : Payload) (inbox : Inbox) : Prop :=
  ∃ eventId, pg.criterion (event.value .eventId) = .ok eventId ∧
    ∀ row, rows.inbox.findOne inbox eventId = some row → row.status ≠ .processed

/-- Everything `process` can do: reject the id, answer 'duplicate', or run the operation. -/
theorem process_cases (pg : Postgres) (rows : AnyRows) (now : Date) (eventType : EventType)
    (event : Payload) (operation : Proc OrderDb ServiceError Unit) (s : Service OrderDb) :
    (∃ e, pg.criterion (event.value .eventId) = .error e ∧
      pg.process rows now eventType event operation s = ⟨s, none, .error e⟩) ∨
    (∃ eventId row, pg.criterion (event.value .eventId) = .ok eventId ∧
      rows.inbox.findOne s.inbox eventId = some row ∧ row.status = .processed ∧
      pg.process rows now eventType event operation s = ⟨s, none, .ok .duplicate⟩) ∨
    (pg.Reaches rows event s.inbox ∧ ∃ inbox eventId,
      pg.process rows now eventType event operation s =
        pg.attempt now { s with inbox } eventId operation) := by
  cases hcrit : pg.criterion (event.value .eventId) with
  | error e => exact Or.inl ⟨e, rfl, by simp [process, hcrit]⟩
  | ok eventId =>
    refine Or.inr ?_
    cases hfind : rows.inbox.findOne s.inbox eventId with
    | some row =>
      by_cases hrow : row.status = .processed
      · exact Or.inl ⟨eventId, row, rfl, hfind, hrow, by simp [process, hcrit, hfind, hrow]⟩
      · refine Or.inr ⟨⟨eventId, hcrit, ?_⟩, s.inbox, eventId,
          by simp [process, hcrit, hfind, hrow]⟩
        intro row' hrow'
        obtain rfl : row = row' := by simpa [hfind] using hrow'
        exact hrow
    | none =>
      have hreaches : pg.Reaches rows event s.inbox :=
        ⟨eventId, hcrit, fun row hrow => by simp [hfind] at hrow⟩
      cases hins : pg.insert s.inbox eventType (event.value .correlationId) eventId with
      | some inbox =>
        exact Or.inr ⟨hreaches, inbox, eventId, by simp [process, hcrit, hfind, hins]⟩
      | none =>
        -- the second lookup finds no row either
        exact Or.inr ⟨hreaches, s.inbox, eventId, by simp [process, hcrit, hfind, hins]⟩

end Postgres

/-! A well-formed event is handled as the inbox and the use cases handle one that runs alone. -/

section WellFormed

/-- The use case that a well-formed event asks for. -/
def OrderHandler.command (driverId reason : String) : OrderHandler → OrderCommand
  | .started => .markOrderDispatching
  | .assigned => .assignOrderDriver driverId
  | .failed => .markDispatchFailed reason
  | .cancelled => .completeDispatchCancellation

variable {pg : Postgres} {rows : AnyRows} {now : Date} {event : Payload} {k : OrderHandler}
  {orderId driverId reason : String}

theorem OrderHandler.method_wellFormed (now : Date) (hdriver : k = .assigned →
      event.value .driverId = .string driverId ∧ pg.uuid driverId = some driverId)
    (hreason : k = .failed →
      event.value .reason = .string reason ∧ pg.varchar 120 (.string reason) = some reason)
    (o : Order) : k.method pg now event o = (k.command driverId reason).apply now o := by
  cases k with
  | started | cancelled => rfl
  | assigned =>
    obtain ⟨hvalue, huuid⟩ := hdriver rfl
    have hsame : Value.ofColumn o.assignedDriverId = .string driverId ↔
        o.assignedDriverId = some driverId := by
      cases o.assignedDriverId <;> simp [Value.ofColumn]
    simp only [method, command, OrderCommand.apply, Order.assignDriverValue, Order.assignDriver,
      hvalue, hsame, Postgres.uuidColumn, huuid, Except.map]
  | failed =>
    obtain ⟨hvalue, hvarchar⟩ := hreason rfl
    simp only [method, command, OrderCommand.apply, Order.dispatchFailedValue,
      Order.dispatchFailed, hvalue, Postgres.varcharColumn, hvarchar, Except.map]
    split <;> rfl

theorem OrderHandler.run_operation_wellFormed (db : OrderDb)
    (horder : event.value .orderId = .string orderId) (huuid : pg.uuid orderId = some orderId)
    (hdriver : k = .assigned →
      event.value .driverId = .string driverId ∧ pg.uuid driverId = some driverId)
    (hreason : k = .failed →
      event.value .reason = .string reason ∧ pg.varchar 120 (.string reason) = some reason) :
    (k.operation pg rows now event).run db =
      (((⟨orderId, k.command driverId reason, now⟩ : OrderRequest).execute.run db).1.map
          fun _ => (),
        ((⟨orderId, k.command driverId reason, now⟩ : OrderRequest).execute.run db).2) := by
  have hfind : findById pg rows db (event.value .orderId) = .ok (db.findById orderId) := by
    simp [findById, horder, Postgres.criterion, huuid, Except.map, Table.AnyRow.findOne,
      OrderDb.findById, OrderDb.row]
  have hmethod := method_wellFormed now hdriver hreason
  rw [OrderRequest.execute_eq]
  cases hrow : db.findById orderId with
  | none =>
    cases k <;> simp [operation, OrderUseCase, Proc.read, Proc.run, hfind, hrow,
      OrderRequest.missing, command, Except.map]
  | some order =>
    cases happly : (k.command driverId reason).apply now order <;>
      simp [operation, OrderUseCase, Proc.read, Proc.write, Proc.run, hfind, hrow, hmethod, happly,
        Except.map]

/-- One statement of a call that runs alone. -/
def Call.Alone (now : Date) (a b : Service OrderDb × Call OrderDb ServiceError) : Prop :=
  a.2.step now a.1 = some b

/-- A computation that is over. -/
def Call.ended : Except ServiceError Unit → Proc OrderDb ServiceError Unit
  | .ok u => .done u
  | .error e => .throw e

/-- A call's operation, step by step. -/
theorem Call.alone_operation (now : Date) (p : Proc OrderDb ServiceError Unit) (s : Service OrderDb)
    (c : Call OrderDb ServiceError) :
    Relation.ReflTransGen (Alone now) (s, { c with pc := .operation p })
      ({ s with db := (p.run s.db).2 }, { c with pc := .operation (ended (p.run s.db).1) }) := by
  induction p generalizing s with
  | done u => exact .refl
  | throw e => exact .refl
  | step effect next ih => exact .head rfl (ih s.db { s with db := effect s.db })

variable {eventId correlationId : String}

theorem Postgres.attempt_wellFormed (pg : Postgres) (now : Date)
    (operation : Proc OrderDb ServiceError Unit) (s : Service OrderDb)
    (c : Call OrderDb ServiceError) (hid : c.event.eventId = eventId) :
    ∃ c', Relation.ReflTransGen (Call.Alone now) (s, { c with pc := .operation operation })
        ((pg.attempt now s (some eventId) operation).service, c') ∧
      c'.pc = match (pg.attempt now s (some eventId) operation).result with
        | .ok result => .returned result
        | .error e => .thrown e := by
  subst hid
  have hops := Call.alone_operation now operation s c
  cases hrun : operation.run s.db with
  | mk ended db =>
    rw [hrun] at hops
    cases ended with
    | ok u =>
      refine ⟨{ c with pc := .returned .processed }, hops.tail ?_, ?_⟩
      · simp [Call.Alone, Call.step, Call.ended, attempt, hrun, markProcessed]
      · simp [attempt, hrun, markProcessed]
    | error e =>
      refine ⟨{ c with pc := .thrown e }, hops.tail ?_, ?_⟩
      · simp [Call.Alone, Call.step, Call.ended, attempt, hrun, caught, delete]
      · simp [attempt, hrun, caught, delete]

/-- On a well-formed event `process` is the call that no other interleaves with. -/
theorem Postgres.process_wellFormed (eventType : EventType)
    (operation : Proc OrderDb ServiceError Unit) (s : Service OrderDb)
    (hevent : event.value .eventId = .string eventId) (huuid : pg.uuid eventId = some eventId)
    (hcorr : event.value .correlationId = .string correlationId)
    (hvarchar : pg.varchar 120 (.string correlationId) = some correlationId) :
    ∃ c', Relation.ReflTransGen (Call.Alone now)
        (s, .process eventType ⟨eventId, correlationId⟩ operation)
        ((pg.process rows now eventType event operation s).service, c') ∧
      c'.pc = match (pg.process rows now eventType event operation s).result with
        | .ok result => .returned result
        | .error e => .thrown e := by
  have hcrit : pg.criterion (event.value .eventId) = .ok (some eventId) := by
    simp [hevent, criterion, huuid]
  let c : Call OrderDb ServiceError := .process eventType ⟨eventId, correlationId⟩ operation
  cases hfind : s.inbox.findOne eventId with
  | none =>
    have hinsert : pg.insert s.inbox eventType (event.value .correlationId) (some eventId) =
        some (s.inbox ++ [⟨eventId, eventType, correlationId, .processing, none⟩]) := by
      simp [insert, hfind, hcorr, hvarchar]
    have hprocess : pg.process rows now eventType event operation s = pg.attempt now
        { s with inbox := s.inbox ++ [⟨eventId, eventType, correlationId, .processing, none⟩] }
        (some eventId) operation := by
      have hfind' : rows.inbox.findOne s.inbox (some eventId) = none := hfind
      simp [process, hcrit, hfind', hinsert]
    obtain ⟨c', hsteps, hpc⟩ := attempt_wellFormed pg now operation
      { s with inbox := s.inbox ++ [⟨eventId, eventType, correlationId, .processing, none⟩] } c rfl
    rw [hprocess]
    refine ⟨c', .head (b := (s, { c with pc := .insert })) ?_ (.head ?_ hsteps), hpc⟩
    · simp [Call.Alone, Call.step, Call.process, hfind, c]
    · simp [Call.Alone, Call.step, Call.process, hfind, c]
  | some row =>
    have hfind' : rows.inbox.findOne s.inbox (some eventId) = some row := hfind
    by_cases hrow : row.status = .processed
    · have hprocess : pg.process rows now eventType event operation s =
          ⟨s, none, .ok .duplicate⟩ := by
        simp [process, hcrit, hfind', hrow]
      rw [hprocess]
      refine ⟨{ c with pc := .returned .duplicate }, .single ?_, rfl⟩
      simp [Call.Alone, Call.step, Call.process, hfind, hrow, c]
    · have hprocess : pg.process rows now eventType event operation s =
          pg.attempt now s (some eventId) operation := by
        simp [process, hcrit, hfind', hrow]
      obtain ⟨c', hsteps, hpc⟩ :=
        attempt_wellFormed pg now operation s c rfl
      rw [hprocess]
      refine ⟨c', .head ?_ hsteps, hpc⟩
      simp [Call.Alone, Call.step, Call.process, hfind, hrow, c]

end WellFormed

end RouteFast
