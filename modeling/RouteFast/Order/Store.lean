import RouteFast.Base.Proc
import RouteFast.Order.Aggregate
import RouteFast.Reliability.Event

/-! The `orders` table, its mapper and repository, and the lifecycle use cases. A use
case reads the order, applies one method of the aggregate to what it read, and later
saves the whole entity. -/

namespace RouteFast

open Transition

/-- A row of `orders`. Its locations are kept as `Location.create` reads them back
(`Location.create_stored`). -/
structure OrderRow where
  id : Uuid
  idempotencyKey : Option String
  customerId : String
  priority : OrderPriority
  status : OrderStatus
  assignedDriverId : Option Uuid
  lastDispatchFailureReason : Option String
  pickup : Location
  dropoff : Location
  createdAt : Date
  updatedAt : Date
  deriving DecidableEq

/-- What `save` is given. `idempotencyKey` is `none` while the property is undefined. -/
structure OrderOrmEntity where
  id : Uuid
  idempotencyKey : Option (Option String)
  customerId : String
  priority : OrderPriority
  status : OrderStatus
  assignedDriverId : Option Uuid
  lastDispatchFailureReason : Option String
  pickup : Location
  dropoff : Location
  createdAt : Date
  updatedAt : Date

/-- The row after the entity is saved over `old`: an undefined property leaves its
column alone, or null in a new row. -/
def OrderOrmEntity.over (e : OrderOrmEntity) (old : Option OrderRow) : OrderRow where
  id := e.id
  idempotencyKey := e.idempotencyKey.getD (old.bind OrderRow.idempotencyKey)
  customerId := e.customerId
  priority := e.priority
  status := e.status
  assignedDriverId := e.assignedDriverId
  lastDispatchFailureReason := e.lastDispatchFailureReason
  pickup := e.pickup
  dropoff := e.dropoff
  createdAt := e.createdAt
  updatedAt := e.updatedAt

namespace OrderMapper

def toPersistence (order : Order) : OrderOrmEntity where
  id := order.id
  idempotencyKey := none
  customerId := order.customerId
  priority := order.priority
  status := order.status
  assignedDriverId := order.assignedDriverId
  lastDispatchFailureReason := order.lastDispatchFailureReason
  pickup := order.pickup
  dropoff := order.dropoff
  createdAt := order.createdAt
  updatedAt := order.updatedAt

def toDomain (entity : OrderRow) : Order where
  id := entity.id
  customerId := entity.customerId
  priority := entity.priority
  pickup := entity.pickup
  dropoff := entity.dropoff
  status := entity.status
  assignedDriverId := entity.assignedDriverId
  lastDispatchFailureReason := entity.lastDispatchFailureReason
  createdAt := entity.createdAt
  updatedAt := entity.updatedAt
  domainEvents := []

/-- Saving an order just read changes nothing. -/
theorem toPersistence_toDomain (row : OrderRow) :
    (toPersistence (toDomain row)).over (some row) = row := rfl

end OrderMapper

/-- The tables of the order database. -/
structure OrderDb where
  orders : List OrderRow
  outbox : List OutboxRow

namespace OrderDb

/-- The stored row of an order. -/
def row (db : OrderDb) (orderId : Uuid) : Option OrderRow :=
  Table.find OrderRow.id orderId db.orders

/-- `TypeOrmOrderRepository.findById` -/
def findById (db : OrderDb) (orderId : Uuid) : Option Order :=
  (db.row orderId).map OrderMapper.toDomain

/-- `orders.save(entity)` -/
def saveEntity (db : OrderDb) (entity : OrderOrmEntity) : OrderDb :=
  { db with orders := Table.save OrderRow.id (entity.over (db.row entity.id)) db.orders }

/-- `TypeOrmOrderRepository.save` -/
def save (db : OrderDb) (order : Order) : OrderDb :=
  db.saveEntity (OrderMapper.toPersistence order)

theorem row_saveEntity (db : OrderDb) (e : OrderOrmEntity) (orderId : Uuid) :
    (db.saveEntity e).row orderId =
      if e.id = orderId then some (e.over (db.row e.id)) else db.row orderId :=
  Table.find_save (c := OrderRow.id)

theorem id_of_row {db : OrderDb} {orderId : Uuid} {r : OrderRow} (h : db.row orderId = some r) :
    r.id = orderId := Table.key_of_find h

end OrderDb

/-- What the HTTP endpoints answer with; dates are kept as dates. -/
structure OrderView where
  id : Uuid
  customerId : String
  priority : String
  status : String
  assignedDriverId : Option Uuid
  lastDispatchFailureReason : Option String
  pickup : StoredLocation
  dropoff : StoredLocation
  createdAt : Date
  updatedAt : Date
  deriving DecidableEq

def toOrderView (order : Order) : OrderView where
  id := order.id
  customerId := order.customerId
  priority := order.priority.text
  status := order.status.text
  assignedDriverId := order.assignedDriverId
  lastDispatchFailureReason := order.lastDispatchFailureReason
  pickup := order.pickup.stored
  dropoff := order.dropoff.stored
  createdAt := order.createdAt
  updatedAt := order.updatedAt

/-- `findById`, a method of the aggregate, `save`: two separate statements, and others
may run in between. -/
def OrderUseCase (orderId : Uuid) (missing : Proc OrderDb ServiceError (Option OrderView))
    (method : Order → Except ServiceError Order) (reply : Order → Option OrderView) :
    Proc OrderDb ServiceError (Option OrderView) :=
  .read fun db =>
    match db.findById orderId with
    | none => missing
    | some order =>
      match method order with
      | .error e => .throw e
      | .ok order => .write (fun db => db.save order) (.done (reply order))

namespace OrderUseCase

def cancelOrder (orderId : Uuid) (now : Date) : Proc OrderDb ServiceError (Option OrderView) :=
  OrderUseCase orderId (.throw (.orderNotFound s!"Order {orderId} was not found"))
    (fun order => order.cancel now) (fun order => some (toOrderView order))

def markOrderDispatching (orderId : Uuid) (now : Date) :
    Proc OrderDb ServiceError (Option OrderView) :=
  OrderUseCase orderId (.done none) (fun order => .ok (order.beginDispatch now)) (fun _ => none)

def assignOrderDriver (orderId driverId : Uuid) (now : Date) :
    Proc OrderDb ServiceError (Option OrderView) :=
  OrderUseCase orderId (.done none) (fun order => order.assignDriver driverId now) (fun _ => none)

def markDispatchFailed (orderId : Uuid) (reason : String) (now : Date) :
    Proc OrderDb ServiceError (Option OrderView) :=
  OrderUseCase orderId (.done none) (fun order => .ok (order.dispatchFailed reason now))
    (fun _ => none)

def completeDispatchCancellation (orderId : Uuid) (now : Date) :
    Proc OrderDb ServiceError (Option OrderView) :=
  OrderUseCase orderId (.done none) (fun order => order.cancelAfterDispatch now) (fun _ => none)

end OrderUseCase

/-- One execution of a lifecycle use case. -/
structure OrderRequest where
  orderId : Uuid
  command : OrderCommand
  now : Date
  deriving DecidableEq

namespace OrderRequest

def execute (p : OrderRequest) : Proc OrderDb ServiceError (Option OrderView) :=
  match p.command with
  | .cancelOrder => OrderUseCase.cancelOrder p.orderId p.now
  | .markOrderDispatching => OrderUseCase.markOrderDispatching p.orderId p.now
  | .assignOrderDriver driverId => OrderUseCase.assignOrderDriver p.orderId driverId p.now
  | .markDispatchFailed reason => OrderUseCase.markDispatchFailed p.orderId reason p.now
  | .completeDispatchCancellation => OrderUseCase.completeDispatchCancellation p.orderId p.now

/-- What the use cases do when there is no such order. -/
def missing (p : OrderRequest) : Proc OrderDb ServiceError (Option OrderView) :=
  match p.command with
  | .cancelOrder => .throw (.orderNotFound s!"Order {p.orderId} was not found")
  | _ => .done none

def reply (p : OrderRequest) (order : Order) : Option OrderView :=
  match p.command with
  | .cancelOrder => some (toOrderView order)
  | _ => none

/-- Every use case is a read, its method, and a write. -/
theorem execute_eq (p : OrderRequest) :
    p.execute = OrderUseCase p.orderId p.missing (p.command.apply p.now) p.reply := by
  obtain ⟨orderId, command, now⟩ := p
  cases command <;> rfl

theorem finished_missing (p : OrderRequest) : p.missing.finished = true := by
  obtain ⟨orderId, command, now⟩ := p
  cases command <;> rfl

/-- A use case run alone on an order there is. -/
theorem run_execute {p : OrderRequest} {db : OrderDb} {row : OrderRow}
    (hrow : db.row p.orderId = some row) : p.execute.run db =
      match p.command.apply p.now (OrderMapper.toDomain row) with
      | .error e => (.error e, db)
      | .ok order => (.ok (p.reply order), db.save order) := by
  rw [execute_eq]
  cases happly : p.command.apply p.now (OrderMapper.toDomain row) <;>
    simp [OrderUseCase, Proc.read, Proc.write, Proc.run, OrderDb.findById, hrow, happly]

end OrderRequest

end RouteFast
