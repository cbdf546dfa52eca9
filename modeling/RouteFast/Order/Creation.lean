import RouteFast.Base.ReadCommitted
import RouteFast.Order.Store

/-! Order creation as a transaction, next to the lifecycle use cases on the same
database. The idempotency key is locked and looked up as it was given, and stored
trimmed. -/

namespace RouteFast

open Transition ReadCommitted

/-- What a transaction of the order database can lock: an advisory lock, a row or
primary key of `orders`, or an entry of the unique index on `idempotency_key`. -/
inductive OrderLock where
  | advisory (hash : ℤ)
  | order (id : Uuid)
  | idempotencyKey (key : String)
  deriving DecidableEq

namespace OrderDb

/-- `orders.findOne({ where: { idempotencyKey } })` -/
def findByKey (db : OrderDb) (idempotencyKey : String) : Option OrderRow :=
  Table.find OrderRow.idempotencyKey (some idempotencyKey) db.orders

/-- Why the database rejects a new row, if it does: its primary key, the length of
`varchar(160)`, or the unique index on `idempotency_key`, where nulls do not collide. -/
def rejects (db : OrderDb) (id : Uuid) : Option String → Option ServiceError
  | none => if (db.row id).isSome then some (.database "orders_pkey") else none
  | some key =>
    if (db.row id).isSome then some (.database "orders_pkey")
    else if 160 < key.length then some (.database "character varying(160)")
    else if (db.findByKey key).isSome then some (.database "orders_idempotency_key")
    else none

end OrderDb

/-- `{ eventId, orderId, priority, pickup, dropoff, correlationId }` -/
def readyForDispatchPayload (eventId : Uuid) (order : Order) (correlationId : String) : Payload :=
  [(.eventId, .string eventId), (.orderId, .string order.id),
    (.priority, .string order.priority.text),
    (.pickup, .point order.pickup.coordinates.latitude order.pickup.coordinates.longitude),
    (.dropoff, .point order.dropoff.coordinates.latitude order.dropoff.coordinates.longitude),
    (.correlationId, .string correlationId)]

/-- `idempotencyKey?.trim() || null` -/
def storedKey (idempotencyKey : Option String) : Option String :=
  (idempotencyKey.map Js.trim).filter (· ≠ "")

/-- The inserts of `persistReadyForDispatch`; the order's id and `eventId` are fresh. -/
def insertReadyForDispatch (order : Order) (correlationId : String)
    (idempotencyKey : Option String) (eventId : Uuid) (now : Date) :
    Tx OrderDb OrderLock ServiceError (Option Order) :=
  let key := storedKey idempotencyKey
  let entity := { OrderMapper.toPersistence order with idempotencyKey := some key }
  .write (.order order.id :: (key.map OrderLock.idempotencyKey).toList)
    (fun db => db.rejects order.id key) (fun db => db.saveEntity entity) <|
  .write [] (fun _ => none)
    (fun db => { db with outbox := db.outbox ++ [.pending eventId .orderReadyForDispatch
      .dispatchEvents (readyForDispatchPayload eventId order correlationId) correlationId now] }) <|
  .commit (some order)

def persistReadyForDispatch (hashtext : String → ℤ) (order : Order) (correlationId : String)
    (idempotencyKey : Option String) (eventId : Uuid) (now : Date) :
    Tx OrderDb OrderLock ServiceError (Option Order) :=
  match idempotencyKey.filter (· ≠ "") with
  | some key =>
    .lock (.advisory (hashtext key)) <| .select fun db =>
      match db.findByKey key with
      | some existing => .commit (some (OrderMapper.toDomain existing))
      | none => insertReadyForDispatch order correlationId idempotencyKey eventId now
  | none => insertReadyForDispatch order correlationId idempotencyKey eventId now

/-- The creation writes the order and its event, or nothing. -/
theorem writes_persistReadyForDispatch {R : OrderDb → OrderDb → Prop} {hashtext : String → ℤ}
    {order : Order} {correlationId : String} {idempotencyKey : Option String} {eventId : Uuid}
    {now : Date}
    (hsave : ∀ db : OrderDb, R db (db.saveEntity
      { OrderMapper.toPersistence order with idempotencyKey := some (storedKey idempotencyKey) }))
    (hevent : ∀ db : OrderDb, R db
      { db with outbox := db.outbox ++ [.pending eventId .orderReadyForDispatch .dispatchEvents
        (readyForDispatchPayload eventId order correlationId) correlationId now] }) :
    (persistReadyForDispatch hashtext order correlationId idempotencyKey eventId now).Writes R := by
  have hinsert : (insertReadyForDispatch order correlationId idempotencyKey eventId now).Writes R :=
    ⟨hsave, hevent, trivial⟩
  unfold persistReadyForDispatch
  split
  · intro db
    simp only
    split
    · exact trivial
    · exact hinsert
  · exact hinsert

/-- A lifecycle use case on the same database: its read locks nothing, its save locks the row. -/
def OrderRequest.statements (p : OrderRequest) :
    Tx OrderDb OrderLock ServiceError (Option Order) :=
  .select fun db =>
    match db.findById p.orderId with
    | none =>
      match p.command with
      | .cancelOrder => .throw (.orderNotFound s!"Order {p.orderId} was not found")
      | _ => .commit none
    | some order =>
      match p.command.apply p.now order with
      | .error e => .throw e
      | .ok order =>
        .write [.order order.id] (fun _ => none) (fun db => db.save order) (.commit none)

/-- Run alone, the use case and its statements leave the same tables or throw the same. -/
theorem OrderRequest.statements_run (p : OrderRequest) (locked : ℕ → OrderLock → Bool)
    (db : OrderDb) :
    (p.statements.run locked db).map Prod.snd =
      (p.execute.run db).1.map fun _ => (p.execute.run db).2 := by
  rw [p.execute_eq]
  cases hrow : db.findById p.orderId with
  | none =>
    cases hcmd : p.command <;>
      simp [statements, Tx.run, OrderUseCase, Proc.read, Proc.run, hrow, hcmd, missing, Except.map]
  | some order =>
    cases happly : p.command.apply p.now order <;>
      simp [statements, Tx.run, OrderUseCase, Proc.read, Proc.write, Proc.run, hrow, happly,
        Except.map]

end RouteFast
