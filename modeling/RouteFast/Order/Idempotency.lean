import RouteFast.Order.Creation

/-! Any number of creations and lifecycle use cases as interleaved transactions. An
idempotency key that `trim` leaves alone names one order for good; a key that it
changes is stored under a name its next lookup does not find. -/

namespace RouteFast

open Transition ReadCommitted

inductive OrderCall where
  | create (order : Order) (correlationId : String) (idempotencyKey : Option String)
      (eventId : Uuid) (now : Date)
  | lifecycle (p : OrderRequest)

namespace OrderCall

def body (hashtext : String → ℤ) : OrderCall → Tx OrderDb OrderLock ServiceError (Option Order)
  | .create order correlationId idempotencyKey eventId now =>
    persistReadyForDispatch hashtext order correlationId idempotencyKey eventId now
  | .lifecycle p => p.statements

/-- The idempotency key of a creation, when there is one. -/
def key : OrderCall → Option String
  | .create _ _ idempotencyKey _ _ => idempotencyKey.filter (· ≠ "")
  | .lifecycle _ => none

end OrderCall

/-- The order an `order.ready_for_dispatch` row is about. -/
def OutboxRow.readyOrder (r : OutboxRow) : Option Uuid :=
  if r.eventType = .orderReadyForDispatch then r.payload.string .orderId else none

abbrev OrderStore := Store OrderDb OrderLock ServiceError (Option Order) OrderCall

/-- The order service's database from its first day. -/
def creationSystem (hashtext : String → ℤ) : System OrderStore (Label OrderCall) :=
  system (fun db => db.orders = [] ∧ db.outbox = []) (OrderCall.body hashtext)

/-- What idempotency under the key asks of a state. -/
structure Idempotent (key : String) (S : OrderStore) : Prop where
  /-- Every call under the key was answered with the one order, -/
  one_order : ∀ p a q b, (p, a) ∈ S.history → (q, b) ∈ S.history → p.key = some key →
    q.key = some key → a.map Order.id = b.map Order.id
  /-- which is stored once and announced once. -/
  one_row : ∀ p a, (p, some a) ∈ S.history → p.key = some key →
    (S.committed.orders.filter fun r => r.id = a.id).length ≤ 1
  one_event : ∀ p a, (p, some a) ∈ S.history → p.key = some key →
    (S.committed.outbox.filter fun r => r.readyOrder = some a.id).length ≤ 1
  /-- A call about to commit when another one has returns the other's order and writes nothing, -/
  returns : ∀ i x a q b, S.sessions i = some x → x.request.key = some key →
    x.code = .commit a → (q, b) ∈ S.history → q.key = some key →
    a.map Order.id = b.map Order.id ∧ view S.committed x.log = S.committed
  /-- and a call begun after that does not fail. -/
  succeeds : ∀ i x e q b, S.sessions i = some x → x.request.key = some key →
    (q, b) ∈ x.since → q.key = some key → x.code ≠ .throw e

namespace OrderDb

/-- The key is in the unique index. -/
def HasKey (db : OrderDb) (key : String) : Prop :=
  ∃ id r, db.row id = some r ∧ r.idempotencyKey = some key

/-- Orders stay, each under the key it was created with. -/
def Grows (db db' : OrderDb) : Prop :=
  ∀ id r, db.row id = some r → ∃ r', db'.row id = some r' ∧ r'.idempotencyKey = r.idempotencyKey

/-- The constraints of the two tables, and how they refer to each other. -/
structure WellKeyed (db : OrderDb) : Prop where
  ids : (db.orders.map OrderRow.id).Nodup
  unique : ∀ id id' r r' key, db.row id = some r → db.row id' = some r' →
    r.idempotencyKey = some key → r'.idempotencyKey = some key → id = id'
  trimmed : ∀ id r key, db.row id = some r → r.idempotencyKey = some key →
    Js.trim key = key ∧ key.length ≤ 160
  events : (db.outbox.filterMap OutboxRow.readyOrder).Nodup
  announced : ∀ id ∈ db.outbox.filterMap OutboxRow.readyOrder, db.row id ≠ none

variable {db db' db'' : OrderDb} {key : String}

theorem Grows.refl (db : OrderDb) : db.Grows db := fun _ r h => ⟨r, h, rfl⟩

theorem Grows.trans (h : db.Grows db') (h' : db'.Grows db'') : db.Grows db'' := by
  intro id r hr
  obtain ⟨r₁, hr₁, hk₁⟩ := h id r hr
  obtain ⟨r₂, hr₂, hk₂⟩ := h' id r₁ hr₁
  exact ⟨r₂, hr₂, hk₂.trans hk₁⟩

theorem Grows.row_ne_none (h : db.Grows db') {id : Uuid} (hrow : db.row id ≠ none) :
    db'.row id ≠ none := by
  obtain ⟨r, hr⟩ := Option.ne_none_iff_exists'.1 hrow
  obtain ⟨r', hr', -⟩ := h id r hr
  simp [hr']

theorem Grows.hasKey (h : db.Grows db') (hkey : db.HasKey key) : db'.HasKey key := by
  obtain ⟨id, r, hr, hk⟩ := hkey
  obtain ⟨r', hr', hk'⟩ := h id r hr
  exact ⟨id, r', hr', hk'.trans hk⟩

theorem findByKey_eq_none (h : db.WellKeyed) : db.findByKey key = none ↔ ¬ db.HasKey key := by
  simp only [findByKey, Table.find_eq_none_iff, HasKey, not_exists, not_and]
  constructor
  · intro hnone id r hr
    exact hnone r (Table.mem_of_find hr)
  · intro hnone r hr
    exact hnone r.id r (Table.find_of_mem h.ids hr)

theorem of_findByKey (h : db.WellKeyed) {r : OrderRow} (hr : db.findByKey key = some r) :
    db.row r.id = some r ∧ r.idempotencyKey = some key :=
  ⟨Table.find_of_mem h.ids (Table.mem_of_find hr), Table.key_of_find hr⟩

/-- What a lifecycle save does to the keys: nothing. -/
theorem row_save (db : OrderDb) (order : Order) (id : Uuid) :
    (db.save order).row id = if order.id = id then
      some ((OrderMapper.toPersistence order).over (db.row order.id)) else db.row id :=
  db.row_saveEntity (OrderMapper.toPersistence order) id

theorem idempotencyKey_over_toPersistence (order : Order) (old : Option OrderRow) :
    ((OrderMapper.toPersistence order).over old).idempotencyKey =
      old.bind OrderRow.idempotencyKey := rfl

theorem grows_save (order : Order) : db.Grows (db.save order) := by
  intro id r hr
  rw [row_save]
  by_cases hid : order.id = id
  · subst hid
    exact ⟨_, if_pos rfl, by simp [idempotencyKey_over_toPersistence, hr]⟩
  · exact ⟨r, by simp [hid, hr], rfl⟩

/-- A key found after a save was there before it. -/
theorem key_of_save {order : Order} {id : Uuid} {r : OrderRow}
    (hr : (db.save order).row id = some r) (hk : r.idempotencyKey = some key) :
    ∃ r', db.row id = some r' ∧ r'.idempotencyKey = some key := by
  rw [row_save] at hr
  split at hr
  · next hid =>
    subst hid
    obtain rfl := Option.some.inj hr
    simpa [idempotencyKey_over_toPersistence, Option.bind_eq_some_iff] using hk
  · exact ⟨r, hr, hk⟩

theorem hasKey_save (order : Order) : (db.save order).HasKey key ↔ db.HasKey key := by
  constructor
  · rintro ⟨id, r, hr, hk⟩
    obtain ⟨r', hr', hk'⟩ := key_of_save hr hk
    exact ⟨id, r', hr', hk'⟩
  · exact (grows_save order).hasKey

theorem WellKeyed.save (h : db.WellKeyed) (order : Order) : (db.save order).WellKeyed where
  ids := Table.nodup_save h.ids
  unique id id' r r' key hr hr' hk hk' := by
    obtain ⟨r₁, hr₁, hk₁⟩ := key_of_save hr hk
    obtain ⟨r₂, hr₂, hk₂⟩ := key_of_save hr' hk'
    exact h.unique id id' r₁ r₂ key hr₁ hr₂ hk₁ hk₂
  trimmed id r key hr hk := by
    obtain ⟨r', hr', hk'⟩ := key_of_save hr hk
    exact h.trimmed id r' key hr' hk'
  events := h.events
  announced id hid := (grows_save order).row_ne_none (h.announced id hid)

/-- The two inserts of a creation. -/
def created (db : OrderDb) (order : Order) (key : Option String) (event : OutboxRow) : OrderDb :=
  let entity := { OrderMapper.toPersistence order with idempotencyKey := some key }
  { db.saveEntity entity with outbox := db.outbox ++ [event] }

theorem row_created (db : OrderDb) (order : Order) (key : Option String) (event : OutboxRow)
    (id : Uuid) : (db.created order key event).row id =
      if order.id = id then
        some (({ OrderMapper.toPersistence order with idempotencyKey := some key } :
          OrderOrmEntity).over (db.row order.id))
      else db.row id :=
  db.row_saveEntity { OrderMapper.toPersistence order with idempotencyKey := some key } id

section Created

variable {order : Order} {stored : Option String} {event : OutboxRow}

theorem grows_created (hnew : db.row order.id = none) :
    db.Grows (db.created order stored event) := by
  intro id r hr
  have hid : order.id ≠ id := by rintro rfl; simp [hnew] at hr
  exact ⟨r, by simp [row_created, hid, hr], rfl⟩

/-- The keys after a creation: those before, and the new one at the new order. -/
theorem key_of_created {id : Uuid} {r : OrderRow}
    (hr : (db.created order stored event).row id = some r) (hk : r.idempotencyKey = some key) :
    (id = order.id ∧ stored = some key) ∨
      ∃ r', db.row id = some r' ∧ r'.idempotencyKey = some key := by
  rw [row_created] at hr
  split at hr
  · next hid =>
    obtain rfl := Option.some.inj hr
    exact Or.inl ⟨hid.symm, hk⟩
  · exact Or.inr ⟨r, hr, hk⟩

theorem hasKey_created (hnew : db.row order.id = none) :
    (db.created order stored event).HasKey key ↔ stored = some key ∨ db.HasKey key := by
  constructor
  · rintro ⟨id, r, hr, hk⟩
    rcases key_of_created hr hk with ⟨-, hs⟩ | ⟨r', hr', hk'⟩
    · exact Or.inl hs
    · exact Or.inr ⟨id, r', hr', hk'⟩
  · rintro (hs | hold)
    · exact ⟨order.id, _, (row_created db order stored event _).trans (if_pos rfl), hs⟩
    · exact (grows_created hnew).hasKey hold

theorem WellKeyed.created (h : db.WellKeyed) (hnew : db.row order.id = none)
    (hfree : ∀ key, stored = some key → ¬ db.HasKey key ∧ Js.trim key = key ∧ key.length ≤ 160)
    (hevent : event.readyOrder = some order.id) : (db.created order stored event).WellKeyed where
  ids := Table.nodup_save h.ids
  unique id id' r r' key hr hr' hk hk' := by
    rcases key_of_created hr hk with ⟨rfl, hs⟩ | ⟨r₁, hr₁, hk₁⟩ <;>
      rcases key_of_created hr' hk' with ⟨rfl, hs'⟩ | ⟨r₂, hr₂, hk₂⟩
    · rfl
    · exact absurd ⟨id', r₂, hr₂, hk₂⟩ (hfree key hs).1
    · exact absurd ⟨id, r₁, hr₁, hk₁⟩ (hfree key hs').1
    · exact h.unique id id' r₁ r₂ key hr₁ hr₂ hk₁ hk₂
  trimmed id r key hr hk := by
    rcases key_of_created hr hk with ⟨rfl, hs⟩ | ⟨r', hr', hk'⟩
    · exact (hfree key hs).2
    · exact h.trimmed id r' key hr' hk'
  events := by
    have hout : (db.created order stored event).outbox.filterMap OutboxRow.readyOrder =
        db.outbox.filterMap OutboxRow.readyOrder ++ [order.id] := by
      simp [OrderDb.created, hevent]
    have hfirst : order.id ∉ db.outbox.filterMap OutboxRow.readyOrder := fun hid =>
      h.announced order.id hid hnew
    rw [hout, ← List.concat_eq_append]
    exact List.Nodup.concat hfirst h.events
  announced id hid := by
    have hid' : id ∈ db.outbox.filterMap OutboxRow.readyOrder ∨ id = order.id := by
      simpa [OrderDb.created, hevent, or_comm, eq_comm] using hid
    rcases hid' with hid' | rfl
    · exact (grows_created hnew).row_ne_none (h.announced id hid')
    · simp [row_created]

end Created

/-- What `rejects` leaves to be inserted. -/
theorem of_rejects_eq_none (h : db.WellKeyed) {id : Uuid} {stored : Option String}
    (hrej : db.rejects id stored = none) : db.row id = none ∧
      ∀ key, stored = some key → ¬ db.HasKey key ∧ key.length ≤ 160 := by
  cases stored with
  | none => simpa [rejects] using hrej
  | some key =>
    simp only [rejects] at hrej
    split_ifs at hrej with hrow hlen hkey
    refine ⟨by simpa using hrow, fun key' hk => ?_⟩
    obtain rfl := Option.some.inj hk
    exact ⟨(findByKey_eq_none h).1 (by simpa using hkey), by omega⟩

end OrderDb

/-- Orders stay under their keys, and every answer given under a key has its order there. -/
def creationDiscipline : Discipline OrderDb OrderLock (Option Order) OrderCall where
  Inv history db := db.WellKeyed ∧ ∀ p a key, (p, a) ∈ history → p.key = some key →
    ∃ order, a = some order ∧ (Js.trim key).length ≤ 160 ∧
      (Js.trim key = key → ∃ r, db.row order.id = some r ∧ r.idempotencyKey = some key)
  Keeps
    | .advisory _, _, _ => True
    | .order id, db, db' => db'.row id = db.row id
    | .idempotencyKey key, db, db' => db'.HasKey key ↔ db.HasKey key
  Evolves := OrderDb.Grows
  keeps_refl k db := by cases k <;> simp
  keeps_trans k a b c h h' := by
    cases k with
    | advisory => trivial
    | order id => exact Eq.trans h' h
    | idempotencyKey key => exact Iff.trans h' h
  evolves_refl := OrderDb.Grows.refl
  evolves_trans _ _ _ := OrderDb.Grows.trans

/-- What a call under a trimmed key owes at its commit: if the key is taken by then, the
order it is taken by, and no write. -/
def Answer (p : OrderCall) (_since : List (OrderCall × Option Order)) (a : Option Order)
    (db db' : OrderDb) : Prop :=
  ∀ key, p.key = some key → Js.trim key = key → db.HasKey key →
    db' = db ∧ ∃ order r, a = some order ∧ db.row order.id = some r ∧ r.idempotencyKey = some key

/-- A key stored as it is given, or never stored. -/
def Steady (key : String) : Prop := Js.trim key = key ∨ 160 < (Js.trim key).length

instance (key : String) : Decidable (Steady key) := inferInstanceAs (Decidable (_ ∨ _))

/-- A call under a steady key fails only if none under it had committed before it began. -/
def Failure (p : OrderCall) (since : List (OrderCall × Option Order)) (_e : ServiceError) : Prop :=
  ∀ key, p.key = some key → Steady key → ∀ q b, (q, b) ∈ since → q.key ≠ some key

theorem storedKey_eq_some {idempotencyKey : Option String} {key : String}
    (h : storedKey idempotencyKey = some key) :
    key ≠ "" ∧ ∃ given, idempotencyKey = some given ∧ Js.trim given = key := by
  simp only [storedKey, Option.filter_eq_some_iff, Option.map_eq_some_iff] at h
  simpa [and_comm] using h

theorem trim_storedKey {idempotencyKey : Option String} {key : String}
    (h : storedKey idempotencyKey = some key) : Js.trim key = key := by
  obtain ⟨-, given, -, rfl⟩ := storedKey_eq_some h
  exact Js.trim_trim given

theorem readyOrder_pending (eventId : Uuid) (order : Order) (correlationId : String) (now : Date) :
    (OutboxRow.pending eventId .orderReadyForDispatch .dispatchEvents
      (readyForDispatchPayload eventId order correlationId) correlationId now).readyOrder =
      some order.id := by
  simp [OutboxRow.readyOrder, OutboxRow.pending, Payload.string, Payload.get_json,
    readyForDispatchPayload, Js.Obj.get]

section Bodies

variable {order : Order} {correlationId : String} {idempotencyKey : Option String}
  {eventId : Uuid} {now : Date} {held : OrderLock → Prop} {db : OrderDb}

open Discipline

/-- The inserts of a creation, from a state where its own key is free. -/
theorem ok_insertReadyForDispatch {since : List (OrderCall × Option Order)}
    (hfail : ∀ e, Failure (.create order correlationId idempotencyKey eventId now) since e) :
    creationDiscipline.Ok (.create order correlationId idempotencyKey eventId now)
      (Answer (.create order correlationId idempotencyKey eventId now) since)
      (Failure (.create order correlationId idempotencyKey eventId now) since)
      (insertReadyForDispatch order correlationId idempotencyKey eventId now) [] held db := by
  intro db₁ hl₁
  cases hrej : db₁.rejects order.id (storedKey idempotencyKey) with
  | some e => simpa [hrej] using hfail e
  | none =>
  simp only [view_nil, hrej]
  obtain ⟨⟨_, hwk₁, -⟩, -⟩ := hl₁
  obtain ⟨hnew₁, hfree₁⟩ := OrderDb.of_rejects_eq_none hwk₁ hrej
  intro db₂ hl₂ h db₃ ⟨hwk₃, hhist⟩ hr₃
  have hrely := Later.of_rely hl₂.2 ⟨⟨h, hwk₃, hhist⟩, ⟨hr₃.evolves, fun k hk => hr₃.keeps k
    (Or.inr hk)⟩⟩
  have hnew : db₃.row order.id = none :=
    (hrely.2.keeps (.order order.id) (Or.inl (by simp))).trans hnew₁
  have hfree (key : String) (hs : storedKey idempotencyKey = some key) :
      ¬ db₃.HasKey key ∧ Js.trim key = key ∧ key.length ≤ 160 := by
    have hkeep := hrely.2.keeps (.idempotencyKey key) (Or.inl (by simp [hs]))
    exact ⟨fun hk => (hfree₁ key hs).1 (hkeep.1 hk), trim_storedKey hs, (hfree₁ key hs).2⟩
  set event := OutboxRow.pending eventId .orderReadyForDispatch .dispatchEvents
    (readyForDispatchPayload eventId order correlationId) correlationId now with hev
  have hkey (key : String) (hk : idempotencyKey.filter (· ≠ "") = some key) :
      (Js.trim key).length ≤ 160 ∧ (Js.trim key = key → storedKey idempotencyKey = some key) := by
    obtain ⟨rfl, hne⟩ : idempotencyKey = some key ∧ key ≠ "" := by
      simpa [Option.filter_eq_some_iff] using hk
    by_cases htrim : Js.trim key = ""
    · exact ⟨by simp [htrim], fun h => absurd (h.symm.trans htrim) hne⟩
    · have hs : storedKey (some key) = some (Js.trim key) := by simp [storedKey, htrim]
      exact ⟨(hfree _ hs).2.2, fun h => by rw [hs, h]⟩
  have hgrows : db₃.Grows (db₃.created order (storedKey idempotencyKey) event) :=
    OrderDb.grows_created hnew
  change creationDiscipline.Inv _ (db₃.created order (storedKey idempotencyKey) event) ∧
    db₃.Grows (db₃.created order (storedKey idempotencyKey) event) ∧
    (∀ k, _ → creationDiscipline.Keeps k db₃ (db₃.created order (storedKey idempotencyKey) event)) ∧
    Answer _ since _ db₃ (db₃.created order (storedKey idempotencyKey) event)
  refine ⟨⟨hwk₃.created hnew hfree (readyOrder_pending eventId order correlationId now), ?_⟩,
    hgrows, ?_, ?_⟩
  · intro p a key hp hk
    rcases List.mem_append.1 hp with hp | hp
    · obtain ⟨o, ha, hlen, hrow⟩ := hhist p a key hp hk
      refine ⟨o, ha, hlen, fun htrim => ?_⟩
      obtain ⟨r, hr, hrk⟩ := hrow htrim
      obtain ⟨r', hr', hrk'⟩ := hgrows o.id r hr
      exact ⟨r', hr', hrk'.trans hrk⟩
    · obtain ⟨rfl, rfl⟩ := Prod.mk.inj (List.mem_singleton.1 hp)
      refine ⟨order, rfl, (hkey key hk).1, fun htrim => ?_⟩
      exact ⟨_, (OrderDb.row_created db₃ order _ event _).trans (if_pos rfl),
        (hkey key hk).2 htrim⟩
  · intro k hk
    cases k with
    | advisory => trivial
    | order id =>
      have hid : order.id ≠ id := by rintro rfl; simp at hk
      exact (OrderDb.row_created db₃ order _ event id).trans (if_neg hid)
    | idempotencyKey key =>
      have hne : storedKey idempotencyKey ≠ some key := by intro hs; simp [hs] at hk
      exact (OrderDb.hasKey_created hnew).trans (by simp [hne])
  · intro key hk htrim htaken
    exact absurd htaken (hfree key ((hkey key hk).2 htrim)).1

/-- An answer that was there before changes nothing. -/
theorem inv_snoc {h : List (OrderCall × Option Order)} {p : OrderCall} {a : Option Order}
    (hInv : creationDiscipline.Inv h db)
    (ha : ∀ key, p.key = some key → ∃ o r, a = some o ∧ db.row o.id = some r ∧
      r.idempotencyKey = some key) : creationDiscipline.Inv (h ++ [(p, a)]) db := by
  refine ⟨hInv.1, fun q b key hq hk => ?_⟩
  rcases List.mem_append.1 hq with hq | hq
  · exact hInv.2 q b key hq hk
  · obtain ⟨rfl, rfl⟩ := Prod.mk.inj (List.mem_singleton.1 hq)
    obtain ⟨o, r, hao, hr, hrk⟩ := ha key hk
    obtain ⟨htrim, hlen⟩ := hInv.1.trimmed o.id r key hr hrk
    exact ⟨o, hao, by rwa [htrim], fun _ => ⟨r, hr, hrk⟩⟩

theorem ok_persistReadyForDispatch (hashtext : String → ℤ)
    {since : List (OrderCall × Option Order)} (hInv : creationDiscipline.Inv since db) :
    creationDiscipline.Ok (.create order correlationId idempotencyKey eventId now)
      (Answer (.create order correlationId idempotencyKey eventId now) since)
      (Failure (.create order correlationId idempotencyKey eventId now) since)
      (persistReadyForDispatch hashtext order correlationId idempotencyKey eventId now) [] held
      db := by
  unfold persistReadyForDispatch
  cases hkey : idempotencyKey.filter (· ≠ "") with
  | none =>
    refine ok_insertReadyForDispatch fun e key hk => ?_
    have hnone : (OrderCall.create order correlationId idempotencyKey eventId now).key = none := hkey
    simp [hnone] at hk
  | some key =>
    have hreq : (OrderCall.create order correlationId idempotencyKey eventId now).key = some key :=
      hkey
    intro db₁ hl₁ db₂ hl₂
    obtain ⟨_, hwk₂, -⟩ := hl₂.1
    simp only [view_nil]
    cases hfind : db₂.findByKey key with
    | none =>
      have hfree := (OrderDb.findByKey_eq_none hwk₂).1 hfind
      refine ok_insertReadyForDispatch fun e key' hk hsteady q b hq hqk => ?_
      obtain rfl : key = key' := by simpa [hreq] using hk
      obtain ⟨o, -, hlen, hrow⟩ := hInv.2 q b key hq hqk
      obtain ⟨r, hr, hrk⟩ := hrow (hsteady.resolve_right (by omega))
      have hgrows := (hl₁.2.evolves).trans hl₂.2.evolves
      exact hfree (hgrows.hasKey ⟨o.id, r, hr, hrk⟩)
    | some existing =>
      obtain ⟨hrow, hrk⟩ := OrderDb.of_findByKey hwk₂ hfind
      intro h db₃ hInv₃ hr₃
      obtain ⟨r, hr, hk₃⟩ := hr₃.evolves existing.id existing hrow
      have hanswer (key' : String)
          (hk : (OrderCall.create order correlationId idempotencyKey eventId now).key = some key') :
          ∃ o r, some (OrderMapper.toDomain existing) = some o ∧ db₃.row o.id = some r ∧
            r.idempotencyKey = some key' := by
        obtain rfl : key = key' := by simpa [hreq] using hk
        exact ⟨_, r, rfl, hr, hk₃.trans hrk⟩
      exact ⟨inv_snoc hInv₃ hanswer, OrderDb.Grows.refl _, fun k _ => creationDiscipline.keeps_refl k _,
        fun key' hk _ _ => ⟨rfl, hanswer key' hk⟩⟩

theorem ok_statements (p : OrderRequest) {since : List (OrderCall × Option Order)} :
    creationDiscipline.Ok (.lifecycle p) (Answer (.lifecycle p) since) (Failure (.lifecycle p) since)
      p.statements [] held db := by
  have hfail (e : ServiceError) : Failure (.lifecycle p) since e := by
    intro key hk
    cases hk
  have hdone {h : List (OrderCall × Option Order)} {db' : OrderDb}
      (hInv : creationDiscipline.Inv h db') (a : Option Order) :
      creationDiscipline.Inv (h ++ [(.lifecycle p, a)]) db' :=
    inv_snoc hInv (by rintro key ⟨⟩)
  intro db₁ hl₁
  simp only [view_nil]
  cases hfind : db₁.findById p.orderId with
  | none =>
    have hcommit : creationDiscipline.Ok (.lifecycle p) (Answer (.lifecycle p) since)
        (Failure (.lifecycle p) since) (.commit none) [] held db₁ :=
      fun h db₂ hInv₂ _ => ⟨hdone hInv₂ none, OrderDb.Grows.refl _,
        fun k _ => creationDiscipline.keeps_refl k _, by rintro key ⟨⟩⟩
    cases p.command <;> first | exact hcommit | exact hfail _
  | some order =>
    cases happly : p.command.apply p.now order with
    | error e =>
      simp only [happly]
      exact hfail e
    | ok order' =>
      simp only [happly]
      intro db₂ hl₂ h db₃ hInv₃ hr₃
      simp only [List.nil_append, view_cons, view_nil]
      refine ⟨hdone (h := h) ⟨hInv₃.1.save order', fun q b key hq hk => ?_⟩ none,
        OrderDb.grows_save order', fun k hk => ?_, by rintro key ⟨⟩⟩
      · obtain ⟨o, ha, hlen, hrow⟩ := hInv₃.2 q b key hq hk
        refine ⟨o, ha, hlen, fun htrim => ?_⟩
        obtain ⟨r, hr, hrk⟩ := hrow htrim
        obtain ⟨r', hr', hrk'⟩ := OrderDb.grows_save order' o.id r hr
        exact ⟨r', hr', hrk'.trans hrk⟩
      · cases k with
        | advisory => trivial
        | order id =>
          have hid : order'.id ≠ id := by rintro rfl; simp at hk
          exact (OrderDb.row_save db₃ order' id).trans (if_neg hid)
        | idempotencyKey key => exact OrderDb.hasKey_save order'

end Bodies

/-- Every run keeps the discipline, and every call meets what it owes. -/
theorem creation_sound {hashtext : String → ℤ} {S : OrderStore}
    (hreach : (creationSystem hashtext).Reachable S) :
    Discipline.Sound creationDiscipline Answer Failure S := by
  obtain ⟨ts, hrun⟩ := hreach
  refine Discipline.run_sound ?_ ?_ hrun
  · rintro db ⟨horders, houtbox⟩
    refine ⟨⟨?_, ?_, ?_, ?_, ?_⟩, ?_⟩ <;> simp [OrderDb.row, horders, houtbox]
  · intro p h db hInv
    cases p with
    | create => exact ok_persistReadyForDispatch hashtext hInv
    | lifecycle p => exact ok_statements p

theorem idempotent_of_steady {hashtext : String → ℤ} {key : String} (hsteady : Steady key)
    {S : OrderStore} (hreach : (creationSystem hashtext).Reachable S) : Idempotent key S := by
  have hsound := creation_sound hreach
  have hentry {p : OrderCall} {a : Option Order} (hp : (p, a) ∈ S.history)
      (hk : p.key = some key) : Js.trim key = key ∧ ∃ order r, a = some order ∧
        S.committed.row order.id = some r ∧ r.idempotencyKey = some key := by
    obtain ⟨order, ha, hlen, hrow⟩ := hsound.inv.2 p a key hp hk
    have htrim := hsteady.resolve_right (by omega)
    obtain ⟨r, hr, hrk⟩ := hrow htrim
    exact ⟨htrim, order, r, ha, hr, hrk⟩
  refine ⟨?_, ?_, ?_, ?_, ?_⟩
  · intro p a q b hp hq hpk hqk
    obtain ⟨-, o, r, rfl, hr, hrk⟩ := hentry hp hpk
    obtain ⟨-, o', r', rfl, hr', hrk'⟩ := hentry hq hqk
    exact congrArg some (hsound.inv.1.unique o.id o'.id r r' key hr hr' hrk hrk')
  · intro p a _ _
    exact Table.length_filter_key_le_one hsound.inv.1.ids a.id
  · intro p a _ _
    exact Table.length_filter_le_one hsound.inv.1.events a.id
  · intro i x a q b hx hpk hcode hq hqk
    obtain ⟨htrim, o, r, rfl, hr, hrk⟩ := hentry hq hqk
    obtain ⟨hsame, o', r', rfl, hr', hrk'⟩ :=
      hsound.result hx hcode key hpk htrim ⟨o.id, r, hr, hrk⟩
    exact ⟨congrArg some (hsound.inv.1.unique o'.id o.id r' r key hr' hr hrk' hrk), hsame⟩
  · intro i x e q b hx hpk hq hqk hcode
    exact hsound.error hx hcode key hpk hsteady q b hq hqk

section Unsteady

/-- A creation run alone, under a key it does not find. -/
theorem run_persistReadyForDispatch {hashtext : String → ℤ} {order : Order}
    {correlationId key : String} {eventId : Uuid} {now : Date} {locked : ℕ → OrderLock → Bool}
    {db : OrderDb} (hne : key ≠ "") (hfind : db.findByKey key = none) :
    (persistReadyForDispatch hashtext order correlationId (some key) eventId now).run locked db =
      match db.rejects order.id (storedKey (some key)) with
      | some e => .error e
      | none => .ok (some order, db.created order (storedKey (some key))
          (.pending eventId .orderReadyForDispatch .dispatchEvents
            (readyForDispatchPayload eventId order correlationId) correlationId now)) := by
  have hgiven : (some key).filter (· ≠ "") = some key := by simp [hne]
  simp only [persistReadyForDispatch, hgiven, Tx.run, hfind, insertReadyForDispatch]
  cases db.rejects order.id (storedKey (some key)) <;> rfl

def firstOrder : Order := .sample "3f2a7c58-0b1d-4e6a-9c35-7d8e1f204a61"

def secondOrder : Order := .sample "a94b6d02-5e7f-4c18-b0a3-2e6f8d1c9b35"

/-- Two creations under one key, with an order and an event of their own each. -/
def firstCall (key : String) : OrderCall :=
  .create firstOrder "corr-1" (some key) "c7d1e0a4-62f3-4b8e-8f19-5a3b2c4d6e70" 1

def secondCall (key : String) : OrderCall :=
  .create secondOrder "corr-2" (some key) "0e8f5b3c-d7a2-4916-93c4-b1a0f2e6d857" 2

/-- One creation after the other under a key that is not steady: the second is not found
under the key the first is stored under. -/
theorem not_idempotent_of_unsteady (hashtext : String → ℤ) {key : String} (hne : key ≠ "")
    (hunsteady : ¬ Steady key) :
    ∃ S, (creationSystem hashtext).Reachable S ∧ ¬ Idempotent key S := by
  obtain ⟨huntrimmed, hlen⟩ : Js.trim key ≠ key ∧ (Js.trim key).length ≤ 160 := by
    simpa [Steady] using hunsteady
  let S₀ : OrderStore := ⟨⟨[], []⟩, [], fun _ => none, fun _ => none⟩
  have hreach₀ : (creationSystem hashtext).Reachable S₀ :=
    ⟨[], .nil ⟨⟨rfl, rfl⟩, rfl, fun _ => rfl, fun _ => rfl⟩⟩
  have hstored (k : String) (hs : storedKey (some key) = some k) : k = Js.trim key := by
    obtain ⟨-, given, hgiven, rfl⟩ := storedKey_eq_some hs
    rw [Option.some.inj hgiven]
  have hfirst := alone hreach₀ ⟨fun _ => rfl, fun _ => rfl⟩ 0 (firstCall key)
  have hrej₀ : S₀.committed.rejects firstOrder.id (storedKey (some key)) = none := by
    cases hs : storedKey (some key) with
    | none => rfl
    | some k =>
      have hk : ¬ 160 < k.length := by rw [hstored k hs]; omega
      simp [OrderDb.rejects, OrderDb.row, OrderDb.findByKey, S₀, hk]
  rw [show (firstCall key).body hashtext = persistReadyForDispatch hashtext firstOrder _ (some key)
    _ _ from rfl, run_persistReadyForDispatch hne rfl, hrej₀] at hfirst
  obtain ⟨S₁, hreach₁, hquiet₁, hdb₁, hhist₁⟩ := hfirst
  have hsecond := alone hreach₁ hquiet₁ 0 (secondCall key)
  have hother : Table.find OrderRow.idempotencyKey (some key) S₁.committed.orders = none := by
    rw [hdb₁, Table.find_eq_none_iff]
    intro r hr
    obtain rfl : r = _ := by simpa [OrderDb.created, OrderDb.saveEntity, S₀, Table.save] using hr
    intro hk
    simp only [OrderOrmEntity.over, Option.getD_some] at hk
    exact huntrimmed (hstored key hk).symm
  rw [show (secondCall key).body hashtext = persistReadyForDispatch hashtext secondOrder _
    (some key) _ _ from rfl, run_persistReadyForDispatch hne hother] at hsecond
  have hkeys : (firstCall key).key = some key ∧ (secondCall key).key = some key := by
    simp [firstCall, secondCall, OrderCall.key, hne]
  have hbefore : (firstCall key, some firstOrder) ∈ S₁.history := by simp [hhist₁]
  -- a trimmed key that is empty is stored as null; any other one collides
  cases hrej₁ : S₁.committed.rejects secondOrder.id (storedKey (some key)) with
  | some e =>
    rw [hrej₁] at hsecond
    obtain ⟨S₂, x, hreach₂, hx, hreq, hsince, hcode⟩ := hsecond
    refine ⟨S₂, hreach₂, fun h => h.succeeds 0 x e _ _ hx ?_ (hsince ▸ hbefore) hkeys.1 hcode⟩
    rw [hreq]
    exact hkeys.2
  | none =>
    rw [hrej₁] at hsecond
    obtain ⟨S₂, hreach₂, -, -, hhist₂⟩ := hsecond
    refine ⟨S₂, hreach₂, fun h => ?_⟩
    have hsame := h.one_order _ _ (secondCall key) (some secondOrder)
      (by rw [hhist₂]; exact List.mem_append_left _ hbefore) (by simp [hhist₂]) hkeys.1 hkeys.2
    exact absurd hsame (by decide)

end Unsteady

/-- Creation is idempotent under exactly the keys that are stored as they are given, or
are too long to be stored. -/
theorem idempotent_iff_steady (hashtext : String → ℤ) {key : String} (hne : key ≠ "") :
    (∀ S, (creationSystem hashtext).Reachable S → Idempotent key S) ↔ Steady key := by
  constructor
  · intro hall
    by_contra hunsteady
    obtain ⟨S, hreach, hnot⟩ := not_idempotent_of_unsteady hashtext hne hunsteady
    exact hnot (hall S hreach)
  · intro hsteady S hreach
    exact idempotent_of_steady hsteady hreach

theorem idempotent_order_7 : Steady "order-7" ∧
    ∀ S, (creationSystem fun key => key.length).Reachable S → Idempotent "order-7" S :=
  ⟨Or.inl (by decide), (idempotent_iff_steady _ (by decide)).2 (Or.inl (by decide))⟩

/-- A key that begins with a no-break space, which no HTTP parser strips and `trim` does. -/
theorem not_idempotent_nbsp :
    ¬ ∀ (hashtext : String → ℤ) (key : String), key ≠ "" →
      ∀ S, (creationSystem hashtext).Reachable S → Idempotent key S := by
  intro hlaw
  obtain ⟨S, hreach, hnot⟩ := @not_idempotent_of_unsteady (fun key => key.length)
    "\u00a0order-7" (by decide) (by decide)
  exact hnot (hlaw _ _ (by decide) S hreach)

end RouteFast
