import RouteFast.Reliability.Inbox

/-! Services that talk through outboxes, queues and inboxes, whatever their databases
are. The relay publishes pending rows, possibly more than once; the broker keeps a copy
until it is acknowledged and may deliver it again; a handler that throws is retried and
finally dead-lettered; any step may be the last one before a crash. -/

namespace RouteFast

open Transition Pool

/-- What is published of an outbox row: pattern and data, with its messageId and header. -/
structure Message where
  id : Uuid
  eventType : EventType
  payload : Payload
  correlationId : String
  deriving DecidableEq

def OutboxRow.message (r : OutboxRow) : Message := ⟨r.id, r.eventType, r.payload, r.correlationId⟩

/-- `payload.eventId` and `payload.correlationId`, as the inbox reads them. -/
def Message.event (m : Message) : Option ReliableIntegrationEvent := do
  let eventId ← m.payload.string .eventId
  let correlationId ← m.payload.string .correlationId
  some ⟨eventId, correlationId⟩

theorem Message.eventId_of_event {m : Message} {event : ReliableIntegrationEvent}
    (h : m.event = some event) : m.payload.string .eventId = some event.eventId := by
  obtain ⟨eventId, hid, h⟩ := Option.bind_eq_some_iff.1 h
  obtain ⟨correlationId, -, h⟩ := Option.bind_eq_some_iff.1 h
  rw [hid, ← Option.some.inj h]

/-- The databases `W` of the services with their outboxes, event handlers and requests.
`η` is what a handler draws from outside: fresh ids, the clock, other services' answers.
`issued` lists the ids in the tables that came from `randomUUID()`. -/
structure Wiring (W π η : Type) where
  outbox : W → List OutboxRow
  issued : W → List Uuid
  markPublished : Uuid → Date → W → W
  handle : Queue → Message → η → Option (Proc W ServiceError Unit)
  execute : π → Proc W ServiceError Unit
  maxRetries : ℕ

/-- A copy of a message, in its queue, in the retry queue or being delivered. -/
structure Parcel (W : Type) where
  queue : Queue
  message : Message
  retryCount : ℕ
  call : Option (Call W ServiceError)

/-- `sent` lists the outbox rows whose publication the broker has confirmed. -/
structure Bus (W π : Type) where
  world : W
  inbox : Queue → Inbox
  parcels : ℕ → Option (Parcel W)
  dead : List (Queue × Message)
  sent : List Uuid
  tasks : ℕ → Option (Thread W ServiceError Unit π)

inductive BusLabel (π η : Type) where
  | request (i : ℕ) (p : π)
  | work (i : ℕ)
  /-- `transport.publish(event)` -/
  | publish (id : Uuid) (j : ℕ)
  /-- The relay's `save` after the publication it waited for. -/
  | confirm (id : Uuid) (now : Date)
  | redeliver (i j : ℕ)
  | receive (i : ℕ) (draw : η)
  | advance (i : ℕ) (now : Date)
  /-- The acknowledgement, after a copy for the retry queue or the DLQ if the call threw. -/
  | settle (i : ℕ)
  | crash (i : ℕ)

/-- The parcels a step may change. -/
def BusLabel.parcels {π η : Type} : BusLabel π η → List ℕ
  | .publish _ j => [j]
  | .redeliver _ j => [j]
  | .receive i _ | .advance i _ | .settle i | .crash i => [i]
  | .request _ _ | .work _ | .confirm _ _ => []

namespace Bus

variable {W π η : Type}

def setParcel (S : Bus W π) (i : ℕ) (x : Option (Parcel W)) : Bus W π :=
  { S with parcels := Function.update S.parcels i x }

def setTask (S : Bus W π) (i : ℕ) (t : Thread W ServiceError Unit π) : Bus W π :=
  { S with tasks := Function.update S.tasks i (some t) }

/-- No message of the kind is in a main or retry queue, and none is pending. -/
structure Delivered (N : Wiring W π η) (K : Queue → Message → Prop) (S : Bus W π) : Prop where
  parcels : ∀ i x, S.parcels i = some x → ¬ K x.queue x.message
  pending : ∀ r ∈ N.outbox S.world, K r.targetQueue r.message → r.status ≠ .pending

/-- No message at all is left. -/
abbrev AtRest (N : Wiring W π η) (S : Bus W π) : Prop := S.Delivered N fun _ _ => True

theorem Delivered.mono {N : Wiring W π η} {K K' : Queue → Message → Prop} {S : Bus W π}
    (h : S.Delivered N K) (hK : ∀ q m, K' q m → K q m) : S.Delivered N K' :=
  ⟨fun i x hi hx => h.parcels i x hi (hK _ _ hx), fun r hr hx => h.pending r hr (hK _ _ hx)⟩

end Bus

namespace Wiring

variable {W π η : Type} (N : Wiring W π η)

/-- Everything ever enqueued, with the queue it is for. -/
def posts (w : W) : List (Queue × Message) := (N.outbox w).map fun r => (r.targetQueue, r.message)

/-- `randomUUID()` never returns an id twice, and never an empty one. -/
def Fresh (w : W) : Prop := (N.issued w).Nodup ∧ "" ∉ N.issued w

instance (w : W) : Decidable (N.Fresh w) := inferInstanceAs (Decidable (_ ∧ _))

def step (S : Bus W π) : BusLabel π η → Option (Bus W π)
  | .request i p => if (S.tasks i).isNone then some (S.setTask i ⟨p, N.execute p, none⟩) else none
  | .work i =>
    match S.tasks i with
    | some ⟨p, .step effect next, _⟩ =>
      if N.Fresh (effect S.world) then
        some (({ S with world := effect S.world } : Bus W π).setTask i
          ⟨p, next S.world, some S.world⟩)
      else none
    | _ => none
  | .publish id j =>
    match Table.find OutboxRow.id id (N.outbox S.world), S.parcels j with
    | some r, none =>
      if r.status = .pending then
        some (({ S with sent := id :: S.sent } : Bus W π).setParcel j
          (some ⟨r.targetQueue, r.message, 0, none⟩))
      else none
    | _, _ => none
  | .confirm id now =>
    if id ∈ S.sent then some { S with world := N.markPublished id now S.world } else none
  | .redeliver i j =>
    match S.parcels i, S.parcels j with
    | some x, none => some (S.setParcel j (some { x with call := none }))
    | _, _ => none
  | .receive i draw =>
    match S.parcels i with
    | some ⟨queue, message, retryCount, none⟩ =>
      match message.event, N.handle queue message draw with
      | some event, some operation =>
        some (S.setParcel i (some ⟨queue, message, retryCount,
          some (.process message.eventType event operation)⟩))
      | _, _ => none
    | _ => none
  | .advance i now =>
    match S.parcels i with
    | some ⟨queue, message, retryCount, some c⟩ =>
      match c.step now ⟨S.inbox queue, S.world⟩ with
      | some (⟨inbox, world⟩, c') =>
        if N.Fresh world then
          some (({ S with world, inbox := Function.update S.inbox queue inbox } :
            Bus W π).setParcel i (some ⟨queue, message, retryCount, some c'⟩))
        else none
      | none => none
    | _ => none
  | .settle i =>
    match S.parcels i with
    | some ⟨queue, message, retryCount, some c⟩ =>
      match c.pc with
      | .returned _ => some (S.setParcel i none)
      | .thrown _ =>
        if retryCount < N.maxRetries then
          some (S.setParcel i (some ⟨queue, message, retryCount + 1, none⟩))
        else some (({ S with dead := S.dead ++ [(queue, message)] } : Bus W π).setParcel i none)
      | _ => none
    | _ => none
  | .crash i =>
    match S.parcels i with
    | some ⟨queue, message, retryCount, some _⟩ =>
      some (S.setParcel i (some ⟨queue, message, retryCount, none⟩))
    | _ => none

/-- Nothing under way yet; `init` says what the databases hold. -/
def system (init : W → Prop) : System (Bus W π) (BusLabel π η) where
  init S := (init S.world ∧ N.outbox S.world = [] ∧ N.Fresh S.world) ∧ (∀ q, S.inbox q = []) ∧
    (∀ i, S.parcels i = none) ∧ S.dead = [] ∧ S.sent = [] ∧ ∀ i, S.tasks i = none
  step := N.step

/-- Everything a step can be. -/
inductive Happens (S : Bus W π) : BusLabel π η → Bus W π → Prop
  | request {i : ℕ} {p : π} : S.tasks i = none →
      Happens S (.request i p) (S.setTask i ⟨p, N.execute p, none⟩)
  | work {i : ℕ} {p : π} {effect : W → W} {next : W → Proc W ServiceError Unit}
      {seen : Option W} : S.tasks i = some ⟨p, .step effect next, seen⟩ →
      N.Fresh (effect S.world) → Happens S (.work i)
        (({ S with world := effect S.world } : Bus W π).setTask i
          ⟨p, next S.world, some S.world⟩)
  | publish {r : OutboxRow} {j : ℕ} : r ∈ N.outbox S.world → r.status = .pending →
      S.parcels j = none → Happens S (.publish r.id j)
        (({ S with sent := r.id :: S.sent } : Bus W π).setParcel j
          (some ⟨r.targetQueue, r.message, 0, none⟩))
  | confirm {id : Uuid} {now : Date} : id ∈ S.sent →
      Happens S (.confirm id now) { S with world := N.markPublished id now S.world }
  | redeliver {i j : ℕ} {x : Parcel W} : S.parcels i = some x → S.parcels j = none →
      Happens S (.redeliver i j) (S.setParcel j (some { x with call := none }))
  | receive {i : ℕ} {draw : η} {x : Parcel W} {event : ReliableIntegrationEvent}
      {operation : Proc W ServiceError Unit} : S.parcels i = some x → x.call = none →
      x.message.event = some event → N.handle x.queue x.message draw = some operation →
      Happens S (.receive i draw) (S.setParcel i (some
        { x with call := some (.process x.message.eventType event operation) }))
  | advance {i : ℕ} {now : Date} {x : Parcel W} {c c' : Call W ServiceError} {s : Service W} :
      S.parcels i = some x → x.call = some c →
      Call.Effect now c ⟨S.inbox x.queue, S.world⟩ s c' → N.Fresh s.db →
      Happens S (.advance i now)
        (({ S with world := s.db, inbox := Function.update S.inbox x.queue s.inbox } :
          Bus W π).setParcel i (some { x with call := some c' }))
  | acked {i : ℕ} {x : Parcel W} {c : Call W ServiceError} {result : ProcessResult} :
      S.parcels i = some x → x.call = some c → c.pc = .returned result →
      Happens S (.settle i) (S.setParcel i none)
  | retried {i : ℕ} {x : Parcel W} {c : Call W ServiceError} {e : ServiceError} :
      S.parcels i = some x → x.call = some c → c.pc = .thrown e →
      Happens S (.settle i) (S.setParcel i
        (some { x with retryCount := x.retryCount + 1, call := none }))
  | deadLettered {i : ℕ} {x : Parcel W} {c : Call W ServiceError} {e : ServiceError} :
      S.parcels i = some x → x.call = some c → c.pc = .thrown e →
      Happens S (.settle i)
        (({ S with dead := S.dead ++ [(x.queue, x.message)] } : Bus W π).setParcel i none)
  | crash {i : ℕ} {x : Parcel W} : S.parcels i = some x →
      Happens S (.crash i) (S.setParcel i (some { x with call := none }))

variable {N}

theorem happens_of_step {S S' : Bus W π} {a : BusLabel π η} (h : N.step S a = some S') :
    N.Happens S a S' := by
  cases a with
  | request i p =>
    simp only [step] at h
    split at h
    · next hnone =>
      obtain rfl := Option.some.inj h
      exact .request (by simpa using hnone)
    · cases h
  | work i =>
    simp only [step] at h
    split at h
    · next p effect next seen ht =>
      split at h
      · next hfresh =>
        obtain rfl := Option.some.inj h
        exact .work ht hfresh
      · cases h
    · cases h
  | publish id j =>
    simp only [step] at h
    split at h
    · next r hr hj =>
      split at h
      · next hpending =>
        obtain rfl := Option.some.inj h
        obtain rfl : r.id = id := Table.key_of_find hr
        exact .publish (Table.mem_of_find hr) hpending hj
      · cases h
    · cases h
  | confirm id now =>
    simp only [step] at h
    split at h
    · next hsent =>
      obtain rfl := Option.some.inj h
      exact .confirm hsent
    · cases h
  | redeliver i j =>
    simp only [step] at h
    split at h
    · next x hi hj =>
      obtain rfl := Option.some.inj h
      exact .redeliver hi hj
    · cases h
  | receive i draw =>
    simp only [step] at h
    split at h
    · next queue message retryCount hi =>
      split at h
      · next event operation hevent hop =>
        obtain rfl := Option.some.inj h
        exact .receive hi rfl hevent hop
      · cases h
    · cases h
  | advance i now =>
    simp only [step] at h
    split at h
    · next queue message retryCount c hi =>
      split at h
      · next inbox world c' hs =>
        split at h
        · next hfresh =>
          obtain rfl := Option.some.inj h
          exact .advance hi rfl (Call.step_effect hs) hfresh
        · cases h
      · cases h
    · cases h
  | settle i =>
    simp only [step] at h
    split at h
    · next queue message retryCount c hi =>
      split at h
      · next result hpc =>
        obtain rfl := Option.some.inj h
        exact .acked hi rfl hpc
      · next e hpc =>
        split at h
        · obtain rfl := Option.some.inj h
          exact .retried hi rfl hpc
        · obtain rfl := Option.some.inj h
          exact .deadLettered hi rfl hpc
      · cases h
    · cases h
  | crash i =>
    simp only [step] at h
    split at h
    · next queue message retryCount c hi =>
      obtain rfl := Option.some.inj h
      exact .crash hi
    · cases h

theorem Happens.parcels_eq {S S' : Bus W π} {a : BusLabel π η} (h : N.Happens S a S') {j : ℕ}
    (hj : j ∉ a.parcels) : S'.parcels j = S.parcels j := by
  cases h with
  | request | work | confirm => rfl
  | publish | redeliver | receive | advance | acked | retried | deadLettered | crash =>
    exact Function.update_of_ne (by simpa [BusLabel.parcels] using hj) ..

theorem parcels_of_replay {init : W → Prop} {S S' : Bus W π} {as : List (BusLabel π η)} {j : ℕ}
    (hj : ∀ a ∈ as, j ∉ a.parcels) (h : (N.system init).replay S as = some S') :
    S'.parcels j = S.parcels j := by
  induction as generalizing S with
  | nil =>
    obtain rfl := Option.some.inj h
    rfl
  | cons a as ih =>
    obtain ⟨S₁, hs, h⟩ := Option.bind_eq_some_iff.1 h
    rw [ih (fun b hb => hj b (List.mem_cons_of_mem a hb)) h,
      (happens_of_step hs).parcels_eq (hj a List.mem_cons_self)]

end Wiring

end RouteFast
