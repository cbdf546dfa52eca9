import Mathlib.Data.Multiset.DershowitzManna
import RouteFast.System.Delivery

/-! Coming to rest. Whatever a bus has got into, it can deliver all that is pending or on its
way if each handler, run alone, gets to its end and enqueues only messages that rank below
the one it handles. -/

namespace RouteFast

open Transition Pool

/-- A step of the relay, the broker or a consumer, not of a request from outside. -/
def BusLabel.Internal {π η : Type} : BusLabel π η → Prop
  | .request .. | .work .. => False
  | _ => True

/-- A step of the consumer that has the parcel. -/
def BusLabel.Serves {π η : Type} (i : ℕ) : BusLabel π η → Prop
  | .receive j _ | .advance j _ | .settle j | .crash j => j = i
  | _ => False

theorem BusLabel.Serves.internal {π η : Type} {i : ℕ} {a : BusLabel π η} (h : a.Serves i) :
    a.Internal := by
  cases a with
  | request | work => exact h.elim
  | publish | confirm | redeliver | receive | advance | settle | crash => trivial

theorem BusLabel.serves_advance {π η : Type} (i : ℕ) (now : Date) :
    (BusLabel.advance i now : BusLabel π η).Serves i := rfl

namespace Wiring

variable {W π η : Type} (N : Wiring W π η)

/-- With nothing else going on, every step can be taken, and what it enqueues is of `B`. -/
inductive Solo (B : Queue → Message → Prop) : Proc W ServiceError Unit → W → Prop
  | done (u : Unit) (w : W) : Solo B (.done u) w
  | throw (e : ServiceError) (w : W) : Solo B (.throw e) w
  | step {effect : W → W} {next : W → Proc W ServiceError Unit} {w : W} : N.Fresh (effect w) →
      (∀ r ∈ N.outbox (effect w), r ∈ N.outbox w ∨ B r.targetQueue r.message) →
      Solo B (next w) (effect w) → Solo B (.step effect next) w

/-- The relay's save of a row leaves the pending rows that there are besides it. -/
def Marks : Prop :=
  ∀ id now w, ∀ r ∈ N.outbox (N.markPublished id now w), r.status = .pending →
    r ∈ N.outbox w ∧ r.id ≠ id

/-- Whatever is to be delivered can be handled, with messages of a lower rank to follow. -/
structure Ranked (rank : Queue → Message → ℕ) (w : W) : Prop where
  handled : ∀ q m, (q, m) ∈ N.posts w → ∃ event draw op, m.event = some event ∧
    N.handle q m draw = some op ∧ N.Solo (fun q' m' => rank q' m' < rank q m) op w

section Solo

variable {N} {B : Queue → Message → Prop} {σ α : Type} {get : W → σ} {put : σ → W → W} {w : W}

theorem Solo.finished {p : Proc W ServiceError Unit} (h : p.finished = true) (w : W) :
    N.Solo B p w := by
  cases p with
  | done u => exact .done u w
  | throw e => exact .throw e w
  | step => cases h

theorem Solo.read {next : σ → Proc σ ServiceError α} (hself : put (get w) w = w)
    (hfresh : N.Fresh w) (h : N.Solo B ((next (get w)).within get put) w) :
    N.Solo B ((Proc.read next).within get put) w := by
  refine .step ?_ (fun r hr => Or.inl ?_) ?_
  · simpa only [id, hself] using hfresh
  · simpa only [id, hself] using hr
  · simpa only [id, hself] using h

/-- A transaction either leaves everything as it is or commits. -/
theorem Solo.atomically {f : σ → Except ServiceError (α × σ)} (hself : put (get w) w = w)
    (hfresh : N.Fresh w) (hcommit : ∀ a s, f (get w) = .ok (a, s) → N.Fresh (put s w) ∧
      ∀ r ∈ N.outbox (put s w), r ∈ N.outbox w ∨ B r.targetQueue r.message) :
    N.Solo B ((Proc.atomically f).within get put) w := by
  cases hf : f (get w) with
  | error e =>
    refine .step ?_ (fun r hr => Or.inl ?_) (.finished ?_ _)
    · simpa only [hf, hself] using hfresh
    · simpa only [hf, hself] using hr
    · simp only [hf, Proc.within, Proc.finished]
  | ok result =>
    obtain ⟨a, s⟩ := result
    obtain ⟨hfresh', hrows⟩ := hcommit a s hf
    refine .step ?_ ?_ (.finished ?_ _)
    · simpa only [hf] using hfresh'
    · simpa only [hf] using hrows
    · simp only [hf, Proc.within, Proc.finished]

theorem Solo.andThen {p : Proc σ ServiceError Unit} {q : Proc σ ServiceError α}
    (h : N.Solo B (p.within get put) w) (hq : ∀ w, N.Solo B (q.within get put) w) :
    N.Solo B ((p.andThen q).within get put) w := by
  induction p generalizing w with
  | done u => exact hq w
  | throw e => exact .throw e w
  | step effect next ih =>
    cases h with
    | step hfresh hrows hnext => exact .step hfresh hrows (ih _ hnext)

end Solo

variable {N} {S : Bus W π} {i : ℕ} {x : Parcel W} {c c' : Call W ServiceError}

theorem step_advance {now : Date} {s : Service W} (hi : S.parcels i = some x)
    (hc : x.call = some c) (hs : c.step now ⟨S.inbox x.queue, S.world⟩ = some (s, c'))
    (hfresh : N.Fresh s.db) : N.step S (.advance i now) =
      some (({ S with world := s.db, inbox := Function.update S.inbox x.queue s.inbox } :
        Bus W π).setParcel i (some { x with call := some c' })) := by
  obtain ⟨q, m, n, call⟩ := x
  obtain ⟨inbox, world⟩ := s
  obtain rfl : call = some c := hc
  simp only at hs hfresh
  simp only [step, hi, hs, if_pos hfresh]

theorem step_receive {draw : η} {event : ReliableIntegrationEvent}
    {op : Proc W ServiceError Unit} (hi : S.parcels i = some x) (hc : x.call = none)
    (hevent : x.message.event = some event) (hop : N.handle x.queue x.message draw = some op) :
    N.step S (.receive i draw) = some (S.setParcel i (some
      { x with call := some (.process x.message.eventType event op) })) := by
  obtain ⟨q, m, n, call⟩ := x
  obtain rfl : call = none := hc
  simp only at hevent hop
  simp only [step, hi, hevent, hop]

theorem step_crash (hi : S.parcels i = some x) (hc : x.call = some c) :
    N.step S (.crash i) = some (S.setParcel i (some { x with call := none })) := by
  obtain ⟨q, m, n, call⟩ := x
  obtain rfl : call = some c := hc
  simp only [step, hi]

theorem step_acked {result : ProcessResult} (hi : S.parcels i = some x) (hc : x.call = some c)
    (hpc : c.pc = .returned result) : N.step S (.settle i) = some (S.setParcel i none) := by
  obtain ⟨q, m, n, call⟩ := x
  obtain rfl : call = some c := hc
  simp only [step, hi, hpc]

theorem step_thrown {e : ServiceError} (hi : S.parcels i = some x) (hc : x.call = some c)
    (hpc : c.pc = .thrown e) : N.step S (.settle i) =
      if x.retryCount < N.maxRetries then
        some (S.setParcel i (some { x with retryCount := x.retryCount + 1, call := none }))
      else some (({ S with dead := S.dead ++ [(x.queue, x.message)] } :
        Bus W π).setParcel i none) := by
  obtain ⟨q, m, n, call⟩ := x
  obtain rfl : call = some c := hc
  simp only [step, hi, hpc]

theorem step_publish (hN : N.Sound) (hfresh : N.Fresh S.world) {r : OutboxRow}
    (hr : r ∈ N.outbox S.world) (hp : r.status = .pending) (hi : S.parcels i = none) :
    N.step S (.publish r.id i) = some (({ S with sent := r.id :: S.sent } :
      Bus W π).setParcel i (some ⟨r.targetQueue, r.message, 0, none⟩)) := by
  have hfind : Table.find OutboxRow.id r.id (N.outbox S.world) = some r :=
    Table.find_of_mem (hfresh.1.sublist (hN.ids S.world)) hr
  simp only [step, hfind, hi, if_pos hp]

end Wiring

namespace Bus

variable {W π η : Type} {N : Wiring W π η} {init : W → Prop} {B : Queue → Message → Prop}
  {S S' S'' : Bus W π} {i : ℕ} {x : Parcel W} {c : Call W ServiceError}

/-- What the delivery of a parcel leaves alone, and what it adds. -/
structure Served (N : Wiring W π η) (B : Queue → Message → Prop) (i : ℕ) (S S' : Bus W π) :
    Prop where
  parcels : ∀ j, j ≠ i → S'.parcels j = S.parcels j
  rows : ∀ r ∈ N.outbox S'.world, r ∈ N.outbox S.world ∨ B r.targetQueue r.message

theorem Served.trans (h : Served N B i S S') (h' : Served N B i S' S'') : Served N B i S S'' := by
  refine ⟨fun j hj => (h'.parcels j hj).trans (h.parcels j hj), fun r hr => ?_⟩
  rcases h'.rows r hr with hr | hr
  · exact h.rows r hr
  · exact Or.inr hr

/-- A step that changes the parcel and no outbox. -/
theorem Served.set {T : Bus W π} {o : Option (Parcel W)} (hparcels : T.parcels = S.parcels)
    (hrows : ∀ r ∈ N.outbox T.world, r ∈ N.outbox S.world ∨ B r.targetQueue r.message) :
    Served N B i S (T.setParcel i o) := by
  refine ⟨fun j hj => ?_, hrows⟩
  simp [setParcel, hj, hparcels]

/-- The call has returned or thrown. -/
def Over (c : Call W ServiceError) : Prop :=
  (∃ result, c.pc = .returned result) ∨ ∃ e, c.pc = .thrown e

/-- A parcel whose call is over, reached by serving it. -/
def ServedTo (N : Wiring W π η) (init : W → Prop) (B : Queue → Message → Prop) (i : ℕ)
    (x : Parcel W) (S S' : Bus W π) : Prop :=
  (N.system init).Leads (BusLabel.Serves i) S S' ∧ Served N B i S S' ∧
    ∃ c, S'.parcels i = some { x with call := some c } ∧ Over c

theorem ServedTo.head {a : BusLabel π η} (ha : a.Serves i) (hs : N.step S a = some S')
    (hserved : Served N B i S S') (h : ServedTo N init B i x S' S'') :
    ServedTo N init B i x S S'' :=
  ⟨.head ha hs h.1, hserved.trans h.2.1, h.2.2⟩

/-- One statement of a call, taken with nothing else going on. -/
theorem exists_advanced (now : Date) {s : Service W} {c' : Call W ServiceError}
    (hi : S.parcels i = some x) (hc : x.call = some c)
    (hs : c.step now ⟨S.inbox x.queue, S.world⟩ = some (s, c')) (hfresh : N.Fresh s.db)
    (hrows : ∀ r ∈ N.outbox s.db, r ∈ N.outbox S.world ∨ B r.targetQueue r.message) :
    ∃ S', N.step S (.advance i now) = some S' ∧ Served N B i S S' ∧ S'.world = s.db ∧
      S'.inbox x.queue = s.inbox ∧ S'.parcels i = some { x with call := some c' } :=
  ⟨_, Wiring.step_advance hi hc hs hfresh, .set rfl hrows, rfl, Function.update_self ..,
    Function.update_self ..⟩

/-- The operation gets to its end, and the call with it. -/
theorem exists_operated {rest : Proc W ServiceError Unit} {w : W} (hsolo : N.Solo B rest w)
    (hfresh : N.Fresh w) {S : Bus W π} {x : Parcel W} {c : Call W ServiceError} (hw : S.world = w)
    (hi : S.parcels i = some x) (hc : x.call = some c) (hpc : c.pc = .operation rest) :
    ∃ S', ServedTo N init B i x S S' := by
  obtain ⟨eventType, event, operation, pc⟩ := c
  obtain rfl : pc = .operation rest := hpc
  induction hsolo generalizing S x with
  | done u w =>
    subst hw
    obtain ⟨S', hs, hserved, -, -, hx⟩ := exists_advanced (B := B) 0 hi hc rfl hfresh
      fun r hr => Or.inl hr
    exact ⟨S', .one (BusLabel.serves_advance i 0) hs, hserved, _, hx, Or.inl ⟨_, rfl⟩⟩
  | throw e w =>
    subst hw
    obtain ⟨S', hs, hserved, -, -, hx⟩ := exists_advanced (B := B) 0 hi hc rfl hfresh
      fun r hr => Or.inl hr
    exact ⟨S', .one (BusLabel.serves_advance i 0) hs, hserved, _, hx, Or.inr ⟨_, rfl⟩⟩
  | @step effect next w hfresh' hrows hnext ih =>
    subst hw
    obtain ⟨S', hs, hserved, hworld, -, hx⟩ := exists_advanced (B := B) 0 hi hc rfl
      hfresh' hrows
    obtain ⟨S'', hS''⟩ := ih hfresh' hworld hx rfl
    exact ⟨S'', hS''.head (BusLabel.serves_advance i 0) hs hserved⟩

/-- A call gets to its end, whatever its inbox has of the message. -/
theorem exists_processed (init : W → Prop) {ty : EventType} {event : ReliableIntegrationEvent}
    {op : Proc W ServiceError Unit} (hsolo : N.Solo B op S.world) (hfresh : N.Fresh S.world)
    (hi : S.parcels i = some x) (hc : x.call = some (.process ty event op)) :
    ∃ S', ServedTo N init B i x S S' := by
  have hold : ∀ r ∈ N.outbox S.world, r ∈ N.outbox S.world ∨ B r.targetQueue r.message :=
    fun r hr => Or.inl hr
  have first (pc : Pc W ServiceError) (hs : (Call.process ty event op).step 0
      ⟨S.inbox x.queue, S.world⟩ = some (⟨S.inbox x.queue, S.world⟩, ⟨ty, event, op, pc⟩)) :
      ∃ S', N.step S (.advance i 0) = some S' ∧ Served N B i S S' ∧ S'.world = S.world ∧
        S'.inbox x.queue = S.inbox x.queue ∧
        S'.parcels i = some { x with call := some ⟨ty, event, op, pc⟩ } :=
    exists_advanced 0 hi hc hs hfresh hold
  cases hf : (S.inbox x.queue).findOne event.eventId with
  | some row =>
    by_cases hr : row.status = .processed
    · obtain ⟨S', hs, hserved, -, -, hx⟩ := first (.returned .duplicate)
        (by simp only [Call.process, Call.step, hf, if_pos hr])
      exact ⟨S', .one (BusLabel.serves_advance i 0) hs, hserved, _, hx, Or.inl ⟨_, rfl⟩⟩
    · obtain ⟨S', hs, hserved, hworld, -, hx⟩ := first (.operation op)
        (by simp only [Call.process, Call.step, hf, if_neg hr])
      obtain ⟨S'', hS''⟩ := exists_operated hsolo hfresh hworld hx rfl rfl
      exact ⟨S'', hS''.head (BusLabel.serves_advance i 0) hs hserved⟩
  | none =>
    obtain ⟨S', hs, hserved, hworld, hinbox, hx⟩ := first .insert
      (by simp only [Call.process, Call.step, hf])
    have hinsert : Call.step 0 ⟨ty, event, op, .insert⟩ ⟨S'.inbox x.queue, S'.world⟩ =
        some (⟨S'.inbox x.queue ++ [⟨event.eventId, ty, event.correlationId, .processing, none⟩],
          S'.world⟩, ⟨ty, event, op, .operation op⟩) := by
      simp only [Call.step, hinbox, hf]
    obtain ⟨S₂, hs₂, hserved₂, hworld₂, -, hx₂⟩ := exists_advanced (B := B) 0 hx rfl hinsert
      (hworld.symm ▸ hfresh) fun r hr => Or.inl hr
    obtain ⟨S'', hS''⟩ := exists_operated hsolo hfresh (hworld₂.trans hworld) hx₂ rfl rfl
    exact ⟨S'', (hS''.head (BusLabel.serves_advance i 0) hs₂ hserved₂).head
      (BusLabel.serves_advance i 0) hs hserved⟩

/-- One attempt: the parcel is acknowledged, dead-lettered or left for another attempt. -/
theorem exists_attempted (init : W → Prop) {rank : Queue → Message → ℕ} (ho : Orderly N S)
    (hranked : N.Ranked rank S.world) (hi : S.parcels i = some x) (hc : x.call = none) :
    ∃ S', (N.system init).Leads (BusLabel.Serves i) S S' ∧
      Served N (fun q m => rank q m < rank x.queue x.message) i S S' ∧
      (S'.parcels i = none ∨ x.retryCount < N.maxRetries ∧
        S'.parcels i = some { x with retryCount := x.retryCount + 1, call := none }) := by
  obtain ⟨event, draw, op, hevent, hop, hsolo⟩ := hranked.handled _ _ (ho.posted i x hi)
  have hreceive := Wiring.step_receive (N := N) hi hc hevent hop
  obtain ⟨S₁, hlead, hserved, c, hx, hover⟩ := exists_processed init hsolo ho.fresh
    (S := S.setParcel i (some { x with call := some (.process x.message.eventType event op) }))
    (Function.update_self ..) rfl
  have hserved : Served N _ i S S₁ := Served.trans (.set rfl fun r hr => Or.inl hr) hserved
  have hlead : (N.system init).Leads (BusLabel.Serves i) S S₁ :=
    .head (a := .receive i draw) rfl hreceive hlead
  have settled {o : Option (Parcel W)} (dead : List (Queue × Message))
      (hs : N.step S₁ (.settle i) = some (({ S₁ with dead } : Bus W π).setParcel i o)) :
      ∃ S', (N.system init).Leads (BusLabel.Serves i) S S' ∧
        Served N (fun q m => rank q m < rank x.queue x.message) i S S' ∧ S'.parcels i = o :=
    ⟨_, hlead.trans (.one (a := .settle i) rfl hs), hserved.trans (.set rfl fun r hr => Or.inl hr),
      Function.update_self ..⟩
  rcases hover with ⟨result, hpc⟩ | ⟨e, hpc⟩
  · obtain ⟨S', hl, hsv, hnone⟩ := settled S₁.dead (Wiring.step_acked hx rfl hpc)
    exact ⟨S', hl, hsv, Or.inl hnone⟩
  · have hs := Wiring.step_thrown (N := N) hx rfl hpc
    by_cases hlt : x.retryCount < N.maxRetries
    · rw [if_pos hlt] at hs
      obtain ⟨S', hl, hsv, hagain⟩ := settled S₁.dead hs
      exact ⟨S', hl, hsv, Or.inr ⟨hlt, hagain⟩⟩
    · rw [if_neg hlt] at hs
      obtain ⟨S', hl, hsv, hnone⟩ := settled _ hs
      exact ⟨S', hl, hsv, Or.inl hnone⟩

/-- A parcel is delivered: its call returns, or it is retried until it is dead-lettered. -/
theorem exists_delivered (hN : N.Sound) {rank : Queue → Message → ℕ}
    (hranked : ∀ ts S, (N.system init).Run ts S → N.Ranked rank S.world) (k : ℕ)
    {ts : List (Move (Bus W π) (BusLabel π η))} (hrun : (N.system init).Run ts S)
    (hi : S.parcels i = some x) (hc : x.call = none) (hk : N.maxRetries - x.retryCount = k) :
    ∃ S', (N.system init).Leads (BusLabel.Serves i) S S' ∧
      Served N (fun q m => rank q m < rank x.queue x.message) i S S' ∧ S'.parcels i = none := by
  induction k generalizing ts S x with
  | zero =>
    obtain ⟨S', hlead, hserved, hnone | ⟨hlt, -⟩⟩ := exists_attempted init
      (orderly_of_run hN hrun) (hranked ts S hrun) hi hc
    · exact ⟨S', hlead, hserved, hnone⟩
    · omega
  | succ k ih =>
    obtain ⟨S', hlead, hserved, hnone | ⟨hlt, hagain⟩⟩ := exists_attempted init
      (orderly_of_run hN hrun) (hranked ts S hrun) hi hc
    · exact ⟨S', hlead, hserved, hnone⟩
    · obtain ⟨ts', hrun'⟩ := hrun.leads hlead
      obtain ⟨S'', hlead', hserved', hnone⟩ := ih hrun' hagain rfl (by simp only; omega)
      exact ⟨S'', hlead.trans hlead', hserved.trans hserved', hnone⟩

/-- Whatever its consumer was doing with it, a parcel can be delivered. -/
theorem exists_served (hN : N.Sound) {rank : Queue → Message → ℕ}
    (hranked : ∀ ts S, (N.system init).Run ts S → N.Ranked rank S.world)
    {ts : List (Move (Bus W π) (BusLabel π η))} (hrun : (N.system init).Run ts S)
    (hi : S.parcels i = some x) :
    ∃ S', (N.system init).Leads (BusLabel.Serves i) S S' ∧
      Served N (fun q m => rank q m < rank x.queue x.message) i S S' ∧ S'.parcels i = none := by
  cases hc : x.call with
  | none => exact exists_delivered hN hranked _ hrun hi hc rfl
  | some c =>
    -- the ids its handler drew may be gone by now, so it starts again
    have hcrash : (N.system init).step S (.crash i) =
      some (S.setParcel i (some { x with call := none })) :=
      Wiring.step_crash (N := N) hi hc
    obtain ⟨S', hlead, hserved, hnone⟩ := exists_delivered hN hranked _ (hrun.snoc hcrash)
      (Function.update_self ..) rfl rfl
    exact ⟨S', .head (a := .crash i) rfl hcrash hlead,
      Served.trans (.set rfl fun r hr => Or.inl hr) hserved, hnone⟩

/-- Past some number there are no parcels. -/
theorem exists_bound {ts : List (Move (Bus W π) (BusLabel π η))}
    (hrun : (N.system init).Run ts S) : ∃ n, ∀ i, n ≤ i → S.parcels i = none := by
  induction hrun with
  | nil hinit => exact ⟨0, fun i _ => hinit.2.2.1 i⟩
  | @snoc ts S S' a hrun hs ih =>
    obtain ⟨n, hn⟩ := ih
    refine ⟨max n (a.parcels.sum + 1), fun i hi => ?_⟩
    have hnot : i ∉ a.parcels := fun hmem => by
      have := List.le_sum_of_mem hmem
      omega
    rw [(Wiring.happens_of_step hs).parcels_eq hnot]
    exact hn i (le_of_max_le_left hi)

/-- What is on its way can be delivered. -/
theorem exists_emptied (hN : N.Sound) {rank : Queue → Message → ℕ}
    (hranked : ∀ ts S, (N.system init).Run ts S → N.Ranked rank S.world) (n : ℕ)
    {ts : List (Move (Bus W π) (BusLabel π η))} (hrun : (N.system init).Run ts S)
    (hn : ∀ i, n ≤ i → S.parcels i = none) :
    ∃ S', (N.system init).Leads BusLabel.Internal S S' ∧ ∀ i, S'.parcels i = none := by
  induction n generalizing ts S with
  | zero => exact ⟨S, .refl S, fun i => hn i (Nat.zero_le i)⟩
  | succ n ih =>
    cases hx : S.parcels n with
    | none =>
      refine ih hrun fun i hi => ?_
      rcases Nat.lt_or_eq_of_le hi with hlt | rfl
      · exact hn i hlt
      · exact hx
    | some x =>
      obtain ⟨S₁, hlead, hserved, hnone⟩ := exists_served hN hranked hrun hx
      obtain ⟨ts', hrun'⟩ := hrun.leads hlead
      obtain ⟨S', hlead', hempty⟩ := ih hrun' fun i hi => by
        rcases Nat.lt_or_eq_of_le hi with hlt | rfl
        · rw [hserved.parcels i (by omega)]
          exact hn i hlt
        · exact hnone
      exact ⟨S', (hlead.mono fun _ => BusLabel.Serves.internal).trans hlead', hempty⟩

/-- The rows that wait for the relay. -/
def pending (N : Wiring W π η) (S : Bus W π) : Finset OutboxRow :=
  ((N.outbox S.world).filter fun r => r.status = .pending).toFinset

theorem mem_pending {r : OutboxRow} :
    r ∈ pending N S ↔ r ∈ N.outbox S.world ∧ r.status = .pending := by
  simp [pending]

/-- How far the pending rows are from their last consequence. -/
def backlog (N : Wiring W π η) (rank : Queue → Message → ℕ) (S : Bus W π) : Multiset ℕ :=
  (pending N S).val.map fun r => rank r.targetQueue r.message

theorem val_inter_add_sdiff {α : Type} [DecidableEq α] (s t : Finset α) :
    (s ∩ t).val + (s \ t).val = s.val := by
  rw [← Finset.filter_mem_eq_inter, ← Finset.filter_notMem_eq_sdiff, Finset.filter_val,
    Finset.filter_val]
  exact Multiset.filter_add_not ..

/-- One row published and delivered makes the backlog smaller, though new rows come. -/
theorem backlog_lt {rank : Queue → Message → ℕ} {r : OutboxRow} (hr : r ∈ pending N S)
    (hdone : r ∉ pending N S') (hnew : ∀ r' ∈ pending N S', r' ∈ pending N S ∨
      rank r'.targetQueue r'.message < rank r.targetQueue r.message) :
    (backlog N rank S').IsDershowitzMannaLT (backlog N rank S) := by
  have hgone : r ∈ pending N S \ pending N S' := Finset.mem_sdiff.2 ⟨hr, hdone⟩
  refine ⟨(pending N S ∩ pending N S').val.map fun r => rank r.targetQueue r.message,
    (pending N S' \ pending N S).val.map fun r => rank r.targetQueue r.message,
    (pending N S \ pending N S').val.map fun r => rank r.targetQueue r.message, ?_, ?_, ?_,
    fun y hy => ?_⟩
  · rw [Multiset.empty_eq_zero, Ne, Multiset.map_eq_zero, Finset.val_eq_zero]
    exact Finset.ne_empty_of_mem hgone
  · rw [← Multiset.map_add, Finset.inter_comm, val_inter_add_sdiff]
    rfl
  · rw [← Multiset.map_add, val_inter_add_sdiff]
    rfl
  · obtain ⟨r', hr', rfl⟩ := Multiset.mem_map.1 hy
    obtain ⟨hpending, hnot⟩ := Finset.mem_sdiff.1 (Finset.mem_val ▸ hr')
    exact ⟨_, Multiset.mem_map_of_mem _ hgone, (hnew r' hpending).resolve_left hnot⟩

/-- A row that is pending can be published and delivered. -/
theorem exists_relayed (hN : N.Sound) (hmarks : N.Marks) {rank : Queue → Message → ℕ}
    (hranked : ∀ ts S, (N.system init).Run ts S → N.Ranked rank S.world)
    {ts : List (Move (Bus W π) (BusLabel π η))} (hrun : (N.system init).Run ts S)
    (hempty : ∀ i, S.parcels i = none) {r : OutboxRow} (hr : r ∈ pending N S) :
    ∃ S', (N.system init).Leads BusLabel.Internal S S' ∧ (∀ i, S'.parcels i = none) ∧
      (backlog N rank S').IsDershowitzMannaLT (backlog N rank S) := by
  obtain ⟨hmem, hp⟩ := mem_pending.1 hr
  have ho := orderly_of_run hN hrun
  set S₁ : Bus W π := ({ S with sent := r.id :: S.sent } : Bus W π).setParcel 0
    (some ⟨r.targetQueue, r.message, 0, none⟩) with hS₁
  have hpublish : (N.system init).step S (.publish r.id 0) = some S₁ :=
    Wiring.step_publish hN ho.fresh hmem hp (hempty 0)
  have hconfirm : (N.system init).step S₁ (.confirm r.id 0) =
      some { S₁ with world := N.markPublished r.id 0 S₁.world } :=
    if_pos List.mem_cons_self
  have hrun₂ := (hrun.snoc hpublish).snoc hconfirm
  obtain ⟨S', hlead, hserved, hnone⟩ := exists_served hN hranked hrun₂
    (i := 0) (x := ⟨r.targetQueue, r.message, 0, none⟩) (by simp [hS₁, setParcel])
  refine ⟨S', ?_, fun i => ?_, backlog_lt hr (fun hr' => ?_) fun r' hr' => ?_⟩
  · exact .head (a := .publish r.id 0) trivial hpublish
      (.head (a := .confirm r.id 0) trivial hconfirm
        (hlead.mono fun _ => BusLabel.Serves.internal))
  · by_cases hi : i = 0
    · rw [hi, hnone]
    · rw [hserved.parcels i hi]
      simpa [hS₁, setParcel, hi] using hempty i
  · obtain ⟨hr', hp'⟩ := mem_pending.1 hr'
    rcases hserved.rows r hr' with hold | hlt
    · exact (hmarks r.id 0 S.world r hold hp').2 rfl
    · exact absurd hlt (lt_irrefl _)
  · obtain ⟨hr', hp'⟩ := mem_pending.1 hr'
    refine (hserved.rows r' hr').imp_left fun hold => ?_
    exact mem_pending.2 ⟨(hmarks r.id 0 S.world r' hold hp').1, hp'⟩

/-- From every state that a bus can get into, it can come to rest without any new request. -/
theorem exists_rest (hN : N.Sound) (hmarks : N.Marks) {rank : Queue → Message → ℕ}
    (hranked : ∀ ts S, (N.system init).Run ts S → N.Ranked rank S.world)
    {ts : List (Move (Bus W π) (BusLabel π η))} (hrun : (N.system init).Run ts S) :
    ∃ S', (N.system init).Leads BusLabel.Internal S S' ∧ S'.AtRest N := by
  -- the messages on their way first, then row by row
  have drained (b : Multiset ℕ) : ∀ ts S, (N.system init).Run ts S →
      (∀ i, S.parcels i = none) → backlog N rank S = b →
      ∃ S', (N.system init).Leads BusLabel.Internal S S' ∧ S'.AtRest N := by
    have hwf : WellFounded (Multiset.IsDershowitzMannaLT : Multiset ℕ → Multiset ℕ → Prop) :=
      Multiset.wellFounded_isDershowitzMannaLT
    induction b using hwf.induction with
    | _ b ih =>
      rintro ts S hrun hempty rfl
      rcases (pending N S).eq_empty_or_nonempty with hnone | ⟨r, hr⟩
      · refine ⟨S, .refl S, fun i x hi => ?_, fun r hr _ hp => ?_⟩
        · rw [hempty i] at hi
          cases hi
        · exact Finset.notMem_empty r (hnone ▸ mem_pending.2 ⟨hr, hp⟩)
      · obtain ⟨S₁, hlead, hempty₁, hlt⟩ := exists_relayed hN hmarks hranked hrun hempty hr
        obtain ⟨ts', hrun₁⟩ := hrun.leads hlead
        obtain ⟨S', hlead', hrest⟩ := ih _ hlt _ S₁ hrun₁ hempty₁ rfl
        exact ⟨S', hlead.trans hlead', hrest⟩
  obtain ⟨n, hn⟩ := exists_bound hrun
  obtain ⟨S₁, hlead, hempty⟩ := exists_emptied hN hranked n hrun hn
  obtain ⟨ts', hrun₁⟩ := hrun.leads hlead
  obtain ⟨S', hlead', hrest⟩ := drained _ _ S₁ hrun₁ hempty rfl
  exact ⟨S', hlead.trans hlead', hrest⟩

end Bus

end RouteFast
