import RouteFast.Order.Store

/-! Any number of lifecycle use cases over one `orders` table, their reads and writes
interleaved. The aggregate's guards are evaluated on the row read; the law is about the
row stored when the save comes. -/

namespace RouteFast

open Transition

namespace OrderRow

/-- A row that `beginDispatch` and `dispatchFailed` move, in one direction or the other. -/
def Open (r : OrderRow) : Prop := r.status = .pendingDispatch ∨ r.status = .dispatching

instance (r : OrderRow) : Decidable r.Open := inferInstanceAs (Decidable (_ ∨ _))

end OrderRow

namespace OrderRequest

/-- How the row stored at the save may differ from the row read, for the use case to be
still what it took itself to be. -/
def Current (p : OrderRequest) (read stored : OrderRow) : Prop :=
  match p.command with
  -- the second disjunct is the same cancel, already stored by another execution
  | .cancelOrder => stored.status = .pendingDispatch ∨
      stored = { read with status := .cancelled, updatedAt := p.now,
                           idempotencyKey := stored.idempotencyKey }
  | .markOrderDispatching | .markDispatchFailed _ =>
    stored.status = read.status ∨ (stored.Open ∧ read.Open)
  | .assignOrderDriver driverId => stored.status = .dispatching ∨
      (stored.status = .assigned ∧ stored.assignedDriverId = some driverId)
  | .completeDispatchCancellation =>
    stored.status = .assigned ∨ stored.status = .dispatching ∨ stored.status = .cancelled

instance (p : OrderRequest) (read stored : OrderRow) : Decidable (p.Current read stored) := by
  unfold Current
  split <;> infer_instance

/-- Away from `cancel`, only the statuses read and stored matter. -/
theorem target_iff_current {p : OrderRequest} {read stored : OrderRow} {status : OrderStatus}
    (hcmd : p.command ≠ .cancelOrder)
    (hread : p.command.target read.status read.assignedDriverId = some status) :
    p.command.target stored.status stored.assignedDriverId = some status ↔
      p.Current read stored := by
  obtain ⟨orderId, command, now⟩ := p
  cases command with
  | cancelOrder => exact absurd rfl hcmd
  | markOrderDispatching | markDispatchFailed =>
    simp only [OrderCommand.target, Option.some.injEq] at hread
    simp only [OrderCommand.target, Option.some.injEq, Current, OrderRow.Open]
    grind
  | assignOrderDriver | completeDispatchCancellation =>
    simp only [OrderCommand.target] at hread
    simp only [OrderCommand.target, Current]
    grind

/-- A save that leaves the stored row as it is, or moves it as the method would have. -/
theorem legal_iff_current {p : OrderRequest} {read stored : OrderRow} {order : Order}
    (happly : p.command.apply p.now (OrderMapper.toDomain read) = .ok order) :
    ((OrderMapper.toPersistence order).over (some stored) = stored ∨
      p.command.target stored.status stored.assignedDriverId = some order.status) ↔
      p.Current read stored := by
  by_cases hcmd : p.command = .cancelOrder
  · obtain ⟨orderId, command, now⟩ := p
    obtain rfl : command = .cancelOrder := hcmd
    simp only [OrderCommand.apply, Order.cancel] at happly
    split at happly
    · cases happly
    obtain rfl := Except.ok.inj happly
    simp only [OrderMapper.toPersistence, OrderMapper.toDomain, OrderOrmEntity.over,
      OrderCommand.target, Current]
    grind
  · have hread := OrderCommand.status_of_apply happly
    rw [← target_iff_current hcmd hread, or_iff_right_iff_imp]
    intro hsame
    have hagain := OrderCommand.target_again happly hcmd
    have hstatus : order.status = stored.status := congrArg OrderRow.status hsame
    have hdriver : order.assignedDriverId = stored.assignedDriverId :=
      congrArg OrderRow.assignedDriverId hsame
    rwa [← hstatus, ← hdriver]

end OrderRequest

abbrev OrderPool := Pool OrderDb ServiceError (Option OrderView) OrderRequest

abbrev OrderMove := Move OrderPool (PoolLabel OrderRequest)

namespace OrderPool

def system : System OrderPool (PoolLabel OrderRequest) :=
  Pool.system (fun _ => True) OrderRequest.execute

/-- What is left of a use case: all of it, nothing, or its save. -/
theorem residual_cases {p : OrderRequest} {seen : Option OrderDb}
    {rest : Proc OrderDb ServiceError (Option OrderView)}
    (h : Pool.Residual OrderRequest.execute p seen rest) :
    (seen = none ∧ rest = p.execute) ∨ rest.finished = true ∨
    ∃ db read order, seen = some db ∧ db.row p.orderId = some read ∧
      p.command.apply p.now (OrderMapper.toDomain read) = .ok order ∧
      rest = .write (fun db => db.save order) (.done (p.reply order)) := by
  generalize hrest : rest = rest' at h
  induction h generalizing rest with
  | start => subst hrest; exact Or.inl ⟨rfl, rfl⟩
  | @next seen effect k db h ih =>
    subst hrest
    right
    rcases ih rfl with ⟨-, hrest⟩ | hfin | ⟨-, -, order, -, -, -, hrest⟩
    · -- the read: what follows depends on the row found
      rw [OrderRequest.execute_eq] at hrest
      obtain ⟨-, rfl⟩ := Proc.step.inj hrest
      cases hrow : db.row p.orderId with
      | none => exact Or.inl (by simpa [OrderDb.findById, hrow] using p.finished_missing)
      | some read =>
        cases happly : p.command.apply p.now (OrderMapper.toDomain read) with
        | error e => exact Or.inl (by simp [OrderDb.findById, hrow, happly, Proc.finished])
        | ok order =>
          exact Or.inr ⟨db, read, order, rfl, hrow, happly, by
            simp [OrderDb.findById, hrow, happly]⟩
    · cases hfin
    · obtain ⟨-, rfl⟩ := Proc.step.inj hrest
      exact Or.inl rfl

/-- A statement of a use case: its read, which changes nothing, or its save. -/
theorem residual_step {p : OrderRequest} {seen : Option OrderDb} {effect : OrderDb → OrderDb}
    {next : OrderDb → Proc OrderDb ServiceError (Option OrderView)}
    (h : Pool.Residual OrderRequest.execute p seen (.step effect next)) :
    (seen = none ∧ effect = id) ∨
    ∃ db read order, seen = some db ∧ db.row p.orderId = some read ∧
      p.command.apply p.now (OrderMapper.toDomain read) = .ok order ∧
      effect = fun db => db.save order := by
  rcases residual_cases h with ⟨hseen, hrest⟩ | hfin | ⟨db, read, order, hseen, hrow, happly, hrest⟩
  · rw [OrderRequest.execute_eq] at hrest
    exact Or.inl ⟨hseen, (Proc.step.inj hrest).1⟩
  · cases hfin
  · exact Or.inr ⟨db, read, order, hseen, hrow, happly, (Proc.step.inj hrest).1⟩

/-- The change this step makes to a stored order, if any, is one that the method of the
use case making it allows from the status stored immediately before. -/
def LegalEdge (t : OrderMove) : Prop :=
  ∀ orderId stored, t.pre.shared.row orderId = some stored →
    ∃ row, t.post.shared.row orderId = some row ∧
      (row = stored ∨ ∃ i x, t.label = .advance i ∧ t.pre.threads i = some x ∧
        x.request.orderId = orderId ∧
        x.request.command.target stored.status stored.assignedDriverId = some row.status)

/-- If the step is a save, the row it meets is `Current` for the row it read. -/
def CurrentSave (t : OrderMove) : Prop :=
  ∀ i p rest seen read stored, t.label = .advance i →
    t.pre.threads i = some ⟨p, rest, some seen⟩ → seen.row p.orderId = some read →
    t.pre.shared.row p.orderId = some stored → p.Current read stored

/-- `CurrentSave`, computed from the thread that takes the step. -/
def currentSave (t : OrderMove) : Bool :=
  match t.label with
  | .spawn .. => true
  | .advance i =>
    match t.pre.threads i with
    | some ⟨p, _, some seen⟩ =>
      match seen.row p.orderId, t.pre.shared.row p.orderId with
      | some read, some stored => decide (p.Current read stored)
      | _, _ => true
    | _ => true

theorem currentSave_of_computed {t : OrderMove} (h : currentSave t = true) : CurrentSave t := by
  intro i p rest seen read stored hl hi hread hstored
  simpa [currentSave, hl, hi, hread, hstored] using h

/-- Once an order is stored as CANCELLED it is stored so from then on. -/
def CancelledForGood (ts : List OrderMove) : Prop :=
  ∀ l t r, ts = l ++ t :: r → ∀ orderId row, t.post.shared.row orderId = some row →
    row.status = .cancelled → ∀ u ∈ t :: r, ∃ row', u.post.shared.row orderId = some row' ∧
      row'.status = .cancelled

/-- A save meets the row it read, or leaves what the stored row's own transition would. -/
theorem legalEdge_iff {ts : List OrderMove} {P P' : OrderPool} {a : PoolLabel OrderRequest}
    (hrun : system.Run ts P) (hs : system.step P a = some P') :
    LegalEdge ⟨P, a, P'⟩ ↔ CurrentSave ⟨P, a, P'⟩ := by
  have hres := Pool.run_residual hrun
  rcases Pool.step_cases hs with ⟨i, p, rfl, -, rfl⟩ | ⟨i, p, effect, next, seen, rfl, hi, rfl⟩
  · constructor
    · intro _ j q rest seen read stored hj
      cases hj
    · intro _ orderId stored hstored
      exact ⟨stored, hstored, Or.inl rfl⟩
  · rcases residual_step (hres i _ hi) with ⟨rfl, rfl⟩ | ⟨db, read, order, rfl, hrow, happly, rfl⟩
    · constructor
      · rintro _ j q rest seen read stored ⟨⟩ hj
        simp [hi] at hj
      · intro _ orderId stored hstored
        exact ⟨stored, hstored, Or.inl rfl⟩
    · have hid : order.id = p.orderId :=
        (OrderCommand.id_of_apply happly).trans (OrderDb.id_of_row hrow)
      have hsave (orderId : Uuid) : (P.shared.save order).row orderId =
          if p.orderId = orderId then
            some ((OrderMapper.toPersistence order).over (P.shared.row p.orderId))
          else P.shared.row orderId := by
        simp [OrderDb.save, OrderDb.row_saveEntity, OrderMapper.toPersistence, hid]
      constructor
      · rintro hlegal j q rest seen read' stored ⟨⟩ hj hread' hstored
        obtain ⟨rfl, -, rfl⟩ : p = q ∧ _ = rest ∧ db = seen := by simpa [hi] using hj
        obtain rfl : read = read' := by simpa [hrow] using hread'
        obtain ⟨row, hpost, hedge⟩ := hlegal p.orderId stored hstored
        obtain rfl : (OrderMapper.toPersistence order).over (some stored) = row := by
          simpa [hsave, hstored] using hpost
        refine (OrderRequest.legal_iff_current happly).1 (hedge.imp id ?_)
        rintro ⟨k, x, hk, hx, -, htarget⟩
        obtain rfl : i = k := by simpa using hk
        obtain rfl : _ = x := by simpa [hi] using hx
        exact htarget
      · intro hcur orderId stored hstored
        by_cases horder : p.orderId = orderId
        · subst horder
          have hc := hcur i p _ db read stored rfl hi hrow hstored
          refine ⟨_, by simp [hsave, hstored], ((OrderRequest.legal_iff_current happly).2 hc).imp
            id fun htarget => ⟨i, _, rfl, hi, rfl, htarget⟩⟩
        · exact ⟨stored, by simp [hsave, horder, hstored], Or.inl rfl⟩

theorem cancelled_of_legal {ts : List OrderMove} {P : OrderPool} (hrun : system.Run ts P)
    (hlegal : ∀ t ∈ ts, LegalEdge t) {l r : List OrderMove} {t : OrderMove}
    (hts : ts = l ++ t :: r) (orderId : Uuid) {row : OrderRow}
    (hrow : t.post.shared.row orderId = some row) (hcancelled : row.status = .cancelled) :
    ∃ row', P.shared.row orderId = some row' ∧ row'.status = .cancelled := by
  let R (P P' : OrderPool) : Prop :=
    ∀ row, P.shared.row orderId = some row → row.status = .cancelled →
      ∃ row', P'.shared.row orderId = some row' ∧ row'.status = .cancelled
  refine hrun.across (C := LegalEdge) (R := R) (fun P row hr hc => ⟨row, hr, hc⟩) ?_ ?_ hlegal hts
    row hrow hcancelled
  · intro P₁ P₂ P₃ h₁ h₂ row hr hc
    obtain ⟨row', hr', hc'⟩ := h₁ row hr hc
    exact h₂ row' hr' hc'
  · intro P₁ a P₂ _ hedge row hr hc
    obtain ⟨row', hr', rfl | ⟨i, x, -, -, -, htarget⟩⟩ := hedge orderId row hr
    · exact ⟨row', hr', hc⟩
    · rw [hc] at htarget
      exact ⟨row', hr', OrderCommand.target_cancelled htarget⟩

/-- Stored orders move along legal edges only, and cancelled ones not at all, in exactly
the runs where every save meets a current row. -/
theorem legal_run_iff {ts : List OrderMove} {P : OrderPool} (hrun : system.Run ts P) :
    ((∀ t ∈ ts, LegalEdge t) ∧ CancelledForGood ts) ↔ ∀ t ∈ ts, CurrentSave t := by
  have hedges : (∀ t ∈ ts, LegalEdge t) ↔ ∀ t ∈ ts, CurrentSave t := by
    refine forall₂_congr fun t ht => ?_
    obtain ⟨l, -, hpre, hs⟩ := hrun.of_mem ht
    exact legalEdge_iff hpre hs
  refine ⟨fun h => hedges.1 h.1, fun h => ⟨hedges.2 h, ?_⟩⟩
  intro l t r hts orderId row hrow hcancelled u hu
  obtain ⟨r', hsub, hcut⟩ := hrun.cut hts hu
  exact cancelled_of_legal hcut (fun v hv => hedges.2 h v (hsub v hv)) rfl orderId hrow hcancelled

section Runs

def newOrder : OrderRow :=
  (OrderMapper.toPersistence (.sample "9b2e6d10-5f1c-4a53-8d0e-6f4c1f1f2a01")).over none

def oneOrder : OrderPool := ⟨⟨[newOrder], []⟩, fun _ => none⟩

def cancelRequest : OrderRequest := ⟨newOrder.id, .cancelOrder, 5⟩

def dispatchingRequest : OrderRequest := ⟨newOrder.id, .markOrderDispatching, 6⟩

/-- The event is handled after the cancel is stored. -/
def oneAfterTheOther : List (PoolLabel OrderRequest) :=
  [.spawn 0 cancelRequest, .advance 0, .advance 0, .spawn 1 dispatchingRequest, .advance 1,
    .advance 1]

theorem legal_oneAfterTheOther :
    (∀ t ∈ system.moves oneOrder oneAfterTheOther, LegalEdge t) ∧
      CancelledForGood (system.moves oneOrder oneAfterTheOther) := by
  refine (legal_run_iff (System.Run.of_replay ⟨trivial, fun _ => rfl⟩ rfl)).2 ?_
  exact fun t ht => currentSave_of_computed (List.all_eq_true.1 (by decide) t ht)

/-- Both read the order while it is pending; the cancel is stored first. -/
def staleSave : List (PoolLabel OrderRequest) :=
  [.spawn 0 cancelRequest, .spawn 1 dispatchingRequest, .advance 0, .advance 1, .advance 0,
    .advance 1]

/-- The event's save puts the cancelled order back to DISPATCHING. -/
theorem not_legal :
    ¬ ∀ ts P, system.Run ts P → (∀ t ∈ ts, LegalEdge t) ∧ CancelledForGood ts := by
  intro hlaw
  let ts := system.moves oneOrder staleSave
  have hrun : system.Run ts _ := .of_replay ⟨trivial, fun _ => rfl⟩ rfl
  have hlater : ts[5] ∈ ts[4] :: ts.drop 5 := List.mem_cons_of_mem _ (List.mem_singleton.2 rfl)
  obtain ⟨row, hrow, hstatus⟩ :=
    (hlaw ts _ hrun).2 (ts.take 4) ts[4] (ts.drop 5) rfl newOrder.id _ rfl rfl ts[5] hlater
  have hback : (ts[5].post.shared.row newOrder.id).map OrderRow.status = some .dispatching := rfl
  rw [hrow, Option.map_some, hstatus] at hback
  exact absurd hback (by decide)

end Runs

end OrderPool

end RouteFast
