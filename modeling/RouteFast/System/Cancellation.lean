import RouteFast.System.Assignment

/-! Cancelled orders and the drivers held for them. The cancel endpoint tells Dispatch
nothing, so a dispatch may end up with a driver for an order that is no longer there. -/

namespace RouteFast

open Transition Pool ReadCommitted

namespace Databases

def dispatchStatus (w : Databases) (orderId : Uuid) : Option DispatchStatus :=
  (w.dispatch.findByOrderId orderId).map Dispatch.status

/-- A dispatch that has reported its cancellation is cancelled. -/
def Confirmed (w : Databases) : Prop :=
  ∀ m, (Queue.orderEvents, m) ∈ w.posts → m.eventType = .dispatchCancelled →
    ∃ d, w.dispatch.row d.id = some d ∧ m.About d ∧ d.status = .cancelled

end Databases

section Steps

variable {settings : Settings} {R : Request → Prop} {P : Queue → Message → Prop}
  {w w' : Databases} {orderId : Uuid}

/-- Of the handlers, only that of `dispatch.cancelled` cancels an order that is not CANCELLED. -/
theorem Message.Asks.cancelled {m : Message} {p : OrderRequest} {status : OrderStatus}
    {driver : Option Uuid} (h : m.Asks p) (hty : m.eventType ≠ .dispatchCancelled)
    (htarget : p.command.target status driver = some .cancelled) : status = .cancelled := by
  obtain ⟨-, hcmd⟩ := h
  split at hcmd
  · rw [hcmd] at htarget
    simp only [OrderCommand.target, Option.some.injEq] at htarget
    split at htarget
    · cases htarget
    · exact htarget
  · obtain ⟨driverId, -, hcmd⟩ := hcmd
    rw [hcmd] at htarget
    simp only [OrderCommand.target] at htarget
    split at htarget <;> cases htarget
  · obtain ⟨reason, -, hcmd⟩ := hcmd
    rw [hcmd] at htarget
    simp only [OrderCommand.target, Option.some.injEq] at htarget
    split at htarget
    · cases htarget
    · exact htarget
  · next hcancelled => exact absurd hcancelled hty
  · exact hcmd.elim

theorem Coherent.dispatchStatus_of_row (h : Coherent w) {d : Dispatch}
    (hd : w.dispatch.row d.id = some d) : w.dispatchStatus d.orderId = some d.status := by
  rw [Databases.dispatchStatus, DispatchDb.findByOrderId,
    Table.find_of_mem h.orders (Table.mem_of_find hd)]
  rfl

/-- A dispatch becomes ASSIGNED by a report of a reservation, while it is searching. -/
theorem Advance.dispatchStatus (hadv : Advance settings R P w w') (h : Coherent w)
    (h' : Coherent w') (hP : ∀ q m, P q m → (q, m) ∈ w.posts)
    (hs : w'.dispatchStatus orderId = some .assigned) :
    w.dispatchStatus orderId = some .assigned ∨
    (w'.order = w.order ∧ w.dispatchStatus orderId = some .searchingDriver ∧
      ∃ m, P .dispatchEvents m ∧ m.eventType = .driverReserved ∧
        m.string .orderId = some orderId) := by
  obtain ⟨e, he, hes⟩ := Option.map_eq_some_iff.1 hs
  obtain rfl : e.orderId = orderId := Table.key_of_find he
  have hrow' : w'.dispatch.row e.id = some e := Table.find_of_mem h'.ids (Table.mem_of_find he)
  have hold (hrow : w.dispatch.row e.id = some e) :
      w.dispatchStatus e.orderId = some .assigned := by
    rw [h.dispatchStatus_of_row hrow, hes]
  cases hadv with
  | idle | saved | created | createdDriver | reserved | released => exact Or.inl (hold hrow')
  | started m d plan decisionId startedId requestedId now _ _ _ hsearch =>
    have hcase := (Table.find_append_singleton (c := Dispatch.id)).symm.trans hrow'
    rcases Option.or_eq_some_iff.1 hcase with hrow | ⟨-, hnew⟩
    · exact Or.inl (hold hrow)
    · split at hnew
      · obtain rfl := Option.some.inj hnew
        rw [hsearch] at hes
        cases hes
      · cases hnew
  | operated op d o hop hd ho =>
    have hid : d.id = op.dispatchId := Table.key_of_find hd
    cases DispatchOp.step_of_outcome ho with
    | late | idle => exact Or.inl (hold hrow')
    | @move d' _ hm =>
      have hid' : d'.id = d.id := by cases hm <;> rfl
      have horder : d'.orderId = d.orderId := by cases hm <;> rfl
      have hcase := (Table.find_save (c := Dispatch.id)).symm.trans hrow'
      split at hcase
      swap
      · exact Or.inl (hold hcase)
      obtain rfl := Option.some.inj hcase
      have hnone : d.status = .searchingDriver := by
        cases hm with
        | assign _ _ _ _ hsearch => exact hsearch
        | fail | compensate | cancel => cases hes
      have hhas := h.driver _ d hd
      obtain ⟨driverId, hdd⟩ := Option.ne_none_iff_exists'.1
        ((h'.driver _ d' hrow').1 (by rw [hes]; rfl))
      have hn := DispatchOp.names_of_assigned ho hnone
        (by simpa [hnone, DispatchStatus.hasDriver] using hhas) hdd
      obtain ⟨m, r, hpm, hreserved, hmd, -⟩ := h.named hP hop hd hn
      refine Or.inr ⟨rfl, ?_, m, hpm, hreserved, horder ▸ hmd.2⟩
      rw [horder, h.dispatchStatus_of_row (hid ▸ hd), hnone]

/-- `dispatch.cancelled` is enqueued with the row that says so. -/
theorem Advance.confirmed (hadv : Advance settings R P w w') (hlinked : w.driver.Linked)
    (h : w.Confirmed) : w'.Confirmed := by
  -- a dispatch that was cancelled still is
  have hkeep {m : Message} (hm : (Queue.orderEvents, m) ∈ w.posts)
      (hty : m.eventType = .dispatchCancelled) :
      ∃ d, w'.dispatch.row d.id = some d ∧ m.About d ∧ d.status = .cancelled := by
    obtain ⟨d, hd, hmd, hs⟩ := h m hm hty
    obtain ⟨d', hd', hid, horder, -, hend⟩ := hadv.row hd
    exact ⟨d', hd', ⟨hid ▸ hmd.1, horder ▸ hmd.2⟩, hend hs⟩
  suffices hnew : ∀ q m, (q, m) ∈ w'.posts → (q, m) ∈ w.posts ∨ (q = .orderEvents →
      m.eventType = .dispatchCancelled → ∃ d, w'.dispatch.row d.id = some d ∧ m.About d ∧
        d.status = .cancelled) by
    intro m hm hty
    rcases hnew _ m hm with hm | hm
    · exact hkeep hm hty
    · exact hm rfl hty
  cases hadv with
  | idle | saved => exact fun q m hm => Or.inl hm
  | created order c key eventId now result db hs hrun =>
    refine Databases.posts_of_rows (fun r hr => ?_) (fun r hr => Or.inl hr) fun r hr => Or.inl hr
    refine (posted_of_created hrun r hr).imp_right fun hnew hq => ?_
    rw [hnew.1] at hq
    cases hq
  | started m d plan decisionId startedId requestedId now =>
    refine Databases.posts_of_rows (fun r hr => Or.inl hr) (fun r hr => ?_) fun r hr => Or.inl hr
    rcases List.mem_append.1 hr with hr | hr
    · exact Or.inl hr
    · rcases List.mem_pair.1 hr with rfl | rfl
      · exact Or.inr fun _ => nofun
      · exact Or.inr nofun
  | operated op d o _ hd ho =>
    refine Databases.posts_of_rows (fun r hr => Or.inl hr) (fun r hr => ?_) fun r hr => Or.inl hr
    refine (List.mem_append.1 hr).imp_right fun hr hq hty => ?_
    cases DispatchOp.step_of_outcome ho with
    | idle => cases hr
    | late =>
      obtain rfl := List.mem_singleton.1 hr
      cases hq
    | move hm =>
      obtain rfl := List.mem_singleton.1 hr
      cases hm with
      | assign | fail => cases hty
      | compensate => cases hq
      | cancel c eventId now =>
        exact ⟨_, Table.find_save_self (c := Dispatch.id),
          ⟨OutboxRow.string_message (string_dispatchEvent _ _ _ _ _ _ rfl),
            OutboxRow.string_message (string_dispatchEvent _ _ _ _ _ _ rfl)⟩, rfl⟩
  | createdDriver id displayName capacity now db hrun =>
    obtain ⟨d, -, -, rfl⟩ := created_of_run hrun
    exact fun q m hm => Or.inl hm
  | reserved m input reservationId eventId now locked db _ _ _ hrun =>
    refine Databases.posts_of_rows (fun r hr => Or.inl hr) (fun r hr => Or.inl hr) fun r hr => ?_
    refine ((reserved_of_run hlinked hrun).queue r hr).imp_right fun hnew hq => ?_
    rw [hnew] at hq
    cases hq
  | released m input eventId now locked db _ _ _ hrun =>
    refine Databases.posts_of_rows (fun r hr => Or.inl hr) (fun r hr => Or.inl hr) fun r hr => ?_
    refine ((released_of_commit hlinked hrun).queue r hr).imp_right fun hnew hq => ?_
    rw [hnew] at hq
    cases hq

end Steps

section Runs

variable {settings : Settings} {ts : List FleetMove} {S S' : Fleet} {a : FleetLabel}

end Runs

section Samples

/-- No dispatch is ASSIGNED, and none is searching once an order is cancelled. -/
def quiet (S : Fleet) : Bool :=
  S.world.dispatch.dispatches.all (fun d => d.status ≠ .assigned) &&
    (S.world.order.orders.all (fun r => r.status ≠ .cancelled) ||
      S.world.dispatch.dispatches.all fun d => d.status ≠ .searchingDriver)

end Samples

end RouteFast
