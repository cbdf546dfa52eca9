import RouteFast.System.EventIdentity

/-! What the dispatch row of an order, its reservation row and the messages between the
two services say about each other, whatever has been delivered and whatever has not. -/

namespace RouteFast

open Transition ReadCommitted

namespace Databases

def posts (w : Databases) : List (Queue × Message) :=
  w.outbox.map fun r => (r.targetQueue, r.message)

/-- A release of the order's driver has been requested. -/
def ReleaseAsked (w : Databases) (orderId : Uuid) : Prop :=
  ∃ m, (Queue.driverEvents, m) ∈ w.posts ∧ m.eventType = .driverReleaseRequested ∧
    m.string .orderId = some orderId

/-- A reservation of a driver for the order has been reported. -/
def ReservationReported (w : Databases) (orderId : Uuid) : Prop :=
  ∃ m, (Queue.dispatchEvents, m) ∈ w.posts ∧ m.eventType = .driverReserved ∧
    m.string .orderId = some orderId

end Databases

/-- The message names the dispatch and its order. -/
def Message.About (m : Message) (d : Dispatch) : Prop :=
  m.string .dispatchId = some d.id ∧ m.string .orderId = some d.orderId

/-- The dispatch has come to an end, or is being ended. -/
def Dispatch.Ended (d : Dispatch) : Prop :=
  d.status = .failed ∨ d.status = .compensating ∨ d.status = .cancelled

structure Coherent (w : Databases) : Prop where
  linked : w.driver.Linked
  ids : (w.dispatch.dispatches.map Dispatch.id).Nodup
  orders : (w.dispatch.dispatches.map Dispatch.orderId).Nodup
  own : ∀ m, (Queue.driverEvents, m) ∈ w.posts → m.string .eventId = some m.id
  nonempty : ∀ o r, w.driver.reservation o = some r → r.driverId ≠ ""
  driver : ∀ id d, w.dispatch.row id = some d → (d.status.hasDriver ↔ d.driverId ≠ none)
  requested : ∀ q m, (q, m) ∈ w.posts → m.eventType = .driverReservationRequested →
    ∃ d, w.dispatch.row d.id = some d ∧ m.About d
  /-- A release is requested of an ended dispatch, for an order that has a reservation. -/
  release : ∀ q m, (q, m) ∈ w.posts → m.eventType = .driverReleaseRequested →
    ∃ d r, w.dispatch.row d.id = some d ∧ m.About d ∧ d.Ended ∧
      w.driver.reservation d.orderId = some r
  /-- A reservation is reported with the driver of the row. -/
  reserved : ∀ q m, (q, m) ∈ w.posts → m.eventType = .driverReserved →
    ∃ d r, w.dispatch.row d.id = some d ∧ m.About d ∧
      w.driver.reservation d.orderId = some r ∧ m.string .driverId = some r.driverId
  held : ∀ id d driverId, w.dispatch.row id = some d → d.driverId = some driverId →
    ∃ r, w.driver.reservation d.orderId = some r ∧ r.driverId = driverId
  released : ∀ o r, w.driver.reservation o = some r → r.status = .released → w.ReleaseAsked o
  reported : ∀ o r, w.driver.reservation o = some r → w.ReservationReported o
  compensated : ∀ id d, w.dispatch.row id = some d →
    d.status = .compensating ∨ d.status = .cancelled → w.ReleaseAsked d.orderId

/-- A message that neither asks the Driver service for anything nor reports a reservation. -/
def Plain (q : Queue) (m : Message) : Prop :=
  q ≠ .driverEvents ∧ m.eventType ≠ .driverReservationRequested ∧
    m.eventType ≠ .driverReleaseRequested ∧ m.eventType ≠ .driverReserved

section Steps

variable {w w' : Databases} {d d' : Dispatch}

theorem Databases.ReleaseAsked.mono (hposts : ∀ p ∈ w.posts, p ∈ w'.posts) {o : Uuid}
    (h : w.ReleaseAsked o) : w'.ReleaseAsked o := by
  obtain ⟨m, hm, hty, ho⟩ := h
  exact ⟨m, hposts _ hm, hty, ho⟩

theorem Databases.ReservationReported.mono (hposts : ∀ p ∈ w.posts, p ∈ w'.posts) {o : Uuid}
    (h : w.ReservationReported o) : w'.ReservationReported o := by
  obtain ⟨m, hm, hty, ho⟩ := h
  exact ⟨m, hposts _ hm, hty, ho⟩

/-- A request to the Driver service about the dispatch. -/
structure Requests (d : Dispatch) (ty : EventType) (q : Queue) (m : Message) : Prop where
  queue : q = .driverEvents
  type : m.eventType = ty
  about : m.About d
  own : m.string .eventId = some m.id

/-- One dispatch row changes, with the messages that announce it. -/
theorem Coherent.dispatched (h : Coherent w) (hd : w.dispatch.row d.id = some d)
    (hid : d'.id = d.id) (horder : d'.orderId = d.orderId) (hdriver : w'.driver = w.driver)
    (hids : (w'.dispatch.dispatches.map Dispatch.id).Nodup)
    (horders : (w'.dispatch.dispatches.map Dispatch.orderId).Nodup)
    (hrow : ∀ id, w'.dispatch.row id = if d.id = id then some d' else w.dispatch.row id)
    (hposts : ∀ p ∈ w.posts, p ∈ w'.posts)
    (hnew : ∀ q m, (q, m) ∈ w'.posts → (q, m) ∈ w.posts ∨ Plain q m ∨
      (Requests d' .driverReleaseRequested q m ∧ d'.Ended ∧
        ∃ r, w.driver.reservation d.orderId = some r))
    (hended : d.Ended → d'.Ended)
    (hhas : d'.status.hasDriver ↔ d'.driverId ≠ none)
    (hheld : ∀ driverId, d'.driverId = some driverId →
      ∃ r, w.driver.reservation d.orderId = some r ∧ r.driverId = driverId)
    (hcomp : d'.status = .compensating ∨ d'.status = .cancelled → w'.ReleaseAsked d.orderId) :
    Coherent w' := by
  -- a message about a stored dispatch still is
  have habout {m : Message} {e : Dispatch} (he : w.dispatch.row e.id = some e) (hm : m.About e) :
      ∃ e', w'.dispatch.row e'.id = some e' ∧ m.About e' ∧ e'.orderId = e.orderId ∧
        (e.Ended → e'.Ended) := by
    by_cases hde : d.id = e.id
    · obtain rfl : d = e := by simpa [← hde, hd] using he
      exact ⟨d', by rw [hrow, if_pos hid.symm], ⟨by rw [hid]; exact hm.1, by rw [horder]; exact hm.2⟩,
        horder, hended⟩
    · exact ⟨e, by rw [hrow, if_neg hde, he], hm, rfl, id⟩
  refine ⟨hdriver ▸ h.linked, hids, horders, fun m hm => ?_, by rw [hdriver]; exact h.nonempty,
    fun id e he => ?_, fun q m hm hty => ?_, fun q m hm hty => ?_, fun q m hm hty => ?_,
    fun id e driverId he hed => ?_, fun o r hr hs => ?_, fun o r hr => ?_, fun id e he hs => ?_⟩
  · rcases hnew _ m hm with hm | hm | ⟨hm, -⟩
    · exact h.own m hm
    · exact absurd rfl hm.1
    · exact hm.own
  · rw [hrow] at he
    split at he
    · obtain rfl := Option.some.inj he
      exact hhas
    · exact h.driver id e he
  · rcases hnew q m hm with hm | hm | ⟨hm, -⟩
    · obtain ⟨e, he, hme⟩ := h.requested q m hm hty
      obtain ⟨e', he', hme', -, -⟩ := habout he hme
      exact ⟨e', he', hme'⟩
    · exact absurd hty hm.2.1
    · rw [hm.type] at hty
      cases hty
  · rw [hdriver]
    rcases hnew q m hm with hm | hm | ⟨hm, hend, r, hr⟩
    · obtain ⟨e, r, he, hme, hee, hr⟩ := h.release q m hm hty
      obtain ⟨e', he', hme', ho, hend⟩ := habout he hme
      exact ⟨e', r, he', hme', hend hee, by rwa [ho]⟩
    · exact absurd hty hm.2.2.1
    · exact ⟨d', r, by rw [hrow, if_pos hid.symm], hm.about, hend, by rwa [horder]⟩
  · rw [hdriver]
    rcases hnew q m hm with hm | hm | ⟨hm, -⟩
    · obtain ⟨e, r, he, hme, hr, hmr⟩ := h.reserved q m hm hty
      obtain ⟨e', he', hme', ho, -⟩ := habout he hme
      exact ⟨e', r, he', hme', by rwa [ho], hmr⟩
    · exact absurd hty hm.2.2.2
    · rw [hm.type] at hty
      cases hty
  · rw [hdriver]
    rw [hrow] at he
    split at he
    · obtain rfl := Option.some.inj he
      rw [horder]
      exact hheld driverId hed
    · exact h.held id e driverId he hed
  · exact (h.released o r (hdriver ▸ hr) hs).mono hposts
  · exact (h.reported o r (hdriver ▸ hr)).mono hposts
  · rw [hrow] at he
    split at he
    · obtain rfl := Option.some.inj he
      rw [horder]
      exact hcomp hs
    · exact (h.compensated id e he hs).mono hposts

/-- The Driver service changes its rows, or an outbox grows by plain messages. -/
theorem Coherent.driven (h : Coherent w) (hlinked : w'.driver.Linked)
    (hdispatch : w'.dispatch.dispatches = w.dispatch.dispatches)
    (hposts : ∀ p ∈ w.posts, p ∈ w'.posts)
    (hkept : ∀ o r, w.driver.reservation o = some r →
      ∃ r', w'.driver.reservation o = some r' ∧ r'.driverId = r.driverId)
    (hres : ∀ o r', w'.driver.reservation o = some r' →
      (∃ r, w.driver.reservation o = some r ∧ r.driverId = r'.driverId ∧
        (r'.status = r.status ∨ w.ReleaseAsked o)) ∨
      (r'.status = .active ∧ r'.driverId ≠ "" ∧ w'.ReservationReported o))
    (hnew : ∀ q m, (q, m) ∈ w'.posts → (q, m) ∈ w.posts ∨ Plain q m ∨
      (q = .dispatchEvents ∧ m.eventType = .driverReserved ∧
        ∃ d r, w.dispatch.row d.id = some d ∧ m.About d ∧
          w'.driver.reservation d.orderId = some r ∧ m.string .driverId = some r.driverId)) :
    Coherent w' := by
  have hrow (id : Uuid) : w'.dispatch.row id = w.dispatch.row id := by
    rw [DispatchDb.row, hdispatch, DispatchDb.row]
  refine ⟨hlinked, hdispatch ▸ h.ids, hdispatch ▸ h.orders, fun m hm => ?_, fun o r' hr' => ?_,
    fun id d hd => h.driver id d (hrow id ▸ hd), fun q m hm hty => ?_, fun q m hm hty => ?_,
    fun q m hm hty => ?_, fun id d driverId hd hdd => ?_, fun o r' hr' hs => ?_,
    fun o r' hr' => ?_, fun id d hd hs => ?_⟩
  · rcases hnew _ m hm with hm | hm | ⟨hq, -⟩
    · exact h.own m hm
    · exact absurd rfl hm.1
    · cases hq
  · rcases hres o r' hr' with ⟨r, hr, heq, -⟩ | ⟨-, hne, -⟩
    · exact heq ▸ h.nonempty o r hr
    · exact hne
  · simp only [hrow]
    rcases hnew q m hm with hm | hm | ⟨-, hty', -⟩
    · exact h.requested q m hm hty
    · exact absurd hty hm.2.1
    · rw [hty'] at hty
      cases hty
  · simp only [hrow]
    rcases hnew q m hm with hm | hm | ⟨-, hty', -⟩
    · obtain ⟨d, r, hd, hmd, hend, hr⟩ := h.release q m hm hty
      obtain ⟨r', hr', -⟩ := hkept _ r hr
      exact ⟨d, r', hd, hmd, hend, hr'⟩
    · exact absurd hty hm.2.2.1
    · rw [hty'] at hty
      cases hty
  · simp only [hrow]
    rcases hnew q m hm with hm | hm | ⟨-, -, hreserved⟩
    · obtain ⟨d, r, hd, hmd, hr, hmr⟩ := h.reserved q m hm hty
      obtain ⟨r', hr', heq⟩ := hkept _ r hr
      exact ⟨d, r', hd, hmd, hr', heq ▸ hmr⟩
    · exact absurd hty hm.2.2.2
    · exact hreserved
  · obtain ⟨r, hr, heq⟩ := h.held id d driverId (hrow id ▸ hd) hdd
    obtain ⟨r', hr', heq'⟩ := hkept _ r hr
    exact ⟨r', hr', heq'.trans heq⟩
  · rcases hres o r' hr' with ⟨r, hr, -, hsame | hasked⟩ | ⟨hact, -⟩
    · exact (h.released o r hr (hsame ▸ hs)).mono hposts
    · exact hasked.mono hposts
    · rw [hact] at hs
      cases hs
  · rcases hres o r' hr' with ⟨r, hr, -⟩ | ⟨-, -, hrep⟩
    · exact (h.reported o r hr).mono hposts
    · exact hrep
  · exact (h.compensated id d (hrow id ▸ hd) hs).mono hposts

/-- Neither the reservations nor the dispatches change. -/
theorem Coherent.plain (h : Coherent w) (hlinked : w'.driver.Linked)
    (hdispatch : w'.dispatch.dispatches = w.dispatch.dispatches)
    (hres : w'.driver.reservations = w.driver.reservations)
    (hposts : ∀ p ∈ w.posts, p ∈ w'.posts)
    (hnew : ∀ q m, (q, m) ∈ w'.posts → (q, m) ∈ w.posts ∨ Plain q m) : Coherent w' := by
  have hsame (o : Uuid) : w'.driver.reservation o = w.driver.reservation o := by
    rw [DriverDb.reservation, hres, DriverDb.reservation]
  refine h.driven hlinked hdispatch hposts (fun o r hr => ⟨r, (hsame o).trans hr, rfl⟩)
    (fun o r' hr' => Or.inl ⟨r', hsame o ▸ hr', rfl, Or.inl rfl⟩) fun q m hm => ?_
  exact (hnew q m hm).imp_right Or.inl

/-- What is new among the messages comes with new outbox rows. -/
theorem Databases.posts_of_rows {P : Queue → Message → Prop}
    (horder : ∀ r ∈ w'.order.outbox, r ∈ w.order.outbox ∨ P r.targetQueue r.message)
    (hdispatch : ∀ r ∈ w'.dispatch.outbox, r ∈ w.dispatch.outbox ∨ P r.targetQueue r.message)
    (hdriver : ∀ r ∈ w'.driver.outbox, r ∈ w.driver.outbox ∨ P r.targetQueue r.message)
    (q : Queue) (m : Message) (hm : (q, m) ∈ w'.posts) : (q, m) ∈ w.posts ∨ P q m := by
  obtain ⟨r, hr, heq⟩ := List.mem_map.1 hm
  obtain ⟨rfl, rfl⟩ := Prod.mk.inj heq
  have hold (hr : r ∈ w.outbox) : (r.targetQueue, r.message) ∈ w.posts :=
    List.mem_map.2 ⟨r, hr, rfl⟩
  rcases List.mem_append.1 hr with hr | hr
  · rcases List.mem_append.1 hr with hr | hr
    · exact (horder r hr).imp_left fun hr =>
        hold (List.mem_append_left _ (List.mem_append_left _ hr))
    · exact (hdispatch r hr).imp_left fun hr =>
        hold (List.mem_append_left _ (List.mem_append_right _ hr))
  · exact (hdriver r hr).imp_left fun hr => hold (List.mem_append_right _ hr)

theorem requests_releaseRequested (d : Dispatch) (driverId : Option Uuid) (reason c : String)
    (eventId : Uuid) (now : Date) : Requests d .driverReleaseRequested .driverEvents
      (DispatchEvent.releaseRequested d driverId reason c eventId now).message :=
  ⟨rfl, rfl, ⟨OutboxRow.string_message (string_dispatchEvent _ _ _ _ _ _ rfl),
    OutboxRow.string_message (string_dispatchEvent _ _ _ _ _ _ rfl)⟩,
    OutboxRow.string_message (eventId_dispatchEvent _ _ _ _ _ rfl)⟩

theorem requests_reservationRequested (d : Dispatch) (plan : Option DispatchStartPlan)
    (eventId : Uuid) (now : Date) : Requests d .driverReservationRequested .driverEvents
      (DispatchEvent.reservationRequested d plan eventId now).message :=
  ⟨rfl, rfl, ⟨OutboxRow.string_message (string_dispatchEvent _ _ _ _ _ _ rfl),
    OutboxRow.string_message (string_dispatchEvent _ _ _ _ _ _ rfl)⟩,
    OutboxRow.string_message (eventId_dispatchEvent _ _ _ _ _ rfl)⟩

/-- Two dispatches of one order are one. -/
theorem Coherent.eq_of_order (h : Coherent w) {e : Dispatch} (hd : w.dispatch.row d.id = some d)
    (he : w.dispatch.row e.id = some e) (horder : e.orderId = d.orderId) : e = d :=
  List.inj_on_of_nodup_map h.orders (Table.mem_of_find he) (Table.mem_of_find hd) horder

theorem Databases.posts_mono (h : Appended w.outbox w'.outbox) : ∀ p ∈ w.posts, p ∈ w'.posts := by
  intro p hp
  obtain ⟨r, hr, rfl⟩ := List.mem_map.1 hp
  exact List.mem_map.2 ⟨r, h.keeps r hr, rfl⟩

/-- A transaction of the workflow saves the row it locked. -/
theorem Coherent.moved (h : Coherent w) {e : OutboxRow} (hd : w.dispatch.row d.id = some d)
    (hm : DispatchMove d d' e)
    (hassigned : d.status = .searchingDriver → ∀ driverId, d'.driverId = some driverId →
      ∃ r, w.driver.reservation d.orderId = some r ∧ r.driverId = driverId)
    (hw : w' = { w with dispatch := w.dispatch.after ⟨some d', some e⟩ })
    (hposts : ∀ p ∈ w.posts, p ∈ w'.posts) : Coherent w' := by
  subst hw
  have hid : d'.id = d.id := by cases hm <;> rfl
  have horder : d'.orderId = d.orderId := by cases hm <;> rfl
  have hpost : (e.targetQueue, e.message) ∈
      { w with dispatch := w.dispatch.after ⟨some d', some e⟩ : Databases }.posts :=
    List.mem_map.2 ⟨e, List.mem_append_left _ (List.mem_append_right _
      (List.mem_append_right _ (List.mem_singleton.2 rfl))), rfl⟩
  have hdr := h.driver d.id d hd
  refine h.dispatched hd hid horder rfl (Table.nodup_save h.ids)
    (Table.nodup_save_other h.orders (hid ▸ hd) horder.symm)
    (fun id => by rw [← hid]; exact Table.find_save (c := Dispatch.id)) hposts
    (Databases.posts_of_rows (fun r hr => Or.inl hr) (fun r hr => ?_) fun r hr => Or.inl hr)
    ?_ ?_ ?_ ?_
  · rcases List.mem_append.1 hr with hr | hr
    · exact Or.inl hr
    · obtain rfl := List.mem_singleton.1 hr
      cases hm with
      | assign | fail | cancel =>
        exact Or.inr (Or.inl ⟨nofun, nofun, nofun, nofun⟩)
      | compensate driverId reason c eventId now hs hdd hne =>
        obtain ⟨r, hr, -⟩ := h.held d.id d driverId hd hdd
        exact Or.inr (Or.inr ⟨requests_releaseRequested _ _ _ _ _ _, Or.inr (Or.inl rfl), r, hr⟩)
  · intro hend
    cases hm with
    | assign driverId c eventId now hs => simp [Dispatch.Ended, hs] at hend
    | fail => exact Or.inl rfl
    | compensate => exact Or.inr (Or.inl rfl)
    | cancel => exact Or.inr (Or.inr rfl)
  · cases hm with
    | assign => simp [DispatchStatus.hasDriver]
    | fail reason c eventId now hs | compensate driverId reason c eventId now hs
      | cancel c eventId now hs => simpa [hs, DispatchStatus.hasDriver] using hdr
  · intro driverId hdd
    cases hm with
    | assign _ _ _ _ hs => exact hassigned hs driverId hdd
    | fail | compensate | cancel => exact h.held d.id d driverId hd hdd
  · intro hs'
    cases hm with
    | assign | fail => simp at hs'
    | compensate =>
      exact ⟨_, hpost, (requests_releaseRequested _ _ _ _ _ _).type,
        (requests_releaseRequested _ _ _ _ _ _).about.2⟩
    | cancel c eventId now hs => exact (h.compensated d.id d hd (Or.inl hs)).mono hposts

/-- A reservation that comes too late has its release requested. -/
theorem Coherent.late (h : Coherent w) (hd : w.dispatch.row d.id = some d)
    (hs : d.status = .failed ∨ d.status = .cancelled) (driverId reason c : String)
    (eventId : Uuid) (now : Date) (hres : ∃ r, w.driver.reservation d.orderId = some r)
    (hw : w' = { w with
      dispatch := w.dispatch.after
        ⟨none, some (DispatchEvent.releaseRequested d (some driverId) reason c eventId now)⟩ })
    (hposts : ∀ p ∈ w.posts, p ∈ w'.posts) : Coherent w' := by
  subst hw
  refine h.dispatched hd (show d.id = d.id from rfl) rfl rfl h.ids h.orders (fun id => ?_) hposts
    (Databases.posts_of_rows (fun r hr => Or.inl hr) (fun r hr => ?_) fun r hr => Or.inl hr)
    id (h.driver d.id d hd) (fun driverId => h.held d.id d driverId hd)
    fun hs => (h.compensated d.id d hd hs).mono hposts
  · split
    · next hid => exact hid ▸ hd
    · rfl
  · rcases List.mem_append.1 hr with hr | hr
    · exact Or.inl hr
    · obtain rfl := List.mem_singleton.1 hr
      exact Or.inr (Or.inr ⟨requests_releaseRequested _ _ _ _ _ _, hs.imp_right Or.inr, hres⟩)

/-- A driver that a reservation result names is the one of the order's row. -/
theorem Coherent.named (h : Coherent w) {P : Queue → Message → Prop}
    (hP : ∀ q m, P q m → (q, m) ∈ w.posts) {op : DispatchOp} (hop : Issued P op)
    (hd : w.dispatch.row op.dispatchId = some d) {driverId : Uuid}
    (hn : op.names = some driverId) :
    ∃ m r, P .dispatchEvents m ∧ m.eventType = .driverReserved ∧ m.About d ∧
      w.driver.reservation d.orderId = some r ∧ r.driverId = driverId := by
  cases op with
  | startCompensation | completeCompensation | timeout => cases hn
  | completeReservation input eventId now =>
    obtain ⟨m, hm, hty, hinput⟩ := hop
    have hdriver : input.driverId = some driverId := (Option.filter_eq_some_iff.1 hn).1
    obtain ⟨hid, ⟨hreserved, hmd⟩ | ⟨-, hnone⟩⟩ := Message.of_reservationResultInput hinput
    swap
    · rw [hnone] at hdriver
      cases hdriver
    obtain ⟨e, r, he, hme, hr, hmr⟩ := h.reserved _ m (hP _ m hm) hreserved
    have hsame : input.dispatchId = e.id := Option.some.inj (hid.symm.trans hme.1)
    obtain rfl : e = d := Option.some.inj (he.symm.trans (hsame ▸ hd))
    exact ⟨m, r, hm, hreserved, hme, hr, Option.some.inj (hmr.symm.trans (hmd.trans hdriver))⟩

theorem Coherent.operated (h : Coherent w) {op : DispatchOp} {o : DispatchOutcome}
    (hop : Issued (fun q m => (q, m) ∈ w.posts) op) (hd : w.dispatch.row op.dispatchId = some d)
    (ho : op.outcome d = .ok o) (hw : w' = { w with dispatch := w.dispatch.after o })
    (hposts : ∀ p ∈ w.posts, p ∈ w'.posts) : Coherent w' := by
  have hid : d.id = op.dispatchId := Table.key_of_find hd
  cases DispatchOp.step_of_outcome ho with
  | move hm =>
    refine h.moved (hid ▸ hd) hm (fun hs driverId hdd => ?_) hw hposts
    have hnone : d.driverId = none := by
      simpa [hs, DispatchStatus.hasDriver] using h.driver _ d hd
    obtain ⟨m, r, -, -, -, hr⟩ := h.named (fun _ _ hm => hm) hop hd
      (DispatchOp.names_of_assigned ho hs hnone hdd)
    exact ⟨r, hr⟩
  | late driverId c eventId now hs =>
    obtain ⟨driverId', hn⟩ := DispatchOp.names_of_late ho
    obtain ⟨m, r, -, -, -, hr, -⟩ := h.named (fun _ _ hm => hm) hop hd hn
    exact h.late (hid ▸ hd) hs _ _ _ _ _ ⟨r, hr⟩ hw hposts
  | idle =>
    subst hw
    simpa [DispatchDb.after] using h

/-- A new dispatch asks the Driver service for a reservation. -/
theorem Coherent.started (h : Coherent w) {plan : Option DispatchStartPlan}
    {startedId requestedId : Uuid} {now : Date} {decisions : List DispatchDecision}
    (hs : d.status = .searchingDriver) (hnone : d.driverId = none)
    (hrow : w.dispatch.row d.id = none) (horder : w.dispatch.findByOrderId d.orderId = none)
    (hw : w' = { w with
      dispatch :=
        ⟨w.dispatch.dispatches ++ [d], decisions,
          w.dispatch.outbox ++ [DispatchEvent.started d startedId now,
            DispatchEvent.reservationRequested d plan requestedId now]⟩ })
    (hposts : ∀ p ∈ w.posts, p ∈ w'.posts) : Coherent w' := by
  have hfind (id : Uuid) : w'.dispatch.row id =
      (w.dispatch.row id).or (if d.id = id then some d else none) := by
    subst hw
    exact Table.find_append_singleton (c := Dispatch.id)
  have hkeep {id : Uuid} {e : Dispatch} (he : w.dispatch.row id = some e) :
      w'.dispatch.row id = some e := by rw [hfind, he, Option.some_or]
  have hcases {id : Uuid} {e : Dispatch} (he : w'.dispatch.row id = some e) :
      w.dispatch.row id = some e ∨ e = d := by
    rw [hfind, Option.or_eq_some_iff] at he
    refine he.imp_right fun he => ?_
    split at he
    · exact (Option.some.inj he.2).symm
    · simp at he
  have hself : w'.dispatch.row d.id = some d := by rw [hfind, hrow, Option.none_or, if_pos rfl]
  have hnew : ∀ q m, (q, m) ∈ w'.posts → (q, m) ∈ w.posts ∨ Plain q m ∨
      Requests d .driverReservationRequested q m := by
    refine Databases.posts_of_rows (fun r hr => Or.inl (by simpa [hw] using hr)) (fun r hr => ?_)
      fun r hr => Or.inl (by simpa [hw] using hr)
    rw [hw] at hr
    rcases List.mem_append.1 hr with hr | hr
    · exact Or.inl hr
    · rcases List.mem_pair.1 hr with rfl | rfl
      · exact Or.inr (Or.inl ⟨nofun, nofun, nofun, nofun⟩)
      · exact Or.inr (Or.inr (requests_reservationRequested _ _ _ _))
  subst hw
  refine ⟨h.linked, Table.nodup_append_of_find h.ids hrow,
    Table.nodup_append_of_find h.orders horder, fun m hm => ?_, h.nonempty, fun id e he => ?_,
    fun q m hm hty => ?_, fun q m hm hty => ?_, fun q m hm hty => ?_,
    fun id e driverId he hed => ?_, fun o r hr hs => (h.released o r hr hs).mono hposts,
    fun o r hr => (h.reported o r hr).mono hposts, fun id e he hes => ?_⟩
  · rcases hnew _ m hm with hm | hm | hm
    · exact h.own m hm
    · exact absurd rfl hm.1
    · exact hm.own
  · rcases hcases he with he | rfl
    · exact h.driver id e he
    · simp [hs, hnone, DispatchStatus.hasDriver]
  · rcases hnew q m hm with hm | hm | hm
    · obtain ⟨e, he, hme⟩ := h.requested q m hm hty
      exact ⟨e, hkeep he, hme⟩
    · exact absurd hty hm.2.1
    · exact ⟨d, hself, hm.about⟩
  · rcases hnew q m hm with hm | hm | hm
    · obtain ⟨e, r, he, hme, hend, hr⟩ := h.release q m hm hty
      exact ⟨e, r, hkeep he, hme, hend, hr⟩
    · exact absurd hty hm.2.2.1
    · rw [hm.type] at hty
      cases hty
  · rcases hnew q m hm with hm | hm | hm
    · obtain ⟨e, r, he, hme, hr, hmr⟩ := h.reserved q m hm hty
      exact ⟨e, r, hkeep he, hme, hr, hmr⟩
    · exact absurd hty hm.2.2.2
    · rw [hm.type] at hty
      cases hty
  · rcases hcases he with he | rfl
    · exact h.held id e driverId he hed
    · rw [hnone] at hed
      cases hed
  · rcases hcases he with he | rfl
    · exact (h.compensated id e he hes).mono hposts
    · simp [hs] at hes

section Driver

variable {m : Message} {eventId : Uuid} {now : Date} {db : DriverDb}

theorem Message.of_reserveDriverInput {input : ReserveDriverInput}
    (h : m.reserveDriverInput = some input) : m.string .orderId = some input.orderId := by
  obtain ⟨orderId, horder, h⟩ := Option.bind_eq_some_iff.1 h
  obtain ⟨dispatchId, -, h⟩ := Option.bind_eq_some_iff.1 h
  obtain ⟨correlationId, -, h⟩ := Option.bind_eq_some_iff.1 h
  rw [horder, ← Option.some.inj h]

theorem Message.of_releaseDriverInput {input : ReleaseDriverInput}
    (h : m.releaseDriverInput = some input) : m.string .orderId = some input.orderId := by
  obtain ⟨reserve, hreserve, h⟩ := Option.bind_eq_some_iff.1 h
  obtain ⟨driverId, -, h⟩ := Option.bind_eq_some_iff.1 h
  rw [Message.of_reserveDriverInput hreserve, ← Option.some.inj h]

/-- A reply is about the dispatch of the message it answers. -/
theorem about_reply {event : Payload} (hevent : event = m.payload) (hm : m.About d) {k : Field}
    (hk : k ≠ .dispatchId ∧ k ≠ .orderId) (ty : EventType) (s c : String) :
    (driverEvent eventId ty (Js.Obj.spread event [(k, .string s)]) c now).message.About d := by
  subst hevent
  exact ⟨OutboxRow.string_message (string_driverEvent _ _ _ _ _
      ((Payload.string_spread_ne _ _ hk.1).trans hm.1)),
    OutboxRow.string_message (string_driverEvent _ _ _ _ _
      ((Payload.string_spread_ne _ _ hk.2).trans hm.2))⟩

/-- A Driver transaction that touches no reservation enqueues a plain reply. -/
theorem Coherent.replied (h : Coherent w) {e : OutboxRow}
    (hw : w' = { w with driver := w.driver.insertOutbox e })
    (hposts : ∀ p ∈ w.posts, p ∈ w'.posts) (hq : e.targetQueue = .dispatchEvents)
    (hne : e.eventType ≠ .driverReservationRequested ∧ e.eventType ≠ .driverReleaseRequested)
    (hres : e.eventType = .driverReserved → ∃ d r, w.dispatch.row d.id = some d ∧
      e.message.About d ∧ w.driver.reservation d.orderId = some r ∧
      e.message.string .driverId = some r.driverId) : Coherent w' := by
  subst hw
  refine h.driven (h.linked.insertOutbox e) rfl hposts (fun o r hr => ⟨r, hr, rfl⟩)
    (fun o r hr => Or.inl ⟨r, hr, rfl, Or.inl rfl⟩)
    (Databases.posts_of_rows (fun r hr => Or.inl hr) (fun r hr => Or.inl hr) fun r hr => ?_)
  rcases List.mem_append.1 hr with hr | hr
  · exact Or.inl hr
  · obtain rfl := List.mem_singleton.1 hr
    by_cases hty : r.eventType = .driverReserved
    · exact Or.inr (Or.inr ⟨hq, hty, hres hty⟩)
    · exact Or.inr (Or.inl ⟨by rw [hq]; decide, hne.1, hne.2, hty⟩)

theorem Coherent.reserve (h : Coherent w) {input : ReserveDriverInput} {reservationId : Uuid}
    (hm : (Queue.driverEvents, m) ∈ w.posts) (hty : m.eventType = .driverReservationRequested)
    (hinput : m.reserveDriverInput = some input)
    (hids : ∀ id d, w.driver.driver id = some d → id ≠ "")
    (hr : Reserved input reservationId eventId now w.driver db)
    (hw : w' = { w with driver := db }) (hposts : ∀ p ∈ w.posts, p ∈ w'.posts) :
    Coherent w' := by
  obtain ⟨d, hd, hmd⟩ := h.requested _ m hm hty
  have horder : d.orderId = input.orderId :=
    Option.some.inj (hmd.2.symm.trans (Message.of_reserveDriverInput hinput))
  have hevent := event_of_reserveDriverInput hinput
  have hlinked := hr.linked h.linked
  have hreserved (driverId : Uuid) :
      (DriverEvent.reserved input driverId eventId now).message.About d ∧
      (DriverEvent.reserved input driverId eventId now).message.string .driverId = some driverId :=
    ⟨about_reply hevent hmd (by decide) _ _ _,
      OutboxRow.string_message (string_driverEvent _ _ _ _ _ (Payload.string_spread_self _ _ _))⟩
  cases hr with
  | @again r hrow hact =>
    refine h.replied hw hposts rfl ⟨nofun, nofun⟩ fun _ => ?_
    exact ⟨d, r, hd, (hreserved r.driverId).1, horder ▸ hrow, (hreserved r.driverId).2⟩
  | failed reason hnot => exact h.replied hw hposts rfl ⟨nofun, nofun⟩ nofun
  | @granted e e' hnot he helig hres hid hnone =>
    subst hw
    set r := input.row reservationId e'.id now
    have hfind (o : Uuid) : (w.driver.saveReservation r).reservation o =
        if input.orderId = o then some r else w.driver.reservation o :=
      h.linked.reservation_save (Or.inl ⟨hid, hnone⟩) o
    have hself : (w.driver.saveReservation r).reservation d.orderId = some r := by
      rw [hfind, horder, if_pos rfl]
    have hne : e'.id ≠ "" := Driver.id_of_reserve hres ▸ hids _ _ he
    refine h.driven hlinked rfl hposts (fun o r' hr' => ⟨r', ?_, rfl⟩) (fun o r' hr' => ?_)
      (Databases.posts_of_rows (fun r hr => Or.inl hr) (fun r hr => Or.inl hr) fun r' hr' => ?_)
    · refine (hfind o).trans (if_neg ?_ |>.trans hr')
      rintro rfl
      rw [hnone] at hr'
      cases hr'
    · have hcase := (hfind o).symm.trans hr'
      split at hcase
      · next ho =>
        obtain rfl := Option.some.inj hcase
        refine Or.inr ⟨rfl, hne, _, List.mem_map.2 ⟨DriverEvent.reserved input e'.id eventId now,
          List.mem_append_right _ (List.mem_append_right _ (List.mem_singleton.2 rfl)), rfl⟩, rfl,
          ?_⟩
        exact ho ▸ horder ▸ (hreserved e'.id).1.2
      · exact Or.inl ⟨r', hcase, rfl, Or.inl rfl⟩
    · rcases List.mem_append.1 hr' with hr' | hr'
      · exact Or.inl hr'
      · obtain rfl := List.mem_singleton.1 hr'
        exact Or.inr (Or.inr ⟨rfl, rfl, d, r, hd, (hreserved e'.id).1, hself, (hreserved e'.id).2⟩)

/-- The release of an order's driver, which has been asked for. -/
theorem Coherent.release_driver (h : Coherent w) {input : ReleaseDriverInput}
    (hm : (Queue.driverEvents, m) ∈ w.posts) (hty : m.eventType = .driverReleaseRequested)
    (horder : m.string .orderId = some input.orderId)
    (hr : Released input eventId now w.driver db)
    (hw : w' = { w with driver := db }) (hposts : ∀ p ∈ w.posts, p ∈ w'.posts) :
    Coherent w' := by
  have hlinked := hr.linked h.linked
  cases hr with
  | unknown | again => exact h.replied hw hposts rfl ⟨nofun, nofun⟩ nofun
  | @freed r e hrow hact he =>
    subst hw
    set r₀ : DriverReservation := { r with status := .released, releasedAt := some now }
    have hfind (o : Uuid) : (w.driver.saveReservation r₀).reservation o =
        if input.orderId = o then some r₀ else w.driver.reservation o := by
      rw [← DriverDb.order_of_reservation hrow]
      exact h.linked.reservation_save (r := r₀)
        (Or.inr ⟨r, h.linked.reservationById_of hrow, rfl⟩) o
    refine h.driven hlinked rfl hposts (fun o r' hr' => ?_) (fun o r' hr' => ?_)
      (Databases.posts_of_rows (fun r hr => Or.inl hr) (fun r hr => Or.inl hr) fun r' hr' => ?_)
    · by_cases ho : input.orderId = o
      · subst ho
        obtain rfl : r = r' := Option.some.inj (hrow.symm.trans hr')
        exact ⟨_, (hfind _).trans (if_pos rfl), rfl⟩
      · exact ⟨r', (hfind o).trans ((if_neg ho).trans hr'), rfl⟩
    · have hcase := (hfind o).symm.trans hr'
      split at hcase
      · next ho =>
        obtain rfl := Option.some.inj hcase
        exact Or.inl ⟨r, ho ▸ hrow, rfl, Or.inr ⟨m, hm, hty, ho ▸ horder⟩⟩
      · exact Or.inl ⟨r', hcase, rfl, Or.inl rfl⟩
    · rcases List.mem_append.1 hr' with hr' | hr'
      · exact Or.inl hr'
      · obtain rfl := List.mem_singleton.1 hr'
        exact Or.inr (Or.inl ⟨nofun, nofun, nofun, nofun⟩)

end Driver

section Runs

variable {settings : Settings} {R : Request → Prop} {S : Fleet} {ts : List FleetMove}

/-- `order.ready_for_dispatch` is all that the Order service enqueues. -/
theorem posted_of_created {order : Order} {correlationId : String} {key : Option String}
    {eventId : Uuid} {now : Date} {db db' : OrderDb} {result : Option Order}
    (hrun : (persistReadyForDispatch settings.hashtext order correlationId key eventId now).run
      (fun _ _ => false) db = .ok (result, db')) :
    ∀ r ∈ db'.outbox, r ∈ db.outbox ∨
      (r.targetQueue = .dispatchEvents ∧ r.eventType = .orderReadyForDispatch) := by
  refine (writes_persistReadyForDispatch (fun _ r hr => Or.inl hr) fun db r hr => ?_).run
    (R := fun db db' : OrderDb => ∀ r ∈ db'.outbox, r ∈ db.outbox ∨
      (r.targetQueue = .dispatchEvents ∧ r.eventType = .orderReadyForDispatch))
    (fun _ r hr => Or.inl hr) (fun _ _ _ h h' r hr => (h' r hr).elim (h r) Or.inr) hrun
  rcases List.mem_append.1 hr with hr | hr
  · exact Or.inl hr
  · obtain rfl := List.mem_singleton.1 hr
    exact Or.inr ⟨rfl, rfl⟩

theorem Advance.coherent
    (hadv : Advance settings R (fun q m => (q, m) ∈ w.posts) w w') (h : Coherent w)
    (hids : ∀ id d, w.driver.driver id = some d → id ≠ "") : Coherent w' := by
  have hposts := Databases.posts_mono hadv.appended
  have hlinked := hadv.linked h.linked
  cases hadv with
  | idle => exact h
  | saved => exact h.plain hlinked rfl rfl hposts fun q m hm => Or.inl hm
  | created order correlationId key eventId now result db _ hrun =>
    refine h.plain hlinked rfl rfl hposts (Databases.posts_of_rows
      (fun r hr => (posted_of_created hrun r hr).imp_right fun ⟨hq, hty⟩ => ?_)
      (fun r hr => Or.inl hr) fun r hr => Or.inl hr)
    have hty' : r.message.eventType = .orderReadyForDispatch := hty
    simp [Plain, hq, hty']
  | started m d plan decisionId startedId requestedId now _ _ _ hs hnone hrow horder =>
    exact h.started hs hnone hrow horder rfl hposts
  | operated op d o hop hrow ho => exact h.operated hop hrow ho rfl hposts
  | createdDriver id displayName capacity now db hrun =>
    obtain ⟨d, -, -, rfl⟩ := created_of_run hrun
    exact h.plain hlinked rfl rfl hposts fun q m hm => Or.inl hm
  | reserved m input reservationId eventId now locked db hm hty hinput hrun =>
    exact h.reserve hm hty hinput hids (reserved_of_run h.linked hrun) rfl hposts
  | released m input eventId now locked db hm hty hinput hrun =>
    exact h.release_driver hm hty (Message.of_releaseDriverInput hinput)
      (released_of_commit h.linked hrun) rfl hposts

theorem Coherent.markPublished (h : Coherent w) (id : Uuid) (now : Date) :
    Coherent (w.markPublished id now) := by
  have hsame : (w.markPublished id now).posts = w.posts :=
    posts_markPublished sampleSettings id now w
  refine h.plain (linked_markPublished id now h.linked) rfl rfl (fun p hp => hsame ▸ hp)
    fun q m hm => Or.inl (hsame ▸ hm)

theorem coherent_of_run (hrun : (fleet settings).Run ts S) : Coherent S.world := by
  refine (hrun.invariant
    (I := fun S => S.Orderly (wiring settings) ∧ Coherent S.world) ?_ ?_).2
  · intro S hinit
    obtain ⟨⟨horders, hdispatches, hdrivers, hres⟩, hout, -⟩ := hinit.1
    have hposts : S.world.posts = [] := by
      have hout' : S.world.outbox = [] := hout
      simp [Databases.posts, hout']
    refine ⟨Bus.orderly_of_init hinit, ?_⟩
    have hlinked : S.world.driver.Linked := by
      constructor <;> simp [DriverDb.driver, DriverDb.reservation, hdrivers, hres]
    constructor <;>
      simp [hlinked, hposts, hdispatches, DriverDb.reservation, hres, DispatchDb.row]
  · rintro S a S' ⟨ho, h⟩ hs
    have hhap := Wiring.happens_of_step hs
    refine ⟨ho.step (sound_wiring settings) hhap, ?_⟩
    rcases advance_of_happens ho hhap with ⟨id, now, hw⟩ | hadv
    · rw [hw]
      exact h.markPublished id now
    · refine (hadv.mono fun _ _ h => h.1).coherent h fun id d hd hid => ho.fresh.2 ?_
      have hmem : id ∈ S.world.driver.drivers.map Driver.id :=
        List.mem_map.2 ⟨d, Table.mem_of_find hd, Table.key_of_find hd⟩
      exact List.mem_append_right _ (hid ▸ hmem)

end Runs

end Steps

end RouteFast
