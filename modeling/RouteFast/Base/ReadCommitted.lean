import RouteFast.Base.Run
import Mathlib.Logic.Function.Basic

/-! Transactions at READ COMMITTED. A body is written once, statement by statement,
and has two meanings: `run`, with nothing else going on, and `system`, where any
number of sessions interleave their statements. A statement sees what is committed
when it starts together with the session's own writes; locks are held to the end of
the transaction. `Ok` is the proof rule: what a session learned under a lock stays
true while it holds the lock, and a commit touches only what its locks cover. -/

namespace ReadCommitted

open Transition

/-- A transaction body. `κ` names what can be locked. -/
inductive Tx (σ κ ε α : Type*) where
  | commit (result : α)
  | throw (error : ε)
  /-- A lock by name, waited for. -/
  | lock (k : κ) (next : Tx σ κ ε α)
  | select (next : σ → Tx σ κ ε α)
  /-- `SELECT .. FOR UPDATE`: waits until every matching row is free. -/
  | selectForUpdate (rows : σ → List κ) (next : σ → Tx σ κ ε α)
  /-- `SELECT .. FOR UPDATE SKIP LOCKED`: takes the matching rows nobody else holds. -/
  | selectSkipLocked (rows : σ → List κ) (next : σ → List κ → Tx σ κ ε α)
  /-- A write of rows or unique keys it has to lock; a violated constraint is an error. -/
  | write (locks : List κ) (check : σ → Option ε) (effect : σ → σ) (next : Tx σ κ ε α)

variable {σ κ ε α π : Type*}

/-- The body run alone. `locked n` are the rows that other transactions hold at its
`n`-th skip-locked statement. -/
def Tx.run (locked : ℕ → κ → Bool) : Tx σ κ ε α → σ → Except ε (α × σ)
  | .commit a, s => .ok (a, s)
  | .throw e, _ => .error e
  | .lock _ next, s => next.run locked s
  | .select next, s => (next s).run locked s
  | .selectForUpdate _ next, s => (next s).run locked s
  | .selectSkipLocked rows next, s =>
    (next s ((rows s).filter fun k => !locked 0 k)).run (fun n => locked (n + 1)) s
  | .write _ check effect next, s =>
    match check s with
    | some e => .error e
    | none => next.run locked (effect s)

/-- Every write of the body relates what it finds to what it leaves by `R`. -/
def Tx.Writes (R : σ → σ → Prop) : Tx σ κ ε α → Prop
  | .commit _ => True
  | .throw _ => True
  | .lock _ next => next.Writes R
  | .select next => ∀ s, (next s).Writes R
  | .selectForUpdate _ next => ∀ s, (next s).Writes R
  | .selectSkipLocked _ next => ∀ s got, (next s got).Writes R
  | .write _ _ effect next => (∀ s, R s (effect s)) ∧ next.Writes R

theorem Tx.Writes.run {R : σ → σ → Prop} (hrefl : ∀ s, R s s)
    (htrans : ∀ a b c, R a b → R b c → R a c) {tx : Tx σ κ ε α} (h : tx.Writes R)
    {locked : ℕ → κ → Bool} {s s' : σ} {a : α} (hrun : tx.run locked s = .ok (a, s')) :
    R s s' := by
  induction tx generalizing s locked with
  | commit => obtain rfl := (Prod.mk.inj (Except.ok.inj hrun)).2; exact hrefl s
  | throw => cases hrun
  | lock _ next ih => exact ih h hrun
  | select next ih | selectForUpdate _ next ih => exact ih s (h s) hrun
  | selectSkipLocked _ next ih => exact ih s _ (h s _) hrun
  | write _ check effect next ih =>
    simp only [Tx.run] at hrun
    split at hrun
    · cases hrun
    · exact htrans _ _ _ (h.1 s) (ih h.2 hrun)

/-- What a session sees over the committed state: its own writes, in order. -/
def view (s : σ) (log : List (σ → σ)) : σ := log.foldl (fun s f => f s) s

@[simp] theorem view_nil (s : σ) : view s [] = s := rfl

@[simp] theorem view_cons (s : σ) (f : σ → σ) (log : List (σ → σ)) :
    view s (f :: log) = view (f s) log := rfl

/-- The body among other transactions: its `n`-th statement finds `tables n` committed and the
rows `locked n` held by others. What it would commit is its writes. -/
def Tx.among (tables : ℕ → σ) (locked : ℕ → κ → Bool) :
    Tx σ κ ε α → List (σ → σ) → Except ε (α × List (σ → σ))
  | .commit a, log => .ok (a, log)
  | .throw e, _ => .error e
  | .lock _ next, log => next.among (fun n => tables (n + 1)) (fun n => locked (n + 1)) log
  | .select next, log =>
    (next (view (tables 0) log)).among (fun n => tables (n + 1)) (fun n => locked (n + 1)) log
  | .selectForUpdate _ next, log =>
    (next (view (tables 0) log)).among (fun n => tables (n + 1)) (fun n => locked (n + 1)) log
  | .selectSkipLocked rows next, log =>
    let v := view (tables 0) log
    (next v ((rows v).filter fun k => !locked 0 k)).among (fun n => tables (n + 1))
      (fun n => locked (n + 1)) log
  | .write _ check effect next, log =>
    match check (view (tables 0) log) with
    | some e => .error e
    | none =>
      next.among (fun n => tables (n + 1)) (fun n => locked (n + 1)) (log ++ [effect])

/-- `since` is what had committed when the session began. -/
structure Session (σ κ ε α π : Type*) where
  request : π
  code : Tx σ κ ε α
  log : List (σ → σ)
  since : List (π × α)

/-- `history` lists the requests that committed, with their results. -/
structure Store (σ κ ε α π : Type*) where
  committed : σ
  history : List (π × α)
  holder : κ → Option ℕ
  sessions : ℕ → Option (Session σ κ ε α π)

inductive Label (π : Type*) where
  | begin (i : ℕ) (request : π)
  | advance (i : ℕ)
  /-- A crash, a lost connection, a deadlock victim. -/
  | abort (i : ℕ)

namespace Store

variable [DecidableEq κ]

def free (S : Store σ κ ε α π) (i : ℕ) (k : κ) : Bool :=
  S.holder k = none ∨ S.holder k = some i

def acquire (S : Store σ κ ε α π) (i : ℕ) (ks : List κ) : Store σ κ ε α π :=
  { S with holder := fun k => if k ∈ ks then some i else S.holder k }

def put (S : Store σ κ ε α π) (i : ℕ) (x : Session σ κ ε α π) : Store σ κ ε α π :=
  { S with sessions := Function.update S.sessions i (some x) }

/-- The end of a session, committed or not: its locks go. -/
def finish (S : Store σ κ ε α π) (i : ℕ) : Store σ κ ε α π :=
  { S with
    holder := fun k => if S.holder k = some i then none else S.holder k
    sessions := Function.update S.sessions i none }

/-- The session's next statement, when it need not wait. -/
def advance (S : Store σ κ ε α π) (i : ℕ) (x : Session σ κ ε α π) : Option (Store σ κ ε α π) :=
  let v := view S.committed x.log
  match x.code with
  | .commit a =>
    some ({ S with committed := v, history := S.history ++ [(x.request, a)] }.finish i)
  | .throw _ => some (S.finish i)
  | .lock k next =>
    if S.free i k then some ((S.acquire i [k]).put i { x with code := next }) else none
  | .select next => some (S.put i { x with code := next v })
  | .selectForUpdate rows next =>
    if (rows v).all (S.free i) then
      some ((S.acquire i (rows v)).put i { x with code := next v }) else none
  | .selectSkipLocked rows next =>
    let got := (rows v).filter (S.free i)
    some ((S.acquire i got).put i { x with code := next v got })
  | .write locks check effect next =>
    if locks.all (S.free i) then
      match check v with
      | some e => some (S.put i { x with code := .throw e })
      | none => some ((S.acquire i locks).put i { x with code := next, log := x.log ++ [effect] })
    else none

end Store

/-- Any number of sessions, each running the body of its request. -/
def system [DecidableEq κ] (init : σ → Prop) (body : π → Tx σ κ ε α) :
    System (Store σ κ ε α π) (Label π) where
  init S := init S.committed ∧ S.history = [] ∧ (∀ k, S.holder k = none) ∧ ∀ i, S.sessions i = none
  step S
    | .begin i p =>
      if (S.sessions i).isNone then some (S.put i ⟨p, body p, [], S.history⟩) else none
    | .advance i => (S.sessions i).bind (S.advance i)
    | .abort i => if (S.sessions i).isSome then some (S.finish i) else none

/-- The committed state changes at a commit only, to what the session saw. -/
theorem committed_step [DecidableEq κ] {init : σ → Prop} {body : π → Tx σ κ ε α}
    {S S' : Store σ κ ε α π} {a : Label π} (h : (system init body).step S a = some S') :
    S'.committed = S.committed ∨ ∃ i x r, a = .advance i ∧ S.sessions i = some x ∧
      x.code = .commit r ∧ S'.committed = view S.committed x.log := by
  cases a with
  | begin i p =>
    simp only [system] at h
    split at h
    · obtain rfl := Option.some.inj h
      exact Or.inl rfl
    · cases h
  | abort i =>
    simp only [system] at h
    split at h
    · obtain rfl := Option.some.inj h
      exact Or.inl rfl
    · cases h
  | advance i =>
    simp only [system, Option.bind_eq_some_iff] at h
    obtain ⟨⟨p, code, log, since⟩, hx, h⟩ := h
    cases code with
    | commit r =>
      obtain rfl := Option.some.inj h
      exact Or.inr ⟨i, _, r, rfl, hx, rfl, rfl⟩
    | throw e | select next | selectSkipLocked rows next =>
      obtain rfl := Option.some.inj h
      exact Or.inl rfl
    | lock k next | selectForUpdate rows next =>
      simp only [Store.advance] at h
      split at h
      · obtain rfl := Option.some.inj h
        exact Or.inl rfl
      · cases h
    | write locks check effect next =>
      simp only [Store.advance] at h
      split at h
      · split at h <;> (obtain rfl := Option.some.inj h; exact Or.inl rfl)
      · cases h

/-- A value in front of a sequence. -/
def first {β : Type*} (b : β) (f : ℕ → β) : ℕ → β
  | 0 => b
  | n + 1 => f n

/-- A body run alone is one that finds the same committed at each of its statements. -/
theorem Tx.exists_among (tx : Tx σ κ ε α) (locked : ℕ → κ → Bool) (s : σ) (log : List (σ → σ)) :
    ∃ locked', (tx.among (fun _ => s) locked' log).map (fun p => (p.1, view s p.2)) =
      tx.run locked (view s log) := by
  induction tx generalizing locked log with
  | commit | throw => exact ⟨locked, rfl⟩
  | lock k next ih =>
    obtain ⟨locked', h⟩ := ih locked log
    exact ⟨first (locked 0) locked', h⟩
  | select next ih | selectForUpdate rows next ih =>
    obtain ⟨locked', h⟩ := ih _ locked log
    exact ⟨first (locked 0) locked', h⟩
  | selectSkipLocked rows next ih =>
    obtain ⟨locked', h⟩ := ih (view s log) ((rows (view s log)).filter fun k => !locked 0 k)
      (fun n => locked (n + 1)) log
    exact ⟨first (locked 0) locked', h⟩
  | write locks check effect next ih =>
    obtain ⟨locked', h⟩ := ih locked (log ++ [effect])
    refine ⟨first (locked 0) locked', ?_⟩
    have hview : view s (log ++ [effect]) = effect (view s log) := by simp [view]
    rw [hview] at h
    simp only [Tx.among, Tx.run]
    split
    · rfl
    · exact h

/-- What a session finds committed: the states of its statements so far, then `tables`. -/
def found (past : List (Store σ κ ε α π)) (tables : ℕ → σ) : ℕ → σ :=
  (past.map Store.committed).foldr first tables

/-- The rows that others hold, at its statements so far, then as in `locked`. -/
def heldByOthers [DecidableEq κ] (i : ℕ) (past : List (Store σ κ ε α π))
    (locked : ℕ → κ → Bool) : ℕ → κ → Bool :=
  (past.map fun S k => !S.free i k).foldr first locked

theorem found_cases (past : List (Store σ κ ε α π)) (tables : ℕ → σ) (n : ℕ) :
    (∃ P ∈ past, found past tables n = P.committed) ∨ ∃ k, found past tables n = tables k := by
  induction past generalizing n with
  | nil => exact Or.inr ⟨n, rfl⟩
  | cons P past ih =>
    cases n with
    | zero => exact Or.inl ⟨P, List.mem_cons_self, rfl⟩
    | succ n => exact (ih n).imp_left fun ⟨Q, hQ, heq⟩ => ⟨Q, List.mem_cons_of_mem _ hQ, heq⟩

/-- What a session's next statement leaves of it: nothing, or the rest of a body that ends as
it would have ended here. -/
theorem sessions_advance [DecidableEq κ] {S S' : Store σ κ ε α π} {i : ℕ}
    {x : Session σ κ ε α π} (h : S.advance i x = some S') :
    S'.sessions = Function.update S.sessions i none ∨ ∃ y : Session σ κ ε α π,
      S'.sessions = Function.update S.sessions i (some y) ∧ y.request = x.request ∧
      ∀ tables locked, x.code.among (first S.committed tables)
        (first (fun k => !S.free i k) locked) x.log = y.code.among tables locked y.log := by
  obtain ⟨p, code, log, since⟩ := x
  cases code with
  | commit a | throw e =>
    obtain rfl := Option.some.inj h
    exact Or.inl rfl
  | select next =>
    obtain rfl := Option.some.inj h
    exact Or.inr ⟨_, rfl, rfl, fun tables locked => rfl⟩
  | selectSkipLocked rows next =>
    obtain rfl := Option.some.inj h
    refine Or.inr ⟨_, rfl, rfl, fun tables locked => ?_⟩
    simp only [Tx.among, first, Bool.not_not]
  | lock k next | selectForUpdate rows next =>
    simp only [Store.advance] at h
    split at h
    · obtain rfl := Option.some.inj h
      exact Or.inr ⟨_, rfl, rfl, fun tables locked => rfl⟩
    · cases h
  | write locks check effect next =>
    simp only [Store.advance] at h
    split at h
    · split at h
      · next e hcheck =>
        obtain rfl := Option.some.inj h
        refine Or.inr ⟨_, rfl, rfl, fun tables locked => ?_⟩
        simp only [Tx.among, first, hcheck]
      · next hcheck =>
        obtain rfl := Option.some.inj h
        refine Or.inr ⟨_, rfl, rfl, fun tables locked => ?_⟩
        simp only [Tx.among, first, hcheck]
    · cases h

/-- Session `i` is where its body gets among the states `past` of its statements so far. -/
structure Traces [DecidableEq κ] (body : π → Tx σ κ ε α)
    (ts : List (Move (Store σ κ ε α π) (Label π))) (i : ℕ) (x : Session σ κ ε α π)
    (past : List (Store σ κ ε α π)) : Prop where
  steps : ∀ P ∈ past, ∃ t ∈ ts, t.pre = P ∧ t.label = .advance i
  among : ∀ tables locked, (body x.request).among (found past tables)
    (heldByOthers i past locked) [] = x.code.among tables locked x.log

section Traces

variable [DecidableEq κ] {body : π → Tx σ κ ε α}
  {ts : List (Move (Store σ κ ε α π) (Label π))} {i : ℕ} {x y : Session σ κ ε α π}
  {past : List (Store σ κ ε α π)} {S : Store σ κ ε α π}

theorem Traces.snoc (h : Traces body ts i x past) (t : Move (Store σ κ ε α π) (Label π)) :
    Traces body (ts ++ [t]) i x past := by
  refine ⟨fun P hP => ?_, h.among⟩
  obtain ⟨t', ht', hpre⟩ := h.steps P hP
  exact ⟨t', List.mem_append_left _ ht', hpre⟩

theorem Traces.advance (h : Traces body ts i x past) (hrequest : y.request = x.request)
    (hstep : ∀ tables locked, x.code.among (first S.committed tables)
      (first (fun k => !S.free i k) locked) x.log = y.code.among tables locked y.log)
    {S' : Store σ κ ε α π} : Traces body (ts ++ [⟨S, .advance i, S'⟩]) i y (past ++ [S]) := by
  refine ⟨fun P hP => ?_, fun tables locked => ?_⟩
  · rcases List.mem_append.1 hP with hP | hP
    · exact (h.snoc _).steps P hP
    · exact ⟨⟨S, .advance i, S'⟩, by simp, (List.mem_singleton.1 hP).symm, rfl⟩
  · have hbefore := h.among (first S.committed tables) (first (fun k => !S.free i k) locked)
    rw [← hstep, ← hbefore, hrequest]
    simp [found, heldByOthers]

theorem traces_of_run {init : σ → Prop} (hrun : (system init body).Run ts S) :
    ∀ i x, S.sessions i = some x → ∃ past, Traces body ts i x past := by
  induction hrun with
  | nil hinit =>
    intro i x hx
    simp [hinit.2.2.2 i] at hx
  | @snoc ts S S' a hrun hs ih =>
    have hkept {i : ℕ} {x : Session σ κ ε α π} (hx : S.sessions i = some x) :
        ∃ past, Traces body (ts ++ [⟨S, a, S'⟩]) i x past := by
      obtain ⟨past, hpast⟩ := ih i x hx
      exact ⟨past, hpast.snoc _⟩
    intro i x hx
    cases a with
    | begin j p =>
      simp only [system] at hs
      split at hs
      · obtain rfl := Option.some.inj hs
        by_cases hij : i = j
        · subst hij
          obtain rfl : _ = x := by simpa [Store.put] using hx
          exact ⟨[], fun P hP => absurd hP List.not_mem_nil, fun tables locked => rfl⟩
        · exact hkept (by simpa [Store.put, hij] using hx)
      · cases hs
    | abort j =>
      simp only [system] at hs
      split at hs
      · obtain rfl := Option.some.inj hs
        by_cases hij : i = j
        · simp [Store.finish, hij] at hx
        · exact hkept (by simpa [Store.finish, hij] using hx)
      · cases hs
    | advance j =>
      simp only [system, Option.bind_eq_some_iff] at hs
      obtain ⟨y, hy, hs⟩ := hs
      by_cases hij : i = j
      · subst hij
        rcases sessions_advance hs with hgone | ⟨z, hz, hrequest, hstep⟩
        · simp [hgone] at hx
        · obtain rfl : z = x := by simpa [hz] using hx
          obtain ⟨past, hpast⟩ := ih i y hy
          exact ⟨_, hpast.advance hrequest hstep⟩
      · rcases sessions_advance hs with hgone | ⟨z, hz, -, -⟩
        · exact hkept (by simpa [hgone, hij] using hx)
        · exact hkept (by simpa [hz, hij] using hx)

end Traces

section Alone

/-- Nothing in progress. -/
structure Store.Quiet (S : Store σ κ ε α π) : Prop where
  holder : ∀ k, S.holder k = none
  sessions : ∀ i, S.sessions i = none

/-- Session `i` is the only one. -/
structure Store.Only (S : Store σ κ ε α π) (i : ℕ) (x : Session σ κ ε α π) : Prop where
  holder : ∀ k, S.free i k = true
  sessions : S.sessions = Function.update (fun _ => none) i (some x)

theorem Store.Only.acquire [DecidableEq κ] {S : Store σ κ ε α π} {i : ℕ} {x : Session σ κ ε α π}
    (h : S.Only i x) (ks : List κ) (y : Session σ κ ε α π) :
    ((S.acquire i ks).put i y).Only i y where
  holder k := by
    have := h.holder k
    by_cases hk : k ∈ ks <;> simp_all [Store.free, Store.acquire, Store.put]
  sessions := by simp [Store.acquire, Store.put, h.sessions]

theorem Store.Only.put {S : Store σ κ ε α π} {i : ℕ} {x : Session σ κ ε α π}
    (h : S.Only i x) (y : Session σ κ ε α π) : (S.put i y).Only i y where
  holder := h.holder
  sessions := by simp [Store.put, h.sessions]

theorem Store.Only.finish {S : Store σ κ ε α π} {i : ℕ} {x : Session σ κ ε α π}
    (h : S.Only i x) (s : σ) (history : List (π × α)) :
    ({ S with committed := s, history := history }.finish i).Quiet where
  holder k := by
    have := h.holder k
    simp only [Store.free, decide_eq_true_eq] at this
    rcases this with hk | hk <;> simp [Store.finish, hk]
  sessions j := by
    by_cases hj : j = i <;> simp [Store.finish, h.sessions, hj]

variable [DecidableEq κ] {init : σ → Prop} {body : π → Tx σ κ ε α}

/-- How the only session ends, from what its code does when it runs alone. -/
theorem alone_session {S : Store σ κ ε α π} {i : ℕ} {x : Session σ κ ε α π}
    (hreach : (system init body).Reachable S) (honly : S.Only i x) :
    match x.code.run (fun _ _ => false) (view S.committed x.log) with
    | .ok (a, s) => ∃ S', (system init body).Reachable S' ∧ S'.Quiet ∧ S'.committed = s ∧
        S'.history = S.history ++ [(x.request, a)]
    | .error e => ∃ S' x', (system init body).Reachable S' ∧ S'.sessions i = some x' ∧
        x'.request = x.request ∧ x'.since = x.since ∧ x'.code = .throw e := by
  obtain ⟨p, code, log, since⟩ := x
  have hself {T : Store σ κ ε α π} {y : Session σ κ ε α π} (h : T.Only i y) :
      T.sessions i = some y := by simp [h.sessions]
  have step {T T' : Store σ κ ε α π} {y : Session σ κ ε α π}
      (hT : (system init body).Reachable T) (hy : T.Only i y) (h : T.advance i y = some T') :
      (system init body).Reachable T' := by
    obtain ⟨ts, hrun⟩ := hT
    have hs : (system init body).step T (.advance i) = some T' := by
      simpa [system, hself hy] using h
    exact ⟨_, hrun.snoc hs⟩
  induction code generalizing S log with
  | commit a =>
    refine ⟨_, step hreach honly rfl, ?_, rfl, rfl⟩
    exact honly.finish _ _
  | throw e => exact ⟨S, _, hreach, hself honly, rfl, rfl, rfl⟩
  | lock k next ih =>
    have hs := step hreach honly (by simp only [Store.advance, honly.holder k, if_true]; rfl)
    exact ih hs log (honly.acquire _ _)
  | select next ih =>
    exact ih _ (step hreach honly rfl) log (honly.put _)
  | selectForUpdate rows next ih =>
    have hall : (rows (view S.committed log)).all (S.free i) = true :=
      List.all_eq_true.2 fun k _ => honly.holder k
    have hs := step hreach honly (by simp only [Store.advance, hall, if_true]; rfl)
    exact ih _ hs log (honly.acquire _ _)
  | selectSkipLocked rows next ih =>
    have hgot : (rows (view S.committed log)).filter (S.free i) = rows (view S.committed log) :=
      List.filter_eq_self.2 fun k _ => honly.holder k
    have hs := step hreach honly (by simp only [Store.advance, hgot]; rfl)
    have hrun : Tx.run (fun _ _ => false) (.selectSkipLocked rows next) (view S.committed log) =
        (next (view S.committed log) (rows (view S.committed log))).run (fun _ _ => false)
          (view S.committed log) := by simp [Tx.run]
    rw [hrun]
    exact ih _ _ hs log (honly.acquire _ _)
  | write locks check effect next ih =>
    have hall : locks.all (S.free i) = true := List.all_eq_true.2 fun k _ => honly.holder k
    cases hc : check (view S.committed log) with
    | some e =>
      have hs := step hreach honly (by simp only [Store.advance, hall, hc, if_true]; rfl)
      simp only [Tx.run, hc]
      exact ⟨_, _, hs, hself (honly.put _), rfl, rfl, rfl⟩
    | none =>
      have hs := step hreach honly (by simp only [Store.advance, hall, hc, if_true]; rfl)
      have hrun : Tx.run (fun _ _ => false) (.write locks check effect next)
          (view S.committed log) = next.run (fun _ _ => false) (effect (view S.committed log)) := by
        simp [Tx.run, hc]
      have hview : effect (view S.committed log) = view S.committed (log ++ [effect]) := by
        simp [view]
      rw [hrun, hview]
      exact ih hs (log ++ [effect]) (honly.acquire _ _)

/-- From a quiet store, a request that commits when run alone can commit just so, and one
that fails can fail. -/
theorem alone {S : Store σ κ ε α π} (hreach : (system init body).Reachable S) (hquiet : S.Quiet)
    (i : ℕ) (p : π) :
    match (body p).run (fun _ _ => false) S.committed with
    | .ok (a, s) => ∃ S', (system init body).Reachable S' ∧ S'.Quiet ∧ S'.committed = s ∧
        S'.history = S.history ++ [(p, a)]
    | .error e => ∃ S' x, (system init body).Reachable S' ∧ S'.sessions i = some x ∧
        x.request = p ∧ x.since = S.history ∧ x.code = .throw e := by
  obtain ⟨ts, hrun⟩ := hreach
  have hs : (system init body).step S (.begin i p) = some (S.put i ⟨p, body p, [], S.history⟩) := by
    simp [system, hquiet.sessions i]
  refine alone_session (S := S.put i ⟨p, body p, [], S.history⟩) (x := ⟨p, body p, [], S.history⟩)
    ⟨_, hrun.snoc hs⟩ ⟨fun k => ?_, ?_⟩
  · simp [Store.free, Store.put, hquiet.holder k]
  · have hnone : S.sessions = fun _ => none := funext hquiet.sessions
    simp [Store.put, hnone]

end Alone

/-- What the transactions of a database promise each other: an invariant of what is
committed (and of the results given out), what each lock protects, and a relation that
every commit stays within. -/
structure Discipline (σ κ α π : Type*) where
  Inv : List (π × α) → σ → Prop
  Keeps : κ → σ → σ → Prop
  Evolves : σ → σ → Prop
  keeps_refl : ∀ k s, Keeps k s s
  keeps_trans : ∀ k a b c, Keeps k a b → Keeps k b c → Keeps k a c
  evolves_refl : ∀ s, Evolves s s
  evolves_trans : ∀ a b c, Evolves a b → Evolves b c → Evolves a c

namespace Discipline

variable (D : Discipline σ κ α π)

/-- What others may do to the committed state while a session holds `held`. -/
structure Rely (held : κ → Prop) (s s' : σ) : Prop where
  evolves : D.Evolves s s'
  keeps : ∀ k, held k → D.Keeps k s s'

/-- A committed state some run may reach, seen from a session that last looked at `s`. -/
def Later (held : κ → Prop) (s s' : σ) : Prop := (∃ h, D.Inv h s') ∧ D.Rely held s s'

/-- The rest of a session's body keeps the discipline, whatever others do in between.
`Q` is what it owes at its commit and `E` at an error. -/
def Ok (p : π) (Q : α → σ → σ → Prop) (E : ε → Prop) :
    Tx σ κ ε α → List (σ → σ) → (κ → Prop) → σ → Prop
  | .commit a, log, held, s => ∀ h s', D.Inv h s' → D.Rely held s s' →
      D.Inv (h ++ [(p, a)]) (view s' log) ∧ D.Evolves s' (view s' log) ∧
      (∀ k, ¬ held k → D.Keeps k s' (view s' log)) ∧ Q a s' (view s' log)
  | .throw e, _, _, _ => E e
  | .lock k next, log, held, s => ∀ s', D.Later held s s' →
      Ok p Q E next log (fun j => j = k ∨ held j) s'
  | .select next, log, held, s => ∀ s', D.Later held s s' →
      Ok p Q E (next (view s' log)) log held s'
  | .selectForUpdate rows next, log, held, s => ∀ s', D.Later held s s' →
      Ok p Q E (next (view s' log)) log (fun j => j ∈ rows (view s' log) ∨ held j) s'
  | .selectSkipLocked rows next, log, held, s => ∀ s', D.Later held s s' →
      ∀ got, got.Sublist (rows (view s' log)) →
      Ok p Q E (next (view s' log) got) log (fun j => j ∈ got ∨ held j) s'
  | .write locks check effect next, log, held, s => ∀ s', D.Later held s s' →
      match check (view s' log) with
      | some e => E e
      | none => Ok p Q E next (log ++ [effect]) (fun j => j ∈ locks ∨ held j) s'

variable {D} {p : π} {Q : α → σ → σ → Prop} {E : ε → Prop} {held : κ → Prop}

theorem Rely.refl (s : σ) : D.Rely held s s := ⟨D.evolves_refl s, fun k _ => D.keeps_refl k s⟩

theorem Rely.trans {a b c : σ} (h : D.Rely held a b) (h' : D.Rely held b c) : D.Rely held a c :=
  ⟨D.evolves_trans _ _ _ h.evolves h'.evolves,
    fun k hk => D.keeps_trans k _ _ _ (h.keeps k hk) (h'.keeps k hk)⟩

/-- Who holds more relies on more. -/
theorem Rely.mono {held' : κ → Prop} {a b : σ} (h : D.Rely held' a b)
    (hsub : ∀ k, held k → held' k) : D.Rely held a b :=
  ⟨h.evolves, fun k hk => h.keeps k (hsub k hk)⟩

theorem Later.of_rely {a b c : σ} (h : D.Rely held a b) (h' : D.Later held b c) :
    D.Later held a c := ⟨h'.1, h.trans h'.2⟩

/-- What a session has established survives what others do. -/
theorem Ok.stable {code : Tx σ κ ε α} {log : List (σ → σ)} {s s' : σ}
    (h : D.Ok p Q E code log held s) (hr : D.Rely held s s') : D.Ok p Q E code log held s' := by
  cases code with
  | commit a => exact fun h' s'' hInv hr' => h h' s'' hInv (hr.trans hr')
  | throw e => exact h
  | lock k next => exact fun s'' hl => h s'' (Later.of_rely hr hl)
  | select next => exact fun s'' hl => h s'' (Later.of_rely hr hl)
  | selectForUpdate rows next => exact fun s'' hl => h s'' (Later.of_rely hr hl)
  | selectSkipLocked rows next => exact fun s'' hl => h s'' (Later.of_rely hr hl)
  | write locks check effect next => exact fun s'' hl => h s'' (Later.of_rely hr hl)

/-- Who holds more keeps the discipline no less. -/
theorem Ok.mono_held {held' : κ → Prop} {code : Tx σ κ ε α} {log : List (σ → σ)} {s : σ}
    (h : D.Ok p Q E code log held s) (heq : ∀ k, held k ↔ held' k) :
    D.Ok p Q E code log held' s := by
  have hsame : held = held' := funext fun k => propext (heq k)
  rwa [← hsame]

/-- A write of rows that are locked already cannot fail, -/
theorem Ok.overwrite {locks : List κ} {next : Tx σ κ ε α} {f : σ → σ} {log : List (σ → σ)} {s : σ}
    (hheld : ∀ k ∈ locks, held k) (h : D.Ok p Q E next (log ++ [f]) held s) :
    D.Ok p Q E (.write locks (fun _ => none) f next) log held s :=
  fun _ hl => (h.stable hl.2).mono_held fun k => ⟨Or.inr, fun hk => hk.elim (hheld k) id⟩

/-- and one of fresh rows takes no lock. -/
theorem Ok.insert {next : Tx σ κ ε α} {f : σ → σ} {log : List (σ → σ)} {s : σ}
    (h : D.Ok p Q E next (log ++ [f]) held s) :
    D.Ok p Q E (.write [] (fun _ => none) f next) log held s :=
  .overwrite (fun _ hk => absurd hk List.not_mem_nil) h

/-- Every committed state is as the discipline has it, and every session in progress
still keeps it. `since` says what `Q` and `E` may assume to have committed before. -/
structure Sound (D : Discipline σ κ α π)
    (Q : π → List (π × α) → α → σ → σ → Prop) (E : π → List (π × α) → ε → Prop)
    (S : Store σ κ ε α π) : Prop where
  inv : D.Inv S.history S.committed
  owner : ∀ k i, S.holder k = some i → S.sessions i ≠ none
  sessions : ∀ i x, S.sessions i = some x →
    D.Ok x.request (Q x.request x.since) (E x.request x.since) x.code x.log
      (fun k => S.holder k = some i) S.committed

variable {S : Store σ κ ε α π} {i j : ℕ} {x : Session σ κ ε α π}

@[simp] theorem put_holder : (S.put i x).holder = S.holder := rfl

theorem holder_acquire_self [DecidableEq κ] (ks : List κ) :
    (fun k => (S.acquire i ks).holder k = some i) = fun k => k ∈ ks ∨ S.holder k = some i := by
  funext k
  by_cases hk : k ∈ ks <;> simp [Store.acquire, hk]

theorem holder_acquire_other [DecidableEq κ] {ks : List κ}
    (hfree : ∀ k ∈ ks, S.free i k = true) (hj : j ≠ i) :
    (fun k => (S.acquire i ks).holder k = some j) = fun k => S.holder k = some j := by
  funext k
  by_cases hk : k ∈ ks
  · have hf := hfree k hk
    simp only [Store.free, decide_eq_true_eq] at hf
    have hij : i ≠ j := fun h => hj h.symm
    rcases hf with hf | hf <;> simp [Store.acquire, hk, hf, hij]
  · simp [Store.acquire, hk]

theorem holder_finish_other (hj : j ≠ i) :
    (fun k => (S.finish i).holder k = some j) = fun k => S.holder k = some j := by
  funext k
  by_cases hk : S.holder k = some i
  · have hij : i ≠ j := fun h => hj h.symm
    simp [Store.finish, hk, hij]
  · simp [Store.finish, hk]

section Soundness

variable {Q : π → List (π × α) → α → σ → σ → Prop} {E : π → List (π × α) → ε → Prop}

/-- A session that moved on within its transaction, taking locks nobody held. -/
theorem Sound.put [DecidableEq κ] (h : Sound D Q E S) {ks : List κ} (hfree : ∀ k ∈ ks, S.free i k = true)
    (hx : D.Ok x.request (Q x.request x.since) (E x.request x.since) x.code x.log
      (fun k => k ∈ ks ∨ S.holder k = some i) S.committed) :
    Sound D Q E ((S.acquire i ks).put i x) := by
  refine ⟨h.inv, fun k j hk hnone => ?_, fun j y hy => ?_⟩
  · by_cases hj : j = i
    · subst hj; simp [Store.put] at hnone
    · rw [put_holder, congrFun (holder_acquire_other hfree hj) k] at hk
      exact h.owner k j hk (by simpa [Store.put, Store.acquire, hj] using hnone)
  by_cases hj : j = i
  · subst hj
    obtain rfl : x = y := by simpa [Store.put] using hy
    have hset := holder_acquire_self (S := S) (i := j) ks
    rw [put_holder, hset]
    exact hx
  · have hy' : S.sessions j = some y := by simpa [Store.put, Store.acquire, hj] using hy
    rw [put_holder, holder_acquire_other hfree hj]
    exact h.sessions j y hy'

theorem Sound.put_unlocked [DecidableEq κ] (h : Sound D Q E S)
    (hx : D.Ok x.request (Q x.request x.since) (E x.request x.since) x.code x.log
      (fun k => S.holder k = some i) S.committed) : Sound D Q E (S.put i x) := by
  have hset : S.acquire i [] = S := by simp [Store.acquire]
  have hput : Sound D Q E ((S.acquire i []).put i x) := h.put (by simp) (by simpa using hx)
  rwa [hset] at hput

/-- A session that ended, leaving `s'` committed. -/
theorem Sound.finish (h : Sound D Q E S) {history : List (π × α)} {s' : σ}
    (hInv : D.Inv history s')
    (hkeep : D.Rely (fun k => S.holder k ≠ some i) S.committed s') :
    Sound D Q E ({ S with committed := s', history := history }.finish i) := by
  refine ⟨hInv, fun k j hk hnone => ?_, fun j y hy => ?_⟩
  · by_cases hj : j = i
    · subst hj
      by_cases hki : S.holder k = some j <;> simp [Store.finish, hki] at hk
    · rw [congrFun (holder_finish_other hj) k] at hk
      exact h.owner k j hk (by simpa [Store.finish, hj] using hnone)
  by_cases hj : j = i
  · subst hj; simp [Store.finish] at hy
  · have hy' : S.sessions j = some y := by simpa [Store.finish, hj] using hy
    have hr : D.Rely (fun k => S.holder k = some j) S.committed s' :=
      ⟨hkeep.evolves, fun k hk => hkeep.keeps k (by simpa [hk] using hj)⟩
    rw [holder_finish_other hj]
    exact (h.sessions j y hy').stable hr

theorem Sound.rollback (h : Sound D Q E S) : Sound D Q E (S.finish i) :=
  h.finish h.inv (Rely.refl _)

/-- One statement of one session. -/
theorem Sound.advance [DecidableEq κ] {S' : Store σ κ ε α π} (h : Sound D Q E S)
    (hx : S.sessions i = some x) (hs : S.advance i x = some S') : Sound D Q E S' := by
  have hok := h.sessions i x hx
  have hlater : D.Later (fun k => S.holder k = some i) S.committed S.committed :=
    ⟨⟨_, h.inv⟩, Rely.refl _⟩
  obtain ⟨p, code, log, since⟩ := x
  cases code with
  | commit a =>
    obtain rfl := Option.some.inj hs
    obtain ⟨hInv, hev, hkeep, -⟩ := hok _ _ h.inv (Rely.refl _)
    exact h.finish hInv ⟨hev, hkeep⟩
  | throw e =>
    obtain rfl := Option.some.inj hs
    exact h.rollback
  | lock k next =>
    simp only [Store.advance] at hs
    split at hs
    · next hfree =>
      obtain rfl := Option.some.inj hs
      refine h.put (by simpa using hfree) ?_
      simpa using hok _ hlater
    · cases hs
  | select next =>
    obtain rfl := Option.some.inj hs
    exact h.put_unlocked (hok _ hlater)
  | selectForUpdate rows next =>
    simp only [Store.advance] at hs
    split at hs
    · next hfree =>
      obtain rfl := Option.some.inj hs
      exact h.put (List.all_eq_true.1 hfree) (hok _ hlater)
    · cases hs
  | selectSkipLocked rows next =>
    obtain rfl := Option.some.inj hs
    refine h.put (fun k hk => (List.mem_filter.1 hk).2) ?_
    exact hok _ hlater _ List.filter_sublist
  | write locks check effect next =>
    simp only [Store.advance] at hs
    have hwrite := hok _ hlater
    split at hs
    · next hfree =>
      cases hc : check (view S.committed log) with
      | some e =>
        rw [hc] at hs hwrite
        obtain rfl := Option.some.inj hs
        exact h.put_unlocked hwrite
      | none =>
        rw [hc] at hs hwrite
        obtain rfl := Option.some.inj hs
        exact h.put (List.all_eq_true.1 hfree) hwrite
    · cases hs

/-- What a session about to report an error owes. -/
theorem Sound.error (h : Sound D Q E S) (hx : S.sessions i = some x) {e : ε}
    (he : x.code = .throw e) : E x.request x.since e := by
  have hok := h.sessions i x hx
  rwa [he] at hok

/-- What a session about to commit owes. -/
theorem Sound.result (h : Sound D Q E S) (hx : S.sessions i = some x) {a : α}
    (ha : x.code = .commit a) :
    Q x.request x.since a S.committed (view S.committed x.log) := by
  have hok := h.sessions i x hx
  rw [ha] at hok
  exact (hok _ _ h.inv (Rely.refl _)).2.2.2

variable [DecidableEq κ] {init : σ → Prop} {body : π → Tx σ κ ε α}

/-- If every body keeps the discipline when it runs from any state the invariant
allows, then it is kept in every run of any number of sessions. -/
theorem run_sound (hinit : ∀ s, init s → D.Inv [] s)
    (hbody : ∀ p h s, D.Inv h s → D.Ok p (Q p h) (E p h) (body p) [] (fun _ => False) s)
    {ts : List (Move (Store σ κ ε α π) (Label π))} {S : Store σ κ ε α π}
    (hrun : (system init body).Run ts S) : Sound D Q E S := by
  refine hrun.invariant (I := Sound D Q E) ?_ ?_
  · rintro S ⟨hs, hh, hfree, hnone⟩
    refine ⟨hh ▸ hinit _ hs, fun k i hk => ?_, fun i x hx => ?_⟩
    · simp [hfree k] at hk
    · simp [hnone i] at hx
  · intro S a S' h hs
    cases a with
    | begin i p =>
      simp only [system] at hs
      split at hs
      · next hnone =>
        obtain rfl := Option.some.inj hs
        refine h.put_unlocked ?_
        have hheld : (fun k => S.holder k = some i) = fun _ => False := by
          funext k
          have := h.owner k i
          simp_all
        rw [hheld]
        exact hbody p S.history S.committed h.inv
      · cases hs
    | advance i =>
      simp only [system, Option.bind_eq_some_iff] at hs
      obtain ⟨x, hx, hs⟩ := hs
      exact h.advance hx hs
    | abort i =>
      simp only [system] at hs
      split at hs
      · obtain rfl := Option.some.inj hs
        exact h.rollback
      · cases hs

end Soundness

end Discipline

end ReadCommitted
