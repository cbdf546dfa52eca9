import RouteFast.Reliability.Inbox

/-! Bounded retry. A message, its retry copies and its dead letter are instances that lie in a
queue or are held by a delivery, which is kept as the call of `RmqReliabilityService.handle` it
is about to make. -/

namespace RouteFast

open Transition

/-- `properties.headers`; only the two `x-routefast-` ones are ever looked at. -/
structure RmqHeaders where
  retryCount : Option ℕ
  deadLettered : Bool
  others : List (String × String)

structure RmqMessage (κ : Type*) where
  content : κ
  messageId : Option String
  contentType : Option String
  headers : RmqHeaders

/-- The configuration, and how a message is read. -/
structure RmqReliability (κ : Type*) where
  maxRetries : ℕ
  /-- `typeof channel.waitForConfirms === 'function'` -/
  confirms : Bool
  decode : κ → EventType × ReliableIntegrationEvent

/-- The call of `handle` a delivery is about to make. `copy` is the instance that was sent, if
the broker has taken it. -/
inductive HandlePc (δ ε : Type*) where
  | processing (call : Call δ ε)
  | acking
  | assertingRetryQueue
  | assertingDlq
  | sending
  | confirming (copy : Option ℕ)
  | finalAck (copy : ℕ)
  /-- `handle` is over, and the broker still waits for the ack. -/
  | unacked

inductive Place (δ ε : Type*) where
  | main
  | retry
  | dlq
  | delivered (pc : HandlePc δ ε)
  | acked

structure Instance (κ δ ε : Type*) where
  message : RmqMessage κ
  place : Place δ ε

namespace RmqMessage

variable {κ : Type*}

/-- A message that has not been retried yet. -/
def fresh (content : κ) (messageId contentType : Option String)
    (others : List (String × String)) : RmqMessage κ :=
  ⟨content, messageId, contentType, ⟨none, false, others⟩⟩

/-- `Number(headers['x-routefast-retry-count'] ?? 0)` -/
def retryCount (m : RmqMessage κ) : ℕ := m.headers.retryCount.getD 0

/-- The message of `sendToQueue(retryQueue, ..)`. -/
def retried (m : RmqMessage κ) : RmqMessage κ where
  content := m.content
  messageId := m.messageId
  contentType := some (m.contentType.getD "application/json")
  headers := { m.headers with retryCount := some (m.retryCount + 1) }

/-- The message of `sendToQueue(dlq, ..)`. -/
def deadLetter (m : RmqMessage κ) : RmqMessage κ where
  content := m.content
  messageId := m.messageId
  contentType := some (m.contentType.getD "application/json")
  headers := { m.headers with
    retryCount := some m.retryCount
    deadLettered := true }

@[simp] theorem retryCount_fresh (content : κ) (messageId contentType : Option String)
    (others : List (String × String)) :
    (fresh content messageId contentType others).retryCount = 0 := rfl

@[simp] theorem retryCount_retried (m : RmqMessage κ) : m.retried.retryCount = m.retryCount + 1 :=
  rfl

@[simp] theorem retryCount_deadLetter (m : RmqMessage κ) :
    m.deadLetter.retryCount = m.retryCount := rfl

end RmqMessage

inductive AckOutcome where
  | done
  /-- The call returns, and the channel closes before the broker has seen the ack. -/
  | lost
  | thrown
  deriving DecidableEq

inductive SendOutcome where
  | accepted
  /-- The call returns, and the broker never takes the message. -/
  | lost
  | thrown
  deriving DecidableEq

inductive RetryLabel (δ ε : Type*) where
  | deliver (i : ℕ) (operation : Proc δ ε Unit)
  /-- The next statement of `inbox.process`. -/
  | inbox (i : ℕ) (now : Date)
  /-- The database rejects that statement. -/
  | inboxRejects (i : ℕ)
  | ack (i : ℕ) (outcome : AckOutcome)
  | assertQueue (i : ℕ) (ok : Bool)
  | send (i copy : ℕ) (outcome : SendOutcome)
  | confirm (i : ℕ) (ok : Bool)
  /-- The message leaves the retry queue for the main queue. -/
  | expire (i : ℕ)
  /-- The channel of the delivery closes, or its process crashes. -/
  | close (i : ℕ)
  /-- Other messages, and deliveries that have lost their channel, go on. -/
  | database (service : Service δ)

/-- No crash and no error of the broker. -/
def RetryLabel.Calm {δ ε : Type*} : RetryLabel δ ε → Prop
  | .ack _ outcome => outcome = .done
  | .assertQueue _ ok | .confirm _ ok => ok = true
  | .send _ _ outcome => outcome = .accepted
  | .close _ => False
  | .deliver _ _ | .inbox _ _ | .inboxRejects _ | .expire _ | .database _ => True

instance {δ ε : Type*} : DecidablePred (RetryLabel.Calm (δ := δ) (ε := ε))
  | .ack _ outcome => inferInstanceAs (Decidable (outcome = .done))
  | .assertQueue _ ok | .confirm _ ok => inferInstanceAs (Decidable (ok = true))
  | .send _ _ outcome => inferInstanceAs (Decidable (outcome = .accepted))
  | .close _ => inferInstanceAs (Decidable False)
  | .deliver _ _ | .inbox _ _ | .inboxRejects _ | .expire _ | .database _ =>
    inferInstanceAs (Decidable True)

/-- The instances of one message, and how many of their deliveries began, failed or were
acknowledged after `process` had returned. -/
structure RetryState (κ δ ε : Type*) where
  service : Service δ
  copies : ℕ → Option (Instance κ δ ε)
  delivered : ℕ
  failed : ℕ
  succeeded : Bool

namespace RetryState

variable {κ δ ε : Type*}

def put (S : RetryState κ δ ε) (i : ℕ) (m : RmqMessage κ) (place : Place δ ε) :
    RetryState κ δ ε :=
  { S with copies := Function.update S.copies i (some ⟨m, place⟩) }

/-- The delivery enters the `catch`. -/
def fail (S : RetryState κ δ ε) (i : ℕ) (m : RmqMessage κ) : RetryState κ δ ε :=
  { S with failed := S.failed + 1 }.put i m (.delivered .assertingRetryQueue)

end RetryState

namespace RmqReliability

variable {κ δ ε : Type*} (R : RmqReliability κ)

/-- What a failed delivery sends. -/
def copy (m : RmqMessage κ) : RmqMessage κ :=
  if m.retryCount < R.maxRetries then m.retried else m.deadLetter

/-- Where it sends it. -/
def copyPlace (m : RmqMessage κ) : Place δ ε :=
  if m.retryCount < R.maxRetries then .retry else .dlq

/-- What follows `sendToQueue`, once the broker has taken the copy. -/
def sent (copy : ℕ) : HandlePc δ ε := if R.confirms then .confirming (some copy) else .finalAck copy

def step (S : RetryState κ δ ε) : RetryLabel δ ε → Option (RetryState κ δ ε)
  | .deliver i operation =>
    match S.copies i with
    | some ⟨m, .main⟩ =>
      let (eventType, event) := R.decode m.content
      some ({ S with delivered := S.delivered + 1 }.put i m
        (.delivered (.processing (.process eventType event operation))))
    | _ => none
  | .inbox i now =>
    match S.copies i with
    | some ⟨m, .delivered (.processing call)⟩ =>
      match call.pc with
      | .returned _ => some (S.put i m (.delivered .acking))
      | .thrown _ => some (S.fail i m)
      | _ => (call.step now S.service).map fun (service, call') =>
          ({ S with service } : RetryState κ δ ε).put i m (.delivered (.processing call'))
    | _ => none
  | .inboxRejects i =>
    match S.copies i with
    | some ⟨m, .delivered (.processing call)⟩ =>
      match call.pc with
      | .returned _ | .thrown _ => none
      -- `process` catches what its insert throws, and looks the row up again
      | .insert =>
        some (S.put i m (.delivered (.processing { call with pc := .findRaced })))
      | _ => some (S.fail i m)
    | _ => none
  | .ack i outcome =>
    match S.copies i, outcome with
    | some ⟨m, .delivered .acking⟩, .done => some ({ S with succeeded := true }.put i m .acked)
    | some ⟨m, .delivered .acking⟩, .lost => some (S.put i m (.delivered .unacked))
    | some ⟨m, .delivered .acking⟩, .thrown => some (S.fail i m)
    | some ⟨m, .delivered (.finalAck _)⟩, .done => some (S.put i m .acked)
    | some ⟨m, .delivered (.finalAck _)⟩, _ => some (S.put i m (.delivered .unacked))
    | _, _ => none
  | .assertQueue i ok =>
    match S.copies i with
    | some ⟨m, .delivered .assertingRetryQueue⟩ =>
      some (S.put i m (.delivered (if ok then .assertingDlq else .unacked)))
    | some ⟨m, .delivered .assertingDlq⟩ =>
      some (S.put i m (.delivered (if ok then .sending else .unacked)))
    | _ => none
  | .send i k outcome =>
    match S.copies i, outcome with
    | some ⟨m, .delivered .sending⟩, .accepted =>
      if (S.copies k).isNone then
        some ((S.put k (R.copy m) (R.copyPlace m)).put i m (.delivered (R.sent k)))
      else none
    | some ⟨m, .delivered .sending⟩, .lost =>
      -- without confirms, a copy that was handed over counts as taken
      if R.confirms then some (S.put i m (.delivered (.confirming none))) else none
    | some ⟨m, .delivered .sending⟩, .thrown => some (S.put i m (.delivered .unacked))
    | _, _ => none
  | .confirm i ok =>
    match S.copies i, ok with
    | some ⟨m, .delivered (.confirming (some k))⟩, true => some (S.put i m (.delivered (.finalAck k)))
    | some ⟨m, .delivered (.confirming _)⟩, false => some (S.put i m (.delivered .unacked))
    | _, _ => none
  | .expire i =>
    match S.copies i with
    | some ⟨m, .retry⟩ => some (S.put i m .main)
    | _ => none
  | .close i =>
    match S.copies i with
    | some ⟨m, .delivered _⟩ => some (S.put i m .main)
    | _ => none
  | .database service => some { S with service }

/-- The life of one message, from its first place in the main queue. -/
def system (m : RmqMessage κ) : System (RetryState κ δ ε) (RetryLabel δ ε) where
  init S := S.copies = Function.update (fun _ => none) 0 (some ⟨m, .main⟩) ∧ S.delivered = 0 ∧
    S.failed = 0 ∧ S.succeeded = false
  step := R.step

end RmqReliability

namespace RetryState

variable {κ δ ε : Type*}

/-- No delivery is in progress. -/
def BetweenDeliveries (S : RetryState κ δ ε) : Prop :=
  ∀ i c pc, S.copies i = some c → c.place ≠ .delivered pc

/-- Until a delivery has succeeded there is an instance in a queue or in need of an ack, and one
that waits for its final ack has a copy. -/
structure WithoutLoss (R : RmqReliability κ) (S : RetryState κ δ ε) : Prop where
  kept : S.succeeded = true ∨ ∃ i c, S.copies i = some c ∧ c.place ≠ .acked
  copied : ∀ i m k, S.copies i = some ⟨m, .delivered (.finalAck k)⟩ →
    ∃ place, S.copies k = some ⟨R.copy m, place⟩

/-- The one instance there is between deliveries, while none of them has succeeded. -/
structure OnlyCopy (R : RmqReliability κ) (m : RmqMessage κ) (S : RetryState κ δ ε) (i : ℕ)
    (c : Instance κ δ ε) : Prop where
  there : S.copies i = some c
  queued : c.place = .main ∨ c.place = .retry ∨ c.place = .dlq
  only : ∀ j c', S.copies j = some c' → c'.place ≠ .acked → j = i
  content : c.message.content = m.content
  messageId : c.message.messageId = m.messageId
  retryCount : c.place ≠ .dlq → c.message.retryCount = S.failed
  stops : c.place = .dlq → c.message.retryCount = R.maxRetries
  dead : c.place = .dlq ↔ S.failed = R.maxRetries + 1

structure Bounded (R : RmqReliability κ) (m : RmqMessage κ) (S : RetryState κ δ ε) : Prop where
  deliveries : S.delivered ≤ R.maxRetries + 1
  one : S.succeeded = false → S.BetweenDeliveries → ∃ i c, OnlyCopy R m S i c

end RetryState

namespace RmqReliability

variable {κ δ ε : Type*} {R : RmqReliability κ} {S S' : RetryState κ δ ε} {label : RetryLabel δ ε}
  {m : RmqMessage κ}

/-- Everything a step can be. -/
inductive Effect (R : RmqReliability κ) (S : RetryState κ δ ε) :
    RetryLabel δ ε → RetryState κ δ ε → Prop
  | deliver (i : ℕ) (m : RmqMessage κ) (operation : Proc δ ε Unit) (call : Call δ ε) :
      S.copies i = some ⟨m, .main⟩ →
      Effect R S (.deliver i operation)
        ({ S with delivered := S.delivered + 1 }.put i m (.delivered (.processing call)))
  | inbox (i : ℕ) (m : RmqMessage κ) (call call' : Call δ ε) (service : Service δ)
      (label : RetryLabel δ ε) : S.copies i = some ⟨m, .delivered (.processing call)⟩ →
      Effect R S label
        (({ S with service } : RetryState κ δ ε).put i m (.delivered (.processing call')))
  | returned (i : ℕ) (now : Date) (m : RmqMessage κ) (call : Call δ ε) :
      S.copies i = some ⟨m, .delivered (.processing call)⟩ →
      Effect R S (.inbox i now) (S.put i m (.delivered .acking))
  | failed (i : ℕ) (m : RmqMessage κ) (call : Call δ ε) (label : RetryLabel δ ε) :
      S.copies i = some ⟨m, .delivered (.processing call)⟩ → Effect R S label (S.fail i m)
  | ackThrown (i : ℕ) (m : RmqMessage κ) : S.copies i = some ⟨m, .delivered .acking⟩ →
      Effect R S (.ack i .thrown) (S.fail i m)
  | acked (i : ℕ) (m : RmqMessage κ) : S.copies i = some ⟨m, .delivered .acking⟩ →
      Effect R S (.ack i .done) ({ S with succeeded := true }.put i m .acked)
  | retryQueue (i : ℕ) (m : RmqMessage κ) :
      S.copies i = some ⟨m, .delivered .assertingRetryQueue⟩ →
      Effect R S (.assertQueue i true) (S.put i m (.delivered .assertingDlq))
  | deadLetterQueue (i : ℕ) (m : RmqMessage κ) :
      S.copies i = some ⟨m, .delivered .assertingDlq⟩ →
      Effect R S (.assertQueue i true) (S.put i m (.delivered .sending))
  | sent (i k : ℕ) (m : RmqMessage κ) : S.copies i = some ⟨m, .delivered .sending⟩ →
      S.copies k = none → Effect R S (.send i k .accepted)
        ((S.put k (R.copy m) (R.copyPlace m)).put i m (.delivered (R.sent k)))
  | sentLost (i k : ℕ) (m : RmqMessage κ) : S.copies i = some ⟨m, .delivered .sending⟩ →
      Effect R S (.send i k .lost) (S.put i m (.delivered (.confirming none)))
  | confirmed (i k : ℕ) (m : RmqMessage κ) :
      S.copies i = some ⟨m, .delivered (.confirming (some k))⟩ →
      Effect R S (.confirm i true) (S.put i m (.delivered (.finalAck k)))
  | finalAcked (i k : ℕ) (m : RmqMessage κ) :
      S.copies i = some ⟨m, .delivered (.finalAck k)⟩ →
      Effect R S (.ack i .done) (S.put i m .acked)
  | unacked (i : ℕ) (m : RmqMessage κ) (pc : HandlePc δ ε) (label : RetryLabel δ ε) :
      S.copies i = some ⟨m, .delivered pc⟩ → ¬ label.Calm →
      Effect R S label (S.put i m (.delivered .unacked))
  | expire (i : ℕ) (m : RmqMessage κ) : S.copies i = some ⟨m, .retry⟩ →
      Effect R S (.expire i) (S.put i m .main)
  | close (i : ℕ) (m : RmqMessage κ) (pc : HandlePc δ ε) : S.copies i = some ⟨m, .delivered pc⟩ →
      Effect R S (.close i) (S.put i m .main)
  | database (service : Service δ) : Effect R S (.database service) { S with service }

theorem step_effect (h : R.step S label = some S') : Effect R S label S' := by
  cases label with
  | deliver i operation =>
    simp only [step] at h
    split at h
    · next m hi =>
      obtain rfl := Option.some.inj h
      exact .deliver i m operation _ hi
    · cases h
  | inbox i now =>
    simp only [step] at h
    split at h
    · next m call hi =>
      split at h
      · obtain rfl := Option.some.inj h
        exact .returned i now m call hi
      · obtain rfl := Option.some.inj h
        exact .failed i m call _ hi
      · obtain ⟨⟨service, call'⟩, -, rfl⟩ := Option.map_eq_some_iff.1 h
        exact .inbox i m call call' service _ hi
    · cases h
  | inboxRejects i =>
    simp only [step] at h
    split at h
    · next m call hi =>
      split at h
      · cases h
      · cases h
      · obtain rfl := Option.some.inj h
        exact .inbox i m call _ S.service _ hi
      · obtain rfl := Option.some.inj h
        exact .failed i m call _ hi
    · cases h
  | ack i outcome =>
    simp only [step] at h
    split at h
    · next m hi =>
      obtain rfl := Option.some.inj h
      exact .acked i m hi
    · next m hi =>
      obtain rfl := Option.some.inj h
      exact .unacked i m _ _ hi (by simp [RetryLabel.Calm])
    · next m hi =>
      obtain rfl := Option.some.inj h
      exact .ackThrown i m hi
    · next m k hi =>
      obtain rfl := Option.some.inj h
      exact .finalAcked i k m hi
    · next m k hi hne =>
      obtain rfl := Option.some.inj h
      exact .unacked i m _ _ hi fun hdone => hne hdone
    · cases h
  | assertQueue i ok =>
    simp only [step] at h
    split at h
    · next m hi =>
      obtain rfl := Option.some.inj h
      cases ok with
      | true => exact .retryQueue i m hi
      | false => exact .unacked i m _ _ hi (by simp [RetryLabel.Calm])
    · next m hi =>
      obtain rfl := Option.some.inj h
      cases ok with
      | true => exact .deadLetterQueue i m hi
      | false => exact .unacked i m _ _ hi (by simp [RetryLabel.Calm])
    · cases h
  | send i k outcome =>
    simp only [step] at h
    split at h
    · next m hi =>
      split at h
      · next hk =>
        obtain rfl := Option.some.inj h
        exact .sent i k m hi (by simpa using hk)
      · cases h
    · next m hi =>
      split at h
      · obtain rfl := Option.some.inj h
        exact .sentLost i k m hi
      · cases h
    · next m hi =>
      obtain rfl := Option.some.inj h
      exact .unacked i m _ _ hi (by simp [RetryLabel.Calm])
    · cases h
  | confirm i ok =>
    simp only [step] at h
    split at h
    · next m k hi =>
      obtain rfl := Option.some.inj h
      exact .confirmed i k m hi
    · next m k hi =>
      obtain rfl := Option.some.inj h
      exact .unacked i m _ _ hi (by simp [RetryLabel.Calm])
    · cases h
  | expire i =>
    simp only [step] at h
    split at h
    · next m hi =>
      obtain rfl := Option.some.inj h
      exact .expire i m hi
    · cases h
  | close i =>
    simp only [step] at h
    split at h
    · next m pc hi =>
      obtain rfl := Option.some.inj h
      exact .close i m pc hi
    · cases h
  | database service =>
    obtain rfl := Option.some.inj h
    exact .database service

end RmqReliability

namespace Place

variable {κ δ ε : Type*}

/-- The copy that takes the place of the instance once it is acked. -/
def copy : Place δ ε → Option ℕ
  | .delivered (.confirming copy) => copy
  | .delivered (.finalAck copy) => some copy
  | .main | .retry | .dlq | .acked => none
  | .delivered (.processing _) | .delivered .acking | .delivered .assertingRetryQueue
  | .delivered .assertingDlq | .delivered .sending | .delivered .unacked => none

/-- The instance is gone, or its copy has taken its place. -/
def Spent (p : Place δ ε) : Prop := p = .acked ∨ p.copy ≠ none

theorem not_spent {p : Place δ ε} (hacked : p ≠ .acked) (hcopy : p.copy = none) : ¬ p.Spent := by
  rintro (h | h)
  · exact hacked h
  · exact h hcopy

/-- Where the message stands, by its header and by the number of deliveries. -/
def Stage (R : RmqReliability κ) (S : RetryState κ δ ε) (retryCount : ℕ) : Place δ ε → Prop
  | .main | .retry =>
    retryCount = S.failed ∧ S.failed ≤ R.maxRetries ∧ S.delivered = S.failed
  | .dlq => retryCount = R.maxRetries ∧ S.failed = R.maxRetries + 1 ∧ S.delivered = S.failed
  | .delivered (.processing _) | .delivered .acking =>
    retryCount = S.failed ∧ S.failed ≤ R.maxRetries ∧ S.delivered = S.failed + 1
  | .delivered .assertingRetryQueue | .delivered .assertingDlq | .delivered .sending =>
    retryCount + 1 = S.failed ∧ S.failed ≤ R.maxRetries + 1 ∧ S.delivered = S.failed
  | .delivered (.confirming _) | .delivered (.finalAck _) | .delivered .unacked | .acked => False

end Place

namespace RetryState

variable {κ δ ε : Type*} {R : RmqReliability κ} {S S' : RetryState κ δ ε}
  {label : RetryLabel δ ε} {m m₀ : RmqMessage κ} {i k : ℕ} {p p' : Place δ ε}

@[simp] theorem put_copies_self : (S.put i m p).copies i = some ⟨m, p⟩ := by simp [put]

@[simp] theorem put_copies_ne (h : k ≠ i) : (S.put i m p).copies k = S.copies k := by
  simp [put, h]

/-- No run loses the message. -/
structure Safe (R : RmqReliability κ) (S : RetryState κ δ ε) : Prop where
  kept : S.succeeded = true ∨ ∃ i c, S.copies i = some c ∧ ¬ c.place.Spent
  copied : ∀ i m p k, S.copies i = some ⟨m, p⟩ → p.copy = some k →
    ∃ place, S.copies k = some ⟨R.copy m, place⟩

theorem Safe.withoutLoss (h : S.Safe R) : S.WithoutLoss R where
  kept := h.kept.imp_right fun ⟨i, c, hc, hlive⟩ =>
    ⟨i, c, hc, fun hacked => hlive (Or.inl hacked)⟩
  copied i m k hi := h.copied i m _ k hi rfl

/-- An instance keeps its message when it moves. -/
theorem message_put (hi : S.copies i = some ⟨m, p⟩) {n : RmqMessage κ}
    (hk : ∃ q, S.copies k = some ⟨n, q⟩) : ∃ q, (S.put i m p').copies k = some ⟨n, q⟩ := by
  by_cases hki : k = i
  · subst hki
    obtain ⟨q, hq⟩ := hk
    obtain ⟨rfl, -⟩ : m = n ∧ p = q := by simpa [hi] using hq
    exact ⟨p', by simp⟩
  · simpa [hki] using hk

theorem Safe.copied_put (h : S.Safe R) (hi : S.copies i = some ⟨m, p⟩)
    (hp : ∀ k, p'.copy = some k → ∃ q, S.copies k = some ⟨R.copy m, q⟩) :
    ∀ j n q k, (S.put i m p').copies j = some ⟨n, q⟩ → q.copy = some k →
      ∃ place, (S.put i m p').copies k = some ⟨R.copy n, place⟩ := by
  intro j n q k hj hq
  refine message_put hi ?_
  by_cases hji : j = i
  · subst hji
    obtain ⟨rfl, rfl⟩ : m = n ∧ p' = q := by simpa using hj
    exact hp k hq
  · exact h.copied j n q k (by simpa [hji] using hj) hq

/-- An instance moves and is not spent by it. -/
theorem Safe.move (h : S.Safe R) (hi : S.copies i = some ⟨m, p⟩) (hacked : p' ≠ .acked)
    (hcopy : p'.copy = none) : (S.put i m p').Safe R where
  kept := Or.inr ⟨i, _, put_copies_self, Place.not_spent hacked hcopy⟩
  copied := h.copied_put hi fun k hk => by simp [hcopy] at hk

/-- A spent instance moves; the live one is another. -/
theorem Safe.moveSpent (h : S.Safe R) (hi : S.copies i = some ⟨m, p⟩) (hspent : p.Spent)
    (hp : ∀ k, p'.copy = some k → ∃ q, S.copies k = some ⟨R.copy m, q⟩) :
    (S.put i m p').Safe R where
  kept := h.kept.imp_right fun ⟨j, c, hc, hlive⟩ => by
    have hji : j ≠ i := by
      rintro rfl
      obtain rfl := Option.some.inj (hi.symm.trans hc)
      exact hlive hspent
    exact ⟨j, c, by simpa [hji] using hc, hlive⟩
  copied := h.copied_put hi hp

/-- Nothing but the counters or the database changes. -/
theorem Safe.same (h : S.Safe R) (hcopies : S'.copies = S.copies)
    (hsucceeded : S.succeeded = true → S'.succeeded = true) : S'.Safe R :=
  ⟨hcopies.symm ▸ h.kept.imp_left hsucceeded, hcopies.symm ▸ h.copied⟩

theorem copy_copyPlace (R : RmqReliability κ) (m : RmqMessage κ) :
    (R.copyPlace m : Place δ ε) ≠ .acked ∧ (R.copyPlace m : Place δ ε).copy = none := by
  unfold RmqReliability.copyPlace
  split <;> exact ⟨nofun, rfl⟩

theorem copy_sent (R : RmqReliability κ) (k : ℕ) :
    (Place.delivered (R.sent k) : Place δ ε).copy = some k := by
  unfold RmqReliability.sent
  split <;> rfl

theorem Safe.sent (h : S.Safe R) (hi : S.copies i = some ⟨m, p⟩) (hk : S.copies k = none) :
    ((S.put k (R.copy m) (R.copyPlace m)).put i m (.delivered (R.sent k))).Safe R := by
  have hki : k ≠ i := fun hki => by simp [hki, hi] at hk
  obtain ⟨hacked, hnone⟩ := copy_copyPlace (δ := δ) (ε := ε) R m
  refine ⟨Or.inr ⟨k, ⟨R.copy m, R.copyPlace m⟩, by simp [hki], Place.not_spent hacked hnone⟩, ?_⟩
  intro j n q l hj hq
  have hl : ∃ place, (S.put k (R.copy m) (R.copyPlace m)).copies l = some ⟨R.copy n, place⟩ := by
    by_cases hji : j = i
    · subst hji
      obtain ⟨rfl, rfl⟩ : m = n ∧ _ = q := by simpa using hj
      obtain rfl : k = l := by simpa [copy_sent] using hq
      exact ⟨_, put_copies_self⟩
    · by_cases hjk : j = k
      · subst hjk
        obtain ⟨-, rfl⟩ : R.copy m = n ∧ _ = q := by simpa [hji] using hj
        simp [hnone] at hq
      · obtain ⟨place, hplace⟩ := h.copied j n q l (by simpa [hji, hjk] using hj) hq
        have hlk : l ≠ k := fun hlk => by simp [hlk, hk] at hplace
        exact ⟨place, by simpa [hlk] using hplace⟩
  exact message_put (p := p) (by simpa [hki.symm] using hi) hl

theorem Safe.step (h : S.Safe R) (hs : RmqReliability.Effect R S label S') : S'.Safe R := by
  cases hs with
  | deliver i m operation call hi =>
    have hsafe : ({ S with delivered := S.delivered + 1 } : RetryState κ δ ε).Safe R :=
      h.same rfl id
    exact hsafe.move hi nofun rfl
  | inbox i m call call' service label hi =>
    have hsafe : ({ S with service } : RetryState κ δ ε).Safe R := h.same rfl id
    exact hsafe.move hi nofun rfl
  | returned i now m call hi => exact h.move hi nofun rfl
  | failed i m call label hi =>
    have hsafe : ({ S with failed := S.failed + 1 } : RetryState κ δ ε).Safe R := h.same rfl id
    exact hsafe.move hi nofun rfl
  | ackThrown i m hi =>
    have hsafe : ({ S with failed := S.failed + 1 } : RetryState κ δ ε).Safe R := h.same rfl id
    exact hsafe.move hi nofun rfl
  | acked i m hi =>
    have hsafe : ({ S with succeeded := true } : RetryState κ δ ε).Safe R := h.same rfl fun _ => rfl
    exact ⟨Or.inl rfl, hsafe.copied_put hi fun k hk => by cases hk⟩
  | retryQueue i m hi => exact h.move hi nofun rfl
  | deadLetterQueue i m hi => exact h.move hi nofun rfl
  | sent i k m hi hk => exact h.sent hi hk
  | sentLost i k m hi => exact h.move hi nofun rfl
  | confirmed i k m hi =>
    exact h.moveSpent hi (Or.inr nofun) fun l hl => h.copied i m _ l hi hl
  | finalAcked i k m hi => exact h.moveSpent hi (Or.inr nofun) fun l hl => by cases hl
  | unacked i m pc label hi => exact h.move hi nofun rfl
  | expire i m hi => exact h.move hi nofun rfl
  | close i m pc hi => exact h.move hi nofun rfl
  | database service => exact h.same rfl id

/-- The one instance that is not spent, with the message as it was but for its header. -/
structure Live (R : RmqReliability κ) (m₀ : RmqMessage κ) (S : RetryState κ δ ε) (i : ℕ)
    (m : RmqMessage κ) (p : Place δ ε) : Prop where
  there : S.copies i = some ⟨m, p⟩
  content : m.content = m₀.content
  messageId : m.messageId = m₀.messageId
  stage : p.Stage R S m.retryCount
  others : ∀ j c, S.copies j = some c → j ≠ i → c.place.Spent

/-- What holds while neither the broker nor a process fails. -/
structure Calm (R : RmqReliability κ) (m₀ : RmqMessage κ) (S : RetryState κ δ ε) : Prop where
  deliveries : S.delivered ≤ R.maxRetries + 1
  live : S.succeeded = false → ∃ i m p, S.Live R m₀ i m p
  afterwards : S.succeeded = true → ∀ j c, S.copies j = some c → c.place.Spent

theorem not_spent_of_stage (h : p.Stage R S k) : ¬ p.Spent := by
  cases p with
  | delivered pc =>
    cases pc with
    | confirming | finalAck | unacked => cases h
    | processing | acking | assertingRetryQueue | assertingDlq | sending =>
      exact Place.not_spent nofun rfl
  | main | retry | dlq => exact Place.not_spent nofun rfl
  | acked => cases h

/-- An instance that is not spent is the live one. -/
theorem Calm.live_of_copies (h : S.Calm R m₀) (hi : S.copies i = some ⟨m, p⟩) (hp : ¬ p.Spent) :
    S.succeeded = false ∧ S.Live R m₀ i m p := by
  have hfalse : S.succeeded = false := by
    cases hsucceeded : S.succeeded with
    | false => rfl
    | true => exact absurd (h.afterwards hsucceeded i _ hi) hp
  obtain ⟨j, n, q, hlive⟩ := h.live hfalse
  obtain rfl : i = j := by
    by_contra hij
    exact hp (hlive.others i _ hi hij)
  obtain ⟨rfl, rfl⟩ : m = n ∧ p = q := by simpa [hi] using hlive.there
  exact ⟨hfalse, hlive⟩

/-- The live instance moves on. -/
theorem Live.move {T : RetryState κ δ ε} (h : S.Live R m₀ i m p) (hcopies : T.copies = S.copies)
    (hfalse : T.succeeded = false) (hle : T.delivered ≤ R.maxRetries + 1)
    (hstage : p'.Stage R T m.retryCount) : (T.put i m p').Calm R m₀ := by
  refine ⟨hle, fun _ => ⟨i, m, p', put_copies_self, h.content, h.messageId, ?_, ?_⟩,
    fun htrue => ?_⟩
  · cases p' with
    | delivered pc => cases pc <;> exact hstage
    | main | retry | dlq | acked => exact hstage
  · intro j c hj hji
    rw [put_copies_ne hji, hcopies] at hj
    exact h.others j c hj hji
  · have hsucceeded : T.succeeded = true := htrue
    simp [hfalse] at hsucceeded

/-- The live instance fails: its delivery counts. -/
theorem Live.fail (h : S.Live R m₀ i m p) (hfalse : S.succeeded = false)
    (hstage : m.retryCount = S.failed ∧ S.failed ≤ R.maxRetries ∧ S.delivered = S.failed + 1) :
    (S.fail i m).Calm R m₀ := by
  obtain ⟨hcount, hle, hdelivered⟩ := hstage
  refine h.move (T := { S with failed := S.failed + 1 }) rfl hfalse ?_ ⟨?_, ?_, hdelivered⟩
  · show S.delivered ≤ _
    omega
  · show m.retryCount + 1 = S.failed + 1
    omega
  · show S.failed + 1 ≤ _
    omega

/-- A spent instance moves. -/
theorem Calm.moveSpent (h : S.Calm R m₀) (hi : S.copies i = some ⟨m, p⟩) (hp : p.Spent)
    (hp' : p'.Spent) : (S.put i m p').Calm R m₀ := by
  refine ⟨h.deliveries, fun hfalse => ?_, fun htrue j c hj => ?_⟩
  · obtain ⟨k, n, q, hlive⟩ := h.live hfalse
    have hki : k ≠ i := by
      rintro rfl
      obtain ⟨-, rfl⟩ : m = n ∧ p = q := by simpa [hi] using hlive.there
      exact not_spent_of_stage hlive.stage hp
    refine ⟨k, n, q, by simpa [hki] using hlive.there, hlive.content, hlive.messageId, ?_, ?_⟩
    · cases q with
      | delivered pc => cases pc <;> exact hlive.stage
      | main | retry | dlq | acked => exact hlive.stage
    · intro j c hj hjk
      by_cases hji : j = i
      · subst hji
        obtain rfl : _ = c := by simpa using hj
        exact hp'
      · exact hlive.others j c (by simpa [hji] using hj) hjk
  · by_cases hji : j = i
    · subst hji
      obtain rfl : _ = c := by simpa using hj
      exact hp'
    · exact h.afterwards htrue j c (by simpa [hji] using hj)

/-- A failed delivery sends a retry, or the dead letter once the retries are used up. -/
theorem stage_copy (hcount : m.retryCount + 1 = S.failed) (hle : S.failed ≤ R.maxRetries + 1)
    (hdelivered : S.delivered = S.failed) :
    (R.copyPlace m).Stage R S (R.copy m).retryCount := by
  unfold RmqReliability.copyPlace RmqReliability.copy
  by_cases hretry : m.retryCount < R.maxRetries
  · simp only [hretry, if_true]
    exact ⟨hcount, by omega, hdelivered⟩
  · simp only [hretry, if_false]
    exact ⟨by simp only [RmqMessage.retryCount_deadLetter]; omega, by omega, hdelivered⟩

theorem copy_content (R : RmqReliability κ) (m : RmqMessage κ) :
    (R.copy m).content = m.content ∧ (R.copy m).messageId = m.messageId := by
  unfold RmqReliability.copy
  split <;> exact ⟨rfl, rfl⟩

/-- The copy takes over. -/
theorem Live.sent (h : S.Live R m₀ i m (.delivered .sending)) (hfalse : S.succeeded = false)
    (hle : S.delivered ≤ R.maxRetries + 1) (hk : S.copies k = none) :
    ((S.put k (R.copy m) (R.copyPlace m)).put i m (.delivered (R.sent k))).Calm R m₀ := by
  have hki : k ≠ i := fun hki => by
    have hthere := h.there
    simp [← hki, hk] at hthere
  obtain ⟨hcontent, hid⟩ := copy_content R m
  have hstage := stage_copy (δ := δ) (ε := ε) h.stage.1 h.stage.2.1 h.stage.2.2
  have hspent : (Place.delivered (R.sent k) : Place δ ε).Spent :=
    Or.inr (by rw [copy_sent]; exact Option.some_ne_none k)
  refine ⟨hle, fun _ => ⟨k, R.copy m, R.copyPlace m, by simp [hki], hcontent.trans h.content,
    hid.trans h.messageId, ?_, fun j c hj hjk => ?_⟩, fun htrue => ?_⟩
  · generalize (R.copyPlace m : Place δ ε) = q at hstage
    cases q with
    | delivered pc => cases pc <;> exact hstage
    | main | retry | dlq | acked => exact hstage
  · by_cases hji : j = i
    · subst hji
      obtain rfl : _ = c := by simpa using hj
      exact hspent
    · exact h.others j c (by simpa [hji, hjk] using hj) hji
  · have hsucceeded : S.succeeded = true := htrue
    simp [hfalse] at hsucceeded

theorem Calm.step (h : S.Calm R m₀) (hs : RmqReliability.Effect R S label S')
    (hcalm : label.Calm) : S'.Calm R m₀ := by
  cases hs with
  | deliver i m operation call hi =>
    obtain ⟨hfalse, hlive⟩ := h.live_of_copies hi (Place.not_spent nofun rfl)
    obtain ⟨hcount, hle, hdelivered⟩ := hlive.stage
    refine hlive.move (T := { S with delivered := S.delivered + 1 }) rfl hfalse ?_
      ⟨hcount, hle, ?_⟩
    · show S.delivered + 1 ≤ _
      omega
    · show S.delivered + 1 = S.failed + 1
      omega
  | inbox i m call call' service label hi =>
    obtain ⟨hfalse, hlive⟩ := h.live_of_copies hi (Place.not_spent nofun rfl)
    exact hlive.move (T := { S with service }) rfl hfalse h.deliveries hlive.stage
  | returned i now m call hi =>
    obtain ⟨hfalse, hlive⟩ := h.live_of_copies hi (Place.not_spent nofun rfl)
    exact hlive.move rfl hfalse h.deliveries hlive.stage
  | failed i m call label hi =>
    obtain ⟨hfalse, hlive⟩ := h.live_of_copies hi (Place.not_spent nofun rfl)
    exact hlive.fail hfalse hlive.stage
  | ackThrown i m hi =>
    obtain ⟨hfalse, hlive⟩ := h.live_of_copies hi (Place.not_spent nofun rfl)
    exact hlive.fail hfalse hlive.stage
  | acked i m hi =>
    obtain ⟨-, hlive⟩ := h.live_of_copies hi (Place.not_spent nofun rfl)
    refine ⟨h.deliveries, fun hfalse => ?_, fun _ j c hj => ?_⟩
    · cases hfalse
    · by_cases hji : j = i
      · subst hji
        obtain rfl : _ = c := by simpa using hj
        exact Or.inl rfl
      · exact hlive.others j c (by simpa [hji] using hj) hji
  | retryQueue i m hi =>
    obtain ⟨hfalse, hlive⟩ := h.live_of_copies hi (Place.not_spent nofun rfl)
    exact hlive.move rfl hfalse h.deliveries hlive.stage
  | deadLetterQueue i m hi =>
    obtain ⟨hfalse, hlive⟩ := h.live_of_copies hi (Place.not_spent nofun rfl)
    exact hlive.move rfl hfalse h.deliveries hlive.stage
  | sent i k m hi hk =>
    obtain ⟨hfalse, hlive⟩ := h.live_of_copies hi (Place.not_spent nofun rfl)
    exact hlive.sent hfalse h.deliveries hk
  | sentLost i k m hi => cases hcalm
  | confirmed i k m hi => exact h.moveSpent hi (Or.inr nofun) (Or.inr nofun)
  | finalAcked i k m hi => exact h.moveSpent hi (Or.inr nofun) (Or.inl rfl)
  | unacked i m pc label hi hnot => exact absurd hcalm hnot
  | expire i m hi =>
    obtain ⟨hfalse, hlive⟩ := h.live_of_copies hi (Place.not_spent nofun rfl)
    exact hlive.move rfl hfalse h.deliveries hlive.stage
  | close i m pc hi => cases hcalm
  | database service =>
    refine ⟨h.deliveries, fun hfalse => ?_, h.afterwards⟩
    obtain ⟨i, m, p, hlive⟩ := h.live hfalse
    refine ⟨i, m, p, hlive.there, hlive.content, hlive.messageId, ?_, hlive.others⟩
    cases p with
    | delivered pc => cases pc <;> exact hlive.stage
    | main | retry | dlq | acked => exact hlive.stage

/-- What the stage says of a message that lies in a queue. -/
theorem queued_of_stage (h : p.Stage R S k) (hp : ∀ pc, p ≠ .delivered pc) :
    (p = .main ∨ p = .retry ∨ p = .dlq) ∧ (p ≠ .dlq → k = S.failed) ∧
      (p = .dlq → k = R.maxRetries) ∧ (p = .dlq ↔ S.failed = R.maxRetries + 1) := by
  cases p with
  | main =>
    obtain ⟨hcount, hle, -⟩ := h
    exact ⟨Or.inl rfl, fun _ => hcount, nofun, nofun, fun hdead => by omega⟩
  | retry =>
    obtain ⟨hcount, hle, -⟩ := h
    exact ⟨Or.inr (Or.inl rfl), fun _ => hcount, nofun, nofun, fun hdead => by omega⟩
  | dlq =>
    obtain ⟨hcount, hdead, -⟩ := h
    exact ⟨Or.inr (Or.inr rfl), fun hne => absurd rfl hne, fun _ => hcount, fun _ => hdead,
      fun _ => rfl⟩
  | delivered pc => exact absurd rfl (hp pc)
  | acked => cases h

/-- Between deliveries, the live instance is in a queue and the only one. -/
theorem Calm.bounded (h : S.Calm R m₀) : S.Bounded R m₀ := by
  refine ⟨h.deliveries, fun hfalse hbetween => ?_⟩
  obtain ⟨i, m, p, hlive⟩ := h.live hfalse
  obtain ⟨hqueued, hcount, hstops, hdead⟩ :=
    queued_of_stage hlive.stage fun pc => hbetween i _ pc hlive.there
  refine ⟨i, ⟨m, p⟩, hlive.there, hqueued, fun j c hj hacked => ?_, hlive.content,
    hlive.messageId, hcount, hstops, hdead⟩
  by_contra hji
  rcases hlive.others j c hj hji with hgone | hcopy
  · exact hacked hgone
  · cases hp : c.place with
    | delivered pc => exact hbetween j c pc hj hp
    | main | retry | dlq | acked => simp [hp, Place.copy] at hcopy

/-- No run loses the message, and in a calm run it is retried `maxRetries` times at most. -/
theorem bounded_withoutLoss {content : κ} {messageId contentType : Option String}
    {others : List (String × String)} {ts : List (Move (RetryState κ δ ε) (RetryLabel δ ε))}
    (hrun : (R.system (.fresh content messageId contentType others)).Run ts S) :
    S.WithoutLoss R ∧ ((∀ t ∈ ts, t.label.Calm) →
      S.Bounded R (.fresh content messageId contentType others)) := by
  constructor
  · refine (hrun.invariant (I := Safe R) ?_ fun S label S' h hs =>
      h.step (RmqReliability.step_effect hs)).withoutLoss
    rintro S ⟨hcopies, -, -, -⟩
    have hfirst : S.copies 0 = some ⟨.fresh content messageId contentType others, .main⟩ := by
      simp [hcopies]
    refine ⟨Or.inr ⟨0, _, hfirst, Place.not_spent nofun rfl⟩, fun i m p k hi hp => ?_⟩
    by_cases hzero : i = 0
    · subst hzero
      obtain ⟨-, rfl⟩ : _ = m ∧ Place.main = p := by simpa [hfirst] using hi
      cases hp
    · simp [hcopies, hzero] at hi
  · intro hcalm
    refine (hrun.invariant_of_steps (C := fun t => t.label.Calm)
      (I := Calm R (.fresh content messageId contentType others)) ?_ ?_ hcalm).bounded
    · rintro S ⟨hcopies, hdelivered, hfailed, hsucceeded⟩
      have hfirst : S.copies 0 = some ⟨.fresh content messageId contentType others, .main⟩ := by
        simp [hcopies]
      refine ⟨by simp [hdelivered], fun _ => ⟨0, _, .main, hfirst, rfl, rfl, ?_,
        fun j c hj hj0 => ?_⟩, fun htrue => ?_⟩
      · exact ⟨by simp [hfailed], by simp [hfailed], by rw [hdelivered, hfailed]⟩
      · simp [hcopies, hj0] at hj
      · simp [hsucceeded] at htrue
    · exact fun S label S' h hs hcalm => h.step (RmqReliability.step_effect hs) hcalm

section Runs

/-- One retry, on a channel with confirms. -/
def oneRetry : RmqReliability ReliableIntegrationEvent := ⟨1, true, fun e => (.driverReserved, e)⟩

def poison : RmqMessage ReliableIntegrationEvent :=
  .fresh ⟨"event-1", "corr-1"⟩ (some "event-1") (some "application/json") []

def firstDelivery : RetryState ReliableIntegrationEvent Unit String :=
  ⟨⟨[], ()⟩, Function.update (fun _ => none) 0 (some ⟨poison, .main⟩), 0, 0, false⟩

/-- A delivery of instance `i` whose operation throws, up to the final ack of its copy `k`. -/
def failingDelivery (i k : ℕ) : List (RetryLabel Unit String) :=
  [.deliver i (.throw "timeout"), .inbox i 1, .inbox i 2, .inbox i 3, .inbox i 4,
    .assertQueue i true, .assertQueue i true, .send i k .accepted, .confirm i true, .ack i .done]

theorem bounded_poison :
    ∃ S, (oneRetry.system poison).replay firstDelivery
        (failingDelivery 0 1 ++ [.expire 1] ++ failingDelivery 1 2) = some S ∧
      S.WithoutLoss oneRetry ∧ S.Bounded oneRetry poison ∧
      (S.copies 2).map (fun c => c.message.retryCount) = some 1 ∧ S.failed = 2 := by
  have hrun : (oneRetry.system poison).Run ((oneRetry.system poison).moves firstDelivery
      (failingDelivery 0 1 ++ [.expire 1] ++ failingDelivery 1 2)) _ :=
    .of_replay ⟨rfl, rfl, rfl, rfl⟩ rfl
  obtain ⟨hloss, hbounded⟩ := bounded_withoutLoss hrun
  exact ⟨_, rfl, hloss, hbounded (by decide), rfl, rfl⟩

end Runs

end RetryState

end RouteFast
