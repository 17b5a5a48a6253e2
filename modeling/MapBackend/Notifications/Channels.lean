import MapBackend.Library.Transactions
import MapBackend.Library.Workers

/-!
The channels of one notification event.
-/

namespace MapBackend.Notifications
open MapBackend.Library

abbrev Instant := ℤ

inductive Channel where
  | email
  | telegram
  deriving DecidableEq

inductive NotificationStatus where
  | pending
  | sending
  | sent
  | skipped
  | failed
  | outcomeUncertain
  deriving DecidableEq

def NotificationStatus.terminal (status : NotificationStatus) : Prop := status = .sent ∨ status = .skipped ∨ status = .failed

structure ChannelPayload where
  channel : Channel
  recipient : String
  subject : String
  body : String
  deriving DecidableEq

structure NotificationDelivery where
  pk : ℕ
  payload : ChannelPayload
  status : NotificationStatus
  attempts : ℕ
  claimedAt : Option Instant
  finishedAt : Option Instant
  errorCode : String
  createdAt : Instant
  deriving DecidableEq

inductive SenderCall where
  | telegram
  | email (idempotencyKey : String) (claimedAt : Instant)
  deriving DecidableEq

structure NotificationStore where
  email : Option NotificationDelivery
  telegram : Option NotificationDelivery
  calls : List SenderCall

structure NotificationDeliveryError where
  message : String
  retryable : Bool
  deriving DecidableEq

inductive ClaimException where
  | payloadReused
  | dataError
  deriving DecidableEq

inductive ClaimOutcome where
  | settled
  | refused (error : NotificationDeliveryError)
  | claimed (delivery : NotificationDelivery)

namespace Notification

def emailRetryWindow : Instant := 23 * 3600 * 1000000
def positiveSmallIntegerMax : ℕ := 2 ^ 15 - 1

def permanentError : NotificationDeliveryError := ⟨"Канал уведомления завершился постоянной ошибкой.", false⟩
def inProgress : NotificationDeliveryError := ⟨"Канал уведомления уже отправляется.", true⟩
def manualReview : NotificationDeliveryError := ⟨"Результат отправки канала требует ручной сверки.", false⟩
def windowExpired : NotificationDeliveryError := ⟨"Окно безопасного повтора email истекло.", false⟩
def telegramUnknown : NotificationDeliveryError := ⟨"Результат Telegram sendMessage неизвестен.", false⟩
def emailFailed : NotificationDeliveryError := ⟨"Email transport failed inside the provider idempotency window.", true⟩

end Notification

namespace NotificationDelivery
open Notification

def emailRetryDeadline (d : NotificationDelivery) : Instant := d.createdAt + emailRetryWindow

def idempotencyKey (d : NotificationDelivery) : String := s!"map-notification/{d.pk}"

theorem idempotencyKey_of_pk {d d' : NotificationDelivery} (same : d.pk = d'.pk) : d.idempotencyKey = d'.idempotencyKey :=
  congrArg (fun pk => s!"map-notification/{pk}") same

def InProgress (d : NotificationDelivery) (claimTimeout now : Instant) : Prop :=
  d.status = .sending ∧ ∃ claimedAt ∈ d.claimedAt, now - claimTimeout < claimedAt

instance (d : NotificationDelivery) (claimTimeout now : Instant) : Decidable (d.InProgress claimTimeout now) :=
  inferInstanceAs (Decidable (d.status = .sending ∧ ∃ claimedAt ∈ d.claimedAt, now - claimTimeout < claimedAt))

def uncertain (d : NotificationDelivery) (errorCode : String) (now : Instant) : NotificationDelivery :=
  { d with status := .outcomeUncertain, errorCode, finishedAt := some now }

def created (pk : ℕ) (payload : ChannelPayload) (now : Instant) : NotificationDelivery where
  pk
  payload
  status := .pending
  attempts := 0
  claimedAt := none
  finishedAt := none
  errorCode := ""
  createdAt := now

end NotificationDelivery

namespace NotificationStore
open Notification

def get (s : NotificationStore) : Channel → Option NotificationDelivery
  | .email => s.email
  | .telegram => s.telegram

def set (s : NotificationStore) (channel : Channel) (d : NotificationDelivery) : NotificationStore :=
  match channel with
  | .email => { s with email := some d }
  | .telegram => { s with telegram := some d }

/-- `_claim_channel` after the row is read or created. -/
def claimRow (s : NotificationStore) (claimTimeout : Instant) (payload : ChannelPayload) (d : NotificationDelivery)
    (now : Instant) : Except ClaimException (NotificationStore × ClaimOutcome) := do
  raiseIf (d.payload ≠ payload) .payloadReused
  if d.status = .sent ∨ d.status = .skipped then
    pure (s.set payload.channel d, .settled)
  else if d.status = .failed then
    pure (s.set payload.channel d, .refused permanentError)
  else if d.InProgress claimTimeout now then
    pure (s.set payload.channel d, .refused inProgress)
  else
    -- a lost worker may have crossed the boundary of Telegram
    let d := if d.status = .sending ∧ payload.channel = .telegram then d.uncertain "telegram_worker_lost" now else d
    if d.status = .outcomeUncertain ∧ (payload.channel ≠ .email ∨ d.emailRetryDeadline ≤ now) then
      pure (s.set payload.channel d, .refused manualReview)
    else if payload.channel = .email ∧ d.emailRetryDeadline ≤ now then
      pure (s.set payload.channel (d.uncertain "email_idempotency_window_expired" now), .refused windowExpired)
    else do
      raiseIf (positiveSmallIntegerMax < d.attempts + 1) .dataError
      let claimed := { d with status := .sending, claimedAt := some now, attempts := d.attempts + 1, errorCode := "" }
      pure (s.set payload.channel claimed, .claimed claimed)

def claimChannel (s : NotificationStore) (claimTimeout : Instant) (payload : ChannelPayload) (pk : ℕ) (now : Instant) :
    Except ClaimException (NotificationStore × ClaimOutcome) :=
  s.claimRow claimTimeout payload ((s.get payload.channel).getD (.created pk payload now)) now

def finishChannel (s : NotificationStore) (channel : Channel) (status : NotificationStatus) (errorCode : String)
    (now : Instant) : NotificationStore :=
  match s.get channel with
  | none => s
  | some d =>
    if d.status = .sending then
      s.set channel { d with
        status, errorCode := String.ofList (errorCode.toList.take 80)
        finishedAt := if status = .pending then none else some now }
    else s

def exhaust (now : Instant) (d : NotificationDelivery) : NotificationDelivery :=
  if d.status = .pending then d.uncertain "automatic_retries_exhausted" now else d

def markNotificationEventExhausted (s : NotificationStore) (now : Instant) : NotificationStore :=
  { s with email := s.email.map (exhaust now), telegram := s.telegram.map (exhaust now) }

end NotificationStore

inductive NotificationLevel where
  | error
  | success
  | critical
  | billing
  deriving DecidableEq

structure TenantNotificationSettings where
  notifyOnError : Bool
  notifyOnCritical : Bool
  telegramChatId : String
  notifyEmail : String

def channels (level : NotificationLevel) (settings : TenantNotificationSettings) (message : String) : List ChannelPayload :=
  let telegram (body : String) : List ChannelPayload :=
    if settings.telegramChatId = "" then [] else [⟨.telegram, settings.telegramChatId, "", body⟩]
  let email (subject : String) : List ChannelPayload :=
    if settings.notifyEmail = "" then [] else [⟨.email, settings.notifyEmail, subject, message⟩]
  match level with
  | .error => if settings.notifyOnError then telegram s!"⚠️ {message}" else []
  | .success => telegram s!"✅ {message}"
  | .critical => if settings.notifyOnCritical then telegram s!"🚨 КРИТИЧНО: {message}" ++ email "Критическая ошибка MAP" else []
  | .billing => email "Уведомление о биллинге MAP"

structure NotificationInput where
  now : Instant
  settings : Option TenantNotificationSettings
  /-- The identifier of a new row. -/
  pk : ℕ
  /-- The answer of the sender; none is an exception. -/
  answer : Option Bool

inductive NotifyResult where
  | delivered
  | raised (error : ClaimException)
  | failed (failures : List (Channel × NotificationDeliveryError))
  deriving DecidableEq

/-- `notify` between its transactions and the calls of the senders. -/
inductive NotificationWorker where
  | notify (level : NotificationLevel) (message : String)
  | exhausted
  | claim (payload : ChannelPayload) (rest : List ChannelPayload) (failures : List (Channel × NotificationDeliveryError))
  | send (delivery : NotificationDelivery) (rest : List ChannelPayload) (failures : List (Channel × NotificationDeliveryError))
  | report (channel : Channel) (sent : Bool) (rest : List ChannelPayload) (failures : List (Channel × NotificationDeliveryError))
  | done (result : NotifyResult)
  deriving DecidableEq

namespace NotificationWorker
open Notification

def proceed (rest : List ChannelPayload) (failures : List (Channel × NotificationDeliveryError)) : NotificationWorker :=
  match rest with
  | payload :: rest => .claim payload rest failures
  | [] => .done (if failures = [] then .delivered else .failed failures)

/-- The report of a channel: a failed email may be retried, a failed Telegram message may have been sent. -/
def reportStatus : Channel → Bool → NotificationStatus × String
  | _, true => (.sent, "")
  | .telegram, false => (.outcomeUncertain, "telegram_outcome_uncertain")
  | .email, false => (.pending, "email_transport_error")

def reportFailures (channel : Channel) (sent : Bool) : List (Channel × NotificationDeliveryError) :=
  match sent, channel with
  | true, _ => []
  | false, .telegram => [(.telegram, telegramUnknown)]
  | false, .email => [(.email, emailFailed)]

def senderCall (d : NotificationDelivery) : SenderCall :=
  match d.payload.channel with
  | .telegram => .telegram
  | .email => .email d.idempotencyKey (d.claimedAt.getD 0)

def advance (claimTimeout : Instant) :
    NotificationWorker → NotificationInput → NotificationStore → NotificationStore × NotificationWorker
  | .notify level message, input, s =>
    match input.settings with
    | none => (s, .done .delivered)
    | some settings => (s, proceed (channels level settings message) [])
  | .exhausted, input, s => (s.markNotificationEventExhausted input.now, .done .delivered)
  | .claim payload rest failures, input, s =>
    match s.claimChannel claimTimeout payload input.pk input.now with
    | .error error => (s, .done (.raised error))
    | .ok (s, .settled) => (s, proceed rest failures)
    | .ok (s, .refused error) => (s, proceed rest (failures ++ [(payload.channel, error)]))
    | .ok (s, .claimed delivery) => (s, .send delivery rest failures)
  | .send delivery rest failures, input, s =>
    ({ s with calls := s.calls ++ [senderCall delivery] },
      .report delivery.payload.channel (input.answer.getD false) rest failures)
  | .report channel sent rest failures, input, s =>
    (s.finishChannel channel (reportStatus channel sent).1 (reportStatus channel sent).2 input.now,
      proceed rest (failures ++ reportFailures channel sent))
  | .done result, _, s => (s, .done result)

end NotificationWorker

inductive NotificationCall where
  | notify (level : NotificationLevel) (message : String)
  | markExhausted

def NotificationCall.worker : NotificationCall → NotificationWorker
  | .notify level message => .notify level message
  | .markExhausted => .exhausted

abbrev NotificationCrew := Crew NotificationStore NotificationWorker

abbrev NotificationAction := CrewAction NotificationCall NotificationInput Empty

namespace NotificationCrew

def idle : NotificationCrew := ⟨⟨none, none, []⟩, []⟩

def next (claimTimeout : Instant) (c : NotificationCrew) (a : NotificationAction) : NotificationCrew :=
  c.act (fun s (_ : Empty) => s) (NotificationWorker.advance claimTimeout) NotificationCall.worker a

end NotificationCrew

end MapBackend.Notifications
