import Telemax.Service.Alerts

/-!
# Telemax.Service.Health

What one reading of the bridge says about it: `read_owner_ingress`, the write canary, and the
checks of `_evaluate`, each of which opens its incident, closes it or leaves it as it is.
-/

namespace Telemax.Service

/-! ## the owner's session -/

inductive OwnerIngressState
  | ready
  | missingConfiguration
  | authorizationRequired
  | connecting
  | disconnected
  | stopped
  deriving DecidableEq, Repr

/-- `OwnerSessionFacts`. -/
structure OwnerSessionFacts where
  started : Bool := false
  status : Option String := none
  connected : Bool := false
  supervisorHealthy : Bool := true

/-- `read_owner_ingress`, its state. -/
def readOwnerIngress (facts : OwnerSessionFacts) (connectedBefore : Bool) : OwnerIngressState :=
  match facts.started, facts.status with
  | false, _ | _, none => .missingConfiguration
  | true, some status =>
      if status = "failed" then .missingConfiguration
      else if status = "unauthorized" then .authorizationRequired
      else if status = "stopped" then .stopped
      else if status = "connected" ∧ facts.connected then
        if facts.supervisorHealthy then .ready else .disconnected
      else if connectedBefore then .disconnected
      else .connecting

/-- `_OWNER_INGRESS_TEXT`; `READY` is shown by its value. -/
def OwnerIngressState.text : OwnerIngressState → String
  | .ready => "ready"
  | .missingConfiguration => "Сессия не настроена: нет API-ключей или файла сессии."
  | .authorizationRequired => "Сессия отозвана — нужен telemax telegram-sync."
  | .connecting => "Подключаемся…"
  | .disconnected => "Соединение потеряно, восстанавливаем."
  | .stopped => "Сессия остановлена."

/-! ## the snapshot -/

/-- What the evaluation reads of `BridgeHealth`. -/
structure BridgeHealth where
  name : String
  failed : Nat := 0
  ambiguous : Nat := 0
  expired : Nat := 0
  deriving DecidableEq, Repr

/-- What the evaluation reads of `KindStatus`. -/
structure KindStatus where
  kind : String
  enabled : Bool
  breakerOpen : Bool := false
  breakerReason : Option String := none
  uploaderDrift : Nat := 0
  deriving DecidableEq, Repr

/-- `DatabaseWrite`. -/
structure DatabaseWrite where
  healthy : Bool
  recovering : Bool
  deriving DecidableEq, Repr

/-- `HealthSnapshot` without the canary's answer. -/
structure Readings where
  maxConnected : Bool := true
  maxOfflineMs : Option Int := none
  bridges : List BridgeHealth := []
  outboxPending : Nat := 0
  outboxLeased : Nat := 0
  outboxFailed : Nat := 0
  outboxAmbiguous : Nat := 0
  outboxExpired : Nat := 0
  oldestPendingMs : Option Int := none
  ownerInboxDead : Nat := 0
  ownerSession : OwnerSessionFacts := { started := true, status := some "connected", connected := true }
  connectedBefore : Bool := true
  nativeMedia : List KindStatus := []
  nativeMediaDecoder : Bool := true

structure Snapshot extends Readings where
  databaseWrite : DatabaseWrite

/-- `CANARY_SUCCESSES_TO_CLEAR`. -/
def canarySuccessesToClear : Nat := 2

/-- `_canary_successes`, after a canary. -/
def countCanary (successes : Nat) (healthy : Bool) : Nat := if healthy then successes + 1 else 0

/-- `_database_write`, once the canary has been counted. -/
def databaseWrite (successes : Nat) (healthy : Bool) : DatabaseWrite where
  healthy := healthy && canarySuccessesToClear ≤ successes
  recovering := healthy && !(canarySuccessesToClear ≤ successes)

namespace Snapshot

/-- `native_media_systemic`. -/
def nativeMediaSystemic (s : Snapshot) : List KindStatus :=
  s.nativeMedia.filter fun status =>
    status.enabled && (status.breakerOpen || status.uploaderDrift ≠ 0 || !s.nativeMediaDecoder)

/-- One line of `_native_media_text`. -/
def nativeMediaLine (status : KindStatus) : String :=
  let what :=
    if status.kind = "voice" then "голосовые"
    else if status.kind = "circle" then "кружки"
    else status.kind
  if status.breakerOpen then
    let reason := status.breakerReason.getD "None"
    s!"{what}: MAX отклонил вложение ({reason})"
  else if status.uploaderDrift ≠ 0 then s!"{what}: MAX выдаёт не тот загрузчик"
  else s!"{what}: нет декодера (PyAV)"

/-- `_native_media_text`. -/
def nativeMediaText (s : Snapshot) : String :=
  let lines := "\n".intercalate (s.nativeMediaSystemic.map nativeMediaLine)
  (s!"⚠️ Telemax: медиа уходит в MAX не как есть\n\n{lines}\n\nСообщения доходят — голосовое файлом, " ++
        "кружок обычным видео.\nПодробности и счётчики: /status")

/-- `_bridge_lines`. -/
def bridgeLines (s : Snapshot) (field : BridgeHealth → Nat) : String :=
  String.join (((s.bridges.filter fun bridge => field bridge ≠ 0).map fun bridge =>
    s!"Контакт: {bridge.name}\n").take 5)

end Snapshot

/-! ## the checks -/

/-- What a check does to its incident. -/
inductive Verdict
  | raise (text : String)
  | clear (text : String)
  | leave
  deriving DecidableEq, Repr

/-- A problem that is there or not. -/
def Verdict.of (bad : Bool) (raised cleared : String) : Verdict :=
  if bad then .raise raised else .clear cleared

/-- `QUEUE_DEPTH_ALERT`. -/
def queueDepthAlert : Nat := 25

/-- `OLDEST_PENDING_ALERT_SECONDS`. -/
def oldestPendingAlertSeconds : Int := 900

/-- `MAX_OFFLINE_ALERT_SECONDS`. -/
def maxOfflineAlertSeconds : Int := 600

namespace Snapshot

/-- MAX counts as gone from the threshold on, and as back only when it is connected. -/
def maxOffline (s : Snapshot) : Verdict :=
  let minutes := s.maxOfflineMs.getD 0 / 60000
  if !s.maxConnected && s.maxOfflineMs.any (maxOfflineAlertSeconds * 1000 ≤ ·) then
    .raise (s!"⚠️ Telemax: MAX недоступен {minutes} мин\n\nСообщения сохраняются в очереди.\n" ++
        s!"Ожидают отправки: {s.outboxPending}\nНе доставлено: {s.outboxFailed}")
  else if s.maxConnected then
    .clear s!"✅ Telemax: связь с MAX восстановлена\n\nОжидают отправки: {s.outboxPending}"
  else .leave

def deliveryFailed (s : Snapshot) : Verdict :=
  let lines := s.bridgeLines (·.failed)
  .of (s.outboxFailed ≠ 0)
    s!"⚠️ Не доставлено сообщений: {s.outboxFailed}\n\n{lines}Нужен повтор или решение владельца."
    "✅ Недоставленных сообщений больше нет"

def deliveryAmbiguous (s : Snapshot) : Verdict :=
  let lines := s.bridgeLines (·.ambiguous)
  .of (s.outboxAmbiguous ≠ 0)
    (s!"⚠️ Неясный результат отправки: {s.outboxAmbiguous}\n\n{lines}Проверьте в MAX, дошло ли " ++
        "сообщение, и отметьте решённым.")
    "✅ Неясных отправок больше нет"

def deliveryExpired (s : Snapshot) : Verdict :=
  let lines := s.bridgeLines (·.expired)
  .of (s.outboxExpired ≠ 0)
    (s!"⚠️ Сообщения не доставлены за сутки: {s.outboxExpired}\n\n{lines}Повторить их уже нельзя — " ++
        "только посмотреть и убрать.")
    "✅ Просроченных отправок больше нет"

def queueDepth (s : Snapshot) : Verdict :=
  let depth := s.outboxPending + s.outboxLeased
  .of (queueDepthAlert ≤ depth) s!"⚠️ Очередь выросла: {depth} сообщений ждут отправки"
    "✅ Очередь разошлась"

/-- While writing recovers the incident is neither opened nor closed. -/
def databaseWriteUnavailable (s : Snapshot) : Verdict :=
  if !s.databaseWrite.healthy && !s.databaseWrite.recovering then
    .raise ("⚠️ Telemax: не могу надёжно сохранять события\n\nМост временно не записывает новые " ++
        "события, поэтому ваши действия в Telegram приостановлены. Уже принятые до сбоя события " ++
        "восстановить нельзя.\n\nЭтот чат работает. Восстановление идёт автоматически.")
  else if s.databaseWrite.healthy then .clear "✅ Telemax снова сохраняет события"
  else .leave

def ownerUpdateStuck (s : Snapshot) : Verdict :=
  .of (s.ownerInboxDead ≠ 0)
    (s!"⚠️ Telemax: {s.ownerInboxDead} действие(й) не удалось перенести\n\nОни сохранены и ничего не " ++
        "потеряно, но сами не повторятся. Посмотреть и повторить — в этом чате.")
    "✅ Застрявших действий больше нет"

def ownerSessionUnavailable (s : Snapshot) : Verdict :=
  let plane := readOwnerIngress s.ownerSession s.connectedBefore
  .of (plane ≠ .ready)
    (s!"⚠️ Telemax: Telegram владельца недоступен\n\n{plane.text}\n\nПриостановлено только то, что вы " ++
        "делаете в Telegram: новые сообщения, правки, удаления и реакции не уходят в MAX. Сообщения " ++
        "контактов приходят как обычно, очередь сохраняется.")
    "✅ Telegram владельца снова подключён"

def nativeMediaDegraded (s : Snapshot) : Verdict :=
  if s.nativeMediaSystemic ≠ [] then .raise s.nativeMediaText
  else if s.nativeMedia ≠ [] then .clear "✅ Голосовые и кружки снова уходят в MAX как есть"
  else .leave

def queueStalled (s : Snapshot) : Verdict :=
  let minutes := s.oldestPendingMs.getD 0 / 60000
  .of (s.oldestPendingMs.any (oldestPendingAlertSeconds * 1000 ≤ ·))
    s!"⚠️ Сообщение ждёт отправки {minutes} мин\n\nОчередь не движется."
    "✅ Очередь снова движется"

/-- `_evaluate`: the incidents in the order they are decided. -/
def checks (s : Snapshot) : List (String × Verdict) :=
  [("max-offline", s.maxOffline),
    ("delivery-failed", s.deliveryFailed),
    ("delivery-ambiguous", s.deliveryAmbiguous),
    ("delivery-expired", s.deliveryExpired),
    ("queue-depth", s.queueDepth),
    ("database-write-unavailable", s.databaseWriteUnavailable),
    ("owner-update-stuck", s.ownerUpdateStuck),
    ("owner-session-unavailable", s.ownerSessionUnavailable),
    ("native-media-degraded", s.nativeMediaDegraded),
    ("queue-stalled", s.queueStalled)]

theorem nodup_checks (s : Snapshot) : (s.checks.map (·.1)).Nodup := by
  simp [checks]

/-- No key of a check has the mark that ends the first part of a key with a name. -/
theorem colon_not_mem_checks {s : Snapshot} {c : String × Verdict} (h : c ∈ s.checks) :
    ':' ∉ c.1.toList := by
  have hkeys : ∀ key ∈ s.checks.map (·.1), ':' ∉ key.toList := by
    simp only [checks, List.map_cons, List.map_nil]
    decide
  exact hkeys _ (List.mem_map_of_mem h)

end Snapshot

/-- The incident that may not be recordable: its check goes on when the write fails. -/
def guarded (key : String) : Bool := key = "database-write-unavailable"

end Telemax.Service
