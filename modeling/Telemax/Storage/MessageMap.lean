import Telemax.Routing.Keys
import Telemax.Storage.Outbox

/-!
# Telemax.Storage.MessageMap

The mapping between MAX and Telegram messages, and the aliases of album parts.
Every definition is one statement of the code.  The two unique indexes of the
mapping are partial: a row that has no MAX id yet, or no bot-side Telegram id,
collides with nothing, and there is no unique index over the owner's ids at all.
A write that would break an index is `none`: the `IntegrityError`.
-/

namespace Telemax

/-- Which side a mapping row was first written for. -/
inductive SourceMarker
  | fromMax
  | fromTg
  deriving DecidableEq, Repr

/-- One row of the mapping; the id is the key of the table it lies in. -/
structure MessageLink where
  bridgeName : String
  maxChatId : Int
  maxMessageId : Option Int := none
  telegramBotId : Int
  telegramChatId : Int
  telegramMessageId : Option Int := none
  direction : Direction
  sourceMarker : SourceMarker
  createdAt : Nat
  echoFingerprint : Option String := none
  /-- The owner's own ids for this message. -/
  telegramOwnerMessageId : Option Int := none
  telegramOwnerAccountId : Option Int := none
  deriving DecidableEq, Repr

abbrev MessageMap := Table MessageLink

namespace MessageMap

/-! ## the unique indexes -/

/-- `idx_message_map_max`. -/
def sameMax (r r' : MessageLink) : Bool :=
  r.maxMessageId.isSome && r.maxMessageId == r'.maxMessageId && r.maxChatId == r'.maxChatId &&
    r.telegramBotId == r'.telegramBotId

/-- `idx_message_map_telegram`. -/
def sameTelegram (r r' : MessageLink) : Bool :=
  r.telegramMessageId.isSome && r.telegramMessageId == r'.telegramMessageId &&
    r.telegramBotId == r'.telegramBotId

/-- Would a row under this key break an index? -/
def clashes (m : MessageMap) (id : Nat) (r : MessageLink) : Bool :=
  m.holdsOf fun j r' => j != id && (sameMax r r' || sameTelegram r r')

/-- `INSERT`, unless an index refuses it. -/
def tryInsert (m : MessageMap) (r : MessageLink) : Option MessageMap :=
  if m.clashes m.next r then none else some (m.insert r)

/-- `UPDATE … WHERE id = ? AND …`, unless an index refuses it. -/
def tryUpdate (m : MessageMap) (id : Nat) (guard : MessageLink → Bool)
    (f : MessageLink → MessageLink) : Option MessageMap :=
  match m.get? id with
  | some r =>
      if !guard r then some m
      else if m.clashes id (f r) then none else some (m.modify id f)
  | none => some m

theorem tryInsert_eq_some {m m' : MessageMap} {r : MessageLink} (h : m.tryInsert r = some m') :
    m' = m.insert r := by
  unfold tryInsert at h
  split at h
  · cases h
  · exact (Option.some.inj h).symm

/-- What a guarded update leaves under a key: the old row, or the rewritten one
where the guard held. -/
theorem tryUpdate_get? {m m' : MessageMap} {id : Nat} {guard : MessageLink → Bool}
    {f : MessageLink → MessageLink} (h : m.tryUpdate id guard f = some m') (j : Nat) :
    m'.get? j = (m.get? j).map fun r => if j == id && guard r then f r else r := by
  unfold tryUpdate at h
  split at h
  · next r hr =>
      split at h
      · next hguard =>
          obtain rfl := Option.some.inj h
          by_cases hj : j = id
          · subst hj
            simp only [Bool.not_eq_true'] at hguard
            simp [hr, hguard]
          · simp [hj]
      · next hguard =>
          split at h
          · cases h
          · obtain rfl := Option.some.inj h
            by_cases hj : j = id
            · subst hj
              simp only [Bool.not_eq_true', Bool.not_eq_false] at hguard
              simp [hr, hguard]
            · simp [Table.get?_modify_ne _ _ hj, hj]
  · next hr =>
      obtain rfl := Option.some.inj h
      by_cases hj : j = id
      · subst hj
        simp [hr]
      · simp [hj]

/-! ## from MAX to Telegram -/

/-- The row `claim_from_max` inserts. -/
def newClaim (bridge : String) (chat message bot telegramChat : Int)
    (fingerprint : Option String) (stamp : Nat) : MessageLink where
  bridgeName := bridge
  maxChatId := chat
  maxMessageId := some message
  telegramBotId := bot
  telegramChatId := telegramChat
  direction := .maxToTg
  sourceMarker := .fromMax
  createdAt := stamp
  echoFingerprint := fingerprint

/-- `claim_from_max`: reserve a MAX message; `none` in the second place means it
is already known. -/
def claimFromMax (m : MessageMap) (r : MessageLink) : MessageMap × Option Nat :=
  match m.tryInsert r with
  | some m' => (m', some m.next)
  | none => (m, none)

/-- `attach_telegram_message`. -/
def attachTelegramMessage (m : MessageMap) (id : Nat) (message : Int) : Option MessageMap :=
  m.tryUpdate id (fun r => r.telegramMessageId.isNone)
    fun r => { r with telegramMessageId := some message }

/-- `attach_owner_message`, with the account that issued the id. -/
def attachOwnerMessage (m : MessageMap) (id : Nat) (account message : Int) : MessageMap :=
  m.modify id fun r =>
    { r with telegramOwnerMessageId := some message, telegramOwnerAccountId := some account }

/-- `bind_owner_message`. -/
def bindOwnerMessage (m : MessageMap) (id : Nat) (account message : Int) : MessageMap :=
  m.update (fun i r => i == id && (r.telegramOwnerMessageId.isNone ||
      (r.telegramOwnerAccountId == some account && r.telegramOwnerMessageId == some message)))
    fun r =>
      { r with telegramOwnerMessageId := some message, telegramOwnerAccountId := some account }

/-- The `WHERE` of `bind_owner_message`: the row carries no owner's id, or this one. -/
def bindable (id : Nat) (account message : Int) (i : Nat) (r : MessageLink) : Bool :=
  i == id && (r.telegramOwnerMessageId.isNone ||
    (r.telegramOwnerAccountId == some account && r.telegramOwnerMessageId == some message))

/-- A row that waits for the owner's id of what the contact bot has sent. -/
def unboundEcho (bot : Int) (r : MessageLink) : Bool :=
  r.telegramBotId == bot && r.direction == .maxToTg && r.telegramOwnerMessageId.isNone &&
    r.echoFingerprint.isSome

/-- `oldest_unbound_echo`. -/
def oldestUnboundEcho (m : MessageMap) (bot : Int) : Option (Nat × MessageLink) :=
  m.first fun _ r => unboundEcho bot r

/-- `stop_binding`. -/
def stopBinding (m : MessageMap) (id : Nat) : MessageMap :=
  m.update (fun i r => i == id && r.telegramOwnerMessageId.isNone)
    fun r => { r with echoFingerprint := none }

/-- `by_max_message`. -/
def byMaxMessage (m : MessageMap) (chat message bot : Int) : Option (Nat × MessageLink) :=
  m.first fun _ r =>
    r.maxChatId == chat && r.maxMessageId == some message && r.telegramBotId == bot

/-- `is_echo_of_our_own`. -/
def isEchoOfOurOwn (m : MessageMap) (chat message : Int) : Bool :=
  m.holdsOf fun _ r =>
    r.maxChatId == chat && r.maxMessageId == some message && r.sourceMarker == .fromTg

/-- `forget`. -/
def forget (m : MessageMap) (id : Nat) : MessageMap := m.delete fun i _ => i == id

/-- Has a Telegram message on either side been written onto this row? -/
def delivered (r : MessageLink) : Bool :=
  r.telegramMessageId.isSome || r.telegramOwnerMessageId.isSome

/-- The job a message from MAX is under, if the queue holds one. -/
def jobOf (o : Outbox) (r : MessageLink) : Option (Nat × OutboxItem) :=
  r.maxMessageId.bind fun message => o.bySourceKey (maxSourceKey r.maxChatId message)

/-- The `WHERE` of `unsent_claims`, its bound in time apart. -/
def unsentClaim (o : Outbox) (r : MessageLink) : Bool :=
  r.direction == .maxToTg && !delivered r && (jobOf o r).isNone

/-- `unsent_claims`. -/
def unsentClaims (m : MessageMap) (o : Outbox) (since : Nat) : List (Nat × MessageLink) :=
  m.select fun _ r => unsentClaim o r && decide (since ≤ r.createdAt)

/-! ## from Telegram to MAX -/

/-- What an intake hands to `record_from_telegram`. -/
structure Intake where
  bridgeName : String
  maxChatId : Int
  telegramBotId : Int
  telegramChatId : Int
  telegramMessageId : Option Int := none
  telegramOwnerMessageId : Option Int := none
  telegramOwnerAccountId : Option Int := none
  deriving DecidableEq, Repr

/-- The row `record_from_telegram` inserts. -/
def newRecord (x : Intake) (stamp : Nat) : MessageLink where
  bridgeName := x.bridgeName
  maxChatId := x.maxChatId
  telegramBotId := x.telegramBotId
  telegramChatId := x.telegramChatId
  telegramMessageId := x.telegramMessageId
  direction := .tgToMax
  sourceMarker := .fromTg
  createdAt := stamp
  telegramOwnerMessageId := x.telegramOwnerMessageId
  telegramOwnerAccountId := x.telegramOwnerAccountId

/-- `record_from_telegram`: reserve a message before it is sent. -/
def recordFromTelegram (m : MessageMap) (x : Intake) (stamp : Nat) : Option MessageMap :=
  m.tryInsert (newRecord x stamp)

/-- `attach_max_message`: the id MAX assigned, never over a different one. -/
def attachMaxMessage (m : MessageMap) (id : Nat) (message : Int) : Option MessageMap :=
  m.tryUpdate id (fun r => r.maxMessageId.isNone || r.maxMessageId == some message)
    fun r => { r with maxMessageId := some message }

/-- `by_owner_account_message`: no `ORDER BY`, so the row with the lowest id
under the index. -/
def byOwnerAccountMessage (m : MessageMap) (account message : Int) :
    Option (Nat × MessageLink) :=
  m.first fun _ r =>
    r.telegramOwnerAccountId == some account && r.telegramOwnerMessageId == some message

end MessageMap

/-! ## album parts -/

/-- One part of an album: a Telegram message that stands for one row of the mapping. -/
structure MediaGroupPart where
  mediaGroupId : String
  bridgeName : String
  botId : Int
  telegramMessageId : Option Int := none
  createdAt : Nat
  linkId : Option Nat := none
  direction : Option Direction := none
  partIndex : Option Nat := none
  telegramOwnerAccountId : Option Int := none
  telegramOwnerMessageId : Option Int := none
  deriving DecidableEq, Repr

abbrev MediaGroups := Table MediaGroupPart

namespace MediaGroups

/-- The three partial unique indexes of the parts. -/
def samePart (p q : MediaGroupPart) : Bool :=
  (p.mediaGroupId == q.mediaGroupId &&
    ((p.telegramMessageId.isSome && p.telegramMessageId == q.telegramMessageId) ||
      (p.partIndex.isSome && p.partIndex == q.partIndex))) ||
  (p.telegramOwnerMessageId.isSome && p.telegramOwnerMessageId == q.telegramOwnerMessageId &&
    p.telegramOwnerAccountId.isSome && p.telegramOwnerAccountId == q.telegramOwnerAccountId)

/-- `add_part`: nothing is stored where an index says the part is there. -/
def addPart (g : MediaGroups) (p : MediaGroupPart) : MediaGroups :=
  if g.holdsOf fun _ q => samePart p q then g else g.insert p

/-- `clear_link`. -/
def clearLink (g : MediaGroups) (link : Nat) : MediaGroups :=
  g.delete fun _ p => p.linkId == some link

/-- `link_of`. -/
def linkOf (g : MediaGroups) (group : String) : Option Nat :=
  (g.first fun _ p => p.mediaGroupId == group && p.linkId.isSome).bind (·.2.linkId)

/-- `bind_link`. -/
def bindLink (g : MediaGroups) (group : String) (link : Nat) : MediaGroups :=
  g.update (fun _ p => p.mediaGroupId == group && (p.linkId.isNone || p.linkId == some link))
    fun p => { p with linkId := some link }

/-- `attach_owner_message`: the owner's own id of one part, never over a different one. -/
def attachOwnerMessage (g : MediaGroups) (part : Nat) (account message : Int) : MediaGroups :=
  match g.get? part with
  | some p =>
      let p' := { p with telegramOwnerAccountId := some account,
                         telegramOwnerMessageId := some message }
      let empty := p.telegramOwnerMessageId.isNone ||
        (p.telegramOwnerAccountId == some account && p.telegramOwnerMessageId == some message)
      if empty && !(g.holdsOf fun j q => j != part && samePart p' q) then
        g.modify part fun _ => p'
      else g
  | none => g

/-- `by_owner_message`. -/
def byOwnerMessage (g : MediaGroups) (account message : Int) : Option (Nat × MediaGroupPart) :=
  g.first fun _ p =>
    p.telegramOwnerAccountId == some account && p.telegramOwnerMessageId == some message

end MediaGroups

end Telemax
