import Telemax.Queue.System
import Telemax.Storage.MessageMap

/-!
# Telemax.Bridge.System

The queue together with the message mapping around it, as one transition system:

* `on_max_message`, one call per event MAX pushes, in any number at a time;
* the start of the service: `requeue_inflight`, `previous_start_at`,
  `note_start`, `_release_unsent_claims`;
* the bridge's own sends into MAX, the id MAX gives each, and the answer that
  brings it back.

The queue is the system of `Telemax.Queue.System`: whatever it can do next, this
system can do next, once the service is up.  As there, one event is what one task
does between two awaits, and a crash may come between any two.
-/

namespace Telemax.Bridge

/-! ## states -/

/-- A message as `on_max_message` is handed it. -/
structure IncomingMax where
  chatId : Int
  messageId : Int
  isOutgoing : Bool
  /-- How many parts its album has; nothing for anything but an album. -/
  albumParts : Nat := 0
  deriving DecidableEq, Repr

/-- Where one call of `on_max_message` stands. -/
inductive Handling
  /-- Its bridge is known; about to ask `is_echo_of_our_own`. -/
  | received
  /-- To be carried; about to call `claim_from_max`. -/
  | admitted
  /-- Claimed, with so many aliases of its album written. -/
  | claimed (link aliases : Nat)
  /-- Its job will never be sent and is about to be marked failed. -/
  | accounting (job : Nat) (noop : Bool) (reason : String)
  /-- In `archive`, before it reads. -/
  | archiving (job : Nat) (reason : String)
  /-- In `archive`, with the row it read. -/
  | setAside (job : Nat) (reason : String) (read : OutboxItem)
  | over
  | dead
  deriving DecidableEq, Repr

/-- Still under way. -/
def Handling.running : Handling → Bool
  | .over | .dead => false
  | _ => true

structure Inbound where
  target : BridgeTarget
  message : IncomingMax
  phase : Handling
  deriving DecidableEq, Repr

/-- Where the start of the service stands. -/
inductive Startup
  /-- Not running, or in `requeue_inflight`. -/
  | recovering
  /-- `previous_start_at` has been read. -/
  | previousRead (since : Option Nat)
  /-- `note_start` has overwritten it. -/
  | noted (since : Option Nat)
  /-- In `_release_unsent_claims`, with the claims it has still to release. -/
  | releasing (todo : List Nat)
  /-- The aliases of this claim are gone; about to forget the claim itself. -/
  | forgetting (link : Nat) (todo : List Nat)
  | serving
  deriving DecidableEq, Repr

/-- Where a send into MAX stands, from its mark to its answer. -/
inductive Stage
  | calling
  /-- MAX has created the message; the answer is on its way. -/
  | created (message : Int)
  /-- The answer was settled onto the mapping. -/
  | answered (message : Int)
  /-- Writing the answer down has failed. -/
  | broken
  deriving DecidableEq, Repr

/-- A message the bridge created in MAX. -/
structure Posted where
  chatId : Int
  messageId : Int
  attempt : Nat
  deriving DecidableEq, Repr

structure State where
  queue : Queue.State := {}
  map : MessageMap := .empty
  albums : MediaGroups := .empty
  /-- `process_started_at` of the health store. -/
  processStartedAt : Option Nat := none
  startup : Startup := .recovering
  inbound : Table Inbound := .empty
  stage : Nat → Stage := fun _ => .calling
  posted : List Posted := []

inductive Event
  | queue (e : Queue.Event)
  | crash
  /-- `previous_start_at`. -/
  | readPreviousStart
  /-- `note_start`. -/
  | noteStart
  /-- `unsent_claims`. -/
  | releaseSelect
  | clearLink
  | forget
  /-- The start is complete. -/
  | serve
  /-- MAX pushes a message. -/
  | arrive (target : BridgeTarget) (message : IncomingMax)
  /-- `is_echo_of_our_own`, then the setting for the owner's own messages. -/
  | check (handler : Nat) (mirror : Bool)
  /-- `claim_from_max`. -/
  | claim (handler : Nat) (telegramChat : Int) (fingerprint : Option String)
  /-- `add_part` for the next part of the album. -/
  | expectPart (handler : Nat)
  /-- The job of a message that is to be delivered: `submit_in_order`. -/
  | deliver (handler : Nat) (kind : JobKind) (content : Payload)
  /-- The job of a message that is not: `submit_unstorable` or `submit_noop`. -/
  | account (handler : Nat) (kind : JobKind) (noop : Bool) (reason : String)
  | accountFailed (handler : Nat)
  | archiveRead (handler : Nat)
  | archiveWrite (handler : Nat)
  /-- The task of this call is gone. -/
  | die (handler : Nat)
  /-- `attach_telegram_message`, by whoever has delivered the message. -/
  | attachTelegram (link : Nat) (message : Int)
  /-- `attach_owner_message`. -/
  | attachOwner (link : Nat) (account message : Int)
  /-- `bind_owner_message`. -/
  | bindOwner (link : Nat) (account message : Int)
  /-- `record_from_telegram`. -/
  | record (intake : MessageMap.Intake)
  /-- MAX creates the message of a send. -/
  | post (attempt : Nat) (message : Int)
  /-- The answer to a send, and `settle_max_delivery_mapping`. -/
  | answer (attempt : Nat)
  deriving DecidableEq, Repr

/-! ## parts of a step -/

namespace State

/-- Change one call of `on_max_message`. -/
def setPhase (s : State) (h : Nat) (phase : Handling) : State :=
  { s with inbound := s.inbound.modify h fun y => { y with phase } }

/-- Write the outbox from outside an attempt. -/
def setOutbox (s : State) (outbox : Outbox) : State :=
  { s with queue := { s.queue with outbox } }

/-- A step of a call that is under way, while the service is up. -/
def ofHandler (s : State) (h : Nat) (f : Inbound → Option State) : Option State :=
  if s.startup = .serving then (s.inbound.get? h).bind f else none

/-- A send that creates a message in MAX. -/
def ownSend (direction : Direction) (kind : JobKind) : Bool :=
  direction == .tgToMax && isCreating kind

/-- The chat a job's payload names. -/
def chatOf (payload : Payload) : Option Int :=
  match payload.get "max_chat_id" with
  | some (.int chat) => some chat
  | _ => none

/-- The mapping row a job's payload names. -/
def linkOf (payload : Payload) : Option Nat :=
  match payload.get "link_id" with
  | some (.int link) => some link.toNat
  | _ => none

/-- Has MAX given this id to a message already? -/
def known (s : State) (chat message : Int) : Bool :=
  (s.posted.any fun p => p.chatId == chat && p.messageId == message) ||
    s.map.holdsOf (fun _ r => r.maxChatId == chat && r.maxMessageId == some message) ||
    s.inbound.holdsOf fun _ y => y.message.chatId == chat && y.message.messageId == message

/-- How an attempt can end: a send that has created a message returns the id of
the answer, one that has asked nothing of MAX returns no id. -/
def settles (s : State) (a : Nat) (outcome : Outcome) : Bool :=
  match s.queue.attempts.get? a, outcome with
  | some x, .delivered remoteId =>
      !ownSend x.spec.direction x.spec.kind ||
        (match s.stage a with
          | .answered message => remoteId == some message
          | .calling => remoteId == none && !x.marked
          | _ => false)
  | _, _ => true

/-- What the queue may do at this point of the service. -/
def allows (s : State) : Queue.Event → Bool
  | .clock _ => true
  | .crash => false
  | .requeueSelect | .requeueWrite | .started => s.startup == .recovering
  | .decide .. | .decideWrite _ => s.startup != .recovering
  | .settle a outcome _ => s.startup == .serving && s.settles a outcome
  | _ => s.startup == .serving

/-! ## `on_max_message` -/

/-- `is_echo_of_our_own`; the mirroring setting is read right after it. -/
def check (s : State) (h : Nat) (y : Inbound) (mirror : Bool) : Option State :=
  if y.phase = .received then
    some (s.setPhase h
      (if s.map.isEchoOfOurOwn y.message.chatId y.message.messageId then .over
       else if y.message.isOutgoing && !mirror then .over
       else .admitted))
  else none

/-- `claim_from_max`. -/
def claim (s : State) (h : Nat) (y : Inbound) (telegramChat : Int) (fingerprint : Option String) :
    Option State :=
  if y.phase = .admitted then
    match s.map.claimFromMax (MessageMap.newClaim y.target.name y.message.chatId
        y.message.messageId y.target.botId telegramChat fingerprint s.queue.now) with
    | (map, some link) => some ({ s with map }.setPhase h (.claimed link 0))
    | (_, none) => some (s.setPhase h .over)
  else none

/-- The alias `_expect_album` writes for one part. -/
def aliasOf (s : State) (y : Inbound) (link index : Nat) : MediaGroupPart where
  mediaGroupId := expectedAlbumNamespace link
  bridgeName := y.target.name
  botId := y.target.botId
  createdAt := s.queue.now
  linkId := some link
  direction := some .maxToTg
  partIndex := some index

/-- One turn of the loop of `_expect_album`. -/
def expectPart (s : State) (h : Nat) (y : Inbound) : Option State :=
  match y.phase with
  | .claimed link aliases =>
      if aliases < y.message.albumParts then
        some ({ s with albums := s.albums.addPart (s.aliasOf y link aliases) }.setPhase h
          (.claimed link (aliases + 1)))
      else none
  | _ => none

/-- The job of a claimed message. -/
def jobSpec (y : Inbound) (kind : JobKind) (payload : Payload) : JobSpec where
  bridgeName := y.target.name
  direction := .maxToTg
  kind := kind
  payload := payload
  sourceKey := maxSourceKey y.message.chatId y.message.messageId

/-- The job is submitted behind the older ones; what the attempt makes of it is
the queue's. -/
def deliver (s : State) (h : Nat) (y : Inbound) (kind : JobKind) (content : Payload) :
    Option State :=
  match y.phase with
  | .claimed link aliases =>
      if aliases = y.message.albumParts then
        (Queue.step s.queue
            (.submit (jobSpec y kind (("link_id", .int link) :: content)) .direction)).map
          fun queue => { s with queue }.setPhase h .over
      else none
  | _ => none

/-- `reason[:300]`. -/
def clipReason (reason : String) : String := String.ofList (reason.toList.take 300)

/-- The payload of a job that will never be sent: ids only. -/
def reference (y : Inbound) (link : Nat) (kind : JobKind) (noop : Bool) (reason : String) :
    Payload :=
  [(if noop then "noop" else "unstorable", .bool true), ("reason", .str (clipReason reason)),
      ("max_chat_id", .int y.message.chatId), ("max_message_id", .int y.message.messageId)] ++
    (if kind = .maxToTgOwner then [] else [("bot_id", .int y.target.botId)]) ++
    if noop then [] else [("link_id", .int link)]

/-- `claim_for_attempt`, by `submit_unstorable` or `submit_noop`. -/
def account (s : State) (h : Nat) (y : Inbound) (kind : JobKind) (noop : Bool)
    (reason : String) : Option State :=
  match y.phase with
  | .claimed link aliases =>
      if aliases = y.message.albumParts then
        let (outbox, job, _) :=
          s.queue.outbox.claimForAttempt (jobSpec y kind (reference y link kind noop reason))
            s.queue.now
        some ((s.setOutbox outbox).setPhase h (.accounting job noop reason))
      else none
  | _ => none

/-- `mark_failed`, with the text of either. -/
def accountFailed (s : State) (h : Nat) (y : Inbound) : Option State :=
  match y.phase with
  | .accounting job noop reason =>
      let error :=
        if noop then s!"nothing to deliver: {reason}"
        else s!"payload could not be stored: {reason}"
      some ((s.setOutbox (s.queue.outbox.modify job (Outbox.markFailed error s.queue.now))).setPhase
        h (if noop then .archiving job reason else .over))
  | _ => none

/-- `archive` reads. -/
def archiveRead (s : State) (h : Nat) (y : Inbound) : Option State :=
  match y.phase with
  | .archiving job reason =>
      some (s.setPhase h
        (match s.queue.outbox.get? job with
          | some r => if (Outbox.Decision.archive reason).allows r then .setAside job reason r
                      else .over
          | none => .over))
  | _ => none

/-- `archive` writes. -/
def archiveWrite (s : State) (h : Nat) (y : Inbound) : Option State :=
  match y.phase with
  | .setAside job reason read =>
      some ((s.setOutbox (s.queue.outbox.modify job fun r =>
        (Outbox.Decision.archive reason).write read s.queue.now r)).setPhase h .over)
  | _ => none

/-! ## sends into MAX -/

/-- MAX creates the message of a marked send, under an id of its own choice. -/
def post (s : State) (a : Nat) (message : Int) : Option State :=
  match s.queue.attempts.get? a with
  | some x =>
      match chatOf x.spec.payload with
      | some chat =>
          if s.startup = .serving ∧ ownSend x.spec.direction x.spec.kind = true ∧
              x.phase = .inSender ∧ x.marked = true ∧ s.stage a = .calling ∧
              s.known chat message = false then
            some { s with stage := Function.update s.stage a (.created message),
                          posted := ⟨chat, message, a⟩ :: s.posted }
          else none
      | none => none
  | none => none

/-- `settle_max_delivery_mapping`, when the answer has come. -/
def answer (s : State) (a : Nat) : Option State :=
  match s.queue.attempts.get? a, s.stage a with
  | some x, .created message =>
      if s.startup = .serving ∧ x.phase = .inSender then
        match linkOf x.spec.payload with
        | some link =>
            match s.map.attachMaxMessage link message with
            | some map => some { s with map, stage := Function.update s.stage a (.answered message) }
            | none => some { s with stage := Function.update s.stage a .broken }
        | none => some { s with stage := Function.update s.stage a (.answered message) }
      else none
  | _, _ => none

end State

/-! ## the start of the service -/

/-- What `start` does after `requeue_inflight`, up to the release of the claims. -/
def stepStartup (s : State) : Event → Option State
  | .readPreviousStart =>
      if s.startup = .recovering ∧ s.queue.mode = .up then
        some { s with startup := .previousRead s.processStartedAt }
      else none
  | .noteStart =>
      match s.startup with
      | .previousRead since =>
          some { s with startup := .noted since, processStartedAt := some s.queue.now }
      | _ => none
  | .releaseSelect =>
      match s.startup with
      | .noted none => some { s with startup := .releasing [] }
      | .noted (some since) =>
          some { s with startup := .releasing ((s.map.unsentClaims s.queue.outbox since).map (·.1)) }
      | _ => none
  | .clearLink =>
      match s.startup with
      | .releasing (link :: todo) =>
          some { s with startup := .forgetting link todo, albums := s.albums.clearLink link }
      | _ => none
  | .forget =>
      match s.startup with
      | .forgetting link todo =>
          some { s with startup := .releasing todo, map := s.map.forget link }
      | _ => none
  | .serve => if s.startup = .releasing [] then some { s with startup := .serving } else none
  | _ => none

/-! ## the step function -/

/-- The process ends. -/
def State.crash (s : State) : State :=
  { s with queue := s.queue.crash, startup := .recovering,
           inbound := s.inbound.update (fun _ y => y.phase.running)
             fun y => { y with phase := .dead } }

/-- One event. -/
def step (s : State) : Event → Option State
  | .queue e => if s.allows e then (Queue.step s.queue e).map fun queue => { s with queue } else none
  | .crash => some s.crash
  | .arrive target message =>
      -- What MAX pushes of a message of ours says that it is outgoing.
      if s.startup = .serving ∧
          (s.posted.all fun p => p.chatId != message.chatId || p.messageId != message.messageId ||
            message.isOutgoing) then
        some { s with inbound := s.inbound.insert { target, message, phase := .received } }
      else none
  | .check h mirror => s.ofHandler h fun y => s.check h y mirror
  | .claim h telegramChat fingerprint =>
      s.ofHandler h fun y => s.claim h y telegramChat fingerprint
  | .expectPart h => s.ofHandler h (s.expectPart h)
  | .deliver h kind content => s.ofHandler h fun y => s.deliver h y kind content
  | .account h kind noop reason => s.ofHandler h fun y => s.account h y kind noop reason
  | .accountFailed h => s.ofHandler h (s.accountFailed h)
  | .archiveRead h => s.ofHandler h (s.archiveRead h)
  | .archiveWrite h => s.ofHandler h (s.archiveWrite h)
  | .die h => s.ofHandler h fun y => if y.phase.running then some (s.setPhase h .dead) else none
  | .attachTelegram link message =>
      if s.startup = .serving then
        (s.map.attachTelegramMessage link message).map fun map => { s with map }
      else none
  | .attachOwner link account message =>
      if s.startup = .serving then
        some { s with map := s.map.attachOwnerMessage link account message }
      else none
  | .bindOwner link account message =>
      if s.startup = .serving then some { s with map := s.map.bindOwnerMessage link account message }
      else none
  | .record intake =>
      if s.startup = .serving then
        (s.map.recordFromTelegram intake s.queue.now).map fun map => { s with map }
      else none
  | .post a message => s.post a message
  | .answer a => s.answer a
  | e => stepStartup s e

/-- The whole system, from an empty database. -/
def system : Run.Sys State Event where
  start := {}
  step := step

end Telemax.Bridge
