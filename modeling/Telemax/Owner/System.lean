import Telemax.Owner.Jobs
import Telemax.Queue.System

/-!
# Telemax.Owner.System

What the owner does in Telegram, carried into MAX, as one transition system over
the queue:

* the intakes `on_telegram_text`, `on_telegram_contact` and `on_telegram_media`,
  and `carry_emoji_note`, any number of passes over any message;
* the owner's edits and deletes, each a job of its own, and what `resolve_edit`
  and `resolve_delete` do when the job runs;
* the sends into MAX, the messages they create there, and the answers.

Every event is at most one event of `Telemax.Queue.System` together with what it
changes around the queue, so a run of this system is a run of the queue with more
to see.  `calls` and `edits` are for the statements only: the `edit_text` calls
made, and the edits handed to the queue.
-/

namespace Telemax.Owner

/-! ## senders -/

/-- Where a send, an edit or a delete stands between two awaits. -/
inductive Stage
  | begun
  /-- The mark of the send could not be written. -/
  | lost
  /-- MAX has created the message; the answer is on its way. -/
  | created (message : Int)
  /-- An edit that found no delete of its message. -/
  | checked
  /-- The mapping row it acts on. -/
  | linked (row : MessageLink)
  /-- The job of the send, as it was read. -/
  | found (send : Nat × OutboxItem)
  /-- A delete in `archive`, with the row it read. -/
  | archiving (job : Nat) (read : OutboxItem)
  /-- Waiting for MAX to answer a call that reached it, or did not. -/
  | calling (reached : Bool)
  | ended (outcome : Outcome)
  deriving DecidableEq, Repr

/-- A message a send created in MAX. -/
structure Bubble where
  chatId : Int
  messageId : Int
  /-- The key of the job that created it, and the attempt. -/
  job : String
  attempt : Nat
  text : String
  deleted : Bool := false
  deriving DecidableEq, Repr

/-- One `edit_text` call. -/
structure Call where
  account : Int
  key : String
  /-- The job that made it. -/
  job : String
  chatId : Int
  messageId : Int
  text : String
  deriving DecidableEq, Repr

/-- Everything around the queue. -/
structure World where
  map : MessageMap := .empty
  albums : MediaGroups := .empty
  passes : Table Pass := .empty
  stage : Nat → Stage := fun _ => .begun
  chat : List Bubble := []
  calls : List Call := []
  edits : List Edit := []

structure State extends World where
  queue : Queue.State := {}

/-- What an event is: an event of the queue, if any, and the world after it. -/
abbrev Move := Option Queue.Event × World

inductive Event
  | queue (e : Queue.Event)
  | crash
  /-- A message is handed to its intake. -/
  | arrive (m : Message)
  /-- `_max_reply_target`. -/
  | reply (pass : Nat)
  /-- `link_of`, for an album. -/
  | locate (pass : Nat)
  /-- `by_owner_account_message`, for an album. -/
  | locateHead (pass : Nat)
  /-- `_record_intake`, or `record_from_telegram` for a note. -/
  | record (pass : Nat)
  /-- `bind_link`. -/
  | bind (pass : Nat)
  /-- `enqueue_batch_in_order`. -/
  | file (pass : Nat)
  /-- `submit` or `submit_in_kind_order`, for the next part. -/
  | submit (pass : Nat)
  /-- The inline attempt of a part has ended. -/
  | resume (pass : Nat)
  /-- An exception or a cancellation at an await of the pass. -/
  | passDies (pass : Nat)
  /-- `on_owner_edit`; `stripped` is the text without the bridge's own rendering. -/
  | edit (account message : Int) (text : String) (pts : Nat) (fingerprint stripped : String)
  /-- `on_owner_delete`, for one id. -/
  | delete (account message : Int)
  /-- An oversized text of an older process is split. -/
  | split (attempt : Nat)
  /-- MAX creates the message of a send. -/
  | post (attempt : Nat) (message : Int)
  /-- The answer, and `settle_max_delivery_mapping`. -/
  | answer (attempt : Nat)
  /-- The next step of `resolve_edit` or `resolve_delete`. -/
  | work (attempt : Nat) (reaches : Bool)
  /-- The second half of `archive`, in `resolve_delete`. -/
  | archiveWrite (attempt index : Nat)
  /-- A part of an album of the owner is stored. -/
  | ownPart (account peer grouped message : Int) (bridge : String)
  /-- A part of an album from MAX is expected, and later seen by the owner's session. -/
  | expectPart (link index : Nat) (bridge : String) (bot : Int)
  | seenPart (part : Nat) (account message : Int)
  /-- `claim_from_max`. -/
  | claimMax (target : BridgeTarget) (message telegramChat : Int) (fingerprint : Option String)
  /-- `attach_telegram_message`, `attach_owner_message`, `bind_owner_message`. -/
  | attachTelegram (link : Nat) (message : Int)
  | attachOwner (link : Nat) (account message : Int)
  | bindOwner (link : Nat) (account message : Int)
  /-- A claim from MAX that nothing came of is released: its aliases, then itself. -/
  | clearLink (link : Nat)
  | forget (link : Nat)
  deriving DecidableEq, Repr

/-! ## parts of a move -/

namespace State

/-- A move of the world alone, while the service is up. -/
def quiet (s : State) (w : World) : Option Move :=
  if s.queue.mode = .up then some (none, w) else none

/-- A move of the queue, with the world after it. -/
def queued (e : Queue.Event) (w : World) : Option Move := some (some e, w)

def setStage (s : State) (a : Nat) (stage : Stage) : World :=
  { s.toWorld with stage := Function.update s.stage a stage }

def setPass (s : State) (p : Nat) (f : Pass → Pass) : World :=
  { s.toWorld with passes := s.passes.modify p f }

def setProgress (s : State) (p : Nat) (progress : Progress) : World :=
  s.setPass p fun y => { y with progress }

/-- A move of a pass that stands where this one does. -/
def ofPass (s : State) (p : Nat) (progress : Progress) (f : Pass → Option Move) : Option Move :=
  match s.passes.get? p with
  | some y => if y.progress = progress then f y else none
  | none => none

/-- A move of an attempt that is in its sender. -/
def ofSender (s : State) (a : Nat) (f : Attempt → Option Move) : Option Move :=
  match s.queue.attempts.get? a with
  | some x => if x.phase = .inSender then f x else none
  | none => none

/-! ### whose message an id names -/

/-- The owner wrote the message with this id. -/
def ownerWrote (s : State) (account message : Int) : Bool :=
  (s.passes.holdsOf fun _ y =>
      y.message.account == some account && y.message.messageId == message) ||
    s.albums.holdsOf fun _ p =>
      p.direction == some .tgToMax && p.telegramOwnerAccountId == some account &&
        p.telegramOwnerMessageId == some message

/-- The bridge put the message with this id there. -/
def bridgePlaced (s : State) (account message : Int) : Bool :=
  (s.map.holdsOf fun _ r =>
      r.sourceMarker == .fromMax && r.telegramOwnerAccountId == some account &&
        r.telegramOwnerMessageId == some message) ||
    s.albums.holdsOf fun _ p =>
      p.direction != some .tgToMax && p.telegramOwnerAccountId == some account &&
        p.telegramOwnerMessageId == some message

/-- A single message, not a part of an album. -/
def single (s : State) (account message : Int) : Bool :=
  s.passes.holdsOf fun _ y =>
    y.message.account == some account && y.message.messageId == message && y.message.album.isNone

/-- The message was handed to an intake before, as one of another album or of none. -/
def regrouped (s : State) (account : Int) (m : Message) : Bool :=
  s.passes.holdsOf fun _ y =>
    y.message.account == some account && y.message.messageId == m.messageId &&
      y.message.album != m.album

/-- Can this be handed to an intake?  An id of the owner's names one message, which is in one album
for good or in none, and a note has no id of its own. -/
def admits (s : State) (m : Message) : Bool :=
  match m.account with
  | some account =>
      !m.isNote && !s.bridgePlaced account m.messageId && !s.regrouped account m &&
        (m.album.isSome || (s.albums.byOwnerMessage account m.messageId).isNone)
  | none => true

/-! ### the queue -/

/-- The kinds of job the owner's messages, edits and deletes become. -/
def ownKinds : List JobKind :=
  [.tgToMaxText, .tgToMaxContact, .tgToMaxMedia, .tgToMaxEdit, .tgToMaxDelete]

/-- The first fields of the keys of these jobs. -/
def ownSchemes : List (List Char) :=
  ["tg-owner-msg".toList, "tg".toList, "tg-owner-note".toList, "tg-owner-edit".toList,
    "tg-owner-delete".toList, "legacy-text".toList]

/-- A job of some other part of the service. -/
def foreign (spec : JobSpec) : Bool :=
  !(spec.kind ∈ ownKinds) && (keyFields spec.sourceKey).head?.all fun f => !(f ∈ ownSchemes)

/-- May the sender announce its remote call?  A text that is too long is split instead. -/
def mayMark (s : State) (a : Nat) : Bool :=
  match s.queue.attempts.get? a with
  | some x =>
      !(x.spec.kind ∈ ownKinds) ||
        (isCreating x.spec.kind && s.stage a == .begun && !x.marked &&
          (x.spec.kind != .tgToMaxText ||
            (x.spec.payload.str? "text").any fun text => (splitMaxText text).length ≤ 1))
  | none => true

/-- What may come out of an await that does nothing in MAX. -/
def interrupts : SendError → Bool
  | .cancelled | .other _ _ => true
  | _ => false

/-- What an answer that does not come looks like. -/
def provesNothing : SendError → Bool
  | .unconfirmedDelivery _ | .maxUnconfirmedSend _ => true
  | error => interrupts error

/-- Is this a wait for the send? -/
def defers : SendError → Bool
  | .deferDelivery _ => true
  | _ => false

/-- How a sender of these kinds can end. -/
def mayEnd (s : State) (a : Nat) (outcome : Outcome) : Bool :=
  match s.queue.attempts.get? a with
  | some x =>
      !(x.spec.kind ∈ ownKinds) ||
        match s.stage a, outcome with
        | .ended outcome', outcome => outcome == outcome'
        | _, .delivered _ => false
        | .begun, .raised error => isCreating x.spec.kind || interrupts error
        | .created _, .raised error => provesNothing error
        | .calling _, .raised error => !defers error
        | _, .raised error => interrupts error
  | none => true

/-- Whose decision is being written: the owner's, or that of a delete? -/
def ownersDecision : Outbox.Decision → Bool
  | .archive reason => reason != deletedReason
  | _ => true

/-- What the queue may do by itself. -/
def allows (s : State) : Queue.Event → Bool
  | .submit spec _ => foreign spec
  | .enqueueBatch specs => specs.all foreign
  | .sending a | .sendingLost a => s.mayMark a
  | .settle a outcome _ => s.mayEnd a outcome
  | .decide _ decision => ownersDecision decision
  | .decideWrite index => (s.queue.decisions[index]?).all fun d => ownersDecision d.2.1
  | .cancelPending .. | .replacePendingPayload .. | .replaceFailedPayload .. | .crash => false
  | _ => true

/-- What a sender's end leaves behind it. -/
def afterQueue (s : State) : Queue.Event → World
  | .settle a outcome _ => s.setStage a (.ended outcome)
  | .sendingLost a => s.setStage a .lost
  | _ => s.toWorld

/-! ### a pass -/

/-- `_max_reply_target`.  The lookups follow one another; what they find goes into
the payload and nowhere else. -/
def maxReplyTarget (s : State) (m : Message) : Option Int :=
  m.replyTo.bind fun replied =>
    match m.account with
    | some account =>
        match s.map.byOwnerAccountMessage account replied with
        | some (_, r) => r.maxMessageId
        | none =>
            (s.albums.byOwnerMessage account replied).bind fun part =>
              part.2.linkId.bind fun link => (s.map.get? link).bind (·.maxMessageId)
    | none =>
        match s.map.first fun _ r =>
            r.telegramBotId == m.target.botId && r.telegramMessageId == some replied with
        | some (_, r) => r.maxMessageId
        | none =>
            (s.albums.first fun _ p =>
              p.botId == m.target.botId && p.telegramMessageId == some replied).bind fun part =>
                part.2.linkId.bind fun link => (s.map.get? link).bind (·.maxMessageId)

def reply (s : State) (p : Nat) (y : Pass) : Option Move :=
  s.quiet (s.setPass p fun _ =>
    { y with reply := s.maxReplyTarget y.message,
             progress := if y.message.album.isSome then .locating else .recording })

/-- `_album_mapping`, the first question. -/
def locate (s : State) (p : Nat) (y : Pass) : Option Move :=
  match y.message.album.bind s.albums.linkOf with
  | some link => s.quiet (s.setPass p fun _ => y.mapped link)
  | none => s.quiet (s.setProgress p (if y.message.account.isSome then .locatingHead else .recording))

/-- `_album_mapping`, the second. -/
def locateHead (s : State) (p : Nat) (y : Pass) : Option Move :=
  match y.message.account.bind fun account =>
      s.map.byOwnerAccountMessage account y.message.messageId with
  | some (link, _) => s.quiet (s.setPass p fun _ => y.mapped link)
  | none => s.quiet (s.setProgress p .recording)

/-- `_record_intake`; the `IntegrityError` of an index ends the pass. -/
def record (s : State) (p : Nat) (y : Pass) : Option Move :=
  match s.map.recordFromTelegram y.message.intake s.queue.now with
  | some map =>
      s.quiet { s.setPass p fun _ => y.mapped s.map.next with map }
  | none => s.quiet (s.setProgress p .dead)

def bind (s : State) (p : Nat) (y : Pass) : Option Move :=
  match y.message.album, y.link with
  | some group, some link =>
      s.quiet { s.setProgress p (.turn 0) with albums := s.albums.bindLink group link }
  | _, _ => none

def file (s : State) (p : Nat) (y : Pass) : Option Move :=
  queued (.enqueueBatch y.parts) (s.setProgress p (.turn 0))

/-- The attempt of the part gets the next key. -/
def submit (s : State) (p index : Nat) (y : Pass) : Option Move :=
  match y.parts[index]? with
  | some spec =>
      queued (.submit spec y.message.barrier) (s.setProgress p (.waiting index s.queue.attempts.next))
  | none => none

/-- `classify_refusal`: MAX refuses it for ever, and the owner is told so. -/
def refusedForEver (error : SendError) : Bool :=
  match error with
  | .api e => (classifyMaxError e).permanent
  | e => (classifyMaxError { error := "", text := e.text }).permanent

/-- What the pass makes of the end of an inline attempt. -/
def afterPart (y : Pass) (index : Nat) (x : Attempt) (stage : Stage) : Progress :=
  match x.phase, stage with
  | .over, .ended (.delivered (some _)) =>
      if index + 1 < y.parts.length then .turn (index + 1) else .over
  | .over, .ended (.raised error) =>
      match (settle x.spec.kind error x.marked).verdict with
      | .ambiguous | .defer => .over
      | .permanent | .retry =>
          match y.message.content with
          | .media .. | .note .. => .dead
          | _ => if refusedForEver error then .over else .dead
  | .over, _ => .over
  | _, _ => .dead

def resume (s : State) (p index a : Nat) (y : Pass) : Option Move :=
  match s.queue.attempts.get? a with
  | some x =>
      if x.phase.running then none
      else s.quiet (s.setProgress p (afterPart y index x (s.stage a)))
  | none => none

/-! ### sends into MAX -/

/-- What a send shows in MAX. -/
def shown (p : Payload) : String := ((p.str? "text").orElse fun _ => p.str? "caption").getD ""

/-- Has MAX given this id to a message already? -/
def known (s : State) (chat message : Int) : Bool :=
  (s.chat.any fun b => b.chatId == chat && b.messageId == message) ||
    s.map.holdsOf fun _ r => r.maxChatId == chat && r.maxMessageId == some message

/-- MAX creates the message of a marked send, under an id of its own choice. -/
def post (s : State) (a : Nat) (message : Int) (x : Attempt) : Option Move :=
  match x.spec.payload.int? "max_chat_id" with
  | some chat =>
      if x.spec.kind ∈ ownKinds ∧ isCreating x.spec.kind = true ∧ x.marked = true ∧
          s.stage a = .begun ∧ s.known chat message = false then
        s.quiet { s.setStage a (.created message) with
          chat := { chatId := chat, messageId := message, job := x.spec.sourceKey, attempt := a,
                    text := shown x.spec.payload } :: s.chat }
      else none
  | none => none

/-- The answer has come: `settle_max_delivery_mapping`. -/
def answer (s : State) (a : Nat) (x : Attempt) : Option Move :=
  match s.stage a with
  | .created message =>
      match x.spec.payload.int? "link_id" with
      | some link =>
          match s.map.attachMaxMessage link.toNat message with
          | some map => s.quiet { s.setStage a (.ended (.delivered (some message))) with map }
          | none => s.quiet (s.setStage a (.ended (.raised (.other "IntegrityError" ""))))
      | none => s.quiet (s.setStage a (.ended (.delivered (some message))))
  | _ => none

/-- The jobs an oversized text of an older process is split into. -/
def legacyParts (r : MessageLink) (p : Payload) (link : Nat) (chunks : List String) :
    List JobSpec :=
  chunks.zipIdx.map fun (chunk, index) =>
    { bridgeName := r.bridgeName, direction := .tgToMax, kind := .tgToMaxText,
      payload :=
        [("max_chat_id", (p.get "max_chat_id").getD .null), ("text", .str chunk),
          ("reply_to", if index = 0 then (p.get "reply_to").getD .null else .null)] ++
          if index = 0 then [("link_id", .int link)] else [],
      sourceKey := textPartSourceKey (legacyTextSourceKey link) index chunks.length }

def split (s : State) (a : Nat) (x : Attempt) : Option Move :=
  match x.spec.payload.str? "text", x.spec.payload.int? "link_id" with
  | some text, some link =>
      let chunks := splitMaxText text
      if x.spec.kind = .tgToMaxText ∧ s.stage a = .begun ∧ x.marked = false ∧
          1 < chunks.length then
        match s.map.get? link.toNat with
        | some r =>
            queued (.enqueueBatch (legacyParts r x.spec.payload link.toNat chunks))
              (s.setStage a (.ended (.delivered none)))
        | none =>
            s.quiet (s.setStage a
              (.ended (.raised (.other "RuntimeError" "an oversized text job lost its mapping"))))
      else none
  | _, _ => none

/-! ### edits and deletes -/

/-- `_owner_target`, from the mapping alone. -/
def mappedTarget (s : State) (account message : Int) : Option (Mutation × MessageLink) :=
  (s.map.byOwnerAccountMessage account message).map fun found =>
    ({ account, message, link := some found.1, key := toString message,
       sendKey := sendSourceKey account message }, found.2)

/-- `_owner_target`. -/
def ownerTarget (s : State) (account message : Int) : Option (Mutation × MessageLink) :=
  match s.albums.byOwnerMessage account message with
  | some (_, part) =>
      match part.linkId.bind fun link => (s.map.get? link).map (link, ·) with
      | some (link, r) =>
          let canonical :=
            match r.telegramOwnerMessageId with
            | some id => if id = 0 then message else id
            | none => message
          some
            ({ account, message := canonical, link := some link, key := part.mediaGroupId,
               sendKey := if part.direction = some .tgToMax then
                            ownerAlbumSourceKey part.mediaGroupId
                          else sendSourceKey account canonical }, r)
      | none => s.mappedTarget account message
  | none => s.mappedTarget account message

/-- A mutation's job. -/
def mutationSpec (kind : JobKind) (r : MessageLink) (key : String) (payload : Payload) : JobSpec where
  bridgeName := r.bridgeName
  direction := .tgToMax
  kind := kind
  payload := payload
  sourceKey := key

/-- `on_owner_edit`.  One version of a message is one text. -/
def edit (s : State) (account message : Int) (text : String) (pts : Nat)
    (fingerprint stripped : String) : Option Move :=
  match s.ownerTarget account message with
  | some (target, r) =>
      let text := if r.sourceMarker = .fromMax then stripped else text
      let d : Edit := { target, chat := r.maxChatId, pts, fingerprint, text }
      if text ≠ "" ∧ (s.edits.all fun d' =>
          d'.jobKey != d.jobKey || (d'.target.account == account && d'.target.key == target.key &&
            d'.pts == pts && d'.text == text)) then
        queued (.submit (mutationSpec .tgToMaxEdit r d.jobKey d.payload) .none)
          { s.toWorld with edits := d :: s.edits }
      else none
  | none => none

/-- `on_owner_delete`. -/
def delete (s : State) (account message : Int) : Option Move :=
  match s.ownerTarget account message with
  | some (target, r) =>
      queued (.submit (mutationSpec .tgToMaxDelete r (deleteSourceKey account target.key)
        (target.payload r.maxChatId)) .none) s.toWorld
  | none => none

/-- `_target`. -/
def canonical (s : State) (d : Mutation) : Option (Nat × MessageLink) :=
  match d.link.bind fun link => (s.map.get? link).map (link, ·) with
  | some found => some found
  | none => s.map.byOwnerAccountMessage d.account d.message

/-- The sender returns without an id. -/
def finish (s : State) (a : Nat) : World := s.setStage a (.ended (.delivered none))

/-- The sender waits for the send. -/
def postpone (s : State) (a : Nat) : World :=
  s.setStage a (.ended (.raised (.deferDelivery waitMs)))

/-- `edit_text`. -/
def callEdit (s : State) (a : Nat) (x : Attempt) (d : Mutation) (chat message : Int)
    (text : String) (reaches : Bool) : World :=
  { s.setStage a (.calling reaches) with
    calls := { account := d.account, key := d.key, job := x.spec.sourceKey, chatId := chat,
               messageId := message, text } :: s.calls,
    chat := s.chat.map fun b =>
      if reaches && b.chatId == chat && b.messageId == message then { b with text } else b }

/-- `delete_messages`. -/
def callDelete (s : State) (a : Nat) (chat message : Int) (reaches : Bool) : World :=
  { s.setStage a (.calling reaches) with
    chat := s.chat.map fun b =>
      if reaches && b.chatId == chat && b.messageId == message then { b with deleted := true }
      else b }

/-- What either resolver makes of the send's job; `call` is its remote call. -/
def ofSend (s : State) (a : Nat) (what : String) (send : Option (Nat × OutboxItem))
    (call : Int → World) : World :=
  match send with
  | none => s.finish a
  | some send =>
      match send.2.state with
      | .pending | .failed => s.setStage a (.found send)
      | .inflight => s.postpone a
      | .done =>
          match send.2.remoteMessageId with
          | some message => call message
          | none => s.finish a
      | .ambiguous =>
          s.setStage a (.ended (.raised (.unconfirmedDelivery
            s!"the original send is ambiguous; the {what} is withheld for the owner")))
      | .expired | .archived => s.finish a

/-- `resolve_edit`. -/
def workEdit (s : State) (a : Nat) (x : Attempt) (d : Mutation) (text : String)
    (reaches : Bool) : Option Move :=
  match s.stage a with
  | .begun =>
      s.quiet
        (match s.queue.outbox.bySourceKey (deleteSourceKey d.account d.key) with
          | some _ => s.finish a
          | none => s.setStage a .checked)
  | .checked =>
      s.quiet
        (match s.canonical d with
          | none => s.finish a
          | some (_, r) =>
              match r.maxMessageId with
              | some message => s.callEdit a x d r.maxChatId message text reaches
              | none => s.setStage a (.linked r))
  | .linked r =>
      s.quiet (s.ofSend a "edit" (s.queue.outbox.bySourceKey d.sendKey) fun message =>
        s.callEdit a x d r.maxChatId message text reaches)
  | .found send =>
      if send.2.state = .pending then
        queued (.replacePendingPayload d.sendKey (withText send.2.payload text))
          (if s.queue.outbox.anyUnsent d.sendKey then s.finish a else s.postpone a)
      else
        queued (.replaceFailedPayload d.sendKey (withText send.2.payload text)) (s.finish a)
  | .calling true => s.quiet (s.finish a)
  | _ => none

/-- `resolve_delete`. -/
def workDelete (s : State) (a : Nat) (d : Mutation) (reaches : Bool) : Option Move :=
  match s.stage a with
  | .begun =>
      s.quiet
        (match s.canonical d with
          | none => s.finish a
          | some (_, r) => s.setStage a (.linked r))
  | .linked r =>
      s.quiet
        (match r.maxMessageId with
          | some message => s.callDelete a r.maxChatId message reaches
          | none =>
              s.ofSend a "delete" (s.queue.outbox.bySourceKey d.sendKey) fun message =>
                s.callDelete a r.maxChatId message reaches)
  | .found send =>
      if send.2.state = .pending then
        queued (.cancelPending d.sendKey "cancelled: owner deleted before send")
          (if s.queue.outbox.anyUnsent d.sendKey then s.finish a else s.postpone a)
      else
        match s.queue.outbox.get? send.1 with
        | some r =>
            if (Outbox.Decision.archive deletedReason).allows r then
              queued (.decide send.1 (.archive deletedReason)) (s.setStage a (.archiving send.1 r))
            else s.quiet (s.finish a)
        | none => s.quiet (s.finish a)
  | .calling true => s.quiet (s.finish a)
  | _ => none

def work (s : State) (a : Nat) (reaches : Bool) (x : Attempt) : Option Move :=
  match Mutation.read x.spec.payload with
  | some d =>
      match x.spec.kind with
      | .tgToMaxEdit => (x.spec.payload.str? "text").bind fun text => s.workEdit a x d text reaches
      | .tgToMaxDelete => s.workDelete a d reaches
      | _ => none
  | none => none

def archiveWrite (s : State) (a index : Nat) : Option Move :=
  match s.stage a with
  | .archiving job read =>
      if s.queue.decisions[index]? = some (job, .archive deletedReason, read) then
        queued (.decideWrite index) (s.finish a)
      else none
  | _ => none

/-! ### the step function -/

/-- The process ends. -/
def crash (s : State) : World :=
  { s.toWorld with passes := s.passes.update (fun _ y => y.progress.running)
                     fun y => { y with progress := .dead } }

/-- The part `OwnerAlbums.add` stores. -/
def ownedPart (s : State) (account peer grouped message : Int) (bridge : String) :
    MediaGroupPart where
  mediaGroupId := ownerAlbumNamespace account peer grouped
  bridgeName := bridge
  botId := peer
  createdAt := s.queue.now
  direction := some .tgToMax
  telegramOwnerAccountId := some account
  telegramOwnerMessageId := some message

/-- The alias `_expect_album` stores. -/
def expectedPart (s : State) (link index : Nat) (bridge : String) (bot : Int) :
    MediaGroupPart where
  mediaGroupId := expectedAlbumNamespace link
  bridgeName := bridge
  botId := bot
  createdAt := s.queue.now
  linkId := some link
  direction := some .maxToTg
  partIndex := some index

/-- Rows of the mapping the other direction writes. -/
def fromMax (s : State) (link : Nat) (p : MessageLink → Bool) : Bool :=
  (s.map.get? link).any fun r => r.sourceMarker == .fromMax && p r

/-- What an event is in this state. -/
def move (s : State) : Event → Option Move
  | .queue e => if s.allows e then queued e (s.afterQueue e) else none
  | .crash => queued .crash s.crash
  | .arrive m =>
      if s.admits m then s.quiet { s.toWorld with passes := s.passes.insert (.begin m) } else none
  | .reply p => s.ofPass p .replying (s.reply p)
  | .locate p => s.ofPass p .locating (s.locate p)
  | .locateHead p => s.ofPass p .locatingHead (s.locateHead p)
  | .record p => s.ofPass p .recording (s.record p)
  | .bind p => s.ofPass p .binding (s.bind p)
  | .file p => s.ofPass p .filing (s.file p)
  | .submit p =>
      match s.passes.get? p with
      | some y =>
          match y.progress with
          | .turn index => s.submit p index y
          | _ => none
      | none => none
  | .resume p =>
      match s.passes.get? p with
      | some y =>
          match y.progress with
          | .waiting index a => s.resume p index a y
          | _ => none
      | none => none
  | .passDies p =>
      match s.passes.get? p with
      | some y =>
          match y.progress with
          | .waiting .. | .over | .dead => none
          | _ => s.quiet (s.setProgress p .dead)
      | none => none
  | .edit account message text pts fingerprint stripped =>
      s.edit account message text pts fingerprint stripped
  | .delete account message => s.delete account message
  | .split a => s.ofSender a (s.split a)
  | .post a message => s.ofSender a (s.post a message)
  | .answer a => s.ofSender a (s.answer a)
  | .work a reaches => s.ofSender a (s.work a reaches)
  | .archiveWrite a index => s.ofSender a fun _ => s.archiveWrite a index
  | .ownPart account peer grouped message bridge =>
      if s.bridgePlaced account message || s.single account message then none
      else
        s.quiet { s.toWorld with
          albums := s.albums.addPart (s.ownedPart account peer grouped message bridge) }
  | .expectPart link index bridge bot =>
      if s.fromMax link fun _ => true then
        s.quiet { s.toWorld with albums := s.albums.addPart (s.expectedPart link index bridge bot) }
      else none
  | .seenPart part account message =>
      if (s.albums.get? part).any (fun p => p.direction == some .maxToTg) &&
          !s.ownerWrote account message then
        s.quiet { s.toWorld with albums := s.albums.attachOwnerMessage part account message }
      else none
  | .claimMax target message telegramChat fingerprint =>
      s.quiet { s.toWorld with map := (s.map.claimFromMax (MessageMap.newClaim target.name
        target.maxChatId message target.botId telegramChat fingerprint s.queue.now)).1 }
  | .attachTelegram link message =>
      match s.map.attachTelegramMessage link message with
      | some map => s.quiet { s.toWorld with map }
      | none => none
  | .attachOwner link account message =>
      if s.fromMax link (fun _ => true) && !s.ownerWrote account message then
        s.quiet { s.toWorld with map := s.map.attachOwnerMessage link account message }
      else none
  | .bindOwner link account message =>
      if s.fromMax link (fun _ => true) && !s.ownerWrote account message then
        s.quiet { s.toWorld with map := s.map.bindOwnerMessage link account message }
      else none
  | .clearLink link =>
      if s.fromMax link fun r => !MessageMap.delivered r then
        s.quiet { s.toWorld with albums := s.albums.clearLink link }
      else none
  | .forget link =>
      if s.fromMax link fun r => !MessageMap.delivered r then
        s.quiet { s.toWorld with map := s.map.forget link }
      else none

end State

/-- One event. -/
def step (s : State) (e : Event) : Option State :=
  match s.move e with
  | some (some qe, w) => (Queue.step s.queue qe).map fun queue => ⟨w, queue⟩
  | some (none, w) => some ⟨w, s.queue⟩
  | none => none

/-- The whole system, from an empty database. -/
def system : Run.Sys State Event where
  start := {}
  step := step

end Telemax.Owner
