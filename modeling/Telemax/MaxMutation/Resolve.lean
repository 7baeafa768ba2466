import Mathlib.Data.List.Sort
import Telemax.Lib.World
import Telemax.Routing.Settlement
import Telemax.Storage.MessageMap

/-!
# Telemax.MaxMutation.Resolve

What MAX did to a message it has already sent, carried into Telegram by a durable job: the
target is resolved from what is on disk (`resolve_target`), the transport from what placed the
message there, and `resolve_max_delete` and `resolve_max_edit` are programs over the calls they
make.

Every read of one attempt sees the same tables.
-/

namespace Telemax.MaxMutation

open Script

/-- Shown in place of a message that Telegram will not remove. -/
def deletedNotice : String := "Сообщение удалено в MAX."

/-- How long a mutation waits for the owner's session. -/
def sessionWaitMs : Nat := 5000

/-- Who put the message in the chat, and so who may change it. -/
inductive Authorship
  | bot
  | owner
  deriving DecidableEq, Repr

/-! ## what is on disk -/

/-- One alias of an album, and whether its Telegram message carries the caption. -/
structure AlbumPart extends MediaGroupPart where
  captionPresent : Bool := false
  deriving DecidableEq, Repr

/-- `COALESCE(part_index, telegram_owner_message_id, id)`. -/
def orderKey (row : Nat × AlbumPart) : Int :=
  match row.2.partIndex, row.2.telegramOwnerMessageId with
  | some index, _ => index
  | none, some message => message
  | none, none => row.1

/-- `parts_of_link`: every alias of one canonical message, in canonical order. -/
def partsOfLink (albums : Table AlbumPart) (link : Nat) : List AlbumPart :=
  ((albums.select fun _ p => p.linkId == some link).insertionSort
    fun a b => orderKey a ≤ orderKey b).map (·.2)

/-- The tables a resolver reads. -/
structure Durable where
  messages : MessageMap := .empty
  albums : Table AlbumPart := .empty
  outbox : Outbox := .empty

/-- `_delivering_job`. -/
def deliveringJob (outbox : Outbox) (link : MessageLink) : Option OutboxItem :=
  link.maxMessageId.bind fun message =>
    (outbox.bySourceKey (maxSourceKey link.maxChatId message)).map (·.2)

/-- A number that is there and not zero, or else the other one. -/
def orElse (a b : Option Int) : Option Int :=
  match a with
  | some n => if n = 0 then b else a
  | none => b

/-- Everything a mutation needs.  `messageIds` are the ids of the transport that may change the
message; a message with none is no target. -/
structure MaxTarget where
  authorship : Authorship
  botId : Int
  chatId : Int
  messageIds : List Int
  captionTarget : Option Int
  isMedia : Bool
  placed : messageIds ≠ []

namespace MaxTarget

/-- `message_ids[0]`. -/
def head (t : MaxTarget) : Int := t.messageIds.head t.placed

end MaxTarget

/-- `_caption_target`. -/
def captionTarget (parts : List AlbumPart) (id : AlbumPart → Option Int) : Option Int :=
  parts.findSome? fun p => if p.captionPresent then id p else none

/-- The ids of the parts, or else that of the message itself. -/
def idsOr (ids : List Int) (canonical : Option Int) : List Int :=
  if ids = [] then canonical.toList else ids

/-- The ids and the caption's message, in the numbering of the given author. -/
def numbered (link : MessageLink) (parts : List AlbumPart) : Authorship → List Int × Option Int
  | .owner =>
      (idsOr (parts.filterMap fun p =>
          if link.telegramOwnerAccountId.isNone ||
              p.telegramOwnerAccountId == link.telegramOwnerAccountId
          then p.telegramOwnerMessageId else none) link.telegramOwnerMessageId,
        orElse (captionTarget parts (·.telegramOwnerMessageId)) link.telegramOwnerMessageId)
  | .bot =>
      (idsOr (parts.filterMap (·.telegramMessageId)) link.telegramMessageId,
        orElse (captionTarget parts (·.telegramMessageId)) link.telegramMessageId)

/-- Who placed the message, and whether as media: read off the delivering job, or, without one,
off the columns. -/
def placement (outbox : Outbox) (link : MessageLink) : Authorship × Bool :=
  match deliveringJob outbox link with
  | some job =>
      (if job.kind = .maxToTgOwner then .owner else .bot,
        job.kind == .maxToTgMedia || job.kind == .maxToTgOwner)
  | none => (if link.telegramMessageId.isSome then .bot else .owner, false)

/-- `resolve_target`. -/
def resolveTarget (d : Durable) (linkId : Nat) : Option MaxTarget :=
  match d.messages.get? linkId with
  | some link =>
      let (authorship, media) := placement d.outbox link
      let parts := partsOfLink d.albums linkId
      let (ids, caption) := numbered link parts authorship
      if h : ids = [] then none
      else
        some { authorship, botId := link.telegramBotId, chatId := link.telegramChatId,
               messageIds := ids, captionTarget := caption,
               isMedia := media || !parts.isEmpty, placed := h }
  | none => none

/-! ## the calls -/

/-- `BotMutations` and `OwnerMutations`. -/
inductive Ask
  | delete (bot chat message : Int)
  | editText (bot chat message : Int) (text : String) (entities : Value)
  | editCaption (bot chat message : Int) (caption : String) (entities : Value)
  | deleteOwnMessages (peer : Int) (messages : List Int)
  | editOwnMessage (peer message : Int) (text : String) (entities : Value)
  deriving DecidableEq, Repr

abbrev Reply (_ : Ask) := Except TelegramError Unit

/-- What runs when the job does. -/
abbrev Job := Script Reply SendError

/-! ## `resolve_max_delete` -/

/-- What the loop makes of one answer, with the refusals so far; `go` is the rest of the loop. -/
def afterDelete (go : List String → Job (List String)) (refused : List String) :
    Except TelegramError Unit → Job (List String)
  | .ok () => go refused
  | .error e =>
      match (classifyTelegram e).outcome with
      | .noOp => go refused
      | .noAnswer | .rateLimited => throw (.telegram e)
      | _ => go (refused ++ [(classifyTelegram e).detail])

/-- The loop over the bot's messages. -/
def deleteEach (t : MaxTarget) : List Int → List String → Job (List String)
  | [], refused => pure refused
  | message :: rest, refused =>
      query (.delete t.botId t.chatId message) >>= afterDelete (deleteEach t rest) refused

/-- `_say_it_is_gone`: best effort. -/
def sayItIsGone (t : MaxTarget) : Job Unit :=
  query (.editText t.botId t.chatId t.head deletedNotice .null) >>= fun _ => pure ()

/-- A call whose failure ends the job. -/
def call (i : Ask) : Job Unit :=
  query i >>= fun
    | .ok () => pure ()
    | .error e => throw (.telegram e)

/-- The delete of what was resolved. -/
def deleteTarget (connected : Bool) (linkId : Int) (t : MaxTarget) : Job Unit :=
  match t.authorship with
  | .owner =>
      if connected then call (.deleteOwnMessages t.botId t.messageIds)
      else throw (.deferDelivery sessionWaitMs)
  | .bot =>
      deleteEach t t.messageIds [] >>= fun
        | [] => pure ()
        | first :: more =>
            sayItIsGone t >>= fun _ => throw (.permanentDelivery
              s!"Telegram refused to delete {more.length + 1} of {t.messageIds.length} message(s) for link {linkId}: {first}")

/-- `resolve_max_delete`; `connected` says whether the owner's session is there. -/
def resolveMaxDelete (d : Durable) (connected : Bool) (payload : Payload) : Job Unit :=
  match payload.int? "link_id" with
  | some linkId =>
      match resolveTarget d linkId.toNat with
      | some t => deleteTarget connected linkId t
      | none => pure ()
  | none => pure ()

/-! ## `resolve_max_edit` -/

/-- What `_mutate` makes of an answer; `other` is the other half, where there is one. -/
def afterEdit (what : String) (other : Option (Job Unit)) : Except TelegramError Unit → Job Unit
  | .ok () => pure ()
  | .error e =>
      match (classifyTelegram e).outcome, other with
      | .noOp, _ => pure ()
      | .refusedEditForm, some other => other
      | .noAnswer, _ | .rateLimited, _ => throw (.telegram e)
      | _, _ => throw (.permanentDelivery s!"{what}: {(classifyTelegram e).detail}")

/-- `_mutate`: one idempotent change; the other half is tried on one named refusal only. -/
def mutate (what : String) (i : Ask) (otherwise : Option Ask) : Job Unit :=
  query i >>= afterEdit what (otherwise.map fun other => query other >>= afterEdit what none)

/-- The body for the author: the owner's own rendering, where there is one. -/
def bodyFor (payload : Payload) (authorship : Authorship) : String × Value :=
  let own := if authorship = .owner then (payload.str? "owner_text").getD "" else ""
  if own ≠ "" then (own, (payload.get "owner_entities").getD .null)
  else ((payload.str? "text").getD "", (payload.get "entities").getD .null)

/-- The message that holds the text. -/
def MaxTarget.holder (t : MaxTarget) : Int := (orElse t.captionTarget (some t.head)).getD t.head

/-- The edit of what was resolved. -/
def editTarget (connected : Bool) (t : MaxTarget) (text : String) (entities : Value) : Job Unit :=
  match t.authorship with
  | .owner =>
      if connected then
        mutate s!"owner edit of {t.holder}" (.editOwnMessage t.botId t.holder text entities) none
      else throw (.deferDelivery sessionWaitMs)
  | .bot =>
      let asText := Ask.editText t.botId t.chatId t.holder text entities
      let asCaption := Ask.editCaption t.botId t.chatId t.holder text entities
      if t.isMedia then mutate s!"caption of {t.holder}" asCaption (some asText)
      else mutate s!"text of {t.holder}" asText (some asCaption)

/-- `resolve_max_edit`. -/
def resolveMaxEdit (d : Durable) (connected : Bool) (payload : Payload) : Job Unit :=
  match payload.int? "link_id" with
  | some linkId =>
      match resolveTarget d linkId.toNat with
      | some t =>
          let (text, entities) := bodyFor payload t.authorship
          if text = "" then pure () else editTarget connected t text entities
      | none => pure ()
  | none => pure ()

end Telemax.MaxMutation
