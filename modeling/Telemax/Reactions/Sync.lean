import Mathlib.Logic.Function.Basic
import Telemax.Lib.Run
import Telemax.Reactions.Mapping
import Telemax.Storage.MessageMap

/-!
# Telemax.Reactions.Sync

`ReactionSync` from MAX to Telegram, and the owner's reactions as the worker
applies them: three writers of one snapshot.  A call is one step; what the
renderer answers is part of the event.

What was drawn for the contact, or written down in its place, is kept beside what
the snapshot says of the contact once it has moved.
-/

namespace Telemax.Reactions

inductive ReactionStyle
  | native
  | text
  | off
  deriving DecidableEq, Repr

structure ReactionSnapshot where
  counters : Counters
  yourReaction : Option String

/-- Totals, never authors. -/
structure ReactionUpdate where
  chatId : Int
  messageId : Int
  counters : Counters

/-- What one message carries, as the server reports it when it is asked. -/
structure MessageReactions where
  counters : Counters
  yours : Option String

/-- A note on the durable queue; its key is the message and the emoji. -/
structure Note where
  maxChatId : Int
  maxMessageId : Int
  emoji : String
  chatId : Int
  replyTo : Int
  text : String
  deriving DecidableEq, Repr

/-- The payload of an owner's reaction. -/
structure OwnerReaction where
  pts : Int
  maxChatId : Int
  maxMessageId : Int
  emoji : Option String
  deriving DecidableEq, Repr

/-- A reaction that stands in Telegram, natively or in words. -/
structure Mirrored where
  emoji : String
  theirs : List String
  deriving DecidableEq, Repr

structure Config where
  /-- `telegram_bot_id`. -/
  bot : Int
  style : ReactionStyle
  /-- There is a durable route for notes. -/
  notes : Bool

structure State where
  messages : MessageMap := Table.empty
  /-- `reaction_state`, by the chat and the message in MAX. -/
  snapshots : Int × Int → Option ReactionSnapshot := fun _ => none
  /-- The reaction the bot shows, by the chat and the message in Telegram. -/
  shown : Int × Int → Option String := fun _ => none
  /-- What MAX shows on the owner's behalf. -/
  own : Int × Int → Option String := fun _ => none
  notes : List Note := []
  mirrored : List Mirrored := []

namespace State

variable (cfg : Config)

def put (s : State) (chat message : Int) (snapshot : ReactionSnapshot) : State :=
  { s with snapshots := Function.update s.snapshots (chat, message) (some snapshot) }

/-- The contact's own reactions, as the snapshot has them. -/
def contacts (s : State) (chat message : Int) : Counters :=
  match s.snapshots (chat, message) with
  | some previous => previous.counters.without previous.yourReaction
  | none => Dict.empty

/-- What stands is written down. -/
def mirror (s : State) (chat message : Int) (emoji : String) : State :=
  { s with mirrored := ⟨emoji, (s.contacts chat message).keys⟩ :: s.mirrored }

/-- `set_reaction`: a bot holds one reaction per message. -/
def setReaction (s : State) (accepts : Bool) (chat message : Int) (emoji : Option String) :
    State × Bool :=
  if accepts then ({ s with shown := Function.update s.shown (chat, message) emoji }, true)
  else (s, false)

/-- `_carry_note`: the job is keyed by the message and the emoji. -/
def carryNote (s : State) (emoji : String) (link : MessageLink) : State × Bool :=
  if !cfg.notes then (s, false)
  else
    match link.telegramMessageId, link.maxMessageId with
    | some replyTo, some message =>
        if s.notes.any fun note =>
            note.maxChatId = link.maxChatId && note.maxMessageId = message && note.emoji = emoji then
          (s, true)
        else
          ({ s with notes := s.notes ++
              [⟨link.maxChatId, message, emoji, link.telegramChatId, replyTo, describe emoji⟩] }, true)
    | _, _ => (s, false)

/-- `_draw`: natively if it maps, in words if not, or if Telegram refuses. -/
def draw (s : State) (emoji : String) (link : MessageLink) (accepts : Bool) : State × Bool :=
  match link.telegramMessageId with
  | none => (s, false)
  | some target =>
      match if cfg.style = .native then toTelegram emoji else none with
      | none => s.carryNote cfg emoji link
      | some mapped =>
          let (s, drawn) := s.setReaction accepts link.telegramChatId target (some mapped)
          if drawn then (s, true) else s.carryNote cfg emoji link

/-- `on_max_reaction`. -/
def onMaxReaction (s : State) (event : ReactionUpdate) (accepts : Bool) : State :=
  if cfg.style = .off then s
  else
    let previous := s.snapshots (event.chatId, event.messageId)
    let before : Counters := previous.elim Dict.empty (·.counters)
    let snapshot : ReactionSnapshot := ⟨event.counters, previous.bind (·.yourReaction)⟩
    match s.messages.byMaxMessage event.chatId event.messageId cfg.bot with
    | none => s
    | some (_, link) =>
        match link.telegramMessageId with
        -- No target yet: the snapshot is not advanced.
        | none => s
        | some target =>
            match (before.added event.counters).getLast? with
            | none =>
                if !(before.removed event.counters).isEmpty && cfg.style = .native then
                  let (s, cleared) := s.setReaction accepts link.telegramChatId target none
                  if cleared then s.put event.chatId event.messageId snapshot else s
                else s.put event.chatId event.messageId snapshot
            | some emoji =>
                let (s, stands) := s.draw cfg emoji link accepts
                if stands then
                  (s.put event.chatId event.messageId snapshot).mirror event.chatId event.messageId
                    emoji
                else s

/-- `_reconcile`: bring Telegram in line with what MAX says the message carries now. -/
def reconcile (s : State) (link : MessageLink) (reactions : MessageReactions) (accepts : Bool) :
    State × Bool :=
  match link.maxMessageId, link.telegramMessageId with
  | some message, some target =>
      let theirs := reactions.counters.without reactions.yours
      let snapshot : ReactionSnapshot := ⟨reactions.counters, reactions.yours⟩
      if theirs.same (s.contacts link.maxChatId message) then (s, false)
      else
        match theirs.keys.getLast? with
        | none =>
            if cfg.style = .native then
              let (s, cleared) := s.setReaction accepts link.telegramChatId target none
              if cleared then (s.put link.maxChatId message snapshot, true) else (s, false)
            else (s.put link.maxChatId message snapshot, true)
        -- A dialog's several become the last one named.
        | some emoji =>
            let (s, stands) := s.draw cfg emoji link accepts
            if stands then
              ((s.put link.maxChatId message snapshot).mirror link.maxChatId message emoji, true)
            else (s, false)
  | _, _ => (s, false)

/-- `resolve_reaction`, given the version the owner's state has; nothing where MAX refuses. -/
def resolveReaction (s : State) (job : OwnerReaction) (current : Option Int) (accepts : Bool) :
    State :=
  if current.any (decide <| job.pts < ·) || !accepts then s
  else
    let key := (job.maxChatId, job.maxMessageId)
    let previous := s.snapshots key
    { s with own := Function.update s.own key job.emoji }.put job.maxChatId job.maxMessageId
      ⟨previous.elim Dict.empty (·.counters), job.emoji⟩

end State

inductive Event
  /-- A row of the mapping is written, or gets its Telegram message, or its MAX message. -/
  | mapped (r : MessageLink)
  | attachTelegram (id : Nat) (message : Int)
  | attachMax (id : Nat) (message : Int)
  | maxReaction (event : ReactionUpdate) (accepts : Bool)
  | reconcile (id : Nat) (reactions : MessageReactions) (accepts : Bool)
  | ownerReaction (job : OwnerReaction) (current : Option Int) (accepts : Bool)

namespace State

variable (cfg : Config)

def step (s : State) : Event → Option State
  | .mapped r => (s.messages.tryInsert r).map fun messages => { s with messages }
  | .attachTelegram id message =>
      (s.messages.attachTelegramMessage id message).map fun messages => { s with messages }
  | .attachMax id message =>
      (s.messages.attachMaxMessage id message).map fun messages => { s with messages }
  | .maxReaction event accepts => some (s.onMaxReaction cfg event accepts)
  | .reconcile id reactions accepts =>
      match s.messages.get? id with
      | some link =>
          if link.telegramBotId = cfg.bot then some (s.reconcile cfg link reactions accepts).1
          else none
      | none => none
  | .ownerReaction job current accepts => some (s.resolveReaction job current accepts)

/-! ## what goes wrong where -/

/-- Telegram can show one of these. -/
def mappable (theirs : List String) : Bool := theirs.any fun emoji => (toTelegram emoji).isSome

/-- What is shown is one of these. -/
def showsOne (shown : Option String) (theirs : List String) : Bool :=
  shown.isSome && theirs.any fun emoji => toTelegram emoji = shown

/-- A drawing does not end as a note while the bot shows what is none of the contact's. -/
def drawsWell (s : State) (link : MessageLink) (emoji : String) (theirs : List String)
    (accepts : Bool) : Bool :=
  (toTelegram emoji).isSome && accepts || !cfg.notes || !mappable theirs ||
    showsOne (link.telegramMessageId.bind fun target => s.shown (link.telegramChatId, target)) theirs

/-- The step leaves what the bot shows and what the snapshot says in step. -/
def careful (s : State) : Event → Bool
  | .maxReaction event accepts =>
      let previous := s.snapshots (event.chatId, event.messageId)
      let before : Counters := previous.elim Dict.empty (·.counters)
      let theirs := (event.counters.without (previous.bind (·.yourReaction))).keys
      match s.messages.byMaxMessage event.chatId event.messageId cfg.bot with
      | none => true
      | some (_, link) =>
          match (before.added event.counters).getLast? with
          | none => (before.removed event.counters).isEmpty || !accepts || !mappable theirs
          | some emoji => theirs.contains emoji && s.drawsWell cfg link emoji theirs accepts
  | .reconcile id reactions accepts =>
      let theirs := (reactions.counters.without reactions.yours).keys
      match s.messages.get? id, theirs.getLast? with
      | some link, some emoji => s.drawsWell cfg link emoji theirs accepts
      | _, _ => true
  | .ownerReaction job current accepts =>
      let previous := s.snapshots (job.maxChatId, job.maxMessageId)
      let counters : Counters := previous.elim Dict.empty (·.counters)
      let theirs := (counters.without job.emoji).keys
      let before := (s.contacts job.maxChatId job.maxMessageId).keys
      current.any (decide <| job.pts < ·) || !accepts ||
        (theirs.all before.contains && before.all theirs.contains)
  | _ => true

/-- A message in MAX and the bot's message for it in Telegram. -/
structure Mapped (bot : Int) (messages : MessageMap) (i : Nat) (link : MessageLink)
    (message target : Int) : Prop where
  row : messages.get? i = some link
  bot : link.telegramBotId = bot
  max : link.maxMessageId = some message
  telegram : link.telegramMessageId = some target

/-- What the bot shows is one of the contact's reactions where Telegram has one of them, and
nothing where there are none. -/
structure Right (shown : Option String) (theirs : List String) : Prop where
  none : theirs = [] → shown = Option.none
  one : ∀ emoji ∈ theirs, ∀ mapped, toTelegram emoji = some mapped →
    ∃ emoji' ∈ theirs, ∃ mapped', toTelegram emoji' = some mapped' ∧ shown = some mapped'

/-- What the bot shows is what the snapshot says. -/
structure InStep (s : State) : Prop where
  right : ∀ i link message target, Mapped cfg.bot s.messages i link message target →
    Right (s.shown (link.telegramChatId, target)) (s.contacts link.maxChatId message).keys
  /-- Where a reconciliation finds nothing to do, there is nothing to do. -/
  settled : ∀ i link message target (reactions : MessageReactions),
    Mapped cfg.bot s.messages i link message target →
    (reactions.counters.without reactions.yours).same (s.contacts link.maxChatId message) = true →
    Right (s.shown (link.telegramChatId, target)) (reactions.counters.without reactions.yours).keys
  /-- A reaction of the owner's own is never mirrored back. -/
  notMirrored : ∀ m ∈ s.mirrored, m.emoji ∈ m.theirs

end State

def sys (cfg : Config) : Run.Sys State Event where
  start := {}
  step := State.step cfg

end Telemax.Reactions
