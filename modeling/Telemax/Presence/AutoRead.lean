import Mathlib.Data.List.Basic
import Telemax.Lib.Run
import Telemax.Lib.Tasks
import Telemax.Presence.ReadState
import Telemax.Storage.MessageMap

/-!
# Telemax.Presence.AutoRead

The read marks of one bridge, in both directions: `AutoRead` tells MAX what the owner has read,
`ReadReceipts` shows the owner what the contact has read.  Every call is a task that goes from
await to await, any number of them at once; an await is executed in one step, and the tables of
messages may change between any two.

`words` and `reported` are for the statements only: what passes between the calls and MAX, newest
first, and the marks the contact's reading was reported with.  A request whose answer is lost
stands in `words` without one, whether or not MAX has marked the message.
-/

namespace Telemax.Presence.AutoRead

inductive Mode
  | onRead
  | onReply
  | onDelivery
  | off
  deriving DecidableEq, Repr

/-! ## the queries -/

/-- A row of the mapping the owner has reached: its own id, and the owner-side one. -/
def reachedRow (bridge : String) (account watermark : Int) (row : Nat × MessageLink) :
    Option (Nat × Int) :=
  if row.2.bridgeName = bridge ∧ row.2.direction = .maxToTg ∧
      row.2.telegramOwnerAccountId = some account then
    (row.2.telegramOwnerMessageId.filter (· ≤ watermark)).map fun owner => (row.1, owner)
  else none

/-- A part of an album the owner has reached. -/
def reachedPart (bridge : String) (account watermark : Int) (row : Nat × MediaGroupPart) :
    Option (Nat × Int) :=
  if row.2.bridgeName = bridge ∧ row.2.direction = some .maxToTg ∧
      row.2.telegramOwnerAccountId = some account then
    row.2.linkId.bind fun link =>
      (row.2.telegramOwnerMessageId.filter (· ≤ watermark)).map fun owner => (link, owner)
  else none

/-- Both populations of `last_read_by_owner`. -/
def reached (map : MessageMap) (albums : MediaGroups) (bridge : String) (account watermark : Int) :
    List (Nat × Int) :=
  map.rows.filterMap (reachedRow bridge account watermark) ++
    albums.rows.filterMap (reachedPart bridge account watermark)

/-- `ORDER BY owner_id DESC LIMIT 1`. -/
def furthest : List (Nat × Int) → Option (Nat × Int)
  | [] => none
  | row :: rest =>
      match furthest rest with
      | some other => some (if other.2 ≤ row.2 then row else other)
      | none => some row

/-- `last_read_by_owner`: the greatest owner-side id at or below the watermark. -/
def lastReadByOwner (map : MessageMap) (albums : MediaGroups) (bridge : String)
    (account watermark : Int) : Option MessageLink :=
  (furthest (reached map albums bridge account watermark)).bind fun found => map.get? found.1

/-- `last_sent_to_max`, with its bound in time. -/
def lastSentToMax (map : MessageMap) (bridge : String) (notAfter : Int) : Option MessageLink :=
  ((map.select fun _ r =>
    r.bridgeName == bridge && r.direction == .tgToMax && r.telegramMessageId.isSome &&
      decide ((r.createdAt : Int) ≤ notAfter)).getLast?).map (·.2)

/-! ## the calls -/

/-- Where a call that marks the MAX chat stands. -/
inductive MarkStage
  /-- `last_read_by_owner`. -/
  | looking (account watermark : Int)
  /-- The stored mark is read. -/
  | getting
  /-- `mark_read`. -/
  | marking
  /-- `note_own_read`, the read. -/
  | noting
  /-- `note_own_read`, the write. -/
  | writing (current : ReadMarks)
  | ended (result : Bool)
  deriving DecidableEq, Repr

/-- Where a call that ticks for the contact stands. -/
inductive TickStage
  /-- `last_sent_to_max`. -/
  | looking
  /-- `note_contact_read`, the read. -/
  | getting (ticked : Int)
  /-- `note_contact_read`, the write. -/
  | writing (ticked : Int) (current : ReadMarks)
  | drawing
  | ended (result : Bool)
  deriving DecidableEq, Repr

inductive Task
  | mark (chat message : Int) (stage : MarkStage)
  | tick (mark : Int) (stage : TickStage)
  deriving DecidableEq, Repr

/-- MAX is asked to mark a message, or is heard to have marked it. -/
inductive Word
  | asked (message : Int)
  | heard (message : Int)
  deriving DecidableEq, Repr

namespace Word

def message : Word → Int
  | asked message | heard message => message

def isHeard : Word → Bool
  | asked _ => false
  | heard _ => true

end Word

structure Config where
  bridge : String
  autoRead : Mode
  style : ReadReceiptStyle
  deriving DecidableEq, Repr

structure State where
  row : ReadState := none
  map : MessageMap := .empty
  albums : MediaGroups := .empty
  /-- `_latest_incoming` of the bridge. -/
  latest : Option (Int × Int) := none
  tasks : List Task := []
  words : List Word := []
  reported : List Int := []

inductive Event
  | noteIncoming (chat message : Int)
  | onDeliveredToTelegram
  | onOwnerReplied
  | onOwnerRead (account watermark : Int)
  | markNow
  | onContactRead (mark : Int)
  /-- The next await of a task is executed; a remote call is answered well or not. -/
  | exec (task : Nat) (ok : Bool)
  /-- A task ends at an await. -/
  | dies (task : Nat)
  /-- Others write the tables of messages. -/
  | tables (map : MessageMap) (albums : MediaGroups)
  /-- The process ends, and another one starts. -/
  | restart

namespace State

/-- The ids MAX is heard to have accepted, newest first. -/
def accepted (s : State) : List Int := (s.words.filter Word.isHeard).map Word.message

def start (s : State) (t : Task) : State := { s with tasks := s.tasks ++ [t] }

def set (s : State) (n : Nat) (t : Task) : State := { s with tasks := s.tasks.set n t }

/-- `_mark`. -/
def markLatest (s : State) : State :=
  match s.latest with
  | some (chat, message) => s.start (.mark chat message .getting)
  | none => s

/-- One await of a call that marks. -/
def execMark (cfg : Config) (s : State) (n : Nat) (chat message : Int) (ok : Bool) :
    MarkStage → Option State
  | .looking account watermark =>
      match lastReadByOwner s.map s.albums cfg.bridge account watermark with
      | some link =>
          match link.maxMessageId with
          | some found => some (s.set n (.mark link.maxChatId found .getting))
          | none => some (s.set n (.mark chat message (.ended false)))
      | none => some (s.set n (.mark chat message (.ended false)))
  | .getting =>
      if message ≤ s.row.get.ownReadMark then some (s.set n (.mark chat message (.ended false)))
      else some { s.set n (.mark chat message .marking) with words := .asked message :: s.words }
  | .marking =>
      if ok then
        some { s.set n (.mark chat message .noting) with words := .heard message :: s.words }
      else some (s.set n (.mark chat message (.ended false)))
  | .noting =>
      some (s.set n (.mark chat message
        (if message ≤ s.row.get.ownReadMark then .ended true else .writing s.row.get)))
  | .writing current =>
      some { s.set n (.mark chat message (.ended true)) with
        row := s.row.writeOwnRead current message }
  | .ended _ => none

/-- One await of a call that ticks. -/
def execTick (cfg : Config) (s : State) (n : Nat) (mark : Int) (ok : Bool) :
    TickStage → Option State
  | .looking =>
      match (lastSentToMax s.map cfg.bridge mark).bind (·.telegramMessageId) with
      | some ticked => some (s.set n (.tick mark (.getting ticked)))
      | none => some (s.set n (.tick mark (.ended false)))
  | .getting ticked =>
      some (s.set n (.tick mark
        (if mark ≤ s.row.get.contactReadMark then .ended false
         else .writing ticked s.row.get)))
  | .writing ticked current =>
      some { s.set n (.tick mark .drawing) with
        row := s.row.writeContactRead current mark (some ticked) }
  | .drawing => some (s.set n (.tick mark (.ended ok)))
  | .ended _ => none

end State

def step (cfg : Config) (s : State) : Event → Option State
  | .noteIncoming chat message => some { s with latest := some (chat, message) }
  | .onDeliveredToTelegram => some (if cfg.autoRead = .onDelivery then s.markLatest else s)
  | .onOwnerReplied =>
      some (if cfg.autoRead = .onReply ∨ cfg.autoRead = .onRead then s.markLatest else s)
  | .onOwnerRead account watermark =>
      some (if cfg.autoRead = .onRead then s.start (.mark 0 0 (.looking account watermark)) else s)
  | .markNow => some s.markLatest
  | .onContactRead mark =>
      some (if cfg.style = .off then s
        else { s.start (.tick mark .looking) with reported := mark :: s.reported })
  | .exec n ok =>
      match s.tasks[n]? with
      | some (.mark chat message stage) => s.execMark cfg n chat message ok stage
      | some (.tick mark stage) => s.execTick cfg n mark ok stage
      | none => none
  | .dies n =>
      match s.tasks[n]? with
      | some (.mark chat message _) => some (s.set n (.mark chat message (.ended false)))
      | some (.tick mark _) => some (s.set n (.tick mark (.ended false)))
      | none => none
  | .tables map albums => some { s with map, albums }
  | .restart => some { s with tasks := [], latest := none }

def system (cfg : Config) : Run.Sys State Event where
  start := {}
  step := step cfg

end Telemax.Presence.AutoRead
