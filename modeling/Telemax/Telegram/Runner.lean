import Telemax.Lib.Run
import Telemax.Lib.Typestate
import Telemax.Telegram.Intake

/-!
# Telemax.Telegram.Runner

A runner over its database: starts, stops, cancellations, failures of any
statement, crashes, and whatever Telegram and the dispatcher answer.  A
statement is executed and its result comes back in two steps.

What was fetched, every value the stored offset has had, and what was still open
before each update that the dispatcher was fed, are written down.
-/

namespace Telemax.Telegram.Intake

open Script

/-! ## the tables -/

/-- A row of `telegram_inbox`. -/
structure Row where
  id : Nat
  botId : Int
  updateId : Int
  payload : String
  state : InboxState := .received
  attempts : Nat := 0
  leaseExpiresAt : Option Int := none
  deriving DecidableEq, Repr

def Row.isOpen (r : Row) : Bool := r.state = .received || r.state = .leased

def Row.toUpdate (r : Row) : InboxUpdate := ⟨r.id, r.updateId, r.payload, r.attempts⟩

structure Disk where
  /-- In the order of their ids. -/
  inbox : List Row := []
  /-- The last id given out. -/
  sequence : Nat := 0
  /-- `telegram_offset`. -/
  offsets : Int → Option Int := fun _ => none

def DEFAULT_LEASE_MS : Int := 120000

namespace Disk

def stored (d : Disk) (bot updateId : Int) : Bool :=
  d.inbox.any fun r => r.botId = bot && r.updateId = updateId

/-- `store`: an update that is there already is left alone. -/
def store (d : Disk) (bot updateId : Int) (payload : String) : Disk :=
  if d.stored bot updateId then d
  else
    { d with
      inbox := d.inbox ++ [{ id := d.sequence + 1, botId := bot, updateId, payload }]
      sequence := d.sequence + 1 }

def rememberOffset (d : Disk) (bot next : Int) : Disk :=
  { d with
    offsets := Function.update d.offsets bot (some (match d.offsets bot with
      | some old => max next old
      | none => next)) }

/-- What can be claimed: received, or under a lease that has run out. -/
def claimable (d : Disk) (bot now : Int) : List Row :=
  d.inbox.filter fun r => r.botId = bot &&
    (r.state = .received || r.state = .leased && r.leaseExpiresAt.any (· ≤ now))

def claimOpen (d : Disk) (bot now : Int) (limit : Nat) : List InboxUpdate × Disk :=
  let rows := (d.claimable bot now).take limit
  (rows.map Row.toUpdate,
    { d with
      inbox := d.inbox.map fun r =>
        if r.id ∈ rows.map (·.id) then
          { r with state := .leased, leaseExpiresAt := some (now + DEFAULT_LEASE_MS) }
        else r })

/-- `mark_done`, `mark_failed` and `release`. -/
def mark (d : Disk) (id : Nat) (change : Row → Row) : Disk :=
  { d with
    inbox := d.inbox.map fun r =>
      if r.id = id then { change r with id := r.id, botId := r.botId, updateId := r.updateId }
      else r }

def requeueLeased (d : Disk) : Disk :=
  { d with
    inbox := d.inbox.map fun r =>
      if r.state = .leased then { r with state := .received, leaseExpiresAt := none } else r }

/-- One statement; none where it is not the database that answers. -/
def perform (cfg : Config) (d : Disk) (now : Int) : (a : Await) → Option (a.Reply × Disk)
  | .offset => some (d.offsets cfg.botId, d)
  | .store updateId payload => some ((), d.store cfg.botId updateId payload)
  | .rememberOffset next => some ((), d.rememberOffset cfg.botId next)
  | .claimOpen limit => some (d.claimOpen cfg.botId now limit)
  | .markDone id => some ((), d.mark id fun r =>
      { r with state := .done, payload := "{}", leaseExpiresAt := none })
  | .markFailed id _ => some ((), d.mark id fun r =>
      { r with state := .failed, attempts := r.attempts + 1, leaseExpiresAt := none })
  | .release id _ => some ((), d.mark id fun r =>
      { r with state := .received, attempts := r.attempts + 1, leaseExpiresAt := none })
  | .scheduled | .getUpdates _ | .sleep _ | .feed _ | .idle => none

/-- The value the stored offset has after a statement that writes it. -/
def persists (cfg : Config) (d : Disk) : Await → List Int
  | .rememberOffset _ => (d.offsets cfg.botId).toList
  | _ => []

/-- The updates of the bot that are open, before this one. -/
def openBefore (d : Disk) (bot : Int) (id : Nat) : List Nat :=
  (d.inbox.filter fun r => r.botId = bot && r.isOpen && r.id < id).map (·.id)

end Disk

/-- The answers of the others. -/
inductive Reply
  | done
  | updates (r : Except PollError (List Update))
  deriving DecidableEq, Repr

def Reply.fit : (a : Await) → Reply → Option a.Reply
  | .getUpdates _, .updates r => some r
  | .scheduled, .done | .sleep _, .done | .feed _, .done | .idle, .done => some ()
  | _, _ => none

def Reply.fetched : Reply → List Int
  | .updates (.ok batch) => batch.map (·.updateId)
  | _ => []

/-! ## the tasks -/

/-- What has become of a task. -/
structure Book where
  /-- The offset it has read. -/
  seen : Option Int := none
  /-- Of the last batch, what is still to be stored. -/
  left : List Int := []
  /-- Where the last batch moves the offset. -/
  goal : Option Int := none
  /-- The updates it has claimed and not dealt with yet. -/
  hand : List Nat := []
  /-- It was cancelled while the dispatcher had the update. -/
  cut : Bool := false
  deriving DecidableEq, Repr

/-- Where the statement has been executed, or the question answered. -/
def Book.next (b : Book) : (op : Op) → op.Answer → Book
  | .await .offset, .ok seen => { b with seen }
  | .await (.getUpdates _), .ok (.ok (first :: rest)) =>
      { b with
        seen := none
        left := (first :: rest).map (·.updateId)
        goal := some (highest first rest + 1) }
  | .await (.getUpdates _), _ => { b with seen := none }
  | .await (.store ..), .ok _ => { b with left := b.left.tail }
  | .await (.claimOpen _), .ok claimed => { b with hand := claimed.map (·.id) }
  | .await (.feed _), .error e => { b with cut := decide (e = .cancelled) }
  | .await (.markDone _), .ok _ | .await (.markFailed ..), .ok _ | .await (.release ..), .ok _ =>
      { b with hand := b.hand.tail }
  | _, _ => b

inductive Kind
  | poll
  | intake
  deriving DecidableEq, Repr

def Kind.program (cfg : Config) : Kind → Prog Next
  | .poll => Intake.poll cfg
  | .intake => Intake.intake

structure Task where
  kind : Kind
  prog : Prog Next
  book : Book := {}
  /-- The statement it awaits has been executed: what it will go on with. -/
  ready : Option (Prog Next × Book) := none

namespace Task

def isOver (t : Task) : Bool :=
  match t.prog with
  | .ask _ _ => false
  | .done _ | .fail _ => true

def now (t : Task) : Book := t.ready.elim t.book (·.2)

end Task

/-- An update the dispatcher was fed, and those that were open before it. -/
structure Fed where
  id : Nat
  before : List Nat
  deriving DecidableEq, Repr

structure State where
  disk : Disk := {}
  /-- The process has taken back what the last one left. -/
  booted : Bool := false
  /-- `_offset`. -/
  offset : Option Int := none
  stopping : Bool := false
  tasks : List Task := []
  /-- `_task`: the poll of the last start, unless a stop has taken it. -/
  task : Option Nat := none
  fetched : List Int := []
  /-- The values the stored offset has had, the last one first. -/
  persisted : List Int := []
  fed : List Fed := []

inductive Event
  /-- A process begins. -/
  | boot
  | start
  | stop
  /-- The database executes the statement a task awaits. -/
  | exec (task : Nat) (now : Int)
  | resume (task : Nat)
  | answer (task : Nat) (reply : Reply)
  /-- What a task awaits is raised instead. -/
  | fault (task : Nat) (f : Fault)
  | crash
  /-- The runner of another bot stores an update. -/
  | other (bot updateId : Int)
  deriving DecidableEq, Repr

/-- A task runs on to its next await. -/
def settle (stopping : Bool) : Prog Next → Book → Option Int → Prog Next × Book × Option Int
  | .ask .stopping k, b, o => settle stopping (k stopping) (b.next .stopping stopping) o
  | .ask .current k, b, o => settle stopping (k o) (b.next .current o) o
  | .ask (.move next) k, b, _ => settle stopping (k ()) (b.next (.move next) ()) (some next)
  | .ask (.await a) k, b, o => (.ask (.await a) k, b, o)
  | .done next, b, o => (.done next, b, o)
  | .fail e, b, o => (.fail e, b, o)

namespace State

variable (cfg : Config)

/-- A round that ends is followed by the next one. -/
def runs (s : State) (x : Prog Next) (b : Book) : Prog Next × Book × Option Int :=
  match settle s.stopping x b s.offset with
  | (.done next, b, o) => settle s.stopping (next.round cfg) b o
  | r => r

/-- The update a task hands to the dispatcher as it comes to its next await. -/
def feeds (s : State) : Prog Next → List Fed
  | .ask (.await (.feed u)) _ => [⟨u.id, s.disk.openBefore cfg.botId u.id⟩]
  | _ => []

/-- The task goes on with this program. -/
def advance (s : State) (n : Nat) (t : Task) (x : Prog Next) (b : Book) : State :=
  let r := s.runs cfg x b
  { s with
    offset := r.2.2
    tasks := s.tasks.set n { t with prog := r.1, book := r.2.1, ready := none }
    fed := s.feeds cfg r.1 ++ s.fed }

def isRunning (s : State) : Bool := (s.task.bind (s.tasks[·]?)).any (!·.isOver)

def step (s : State) : Event → Option State
  | .boot =>
      if s.booted then none else some { s with disk := s.disk.requeueLeased, booted := true }
  | .start =>
      if !s.booted then none
      else if s.isRunning then some s
      else
        some { s with
          stopping := false
          tasks := s.tasks ++ [⟨.poll, Kind.poll.program cfg, {}, none⟩,
            ⟨.intake, Kind.intake.program cfg, {}, none⟩]
          task := some s.tasks.length }
  | .stop => some { s with stopping := true, task := none }
  | .exec n now =>
      match s.tasks[n]? with
      | some t =>
          match t.prog with
          | .ask (.await a) k =>
              if t.ready.isNone then
                (s.disk.perform cfg now a).map fun (r, d) =>
                  { s with
                    disk := d
                    persisted := d.persists cfg a ++ s.persisted
                    tasks := s.tasks.set n { t with
                      ready := some (k (.ok r), t.book.next (.await a) (.ok r)) } }
              else none
          | _ => none
      | none => none
  | .resume n =>
      match s.tasks[n]? with
      | some t => t.ready.map fun (x, b) => s.advance cfg n t x b
      | none => none
  | .answer n reply =>
      match s.tasks[n]? with
      | some t =>
          match t.prog with
          | .ask (.await a) k =>
              (reply.fit a).map fun r =>
                { s with fetched := s.fetched ++ reply.fetched }.advance cfg n t (k (.ok r)) (t.book.next (.await a) (.ok r))
          | _ => none
      | none => none
  | .fault n f =>
      match s.tasks[n]? with
      | some t =>
          match t.prog with
          | .ask (.await a) k =>
              some (s.advance cfg n t (k (.error f)) (t.book.next (.await a) (.error f)))
          | _ => none
      | none => none
  | .crash =>
      some { s with booted := false, offset := none, stopping := false, tasks := [], task := none }
  | .other bot updateId =>
      if bot = cfg.botId then none else some { s with disk := s.disk.store bot updateId "" }

/-! ## what goes wrong where -/

/-- Fetched, and not in `telegram_inbox`. -/
def unstored (s : State) (updateId : Int) : Bool :=
  decide (updateId ∈ s.fetched) && !s.disk.stored cfg.botId updateId

/-- Telegram sends what it has not been told of: a batch has nothing below the offset that is not
stored, and leaves out nothing that was fetched before, is not stored, and comes before its
last. -/
def resends (s : State) (ids : List Int) : Bool :=
  (ids.all fun x => s.disk.stored cfg.botId x ||
    s.offset.all (decide <| · ≤ x) && (s.disk.offsets cfg.botId).all (decide <| · ≤ x)) &&
  (s.fetched.all fun y => s.disk.stored cfg.botId y || decide (y ∈ ids) ||
    ids.all (decide <| · ≤ y))

/-- Nothing that is left under a lease comes before what is claimed. -/
def inTurn (s : State) (now : Int) (limit : Nat) : Bool :=
  let claimed := (s.disk.claimOpen cfg.botId now limit).1.map (·.id)
  s.disk.inbox.all fun r => r.botId ≠ cfg.botId || !r.isOpen || decide (r.id ∈ claimed) ||
    claimed.all (decide <| · < r.id)

/-- The step passes nothing by. -/
def careful (s : State) : Event → Bool
  | .start => s.isRunning || s.tasks.all Task.isOver
  | .exec n now =>
      (s.tasks[n]?).all fun t =>
        match t.prog with
        | .ask (.await (.claimOpen limit)) _ => s.inTurn cfg now limit
        | .ask (.await (.release ..)) _ => t.book.cut || decide (t.book.hand.length ≤ 1)
        | _ => true
  | .answer _ (.updates (.ok updates)) => s.resends cfg (updates.map (·.updateId))
  | _ => true

/-- Updates are stored before they are acknowledged, and handled in arrival order. -/
structure Orderly (s : State) : Prop where
  /-- No offset has passed an update that was fetched and is not stored. -/
  acknowledged : ∀ x, s.unstored cfg x = true →
    (∀ o, s.offset = some o → o ≤ x) ∧ ∀ o, s.disk.offsets cfg.botId = some o → o ≤ x
  /-- The stored offset never decreases. -/
  persisted : s.disk.offsets cfg.botId = s.persisted.head? ∧ s.persisted.Pairwise (· ≥ ·)
  /-- What the dispatcher was fed, it was fed in its turn. -/
  inOrder : ∀ f ∈ s.fed, f.before = []

end State

def sys (cfg : Config) : Run.Sys State Event where
  start := {}
  step := State.step cfg

end Telemax.Telegram.Intake
