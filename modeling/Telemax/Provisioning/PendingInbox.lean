import Telemax.Lib.Run
import Telemax.Lib.Typestate
import Telemax.Provisioning.Pending

/-!
# Telemax.Provisioning.PendingInbox

Any number of messages, activations, decisions and sweeps over one database.  A
statement is executed, and its result comes back to the call that awaits it, in
two steps: between them, and at any other await, the call can be cancelled and
the process can die.

What leaves `pending_inbox` is written down with the call that took it, what an
activation has taken and not offered to the bot yet is in its book, and what was
sent is written down as it was sent.
-/

namespace Telemax.Provisioning.Pending

open Script

/-! ## the tables -/

structure Disk where
  contacts : Int → Option Contact
  /-- In the order of their ids. -/
  inbox : List Row
  /-- The last id given out. -/
  sequence : Nat

namespace Disk

def held (d : Disk) (chat : Int) : List Row := d.inbox.filter (·.maxChatId = chat)

def old (d : Disk) (cutoff : Int) : List Row := d.inbox.filter (·.createdAt < cutoff)

def get (d : Disk) (chat : Int) : Option PendingContact :=
  (d.contacts chat).map fun c => { c with buffered := (d.held chat).length }

def updateContact (d : Disk) (chat : Int) (change : Contact → Contact) : Disk :=
  { d with contacts := Function.update d.contacts chat ((d.contacts chat).map change) }

def noteSeen (d : Disk) (chat : Int) (user : Option Int) (name : Option String) : Disk :=
  { d with contacts := Function.update d.contacts chat (some
      (match d.contacts chat with
      | some c =>
          { c with maxUserId := user.or c.maxUserId, displayName := name.or c.displayName }
      | none => ⟨user, name, .new, none⟩)) }

def insertHeld (d : Disk) (chat : Int) (payload : Payload) (now : Int) : Disk :=
  { d with
    inbox := d.inbox ++ [⟨d.sequence + 1, chat, payload, now⟩]
    sequence := d.sequence + 1 }

/-- One statement; none where it is not the database that answers. -/
def perform (d : Disk) (now : Int) : (a : Await) → Option (a.Reply × Disk)
  | .getContact chat => some (d.get chat, d)
  | .upsertContact chat user name => some ((), d.noteSeen chat user name)
  | .setState chat state =>
      some ((), d.updateContact chat fun c =>
        { c with state, askedAt := if state = .asked then some now else c.askedAt })
  | .markAsked chat =>
      some ((), d.updateContact chat fun c =>
        { c with state := .asked, askedAt := some (max now (c.askedAt.getD 0 + 1)) })
  | .countHeld chat => some ((d.held chat).length, d)
  | .insertHeld chat payload => some ((), d.insertHeld chat payload now)
  | .selectHeld chat => some (d.held chat, d)
  | .deleteHeld chat => some ((), { d with inbox := d.inbox.filter (¬·.maxChatId = chat) })
  | .selectOld cutoff => some (d.old cutoff, d)
  | .deleteOld cutoff => some ((), { d with inbox := d.inbox.filter (¬·.createdAt < cutoff) })
  | .acquire | .byMaxChat _ | .uniqueName _ | .saveSecret .. | .upsertBridge _ | .add _
  | .send .. => none

end Disk

/-- The answers of the others. -/
inductive Reply
  | done
  | bridge (record : Option (String × Bool))
  | name (name : String)
  | bot (id : Option Int)
  deriving DecidableEq, Repr

def Reply.fit : (a : Await) → Reply → Option a.Reply
  | .byMaxChat _, .bridge r => some r
  | .uniqueName _, .name n => some n
  | .add _, .bot b => some b
  | .saveSecret .., .done | .upsertBridge _, .done | .send .., .done => some ()
  | _, _ => none

/-! ## the calls -/

inductive Kind
  | message (m : IncomingMaxMessage) (displayName : Option String)
  | activate (chat : Int) (token : String) (name : Option String)
  | ignore (chat : Int) (block : Bool)
  /-- `expire_buffered`, at this time of the clock. -/
  | expireBuffered (now : Int)
  deriving DecidableEq, Repr

inductive Outcome
  | announced (announcement : Option PendingAnnouncement)
  | activated (bridge : String)
  | ignored
  | expired (count : Nat)
  deriving DecidableEq, Repr

def Kind.program (cfg : Config) : Kind → Prog Outcome
  | .message m displayName => .announced <$> onUnbridgedMessage cfg m displayName
  | .activate chat token name => .activated <$> Pending.activate cfg chat token name
  | .ignore chat block => (fun _ => .ignored) <$> Pending.ignore chat block
  | .expireBuffered now => .expired <$> expire (now - cfg.pendingTtlDays * 86400000)

def Kind.activates : Kind → Bool
  | .activate .. => true
  | _ => false

/-- The contact a call is about. -/
def Kind.chat : Kind → Option Int
  | .message m _ => some m.chatId
  | .activate chat .. | .ignore chat _ => some chat
  | .expireBuffered _ => none

/-- What has become of a call. -/
structure Book where
  locked : Bool := false
  /-- It has seen room for a message of this chat. -/
  room : Option Int := none
  /-- What it has read to delete. -/
  read : List Row := []
  /-- What it has deleted, the result being on its way to it. -/
  taken : List Row := []
  /-- All it has deleted. -/
  gone : List Row := []
  /-- The bridge it has written down, and for whom. -/
  bot : Option (String × Int) := none
  /-- What it has taken and not offered to the bot yet. -/
  owed : List Row := []
  /-- It has looked for the bridge. -/
  asked : Bool := false
  /-- It was cancelled while it offered something. -/
  cut : Bool := false
  deriving DecidableEq, Repr

/-- Where the statement has been executed, or the question answered. -/
def Book.next (cap : Nat) (b : Book) : (op : Op) → op.Answer → Book
  | .release, _ => { b with locked := false, room := none }
  | .byName _, live => { b with asked := true, owed := if live then b.owed else [] }
  | .await .acquire, .ok _ => { b with locked := true }
  | .await (.countHeld chat), .ok held => { b with room := if held < cap then some chat else none }
  | .await (.insertHeld ..), .ok _ => { b with room := none }
  | .await (.selectHeld _), .ok rows => { b with read := rows }
  | .await (.selectOld _), .ok rows => { b with read := rows }
  | .await (.deleteHeld _), .ok _ => { b with taken := b.read, gone := b.gone ++ b.read }
  | .await (.deleteOld _), .ok _ => { b with taken := b.read, gone := b.gone ++ b.read }
  | .await (.upsertBridge record), .ok _ => { b with bot := some (record.bridgeName, record.maxChatId) }
  | .await (.send ..), .ok _ => { b with owed := b.owed.tail }
  | .await (.send ..), .error e =>
      { b with room := none, owed := b.owed.tail, cut := decide (e = .cancelled) }
  | .await _, .error _ => { b with room := none }
  | .await _, .ok _ => b

/-- The result has come back: an activation owes the bot what it has taken. -/
def Book.resumed (kind : Kind) (b : Book) : Book :=
  { b with
    taken := []
    owed := if kind.activates then b.owed ++ b.taken.filter (·.payload.shown ≠ "") else b.owed }

structure Task where
  kind : Kind
  prog : Prog Outcome
  book : Book := {}
  /-- The statement it awaits has been executed: what it will go on with. -/
  ready : Option (Prog Outcome × Book) := none

namespace Task

def isOver (t : Task) : Bool :=
  match t.prog with
  | .ask _ _ => false
  | .done _ | .fail _ => true

def now (t : Task) : Book := t.ready.elim t.book (·.2)

/-- What it is offering to the bot. -/
def offering (t : Task) : List Row :=
  match t.prog with
  | .ask (.await (.send ..)) _ => t.book.owed.take 1
  | _ => []

/-- The text it is sending, and to which bridge. -/
def sending (t : Task) : List (String × String) :=
  match t.prog with
  | .ask (.await (.send bridge text)) _ => [(bridge, text)]
  | _ => []

/-- What it has taken and does not offer yet. -/
def owes (t : Task) : List Row := t.book.owed.drop t.offering.length

end Task

/-- Rows taken out of `pending_inbox`, and by whom. -/
structure Handout where
  task : Nat
  /-- By an activation; else the owner has blocked the contact, or the time was up. -/
  activates : Bool
  rows : List Row
  /-- The call has them. -/
  returned : Bool := false
  deriving DecidableEq, Repr

/-- The call has got what it took. -/
def Handout.toldTo (n : Nat) (h : Handout) : Handout :=
  if h.task = n then { h with returned := true } else h

structure State where
  disk : Disk
  /-- Who holds the lock. -/
  holder : Option Nat := none
  /-- The bridges that are up. -/
  live : String → Bool
  tasks : List Task := []
  /-- Every message that was buffered. -/
  buffered : List Row := []
  out : List Handout := []
  /-- What the sends that were called were called for. -/
  offered : List Row := []
  /-- The texts they were called with, and for which bridge. -/
  sent : List (String × String) := []
  /-- The bridges that were written down, and for whom. -/
  records : List (String × Int) := []
  /-- The contacts whose activation has begun. -/
  begun : List Int := []
  /-- What has been held for a contact since its activation began. -/
  due : List Row := []

inductive Event
  | call (kind : Kind)
  | acquire (task : Nat)
  /-- The database executes the statement a call awaits. -/
  | exec (task : Nat) (now : Int)
  | resume (task : Nat)
  | answer (task : Nat) (reply : Reply)
  /-- What a call awaits is raised instead. -/
  | fault (task : Nat) (f : Fault)
  /-- A bridge comes up or goes down. -/
  | registry (bridge : String) (live : Bool)
  | crash
  deriving DecidableEq, Repr

/-- The bridge that is written down. -/
def Await.record : Await → List (String × Int)
  | .upsertBridge record => [(record.bridgeName, record.maxChatId)]
  | _ => []

/-- A call runs on to its next await; whether it gave the lock back on the way. -/
def settle (cap : Nat) (live : String → Bool) : Prog Outcome → Book → Bool →
    Prog Outcome × Book × Bool
  | .ask .release k, b, _ => settle cap live (k ()) (b.next cap .release ()) true
  | .ask (.byName name) k, b, freed =>
      settle cap live (k (live name)) (b.next cap (.byName name) (live name)) freed
  | .ask (.await a) k, b, freed => (.ask (.await a) k, b, freed)
  | .done a, b, freed => (.done a, b, freed)
  | .fail e, b, freed => (.fail e, b, freed)

namespace State

variable (cfg : Config)

/-- The call goes on with this program. -/
def advance (s : State) (n : Nat) (t : Task) (x : Prog Outcome) (b : Book) : State :=
  let r := settle cfg.pendingMaxMessages s.live x b false
  { s with
    holder := if r.2.2 then none else s.holder
    tasks := s.tasks.set n { t with prog := r.1, book := r.2.1, ready := none } }

/-- The call leaves the database with what it did there. -/
def wrote (s : State) (n : Nat) (t : Task) (d : Disk) : (a : Await) → Book → State
  | .insertHeld chat _, _ =>
      { s with
        disk := d
        buffered := s.buffered ++ d.inbox.drop s.disk.inbox.length
        due := if chat ∈ s.begun then s.due ++ d.inbox.drop s.disk.inbox.length else s.due }
  | .deleteHeld _, b | .deleteOld _, b =>
      { s with disk := d, out := s.out ++ [⟨n, t.kind.activates, b.taken, false⟩] }
  | _, _ => { s with disk := d }

def step (s : State) : Event → Option State
  | .call kind =>
      let t : Task := { kind, prog := kind.program cfg }
      let s := match kind with
        | .activate chat _ _ =>
            { s with begun := chat :: s.begun, due := s.due ++ s.disk.held chat }
        | _ => s
      some ({ s with tasks := s.tasks ++ [t] }.advance cfg s.tasks.length t t.prog t.book)
  | .acquire n =>
      match s.tasks[n]? with
      | some t =>
          match t.prog with
          | .ask (.await .acquire) k =>
              if s.holder = none then
                some ({ s with holder := some n }.advance cfg n t (k (.ok ()))
                  (t.book.next cfg.pendingMaxMessages (.await .acquire) (.ok ())))
              else none
          | _ => none
      | none => none
  | .exec n now =>
      match s.tasks[n]? with
      | some t =>
          match t.prog with
          | .ask (.await a) k =>
              if t.ready.isNone then
                (s.disk.perform now a).map fun (r, d) =>
                  let b := t.book.next cfg.pendingMaxMessages (.await a) (.ok r)
                  let s := s.wrote n t d a b
                  { s with tasks := s.tasks.set n { t with ready := some (k (.ok r), b) } }
              else none
          | _ => none
      | none => none
  | .resume n =>
      match s.tasks[n]? with
      | some t =>
          t.ready.map fun (x, b) =>
            { s with out := s.out.map (Handout.toldTo n) }.advance cfg n t x (b.resumed t.kind)
      | none => none
  | .answer n reply =>
      match s.tasks[n]? with
      | some t =>
          match t.prog with
          | .ask (.await a) k =>
              (reply.fit a).map fun r =>
                { s with
                  offered := s.offered ++ t.offering
                  sent := s.sent ++ t.sending
                  records := s.records ++ a.record }.advance cfg n t (k (.ok r))
                  ((t.book.next cfg.pendingMaxMessages (.await a) (.ok r)).resumed t.kind)
          | _ => none
      | none => none
  | .fault n f =>
      match s.tasks[n]? with
      | some t =>
          match t.prog with
          | .ask (.await a) k =>
              some ({ s with
                offered := s.offered ++ t.offering
                sent := s.sent ++ t.sending }.advance cfg n t (k (.error f))
                ((t.book.next cfg.pendingMaxMessages (.await a) (.error f)).resumed t.kind))
          | _ => none
      | none => none
  | .registry bridge live => some { s with live := Function.update s.live bridge live }
  | .crash =>
      some { s with
        holder := none
        live := fun _ => false
        offered := s.offered ++ s.tasks.flatMap Task.offering
        sent := s.sent ++ s.tasks.flatMap Task.sending
        tasks := s.tasks.map fun t =>
          { t with prog := .fail (.fault .cancelled), book := {}, ready := none } }

/-! ## what goes wrong where -/

/-- Every bridge that is looked for on the way to the next await is up. -/
def findsBridge (live : String → Bool) : Prog Outcome → Bool
  | .ask .release k => findsBridge live (k ())
  | .ask (.byName bridge) k => live bridge && findsBridge live (k true)
  | _ => true

/-- Who takes these rows away activates the contact, or nobody has begun to. -/
def mayTake (s : State) (t : Task) (rows : List Row) : Bool :=
  t.kind.activates || rows.all fun r => decide (r.maxChatId ∉ s.begun)

/-- The step takes away no message that is not handed out for it, and leaves none that is. -/
def careful (s : State) : Event → Bool
  | .exec n _ =>
      (s.tasks[n]?).all fun t =>
        match t.prog with
        | .ask (.await (.deleteHeld chat)) _ =>
            decide (s.disk.held chat = t.book.read) && s.mayTake t t.book.read
        | .ask (.await (.deleteOld cutoff)) _ =>
            decide (s.disk.old cutoff = t.book.read) && s.mayTake t t.book.read
        | _ => true
  | .resume n =>
      (s.tasks[n]?).all fun t => t.ready.all fun (x, b) =>
        !t.kind.activates || decide (b.taken = []) ||
          b.taken.all (fun r => decide (r.payload.shown ≠ "")) && findsBridge s.live x
  | .fault n f =>
      (s.tasks[n]?).all fun t =>
        decide (t.now.taken = []) && (decide (t.owes = []) || decide (f ≠ .cancelled))
  | .crash => s.tasks.all fun t => decide (t.now.taken = []) && decide (t.owes = [])
  | .call _ | .acquire _ | .answer _ _ | .registry _ _ => true

/-- What a call has taken out of `pending_inbox`. -/
def takenBy (s : State) (n : Nat) : List Row :=
  (s.out.filter fun h => decide (h.task = n)).flatMap (·.rows)

/-- The pending inbox loses and doubles nothing. -/
structure Lossless (s : State) : Prop where
  /-- A message that was buffered is on disk or has been taken out of it once. -/
  once : (s.disk.inbox ++ s.out.flatMap (·.rows)).Perm s.buffered
  distinct : s.buffered.Nodup
  /-- Whoever took it has it, or is about to. -/
  handed : ∀ h ∈ s.out, h.rows ≠ [] → h.returned = true ∨
    ∃ t, s.tasks[h.task]? = some t ∧ ∃ x b, t.ready = some (x, b) ∧ b.taken = h.rows
  /-- In the order in which they were buffered. -/
  order : ∀ h ∈ s.out, h.rows.Sublist s.buffered
  cap : ∀ chat, (s.disk.held chat).length ≤ cfg.pendingMaxMessages
  /-- A sweep has counted what it took. -/
  counted : ∀ (n : Nat) (t : Task) (count : Nat), s.tasks[n]? = some t →
    t.prog = .done (.expired count) → count = (s.takenBy n).length
  /-- What was held for a contact since its activation began is on disk, has been offered to the
  bot, or an activation that is still running is about to. -/
  carried : ∀ r ∈ s.due, r ∈ s.disk.inbox ∨ r ∈ s.offered ∨
    ∃ t ∈ s.tasks, t.isOver = false ∧ t.kind.activates = true ∧
      (r ∈ t.book.owed ∨ r ∈ t.now.taken)
  /-- What was offered was sent, once and in this order: what there is to show of it, to the bridge
  that was written down for the contact. -/
  told : List.Forall₂ (fun send r => (send.1, r.maxChatId) ∈ s.records ∧ send.2 = r.payload.shown)
    s.sent s.offered

end State

def sys (cfg : Config) : Run.Sys State Event where
  start := { disk := ⟨fun _ => none, [], 0⟩, live := fun _ => false }
  step := State.step cfg

end Telemax.Provisioning.Pending
