import Mathlib.Logic.Function.Basic
import Telemax.Lib.Run
import Telemax.Lib.Typestate
import Telemax.Presence.ReadState

/-!
# Telemax.Presence.StatusLine

One bridge's status line: refreshes started by deliveries and by the contact's
reading, over one row of `read_state` and one flag that says that the line is no
longer the last message of the chat.

A refresh is a program over what it awaits; the flag and the clock are asked for
without an await.  A statement is executed and its result comes back in two
steps, what the renderer answers comes back in one.
-/

namespace Telemax.Presence.StatusLine

open Script

def DELIVERED_MARK : String := "✓ доставлено"

def READ_MARK : String := "✓✓ прочитано"

def SEPARATOR : String := " · "

structure Config where
  style : ReadReceiptStyle
  /-- `format_clock`, of the moment it is looked at and the moment it shows. -/
  formatClock : Int → Int → String

/-- The line's text, as of a moment. -/
def render (cfg : Config) (now deliveredAt readAt : Int) : String :=
  let delivered :=
    if deliveredAt ≠ 0 then [DELIVERED_MARK ++ " " ++ cfg.formatClock now deliveredAt] else []
  let read := if readAt ≠ 0 then [READ_MARK ++ " " ++ cfg.formatClock now readAt] else []
  SEPARATOR.intercalate (delivered ++ read)

inductive Await
  | noteDelivered (at_ : Int)
  /-- The caller stores the contact's mark, over what it has read of the row. -/
  | storeContactRead (current : ReadMarks) (mark : Int) (ticked : Option Int)
  | get
  | editStatus (message : Int) (text : String)
  | deleteStatus (message : Int)
  | sendStatus (text : String)
  | setStatusLine (message : Int) (text : String)

abbrev Await.Reply : Await → Type
  | .get => ReadMarks
  | .editStatus .. | .deleteStatus _ => Bool
  | .sendStatus _ => Option Int
  | _ => Unit

inductive Op
  | await (a : Await)
  | now
  | stale
  | discardStale

abbrev Op.Answer : Op → Type
  | .await a => a.Reply
  | .now => Int
  | .stale => Bool
  | .discardStale => Unit

/-- Nothing is raised here. -/
abbrev Prog := Script Op.Answer Empty

def await (a : Await) : Prog a.Reply := query (Op.await a)

def now : Prog Int := query Op.now

/-- `bridge_name in self._stale`. -/
def isStale : Prog Bool := query Op.stale

def discardStale : Prog Unit := query Op.discardStale

/-- Which of its returns a call comes to. -/
inductive Ended
  | disabled
  | nothingToReport
  | unchanged
  | edited
  | notSent
  | posted
  deriving DecidableEq, Repr

/-- The line in front of the chat's last message is taken down, and a new one is sent. -/
def repost (messageId : Option Int) (text : String) : Prog Ended := do
  match messageId with
  | some message => let _ ← await (.deleteStatus message)
  | none => pure ()
  match ← await (.sendStatus text) with
  | none => return .notSent
  | some new =>
      discardStale
      await (.setStatusLine new text)
      return .posted

/-- `_refresh`. -/
def refresh (cfg : Config) : Prog Ended := do
  let marks ← await .get
  let now ← now
  let text := render cfg now marks.deliveredAt marks.contactReadMark
  if text = "" then return .nothingToReport
  let stale ← isStale
  match marks.statusMessageId, stale with
  | some message, false =>
      if some text = marks.statusText then return .unchanged
      if ← await (.editStatus message text) then
        await (.setStatusLine message text)
        return .edited
      -- The line is gone, or too old to edit.
      repost (some message) text
  | messageId, _ => repost messageId text

/-- What starts a refresh. -/
inductive Kind
  | delivered (at_ : Int)
  | read (current : ReadMarks) (mark : Int) (ticked : Option Int)
  deriving DecidableEq, Repr

def Config.enabled (cfg : Config) : Bool := cfg.style = .line

def noteDelivered (cfg : Config) (at_ : Int) : Prog Ended := do
  if !cfg.enabled then return .disabled
  await (.noteDelivered at_)
  refresh cfg

def noteRead (cfg : Config) : Prog Ended :=
  if !cfg.enabled then return .disabled
  else refresh cfg

def Kind.program (cfg : Config) : Kind → Prog Ended
  | .delivered at_ => noteDelivered cfg at_
  | .read current mark ticked => do
      await (.storeContactRead current mark ticked)
      noteRead cfg

/-! ## the tasks -/

/-- How far a refresh has come. -/
inductive Stage
  /-- It has not read the marks. -/
  | outside
  | read
  /-- There is no line in place of which it would send one, or it has asked for its deletion. -/
  | cleared
  | edited (message : Int)
  | posted (message : Int)
  | notSent
  | stored (message : Int)
  deriving DecidableEq, Repr

structure Book where
  stage : Stage := .outside
  /-- The marks it has read. -/
  marks : ReadMarks := {}
  /-- The moment its text is as of. -/
  now : Int := 0
  /-- What it was told of the flag. -/
  stale : Option Bool := none
  deriving DecidableEq, Repr

/-- Where the statement has been executed, or the question answered. -/
def Book.next (b : Book) : (op : Op) → op.Answer → Book
  | .await .get, (marks : ReadMarks) =>
      { b with marks, stage := if marks.statusMessageId.isNone then .cleared else .read }
  | .now, now => { b with now }
  | .stale, stale => { b with stale := some stale }
  | .await (.editStatus message _), true => { b with stage := .edited message }
  | .await (.deleteStatus _), _ => { b with stage := .cleared }
  | .await (.sendStatus _), some new => { b with stage := .posted new }
  | .await (.sendStatus _), none => { b with stage := .notSent }
  | .await (.setStatusLine message _), _ => { b with stage := .stored message }
  | _, _ => b

structure Task where
  prog : Prog Ended
  book : Book := {}
  /-- The statement it awaits has been executed: what it will go on with. -/
  ready : Option (Prog Ended × Book) := none
  /-- How much activity there had been when it came to its await. -/
  since : Nat := 0

namespace Task

def isOver (t : Task) : Bool :=
  match t.prog with
  | .ask _ _ => false
  | .done _ | .fail _ => true

def now (t : Task) : Book := t.ready.elim t.book (·.2)

/-- It has read the marks, and is not through. -/
def inside (t : Task) : Bool := !t.isOver && t.now.stage ≠ .outside

/-- A new line has been asked for, and nobody knows yet whether it is there. -/
def sends (t : Task) : Bool :=
  match t.prog with
  | .ask (.await (.sendStatus _)) _ => true
  | _ => false

/-- It is about to read the marks. -/
def reads (t : Task) : Bool :=
  match t.prog with
  | .ask (.await .get) _ => true
  | _ => false

end Task

/-- What a refresh does with the line. -/
inductive Choice
  | blank
  | keep
  | edit
  | repost
  deriving DecidableEq, Repr

def Choice.of : Prog Ended → Choice
  | .done .nothingToReport => .blank
  | .ask (.await (.deleteStatus _)) _ | .ask (.await (.sendStatus _)) _ => .repost
  | .ask _ _ => .edit
  | .done _ | .fail _ => .keep

/-- A refresh has looked at the line; there had been activity past it, or not. -/
structure Decision where
  activity : Bool
  choice : Choice
  deriving DecidableEq, Repr

structure State where
  row : ReadState := none
  /-- The bridge is in `_stale`. -/
  stale : Bool := false
  tasks : List Task := []
  /-- Every status message there has been. -/
  posted : List Int := []
  /-- What a message was last made to say. -/
  texts : Int → String := fun _ => ""
  /-- The messages that were asked to be deleted, and those of which Telegram has said yes or no. -/
  asked : List Int := []
  deleted : List Int := []
  refused : List Int := []
  /-- How often there has been activity, and how much of it before the last line was asked for. -/
  activity : Nat := 0
  covered : Nat := 0
  decisions : List Decision := []
  /-- How the last refresh ended, and the moment its text was as of. -/
  last : Option (Ended × Int) := none

/-- The answers of the renderer. -/
inductive Reply
  | accepted (b : Bool)
  | sent (message : Option Int)
  deriving DecidableEq, Repr

def Reply.fit : Reply → (a : Await) → Option a.Reply
  | .accepted b, .editStatus .. | .accepted b, .deleteStatus _ => some b
  | .sent message, .sendStatus _ => some message
  | _, _ => none

/-- A new message has an id of its own. -/
def Reply.isFresh (posted : List Int) : Reply → Bool
  | .sent (some message) => message ∉ posted
  | _ => true

inductive Event
  | activity
  | note (kind : Kind)
  /-- The database executes the statement a task awaits. -/
  | exec (task : Nat)
  | resume (task : Nat) (now : Int)
  | answer (task : Nat) (reply : Reply)
  deriving DecidableEq, Repr

/-- A task runs on to its next await. -/
def settle (now : Int) : Prog Ended → Book → Bool → Prog Ended × Book × Bool
  | .ask .now k, b, stale => settle now (k now) (b.next .now now) stale
  | .ask .stale k, b, stale => settle now (k stale) (b.next .stale stale) stale
  | .ask .discardStale k, b, _ => settle now (k ()) (b.next .discardStale ()) false
  | .ask (.await a) k, b, stale => (.ask (.await a) k, b, stale)
  | .done e, b, stale => (.done e, b, stale)

/-- One statement; none where it is not the database that answers. -/
def perform (row : ReadState) : (a : Await) → Option (a.Reply × ReadState)
  | .noteDelivered at_ => some ((), row.noteDelivered at_)
  | .storeContactRead current mark ticked => some ((), row.writeContactRead current mark ticked)
  | .get => some (row.get, row)
  | .setStatusLine message text => some ((), row.setStatusLine (some message) (some text))
  | .editStatus .. | .deleteStatus _ | .sendStatus _ => none

/-- What a task asks to be deleted as it comes to its next await. -/
def deletes : Prog Ended → List Int
  | .ask (.await (.deleteStatus message)) _ => [message]
  | _ => []

def ends (x : Prog Ended) (b : Book) (last : Option (Ended × Int)) : Option (Ended × Int) :=
  match x with
  | .done e => some (e, b.now)
  | _ => last

namespace State

variable (cfg : Config)

/-- What the renderer has done, for a task that had seen so much activity when it asked. -/
def rendered (s : State) (since : Nat) : (a : Await) → a.Reply → State
  | .editStatus message text, true => { s with texts := Function.update s.texts message text }
  | .deleteStatus message, true => { s with deleted := message :: s.deleted }
  | .deleteStatus message, false => { s with refused := message :: s.refused }
  | .sendStatus text, some message =>
      { s with
        posted := message :: s.posted
        texts := Function.update s.texts message text
        covered := max s.covered since }
  | _, _ => s

/-- The task has come to its next await. -/
def arrive (s : State) (n : Nat) (r : Prog Ended × Book × Bool) : State :=
  { s with
    stale := r.2.2
    tasks := s.tasks.set n { prog := r.1, book := r.2.1, since := s.activity }
    asked := deletes r.1 ++ s.asked
    last := ends r.1 r.2.1 s.last }

/-- The task goes on with this program. -/
def advance (s : State) (n : Nat) (now : Int) (x : Prog Ended) (b : Book) : State :=
  s.arrive n (settle now x b s.stale)

/-- The marks have come back to a task: what it will do with the line. -/
def decision (s : State) (now : Int) (x : Prog Ended) (b : Book) : Decision :=
  ⟨decide (s.covered < s.activity), .of (settle now x b s.stale).1⟩

def step (s : State) : Event → Option State
  | .activity =>
      some (if cfg.enabled then { s with stale := true, activity := s.activity + 1 } else s)
  | .note kind => some { s with tasks := s.tasks ++ [{ prog := kind.program cfg }] }
  | .exec n =>
      match s.tasks[n]? with
      | some t =>
          match t.prog with
          | .ask (.await a) k =>
              if t.ready.isNone then
                (perform s.row a).map fun (r, row) =>
                  { s with
                    row
                    tasks := s.tasks.set n { t with
                      ready := some (k r, t.book.next (.await a) r) } }
              else none
          | _ => none
      | none => none
  | .resume n now =>
      match s.tasks[n]? with
      | some t =>
          t.ready.map fun (x, b) =>
            if t.reads then
              { s with decisions := s.decision now x b :: s.decisions }.advance n now x b
            else s.advance n now x b
      | none => none
  | .answer n reply =>
      match s.tasks[n]? with
      | some t =>
          match t.prog with
          | .ask (.await a) k =>
              if t.ready.isNone && reply.isFresh s.posted then
                (reply.fit a).map fun r =>
                  (s.rendered t.since a r).advance n t.book.now (k r) (t.book.next (.await a) r)
              else none
          | _ => none
      | none => none

/-! ## what goes wrong where -/

/-- The marks are read while no other refresh is under way, and there is no activity while a new
line has been asked for. -/
def careful (s : State) : Event → Bool
  | .activity => s.tasks.all fun t => !t.sends
  | .exec n => (s.tasks[n]?).all fun t => !t.reads || s.tasks.all fun u => !u.inside
  | _ => true

/-- No refresh has read the marks and is still at the line. -/
def Still (s : State) : Prop := ∀ t ∈ s.tasks, t.inside = false

/-- Nor is there a call that will come to read them. -/
def Idle (s : State) : Prop := ∀ t ∈ s.tasks, t.isOver = true

/-- One status line, showing the truth. -/
structure OneLine (s : State) : Prop where
  /-- Every line but the stored one was asked to be deleted. -/
  others : s.Still → ∀ message ∈ s.posted,
    s.row.get.statusMessageId = some message ∨ message ∈ s.asked
  /-- At most one remains when no deletion was refused. -/
  remains : s.Still → s.refused = [] → ∀ message ∈ s.posted, message ∉ s.deleted →
    s.row.get.statusMessageId = some message
  /-- The stored line shows the newest marks when the last refresh has edited or posted it, or
  has found that it says so. -/
  shows : s.Idle → ∀ ended now, s.last = some (ended, now) →
    ended = .edited ∨ ended = .posted ∨ ended = .unchanged →
    ∃ message, s.row.get.statusMessageId = some message ∧
      s.texts message = render cfg now s.row.get.deliveredAt s.row.get.contactReadMark
  /-- Activity past the line is not forgotten … -/
  stale : s.covered < s.activity → s.stale = true
  /-- … and a refresh that looks at the line then sends a new one. -/
  reposts : ∀ d ∈ s.decisions, d.activity = true → d.choice = .blank ∨ d.choice = .repost

end State

def sys (cfg : Config) : Run.Sys State Event where
  start := {}
  step := State.step cfg

end Telemax.Presence.StatusLine
