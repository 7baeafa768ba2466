import Mathlib.Data.Option.Basic

/-!
# Telemax.Presence.ReadState

The row of `read_state` of one bridge.  A statement inserts the row with what it
has and the columns' defaults, or updates the columns it names.  The two marks
are read by one statement and written by another one.
-/

namespace Telemax.Presence

inductive ReadReceiptStyle
  | suffix
  | reaction
  | line
  | off
  deriving DecidableEq, Repr

/-- Every default is the column's. -/
structure ReadMarks where
  contactReadMark : Int := 0
  ownReadMark : Int := 0
  lastTickedMessageId : Option Int := none
  /-- The bot's own status line, and what it says. -/
  statusMessageId : Option Int := none
  statusText : Option String := none
  /-- When MAX last accepted one of ours. -/
  deliveredAt : Int := 0
  deriving DecidableEq, Repr

/-- The row, once there is one. -/
abbrev ReadState := Option ReadMarks

namespace ReadState

def get (row : ReadState) : ReadMarks := row.getD {}

/-- `INSERT … ON CONFLICT DO UPDATE`. -/
def upsert (row : ReadState) (inserted : ReadMarks) (update : ReadMarks → ReadMarks) : ReadState :=
  some (row.elim inserted update)

def noteDelivered (row : ReadState) (at_ : Int) : ReadState :=
  row.upsert { deliveredAt := at_ } fun r => { r with deliveredAt := at_ }

def setStatusLine (row : ReadState) (message : Option Int) (text : Option String) : ReadState :=
  row.upsert { statusMessageId := message, statusText := text } fun r =>
    { r with statusMessageId := message, statusText := text }

/-- The statement of `note_contact_read`, after the row has been read as `current`. -/
def writeContactRead (row : ReadState) (current : ReadMarks) (mark : Int) (ticked : Option Int) :
    ReadState :=
  row.upsert
    { contactReadMark := mark
      ownReadMark := current.ownReadMark
      lastTickedMessageId := ticked }
    fun r => { r with contactReadMark := mark, lastTickedMessageId := ticked }

/-- The statement of `note_own_read`. -/
def writeOwnRead (row : ReadState) (current : ReadMarks) (mark : Int) : ReadState :=
  row.upsert
    { contactReadMark := current.contactReadMark
      ownReadMark := mark
      lastTickedMessageId := current.lastTickedMessageId }
    fun r => { r with ownReadMark := mark }

/-! ## what a statement leaves alone -/

variable (row : ReadState)

@[simp] theorem get_upsert (inserted : ReadMarks) (update : ReadMarks → ReadMarks) :
    (row.upsert inserted update).get = row.elim inserted update := rfl

@[simp] theorem statusMessageId_noteDelivered (at_ : Int) :
    (row.noteDelivered at_).get.statusMessageId = row.get.statusMessageId := by
  cases row <;> rfl

@[simp] theorem statusText_noteDelivered (at_ : Int) :
    (row.noteDelivered at_).get.statusText = row.get.statusText := by
  cases row <;> rfl

@[simp] theorem statusMessageId_writeContactRead (current : ReadMarks) (mark : Int)
    (ticked : Option Int) :
    (row.writeContactRead current mark ticked).get.statusMessageId = row.get.statusMessageId := by
  cases row <;> rfl

@[simp] theorem statusText_writeContactRead (current : ReadMarks) (mark : Int)
    (ticked : Option Int) :
    (row.writeContactRead current mark ticked).get.statusText = row.get.statusText := by
  cases row <;> rfl

@[simp] theorem statusMessageId_setStatusLine (message : Option Int) (text : Option String) :
    (row.setStatusLine message text).get.statusMessageId = message := by
  cases row <;> rfl

@[simp] theorem statusText_setStatusLine (message : Option Int) (text : Option String) :
    (row.setStatusLine message text).get.statusText = text := by
  cases row <;> rfl

@[simp] theorem deliveredAt_setStatusLine (message : Option Int) (text : Option String) :
    (row.setStatusLine message text).get.deliveredAt = row.get.deliveredAt := by
  cases row <;> rfl

@[simp] theorem contactReadMark_setStatusLine (message : Option Int) (text : Option String) :
    (row.setStatusLine message text).get.contactReadMark = row.get.contactReadMark := by
  cases row <;> rfl

end ReadState

end Telemax.Presence
