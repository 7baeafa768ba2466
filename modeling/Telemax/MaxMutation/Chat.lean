import Telemax.MaxMutation.Resolve
import Mathlib.Logic.Function.Basic

/-!
# Telemax.MaxMutation.Chat

The chat the mutations act on, as Telegram keeps it.  A call is served, refused, or lost on the
way; a served delete of a message that is gone, and a served edit that changes nothing or finds
nothing, is answered so, and an edit of the wrong half is refused by name.  What the bot is told
of a message that is gone or already as asked the classifier knows for a no-op; what the owner's
session is told of one, it does not know.
-/

namespace Telemax.MaxMutation

open Script

/-- One message, in the numbering of the transport that may change it. -/
inductive Spot
  | bot (bot chat message : Int)
  | own (peer message : Int)
  deriving DecidableEq, Repr

/-- What a message says, and in which half. -/
structure Body where
  media : Bool
  text : String
  entities : Value := .null
  deriving DecidableEq, Repr

abbrev Chat := Spot → Option Body

/-- How Telegram words what the classifier knows by name. -/
structure Wording where
  nothingThere : TelegramError
  otherHalf : TelegramError
  /-- `MessageNotModifiedError`, of the owner's session. -/
  ownUnchanged : TelegramError
  /-- `MessageIdInvalidError`, of the owner's session. -/
  ownGone : TelegramError
  nothingThere_noOp : (classifyTelegram nothingThere).outcome = .noOp
  ownUnchanged_noAnswer : (classifyTelegram ownUnchanged).outcome = .noAnswer
  ownGone_noAnswer : (classifyTelegram ownGone).outcome = .noAnswer
  otherHalf_form : (classifyTelegram otherHalf).outcome = .refusedEditForm

/-- What becomes of a call. -/
inductive Turn
  | served
  /-- An answer, and nothing done.  An edit of the right half may be refused for its form, too. -/
  | refused (e : TelegramError) (h : (classifyTelegram e).outcome ∉ [.noOp, .noAnswer])
  /-- No answer, and done or not. -/
  | lost (e : TelegramError) (h : (classifyTelegram e).outcome = .noAnswer) (applied : Bool)

/-- A body in place of the one that stands there. -/
def Chat.write (c : Chat) (s : Spot) (half : Body → Bool) (text : String) (entities : Value) :
    Chat :=
  match c s with
  | some b => if half b then Function.update c s (some { b with text, entities }) else c
  | none => c

/-- What a call does, where it is carried out. -/
def effect (c : Chat) : Ask → Chat
  | .delete bot chat message => Function.update c (.bot bot chat message) none
  | .editText bot chat message text entities =>
      c.write (.bot bot chat message) (fun b => !b.media) text entities
  | .editCaption bot chat message text entities =>
      c.write (.bot bot chat message) (·.media) text entities
  | .deleteOwnMessages peer messages =>
      fun s => if s ∈ messages.map (.own peer) then none else c s
  | .editOwnMessage peer message text entities =>
      c.write (.own peer message) (fun _ => true) text entities

/-- How an edit of one half is answered. -/
def editSaid (w : Wording) (c : Chat) (s : Spot) (half : Body → Bool) (text : String)
    (entities : Value) : Except TelegramError Unit :=
  match c s with
  | some b =>
      if half b = false then .error w.otherHalf
      else if b.text = text ∧ b.entities = entities then .error w.nothingThere
      else .ok ()
  | none => .error w.nothingThere

/-- How the session's edit is answered, which writes either half. -/
def ownEditSaid (w : Wording) (c : Chat) (s : Spot) (text : String) (entities : Value) :
    Except TelegramError Unit :=
  match c s with
  | some b =>
      if b.text = text ∧ b.entities = entities then .error w.ownUnchanged else .ok ()
  | none => .error w.ownGone

/-- How a call is answered, where it is served. -/
def said (w : Wording) (c : Chat) : (i : Ask) → Reply i
  | .delete bot chat message =>
      if (c (.bot bot chat message)).isSome then .ok () else .error w.nothingThere
  | .editText bot chat message text entities =>
      editSaid w c (.bot bot chat message) (fun b => !b.media) text entities
  | .editCaption bot chat message text entities =>
      editSaid w c (.bot bot chat message) (·.media) text entities
  | .deleteOwnMessages _ _ => .ok ()
  | .editOwnMessage peer message text entities =>
      ownEditSaid w c (.own peer message) text entities

/-- Telegram, as the jobs meet it. -/
def telegram (w : Wording) : World Reply Chat Turn where
  answer c turn i :=
    match turn with
    | .served => said w c i
    | .refused e _ => .error e
    | .lost e _ _ => .error e
  next c turn i :=
    match turn with
    | .served => effect c i
    | .refused .. => c
    | .lost _ _ applied => if applied then effect c i else c
  fits _ _ := True

/-! ## what a call leaves -/

variable {c : Chat} {s s' : Spot} {half : Body → Bool} {text : String} {entities : Value}

theorem Chat.write_ne (h : s' ≠ s) : c.write s half text entities s' = c s' := by
  cases hc : c s with
  | none => simp only [Chat.write, hc]
  | some b =>
    simp only [Chat.write, hc]
    split
    · exact Function.update_of_ne h _ _
    · rfl

/-- What stands where a body was written: what stood there, or the body. -/
theorem Chat.write_self (c : Chat) (s : Spot) (half : Body → Bool) (text : String)
    (entities : Value) :
    c.write s half text entities s = c s ∨
      ∃ b, c s = some b ∧ half b = true ∧
        c.write s half text entities s = some { b with text, entities } := by
  cases hc : c s with
  | none => simp only [Chat.write, hc, true_or]
  | some b =>
    simp only [Chat.write, hc]
    split
    · next hhalf => exact .inr ⟨b, rfl, hhalf, Function.update_self _ _ _⟩
    · exact .inl hc

/-- A served delete finds its message, or nothing. -/
theorem said_delete (w : Wording) (c : Chat) (bot chat message : Int) :
    said w c (.delete bot chat message) = .ok () ∨
      said w c (.delete bot chat message) = .error w.nothingThere := by
  cases h : (c (.bot bot chat message)).isSome with
  | true => simp [said, h]
  | false => simp [said, h]

end Telemax.MaxMutation
