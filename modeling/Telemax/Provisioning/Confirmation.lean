import Telemax.Lib.Run
import Telemax.Lib.Typestate
import Telemax.Provisioning.Managed

/-!
# Telemax.Provisioning.Confirmation

Any number of calls waiting for confirmations, of one username or of several,
with the owner's presses, the updates that report them, repeated or late, the
timers, cancellations and drops, in any order.

As long as nobody's leaving takes the expectation of somebody who still waits,
a confirmation reaches every call that waits for it.
-/

namespace Telemax.Provisioning.Managed

open Script

structure Call where
  kind : Kind
  target : String
  prog : Prog Outcome
  book : Book
  /-- Its time is up. -/
  expiring : Bool := false
  cancelled : Bool := false
  /-- The confirmations of its username that came while it was waiting, or were there as it came
  to wait. -/
  heard : List ManagedBot := []

namespace Call

def waitsOn (c : Call) : Option Nat :=
  match c.prog with
  | .ask (.waitFor f) _ => some f
  | _ => none

/-- It has not been told to give up. -/
def live (c : Call) : Bool := !c.expiring && !c.cancelled

def start (kind : Kind) (target : String) : Call :=
  { kind, target, prog := kind.program target, book := { claiming := decide (kind ≠ .prepare) } }

/-- What it hears as it runs on: the confirmation that has come before it. -/
def meets (c : Call) (x : Prog Outcome) (d : Desk) : List ManagedBot :=
  if c.live then met c.kind c.target x d else []

/-- How the call came out. -/
def result (c : Call) : Option (Except Failure Outcome) :=
  match c.prog with
  | .done a => some (.ok a)
  | .fail e => some (.error e)
  | .ask _ _ => none

/-- The bot it returned. -/
def returned (c : Call) : Option ManagedBot :=
  match c.prog with
  | .done (.confirmed bot) => some bot
  | .done (.created bot) => some ⟨bot.botId, bot.username⟩
  | _ => none

end Call

structure State where
  desk : Desk
  /-- The bots the owner has created. -/
  remote : String → Option Int
  calls : List Call

inductive Reply
  | manager (r : Except Trouble Unit)
  | botId (r : Except Trouble (Option Int))
  | username (r : Except Trouble UsernameState)
  | token (r : Except Trouble String)
  deriving DecidableEq, Repr

def Reply.fit : (op : Op) → Reply → Option op.Answer
  | .requireManager, .manager r => some r
  | .botIdFor _, .botId r => some r
  | .checkUsername _, .username r => some r
  | .tokenFor _, .token r => some r
  | _, _ => none

def Reply.cuts : Reply → Bool
  | .manager r => Trouble.cuts r
  | .botId r => Trouble.cuts r
  | .username r => Trouble.cuts r
  | .token r => Trouble.cuts r

inductive Event
  /-- `prepare`, `await_confirmation` or `create_bot`. -/
  | call (kind : Kind) (username : String)
  | answer (call : Nat) (reply : Reply)
  /-- The future a call waits on is done, or the call has been told to give up. -/
  | wake (call : Nat)
  | timeout (call : Nat)
  | cancel (call : Nat)
  /-- The owner presses Create. -/
  | created (botId : Int) (username : String)
  /-- `on_managed_bot`. -/
  | update (botId : Int) (username : String)
  | forget (username : String)
  deriving DecidableEq, Repr

namespace State

/-- Telegram names no bot but the one that is there; it may fail to name it. -/
def honest (s : State) (target : String) : Reply → Bool
  | .botId (.ok (some botId)) => s.remote target = some botId
  | _ => true

/-- The call goes on with this program. -/
def resume (s : State) (n : Nat) (c : Call) (x : Prog Outcome) (b : Book) : State :=
  let r := settle c.kind x s.desk b
  { s with
    desk := r.2.1
    calls := s.calls.set n { c with
      prog := r.1, book := r.2.2, heard := c.meets x s.desk ++ c.heard } }

/-- What the program of a call is after an event: the future it waits on, or a question of its
own, has been answered. -/
def resumed (s : State) : Event → Option (Nat × Call × Prog Outcome × Book)
  | .call kind username =>
      let c := Call.start kind (normalise username)
      some (s.calls.length, c, c.prog, c.book)
  | .answer n reply =>
      match s.calls[n]? with
      | some c =>
          match c.prog with
          | .ask op k =>
              match reply.fit op with
              | some a =>
                  if reply.cuts = c.cancelled ∧ s.honest c.target reply = true then
                    some (n, c, k a, c.book.next op a)
                  else none
              | none => none
          | _ => none
      | none => none
  | .wake n =>
      match s.calls[n]? with
      | some c =>
          match c.prog with
          | .ask (.waitFor f) k =>
              let woken (r : Except Lost ManagedBot) := some (n, c, k r, c.book.next (.waitFor f) r)
              if c.cancelled then woken (.error .cancelled)
              else if c.expiring then woken (.error .timeout)
              else match s.desk.stateOf f with
                | some (.done bot) => woken (.ok bot)
                | some .cancelled => woken (.error .cancelled)
                | _ => none
          | _ => none
      | none => none
  | _ => none

/-- A call is told to give up: the future it waits on is cancelled under it. -/
def giveUp (s : State) (n : Nat) (c : Call) : State :=
  { s with
    desk := match c.waitsOn with
      | some f => if s.desk.stateOf f = some .pending then s.desk.resolve f .cancelled else s.desk
      | none => s.desk
    calls := s.calls.set n c }

/-- An update resolves the expectation of its username; whoever waits for it has heard it. -/
def onManagedBot (s : State) (bot : ManagedBot) : State :=
  { s with
    desk :=
      let d : Desk := match s.desk.awaiting bot.username with
        | some f =>
            if s.desk.stateOf f = some .pending then s.desk.resolve f (.done bot) else s.desk
        | none => s.desk
      { d with
        confirmed :=
          if s.desk.expects bot.username then
            Function.update s.desk.confirmed bot.username (some bot)
          else s.desk.confirmed }
    calls := s.calls.map fun c =>
      if c.target = bot.username ∧ c.waitsOn.isSome ∧ c.live then
        { c with heard := bot :: c.heard }
      else c }

/-- The call that comes first after a preparation is the one it was made for. -/
def arrives (s : State) (c : Call) : State :=
  { s with
    desk := if c.kind = .prepare then s.desk else s.desk.preparations c.target (· - 1)
    calls := s.calls ++ [c] }

def step (s : State) (e : Event) : Option State :=
  match e with
  | .call kind username =>
      let c := Call.start kind (normalise username)
      some ((s.arrives c).resume s.calls.length c c.prog c.book)
  | .answer _ _ | .wake _ =>
      (s.resumed e).map fun (n, c, x, b) => s.resume n c x b
  | .timeout n =>
      match s.calls[n]? with
      | some c =>
          if c.waitsOn.isSome ∧ c.expiring = false then some (s.giveUp n { c with expiring := true })
          else none
      | none => none
  | .cancel n =>
      match s.calls[n]? with
      | some c =>
          if c.result.isNone ∧ c.cancelled = false then
            some (s.giveUp n { c with cancelled := true })
          else none
      | none => none
  | .created botId username =>
      let target := normalise username
      if s.remote target = none then
        some { s with remote := Function.update s.remote target (some botId) }
      else none
  | .update botId username =>
      let target := normalise username
      if s.remote target = some botId then some (s.onManagedBot ⟨botId, target⟩) else none
  | .forget username => some { s with desk := s.desk.forget (normalise username) }

/-! ## what goes wrong where -/

/-- Another call waits on the future, and has not been told to give up. -/
def othersWait (s : State) (n f : Nat) : Bool :=
  s.calls.zipIdx.any fun (c, m) => decide (m ≠ n) && (c.waitsOn = some f) && c.live

/-- Another call may still take up an expectation of the username. -/
def othersClaim (s : State) (n : Nat) (target : String) : Bool :=
  s.calls.zipIdx.any fun (c, m) => decide (m ≠ n) && (c.target = target) && c.book.claiming

/-- Dropping the expectation takes it from nobody who waits for it. -/
def drops (s : State) (n : Nat) (d : Desk) (target : String) : Bool :=
  match d.awaiting target with
  | some f => !(d.stateOf f = some .pending && s.othersWait n f)
  | none => true

/-- The future in the map is not one that somebody's giving up has cancelled. -/
def usable (d : Desk) (target : String) : Bool :=
  match d.awaiting target with
  | some f => !(d.stateOf f = some .cancelled)
  | none => true

/-- As far as the call runs: it registers for no future that is cancelled, drops nothing that
another one waits for, and ends before it has waited only where its expectation is gone, or
somebody else's. -/
def meets (s : State) (n : Nat) (c : Call) : Prog Outcome → Desk → Book → Bool
  | .ask (.expect username) k, d, b =>
      (decide (c.kind = .prepare) || usable d username) &&
        s.meets n c (k (d.expect username).1)
          (if c.kind = .prepare then (d.expect username).2.preparations username (· + 1)
            else (d.expect username).2)
          (b.next (.expect username) (d.expect username).1)
  | .ask (.forget username) k, d, b =>
      s.drops n d username &&
        s.meets n c (k ()) (d.forget username) (b.next (.forget username) ())
  | .ask (.waitFor f) k, d, b =>
      match d.stateOf f with
      | some (.done bot) => s.meets n c (k (.ok bot)) d (b.next (.waitFor f) (.ok bot))
      | some .cancelled =>
          s.meets n c (k (.error .cancelled)) d (b.next (.waitFor f) (.error .cancelled))
      | _ => true
  | .ask _ _, _, _ => true
  | .done _, d, b | .fail _, d, b =>
      !b.claiming || (d.awaiting c.target).isNone || s.othersClaim n c.target ||
        decide (0 < d.prepared c.target)

/-- The step harms nobody who waits. -/
def considerate (s : State) : Event → Bool
  | .call kind username =>
      let c := Call.start kind (normalise username)
      (s.arrives c).meets s.calls.length c c.prog (s.arrives c).desk c.book
  | .answer n reply =>
      (s.resumed (.answer n reply)).all fun (n, c, x, b) => s.meets n c x s.desk b
  | .wake n => (s.resumed (.wake n)).all fun (n, c, x, b) => s.meets n c x s.desk b
  | .timeout n =>
      match s.calls[n]? with
      | some c =>
          c.waitsOn.all fun f =>
            if s.desk.stateOf f = some .pending then !s.othersWait n f
            else decide (c.kind = .create) || c.cancelled
      | none => true
  | .cancel n =>
      match s.calls[n]? with
      | some c =>
          c.waitsOn.all fun f => !(s.desk.stateOf f = some .pending && s.othersWait n f)
      | none => true
  | .forget username => s.drops s.calls.length s.desk (normalise username)
  | .created _ _ | .update _ _ => true

/-- A bot confirmation is never lost. -/
structure Reliable (s : State) : Prop where
  /-- No call returns another username's bot. -/
  own : ∀ c ∈ s.calls, ∀ bot, c.returned = some bot →
    bot.username = c.target ∧ s.remote c.target = some bot.botId
  /-- A confirmation that came to an expectation, whether anybody was waiting yet or not, stays with
  it until the expectation is dropped. -/
  confirmed : ∀ username bot, s.desk.confirmed username = some bot →
    ∃ f, s.desk.awaiting username = some f ∧ s.desk.stateOf f = some (.done bot)
  /-- A call that was waiting when its confirmation came, or came to wait when it was there, has
  found the bot, unless it was itself cancelled, or its time was up and Telegram, asked again, did
  not name it. -/
  heard : ∀ c ∈ s.calls, c.result ≠ none → c.heard ≠ [] →
    (∃ bot ∈ c.heard, c.book.found = some bot) ∨ c.cancelled = true ∨
      c.kind = .create ∧ c.book.timedOut = true ∧ c.book.unanswered = true
  /-- A call that waits and has not been told to give up waits for something that can come. -/
  waiting : ∀ c ∈ s.calls, ∀ f, c.waitsOn = some f → c.live = true →
    (∃ bot, s.desk.stateOf f = some (.done bot)) ∨
      s.desk.stateOf f = some .pending ∧ s.desk.awaiting c.target = some f
  /-- It fails by its own time or cancellation, not by another's. -/
  unharmed : ∀ c ∈ s.calls,
    (c.result = some (.error (.lost .cancelled)) → c.cancelled = true) ∧
    (c.result = some (.error .confirmationTimeout) → c.expiring = true)
  /-- An expectation is there for a call that may take it up, or one that has been prepared. -/
  empty : ∀ target, s.desk.awaiting target ≠ none →
    (∃ c ∈ s.calls, c.target = target ∧ c.book.claiming = true ∧ c.result = none) ∨
      0 < s.desk.prepared target

end State

def sys : Run.Sys State Event where
  start := ⟨⟨fun _ => none, [], fun _ => 0, fun _ => none⟩, fun _ => none, []⟩
  step := State.step

/-! ## what a call keeps to -/

/-- It registers while it may claim, waits for what it has registered for, and asks nobody else
in between. -/
def protocol (kind : Kind) (target : String) : Protocol Op.Answer Book where
  allowed b
    | .expect username =>
        username = target ∧ (b.claiming = true ∨ kind = .prepare) ∧ b.holding = none
    | .forget username => username = target
    | .waitFor f =>
        b.holding = some f ∧ b.claiming = true ∧ b.found = none ∧ b.timedOut = false
    | .botIdFor username => username = target ∧ b.holding = none
    | .requireManager | .checkUsername _ | .tokenFor _ => b.holding = none
  next b := b.next

/-- What is known of a call that is over. -/
structure Ends (kind : Kind) (target : String) (b : Book) (r : Except Failure Outcome) : Prop where
  confirmed : ∀ bot, r = .ok (.confirmed bot) → b.found = some bot
  created : ∀ bot, r = .ok (.created bot) →
    bot.username = target ∧ b.found = some ⟨bot.botId, target⟩
  cut : r = .error (.lost .cancelled) → b.cut = true
  late : r = .error .confirmationTimeout → b.timedOut = true
  asked : kind = .create → b.timedOut = true → b.found.isSome = true ∨ b.unanswered = true

section

variable {kind : Kind} {target : String} {b : Book}

/-- A book in which nothing has been found and no time is up. -/
structure Book.Fresh (b : Book) : Prop where
  claiming : b.claiming = true
  holding : b.holding = none
  found : b.found = none
  timedOut : b.timedOut = false

/-- What a wait for a confirmation leaves. -/
structure Confirmed (b : Book) (r : Except Failure ManagedBot) : Prop where
  holding : b.holding = none
  ok : ∀ bot, r = .ok bot → b.found = some bot ∧ b.timedOut = false
  late : r = .error .confirmationTimeout → b.timedOut = true
  early : r ≠ .error .confirmationTimeout → b.timedOut = false
  cut : r = .error (.lost .cancelled) → b.cut = true

theorem obeys_awaitConfirmation (h : b.Fresh) :
    Obeys (protocol kind target) b (awaitConfirmation target) Confirmed := by
  refine ⟨⟨rfl, .inl h.claiming, h.holding⟩, fun f => ⟨⟨rfl, h.claiming, h.found, h.timedOut⟩,
    fun r => ?_⟩⟩
  rcases r with (_ | _) | bot
  · exact ⟨rfl, fun _ => ⟨rfl, nofun, fun _ => rfl, fun hne => absurd rfl hne, nofun⟩⟩
  · exact ⟨rfl, fun _ => ⟨rfl, nofun, nofun, fun _ => h.timedOut, fun _ => rfl⟩⟩
  · refine ⟨rfl, fun _ => ⟨rfl, ?_, nofun, fun _ => h.timedOut, nofun⟩⟩
    rintro _ ⟨rfl⟩
    exact ⟨rfl, h.timedOut⟩

/-- What `create_bot` leaves. -/
structure Created (target : String) (b : Book) (r : Except Failure CreatedBot) : Prop where
  ok : ∀ bot, r = .ok bot → bot.username = target ∧ b.found = some ⟨bot.botId, target⟩
  cut : r = .error (.lost .cancelled) → b.cut = true
  late : r = .error .confirmationTimeout → b.timedOut = true
  asked : b.timedOut = true → b.found.isSome = true ∨ b.unanswered = true

theorem Created.failed {e : Failure} (hcut : e = .lost .cancelled → b.cut = true)
    (hlate : e = .confirmationTimeout → b.timedOut = true)
    (hasked : b.timedOut = true → b.found.isSome = true ∨ b.unanswered = true) :
    Created target b (.error e) :=
  ⟨nofun, fun h => hcut (Except.error.inj h), fun h => hlate (Except.error.inj h), hasked⟩

theorem Created.ends {r : Except Failure CreatedBot} (h : Created target b r) :
    Ends .create target b (r.map .created) := by
  cases r with
  | ok bot =>
      refine ⟨nofun, ?_, nofun, nofun, fun _ => h.asked⟩
      rintro _ ⟨rfl⟩
      exact h.ok bot rfl
  | error e =>
      exact ⟨nofun, nofun, fun he => h.cut (congrArg _ (Except.error.inj he)),
        fun he => h.late (congrArg _ (Except.error.inj he)), fun _ => h.asked⟩

/-- A token is fetched for a bot that has been found. -/
theorem obeys_adopt {botId : Int} (hholding : b.holding = none)
    (hfound : b.found = some ⟨botId, target⟩) :
    Obeys (protocol kind target) b (adopt target botId) (Created target) := by
  refine ⟨hholding, fun r => ?_⟩
  have hasked : b.timedOut = true → b.found.isSome = true ∨ b.unanswered = true :=
    fun _ => .inl (by rw [hfound]; rfl)
  cases r with
  | ok token =>
      refine ⟨?_, nofun, nofun, hasked⟩
      rintro _ ⟨rfl⟩
      exact ⟨rfl, hfound⟩
  | error t => exact Created.failed nofun nofun hasked

theorem obeys_afterTimeout (hlate : b.timedOut = true) :
    Obeys (protocol .create target) b (afterTimeout target) (Created target) := by
  refine ⟨rfl, fun _ => ⟨⟨rfl, rfl⟩, fun r => ?_⟩⟩
  have hunanswered : (b.unanswered || b.timedOut) = true := by simp [hlate]
  rcases r with t | (_ | botId)
  · cases t with
    | cancelled => exact Created.failed nofun nofun fun _ => .inr hunanswered
    | provisioner _ => exact Created.failed nofun nofun fun _ => .inr hunanswered
    | raised _ => exact Created.failed nofun (fun _ => hlate) fun _ => .inr hunanswered
  · refine ⟨rfl, fun r => ?_⟩
    rcases r with t | state
    · cases t with
      | cancelled => exact Created.failed nofun nofun fun _ => .inr hunanswered
      | provisioner _ => exact Created.failed nofun nofun fun _ => .inr hunanswered
      | raised _ => exact Created.failed nofun (fun _ => hlate) fun _ => .inr hunanswered
    · cases state with
      | foreign => exact Created.failed nofun nofun fun _ => .inr hunanswered
      | unmanageable => exact Created.failed nofun nofun fun _ => .inr hunanswered
      | free => exact Created.failed nofun (fun _ => hlate) fun _ => .inr hunanswered
      | owned => exact Created.failed nofun (fun _ => hlate) fun _ => .inr hunanswered
  · refine ⟨rfl, fun r => ?_⟩
    cases r with
    | ok token =>
        refine ⟨?_, nofun, nofun, fun _ => .inl rfl⟩
        rintro _ ⟨rfl⟩
        exact ⟨rfl, rfl⟩
    | error t =>
        cases t with
        | cancelled => exact Created.failed nofun nofun fun _ => .inl rfl
        | provisioner _ => exact Created.failed nofun nofun fun _ => .inl rfl
        | raised _ => exact Created.failed nofun (fun _ => hlate) fun _ => .inl rfl

/-- What the wait of `create_bot` gives. -/
theorem obeys_confirmation (h : b.Fresh) :
    Obeys (protocol kind target) b (confirmation target) fun b' r => b'.holding = none ∧
      match r with
      | .ok (some bot) => b'.found = some bot ∧ b'.timedOut = false
      | .ok none => b'.timedOut = true
      | .error e => b'.timedOut = false ∧ e ≠ .confirmationTimeout ∧
          (e = .lost .cancelled → b'.cut = true) := by
  refine Obeys.tryCatch (P := fun b' r => Confirmed b' (r.map fun
      | some bot => bot
      | none => ⟨0, target⟩) ∧ r ≠ .ok none) ?_ (fun b' a ha => ?_) fun b' e he => ?_
  · refine Obeys.bind (obeys_awaitConfirmation h) (fun b' e he => ⟨?_, nofun⟩) fun b' bot hbot => ?_
    · exact ⟨he.holding, nofun, fun hr => he.late hr, fun hr => he.early hr, fun hr => he.cut hr⟩
    · exact ⟨⟨hbot.holding, fun bot' h' => hbot.ok bot' h', nofun,
        fun _ => hbot.early nofun, nofun⟩, nofun⟩
  · cases a with
    | none => exact absurd rfl ha.2
    | some bot => exact ⟨ha.1.holding, ha.1.ok bot rfl⟩
  · cases e with
    | confirmationTimeout => exact ⟨he.1.holding, he.1.late rfl⟩
    | trouble t => exact ⟨he.1.holding, he.1.early nofun, nofun, nofun⟩
    | lost l => exact ⟨he.1.holding, he.1.early nofun, nofun, fun hl => he.1.cut (congrArg _ hl)⟩
    | foreignUsername u => exact ⟨he.1.holding, he.1.early nofun, nofun, nofun⟩
    | botNotManageable u => exact ⟨he.1.holding, he.1.early nofun, nofun, nofun⟩

theorem obeys_createBot (h : b.Fresh) :
    Obeys (protocol .create target) b (createBot target) (Created target) := by
  have hnot {b' : Book} (hb : b'.timedOut = false) :
      b'.timedOut = true → b'.found.isSome = true ∨ b'.unanswered = true :=
    fun ht => absurd (hb.symm.trans ht) nofun
  refine ⟨h.holding, fun r => ?_⟩
  cases r with
  | error t => exact Created.failed nofun nofun (hnot h.timedOut)
  | ok _ =>
      refine ⟨⟨rfl, h.holding⟩, fun r => ?_⟩
      rcases r with t | (_ | botId)
      · cases t with
        | cancelled => exact Created.failed nofun nofun (hnot h.timedOut)
        | provisioner _ => exact Created.failed nofun nofun (hnot h.timedOut)
        | raised _ => exact ⟨rfl, fun _ => Created.failed nofun nofun (hnot h.timedOut)⟩
      · -- Nothing is known of the bot: the call comes to wait for it.
        have hfresh : Book.Fresh { b with
            cut := b.cut || Trouble.cuts (.ok () : Except Trouble Unit)
            unanswered := b.unanswered || b.timedOut } :=
          ⟨h.claiming, h.holding, h.found, h.timedOut⟩
        change Obeys _ _ (confirmation target >>= _) _
        refine Obeys.bind (obeys_confirmation hfresh) (fun b' e he => ?_) fun b' a ha => ?_
        · exact Created.failed (fun hl => he.2.2.2 hl) (fun hl => absurd hl he.2.2.1)
            (hnot he.2.1)
        · cases a with
          | none => exact obeys_afterTimeout ha.2
          | some bot =>
              dsimp only
              split
              · exact Created.failed nofun nofun (hnot ha.2.2)
              · next hsame =>
                  obtain rfl := not_not.mp hsame
                  exact obeys_adopt ha.1 ha.2.1
      · exact ⟨rfl, fun _ => obeys_adopt rfl rfl⟩

theorem obeys_prepare (hholding : b.holding = none) :
    Obeys (protocol .prepare target) b (prepare target) fun _ r =>
      r ≠ .error (.lost .cancelled) ∧ r ≠ .error .confirmationTimeout := by
  refine ⟨hholding, fun r => ?_⟩
  cases r with
  | error t => exact ⟨nofun, nofun⟩
  | ok _ =>
      refine ⟨⟨rfl, hholding⟩, fun r => ?_⟩
      rcases r with t | (_ | botId)
      · exact ⟨nofun, nofun⟩
      · exact ⟨⟨rfl, .inr rfl, hholding⟩, fun _ => ⟨nofun, nofun⟩⟩
      · exact ⟨nofun, nofun⟩

/-- Every call keeps to it from its start. -/
theorem obeys_program (kind : Kind) (target : String) :
    Obeys (protocol kind target) (Call.start kind target).book (kind.program target)
      (Ends kind target) := by
  cases kind with
  | prepare =>
      refine Obeys.bind (obeys_prepare rfl) (fun b e he => ?_) fun b a _ => ?_
      · exact ⟨nofun, nofun, fun h => absurd (congrArg _ (Except.error.inj h)) he.1,
          fun h => absurd (congrArg _ (Except.error.inj h)) he.2, nofun⟩
      · exact ⟨nofun, nofun, nofun, nofun, nofun⟩
  | await =>
      refine Obeys.bind (obeys_awaitConfirmation ⟨rfl, rfl, rfl, rfl⟩) (fun b e he => ?_)
        fun b bot hbot => ?_
      · exact ⟨nofun, nofun, fun h => he.cut (congrArg _ (Except.error.inj h)),
          fun h => he.late (congrArg _ (Except.error.inj h)), nofun⟩
      · refine ⟨?_, nofun, nofun, nofun, nofun⟩
        rintro _ ⟨rfl⟩
        exact (hbot.ok bot rfl).1
  | create =>
      refine Obeys.bind (obeys_createBot ⟨rfl, rfl, rfl, rfl⟩) (fun b e he => ?_)
        fun b bot hbot => ?_
      · exact he.ends
      · exact hbot.ends

end

end Telemax.Provisioning.Managed
