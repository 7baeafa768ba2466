import Telemax.Provisioning.Batch

/-!
# Telemax.Provisioning.Managed

`ManagedBotProvisioner` waiting for the owner to press Create: one future for
each username, registered by `expect`, resolved by a `managed_bot` update, taken
out of the map by whoever leaves first.

A call runs without a break from one await to the next.  `wait_for` cancels the
future it waits on when its time is up, and so does the cancellation of a task;
whoever else waits on it is woken with a `CancelledError`.
-/

namespace Telemax.Provisioning.Managed

open Script

/-- `username.lower().lstrip("@")`. -/
def normalise (username : String) : String :=
  String.ofList ((username.toList.map Char.toLower).dropWhile (· = '@'))

/-- A bot this manager can fetch a token for. -/
structure ManagedBot where
  botId : Int
  username : String
  deriving DecidableEq, Repr

structure CreatedBot where
  username : String
  token : String
  botId : Int
  deriving DecidableEq, Repr

/-- How a question to Telegram fails. -/
inductive Trouble
  | cancelled
  /-- A `ProvisionerError`. -/
  | provisioner (failure : ProvisioningFailure)
  /-- Any other exception, with what `classify_failure` says of it. -/
  | raised (failure : ProvisioningFailure)
  deriving DecidableEq, Repr

/-- How a wait fails. -/
inductive Lost
  | timeout
  | cancelled
  deriving DecidableEq, Repr

/-- How a call fails. -/
inductive Failure
  | trouble (t : Trouble)
  | lost (l : Lost)
  | confirmationTimeout
  | foreignUsername (username : String)
  | botNotManageable (username : String)
  deriving DecidableEq, Repr

/-- Questions put to the map are answered at once; the others are awaited. -/
inductive Op
  | expect (username : String)
  | forget (username : String)
  /-- `wait_for(pending, timeout)`. -/
  | waitFor (future : Nat)
  | requireManager
  | botIdFor (username : String)
  | checkUsername (username : String)
  | tokenFor (botId : Int)
  deriving DecidableEq, Repr

abbrev Op.Answer : Op → Type
  | .expect _ => Nat
  | .forget _ => Unit
  | .waitFor _ => Except Lost ManagedBot
  | .requireManager => Except Trouble Unit
  | .botIdFor _ => Except Trouble (Option Int)
  | .checkUsername _ => Except Trouble UsernameState
  | .tokenFor _ => Except Trouble String

abbrev Prog := Script Op.Answer Failure

def expect (username : String) : Prog Nat := query (Op.expect username)

def forget (username : String) : Prog Unit := query (Op.forget username)

def waitFor (future : Nat) : Prog ManagedBot := do
  let r : Except Lost ManagedBot ← query (Op.waitFor future)
  orThrow .lost r

def requireManager : Prog Unit := do
  let r : Except Trouble Unit ← query Op.requireManager
  orThrow .trouble r

def botIdFor (username : String) : Prog (Option Int) := do
  let r : Except Trouble (Option Int) ← query (Op.botIdFor username)
  orThrow .trouble r

def checkUsername (username : String) : Prog UsernameState := do
  let r : Except Trouble UsernameState ← query (Op.checkUsername username)
  orThrow .trouble r

def tokenFor (botId : Int) : Prog String := do
  let r : Except Trouble String ← query (Op.tokenFor botId)
  orThrow .trouble r

/-- Everything that comes before the Create link is drawn. -/
def prepare (target : String) : Prog Bool := do
  requireManager
  match ← botIdFor target with
  | some _ => return true
  | none =>
      let _ ← expect target
      return false

def awaitConfirmation (target : String) : Prog ManagedBot := do
  let pending ← expect target
  ensuring
    (tryCatch (waitFor pending) fun
      | .lost .timeout => throw .confirmationTimeout
      | e => throw e)
    (forget target)

/-- The bot is there; its token is a call away. -/
def adopt (target : String) (botId : Int) : Prog CreatedBot := do
  return ⟨target, ← tokenFor botId, botId⟩

/-- What `_after_timeout` found: a bot, or the state of its username. -/
def askAgain (target : String) : Prog (CreatedBot ⊕ UsernameState) := do
  match ← botIdFor target with
  | some existing => return .inl (← adopt target existing)
  | none => return .inr (← checkUsername target)

/-- `_after_timeout`: ask Telegram what happened, then decide. -/
def afterTimeout (target : String) : Prog CreatedBot := do
  forget target
  let answer ← tryCatch (askAgain target) fun
    | .trouble (.raised _) => throw .confirmationTimeout
    | e => throw e
  match answer with
  | .inl created => return created
  | .inr .foreign => throw (.foreignUsername target)
  | .inr .unmanageable => throw (.botNotManageable target)
  | .inr _ => throw .confirmationTimeout

/-- The first question of `create_bot`: an error that is not typed yet drops the expectation. -/
def askExisting (target : String) : Prog (Option Int) :=
  tryCatch (botIdFor target) fun
    | .trouble (.raised failure) => do
        forget target
        throw (.trouble (.provisioner failure))
    | e => throw e

/-- Nobody pressed Create, or the update was lost: none. -/
def confirmation (target : String) : Prog (Option ManagedBot) :=
  tryCatch (some <$> awaitConfirmation target) fun
    | .confirmationTimeout => pure none
    | e => throw e

def createBot (target : String) : Prog CreatedBot := do
  requireManager
  match ← askExisting target with
  | some existing =>
      forget target
      adopt target existing
  | none =>
      match ← confirmation target with
      | none => afterTimeout target
      | some confirmed =>
          if confirmed.username ≠ target then throw (.foreignUsername target)
          else adopt target confirmed.botId

/-! ## the calls and the map -/

inductive Kind
  | prepare
  | await
  | create
  deriving DecidableEq, Repr

inductive Outcome
  | prepared (there : Bool)
  | confirmed (bot : ManagedBot)
  | created (bot : CreatedBot)
  deriving DecidableEq, Repr

def Kind.program (target : String) : Kind → Prog Outcome
  | .prepare => .prepared <$> Managed.prepare target
  | .await => .confirmed <$> awaitConfirmation target
  | .create => .created <$> createBot target

inductive Resolution
  | pending
  | done (bot : ManagedBot)
  | cancelled
  deriving DecidableEq, Repr

/-- A future, and the username it was made for. -/
structure Future where
  owner : String
  state : Resolution
  deriving DecidableEq, Repr

/-- `_awaiting` over the futures ever made. -/
structure Desk where
  awaiting : String → Option Nat
  futures : List Future
  /-- Preparations whose call has not come yet. -/
  prepared : String → Nat
  /-- The confirmations that came to an expectation, until the expectation is dropped. -/
  confirmed : String → Option ManagedBot

namespace Desk

def expect (d : Desk) (username : String) : Nat × Desk :=
  match d.awaiting username with
  | some pending => (pending, d)
  | none =>
      (d.futures.length, { d with
        awaiting := Function.update d.awaiting username (some d.futures.length)
        futures := d.futures ++ [⟨username, .pending⟩] })

def forget (d : Desk) (username : String) : Desk :=
  { d with
    awaiting := Function.update d.awaiting username none
    confirmed := Function.update d.confirmed username none }

def stateOf (d : Desk) (future : Nat) : Option Resolution :=
  (d.futures[future]?).map (·.state)

def resolve (d : Desk) (future : Nat) (r : Resolution) : Desk :=
  { d with futures := d.futures.modify future fun f => { f with state := r } }

/-- A confirmation of the username is expected, and has not come. -/
def expects (d : Desk) (username : String) : Bool :=
  (d.awaiting username).any fun f => decide (d.stateOf f = some .pending)

/-- A preparation is made, or the call it was made for has come. -/
def preparations (d : Desk) (username : String) (change : Nat → Nat) : Desk :=
  { d with prepared := Function.update d.prepared username (change (d.prepared username)) }

end Desk

/-- What has become of a call. -/
structure Book where
  /-- It may still take up an expectation of its username. -/
  claiming : Bool
  /-- The future it has registered for and not waited on yet. -/
  holding : Option Nat := none
  timedOut : Bool := false
  /-- It was told that it is cancelled. -/
  cut : Bool := false
  /-- Asked again after its time was up, Telegram named no bot. -/
  unanswered : Bool := false
  found : Option ManagedBot := none
  deriving DecidableEq, Repr

def Trouble.cuts {α : Type} : Except Trouble α → Bool
  | .error .cancelled => true
  | _ => false

def Book.next (b : Book) : (op : Op) → op.Answer → Book
  | .expect _, f => { b with holding := some f }
  | .forget _, _ => { b with claiming := false, holding := none }
  | .waitFor _, .ok bot => { b with holding := none, found := some bot }
  | .waitFor _, .error .timeout => { b with holding := none, timedOut := true }
  | .waitFor _, .error .cancelled => { b with holding := none, cut := true }
  | .botIdFor username, .ok (some botId) => { b with found := some ⟨botId, username⟩ }
  | .botIdFor _, .ok none => { b with unanswered := b.unanswered || b.timedOut }
  | .botIdFor _, .error e =>
      { b with unanswered := b.unanswered || b.timedOut
               cut := b.cut || decide (e = .cancelled) }
  | .requireManager, r => { b with cut := b.cut || Trouble.cuts r }
  | .checkUsername _, r => { b with cut := b.cut || Trouble.cuts r }
  | .tokenFor _, r => { b with cut := b.cut || Trouble.cuts r }

/-- A call runs on until it has to wait; one that is over claims nothing any more. -/
def settle (kind : Kind) : Prog Outcome → Desk → Book → Prog Outcome × Desk × Book
  | .done a, d, b => (.done a, d, { b with claiming := false })
  | .fail e, d, b => (.fail e, d, { b with claiming := false })
  | .ask (.expect username) k, d, b =>
      let (f, d) := d.expect username
      settle kind (k f) (if kind = .prepare then d.preparations username (· + 1) else d)
        (b.next (.expect username) f)
  | .ask (.forget username) k, d, b =>
      settle kind (k ()) (d.forget username) (b.next (.forget username) ())
  | .ask (.waitFor f) k, d, b =>
      match d.stateOf f with
      | some (.done bot) => settle kind (k (.ok bot)) d (b.next (.waitFor f) (.ok bot))
      | some .cancelled =>
          settle kind (k (.error .cancelled)) d (b.next (.waitFor f) (.error .cancelled))
      | _ => (.ask (.waitFor f) k, d, b)
  | x, d, b => (x, d, b)

/-- The confirmation of its username that is there as a call comes to wait. -/
def met (kind : Kind) (target : String) : Prog Outcome → Desk → List ManagedBot
  | .ask (.expect username) k, d =>
      let (f, d) := d.expect username
      met kind target (k f) (if kind = .prepare then d.preparations username (· + 1) else d)
  | .ask (.forget username) k, d => met kind target (k ()) (d.forget username)
  | .ask (.waitFor f) k, d =>
      let rest : List ManagedBot := match d.stateOf f with
        | some (.done bot) => met kind target (k (.ok bot)) d
        | some .cancelled => met kind target (k (.error .cancelled)) d
        | _ => []
      rest ++ (d.confirmed target).toList
  | .ask _ _, _ | .done _, _ | .fail _, _ => []

end Telemax.Provisioning.Managed
