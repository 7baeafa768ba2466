import Mathlib.Data.List.Forall2
import Telemax.Lib.World
import Telemax.Provisioning.Batch

/-!
# Telemax.Provisioning.Failures

A run that has its contacts to itself, under every outcome of the calls it makes:
how far each contact is brought, and what a failure of one does to the others.

A failed `create_bot` is told apart by its class, and `stop_bridge` stands outside
every `try`: what these two let through ends the run where it is.
-/

namespace Telemax.Provisioning

open Script

/-! ## a run on its own -/

/-- What the outside answers the calls of a run. -/
abbrev Outcomes := (c : Call) → Except Raised c.Reply

/-- The contacts a run is about, as the journal has them. -/
def ProvisioningJournal.walking (j : ProvisioningJournal) : Option (List Int) → List JournalEntry
  | none => j.entries
  | some chats => j.selected chats

/-- `note`, or the `KeyError`. -/
def ProvisioningJournal.answerNote (j : ProvisioningJournal) (chat : Int) (c : Changes) :
    Except Fault Unit :=
  match j.note chat c with
  | some _ => .ok ()
  | none => .error (.keyError chat)

/-- The journal answers at once, every lock is free, and a call may come out in any way. -/
def alone : World Op.Outcome ProvisioningJournal Outcomes where
  answer j calls
    | .walking chats => j.walking chats
    | .get chat => j.find chat
    | .note _ chat c => j.answerNote chat c
    | .claim _ _ => .taken
    | .leave _ _ => ()
    | .await c => (calls c).mapError .raised
  next j _
    | .note _ chat c => (j.note chat c).getD j
    | _ => j
  fits _ _ := True

/-- What was asked, and what came back. -/
abbrev Asked := Script.Asked Op.Outcome

/-- The classes `create_bot` may fail with. -/
def ErrorClass.isProvisionerError : ErrorClass → Bool
  | .provisioner | .ownerMustOpenChat => true
  | _ => false

/-- A call did not fail, or failed in a way that is caught around it. -/
def Call.contains : (c : Call) → Except Raised c.Reply → Bool
  | .createBot _ _ _, .error e => e.cls.isProvisionerError
  | .stopBridge _, .error _ => false
  | _, _ => true

def Asked.contained : Asked → Bool
  | ⟨.await c, .error (.raised e)⟩ => c.contains (.error e)
  | _ => true

/-- The contact is taken up. -/
def Asked.visits (chat : Int) : Asked → Bool
  | ⟨.claim _ chat', _⟩ => decide (chat = chat')
  | _ => false

/-- Through, or failed with its error. -/
def JournalEntry.Settled (e : JournalEntry) : Prop :=
  e.state = .healthy ∨
    (e.state = .failedRetryable ∨ e.state = .failedPermanent) ∧ e.error.isSome = true

/-- The run for this contact alone. -/
def Config.only (cfg : Config) (chat : Int) : Config := { cfg with chatIds := some [chat] }

/-- How far one contact has been brought, and that it would be so without the others. -/
structure Walked (cfg : Config) (j j' : ProvisioningJournal) (entry : JournalEntry)
    (piece : List Asked) : Prop where
  visited : entry.state ∉ terminal → piece.any (·.visits entry.maxChatId) = true
  settled : piece.any (·.visits entry.maxChatId) = true →
    ∃ e, j'.get entry.maxChatId = some e ∧ e.Settled
  skipped : piece.any (·.visits entry.maxChatId) = false →
    j'.get entry.maxChatId = j.get entry.maxChatId
  own : ∃ first last own, Plays alone j (ProvisioningBatch.run (cfg.only entry.maxChatId))
    (first :: (piece ++ [last])) (.ok (own.walking (some [entry.maxChatId]))) own ∧
      own.get entry.maxChatId = j'.get entry.maxChatId

/-- One contact's failure stays one contact's failure. -/
structure Isolated (cfg : Config) (j : ProvisioningJournal) (tr : List Asked)
    (res : Except Fault (List JournalEntry)) (j' : ProvisioningJournal) : Prop where
  returns : res = .ok (j'.walking cfg.chatIds)
  contacts : ∃ first last pieces, tr = first :: (pieces.flatten ++ [last]) ∧
    List.Forall₂ (Walked cfg j j') (j.walking cfg.chatIds) pieces
  others : ∀ chat, (∀ e ∈ j.walking cfg.chatIds, e.maxChatId ≠ chat) → j'.get chat = j.get chat

/-! ## one contact -/

/-- What a walk does to its contact: its entry, and what has happened. -/
structure Walk where
  entry : JournalEntry
  /-- Every failure so far was caught. -/
  contained : Bool
  /-- Only this contact's entry has been read and written. -/
  within : Bool
  visited : Bool

/-- The walk of one contact, as if there were no others. -/
def contact : World Op.Outcome Walk Outcomes where
  answer w calls
    | .walking _ => []
    | .get chat => if h : w.entry.maxChatId = chat then some ⟨w.entry, h⟩ else none
    | .note _ _ _ => .ok ()
    | .claim _ _ => .taken
    | .leave _ _ => ()
    | .await c => (calls c).mapError .raised
  next w calls
    | .walking _ => { w with within := false }
    | .get chat => { w with within := w.within && decide (w.entry.maxChatId = chat) }
    | .note _ chat c =>
        { w with entry := c.apply w.entry
                 within := w.within && decide (w.entry.maxChatId = chat) }
    | .claim _ chat => { w with visited := w.visited || decide (w.entry.maxChatId = chat) }
    | .leave _ _ => w
    | .await c => { w with contained := w.contained && c.contains (calls c) }
  fits _ _ := True

/-- The walk keeps to this contact. -/
structure Within (chat : Int) (w : Walk) : Prop where
  within : w.within = true
  chat : w.entry.maxChatId = chat

/-- Nothing has escaped. -/
structure Going (chat : Int) (visited : Bool) (w : Walk) : Prop extends Within chat w where
  contained : w.contained = true
  visited : w.visited = visited

/-- From every entry in `I`, `x` keeps to its contact; where it ends with a result the entry is
in `P`, and where it ends in an error something has escaped. -/
def Brings (chat : Int) (visited : Bool) (I : JournalEntry → Prop) {α : Type} (x : Prog α)
    (P : α → JournalEntry → Prop) : Prop :=
  ∀ w, Going chat visited w → I w.entry → Survives contact (Within chat) w x fun w' r =>
    match r with
    | .ok a => Going chat visited w' ∧ P a w'.entry
    | .error _ => w'.contained = false

section Rules

variable {chat : Int} {visited : Bool} {I J : JournalEntry → Prop} {α β : Type}

theorem Brings.pure {P : α → JournalEntry → Prop} (a : α) (h : ∀ e, I e → P a e) :
    Brings chat visited I (Pure.pure a : Prog α) P :=
  fun _ hw hi => ⟨hw.toWithin, hw, h _ hi⟩

theorem Brings.bind {x : Prog α} {f : α → Prog β} {P : α → JournalEntry → Prop}
    {R : β → JournalEntry → Prop} (hx : Brings chat visited I x P)
    (hf : ∀ a, Brings chat visited (P a) (f a) R) : Brings chat visited I (x >>= f) R :=
  fun w hw hi => (hx w hw hi).bind (fun _ _ _ h => h) fun w' a _ h => hf a w' h.1 h.2

theorem Brings.mono {x : Prog α} {P R : α → JournalEntry → Prop}
    (hx : Brings chat visited I x P) (h : ∀ a e, P a e → R a e) : Brings chat visited I x R :=
  fun w hw hi => (hx w hw hi).mono fun w' r _ hr => by
    cases r with
    | ok a => exact ⟨hr.1, h a _ hr.2⟩
    | error e => exact hr

/-- A note of the walk. -/
theorem Brings.note (writer : Writer) (c : Changes) :
    Brings chat visited I (note writer chat c) fun _ e => ∃ e₀, I e₀ ∧ e = c.apply e₀ := by
  intro w hw hi
  have hnext : Going chat visited (contact.next w (fun _ => .error ⟨.other, .networkError⟩)
      (.note writer chat c)) :=
    ⟨⟨by simp [contact, hw.within, hw.chat], hw.chat⟩, hw.contained, hw.visited⟩
  exact ⟨hw.toWithin, fun _ _ => ⟨hnext.toWithin, hnext, w.entry, hi, rfl⟩⟩

/-- A call whose failures are caught. -/
theorem Brings.call {c : Call} (hc : ∀ r, c.contains r = true) {f : c.Reply → α}
    {handler : Fault → Prog α} {P : α → JournalEntry → Prop}
    (hok : ∀ a e, I e → P (f a) e)
    (hh : ∀ e, Brings chat visited I (handler (.raised e)) P) :
    Brings chat visited I (excepting (f <$> await c) handler) P := by
  intro w hw hi
  refine ⟨hw.toWithin, fun _ calls => ?_⟩
  have hnext : contact.next w calls (.await c) = w := by
    simp [contact, hc (calls c)]
  rw [hnext]
  change Survives _ _ _ (excepting (f <$> orThrow id ((calls c).mapError .raised)) handler) _
  cases calls c with
  | ok a => exact ⟨hw.toWithin, hw, hok a _ hi⟩
  | error e => exact hh e w hw hi

theorem id_map_await (c : Call) : id <$> await c = await c :=
  congrArg (Script.ask (Op.await c)) (funext fun r => by cases r <;> rfl)

/-- A call whose result is used as it is. -/
theorem Brings.called {c : Call} (hc : ∀ r, c.contains r = true) {handler : Fault → Prog c.Reply}
    {P : c.Reply → JournalEntry → Prop} (hok : ∀ a e, I e → P a e)
    (hh : ∀ e, Brings chat visited I (handler (.raised e)) P) :
    Brings chat visited I (excepting (await c) handler) P := by
  rw [← id_map_await]
  exact Brings.call hc hok hh

theorem Brings.bestEffort {can : Bool} {x : Prog Unit}
    (hx : Brings chat visited I (excepting x fun _ => Pure.pure ()) fun _ => I) :
    Brings chat visited I (bestEffort can x) fun _ => I := by
  unfold Provisioning.bestEffort
  split
  · exact hx
  · exact .pure () fun _ hi => hi

/-- What is let through ends the walk. -/
theorem Brings.risk (chat' : Int) :
    Brings chat visited I (await (.stopBridge chat')) fun _ => I := by
  intro w hw hi
  refine ⟨hw.toWithin, fun _ calls => ?_⟩
  change Survives _ _ _ (orThrow id ((calls (.stopBridge chat')).mapError Fault.raised)) _
  cases hcall : calls (.stopBridge chat') with
  | ok a =>
      have hnext : contact.next w calls (.await (.stopBridge chat')) = w := by
        simp [contact, hcall, Call.contains]
      rw [hnext]
      exact ⟨hw.toWithin, hw, hi⟩
  | error e => exact ⟨⟨hw.within, hw.chat⟩, by simp [contact, hcall, Call.contains]⟩

end Rules

namespace ProvisioningBatch

variable {cfg : Config} {entry : JournalEntry} {chat : Int} {visited : Bool}
  {I : JournalEntry → Prop}

/-- A step that stops the walk has written why. -/
abbrev orSettled {α : Type} (stops : α → Prop) (a : α) (e : JournalEntry) : Prop :=
  stops a → e.Settled

theorem brings_fail (retryable : Bool) (reason : String) (failure : Option ProvisioningFailure) :
    Brings chat visited I (fail chat retryable reason failure) fun _ e => e.Settled := by
  refine (Brings.note .walk _).mono ?_
  rintro _ _ ⟨e, -, rfl⟩
  cases retryable
  · exact .inr ⟨.inr rfl, rfl⟩
  · exact .inr ⟨.inl rfl, rfl⟩

theorem brings_failWith (failure : ProvisioningFailure) :
    Brings chat visited I (failWith chat failure) fun _ e => e.Settled :=
  brings_fail _ _ _

/-- A failure that is noted, and the answer that stops the walk. -/
theorem brings_stop {α : Type} {x : Prog Unit} {stops : α → Prop} (a : α)
    (hx : Brings chat visited I x fun _ e => e.Settled) :
    Brings chat visited I (do x; return a) (orSettled stops) :=
  hx.bind fun _ => .pure a fun _ he _ => he

theorem brings_preflight (username : String) :
    Brings chat visited I (preflight cfg chat username) fun _ => I := by
  unfold preflight
  split
  · refine Brings.call (c := .preflight chat username) (f := fun _ => none) (fun _ => rfl)
      (fun _ _ hi => hi) fun e => ?_
    split <;> exact .pure _ fun _ hi => hi
  · exact .pure _ fun _ hi => hi

theorem brings_checkUsername :
    Brings entry.maxChatId visited I (checkUsername entry) (orSettled (· = none)) :=
  Brings.call (fun _ => rfl) (fun _ _ _ h => nomatch h) fun _ => brings_stop _ (brings_failWith _)

theorem brings_rememberBotId :
    Brings entry.maxChatId visited I (rememberBotId cfg entry) fun _ _ => True := by
  unfold rememberBotId
  split
  · exact .pure _ fun _ _ => trivial
  · refine Brings.bind (P := fun _ _ => True) ?_ fun botId => ?_
    · exact Brings.called (fun _ => rfl) (fun _ _ _ => trivial) fun _ => .pure _ fun _ _ => trivial
    · cases botId with
      | none => exact .pure _ fun _ _ => trivial
      | some botId =>
          dsimp only
          split
          · exact (Brings.note .walk _).mono fun _ _ _ => trivial
          · exact .pure _ fun _ _ => trivial

theorem brings_createBot :
    Brings entry.maxChatId visited I (createBot cfg entry) (orSettled (· = none)) := by
  intro w hw hi
  refine ⟨hw.toWithin, fun _ calls => ?_⟩
  let call := Call.createBot entry.maxChatId (cfg.displayNameOf entry) entry.expectedUsername
  change Survives _ _ _ (tryCatch (some <$> orThrow id ((calls call).mapError Fault.raised)) _) _
  have hfailed (failure : ProvisioningFailure) :
      Brings entry.maxChatId visited I
        (do failWith entry.maxChatId failure; return (none : Option CreatedBot))
        (orSettled (· = none)) :=
    brings_stop _ (brings_failWith failure)
  cases hcall : calls call with
  | ok a =>
      have hnext : contact.next w calls (.await call) = w := by
        simp [contact, hcall, Call.contains, call]
      rw [hnext]
      exact ⟨hw.toWithin, hw, fun h => nomatch h⟩
  | error e =>
      obtain ⟨cls, failure⟩ := e
      have hcaught (hcls : cls.isProvisionerError = true) :
          contact.next w calls (.await call) = w := by
        simp [contact, hcall, Call.contains, call, hcls]
      have hescapes (hcls : cls.isProvisionerError = false) :
          (contact.next w calls (.await call)).contained = false := by
        simp [contact, hcall, Call.contains, call, hcls]
      cases cls with
      | provisioner =>
          rw [hcaught rfl]
          exact hfailed failure w hw hi
      | ownerMustOpenChat =>
          rw [hcaught rfl]
          exact hfailed failure w hw hi
      | bridgeConflict text => exact ⟨⟨hw.within, hw.chat⟩, hescapes rfl⟩
      | other => exact ⟨⟨hw.within, hw.chat⟩, hescapes rfl⟩

theorem brings_report : Brings chat visited I (report cfg) fun _ => I :=
  Brings.bestEffort (Brings.called (c := .report) (fun _ => rfl) (fun _ _ hi => hi)
    fun _ => .pure () fun _ hi => hi)

theorem brings_prepare (username : String) :
    Brings chat visited I (prepare cfg username) fun _ => I :=
  Brings.bestEffort (Brings.called (c := .prepare username) (fun _ => rfl) (fun _ _ hi => hi)
    fun _ => .pure () fun _ hi => hi)

theorem brings_forgetOldBot (keeping : Option Int) :
    Brings chat visited I (forgetOldBot cfg chat keeping) fun _ => I :=
  Brings.bestEffort (Brings.called (c := .forgetBot chat keeping) (fun _ => rfl)
    (fun _ _ hi => hi) fun _ => .pure () fun _ hi => hi)

theorem brings_askConfirmation (state : UsernameState) :
    Brings entry.maxChatId visited I (askConfirmation cfg entry state) fun _ _ => True := by
  unfold askConfirmation
  split
  · refine (Brings.note .walk _).bind fun _ => (brings_prepare _).bind fun _ => ?_
    exact brings_report.mono fun _ _ _ => trivial
  · exact .pure _ fun _ _ => trivial

theorem brings_saveToken (token : String) :
    Brings entry.maxChatId visited I (saveToken entry token) (orSettled (· = none)) :=
  Brings.call (fun _ => rfl) (fun _ _ _ h => nomatch h) fun _ => brings_stop _ (brings_fail _ _ _)

theorem brings_wipeDialog (botId : Option Int) :
    Brings entry.maxChatId visited I (wipeDialog cfg entry botId) fun _ => I := by
  cases botId with
  | none => exact .pure _ fun _ hi => hi
  | some botId =>
      exact Brings.bestEffort (Brings.called (c := .wipeDialog entry.maxChatId botId)
        (fun _ => rfl) (fun _ _ hi => hi) fun _ => .pure () fun _ hi => hi)

theorem brings_ensureBot (state : UsernameState) :
    Brings entry.maxChatId visited I (ensureBot cfg entry state) (orSettled (· = false)) := by
  refine (brings_askConfirmation state).bind fun _ => brings_createBot.bind fun created => ?_
  cases created with
  | none => exact .pure _ fun _ h _ => h rfl
  | some created =>
      refine (brings_forgetOldBot _).bind fun _ => ?_
      refine (Brings.note .walk _).bind fun _ => (brings_saveToken _).bind fun tokenEnv => ?_
      cases tokenEnv with
      | none => exact .pure _ fun _ h _ => h rfl
      | some tokenEnv =>
          refine (Brings.note .walk _).bind fun _ => (Brings.risk _).bind fun _ => ?_
          dsimp only
          split
          · exact (brings_wipeDialog _).bind fun _ => .pure _ fun _ _ h => nomatch h
          · exact .pure _ fun _ _ h => nomatch h

theorem brings_launch (tokenEnv : String) :
    Brings entry.maxChatId visited I (launch entry tokenEnv) (orSettled (· = false)) := by
  refine Brings.bind (P := orSettled (· = none)) ?_ fun name => ?_
  · exact Brings.call (fun _ => rfl) (fun _ _ _ h => nomatch h)
      fun _ => brings_stop _ (brings_fail _ _ _)
  · cases name with
    | none => exact .pure _ fun _ h _ => h rfl
    | some name => exact (Brings.note .walk _).bind fun _ => .pure _ fun _ _ h => nomatch h

theorem brings_openChat :
    Brings entry.maxChatId visited I (openChat entry) (orSettled (· = false)) := by
  refine Brings.bind (P := fun _ _ => True) ?_ fun started => ?_
  · refine Brings.call (c := .sendStart entry.expectedUsername entry.telegramBotId)
      (f := fun _ => Started.sent) (fun _ => rfl) (fun _ _ _ => trivial) fun e => ?_
    split <;> exact .pure _ fun _ _ => trivial
  · cases started with
    | sent | ownerMustOpen =>
        exact (Brings.note .walk _).bind fun _ => .pure _ fun _ _ h => nomatch h
    | failed => exact brings_stop _ (brings_fail _ _ _)

theorem brings_verify :
    Brings entry.maxChatId visited I (verify entry) fun _ e => e.Settled := by
  refine Brings.bind (P := fun _ _ => True) ?_ fun healthy => ?_
  · exact Brings.called (fun _ => rfl) (fun _ _ _ => trivial) fun _ => .pure _ fun _ _ => trivial
  · cases healthy with
    | false => exact brings_fail _ _ _
    | true =>
        refine Brings.bind (P := fun _ _ => True) ?_ fun marked => ?_
        · exact Brings.call (c := .markActive entry.maxChatId) (f := fun _ => true)
            (fun _ => rfl) (fun _ _ _ => trivial) fun _ => .pure _ fun _ _ => trivial
        · cases marked with
          | false => exact brings_fail _ _ _
          | true =>
              refine (Brings.note .walk _).mono ?_
              rintro _ _ ⟨e, -, rfl⟩
              exact .inl rfl

theorem brings_bringUp :
    Brings entry.maxChatId visited I (bringUp entry) fun _ e => e.Settled := by
  refine Brings.bind (P := fun _ _ => True) (x := ask (.get entry.maxChatId)) ?_ fun found => ?_
  · intro w hw hi
    have hnext (calls : Outcomes) : contact.next w calls (.get entry.maxChatId) = w := by
      simp [contact, hw.chat]
    refine ⟨hw.toWithin, fun _ calls => ?_⟩
    rw [hnext]
    exact ⟨hw.toWithin, hw, trivial⟩
  dsimp only
  generalize found.getD ⟨entry, rfl⟩ = current
  obtain ⟨current, hcurrent⟩ := current
  simp only
  rw [← hcurrent]
  cases current.tokenEnv with
  | none => exact brings_fail _ _ _
  | some tokenEnv =>
      refine (brings_launch tokenEnv).bind fun launched => ?_
      cases launched with
      | false => exact .pure _ fun _ h => h rfl
      | true =>
          refine brings_openChat.bind fun opened => ?_
          cases opened with
          | false => exact .pure _ fun _ h => h rfl
          | true => exact brings_verify

/-- **A walk ends with its contact through, or failed with its error.** -/
theorem brings_provision :
    Brings entry.maxChatId visited I (provision cfg entry) fun _ e => e.Settled := by
  have hready (J : JournalEntry → Prop) (state : UsernameState) :
      Brings entry.maxChatId visited J
        (do let ready : Bool ← ensureBot cfg entry state
            if ready then bringUp entry) fun _ e => e.Settled := by
    refine (brings_ensureBot state).bind fun ready => ?_
    cases ready with
    | false => exact .pure _ fun _ h => h rfl
    | true => exact brings_bringUp
  refine (brings_preflight _).bind fun conflict => ?_
  cases conflict with
  | some reason => exact brings_fail _ _ _
  | none =>
      refine brings_checkUsername.bind fun state => ?_
      rcases state with _ | (_ | _ | _ | _)
      · exact .pure _ fun _ h => h rfl
      · exact hready _ .free
      · refine brings_rememberBotId.bind fun _ => ?_
        split
        · exact brings_bringUp
        · exact hready _ .owned
      · exact brings_failWith _
      · exact brings_failWith _

/-- What is said of a contact at the end of its turn. -/
def Turned (entry : JournalEntry) (w : Walk) : Prop :=
  (w.visited = true → w.entry.Settled) ∧
    (w.visited = false → entry.state ∈ terminal ∧ w.entry = entry)

theorem survives_claiming {body : Prog Unit} (hbody : ∀ I,
      Brings entry.maxChatId true I body fun _ e => e.Settled)
    {w : Walk} (hw : Going entry.maxChatId false w) (k : ContactKey) :
    Survives contact (Within entry.maxChatId) w (claiming k entry.maxChatId body) fun w' r =>
      match r with
      | .ok mine => mine = true ∧ Going entry.maxChatId true w' ∧ w'.entry.Settled
      | .error _ => w'.contained = false := by
  have hclaimed (calls : Outcomes) : Going entry.maxChatId true
      (contact.next w calls (.claim k entry.maxChatId)) :=
    ⟨⟨hw.within, hw.chat⟩, hw.contained, by simp [contact, hw.chat]⟩
  refine ⟨hw.toWithin, fun _ calls => ?_⟩
  refine Survives.bind (P := fun w' r =>
    match r with
    | .ok _ => Going entry.maxChatId true w' ∧ w'.entry.Settled
    | .error _ => w'.contained = false) (x := ensuring body (ask (.leave k .taken))) ?_
    (fun _ _ _ h => h) fun w' _ hC h => ⟨hC, rfl, h⟩
  refine Survives.ensuring (hbody (fun _ => True) _ (hclaimed calls) trivial) fun w' r hC h => ?_
  cases r with
  | ok _ | error _ => exact ⟨hC, fun _ _ => ⟨hC, h⟩⟩

/-- **A contact's turn**: it is brought to its end, or left as it was finished. -/
theorem survives_takeUp {w : Walk} (hw : Going entry.maxChatId false w) (he : w.entry = entry) :
    Survives contact (Within entry.maxChatId) w (takeUp cfg entry) fun w' r =>
      match r with
      | .ok _ => w'.contained = true ∧ Turned entry w'
      | .error _ => w'.contained = false := by
  have hopen : Survives contact (Within entry.maxChatId) w (open? entry) fun w' r =>
      match r with
      | .ok walk => Going entry.maxChatId false w' ∧
          (walk = false → entry.state ∈ terminal ∧ w'.entry = entry)
      | .error _ => w'.contained = false := by
    unfold open?
    split
    · next hterminal =>
        unfold wentAway
        split
        · exact ⟨hw.toWithin, hw, fun _ => ⟨hterminal, he⟩⟩
        · have hasked : Brings entry.maxChatId false (· = entry)
              (excepting (await (.isHealthy entry.maxChatId)) fun _ => pure true)
              fun _ e => e = entry :=
            Brings.called (fun _ => rfl) (fun _ _ h => h) fun _ => .pure _ fun _ h => h
          refine (hasked w hw he).bind (fun _ _ _ h => h) fun w' alive hC h => ?_
          cases alive with
          | true => exact ⟨hC, h.1, fun _ => ⟨hterminal, h.2⟩⟩
          | false =>
              refine (Brings.note (I := fun _ => True) .wentAway _ w' h.1 trivial).bind
                (fun _ _ _ h => h) fun _ _ hC h => ⟨hC, h.1, fun h => nomatch h⟩
    · exact ⟨hw.toWithin, hw, fun h => nomatch h⟩
  refine hopen.bind (fun _ _ _ h => h) fun w' walk hC h => ?_
  cases walk with
  | false =>
      refine ⟨hC, h.1.contained, fun hv => ?_, fun _ => h.2 rfl⟩
      rw [h.1.visited] at hv
      cases hv
  | true =>
      refine (survives_claiming (fun I => brings_provision) h.1 (key cfg entry)).bind
        (fun _ _ _ h => h) fun u mine hC h => ?_
      obtain ⟨rfl, hgoing, hsettled⟩ := h
      have hreport : Brings entry.maxChatId true JournalEntry.Settled (report cfg)
          fun _ => JournalEntry.Settled := brings_report
      refine (hreport u hgoing hsettled).mono fun v r _ h => ?_
      cases r with
      | error e => exact h
      | ok _ =>
          refine ⟨h.1.contained, fun _ => h.2, fun hv => ?_⟩
          rw [h.1.visited] at hv
          cases hv

end ProvisioningBatch

/-! ## the walk in the journal -/

theorem Asked.contained_await (c : Call) (r : Except Raised c.Reply) :
    Asked.contained ⟨.await c, r.mapError Fault.raised⟩ = c.contains r := by
  cases r with
  | ok a => cases c <;> rfl
  | error e => rfl

/-- What has happened is what was asked and answered. -/
theorem flags_of_plays {α : Type} {x : Prog α} {w w' : Walk} {tr : List Asked}
    {res : Except Fault α} (h : Plays contact w x tr res w') :
    w'.contained = (w.contained && tr.all Asked.contained) ∧
      w'.visited = (w.visited || tr.any (·.visits w.entry.maxChatId)) := by
  induction h with
  | done s a | fail s e => simp
  | ask calls hfits _ ih =>
      rename_i s t op k tr res _
      have hid : (contact.next s calls op).entry.maxChatId = s.entry.maxChatId := by
        cases op <;> rfl
      obtain ⟨hcontained, hvisited⟩ := ih
      rw [hid] at hvisited
      rw [hcontained, hvisited, List.all_cons, List.any_cons, ← Bool.and_assoc, ← Bool.or_assoc]
      constructor
      · cases op with
        | await c => rw [show Asked.contained ⟨.await c, contact.answer s calls (.await c)⟩ =
            c.contains (calls c) from Asked.contained_await c (calls c)]; rfl
        | _ => simp [contact, Asked.contained]
      · cases op with
        | claim key chat => rfl
        | _ => simp [contact, Asked.visits]

theorem ProvisioningJournal.find_of_get {j : ProvisioningJournal} {chat : Int} {e : JournalEntry}
    (h : j.get chat = some e) : j.find chat = some ⟨e, maxChatId_of_get h⟩ := by
  unfold find
  split
  · next e' h' =>
      obtain rfl := Option.some.inj (h.symm.trans h')
      rfl
  · next hnone => exact absurd (h.symm.trans hnone) nofun

/-- A question within the contact is answered in the journal as it is on its own. -/
theorem agrees {chat : Int} {w : Walk} {j : ProvisioningJournal} {op : Op} {calls : Outcomes}
    (hw : Within chat w) (hn : Within chat (contact.next w calls op))
    (hj : j.get chat = some w.entry) :
    alone.answer j calls op = contact.answer w calls op ∧
      (alone.next j calls op).get chat = some (contact.next w calls op).entry ∧
      ∀ chat', chat' ≠ chat → (alone.next j calls op).get chat' = j.get chat' := by
  obtain ⟨hwithin, hchat⟩ := hw
  cases op with
  | walking chats => exact nomatch hn.within
  | get chat' =>
      obtain rfl : w.entry.maxChatId = chat' := by simpa [contact, hwithin] using hn.within
      subst hchat
      refine ⟨?_, hj, fun _ _ => rfl⟩
      simp [alone, contact, ProvisioningJournal.find_of_get hj]
  | note writer chat' c =>
      obtain rfl : w.entry.maxChatId = chat' := by simpa [contact, hwithin] using hn.within
      subst hchat
      have hnote : j.note w.entry.maxChatId c = some (j.put (c.apply w.entry)) := by
        simp [ProvisioningJournal.note, hj]
      refine ⟨?_, ?_, fun chat' hne => ?_⟩
      · simp [alone, contact, ProvisioningJournal.answerNote, hnote]
      · simp [alone, contact, hnote, ProvisioningJournal.get_put]
      · simp [alone, hnote, ProvisioningJournal.get_put, hne]
  | claim key chat' | leave key how | await c => exact ⟨rfl, hj, fun _ _ => rfl⟩

section

variable {α : Type} {chat : Int} {x : Prog α} {w : Walk} {Q : Walk → Except Fault α → Prop}
  {j : ProvisioningJournal} {tr : List Asked} {res : Except Fault α}

/-- A walk in the journal is a walk of its contact, and leaves the others. -/
theorem plays_contact {j' : ProvisioningJournal} (hp : Plays alone j x tr res j')
    (hx : Survives contact (Within chat) w x Q) (hj : j.get chat = some w.entry) :
    ∃ w', Plays contact w x tr res w' ∧ j'.get chat = some w'.entry ∧
      ∀ chat', chat' ≠ chat → j'.get chat' = j.get chat' := by
  induction hp generalizing w with
  | done j a => exact ⟨w, .done w a, hj, fun _ _ => rfl⟩
  | fail j e => exact ⟨w, .fail w e, hj, fun _ _ => rfl⟩
  | ask calls _ _ ih =>
      have hnext := hx.2 trivial calls
      obtain ⟨hanswer, hentry, hothers⟩ := agrees hx.1 hnext.now hj
      rw [hanswer] at ih ⊢
      obtain ⟨w', hplays, hget, hrest⟩ := ih hnext hentry
      exact ⟨w', .ask calls trivial hplays, hget,
        fun chat' hne => (hrest chat' hne).trans (hothers chat' hne)⟩

/-- A walk of a contact is a walk in every journal that has its entry. -/
theorem plays_alone {w' : Walk} (hp : Plays contact w x tr res w')
    (hx : Survives contact (Within chat) w x Q) (hj : j.get chat = some w.entry) :
    ∃ j', Plays alone j x tr res j' ∧ j'.get chat = some w'.entry := by
  induction hp generalizing j with
  | done w a => exact ⟨j, .done j a, hj⟩
  | fail w e => exact ⟨j, .fail j e, hj⟩
  | ask calls _ _ ih =>
      have hnext := hx.2 trivial calls
      obtain ⟨hanswer, hentry, -⟩ := agrees hx.1 hnext.now hj
      rw [← hanswer] at ih hnext ⊢
      obtain ⟨j', hplays, hget⟩ := ih hnext hentry
      exact ⟨j', .ask calls trivial hplays, hget⟩

end

/-! ## the whole selection -/

/-- A contact at the beginning of its turn. -/
def Walk.begin_ (e : JournalEntry) : Walk := ⟨e, true, true, false⟩

theorem going_begin (e : JournalEntry) : Going e.maxChatId false (Walk.begin_ e) :=
  ⟨⟨rfl, rfl⟩, rfl, rfl⟩

/-- One turn of the loop. -/
structure Turn (cfg : Config) (entry : JournalEntry) (piece : List Asked) (w : Walk) : Prop where
  plays : Plays contact (Walk.begin_ entry) (ProvisioningBatch.takeUp cfg entry) piece (.ok ()) w
  contained : piece.all Asked.contained = true
  turned : ProvisioningBatch.Turned entry w
  visited : w.visited = piece.any (·.visits entry.maxChatId)

/-- A turn ends with its contact, or what escaped ends the run. -/
theorem turn_of_plays {cfg : Config} {entry : JournalEntry} {j j' : ProvisioningJournal}
    {tr : List Asked} {res : Except Fault Unit} (hj : j.get entry.maxChatId = some entry)
    (hp : Plays alone j (ProvisioningBatch.takeUp cfg entry) tr res j') :
    (∀ chat, chat ≠ entry.maxChatId → j'.get chat = j.get chat) ∧
      ((∃ e, res = .error e ∧ tr.all Asked.contained = false) ∨
        res = .ok () ∧ ∃ w, Turn cfg entry tr w ∧ j'.get entry.maxChatId = some w.entry) := by
  have hx : Survives _ _ _ (ProvisioningBatch.takeUp cfg entry) _ :=
    ProvisioningBatch.survives_takeUp (going_begin entry) rfl
  obtain ⟨w, hplays, hget, hothers⟩ := plays_contact hp hx hj
  obtain ⟨hcontained, hvisited⟩ := flags_of_plays hplays
  obtain ⟨-, hend⟩ := hx.ends hplays
  refine ⟨hothers, ?_⟩
  cases res with
  | error e => exact .inl ⟨e, rfl, by simpa [hend, Walk.begin_] using hcontained.symm⟩
  | ok _ =>
      refine .inr ⟨rfl, w, ⟨hplays, ?_, hend.2, ?_⟩, hget⟩
      · simpa [hend.1, Walk.begin_] using hcontained.symm
      · simpa [Walk.begin_] using hvisited

/-- The loop takes its contacts one after the other. -/
theorem turns_of_plays {cfg : Config} {entries : List JournalEntry} {j j' : ProvisioningJournal}
    {tr : List Asked} {res : Except Fault Unit}
    (hj : ∀ e ∈ entries, j.get e.maxChatId = some e)
    (hnodup : (entries.map (·.maxChatId)).Nodup)
    (hp : Plays alone j (ProvisioningBatch.loop cfg entries) tr res j') :
    (∀ chat, (∀ e ∈ entries, e.maxChatId ≠ chat) → j'.get chat = j.get chat) ∧
      ((∃ e, res = .error e ∧ tr.all Asked.contained = false) ∨
        res = .ok () ∧ tr.all Asked.contained = true ∧ ∃ pieces, tr = pieces.flatten ∧
          List.Forall₂ (fun entry piece => ∃ w, Turn cfg entry piece w ∧
            j'.get entry.maxChatId = some w.entry) entries pieces) := by
  induction entries generalizing j tr with
  | nil =>
      cases hp
      exact ⟨fun _ _ => rfl, .inr ⟨rfl, rfl, [], rfl, .nil⟩⟩
  | cons entry entries ih =>
      obtain ⟨hfirst, hrest⟩ := List.forall_mem_cons.mp hj
      obtain ⟨hfresh, hnodup⟩ := List.nodup_cons.mp hnodup
      have hne (e : JournalEntry) (he : e ∈ entries) : e.maxChatId ≠ entry.maxChatId :=
        fun heq => hfresh (List.mem_map.mpr ⟨e, he, heq⟩)
      rcases Plays.of_bind hp with ⟨_, m, tr₁, tr₂, hturn, hloop, rfl⟩ | ⟨e, hturn, rfl⟩
      · obtain ⟨hothers, hend⟩ := turn_of_plays hfirst hturn
        rcases hend with ⟨_, hres, -⟩ | ⟨-, w, hw, hget⟩
        · cases hres
        obtain ⟨hothers', hend'⟩ := ih
          (fun e he => (hothers _ (hne e he)).trans (hrest e he)) hnodup hloop
        refine ⟨fun chat hchat => ?_, ?_⟩
        · obtain ⟨hentry, hchats⟩ := List.forall_mem_cons.mp hchat
          exact (hothers' chat hchats).trans (hothers chat (Ne.symm hentry))
        · rcases hend' with ⟨e, hres, hall⟩ | ⟨hres, hall, pieces, rfl, hpieces⟩
          · exact .inl ⟨e, hres, by simp [List.all_append, hall]⟩
          · refine .inr ⟨hres, by simp [List.all_append, hall, hw.contained], tr₁ :: pieces, rfl,
              .cons ⟨w, hw, ?_⟩ hpieces⟩
            exact (hothers' _ fun e he => hne e he).trans hget
      · obtain ⟨hothers, hend⟩ := turn_of_plays hfirst hturn
        refine ⟨fun chat hchat => hothers chat ?_, .inl ⟨e, rfl, ?_⟩⟩
        · exact Ne.symm (List.forall_mem_cons.mp hchat).1
        · rcases hend with ⟨_, -, hall⟩ | ⟨hres, -⟩
          · exact hall
          · cases hres

/-! ## a run -/

section

variable {cfg : Config} {j j' : ProvisioningJournal} {tr : List Asked}

theorem ProvisioningJournal.walking_only {entry : JournalEntry}
    (h : j.get entry.maxChatId = some entry) : j.walking (some [entry.maxChatId]) = [entry] := by
  simp [walking, selected, h]

/-- The entries of a run are those of the journal, one for each contact. -/
theorem ProvisioningJournal.get_walking (chatIds : Option (List Int)) :
    ∀ e ∈ j.walking chatIds, j.get e.maxChatId = some e := by
  intro e he
  cases chatIds with
  | none => exact get_eq_some_iff.mpr ⟨he, rfl⟩
  | some chats =>
      obtain ⟨chat, -, hget⟩ := List.mem_filterMap.mp he
      rwa [maxChatId_of_get hget]

theorem ProvisioningJournal.nodup_selected {chats : List Int} (h : chats.Nodup) :
    ((j.selected chats).map (·.maxChatId)).Nodup := by
  have hids : (j.selected chats).map (·.maxChatId) =
      chats.filter fun chat => (j.get chat).isSome := by
    clear h
    induction chats with
    | nil => rfl
    | cons chat chats ih =>
        cases hget : j.get chat with
        | none => simpa [selected, hget] using ih
        | some e =>
            have hid := maxChatId_of_get hget
            simpa [selected, hget, hid] using ih
  rw [hids]
  exact h.filter _

theorem plays_walking (chatIds : Option (List Int)) :
    ∃ first, Plays alone j (ask (.walking chatIds) : Prog (List JournalEntry)) [first]
      (.ok (j.walking chatIds)) j :=
  ⟨_, .ask (w := alone) (fun _ => .error ⟨.other, .networkError⟩) trivial (.done _ _)⟩

theorem of_plays_walking {chatIds : Option (List Int)} {res : Except Fault (List JournalEntry)}
    (h : Plays alone j (ask (.walking chatIds) : Prog (List JournalEntry)) tr res j') :
    j' = j ∧ res = .ok (j.walking chatIds) ∧ tr = [⟨.walking chatIds, j.walking chatIds⟩] := by
  cases h with
  | ask c hfits h =>
      cases h
      exact ⟨rfl, rfl, rfl⟩

/-- A turn, in a run of its own. -/
theorem Turn.own {entry : JournalEntry} {piece : List Asked} {w : Walk}
    (h : Turn cfg entry piece w) (hj : j.get entry.maxChatId = some entry) :
    ∃ first last own, Plays alone j (ProvisioningBatch.run (cfg.only entry.maxChatId))
      (first :: (piece ++ [last])) (.ok (own.walking (some [entry.maxChatId]))) own ∧
        own.get entry.maxChatId = some w.entry := by
  obtain ⟨own, hplays, hget⟩ := plays_alone h.plays
    (ProvisioningBatch.survives_takeUp (going_begin entry) rfl) hj
  obtain ⟨first, hfirst⟩ := plays_walking (j := j) (some [entry.maxChatId])
  obtain ⟨last, hlast⟩ := plays_walking (j := own) (some [entry.maxChatId])
  rw [ProvisioningJournal.walking_only hj] at hfirst
  have hloop : Plays alone j (ProvisioningBatch.loop (cfg.only entry.maxChatId) [entry])
      (piece ++ []) (.ok ()) own :=
    Plays.bind hplays (.done own ())
  rw [List.append_nil] at hloop
  refine ⟨first, last, own, ?_, hget⟩
  exact Plays.bind (f := fun entries => do
    ProvisioningBatch.loop (cfg.only entry.maxChatId) entries
    ask (.walking (some [entry.maxChatId]))) hfirst (hloop.bind hlast)

end

/-- **One contact's failure stays one contact's failure**, exactly in the runs in which
`create_bot` fails with no more than a `ProvisionerError`, and `stop_bridge` not at all. -/
theorem failure_stays (cfg : Config) (hselection : ∀ chats, cfg.chatIds = some chats → chats.Nodup)
    (j j' : ProvisioningJournal) (tr : List Asked) (res : Except Fault (List JournalEntry))
    (h : Plays alone j (ProvisioningBatch.run cfg) tr res j') :
    Isolated cfg j tr res j' ↔ tr.all Asked.contained = true := by
  have hget := ProvisioningJournal.get_walking (j := j) cfg.chatIds
  have hnodup : ((j.walking cfg.chatIds).map (·.maxChatId)).Nodup := by
    cases hchats : cfg.chatIds with
    | none => exact j.nodup
    | some chats => exact ProvisioningJournal.nodup_selected (hselection chats hchats)
  rcases Plays.of_bind h with ⟨entries, _, tr₁, tr₂, hfirst, hrest, rfl⟩ | ⟨e, hfirst, rfl⟩
  · obtain ⟨rfl, hentries, rfl⟩ := of_plays_walking hfirst
    obtain rfl := Except.ok.inj hentries
    rcases Plays.of_bind hrest with ⟨_, m, tr₃, tr₄, hloop, hlast, rfl⟩ | ⟨e, hloop, rfl⟩
    · obtain ⟨rfl, rfl, rfl⟩ := of_plays_walking hlast
      obtain ⟨hothers, ⟨_, hres, -⟩ | ⟨-, hall, pieces, rfl, hpieces⟩⟩ :=
        turns_of_plays hget hnodup hloop
      · cases hres
      refine iff_of_true ⟨rfl, ⟨_, _, pieces, rfl, ?_⟩, hothers⟩ ?_
      · refine ((List.forall₂_and_left _ _).mpr ⟨hget, hpieces⟩).imp ?_
        rintro entry piece ⟨hentry, w, hturn, hend⟩
        obtain ⟨first, last, own, hown, hsame⟩ := hturn.own hentry
        refine ⟨fun hopen => ?_, fun hv => ?_, fun hv => ?_,
          first, last, own, hown, hsame.trans hend.symm⟩
        · rw [← hturn.visited]
          by_contra hv
          exact hopen (hturn.turned.2 (Bool.eq_false_iff.mpr hv)).1
        · exact ⟨_, hend, hturn.turned.1 (hturn.visited.trans hv)⟩
        · rw [hend, hentry, (hturn.turned.2 (hturn.visited.trans hv)).2]
      · simp [List.all_append, hall, Asked.contained]
    · obtain ⟨-, ⟨_, -, hall⟩ | ⟨hres, -⟩⟩ := turns_of_plays hget hnodup hloop
      · refine iff_of_false (fun hi => nomatch hi.returns) ?_
        simp [hall]
      · cases hres
  · obtain ⟨-, hres, -⟩ := of_plays_walking hfirst
    cases hres

/-! ## two contacts -/

def anna : JournalEntry := { maxChatId := 9, expectedUsername := "mx_anna_bot" }

def boris : JournalEntry := { maxChatId := 10, expectedUsername := "mx_boris_bot" }

def pair : ProvisioningJournal := ProvisioningJournal.empty.begin [anna, boris]

def both : Config := { chatIds := some [9, 10], displayNameOf := fun e => e.title }

/-- `create_bot` fails for the first contact; every other call succeeds. -/
def refusing (e : Raised) : Outcomes
  | .limit => .ok ()
  | .isHealthy _ => .ok true
  | .preflight _ _ => .ok ()
  | .checkUsername _ => .ok .free
  | .botIdFor _ => .ok none
  | .prepare _ => .ok ()
  | .report => .ok ()
  | .createBot chat _ _ => if chat = 9 then .error e else .ok ⟨"5:secret", some 5⟩
  | .forgetBot _ _ => .ok ()
  | .saveToken _ _ _ => .ok "MAX_BOT_10"
  | .stopBridge _ => .ok ()
  | .wipeDialog _ _ => .ok ()
  | .startWorker _ _ _ _ _ => .ok "boris"
  | .sendStart _ _ => .ok ()
  | .markActive _ => .ok ()

/-- What a run over both leaves. -/
def outcome (e : Raised) : List Asked × Except Fault (List JournalEntry) × ProvisioningJournal :=
  alone.run (refusing e) pair (ProvisioningBatch.run both)

theorem plays_outcome (e : Raised) : Plays alone pair (ProvisioningBatch.run both) (outcome e).1
    (outcome e).2.1 (outcome e).2.2 :=
  World.plays_run (fun _ _ => trivial) _ _ _

/-- @BotFather asks to wait: the first contact fails, the second is brought up. -/
theorem failure_stays_flood : ∃ tr res j', Plays alone pair (ProvisioningBatch.run both) tr res j' ∧
    (j'.get 9).map (·.state) = some .failedRetryable ∧
    (j'.get 10).map (·.state) = some .healthy ∧ Isolated both pair tr res j' := by
  refine ⟨_, _, _, plays_outcome ⟨.provisioner, .floodWait⟩, by decide +kernel,
    by decide +kernel, ?_⟩
  refine (failure_stays both ?_ pair _ _ _ (plays_outcome _)).mpr (by decide +kernel)
  intro chats hchats
  obtain rfl := Option.some.inj hchats
  decide

/-- A call times out inside `create_bot`: the run ends there, and the second contact is not
visited. -/
theorem not_failure_stays : ∃ tr res j', Plays alone pair (ProvisioningBatch.run both) tr res j' ∧
    (j'.get 10).map (·.state) = some .pending ∧ ¬Isolated both pair tr res j' := by
  refine ⟨_, _, _, plays_outcome ⟨.other, .networkError⟩, by decide +kernel, fun h => ?_⟩
  have hraised : (outcome ⟨.other, .networkError⟩).2.1.isOk = false := by decide +kernel
  rw [h.returns] at hraised
  exact nomatch hraised

end Telemax.Provisioning
