import Telemax.Onboarding.System

/-!
# Telemax.Onboarding.Protocol

What the owner's actions and a login attempt keep to, whatever is answered.
-/

namespace Telemax.Onboarding

open Script

/-! ## what a task keeps to -/

/-- Only an attempt that is inside `connect`, and not cancelled, puts a prompt; only it clears the
gateway, and only when it leaves; a task is made for the gateway that was made for it. -/
def Book.allows (kind : Kind) (b : Book) : Op → Prop
  | .sync (.ask gateway _) =>
      kind = .attempt gateway ∧ b.inside = some gateway ∧ b.asks = none ∧ b.cut = false
  | .sync (.close gateway) => kind = .attempt gateway ∧ b.inside = some gateway ∧ b.asks = none
  | .sync (.clearGateway gateway) => kind = .attempt gateway ∧ b.inside = some gateway
  | .sync .openGateway => kind = .action
  | .sync (.createTask _ gateway) => kind = .action ∧ b.inside = some gateway
  | .sync .abandonAttempt => kind = .action
  | .sync (.update changes) =>
      ∀ stage, changes.stage = some stage → Stage.maxOnboardingPending.rank ≤ stage.rank
  | _ => True

def protocol (kind : Kind) : Protocol Op.Answer Book where
  allowed := Book.allows kind
  next := Book.next

/-- Between two prompts. -/
structure Book.Inside (kind : Kind) (gateway : Nat) (b : Book) : Prop where
  kind : kind = .attempt gateway
  inside : b.inside = some gateway
  asks : b.asks = none

def Ends (kind : Kind) (b : Book) (r : Except Fault Next) : Prop :=
  ∀ phone gateway, r = .ok (.connecting phone gateway) → b.Inside kind gateway ∧ b.cut = false

/-- Nothing is assumed, and nothing is left. -/
def Any (_ : Book) : Prop := True

variable {kind : Kind} {cfg : Config}

theorem free_await (a : Await) : Carries (protocol kind) Any (await a) Any :=
  Carries.bind (Carries.query (Op.await a) (fun _ _ => by cases a <;> trivial) fun _ _ _ => trivial)
    (fun _ h => h) fun r => Carries.orThrow id r fun _ h => h

theorem free_sync (x : Sync) (h : ∀ b, Book.allows kind b (.sync x)) :
    Carries (protocol kind) Any (sync x) Any :=
  Carries.query (Op.sync x) (fun b _ => h b) fun _ _ _ => trivial

theorem free_pure {α : Type} (a : α) : Carries (protocol kind) Any (pure a : Prog α) Any :=
  Carries.pure a fun _ h => h

theorem free_bind {α β : Type} {x : Prog α} {f : α → Prog β}
    (hx : Carries (protocol kind) Any x Any) (hf : ∀ a, Carries (protocol kind) Any (f a) Any) :
    Carries (protocol kind) Any (x >>= f) Any :=
  hx.bind (fun _ h => h) hf

/-- What may be written without looking. -/
theorem free_update (changes : Changes)
    (h : ∀ stage, changes.stage = some stage → Stage.maxOnboardingPending.rank ≤ stage.rank) :
    Carries (protocol kind) Any (sync (.update changes)) Any :=
  free_sync _ fun _ => h

theorem free_show (screen : Screen) : Carries (protocol kind) Any (await (.show screen)) Any :=
  free_await _

/-- Something is tried, and its failure is shown. -/
theorem free_try {x : Prog Bool} (hx : Carries (protocol kind) Any x Any)
    (screen : Fault → Screen) :
    Carries (protocol kind) Any
      (tryCatch x fun
        | .cancelled => throw .cancelled
        | error => do
            await (.show (screen error))
            return false) Any := by
  refine hx.tryCatch (fun _ h => h) fun e => ?_
  cases e with
  | cancelled => exact Carries.throw _ fun _ h => h
  | abandoned | raised text => exact free_bind (free_show _) fun _ => free_pure _

theorem free_finish : Carries (protocol kind) Any finish Any := by
  refine free_bind (free_update _ nofun) fun _ => free_bind (free_show _) fun _ => ?_
  refine free_bind (free_try (free_bind (free_await _) fun _ => free_pure _)
    fun error => .launchFailed error.text) fun up => ?_
  cases up with
  | true =>
      refine free_bind (free_update _ ?_) fun _ =>
        free_bind (free_sync _ fun _ => trivial) fun _ => free_show _
      rintro _ ⟨rfl⟩
      decide
  | false => exact free_pure _

/-! ### an attempt -/

variable {gateway : Nat} {b : Book}

/-- A prompt ends with nothing asked, and cut short only by a cancellation. -/
theorem obeys_collect (hin : b.Inside kind gateway) (hcut : b.cut = false) (question : Question)
    (hint : Option String) :
    Obeys (protocol kind) b (collect gateway question hint) fun b r =>
      b.Inside kind gateway ∧ (r ≠ .error .cancelled → b.cut = false) := by
  refine ⟨⟨hin.kind, hin.inside, hin.asks, hcut⟩, fun attempt => ?_⟩
  refine Obeys.bind (x := await (.show _)) (P := fun b r => b.inside = some gateway ∧
      (∀ u, r = .ok u → b.cut = false) ∧ ∀ e, r = .error e → b.asks = none ∧
        (e ≠ .cancelled → b.cut = false)) ⟨trivial, fun r => ?_⟩ ?_ ?_
  · cases r with
    | ok u => exact ⟨hin.inside, fun _ _ => hcut, nofun⟩
    | error e =>
        refine ⟨?_, nofun, ?_⟩
        · cases e <;> exact hin.inside
        · rintro _ ⟨rfl⟩
          cases e with
          | cancelled => exact ⟨rfl, fun h => absurd rfl h⟩
          | abandoned | raised text => exact ⟨rfl, fun _ => hcut⟩
  · rintro b e ⟨hinside, -, herror⟩
    obtain ⟨hasks, hcut⟩ := herror e rfl
    exact ⟨⟨hin.kind, hinside, hasks⟩, fun h => hcut fun he => h (he ▸ rfl)⟩
  · rintro b u ⟨hinside, hok, -⟩
    refine Obeys.bind (x := await (.wait _)) (P := fun b r => b.Inside kind gateway ∧
        (r ≠ .error .cancelled → b.cut = false)) ⟨trivial, fun r => ?_⟩
      (fun b e h => ⟨h.1, fun hne => h.2 fun he => hne (by cases he; rfl)⟩) fun b value h => ?_
    · cases r with
      | ok value => exact ⟨⟨hin.kind, hinside, rfl⟩, fun _ => hok u rfl⟩
      | error e =>
          cases e with
          | cancelled => exact ⟨⟨hin.kind, hinside, rfl⟩, fun h => absurd rfl h⟩
          | abandoned | raised text => exact ⟨⟨hin.kind, hinside, rfl⟩, fun _ => hok u rfl⟩
    · have hcut := h.2 nofun
      cases value with
      | some value => exact ⟨h.1, fun _ => hcut⟩
      | none =>
          exact ⟨⟨hin.kind, h.1.inside, h.1.asks⟩, fun _ =>
            ⟨⟨hin.kind, h.1.inside, h.1.asks⟩, fun _ => hcut⟩⟩

/-- One turn inside `connect`. -/
theorem obeys_inside (hin : b.Inside kind gateway) (hcut : b.cut = false) (phone : String) :
    Obeys (protocol kind) b (inside phone gateway) fun b r =>
      b.Inside kind gateway ∧ ∃ turn, r = .ok turn ∧ (turn = none → b.cut = false) := by
  refine Obeys.tryCatch (P := fun b r => b.Inside kind gateway ∧
      (r = .ok none → b.cut = false)) ?_ (fun b turn h => ⟨h.1, turn, rfl, fun ht => h.2 (ht ▸ rfl)⟩)
    fun b e h => ⟨h.1, _, rfl, nofun⟩
  refine Obeys.bind (x := await (.connect phone)) (P := fun b r => b.Inside kind gateway ∧
      ∀ c, r = .ok c → b.cut = false) ⟨trivial, fun r => ?_⟩ (fun b e h => ⟨h.1, nofun⟩) ?_
  · cases r with
    | ok c => exact ⟨hin, fun _ _ => hcut⟩
    | error e => cases e <;> exact ⟨⟨hin.kind, hin.inside, rfl⟩, nofun⟩
  · rintro b c ⟨hin, hok⟩
    have hcut := hok c rfl
    cases c with
    | returns | raises f => exact ⟨hin, nofun⟩
    | prompt question hint =>
        refine Obeys.tryCatch (P := fun b r => b.Inside kind gateway ∧
            (r ≠ .error .cancelled → b.cut = false)) ?_ (fun b a h => ⟨h.1, fun _ => h.2 nofun⟩) ?_
        · refine Obeys.bind (obeys_collect hin hcut question hint)
            (fun b e h => ⟨h.1, fun hne => h.2 fun he => hne (by cases he; rfl)⟩) ?_
          exact fun b value h => ⟨h.1, fun _ => h.2 nofun⟩
        · rintro b (_ | _ | text) h
          · exact ⟨h.1, nofun⟩
          · exact ⟨h.1, fun _ => h.2 nofun⟩
          · exact ⟨h.1, fun _ => h.2 nofun⟩

theorem carries_clearGateway :
    Carries (protocol kind) (Book.Inside kind gateway) (sync (.clearGateway gateway)) Any :=
  Carries.query _ (fun _ h => ⟨h.kind, h.inside⟩) fun _ _ _ => trivial

/-- From the end of `connect` on. -/
theorem carries_connected (phone : String) (result : Except Fault Unit) :
    Carries (protocol kind) (Book.Inside kind gateway) (connected phone gateway result) Any := by
  match result with
  | .error .cancelled =>
      exact carries_clearGateway.bind (fun _ h => h) fun _ => Carries.throw _ fun _ h => h
  | .error .abandoned => exact carries_clearGateway
  | .error (.raised text) =>
      refine Carries.ensuring ?_ carries_clearGateway
      refine Carries.bind (J := Book.Inside kind gateway)
        (Carries.query _ (fun _ _ stage hstage => by cases hstage) fun _ h _ => h)
        (fun _ h => h) fun _ => ?_
      refine Carries.bind (J := Book.Inside kind gateway)
        (Carries.query _ (fun _ _ => trivial) fun b h r => ?_) (fun _ h => h)
        fun r => Carries.orThrow id r fun _ h => h
      cases r with
      | ok u => exact h
      | error e => cases e <;> exact ⟨h.kind, h.inside, rfl⟩
  | .ok () =>
      refine carries_clearGateway.bind (fun _ h => h) fun _ => ?_
      refine free_bind (free_update _ ?_) fun _ => free_bind (free_show _) fun _ => ?_
      · rintro _ ⟨rfl⟩
        decide
      · refine free_bind (free_try (free_bind (free_await _) fun _ => free_pure _)
          fun error => .launchFailed error.text) fun saved => ?_
        cases saved with
        | true => exact free_finish
        | false => exact free_pure _

theorem ends_over : Ends kind b (.ok .ended) := nofun

theorem ends_error {e : Fault} : Ends kind b (.error e) := nofun

theorem obeys_round (hin : b.Inside kind gateway) (hcut : b.cut = false) (phone : String) :
    Obeys (protocol kind) b (Next.connecting phone gateway).round (Ends kind) := by
  refine Obeys.bind (obeys_inside hin hcut phone) (fun _ _ _ => ends_error) ?_
  rintro b turn ⟨hin, _, ⟨rfl⟩, hcut⟩
  cases turn with
  | none =>
      rintro _ _ ⟨rfl, rfl⟩
      exact ⟨hin, hcut rfl⟩
  | some result =>
      exact Obeys.bind (carries_connected phone result b hin) (fun _ _ _ => ends_error)
        fun _ _ _ => ends_over

theorem obeys_login (phone : String) (hin : b.Inside kind gateway) (hcut : b.cut = false) :
    Obeys (protocol kind) b (login phone gateway) (Ends kind) := by
  refine Obeys.bind (x := await .scheduled) (P := fun b r => ∀ u, r = .ok u →
      b.Inside kind gateway ∧ b.cut = false) ⟨trivial, fun r => ?_⟩ (fun _ _ _ => ends_error) ?_
  · cases r with
    | ok u => exact fun _ _ => ⟨hin, hcut⟩
    | error e => exact nofun
  · rintro b u h _ _ ⟨rfl, rfl⟩
    exact h u rfl

/-! ### what the owner does -/

theorem free_abandonAttempt : Carries (protocol .action) Any abandonAttempt Any := by
  refine free_bind (free_sync _ fun _ => rfl) fun task => ?_
  cases task with
  | none => exact free_pure _
  | some task => exact (free_await _).tryCatch (fun _ h => h) fun _ => free_pure _

theorem free_startLogin (phone : String) : Carries (protocol .action) Any (startLogin phone) Any := by
  intro b _
  refine ⟨rfl, fun gateway => ?_⟩
  refine Obeys.bind (x := await (.show .sendingCode)) (P := fun b _ => b.inside = some gateway)
    ⟨trivial, fun r => ?_⟩ (fun _ _ _ => trivial) fun b _ h => ⟨⟨rfl, h⟩, fun _ => trivial⟩
  cases r with
  | ok u => exact rfl
  | error e => cases e <;> exact rfl

theorem free_askForANumber : Carries (protocol .action) Any (askForANumber cfg) Any := by
  refine free_bind (free_sync _ fun _ => trivial) fun existing => ?_
  cases existing with
  | none | some _ =>
      refine free_bind (free_update _ ?_) fun _ => free_show _
      rintro _ ⟨rfl⟩
      decide

theorem free_askTimezone : Carries (protocol .action) Any askTimezone Any := by
  refine free_bind (free_sync _ fun _ => trivial) fun record => ?_
  split
  · refine free_bind (free_update _ ?_) fun _ => free_show _
    rintro _ ⟨rfl⟩
    decide
  · exact free_bind (free_update _ nofun) fun _ => free_show _

theorem free_offer : Carries (protocol .action) Any offer Any := by
  refine free_bind (free_sync _ fun _ => trivial) fun record =>
    free_bind (free_sync _ fun _ => trivial) fun timezone => ?_
  cases timezone with
  | none => exact free_askTimezone
  | some timezone =>
      dsimp only
      split
      · exact free_show _
      · split <;> exact free_show _

theorem free_begin : Carries (protocol .action) Any (begin cfg) Any := by
  refine free_bind free_abandonAttempt fun _ => free_bind (free_sync _ fun _ => trivial)
    fun timezone => ?_
  cases timezone with
  | none => exact free_askTimezone
  | some _ => exact free_askForANumber

theorem free_setTimezone (name : String) :
    Carries (protocol .action) Any (setTimezone cfg name) Any := by
  have hwrite : Carries (protocol .action) Any (writeTimezone cfg name) Any := by
    unfold writeTimezone
    split
    · exact free_pure _
    · exact free_try (free_bind (free_await _) fun _ => free_pure _) fun error =>
        .launchFailed error.text
  unfold setTimezone
  split
  · exact free_show _
  · refine free_bind hwrite fun written => ?_
    cases written with
    | false => exact free_pure _
    | true =>
        refine free_bind (free_sync _ fun _ => trivial) fun _ =>
          free_bind (free_sync _ fun _ => trivial) fun record => ?_
        split
        · exact free_show _
        · exact free_askForANumber

theorem free_useTelegramPhone : Carries (protocol .action) Any (useTelegramPhone cfg) Any := by
  refine free_bind (free_sync _ fun _ => trivial) fun existing => ?_
  split
  · exact free_bind (free_update _ nofun) fun _ => free_show _
  · exact free_bind (free_update _ nofun) fun _ => free_startLogin _

theorem free_submit (text : String) : Carries (protocol .action) Any (submit cfg text) Any := by
  refine free_bind (free_sync _ fun _ => trivial) fun record => ?_
  split
  · unfold submitPhone
    split
    · exact free_show _
    · exact free_startLogin _
  · split
    · refine free_bind (free_sync _ fun _ => trivial) fun gateway => ?_
      cases gateway with
      | none => exact free_show _
      | some gateway =>
          refine free_bind (free_sync _ fun _ => trivial) fun taken => ?_
          cases taken with
          | false => exact free_pure _
          | true => exact free_bind (free_update _ nofun) fun _ => free_show _
    · exact free_pure _

theorem free_body (a : Action) : Carries (protocol .action) Any (a.body cfg) Any := by
  cases a with
  | offer => exact free_offer
  | begin | retry => exact free_begin
  | setTimezone name => exact free_setTimezone name
  | useTelegramPhone => exact free_useTelegramPhone
  | askOtherPhone => exact free_bind (free_update _ nofun) fun _ => free_show _
  | cancel =>
      exact free_bind free_abandonAttempt fun _ => free_bind (free_update _ nofun) fun _ =>
        free_show _
  | retryLaunch => exact free_finish
  | submit text => exact free_submit text
  | shutdown => exact free_abandonAttempt

theorem obeys_program (cfg : Config) (a : Action) :
    Obeys (protocol .action) b (a.program cfg) (Ends .action) :=
  Obeys.bind (free_body a b trivial) (fun _ _ _ => ends_error) fun _ _ _ => ends_over

end Telemax.Onboarding
