import Telemax.Lib.Typestate
import Telemax.Provisioning.Batch

/-!
# Telemax.Provisioning.Typestate

What the program text of a run keeps to, whatever it is answered: inside a claim
it writes and undoes only what the claim is for, until it has written `HEALTHY`;
outside it writes only `PENDING`, right after `is_healthy` has answered no, or
the reconciler's verdict.
-/

namespace Telemax.Provisioning

open Script

/-- A claim a task is inside of. -/
structure Hold where
  key : ContactKey
  chat : Int
  how : Claimed
  /-- `HEALTHY` has been written for this contact. -/
  finished : Bool
  deriving DecidableEq, Repr

/-- What a task holds, the innermost first, and the contact `is_healthy` has just denied. -/
structure Ledger where
  held : List Hold
  dead : Option Int

def Ledger.empty : Ledger := ⟨[], none⟩

/-- The innermost claim is for this contact, which is not finished. -/
def Ledger.Inside (σ : Ledger) (chat : Int) : Prop :=
  ∃ m, σ.held.head? = some m ∧ m.chat = chat ∧ m.finished = false

def Hold.finish (chat : Int) (m : Hold) : Hold :=
  if m.chat = chat then { m with finished := true } else m

/-- What a run may do where, and what it holds after it. -/
def discipline : Protocol Op.Outcome Ledger where
  allowed σ
    | .note .walk chat _ => σ.Inside chat
    | .note .wentAway chat c => σ.dead = some chat ∧ c.state ≠ some .healthy
    | .note .reconcile _ c => c.state ≠ some .healthy
    | .leave key how => ∃ m, σ.held.head? = some m ∧ m.key = key ∧ m.how = how
    | .await c => ∀ chat, c.undoes = some chat → σ.Inside chat
    | _ => True
  next σ
    | .note _ chat c, .ok _ =>
        ⟨if c.state = some .healthy then σ.held.map (·.finish chat) else σ.held, none⟩
    | .claim key chat, .taken => ⟨⟨key, chat, .taken, false⟩ :: σ.held, none⟩
    | .claim key chat, .already => ⟨⟨key, chat, .already, false⟩ :: σ.held, none⟩
    | .leave .., _ => ⟨σ.held.tail, none⟩
    | .await (.isHealthy chat), .ok false => ⟨σ.held, some chat⟩
    | .walking _, _ => σ
    | .get _, _ => σ
    | _, _ => ⟨σ.held, none⟩

/-! ## what a part holds -/

/-- A claim but for whether it is finished. -/
abbrev Held := ContactKey × Int × Claimed

def Hold.held (m : Hold) : Held := (m.key, m.chat, m.how)

@[simp] theorem Hold.held_finish (chat : Int) (m : Hold) : (m.finish chat).held = m.held := by
  simp only [Hold.finish]
  split <;> rfl

/-- The claims a task is inside of. -/
def Holds (hs : List Held) (σ : Ledger) : Prop := σ.held.map Hold.held = hs

/-- The claims a task is inside of, the innermost not being finished. -/
def Walks (h : Held) (hs : List Held) (σ : Ledger) : Prop :=
  Holds (h :: hs) σ ∧ ∀ m, σ.held.head? = some m → m.finished = false

theorem Walks.holds {h : Held} {hs : List Held} {σ : Ledger} (hw : Walks h hs σ) :
    Holds (h :: hs) σ :=
  hw.1

/-- The innermost claim is the first one held. -/
theorem Holds.head {h : Held} {hs : List Held} {σ : Ledger} (hh : Holds (h :: hs) σ) :
    ∃ m, σ.held.head? = some m ∧ m.held = h := by
  obtain ⟨m, rest, hheld, hm, _⟩ := List.map_eq_cons_iff.mp hh
  exact ⟨m, by rw [hheld, List.head?_cons], hm⟩

theorem Walks.inside {h : Held} {hs : List Held} {σ : Ledger} (hw : Walks h hs σ) :
    σ.Inside h.2.1 := by
  obtain ⟨m, hm, rfl⟩ := hw.1.head
  exact ⟨m, hm, rfl, hw.2 m hm⟩

section Parts

variable {h : Held} {hs : List Held} {α : Type}

theorem carries_call {c : Call} (hc : ∀ chat, c.undoes = some chat → chat = h.2.1) :
    Carries discipline (Walks h hs) (await c) (Walks h hs) := by
  refine Carries.bind (J := Walks h hs) (Carries.query _ ?_ ?_) (fun _ hw => hw)
    fun r => Carries.orThrow _ r fun _ hw => hw
  · exact fun σ hw chat hchat => hc chat hchat ▸ hw.inside
  · intro σ hw r
    cases c <;> first | exact hw | skip
    rcases r with _ | (_ | _) <;> exact hw

theorem carries_free_call {c : Call} (hc : c.undoes = none) :
    Carries discipline (Holds hs) (await c) (Holds hs) := by
  refine Carries.bind (J := Holds hs) (Carries.query _ ?_ ?_) (fun _ hw => hw)
    fun r => Carries.orThrow _ r fun _ hw => hw
  · exact fun σ _ chat hchat => by rw [hc] at hchat; cases hchat
  · intro σ hw r
    cases c <;> first | exact hw | skip
    rcases r with _ | (_ | _) <;> exact hw

/-- A `note` of a walk that is not its last. -/
theorem carries_note {c : Changes} (hc : c.state ≠ some .healthy) :
    Carries discipline (Walks h hs) (note .walk h.2.1 c) (Walks h hs) := by
  refine Carries.bind (J := Walks h hs) (Carries.query _ (fun σ hw => hw.inside) ?_)
    (fun _ hw => hw) fun r => Carries.orThrow _ r fun _ hw => hw
  rintro σ hw (_ | _)
  · exact hw
  · simp only [discipline, if_neg hc]
    exact hw

/-- The last `note` of a walk. -/
theorem carries_last_note {c : Changes} :
    Carries discipline (Walks h hs) (note .walk h.2.1 c) (Holds (h :: hs)) := by
  refine Carries.bind (J := Holds (h :: hs)) (Carries.query _ (fun σ hw => hw.inside) ?_)
    (fun _ hw => hw) fun r => Carries.orThrow _ r fun _ hw => hw
  rintro σ hw (_ | _)
  · exact hw.holds
  · have hheld := hw.holds
    simp only [discipline, Holds] at hheld ⊢
    split
    · simpa only [List.map_map, Function.comp_def, Hold.held_finish] using hheld
    · exact hheld

theorem carries_excepting {I J K : Ledger → Prop} {x : Prog α} {handler : Fault → Prog α}
    (hx : Carries discipline I x J) (hJ : ∀ σ, J σ → K σ)
    (hh : ∀ e, Carries discipline J (handler e) K) :
    Carries discipline I (excepting x handler) K := by
  refine Carries.tryCatch hx hJ fun e => ?_
  cases e with
  | cancelled => exact Carries.throw _ hJ
  | raised e => exact hh _
  | keyError chat => exact hh _

theorem carries_bestEffort {I : Ledger → Prop} {can : Bool} {x : Prog Unit}
    (hx : Carries discipline I x I) : Carries discipline I (bestEffort can x) I := by
  unfold bestEffort
  split
  · exact carries_excepting hx (fun _ hw => hw) fun _ => .pure _ fun _ hw => hw
  · exact .pure _ fun _ hw => hw

end Parts

namespace ProvisioningBatch

variable {cfg : Config} {entry : JournalEntry} {key : ContactKey} {how : Claimed} {hs : List Held}

theorem carries_fail {chat : Int} (retryable : Bool) (reason : String)
    (failure : Option ProvisioningFailure) :
    Carries discipline (Walks (key, chat, how) hs) (fail chat retryable reason failure)
      (Walks (key, chat, how) hs) := by
  refine carries_note ?_
  cases retryable <;> simp

theorem carries_failWith {chat : Int} (failure : ProvisioningFailure) :
    Carries discipline (Walks (key, chat, how) hs) (failWith chat failure)
      (Walks (key, chat, how) hs) :=
  carries_fail _ _ _

theorem carries_preflight {h : Held} (chat : Int) (username : String) :
    Carries discipline (Walks h hs) (preflight cfg chat username) (Walks h hs) := by
  unfold preflight
  split
  · refine carries_excepting (J := Walks h hs) ?_ (fun _ hw => hw) fun e => ?_
    · exact Carries.bind (carries_call nofun) (fun _ hw => hw) fun _ => .pure _ fun _ hw => hw
    · split <;> exact .pure _ fun _ hw => hw
  · exact .pure _ fun _ hw => hw

theorem carries_rememberBotId :
    Carries discipline (Walks (key, entry.maxChatId, how) hs) (rememberBotId cfg entry)
      (Walks (key, entry.maxChatId, how) hs) := by
  unfold rememberBotId
  split
  · exact .pure _ fun _ hw => hw
  · refine Carries.bind (J := Walks (key, entry.maxChatId, how) hs) ?_ (fun _ hw => hw) fun r => ?_
    · exact carries_excepting (carries_call nofun) (fun _ hw => hw)
        fun _ => .pure _ fun _ hw => hw
    · cases r with
      | none => exact .pure _ fun _ hw => hw
      | some botId =>
          dsimp only
          split
          · exact carries_note nofun
          · exact .pure _ fun _ hw => hw

theorem carries_wipeDialog (botId : Option Int) :
    Carries discipline (Walks (key, entry.maxChatId, how) hs) (wipeDialog cfg entry botId)
      (Walks (key, entry.maxChatId, how) hs) := by
  cases botId with
  | none => exact .pure _ fun _ hw => hw
  | some botId =>
      exact carries_bestEffort (carries_call fun _ h => (Option.some.inj h).symm)

theorem carries_createBot :
    Carries discipline (Walks (key, entry.maxChatId, how) hs) (createBot cfg entry)
      (Walks (key, entry.maxChatId, how) hs) := by
  have hfailed (failure : ProvisioningFailure) :
      Carries discipline (Walks (key, entry.maxChatId, how) hs)
        (do failWith entry.maxChatId failure; return (none : Option CreatedBot))
        (Walks (key, entry.maxChatId, how) hs) :=
    Carries.bind (carries_failWith failure) (fun _ hw => hw) fun _ => .pure _ fun _ hw => hw
  refine Carries.tryCatch (J := Walks (key, entry.maxChatId, how) hs) ?_ (fun _ hw => hw)
    fun e => ?_
  · exact Carries.bind (carries_call fun _ h => (Option.some.inj h).symm) (fun _ hw => hw)
      fun _ => .pure _ fun _ hw => hw
  · split
    · exact hfailed _
    · exact hfailed _
    · exact .throw _ fun _ hw => hw

theorem carries_askConfirmation (state : UsernameState) :
    Carries discipline (Walks (key, entry.maxChatId, how) hs) (askConfirmation cfg entry state)
      (Walks (key, entry.maxChatId, how) hs) := by
  unfold askConfirmation
  split
  · refine Carries.bind (carries_note nofun) (fun _ hw => hw) fun _ => ?_
    refine Carries.bind (carries_bestEffort (carries_call nofun)) (fun _ hw => hw) fun _ => ?_
    exact carries_bestEffort (carries_call nofun)
  · exact .pure _ fun _ hw => hw

theorem carries_saveToken (token : String) :
    Carries discipline (Walks (key, entry.maxChatId, how) hs) (saveToken entry token)
      (Walks (key, entry.maxChatId, how) hs) := by
  refine carries_excepting (J := Walks (key, entry.maxChatId, how) hs) ?_ (fun _ hw => hw)
    fun _ => ?_
  · exact Carries.bind (carries_call fun _ h => (Option.some.inj h).symm) (fun _ hw => hw)
      fun _ => .pure _ fun _ hw => hw
  · exact Carries.bind (carries_fail _ _ _) (fun _ hw => hw) fun _ => .pure _ fun _ hw => hw

theorem carries_ensureBot (state : UsernameState) :
    Carries discipline (Walks (key, entry.maxChatId, how) hs) (ensureBot cfg entry state)
      (Walks (key, entry.maxChatId, how) hs) := by
  refine Carries.bind (carries_askConfirmation state) (fun _ hw => hw) fun _ => ?_
  refine Carries.bind carries_createBot (fun _ hw => hw) fun created => ?_
  cases created with
  | none => exact .pure _ fun _ hw => hw
  | some created =>
      refine Carries.bind (carries_bestEffort (carries_call nofun)) (fun _ hw => hw) fun _ => ?_
      refine Carries.bind (carries_note nofun) (fun _ hw => hw) fun _ => ?_
      refine Carries.bind (carries_saveToken _) (fun _ hw => hw) fun tokenEnv => ?_
      cases tokenEnv with
      | none => exact .pure _ fun _ hw => hw
      | some tokenEnv =>
          refine Carries.bind (carries_note nofun) (fun _ hw => hw) fun _ => ?_
          refine Carries.bind (carries_call fun _ h => (Option.some.inj h).symm) (fun _ hw => hw)
            fun _ => ?_
          dsimp only
          split
          · exact Carries.bind (carries_wipeDialog _) (fun _ hw => hw)
              fun _ => .pure _ fun _ hw => hw
          · exact .pure _ fun _ hw => hw

theorem carries_launch (tokenEnv : String) :
    Carries discipline (Walks (key, entry.maxChatId, how) hs) (launch entry tokenEnv)
      (Walks (key, entry.maxChatId, how) hs) := by
  refine Carries.bind (J := Walks (key, entry.maxChatId, how) hs) ?_ (fun _ hw => hw)
    fun name => ?_
  · refine carries_excepting (J := Walks (key, entry.maxChatId, how) hs) ?_ (fun _ hw => hw)
      fun _ => ?_
    · exact Carries.bind (carries_call fun _ h => (Option.some.inj h).symm) (fun _ hw => hw)
        fun _ => .pure _ fun _ hw => hw
    · exact Carries.bind (carries_fail _ _ _) (fun _ hw => hw) fun _ => .pure _ fun _ hw => hw
  · cases name with
    | none => exact .pure _ fun _ hw => hw
    | some name =>
        exact Carries.bind (carries_note nofun) (fun _ hw => hw) fun _ => .pure _ fun _ hw => hw

theorem carries_openChat :
    Carries discipline (Walks (key, entry.maxChatId, how) hs) (openChat entry)
      (Walks (key, entry.maxChatId, how) hs) := by
  refine Carries.bind (J := Walks (key, entry.maxChatId, how) hs) ?_ (fun _ hw => hw)
    fun started => ?_
  · refine carries_excepting (J := Walks (key, entry.maxChatId, how) hs) ?_ (fun _ hw => hw)
      fun e => ?_
    · exact Carries.bind (carries_call nofun) (fun _ hw => hw) fun _ => .pure _ fun _ hw => hw
    · split <;> exact .pure _ fun _ hw => hw
  · cases started with
    | sent | ownerMustOpen =>
        exact Carries.bind (carries_note nofun) (fun _ hw => hw) fun _ => .pure _ fun _ hw => hw
    | failed =>
        exact Carries.bind (carries_fail _ _ _) (fun _ hw => hw) fun _ => .pure _ fun _ hw => hw

/-- The last step of a walk writes `HEALTHY`, and nothing after it. -/
theorem carries_verify :
    Carries discipline (Walks (key, entry.maxChatId, how) hs) (verify entry)
      (Holds ((key, entry.maxChatId, how) :: hs)) := by
  refine Carries.bind (J := Walks (key, entry.maxChatId, how) hs) ?_ (fun _ hw => hw.holds)
    fun healthy => ?_
  · exact carries_excepting (carries_call nofun) (fun _ hw => hw) fun _ => .pure _ fun _ hw => hw
  · cases healthy with
    | false => exact (carries_fail _ _ _).weaken fun _ hw => hw.holds
    | true =>
        refine Carries.bind (J := Walks (key, entry.maxChatId, how) hs) ?_ (fun _ hw => hw.holds)
          fun marked => ?_
        · refine carries_excepting (J := Walks (key, entry.maxChatId, how) hs) ?_
            (fun _ hw => hw) fun _ => .pure _ fun _ hw => hw
          exact Carries.bind (carries_call nofun) (fun _ hw => hw) fun _ => .pure _ fun _ hw => hw
        · cases marked with
          | false => exact (carries_fail _ _ _).weaken fun _ hw => hw.holds
          | true => exact carries_last_note

theorem carries_bringUp :
    Carries discipline (Walks (key, entry.maxChatId, how) hs) (bringUp entry)
      (Holds ((key, entry.maxChatId, how) :: hs)) := by
  refine Carries.bind (J := Walks (key, entry.maxChatId, how) hs)
    (Carries.query _ (fun _ _ => trivial) fun _ hw _ => hw) (fun _ hw => hw.holds) fun found => ?_
  dsimp only
  generalize found.getD ⟨entry, rfl⟩ = current
  obtain ⟨current, hcurrent⟩ := current
  simp only
  rw [← hcurrent]
  cases current.tokenEnv with
  | none => exact (carries_fail _ _ _).weaken fun _ hw => hw.holds
  | some tokenEnv =>
      refine Carries.bind (carries_launch tokenEnv) (fun _ hw => hw.holds) fun launched => ?_
      cases launched with
      | false => exact .pure _ fun _ hw => hw.holds
      | true =>
          refine Carries.bind carries_openChat (fun _ hw => hw.holds) fun opened => ?_
          cases opened with
          | false => exact .pure _ fun _ hw => hw.holds
          | true => exact carries_verify

theorem carries_checkUsername :
    Carries discipline (Walks (key, entry.maxChatId, how) hs) (checkUsername entry)
      (Walks (key, entry.maxChatId, how) hs) := by
  refine carries_excepting (J := Walks (key, entry.maxChatId, how) hs) ?_ (fun _ hw => hw)
    fun _ => ?_
  · exact Carries.bind (carries_call nofun) (fun _ hw => hw) fun _ => .pure _ fun _ hw => hw
  · exact Carries.bind (carries_failWith _) (fun _ hw => hw) fun _ => .pure _ fun _ hw => hw

/-- A walk keeps to its contact. -/
theorem carries_provision :
    Carries discipline (Walks (key, entry.maxChatId, how) hs) (provision cfg entry)
      (Holds ((key, entry.maxChatId, how) :: hs)) := by
  have hready (state : UsernameState) :
      Carries discipline (Walks (key, entry.maxChatId, how) hs)
        (do let ready : Bool ← ensureBot cfg entry state
            if ready then bringUp entry)
        (Holds ((key, entry.maxChatId, how) :: hs)) := by
    refine Carries.bind (carries_ensureBot state) (fun _ hw => hw.holds) fun ready => ?_
    cases ready with
    | false => exact .pure _ fun _ hw => hw.holds
    | true => exact carries_bringUp
  refine Carries.bind (carries_preflight _ _) (fun _ hw => hw.holds) fun conflict => ?_
  cases conflict with
  | some reason => exact (carries_fail _ _ _).weaken fun _ hw => hw.holds
  | none =>
      refine Carries.bind carries_checkUsername (fun _ hw => hw.holds) fun state => ?_
      rcases state with _ | (_ | _ | _ | _)
      · exact .pure _ fun _ hw => hw.holds
      · exact hready .free
      · refine Carries.bind carries_rememberBotId (fun _ hw => hw.holds) fun _ => ?_
        split
        · exact carries_bringUp
        · exact hready .owned
      · exact (carries_failWith _).weaken fun _ hw => hw.holds
      · exact (carries_failWith _).weaken fun _ hw => hw.holds

/-! ## runs -/

/-- A claim is left as it was entered. -/
theorem carries_claiming {chat : Int} {body : Prog Unit}
    (hbody : ∀ how, Carries discipline (Walks (key, chat, how) hs) body
      (Holds ((key, chat, how) :: hs))) :
    Carries discipline (Holds hs) (claiming key chat body) (Holds hs) := by
  have hleave (how : Claimed) :
      Carries discipline (Walks (key, chat, how) hs)
        (do Script.ensuring body (ask (.leave key how)); return true) (Holds hs) := by
    refine Carries.bind (J := Holds hs) (Carries.ensuring (hbody how) ?_) (fun _ hw => hw)
      fun _ => .pure _ fun _ hw => hw
    refine Carries.query _ (fun σ hσ => ?_) fun σ hσ _ => ?_
    · obtain ⟨m, hm, hheld⟩ := hσ.head
      exact ⟨m, hm, congrArg (·.1) hheld, congrArg (·.2.2) hheld⟩
    · exact (List.map_tail).trans (congrArg List.tail hσ)
  intro σ hσ
  refine ⟨trivial, fun answer => ?_⟩
  cases answer with
  | taken => exact hleave .taken _ ⟨congrArg _ hσ, by simp [discipline]⟩
  | already => exact hleave .already _ ⟨congrArg _ hσ, by simp [discipline]⟩
  | lost => exact hσ
  | cancelled => exact hσ

/-- `PENDING` is written where `is_healthy` has just said no. -/
theorem carries_wentAway : Carries discipline (Holds hs) (wentAway entry) (Holds hs) := by
  unfold wentAway
  split
  · exact .pure _ fun _ hw => hw
  · intro σ hσ
    have hasked : Obeys discipline σ
        (excepting (await (.isHealthy entry.maxChatId)) fun _ => pure true)
        fun σ res => Holds hs σ ∧ (res = .ok false → σ.dead = some entry.maxChatId) := by
      refine Obeys.tryCatch (P := fun σ res => Holds hs σ ∧
        (res = .ok false → σ.dead = some entry.maxChatId)) ?_ (fun _ _ h => h) fun σ e h => ?_
      · refine ⟨nofun, fun r => ?_⟩
        rcases r with e | (_ | _)
        · exact ⟨hσ, nofun⟩
        · exact ⟨hσ, fun _ => rfl⟩
        · exact ⟨hσ, nofun⟩
      · cases e <;> exact ⟨h.1, nofun⟩
    refine Obeys.bind hasked (fun _ _ h => h.1) fun σ alive h => ?_
    cases alive with
    | true => exact h.1
    | false =>
        refine Obeys.bind (P := fun σ _ => Holds hs σ) ?_ (fun _ _ h => h) fun _ _ h => h
        refine ⟨⟨h.2 rfl, nofun⟩, fun r => ?_⟩
        cases r <;> exact h.1

theorem carries_open? : Carries discipline (Holds hs) (open? entry) (Holds hs) := by
  unfold open?
  split
  · exact carries_wentAway
  · exact .pure _ fun _ hw => hw

theorem carries_takeUp : Carries discipline (Holds hs) (takeUp cfg entry) (Holds hs) := by
  refine Carries.bind carries_open? (fun _ hw => hw) fun walk => ?_
  cases walk with
  | false => exact .pure _ fun _ hw => hw
  | true =>
      refine Carries.bind (carries_claiming fun _ => carries_provision) (fun _ hw => hw)
        fun mine => ?_
      cases mine with
      | false => exact .pure _ fun _ hw => hw
      | true => exact carries_bestEffort (carries_free_call rfl)

theorem carries_loop (entries : List JournalEntry) :
    Carries discipline (Holds hs) (loop cfg entries) (Holds hs) := by
  induction entries with
  | nil => exact .pure _ fun _ hw => hw
  | cons entry rest ih => exact Carries.bind carries_takeUp (fun _ hw => hw) fun _ => ih

theorem carries_run : Carries discipline (Holds hs) (run cfg) (Holds hs) := by
  have hread : Carries discipline (Holds hs) (ask (.walking cfg.chatIds)) (Holds hs) :=
    Carries.query _ (fun _ _ => trivial) fun _ hw _ => hw
  refine Carries.bind hread (fun _ hw => hw) fun entries => ?_
  exact Carries.bind (carries_loop entries) (fun _ hw => hw) fun _ => hread

end ProvisioningBatch

namespace ProvisioningReconciler

open ProvisioningBatch

variable {cfg : Config} {entry : JournalEntry} {hs : List Held}

theorem carries_resume : Carries discipline (Holds hs) (resume cfg entry) (Holds hs) := by
  refine Carries.bind (J := Holds hs) (carries_claiming fun how => ?_) (fun _ hw => hw)
    fun mine => ?_
  · intro σ hσ
    exact Carries.bind carries_run (fun _ hw => hw) (fun _ => .pure _ fun _ hw => hw) σ hσ.holds
  · cases mine with
    | false => exact .pure _ fun _ hw => hw
    | true =>
        refine Carries.bind (J := Holds hs) (Carries.query _ (fun _ _ => trivial) fun _ hw _ => hw)
          (fun _ hw => hw) fun found => ?_
        dsimp only
        split <;> exact .pure _ fun _ hw => hw

theorem carries_collision (failure : ProvisioningFailure) (error : String) :
    Carries discipline (Holds hs) (collision entry failure error) (Holds hs) := by
  refine Carries.bind (J := Holds hs) ?_ (fun _ hw => hw) fun _ => .pure _ fun _ hw => hw
  refine Carries.bind (J := Holds hs) (Carries.query _ (fun _ _ => nofun) ?_) (fun _ hw => hw)
    fun r => Carries.orThrow _ r fun _ hw => hw
  rintro σ hw (_ | _) <;> exact hw

theorem carries_reconcile : Carries discipline (Holds hs) (reconcile cfg entry) (Holds hs) := by
  refine Carries.bind (carries_free_call rfl) (fun _ hw => hw) fun _ => ?_
  split
  · exact .pure _ fun _ hw => hw
  · refine Carries.bind (J := Holds hs) ?_ (fun _ hw => hw) fun state => ?_
    · refine carries_excepting (J := Holds hs) ?_ (fun _ hw => hw) fun _ => .pure _ fun _ hw => hw
      exact Carries.bind (carries_free_call rfl) (fun _ hw => hw) fun _ => .pure _ fun _ hw => hw
    · rcases state with _ | (_ | _ | _ | _)
      · exact .pure _ fun _ hw => hw
      · exact .pure _ fun _ hw => hw
      · exact carries_resume
      · exact carries_collision _ _
      · exact carries_collision _ _

end ProvisioningReconciler

end Telemax.Provisioning
