import Telemax.Provisioning.PendingInbox

/-!
# Telemax.Provisioning.PendingKept

What each call keeps to, and what a careful run of any number of calls keeps
from one step to the next: where every message is that was buffered.
-/

namespace Telemax.Provisioning.Pending

open Script

/-! ## what a call keeps to -/

/-- What may be awaited where: messages are counted and buffered under the lock, a drain is of the
contact the call is about, and what is sent is what is owed, to the bridge that was written down for
the contact. -/
def Book.allows (b : Book) (kind : Kind) : Await → Prop
  | .acquire => b.locked = false ∧ b.owed = []
  | .countHeld _ => b.locked = true ∧ b.owed = []
  | .insertHeld chat _ => b.locked = true ∧ b.room = some chat ∧ b.owed = []
  | .deleteHeld chat => b.owed = [] ∧ kind.chat = some chat
  | .deleteOld _ => b.owed = [] ∧ kind.activates = false
  | .send bridge text =>
      b.asked = true ∧ (∃ chat, kind.chat = some chat ∧ b.bot = some (bridge, chat)) ∧
        ∃ (r : Row) (rest : List Row), b.owed = r :: rest ∧ r.payload.shown = text
  | _ => b.owed = []

def protocol (cap : Nat) (kind : Kind) : Protocol Op.Answer Book where
  allowed b
    | .await a => b.cut = false ∧ b.taken = [] ∧ b.allows kind a
    | .byName _ => b.asked = false
    | .release => b.locked = true
  next b op r := (b.next cap op r).resumed kind

/-- A call that is over owes nothing, unless it was cancelled while it paid; a sweep has counted
what it took. -/
structure Ends (b : Book) (r : Except Failure Outcome) : Prop where
  paid : b.owed = [] ∨ b.cut = true
  counted : ∀ count, r = .ok (.expired count) → count = b.gone.length

section

variable {cap : Nat} {kind : Kind} {b : Book} {α : Type} {bot : Option (String × Int)}

theorem obeys_await {a : Await} {P : Book → Except Failure a.Reply → Prop}
    (hallowed : (protocol cap kind).allowed b (.await a))
    (hok : ∀ r, P ((protocol cap kind).next b (.await a) (.ok r)) (.ok r))
    (hfault : ∀ f, P ((protocol cap kind).next b (.await a) (.error f)) (.error (.fault f))) :
    Obeys (protocol cap kind) b (await a) P := by
  refine ⟨hallowed, fun r => ?_⟩
  cases r with
  | ok r => exact hok r
  | error f => exact hfault f

/-- A book with nothing taken and nothing owed. -/
structure Book.Idle (locked : Bool) (bot : Option (String × Int)) (b : Book) : Prop where
  locked : b.locked = locked
  bot : b.bot = bot
  owed : b.owed = []
  cut : b.cut = false
  taken : b.taken = []
  asked : b.asked = false

theorem Book.Idle.resumed {locked : Bool} (h : b.Idle locked bot) : (b.resumed kind).Idle locked bot :=
  ⟨h.locked, h.bot, by simp [Book.resumed, h.owed, h.taken], h.cut, rfl, h.asked⟩

def Await.sends : Await → Bool
  | .send .. => true
  | _ => false

theorem Book.Idle.fault {locked : Bool} (h : b.Idle locked bot) {a : Await} (ha : a.sends = false)
    (f : Fault) :
    ((protocol cap kind).next b (.await a) (.error f)).Idle locked bot := by
  refine Book.Idle.resumed ?_
  cases a with
  | send u v => cases ha
  | _ => exact ⟨h.locked, h.bot, h.owed, h.cut, h.taken, h.asked⟩

/-- The awaits that anybody may make, and that leave the book as it is. -/
def Await.plain : Await → Bool
  | .acquire | .countHeld _ | .insertHeld .. | .deleteHeld _ | .deleteOld _ | .upsertBridge _
  | .send .. => false
  | _ => true

theorem carries_plain {locked : Bool} {a : Await} (ha : a.plain = true) :
    Carries (protocol cap kind) (Book.Idle locked bot) (await a) (Book.Idle locked bot) := by
  intro b hb
  have hsame (r : Except Fault a.Reply) : (b.next cap (.await a) r).Idle locked bot := by
    cases a <;> simp only [Await.plain, Bool.false_eq_true] at ha <;>
      cases r <;> exact ⟨hb.locked, hb.bot, hb.owed, hb.cut, hb.taken, hb.asked⟩
  refine obeys_await ⟨hb.cut, hb.taken, ?_⟩ (fun r => (hsame _).resumed) fun f => (hsame _).resumed
  cases a <;> first | exact hb.owed | cases ha

theorem carries_noteSeen {locked : Bool} (chat : Int) (user : Option Int) (name : Option String) :
    Carries (protocol cap kind) (Book.Idle locked bot) (noteSeen chat user name) (Book.Idle locked bot) := by
  refine (carries_plain rfl).bind (fun _ h => h) fun _ => ?_
  refine (carries_plain rfl).bind (fun _ h => h) fun contact => ?_
  cases contact with
  | some c => exact .pure _ fun _ h => h
  | none => exact .throw _ fun _ h => h

theorem carries_noteAsked {locked : Bool} (chat : Int) :
    Carries (protocol cap kind) (Book.Idle locked bot) (noteAsked chat) (Book.Idle locked bot) := by
  refine (carries_plain rfl).bind (fun _ h => h) fun _ => ?_
  refine (carries_plain rfl).bind (fun _ h => h) fun contact => ?_
  cases contact with
  | some c => exact .pure _ fun _ h => h
  | none => exact .pure _ fun _ h => h

/-- A message is buffered where room was seen for it. -/
theorem carries_buffer (chat : Int) (payload : Payload) :
    Carries (protocol cap kind) (Book.Idle true bot) (buffer chat payload cap) (Book.Idle true bot) := by
  intro b hb
  refine Obeys.bind (P := fun b' r => b'.Idle true bot ∧
      ∀ held, r = .ok held → held < cap → b'.room = some chat)
    (obeys_await ⟨hb.cut, hb.taken, hb.locked, hb.owed⟩ (fun held => ⟨?_, ?_⟩) fun f => ⟨?_, nofun⟩)
    (fun _ _ h => h.1) fun b' held hb' => ?_
  · exact Book.Idle.resumed ⟨hb.locked, hb.bot, hb.owed, hb.cut, hb.taken, hb.asked⟩
  · rintro _ ⟨rfl⟩ hroom
    exact if_pos hroom
  · exact hb.fault rfl f
  · obtain ⟨hidle, hroom⟩ := hb'
    split
    · exact hidle
    · next hlt =>
        have hnext (r : Except Fault Unit) :
            (b'.next cap (.await (.insertHeld chat payload)) r).Idle true bot := by
          cases r <;> exact ⟨hidle.locked, hidle.bot, hidle.owed, hidle.cut, hidle.taken, hidle.asked⟩
        refine Obeys.bind (P := fun b _ => b.Idle true bot)
          (obeys_await ⟨hidle.cut, hidle.taken, hidle.locked,
            hroom held rfl (Nat.lt_of_not_le hlt), hidle.owed⟩ (fun _ => (hnext _).resumed)
            fun _ => (hnext _).resumed) (fun _ _ h => h) fun _ _ h => h

theorem carries_record {cfg : Config} (m : IncomingMaxMessage) (displayName : Option String) :
    Carries (protocol cfg.pendingMaxMessages kind) (Book.Idle true bot) (record cfg m displayName)
      (Book.Idle true bot) := by
  refine (carries_plain rfl).bind (fun _ h => h) fun contact => ?_
  split
  · exact .pure _ fun _ h => h
  · refine (carries_noteSeen _ _ _).bind (fun _ h => h) fun seen => ?_
    refine (carries_buffer _ _).bind (fun _ h => h) fun _ => ?_
    split
    · exact .pure _ fun _ h => h
    · exact (carries_noteAsked _).bind (fun _ h => h) fun _ => .pure _ fun _ h => h

theorem carries_release :
    Carries (protocol cap kind) (Book.Idle true bot) release (Book.Idle false bot) :=
  Carries.query _ (fun _ h => h.locked) fun _ h _ =>
    Book.Idle.resumed ⟨rfl, h.bot, h.owed, h.cut, h.taken, h.asked⟩

theorem carries_onUnbridgedMessage {cfg : Config} (m : IncomingMaxMessage)
    (displayName : Option String) :
    Carries (protocol cfg.pendingMaxMessages kind) (Book.Idle false bot)
      (onUnbridgedMessage cfg m displayName) fun b => b.owed = [] := by
  unfold onUnbridgedMessage
  split
  · exact .pure _ fun _ h => h.owed
  · split
    · exact .pure _ fun _ h => h.owed
    · intro b hb
      refine Obeys.bind (P := fun b r => match r with
          | .ok _ => b.Idle true bot
          | .error _ => b.Idle false bot)
        (obeys_await ⟨hb.cut, hb.taken, hb.locked, hb.owed⟩ (fun _ => ?_) fun _ => hb.fault rfl _)
        (fun _ _ h => h.owed) fun b' _ hb' => ?_
      · exact Book.Idle.resumed ⟨rfl, hb.bot, hb.owed, hb.cut, hb.taken, hb.asked⟩
      · refine Carries.bind (Carries.ensuring (carries_record m displayName) carries_release)
          (fun _ h => h.owed) (fun _ => .pure _ fun _ h => h.owed) b' hb'

/-- Where the call does not activate, what it drains is nobody's. -/
theorem carries_drain (hkind : kind.activates = false) {chat : Int} (hchat : kind.chat = some chat) :
    Carries (protocol cap kind) (Book.Idle false bot) (drain chat) (Book.Idle false bot) := by
  refine (carries_plain rfl).bind (fun _ h => h) fun rows => ?_
  intro b hb
  refine Obeys.bind (P := fun b _ => b.Idle false bot)
    (obeys_await ⟨hb.cut, hb.taken, hb.owed, hchat⟩ (fun _ => ?_) fun _ => hb.fault rfl _)
    (fun _ _ h => h) fun _ _ h => h
  exact ⟨hb.locked, hb.bot, by simp [protocol, Book.next, Book.resumed, hkind, hb.owed], hb.cut, rfl,
    hb.asked⟩

theorem carries_ignore (hkind : kind.activates = false) {chat : Int} (hchat : kind.chat = some chat)
    (block : Bool) :
    Carries (protocol cap kind) (Book.Idle false bot) (ignore chat block)
      (Book.Idle false bot) := by
  refine (carries_plain rfl).bind (fun _ h => h) fun _ => ?_
  cases block with
  | true => exact (carries_drain hkind hchat).bind (fun _ h => h) fun _ => .pure _ fun _ h => h
  | false => exact .pure _ fun _ h => h

/-- A sweep counts what it takes. -/
theorem obeys_expire (hkind : kind.activates = false) (cutoff : Int) (hb : b.Idle false bot)
    (hgone : b.gone = []) :
    Obeys (protocol cap kind) b (expire cutoff) fun b' res => b'.Idle false bot ∧
      ∀ count, res = .ok count → count = b'.gone.length := by
  refine Obeys.bind (P := fun b' res => b'.Idle false bot ∧
      ∀ rows, res = .ok rows → b'.read = rows ∧ b'.gone = [])
    (obeys_await ⟨hb.cut, hb.taken, hb.owed⟩ (fun rows => ⟨?_, ?_⟩) fun f => ⟨hb.fault rfl f, nofun⟩)
    (fun _ _ h => ⟨h.1, nofun⟩) fun b' rows hb' => ?_
  · exact Book.Idle.resumed ⟨hb.locked, hb.bot, hb.owed, hb.cut, hb.taken, hb.asked⟩
  · rintro _ ⟨rfl⟩
    exact ⟨rfl, hgone⟩
  · obtain ⟨hidle, hrows⟩ := hb'
    obtain ⟨hread, hgone'⟩ := hrows rows rfl
    split
    · refine ⟨hidle, ?_⟩
      rintro _ ⟨rfl⟩
      simp [hgone']
    · refine Obeys.bind (P := fun b' res => b'.Idle false bot ∧ ∀ u, res = .ok u → b'.gone = rows)
        (obeys_await ⟨hidle.cut, hidle.taken, hidle.owed, hkind⟩ (fun _ => ⟨?_, fun _ _ => ?_⟩)
          fun f => ⟨hidle.fault rfl f, nofun⟩)
        (fun _ _ h => ⟨h.1, nofun⟩) fun b'' _ h => ⟨h.1, ?_⟩
      · exact ⟨hidle.locked, hidle.bot,
          by simp [protocol, Book.next, Book.resumed, hkind, hidle.owed], hidle.cut, rfl,
          hidle.asked⟩
      · simp [protocol, Book.next, Book.resumed, hgone', hread]
      · rintro _ ⟨rfl⟩
        rw [h.2 () rfl]

/-! ## what an activation owes -/

/-- The messages that have something to show. -/
def worth (rows : List Row) : List Row := rows.filter (·.payload.shown ≠ "")

theorem obeys_sendAll (bridge : String) (rows : List Row)
    (hbot : ∃ chat, kind.chat = some chat ∧ b.bot = some (bridge, chat)) (hasked : b.asked = true)
    (hcut : b.cut = false) (htaken : b.taken = []) (howed : b.owed = worth rows) :
    Obeys (protocol cap kind) b (sendAll bridge (rows.map (·.payload))) fun b _ =>
      b.owed = [] ∨ b.cut = true := by
  induction rows generalizing b with
  | nil => exact .inl howed
  | cons r rest ih =>
      simp only [List.map_cons, sendAll]
      split
      · next hsilent =>
          exact ih hbot hasked hcut htaken (by simpa [worth, hsilent] using howed)
      · next hshown =>
          have howed' : b.owed = r :: worth rest := by simpa [worth, hshown] using howed
          have hrest : ((b.next cap (.await (.send bridge r.payload.shown)) (.ok ())).resumed kind).owed
              = worth rest := by simp [Book.next, Book.resumed, htaken, howed']
          refine Obeys.bind (P := fun b' res => match res with
              | .ok _ => b'.bot = b.bot ∧ b'.asked = true ∧ b'.cut = false ∧ b'.taken = [] ∧
                  b'.owed = worth rest
              | .error _ => b'.cut = true) ?_ (fun _ _ h => .inr h) fun b' _ h =>
            ih (h.1 ▸ hbot) h.2.1 h.2.2.1 h.2.2.2.1 h.2.2.2.2
          refine Obeys.tryCatch (P := fun b' res => match res with
              | .ok _ => b'.bot = b.bot ∧ b'.asked = true ∧ b'.cut = false ∧ b'.taken = [] ∧
                  b'.owed = worth rest
              | .error e => (e = .fault .cancelled ∧ b'.cut = true) ∨
                  (∃ text, e = .fault (.raised text)) ∧ b'.bot = b.bot ∧ b'.asked = true ∧
                    b'.cut = false ∧ b'.taken = [] ∧ b'.owed = worth rest)
            (obeys_await ⟨hcut, htaken, hasked, hbot, r, worth rest, howed', rfl⟩
              (fun _ => ⟨rfl, hasked, hcut, rfl, hrest⟩) fun f => ?_) (fun _ _ h => h)
              fun b' e h => ?_
          · cases f with
            | cancelled => exact .inl ⟨rfl, rfl⟩
            | raised text => exact .inr ⟨⟨text, rfl⟩, rfl, hasked, rfl, rfl, hrest⟩
          · rcases h with ⟨rfl, hc⟩ | ⟨⟨text, rfl⟩, h⟩
            · exact hc
            · exact h

/-- An activation drains: what it gets is what it owes. -/
theorem obeys_drain (hkind : kind.activates = true) {chat : Int} (hchat : kind.chat = some chat)
    (hb : b.Idle false bot) :
    Obeys (protocol cap kind) b (drain chat) fun b' res => match res with
      | .ok payloads => b'.bot = bot ∧ b'.asked = false ∧ b'.cut = false ∧ b'.taken = [] ∧
          ∃ rows : List Row, payloads = rows.map (·.payload) ∧ b'.owed = worth rows
      | .error _ => b'.owed = [] := by
  refine Obeys.bind (P := fun b' res => match res with
      | .ok rows => b'.Idle false bot ∧ b'.read = rows
      | .error _ => b'.Idle false bot)
    (obeys_await ⟨hb.cut, hb.taken, hb.owed⟩
      (fun rows => ⟨Book.Idle.resumed ⟨hb.locked, hb.bot, hb.owed, hb.cut, hb.taken, hb.asked⟩, rfl⟩)
      fun _ => hb.fault rfl _)
    (fun _ _ h => h.owed) fun b' rows hrows => ?_
  · obtain ⟨hidle, hread⟩ := hrows
    refine Obeys.bind (P := fun b' res => match res with
        | .ok _ => b'.bot = bot ∧ b'.asked = false ∧ b'.cut = false ∧ b'.taken = [] ∧
            b'.owed = worth rows
        | .error _ => b'.Idle false bot)
      (obeys_await ⟨hidle.cut, hidle.taken, hidle.owed, hchat⟩ (fun _ => ?_) fun _ =>
        hidle.fault rfl _)
      (fun _ _ h => h.owed)
      fun b' _ h => ⟨h.1, h.2.1, h.2.2.1, h.2.2.2.1, rows, rfl, h.2.2.2.2⟩
    refine ⟨hidle.bot, hidle.asked, hidle.cut, rfl, ?_⟩
    simp [protocol, Book.next, Book.resumed, hkind, hidle.owed, hread, worth]

/-- The bridge is written down for the contact. -/
theorem obeys_upsertBridge (record : BridgeRecord) (hb : b.Idle false bot) :
    Obeys (protocol cap kind) b (await (.upsertBridge record)) fun b' res => match res with
      | .ok _ => b'.Idle false (some (record.bridgeName, record.maxChatId))
      | .error _ => b'.owed = [] := by
  refine obeys_await ⟨hb.cut, hb.taken, hb.owed⟩ (fun _ => ?_) fun f =>
    (hb.fault (a := .upsertBridge record) rfl f).owed
  exact Book.Idle.resumed ⟨hb.locked, rfl, hb.owed, hb.cut, hb.taken, hb.asked⟩

theorem carries_bringUp {locked : Bool} (bridge : String) :
    Carries (protocol cap kind) (Book.Idle locked bot) (bringUp bridge) (Book.Idle locked bot) := by
  refine (carries_plain rfl).tryCatch (fun _ h => h) fun e => ?_
  split
  · exact .throw _ fun _ h => h
  · exact .throw _ fun _ h => h

theorem carries_bridgeNameOf {locked : Bool} (chat : Int) (name : Option String)
    (existing : Option (String × Bool)) :
    Carries (protocol cap kind) (Book.Idle locked bot) (bridgeNameOf chat name existing)
      (Book.Idle locked bot) := by
  unfold bridgeNameOf
  split
  · exact .pure _ fun _ h => h
  · split
    · exact .pure _ fun _ h => h
    · exact carries_plain rfl

/-- The backlog is replayed. -/
theorem obeys_backlog {bridge : String} {payloads : List Payload}
    (hbot : ∃ chat, kind.chat = some chat ∧ b.bot = some (bridge, chat)) (hasked : b.asked = false)
    (hcut : b.cut = false) (htaken : b.taken = [])
    (h : ∃ rows : List Row, payloads = rows.map (·.payload) ∧ b.owed = worth rows) :
    Obeys (protocol cap kind) b
      (if payloads = [] then pure bridge
        else do
          replay bridge payloads
          return bridge) fun b _ => b.owed = [] ∨ b.cut = true := by
  obtain ⟨rows, rfl, howed⟩ := h
  split
  · next hnil =>
      rw [List.map_eq_nil_iff] at hnil
      exact .inl (by simpa [hnil, worth] using howed)
  · refine Obeys.bind (P := fun (b : Book) _ => b.owed = [] ∨ b.cut = true) ?_ (fun _ _ h => h)
      fun _ _ h => h
    refine ⟨hasked, fun live => ?_⟩
    cases live with
    | true =>
        refine obeys_sendAll bridge rows hbot rfl hcut rfl ?_
        simp [protocol, Book.next, Book.resumed, htaken, howed]
    | false =>
        refine .inl ?_
        simp [protocol, Book.next, Book.resumed, htaken]

theorem obeys_activate {cfg : Config} (hkind : kind.activates = true) {chat : Int}
    (hchat : kind.chat = some chat) (token : String) (name : Option String)
    (hb : b.Idle false bot) :
    Obeys (protocol cap kind) b (activate cfg chat token name) fun b _ =>
      b.owed = [] ∨ b.cut = true := by
  have hfail (bot : Option (String × Int)) (b : Book) (e : Failure) (h : b.Idle false bot) :
      b.owed = [] ∨ b.cut = true := .inl h.owed
  unfold activate
  split
  · exact .inl hb.owed
  · refine Obeys.bind (P := fun b _ => b.Idle false bot) (carries_plain rfl b hb) (hfail bot)
      fun b existing hb => ?_
    dsimp only
    split
    · exact .inl hb.owed
    · refine Obeys.bind (P := fun b _ => b.Idle false bot) (carries_bridgeNameOf _ _ _ b hb)
        (hfail bot) fun b bridge hb => ?_
      refine Obeys.bind (P := fun b _ => b.Idle false bot) (carries_plain rfl b hb) (hfail bot)
        fun b _ hb => ?_
      refine Obeys.bind (obeys_upsertBridge _ hb) (fun _ _ h => .inl h) fun b _ hb => ?_
      refine Obeys.bind (P := fun b _ => b.Idle false (some (bridge, chat)))
        (carries_bringUp bridge b hb) (hfail _) fun b _ hb => ?_
      refine Obeys.bind (obeys_upsertBridge _ hb) (fun _ _ h => .inl h) fun b _ hb => ?_
      refine Obeys.bind (P := fun b _ => b.Idle false (some (bridge, chat)))
        (carries_plain rfl b hb) (hfail _) fun b _ hb => ?_
      exact Obeys.bind (obeys_drain hkind hchat hb) (fun _ _ h => .inl h) fun b _ h =>
        obeys_backlog ⟨chat, hchat, h.1⟩ h.2.1 h.2.2.1 h.2.2.2.1 h.2.2.2.2

theorem obeys_program (cfg : Config) (kind : Kind) :
    Obeys (protocol cfg.pendingMaxMessages kind) {} (kind.program cfg) Ends := by
  have hidle : Book.Idle false none {} := ⟨rfl, rfl, rfl, rfl, rfl, rfl⟩
  cases kind with
  | message m displayName =>
      exact (carries_onUnbridgedMessage m displayName _ hidle).bind
        (fun _ _ h => ⟨.inl h, nofun⟩) fun _ _ h => ⟨.inl h, nofun⟩
  | activate chat token name =>
      exact (obeys_activate rfl rfl token name hidle).bind
        (fun _ _ h => ⟨h, nofun⟩) fun _ _ h => ⟨h, nofun⟩
  | ignore chat block =>
      exact (carries_ignore rfl rfl block _ hidle).bind
        (fun _ _ h => ⟨.inl h.owed, nofun⟩) fun _ _ h => ⟨.inl h.owed, nofun⟩
  | expireBuffered now =>
      refine (obeys_expire rfl _ hidle rfl).bind (fun _ _ h => ⟨.inl h.1.owed, nofun⟩)
        fun _ _ h => ⟨.inl h.1.owed, ?_⟩
      rintro _ ⟨rfl⟩
      exact h.2 _ rfl

/-! ## a call that goes on -/

theorem Book.resumed_of_taken (h : b.taken = []) : b.resumed kind = b := by
  obtain ⟨_, _, _, _, _, _, _, _, _⟩ := b
  obtain rfl : _ = [] := h
  simp [Book.resumed]

/-- A call that has run on to its next await. -/
structure Settled (cap : Nat) (kind : Kind) (live : String → Bool) (x : Prog Outcome) (b : Book)
    (freed : Bool) (r : Prog Outcome × Book × Bool) : Prop where
  obeys : Obeys (protocol cap kind) r.2.1 r.1 Ends
  taken : r.2.1.taken = []
  gone : r.2.1.gone = b.gone
  bot : r.2.1.bot = b.bot
  pays : r.2.1.owed ⊆ b.owed
  cut : r.2.1.cut = b.cut
  guarded : (b.room ≠ none → b.locked = true) → r.2.1.room ≠ none → r.2.1.locked = true
  locked : r.2.1.locked = true → b.locked = true ∧ r.2.2 = freed
  room : ∀ chat, r.2.1.room = some chat → b.room = some chat
  freed : r.2.2 = true → freed = true ∨ b.locked = true
  owed : b.asked = true ∨ State.findsBridge live x = true ∨ b.owed = [] → r.2.1.owed = b.owed
  awaits : ∀ op k, r.1 = .ask op k → ∃ a, op = .await a

theorem settled (live : String → Bool) {x : Prog Outcome} (freed : Bool)
    (h : Obeys (protocol cap kind) b x Ends) (htaken : b.taken = []) :
    Settled cap kind live x b freed (settle cap live x b freed) := by
  induction x generalizing b freed with
  | done a | fail e =>
      exact ⟨h, htaken, rfl, rfl, fun _ => id, rfl, id, fun hl => ⟨hl, rfl⟩, fun _ => id, .inl, fun _ => rfl, nofun⟩
  | ask op k ih =>
      cases op with
      | await a =>
          refine ⟨h, htaken, rfl, rfl, fun _ => id, rfl, id, fun hl => ⟨hl, rfl⟩, fun _ => id, .inl, fun _ => rfl, ?_⟩
          rintro _ _ ⟨rfl⟩
          exact ⟨a, rfl⟩
      | release =>
          have hnext : (b.next cap .release ()).resumed kind = b.next cap .release () :=
            Book.resumed_of_taken htaken
          have hobeys : Obeys (protocol cap kind) (b.next cap .release ()) (k ()) Ends := by
            have hall := h.2 ()
            simp only [protocol, hnext] at hall
            exact hall
          have hall := ih () true hobeys htaken
          exact ⟨hall.obeys, hall.taken, hall.gone, hall.bot, hall.pays, hall.cut, fun _ => hall.guarded nofun,
            fun hl => absurd (hall.locked hl).1 nofun, fun chat hr => absurd (hall.room chat hr) nofun,
            fun _ => .inr h.1, hall.owed, hall.awaits⟩
      | byName bridge =>
          have hnext : (b.next cap (.byName bridge) (live bridge)).resumed kind =
              b.next cap (.byName bridge) (live bridge) := Book.resumed_of_taken htaken
          have hobeys : Obeys (protocol cap kind) (b.next cap (.byName bridge) (live bridge))
              (k (live bridge)) Ends := by
            have hall := h.2 (live bridge)
            simp only [protocol, hnext] at hall
            exact hall
          have hall := ih (live bridge) freed hobeys htaken
          have hpays : (b.next cap (.byName bridge) (live bridge)).owed ⊆ b.owed := by
            simp only [Book.next]
            split
            · exact List.Subset.refl _
            · exact List.nil_subset _
          refine ⟨hall.obeys, hall.taken, hall.gone, hall.bot, List.Subset.trans hall.pays hpays,
            hall.cut, hall.guarded, hall.locked, hall.room, hall.freed,
            fun howed => (hall.owed (.inl rfl)).trans ?_, hall.awaits⟩
          rcases howed with hasked | hfinds | hnil
          · exact absurd (h.1.symm.trans hasked) nofun
          · have hlive : live bridge = true := (Bool.and_eq_true _ _ ▸ hfinds).1
            exact if_pos hlive
          · simp [Book.next, hnil]

end

/-- What the database answers, and nobody else. -/
def Await.stored : Await → Bool
  | .acquire | .byMaxChat _ | .uniqueName _ | .saveSecret .. | .upsertBridge _ | .add _
  | .send .. => false
  | _ => true

theorem not_stored_of_fit {reply : Reply} {a : Await} {r : a.Reply} (h : reply.fit a = some r) :
    a.stored = false := by
  cases a <;> cases reply <;> first | rfl | cases h

/-- Where the database is asked, nothing is owed. -/
theorem Book.allows.owed {b : Book} {kind : Kind} {a : Await} (h : b.allows kind a)
    (ha : a.sends = false) : b.owed = [] := by
  cases a with
  | acquire | countHeld chat => exact h.2
  | deleteHeld chat => exact h.1
  | deleteOld cutoff => exact h.1
  | insertHeld chat payload => exact h.2.2
  | send u v => cases ha
  | _ => exact h

structure Task.Kept (cap : Nat) (t : Task) : Prop where
  obeys : Obeys (protocol cap t.kind) t.book t.prog Ends
  taken : t.book.taken = []
  guarded : t.book.room ≠ none → t.book.locked = true
  ready : ∀ x b, t.ready = some (x, b) →
    (∃ a k, t.prog = .ask (.await a) k ∧ a.stored = true) ∧
      Obeys (protocol cap t.kind) (b.resumed t.kind) x Ends ∧ b.owed = [] ∧ b.cut = false ∧
      b.locked = t.book.locked ∧ (b.room ≠ none → b.locked = true)
  ended : t.isOver = true → t.book.owed = [] ∧ t.ready = none
  awaits : ∀ op k, t.prog = .ask op k → ∃ a, op = .await a

/-! ## the state between two steps -/

/-- A call that begins. -/
abbrev Task.new (cfg : Config) (kind : Kind) : Task := { kind, prog := kind.program cfg }

namespace State

variable {cfg : Config} {s : State} {n : Nat} {t : Task}

/-! ### what a step can do -/

inductive Stepped (cfg : Config) (s : State) : Event → State → Prop
  /-- What is held for the contact is due from here on. -/
  | activate (chat : Int) (token : String) (name : Option String) :
      Stepped cfg s (.call (.activate chat token name))
        ({ s with
            begun := chat :: s.begun
            due := s.due ++ s.disk.held chat
            tasks := s.tasks ++ [Task.new cfg (.activate chat token name)] }.advance cfg
          s.tasks.length (Task.new cfg (.activate chat token name))
          ((Kind.activate chat token name).program cfg) {})
  | call {kind : Kind} (hkind : kind.activates = false) :
      Stepped cfg s (.call kind)
        ({ s with tasks := s.tasks ++ [Task.new cfg kind] }.advance cfg s.tasks.length
          (Task.new cfg kind) (kind.program cfg) {})
  | acquire {n : Nat} {t : Task} {k : (Op.await .acquire).Answer → Prog Outcome}
      (ht : s.tasks[n]? = some t) (hprog : t.prog = .ask (.await .acquire) k)
      (hfree : s.holder = none) :
      Stepped cfg s (.acquire n) ({ s with holder := some n }.advance cfg n t (k (.ok ()))
        (t.book.next cfg.pendingMaxMessages (.await .acquire) (.ok ())))
  | exec {n : Nat} {now : Int} {t : Task} {a : Await} {k : (Op.await a).Answer → Prog Outcome}
      {r : a.Reply} {d : Disk} (ht : s.tasks[n]? = some t) (hprog : t.prog = .ask (.await a) k)
      (hready : t.ready = none) (hperform : s.disk.perform now a = some (r, d)) :
      Stepped cfg s (.exec n now)
        { s.wrote n t d a (t.book.next cfg.pendingMaxMessages (.await a) (.ok r)) with
          tasks := s.tasks.set n { t with
            ready := some (k (.ok r), t.book.next cfg.pendingMaxMessages (.await a) (.ok r)) } }
  | resume {n : Nat} {t : Task} {x : Prog Outcome} {b : Book} (ht : s.tasks[n]? = some t)
      (hready : t.ready = some (x, b)) :
      Stepped cfg s (.resume n)
        ({ s with out := s.out.map (Handout.toldTo n) }.advance cfg n t x (b.resumed t.kind))
  | answer {n : Nat} {reply : Reply} {t : Task} {a : Await}
      {k : (Op.await a).Answer → Prog Outcome} {r : a.Reply} (ht : s.tasks[n]? = some t)
      (hprog : t.prog = .ask (.await a) k) (hfit : reply.fit a = some r) :
      Stepped cfg s (.answer n reply)
        ({ s with
            offered := s.offered ++ t.offering
            sent := s.sent ++ t.sending
            records := s.records ++ a.record }.advance cfg n t (k (.ok r))
          ((t.book.next cfg.pendingMaxMessages (.await a) (.ok r)).resumed t.kind))
  | fault {n : Nat} {f : Fault} {t : Task} {a : Await} {k : (Op.await a).Answer → Prog Outcome}
      (ht : s.tasks[n]? = some t) (hprog : t.prog = .ask (.await a) k) :
      Stepped cfg s (.fault n f)
        ({ s with
            offered := s.offered ++ t.offering
            sent := s.sent ++ t.sending }.advance cfg n t (k (.error f))
          ((t.book.next cfg.pendingMaxMessages (.await a) (.error f)).resumed t.kind))
  | registry (bridge : String) (live : Bool) :
      Stepped cfg s (.registry bridge live) { s with live := Function.update s.live bridge live }
  | crash :
      Stepped cfg s .crash { s with
        holder := none
        live := fun _ => false
        offered := s.offered ++ s.tasks.flatMap Task.offering
        sent := s.sent ++ s.tasks.flatMap Task.sending
        tasks := s.tasks.map fun t =>
          { t with prog := .fail (.fault .cancelled), book := {}, ready := none } }

theorem wrote_tasks {d : Disk} {a : Await} {b : Book} : (s.wrote n t d a b).tasks = s.tasks := by
  cases a <;> rfl

theorem stepped {s' : State} {e : Event} (h : State.step cfg s e = some s') :
    Stepped cfg s e s' := by
  cases e with
  | call kind =>
      obtain rfl := Option.some.inj h
      cases kind with
      | activate chat token name => exact .activate chat token name
      | message m displayName => exact .call (show (Kind.message m displayName).activates = false from rfl)
      | ignore chat block => exact .call (show (Kind.ignore chat block).activates = false from rfl)
      | expireBuffered now => exact .call (show (Kind.expireBuffered now).activates = false from rfl)
  | acquire n =>
      simp only [State.step] at h
      split at h
      · next t ht =>
          split at h
          · next k hprog =>
              split at h
              · next hfree =>
                  obtain rfl := Option.some.inj h
                  exact .acquire ht hprog hfree
              · cases h
          · cases h
      · cases h
  | exec n now =>
      simp only [State.step] at h
      split at h
      · next t ht =>
          split at h
          · next a k hprog =>
              split at h
              · next hready =>
                  obtain ⟨⟨r, d⟩, hperform, rfl⟩ := Option.map_eq_some_iff.mp h
                  simp only [wrote_tasks]
                  exact .exec ht hprog (Option.isNone_iff_eq_none.mp hready) hperform
              · cases h
          · cases h
      · cases h
  | resume n =>
      simp only [State.step] at h
      split at h
      · next t ht =>
          obtain ⟨⟨x, b⟩, hready, rfl⟩ := Option.map_eq_some_iff.mp h
          exact .resume ht hready
      · cases h
  | answer n reply =>
      simp only [State.step] at h
      split at h
      · next t ht =>
          split at h
          · next a k hprog =>
              obtain ⟨r, hfit, rfl⟩ := Option.map_eq_some_iff.mp h
              exact .answer ht hprog hfit
          · cases h
      · cases h
  | fault n f =>
      simp only [State.step] at h
      split at h
      · next t ht =>
          split at h
          · next a k hprog =>
              obtain rfl := Option.some.inj h
              exact .fault ht hprog
          · cases h
      · cases h
  | registry bridge live =>
      obtain rfl := Option.some.inj h
      exact .registry bridge live
  | crash =>
      obtain rfl := Option.some.inj h
      exact .crash

/-! ### what is kept -/

/-- What is on disk and what has left it. -/
structure Stored (cfg : Config) (d : Disk) (buffered : List Row) (out : List Handout) : Prop where
  sequence : ∀ r ∈ buffered, r.id ≤ d.sequence
  increasing : buffered.Pairwise (·.id < ·.id)
  inbox : d.inbox.Sublist buffered
  once : (d.inbox ++ out.flatMap (·.rows)).Perm buffered
  order : ∀ h ∈ out, h.rows.Sublist buffered
  cap : ∀ chat, (d.held chat).length ≤ cfg.pendingMaxMessages

/-- A task has the rows of this entry on the way to it. -/
def Awaited (s : State) (h : Handout) : Prop :=
  ∃ t, s.tasks[h.task]? = some t ∧ ∃ x b, t.ready = some (x, b) ∧ b.taken = h.rows

/-- Where a row is that was held for a contact since its activation began. -/
def Carries (s : State) (r : Row) : Prop := r ∈ s.disk.inbox ∨ r ∈ s.offered

structure Kept (cfg : Config) (s : State) : Prop where
  stored : Stored cfg s.disk s.buffered s.out
  handed : ∀ h ∈ s.out, h.rows ≠ [] → h.returned = true ∨ s.Awaited h
  lock : ∀ (n : Nat) (t : Task), s.tasks[n]? = some t → t.isOver = false → t.book.locked = true →
    s.holder = some n
  room : ∀ (n : Nat) (t : Task) (chat : Int), s.tasks[n]? = some t → t.isOver = false →
    t.now.room = some chat →
    (s.disk.held chat).length < cfg.pendingMaxMessages
  tasks : ∀ (n : Nat) (t : Task), s.tasks[n]? = some t → t.Kept cfg.pendingMaxMessages
  begun : ∀ r ∈ s.due, r.maxChatId ∈ s.begun
  carried : ∀ r ∈ s.due, s.Carries r ∨ ∃ (n : Nat) (t : Task), s.tasks[n]? = some t ∧
    (r ∈ t.book.owed ∨ t.kind.activates = true ∧ r ∈ t.now.taken)

/-- The `n`th call goes on with `x`; the others stand still. -/
structure Going (cfg : Config) (s : State) (n : Nat) (t : Task) (x : Prog Outcome) (b : Book) :
    Prop where
  stored : Stored cfg s.disk s.buffered s.out
  there : n < s.tasks.length
  handed : ∀ h ∈ s.out, h.rows ≠ [] → h.returned = true ∨ h.task ≠ n ∧ s.Awaited h
  lock : ∀ (m : Nat) (t' : Task), m ≠ n → s.tasks[m]? = some t' → t'.isOver = false →
    t'.book.locked = true →
    s.holder = some m
  room : ∀ (m : Nat) (t' : Task) (chat : Int), m ≠ n → s.tasks[m]? = some t' → t'.isOver = false →
    t'.now.room = some chat →
    (s.disk.held chat).length < cfg.pendingMaxMessages
  tasks : ∀ (m : Nat) (t' : Task), m ≠ n → s.tasks[m]? = some t' → t'.Kept cfg.pendingMaxMessages
  begun : ∀ r ∈ s.due, r.maxChatId ∈ s.begun
  carried : ∀ r ∈ s.due, s.Carries r ∨ r ∈ b.owed ∨ ∃ (m : Nat) (t' : Task), m ≠ n ∧
    s.tasks[m]? = some t' ∧ (r ∈ t'.book.owed ∨ t'.kind.activates = true ∧ r ∈ t'.now.taken)
  obeys : Obeys (protocol cfg.pendingMaxMessages t.kind) b x Ends
  taken : b.taken = []
  cut : b.cut = true → b.owed = []
  guarded : b.room ≠ none → b.locked = true
  locks : b.locked = true → s.holder = some n
  sees : ∀ chat, b.room = some chat → (s.disk.held chat).length < cfg.pendingMaxMessages
  finds : b.asked = true ∨ findsBridge s.live x = true ∨ b.owed = []

/-- **A call goes on** to its next await. -/
theorem Going.advance {x : Prog Outcome} {b : Book} (h : Going cfg s n t x b) :
    Kept cfg (s.advance cfg n t x b) := by
  have hsettled := settled s.live false h.obeys h.taken
  have howed := hsettled.owed h.finds
  have hself : (s.advance cfg n t x b).tasks[n]? = some { t with
      prog := (settle cfg.pendingMaxMessages s.live x b false).1
      book := (settle cfg.pendingMaxMessages s.live x b false).2.1, ready := none } :=
    List.getElem?_set_self h.there
  have hothers {m : Nat} (hm : m ≠ n) : (s.advance cfg n t x b).tasks[m]? = s.tasks[m]? :=
    List.getElem?_set_ne (Ne.symm hm)
  have hcases {P : Nat → Task → Prop} (hn : P n { t with
      prog := (settle cfg.pendingMaxMessages s.live x b false).1
      book := (settle cfg.pendingMaxMessages s.live x b false).2.1, ready := none })
      (hrest : ∀ m t', m ≠ n → s.tasks[m]? = some t' → P m t') :
      ∀ m t', (s.advance cfg n t x b).tasks[m]? = some t' → P m t' := by
    intro m t' ht'
    by_cases hm : m = n
    · subst hm
      exact Option.some.inj (hself.symm.trans ht') ▸ hn
    · exact hrest m t' hm ((hothers hm).symm.trans ht')
  refine ⟨h.stored, fun e he hne => ?_, hcases ?_ ?_, fun m t' chat => hcases (P := fun _ t' =>
      t'.isOver = false → t'.now.room = some chat →
        (s.disk.held chat).length < cfg.pendingMaxMessages) ?_ ?_ m t', hcases ?_ h.tasks,
    h.begun, fun r hr => ?_⟩
  · refine (h.handed e he hne).imp_right fun ⟨hm, t', ht', hready⟩ => ⟨t', ?_, hready⟩
    exact (hothers hm).trans ht'
  · -- It holds the lock if it held it and has not given it back.
    intro _ hlocked
    obtain ⟨hl, hfreed⟩ := hsettled.locked hlocked
    change (if _ then _ else _) = _
    rw [hfreed]
    exact h.locks hl
  · intro m t' hm ht' hover hlocked
    have hholder := h.lock m t' hm ht' hover hlocked
    change (if _ then _ else _) = _
    split
    · next hfreed =>
        have hl := (hsettled.freed hfreed).resolve_left nofun
        exact absurd (Option.some.inj (hholder.symm.trans (h.locks hl))) hm
    · exact hholder
  · exact fun _ hroom => h.sees chat (hsettled.room chat hroom)
  · exact fun m t' hm ht' => h.room m t' chat hm ht'
  · refine ⟨hsettled.obeys, hsettled.taken, hsettled.guarded h.guarded, nofun, fun hover => ?_,
      hsettled.awaits⟩
    refine ⟨?_, rfl⟩
    have hpaid : (settle cfg.pendingMaxMessages s.live x b false).2.1.owed = [] ∨
        (settle cfg.pendingMaxMessages s.live x b false).2.1.cut = true := by
      have hobeys := hsettled.obeys
      simp only [Task.isOver] at hover
      split at hover
      · cases hover
      · next hprog =>
          rw [hprog] at hobeys
          exact hobeys.paid
      · next hprog =>
          rw [hprog] at hobeys
          exact hobeys.paid
    rcases hpaid with hnil | hcut
    · exact hnil
    · exact howed.trans (h.cut (hsettled.cut.symm.trans hcut))
  · rcases h.carried r hr with hc | ho | ⟨m, t', hm, ht', hc⟩
    · exact .inl hc
    · exact .inr ⟨n, _, hself, .inl (howed.symm ▸ ho)⟩
    · exact .inr ⟨m, t', (hothers hm).trans ht', hc⟩

/-! ## the steps -/

namespace Kept

/-- What a call awaits, and what it is allowed to await there. -/
theorem awaits (h : s.Kept cfg) (ht : s.tasks[n]? = some t) {a : Await}
    {k : (Op.await a).Answer → Prog Outcome} (hprog : t.prog = .ask (.await a) k) :
    t.book.cut = false ∧ t.book.allows t.kind a ∧ ∀ r, Obeys (protocol cfg.pendingMaxMessages t.kind)
      ((t.book.next cfg.pendingMaxMessages (.await a) r).resumed t.kind) (k r) Ends := by
  have hobeys := (h.tasks n t ht).obeys
  rw [hprog] at hobeys
  exact ⟨hobeys.1.1, hobeys.1.2.2, hobeys.2⟩

theorem not_ready (h : s.Kept cfg) (ht : s.tasks[n]? = some t) {a : Await}
    {k : (Op.await a).Answer → Prog Outcome} (hprog : t.prog = .ask (.await a) k)
    (ha : a.stored = false) : t.ready = none := by
  cases hready : t.ready with
  | none => rfl
  | some xb =>
      obtain ⟨a', k', hprog', ha'⟩ := ((h.tasks n t ht).ready xb.1 xb.2 hready).1
      cases hprog.symm.trans hprog'
      exact absurd (ha.symm.trans ha') nofun

theorem over_eq_false {a : Await} {k : (Op.await a).Answer → Prog Outcome}
    (hprog : t.prog = .ask (.await a) k) : t.isOver = false := by
  simp [Task.isOver, hprog]

/-- What is on its way to somebody is not on its way to a call that has taken nothing. -/
theorem handed_of (h : s.Kept cfg) (ht : s.tasks[n]? = some t) (htaken : t.now.taken = []) :
    ∀ e ∈ s.out, e.rows ≠ [] → e.returned = true ∨ e.task ≠ n ∧ s.Awaited e := by
  intro e he hne
  refine (h.handed e he hne).imp_right fun haw => ⟨?_, haw⟩
  rintro rfl
  obtain ⟨t', ht', x, b, hready, hrows⟩ := haw
  obtain rfl := Option.some.inj (ht.symm.trans ht')
  rw [Task.now, hready] at htaken
  exact hne (hrows.symm.trans htaken)

/-- A call that stands still goes on: what has changed is who holds the lock, what has come
back and what has been offered. -/
theorem going (h : s.Kept cfg) (ht : s.tasks[n]? = some t) (hover : t.isOver = false)
    {holder : Option Nat} {out : List Handout} {offered : List Row} {sent : List (String × String)}
    {records : List (String × Int)} {x : Prog Outcome} {b : Book}
    (hstored : Stored cfg s.disk s.buffered out)
    (hhanded : ∀ e ∈ out, e.rows ≠ [] → e.returned = true ∨ e.task ≠ n ∧ s.Awaited e)
    (hholder : ∀ m, m ≠ n → s.holder = some m → holder = some m)
    (hcarried : ∀ r, s.Carries r ∨ r ∈ t.book.owed ∨ t.kind.activates = true ∧ r ∈ t.now.taken →
      State.Carries { s with holder, out, offered, sent, records } r ∨ r ∈ b.owed)
    (hobeys : Obeys (protocol cfg.pendingMaxMessages t.kind) b x Ends) (htaken : b.taken = [])
    (hcut : b.cut = true → b.owed = []) (hguarded : b.room ≠ none → b.locked = true)
    (hlocks : b.locked = true → holder = some n)
    (hroom : ∀ chat, b.room = some chat → t.now.room = some chat)
    (hfinds : b.asked = true ∨ findsBridge s.live x = true ∨ b.owed = []) :
    Going cfg { s with holder, out, offered, sent, records } n t x b where
  stored := hstored
  there := (List.getElem?_eq_some_iff.mp ht).1
  handed := hhanded
  lock m t' hm ht' hov hl := hholder m hm (h.lock m t' ht' hov hl)
  room m t' chat _ ht' hov hr := h.room m t' chat ht' hov hr
  tasks m t' _ ht' := h.tasks m t' ht'
  begun := h.begun
  carried r hr := by
    rcases h.carried r hr with hc | ⟨m, t', ht', hc⟩
    · exact (hcarried r (.inl hc)).imp_right .inl
    · by_cases hm : m = n
      · subst hm
        obtain rfl := Option.some.inj (ht.symm.trans ht')
        exact (hcarried r (.inr hc)).imp_right .inl
      · exact .inr (.inr ⟨m, t', hm, ht', hc⟩)
  obeys := hobeys
  taken := htaken
  cut := hcut
  guarded := hguarded
  locks := hlocks
  sees chat hr := h.room n t chat ht hover (hroom chat hr)
  finds := hfinds

/-- The lock is taken. -/
theorem acquire (h : s.Kept cfg) (ht : s.tasks[n]? = some t)
    {k : (Op.await .acquire).Answer → Prog Outcome} (hprog : t.prog = .ask (.await .acquire) k)
    (hfree : s.holder = none) :
    Going cfg { s with holder := some n } n t (k (.ok ()))
      (t.book.next cfg.pendingMaxMessages (.await .acquire) (.ok ())) := by
  obtain ⟨hcut, ⟨-, howed⟩, hobeys⟩ := h.awaits ht hprog
  have htaken := (h.tasks n t ht).taken
  have hready := h.not_ready ht hprog rfl
  have hnow : t.now = t.book := by simp [Task.now, hready]
  have hobeys' := hobeys (.ok ())
  have hnext : (t.book.next cfg.pendingMaxMessages (.await .acquire) (.ok ())).taken = [] := htaken
  rw [Book.resumed_of_taken hnext] at hobeys'
  exact h.going ht (over_eq_false hprog) h.stored (h.handed_of ht (hnow ▸ htaken))
    (fun m _ hm => absurd (hfree.symm.trans hm) nofun)
    (fun r hr => hr.elim .inl fun hr =>
      .inr (by simpa [hnow, htaken, Book.next] using hr)) hobeys' htaken
    (fun hc => absurd (hcut.symm.trans hc) nofun) (fun _ => rfl) (fun _ => rfl)
    (fun chat hr => hnow ▸ hr) (.inr (.inr howed))

@[simp] theorem toldTo_rows (n : Nat) (e : Handout) : (e.toldTo n).rows = e.rows := by
  unfold Handout.toldTo
  split <;> rfl

/-- The result of a statement comes back. -/
theorem resume (h : s.Kept cfg) (ht : s.tasks[n]? = some t) {x : Prog Outcome} {b : Book}
    (hready : t.ready = some (x, b))
    (hpays : t.kind.activates = false ∨ b.taken = [] ∨
      (∀ r ∈ b.taken, r.payload.shown ≠ "") ∧ findsBridge s.live x = true) :
    Going cfg { s with out := s.out.map (Handout.toldTo n) } n t x (b.resumed t.kind) := by
  obtain ⟨⟨a, k, hprog, ha⟩, hobeys, howed, hcut, hlocked, hguarded⟩ :=
    (h.tasks n t ht).ready x b hready
  have hnow : t.now = b := by simp [Task.now, hready]
  have hnothing : t.book.owed = [] :=
    (h.awaits ht hprog).2.1.owed (by cases a <;> first | rfl | cases ha)
  have hworth : t.kind.activates = true → (b.resumed t.kind).owed = b.taken := by
    intro hact
    simp only [Book.resumed, hact, if_true, howed, List.nil_append]
    rcases hpays with hno | hnil | ⟨hshown, -⟩
    · exact absurd (hno.symm.trans hact) nofun
    · rw [hnil, List.filter_nil]
    · exact List.filter_eq_self.mpr fun r hr => decide_eq_true (hshown r hr)
  refine h.going ht (over_eq_false hprog)
    ⟨h.stored.sequence, h.stored.increasing, h.stored.inbox, ?_, fun e he => ?_, h.stored.cap⟩
    (fun e he hne => ?_) (fun m _ hm => hm) (fun r hr => ?_) hobeys rfl
    (fun hc => absurd (hcut.symm.trans hc) nofun) hguarded (fun hl => ?_)
    (fun chat hr => hnow ▸ hr) ?_
  · simpa [List.flatMap_map] using h.stored.once
  · obtain ⟨e, hmem, rfl⟩ := List.mem_map.mp he
    simpa using h.stored.order e hmem
  · obtain ⟨e, hmem, rfl⟩ := List.mem_map.mp he
    rw [toldTo_rows] at hne
    by_cases hen : e.task = n
    · exact .inl (by simp [Handout.toldTo, hen])
    · simpa [Handout.toldTo, hen] using h.handed e hmem hne
  · rcases hr with (hdisk | hoffered) | hrow | ⟨hact, hrow⟩
    · exact .inl (.inl hdisk)
    · exact .inl (.inr hoffered)
    · rw [hnothing] at hrow
      cases hrow
    · rw [hnow] at hrow
      exact .inr ((hworth hact).symm ▸ hrow)
  · exact h.lock n t ht (over_eq_false hprog) (hlocked ▸ hl)
  · rcases hpays with hno | hnil | ⟨-, hfinds⟩
    · exact .inr (.inr (by simp [Book.resumed, hno, howed]))
    · exact .inr (.inr (by simp [Book.resumed, hnil, howed]))
    · exact .inr (.inl hfinds)

/-- An activation whose backlog comes back finds its bridge, and has something to show of all. -/
theorem pays_of_careful (ht : s.tasks[n]? = some t) {x : Prog Outcome} {b : Book}
    (hready : t.ready = some (x, b)) (hok : s.careful (.resume n) = true) :
    t.kind.activates = false ∨ b.taken = [] ∨
      (∀ r ∈ b.taken, r.payload.shown ≠ "") ∧ findsBridge s.live x = true := by
  simpa only [careful, ht, hready, Option.all_some, Bool.or_eq_true, Bool.not_eq_true',
    Bool.and_eq_true, List.all_eq_true, decide_eq_true_eq, or_assoc] using hok

/-- What a call that sends is offering, and what it owes after. -/
theorem offering_cons {u v : String} {k : (Op.await (.send u v)).Answer → Prog Outcome}
    (hprog : t.prog = .ask (.await (.send u v)) k) {r : Row} {rest : List Row}
    (howed : t.book.owed = r :: rest) : t.offering = [r] ∧ t.owes = rest := by
  have hoffering : t.offering = [r] := by simp [Task.offering, hprog, howed]
  exact ⟨hoffering, by simp [Task.owes, hoffering, howed]⟩

/-- Somebody else than the database has answered, or something is raised. -/
theorem answered (h : s.Kept cfg) (ht : s.tasks[n]? = some t) {a : Await}
    {k : (Op.await a).Answer → Prog Outcome} (hprog : t.prog = .ask (.await a) k)
    {sent : List (String × String)} {records : List (String × Int)}
    (r : (Op.await a).Answer) (htaken : t.now.taken = [])
    (hnext : (t.book.next cfg.pendingMaxMessages (.await a) r).taken = [])
    (hkeeps : (t.book.next cfg.pendingMaxMessages (.await a) r).locked = t.book.locked)
    (hroom : ∀ chat, (t.book.next cfg.pendingMaxMessages (.await a) r).room = some chat →
      t.now.room = some chat ∧ t.book.room = some chat)
    (hasked : (t.book.next cfg.pendingMaxMessages (.await a) r).asked = t.book.asked)
    (howed : (t.book.next cfg.pendingMaxMessages (.await a) r).owed =
      if a.sends then t.book.owed.tail else t.book.owed)
    (hcut : (t.book.next cfg.pendingMaxMessages (.await a) r).cut = true → t.owes = []) :
    Going cfg { s with offered := s.offered ++ t.offering, sent, records } n t (k r)
      ((t.book.next cfg.pendingMaxMessages (.await a) r).resumed t.kind) := by
  obtain ⟨-, hallows, hobeys⟩ := h.awaits ht hprog
  have hobeys' := hobeys r
  rw [Book.resumed_of_taken hnext] at hobeys' ⊢
  have hpaid : (t.book.next cfg.pendingMaxMessages (.await a) r).owed = t.owes ∧
      (∀ r ∈ t.book.owed, r ∈ t.offering ∨ r ∈ t.owes) ∧
      (t.book.asked = true ∨ t.owes = []) := by
    cases hsends : a.sends with
    | true =>
        cases a with
        | send u v =>
            obtain ⟨hlooked, -, r', rest, hrest, -⟩ := hallows
            obtain ⟨hoffering, howes⟩ := offering_cons hprog hrest
            refine ⟨by simp [howed, hsends, hrest, howes], fun r hr => ?_, .inl hlooked⟩
            rw [hoffering, howes]
            rw [hrest] at hr
            exact (List.mem_cons.mp hr).imp_left List.mem_singleton.mpr
        | _ => cases hsends
    | false =>
        have hnil := hallows.owed hsends
        exact ⟨by simp [howed, hsends, Task.owes, hnil], by simp [hnil], .inr (by simp [Task.owes, hnil])⟩
  refine h.going ht (over_eq_false hprog) h.stored (h.handed_of ht htaken) (fun _ _ hm => hm)
    (fun r hr => ?_) hobeys' hnext (fun hc => hpaid.1.trans (hcut hc)) (fun hr => ?_) (fun hl => ?_)
    (fun chat hr => (hroom chat hr).1) ?_
  · rcases hr with (hdisk | hoffered) | hrow | ⟨-, hrow⟩
    · exact .inl (.inl hdisk)
    · exact .inl (.inr (List.mem_append_left _ hoffered))
    · rcases hpaid.2.1 r hrow with hoff | howes
      · exact .inl (.inr (List.mem_append_right _ hoff))
      · exact .inr (hpaid.1 ▸ howes)
    · rw [htaken] at hrow
      cases hrow
  · obtain ⟨chat, hchat⟩ := Option.ne_none_iff_exists'.mp hr
    exact hkeeps.trans ((h.tasks n t ht).guarded (by simp [(hroom chat hchat).2]))
  · exact h.lock n t ht (over_eq_false hprog) (hkeeps ▸ hl)
  · rcases hpaid.2.2 with hlooked | hnil
    · exact .inl (hasked.trans hlooked)
    · exact .inr (.inr (hpaid.1.trans hnil))

theorem answer (h : s.Kept cfg) (ht : s.tasks[n]? = some t) {a : Await}
    {k : (Op.await a).Answer → Prog Outcome} (hprog : t.prog = .ask (.await a) k)
    {reply : Reply} {r : a.Reply} (hfit : reply.fit a = some r)
    {sent : List (String × String)} {records : List (String × Int)} :
    Going cfg { s with offered := s.offered ++ t.offering, sent, records } n t (k (.ok r))
      ((t.book.next cfg.pendingMaxMessages (.await a) (.ok r)).resumed t.kind) := by
  have ha := not_stored_of_fit hfit
  have hready := h.not_ready ht hprog ha
  have hnow : t.now = t.book := by simp [Task.now, hready]
  have htaken := (h.tasks n t ht).taken
  have hcut := (h.awaits ht hprog).1
  refine h.answered ht hprog (.ok r) (hnow ▸ htaken) ?_ ?_ (fun chat hr => ?_) ?_ ?_ fun hc => ?_
  · cases a <;> first | exact htaken | cases reply <;> cases hfit
  · cases a <;> first | rfl | cases reply <;> cases hfit
  · rw [hnow, and_self]
    cases a <;> first | exact hr | cases reply <;> cases hfit
  · cases a <;> rfl
  · cases a <;> rfl
  · have hsame : (t.book.next cfg.pendingMaxMessages (.await a) (.ok r)).cut = t.book.cut := by
      cases a <;> rfl
    exact absurd (hcut.symm.trans (hsame.symm.trans hc)) nofun

theorem fault (h : s.Kept cfg) (ht : s.tasks[n]? = some t) {a : Await}
    {k : (Op.await a).Answer → Prog Outcome} (hprog : t.prog = .ask (.await a) k) (f : Fault)
    (htaken : t.now.taken = []) (howes : t.owes = [] ∨ f ≠ .cancelled)
    {sent : List (String × String)} {records : List (String × Int)} :
    Going cfg { s with offered := s.offered ++ t.offering, sent, records } n t (k (.error f))
      ((t.book.next cfg.pendingMaxMessages (.await a) (.error f)).resumed t.kind) := by
  have hbook := (h.tasks n t ht).taken
  have hcut := (h.awaits ht hprog).1
  refine h.answered ht hprog (.error f) htaken ?_ ?_ (fun chat hr => ?_) ?_ ?_ fun hc => ?_
  · cases a <;> exact hbook
  · cases a <;> rfl
  · have hnone : (t.book.next cfg.pendingMaxMessages (.await a) (.error f)).room = none := by
      cases a <;> rfl
    exact absurd (hnone.symm.trans hr) nofun
  · cases a <;> rfl
  · cases a <;> rfl
  · refine howes.resolve_right fun hne => ?_
    cases a with
    | send u v => exact hne (of_decide_eq_true hc)
    | _ => exact absurd (hcut.symm.trans hc) nofun

/-- What is due as an activation begins. -/
theorem of_due (h : s.Kept cfg) (chat : Int) (r : Row) (hr : r ∈ s.due ++ s.disk.held chat) :
    (r ∈ s.due ∨ r ∈ s.disk.inbox) ∧ r.maxChatId ∈ chat :: s.begun := by
  rcases List.mem_append.mp hr with hr | hr
  · exact ⟨.inl hr, List.mem_cons_of_mem _ (h.begun r hr)⟩
  · obtain ⟨hdisk, hchat⟩ := List.mem_filter.mp hr
    exact ⟨.inr hdisk, List.mem_cons.mpr (.inl (of_decide_eq_true hchat))⟩

/-- A call comes. -/
theorem call (h : s.Kept cfg) (kind : Kind) {begun : List Int} {due : List Row}
    (hdue : ∀ r ∈ due, r ∈ s.due ∨ r ∈ s.disk.inbox) (hbegun : ∀ r ∈ due, r.maxChatId ∈ begun) :
    Going cfg { s with begun, due, tasks := s.tasks ++ [{ kind, prog := kind.program cfg }] }
      s.tasks.length { kind, prog := kind.program cfg } (kind.program cfg) {} := by
  have hold {m : Nat} {t' : Task} (hm : m ≠ s.tasks.length)
      (ht' : (s.tasks ++ [({ kind, prog := kind.program cfg } : Task)])[m]? = some t') :
      s.tasks[m]? = some t' := by
    rw [List.getElem?_append] at ht'
    split at ht'
    · exact ht'
    · obtain ⟨hlt, -⟩ := List.getElem?_eq_some_iff.mp ht'
      simp only [List.length_singleton] at hlt
      omega
  have hnew {m : Nat} {t' : Task} (ht' : s.tasks[m]? = some t') : m ≠ s.tasks.length ∧
      (s.tasks ++ [({ kind, prog := kind.program cfg } : Task)])[m]? = some t' := by
    have hlt := (List.getElem?_eq_some_iff.mp ht').1
    exact ⟨Nat.ne_of_lt hlt, (List.getElem?_append_left hlt).trans ht'⟩
  refine ⟨h.stored, by simp, fun e he hne => ?_, fun m t' hm ht' => h.lock m t' (hold hm ht'),
    fun m t' chat hm ht' => h.room m t' chat (hold hm ht'),
    fun m t' hm ht' => h.tasks m t' (hold hm ht'), hbegun, fun r hr => ?_, obeys_program cfg kind, rfl,
    fun _ => rfl, fun hr => absurd rfl hr, nofun, nofun, .inr (.inr rfl)⟩
  · exact (h.handed e he hne).imp_right fun ⟨t', ht', hready⟩ =>
      ⟨(hnew ht').1, t', (hnew ht').2, hready⟩
  · rcases hdue r hr with hr | hr
    · refine (h.carried r hr).imp_right fun ⟨m, t', ht', hc⟩ => .inr ⟨m, t', (hnew ht').1, ?_, hc⟩
      exact (hnew ht').2
    · exact .inl (.inl hr)

/-- The process dies: nothing is on its way to anybody, and nothing is owed. -/
theorem crash (h : s.Kept cfg) {live : String → Bool} {sent : List (String × String)}
    (hrest : ∀ t ∈ s.tasks, t.now.taken = [] ∧ t.owes = []) :
    Kept cfg { s with
      holder := none, live
      offered := s.offered ++ s.tasks.flatMap Task.offering
      sent
      tasks := s.tasks.map fun t =>
        { t with prog := .fail (.fault .cancelled), book := {}, ready := none } } where
  stored := h.stored
  handed e he hne := by
    refine .inl ((h.handed e he hne).resolve_right ?_)
    rintro ⟨t, ht, x, b, hready, hrows⟩
    have htaken := (hrest t (List.mem_of_getElem? ht)).1
    rw [Task.now, hready] at htaken
    exact hne (hrows.symm.trans htaken)
  lock n t ht hover := by
    simp only [List.getElem?_map, Option.map_eq_some_iff] at ht
    obtain ⟨_, -, rfl⟩ := ht
    cases hover
  room n t chat ht hover := by
    simp only [List.getElem?_map, Option.map_eq_some_iff] at ht
    obtain ⟨_, -, rfl⟩ := ht
    cases hover
  tasks n t ht := by
    simp only [List.getElem?_map, Option.map_eq_some_iff] at ht
    obtain ⟨_, -, rfl⟩ := ht
    exact ⟨⟨.inl rfl, nofun⟩, rfl, fun hr => absurd rfl hr, nofun, fun _ => ⟨rfl, rfl⟩, nofun⟩
  begun := h.begun
  carried r hr := by
    left
    rcases h.carried r hr with (hdisk | hoffered) | ⟨n, t, ht, hrow | ⟨-, hrow⟩⟩
    · exact .inl hdisk
    · exact .inr (List.mem_append_left _ hoffered)
    · -- All it owes it is offering.
      have hmem := List.mem_of_getElem? ht
      have hshort := List.drop_eq_nil_iff.mp (hrest t hmem).2
      refine .inr (List.mem_append_right _ (List.mem_flatMap.mpr ⟨t, hmem, ?_⟩))
      simp only [Task.offering] at hshort ⊢
      split
      · next hprog =>
          simp only [hprog, List.length_take] at hshort
          rwa [List.take_of_length_le (by omega)]
      · next hno =>
          split at hshort
          · next hprog => exact absurd hprog (hno _ _ _)
          · rw [List.length_nil, Nat.le_zero, List.length_eq_zero_iff] at hshort
            rw [hshort] at hrow
            cases hrow
    · rw [(hrest t (List.mem_of_getElem? ht)).1] at hrow
      cases hrow

/-- A statement is executed: what it leaves on disk, and what the call will go on with. -/
theorem executed (h : s.Kept cfg) (ht : s.tasks[n]? = some t) {a : Await}
    {k : (Op.await a).Answer → Prog Outcome} (hprog : t.prog = .ask (.await a) k)
    (ha : a.stored = true) (hready : t.ready = none) {r : a.Reply} {b : Book}
    (hb : b = t.book.next cfg.pendingMaxMessages (.await a) (.ok r))
    {d : Disk} {buffered due : List Row} {out : List Handout} (hstored : Stored cfg d buffered out)
    (hhanded : ∀ e ∈ out, e ∈ s.out ∨ e.task = n ∧ b.taken = e.rows)
    (hothers : ∀ (m : Nat) (t' : Task) (chat : Int), m ≠ n → s.tasks[m]? = some t' →
      t'.isOver = false → t'.now.room = some chat →
      (d.held chat).length < cfg.pendingMaxMessages)
    (hsees : ∀ chat, b.room = some chat → (d.held chat).length < cfg.pendingMaxMessages)
    (hdue : ∀ r ∈ due, r ∈ s.due ∨ r ∈ d.inbox) (hbegun : ∀ r ∈ due, r.maxChatId ∈ s.begun)
    (hcarried : ∀ r ∈ s.due, s.Carries r → (r ∈ d.inbox ∨ r ∈ s.offered) ∨
      t.kind.activates = true ∧ r ∈ b.taken) :
    Kept cfg { s with
      disk := d, buffered, due, out
      tasks := s.tasks.set n { t with ready := some (k (.ok r), b) } } := by
  obtain ⟨hcut, hallows, hobeys⟩ := h.awaits ht hprog
  have hkept := h.tasks n t ht
  have howed := hallows.owed (by cases a <;> first | rfl | cases ha)
  have hlt := (List.getElem?_eq_some_iff.mp ht).1
  have hself : (s.tasks.set n { t with ready := some (k (.ok r), b) })[n]? =
      some { t with ready := some (k (.ok r), b) } := List.getElem?_set_self hlt
  have hother {m : Nat} (hm : m ≠ n) :
      (s.tasks.set n { t with ready := some (k (.ok r), b) })[m]? = s.tasks[m]? :=
    List.getElem?_set_ne (Ne.symm hm)
  have hcases {P : Nat → Task → Prop} (hn : P n { t with ready := some (k (.ok r), b) })
      (hrest : ∀ m t', m ≠ n → s.tasks[m]? = some t' → P m t') :
      ∀ m t', (s.tasks.set n { t with ready := some (k (.ok r), b) })[m]? = some t' → P m t' := by
    intro m t' ht'
    by_cases hm : m = n
    · subst hm
      exact Option.some.inj (hself.symm.trans ht') ▸ hn
    · exact hrest m t' hm ((hother hm).symm.trans ht')
  have hsame : b.owed = t.book.owed ∧ b.cut = t.book.cut ∧ b.locked = t.book.locked := by
    rw [hb]
    cases a <;> first | exact ⟨rfl, rfl, rfl⟩ | cases ha
  have hguarded : b.room ≠ none → b.locked = true := by
    rw [hsame.2.2, hb]
    cases a with
    | countHeld chat => exact fun _ => hallows.1
    | insertHeld chat payload => exact fun _ => hallows.1
    | acquire | byMaxChat _ | uniqueName _ | saveSecret _ _ | upsertBridge _ | add _ | send _ _ =>
        cases ha
    | _ => exact hkept.guarded
  refine ⟨hstored, fun e he hne => ?_, hcases ?_ fun m t' _ => h.lock m t', fun m t' chat =>
    hcases (P := fun _ t' => t'.isOver = false → t'.now.room = some chat →
      (d.held chat).length < cfg.pendingMaxMessages) ?_ ?_ m t', hcases ?_ fun m t' _ => h.tasks m t',
    hbegun, fun r' hr' => ?_⟩
  · rcases hhanded e he with hold | ⟨rfl, hrows⟩
    · refine (h.handed e hold hne).imp_right fun ⟨t', ht', x, b', hx, hrows⟩ =>
        ⟨t', ?_, x, b', hx, hrows⟩
      refine (hother fun hm => ?_).trans ht'
      rw [hm, ht] at ht'
      obtain rfl := Option.some.inj ht'
      exact absurd (hready.symm.trans hx) nofun
    · exact .inr ⟨_, hself, _, b, rfl, hrows⟩
  · exact h.lock n t ht
  · exact fun _ hr => hsees chat hr
  · exact fun m t' hm ht' => hothers m t' chat hm ht'
  · refine ⟨hkept.obeys, hkept.taken, hkept.guarded, ?_, fun hover => ?_, hkept.awaits⟩
    · rintro _ _ ⟨rfl⟩
      exact ⟨⟨a, k, hprog, ha⟩, hb ▸ hobeys (.ok r), hsame.1.trans howed, hsame.2.1.trans hcut,
        hsame.2.2, hguarded⟩
    · exact absurd (hover.symm.trans (over_eq_false hprog)) nofun
  · rcases hdue r' hr' with hold | hdisk
    · rcases h.carried r' hold with hc | ⟨m, t', ht', hc⟩
      · exact (hcarried r' hold hc).imp_right fun hc => ⟨n, _, hself, .inr hc⟩
      · have hm : m ≠ n := by
          rintro rfl
          obtain rfl := Option.some.inj (ht.symm.trans ht')
          rw [howed, Task.now, hready] at hc
          rcases hc with hrow | ⟨-, hrow⟩
          · cases hrow
          · rw [Option.elim_none, hkept.taken] at hrow
            cases hrow
        exact .inr ⟨m, t', (hother hm).trans ht', hc⟩
    · exact .inl (.inl hdisk)

/-- A call that has seen room holds the lock, and nobody else does. -/
theorem alone (h : s.Kept cfg) (ht : s.tasks[n]? = some t) (hover : t.isOver = false)
    (hlocked : t.book.locked = true) {m : Nat} {t' : Task} (hm : m ≠ n)
    (ht' : s.tasks[m]? = some t') (hover' : t'.isOver = false) : t'.now.room = none := by
  by_contra hroom
  have hkept := h.tasks m t' ht'
  have hlocked' : t'.book.locked = true := by
    cases hready : t'.ready with
    | none =>
        rw [Task.now, hready] at hroom
        exact hkept.guarded hroom
    | some xb =>
        rw [Task.now, hready] at hroom
        obtain ⟨-, -, -, -, hsame, hguarded⟩ := hkept.ready xb.1 xb.2 hready
        exact hsame ▸ hguarded hroom
  have hholder := h.lock m t' ht' hover' hlocked'
  exact hm (Option.some.inj (hholder.symm.trans (h.lock n t ht hover hlocked)))

/-- A statement that leaves `pending_inbox` alone. -/
theorem exec_other (h : s.Kept cfg) (ht : s.tasks[n]? = some t) {a : Await}
    {k : (Op.await a).Answer → Prog Outcome} (hprog : t.prog = .ask (.await a) k)
    (ha : a.stored = true) (hready : t.ready = none) {r : a.Reply} {d : Disk}
    (hinbox : d.inbox = s.disk.inbox) (hsequence : d.sequence = s.disk.sequence)
    (hroom : ∀ chat, (t.book.next cfg.pendingMaxMessages (.await a) (.ok r)).room = some chat →
      t.book.room = some chat ∨ (s.disk.held chat).length < cfg.pendingMaxMessages) :
    Kept cfg { s with
      disk := d
      tasks := s.tasks.set n { t with
        ready := some (k (.ok r), t.book.next cfg.pendingMaxMessages (.await a) (.ok r)) } } := by
  have hheld : d.held = s.disk.held := by
    unfold Disk.held
    rw [hinbox]
  have hnow : t.now = t.book := by simp [Task.now, hready]
  have hover := over_eq_false hprog
  obtain ⟨hs, hi, hb, ho, hord, hcap⟩ := h.stored
  refine h.executed ht hprog ha hready rfl (d := d)
    ⟨hsequence ▸ hs, hi, hinbox ▸ hb, hinbox ▸ ho, hord, fun chat => by rw [hheld]; exact hcap chat⟩
    (fun e he => .inl he) (fun m t' chat _ ht' hov hr => ?_) (fun chat hr => ?_)
    (fun r hr => .inl hr) h.begun fun r _ hr => .inl (by rw [hinbox]; exact hr)
  · rw [hheld]
    exact h.room m t' chat ht' hov hr
  · rw [hheld]
    exact (hroom chat hr).elim (fun hr => h.room n t chat ht hover (hnow ▸ hr)) id

/-- A message is buffered. -/
theorem exec_insert (h : s.Kept cfg) (ht : s.tasks[n]? = some t) {chat : Int} {payload : Payload}
    {k : (Op.await (.insertHeld chat payload)).Answer → Prog Outcome}
    (hprog : t.prog = .ask (.await (.insertHeld chat payload)) k) (hready : t.ready = none)
    (now : Int) {due : List Row}
    (hdue : ∀ r ∈ due, r ∈ s.due ∨ r ∈ (s.disk.insertHeld chat payload now).inbox)
    (hbegun : ∀ r ∈ due, r.maxChatId ∈ s.begun) :
    Kept cfg { s with
      disk := s.disk.insertHeld chat payload now
      buffered := s.buffered ++ [⟨s.disk.sequence + 1, chat, payload, now⟩]
      due
      tasks := s.tasks.set n { t with ready := some (k (.ok ()),
        t.book.next cfg.pendingMaxMessages (.await (.insertHeld chat payload)) (.ok ())) } } := by
  obtain ⟨-, ⟨hlocked, hroom, -⟩, -⟩ := h.awaits ht hprog
  have hnow : t.now = t.book := by simp [Task.now, hready]
  have hover := over_eq_false hprog
  obtain ⟨hs, hi, hb, ho, hord, hcap⟩ := h.stored
  let row : Row := ⟨s.disk.sequence + 1, chat, payload, now⟩
  have hseen : (s.disk.held chat).length < cfg.pendingMaxMessages :=
    h.room n t chat ht hover (hnow ▸ hroom)
  have hheld (u : Int) : ((s.disk.insertHeld chat payload now).held u).length =
      (s.disk.held u).length + if chat = u then 1 else 0 := by
    simp only [Disk.held, Disk.insertHeld, List.filter_append, List.length_append]
    split
    · next heq => simp [heq]
    · next hne => simp [hne]
  refine h.executed ht hprog rfl hready rfl (d := s.disk.insertHeld chat payload now)
    ⟨fun r hr => ?_, ?_, hb.append_right _, ?_, fun e he => ?_, fun u => ?_⟩
    (fun e he => .inl he) (fun m t' u hm ht' hov hr => ?_) nofun hdue hbegun fun r _ hr => .inl ?_
  · rcases List.mem_append.mp hr with hr | hr
    · exact Nat.le_succ_of_le (hs r hr)
    · obtain rfl := List.mem_singleton.mp hr
      exact Nat.le_refl _
  · refine List.pairwise_append.mpr ⟨hi, List.pairwise_singleton _ _, fun r hr r' hr' => ?_⟩
    obtain rfl := List.mem_singleton.mp hr'
    exact Nat.lt_succ_of_le (hs r hr)
  · have hswap : (s.disk.inbox ++ [row] ++ s.out.flatMap (·.rows)).Perm
        (s.disk.inbox ++ s.out.flatMap (·.rows) ++ [row]) := by
      rw [List.append_assoc, List.append_assoc]
      exact (List.perm_append_comm).append_left _
    exact hswap.trans (ho.append_right _)
  · exact (hord e he).trans (List.sublist_append_left _ _)
  · rw [hheld]
    split
    · next heq => exact heq ▸ hseen
    · exact hcap u
  · rw [h.alone ht hover hlocked hm ht' hov] at hr
    cases hr
  · exact hr.imp_left (List.mem_append_left _)

/-- Rows are deleted, and they are those that were read. -/
theorem exec_delete (h : s.Kept cfg) (ht : s.tasks[n]? = some t) {a : Await}
    {k : (Op.await a).Answer → Prog Outcome} (hprog : t.prog = .ask (.await a) k)
    (ha : a.stored = true) (hready : t.ready = none) {r : a.Reply}
    (p : Row → Bool) (hread : s.disk.inbox.filter p = t.book.read)
    (hmay : s.mayTake t t.book.read = true)
    (hnext : t.book.next cfg.pendingMaxMessages (.await a) (.ok r) =
      { t.book with taken := t.book.read, gone := t.book.gone ++ t.book.read }) :
    Kept cfg { s with
      disk := { s.disk with inbox := s.disk.inbox.filter (!p ·) }
      out := s.out ++ [⟨n, t.kind.activates, t.book.read, false⟩]
      tasks := s.tasks.set n { t with
        ready := some (k (.ok r),
          { t.book with taken := t.book.read, gone := t.book.gone ++ t.book.read }) } } := by
  have hnow : t.now = t.book := by simp [Task.now, hready]
  have hover := over_eq_false hprog
  obtain ⟨hs, hi, hb, ho, hord, hcap⟩ := h.stored
  have hheld (u : Int) :
      (Disk.held { s.disk with inbox := s.disk.inbox.filter (!p ·) } u).length ≤
        (s.disk.held u).length :=
    (List.filter_sublist.filter _).length_le
  have hsub : (s.disk.inbox.filter (!p ·)).Sublist s.disk.inbox := List.filter_sublist
  refine h.executed ht hprog ha hready hnext.symm
    ⟨hs, hi, hsub.trans hb, ?_, fun e he => ?_, fun u => Nat.le_trans (hheld u) (hcap u)⟩
    (fun e he => ?_) (fun m t' u _ ht' hov hr => Nat.lt_of_le_of_lt (hheld u) (h.room m t' u ht' hov hr))
    (fun u hr => Nat.lt_of_le_of_lt (hheld u) (h.room n t u ht hover (hnow ▸ hr))) (fun r hr => .inl hr)
    h.begun fun r hdue hr => ?_
  · -- What is deleted goes from the disk to the one who deletes it.
    have hparts : (s.disk.inbox.filter (!p ·) ++ t.book.read).Perm s.disk.inbox :=
      hread ▸ List.perm_append_comm.trans (List.filter_append_perm p _)
    rw [List.flatMap_append, List.flatMap_singleton]
    refine .trans ?_ ((hparts.append_right (s.out.flatMap (·.rows))).trans ho)
    rw [List.append_assoc]
    exact List.perm_append_comm.append_left _
  · rcases List.mem_append.mp he with he | he
    · exact hord e he
    · obtain rfl := List.mem_singleton.mp he
      exact hread ▸ List.filter_sublist.trans hb
  · rcases List.mem_append.mp he with he | he
    · exact .inl he
    · obtain rfl := List.mem_singleton.mp he
      exact .inr ⟨rfl, rfl⟩
  · rcases hr with hdisk | hoffered
    · by_cases hp : p r = true
      · have hrow : r ∈ t.book.read := hread ▸ List.mem_filter.mpr ⟨hdisk, hp⟩
        -- A sweep takes nothing that is held for a contact whose activation has begun.
        simp only [mayTake, Bool.or_eq_true, List.all_eq_true, decide_eq_true_eq] at hmay
        rcases hmay with hact | hnobody
        · exact .inr ⟨hact, hrow⟩
        · exact absurd (h.begun r hdue) (hnobody r hrow)
      · exact .inl (.inl (List.mem_filter.mpr ⟨hdisk, by simpa using hp⟩))
    · exact .inl (.inr hoffered)

/-- **A statement is executed**, and deletes what was read if it deletes anything. -/
theorem exec (h : s.Kept cfg) (ht : s.tasks[n]? = some t) {a : Await}
    {k : (Op.await a).Answer → Prog Outcome} (hprog : t.prog = .ask (.await a) k)
    (hready : t.ready = none) {now : Int} {r : a.Reply} {d : Disk}
    (hperform : s.disk.perform now a = some (r, d))
    (hheld : ∀ chat, a = .deleteHeld chat →
      s.disk.held chat = t.book.read ∧ s.mayTake t t.book.read = true)
    (hold : ∀ cutoff, a = .deleteOld cutoff →
      s.disk.old cutoff = t.book.read ∧ s.mayTake t t.book.read = true) :
    Kept cfg { s.wrote n t d a (t.book.next cfg.pendingMaxMessages (.await a) (.ok r)) with
      tasks := s.tasks.set n { t with
        ready := some (k (.ok r), t.book.next cfg.pendingMaxMessages (.await a) (.ok r)) } } := by
  cases a with
  | insertHeld chat payload =>
      obtain ⟨⟨⟩, rfl⟩ := Prod.mk.inj (Option.some.inj hperform)
      have hdrop : (s.disk.insertHeld chat payload now).inbox.drop s.disk.inbox.length =
          [⟨s.disk.sequence + 1, chat, payload, now⟩] := List.drop_left
      simp only [wrote, hdrop]
      refine h.exec_insert ht hprog hready now (fun r hr => ?_) fun r hr => ?_
      · split at hr
        · exact (List.mem_append.mp hr).imp_right (List.mem_append_right _)
        · exact .inl hr
      · split at hr
        · next hbegun =>
            rcases List.mem_append.mp hr with hr | hr
            · exact h.begun r hr
            · obtain rfl := List.mem_singleton.mp hr
              exact hbegun
        · exact h.begun r hr
  | deleteHeld chat =>
      obtain ⟨⟨⟩, rfl⟩ := Prod.mk.inj (Option.some.inj hperform)
      have hall := h.exec_delete ht hprog rfl hready (r := ()) (decide <| ·.maxChatId = chat)
        (hheld chat rfl).1 (hheld chat rfl).2 rfl
      simpa [wrote, Book.next] using hall
  | deleteOld cutoff =>
      obtain ⟨⟨⟩, rfl⟩ := Prod.mk.inj (Option.some.inj hperform)
      have hall := h.exec_delete ht hprog rfl hready (r := ()) (decide <| ·.createdAt < cutoff)
        (hold cutoff rfl).1 (hold cutoff rfl).2 rfl
      simp only [wrote, Book.next, decide_not]
      exact hall
  | countHeld chat =>
      obtain ⟨rfl, rfl⟩ := Prod.mk.inj (Option.some.inj hperform)
      refine h.exec_other ht hprog rfl hready rfl rfl fun u hr => .inr ?_
      simp only [Book.next] at hr
      split at hr
      · next hlt => exact Option.some.inj hr ▸ hlt
      · cases hr
  | getContact chat | upsertContact chat user name | setState chat state | markAsked chat
  | selectHeld chat | selectOld cutoff =>
      obtain ⟨rfl, rfl⟩ := Prod.mk.inj (Option.some.inj hperform)
      exact h.exec_other ht hprog rfl hready rfl rfl fun u hr => .inl hr
  | acquire | byMaxChat chat | uniqueName chat | saveSecret env token | upsertBridge record
  | add bridge | send bridge text => cases hperform

theorem step {s' : State} (h : s.Kept cfg) {e : Event} (hok : s.careful e = true)
    (hst : State.step cfg s e = some s') : s'.Kept cfg := by
  cases stepped hst with
  | activate chat token name =>
      exact (h.call (.activate chat token name) (fun r hr => (h.of_due chat r hr).1)
        fun r hr => (h.of_due chat r hr).2).advance
  | call hkind => exact (h.call _ (fun r hr => .inl hr) h.begun).advance
  | acquire ht hprog hfree => exact (h.acquire ht hprog hfree).advance
  | exec ht hprog hready hperform =>
      simp only [careful, ht, Option.all_some, hprog] at hok
      refine h.exec ht hprog hready hperform ?_ ?_
      · rintro chat rfl
        simpa only [Bool.and_eq_true, decide_eq_true_eq] using hok
      · rintro cutoff rfl
        simpa only [Bool.and_eq_true, decide_eq_true_eq] using hok
  | resume ht hready => exact (h.resume ht hready (pays_of_careful ht hready hok)).advance
  | answer ht hprog hfit => exact (h.answer ht hprog hfit).advance
  | fault ht hprog =>
      simp only [careful, ht, Option.all_some, Bool.and_eq_true, Bool.or_eq_true,
        decide_eq_true_eq] at hok
      exact (h.fault ht hprog _ hok.1 hok.2).advance
  | registry bridge live => exact ⟨h.stored, h.handed, h.lock, h.room, h.tasks, h.begun, h.carried⟩
  | crash =>
      refine h.crash fun t hmem => ?_
      simpa using List.all_eq_true.mp hok t hmem

theorem start (cfg : Config) : Kept cfg (sys cfg).start where
  stored := ⟨nofun, .nil, .slnil, .nil, nofun, fun _ => Nat.zero_le _⟩
  handed := nofun
  lock _ _ ht := by simp [sys] at ht
  room _ _ _ ht := by simp [sys] at ht
  tasks _ _ ht := by simp [sys] at ht
  begun := nofun
  carried := nofun

end Kept

end State

end Telemax.Provisioning.Pending
