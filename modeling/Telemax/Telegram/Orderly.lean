import Mathlib.Data.List.Nodup
import Telemax.Telegram.Runner

/-!
# Telemax.Telegram.Orderly

What the two loops keep to, and from it that a careful run acknowledges nothing
that is not stored and feeds the dispatcher in arrival order.
-/

namespace Telemax.Telegram.Intake

open Script

/-! ## what a loop keeps to -/

/-- Updates are stored one by one before the offset moves; what has been claimed is dealt with
one by one, from the front. -/
def Book.allows (kind : Kind) (b : Book) : Await → Prop
  | .scheduled | .sleep _ | .idle => True
  | .offset | .getUpdates _ => kind = .poll
  | .store updateId _ => kind = .poll ∧ ∃ rest, b.left = updateId :: rest
  | .rememberOffset next => kind = .poll ∧ b.left = [] ∧ b.goal = some next
  | .claimOpen _ => kind = .intake ∧ b.hand = []
  | .feed u => kind = .intake ∧ b.cut = false ∧ ∃ rest, b.hand = u.id :: rest
  | .markDone id | .markFailed id _ =>
      kind = .intake ∧ b.cut = false ∧ ∃ rest, b.hand = id :: rest
  | .release id _ => kind = .intake ∧ ∃ rest, b.hand = id :: rest

/-- The offset moves to what was read, or past a batch that is stored. -/
def Book.moves (b : Book) (next : Int) : Prop :=
  b.seen = some next ∨ b.left = [] ∧ b.goal = some next

def protocol (kind : Kind) : Protocol Op.Answer Book where
  allowed b
    | .await a => b.allows kind a
    | .move next => kind = .poll ∧ b.moves next
    | .stopping | .current => True
  next := Book.next

/-- Between two rounds the intake holds nothing. -/
def Book.Idle (kind : Kind) (b : Book) : Prop := kind = .intake → b.hand = [] ∧ b.cut = false

/-- The rounds of a loop. -/
def Next.Of (kind : Kind) : Next → Prop
  | .ended => True
  | .poll _ => kind = .poll
  | .intake => kind = .intake

def Ends (kind : Kind) (b : Book) (r : Except Fault Next) : Prop :=
  ∀ next, r = .ok next → b.Idle kind ∧ next.Of kind

section

variable {b : Book} {cfg : Config}

theorem obeys_await {kind : Kind} {a : Await} {P : Book → Except Fault a.Reply → Prop}
    (hallowed : b.allows kind a) (hok : ∀ r, P (b.next (.await a) (.ok r)) (.ok r))
    (hfault : ∀ f, P (b.next (.await a) (.error f)) (.error f)) :
    Obeys (protocol kind) b (await a) P := by
  refine ⟨hallowed, fun r => ?_⟩
  cases r with
  | ok r => exact hok r
  | error f => exact hfault f

/-! ### polling -/

theorem poll_idle (b : Book) : b.Idle .poll := nofun

theorem ends_poll {next : Next} (h : next.Of .poll) : Ends .poll b (.ok next) := by
  rintro _ ⟨rfl⟩
  exact ⟨poll_idle b, h⟩

theorem ends_error {kind : Kind} {e : Fault} : Ends kind b (.error e) := nofun

theorem obeys_storeAll {goal : Option Int} (updates : List Update)
    (hleft : b.left = updates.map (·.updateId)) (hgoal : b.goal = goal) :
    Obeys (protocol .poll) b (storeAll updates) fun b r =>
      ∀ u, r = .ok u → b.left = [] ∧ b.goal = goal := by
  induction updates generalizing b with
  | nil => exact fun _ _ => ⟨hleft, hgoal⟩
  | cons u rest ih =>
      simp only [storeAll]
      split
      · exact nofun
      · refine Obeys.bind (P := fun b r => ∀ u, r = .ok u →
            b.left = rest.map (·.updateId) ∧ b.goal = goal)
          (obeys_await ⟨rfl, _, hleft⟩ (fun _ _ _ => ⟨?_, hgoal⟩) fun _ => nofun)
          (fun _ _ _ => nofun) fun b _ h => ih (h () rfl).1 (h () rfl).2
        change b.left.tail = _
        rw [hleft]
        rfl

theorem obeys_take {first : Update} {rest : List Update}
    (hleft : b.left = (first :: rest).map (·.updateId))
    (hgoal : b.goal = some (highest first rest + 1)) :
    Obeys (protocol .poll) b (take first rest) fun _ _ => True := by
  refine Obeys.bind (obeys_storeAll (first :: rest) hleft hgoal) (fun _ _ _ => trivial)
    fun b _ h => ?_
  obtain ⟨hnil, hgoal⟩ := h () rfl
  refine ⟨⟨rfl, .inr ⟨hnil, hgoal⟩⟩, fun _ => ?_⟩
  exact obeys_await ⟨rfl, hnil, hgoal⟩ (fun _ => trivial) fun _ => trivial

theorem obeys_pollRound (backoff : Nat) :
    Obeys (protocol .poll) b (pollRound backoff) (Ends .poll) := by
  refine ⟨trivial, fun stopped => ?_⟩
  cases stopped with
  | true => exact ends_poll trivial
  | false =>
      refine ⟨trivial, fun offset => ?_⟩
      refine Obeys.bind (x := await (.getUpdates offset))
        (P := fun b (r : Except Fault (Except PollError (List Update))) =>
          ∀ first rest, r = .ok (.ok (first :: rest)) →
            b.left = (first :: rest).map (·.updateId) ∧ b.goal = some (highest first rest + 1))
        (obeys_await rfl (fun r first rest hr => ?_) fun _ _ _ => nofun)
        (fun _ _ _ => ends_error) fun b r h => ?_
      · obtain rfl := Except.ok.inj hr
        exact ⟨rfl, rfl⟩
      · have hsleep (seconds : Nat) (next : Next) (hnext : next.Of .poll) : Obeys (protocol .poll) b
            (do
              await (.sleep seconds)
              return next) (Ends .poll) :=
          Obeys.bind (P := fun _ _ => True) (obeys_await trivial (fun _ => trivial) fun _ => trivial)
            (fun _ _ _ => ends_error) fun _ _ _ => ends_poll hnext
        rcases r with (seconds | _ | _) | (_ | ⟨first, rest⟩)
        · exact hsleep _ _ rfl
        · exact ends_poll trivial
        · exact hsleep _ _ rfl
        · exact ends_poll rfl
        · obtain ⟨hleft, hgoal⟩ := h first rest rfl
          refine Obeys.tryCatch (P := fun _ r => ∀ next, r = .ok next → next.Of .poll)
            ((obeys_take hleft hgoal).bind (fun _ _ _ => nofun) ?_) ?_ ?_
          · rintro _ _ - _ ⟨rfl⟩
            rfl
          · exact fun b next hnext => ends_poll (hnext next rfl)
          · rintro b (_ | _) -
            · exact ends_error
            · exact Obeys.bind (P := fun _ _ => True)
                (obeys_await trivial (fun _ => trivial) fun _ => trivial)
                (fun _ _ _ => ends_error) fun _ _ _ => ends_poll rfl

theorem obeys_poll : Obeys (protocol .poll) b (poll cfg) (Ends .poll) := by
  refine Obeys.bind (P := fun _ _ => True)
    (obeys_await trivial (fun _ => trivial) fun _ => trivial) (fun _ _ _ => ends_error)
    fun b _ _ => ?_
  refine Obeys.bind (P := fun _ _ => True) ?_ (fun _ _ _ => ends_error) fun _ _ _ => ends_poll rfl
  unfold resumeOffset
  split
  · trivial
  · refine Obeys.tryCatch (P := fun _ _ => True) ?_ (fun _ _ _ => trivial) fun b e _ => ?_
    · refine Obeys.bind (P := fun b r => ∀ o, r = .ok (some o) → b.seen = some o)
        (obeys_await rfl (fun r o hr => ?_) fun _ _ => nofun) (fun _ _ _ => trivial) fun b r h => ?_
      · exact Except.ok.inj hr
      · cases r with
        | some o => exact ⟨⟨rfl, .inl (h o rfl)⟩, fun _ => trivial⟩
        | none => trivial
    · cases e <;> trivial

/-! ### the intake -/

theorem obeys_feedUpdate {u : InboxUpdate} {rest : List Nat} (hcut : b.cut = false)
    (hhand : b.hand = u.id :: rest) :
    Obeys (protocol .intake) b (feedUpdate u) fun b r =>
      (r = .ok true → b.cut = false ∧ b.hand = u.id :: rest) ∧
      (r = .ok false → b.cut = false ∧ b.hand = rest) := by
  refine Obeys.tryCatch (P := fun b r => b.hand = u.id :: rest ∧ r ≠ .ok false ∧
      ((∀ e, r = .error e → e ≠ .cancelled) → b.cut = false)) ?_ ?_ ?_
  · refine Obeys.bind (P := fun b r => b.hand = u.id :: rest ∧
        ((∀ e, r = .error e → e ≠ .cancelled) → b.cut = false))
      (obeys_await ⟨rfl, hcut, rest, hhand⟩ (fun _ => ⟨hhand, fun _ => hcut⟩) fun f => ⟨hhand, ?_⟩)
      (fun b e h => ⟨h.1, nofun, fun hne => h.2 fun e' he => hne e' (Except.error.inj he ▸ rfl)⟩)
      fun b _ h => ⟨h.1, nofun, fun _ => h.2 nofun⟩
    exact fun hne => decide_eq_false (hne f rfl)
  · rintro b (_ | _) ⟨hhand, hne, hcut⟩
    · exact absurd rfl hne
    · exact ⟨fun _ => ⟨hcut nofun, hhand⟩, nofun⟩
  · rintro b (_ | message) ⟨hhand, -, hcut⟩
    · exact Obeys.bind (P := fun _ _ => True)
        (obeys_await ⟨rfl, rest, hhand⟩ (fun _ => trivial) fun _ => trivial)
        (fun _ _ _ => ⟨nofun, nofun⟩) fun _ _ _ => ⟨nofun, nofun⟩
    · have hcut := hcut (by rintro _ ⟨rfl⟩; nofun)
      have htail : b.hand.tail = rest := by rw [hhand]; rfl
      dsimp only
      split
      · exact Obeys.bind (P := fun b r => ∀ v, r = .ok v → b.cut = false ∧ b.hand = rest)
          (obeys_await ⟨rfl, hcut, rest, hhand⟩ (fun _ _ _ => ⟨hcut, htail⟩) fun _ => nofun)
          (fun _ _ _ => ⟨nofun, nofun⟩) fun _ v h => ⟨nofun, fun _ => h v rfl⟩
      · exact Obeys.bind (P := fun b r => ∀ v, r = .ok v → b.cut = false ∧ b.hand = rest)
          (obeys_await ⟨rfl, rest, hhand⟩ (fun _ _ _ => ⟨hcut, htail⟩) fun _ => nofun)
          (fun _ _ _ => ⟨nofun, nofun⟩) fun _ v h => ⟨nofun, fun _ => h v rfl⟩

/-- One update is dealt with. -/
theorem obeys_handleStored {u : InboxUpdate} {rest : List Nat} (hcut : b.cut = false)
    (hhand : b.hand = u.id :: rest) :
    Obeys (protocol .intake) b (handleStored cfg u) fun b r =>
      ∀ v, r = .ok v → b.cut = false ∧ b.hand = rest := by
  unfold handleStored
  split
  · refine obeys_await ⟨rfl, hcut, rest, hhand⟩ (fun _ _ _ => ⟨hcut, ?_⟩) fun _ => nofun
    change b.hand.tail = rest
    rw [hhand]
    rfl
  · refine Obeys.bind (obeys_feedUpdate hcut hhand) (fun _ _ _ => nofun) fun b handled h => ?_
    cases handled with
    | true =>
        obtain ⟨hcut, hhand⟩ := h.1 rfl
        refine obeys_await ⟨rfl, hcut, rest, hhand⟩ (fun _ _ _ => ⟨hcut, ?_⟩) fun _ => nofun
        change b.hand.tail = rest
        rw [hhand]
        rfl
    | false => exact fun _ _ => h.2 rfl

theorem obeys_handleAll (updates : List InboxUpdate) (hcut : b.cut = false)
    (hhand : b.hand = updates.map (·.id)) :
    Obeys (protocol .intake) b (handleAll cfg updates) fun b r =>
      ∀ v, r = .ok v → b.cut = false ∧ b.hand = [] := by
  induction updates generalizing b with
  | nil => exact fun _ _ => ⟨hcut, hhand⟩
  | cons u rest ih =>
      exact Obeys.bind (obeys_handleStored hcut hhand) (fun _ _ _ => nofun)
        fun b v h => ih (h v rfl).1 (h v rfl).2

theorem obeys_intakeRound (hidle : b.Idle .intake) :
    Obeys (protocol .intake) b (intakeRound cfg) (Ends .intake) := by
  obtain ⟨hhand, hcut⟩ := hidle rfl
  have hends {b : Book} {next : Next} (h : b.cut = false ∧ b.hand = []) (hnext : next.Of .intake) :
      Ends .intake b (.ok next) := by
    rintro _ ⟨rfl⟩
    exact ⟨fun _ => ⟨h.2, h.1⟩, hnext⟩
  refine Obeys.bind (P := fun b r => ∀ v, r = .ok v → b.cut = false ∧ b.hand = []) ?_
    (fun _ _ _ => ends_error) fun b drained h => ⟨trivial, fun stopped => ?_⟩
  · refine Obeys.bind (P := fun b r => ∀ updates, r = .ok updates →
        b.cut = false ∧ b.hand = updates.map (·.id)) ?_ (fun _ _ _ => nofun) fun b updates h => ?_
    · refine Obeys.tryCatch (P := fun b r => match r with
          | .ok updates => b.cut = false ∧ b.hand = updates.map (·.id)
          | .error _ => b.cut = false ∧ b.hand = [])
        (obeys_await ⟨rfl, hhand⟩ (fun _ => ⟨hcut, rfl⟩) fun _ => ⟨hcut, hhand⟩) ?_ ?_
      · rintro b updates h _ ⟨rfl⟩
        exact h
      · rintro b (_ | _) h
        · exact nofun
        · rintro _ ⟨rfl⟩
          exact h
    · obtain ⟨hcut, hhand⟩ := h updates rfl
      exact Obeys.bind (obeys_handleAll updates hcut hhand) (fun _ _ _ => nofun)
        fun b v h _ _ => h v rfl
  · have hidle := h drained rfl
    change Obeys _ _ (if (stopped && !drained) = true then pure Next.ended
      else if drained = true then pure .intake
        else do
          await .idle
          return .intake) _
    split
    · exact hends hidle trivial
    · split
      · exact hends hidle rfl
      · exact Obeys.bind (P := fun b _ => b.cut = false ∧ b.hand = [])
          (obeys_await trivial (fun _ => hidle) fun _ => hidle) (fun _ _ _ => ends_error)
          fun _ _ h => hends h rfl

theorem obeys_program (cfg : Config) (kind : Kind) :
    Obeys (protocol kind) {} (kind.program cfg) (Ends kind) := by
  cases kind with
  | poll => exact obeys_poll
  | intake =>
      refine Obeys.bind (P := fun b _ => b.Idle .intake)
        (obeys_await trivial (fun _ _ => ⟨rfl, rfl⟩) fun _ _ => ⟨rfl, rfl⟩)
        (fun _ _ _ => ends_error) fun b _ h => ?_
      rintro _ ⟨rfl⟩
      exact ⟨h, rfl⟩

theorem obeys_round (cfg : Config) {kind : Kind} {next : Next} (h : b.Idle kind) (hnext : next.Of kind) :
    Obeys (protocol kind) b (next.round cfg) (Ends kind) := by
  cases next with
  | ended =>
      rintro _ ⟨rfl⟩
      exact ⟨h, trivial⟩
  | poll backoff =>
      obtain rfl : kind = .poll := hnext
      exact obeys_pollRound backoff
  | intake =>
      obtain rfl : kind = .intake := hnext
      exact obeys_intakeRound h

/-! ## a task that runs on -/

/-- A task at its next await: the offset is where it was, or where the loop moves it. -/
structure Settled (kind : Kind) (b : Book) (o : Option Int) (r : Prog Next × Book × Option Int) :
    Prop where
  obeys : Obeys (protocol kind) b r.1 (Ends kind)
  book : r.2.1 = b
  offset : r.2.2 = o ∨ kind = .poll ∧ ∃ next, r.2.2 = some next ∧ b.moves next
  awaits : ∀ op k, r.1 = .ask op k → ∃ a, op = .await a

theorem settled {kind : Kind} (stopped : Bool) {x : Prog Next} (o : Option Int)
    (h : Obeys (protocol kind) b x (Ends kind)) :
    Settled kind b o (settle stopped x b o) := by
  induction x generalizing o with
  | done next | fail e => exact ⟨h, rfl, .inl rfl, nofun⟩
  | ask op k ih =>
      cases op with
      | await a =>
          refine ⟨h, rfl, .inl rfl, ?_⟩
          rintro _ _ ⟨rfl⟩
          exact ⟨a, rfl⟩
      | stopping => exact ih _ o (h.2 _)
      | current => exact ih _ o (h.2 _)
      | move next =>
          have hall := ih () (some next) (h.2 ())
          exact ⟨hall.obeys, hall.book, .inr ⟨h.1.1, hall.offset.elim (fun hsame => ⟨next, hsame, h.1.2⟩)
            fun hmoved => hmoved.2⟩, hall.awaits⟩

/-- It goes on with the next round where one ends. -/
theorem settled_runs {kind : Kind} (s : State) {x : Prog Next}
    (h : Obeys (protocol kind) b x (Ends kind)) : Settled kind b s.offset (s.runs cfg x b) := by
  have hfirst := settled s.stopping s.offset h
  simp only [State.runs]
  split
  · next next b' o heq =>
      rw [heq] at hfirst
      obtain rfl : b' = b := hfirst.book
      obtain ⟨hidle, hof⟩ := hfirst.obeys next rfl
      have hsecond := settled s.stopping o (obeys_round cfg hidle hof)
      refine ⟨hsecond.obeys, hsecond.book, ?_, hsecond.awaits⟩
      rcases hsecond.offset with hsame | hmoved
      · exact hfirst.offset.imp hsame.trans fun ⟨hkind, p, hp, hm⟩ => ⟨hkind, p, hsame.trans hp, hm⟩
      · exact .inr hmoved
  · exact hfirst

end

/-! ## the state between two steps -/

/-- What the database answers, and nobody else. -/
def Await.stored : Await → Bool
  | .scheduled | .getUpdates _ | .sleep _ | .feed _ | .idle => false
  | _ => true

/-- The offsets a poll may still set come after no update of these. -/
structure Book.Behind (unstored : Int → Prop) (b : Book) : Prop where
  goal : ∀ g, b.goal = some g → ∀ y, unstored y → y ∈ b.left ∨ g ≤ y
  seen : ∀ o, b.seen = some o → ∀ y, unstored y → o ≤ y

theorem Book.Behind.mono {u v : Int → Prop} {b : Book} (h : b.Behind u) (hsub : ∀ y, v y → u y) :
    b.Behind v :=
  ⟨fun g hg y hy => h.goal g hg y (hsub y hy), fun o ho y hy => h.seen o ho y (hsub y hy)⟩

theorem Book.Behind.moves {u : Int → Prop} {b : Book} (h : b.Behind u) {next : Int}
    (hmoves : b.moves next) {y : Int} (hy : u y) : next ≤ y := by
  rcases hmoves with hseen | ⟨hnil, hgoal⟩
  · exact h.seen next hseen y hy
  · refine (h.goal next hgoal y hy).resolve_left ?_
    rw [hnil]
    exact nofun

/-- What an intake has in hand comes before everything else that is open. -/
structure Book.First (bot : Int) (d : Disk) (b : Book) : Prop where
  increasing : b.hand.Pairwise (· < ·)
  bounded : ∀ x ∈ b.hand, x ≤ d.sequence
  first : ∀ r ∈ d.inbox, r.botId = bot → r.isOpen = true → r.id ∈ b.hand ∨ ∀ x ∈ b.hand, x < r.id

/-- Nothing that is open comes before the first of them. -/
theorem Book.First.openBefore {bot : Int} {d : Disk} {b : Book} (h : b.First bot d) {id : Nat}
    {rest : List Nat} (hhand : b.hand = id :: rest) : d.openBefore bot id = [] := by
  simp only [Disk.openBefore, List.map_eq_nil_iff, List.filter_eq_nil_iff, Bool.and_eq_true,
    decide_eq_true_eq, not_and, Nat.not_lt, and_imp]
  intro r hr hbot hopen
  have hincreasing := h.increasing
  rw [hhand, List.pairwise_cons] at hincreasing
  rcases h.first r hr hbot hopen with hmem | hafter
  · rw [hhand] at hmem
    rcases List.mem_cons.mp hmem with heq | hrest
    · exact Nat.le_of_eq heq.symm
    · exact Nat.le_of_lt (hincreasing.1 _ hrest)
  · exact Nat.le_of_lt (hafter id (hhand ▸ List.mem_cons_self))

/-- Rows change and keep who they are; none is opened but what is in hand. -/
theorem Book.First.map {bot : Int} {d : Disk} {b : Book} (h : b.First bot d) (f : Row → Row)
    (hid : ∀ r, (f r).id = r.id) (hbot : ∀ r, (f r).botId = r.botId)
    (hopen : ∀ r ∈ d.inbox, (f r).isOpen = true → r.isOpen = true ∨ r.id ∈ b.hand) :
    b.First bot { d with inbox := d.inbox.map f } where
  increasing := h.increasing
  bounded := h.bounded
  first r hr hb ho := by
    obtain ⟨r, hmem, rfl⟩ := List.mem_map.mp hr
    rw [hbot] at hb
    rw [hid]
    exact (hopen r hmem ho).elim (fun ho => h.first r hmem hb ho) .inl

/-- An update is stored after all that are there. -/
theorem Book.First.store {bot : Int} {d : Disk} {b : Book} (h : b.First bot d) (bot' y : Int)
    (payload : String) : b.First bot (d.store bot' y payload) := by
  unfold Disk.store
  split
  · exact h
  · refine ⟨h.increasing, fun x hx => Nat.le_succ_of_le (h.bounded x hx), fun r hr hb ho => ?_⟩
    rcases List.mem_append.mp hr with hr | hr
    · exact h.first r hr hb ho
    · obtain rfl := List.mem_singleton.mp hr
      exact .inr fun x hx => Nat.lt_succ_of_le (h.bounded x hx)

structure Task.Kept (t : Task) : Prop where
  obeys : Obeys (protocol t.kind) t.book t.prog (Ends t.kind)
  ready : ∀ x b, t.ready = some (x, b) →
    (∃ a k, t.prog = .ask (.await a) k ∧ a.stored = true) ∧
      Obeys (protocol t.kind) b x (Ends t.kind)
  awaits : ∀ op k, t.prog = .ask op k → ∃ a, op = .await a

/-- What the books of a task say is so. -/
def Task.Holds (bot : Int) (unstored : Int → Prop) (d : Disk) (kind : Kind) (b : Book) : Prop :=
  match kind with
  | .poll => b.Behind unstored
  | .intake => b.cut = false → b.First bot d

namespace State

variable {cfg : Config} {s : State} {n : Nat} {t : Task}

/-- Fetched, and not in `telegram_inbox`. -/
def Unstored (bot : Int) (fetched : List Int) (d : Disk) (y : Int) : Prop :=
  y ∈ fetched ∧ d.stored bot y = false

structure Kept (cfg : Config) (s : State) : Prop where
  increasing : s.disk.inbox.Pairwise (·.id < ·.id)
  bounded : ∀ r ∈ s.disk.inbox, r.id ≤ s.disk.sequence
  offset : ∀ y, Unstored cfg.botId s.fetched s.disk y → ∀ o, s.offset = some o → o ≤ y
  stored : ∀ y, Unstored cfg.botId s.fetched s.disk y →
    ∀ o, s.disk.offsets cfg.botId = some o → o ≤ y
  persisted : s.disk.offsets cfg.botId = s.persisted.head? ∧ s.persisted.Pairwise (· ≥ ·)
  fed : ∀ f ∈ s.fed, f.before = []
  single : ∀ (m n : Nat) (t t' : Task), s.tasks[m]? = some t → s.tasks[n]? = some t' →
    t.isOver = false → t'.isOver = false → t.kind = t'.kind → m = n
  tasks : ∀ (n : Nat) (t : Task), s.tasks[n]? = some t → t.Kept
  holds : ∀ (n : Nat) (t : Task), s.tasks[n]? = some t → t.isOver = false →
    Task.Holds cfg.botId (Unstored cfg.botId s.fetched s.disk) s.disk t.kind t.book ∧
      ∀ x b, t.ready = some (x, b) →
        Task.Holds cfg.botId (Unstored cfg.botId s.fetched s.disk) s.disk t.kind b

namespace Kept

/-- **A task goes on** to its next await; what was fetched meanwhile is in its book. -/
theorem advance (h : s.Kept cfg) (ht : s.tasks[n]? = some t) (hover : t.isOver = false)
    (fetched : List Int) {x : Prog Next} {b : Book}
    (hobeys : Obeys (protocol t.kind) b x (Ends t.kind))
    (hholds : Task.Holds cfg.botId (Unstored cfg.botId fetched s.disk) s.disk t.kind b)
    (hothers : ∀ (m : Nat) (t' : Task), m ≠ n → s.tasks[m]? = some t' → t'.isOver = false →
      t'.kind = .poll → fetched = s.fetched)
    (hoffset : ∀ y, Unstored cfg.botId fetched s.disk y → ∀ o, s.offset = some o → o ≤ y)
    (hstored : ∀ y, Unstored cfg.botId fetched s.disk y →
      ∀ o, s.disk.offsets cfg.botId = some o → o ≤ y) :
    Kept cfg ({ s with fetched }.advance cfg n t x b) := by
  have hsettled : Settled t.kind b s.offset (State.runs cfg { s with fetched } x b) :=
    settled_runs _ hobeys
  have hlt := (List.getElem?_eq_some_iff.mp ht).1
  let t' : Task := { t with
    prog := (State.runs cfg { s with fetched } x b).1
    book := (State.runs cfg { s with fetched } x b).2.1, ready := none }
  have hself : (s.tasks.set n t')[n]? = some t' := List.getElem?_set_self hlt
  have hother {m : Nat} (hm : m ≠ n) : (s.tasks.set n t')[m]? = s.tasks[m]? :=
    List.getElem?_set_ne (Ne.symm hm)
  have hbook : t'.book = b := hsettled.book
  have hcases {P : Nat → Task → Prop} (hn : P n t')
      (hrest : ∀ m u, m ≠ n → s.tasks[m]? = some u → P m u) :
      ∀ m u, (s.tasks.set n t')[m]? = some u → P m u := by
    intro m u hu
    by_cases hm : m = n
    · subst hm
      exact Option.some.inj (hself.symm.trans hu) ▸ hn
    · exact hrest m u hm ((hother hm).symm.trans hu)
  refine ⟨h.increasing, h.bounded, fun y hy o ho => ?_, hstored, h.persisted, fun f hf => ?_,
    fun m m' u u' hu hu' hov hov' hkind => ?_, hcases ⟨hbook ▸ hsettled.obeys, nofun,
      hsettled.awaits⟩ fun m u _ => h.tasks m u,
    hcases (fun _ => ⟨hbook ▸ hholds, nofun⟩) fun m u hm hu hov => ?_⟩
  · rcases hsettled.offset with hsame | ⟨hkind, next, hnext, hmoves⟩
    · exact hoffset y hy o (hsame.symm.trans ho)
    · obtain rfl := Option.some.inj (hnext.symm.trans ho)
      rw [hkind] at hholds
      exact Book.Behind.moves hholds hmoves hy
  · rcases List.mem_append.mp hf with hnew | hold
    · simp only [State.feeds] at hnew
      split at hnew
      · next u k hprog =>
          obtain rfl := List.mem_singleton.mp hnew
          have hall := hsettled.obeys
          rw [hprog] at hall
          obtain ⟨hkind, hcut, rest, hhand⟩ := hall.1
          rw [hkind] at hholds
          exact (hholds hcut).openBefore hhand
      · cases hnew
    · exact h.fed f hold
  · -- There is no other task of its kind.
    have hback {m : Nat} {u : Task} (hu : (s.tasks.set n t')[m]? = some u) (hov : u.isOver = false) :
        ∃ v, s.tasks[m]? = some v ∧ v.isOver = false ∧ v.kind = u.kind := by
      by_cases hm : m = n
      · subst hm
        obtain rfl := Option.some.inj (hself.symm.trans hu)
        exact ⟨t, ht, hover, rfl⟩
      · exact ⟨u, (hother hm).symm.trans hu, hov, rfl⟩
    obtain ⟨v, hv, hvov, hvk⟩ := hback hu hov
    obtain ⟨v', hv', hvov', hvk'⟩ := hback hu' hov'
    exact h.single m m' v v' hv hv' hvov hvov' (hvk.trans (hkind.trans hvk'.symm))
  · have hall := h.holds m u hu hov
    cases hk : u.kind with
    | intake => rwa [hk] at hall
    | poll =>
        rw [hk] at hall
        change Task.Holds cfg.botId (Unstored cfg.botId fetched s.disk) s.disk .poll u.book ∧ _
        rwa [hothers m u hm hu hov hk]

theorem awaits (h : s.Kept cfg) (ht : s.tasks[n]? = some t) {a : Await}
    {k : (Op.await a).Answer → Prog Next} (hprog : t.prog = .ask (.await a) k) :
    t.isOver = false ∧ t.book.allows t.kind a ∧
      ∀ r, Obeys (protocol t.kind) (t.book.next (.await a) r) (k r) (Ends t.kind) := by
  have hobeys := (h.tasks n t ht).obeys
  rw [hprog] at hobeys
  exact ⟨by simp [Task.isOver, hprog], hobeys⟩

/-- A statement is executed: what it leaves, and what the task will go on with. -/
theorem executed (h : s.Kept cfg) (ht : s.tasks[n]? = some t) {a : Await}
    {k : (Op.await a).Answer → Prog Next} (hprog : t.prog = .ask (.await a) k)
    (ha : a.stored = true) {r : a.Reply} {d : Disk} {persisted : List Int}
    (hincreasing : d.inbox.Pairwise (·.id < ·.id)) (hbounded : ∀ r ∈ d.inbox, r.id ≤ d.sequence)
    (hunstored : ∀ y, d.stored cfg.botId y = false → s.disk.stored cfg.botId y = false)
    (hstored : ∀ y, Unstored cfg.botId s.fetched d y →
      ∀ o, d.offsets cfg.botId = some o → o ≤ y)
    (hpersisted : d.offsets cfg.botId = persisted.head? ∧ persisted.Pairwise (· ≥ ·))
    (hmine : Task.Holds cfg.botId (Unstored cfg.botId s.fetched d) d t.kind t.book ∧
      Task.Holds cfg.botId (Unstored cfg.botId s.fetched d) d t.kind (t.book.next (.await a) (.ok r)))
    (hothers : t.kind = .poll → ∀ b : Book, b.First cfg.botId s.disk → b.First cfg.botId d) :
    Kept cfg { s with
      disk := d, persisted
      tasks := s.tasks.set n { t with ready := some (k (.ok r), t.book.next (.await a) (.ok r)) } } := by
  obtain ⟨hover, -, hobeys⟩ := h.awaits ht hprog
  have hsub (y : Int) (hy : Unstored cfg.botId s.fetched d y) :
      Unstored cfg.botId s.fetched s.disk y := ⟨hy.1, hunstored y hy.2⟩
  let t' : Task := { t with ready := some (k (.ok r), t.book.next (.await a) (.ok r)) }
  have hself : (s.tasks.set n t')[n]? = some t' :=
    List.getElem?_set_self (List.getElem?_eq_some_iff.mp ht).1
  have hother {m : Nat} (hm : m ≠ n) : (s.tasks.set n t')[m]? = s.tasks[m]? :=
    List.getElem?_set_ne (Ne.symm hm)
  have hcases {P : Nat → Task → Prop} (hn : P n t')
      (hrest : ∀ m u, m ≠ n → s.tasks[m]? = some u → P m u) :
      ∀ m u, (s.tasks.set n t')[m]? = some u → P m u := by
    intro m u hu
    by_cases hm : m = n
    · subst hm
      exact Option.some.inj (hself.symm.trans hu) ▸ hn
    · exact hrest m u hm ((hother hm).symm.trans hu)
  have hkept := h.tasks n t ht
  refine ⟨hincreasing, hbounded, fun y hy => h.offset y (hsub y hy), hstored, hpersisted, h.fed,
    fun m m' u u' hu hu' hov hov' hkind => ?_, hcases ⟨hkept.obeys, ?_, hkept.awaits⟩
      fun m u _ => h.tasks m u, hcases (fun _ => ⟨hmine.1, ?_⟩) fun m u hm hu hov => ?_⟩
  · have hback {m : Nat} {u : Task} (hu : (s.tasks.set n t')[m]? = some u) (hov : u.isOver = false) :
        ∃ v, s.tasks[m]? = some v ∧ v.isOver = false ∧ v.kind = u.kind := by
      by_cases hm : m = n
      · subst hm
        obtain rfl := Option.some.inj (hself.symm.trans hu)
        exact ⟨t, ht, hover, rfl⟩
      · exact ⟨u, (hother hm).symm.trans hu, hov, rfl⟩
    obtain ⟨v, hv, hvov, hvk⟩ := hback hu hov
    obtain ⟨v', hv', hvov', hvk'⟩ := hback hu' hov'
    exact h.single m m' v v' hv hv' hvov hvov' (hvk.trans (hkind.trans hvk'.symm))
  · rintro _ _ ⟨rfl⟩
    exact ⟨⟨a, k, hprog, ha⟩, hobeys _⟩
  · rintro _ _ ⟨rfl⟩
    exact hmine.2
  · have hmoved (b : Book)
        (hb : Task.Holds cfg.botId (Unstored cfg.botId s.fetched s.disk) s.disk u.kind b) :
        Task.Holds cfg.botId (Unstored cfg.botId s.fetched d) d u.kind b := by
      cases hk : u.kind with
      | poll =>
          rw [hk] at hb
          exact Book.Behind.mono hb hsub
      | intake =>
          rw [hk] at hb
          -- The other intake would be the one that runs.
          have hpoll : t.kind = .poll := by
            cases hkind : t.kind with
            | poll => rfl
            | intake => exact absurd (h.single m n u t hu ht hov hover (hk.trans hkind.symm)) hm
          exact fun hcut => hothers hpoll b (hb hcut)
    obtain ⟨hnow, hready⟩ := h.holds m u hu hov
    exact ⟨hmoved _ hnow, fun x b hx => hmoved b (hready x b hx)⟩

/-- A row is marked, by the intake that has it in hand. -/
theorem exec_mark (h : s.Kept cfg) (ht : s.tasks[n]? = some t) {a : Await}
    {k : (Op.await a).Answer → Prog Next} (hprog : t.prog = .ask (.await a) k)
    (ha : a.stored = true) {r : a.Reply} (hkind : t.kind = .intake) {id : Nat} {rest : List Nat}
    (hhand : t.book.hand = id :: rest) (change : Row → Row)
    (hnext : t.book.next (.await a) (.ok r) = { t.book with hand := rest })
    (hlast : (∀ r, (change r).isOpen = false) ∨ t.book.cut = true ∨ rest = []) :
    Kept cfg { s with
      disk := s.disk.mark id change
      tasks := s.tasks.set n { t with ready := some (k (.ok r), t.book.next (.await a) (.ok r)) } } := by
  obtain ⟨hover, -, -⟩ := h.awaits ht hprog
  have hbook := (h.holds n t ht hover).1
  rw [hkind] at hbook
  have hsame : (s.disk.mark id change).stored = s.disk.stored := by
    funext bot y
    simp only [Disk.stored, Disk.mark, List.any_map, Function.comp_def]
    congr 1
    funext r
    split <;> rfl
  have hid (r : Row) : (if r.id = id then
      { change r with id := r.id, botId := r.botId, updateId := r.updateId } else r).id = r.id := by
    split <;> rfl
  have hbot (r : Row) : (if r.id = id then
      { change r with id := r.id, botId := r.botId, updateId := r.updateId } else r).botId =
        r.botId := by
    split <;> rfl
  have hfirst (hcut : t.book.cut = false) : t.book.First cfg.botId (s.disk.mark id change) := by
    refine (hbook hcut).map _ hid hbot fun r _ ho => ?_
    by_cases hr : r.id = id
    · exact .inr (by rw [hhand, hr]; exact List.mem_cons_self)
    · rw [if_neg hr] at ho
      exact .inl ho
  refine h.executed ht hprog ha (d := s.disk.mark id change) ?_ (fun r hr => ?_)
    (fun y hy => by rwa [hsame] at hy) (fun y hy => h.stored y ?_) h.persisted ?_
    (fun hpoll => absurd (hkind.symm.trans hpoll) nofun)
  · exact (List.pairwise_map.mpr (h.increasing.imp fun hlt => by rwa [hid, hid]))
  · obtain ⟨r, hmem, rfl⟩ := List.mem_map.mp hr
    rw [hid]
    exact h.bounded r hmem
  · exact ⟨hy.1, hsame ▸ hy.2⟩
  · rw [hnext, hkind]
    refine ⟨hfirst, fun hcut => ?_⟩
    have hall := hfirst hcut
    have hincreasing := hall.increasing
    rw [hhand, List.pairwise_cons] at hincreasing
    refine ⟨hincreasing.2, fun x hx => hall.bounded x (hhand ▸ List.mem_cons_of_mem _ hx),
      fun r hr hb ho => ?_⟩
    rcases hlast with hclosed | hcut' | rfl
    · rcases hall.first r hr hb ho with hmem | hafter
      · rw [hhand] at hmem
        refine .inl ((List.mem_cons.mp hmem).resolve_left fun heq => ?_)
        obtain ⟨r', hr', rfl⟩ := List.mem_map.mp hr
        rw [hid] at heq
        rw [if_pos heq] at ho
        exact absurd ((hclosed r').symm.trans ho) nofun
      · exact .inr fun x hx => hafter x (hhand ▸ List.mem_cons_of_mem _ hx)
    · exact absurd (hcut.symm.trans hcut') nofun
    · exact .inr nofun

/-- The stored offset is read. -/
theorem exec_offset (h : s.Kept cfg) (ht : s.tasks[n]? = some t)
    {k : (Op.await .offset).Answer → Prog Next} (hprog : t.prog = .ask (.await .offset) k) :
    Kept cfg { s with tasks := s.tasks.set n { t with ready := some (k
      (.ok (s.disk.offsets cfg.botId)), t.book.next (.await .offset)
        (.ok (s.disk.offsets cfg.botId))) } } := by
  obtain ⟨hover, hallows, -⟩ := h.awaits ht hprog
  have hkind : t.kind = .poll := hallows
  have hbook := (h.holds n t ht hover).1
  refine h.executed ht hprog rfl h.increasing h.bounded (fun _ hy => hy) h.stored h.persisted
    ⟨hbook, ?_⟩ fun _ _ hb => hb
  rw [hkind] at hbook ⊢
  exact ⟨hbook.goal, fun o ho y hy => h.stored y hy o ho⟩

theorem stored_store {d : Disk} {bot bot' x y : Int} {payload : String}
    (h : d.stored bot y = true) : (d.store bot' x payload).stored bot y = true := by
  unfold Disk.store
  split
  · exact h
  · simp only [Disk.stored, List.any_append, Bool.or_eq_true]
    exact .inl h

theorem stored_self (d : Disk) (bot x : Int) (payload : String) :
    (d.store bot x payload).stored bot x = true := by
  unfold Disk.store
  split
  · assumption
  · simp [Disk.stored]

/-- Storing keeps the rows in the order of their ids. -/
theorem ordered_store (h : s.Kept cfg) (bot x : Int) (payload : String) :
    (s.disk.store bot x payload).inbox.Pairwise (·.id < ·.id) ∧
      ∀ r ∈ (s.disk.store bot x payload).inbox, r.id ≤ (s.disk.store bot x payload).sequence := by
  unfold Disk.store
  split
  · exact ⟨h.increasing, h.bounded⟩
  · refine ⟨List.pairwise_append.mpr ⟨h.increasing, List.pairwise_singleton _ _,
      fun r hr r' hr' => ?_⟩, fun r hr => ?_⟩
    · obtain rfl := List.mem_singleton.mp hr'
      exact Nat.lt_succ_of_le (h.bounded r hr)
    · rcases List.mem_append.mp hr with hr | hr
      · exact Nat.le_succ_of_le (h.bounded r hr)
      · obtain rfl := List.mem_singleton.mp hr
        exact Nat.le_refl _

theorem offsets_store (d : Disk) (bot x : Int) (payload : String) :
    (d.store bot x payload).offsets = d.offsets := by
  unfold Disk.store
  split <;> rfl

/-- An update is stored. -/
theorem exec_store (h : s.Kept cfg) (ht : s.tasks[n]? = some t) {x : Int} {payload : String}
    {k : (Op.await (.store x payload)).Answer → Prog Next}
    (hprog : t.prog = .ask (.await (.store x payload)) k) :
    Kept cfg { s with
      disk := s.disk.store cfg.botId x payload
      tasks := s.tasks.set n { t with ready := some (k (.ok ()),
        t.book.next (.await (.store x payload)) (.ok ())) } } := by
  obtain ⟨hover, ⟨hkind, rest, hleft⟩, -⟩ := h.awaits ht hprog
  obtain ⟨hincreasing, hbounded⟩ := h.ordered_store cfg.botId x payload
  have hmore (y : Int) (hy : (s.disk.store cfg.botId x payload).stored cfg.botId y = false) :
      s.disk.stored cfg.botId y = false := by
    by_contra hno
    exact absurd ((stored_store (by simpa using hno)).symm.trans hy) nofun
  have hbook := (h.holds n t ht hover).1
  rw [hkind] at hbook
  have hmoved : t.book.Behind
      (Unstored cfg.botId s.fetched (s.disk.store cfg.botId x payload)) :=
    Book.Behind.mono hbook fun y hy => ⟨hy.1, hmore y hy.2⟩
  refine h.executed ht hprog rfl hincreasing hbounded hmore (fun y hy o ho => ?_) ?_ ?_
    fun _ b hb => hb.store _ _ _
  · rw [offsets_store] at ho
    exact h.stored y ⟨hy.1, hmore y hy.2⟩ o ho
  · rw [offsets_store]
    exact h.persisted
  · rw [hkind]
    refine ⟨hmoved, fun g hg y hy => ?_, hmoved.seen⟩
    refine (hmoved.goal g hg y hy).imp_left fun hmem => ?_
    change y ∈ t.book.left.tail
    rw [hleft] at hmem ⊢
    refine (List.mem_cons.mp hmem).resolve_left ?_
    rintro rfl
    exact absurd ((stored_self s.disk cfg.botId y payload).symm.trans hy.2) nofun

/-- The offset is written down, behind all that is not stored. -/
theorem exec_rememberOffset (h : s.Kept cfg) (ht : s.tasks[n]? = some t) {next : Int}
    {k : (Op.await (.rememberOffset next)).Answer → Prog Next}
    (hprog : t.prog = .ask (.await (.rememberOffset next)) k) :
    Kept cfg { s with
      disk := s.disk.rememberOffset cfg.botId next
      persisted := ((s.disk.rememberOffset cfg.botId next).offsets cfg.botId).toList ++ s.persisted
      tasks := s.tasks.set n { t with ready := some (k (.ok ()),
        t.book.next (.await (.rememberOffset next)) (.ok ())) } } := by
  obtain ⟨hover, ⟨hkind, hnil, hgoal⟩, -⟩ := h.awaits ht hprog
  have hbook := (h.holds n t ht hover).1
  have hnext (y : Int) (hy : Unstored cfg.botId s.fetched s.disk y) : next ≤ y := by
    rw [hkind] at hbook
    exact Book.Behind.moves hbook (.inr ⟨hnil, hgoal⟩) hy
  obtain ⟨hhead, hsorted⟩ := h.persisted
  have hoffset : (s.disk.rememberOffset cfg.botId next).offsets cfg.botId =
      some _ := Function.update_self _ _ _
  refine h.executed ht hprog rfl h.increasing h.bounded (fun _ hy => hy) (fun y hy o ho => ?_)
    ⟨?_, ?_⟩ ?_ fun _ _ hb => ⟨hb.increasing, hb.bounded, hb.first⟩
  · obtain rfl := Option.some.inj (hoffset.symm.trans ho)
    split
    · next old hold => exact Int.max_le.mpr ⟨hnext y hy, h.stored y hy old hold⟩
    · exact hnext y hy
  · rw [hoffset]
    rfl
  · rw [hoffset]
    refine List.pairwise_cons.mpr ⟨fun o ho => ?_, hsorted⟩
    cases hpersisted : s.persisted with
    | nil =>
        rw [hpersisted] at ho
        cases ho
    | cons old older =>
        rw [hpersisted] at hhead hsorted ho
        rw [hhead]
        dsimp only [List.head?_cons]
        have hle : o ≤ old := by
          rcases List.mem_cons.mp ho with rfl | ho
          · exact Int.le_refl _
          · exact (List.pairwise_cons.mp hsorted).1 o ho
        exact Int.le_trans hle (Int.le_max_right _ _)
  · rw [hkind] at hbook ⊢
    exact ⟨⟨hbook.goal, hbook.seen⟩, hbook.goal, hbook.seen⟩

/-- Open updates are claimed, and what stays behind comes after them. -/
theorem exec_claimOpen (h : s.Kept cfg) (ht : s.tasks[n]? = some t) {limit : Nat} {now : Int}
    {k : (Op.await (.claimOpen limit)).Answer → Prog Next}
    (hprog : t.prog = .ask (.await (.claimOpen limit)) k) (hturn : s.inTurn cfg now limit = true) :
    Kept cfg { s with
      disk := (s.disk.claimOpen cfg.botId now limit).2
      tasks := s.tasks.set n { t with
        ready := some (k (.ok (s.disk.claimOpen cfg.botId now limit).1),
          t.book.next (.await (.claimOpen limit))
            (.ok (s.disk.claimOpen cfg.botId now limit).1)) } } := by
  obtain ⟨hover, ⟨hkind, hhand⟩, -⟩ := h.awaits ht hprog
  let rows := (s.disk.claimable cfg.botId now).take limit
  let lease (r : Row) : Row := if r.id ∈ rows.map (·.id) then
    { r with state := .leased, leaseExpiresAt := some (now + DEFAULT_LEASE_MS) } else r
  have hid (r : Row) : (lease r).id = r.id := by
    simp only [lease]
    split <;> rfl
  have hbot (r : Row) : (lease r).botId = r.botId := by
    simp only [lease]
    split <;> rfl
  have hupdate (r : Row) : (lease r).updateId = r.updateId := by
    simp only [lease]
    split <;> rfl
  have hsub : rows.Sublist s.disk.inbox := (List.take_sublist _ _).trans List.filter_sublist
  have hids : (s.disk.claimOpen cfg.botId now limit).1.map (·.id) = rows.map (·.id) := by
    simp only [Disk.claimOpen, List.map_map]
    rfl
  have hsame : (s.disk.claimOpen cfg.botId now limit).2.stored = s.disk.stored := by
    funext bot y
    change (s.disk.inbox.map lease).any _ = s.disk.inbox.any _
    simp only [List.any_map, Function.comp_def, hbot, hupdate]
  -- What is claimed was open, and stays so.
  have hopen (r : Row) (hr : r ∈ s.disk.inbox) (ho : (lease r).isOpen = true) : r.isOpen = true := by
    by_cases hmem : r.id ∈ rows.map (·.id)
    · obtain ⟨r', hr', heq⟩ := List.mem_map.mp hmem
      have hnodup : (s.disk.inbox.map (·.id)).Nodup :=
        List.pairwise_map.mpr (h.increasing.imp fun hlt => Nat.ne_of_lt hlt)
      obtain rfl : r' = r := List.inj_on_of_nodup_map hnodup (hsub.subset hr') hr heq
      have hc := (List.mem_filter.mp ((List.take_sublist _ _).subset hr')).2
      simp only [Bool.and_eq_true, Bool.or_eq_true, decide_eq_true_eq] at hc
      rcases hc.2 with hs | hs
      · simp [Row.isOpen, hs]
      · simp [Row.isOpen, hs.1]
    · simpa only [lease, if_neg hmem] using ho
  refine h.executed ht hprog rfl (d := (s.disk.claimOpen cfg.botId now limit).2) ?_ (fun r hr => ?_)
    (fun y hy => by rwa [hsame] at hy) (fun y hy => h.stored y ⟨hy.1, hsame ▸ hy.2⟩) h.persisted ?_
    (fun hpoll => absurd (hkind.symm.trans hpoll) nofun)
  · exact List.pairwise_map.mpr (h.increasing.imp fun hlt => by rwa [hid, hid])
  · obtain ⟨r, hmem, rfl⟩ := List.mem_map.mp hr
    rw [hid]
    exact h.bounded r hmem
  · rw [hkind]
    refine ⟨fun _ => ⟨by rw [hhand]; exact .nil, by rw [hhand]; exact nofun,
      fun r _ _ _ => .inr (by rw [hhand]; exact nofun)⟩, fun _ => ?_⟩
    change Book.First cfg.botId _ { t.book with hand := (s.disk.claimOpen cfg.botId now limit).1.map (·.id) }
    rw [hids]
    refine ⟨List.pairwise_map.mpr (h.increasing.sublist hsub), fun x hx => ?_, fun r hr hb ho => ?_⟩
    · obtain ⟨r, hr, rfl⟩ := List.mem_map.mp hx
      exact h.bounded r (hsub.subset hr)
    · obtain ⟨r, hmem, rfl⟩ := List.mem_map.mp hr
      have hturn' := List.all_eq_true.mp hturn r hmem
      rw [hids] at hturn'
      rw [hbot] at hb
      simp only [hb, hopen r hmem ho, ne_eq, not_true_eq_false, decide_false, Bool.not_true,
        Bool.or_self, Bool.false_or, Bool.or_eq_true, decide_eq_true_eq, List.all_eq_true] at hturn'
      rw [hid]
      exact hturn'

/-- **A statement is executed**: what is claimed is claimed in turn, and an update that is put
back is the last of its batch. -/
theorem exec (h : s.Kept cfg) (ht : s.tasks[n]? = some t) {a : Await}
    {k : (Op.await a).Answer → Prog Next} (hprog : t.prog = .ask (.await a) k) {now : Int}
    {r : a.Reply} {d : Disk} (hperform : s.disk.perform cfg now a = some (r, d))
    (hturn : ∀ limit, a = .claimOpen limit → s.inTurn cfg now limit = true)
    (hlast : ∀ id error, a = .release id error → t.book.cut = true ∨ t.book.hand.length ≤ 1) :
    Kept cfg { s with
      disk := d
      persisted := d.persists cfg a ++ s.persisted
      tasks := s.tasks.set n { t with ready := some (k (.ok r), t.book.next (.await a) (.ok r)) } } := by
  obtain ⟨-, hallows, -⟩ := h.awaits ht hprog
  cases a with
  | offset =>
      obtain ⟨rfl, rfl⟩ := Prod.mk.inj (Option.some.inj hperform)
      exact h.exec_offset ht hprog
  | store x payload =>
      obtain ⟨⟨⟩, rfl⟩ := Prod.mk.inj (Option.some.inj hperform)
      exact h.exec_store ht hprog
  | rememberOffset next =>
      obtain ⟨⟨⟩, rfl⟩ := Prod.mk.inj (Option.some.inj hperform)
      exact h.exec_rememberOffset ht hprog
  | claimOpen limit =>
      obtain ⟨rfl, rfl⟩ := Prod.mk.inj (Option.some.inj hperform)
      exact h.exec_claimOpen ht hprog (hturn limit rfl)
  | markDone id | markFailed id error =>
      obtain ⟨⟨⟩, rfl⟩ := Prod.mk.inj (Option.some.inj hperform)
      obtain ⟨hkind, -, rest, hhand⟩ := hallows
      exact h.exec_mark ht hprog rfl hkind hhand _ (by simp [Book.next, hhand]) (.inl fun _ => rfl)
  | release id error =>
      obtain ⟨⟨⟩, rfl⟩ := Prod.mk.inj (Option.some.inj hperform)
      obtain ⟨hkind, rest, hhand⟩ := hallows
      refine h.exec_mark ht hprog rfl hkind hhand _ (by simp [Book.next, hhand]) (.inr ?_)
      refine (hlast id error rfl).imp_right fun hlen => ?_
      rw [hhand, List.length_cons] at hlen
      exact List.length_eq_zero_iff.mp (by omega)
  | scheduled | getUpdates o | sleep seconds | feed u | idle => cases hperform

/-- The result of a statement comes back. -/
theorem resume (h : s.Kept cfg) (ht : s.tasks[n]? = some t) {x : Prog Next} {b : Book}
    (hready : t.ready = some (x, b)) : Kept cfg (s.advance cfg n t x b) := by
  obtain ⟨⟨a, k, hprog, -⟩, hobeys⟩ := (h.tasks n t ht).ready x b hready
  have hover := (h.awaits ht hprog).1
  exact h.advance ht hover s.fetched hobeys ((h.holds n t ht hover).2 x b hready)
    (fun _ _ _ _ _ _ => rfl) h.offset h.stored

/-- Something is raised. -/
theorem fault (h : s.Kept cfg) (ht : s.tasks[n]? = some t) {a : Await}
    {k : (Op.await a).Answer → Prog Next} (hprog : t.prog = .ask (.await a) k) (f : Fault) :
    Kept cfg (s.advance cfg n t (k (.error f)) (t.book.next (.await a) (.error f))) := by
  obtain ⟨hover, hallows, hobeys⟩ := h.awaits ht hprog
  refine h.advance ht hover s.fetched (hobeys _) ?_ (fun _ _ _ _ _ _ => rfl) h.offset
    h.stored
  have hbook := (h.holds n t ht hover).1
  cases hkind : t.kind with
  | poll =>
      rw [hkind] at hbook
      cases a with
      | getUpdates o => exact ⟨hbook.goal, nofun⟩
      | _ => exact ⟨hbook.goal, hbook.seen⟩
  | intake =>
      rw [hkind] at hbook
      intro hcut
      have hfirst : t.book.First cfg.botId s.disk := by
        cases a with
        | feed u => exact hbook hallows.2.1
        | _ => exact hbook hcut
      cases a <;> exact ⟨hfirst.increasing, hfirst.bounded, hfirst.first⟩

theorem highest_mem (first : Update) (rest : List Update) :
    highest first rest ∈ (first :: rest).map (·.updateId) := by
  unfold highest
  rw [List.map_cons]
  generalize first.updateId = m
  generalize rest.map (·.updateId) = ids
  induction ids generalizing m with
  | nil => exact List.mem_cons_self
  | cons x xs ih =>
      rcases List.mem_cons.mp (ih (max m x)) with heq | hin
      · rw [List.foldl_cons, heq]
        rcases Int.le_total m x with hle | hle
        · rw [Int.max_eq_right hle]
          exact .tail _ List.mem_cons_self
        · rw [Int.max_eq_left hle]
          exact List.mem_cons_self
      · exact .tail _ (.tail _ hin)

/-- A batch comes, and Telegram has sent again what it had to. -/
theorem fetch (h : s.Kept cfg) (ht : s.tasks[n]? = some t) {o : Option Int}
    {k : (Op.await (.getUpdates o)).Answer → Prog Next}
    (hprog : t.prog = .ask (.await (.getUpdates o)) k) {batch : List Update}
    (hresends : s.resends cfg (batch.map (·.updateId)) = true) :
    Kept cfg ({ s with fetched := s.fetched ++ batch.map fun u : Update => u.updateId }.advance cfg n t
      (k (.ok (.ok batch))) (t.book.next (.await (.getUpdates o)) (.ok (.ok batch)))) := by
  obtain ⟨hover, hkind, hobeys⟩ := h.awaits ht hprog
  have hkind : t.kind = .poll := hkind
  have hbook := (h.holds n t ht hover).1
  rw [hkind] at hbook
  simp only [resends, Bool.and_eq_true, List.all_eq_true, Bool.or_eq_true, decide_eq_true_eq]
    at hresends
  obtain ⟨hnew, hold⟩ := hresends
  have hcases {y : Int}
      (hy : Unstored cfg.botId (s.fetched ++ batch.map fun u : Update => u.updateId) s.disk y) :
      Unstored cfg.botId s.fetched s.disk y ∨ y ∈ batch.map (·.updateId) ∧
        (∀ o, s.offset = some o → o ≤ y) ∧ ∀ o, s.disk.offsets cfg.botId = some o → o ≤ y := by
    rcases List.mem_append.mp hy.1 with hmem | hmem
    · exact .inl ⟨hmem, hy.2⟩
    · refine .inr ⟨hmem, ?_⟩
      rcases hnew y hmem with hs | ⟨hmine, hdisk⟩
      · exact absurd (hs.symm.trans hy.2) nofun
      · refine ⟨fun o ho => ?_, fun o ho => ?_⟩
        · rw [ho] at hmine
          exact of_decide_eq_true hmine
        · rw [ho] at hdisk
          exact of_decide_eq_true hdisk
  refine h.advance ht hover _ (hobeys _) ?_ (fun m u hm hu hov hk => ?_)
    (fun y hy o ho => (hcases hy).elim (fun hy => h.offset y hy o ho) fun hy => hy.2.1 o ho)
    fun y hy o ho => (hcases hy).elim (fun hy => h.stored y hy o ho) fun hy => hy.2.2 o ho
  · rw [hkind]
    cases batch with
    | nil =>
        refine ⟨fun g hg y hy => ?_, nofun⟩
        exact hbook.goal g hg y ⟨by simpa using hy.1, hy.2⟩
    | cons first rest =>
        refine ⟨?_, nofun⟩
        rintro _ ⟨rfl⟩ y hy
        by_cases hmem : y ∈ (first :: rest).map fun u : Update => u.updateId
        · exact .inl hmem
        · right
          have hy' := (hcases hy).resolve_right fun hb => hmem hb.1
          have hlow := ((hold y hy'.1).resolve_left fun hc =>
            hc.elim (fun hs => absurd (hs.symm.trans hy'.2) nofun) hmem)
          -- It comes after the whole batch, the highest of it included.
          have hmax := highest_mem first rest
          have hle := hlow _ hmax
          have hne : highest first rest ≠ y := fun heq => hmem (heq ▸ hmax)
          omega
  · exact absurd (h.single m n u t hu ht hov hover (hk.trans hkind.symm)) hm

/-- Somebody else than the database answers. -/
theorem answer (h : s.Kept cfg) (ht : s.tasks[n]? = some t) {a : Await}
    {k : (Op.await a).Answer → Prog Next} (hprog : t.prog = .ask (.await a) k) {reply : Reply}
    {r : a.Reply} (hfit : reply.fit a = some r)
    (hresends : ∀ batch, reply = .updates (.ok batch) →
      s.resends cfg (batch.map (·.updateId)) = true) :
    Kept cfg ({ s with fetched := s.fetched ++ reply.fetched }.advance cfg n t (k (.ok r))
      (t.book.next (.await a) (.ok r))) := by
  obtain ⟨hover, hallows, hobeys⟩ := h.awaits ht hprog
  have hbook := (h.holds n t ht hover).1
  have hsame (hnone : reply.fetched = [])
      (hnext : Task.Holds cfg.botId (Unstored cfg.botId s.fetched s.disk) s.disk t.kind
        (t.book.next (.await a) (.ok r))) :
      Kept cfg ({ s with fetched := s.fetched ++ reply.fetched }.advance cfg n t (k (.ok r))
        (t.book.next (.await a) (.ok r))) := by
    rw [hnone, List.append_nil]
    exact h.advance ht hover _ (hobeys _) hnext (fun _ _ _ _ _ _ => rfl) h.offset h.stored
  cases a with
  | getUpdates o =>
      cases reply with
      | done => cases hfit
      | updates res =>
          obtain rfl := Option.some.inj hfit
          cases res with
          | ok batch => exact h.fetch ht hprog (hresends batch rfl)
          | error e =>
              have hkind : t.kind = .poll := hallows
              refine hsame rfl ?_
              rw [hkind] at hbook ⊢
              exact ⟨hbook.goal, nofun⟩
  | scheduled | sleep seconds | feed u | idle =>
      cases reply with
      | done => exact hsame rfl hbook
      | updates res => cases hfit
  | offset | store x payload | rememberOffset next | claimOpen limit | markDone id
  | markFailed id error | release id error => cases reply <;> cases hfit

/-- Both loops are started, where none is running. -/
theorem starts (h : s.Kept cfg) (hnone : ∀ t ∈ s.tasks, t.isOver = true) :
    Kept cfg { s with
      stopping := false
      tasks := s.tasks ++ [⟨.poll, Kind.poll.program cfg, {}, none⟩,
        ⟨.intake, Kind.intake.program cfg, {}, none⟩]
      task := some s.tasks.length } := by
  have hcases {n : Nat} {t : Task} (ht : (s.tasks ++ [⟨.poll, Kind.poll.program cfg, {}, none⟩,
      ⟨.intake, Kind.intake.program cfg, {}, none⟩])[n]? = some t) :
      s.tasks[n]? = some t ∨ (n = s.tasks.length ∧ t = ⟨.poll, Kind.poll.program cfg, {}, none⟩) ∨
        n = s.tasks.length + 1 ∧ t = ⟨.intake, Kind.intake.program cfg, {}, none⟩ := by
    rw [List.getElem?_append] at ht
    split at ht
    · exact .inl ht
    · right
      have hlt := (List.getElem?_eq_some_iff.mp ht).1
      simp only [List.length_cons, List.length_nil] at hlt
      obtain hn | hn : n - s.tasks.length = 0 ∨ n - s.tasks.length = 1 := by omega
      · rw [hn] at ht
        exact .inl ⟨by omega, (Option.some.inj ht).symm⟩
      · rw [hn] at ht
        exact .inr ⟨by omega, (Option.some.inj ht).symm⟩
  have hover {n : Nat} {t : Task} (ht : s.tasks[n]? = some t) : t.isOver = true :=
    hnone t (List.mem_of_getElem? ht)
  refine ⟨h.increasing, h.bounded, h.offset, h.stored, h.persisted, h.fed,
    fun m n t u ht hu hto huo hkind => ?_, fun n t ht => ?_, fun n t ht hto => ?_⟩
  · rcases hcases ht with hold | ⟨rfl, rfl⟩ | ⟨rfl, rfl⟩
    · exact absurd (hto.symm.trans (hover hold)) nofun
    · rcases hcases hu with hold | ⟨rfl, -⟩ | ⟨-, rfl⟩
      · exact absurd (huo.symm.trans (hover hold)) nofun
      · rfl
      · cases hkind
    · rcases hcases hu with hold | ⟨-, rfl⟩ | ⟨rfl, -⟩
      · exact absurd (huo.symm.trans (hover hold)) nofun
      · cases hkind
      · rfl
  · rcases hcases ht with hold | ⟨-, rfl⟩ | ⟨-, rfl⟩
    · exact h.tasks n t hold
    · refine ⟨obeys_program cfg .poll, nofun, ?_⟩
      rintro _ _ ⟨rfl⟩
      exact ⟨_, rfl⟩
    · refine ⟨obeys_program cfg .intake, nofun, ?_⟩
      rintro _ _ ⟨rfl⟩
      exact ⟨_, rfl⟩
  · rcases hcases ht with hold | ⟨-, rfl⟩ | ⟨-, rfl⟩
    · exact h.holds n t hold hto
    · exact ⟨⟨nofun, nofun⟩, nofun⟩
    · exact ⟨fun _ => ⟨.nil, nofun, fun _ _ _ _ => .inr nofun⟩, nofun⟩

/-- The rows change and no task notices. -/
theorem rearranged (h : s.Kept cfg) {d : Disk} (booted : Bool)
    (hincreasing : d.inbox.Pairwise (·.id < ·.id)) (hbounded : ∀ r ∈ d.inbox, r.id ≤ d.sequence)
    (hunstored : ∀ y, d.stored cfg.botId y = false → s.disk.stored cfg.botId y = false)
    (hoffsets : d.offsets = s.disk.offsets)
    (hfirst : ∀ b : Book, b.First cfg.botId s.disk → b.First cfg.botId d) :
    Kept cfg { s with disk := d, booted } := by
  have hsub (y : Int) (hy : Unstored cfg.botId s.fetched d y) :
      Unstored cfg.botId s.fetched s.disk y := ⟨hy.1, hunstored y hy.2⟩
  refine ⟨hincreasing, hbounded, fun y hy => h.offset y (hsub y hy), fun y hy o ho => ?_, ?_, h.fed,
    h.single, h.tasks, fun n t ht hover => ?_⟩
  · exact h.stored y (hsub y hy) o (hoffsets ▸ ho)
  · change d.offsets cfg.botId = _ ∧ _
    rw [hoffsets]
    exact h.persisted
  · have hmoved (b : Book)
        (hb : Task.Holds cfg.botId (Unstored cfg.botId s.fetched s.disk) s.disk t.kind b) :
        Task.Holds cfg.botId (Unstored cfg.botId s.fetched d) d t.kind b := by
      cases hk : t.kind with
      | poll =>
          rw [hk] at hb
          exact Book.Behind.mono hb hsub
      | intake =>
          rw [hk] at hb
          exact fun hcut => hfirst b (hb hcut)
    obtain ⟨hnow, hready⟩ := h.holds n t ht hover
    exact ⟨hmoved _ hnow, fun x b hx => hmoved b (hready x b hx)⟩

/-- A process begins: what was leased is open as before. -/
theorem boot (h : s.Kept cfg) : Kept cfg { s with disk := s.disk.requeueLeased, booted := true } := by
  let requeue (r : Row) : Row :=
    if r.state = .leased then { r with state := .received, leaseExpiresAt := none } else r
  have hid (r : Row) : (requeue r).id = r.id := by
    simp only [requeue]
    split <;> rfl
  have hbot (r : Row) : (requeue r).botId = r.botId := by
    simp only [requeue]
    split <;> rfl
  have hupdate (r : Row) : (requeue r).updateId = r.updateId := by
    simp only [requeue]
    split <;> rfl
  have hsame : s.disk.requeueLeased.stored = s.disk.stored := by
    funext bot y
    change (s.disk.inbox.map requeue).any _ = s.disk.inbox.any _
    simp only [List.any_map, Function.comp_def, hbot, hupdate]
  have hopen (r : Row) : (requeue r).isOpen = r.isOpen := by
    simp only [requeue]
    split
    · next hleased => simp [Row.isOpen, hleased]
    · rfl
  refine h.rearranged true (d := s.disk.requeueLeased) ?_ (fun r hr => ?_)
    (fun y hy => by rwa [hsame] at hy) rfl fun b hb => hb.map requeue hid hbot
      fun r _ ho => .inl ((hopen r).symm.trans ho)
  · exact List.pairwise_map.mpr (h.increasing.imp fun hlt => by rwa [hid, hid])
  · obtain ⟨r, hmem, rfl⟩ := List.mem_map.mp hr
    rw [hid]
    exact h.bounded r hmem

/-- The runner of another bot stores an update. -/
theorem other (h : s.Kept cfg) (bot y : Int) : Kept cfg { s with disk := s.disk.store bot y "" } := by
  obtain ⟨hincreasing, hbounded⟩ := h.ordered_store bot y ""
  refine h.rearranged s.booted hincreasing hbounded (fun x hx => ?_) (offsets_store _ _ _ _)
    fun b hb => hb.store bot y ""
  cases hstored : s.disk.stored cfg.botId x with
  | false => rfl
  | true => exact absurd ((stored_store hstored).symm.trans hx) nofun

theorem start (cfg : Config) : Kept cfg {} :=
  ⟨.nil, nofun, fun _ _ _ => nofun, fun _ _ _ => nofun, ⟨rfl, .nil⟩, nofun, fun _ _ _ _ => nofun,
    fun _ _ => nofun, fun _ _ => nofun⟩

/-- A careful step keeps it. -/
theorem step (h : s.Kept cfg) {e : Event} (hcareful : s.careful cfg e = true) {s' : State}
    (hstep : s.step cfg e = some s') : s'.Kept cfg := by
  cases e with
  | boot =>
      simp only [State.step, Option.ite_none_left_eq_some, Option.some.injEq] at hstep
      obtain ⟨-, rfl⟩ := hstep
      exact h.boot
  | start =>
      simp only [State.step, Option.ite_none_left_eq_some] at hstep
      obtain ⟨-, hstep⟩ := hstep
      split at hstep
      · obtain rfl := Option.some.inj hstep
        exact h
      · next hrunning =>
          obtain rfl := Option.some.inj hstep
          refine h.starts fun t ht => ?_
          exact List.all_eq_true.mp ((Bool.or_eq_true ..).mp hcareful |>.resolve_left hrunning) t ht
  | stop =>
      obtain rfl := Option.some.inj hstep
      exact ⟨h.increasing, h.bounded, h.offset, h.stored, h.persisted, h.fed, h.single, h.tasks,
        h.holds⟩
  | exec n now =>
      simp only [State.step] at hstep
      split at hstep
      · next t ht =>
          simp only [State.careful, ht, Option.all_some] at hcareful
          split at hstep
          · next a k hprog =>
              split at hstep
              · obtain ⟨⟨r, d⟩, hperform, rfl⟩ := Option.map_eq_some_iff.mp hstep
                rw [hprog] at hcareful
                refine h.exec ht hprog hperform ?_ ?_
                · rintro limit rfl
                  exact hcareful
                · rintro id error rfl
                  simpa only [Bool.or_eq_true, decide_eq_true_eq] using hcareful
              · cases hstep
          · cases hstep
      · cases hstep
  | resume n =>
      simp only [State.step] at hstep
      split at hstep
      · next t ht =>
          obtain ⟨⟨x, b⟩, hready, rfl⟩ := Option.map_eq_some_iff.mp hstep
          exact h.resume ht hready
      · cases hstep
  | answer n reply =>
      simp only [State.step] at hstep
      split at hstep
      · next t ht =>
          split at hstep
          · next a k hprog =>
              obtain ⟨r, hfit, rfl⟩ := Option.map_eq_some_iff.mp hstep
              refine h.answer ht hprog hfit ?_
              rintro batch rfl
              exact hcareful
          · cases hstep
      · cases hstep
  | fault n f =>
      simp only [State.step] at hstep
      split at hstep
      · next t ht =>
          split at hstep
          · next a k hprog =>
              obtain rfl := Option.some.inj hstep
              exact h.fault ht hprog f
          · cases hstep
      · cases hstep
  | crash =>
      obtain rfl := Option.some.inj hstep
      exact ⟨h.increasing, h.bounded, fun _ _ _ => nofun, h.stored, h.persisted, h.fed,
        fun _ _ _ _ => nofun, fun _ _ => nofun, fun _ _ => nofun⟩
  | other bot y =>
      simp only [State.step, Option.ite_none_left_eq_some, Option.some.injEq] at hstep
      obtain ⟨-, rfl⟩ := hstep
      exact h.other bot y

theorem orderly (h : s.Kept cfg) : s.Orderly cfg where
  acknowledged x hx := by
    simp only [State.unstored, Bool.and_eq_true, decide_eq_true_eq, Bool.not_eq_true'] at hx
    exact ⟨h.offset x hx, h.stored x hx⟩
  persisted := h.persisted
  inOrder := h.fed

end Kept

end State

/-- **Updates are stored before they are acknowledged, and handled in arrival order**, in every run
in which Telegram sends again what it has to, nothing is claimed before its turn, no update is put
back while others of its batch are in hand, and the loops are started again, whether the poll has
ended or a stop has taken it, only when every task of the starts before is over. -/
theorem updates_in_order (cfg : Config) (s : State)
    (h : Run.Reaches (sys cfg) (fun s e => s.careful cfg e = true) s) : s.Orderly cfg := by
  have hkept : s.Kept cfg := by
    induction h with
    | start => exact State.Kept.start cfg
    | step _ hok hst ih => exact ih.step hok hst
  exact hkept.orderly

/-! ## two updates of one batch -/

def plain : Config := ⟨5, true, fun _ => none⟩

/-- `k` statements of a task, one after the other. -/
def statements (task k : Nat) : List Event :=
  (List.replicate k [.exec task 0, .resume task]).flatten

/-- Both are stored and claimed, and the dispatcher has the first. -/
def fetchedTwo : List Event :=
  [.boot, .start, .answer 0 .done] ++ statements 0 1 ++
    [.answer 0 (.updates (.ok [⟨10, some "a"⟩, ⟨11, some "b"⟩]))] ++ statements 0 3 ++
    [.answer 1 .done] ++ statements 1 1

/-- The dispatcher handles both. -/
theorem updates_in_order_two :
    ∃ s, Run.Reaches (sys plain) (fun s e => s.careful plain e = true) s ∧
      s.fed = [⟨2, []⟩, ⟨1, []⟩] ∧ s.persisted = [12] ∧ s.Orderly plain := by
  obtain ⟨s, hs, hfinal⟩ := Run.Reaches.exists_of_play (sys plain) (State.careful plain)
    (fetchedTwo ++ [.answer 1 .done] ++ statements 1 1 ++ [.answer 1 .done] ++ statements 1 1)
    (fun s => decide (s.fed = [⟨2, []⟩, ⟨1, []⟩] ∧ s.persisted = [12])) (by decide +kernel)
  obtain ⟨hfed, hpersisted⟩ := of_decide_eq_true hfinal
  exact ⟨s, hs, hfed, hpersisted, updates_in_order plain s hs⟩

/-- The first fails and is put back; the second is fed while the first is open. -/
theorem not_updates_in_order :
    ∃ s, Run.Reaches (sys plain) Run.anyStep s ∧ s.fed = [⟨2, [1]⟩, ⟨1, []⟩] ∧
      ¬s.Orderly plain := by
  obtain ⟨s, hs, hfinal⟩ := Run.Reaches.exists_of_play (sys plain) (fun _ _ => true)
    (fetchedTwo ++ [.fault 1 (.raised "RuntimeError: MAX is away")] ++ statements 1 1)
    (fun s => decide (s.fed = [⟨2, [1]⟩, ⟨1, []⟩])) (by decide +kernel)
  have hfed := of_decide_eq_true hfinal
  refine ⟨s, hs.mono fun _ _ _ => trivial, hfed, fun h => ?_⟩
  have hfirst := h.inOrder ⟨2, [1]⟩ (by rw [hfed]; exact List.mem_cons_self)
  exact absurd hfirst (by decide)

end Telemax.Telegram.Intake
