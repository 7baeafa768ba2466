import Mathlib.Data.List.Basic
import Telemax.Lib.Run

/-!
# Telemax.Storage.Database

`Database`: one SQLite connection for the whole process, behind one lock.  The
connection is its committed content and the content of the open transaction, if
there is one; content is the list of the writes that made it.  Every awaited call
on the connection returns, raises or is cancelled, and in the last two cases it
may have taken effect before.

The holder of the lock stands before one of the awaited calls of its method
(`Turn`); everyone else waits, in the order of `asyncio.Lock`.  The usability
check is made before the wait, `BEGIN` stands outside the `try` that rolls back,
and a cancelled `COMMIT` or `ROLLBACK` is not caught.  What the wrapper promises
all the same is `fails_closed`.
-/

namespace Telemax.Database

/-! ## the connection -/

/-- How an awaited call on the connection ends. -/
inductive Outcome
  | done
  | failed (error : String) (effect : Bool)
  | cancelled (effect : Bool)
  deriving DecidableEq, Repr

/-- It raises or is cancelled after it has taken effect. -/
def Outcome.late : Outcome → Bool
  | .done => false
  | .failed _ effect | .cancelled effect => effect

/-- What the code that awaits it sees. -/
inductive Reply
  | ok
  | raised (error : String)
  | cancelled
  deriving DecidableEq, Repr

/-- What the connection is in: SQLite's own states, and a closed one. -/
inductive Session
  | closed
  | autocommit
  | transaction (working : List Nat)
  deriving DecidableEq, Repr

structure Conn where
  committed : List Nat := []
  session : Session := .autocommit
  deriving DecidableEq, Repr

namespace Conn

/-- `in_transaction`. -/
def inTransaction (c : Conn) : Bool :=
  match c.session with
  | .transaction _ => true
  | _ => false

/-! Each statement is `none` where SQLite itself refuses it. -/

def begin (c : Conn) : Option Conn :=
  match c.session with
  | .autocommit => some { c with session := .transaction c.committed }
  | _ => none

def commit (c : Conn) : Option Conn :=
  match c.session with
  | .transaction w => some ⟨w, .autocommit⟩
  | _ => none

def rollback (c : Conn) : Option Conn :=
  match c.session with
  | .transaction _ => some { c with session := .autocommit }
  | _ => none

/-- A statement that reads. -/
def read (c : Conn) : Option Conn := if c.session = .closed then none else some c

/-- A statement that writes: into the open transaction, or else committed at once. -/
def write (stamp : Nat) (c : Conn) : Option Conn :=
  match c.session with
  | .transaction w => some { c with session := .transaction (w ++ [stamp]) }
  | .autocommit => some { c with committed := c.committed ++ [stamp] }
  | .closed => none

/-- A statement of a caller. -/
def statement (stamp : Nat) (write : Bool) : Conn → Option Conn :=
  if write then Conn.write stamp else Conn.read

def writes (stamp : Nat) (write : Bool) : List Nat := if write then [stamp] else []

/-- `close`: what is open is discarded. -/
def close (c : Conn) : Option Conn := some { c with session := .closed }

/-- One awaited call. -/
def run (op : Conn → Option Conn) (c : Conn) (o : Outcome) : Conn × Reply :=
  match op c, o with
  | some c', .done => (c', .ok)
  | some c', .failed error effect => (if effect then c' else c, .raised error)
  | some c', .cancelled effect => (if effect then c' else c, .cancelled)
  | none, .done => (c, .raised "OperationalError")
  | none, .failed error _ => (c, .raised error)
  | none, .cancelled _ => (c, .cancelled)

end Conn

/-! ## the wrapper -/

/-- The methods that take the lock. -/
inductive Kind
  | query
  | queryOne
  | execute
  | executeChanged
  | executeMany
  | transaction
  | recover
  deriving DecidableEq, Repr

/-- Before which awaited call the holder of the lock stands. -/
inductive Turn
  /-- The one statement of `query`, `query_one`, `execute` and `execute_changed`. -/
  | single
  /-- `BEGIN IMMEDIATE`. -/
  | opening (k : Kind)
  /-- Inside the `try`; `ws` are the writes that returned. -/
  | body (k : Kind) (ws : List Nat)
  /-- `ROLLBACK`, the body having raised. -/
  | unwinding
  /-- `COMMIT`. -/
  | closing (ws : List Nat)
  /-- `ROLLBACK` after a `COMMIT` that failed. -/
  | undoing
  /-- The three calls of `recover`. -/
  | recoverRollback
  | recoverClose
  | reopen
  deriving DecidableEq, Repr

/-- A statement that was handed to the connection. -/
structure Statement where
  poisoned : Bool
  recovers : Bool
  deriving DecidableEq, Repr

structure State where
  conn : Conn := {}
  /-- `_poisoned`. -/
  poisoned : Option String := none
  writeFailures : Nat := 0
  /-- Who holds `_lock`, and who waits for it. -/
  turn : Option Turn := none
  waiting : List Kind := []
  /-- `_recovery`, and how many wait for it. -/
  recovering : Bool := false
  recoverers : Nat := 0
  /-- The next write. -/
  stamp : Nat := 0
  /-- The writes of calls that returned normally. -/
  returned : List Nat := []
  /-- Every statement so far. -/
  statements : List Statement := []
  deriving DecidableEq, Repr

inductive Event
  | call (k : Kind)
  /-- A `recover` gets `_recovery`. -/
  | enterRecovery
  /-- A caller is cancelled while it waits for `_lock`, or for `_recovery`. -/
  | giveUp (i : Nat)
  | giveUpRecovery
  /-- The first in line gets `_lock`. -/
  | acquire
  /-- A caller's own statement. -/
  | statement (write : Bool) (o : Outcome)
  /-- The body of the `try` ends. -/
  | leave (raised : Bool)
  /-- Any other call the holder awaits. -/
  | answer (o : Outcome)
  deriving DecidableEq, Repr

namespace State

/-- `_poison`. -/
def poison (s : State) (reason : String) : State :=
  { s with poisoned := some reason, writeFailures := s.writeFailures + 1 }

/-- `__aexit__` of the lock. -/
def release (s : State) : State := { s with turn := none }

/-- `__aexit__` of both locks, at the end of `recover`. -/
def recovered (s : State) : State := { s with turn := none, recovering := false }

/-- A call is handed to the connection. -/
def exec (s : State) (recovers : Bool) (op : Conn → Option Conn) (o : Outcome) : State × Reply :=
  ({ s with conn := (s.conn.run op o).1,
            statements := s.statements ++ [⟨s.poisoned.isSome, recovers⟩] },
    (s.conn.run op o).2)

/-- Where a call stands when it gets the lock. -/
def first : Kind → Turn
  | .query | .queryOne | .execute | .executeChanged => .single
  | .executeMany => .opening .executeMany
  | .transaction => .opening .transaction
  | .recover => .recoverRollback

/-- A caller's own statement. -/
def runStatement (s : State) (write : Bool) (o : Outcome) : Option State :=
  let (t, reply) := { s with stamp := s.stamp + 1 }.exec false (Conn.statement s.stamp write) o
  match s.turn, reply with
  | some .single, .ok =>
      some { t.release with returned := t.returned ++ Conn.writes s.stamp write }
  | some .single, _ => some t.release
  | some (.body k ws), .ok =>
      some { t with turn := some (.body k (ws ++ Conn.writes s.stamp write)) }
  -- What a `transaction` does about it is up to the code inside.
  | some (.body .executeMany _), _ => some { t with turn := some .unwinding }
  | some (.body _ _), _ => some t
  | _, _ => none

/-- The end of `_close_transaction`. -/
def checkClosed (s : State) (ws : List Nat) : State :=
  if s.conn.inTransaction then
    (s.poison "a transaction stayed open after it was closed").release
  else { s.release with returned := s.returned ++ ws }

/-- The other awaited calls of the methods. -/
def runAnswer (s : State) (o : Outcome) : Option State :=
  match s.turn with
  | some (.opening k) =>
      match s.exec false Conn.begin o with
      | (t, .ok) => some { t with turn := some (.body k []) }
      | (t, _) => some t.release
  | some .unwinding =>
      match s.exec false Conn.rollback o with
      | (t, .ok) => some (t.checkClosed [])
      | (t, .raised error) => some (t.poison ("rollback: " ++ error)).release
      | (t, .cancelled) => some t.release
  | some (.closing ws) =>
      match s.exec false Conn.commit o with
      | (t, .ok) => some (t.checkClosed ws)
      | (t, .raised _) => some { t with turn := some .undoing }
      | (t, .cancelled) => some t.release
  | some .undoing =>
      match s.exec false Conn.rollback o with
      | (t, .ok) => some t.release
      | (t, .raised error) =>
          some (t.poison ("rollback after a failed commit: " ++ error)).release
      | (t, .cancelled) => some t.release
  | some .recoverRollback =>
      match s.exec true Conn.rollback o with
      | (t, .cancelled) => some t.recovered
      | (t, _) =>
          -- `in_transaction` raises on a connection that is closed.
          if t.conn.session = .closed then some t.recovered
          else if t.conn.inTransaction then some { t with turn := some .recoverClose }
          else some { t.recovered with poisoned := none }
  | some .recoverClose =>
      match s.exec true Conn.close o with
      | (t, .cancelled) => some t.recovered
      | (t, _) => some { t with turn := some .reopen }
  | some .reopen =>
      match o with
      | .done => some { s.recovered with conn := { committed := s.conn.committed }, poisoned := none }
      | .failed error _ => some (s.poison ("reopen: " ++ error)).recovered
      | .cancelled _ => some s.recovered
  | _ => none

def step (s : State) : Event → Option State
  | .call .recover => some { s with recoverers := s.recoverers + 1 }
  | .call k =>
      -- `_require_usable`
      if s.poisoned.isSome then some s else some { s with waiting := s.waiting ++ [k] }
  | .enterRecovery =>
      if s.recovering || s.recoverers == 0 then none
      else if s.poisoned.isNone then some { s with recoverers := s.recoverers - 1 }
      else some { s with recoverers := s.recoverers - 1, recovering := true,
                         waiting := s.waiting ++ [.recover] }
  | .giveUp i =>
      match s.waiting[i]? with
      | some k => some { s with waiting := s.waiting.eraseIdx i,
                                recovering := s.recovering && k != .recover }
      | none => none
  | .giveUpRecovery =>
      if s.recoverers == 0 then none else some { s with recoverers := s.recoverers - 1 }
  | .acquire =>
      match s.turn, s.waiting with
      | none, k :: rest => some { s with waiting := rest, turn := some (first k) }
      | _, _ => none
  | .statement write o => s.runStatement write o
  | .leave false =>
      match s.turn with
      | some (.body _ ws) => some { s with turn := some (.closing ws) }
      | _ => none
  | .leave true =>
      match s.turn with
      | some (.body .transaction _) => some { s with turn := some .unwinding }
      | _ => none
  | .answer o => s.runAnswer o

end State

def system : Run.Sys State Event := ⟨{}, State.step⟩

/-! ## what the wrapper is for -/

/-- Nothing is open on a connection that is to be used, a poisoned one is used by
`recover` only, and what returned has been committed, whatever came after. -/
structure FailsClosed (s : State) : Prop where
  closed : s.turn = none → s.poisoned = none → s.conn.inTransaction = false
  refused : ∀ x ∈ s.statements, x.poisoned = true → x.recovers = true
  kept : ∀ w ∈ s.returned, w ∈ s.conn.committed

/-- The schedules and the failures the wrapper is built for: a caller that has
waited gets its turn while the connection is usable, a `BEGIN` that raises has
opened nothing, and a call that ends the transaction is not cancelled with the
transaction still open. -/
def foreseen (s : State) : Event → Bool
  | .acquire => s.poisoned.isNone || s.waiting.head? == some .recover
  | .answer o =>
      match s.turn, o with
      | some (.opening _), o => !o.late
      | some .unwinding, .cancelled effect => effect || !s.conn.inTransaction
      | some (.closing _), .cancelled effect => effect || !s.conn.inTransaction
      | some .undoing, .cancelled effect => effect || !s.conn.inTransaction
      | _, _ => true
  | _ => true

/-! ## calls on the connection -/

section Conn

variable {c c' : Conn} {o : Outcome} {op : Conn → Option Conn}

/-- A call has taken effect, or it has not. -/
theorem Conn.run_fst (op : Conn → Option Conn) (c : Conn) (o : Outcome) :
    (c.run op o).1 = c ∨ op c = some (c.run op o).1 := by
  unfold Conn.run
  rcases hop : op c with _ | c' <;> rcases o with _ | ⟨e, _ | _⟩ | (_ | _) <;> simp

/-- A call that returns has taken effect. -/
theorem Conn.run_ok (h : (c.run op o).2 = .ok) : op c = some (c.run op o).1 := by
  unfold Conn.run at h ⊢
  rcases hop : op c with _ | c' <;> rcases o with _ | ⟨e, _ | _⟩ | (_ | _) <;> simp_all

/-- What was committed when the open transaction began is in it. -/
def Conn.Sound (c : Conn) : Prop := ∀ w, c.session = .transaction w → c.committed ⊆ w

/-- A statement that loses nothing committed. -/
def Conn.Grows (op : Conn → Option Conn) : Prop :=
  ∀ c c', c.Sound → op c = some c' → c.committed ⊆ c'.committed ∧ c'.Sound

theorem Conn.grows_begin : Conn.Grows Conn.begin := by
  intro c c' _ h
  unfold Conn.begin at h
  split at h <;> cases h
  exact ⟨fun _ hw => hw, fun w hw => by cases hw; exact fun _ hw => hw⟩

theorem Conn.grows_commit : Conn.Grows Conn.commit := by
  intro c c' hc h
  unfold Conn.commit at h
  split at h <;> cases h
  next w hw => exact ⟨hc w hw, fun w hw => by cases hw⟩

theorem Conn.grows_rollback : Conn.Grows Conn.rollback := by
  intro c c' _ h
  unfold Conn.rollback at h
  split at h <;> cases h
  exact ⟨fun _ hw => hw, fun w hw => by cases hw⟩

theorem Conn.grows_read : Conn.Grows Conn.read := by
  intro c c' hc h
  unfold Conn.read at h
  split at h <;> cases h
  exact ⟨fun _ hw => hw, hc⟩

theorem Conn.grows_write (stamp : Nat) : Conn.Grows (Conn.write stamp) := by
  intro c c' hc h
  unfold Conn.write at h
  split at h <;> cases h
  · next w hw =>
      refine ⟨fun _ hw => hw, fun w' hw' => ?_⟩
      cases hw'
      exact fun x hx => List.mem_append_left _ (hc w hw hx)
  · next hauto =>
      exact ⟨fun x hx => List.mem_append_left _ hx, fun w' hw' => by cases hauto.symm.trans hw'⟩

theorem Conn.grows_close : Conn.Grows Conn.close := by
  intro c c' _ h
  cases h
  exact ⟨fun _ hw => hw, fun w hw => by cases hw⟩

theorem Conn.grows_statement (stamp : Nat) (write : Bool) :
    Conn.Grows (Conn.statement stamp write) := by
  cases write
  · exact Conn.grows_read
  · exact Conn.grows_write stamp

theorem Conn.Grows.run (hop : Conn.Grows op) (hc : c.Sound) (o : Outcome) :
    c.committed ⊆ (c.run op o).1.committed ∧ (c.run op o).1.Sound := by
  rcases Conn.run_fst op c o with h | h
  · rw [h]
    exact ⟨fun _ hw => hw, hc⟩
  · exact hop c _ hc h

/-- Outside a transaction a statement opens none and is committed when it returns. -/
theorem Conn.run_statement_outside (hc : c.inTransaction = false) (stamp : Nat) (write : Bool)
    (o : Outcome) :
    (c.run (Conn.statement stamp write) o).1.inTransaction = false ∧
      ((c.run (Conn.statement stamp write) o).2 = .ok → ∀ x ∈ Conn.writes stamp write,
        x ∈ (c.run (Conn.statement stamp write) o).1.committed) := by
  obtain ⟨committed, session⟩ := c
  have hop : ∀ c', Conn.statement stamp write ⟨committed, session⟩ = some c' →
      c'.inTransaction = false ∧ ∀ x ∈ Conn.writes stamp write, x ∈ c'.committed := by
    intro c' h
    cases write <;> cases session <;> cases h <;>
      simp [Conn.inTransaction, Conn.writes] at hc ⊢
  refine ⟨?_, fun h => (hop _ (Conn.run_ok h)).2⟩
  rcases Conn.run_fst (Conn.statement stamp write) ⟨committed, session⟩ o with h | h
  · rw [h, hc]
  · exact (hop _ h).1

/-- Inside one it is added to what is open. -/
theorem Conn.run_statement_inside {w : List Nat} (hc : c.session = .transaction w) (stamp : Nat)
    (write : Bool) (o : Outcome) :
    ∃ w', (c.run (Conn.statement stamp write) o).1.session = .transaction w' ∧ w ⊆ w' ∧
      ((c.run (Conn.statement stamp write) o).2 = .ok → ∀ x ∈ Conn.writes stamp write, x ∈ w') := by
  obtain ⟨committed, session⟩ := c
  obtain rfl : session = .transaction w := hc
  have hop : ∀ c', Conn.statement stamp write ⟨committed, .transaction w⟩ = some c' →
      c'.session = .transaction (w ++ Conn.writes stamp write) := by
    intro c' h
    cases write <;> cases h <;> simp [Conn.writes]
  by_cases hok : (Conn.run (Conn.statement stamp write) ⟨committed, .transaction w⟩ o).2 = .ok
  · exact ⟨_, hop _ (Conn.run_ok hok), List.subset_append_left _ _,
      fun _ x hx => List.mem_append_right _ hx⟩
  · rcases Conn.run_fst (Conn.statement stamp write) ⟨committed, .transaction w⟩ o with h | h
    · exact ⟨w, by rw [h], fun _ hx => hx, fun h => absurd h hok⟩
    · exact ⟨_, hop _ h, List.subset_append_left _ _, fun h => absurd h hok⟩

/-- A call that raises before it takes effect changes nothing. -/
theorem Conn.run_of_not_late (hlate : o.late = false) (h : (c.run op o).2 ≠ .ok) :
    (c.run op o).1 = c := by
  unfold Conn.run at h ⊢
  cases hop : op c <;> rcases o with _ | ⟨e, _ | _⟩ | (_ | _) <;> simp_all [Outcome.late]

/-- Only a cancelled call is seen as cancelled. -/
theorem Conn.run_cancelled (h : (c.run op o).2 = .cancelled) : ∃ effect, o = .cancelled effect := by
  unfold Conn.run at h
  cases hop : op c <;> cases o <;> simp_all

/-- The statements that end a transaction; outside one SQLite refuses them. -/
structure Conn.Ends (op : Conn → Option Conn) : Prop where
  grows : Conn.Grows op
  closes : ∀ c c', op c = some c' → c'.inTransaction = false
  refused : ∀ c, op c = none → c.inTransaction = false

theorem Conn.ends_commit : Conn.Ends Conn.commit where
  grows := Conn.grows_commit
  closes c c' h := by
    unfold Conn.commit at h
    split at h <;> cases h
    rfl
  refused c h := by
    unfold Conn.commit at h
    split at h
    · cases h
    · next hno =>
        cases hs : c.session with
        | transaction w => exact absurd hs (hno w)
        | _ => simp [Conn.inTransaction, hs]

theorem Conn.ends_rollback : Conn.Ends Conn.rollback where
  grows := Conn.grows_rollback
  closes c c' h := by
    unfold Conn.rollback at h
    split at h <;> cases h
    rfl
  refused c h := by
    unfold Conn.rollback at h
    split at h
    · cases h
    · next hno =>
        cases hs : c.session with
        | transaction w => exact absurd hs (hno w)
        | _ => simp [Conn.inTransaction, hs]

theorem Conn.Ends.run_ok (hop : Conn.Ends op) (h : (c.run op o).2 = .ok) :
    (c.run op o).1.inTransaction = false :=
  hop.closes c _ (Conn.run_ok h)

/-- Cancelled late, or with nothing open, it leaves nothing open. -/
theorem Conn.Ends.run_cancelled (hop : Conn.Ends op) {effect : Bool}
    (h : (effect || !c.inTransaction) = true) :
    (c.run op (.cancelled effect)).1.inTransaction = false := by
  cases effect with
  | false =>
      rw [Conn.run_of_not_late rfl (by unfold Conn.run; split <;> simp_all)]
      simpa using h
  | true =>
      unfold Conn.run
      cases hc : op c with
      | none => exact hop.refused c hc
      | some c' => exact hop.closes c c' hc

/-- However it ends, it opens nothing. -/
theorem Conn.Ends.run (hop : Conn.Ends op) (hc : c.inTransaction = false) :
    (c.run op o).1.inTransaction = false := by
  rcases Conn.run_fst op c o with h | h
  · rw [h, hc]
  · exact hop.closes c _ h

end Conn

/-! ## the invariant -/

/-- What holds whoever has the turn, of the connection, the statements so far and
the writes that returned. -/
structure Base (c : Conn) (statements : List Statement) (returned : List Nat) : Prop where
  sound : c.Sound
  refused : ∀ x ∈ statements, x.poisoned = true → x.recovers = true
  kept : ∀ w ∈ returned, w ∈ c.committed

/-- What the holder of the lock can rely on. -/
def TurnOk (poisoned : Option String) (c : Conn) : Turn → Prop
  | .single | .opening _ => poisoned = none ∧ c.inTransaction = false
  | .body _ ws | .closing ws =>
      poisoned = none ∧ ∃ w, c.session = .transaction w ∧ ∀ x ∈ ws, x ∈ w
  | .unwinding | .undoing => poisoned = none
  | .recoverRollback => poisoned = none → c.inTransaction = false
  | .recoverClose | .reopen => poisoned ≠ none

structure Inv (s : State) : Prop where
  base : Base s.conn s.statements s.returned
  idle : s.turn = none → s.poisoned = none → s.conn.inTransaction = false
  turn : ∀ t, s.turn = some t → TurnOk s.poisoned s.conn t

variable {s t : State} {e : Event} {o : Outcome}

/-- A state in which the lock is free. -/
theorem Inv.released (ht : s.turn = none) (hbase : Base s.conn s.statements s.returned)
    (h : s.poisoned = none → s.conn.inTransaction = false) : Inv s :=
  ⟨hbase, fun _ => h, fun turn hturn => by rw [ht] at hturn; cases hturn⟩

/-- A state in which somebody holds it. -/
theorem Inv.held {turn : Turn} (ht : s.turn = some turn)
    (hbase : Base s.conn s.statements s.returned)
    (h : TurnOk s.poisoned s.conn turn) : Inv s := by
  refine ⟨hbase, fun hnone => ?_, fun turn' hturn => ?_⟩
  · rw [ht] at hnone
    cases hnone
  · rw [ht, Option.some.injEq] at hturn
    exact hturn ▸ h

section Base

variable {c : Conn} {statements : List Statement} {returned : List Nat}

/-- A call on the connection, by `recover` or on a usable one. -/
theorem Base.run {op : Conn → Option Conn} (poisoned recovers : Bool)
    (h : Base c statements returned) (hop : Conn.Grows op)
    (hr : poisoned = true → recovers = true) (o : Outcome) :
    Base (c.run op o).1 (statements ++ [⟨poisoned, recovers⟩]) returned := by
  obtain ⟨hmono, hsound⟩ := hop.run h.sound o
  refine ⟨hsound, fun x hx hp => ?_, fun w hw => hmono (h.kept w hw)⟩
  rcases List.mem_append.mp hx with hx | hx
  · exact h.refused x hx hp
  · rw [List.mem_singleton.mp hx] at hp ⊢
    exact hr hp

theorem Base.returns {ws : List Nat} (h : Base c statements returned)
    (hws : ∀ w ∈ ws, w ∈ c.committed) : Base c statements (returned ++ ws) := by
  refine ⟨h.sound, h.refused, fun w hw => ?_⟩
  rcases List.mem_append.mp hw with hw | hw
  · exact h.kept w hw
  · exact hws w hw

end Base

theorem Inv.statement (h : Inv s) {write : Bool} (hst : s.runStatement write o = some t) :
    Inv t := by
  unfold State.runStatement State.exec at hst
  have hbase (hp : s.poisoned = none) := h.base.run s.poisoned.isSome false
    (Conn.grows_statement s.stamp write) (by simp [hp]) o
  cases hturn : s.turn with
  | none => simp [hturn] at hst
  | some turn =>
      have hok := h.turn turn hturn
      cases turn with
      | single =>
          obtain ⟨hp, hw⟩ := hok
          obtain ⟨hnone, hkept⟩ := Conn.run_statement_outside hw s.stamp write o
          simp only [hturn] at hst
          cases hreply : (s.conn.run (Conn.statement s.stamp write) o).2 with
          | ok =>
              simp only [hreply, Option.some.injEq] at hst
              subst hst
              exact .released rfl ((hbase hp).returns (hkept hreply)) fun _ => hnone
          | _ =>
              simp only [hreply, Option.some.injEq] at hst
              subst hst
              exact .released rfl (hbase hp) fun _ => hnone
      | body k ws =>
          obtain ⟨hp, w, hw, hws⟩ := hok
          obtain ⟨w', hw', hsub, hnew⟩ := Conn.run_statement_inside hw s.stamp write o
          have hold : ∀ x ∈ ws, x ∈ w' := fun x hx => hsub (hws x hx)
          simp only [hturn] at hst
          cases hreply : (s.conn.run (Conn.statement s.stamp write) o).2 with
          | ok =>
              simp only [hreply, Option.some.injEq] at hst
              subst hst
              refine .held rfl (hbase hp) ⟨hp, w', hw', fun x hx => ?_⟩
              exact (List.mem_append.mp hx).elim (hold x) (hnew hreply x)
          | _ =>
              cases k
              case executeMany =>
                simp only [hreply, Option.some.injEq] at hst
                subst hst
                exact .held rfl (hbase hp) hp
              all_goals
                simp only [hreply, Option.some.injEq] at hst
                subst hst
                exact .held rfl (hbase hp) ⟨hp, w', hw', hold⟩
      | _ => simp [hturn] at hst

/-! ## the calls that open, close and recover -/

theorem Conn.run_begin {c : Conn} (h : (c.run Conn.begin o).2 = .ok) :
    (c.run Conn.begin o).1.session = .transaction c.committed := by
  have hop := Conn.run_ok h
  rw [Conn.begin] at hop
  split at hop
  · rw [← Option.some.inj hop]
  · cases hop

theorem Conn.run_commit {c : Conn} {w : List Nat} (hw : c.session = .transaction w)
    (h : (c.run Conn.commit o).2 = .ok) : (c.run Conn.commit o).1.committed = w := by
  have hop := Conn.run_ok h
  simp only [Conn.commit, hw, Option.some.injEq] at hop
  rw [← hop]

/-- Where `_close_transaction` looks once more, nothing is open or the connection is given up. -/
theorem Inv.checkClosed {ws : List Nat} (hbase : Base s.conn s.statements s.returned)
    (hws : ∀ w ∈ ws, w ∈ s.conn.committed) : Inv (s.checkClosed ws) := by
  unfold State.checkClosed
  split
  · exact .released rfl hbase fun hp => by cases hp
  · next hclosed =>
      exact .released rfl (hbase.returns hws) fun _ => (Bool.not_eq_true _).mp hclosed

theorem Inv.answer (h : Inv s) (hok : foreseen s (.answer o) = true)
    (hst : s.runAnswer o = some t) : Inv t := by
  unfold State.runAnswer State.exec at hst
  have hrun {op : Conn → Option Conn} (hop : Conn.Grows op) (hp : s.poisoned = none) :=
    h.base.run s.poisoned.isSome false hop (by simp [hp]) o
  have hrecovers {op : Conn → Option Conn} (hop : Conn.Grows op) :=
    h.base.run s.poisoned.isSome true hop (fun _ => rfl) o
  cases hturn : s.turn with
  | none => simp [hturn] at hst
  | some turn =>
      have hturnOk := h.turn turn hturn
      cases turn with
      | opening k =>
          obtain ⟨hp, hc⟩ := hturnOk
          have hlate : o.late = false := by simpa [foreseen, hturn] using hok
          by_cases hreply : (s.conn.run Conn.begin o).2 = .ok
          · simp only [hturn, hreply, Option.some.injEq] at hst
            subst hst
            exact .held rfl (hrun Conn.grows_begin hp) ⟨hp, _, Conn.run_begin hreply, by simp⟩
          · simp only [hturn, Option.some.injEq] at hst
            subst hst
            refine .released rfl (hrun Conn.grows_begin hp) fun _ => ?_
            exact (congrArg Conn.inTransaction (Conn.run_of_not_late hlate hreply)).trans hc
      | unwinding =>
          cases hreply : (s.conn.run Conn.rollback o).2 with
          | ok =>
              simp only [hturn, hreply, Option.some.injEq] at hst
              subst hst
              exact .checkClosed (hrun Conn.grows_rollback hturnOk) (by simp)
          | raised error =>
              simp only [hturn, hreply, Option.some.injEq] at hst
              subst hst
              exact .released rfl (hrun Conn.grows_rollback hturnOk) fun hp => by cases hp
          | cancelled =>
              simp only [hturn, hreply, Option.some.injEq] at hst
              subst hst
              obtain ⟨effect, rfl⟩ := Conn.run_cancelled hreply
              refine .released rfl (hrun Conn.grows_rollback hturnOk) fun _ => ?_
              exact Conn.ends_rollback.run_cancelled (by simpa [foreseen, hturn] using hok)
      | closing ws =>
          obtain ⟨hp, w, hw, hws⟩ := hturnOk
          cases hreply : (s.conn.run Conn.commit o).2 with
          | ok =>
              simp only [hturn, hreply, Option.some.injEq] at hst
              subst hst
              refine .checkClosed (hrun Conn.grows_commit hp) fun x hx => ?_
              exact (Conn.run_commit hw hreply).symm ▸ hws x hx
          | raised error =>
              simp only [hturn, hreply, Option.some.injEq] at hst
              subst hst
              exact .held rfl (hrun Conn.grows_commit hp) hp
          | cancelled =>
              simp only [hturn, hreply, Option.some.injEq] at hst
              subst hst
              obtain ⟨effect, rfl⟩ := Conn.run_cancelled hreply
              refine .released rfl (hrun Conn.grows_commit hp) fun _ => ?_
              exact Conn.ends_commit.run_cancelled (by simpa [foreseen, hturn] using hok)
      | undoing =>
          cases hreply : (s.conn.run Conn.rollback o).2 with
          | ok =>
              simp only [hturn, hreply, Option.some.injEq] at hst
              subst hst
              exact .released rfl (hrun Conn.grows_rollback hturnOk) fun _ =>
                Conn.ends_rollback.run_ok hreply
          | raised error =>
              simp only [hturn, hreply, Option.some.injEq] at hst
              subst hst
              exact .released rfl (hrun Conn.grows_rollback hturnOk) fun hp => by cases hp
          | cancelled =>
              simp only [hturn, hreply, Option.some.injEq] at hst
              subst hst
              obtain ⟨effect, rfl⟩ := Conn.run_cancelled hreply
              refine .released rfl (hrun Conn.grows_rollback hturnOk) fun _ => ?_
              exact Conn.ends_rollback.run_cancelled (by simpa [foreseen, hturn] using hok)
      | recoverRollback =>
          have hafter : s.poisoned = none → (s.conn.run Conn.rollback o).1.inTransaction = false :=
            fun hp => Conn.ends_rollback.run (hturnOk hp)
          by_cases hreply : (s.conn.run Conn.rollback o).2 = .cancelled
          · simp only [hturn, hreply, Option.some.injEq] at hst
            subst hst
            exact .released rfl (hrecovers Conn.grows_rollback) hafter
          · simp only [hturn] at hst
            split at hst
            · obtain rfl := Option.some.inj hst
              exact .released rfl (hrecovers Conn.grows_rollback) hafter
            split at hst
            · next hopen =>
                obtain rfl := Option.some.inj hst
                refine .held rfl (hrecovers Conn.grows_rollback) fun hp => ?_
                exact absurd hopen (Bool.eq_false_iff.mp (hafter hp))
            · next hclosed =>
                obtain rfl := Option.some.inj hst
                exact .released rfl (hrecovers Conn.grows_rollback) fun _ =>
                  (Bool.not_eq_true _).mp hclosed
      | recoverClose =>
          by_cases hreply : (s.conn.run Conn.close o).2 = .cancelled
          · simp only [hturn, hreply, Option.some.injEq] at hst
            subst hst
            exact .released rfl (hrecovers Conn.grows_close) fun hp => absurd hp hturnOk
          · simp only [hturn, Option.some.injEq] at hst
            subst hst
            exact .held rfl (hrecovers Conn.grows_close) hturnOk
      | reopen =>
          cases o with
          | done =>
              simp only [hturn, Option.some.injEq] at hst
              subst hst
              have hbase : Base { committed := s.conn.committed } s.statements s.returned :=
                ⟨fun w hw => Session.noConfusion hw, h.base.refused, h.base.kept⟩
              exact .released rfl hbase fun _ => rfl
          | failed error effect =>
              simp only [hturn, Option.some.injEq] at hst
              subst hst
              exact .released rfl h.base fun hp => by cases hp
          | cancelled effect =>
              simp only [hturn, Option.some.injEq] at hst
              subst hst
              exact .released rfl h.base fun hp => absurd hp hturnOk
      | _ => simp [hturn] at hst

theorem Inv.step (h : Inv s) (hok : foreseen s e = true) (hst : s.step e = some t) : Inv t := by
  cases e with
  | call k =>
      cases k with
      | recover =>
          obtain rfl := Option.some.inj hst
          exact ⟨h.base, h.idle, h.turn⟩
      | _ =>
          simp only [State.step] at hst
          split at hst
          · obtain rfl := Option.some.inj hst
            exact h
          · obtain rfl := Option.some.inj hst
            exact ⟨h.base, h.idle, h.turn⟩
  | enterRecovery =>
      simp only [State.step] at hst
      split at hst
      · cases hst
      split at hst
      · obtain rfl := Option.some.inj hst
        exact ⟨h.base, h.idle, h.turn⟩
      · obtain rfl := Option.some.inj hst
        exact ⟨h.base, h.idle, h.turn⟩
  | giveUp i =>
      simp only [State.step] at hst
      split at hst
      · obtain rfl := Option.some.inj hst
        exact ⟨h.base, h.idle, h.turn⟩
      · cases hst
  | giveUpRecovery =>
      simp only [State.step] at hst
      split at hst
      · cases hst
      · obtain rfl := Option.some.inj hst
        exact ⟨h.base, h.idle, h.turn⟩
  | acquire =>
      simp only [State.step] at hst
      split at hst
      · next k rest hturn hwait =>
          obtain rfl := Option.some.inj hst
          have hidle := h.idle hturn
          refine .held rfl h.base ?_
          cases k with
          | recover => exact hidle
          | _ =>
              have hp : s.poisoned = none := by simpa [foreseen, hwait] using hok
              exact ⟨hp, hidle hp⟩
      · cases hst
  | statement write o => exact h.statement hst
  | leave raised =>
      cases raised <;> simp only [State.step] at hst
      · split at hst
        · next k ws hturn =>
            obtain rfl := Option.some.inj hst
            exact .held rfl h.base (h.turn (.body k ws) hturn)
        · cases hst
      · split at hst
        · next ws hturn =>
            obtain rfl := Option.some.inj hst
            exact .held rfl h.base (h.turn _ hturn).1
        · cases hst
  | answer o => exact h.answer hok hst

theorem inv_of_reaches (h : Run.Reaches system (fun s e => foreseen s e = true) s) : Inv s :=
  h.invariant ⟨⟨fun w hw => Session.noConfusion hw, by simp [system], by simp [system]⟩,
      fun _ _ => rfl, fun _ hturn => by cases hturn⟩
    fun _ _ _ hinv hok hst => hinv.step hok hst

/-! ## the result -/

/-- What has returned stays on record. -/
theorem returned_statement {write : Bool} (hst : s.runStatement write o = some t) :
    s.returned ⊆ t.returned := by
  unfold State.runStatement State.exec at hst
  dsimp only at hst
  split at hst <;> cases hst
  · exact List.subset_append_left _ _
  all_goals exact fun _ hw => hw

theorem returned_checkClosed (ws : List Nat) : s.returned ⊆ (s.checkClosed ws).returned := by
  unfold State.checkClosed
  split
  · exact fun _ hw => hw
  · exact List.subset_append_left _ _

theorem returned_answer (hst : s.runAnswer o = some t) : s.returned ⊆ t.returned := by
  have hclosed := returned_checkClosed (s := t)
  simp only [State.runAnswer, State.exec] at hst
  grind [State.checkClosed, State.release, State.recovered, State.poison]

theorem returned_subset (hst : s.step e = some t) : s.returned ⊆ t.returned := by
  cases e with
  | statement write o => exact returned_statement hst
  | answer o => exact returned_answer hst
  | call k => cases k <;> grind [State.step]
  | leave raised => cases raised <;> grind [State.step]
  | _ => grind [State.step]

/-- **The wrapper fails closed** in every run that it foresees, and no later step
of such a run undoes a write that returned. -/
theorem fails_closed (h : Run.Reaches system (fun s e => foreseen s e = true) s) :
    FailsClosed s ∧ ∀ t, Run.Leads system (fun s e => foreseen s e = true) s t →
      ∀ w ∈ s.returned, w ∈ t.conn.committed := by
  have hinv := inv_of_reaches h
  refine ⟨⟨hinv.idle, hinv.base.refused, hinv.base.kept⟩, fun t hleads w hw => ?_⟩
  have hstays : w ∈ t.returned :=
    hleads.stable (fun s => w ∈ s.returned) (fun _ _ h => h)
      (fun _ _ _ _ hmem _ hst => returned_subset hst hmem) h hw
  exact (inv_of_reaches (hleads.reaches (fun _ _ h => h) h)).base.kept w hstays

/-! ## two runs -/

/-- A `COMMIT` fails, the `ROLLBACK` after it too, and the connection is given up;
`recover` rolls back what is open, and the next write is kept. -/
theorem fails_closed_recovers :
    ∃ s, Run.Reaches system (fun s e => foreseen s e = true) s ∧
      (s.poisoned = none ∧ s.writeFailures = 1 ∧ s.returned = [1]) ∧ FailsClosed s := by
  obtain ⟨s, hs, hfinal⟩ := Run.Reaches.exists_of_play system foreseen
    [.call .transaction, .acquire, .answer .done, .statement true .done, .leave false,
      .answer (.failed "OperationalError" false), .answer (.failed "OperationalError" false),
      .call .execute, .call .recover, .enterRecovery, .acquire, .answer .done,
      .call .execute, .acquire, .statement true .done]
    (fun s => s.poisoned.isNone && s.writeFailures == 1 && s.returned == [1]) rfl
  simp only [Bool.and_eq_true, Option.isNone_iff_eq_none, beq_iff_eq] at hfinal
  exact ⟨s, hs, ⟨hfinal.1.1, hfinal.1.2, hfinal.2⟩, (fails_closed hs).1⟩

/-- A `COMMIT` is cancelled before it takes effect.  Nothing marks the connection,
the next write goes into the transaction left open, and returns. -/
theorem not_fails_closed : ¬ ∀ s, Run.Reaches system Run.anyStep s → FailsClosed s := by
  intro hall
  obtain ⟨s, hs, hfinal⟩ := Run.Reaches.exists_of_play system (fun _ _ => true)
    [.call .transaction, .acquire, .answer .done, .leave false, .answer (.cancelled false),
      .call .execute, .acquire, .statement true .done]
    (fun s => s.poisoned.isNone && s.returned == [0] && s.conn.committed == []) rfl
  simp only [Bool.and_eq_true, beq_iff_eq] at hfinal
  have hkept := (hall s (hs.mono fun _ _ _ => trivial)).kept 0 (by simp [hfinal.1.2])
  simp [hfinal.2] at hkept

end Telemax.Database
