import Mathlib.Data.List.Pairwise
import Telemax.OwnerEcho.System

/-!
# Telemax.OwnerEcho.InOrder

Where every echo that finds its fingerprint at the head is in its turn, the
bindings are in order and none is a guess.  Without that they are not: two
deliveries with one text are bound crosswise when the echo of the second comes
first, since nothing but the head's fingerprint is looked at.
-/

namespace Telemax.OwnerEcho

open Script MessageMap

variable {account : Int} {bridgeOf : Int → Option String}

namespace State

variable {s t : State}

/-! ## what never goes back -/

/-- A later state: what was shown, recorded and given up on stays, and no row waits again. -/
structure Later (s t : State) : Prop where
  shown : ∀ x ∈ s.shown, x ∈ t.shown
  errors : ∀ i ∈ s.errors, i ∈ t.errors
  next : s.map.next ≤ t.map.next
  recorded : ∀ i, i < s.map.next → t.recorded i = s.recorded i
  rows : ∀ i, i < s.map.next → ∀ r', t.map.get? i = some r' → ∃ r, s.map.get? i = some r ∧
    r'.telegramBotId = r.telegramBotId ∧ r'.direction = r.direction ∧
    (r'.telegramOwnerMessageId = none → r.telegramOwnerMessageId = none)

/-- A row that waits later on was waiting before. -/
theorem Later.waits (h : s.Later t) {bot : Int} {i : Nat} {r' : MessageLink}
    (hi : i < s.map.next) (hr' : t.map.get? i = some r') (hw : t.waits bot i r' = true) :
    ∃ r, s.map.get? i = some r ∧ s.waits bot i r = true := by
  obtain ⟨r, hr, hbot, hdir, howner⟩ := h.rows i hi r' hr'
  refine ⟨r, hr, ?_⟩
  simp only [State.waits, Bool.and_eq_true, beq_iff_eq, Option.isNone_iff_eq_none] at hw ⊢
  rw [← hbot, ← hdir, ← h.recorded i hi]
  exact ⟨⟨hw.1.1, howner hw.1.2⟩, hw.2⟩

/-! ## the invariant -/

/-- Telegram shows this row's message under this id. -/
structure Own (s : State) (row : Nat) (bot owner : Int) (fingerprint : String) : Prop where
  shown : ⟨some row, bot, owner, fingerprint⟩ ∈ s.shown
  known : row < s.map.next
  recorded : s.recorded row = some fingerprint

/-- An error was recorded for every older row of the bot that waits. -/
def Passed (s : State) (row : Nat) (bot : Int) : Prop :=
  ∀ i r, i < row → s.map.get? i = some r → s.waits bot i r = true → i ∈ s.errors

/-- The row an attempt has found is the echo's own. -/
def Found (s : State) (p : EchoPayload) (row : Nat) : Prop :=
  s.Own row p.botId p.ownerMessageId p.fingerprint ∧ s.Passed row p.botId

/-- A job is for a message that was shown. -/
def Genuine (s : State) (account : Int) (p : EchoPayload) : Prop :=
  p.accountId = account ∧ ∃ row, ⟨row, p.botId, p.ownerMessageId, p.fingerprint⟩ ∈ s.shown

/-- An attempt keeps to the text, and has seen what is there. -/
def Follows (s : State) (account : Int) (a : EchoPayload × Prog Unit) : Prop :=
  s.Genuine account a.1 ∧ ∃ σ : Seen, Obeys (discipline a.1) σ a.2 (fun _ _ => True) ∧
    (∀ i, σ.found = some i → s.Found a.1 i) ∧ ∀ i, σ.noted = some i → i ∈ s.errors

/-- What is shown later is shown under a greater id, and a bot's rows in their order. -/
def Before (y x : Shown) : Prop :=
  y.owner < x.owner ∧ ∀ i, x.row = some i → y.row ≠ some i ∧
    ∀ j, y.row = some j → y.bot = x.bot → j < i

structure Kept (account : Int) (s : State) : Prop where
  rows : ∀ i r, s.map.get? i = some r → r.direction = .maxToTg ∧
    (r.echoFingerprint = s.recorded i ∨ (r.echoFingerprint = none ∧ i ∈ s.errors))
  shown : s.shown.Pairwise Before
  bots : ∀ x ∈ s.shown, ∀ i, x.row = some i → i < s.map.next ∧
    ∀ r, s.map.get? i = some r → r.telegramBotId = x.bot
  jobs : ∀ p ∈ s.jobs, s.Genuine account p
  attempts : ∀ a ∈ s.attempts, s.Follows account a
  carried : ∀ i r x, s.map.get? i = some r → r.telegramOwnerMessageId = some x →
    ∃ b ∈ s.bindings, b.row = i ∧ b.owner = x
  bindings : ∀ b ∈ s.bindings, (∃ f, s.Own b.row b.bot b.owner f) ∧ ∀ j ∈ b.older, j ∈ s.errors

theorem Own.later {row : Nat} {bot owner : Int} {f : String} (h : s.Own row bot owner f)
    (hl : s.Later t) : t.Own row bot owner f where
  shown := hl.shown _ h.shown
  known := Nat.lt_of_lt_of_le h.known hl.next
  recorded := (hl.recorded row h.known).trans h.recorded

theorem Found.later {p : EchoPayload} {row : Nat} (h : s.Found p row) (hl : s.Later t) :
    t.Found p row := by
  refine ⟨h.1.later hl, fun i r hi hr hw => ?_⟩
  obtain ⟨r', hr', hw'⟩ := hl.waits (Nat.lt_trans hi h.1.known) hr hw
  exact hl.errors i (h.2 i r' hi hr' hw')

theorem Genuine.later {p : EchoPayload} (h : s.Genuine account p) (hl : s.Later t) :
    t.Genuine account p :=
  ⟨h.1, h.2.imp fun _ hx => hl.shown _ hx⟩

theorem Follows.later {a : EchoPayload × Prog Unit} (h : s.Follows account a) (hl : s.Later t) :
    t.Follows account a := by
  obtain ⟨hp, σ, hobeys, hfound, hnoted⟩ := h
  exact ⟨hp.later hl, σ, hobeys, fun i hi => (hfound i hi).later hl, fun i hi => hl.errors i (hnoted i hi)⟩

/-! ## order -/

/-- Of two messages shown, one is before the other. -/
theorem Kept.comparable (h : Kept account s) {x y : Shown} (hx : x ∈ s.shown) (hy : y ∈ s.shown) :
    x = y ∨ Before x y ∨ Before y x := by
  have hsymm : Std.Symm fun x y : Shown => x = y ∨ Before x y ∨ Before y x :=
    ⟨fun _ _ h => h.elim (fun h => .inl h.symm) fun h => .inr h.symm⟩
  have hall : s.shown.Pairwise fun x y => x = y ∨ Before x y ∨ Before y x :=
    h.shown.imp fun h => .inr (.inl h)
  exact hall.forall_of_forall (fun _ _ => .inl rfl) hx hy

/-- Telegram shows one message under one id. -/
theorem Kept.same (h : Kept account s) {x y : Shown} (hx : x ∈ s.shown) (hy : y ∈ s.shown)
    (howner : x.owner = y.owner) : x = y := by
  rcases h.comparable hx hy with heq | hlt | hlt
  · exact heq
  · exact absurd howner (Int.ne_of_lt hlt.1)
  · exact absurd howner.symm (Int.ne_of_lt hlt.1)

theorem Kept.inOrder (h : Kept account s) : s.InOrder where
  content b hb := by
    obtain ⟨⟨f, hown⟩, _⟩ := h.bindings b hb
    exact ⟨_, hown.shown, rfl, hown.recorded⟩
  oneRow b hb b' hb' howner := by
    obtain ⟨⟨f, hown⟩, _⟩ := h.bindings b hb
    obtain ⟨⟨f', hown'⟩, _⟩ := h.bindings b' hb'
    exact Option.some.inj (congrArg Shown.row (h.same hown.shown hown'.shown howner))
  oneOwner b hb b' hb' hrow := by
    obtain ⟨⟨f, hown⟩, _⟩ := h.bindings b hb
    obtain ⟨⟨f', hown'⟩, _⟩ := h.bindings b' hb'
    rcases h.comparable hown.shown hown'.shown with heq | hlt | hlt
    · exact congrArg Shown.owner heq
    · exact absurd (congrArg some hrow) (hlt.2 _ rfl).1
    · exact absurd (congrArg some hrow.symm) (hlt.2 _ rfl).1
  carried := h.carried
  ordered b hb b' hb' hbot hrow := by
    obtain ⟨⟨f, hown⟩, _⟩ := h.bindings b hb
    obtain ⟨⟨f', hown'⟩, _⟩ := h.bindings b' hb'
    rcases h.comparable hown.shown hown'.shown with heq | hlt | hlt
    · exact absurd (Option.some.inj (congrArg Shown.row heq)) (Nat.ne_of_lt hrow)
    · exact hlt.1
    · exact absurd ((hlt.2 _ rfl).2 _ rfl hbot.symm) (Nat.lt_asymm hrow)
  loud b hb := (h.bindings b hb).2

/-! ## the head -/

theorem matching_some {fingerprint : String} {head : Option (Nat × MessageLink)} {row : Nat}
    (h : matching fingerprint head = some row) :
    ∃ r, head = some (row, r) ∧ r.echoFingerprint = some fingerprint := by
  rcases head with _ | ⟨id, r⟩
  · cases h
  · simp only [matching] at h
    split at h
    · next hfp => exact ⟨r, by rw [Option.some.inj h], hfp⟩
    · cases h

/-- The older rows of the bot that wait without being bindable have an error. -/
theorem Kept.passed (h : Kept account s) {bot : Int} {row : Nat} {r : MessageLink}
    (hhead : s.map.oldestUnboundEcho bot = some (row, r)) : s.Passed row bot := by
  intro i ri hi hri hw
  obtain ⟨hdir, hsame | ⟨_, herror⟩⟩ := h.rows i ri hri
  · -- a row that still has its fingerprint would be the head
    have hunbound : unboundEcho bot ri = true := by
      simp only [State.waits, unboundEcho, Bool.and_eq_true] at hw ⊢
      rw [hsame]
      exact hw
    exact absurd (Table.first_le hhead hri hunbound) (Nat.not_le.mpr hi)
  · exact herror

/-- What a look at the head finds in its turn is the echo's own row. -/
theorem Kept.found (h : Kept account s) {p : EchoPayload} {row : Nat}
    (hp : s.Genuine account p)
    (hmatch : matching p.fingerprint (s.map.oldestUnboundEcho p.botId) = some row)
    (hturn : s.inTurn p = true) : s.Found p row := by
  obtain ⟨r, hhead, hfp⟩ := matching_some hmatch
  obtain ⟨hr, hunbound⟩ := Table.first_some hhead
  obtain ⟨own, hown, hturn⟩ := (Option.any_eq_true _ _).mp hturn
  obtain ⟨x, hfind, hxrow⟩ := Option.bind_eq_some_iff.mp hown
  have hx : x ∈ s.shown := List.mem_of_find?_eq_some hfind
  obtain ⟨shown, hshown⟩ := hp.2
  have hxowner : x.owner = p.ownerMessageId := by simpa using List.find?_some hfind
  obtain rfl : x = ⟨shown, p.botId, p.ownerMessageId, p.fingerprint⟩ := h.same hx hshown hxowner
  obtain rfl : shown = some own := hxrow
  simp only [Bool.and_eq_true, Bool.not_eq_true', Option.any_eq_true] at hturn
  obtain ⟨⟨ro, hro, hounbound, hofp⟩, hnone⟩ := hturn
  -- the head is not behind the echo's own row, and not an older one with its fingerprint
  have hle : row ≤ own := Table.first_le hhead hro hounbound
  have hge : ¬row < own := by
    intro hlt
    have hholds : s.map.holdsOf (fun j r => decide (j < own) && unboundEcho p.botId r &&
        r.echoFingerprint == some p.fingerprint) = true :=
      Table.holdsOf_iff.mpr ⟨row, r, hr, by simp [hlt, hunbound, hfp]⟩
    rw [hholds] at hnone
    cases hnone
  obtain rfl : row = own := Nat.le_antisymm hle (Nat.not_lt.mp hge)
  refine ⟨⟨hshown, (h.bots _ hshown row rfl).1, ?_⟩, h.passed hhead⟩
  obtain ⟨_, hsame | ⟨hgone, _⟩⟩ := h.rows row r hr
  · rw [← hsame, hfp]
  · rw [hgone] at hfp
    cases hfp

/-! ## the statements of an attempt -/

variable {n : Nat} {p : EchoPayload} {op : Op} {k : op.Outcome → Prog Unit}

/-- An attempt goes on to a later state, and the others stay. -/
theorem Kept.goes_on (h : Kept account s) (hl : s.Later t) {x : Prog Unit}
    (hx : t.Follows account (p, x)) : ∀ a ∈ s.attempts.set n (p, x), t.Follows account a := by
  intro a ha
  rcases List.mem_or_eq_of_mem_set ha with hold | rfl
  · exact (h.attempts a hold).later hl
  · exact hx

/-- A state whose rows were there before, waiting where they wait now. -/
theorem later_of_rows (hshown : ∀ x ∈ s.shown, x ∈ t.shown) (herrors : ∀ i ∈ s.errors, i ∈ t.errors)
    (hnext : t.map.next = s.map.next) (hrecorded : t.recorded = s.recorded)
    (hrows : ∀ i r', t.map.get? i = some r' → ∃ r, s.map.get? i = some r ∧
      r'.telegramBotId = r.telegramBotId ∧ r'.direction = r.direction ∧
      (r'.telegramOwnerMessageId = none → r.telegramOwnerMessageId = none)) : s.Later t where
  shown := hshown
  errors := herrors
  next := Nat.le_of_eq hnext.symm
  recorded i _ := by rw [hrecorded]
  rows i _ := hrows i

theorem Kept.bindings_later (h : Kept account s) (hl : s.Later t) :
    ∀ b ∈ s.bindings, (∃ f, t.Own b.row b.bot b.owner f) ∧ ∀ j ∈ b.older, j ∈ t.errors :=
  fun b hb => ⟨(h.bindings b hb).1.imp fun _ ho => ho.later hl,
    fun j hj => hl.errors j ((h.bindings b hb).2 j hj)⟩

/-- A statement that only reads, or records an error. -/
theorem Kept.notes (h : Kept account s) {errors : List Nat} (herr : ∀ i ∈ s.errors, i ∈ errors)
    {x : Prog Unit}
    (hx : ∀ t : State, s.Later t → t.errors = errors → t.Follows account (p, x)) :
    Kept account { s with errors := errors, attempts := s.attempts.set n (p, x) } := by
  have hl : s.Later { s with errors := errors, attempts := s.attempts.set n (p, x) } :=
    later_of_rows (fun _ h => h) herr rfl rfl fun _ r hr => ⟨r, hr, rfl, rfl, id⟩
  exact {
    rows := fun i r hr => (h.rows i r hr).imp_right fun hfp => hfp.imp_right (.imp_right (herr i))
    shown := h.shown
    bots := h.bots
    jobs := fun q hq => (h.jobs q hq).later hl
    attempts := h.goes_on hl (hx _ hl rfl)
    carried := h.carried
    bindings := h.bindings_later hl }

/-- A row is given up on, an error having been recorded for it. -/
theorem Kept.stops (h : Kept account s) {link : Nat} (herror : link ∈ s.errors) {x : Prog Unit}
    (hx : s.Follows account (p, x)) :
    Kept account { s with
      map := s.map.stopBinding link, attempts := s.attempts.set n (p, x) } := by
  have hrow {i : Nat} {r' : MessageLink} (hr' : (s.map.stopBinding link).get? i = some r') :
      ∃ r, s.map.get? i = some r ∧
        (r' = r ∨ (i = link ∧ r' = { r with echoFingerprint := none })) := by
    rw [stopBinding, Table.get?_update] at hr'
    obtain ⟨r, hr, rfl⟩ := Option.map_eq_some_iff.mp hr'
    refine ⟨r, hr, ?_⟩
    split
    · next hq =>
        simp only [Bool.and_eq_true, beq_iff_eq] at hq
        exact .inr ⟨hq.1, rfl⟩
    · exact .inl rfl
  have hl : s.Later { s with
      map := s.map.stopBinding link, attempts := s.attempts.set n (p, x) } :=
    later_of_rows (fun _ h => h) (fun _ h => h) rfl rfl fun i r' hr' => by
      obtain ⟨_, hr, rfl | ⟨_, rfl⟩⟩ := hrow hr' <;> exact ⟨_, hr, rfl, rfl, id⟩
  exact {
    rows := fun i r' hr' => by
      obtain ⟨r, hr, rfl | ⟨rfl, rfl⟩⟩ := hrow hr'
      · exact h.rows i r' hr
      · exact ⟨(h.rows i r hr).1, .inr ⟨rfl, herror⟩⟩
    shown := h.shown
    bots := fun x hx i hi => ⟨(h.bots x hx i hi).1, fun r' hr' => by
      obtain ⟨r, hr, hrow⟩ := hrow hr'
      have hbot := (h.bots x hx i hi).2 r hr
      rcases hrow with rfl | ⟨_, rfl⟩ <;> exact hbot⟩
    jobs := fun q hq => (h.jobs q hq).later hl
    attempts := h.goes_on hl (hx.later hl)
    carried := fun i r' y hr' hy => by
      obtain ⟨_, hr, rfl | ⟨_, rfl⟩⟩ := hrow hr' <;> exact h.carried i _ y hr hy
    bindings := h.bindings_later hl }

/-- The echo's own row is bound. -/
theorem Kept.binds (h : Kept account s) {link : Nat} {r : MessageLink} (hfound : s.Found p link)
    (hr : s.map.get? link = some r) {x : Prog Unit} (hx : s.Follows account (p, x)) :
    Kept account { s with
      map := s.map.bindOwnerMessage link p.accountId p.ownerMessageId
      bindings := s.bindings ++
        [⟨link, r.telegramBotId, p.ownerMessageId, s.olderWaiting r.telegramBotId link⟩]
      attempts := s.attempts.set n (p, x) } := by
  have hbot : r.telegramBotId = p.botId := (h.bots _ hfound.1.shown link rfl).2 r hr
  have hrow {i : Nat} {r' : MessageLink}
      (hr' : (s.map.bindOwnerMessage link p.accountId p.ownerMessageId).get? i = some r') :
      ∃ r, s.map.get? i = some r ∧ (r' = r ∨ (i = link ∧
        r' = { r with telegramOwnerMessageId := some p.ownerMessageId,
                      telegramOwnerAccountId := some p.accountId })) := by
    rw [bindOwnerMessage, Table.get?_update] at hr'
    obtain ⟨r, hr, rfl⟩ := Option.map_eq_some_iff.mp hr'
    refine ⟨r, hr, ?_⟩
    split
    · next hq =>
        simp only [Bool.and_eq_true, beq_iff_eq] at hq
        exact .inr ⟨hq.1, rfl⟩
    · exact .inl rfl
  have hl : s.Later { s with
      map := s.map.bindOwnerMessage link p.accountId p.ownerMessageId
      bindings := s.bindings ++
        [⟨link, r.telegramBotId, p.ownerMessageId, s.olderWaiting r.telegramBotId link⟩]
      attempts := s.attempts.set n (p, x) } :=
    later_of_rows (fun _ h => h) (fun _ h => h) rfl rfl fun i r' hr' => by
      obtain ⟨r, hr, rfl | ⟨_, rfl⟩⟩ := hrow hr'
      · exact ⟨r', hr, rfl, rfl, id⟩
      · exact ⟨r, hr, rfl, rfl, nofun⟩
  exact {
    rows := fun i r' hr' => by
      obtain ⟨r, hr, hrow⟩ := hrow hr'
      have hold := h.rows i r hr
      rcases hrow with rfl | ⟨_, rfl⟩ <;> exact hold
    shown := h.shown
    bots := fun x hx i hi => ⟨(h.bots x hx i hi).1, fun r' hr' => by
      obtain ⟨r, hr, hrow⟩ := hrow hr'
      have hbot := (h.bots x hx i hi).2 r hr
      rcases hrow with rfl | ⟨_, rfl⟩ <;> exact hbot⟩
    jobs := fun q hq => (h.jobs q hq).later hl
    attempts := h.goes_on hl (hx.later hl)
    carried := fun i r' y hr' hy => by
      obtain ⟨r, hr, rfl | ⟨rfl, rfl⟩⟩ := hrow hr'
      · obtain ⟨b, hb, heq⟩ := h.carried i r' y hr hy
        exact ⟨b, List.mem_append_left _ hb, heq⟩
      · exact ⟨_, List.mem_append_right _ (List.mem_singleton_self _), rfl, Option.some.inj hy⟩
    bindings := fun b hb => by
      rcases List.mem_append.mp hb with hold | hnew
      · exact h.bindings_later hl b hold
      · obtain rfl := List.mem_singleton.mp hnew
        refine ⟨⟨p.fingerprint, (hbot ▸ hfound.1).later hl⟩, fun j hj => ?_⟩
        obtain ⟨⟨j, rj⟩, hmem, rfl⟩ := List.mem_map.mp hj
        obtain ⟨hrj, hw⟩ := Table.mem_select.mp hmem
        simp only [Bool.and_eq_true, decide_eq_true_eq, hbot] at hw
        exact hfound.2 j rj hw.1 hrj hw.2 }

/-- One statement of an attempt, a look at the head being made in its turn. -/
theorem Kept.exec (h : Kept account s) (hn : s.attempts[n]? = some (p, .ask op k))
    (hok : s.takesTurns (.step n) = true) :
    Kept account { (s.exec op).2 with
      attempts := (s.exec op).2.attempts.set n (p, k (s.exec op).1) } := by
  obtain ⟨hp, σ, hobeys, hfound, hnoted⟩ := h.attempts _ (List.mem_of_getElem? hn)
  obtain ⟨hallowed, hnext⟩ := obeys_ask.mp hobeys
  simp only [State.takesTurns, hn] at hok
  cases op with
  | byOwnerAccountMessage a m =>
      exact h.notes (fun _ h => h) fun t hl _ =>
        Follows.later ⟨hp, σ, hnext _, hfound, hnoted⟩ hl
  | oldestUnboundEcho bot =>
      obtain rfl : bot = p.botId := hallowed
      refine h.notes (fun _ h => h) fun t hl herr =>
        Follows.later ⟨hp, _, hnext _, fun i hi => ?_, hnoted⟩ hl
      have hmatch : matching p.fingerprint (s.map.oldestUnboundEcho p.botId) = some i := hi
      refine h.found hp hmatch ?_
      simpa [hmatch] using hok
  | bindOwnerMessage link a m =>
      obtain ⟨hlink, haccount, hmessage⟩ := hallowed
      obtain rfl : a = p.accountId := haccount
      obtain rfl : m = p.ownerMessageId := hmessage
      simp only [State.exec, State.bind]
      split
      · next r hr =>
          split
          · exact h.binds (hfound link hlink) hr ⟨hp, σ, hnext true, hfound, hnoted⟩
          · exact h.notes (fun _ h => h) fun t hl herr =>
              Follows.later ⟨hp, σ, hnext false, hfound, hnoted⟩ hl
      · exact h.notes (fun _ h => h) fun t hl herr =>
          Follows.later ⟨hp, σ, hnext false, hfound, hnoted⟩ hl
  | nowMs =>
      exact h.notes (fun _ h => h) fun t hl _ =>
        Follows.later ⟨hp, σ, hnext _, hfound, hnoted⟩ hl
  | noteError bridge head text =>
      refine h.notes (fun _ hi => List.mem_append_left _ hi) fun t hl herr => ?_
      refine ⟨hp.later hl, _, hnext (), fun i hi => (hfound i hi).later hl, fun i hi => ?_⟩
      obtain rfl : head = i := Option.some.inj hi
      exact herr ▸ List.mem_append_right _ (List.mem_singleton_self _)
  | stopBinding link =>
      exact h.stops (hnoted link hallowed) ⟨hp, σ, hnext (), hfound, hnoted⟩

/-! ## steps -/

/-- A step that moves no attempt, and after which every row was there before. -/
theorem Kept.outside (h : Kept account s) (hl : s.Later t)
    (hrows : ∀ i r, t.map.get? i = some r → s.map.get? i = some r)
    (hrecorded : t.recorded = s.recorded) (hshown : t.shown = s.shown)
    (hbindings : t.bindings = s.bindings) (herrors : t.errors = s.errors)
    (hjobs : ∀ q ∈ t.jobs, t.Genuine account q)
    (hattempts : ∀ a ∈ t.attempts, t.Follows account a) : Kept account t where
  rows i r hr := by
    rw [hrecorded, herrors]
    exact h.rows i r (hrows i r hr)
  shown := hshown ▸ h.shown
  bots x hx i hi := by
    obtain ⟨hlt, hbot⟩ := h.bots x (hshown ▸ hx) i hi
    exact ⟨Nat.lt_of_lt_of_le hlt hl.next, fun r hr => hbot r (hrows i r hr)⟩
  jobs := hjobs
  attempts := hattempts
  carried i r y hr hy := by
    rw [hbindings]
    exact h.carried i r y (hrows i r hr) hy
  bindings b hb := h.bindings_later hl b (hbindings ▸ hb)

/-- A message from MAX is claimed. -/
theorem Kept.claims (h : Kept account s) {r : MessageLink} (hdir : r.direction = .maxToTg)
    (howner : r.telegramOwnerMessageId = none) :
    Kept account { s with
      map := s.map.insert r
      recorded := fun i => if i = s.map.next then r.echoFingerprint else s.recorded i } := by
  have hne {i : Nat} (hi : i < s.map.next) : i ≠ s.map.next := Nat.ne_of_lt hi
  have hl : s.Later { s with
      map := s.map.insert r
      recorded := fun i => if i = s.map.next then r.echoFingerprint else s.recorded i } := {
    shown := fun _ h => h
    errors := fun _ h => h
    next := Nat.le_succ _
    recorded := fun i hi => if_neg (hne hi)
    rows := fun i hi r' hr' => by
      have hr' : (s.map.insert r).get? i = some r' := hr'
      rw [Table.get?_insert, if_neg (hne hi)] at hr'
      exact ⟨r', hr', rfl, rfl, id⟩ }
  refine ⟨fun i r' hr' => ?_, h.shown, fun x hx i hi => ?_, fun q hq => (h.jobs q hq).later hl,
    fun a ha => (h.attempts a ha).later hl, fun i r' y hr' hy => ?_, h.bindings_later hl⟩
  · have hr' : (s.map.insert r).get? i = some r' := hr'
    rw [Table.get?_insert] at hr'
    split at hr'
    · next heq =>
        obtain rfl := Option.some.inj hr'
        exact ⟨hdir, .inl (if_pos heq).symm⟩
    · next hnew =>
        obtain ⟨hold, hfp⟩ := h.rows i r' hr'
        exact ⟨hold, hfp.imp_left fun heq => heq.trans (if_neg hnew).symm⟩
  · obtain ⟨hlt, hbot⟩ := h.bots x hx i hi
    refine ⟨Nat.lt_succ_of_lt hlt, fun r' hr' => hbot r' ?_⟩
    have hr' : (s.map.insert r).get? i = some r' := hr'
    rwa [Table.get?_insert, if_neg (hne hlt)] at hr'
  · have hr' : (s.map.insert r).get? i = some r' := hr'
    rw [Table.get?_insert] at hr'
    split at hr'
    · obtain rfl := Option.some.inj hr'
      rw [howner] at hy
      cases hy
    · exact h.carried i r' y hr' hy

/-- Telegram shows the owner a message. -/
theorem Kept.shows (h : Kept account s) {x : Shown} (hx : s.comesNext x = true) :
    Kept account { s with shown := s.shown ++ [x] } := by
  simp only [State.comesNext, Bool.and_eq_true, List.all_eq_true, decide_eq_true_eq] at hx
  obtain ⟨hbefore, hrow⟩ := hx
  have hown {i : Nat} (hi : x.row = some i) : ∃ r, s.map.get? i = some r ∧
      r.telegramBotId = x.bot ∧ ∀ y ∈ s.shown, y.row ≠ some i := by
    rw [hi, Option.all_some, Option.any_eq_true] at hrow
    obtain ⟨r, hr, hbot⟩ := hrow
    simp only [Bool.and_eq_true, beq_iff_eq, List.all_eq_true, bne_iff_ne] at hbot
    exact ⟨r, hr, hbot⟩
  have hl : s.Later { s with shown := s.shown ++ [x] } :=
    later_of_rows (fun _ hy => List.mem_append_left _ hy) (fun _ h => h) rfl rfl
      fun _ r hr => ⟨r, hr, rfl, rfl, id⟩
  refine ⟨h.rows, ?_, fun y hy i hi => ?_, fun q hq => (h.jobs q hq).later hl,
    fun a ha => (h.attempts a ha).later hl, h.carried, h.bindings_later hl⟩
  · refine List.pairwise_append.mpr ⟨h.shown, List.pairwise_singleton _ _, fun y hy z hz => ?_⟩
    obtain rfl := List.mem_singleton.mp hz
    obtain ⟨howner, horder⟩ := hbefore y hy
    refine ⟨howner, fun i hi => ?_⟩
    obtain ⟨r, hr, hbot, hnew⟩ := hown hi
    refine ⟨hnew y hy, fun j hj hyz => ?_⟩
    rw [hi, Option.all_some, hj, Option.all_some] at horder
    simpa [hyz] using horder
  · rcases List.mem_append.mp hy with hold | hnew
    · exact h.bots y hold i hi
    · obtain rfl := List.mem_singleton.mp hnew
      obtain ⟨r, hr, hbot, _⟩ := hown hi
      refine ⟨Table.lt_next hr, fun r' hr' => ?_⟩
      obtain rfl : r = r' := Option.some.inj (hr.symm.trans hr')
      exact hbot

/-- The job of an echo is put on the queue, or is there. -/
theorem Kept.submits (h : Kept account s) {x : Shown} (hx : x ∈ s.shown) :
    Kept account (s.submit account bridgeOf x) := by
  unfold State.submit
  split
  · exact h
  · split
    · exact h
    · next bridge _ _ =>
        refine h.outside (later_of_rows (fun _ h => h) (fun _ h => h) rfl rfl
          fun _ r hr => ⟨r, hr, rfl, rfl, id⟩) (fun _ _ h => h) rfl rfl rfl rfl (fun q hq => ?_)
          fun a ha => (h.attempts a ha).later (later_of_rows (fun _ h => h) (fun _ h => h) rfl rfl
            fun _ r hr => ⟨r, hr, rfl, rfl, id⟩)
        rcases List.mem_append.mp hq with hold | hnew
        · exact h.jobs q hold
        · obtain rfl := List.mem_singleton.mp hnew
          exact ⟨rfl, x.row, hx⟩

/-- **Step lemma**: where a look at the head is made in its turn, the invariant stays. -/
theorem Kept.step (h : Kept account s) {e : Event} (hok : s.takesTurns e = true)
    (hst : s.step account bridgeOf e = some t) : Kept account t := by
  have hsame {u : State} (hmap : u.map = s.map) (hshown : u.shown = s.shown)
      (hrecorded : u.recorded = s.recorded) (herrors : u.errors = s.errors) : s.Later u :=
    later_of_rows (fun _ hx => hshown ▸ hx) (fun _ hi => herrors ▸ hi) (by rw [hmap]) hrecorded
      fun _ r hr => ⟨r, hmap ▸ hr, rfl, rfl, id⟩
  cases e with
  | clock now =>
      obtain rfl := Option.some.inj hst
      have hl : s.Later { s with clock := now } := hsame rfl rfl rfl rfl
      exact h.outside hl (fun _ _ h => h) rfl rfl rfl rfl (fun q hq => (h.jobs q hq).later hl)
        fun a ha => (h.attempts a ha).later hl
  | claim bridge chat message bot telegramChat fingerprint =>
      simp only [State.step, claimFromMax] at hst
      split at hst
      · next m link hclaim =>
          split at hclaim
          · next m' hinsert =>
              obtain ⟨rfl, hlink⟩ := Prod.mk.inj hclaim
              obtain rfl := Option.some.inj hlink
              obtain rfl := Option.some.inj hst
              rw [tryInsert_eq_some hinsert]
              exact h.claims (r := newClaim bridge chat message bot telegramChat fingerprint s.clock)
                rfl rfl
          · cases hclaim
      · cases hst
  | forget link =>
      obtain rfl := Option.some.inj hst
      have hrows (i : Nat) (r : MessageLink) (hr : (s.map.forget link).get? i = some r) :
          s.map.get? i = some r := by
        rw [forget, Table.get?_delete, Option.filter_eq_some_iff] at hr
        exact hr.1
      have hl : s.Later { s with map := s.map.forget link } :=
        later_of_rows (fun _ h => h) (fun _ h => h) rfl rfl
          fun i r hr => ⟨r, hrows i r hr, rfl, rfl, id⟩
      exact h.outside hl hrows rfl rfl rfl rfl (fun q hq => (h.jobs q hq).later hl)
        fun a ha => (h.attempts a ha).later hl
  | shown x =>
      simp only [State.step] at hst
      split at hst
      · next hx =>
          obtain rfl := Option.some.inj hst
          exact h.shows hx
      · cases hst
  | echo n =>
      obtain ⟨x, hx, hst⟩ := Option.bind_eq_some_iff.mp hst
      obtain rfl := Option.some.inj hst
      exact h.submits (List.mem_of_getElem? hx)
  | attempt job =>
      obtain ⟨q, hq, hst⟩ := Option.bind_eq_some_iff.mp hst
      obtain rfl := Option.some.inj hst
      have hl : s.Later { s with attempts := s.attempts ++ [(q, resolveEcho q)] } :=
        hsame rfl rfl rfl rfl
      refine h.outside hl (fun _ _ h => h) rfl rfl rfl rfl (fun q hq => (h.jobs q hq).later hl)
        fun a ha => ?_
      rcases List.mem_append.mp ha with hold | hnew
      · exact (h.attempts a hold).later hl
      · obtain rfl := List.mem_singleton.mp hnew
        exact ⟨(h.jobs q (List.mem_of_getElem? hq)).later hl, ⟨none, none⟩, obeys_resolveEcho q _,
          nofun, nofun⟩
  | step n =>
      simp only [State.step] at hst
      split at hst
      · next q op k hn =>
          obtain rfl := Option.some.inj hst
          exact h.exec hn hok
      · cases hst
  | stops n =>
      obtain rfl := Option.some.inj hst
      have hl : s.Later { s with attempts := s.attempts.eraseIdx n } := hsame rfl rfl rfl rfl
      exact h.outside hl (fun _ _ h => h) rfl rfl rfl rfl (fun q hq => (h.jobs q hq).later hl)
        fun a ha => (h.attempts a (List.mem_of_mem_eraseIdx ha)).later hl

theorem kept_start (account : Int) : Kept account .start where
  rows _ _ h := by cases h
  shown := .nil
  bots _ h := by cases h
  jobs _ h := by cases h
  attempts _ h := by cases h
  carried _ _ _ h := by cases h
  bindings _ h := by cases h

end State

/-- **Echo binding keeps order and never guesses**, in every run in which an echo that finds its
fingerprint at the head is in its turn. -/
theorem echoes_in_order (account : Int) (bridgeOf : Int → Option String) (s : State)
    (h : Run.Reaches (sys account bridgeOf) (fun s e => s.takesTurns e = true) s) : s.InOrder := by
  have hkept : s.Kept account := by
    induction h with
    | start => exact State.kept_start account
    | step _ hok hst ih => exact ih.step hok hst
  exact hkept.inOrder

/-! ## two deliveries with one text -/

/-- Two messages with one text are delivered, and shown under 11 and 12. -/
def twice : List Event :=
  [.claim "bridge" 9 1 5 100 (some "t1:ok"), .claim "bridge" 9 2 5 100 (some "t1:ok"),
    .shown ⟨some 1, 5, 11, "t1:ok"⟩, .shown ⟨some 2, 5, 12, "t1:ok"⟩]

/-- The echo of a message shown comes, and its job's attempt runs to its end. -/
def binds (shown job : Nat) : List Event :=
  [.echo shown, .attempt job, .step job, .step job, .step job]

theorem echoes_in_order_twice :
    ∃ s, Run.Reaches (sys 3 fun _ => some "bridge") (fun s e => s.takesTurns e = true) s ∧
      s.bindings = [⟨1, 5, 11, []⟩, ⟨2, 5, 12, []⟩] ∧ s.InOrder := by
  obtain ⟨s, hs, hfinal⟩ := Run.Reaches.exists_of_play (sys 3 fun _ => some "bridge")
    State.takesTurns (twice ++ binds 0 0 ++ binds 1 1)
    (fun s => decide (s.bindings = [⟨1, 5, 11, []⟩, ⟨2, 5, 12, []⟩])) (by decide +kernel)
  exact ⟨s, hs, of_decide_eq_true hfinal, echoes_in_order 3 _ s hs⟩

/-- The echo of the second comes first: the two are bound crosswise. -/
theorem not_echoes_in_order :
    ∃ s, Run.Reaches (sys 3 fun _ => some "bridge") Run.anyStep s ∧
      s.bindings = [⟨1, 5, 12, []⟩, ⟨2, 5, 11, []⟩] ∧ ¬s.InOrder := by
  obtain ⟨s, hs, hfinal⟩ := Run.Reaches.exists_of_play (sys 3 fun _ => some "bridge")
    (fun _ _ => true) (twice ++ binds 1 0 ++ binds 0 1)
    (fun s => decide (s.bindings = [⟨1, 5, 12, []⟩, ⟨2, 5, 11, []⟩])) (by decide +kernel)
  have hbindings := of_decide_eq_true hfinal
  refine ⟨s, hs.mono fun _ _ _ => trivial, hbindings, fun h => ?_⟩
  have hlt := h.ordered ⟨1, 5, 12, []⟩ (by simp [hbindings]) ⟨2, 5, 11, []⟩ (by simp [hbindings])
    rfl (by decide)
  exact absurd hlt (by decide)

end Telemax.OwnerEcho
