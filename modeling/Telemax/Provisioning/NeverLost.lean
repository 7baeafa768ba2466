import Telemax.Provisioning.Confirmation

/-!
# Telemax.Provisioning.NeverLost

The map, the futures and the calls under every considerate run: whoever waits
and has not been told to give up finds its future in the map, or done.

The invariant is kept from one answer inside a running call to the next
(`Running`), and so from one step of the system to the next (`Kept`).
-/

namespace Telemax.Provisioning.Managed

open Script

/-! ## the map -/

namespace Desk

variable {d : Desk} {f g : Nat} {u v : String}

/-- A future of the map is the username's own. -/
def Mapped (d : Desk) : Prop :=
  ∀ u f, d.awaiting u = some f → ∃ r : Resolution, d.futures[f]? = some ⟨u, r⟩

/-- A future that is done names the bot that is there. -/
def Truthful (d : Desk) (remote : String → Option Int) : Prop :=
  ∀ (f : Nat) (u : String) (bot : ManagedBot), d.futures[f]? = some ⟨u, .done bot⟩ →
    bot.username = u ∧ remote u = some bot.botId

/-- A confirmation that has come is in the map, done. -/
def Early (d : Desk) : Prop :=
  ∀ u bot, d.confirmed u = some bot →
    ∃ f, d.awaiting u = some f ∧ d.stateOf f = some (.done bot)

theorem stateOf_eq {r : Resolution} (h : d.futures[f]? = some ⟨u, r⟩) : d.stateOf f = some r := by
  simp [stateOf, h]

/-- Registering finds the expectation of the username, or makes one; it is in the map after. -/
theorem expect_awaiting (d : Desk) (u : String) :
    (d.expect u).2.awaiting u = some (d.expect u).1 := by
  simp only [expect]
  split
  · assumption
  · simp

theorem expect_awaiting_of_some (h : d.awaiting v = some g) :
    (d.expect u).2.awaiting v = some g := by
  simp only [expect]
  split
  · exact h
  · next hnone =>
      have hne : v ≠ u := fun heq => by
        rw [heq, hnone] at h
        cases h
      simpa [Function.update_of_ne hne] using h

theorem expect_awaiting_of_ne (hne : v ≠ u) : (d.expect u).2.awaiting v = d.awaiting v := by
  simp only [expect]
  split
  · rfl
  · simp [Function.update_of_ne hne]

theorem expect_futures {x : Future} (h : d.futures[f]? = some x) :
    (d.expect u).2.futures[f]? = some x := by
  simp only [expect]
  split
  · exact h
  · exact (List.getElem?_append_left (List.getElem?_eq_some_iff.mp h).1).trans h

/-- A future there after is an old one, or the new one, which is pending. -/
theorem of_expect_futures {x : Future} (h : (d.expect u).2.futures[f]? = some x) :
    d.futures[f]? = some x ∨ x = ⟨u, .pending⟩ := by
  simp only [expect] at h
  split at h
  · exact .inl h
  · rw [List.getElem?_append] at h
    split at h
    · exact .inl h
    · obtain ⟨_, hx⟩ := List.getElem?_eq_some_iff.mp h
      exact .inr (by simpa using hx.symm)

theorem Mapped.expect (h : d.Mapped) : (d.expect u).2.Mapped := by
  intro v g hg
  by_cases hne : v = u
  · subst hne
    rw [expect_awaiting] at hg
    obtain rfl := Option.some.inj hg
    cases haw : d.awaiting v with
    | some old =>
        obtain ⟨r, hr⟩ := h v old haw
        have hold : (d.expect v).1 = old := by simp [Desk.expect, haw]
        exact ⟨r, by rw [hold]; exact expect_futures hr⟩
    | none => exact ⟨.pending, by simp [Desk.expect, haw]⟩
  · rw [expect_awaiting_of_ne hne] at hg
    obtain ⟨r, hr⟩ := h v g hg
    exact ⟨r, expect_futures hr⟩

theorem Truthful.expect {remote : String → Option Int} (h : d.Truthful remote) :
    (d.expect u).2.Truthful remote := by
  intro f v bot hf
  rcases of_expect_futures hf with hold | hnew
  · exact h f v bot hold
  · cases hnew

/-- The future one registers for is not cancelled, unless the one in the map was. -/
theorem stateOf_expect (h : State.usable d u = true) :
    (d.expect u).2.stateOf (d.expect u).1 ≠ some .cancelled := by
  cases haw : d.awaiting u with
  | some old => simpa [Desk.expect, haw, State.usable] using h
  | none => simp [Desk.expect, haw, stateOf]

theorem Mapped.forget (h : d.Mapped) : (d.forget u).Mapped := by
  intro v g hg
  by_cases hne : v = u
  · simp [Desk.forget, hne] at hg
  · exact h v g (by simpa [Desk.forget, Function.update_of_ne hne] using hg)

theorem expect_confirmed (d : Desk) (u : String) : (d.expect u).2.confirmed = d.confirmed := by
  simp only [expect]
  split <;> rfl

/-- Registering keeps what has come. -/
theorem Early.expect (h : d.Early) : (d.expect u).2.Early := by
  intro v bot hv
  rw [expect_confirmed] at hv
  obtain ⟨f, haw, hdone⟩ := h v bot hv
  obtain ⟨x, hx, hstate⟩ := Option.map_eq_some_iff.mp hdone
  exact ⟨f, expect_awaiting_of_some haw, Option.map_eq_some_iff.mpr ⟨x, expect_futures hx, hstate⟩⟩

theorem Early.forget (h : d.Early) : (d.forget u).Early := by
  intro v bot hv
  by_cases hne : v = u
  · simp [Desk.forget, hne] at hv
  · have hold : d.confirmed v = some bot := by
      simpa [Desk.forget, Function.update_of_ne hne] using hv
    obtain ⟨f, haw, hdone⟩ := h v bot hold
    exact ⟨f, (Function.update_of_ne hne _ _).trans haw, hdone⟩

theorem forget_awaiting_of_ne (hne : v ≠ u) : (d.forget u).awaiting v = d.awaiting v :=
  Function.update_of_ne hne _ _

theorem forget_awaiting (d : Desk) (u : String) : (d.forget u).awaiting u = none :=
  Function.update_self _ _ _

/-- A future is resolved; the others are as they were. -/
theorem resolve_futures {r : Resolution} {x : Future} :
    (d.resolve f r).futures[g]? = some x ↔
      ∃ y, d.futures[g]? = some y ∧ x = if f = g then { y with state := r } else y := by
  simp only [resolve, List.getElem?_modify]
  cases d.futures[g]? with
  | none => simp
  | some y => by_cases hfg : f = g <;> simp [hfg, eq_comm]

end Desk

/-! ## one call -/

/-- What the book of a call says is so. -/
structure Call.Account (c : Call) (b : Book) (remote : String → Option Int) : Prop where
  found : ∀ bot, b.found = some bot → bot.username = c.target ∧ remote c.target = some bot.botId
  cut : b.cut = true → c.cancelled = true
  late : b.timedOut = true → c.expiring = true
  heard : ∀ bot ∈ c.heard, bot.username = c.target ∧ remote c.target = some bot.botId
  preparing : c.kind = .prepare → b.claiming = false
  direct : c.kind = .await → c.expiring = true → c.cancelled = false → c.heard = []

/-- The account does not depend on where the program is. -/
theorem Call.Account.moved {c : Call} {b : Book} {remote : String → Option Int}
    (h : c.Account b remote) (x : Prog Outcome) :
    Call.Account { c with prog := x, book := b } b remote :=
  ⟨h.found, h.cut, h.late, h.heard, h.preparing, h.direct⟩

/-- A confirmation it has heard has reached it, or it has given up. -/
def Call.Answered (c : Call) (b : Book) : Prop :=
  c.heard ≠ [] → c.cancelled = true ∨ b.found.isSome = true ∨ c.kind = .create ∧ b.timedOut = true

structure Call.Kept (c : Call) (d : Desk) (remote : String → Option Int) : Prop where
  obeys : Obeys (protocol c.kind c.target) c.book c.prog (Ends c.kind c.target)
  account : c.Account c.book remote
  ended : c.result ≠ none → c.book.claiming = false
  waits : ∀ f, c.waitsOn = some f → ∃ r, d.futures[f]? = some ⟨c.target, r⟩ ∧
    (c.live = true → (r = .pending → d.awaiting c.target = some f) ∧ r ≠ .cancelled)
  answered : (∃ f bot, c.waitsOn = some f ∧ d.stateOf f = some (.done bot)) ∨ c.Answered c.book

namespace Call

theorem waitsOn_eq_some {c : Call} {f : Nat} :
    c.waitsOn = some f ↔ ∃ k, c.prog = .ask (.waitFor f) k := by
  simp only [waitsOn]
  split
  · next g k hprog =>
      constructor
      · rintro ⟨rfl⟩
        exact ⟨k, hprog⟩
      · rintro ⟨k', hk'⟩
        cases hprog.symm.trans hk'
        rfl
  · next hno => exact ⟨nofun, fun ⟨k, hk⟩ => absurd hk (hno f k)⟩

/-- What it holds while it waits. -/
theorem Kept.waiting {c : Call} {d : Desk} {remote : String → Option Int} (h : c.Kept d remote)
    {f : Nat} (hf : c.waitsOn = some f) :
    c.book.holding = some f ∧ c.book.claiming = true ∧ c.book.found = none ∧
      c.book.timedOut = false := by
  obtain ⟨k, hk⟩ := waitsOn_eq_some.mp hf
  have hobeys := h.obeys
  rw [hk] at hobeys
  exact hobeys.1

/-- Waiting for what is still to come, it has heard nothing. -/
theorem Kept.unheard {c : Call} {d : Desk} {remote : String → Option Int} (h : c.Kept d remote)
    {f : Nat} (hf : c.waitsOn = some f) (hlive : c.cancelled = false)
    (hpending : ∀ bot, d.stateOf f ≠ some (.done bot)) : c.heard = [] := by
  by_contra hheard
  obtain ⟨-, -, hfound, hlate⟩ := h.waiting hf
  rcases h.answered with ⟨g, bot, hg, hdone⟩ | hanswered
  · obtain rfl := Option.some.inj (hf.symm.trans hg)
    exact hpending bot hdone
  · rcases hanswered hheard with hc | hsome | ⟨-, ht⟩
    · exact absurd (hlive.symm.trans hc) nofun
    · rw [hfound] at hsome
      cases hsome
    · exact absurd (hlate.symm.trans ht) nofun

/-- The rest of the world changes: what it waits for is where it was, or is done. -/
theorem Kept.desk {c : Call} {d d' : Desk} {remote : String → Option Int} (h : c.Kept d remote)
    (hfutures : ∀ f x, d.futures[f]? = some x → ∃ r, d'.futures[f]? = some ⟨x.owner, r⟩ ∧
      ((∃ bot, x.state = .done bot) → r = x.state) ∧
      (c.live = true → c.waitsOn = some f → x.state = .pending → r ≠ .cancelled ∧
        (r = .pending → d.awaiting c.target = some f → d'.awaiting c.target = some f))) :
    c.Kept d' remote where
  obeys := h.obeys
  account := h.account
  ended := h.ended
  waits f hf := by
    obtain ⟨r, hr, hlive⟩ := h.waits f hf
    obtain ⟨r', hr', hdone, hpending⟩ := hfutures f _ hr
    refine ⟨r', hr', fun hl => ?_⟩
    obtain ⟨haw, hcancelled⟩ := hlive hl
    cases r with
    | pending =>
        obtain ⟨hne, haw'⟩ := hpending hl hf rfl
        exact ⟨fun hp => haw' hp (haw rfl), hne⟩
    | done bot =>
        obtain rfl := hdone ⟨bot, rfl⟩
        exact ⟨nofun, nofun⟩
    | cancelled => exact absurd rfl hcancelled
  answered := by
    rcases h.answered with ⟨f, bot, hf, hstate⟩ | hanswered
    · obtain ⟨r, hr, -⟩ := h.waits f hf
      obtain rfl := Option.some.inj ((Desk.stateOf_eq hr).symm.trans hstate)
      obtain ⟨r', hr', hdone, -⟩ := hfutures f _ hr
      obtain rfl := hdone ⟨bot, rfl⟩
      exact .inl ⟨f, bot, hf, Desk.stateOf_eq hr'⟩
    · exact .inr hanswered

end Call

/-! ## a call that runs -/

namespace State

variable {s : State} {n : Nat}

structure Kept (s : State) : Prop where
  mapped : s.desk.Mapped
  early : s.desk.Early
  truthful : s.desk.Truthful s.remote
  claimed : ∀ u, s.desk.awaiting u ≠ none →
    (∃ (n : Nat) (c : Call), s.calls[n]? = some c ∧ c.target = u ∧ c.book.claiming = true) ∨
      0 < s.desk.prepared u
  calls : ∀ (n : Nat) (c : Call), s.calls[n]? = some c → c.Kept s.desk s.remote

/-- The `n`th call runs: it is at `x`, with the map as in `d`; the others stand still. -/
structure Running (s : State) (n : Nat) (c : Call) (x : Prog Outcome) (d : Desk) (b : Book) :
    Prop where
  mapped : d.Mapped
  early : d.Early
  truthful : d.Truthful s.remote
  claimed : ∀ u, d.awaiting u ≠ none →
    (∃ (m : Nat) (c' : Call), m ≠ n ∧ s.calls[m]? = some c' ∧ c'.target = u ∧
        c'.book.claiming = true) ∨
      (u = c.target ∧ b.claiming = true) ∨ 0 < d.prepared u
  others : ∀ (m : Nat) (c' : Call), m ≠ n → s.calls[m]? = some c' → c'.Kept d s.remote
  obeys : Obeys (protocol c.kind c.target) b x (Ends c.kind c.target)
  account : c.Account b s.remote
  holds : b.claiming = true → ∀ f, b.holding = some f →
    d.awaiting c.target = some f ∧ d.stateOf f ≠ some .cancelled
  answered : c.Answered b

/-- The call stops where it is. -/
theorem Running.stop {c : Call} {x : Prog Outcome} {d : Desk} {b b' : Book}
    (h : Running s n c x d b) (hn : n < s.calls.length)
    (hkept : Call.Kept { c with prog := x, book := b' } d s.remote)
    (hclaim : ∀ u, d.awaiting u ≠ none → (u = c.target ∧ b.claiming = true) →
      b'.claiming = true ∨ (∃ (m : Nat) (c' : Call), m ≠ n ∧ s.calls[m]? = some c' ∧ c'.target = u ∧
        c'.book.claiming = true) ∨ 0 < d.prepared u) :
    Kept { s with desk := d, calls := s.calls.set n { c with prog := x, book := b' } } where
  mapped := h.mapped
  early := h.early
  truthful := h.truthful
  claimed u hu := by
    have hother {m : Nat} {c' : Call} (hm : m ≠ n) (hc' : s.calls[m]? = some c') :
        (s.calls.set n { c with prog := x, book := b' })[m]? = some c' :=
      (List.getElem?_set_ne (Ne.symm hm)).trans hc'
    have hself : (s.calls.set n { c with prog := x, book := b' })[n]? =
        some { c with prog := x, book := b' } := List.getElem?_set_self hn
    rcases h.claimed u hu with ⟨m, c', hm, hc', ht, hcl⟩ | hown | hprepared
    · exact .inl ⟨m, c', hother hm hc', ht, hcl⟩
    · rcases hclaim u hu hown with hcl | ⟨m, c', hm, hc', ht, hcl⟩ | hprepared
      · exact .inl ⟨n, _, hself, hown.1.symm, hcl⟩
      · exact .inl ⟨m, c', hother hm hc', ht, hcl⟩
      · exact .inr hprepared
    · exact .inr hprepared
  calls m c' hc' := by
    by_cases hm : m = n
    · subst hm
      rw [List.getElem?_set_self hn] at hc'
      obtain rfl := Option.some.inj hc'
      exact hkept
    · rw [List.getElem?_set_ne (Ne.symm hm)] at hc'
      exact h.others m c' hm hc'

/-- Another call that waits, live, on a future. -/
theorem othersWait_of {m f : Nat} {c' : Call} (hm : m ≠ n) (hc' : s.calls[m]? = some c')
    (hf : c'.waitsOn = some f) (hlive : c'.live = true) : s.othersWait n f = true := by
  refine List.any_eq_true.mpr ⟨(c', m), List.mem_zipIdx_iff_getElem?.mpr hc', ?_⟩
  simp [hm, hf, hlive]

theorem of_othersClaim {u : String} (h : s.othersClaim n u = true) :
    ∃ (m : Nat) (c' : Call), m ≠ n ∧ s.calls[m]? = some c' ∧ c'.target = u ∧
      c'.book.claiming = true := by
  obtain ⟨⟨c', m⟩, hmem, hall⟩ := List.any_eq_true.mp h
  have hc' := List.mem_zipIdx_iff_getElem?.mp hmem
  simp only [Bool.and_eq_true, decide_eq_true_eq] at hall
  exact ⟨m, c', hall.1.1, hc', hall.1.2, hall.2⟩

/-- A drop that takes nobody's expectation leaves the others as they are. -/
theorem kept_forget {d : Desk} {u : String} {m : Nat} {c' : Call} (hm : m ≠ n)
    (hc' : s.calls[m]? = some c') (h : c'.Kept d s.remote) (hdrops : s.drops n d u = true) :
    c'.Kept (d.forget u) s.remote := by
  refine h.desk fun f x hx => ⟨x.state, hx, fun _ => rfl, fun hlive hf hpending =>
    ⟨by simp [hpending], fun _ haw => ?_⟩⟩
  have hne : c'.target ≠ u := by
    rintro rfl
    have hstate : d.stateOf f = some .pending := by simp [Desk.stateOf, hx, hpending]
    simp only [drops, haw] at hdrops
    simp [hstate, othersWait_of hm hc' hf hlive] at hdrops
  rw [Desk.forget_awaiting_of_ne hne]
  exact haw

/-- Registering takes nothing from anybody. -/
theorem kept_expect {d : Desk} {u : String} {c' : Call} {remote : String → Option Int}
    (h : c'.Kept d remote) : c'.Kept (d.expect u).2 remote :=
  h.desk fun _ x hx => ⟨x.state, Desk.expect_futures hx, fun _ => rfl,
    fun _ _ hpending => ⟨by simp [hpending], fun _ => Desk.expect_awaiting_of_some⟩⟩

theorem kept_preparations {d : Desk} {u : String} {change : Nat → Nat} {c' : Call}
    {remote : String → Option Int} (h : c'.Kept d remote) :
    c'.Kept (d.preparations u change) remote :=
  h.desk fun _ x hx => ⟨x.state, hx, fun _ => rfl,
    fun _ _ hpending => ⟨by simp [hpending], fun _ haw => haw⟩⟩

/-- A call that is over claims nothing any more. -/
theorem Running.over {c : Call} {x : Prog Outcome} {d : Desk} {b : Book}
    (h : Running s n c x d b) (hn : n < s.calls.length)
    (hx : ∀ op k, x ≠ .ask op k)
    (hmeets : (!b.claiming || (d.awaiting c.target).isNone || s.othersClaim n c.target ||
      decide (0 < d.prepared c.target)) = true)
    (hends : Obeys (protocol c.kind c.target) { b with claiming := false } x
      (Ends c.kind c.target)) :
    Kept { s with
      desk := d
      calls := s.calls.set n { c with prog := x, book := { b with claiming := false } } } := by
  refine h.stop hn ⟨hends, ⟨h.account.found, h.account.cut, h.account.late, h.account.heard,
    fun _ => rfl, h.account.direct⟩, fun _ => rfl, fun f hf => ?_, .inr h.answered⟩ ?_
  · obtain ⟨k, hk⟩ := Call.waitsOn_eq_some.mp hf
    exact absurd hk (hx _ k)
  · rintro u hu ⟨rfl, hclaiming⟩
    right
    simp only [Bool.or_eq_true, Bool.not_eq_true', Option.isNone_iff_eq_none,
      decide_eq_true_eq] at hmeets
    rcases hmeets with ((hc | hnone) | hothers) | hprepared
    · exact absurd (hc.symm.trans hclaiming) nofun
    · exact absurd hnone hu
    · exact .inl (of_othersClaim hothers)
    · exact .inr hprepared

/-- The call registers. -/
theorem Running.expect {c : Call} {d : Desk} {b : Book} {k : Nat → Prog Outcome}
    (h : Running s n c (.ask (.expect c.target) k) d b)
    (husable : c.kind = .prepare ∨ usable d c.target = true) :
    Running s n c (k (d.expect c.target).1)
      (if c.kind = .prepare then (d.expect c.target).2.preparations c.target (· + 1)
        else (d.expect c.target).2)
      (b.next (.expect c.target) (d.expect c.target).1) := by
  obtain ⟨⟨-, hclaims, -⟩, hobeys⟩ := h.obeys
  have hmapped : (d.expect c.target).2.Mapped := h.mapped.expect
  have htruthful : (d.expect c.target).2.Truthful s.remote := h.truthful.expect
  have hothers (m : Nat) (c' : Call) (hm : m ≠ n) (hc' : s.calls[m]? = some c') :
      c'.Kept (d.expect c.target).2 s.remote := kept_expect (h.others m c' hm hc')
  have hbefore {v : String} (hv : v ≠ c.target)
      (haw : (d.expect c.target).2.awaiting v ≠ none) : d.awaiting v ≠ none :=
    Desk.expect_awaiting_of_ne hv ▸ haw
  have hprepared (v : String) : (d.expect c.target).2.prepared v = d.prepared v := by
    simp only [Desk.expect]
    split <;> rfl
  split
  · next hkind =>
      refine ⟨hmapped, h.early.expect, htruthful, fun v haw => ?_,
        fun m c' hm hc' => kept_preparations (hothers m c' hm hc'), hobeys _,
        ⟨h.account.found, h.account.cut, h.account.late, h.account.heard, h.account.preparing,
          h.account.direct⟩, fun hc => ?_, h.answered⟩
      · by_cases hv : v = c.target
        · exact .inr (.inr (by simp [Desk.preparations, hv]))
        · rcases h.claimed v (hbefore hv haw) with hl | ⟨hv', -⟩ | hr
          · exact .inl hl
          · exact absurd hv' hv
          · refine .inr (.inr ?_)
            simpa [Desk.preparations, Function.update_of_ne hv, hprepared] using hr
      · exact absurd ((h.account.preparing hkind).symm.trans hc) nofun
  · next hkind =>
      have hclaiming : b.claiming = true := hclaims.resolve_right hkind
      refine ⟨hmapped, h.early.expect, htruthful, fun v haw => ?_, hothers, hobeys _,
        ⟨h.account.found, h.account.cut, h.account.late, h.account.heard, h.account.preparing,
          h.account.direct⟩, ?_, h.answered⟩
      · by_cases hv : v = c.target
        · exact .inr (.inl ⟨hv, hclaiming⟩)
        · rcases h.claimed v (hbefore hv haw) with hl | ⟨hv', -⟩ | hr
          · exact .inl hl
          · exact absurd hv' hv
          · exact .inr (.inr (by rwa [hprepared]))
      · rintro - f ⟨rfl⟩
        exact ⟨Desk.expect_awaiting d c.target,
          Desk.stateOf_expect (husable.resolve_left hkind)⟩

/-- The call drops the expectation of its username. -/
theorem Running.forget {c : Call} {d : Desk} {b : Book} {k : Unit → Prog Outcome}
    (h : Running s n c (.ask (.forget c.target) k) d b) (hdrops : s.drops n d c.target = true) :
    Running s n c (k ()) (d.forget c.target) (b.next (.forget c.target) ()) := by
  refine ⟨h.mapped.forget, h.early.forget, h.truthful, fun v haw => ?_,
    fun m c' hm hc' => kept_forget hm hc' (h.others m c' hm hc') hdrops, h.obeys.2 (),
    ⟨h.account.found, h.account.cut, h.account.late, h.account.heard, fun _ => rfl,
      h.account.direct⟩, nofun, h.answered⟩
  have hv : v ≠ c.target := by
    rintro rfl
    exact haw (Desk.forget_awaiting d _)
  rw [Desk.forget_awaiting_of_ne hv] at haw
  rcases h.claimed v haw with hl | ⟨hv', -⟩ | hr
  · exact .inl hl
  · exact absurd hv' hv
  · exact .inr (.inr hr)

/-- What the call hears as it comes to wait is of the bot that is there. -/
theorem Running.meets_wait {c : Call} {d : Desk} {b : Book} {x : Prog Outcome}
    (h : Running s n c x d b) {f : Nat} (haw : d.awaiting c.target = some f) :
    (∃ bot, d.stateOf f = some (.done bot)) ∨ (d.confirmed c.target).toList = [] := by
  cases hconfirmed : d.confirmed c.target with
  | none => exact .inr rfl
  | some bot =>
      obtain ⟨g, hg, hdone⟩ := h.early c.target bot hconfirmed
      obtain rfl := Option.some.inj (haw.symm.trans hg)
      exact .inl ⟨bot, hdone⟩

/-- What a call has heard changes nothing it does. -/
theorem meets_heard {c : Call} {l : List ManagedBot} {x : Prog Outcome} {d : Desk} {b : Book} :
    s.meets n { c with heard := l } x d b = s.meets n c x d b := by
  induction x generalizing d b with
  | done a | fail e => rfl
  | ask op k ih =>
      cases op with
      | expect u | forget u | waitFor f => simp only [meets, ih]
      | requireManager | botIdFor u | checkUsername u | tokenFor i => rfl

/-- What a call comes to wait for is in the map, and not cancelled. -/
theorem Running.holding {c : Call} {d : Desk} {b : Book} {f : Nat}
    {k : (Op.waitFor f).Answer → Prog Outcome} (h : Running s n c (.ask (.waitFor f) k) d b) :
    d.awaiting c.target = some f ∧ ∃ r, d.futures[f]? = some ⟨c.target, r⟩ ∧ r ≠ .cancelled := by
  obtain ⟨⟨hholding, hclaiming, -, -⟩, -⟩ := h.obeys
  obtain ⟨haw, hcancelled⟩ := h.holds hclaiming f hholding
  obtain ⟨r, hr⟩ := h.mapped _ _ haw
  refine ⟨haw, r, hr, ?_⟩
  rintro rfl
  exact hcancelled (Desk.stateOf_eq hr)

/-- The confirmation came before the call: it hears of it, and finds it. -/
theorem Running.finds {c : Call} {d : Desk} {b : Book} {f : Nat} {bot : ManagedBot}
    {k : (Op.waitFor f).Answer → Prog Outcome} (h : Running s n c (.ask (.waitFor f) k) d b)
    (hstate : d.stateOf f = some (.done bot)) {l : List ManagedBot}
    (hl : l ⊆ (d.confirmed c.target).toList) (hlive : c.live = false → l = []) :
    Running s n { c with heard := l ++ c.heard } (k (.ok bot)) d (b.next (.waitFor f) (.ok bot)) := by
  obtain ⟨haw, r, hr, -⟩ := h.holding
  obtain rfl : r = .done bot := Option.some.inj ((Desk.stateOf_eq hr).symm.trans hstate)
  have hbot := h.truthful f c.target bot hr
  refine ⟨h.mapped, h.early, h.truthful, h.claimed, h.others, h.obeys.2 (.ok bot),
    ⟨?_, h.account.cut, h.account.late, fun bot' hmem => ?_, h.account.preparing,
      fun hkind hexp hc => ?_⟩, nofun, fun _ => .inr (.inl rfl)⟩
  · rintro _ ⟨rfl⟩
    exact hbot
  · rcases List.mem_append.mp hmem with hmem | hmem
    · obtain ⟨g, hg, hdone⟩ := h.early c.target bot' (Option.mem_toList.mp (hl hmem))
      obtain rfl := Option.some.inj (haw.symm.trans hg)
      rw [hstate] at hdone
      cases hdone
      exact hbot
    · exact h.account.heard bot' hmem
  · have hexp' : c.expiring = true := hexp
    have hdead : c.live = false := by simp [Call.live, hexp']
    simp only [hlive hdead, List.nil_append]
    exact h.account.direct hkind hexp hc

/-- A call stops at what it asks. -/
theorem Running.asks {c : Call} {d : Desk} {b : Book} {op : Op} {k : op.Answer → Prog Outcome}
    (h : Running s n c (.ask op k) d b) (hn : n < s.calls.length)
    (hwaits : ∀ f, Call.waitsOn { c with prog := .ask op k } = some f →
      d.awaiting c.target = some f ∧ d.stateOf f = some .pending) :
    Kept { s with desk := d, calls := s.calls.set n { c with prog := .ask op k, book := b } } := by
  refine h.stop hn ⟨h.obeys, h.account.moved _, fun hr => absurd rfl hr, fun f hf => ?_,
    .inr h.answered⟩ fun _ _ hown => .inl hown.2
  obtain ⟨haw, hstate⟩ := hwaits f hf
  obtain ⟨r, hr⟩ := h.mapped _ _ haw
  obtain rfl : r = .pending := Option.some.inj ((Desk.stateOf_eq hr).symm.trans hstate)
  exact ⟨.pending, hr, fun _ => ⟨fun _ => haw, nofun⟩⟩

/-- **A call runs on**, as far as it does without harming anybody. -/
theorem Running.settle {c : Call} {x : Prog Outcome} {d : Desk} {b : Book}
    (h : Running s n c x d b) (hn : n < s.calls.length) (hmeets : s.meets n c x d b = true) :
    Kept { s with
      desk := (Managed.settle c.kind x d b).2.1
      calls := s.calls.set n { c with
        prog := (Managed.settle c.kind x d b).1
        book := (Managed.settle c.kind x d b).2.2
        heard := c.meets x d ++ c.heard } } := by
  induction x generalizing c d b with
  | done a =>
      have hall := h.over hn nofun hmeets
        ⟨h.obeys.confirmed, h.obeys.created, h.obeys.cut, h.obeys.late, h.obeys.asked⟩
      simpa only [Managed.settle, Call.meets, met, ite_self, List.nil_append] using hall
  | fail e =>
      have hall := h.over hn nofun hmeets
        ⟨h.obeys.confirmed, h.obeys.created, h.obeys.cut, h.obeys.late, h.obeys.asked⟩
      simpa only [Managed.settle, Call.meets, met, ite_self, List.nil_append] using hall
  | ask op k ih =>
      cases op with
      | expect u =>
          obtain rfl : u = c.target := h.obeys.1.1
          simp only [meets, Bool.and_eq_true, Bool.or_eq_true, decide_eq_true_eq] at hmeets
          exact ih _ (h.expect hmeets.1) hmeets.2
      | forget u =>
          obtain rfl : u = c.target := h.obeys.1
          simp only [meets, Bool.and_eq_true] at hmeets
          exact ih _ (h.forget hmeets.1) hmeets.2
      | waitFor f =>
          obtain ⟨haw, r, hr, hnot⟩ := h.holding
          have hstate := Desk.stateOf_eq hr
          cases r with
          | cancelled => exact absurd rfl hnot
          | done bot =>
              simp only [meets, hstate] at hmeets
              have hheard : (if c.live then (d.confirmed c.target).toList else []) ⊆
                  (d.confirmed c.target).toList := by
                split <;> simp
              have hall := ih _ (h.finds hstate hheard fun hdead => by simp [hdead])
                (meets_heard.trans hmeets)
              have hlive {l : List ManagedBot} : Call.live { c with heard := l } = c.live := rfl
              cases hc : c.live <;>
                simpa [Managed.settle, hstate, Call.meets, met, hlive, hc] using hall
          | pending =>
              have hall := h.asks hn fun g hg => by
                obtain ⟨k', hk'⟩ := Call.waitsOn_eq_some.mp hg
                cases hk'
                exact ⟨haw, hstate⟩
              have hnothing : (d.confirmed c.target).toList = [] := by
                refine (h.meets_wait haw).resolve_left fun ⟨bot, hdone⟩ => ?_
                rw [hstate] at hdone
                cases hdone
              simpa only [Managed.settle, hstate, Call.meets, met, hnothing, List.append_nil,
                ite_self, List.nil_append] using hall
      | requireManager | botIdFor u | checkUsername u | tokenFor i =>
          have hall := h.asks hn fun f hf => by
            obtain ⟨k', hk'⟩ := Call.waitsOn_eq_some.mp hf
            cases hk'
          simpa only [Managed.settle, Call.meets, met, ite_self, List.nil_append] using hall

/-! ## the steps -/

namespace Kept

variable {t : State} {c : Call}

/-- A call that stands still begins to run. -/
theorem running (h : s.Kept) (hc : s.calls[n]? = some c) {x : Prog Outcome} {b : Book}
    (hclaiming : b.claiming = c.book.claiming) (hholding : b.holding = none)
    (hobeys : Obeys (protocol c.kind c.target) b x (Ends c.kind c.target))
    (haccount : c.Account b s.remote) (hanswered : c.Answered b) :
    Running s n c x s.desk b where
  mapped := h.mapped
  early := h.early
  truthful := h.truthful
  claimed u hu := by
    rcases h.claimed u hu with ⟨m, c', hc', ht, hcl⟩ | hprepared
    · by_cases hm : m = n
      · subst hm
        obtain rfl := Option.some.inj (hc.symm.trans hc')
        exact .inr (.inl ⟨ht.symm, hclaiming.trans hcl⟩)
      · exact .inl ⟨m, c', hm, hc', ht, hcl⟩
    · exact .inr (.inr hprepared)
  others m c' _ hc' := h.calls m c' hc'
  obeys := hobeys
  account := haccount
  holds _ f hf := by simp [hholding] at hf
  answered := hanswered

/-- A question of its own is answered. -/
theorem running_answer (h : s.Kept) (hc : s.calls[n]? = some c) {op : Op}
    {k : op.Answer → Prog Outcome} (hprog : c.prog = .ask op k) {reply : Reply} {a : op.Answer}
    (hfit : reply.fit op = some a) (hcuts : reply.cuts = c.cancelled)
    (hhonest : s.honest c.target reply = true) :
    Running s n c (k a) s.desk (c.book.next op a) := by
  have hkept := h.calls n c hc
  have hobeys := hkept.obeys
  rw [hprog] at hobeys
  have hanswered : c.Answered c.book := by
    rcases hkept.answered with ⟨f, bot, hf, -⟩ | hanswered
    · obtain ⟨k', hk'⟩ := Call.waitsOn_eq_some.mp hf
      cases hprog.symm.trans hk'
      cases reply <;> cases hfit
    · exact hanswered
  obtain ⟨hfound, hcut, hlate, hheard, hpreparing, hdirect⟩ := hkept.account
  have hcut' {α : Type} {r : Except Trouble α} (hr : Trouble.cuts r = c.cancelled)
      (ht : (c.book.cut || Trouble.cuts r) = true) : c.cancelled = true :=
    (Bool.or_eq_true _ _ ▸ ht).elim hcut fun hr' => hr ▸ hr'
  cases op with
  | expect u | forget u | waitFor f => cases reply <;> cases hfit
  | requireManager =>
      cases reply with
      | manager r =>
          obtain rfl := Option.some.inj hfit
          exact h.running hc rfl hobeys.1 (hobeys.2 _)
            ⟨hfound, hcut' hcuts, hlate, hheard, hpreparing, hdirect⟩ hanswered
      | botId r | username r | token r => cases hfit
  | checkUsername u =>
      cases reply with
      | username r =>
          obtain rfl := Option.some.inj hfit
          exact h.running hc rfl hobeys.1 (hobeys.2 _)
            ⟨hfound, hcut' hcuts, hlate, hheard, hpreparing, hdirect⟩ hanswered
      | botId r | manager r | token r => cases hfit
  | tokenFor i =>
      cases reply with
      | token r =>
          obtain rfl := Option.some.inj hfit
          exact h.running hc rfl hobeys.1 (hobeys.2 _)
            ⟨hfound, hcut' hcuts, hlate, hheard, hpreparing, hdirect⟩ hanswered
      | botId r | manager r | username r => cases hfit
  | botIdFor u =>
      cases reply with
      | botId r =>
          obtain rfl := Option.some.inj hfit
          obtain rfl : u = c.target := hobeys.1.1
          rcases r with e | (_ | botId)
          · refine h.running hc rfl hobeys.1.2 (hobeys.2 (.error e))
              ⟨hfound, fun ht => ?_, hlate, hheard, hpreparing, hdirect⟩ hanswered
            rcases Bool.or_eq_true _ _ ▸ ht with hold | hnew
            · exact hcut hold
            · obtain rfl := of_decide_eq_true hnew
              exact hcuts.symm
          · exact h.running hc rfl hobeys.1.2 (hobeys.2 (.ok none))
              ⟨hfound, hcut, hlate, hheard, hpreparing, hdirect⟩ hanswered
          · refine h.running hc rfl hobeys.1.2 (hobeys.2 (.ok (some botId)))
              ⟨?_, hcut, hlate, hheard, hpreparing, hdirect⟩ fun _ => .inr (.inl rfl)
            rintro _ ⟨rfl⟩
            exact ⟨rfl, of_decide_eq_true hhonest⟩
      | manager r | username r | token r => cases hfit

/-- A call that waits is woken. -/
theorem running_wake (h : s.Kept) (hc : s.calls[n]? = some c) {f : Nat}
    {k : Except Lost ManagedBot → Prog Outcome} (hprog : c.prog = .ask (.waitFor f) k)
    {r : Except Lost ManagedBot}
    (hr : (c.cancelled = true ∧ r = .error .cancelled) ∨
      (c.cancelled = false ∧ c.expiring = true ∧ r = .error .timeout) ∨
      c.live = true ∧ ((∃ bot, s.desk.stateOf f = some (.done bot) ∧ r = .ok bot) ∨
        s.desk.stateOf f = some .cancelled)) :
    Running s n c (k r) s.desk (c.book.next (.waitFor f) r) := by
  have hkept := h.calls n c hc
  have hwaits : c.waitsOn = some f := Call.waitsOn_eq_some.mpr ⟨k, hprog⟩
  obtain ⟨-, hclaiming, -, -⟩ := hkept.waiting hwaits
  have hobeys := hkept.obeys
  rw [hprog] at hobeys
  obtain ⟨hfound, hcut, hlate, hheard, hpreparing, hdirect⟩ := hkept.account
  rcases hr with ⟨hcancelled, rfl⟩ | ⟨hcancelled, hexpiring, rfl⟩ | ⟨hlive, ⟨bot, hdone, rfl⟩ | hgone⟩
  · exact h.running hc rfl rfl (hobeys.2 (.error .cancelled))
      ⟨hfound, fun _ => hcancelled, hlate, hheard, hpreparing, hdirect⟩ fun _ => .inl hcancelled
  · refine h.running hc rfl rfl (hobeys.2 (.error .timeout))
      ⟨hfound, hcut, fun _ => hexpiring, hheard, hpreparing, hdirect⟩ fun hne => .inr (.inr ⟨?_, rfl⟩)
    cases hkind : c.kind with
    | create => rfl
    | await => exact absurd (hdirect hkind hexpiring hcancelled) hne
    | prepare => exact absurd ((hpreparing hkind).symm.trans hclaiming) nofun
  · obtain ⟨r, hr, -⟩ := hkept.waits f hwaits
    obtain rfl := Option.some.inj ((Desk.stateOf_eq hr).symm.trans hdone)
    refine h.running hc rfl rfl (hobeys.2 (.ok bot))
      ⟨?_, hcut, hlate, hheard, hpreparing, hdirect⟩ fun _ => .inr (.inl rfl)
    rintro _ ⟨rfl⟩
    exact h.truthful f c.target bot hr
  · obtain ⟨r, hr, hnot⟩ := hkept.waits f hwaits
    obtain rfl := Option.some.inj ((Desk.stateOf_eq hr).symm.trans hgone)
    exact absurd rfl (hnot hlive).2

/-- A call comes. -/
theorem running_call (h : s.Kept) (kind : Kind) (target : String) :
    Running (s.arrives (Call.start kind target)) s.calls.length (Call.start kind target)
      (Call.start kind target).prog (s.arrives (Call.start kind target)).desk
      (Call.start kind target).book := by
  have hold {m : Nat} {c' : Call} (hm : m ≠ s.calls.length)
      (hc' : (s.calls ++ [Call.start kind target])[m]? = some c') : s.calls[m]? = some c' := by
    rw [List.getElem?_append] at hc'
    split at hc'
    · exact hc'
    · obtain ⟨hlt, -⟩ := List.getElem?_eq_some_iff.mp hc'
      simp only [List.length_singleton] at hlt
      omega
  have haccount : (Call.start kind target).Account (Call.start kind target).book s.remote :=
    ⟨nofun, nofun, nofun, nofun, fun hkind => by simp [Call.start] at hkind ⊢; exact hkind, nofun⟩
  have hclaimed (u : String) (hu : s.desk.awaiting u ≠ none) (d : Desk)
      (hd : ∀ u, (u ≠ target ∨ kind = .prepare) → d.prepared u = s.desk.prepared u) :
      (∃ (m : Nat) (c' : Call), m ≠ s.calls.length ∧
        (s.arrives (Call.start kind target)).calls[m]? = some c' ∧ c'.target = u ∧
          c'.book.claiming = true) ∨
      (u = (Call.start kind target).target ∧ (Call.start kind target).book.claiming = true) ∨
      0 < d.prepared u := by
    rcases h.claimed u hu with ⟨m, c', hc', ht, hcl⟩ | hprepared
    · have hlt := (List.getElem?_eq_some_iff.mp hc').1
      exact .inl ⟨m, c', Nat.ne_of_lt hlt, (List.getElem?_append_left hlt).trans hc', ht, hcl⟩
    · by_cases hown : u = target ∧ kind ≠ .prepare
      · exact .inr (.inl ⟨hown.1, decide_eq_true hown.2⟩)
      · rw [not_and_or, not_not] at hown
        exact .inr (.inr (by rwa [hd u hown]))
  simp only [arrives]
  split
  · exact ⟨h.mapped, h.early, h.truthful, fun u hu => hclaimed u hu _ fun _ _ => rfl,
      fun m c' hm hc' => h.calls m c' (hold hm hc'), obeys_program kind target, haccount,
      nofun, fun hne => absurd rfl hne⟩
  · next hkind =>
      refine ⟨h.mapped, h.early, h.truthful, fun u hu => hclaimed u hu _ fun v hv => ?_,
        fun m c' hm hc' => kept_preparations (h.calls m c' (hold hm hc')),
        obeys_program kind target, haccount, nofun, fun hne => absurd rfl hne⟩
      exact Function.update_of_ne (hv.resolve_right hkind) _ _

/-- Where a call is told to give up, the future it waits on is cancelled, and nothing else. -/
theorem giveUp_futures {f : Nat} {x : Future} (h : s.desk.futures[f]? = some x) :
    ∃ r, (s.giveUp n c).desk.futures[f]? = some ⟨x.owner, r⟩ ∧
      (r = x.state ∨ c.waitsOn = some f ∧ x.state = .pending ∧ r = .cancelled) := by
  simp only [giveUp]
  split
  · next g hg =>
      split
      · next hpending =>
          refine ⟨if g = f then .cancelled else x.state,
            Desk.resolve_futures.mpr ⟨x, h, by split <;> rfl⟩, ?_⟩
          by_cases hgf : g = f
          · subst hgf
            exact .inr ⟨hg, by simpa [Desk.stateOf, h] using hpending, if_pos rfl⟩
          · exact .inl (if_neg hgf)
      · exact ⟨_, h, .inl rfl⟩
  · exact ⟨_, h, .inl rfl⟩

theorem giveUp_awaiting : (s.giveUp n c).desk.awaiting = s.desk.awaiting := by
  simp only [giveUp]
  split
  · split <;> rfl
  · rfl

theorem giveUp_prepared : (s.giveUp n c).desk.prepared = s.desk.prepared := by
  simp only [giveUp]
  split
  · split <;> rfl
  · rfl

theorem giveUp_confirmed : (s.giveUp n c).desk.confirmed = s.desk.confirmed := by
  simp only [giveUp]
  split
  · split <;> rfl
  · rfl

/-- What is done was done. -/
theorem of_giveUp_done {f : Nat} {u : String} {bot : ManagedBot}
    (h : (s.giveUp n c).desk.futures[f]? = some ⟨u, .done bot⟩) :
    s.desk.futures[f]? = some ⟨u, .done bot⟩ := by
  simp only [giveUp] at h
  split at h
  · split at h
    · obtain ⟨x, hx, heq⟩ := Desk.resolve_futures.mp h
      split at heq
      · cases heq
      · exact heq ▸ hx
    · exact h
  · exact h

/-- A call is told to give up, and nobody else who is still to be answered waits with it. -/
theorem giveUp (h : s.Kept) (hc : s.calls[n]? = some c) {expiring cancelled : Bool}
    (hlive : (expiring || cancelled) = true) (hexpiring : c.expiring = true → expiring = true)
    (hcancelled : c.cancelled = true → cancelled = true)
    (halone : ∀ f, c.waitsOn = some f → s.desk.stateOf f = some .pending →
      s.othersWait n f = false)
    (hdirect : c.kind = .await → expiring = true → cancelled = false → c.heard = []) :
    Kept (s.giveUp n { c with expiring, cancelled }) where
  mapped u f hu := by
    rw [giveUp_awaiting] at hu
    obtain ⟨r, hr⟩ := h.mapped u f hu
    obtain ⟨r', hr', -⟩ := giveUp_futures (c := { c with expiring, cancelled }) (n := n) hr
    exact ⟨r', hr'⟩
  early u bot hu := by
    rw [giveUp_confirmed] at hu
    obtain ⟨f, haw, hdone⟩ := h.early u bot hu
    refine ⟨f, by rwa [giveUp_awaiting], ?_⟩
    obtain ⟨x, hx, hstate⟩ := Option.map_eq_some_iff.mp hdone
    obtain ⟨r, hr, rfl | ⟨-, hpending, -⟩⟩ :=
      giveUp_futures (c := { c with expiring, cancelled }) (n := n) hx
    · exact (Desk.stateOf_eq hr).trans (congrArg some hstate)
    · rw [hstate] at hpending
      cases hpending
  truthful f u bot hf := h.truthful f u bot (of_giveUp_done hf)
  claimed u hu := by
    rw [giveUp_awaiting] at hu
    rw [giveUp_prepared]
    rcases h.claimed u hu with ⟨m, c', hc', ht, hcl⟩ | hprepared
    · left
      by_cases hm : m = n
      · subst hm
        obtain rfl := Option.some.inj (hc.symm.trans hc')
        exact ⟨m, { c with expiring, cancelled },
          List.getElem?_set_self (List.getElem?_eq_some_iff.mp hc).1, ht, hcl⟩
      · exact ⟨m, c', (List.getElem?_set_ne (Ne.symm hm)).trans hc', ht, hcl⟩
    · exact .inr hprepared
  calls m c' hc' := by
    by_cases hm : m = n
    · subst hm
      have hself := List.getElem?_set_self (a := { c with expiring, cancelled })
        (List.getElem?_eq_some_iff.mp hc).1
      obtain rfl := Option.some.inj (hself.symm.trans hc')
      have hkept := h.calls m c hc
      obtain ⟨hfound, hcut, hlate, hheard, hpreparing, -⟩ := hkept.account
      refine ⟨hkept.obeys, ⟨hfound, fun hr => hcancelled (hcut hr), fun hr => hexpiring (hlate hr),
        hheard, hpreparing, hdirect⟩, hkept.ended, fun f hf => ?_, ?_⟩
      · obtain ⟨r, hr, -⟩ := hkept.waits f hf
        obtain ⟨r', hr', -⟩ := giveUp_futures (c := { c with expiring, cancelled }) (n := m) hr
        refine ⟨r', hr', fun hl => ?_⟩
        cases expiring <;> cases cancelled <;> simp [Call.live] at hlive hl
      · rcases hkept.answered with ⟨f, bot, hf, hdone⟩ | hanswered
        · obtain ⟨r, hr, -⟩ := hkept.waits f hf
          obtain rfl := Option.some.inj ((Desk.stateOf_eq hr).symm.trans hdone)
          obtain ⟨r', hr', rfl | ⟨-, hpending, -⟩⟩ :=
            giveUp_futures (c := { c with expiring, cancelled }) (n := m) hr
          · exact .inl ⟨f, bot, hf, Desk.stateOf_eq hr'⟩
          · cases hpending
        · exact .inr fun hne => (hanswered hne).imp_left hcancelled
    · have hold : s.calls[m]? = some c' := (List.getElem?_set_ne (Ne.symm hm)).symm.trans hc'
      refine (h.calls m c' hold).desk fun f x hx => ?_
      obtain ⟨r, hr, hsame | ⟨hf, hpending, hgone⟩⟩ :=
        giveUp_futures (c := { c with expiring, cancelled }) (n := n) hx
      · refine ⟨r, hr, fun _ => hsame, fun _ _ hp => ⟨by simp [hsame, hp], fun _ haw => ?_⟩⟩
        rw [giveUp_awaiting]
        exact haw
      · refine ⟨r, hr, fun ⟨bot, hdone⟩ => absurd (hpending.symm.trans hdone) nofun,
          fun hl hw _ => ?_⟩
        have hstate : s.desk.stateOf f = some .pending := by simp [Desk.stateOf, hx, hpending]
        exact absurd ((halone f hf hstate).symm.trans (othersWait_of hm hold hw hl)) nofun

/-- What an update leaves of a future. -/
theorem onManagedBot_futures (bot : ManagedBot) {f : Nat} {x : Future}
    (h : s.desk.futures[f]? = some x) :
    ∃ r, (s.onManagedBot bot).desk.futures[f]? = some ⟨x.owner, r⟩ ∧
      ((r = x.state ∧ (x.state = .pending → s.desk.awaiting bot.username ≠ some f)) ∨
        x.state = .pending ∧ r = .done bot) := by
  have hstate : s.desk.stateOf f = some x.state := Desk.stateOf_eq h
  simp only [onManagedBot]
  split
  · next g hg =>
      split
      · next hpending =>
          refine ⟨if g = f then .done bot else x.state,
            Desk.resolve_futures.mpr ⟨x, h, by split <;> rfl⟩, ?_⟩
          by_cases hgf : g = f
          · subst hgf
            exact .inr ⟨Option.some.inj (hstate.symm.trans hpending), if_pos rfl⟩
          · exact .inl ⟨if_neg hgf, fun _ haw => hgf (Option.some.inj (hg.symm.trans haw))⟩
      · next hdone =>
          refine ⟨_, h, .inl ⟨rfl, fun hp haw => hdone ?_⟩⟩
          obtain rfl := Option.some.inj (hg.symm.trans haw)
          rw [hstate, hp]
  · next hnone => exact ⟨_, h, .inl ⟨rfl, fun _ haw => absurd (hnone.symm.trans haw) nofun⟩⟩

theorem onManagedBot_awaiting {bot : ManagedBot} :
    (s.onManagedBot bot).desk.awaiting = s.desk.awaiting := by
  simp only [onManagedBot]
  split
  · split <;> rfl
  · rfl

theorem onManagedBot_prepared {bot : ManagedBot} :
    (s.onManagedBot bot).desk.prepared = s.desk.prepared := by
  simp only [onManagedBot]
  split
  · split <;> rfl
  · rfl

/-- What is done after an update was done, or it was done by the update. -/
theorem of_onManagedBot_done {bot bot' : ManagedBot} {f : Nat} {u : String}
    (h : (s.onManagedBot bot).desk.futures[f]? = some ⟨u, .done bot'⟩) :
    s.desk.futures[f]? = some ⟨u, .done bot'⟩ ∨
      bot' = bot ∧ s.desk.awaiting bot.username = some f ∧
        ∃ r : Resolution, s.desk.futures[f]? = some ⟨u, r⟩ := by
  simp only [onManagedBot] at h
  split at h
  · next g hg =>
      split at h
      · obtain ⟨⟨v, r⟩, hx, heq⟩ := Desk.resolve_futures.mp h
        split at heq
        · next hgf =>
            subst hgf
            cases heq
            exact .inr ⟨rfl, hg, r, hx⟩
        · exact .inl (heq ▸ hx)
      · exact .inl h
  · exact .inl h

/-- The confirmation that comes to an expectation resolves it; another is left alone. -/
theorem onManagedBot_early (h : s.Kept) {bot bot' : ManagedBot} {u : String}
    (hu : (s.onManagedBot bot).desk.confirmed u = some bot') :
    ∃ f, s.desk.awaiting u = some f ∧
      (s.onManagedBot bot).desk.stateOf f = some (.done bot') := by
  by_cases hnew : s.desk.expects bot.username = true ∧ u = bot.username
  · obtain ⟨hexpects, rfl⟩ := hnew
    obtain ⟨f, haw, hpending⟩ := Option.any_eq_true _ _ |>.mp hexpects
    obtain ⟨x, hx, hstate⟩ := Option.map_eq_some_iff.mp (of_decide_eq_true hpending)
    obtain rfl : bot = bot' := by
      simpa [State.onManagedBot, hexpects] using hu
    refine ⟨f, haw, ?_⟩
    obtain ⟨r, hr, ⟨-, hnot⟩ | ⟨-, rfl⟩⟩ := onManagedBot_futures bot hx
    · exact absurd haw (hnot hstate)
    · exact Desk.stateOf_eq hr
  · have hold : s.desk.confirmed u = some bot' := by
      rw [not_and] at hnew
      simp only [State.onManagedBot] at hu
      split at hu
      · next hexpects => rwa [Function.update_of_ne (hnew hexpects)] at hu
      · exact hu
    obtain ⟨f, haw, hdone⟩ := h.early u bot' hold
    obtain ⟨x, hx, hstate⟩ := Option.map_eq_some_iff.mp hdone
    refine ⟨f, haw, ?_⟩
    obtain ⟨r, hr, ⟨rfl, -⟩ | ⟨hpending, -⟩⟩ := onManagedBot_futures bot hx
    · exact (Desk.stateOf_eq hr).trans (congrArg some hstate)
    · rw [hstate] at hpending
      cases hpending

/-- A call that waits live for this very confirmation finds its future done. -/
theorem onManagedBot_found (h : s.Kept) {bot : ManagedBot} {n : Nat} {c : Call}
    (hc : s.calls[n]? = some c) (ht : c.target = bot.username) (hlive : c.live = true) {f : Nat}
    (hf : c.waitsOn = some f) :
    ∃ bot', (s.onManagedBot bot).desk.stateOf f = some (.done bot') := by
  obtain ⟨r, hr, hready⟩ := (h.calls n c hc).waits f hf
  obtain ⟨hmine, hnot⟩ := hready hlive
  obtain ⟨r', hr', ⟨hsame, hnotmine⟩ | ⟨-, rfl⟩⟩ := onManagedBot_futures bot hr
  · obtain rfl : r' = r := hsame
    cases r' with
    | pending => exact absurd (ht ▸ hmine rfl) (hnotmine rfl)
    | done bot' => exact ⟨bot', Desk.stateOf_eq hr'⟩
    | cancelled => exact absurd rfl hnot
  · exact ⟨bot, Desk.stateOf_eq hr'⟩

/-- An update of a bot that is there. -/
theorem onManagedBot (h : s.Kept) {bot : ManagedBot}
    (hbot : s.remote bot.username = some bot.botId) : Kept (s.onManagedBot bot) where
  mapped u f hu := by
    rw [onManagedBot_awaiting] at hu
    obtain ⟨r, hr⟩ := h.mapped u f hu
    obtain ⟨r', hr', -⟩ := onManagedBot_futures bot hr
    exact ⟨r', hr'⟩
  early u bot' hu := by
    rw [onManagedBot_awaiting]
    exact h.onManagedBot_early hu
  truthful f u bot' hf := by
    rcases of_onManagedBot_done hf with hold | ⟨rfl, haw, r, hr⟩
    · exact h.truthful f u bot' hold
    · obtain ⟨r', hr'⟩ := h.mapped _ _ haw
      cases hr.symm.trans hr'
      exact ⟨rfl, hbot⟩
  claimed u hu := by
    rw [onManagedBot_awaiting] at hu
    rw [onManagedBot_prepared]
    refine (h.claimed u hu).imp_left fun ⟨m, c, hc, ht, hcl⟩ => ?_
    refine ⟨m, if c.target = bot.username ∧ c.waitsOn.isSome ∧ c.live then
      { c with heard := bot :: c.heard } else c, ?_, ?_, ?_⟩
    · simp [State.onManagedBot, hc]
    · split <;> exact ht
    · split <;> exact hcl
  calls m c' hc' := by
    simp only [State.onManagedBot, List.getElem?_map, Option.map_eq_some_iff] at hc'
    obtain ⟨c, hc, rfl⟩ := hc'
    have hkept : c.Kept (s.onManagedBot bot).desk s.remote := by
      refine (h.calls m c hc).desk fun f x hx => ?_
      obtain ⟨r, hr, ⟨hsame, -⟩ | ⟨hpending, hdone⟩⟩ := onManagedBot_futures bot hx
      · refine ⟨r, hr, fun _ => hsame, fun _ _ hp => ⟨by simp [hsame, hp], fun _ haw => ?_⟩⟩
        rw [onManagedBot_awaiting]
        exact haw
      · exact ⟨r, hr, fun ⟨bot', hd⟩ => absurd (hpending.symm.trans hd) nofun,
          fun _ _ _ => ⟨by simp [hdone], by simp [hdone]⟩⟩
    split
    · next hcond =>
        -- It waits for this very confirmation.
        obtain ⟨ht, hwaits, hlive⟩ := hcond
        obtain ⟨f, hf⟩ := Option.isSome_iff_exists.mp hwaits
        obtain ⟨hfound, hcut, hlate, hheard, hpreparing, -⟩ := hkept.account
        refine ⟨hkept.obeys, ⟨hfound, hcut, hlate, fun bot' hmem => ?_, hpreparing,
          fun _ hexp _ => ?_⟩, hkept.ended, hkept.waits, .inl ?_⟩
        · rcases List.mem_cons.mp hmem with rfl | hmem
          · exact ⟨ht.symm, ht ▸ hbot⟩
          · exact hheard bot' hmem
        · simp [Call.live, show c.expiring = true from hexp] at hlive
        · obtain ⟨bot', hdone⟩ := h.onManagedBot_found hc ht hlive hf
          exact ⟨f, bot', hf, hdone⟩
    · exact hkept

/-- The owner presses Create. -/
theorem created (h : s.Kept) {remote : String → Option Int}
    (hmono : ∀ u botId, s.remote u = some botId → remote u = some botId) :
    Kept { s with remote } where
  mapped := h.mapped
  early := h.early
  truthful f u bot hf := (h.truthful f u bot hf).imp_right (hmono _ _)
  claimed := h.claimed
  calls m c hc := by
    have hkept := h.calls m c hc
    obtain ⟨hfound, hcut, hlate, hheard, hpreparing, hdirect⟩ := hkept.account
    exact ⟨hkept.obeys, ⟨fun bot hbot => (hfound bot hbot).imp_right (hmono _ _), hcut, hlate,
      fun bot hbot => (hheard bot hbot).imp_right (hmono _ _), hpreparing, hdirect⟩, hkept.ended,
      hkept.waits, hkept.answered⟩

/-- An expectation is dropped from outside. -/
theorem forget (h : s.Kept) {u : String} (hdrops : s.drops s.calls.length s.desk u = true) :
    Kept { s with desk := s.desk.forget u } where
  mapped := h.mapped.forget
  early := h.early.forget
  truthful := h.truthful
  claimed v hv := by
    refine h.claimed v fun hnone => hv ?_
    by_cases hne : v = u
    · exact hne ▸ Desk.forget_awaiting _ _
    · exact (Desk.forget_awaiting_of_ne hne).trans hnone
  calls m c hc := by
    have hlt := (List.getElem?_eq_some_iff.mp hc).1
    exact kept_forget (Nat.ne_of_lt hlt) hc (h.calls m c hc) hdrops

/-- A wait that ends, and how. -/
theorem of_resumed_wake {m : Nat} {x : Prog Outcome} {b : Book}
    (hres : s.resumed (.wake n) = some (m, c, x, b)) (h : s.Kept) :
    m = n ∧ s.calls[n]? = some c ∧ Running s n c x s.desk b := by
  simp only [resumed] at hres
  split at hres
  · next c' hc =>
      split at hres
      · next f k hprog =>
          split at hres
          · next hcancelled =>
              cases hres
              exact ⟨rfl, hc, h.running_wake hc hprog (.inl ⟨hcancelled, rfl⟩)⟩
          · next hnot =>
              rw [Bool.not_eq_true] at hnot
              split at hres
              · next hexpiring =>
                  cases hres
                  exact ⟨rfl, hc, h.running_wake hc hprog (.inr (.inl ⟨hnot, hexpiring, rfl⟩))⟩
              · next hexpiring =>
                  rw [Bool.not_eq_true] at hexpiring
                  have hlive : c'.live = true := by simp [Call.live, hnot, hexpiring]
                  split at hres
                  · next bot hdone =>
                      cases hres
                      exact ⟨rfl, hc, h.running_wake hc hprog
                        (.inr (.inr ⟨hlive, .inl ⟨bot, hdone, rfl⟩⟩))⟩
                  · next hgone =>
                      cases hres
                      exact ⟨rfl, hc, h.running_wake hc hprog (.inr (.inr ⟨hlive, .inr hgone⟩))⟩
                  · cases hres
      · cases hres
  · cases hres

theorem of_resumed_answer {m : Nat} {reply : Reply} {x : Prog Outcome} {b : Book}
    (hres : s.resumed (.answer n reply) = some (m, c, x, b)) (h : s.Kept) :
    m = n ∧ s.calls[n]? = some c ∧ Running s n c x s.desk b := by
  simp only [resumed] at hres
  split at hres
  · next c' hc =>
      split at hres
      · next op k hprog =>
          split at hres
          · next a hfit =>
              split at hres
              · next hcond =>
                  cases hres
                  exact ⟨rfl, hc, h.running_answer hc hprog hfit hcond.1 hcond.2⟩
              · cases hres
          · cases hres
      · cases hres
  · cases hres

/-- A call that goes on. -/
theorem resume (h : Running s n c x s.desk b) (hc : s.calls[n]? = some c)
    (hmeets : s.meets n c x s.desk b = true) : Kept (s.resume n c x b) :=
  h.settle (List.getElem?_eq_some_iff.mp hc).1 hmeets

theorem step (h : s.Kept) {e : Event} (hok : s.considerate e = true)
    (hst : State.step s e = some t) : t.Kept := by
  cases e with
  | call kind username =>
      obtain rfl := Option.some.inj hst
      have hn : s.calls.length <
          (s.arrives (Call.start kind (normalise username))).calls.length := by
        simp [arrives]
      exact (h.running_call kind (normalise username)).settle hn hok
  | answer n reply =>
      obtain ⟨⟨m, c, x, b⟩, hres, rfl⟩ := Option.map_eq_some_iff.mp hst
      obtain ⟨rfl, hc, hrun⟩ := of_resumed_answer hres h
      simp only [considerate, hres, Option.all_some] at hok
      exact resume hrun hc hok
  | wake n =>
      obtain ⟨⟨m, c, x, b⟩, hres, rfl⟩ := Option.map_eq_some_iff.mp hst
      obtain ⟨rfl, hc, hrun⟩ := of_resumed_wake hres h
      simp only [considerate, hres, Option.all_some] at hok
      exact resume hrun hc hok
  | timeout n =>
      simp only [State.step] at hst
      split at hst
      · next c hc =>
          simp only [considerate, hc] at hok
          split at hst
          · next hwaits =>
              obtain rfl := Option.some.inj hst
              refine h.giveUp hc rfl (fun _ => rfl) id (fun f hf hp => ?_)
                fun hkind _ hcancelled => ?_
              · simpa [hf, hp] using hok
              · -- A direct wait whose confirmation is still to come.
                obtain ⟨f, hf⟩ := Option.isSome_iff_exists.mp hwaits.1
                refine (h.calls n c hc).unheard hf hcancelled fun bot hdone => ?_
                simp [hf, hdone, hkind, hcancelled] at hok
          · cases hst
      · cases hst
  | cancel n =>
      simp only [State.step] at hst
      split at hst
      · next c hc =>
          simp only [considerate, hc] at hok
          split at hst
          · obtain rfl := Option.some.inj hst
            refine h.giveUp hc (Bool.or_true _) id (fun _ => rfl)
              (fun f hf hp => ?_) fun _ _ => nofun
            simpa [hf, hp] using hok
          · cases hst
      · cases hst
  | created botId username =>
      simp only [State.step] at hst
      split at hst
      · next hnone =>
          obtain rfl := Option.some.inj hst
          refine h.created fun u i hu => ?_
          have hne : u ≠ normalise username := fun heq => by
            rw [heq, hnone] at hu
            cases hu
          rwa [Function.update_of_ne hne]
      · cases hst
  | update botId username =>
      simp only [State.step] at hst
      split at hst
      · next hbot =>
          obtain rfl := Option.some.inj hst
          exact h.onManagedBot hbot
      · cases hst
  | forget username =>
      obtain rfl := Option.some.inj hst
      exact h.forget hok

theorem start : Kept sys.start where
  mapped := nofun
  early := nofun
  truthful _ _ _ hf := by simp [sys] at hf
  claimed _ hu := absurd rfl hu
  calls _ _ hc := by simp [sys] at hc

/-- What a call returned is what it found. -/
theorem returned_found (h : s.Kept) (hc : s.calls[n]? = some c) {bot : ManagedBot}
    (hret : c.returned = some bot) : c.book.found = some bot := by
  have hobeys := (h.calls n c hc).obeys
  simp only [Call.returned] at hret
  split at hret
  · next found hprog =>
      obtain rfl := Option.some.inj hret
      rw [hprog] at hobeys
      exact hobeys.confirmed _ rfl
  · next created hprog =>
      obtain rfl := Option.some.inj hret
      rw [hprog] at hobeys
      obtain ⟨hname, hfound⟩ := hobeys.created created rfl
      rw [hname]
      exact hfound
  · cases hret

theorem ends (h : s.Kept) (hc : s.calls[n]? = some c) {r : Except Failure Outcome}
    (hr : c.result = some r) : Ends c.kind c.target c.book r := by
  have hobeys := (h.calls n c hc).obeys
  simp only [Call.result] at hr
  split at hr
  · next hprog =>
      obtain rfl := Option.some.inj hr
      rwa [hprog] at hobeys
  · next hprog =>
      obtain rfl := Option.some.inj hr
      rwa [hprog] at hobeys
  · cases hr

/-- A call that is over waits for nothing. -/
theorem answered (h : s.Kept) (hc : s.calls[n]? = some c) (hr : c.result ≠ none) :
    c.Answered c.book := by
  rcases (h.calls n c hc).answered with ⟨f, _, hf, _⟩ | hanswered
  · obtain ⟨k, hk⟩ := Call.waitsOn_eq_some.mp hf
    exact absurd (by simp [Call.result, hk]) hr
  · exact hanswered

theorem heard (h : s.Kept) (hc : s.calls[n]? = some c) (hr : c.result ≠ none)
    (hheard : c.heard ≠ []) :
    (∃ bot ∈ c.heard, c.book.found = some bot) ∨ c.cancelled = true ∨
      c.kind = .create ∧ c.book.timedOut = true ∧ c.book.unanswered = true := by
  have haccount := (h.calls n c hc).account
  have hfound (hsome : c.book.found.isSome = true) :
      ∃ bot ∈ c.heard, c.book.found = some bot := by
    obtain ⟨bot, hbot⟩ := Option.isSome_iff_exists.mp hsome
    obtain ⟨told, htold⟩ := List.exists_mem_of_ne_nil _ hheard
    -- One username has one bot: what was heard is what was found.
    obtain ⟨hname, hthere⟩ := haccount.found bot hbot
    obtain ⟨hname', hthere'⟩ := haccount.heard told htold
    obtain rfl : told = bot := by
      cases told
      cases bot
      simp only [ManagedBot.mk.injEq]
      exact ⟨Option.some.inj (hthere'.symm.trans hthere), hname'.trans hname.symm⟩
    exact ⟨told, htold, hbot⟩
  rcases h.answered hc hr hheard with hcancelled | hsome | ⟨hkind, hlate⟩
  · exact .inr (.inl hcancelled)
  · exact .inl (hfound hsome)
  · obtain ⟨r, hres⟩ := Option.ne_none_iff_exists'.mp hr
    rcases (h.ends hc hres).asked hkind hlate with hsome | hun
    · exact .inl (hfound hsome)
    · exact .inr (.inr ⟨hkind, hlate, hun⟩)

theorem reliable (h : s.Kept) : s.Reliable where
  confirmed := h.early
  own c hmem bot hret := by
    obtain ⟨n, hc⟩ := List.mem_iff_getElem?.mp hmem
    exact (h.calls n c hc).account.found bot (h.returned_found hc hret)
  heard c hmem hr hheard := by
    obtain ⟨n, hc⟩ := List.mem_iff_getElem?.mp hmem
    exact h.heard hc hr hheard
  waiting c hmem f hf hlive := by
    obtain ⟨n, hc⟩ := List.mem_iff_getElem?.mp hmem
    obtain ⟨r, hr, hready⟩ := (h.calls n c hc).waits f hf
    obtain ⟨hmine, hnot⟩ := hready hlive
    cases r with
    | pending => exact .inr ⟨Desk.stateOf_eq hr, hmine rfl⟩
    | done bot => exact .inl ⟨bot, Desk.stateOf_eq hr⟩
    | cancelled => exact absurd rfl hnot
  unharmed c hmem := by
    obtain ⟨n, hc⟩ := List.mem_iff_getElem?.mp hmem
    have haccount := (h.calls n c hc).account
    exact ⟨fun hr => haccount.cut ((h.ends hc hr).cut rfl),
      fun hr => haccount.late ((h.ends hc hr).late rfl)⟩
  empty u hu := by
    refine (h.claimed u hu).imp_left fun ⟨n, c, hc, ht, hcl⟩ =>
      ⟨c, List.mem_of_getElem? hc, ht, hcl, ?_⟩
    by_contra hr
    exact absurd (((h.calls n c hc).ended hr).symm.trans hcl) nofun

end Kept

end State

def asked (n : Nat) : List Event := [.answer n (.manager (.ok ())), .answer n (.botId (.ok none))]

end Telemax.Provisioning.Managed
