import Telemax.Provisioning.System
import Telemax.Provisioning.Typestate

/-!
# Telemax.Provisioning.Undisturbed

A contact that one run has brought up and whose bridge is alive is left alone by
the others.  It is, in every run in which each contact is taken up by the
journal as it stands then; it is not where a run goes by the copy it took before
its loop, and another has finished one of the contacts meanwhile.

The invariant keeps a ledger for each task beside the state: the claims it is
inside of, as its program text says.  Two tasks are never inside a claim of one
contact, and what is served has been finished in every claim there is.
-/

namespace Telemax.Provisioning

open Script

/-- A task that keeps to the discipline and ends outside every claim. -/
def Disciplined (σ : Ledger) (x : Prog Unit) : Prop :=
  Obeys discipline σ x fun σ _ => Holds [] σ

theorem disciplined_run (cfg : Config) :
    Disciplined .empty (do let _ : List JournalEntry ← ProvisioningBatch.run cfg) :=
  Carries.bind ProvisioningBatch.carries_run (fun _ hw => hw) (fun _ => .pure _ fun _ hw => hw)
    _ rfl

theorem disciplined_reconcile (cfg : Config) (entry : JournalEntry) :
    Disciplined .empty (do let _ : Verdict ← ProvisioningReconciler.reconcile cfg entry) :=
  Carries.bind ProvisioningReconciler.carries_reconcile (fun _ hw => hw)
    (fun _ => .pure _ fun _ hw => hw) _ rfl

/-- The same claims, but for what has been finished in them. -/
def Ledger.Stays (a b : Ledger) : Prop :=
  b.held = a.held ∨ ∃ chat, b.held = a.held.map (·.finish chat)

namespace Ledger.Stays

variable {a b : Ledger}

theorem mem (h : a.Stays b) {m' : Hold} (hm' : m' ∈ b.held) :
    ∃ m ∈ a.held, m'.key = m.key ∧ m'.chat = m.chat ∧ (m.finished = true → m'.finished = true) := by
  rcases h with h | ⟨chat, h⟩
  · exact ⟨m', h ▸ hm', rfl, rfl, id⟩
  · obtain ⟨m, hm, rfl⟩ := List.mem_map.mp (h ▸ hm')
    refine ⟨m, hm, ?_⟩
    simp only [Hold.finish]
    split
    · exact ⟨rfl, rfl, fun _ => rfl⟩
    · exact ⟨rfl, rfl, id⟩

theorem nested (h : a.Stays b)
    (hn : a.held.Pairwise fun x y => x.key = y.key → x.how ≠ .taken) :
    b.held.Pairwise fun x y => x.key = y.key → x.how ≠ .taken := by
  rcases h with h | ⟨chat, h⟩
  · rwa [h]
  · rw [h, List.pairwise_map]
    refine hn.imp fun {x y} hxy => ?_
    have hsame (m : Hold) : (m.finish chat).key = m.key ∧ (m.finish chat).how = m.how := by
      simp only [Hold.finish]
      split <;> exact ⟨rfl, rfl⟩
    rw [(hsame x).1, (hsame y).1, (hsame x).2]
    exact hxy

end Ledger.Stays

/-- The state and the ledgers of its tasks. -/
structure Kept (keyOf : Int → ContactKey) (s : State) (ledger : Nat → Ledger) : Prop where
  disciplined : ∀ t x, s.tasks[t]? = some x → Disciplined (ledger t) x
  dead : ∀ t chat, s.running = some t → (ledger t).dead = some chat → s.served chat = none
  holder : ∀ t, ∀ m ∈ (ledger t).held,
    (s.slots m.key).holder = some t ∧ m.key = keyOf m.chat
  nested : ∀ t, (ledger t).held.Pairwise fun a b => a.key = b.key → a.how ≠ .taken
  served : ∀ chat t, s.served chat = some t → s.serving chat = true
  finished : ∀ chat t, s.served chat = some t →
    ∀ t', ∀ m ∈ (ledger t').held, m.chat = chat → m.finished = true
  undisturbed : s.Undisturbed

namespace Kept

variable {keyOf : Int → ContactKey} {s s' : State} {ledger ledger' : Nat → Ledger} {t : Nat}

/-- What is not being served is not served. -/
theorem served_eq_none (h : Kept keyOf s ledger) {chat : Int} (hs : s.serving chat = false) :
    s.served chat = none := by
  cases hserved : s.served chat with
  | none => rfl
  | some t => rw [h.served chat t hserved] at hs; cases hs

/-- What a task walks is not served. -/
theorem served_inside (h : Kept keyOf s ledger) {chat : Int} (hin : (ledger t).Inside chat) :
    s.served chat = none := by
  obtain ⟨m, hm, hchat, hfin⟩ := hin
  cases hserved : s.served chat with
  | none => rfl
  | some t' =>
      rw [h.finished chat t' hserved t m (List.mem_of_mem_head? hm) hchat] at hfin
      cases hfin

/-- Two tasks are not inside a claim of one contact. -/
theorem exclusive (h : Kept keyOf s ledger) {t' : Nat} {m m' : Hold} (hm : m ∈ (ledger t).held)
    (hm' : m' ∈ (ledger t').held) (hchat : m.chat = m'.chat) : t = t' := by
  obtain ⟨hholder, hkey⟩ := h.holder t m hm
  obtain ⟨hholder', hkey'⟩ := h.holder t' m' hm'
  rw [hkey, hchat, ← hkey', hholder'] at hholder
  exact (Option.some.inj hholder).symm

/-- A step that enters no claim and leaves none. -/
theorem of_held (h : Kept keyOf s ledger) (hheld : ∀ t, (ledger t).Stays (ledger' t))
    (hdisc : ∀ t x, s'.tasks[t]? = some x → Disciplined (ledger' t) x)
    (hdead : ∀ t chat, s'.running = some t → (ledger' t).dead = some chat →
      s'.served chat = none)
    (hslots : ∀ key, (s'.slots key).holder = (s.slots key).holder)
    (hserved : ∀ chat t, s'.served chat = some t → s'.serving chat = true ∧
      (s.served chat = some t ∨
        ∀ t', ∀ m ∈ (ledger' t').held, m.chat = chat → m.finished = true))
    (hcalls : s'.Undisturbed) : Kept keyOf s' ledger' where
  disciplined := hdisc
  dead := hdead
  holder t m' hm' := by
    obtain ⟨m, hm, hkey, hchat, _⟩ := (hheld t).mem hm'
    rw [hslots, hkey, hchat]
    exact h.holder t m hm
  nested t := (hheld t).nested (h.nested t)
  served chat t hs := (hserved chat t hs).1
  finished chat t hs t' m' hm' hchat' := by
    rcases (hserved chat t hs).2 with hold | hnew
    · obtain ⟨m, hm, _, hchat, hfin⟩ := (hheld t').mem hm'
      exact hfin (h.finished chat t hold t' m hm (hchat ▸ hchat'))
    · exact hnew t' m' hm' hchat'
  undisturbed := hcalls

/-- The program a task goes on with keeps to the discipline. -/
theorem goes_on (h : Kept keyOf s ledger) {op : Op} {k : op.Outcome → Prog Unit}
    (ht : s.tasks[t]? = some (.ask op k)) (r : op.Outcome) (t' : Nat) (x : Prog Unit)
    (hx : (s.tasks.set t (k r))[t']? = some x) :
    Disciplined (Function.update ledger t (discipline.next (ledger t) op r) t') x := by
  rw [List.getElem?_set] at hx
  by_cases htt : t' = t
  · subst htt
    rw [Function.update_self]
    split at hx
    · split at hx
      · obtain rfl := Option.some.inj hx
        exact (obeys_ask.mp (h.disciplined _ _ ht)).2 r
      · cases hx
    · next hne => exact absurd rfl hne
  · rw [if_neg (Ne.symm htt)] at hx
    rw [Function.update_of_ne htt]
    exact h.disciplined t' x hx

/-- A question is put only where it is allowed. -/
theorem allowed (h : Kept keyOf s ledger) {op : Op} {k : op.Outcome → Prog Unit}
    (ht : s.tasks[t]? = some (.ask op k)) : discipline.allowed (ledger t) op :=
  (obeys_ask.mp (h.disciplined _ _ ht)).1

/-- A task goes on, and the others stay. -/
theorem stays_update {σ : Ledger} (hσ : (ledger t).Stays σ) (t' : Nat) :
    (ledger t').Stays (Function.update ledger t σ t') := by
  by_cases h : t' = t
  · subst h
    rwa [Function.update_self]
  · rw [Function.update_of_ne h]
    exact .inl rfl

/-- What `is_healthy` has denied to the task whose turn it is. -/
theorem dead_update {σ : Ledger} (hrun : s'.running = some t)
    (hdead : ∀ chat, σ.dead = some chat → s'.served chat = none) (t' : Nat) (chat : Int)
    (hrun' : s'.running = some t') (hchat : (Function.update ledger t σ t').dead = some chat) :
    s'.served chat = none := by
  obtain rfl : t = t' := Option.some.inj (hrun.symm.trans hrun')
  rw [Function.update_self] at hchat
  exact hdead chat hchat

/-- A task goes on, and nothing else changes. -/
theorem reads (h : Kept keyOf s ledger) {op : Op} {k : op.Outcome → Prog Unit}
    (ht : s.tasks[t]? = some (.ask op k)) (r : op.Outcome)
    (hheld : (ledger t).Stays (discipline.next (ledger t) op r))
    (hdead : ∀ chat, (discipline.next (ledger t) op r).dead = some chat → s.served chat = none) :
    ∃ ledger', Kept keyOf (s.goesOn t (k r)) ledger' :=
  ⟨_, h.of_held (stays_update hheld) (h.goes_on ht r) (dead_update rfl hdead) (fun _ => rfl)
    (fun chat t hs => ⟨h.served chat t hs, .inl hs⟩) h.undisturbed⟩

/-- After a `note`, the same claims. -/
theorem stays_note (writer : Writer) (chat : Int) (c : Changes) (r : Except Fault Unit)
    (σ : Ledger) : σ.Stays (discipline.next σ (.note writer chat c) r) := by
  cases r with
  | error e => exact .inl rfl
  | ok _ =>
      simp only [discipline]
      split
      · exact .inr ⟨chat, rfl⟩
      · exact .inl rfl

/-- A contact other than the one written about is served as before. -/
theorem serving_noted {chat chat' : Int} {c : Changes} {j : ProvisioningJournal}
    (hj : s.journal.note chat c = some j) (hne : chat' ≠ chat) :
    (s.noted t chat c j).serving chat' = s.serving chat' := by
  simp only [State.serving, State.noted, ProvisioningJournal.get_note hj, if_neg hne]

/-- A contact is being served once it is written that it is healthy. -/
theorem serving_finished {chat : Int} {c : Changes} {j : ProvisioningJournal}
    (hj : s.journal.note chat c = some j) (hc : c.state = some .healthy)
    (halive : s.alive chat = true) : (s.noted t chat c j).serving chat = true := by
  obtain ⟨e, he, _⟩ := Option.map_eq_some_iff.mp hj
  simp only [State.serving, State.noted, ProvisioningJournal.get_note hj, if_true, he, halive,
    Option.map_some, Option.any_some, JournalEntry.finished, Changes.state_apply, hc]
  rfl

/-- Something is written about a contact that is not served, and not that it is healthy. -/
theorem writes (h : Kept keyOf s ledger) {writer : Writer} {chat : Int} {c : Changes}
    {k : Except Fault Unit → Prog Unit} {j : ProvisioningJournal}
    (ht : s.tasks[t]? = some (.ask (.note writer chat c) k)) (hj : s.journal.note chat c = some j)
    (hserved : s.served chat = none) (hc : ¬(c.state = some .healthy ∧ s.alive chat = true)) :
    ∃ ledger', Kept keyOf ((s.noted t chat c j).goesOn t (k (.ok ()))) ledger' := by
  have hsame : (s.noted t chat c j).served = s.served := by
    funext chat'
    simp only [State.noted]
    rw [if_neg fun hh => hc hh.2]
  refine ⟨_, h.of_held (stays_update (stays_note writer chat c (.ok ()) _)) (h.goes_on ht (.ok ()))
    (dead_update rfl fun _ => nofun) (fun _ => rfl) ?_ h.undisturbed⟩
  intro chat' t' hs
  have hs' : s.served chat' = some t' := hsame ▸ hs
  have hne : chat' ≠ chat := fun heq => by rw [heq, hserved] at hs'; cases hs'
  exact ⟨(serving_noted (t := t) hj hne).trans (h.served chat' t' hs'), .inl hs'⟩

/-- A walk writes that its contact is healthy. -/
theorem finishes (h : Kept keyOf s ledger) {writer : Writer} {chat : Int} {c : Changes}
    {k : Except Fault Unit → Prog Unit} {j : ProvisioningJournal}
    (ht : s.tasks[t]? = some (.ask (.note writer chat c) k)) (hj : s.journal.note chat c = some j)
    (hin : (ledger t).Inside chat) (hc : c.state = some .healthy) (halive : s.alive chat = true) :
    ∃ ledger', Kept keyOf ((s.noted t chat c j).goesOn t (k (.ok ()))) ledger' := by
  refine ⟨_, h.of_held (stays_update (stays_note writer chat c (.ok ()) _)) (h.goes_on ht (.ok ()))
    (dead_update rfl fun _ => nofun) (fun _ => rfl) ?_ h.undisturbed⟩
  intro chat' t' hs
  by_cases hne : chat' = chat
  · subst hne
    refine ⟨serving_finished (s := s) (t := t) hj hc halive, .inr fun t'' m' hm' hchat' => ?_⟩
    · by_cases htt : t'' = t
      · subst htt
        rw [Function.update_self] at hm'
        simp only [discipline, if_pos hc] at hm'
        obtain ⟨m, _, rfl⟩ := List.mem_map.mp hm'
        simp only [Hold.finish] at hchat' ⊢
        split
        · rfl
        · next hno => rw [if_neg hno] at hchat'; exact absurd hchat' hno
      · rw [Function.update_of_ne htt] at hm'
        obtain ⟨m, hm, hchat, _⟩ := hin
        exact absurd (h.exclusive hm' (List.mem_of_mem_head? hm) (hchat'.trans hchat.symm)) htt
  · have hs' : s.served chat' = some t' := by
      change (if chat' = chat ∧ _ then _ else _) = _ at hs
      rwa [if_neg fun hh => hne hh.1] at hs
    exact ⟨(serving_noted (t := t) hj hne).trans (h.served chat' t' hs'), .inl hs'⟩

/-! ## claims -/

theorem holder_setSlot {key : ContactKey} {slot : Slot}
    (hslot : slot.holder = (s.slots key).holder) (key' : ContactKey) :
    ((s.setSlot key slot).slots key').holder = (s.slots key').holder := by
  simp only [State.setSlot]
  split
  · next heq => rw [hslot, heq]
  · rfl

/-- A claim that is waited for, or given up. -/
theorem waits (h : Kept keyOf s ledger) {key : ContactKey} {chat : Int}
    {k : Claimed → Prog Unit} {slot : Slot} {how : Claimed}
    (ht : s.tasks[t]? = some (.ask (.claim key chat) k))
    (hslot : slot.holder = (s.slots key).holder) (hhow : how = .lost ∨ how = .cancelled) :
    ∃ ledger', Kept keyOf ((s.setSlot key slot).goesOn t (k how)) ledger' := by
  have hnext : discipline.next (ledger t) (.claim key chat) how = ⟨(ledger t).held, none⟩ := by
    rcases hhow with rfl | rfl <;> rfl
  refine ⟨_, h.of_held (stays_update (.inl (by rw [hnext]))) (h.goes_on ht how)
    (dead_update rfl fun _ hd => ?_) (holder_setSlot hslot)
    (fun chat t hs => ⟨h.served chat t hs, .inl hs⟩) h.undisturbed⟩
  rw [hnext] at hd
  cases hd

/-- A contact is taken up: nobody else is inside a claim of it, and it is not served. -/
theorem enters (h : Kept keyOf s ledger) {key : ContactKey} {chat : Int}
    {k : Claimed → Prog Unit} {slot : Slot} {how : Claimed}
    (ht : s.tasks[t]? = some (.ask (.claim key chat) k)) (hslot : slot.holder = some t)
    (hhow : (how = .taken ∧ (s.slots key).holder = none) ∨
      (how = .already ∧ (s.slots key).holder = some t))
    (hkey : key = keyOf chat) (hserving : s.serving chat = false) :
    ∃ ledger', Kept keyOf ((s.setSlot key slot).goesOn t (k how)) ledger' := by
  have hnext : discipline.next (ledger t) (.claim key chat) how =
      ⟨⟨key, chat, how, false⟩ :: (ledger t).held, none⟩ := by
    rcases hhow with ⟨rfl, _⟩ | ⟨rfl, _⟩ <;> rfl
  have hheld (t' : Nat) (m : Hold)
      (hm : m ∈ (Function.update ledger t (discipline.next (ledger t) (.claim key chat) how)
        t').held) : (t' = t ∧ m = ⟨key, chat, how, false⟩) ∨ m ∈ (ledger t').held := by
    by_cases htt : t' = t
    · subst htt
      rw [Function.update_self, hnext] at hm
      exact (List.mem_cons.mp hm).imp (⟨rfl, ·⟩) id
    · rw [Function.update_of_ne htt] at hm
      exact .inr hm
  refine ⟨_, h.goes_on ht how, dead_update rfl fun _ hd => ?_, fun t' m hm => ?_, fun t' => ?_,
    fun chat t hs => h.served chat t hs, fun chat' t' hs t'' m hm hchat => ?_, h.undisturbed⟩
  · rw [hnext] at hd
    cases hd
  · rcases hheld t' m hm with ⟨rfl, rfl⟩ | hold
    · exact ⟨by simp only [State.goesOn, State.setSlot, if_true, hslot], hkey⟩
    · obtain ⟨hholder, hkeyOf⟩ := h.holder t' m hold
      refine ⟨?_, hkeyOf⟩
      simp only [State.goesOn, State.setSlot]
      split
      · next heq =>
          rw [heq] at hholder
          rcases hhow with ⟨_, hfree⟩ | ⟨_, hmine⟩
          · rw [hfree] at hholder
            cases hholder
          · rw [hslot, ← hmine, hholder]
      · exact hholder
  · by_cases htt : t' = t
    · subst htt
      rw [Function.update_self, hnext]
      refine List.pairwise_cons.mpr ⟨fun m hm heq htaken => ?_, h.nested t'⟩
      -- what was free is held in no claim further out
      obtain ⟨hholder, _⟩ := h.holder t' m hm
      rcases hhow with ⟨_, hfree⟩ | ⟨hhow, _⟩
      · rw [← heq, hfree] at hholder
        cases hholder
      · rw [hhow] at htaken
        cases htaken
    · rw [Function.update_of_ne htt]
      exact h.nested t'
  · rcases hheld t'' m hm with ⟨_, rfl⟩ | hold
    · obtain rfl : chat = chat' := hchat
      have hs' : s.served chat = some t' := hs
      rw [h.served_eq_none hserving] at hs'
      cases hs'
    · exact h.finished chat' t' hs t'' m hold hchat

/-- A claim is left. -/
theorem leaves (h : Kept keyOf s ledger) {key : ContactKey} {how : Claimed}
    {k : Unit → Prog Unit} (ht : s.tasks[t]? = some (.ask (.leave key how) k)) :
    ∃ ledger', Kept keyOf ((s.setSlot key ((s.slots key).leave how)).goesOn t (k ())) ledger' := by
  obtain ⟨top, htop, rfl, rfl⟩ := h.allowed ht
  have hnext : discipline.next (ledger t) (.leave top.key top.how) () =
      ⟨(ledger t).held.tail, none⟩ := rfl
  obtain ⟨rest, hrest⟩ : ∃ rest, (ledger t).held = top :: rest :=
    ⟨_, (List.cons_head?_tail htop).symm⟩
  have hheld (t' : Nat) (m : Hold)
      (hm : m ∈ (Function.update ledger t (discipline.next (ledger t) (.leave top.key top.how) ())
        t').held) : m ∈ (ledger t').held := by
    by_cases htt : t' = t
    · subst htt
      rw [Function.update_self, hnext] at hm
      exact List.mem_of_mem_tail hm
    · rwa [Function.update_of_ne htt] at hm
  refine ⟨_, h.goes_on ht (), dead_update rfl fun _ => nofun, fun t' m hm => ?_, fun t' => ?_,
    fun chat t hs => h.served chat t hs,
    fun chat t' hs t'' m hm hchat => h.finished chat t' hs t'' m (hheld t'' m hm) hchat,
    h.undisturbed⟩
  · obtain ⟨hholder, hkeyOf⟩ := h.holder t' m (hheld t' m hm)
    refine ⟨?_, hkeyOf⟩
    simp only [State.goesOn, State.setSlot, Slot.leave]
    split
    · next heq =>
        split
        · next htaken =>
            -- the lock is given back by who took it, outside every other claim under it
            obtain ⟨htopholder, _⟩ := h.holder t top (hrest ▸ List.mem_cons_self)
            rw [heq, htopholder] at hholder
            obtain rfl := Option.some.inj hholder
            rw [Function.update_self, hnext, hrest, List.tail_cons] at hm
            have hnested := h.nested t
            rw [hrest] at hnested
            exact absurd htaken ((List.pairwise_cons.mp hnested).1 m hm heq.symm)
        · rw [← heq, hholder]
    · exact hholder
  · by_cases htt : t' = t
    · subst htt
      rw [Function.update_self, hnext]
      exact (h.nested t').sublist (List.tail_sublist _)
    · rw [Function.update_of_ne htt]
      exact h.nested t'

/-! ## steps -/

/-- A step that leaves the tasks and their claims alone. -/
theorem outside (h : Kept keyOf s ledger) (htasks : s'.tasks = s.tasks)
    (hrunning : s'.running = s.running ∨ s'.running = none)
    (hslots : ∀ key, (s'.slots key).holder = (s.slots key).holder)
    (hserved : ∀ chat t, s'.served chat = some t → s.served chat = some t ∧
      s'.serving chat = true)
    (hcalls : s'.Undisturbed) : ∃ ledger', Kept keyOf s' ledger' := by
  refine ⟨ledger, h.of_held (fun _ => .inl rfl) (fun t x hx => ?_) (fun t chat hrun hdead => ?_)
    hslots (fun chat t hs => ⟨(hserved chat t hs).2, .inl (hserved chat t hs).1⟩) hcalls⟩
  · rw [htasks] at hx
    exact h.disciplined t x hx
  · cases hs : s'.served chat with
    | none => rfl
    | some t' =>
        rcases hrunning with hsame | hnone
        · rw [hsame] at hrun
          exact absurd ((hserved chat t' hs).1.symm.trans (h.dead t chat hrun hdead)) nofun
        · rw [hnone] at hrun
          cases hrun

/-- One operation of the task whose turn it is. -/
theorem go (h : Kept keyOf s ledger) {x : Prog Unit} (hrun : s.running = some t)
    (hx : s.tasks[t]? = some x) (hok : s.upToDate keyOf .go = true) :
    ∃ ledger', Kept keyOf (s.go t x) ledger' := by
  simp only [State.upToDate, State.takesUp, State.overwrites, State.current, hrun, hx,
    Option.bind_some, Option.map_some] at hok
  cases x with
  | done a => exact h.outside rfl (.inr rfl) (fun _ => rfl) (fun c t hs => ⟨hs, h.served c t hs⟩) h.undisturbed
  | fail e => exact h.outside rfl (.inr rfl) (fun _ => rfl) (fun c t hs => ⟨hs, h.served c t hs⟩) h.undisturbed
  | ask op k =>
      cases op with
      | walking chatIds => exact h.reads hx _ (.inl rfl) fun chat hd => h.dead t chat hrun hd
      | get chat => exact h.reads hx _ (.inl rfl) fun chat hd => h.dead t chat hrun hd
      | note writer chat c =>
          have hallowed := h.allowed hx
          simp only [State.go]
          cases hj : s.journal.note chat c with
          | none =>
              exact h.reads hx (Except.error (.keyError chat)) (stays_note writer chat c _ _)
                fun _ => nofun
          | some j =>
              dsimp only
              cases writer with
              | walk =>
                  by_cases hc : c.state = some .healthy ∧ s.alive chat = true
                  · exact h.finishes hx hj hallowed hc.1 hc.2
                  · exact h.writes hx hj (h.served_inside hallowed) hc
              | wentAway =>
                  exact h.writes hx hj (h.dead t chat hrun hallowed.1) fun hc => hallowed.2 hc.1
              | reconcile =>
                  have hserving : s.serving chat = false := by simpa using hok
                  exact h.writes hx hj (h.served_eq_none hserving) fun hc => hallowed hc.1
      | claim key chat =>
          simp only [State.go]
          rcases hclaim : (s.slots key).claim t with ⟨slot, how | how⟩
          · refine h.outside rfl (.inr rfl) (fun key' => ?_)
              (fun c t hs => ⟨hs, h.served c t hs⟩) h.undisturbed
            exact holder_setSlot (Slot.claim_none hclaim) key'
          · obtain ⟨hslot, hhow⟩ := Slot.claim_some hclaim
            obtain ⟨hkey, hserving⟩ : key = keyOf chat ∧ s.serving chat = false := by
              simpa [hclaim] using hok
            exact h.enters hx hslot hhow hkey hserving
      | leave key how => exact h.leaves hx
      | await c =>
          refine h.outside rfl (.inr rfl) (fun _ => rfl) (fun c t hs => ⟨hs, h.served c t hs⟩) ?_
          intro m hm other hother
          simp only [State.go, State.arrive] at hm
          cases hundoes : c.undoes with
          | none =>
              rw [hundoes] at hm
              exact h.undisturbed m hm other hother
          | some chat =>
              rw [hundoes] at hm
              rcases List.mem_append.mp hm with hold | hnew
              · exact h.undisturbed m hold other hother
              · obtain rfl := List.mem_singleton.mp hnew
                rw [h.served_inside (h.allowed hx chat hundoes)] at hother
                cases hother

/-- New tasks hold nothing. -/
theorem starts (h : Kept keyOf s ledger) {new : List (Prog Unit)}
    (hnew : ∀ x ∈ new, Disciplined .empty x) {running : Option Nat}
    (hrunning : ∀ t, running = some t → s.tasks.length ≤ t) :
    ∃ ledger', Kept keyOf { s with tasks := s.tasks ++ new, running := running } ledger' := by
  refine ⟨fun t => if t < s.tasks.length then ledger t else .empty, fun t x hx => ?_,
    fun t chat hrun hdead => ?_, fun t m hm => ?_, fun t => ?_, h.served,
    fun chat t hs t' m hm => ?_, h.undisturbed⟩
  · rw [List.getElem?_append] at hx
    split
    · next hlt =>
        rw [if_pos hlt] at hx
        exact h.disciplined t x hx
    · next hge =>
        rw [if_neg hge] at hx
        exact hnew x (List.mem_of_getElem? hx)
  · rw [if_neg (Nat.not_lt.mpr (hrunning t hrun))] at hdead
    cases hdead
  · split at hm
    · exact h.holder t m hm
    · cases hm
  · split
    · exact h.nested t
    · exact .nil
  · split at hm
    · exact h.finished chat t hs t' m hm
    · cases hm

/-- An entry of a contact that is not being served changes, or goes. -/
theorem overwritten (h : Kept keyOf s ledger) {chat : Int} {j : ProvisioningJournal}
    (hserving : s.serving chat = false) (hj : ∀ chat', chat' ≠ chat → j.get chat' = s.journal.get chat') :
    ∃ ledger', Kept keyOf { s with journal := j } ledger' := by
  refine h.outside rfl (.inl rfl) (fun _ => rfl) (fun chat' t hs => ⟨hs, ?_⟩) h.undisturbed
  have hne : chat' ≠ chat := fun heq => by
    have hs' : s.served chat' = some t := hs
    rw [heq, h.served_eq_none hserving] at hs'
    cases hs'
  have hold := h.served chat' t hs
  simp only [State.serving] at hold ⊢
  rwa [hj chat' hne]

/-- The call a task awaits comes back. -/
theorem answered (h : Kept keyOf s ledger) {c : Call}
    {k : Except Fault c.Reply → Prog Unit} (ht : s.tasks[t]? = some (.ask (.await c) k))
    (r : Except Fault c.Reply) (hr : s.answers c r = true) :
    ∃ ledger', Kept keyOf (s.goesOn t (k r)) ledger' := by
  have hheld : (discipline.next (ledger t) (.await c) r).held = (ledger t).held := by
    cases c <;> first | rfl | skip
    rcases r with _ | (_ | _) <;> rfl
  refine h.reads ht r (.inl hheld) fun denied hdead => h.served_eq_none ?_
  cases c with
  | isHealthy chat =>
      rcases r with _ | (_ | _)
      · cases hdead
      · have heq : chat = denied := Option.some.inj hdead
        have halive : false = s.alive chat := of_decide_eq_true hr
        rw [← heq, State.serving, ← halive, Bool.and_false]
      · cases hdead
  | _ => cases hdead

/-- What the owner does to an entry changes that entry only. -/
theorem owned (h : Kept keyOf s ledger) {chat : Int} {op : OwnerOp}
    (hserving : s.serving chat = false) (hst : s.owner chat op = some s') :
    ∃ ledger', Kept keyOf s' ledger' := by
  have hnote {c : Changes} {j : ProvisioningJournal} (hj : s.journal.note chat c = some j) :
      ∃ ledger', Kept keyOf { s with journal := j } ledger' :=
    h.overwritten hserving fun chat' hne => by
      rw [ProvisioningJournal.get_note hj, if_neg hne]
  cases op with
  | retry =>
      obtain ⟨_, _, hst⟩ := Option.bind_eq_some_iff.mp hst
      obtain ⟨_, _, hst⟩ := Option.bind_eq_some_iff.mp hst
      obtain ⟨j, hj, hst⟩ := Option.bind_eq_some_iff.mp hst
      obtain rfl := Option.some.inj hst
      exact hnote hj
  | forget =>
      obtain rfl := Option.some.inj hst
      exact h.overwritten hserving fun chat' hne => by
        rw [ProvisioningJournal.get_forget, if_neg hne]
  | abandon =>
      obtain ⟨j, hj, hst⟩ := Option.bind_eq_some_iff.mp hst
      obtain rfl := Option.some.inj hst
      exact hnote hj

theorem of_awaiting {x : Prog Unit} (h : s.awaiting t = some x) : s.tasks[t]? = some x := by
  simp only [State.awaiting] at h
  split at h
  · exact h
  · cases h

/-- The turn of a task that stands in line. -/
theorem turned (h : Kept keyOf s ledger) {key : ContactKey} {chat : Int}
    {k : Claimed → Prog Unit} {slot : Slot} {how : Claimed}
    (ht : s.awaiting t = some (.ask (.claim key chat) k))
    (hturn : (s.slots key).turn t = some (slot, how))
    (hok : s.upToDate keyOf (.turn t) = true) :
    ∃ ledger', Kept keyOf ((s.setSlot key slot).goesOn t (k how)) ledger' := by
  obtain ⟨hfree, ⟨rfl, hslot⟩ | ⟨rfl, hslot⟩⟩ := Slot.turn_some hturn
  · obtain ⟨hkey, hserving⟩ : key = keyOf chat ∧ s.serving chat = false := by
      simpa [State.upToDate, State.takesUp, State.overwrites, ht, hturn] using hok
    exact h.enters (of_awaiting ht) hslot (.inl ⟨rfl, hfree⟩) hkey hserving
  · exact h.waits (of_awaiting ht) (hslot.trans hfree.symm) (.inl rfl)

/-- **Step lemma**: a step that takes contacts up by the journal as it stands. -/
theorem step (h : Kept keyOf s ledger) {e : Event} (hok : s.upToDate keyOf e = true)
    (hst : s.step e = some s') : ∃ ledger', Kept keyOf s' ledger' := by
  cases e with
  | begin entries =>
      simp only [State.step] at hst
      split at hst
      · obtain rfl := Option.some.inj hst
        refine h.outside rfl (.inl rfl) (fun _ => rfl) (fun chat t hs => ⟨hs, ?_⟩) h.undisturbed
        have hold := h.served chat t hs
        simp only [State.serving, Bool.and_eq_true, Option.any_eq_true] at hold ⊢
        obtain ⟨⟨e, he, hfin⟩, halive⟩ := hold
        exact ⟨⟨e, ProvisioningJournal.get_begin_finished he hfin entries, hfin⟩, halive⟩
      · cases hst
  | owner op chat =>
      have hserving : s.serving chat = false := by
        simpa [State.upToDate, State.takesUp, State.overwrites] using hok
      simp only [State.step] at hst
      split at hst
      · exact h.owned hserving hst
      · cases hst
  | run cfg =>
      simp only [State.step] at hst
      split at hst
      · obtain rfl := Option.some.inj hst
        refine h.starts (fun x hx => ?_) fun t ht => (Option.some.inj ht).le
        obtain rfl := List.mem_singleton.mp hx
        exact disciplined_run cfg
      · cases hst
  | reconcile cfg =>
      simp only [State.step] at hst
      split at hst
      · next hnone =>
          obtain rfl := Option.some.inj hst
          refine h.starts (fun x hx => ?_) fun t ht => absurd (hnone.symm.trans ht) nofun
          obtain ⟨entry, _, rfl⟩ := List.mem_map.mp hx
          exact disciplined_reconcile cfg entry
      · cases hst
  | go =>
      obtain ⟨t, hrun, hst⟩ := Option.bind_eq_some_iff.mp hst
      obtain ⟨x, hx, hst⟩ := Option.bind_eq_some_iff.mp hst
      obtain rfl := Option.some.inj hst
      exact h.go hrun hx hok
  | answer t a =>
      simp only [State.step] at hst
      split at hst
      · next c k ht =>
          split at hst
          · next hr =>
              obtain rfl := Option.some.inj hst
              exact h.answered (of_awaiting ht) (a c) hr
          · cases hst
      · cases hst
  | turn t =>
      simp only [State.step] at hst
      split at hst
      · next key chat k ht =>
          split at hst
          · next slot how hturn =>
              obtain rfl := Option.some.inj hst
              exact h.turned ht hturn hok
          · cases hst
      · cases hst
  | cancel t =>
      simp only [State.step] at hst
      split at hst
      · next key chat k ht =>
          obtain rfl := Option.some.inj hst
          exact h.waits (of_awaiting ht) rfl (.inr rfl)
      · cases hst
  | dies chat =>
      obtain rfl := Option.some.inj hst
      refine h.outside rfl (.inl rfl) (fun _ => rfl) (fun chat' t hs => ?_) h.undisturbed
      simp only at hs
      split at hs
      · cases hs
      · next hne =>
          refine ⟨hs, ?_⟩
          have hold := h.served chat' t hs
          simp only [State.serving] at hold ⊢
          rwa [if_neg hne]
  | recovers chat =>
      obtain rfl := Option.some.inj hst
      refine h.outside rfl (.inl rfl) (fun _ => rfl) (fun chat' t hs => ⟨hs, ?_⟩) h.undisturbed
      have hold := h.served chat' t hs
      simp only [State.serving, Bool.and_eq_true] at hold ⊢
      refine ⟨hold.1, ?_⟩
      split
      · rfl
      · exact hold.2

end Kept

theorem kept_start (keyOf : Int → ContactKey) : Kept keyOf .start fun _ => .empty where
  disciplined _ _ h := by cases h
  dead _ _ h := by cases h
  holder _ _ h := by cases h
  nested _ := .nil
  served _ _ h := by cases h
  finished _ _ h := by cases h
  undisturbed := nofun

/-- **No run undoes another**, in every run in which each contact is taken up, and each entry
written over, by the journal as it stands. -/
theorem no_run_undoes_another (keyOf : Int → ContactKey) (s : State)
    (h : Run.Reaches sys (fun s e => s.upToDate keyOf e = true) s) : s.Undisturbed := by
  obtain ⟨_, hkept⟩ : ∃ ledger, Kept keyOf s ledger := by
    induction h with
    | start => exact ⟨_, kept_start keyOf⟩
    | step _ hok hst ih =>
        obtain ⟨_, hs⟩ := ih
        exact hs.step hok hst
  exact hkept.undisturbed

/-! ## two runs over one contact -/

/-- What the ports answer where all is well. -/
def allWell (username : UsernameState) : ∀ c : Call, Except Fault c.Reply
  | .isHealthy _ => .ok true
  | .checkUsername _ => .ok username
  | .botIdFor _ => .ok (some 5)
  | .createBot .. => .ok ⟨"token", some 5⟩
  | .saveToken .. => .ok "BOT_TOKEN"
  | .startWorker .. => .ok "bridge"
  | .limit | .preflight .. | .prepare _ | .report | .forgetBot .. | .stopBridge _
  | .wipeDialog .. | .sendStart .. | .markActive _ => .ok ()

/-- A task comes back from its await and goes on for `n` operations. -/
def comesBack (task : Nat) (username : UsernameState) (n : Nat) : List Event :=
  .answer task (allWell username) :: List.replicate n .go

def picked (chats : List Int) : Config where
  chatIds := some chats
  displayNameOf := (·.title)

/-- A run over two contacts is at the first of them while another brings the second up. -/
def overtaken : List Event :=
  [.begin [⟨1, "first_bot", "", none, .pending, none, none, none, none, none, false, 1⟩,
      ⟨2, "second_bot", "", none, .pending, none, none, none, none, none, false, 1⟩],
    .run (picked [1, 2])] ++ List.replicate 3 .go ++
    [.run (picked [2])] ++ List.replicate 3 .go ++
    comesBack 1 .owned 1 ++ comesBack 1 .owned 1 ++ comesBack 1 .owned 2 ++
    comesBack 1 .owned 1 ++ comesBack 1 .owned 2 ++ comesBack 1 .owned 2 ++
    comesBack 1 .owned 1 ++ comesBack 1 .owned 2 ++ [.recovers 2] ++ comesBack 1 .owned 2 ++
    comesBack 1 .owned 2 ++ comesBack 1 .owned 1 ++ comesBack 1 .owned 4

/-- The second run makes its five calls, and nobody has brought the contact up before. -/
theorem no_run_undoes_another_overtaken :
    ∃ s, Run.Reaches sys (fun s e => s.upToDate .chat e = true) s ∧
      s.served 2 = some 1 ∧ s.calls.length = 5 ∧ s.Undisturbed := by
  obtain ⟨s, hs, hfinal⟩ := Run.Reaches.exists_of_play sys (fun s e => s.upToDate .chat e)
    overtaken (fun s => decide (s.served 2 = some 1 ∧ s.calls.length = 5)) (by decide +kernel)
  have hcalls := of_decide_eq_true hfinal
  exact ⟨s, hs, hcalls.1, hcalls.2, no_run_undoes_another .chat s hs⟩

/-- The first contact fails, and the run takes up the second by its copy. -/
def undoing : List Event :=
  overtaken ++ comesBack 0 .foreign 1 ++ comesBack 0 .foreign 4 ++ comesBack 0 .owned 1 ++
    comesBack 0 .owned 1 ++ comesBack 0 .owned 2 ++ comesBack 0 .owned 1 ++ comesBack 0 .owned 2

/-- A second bot is created, and its token saved, while the bridge another run has brought up serves
the contact. -/
theorem not_no_run_undoes_another :
    ∃ s, Run.Reaches sys Run.anyStep s ∧
      (⟨0, .createBot 2 "" "second_bot", 2, some 1⟩ : Made) ∈ s.calls ∧
      (⟨0, .saveToken 2 "second_bot" "token", 2, some 1⟩ : Made) ∈ s.calls ∧ s.alive 2 = true ∧
      ¬s.Undisturbed := by
  obtain ⟨s, hs, hfinal⟩ := Run.Reaches.exists_of_play sys (fun _ _ => true) undoing
    (fun s => decide ((⟨0, .createBot 2 "" "second_bot", 2, some 1⟩ : Made) ∈ s.calls ∧
      (⟨0, .saveToken 2 "second_bot" "token", 2, some 1⟩ : Made) ∈ s.calls ∧ s.alive 2 = true))
    (by decide +kernel)
  obtain ⟨hcreated, hsaved, halive⟩ := of_decide_eq_true hfinal
  exact ⟨s, hs.mono fun _ _ _ => trivial, hcreated, hsaved, halive,
    fun h => absurd (h _ hcreated 1 rfl) (by decide)⟩

end Telemax.Provisioning
